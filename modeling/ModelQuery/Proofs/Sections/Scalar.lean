import ModelQuery.Proofs.Number.Digits
import ModelQuery.Sections.Scalar
import Mathlib.Data.List.Basic

/-! Whole numbers that are read as they were written. They are taken neither for times nor for
numbers with a fraction. -/

namespace ModelQuery.Sections

theorem digits?_of_isDigit {cs : List Char} (hne : cs ≠ []) (hd : ∀ c ∈ cs, c.isDigit = true) :
    digits? Char.isDigit cs = some cs := by
  induction cs with
  | nil => exact absurd rfl hne
  | cons c cs ih =>
    obtain ⟨hc, hcs⟩ := List.forall_mem_cons.mp hd
    cases cs with
    | nil => simp [digits?, hc]
    | cons d cs =>
      have hunderscore : d ≠ '_' := by
        rintro rfl
        exact absurd (hcs '_' List.mem_cons_self) (by decide)
      rw [digits?, if_pos hc, ih (List.cons_ne_nil d cs) hcs, Option.map_some]
      · exact List.cons_ne_nil d cs
      · intro rest he
        exact hunderscore (List.cons.inj he).1

theorem decimals?_toDigits (n : Nat) :
    decimals? (Nat.toDigits 10 n) = some (Nat.toDigits 10 n) := by
  have hstart : (Nat.toDigits 10 n).length = 1 ∨ (Nat.toDigits 10 n).head? ≠ some '0' := by
    by_cases hzero : (Nat.toDigits 10 n).head? = some '0'
    · rw [Number.head?_toDigits hzero, Nat.toDigits_zero]
      exact Or.inl rfl
    · exact Or.inr hzero
  rw [decimals?, digits?_of_isDigit Nat.toDigits_ne_nil fun _ => Number.isDigit_of_mem_toDigits,
    Option.bind_some, if_pos hstart]

theorem ofDigits_eq {cs : List Char} (hd : ∀ c ∈ cs, c.isDigit = true) :
    ofDigits 10 cs = Nat.ofDigitChars 10 cs 0 := by
  rw [ofDigits, Nat.ofDigitChars_eq_foldl]
  refine List.foldl_ext _ _ 0 fun n c hc => ?_
  have hdigit := Number.forall_isDigit
    (fun c => (Document.Lexeme.hexDigit? c).getD 0 == c.toNat - '0'.toNat) (by decide) (hd c hc)
  rw [beq_iff_eq.mp hdigit]

theorem ofDigits_toDigits (n : Nat) : ofDigits 10 (Nat.toDigits 10 n) = n := by
  rw [ofDigits_eq fun _ => Number.isDigit_of_mem_toDigits, Nat.ofDigitChars_ten_toDigits]

theorem integer?_toString (n : Int) : integer? (toString n).toList = some n := by
  cases n with
  | ofNat m =>
    -- no letter stands behind a zero
    have hbase : ∀ c : Char, c.isDigit = false → ∀ cs, Nat.toDigits 10 m ≠ '0' :: c :: cs := by
      intro c hc cs he
      refine Number.notMem_toDigits hc m ?_
      rw [he]
      exact List.mem_cons_of_mem _ List.mem_cons_self
    rw [Number.toList_ofNat, integer?]
    · simp [Number.signed_toDigits, decimals?_toDigits, ofDigits_toDigits]
    · exact fun cs => hbase 'x' (by decide) cs
    · exact fun cs => hbase 'o' (by decide) cs
    · exact fun cs => hbase 'b' (by decide) cs
  | negSucc m =>
    rw [Number.toList_negSucc, integer?, Number.signed]
    · simp [decimals?_toDigits, ofDigits_toDigits, Int.negSucc_eq]
    all_goals exact fun _ he => absurd (List.cons.inj he).1 (by decide)

theorem int64?_toString {n : Int} (hlow : -2 ^ 63 ≤ n) (hhigh : n < 2 ^ 63) :
    int64? (toString n).toList = some n := by
  have hrange : Int64.minValue.toInt ≤ n ∧ n ≤ Int64.maxValue.toInt := by
    have hmin : Int64.minValue.toInt = -2 ^ 63 := by decide
    have hmax : Int64.maxValue.toInt = 2 ^ 63 - 1 := by decide
    omega
  rw [int64?, integer?_toString, Option.bind_some, if_pos hrange]

/-- Neither times nor dates are without colons, or hyphens behind the first character. -/
theorem isMoment_eq_false {cs : List Char} (hcolon : ':' ∉ cs) (hhyphen : '-' ∉ cs.tail) :
    isMoment cs = false := by
  have htime : ∀ cs, ':' ∉ cs → isTime cs = false := by
    intro cs hcolon
    unfold isTime
    split
    · simp at hcolon
    · rfl
  have hdate : ∀ cs, '-' ∉ cs.tail → isDate cs = false := by
    intro cs hhyphen
    unfold isDate
    split
    · simp at hhyphen
    · rfl
  have hfront : isDate (cs.take 10) = false :=
    hdate _ fun hm => hhyphen ((List.take_sublist 10 cs).tail.subset hm)
  rw [isMoment, htime cs hcolon, hdate cs hhyphen, List.splitAt_eq]
  split
  · next he =>
    obtain ⟨rfl, -⟩ := Prod.mk.inj he
    simp [hfront]
  · rfl

theorem scalar?_toString {n : Int} (hlow : -2 ^ 63 ≤ n) (hhigh : n < 2 ^ 63) :
    scalar? (toString n).toList = some (.integer n) := by
  have hletter := @Number.toString_ne_of_letter n
  have hcolon : ':' ∉ (toString n).toList := fun hm =>
    hletter ⟨':', hm, by decide, by decide⟩ rfl
  have hhyphen : '-' ∉ (toString n).toList.tail := by
    cases n with
    | ofNat m =>
      rw [Number.toList_ofNat]
      exact fun hm => Number.notMem_toDigits (by decide) m (List.mem_of_mem_tail hm)
    | negSucc m =>
      rw [Number.toList_negSucc, List.tail_cons]
      exact Number.notMem_toDigits (by decide) (m + 1)
  rw [scalar?, if_neg (hletter ⟨'t', by decide⟩), if_neg (hletter ⟨'f', by decide⟩),
    isMoment_eq_false hcolon hhyphen, int64?_toString hlow hhigh]
  rfl

end ModelQuery.Sections
