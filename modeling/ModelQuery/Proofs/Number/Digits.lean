import ModelQuery.Number.Reading
import Mathlib.Algebra.Ring.Int.Defs
import Mathlib.Algebra.Ring.Nat

/-! Reading the digits that a number is written with. -/

namespace ModelQuery.Number

/-- What is so of the ten digits is so of every digit. -/
theorem forall_isDigit (p : Char → Bool)
    (h : (List.range 10).all (fun n => p (Char.ofNat (48 + n))) = true) {c : Char}
    (hc : c.isDigit = true) : p c = true := by
  have hbounds : 48 ≤ c.toNat ∧ c.toNat ≤ 57 := by
    simpa [Char.isDigit, UInt32.le_iff_toNat_le] using hc
  have hn := List.all_eq_true.mp h (c.toNat - 48) (List.mem_range.mpr (by omega))
  rwa [Nat.add_sub_cancel' hbounds.1, Char.ofNat_toNat] at hn

/-- A text of digits, however many zeros it begins with. -/
theorem natural?_of_isDigit {cs : List Char} (hne : cs ≠ [])
    (hd : ∀ c ∈ cs, c.isDigit = true) : natural? cs = some (Nat.ofDigitChars 10 cs 0) := by
  have hall : cs.all Char.isDigit = true := List.all_eq_true.mpr hd
  rw [natural?, hall, Nat.ofDigitChars_eq_foldl, List.isEmpty_eq_false_iff.mpr hne]
  rfl

theorem isDigit_of_mem_toDigits {n : Nat} {c : Char} (h : c ∈ Nat.toDigits 10 n) :
    c.isDigit = true :=
  Nat.isDigit_of_mem_toDigits (by decide) (by decide) h

theorem notMem_toDigits {c : Char} (h : c.isDigit = false) (n : Nat) : c ∉ Nat.toDigits 10 n :=
  fun hc => Bool.false_ne_true (h.symm.trans (isDigit_of_mem_toDigits hc))

/-- Zeros in front of a number. -/
theorem natural?_zeros_append (count n : Nat) :
    natural? (List.replicate count '0' ++ Nat.toDigits 10 n) = some n := by
  rw [natural?_of_isDigit (by simp) fun c hc => ?_]
  · have hzeros : (List.replicate count '0').foldl
        (fun n c => 10 * n + (c.toNat - '0'.toNat)) 0 = 0 := by
      rw [← Nat.ofDigitChars_eq_foldl, Nat.ofDigitChars_replicate_zero, Nat.mul_zero]
    rw [Nat.ofDigitChars_eq_foldl, List.foldl_append, hzeros, ← Nat.ofDigitChars_eq_foldl,
      Nat.ofDigitChars_ten_toDigits]
  · rcases List.mem_append.mp hc with hc | hc
    · rw [List.eq_of_mem_replicate hc]
      decide
    · exact isDigit_of_mem_toDigits hc

/-- Only zero begins with the digit zero. -/
theorem head?_toDigits {n : Nat} (h : (Nat.toDigits 10 n).head? = some '0') : n = 0 := by
  induction n using Nat.strongRecOn with
  | ind n ih =>
    by_cases hn : n < 10
    · rw [Nat.toDigits_of_lt_base hn] at h
      have hall : ∀ d < 10, [Nat.digitChar d].head? = some '0' → d = 0 := by decide
      exact hall n hn h
    · rw [Nat.toDigits_of_base_le (by decide) (Nat.le_of_not_lt hn),
        List.head?_append, List.head?_eq_some_head Nat.toDigits_ne_nil, Option.some_or,
        ← List.head?_eq_some_head] at h
      have hzero := ih (n / 10) (by omega) h
      omega

/-- The first digits of a number are those of a smaller one. -/
theorem exists_toDigits_eq {n : Nat} {front : List Char} (hne : front ≠ [])
    (h : front <+: Nat.toDigits 10 n) :
    ∃ m, front = Nat.toDigits 10 m ∧ m ≤ n ∧ (0 < n → 0 < m) := by
  induction n using Nat.strongRecOn with
  | ind n ih =>
    by_cases hn : n < 10
    · rw [Nat.toDigits_of_lt_base hn] at h
      obtain ⟨rest, rfl, hrest⟩ := (List.prefix_cons_iff.mp h).resolve_left hne
      obtain rfl := List.prefix_nil.mp hrest
      exact ⟨n, (Nat.toDigits_of_lt_base hn).symm, Nat.le_refl n, id⟩
    · have hsplit := Nat.toDigits_of_base_le (by decide) (Nat.le_of_not_lt hn)
      rw [hsplit] at h
      rcases List.prefix_concat_iff.mp h with hwhole | hshort
      · exact ⟨n, hwhole.trans hsplit.symm, Nat.le_refl n, id⟩
      · obtain ⟨m, hm, hle, hpos⟩ := ih (n / 10) (by omega) hshort
        exact ⟨m, hm, by omega, fun _ => hpos (by omega)⟩

theorem ofDigitChars_lt {cs : List Char} (hd : ∀ c ∈ cs, c.isDigit = true) :
    Nat.ofDigitChars 10 cs 0 < 10 ^ cs.length := by
  induction cs with
  | nil => decide
  | cons c cs ih =>
    obtain ⟨hc, hcs⟩ := List.forall_mem_cons.mp hd
    have hdigit : c.toNat - '0'.toNat ≤ 9 := by
      have := forall_isDigit (fun c => c.toNat - '0'.toNat ≤ 9) (by decide) hc
      simpa using this
    have hrest := ih hcs
    have hstep : Nat.ofDigitChars 10 (c :: cs) 0 =
        10 ^ cs.length * (c.toNat - '0'.toNat) + Nat.ofDigitChars 10 cs 0 := by
      rw [Nat.ofDigitChars_eq_foldl, List.foldl_cons, ← Nat.ofDigitChars_eq_foldl,
        Nat.ofDigitChars_eq_ofDigitChars_zero, Nat.mul_zero, Nat.zero_add]
    have hle := Nat.mul_le_mul_left (10 ^ cs.length) hdigit
    rw [hstep, List.length_cons, Nat.pow_succ]
    omega

theorem toList_ofNat (m : Nat) : (toString (Int.ofNat m)).toList = Nat.toDigits 10 m :=
  Nat.toList_repr

theorem toList_negSucc (m : Nat) :
    (toString (Int.negSucc m)).toList = '-' :: Nat.toDigits 10 (m + 1) := by
  show ("-" ++ Nat.repr (m + 1)).toList = _
  rw [String.toList_append, Nat.toList_repr]
  rfl

/-- What a whole number is written with. -/
theorem mem_toString {n : Int} {c : Char} (h : c ∈ (toString n).toList) :
    c = '-' ∨ c.isDigit = true := by
  cases n with
  | ofNat m =>
    rw [toList_ofNat] at h
    exact Or.inr (isDigit_of_mem_toDigits h)
  | negSucc m =>
    rw [toList_negSucc] at h
    exact (List.mem_cons.mp h).imp_right isDigit_of_mem_toDigits

theorem toString_ne_of_letter (n : Int) {word : List Char}
    (h : ∃ c ∈ word, c ≠ '-' ∧ c.isDigit = false) : (toString n).toList ≠ word := by
  rintro rfl
  obtain ⟨c, hc, hminus, hdigit⟩ := h
  rcases mem_toString hc with hm | hm
  · exact hminus hm
  · exact Bool.false_ne_true (hdigit.symm.trans hm)

theorem toString_ne_nil (n : Int) : (toString n).toList ≠ [] := by
  cases n with
  | ofNat m =>
    rw [toList_ofNat]
    exact Nat.toDigits_ne_nil
  | negSucc m =>
    rw [toList_negSucc]
    exact List.cons_ne_nil _ _

theorem natural?_toDigits (n : Nat) : natural? (Nat.toDigits 10 n) = some n :=
  natural?_zeros_append 0 n

/-- A digit is no sign, so that nothing is taken off. -/
theorem signed_toDigits (n : Nat) : signed (Nat.toDigits 10 n) = (false, Nat.toDigits 10 n) := by
  cases hd : Nat.toDigits 10 n with
  | nil => exact absurd hd Nat.toDigits_ne_nil
  | cons c cs =>
    have hc : c.isDigit = true := isDigit_of_mem_toDigits (n := n) (by simp [hd])
    have hsign := forall_isDigit (fun c => c != '-' && c != '+') (by decide) hc
    simp only [Bool.and_eq_true, bne_iff_ne] at hsign
    simp [signed, hsign.1, hsign.2]

theorem int?_toString (n : Int) : int? (toString n).toList = some n := by
  cases n with
  | ofNat m =>
    rw [toList_ofNat, int?, signed_toDigits]
    simp [natural?_toDigits]
  | negSucc m =>
    rw [toList_negSucc, int?, signed]
    simp only [natural?_toDigits]
    rfl

theorem int64?_toString (n : Int64) : int64? (toString n.toInt).toList = some n := by
  have hrange : Int64.minValue.toInt ≤ n.toInt ∧ n.toInt ≤ Int64.maxValue.toInt :=
    ⟨Int64.minValue_le_toInt n, Int64.toInt_le n⟩
  rw [int64?, int?_toString, Option.bind_some, if_pos hrange, Int64.ofInt_toInt]

theorem toString_toInt_inj {m n : Int64} :
    (toString m.toInt).toList = (toString n.toInt).toList ↔ m = n := by
  refine ⟨fun h => ?_, fun h => h ▸ rfl⟩
  have hread := congrArg int64? h
  rw [int64?_toString, int64?_toString] at hread
  exact Option.some.inj hread

end ModelQuery.Number
