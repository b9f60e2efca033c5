import ModelQuery.Text.EditDistance
import Mathlib.Order.Bounds.Basic
import Mathlib.Order.MinMax

/-! The edit distance is the least number of edits that turn one text into the other. A recursion
over both texts stands between the two: what it takes to make the first characters equal, and then
the rest. The rows of the table hold its values for the texts read so far, last character first. -/

namespace ModelQuery.Text

/-- One character put in, taken out or replaced. -/
inductive Edit : List Char → List Char → Prop
  | insert (front back : List Char) (c : Char) : Edit (front ++ back) (front ++ c :: back)
  | remove (front back : List Char) (c : Char) : Edit (front ++ c :: back) (front ++ back)
  | replace (front back : List Char) (c d : Char) :
    Edit (front ++ c :: back) (front ++ d :: back)

/-- So many edits, one after the other. -/
inductive Edits : Nat → List Char → List Char → Prop
  | none (a : List Char) : Edits 0 a a
  | more {n : Nat} {a b c : List Char} (h : Edit a b) (hs : Edits n b c) : Edits (n + 1) a c

theorem Edit.cons {a b : List Char} (h : Edit a b) (x : Char) : Edit (x :: a) (x :: b) := by
  cases h with
  | insert front back c => exact insert (x :: front) back c
  | remove front back c => exact remove (x :: front) back c
  | replace front back c d => exact replace (x :: front) back c d

theorem Edit.reverse {a b : List Char} (h : Edit a b) : Edit a.reverse b.reverse := by
  cases h with
  | insert front back c => simpa using insert back.reverse front.reverse c
  | remove front back c => simpa using remove back.reverse front.reverse c
  | replace front back c d => simpa using replace back.reverse front.reverse c d

namespace Edits

variable {n : Nat} {a b : List Char}

theorem cons (h : Edits n a b) (x : Char) : Edits n (x :: a) (x :: b) := by
  induction h with
  | none a => exact none (x :: a)
  | more h _ ih => exact more (h.cons x) ih

theorem reverse (h : Edits n a b) : Edits n a.reverse b.reverse := by
  induction h with
  | none a => exact none a.reverse
  | more h _ ih => exact more h.reverse ih

theorem reverse_iff : Edits n a.reverse b.reverse ↔ Edits n a b :=
  ⟨fun h => by simpa using h.reverse, reverse⟩

theorem zero_iff : Edits 0 a b ↔ a = b := by
  constructor
  · intro h
    cases h
    rfl
  · rintro rfl
    exact none a

end Edits

/-- How many edits it takes if the texts are gone through from the front. -/
def fewest : List Char → List Char → Nat
  | [], b => b.length
  | a, [] => a.length
  | x :: a, y :: b =>
    min (min (fewest a (y :: b) + 1) (fewest (x :: a) b + 1))
      (if x = y then fewest a b else fewest a b + 1)
termination_by a b => a.length + b.length

@[simp] theorem fewest_nil (b : List Char) : fewest [] b = b.length := by
  rw [fewest]

@[simp] theorem fewest_to_nil (a : List Char) : fewest a [] = a.length := by
  cases a <;> simp [fewest]

theorem fewest_cons_cons (x y : Char) (a b : List Char) :
    fewest (x :: a) (y :: b) = min (min (fewest a (y :: b) + 1) (fewest (x :: a) b + 1))
      (if x = y then fewest a b else fewest a b + 1) := by
  rw [fewest]

theorem fewest_self (a : List Char) : fewest a a = 0 := by
  induction a with
  | nil => simp
  | cons x a ih => simp [fewest_cons_cons, ih]

theorem edits_of_nil (b : List Char) : Edits b.length [] b := by
  induction b with
  | nil => exact .none []
  | cons y b ih => exact .more (.insert [] [] y) (ih.cons y)

theorem edits_to_nil (a : List Char) : Edits a.length a [] := by
  induction a with
  | nil => exact .none []
  | cons x a ih => exact .more (.remove [] a x) ih

theorem edits_fewest (a b : List Char) : Edits (fewest a b) a b := by
  fun_induction fewest a b with
  | case1 b => exact edits_of_nil b
  | case2 a => exact edits_to_nil a
  | case3 x a y b hremove hinsert hsame =>
    have hrest : Edits (if x = y then fewest a b else fewest a b + 1) (x :: a) (y :: b) := by
      split
      · next hxy => exact hxy ▸ hsame.cons x
      · exact .more (.replace [] a x y) (hsame.cons y)
    rcases min_choice (min (fewest a (y :: b) + 1) (fewest (x :: a) b + 1))
      (if x = y then fewest a b else fewest a b + 1) with hmin | hmin <;> rw [hmin]
    · rcases min_choice (fewest a (y :: b) + 1) (fewest (x :: a) b + 1) with hmin | hmin <;>
        rw [hmin]
      · exact .more (.remove [] a x) hremove
      · exact .more (.insert [] (x :: a) y) (hinsert.cons y)
    · exact hrest

theorem fewest_cons_left_le (x : Char) (a c : List Char) :
    fewest (x :: a) c ≤ fewest a c + 1 := by
  cases c with
  | nil => simp
  | cons z c =>
    rw [fewest_cons_cons]
    omega

theorem fewest_cons_right_le (z : Char) (a c : List Char) :
    fewest a (z :: c) ≤ fewest a c + 1 := by
  cases a with
  | nil => simp
  | cons x a =>
    rw [fewest_cons_cons]
    omega

theorem fewest_le_cons_left (x : Char) (a c : List Char) :
    fewest a c ≤ fewest (x :: a) c + 1 := by
  induction c with
  | nil => simp; omega
  | cons z c ih =>
    have hlast := fewest_cons_right_le z a c
    rw [fewest_cons_cons]
    split <;> omega

theorem fewest_replace_le (x y : Char) (a c : List Char) :
    fewest (x :: a) c ≤ fewest (y :: a) c + 1 := by
  induction c with
  | nil => simp
  | cons z c ih =>
    rw [fewest_cons_cons, fewest_cons_cons]
    split <;> split <;> omega

/-- What is in front of both texts adds nothing to a difference of one. -/
theorem fewest_append_le {a b : List Char} (h : ∀ c, fewest a c ≤ fewest b c + 1)
    (front c : List Char) : fewest (front ++ a) c ≤ fewest (front ++ b) c + 1 := by
  -- `fewest` shortens either text, so that for each `front` there is an induction on `c`
  induction front generalizing c with
  | nil => exact h c
  | cons x front ih =>
    induction c with
    | nil => simpa using ih []
    | cons z c ihc =>
      have hremove := ih (z :: c)
      have hsame := ih c
      simp only [List.cons_append] at ihc ⊢
      rw [fewest_cons_cons, fewest_cons_cons]
      split <;> omega

/-- One edit changes the distance to any text by one at most. -/
theorem Edit.fewest_le {a b : List Char} (h : Edit a b) (c : List Char) :
    fewest a c ≤ fewest b c + 1 := by
  cases h with
  | insert front back x => exact fewest_append_le (fewest_le_cons_left x back) front c
  | remove front back x => exact fewest_append_le (fewest_cons_left_le x back) front c
  | replace front back x y => exact fewest_append_le (fewest_replace_le x y back) front c

theorem Edits.fewest_le {n : Nat} {a b : List Char} (h : Edits n a b) : fewest a b ≤ n := by
  induction h with
  | none a => exact Nat.le_of_eq (fewest_self a)
  | more h _ ih => exact Nat.le_trans (h.fewest_le _) (Nat.add_le_add_right ih 1)

theorem isLeast_fewest (a b : List Char) : IsLeast {n | Edits n a b} (fewest a b) :=
  ⟨edits_fewest a b, fun _ h => h.fewest_le⟩

/-! ### The rows of the table -/

/-- The entries of a row for what stands in `b` behind the text `p`. The row is for the text `a`, and
both texts are given last character first. -/
def rowFrom (a p : List Char) : List Char → List Nat
  | [] => []
  | y :: b => fewest a (y :: p) :: rowFrom a (y :: p) b

theorem editRow_rowFrom (c : Char) (a p b : List Char) :
    editRow c (fewest a p) (fewest (c :: a) p) b (rowFrom a p b) = rowFrom (c :: a) p b := by
  induction b generalizing p with
  | nil => rfl
  | cons y b ih => simp only [rowFrom, editRow, ← fewest_cons_cons, ih]

theorem nextRow_rowFrom (c : Char) (a b : List Char) :
    nextRow b (fewest a [] :: rowFrom a [] b) c =
      fewest (c :: a) [] :: rowFrom (c :: a) [] b := by
  have hleft : fewest a [] + 1 = fewest (c :: a) [] := by simp
  rw [nextRow, hleft, editRow_rowFrom]

theorem foldl_nextRow_rowFrom (text a b : List Char) :
    text.foldl (nextRow b) (fewest a [] :: rowFrom a [] b) =
      fewest (text.reverse ++ a) [] :: rowFrom (text.reverse ++ a) [] b := by
  induction text generalizing a with
  | nil => rfl
  | cons c text ih =>
    rw [List.foldl_cons, nextRow_rowFrom, ih, List.reverse_cons, List.append_assoc]
    rfl

theorem rowFrom_nil (p b : List Char) :
    rowFrom [] p b = List.range' (p.length + 1) b.length := by
  induction b generalizing p with
  | nil => rfl
  | cons y b ih => simp [rowFrom, ih, List.range'_succ]

theorem getLast?_rowFrom (a p b : List Char) :
    (fewest a p :: rowFrom a p b).getLast? = some (fewest a (b.reverse ++ p)) := by
  induction b generalizing p with
  | nil => rfl
  | cons y b ih => simpa [rowFrom] using ih (y :: p)

theorem editDistance_eq_fewest (a b : List Char) :
    editDistance a b = fewest a.reverse b.reverse := by
  have hfirst : List.range (b.length + 1) = fewest [] [] :: rowFrom [] [] b := by
    rw [rowFrom_nil, List.range_eq_range', List.range'_succ]
    simp
  rw [editDistance, hfirst, foldl_nextRow_rowFrom, getLast?_rowFrom]
  simp

/-- The distance is the length of a shortest way from one text to the other. -/
theorem isLeast_editDistance (a b : List Char) : IsLeast {n | Edits n a b} (editDistance a b) := by
  simpa only [editDistance_eq_fewest, Edits.reverse_iff] using isLeast_fewest a.reverse b.reverse

example : editDistance "kitten".toList "sitting".toList = 3 := by
  decide

theorem editDistance_eq_zero_iff {a b : List Char} : editDistance a b = 0 ↔ a = b := by
  have hleast := isLeast_editDistance a b
  rw [← Edits.zero_iff]
  constructor
  · intro h
    exact h ▸ hleast.1
  · intro h
    exact Nat.le_zero.mp (hleast.2 h)

end ModelQuery.Text
