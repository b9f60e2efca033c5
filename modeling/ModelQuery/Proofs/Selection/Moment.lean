import ModelQuery.Proofs.Number.Digits
import ModelQuery.Proofs.Selection.Calendar
import ModelQuery.Selection.Reading
import Mathlib.Data.List.TakeWhile
import Mathlib.Data.Nat.Digits.Defs

/-! Moments that are read as they were written. -/

namespace ModelQuery.Instant

/-- What a moment can be: a second of the calendar with its billionths. Only the last second of a
minute can have more than a whole second of them. -/
structure IsMoment (t : Instant) : Prop where
  first_le : firstSecond ≤ t.seconds
  le_last : t.seconds ≤ last.seconds
  nanos_lt : t.nanos < 2000000000
  leap : 1000000000 ≤ t.nanos → t.seconds % 60 = 59

/-! ### Numbers -/

theorem isDigit_of_natural? {cs : List Char} {n : Nat} (h : Number.natural? cs = some n) :
    cs ≠ [] ∧ ∀ c ∈ cs, c.isDigit = true := by
  rw [Number.natural?] at h
  split at h
  · cases h
  · next hcs =>
    simp only [Bool.or_eq_true, Bool.not_eq_true', not_or, Bool.not_eq_true,
      List.isEmpty_eq_false_iff, Bool.not_eq_false, List.all_eq_true] at hcs
    exact hcs

theorem isBlank_of_isDigit {c : Char} (h : c.isDigit = true) : Text.isBlank c = false := by
  have hnot := Number.forall_isDigit (fun c => !Text.isBlank c) (by decide) h
  simpa using hnot

/-- Digits in front of something else. They are as many as are allowed, or else what stands behind
them is no digit. -/
theorem takeWhile_take_append {most : Nat} {digits : List Char}
    (hdigits : ∀ c ∈ digits, c.isDigit = true) (hlength : digits.length ≤ most) {rest : List Char}
    (hrest : digits.length = most ∨ ∀ c ∈ rest.head?, c.isDigit = false) :
    ((digits ++ rest).take most).takeWhile Char.isDigit = digits := by
  have hnone : (rest.take (most - digits.length)).takeWhile Char.isDigit = [] := by
    rcases hrest with hfull | hrest
    · simp [hfull]
    · cases rest with
      | nil => simp
      | cons c rest =>
        cases most - digits.length with
        | zero => rfl
        | succ k => rw [List.take_succ_cons, List.takeWhile_cons_of_neg (by simp [hrest c rfl])]
  rw [List.take_append, List.take_of_length_le hlength, List.takeWhile_append_of_pos hdigits,
    hnone, List.append_nil]

theorem number?_append {most n : Nat} {digits : List Char}
    (h : Number.natural? digits = some n) (hlength : digits.length ≤ most) {rest : List Char}
    (hrest : digits.length = most ∨ ∀ c ∈ rest.head?, c.isDigit = false) :
    number? most (digits ++ rest) = some (n, rest) := by
  obtain ⟨-, hdigits⟩ := isDigit_of_natural? h
  rw [number?, takeWhile_take_append hdigits hlength hrest, h, Option.map_some, List.drop_left]

theorem trimStart_digits {n : Nat} {digits : List Char} (h : Number.natural? digits = some n)
    (rest : List Char) : Text.trimStart (digits ++ rest) = digits ++ rest := by
  obtain ⟨hne, hdigits⟩ := isDigit_of_natural? h
  obtain ⟨c, more, rfl⟩ := List.exists_cons_of_ne_nil hne
  rw [Text.trimStart, List.cons_append,
    List.dropWhile_cons_of_neg (by simp [isBlank_of_isDigit (hdigits c (by simp))])]

theorem natural?_padded (width n : Nat) : Number.natural? (padded width n).toList = some n := by
  rw [padded, String.toList_ofList, Nat.toString_eq_repr, Nat.toList_repr]
  exact Number.natural?_zeros_append _ n

theorem length_padded {width n : Nat} (hwidth : 0 < width) (h : n < 10 ^ width) :
    (padded width n).toList.length = width := by
  have hle := Nat.toDigits_length 10 n width hwidth h
  rw [padded, String.toList_ofList, Nat.toString_eq_repr, Nat.toList_repr, List.length_append,
    List.length_replicate]
  omega

theorem field?_padded {n : Nat} (h : n < 100) (rest : List Char) :
    field? ((padded 2 n).toList ++ rest) = some (n, rest) := by
  have hnumber := natural?_padded 2 n
  have hlength : (padded 2 n).toList.length = 2 := length_padded (by decide) h
  rw [field?, trimStart_digits hnumber,
    number?_append hnumber (Nat.le_of_eq hlength) (Or.inl hlength)]

theorem skip?_cons {c : Char} (h : Text.isBlank c = false) (rest : List Char) :
    skip? c (c :: rest) = some rest := by
  simp [skip?, Text.trimStart, h]

theorem year?_digit {c : Char} (h : c.isDigit = true) (cs : List Char) :
    year? (c :: cs) = (number? 4 (c :: cs)).map fun (n, rest) => ((n : Int), rest) := by
  have hsigns := Number.forall_isDigit (fun c => c != '-' && c != '+') (by decide) h
  simp only [Bool.and_eq_true, bne_iff_ne] at hsigns
  rw [year?, Text.trimStart, List.dropWhile_cons_of_neg (by simp [isBlank_of_isDigit h])]
  split
  · next he => exact absurd (List.cons.inj he).1 hsigns.1
  · next he => exact absurd (List.cons.inj he).1 hsigns.2
  · rfl

theorem year?_minus (cs : List Char) :
    year? ('-' :: cs) = (number? cs.length cs).map fun (n, rest) => (-(n : Int), rest) := by
  simp [year?, Text.trimStart, show Text.isBlank '-' = false by decide]

theorem year?_plus (cs : List Char) :
    year? ('+' :: cs) = (number? cs.length cs).map fun (n, rest) => ((n : Int), rest) := by
  simp [year?, Text.trimStart, show Text.isBlank '+' = false by decide]

theorem year?_yearText (year : Int) {rest : List Char}
    (hrest : ∀ c ∈ rest.head?, c.isDigit = false) :
    year? ((yearText year).toList ++ rest) = some (year, rest) := by
  unfold yearText
  by_cases hyear : 0 ≤ year ∧ year ≤ 9999
  · have hnumber := natural?_padded 4 year.toNat
    have hlength : (padded 4 year.toNat).toList.length = 4 :=
      length_padded (by decide) (by omega)
    have hread : number? 4 ((padded 4 year.toNat).toList ++ rest) = some (year.toNat, rest) :=
      number?_append hnumber (Nat.le_of_eq hlength) (Or.inl hlength)
    obtain ⟨hne, hdigits⟩ := isDigit_of_natural? hnumber
    obtain ⟨c, cs, hcs⟩ := List.exists_cons_of_ne_nil hne
    rw [if_pos hyear, hcs, List.cons_append, year?_digit (hdigits c (by simp [hcs])),
      ← List.cons_append, ← hcs, hread, Option.map_some]
    simp only [Int.toNat_of_nonneg hyear.1]
  · have hnumber := natural?_padded 4 year.natAbs
    have hread : number? ((padded 4 year.natAbs).toList ++ rest).length
        ((padded 4 year.natAbs).toList ++ rest) = some (year.natAbs, rest) :=
      number?_append hnumber (by simp) (Or.inr hrest)
    by_cases hneg : year < 0
    · have hvalue : -(year.natAbs : Int) = year := by omega
      have htext : ("-" ++ padded 4 year.natAbs).toList ++ rest =
          '-' :: ((padded 4 year.natAbs).toList ++ rest) := by simp
      rw [if_neg hyear, if_pos hneg, htext, year?_minus, hread, Option.map_some]
      simp only [hvalue]
    · have hvalue : (year.natAbs : Int) = year := by omega
      have htext : ("+" ++ padded 4 year.natAbs).toList ++ rest =
          '+' :: ((padded 4 year.natAbs).toList ++ rest) := by simp
      rw [if_neg hyear, if_neg hneg, htext, year?_plus, hread, Option.map_some]
      simp only [hvalue]

/-- A point and digits, of which there are at most nine. -/
theorem fraction?_padded {width n : Nat} (hwidth : 0 < width) (hnine : width ≤ 9)
    (hn : n < 10 ^ width) {rest : List Char} (hrest : ∀ c ∈ rest.head?, c.isDigit = false) :
    fraction? ('.' :: ((padded width n).toList ++ rest)) =
      some (n * 10 ^ (9 - width), rest) := by
  have hnumber := natural?_padded width n
  have hlength := length_padded hwidth hn
  obtain ⟨-, hdigits⟩ := isDigit_of_natural? hnumber
  have hdrop : ((padded width n).toList ++ rest).dropWhile Char.isDigit = rest := by
    rw [List.dropWhile_append_of_pos hdigits]
    cases rest with
    | nil => rfl
    | cons c rest => rw [List.dropWhile_cons_of_neg (by simp [hrest c rfl])]
  simp only [fraction?, takeWhile_take_append hdigits (hlength.trans_le hnine) (Or.inr hrest),
    hnumber, hdrop, hlength]
  rfl

theorem fraction?_fractionText {nanos : Nat} (h : nanos < 1000000000) {rest : List Char}
    (hrest : ∀ c ∈ rest.head?, c.isDigit = false ∧ c ≠ '.') :
    fraction? ((fractionText nanos).toList ++ rest) = some (nanos, rest) := by
  have hdigit : ∀ c ∈ rest.head?, c.isDigit = false := fun c hc => (hrest c hc).1
  have htext : ∀ text : String, ("." ++ text).toList ++ rest = '.' :: (text.toList ++ rest) := by
    simp
  unfold fractionText
  by_cases hzero : nanos = 0
  · rw [if_pos hzero, hzero]
    cases rest with
    | nil => rfl
    | cons c rest =>
      have hpoint : c ≠ '.' := (hrest c rfl).2
      simp [fraction?, hpoint]
  rw [if_neg hzero]
  by_cases hmilli : nanos % 1000000 = 0
  · rw [if_pos hmilli, htext, fraction?_padded (by decide) (by decide) (by omega) hdigit,
      show nanos / 1000000 * 10 ^ (9 - 3) = nanos by omega]
  rw [if_neg hmilli]
  by_cases hmicro : nanos % 1000 = 0
  · rw [if_pos hmicro, htext, fraction?_padded (by decide) (by decide) (by omega) hdigit,
      show nanos / 1000 * 10 ^ (9 - 6) = nanos by omega]
  · rw [if_neg hmicro, htext, fraction?_padded (by decide) (by decide) (by omega) hdigit,
      show nanos * 10 ^ (9 - 9) = nanos by omega]

/-! ### The whole moment -/

theorem zone?_utc : zone? ['Z'] = some (0, []) := by
  rfl

/-- The parts of a moment make up the moment. -/
theorem ofParts?_eq {t : Instant} (h : t.IsMoment) {year : Int} {month day second : Nat}
    (hdate : dateOfDays (t.seconds.fdiv 86400) = (year, month, day))
    (hsecond : (t.seconds.fmod 86400).toNat = second) :
    ofParts? year month day (second / 3600) (second / 60 % 60)
      (second % 60 + t.nanos / 1000000000) (t.nanos % 1000000000) 0 = some t := by
  obtain ⟨hfirst, hlast, hnanos, hleap⟩ := h
  obtain ⟨hback, hmonth, hmonth', hday, hday', hyear⟩ := date_of_days _ hdate
  have hseconds : t.seconds = t.seconds.fdiv 86400 * 86400 + second ∧ second < 86400 := by
    rw [Int.fdiv_eq_ediv_of_nonneg _ (by decide)]
    rw [Int.fmod_eq_emod_of_nonneg _ (by decide)] at hsecond
    omega
  have hfirst' : daysOfDate firstYear 1 1 * 86400 ≤ t.seconds := hfirst
  have hlast' : t.seconds ≤ daysOfDate lastYear 12 31 * 86400 + 86399 := hlast
  have hyear := hyear (by omega) (by omega)
  generalize t.seconds.fdiv 86400 = days at hseconds hback
  have hone : t.nanos / 1000000000 = 0 ∨ t.nanos / 1000000000 = 1 ∧ second % 60 = 59 := by
    by_cases hleaps : 1000000000 ≤ t.nanos
    · have := hleap hleaps
      omega
    · omega
  have hsame : (second % 60 + t.nanos / 1000000000) / 60 = t.nanos / 1000000000 := by omega
  have htime : second / 3600 * 3600 + second / 60 % 60 * 60 + second % 60 = second := by omega
  have htotal : days * 86400 + ((second / 3600 * 3600 + second / 60 % 60 * 60 +
      (second % 60 + t.nanos / 1000000000 - t.nanos / 1000000000) : Nat) : Int) - 0 = t.seconds := by
    rw [Nat.add_sub_cancel, htime]
    omega
  have hbillionths : t.nanos % 1000000000 + t.nanos / 1000000000 * 1000000000 = t.nanos := by omega
  rw [ofParts?, if_pos (by omega)]
  simp only [hback, hsame, htotal, hbillionths]
  rw [if_pos ⟨hfirst, hlast⟩]

/-- A moment is read as it was written. -/
theorem ofText?_render {t : Instant} (h : t.IsMoment) : ofText? t.render = some t := by
  generalize hdate : dateOfDays (t.seconds.fdiv 86400) = date
  obtain ⟨year, month, day⟩ := date
  generalize hsecond : (t.seconds.fmod 86400).toNat = second
  have hparts := ofParts?_eq h hdate hsecond
  obtain ⟨-, -, hmonth, -, hday, -⟩ := date_of_days _ hdate
  have hlength : daysInMonth year month ≤ 31 := by
    unfold daysInMonth
    split
    · split <;> decide
    · split <;> decide
  have hnanos := h.nanos_lt
  have hbound : second < 86400 := by
    rw [← hsecond, Int.fmod_eq_emod_of_nonneg _ (by decide)]
    omega
  have htext : t.render.toList = (yearText year).toList ++ '-' :: ((padded 2 month).toList ++
      '-' :: ((padded 2 day).toList ++ 'T' :: ((padded 2 (second / 3600)).toList ++
      ':' :: ((padded 2 (second / 60 % 60)).toList ++ ':' ::
      ((padded 2 (second % 60 + t.nanos / 1000000000)).toList ++
      ((fractionText (t.nanos % 1000000000)).toList ++ ['Z'])))))) := by
    simp [render, hdate, hsecond]
  have hyear : ∀ rest, year? ((yearText year).toList ++ '-' :: rest) = some (year, '-' :: rest) :=
    fun rest => year?_yearText year (by simp)
  have hdash : ∀ rest, skip? '-' ('-' :: rest) = some rest := skip?_cons (by decide)
  have hcolon : ∀ rest, skip? ':' (':' :: rest) = some rest := skip?_cons (by decide)
  have hfraction : fraction? ((fractionText (t.nanos % 1000000000)).toList ++ ['Z']) =
      some (t.nanos % 1000000000, ['Z']) :=
    fraction?_fractionText (Nat.mod_lt _ (by decide)) (by simp)
  rw [ofText?, htext]
  refine Option.bind_eq_some_iff.mpr ⟨_, hyear _, ?_⟩
  refine Option.bind_eq_some_iff.mpr ⟨_, hdash _, ?_⟩
  refine Option.bind_eq_some_iff.mpr ⟨_, field?_padded (by omega) _, ?_⟩
  refine Option.bind_eq_some_iff.mpr ⟨_, hdash _, ?_⟩
  refine Option.bind_eq_some_iff.mpr ⟨_, field?_padded (by omega) _, ?_⟩
  refine Option.bind_eq_some_iff.mpr ⟨_, rfl, ?_⟩
  refine Option.bind_eq_some_iff.mpr ⟨_, field?_padded (by omega) _, ?_⟩
  refine Option.bind_eq_some_iff.mpr ⟨_, hcolon _, ?_⟩
  refine Option.bind_eq_some_iff.mpr ⟨_, field?_padded (by omega) _, ?_⟩
  refine Option.bind_eq_some_iff.mpr ⟨_, hcolon _, ?_⟩
  refine Option.bind_eq_some_iff.mpr ⟨_, field?_padded (by omega) _, ?_⟩
  refine Option.bind_eq_some_iff.mpr ⟨_, hfraction, ?_⟩
  refine Option.bind_eq_some_iff.mpr ⟨_, zone?_utc, ?_⟩
  exact (if_pos rfl).trans hparts

/-! ### Whatever is read -/

theorem lt_of_fraction? {cs rest : List Char} {n : Nat} (h : fraction? cs = some (n, rest)) :
    n < 1000000000 := by
  unfold fraction? at h
  split at h
  · next cs =>
    obtain ⟨m, hm, he⟩ := Option.bind_eq_some_iff.mp h
    obtain ⟨rfl, -⟩ := Prod.mk.inj (Option.some.inj he)
    obtain ⟨hne, hdigits⟩ := isDigit_of_natural? hm
    rw [Number.natural?_of_isDigit hne hdigits] at hm
    obtain rfl := Option.some.inj hm
    have hlt := Number.ofDigitChars_lt hdigits
    have hnine : ((cs.take 9).takeWhile Char.isDigit).length ≤ 9 :=
      (List.takeWhile_prefix _).length_le.trans (List.length_take_le _ _)
    generalize ((cs.take 9).takeWhile Char.isDigit) = digits at hlt hnine ⊢
    calc Nat.ofDigitChars 10 digits 0 * Nat.pow 10 (9 - digits.length)
        < 10 ^ digits.length * 10 ^ (9 - digits.length) :=
          Nat.mul_lt_mul_of_pos_right hlt (Nat.pow_pos (by decide))
      _ = 1000000000 := by
          rw [← Nat.pow_add, Nat.add_sub_cancel' hnine]
  · obtain ⟨rfl, -⟩ := Prod.mk.inj (Option.some.inj h)
    decide

theorem emod_of_zoneTime? {cs rest : List Char} {offset : Int}
    (h : zoneTime? cs = some (offset, rest)) : offset % 60 = 0 := by
  obtain ⟨⟨hours, cs⟩, -, h⟩ := Option.bind_eq_some_iff.mp h
  obtain ⟨⟨minutes, cs⟩, -, h⟩ := Option.bind_eq_some_iff.mp h
  obtain ⟨rfl, -⟩ := Prod.mk.inj (Option.some.inj h)
  omega

/-- Zones differ by whole minutes. -/
theorem emod_of_zone? {cs rest : List Char} {offset : Int} (h : zone? cs = some (offset, rest)) :
    offset % 60 = 0 := by
  unfold zone? at h
  split at h
  · obtain ⟨rfl, -⟩ := Prod.mk.inj (Option.some.inj h)
    rfl
  · split at h
    · obtain ⟨rfl, -⟩ := Prod.mk.inj (Option.some.inj h)
      rfl
    · obtain ⟨rfl, -⟩ := Prod.mk.inj (Option.some.inj h)
      rfl
    · exact emod_of_zoneTime? h
    · obtain ⟨⟨west, later⟩, hwest, he⟩ := Option.map_eq_some_iff.mp h
      obtain ⟨rfl, -⟩ := Prod.mk.inj he
      have := emod_of_zoneTime? hwest
      omega
    · obtain ⟨⟨west, later⟩, hwest, he⟩ := Option.map_eq_some_iff.mp h
      obtain ⟨rfl, -⟩ := Prod.mk.inj he
      have := emod_of_zoneTime? hwest
      omega
    · cases h

theorem isMoment_of_ofParts? {year zone : Int} {month day hour minute second nanos : Nat}
    {t : Instant} (h : ofParts? year month day hour minute second nanos zone = some t)
    (hzone : zone % 60 = 0) (hnanos : nanos < 1000000000) : t.IsMoment := by
  unfold ofParts? at h
  split at h
  · next hparts =>
    simp only at h
    split at h
    · next hrange =>
      obtain rfl := Option.some.inj h
      refine ⟨hrange.1, hrange.2, ?_, ?_⟩
      · show nanos + second / 60 * 1000000000 < 2000000000
        omega
      · intro hleap
        have hsecond : second = 60 := by
          have : 1000000000 ≤ nanos + second / 60 * 1000000000 := hleap
          omega
        subst hsecond
        show (daysOfDate year month day * 86400 +
          ((hour * 3600 + minute * 60 + (60 - 60 / 60) : Nat) : Int) - zone) % 60 = 59
        omega
    · cases h
  · cases h

/-- The part behind the letter in the middle. -/
theorem isMoment_of_time? {year : Int} {month day : Nat} {cs : List Char} {t : Instant}
    (h : (do
      let (hour, cs) ← field? cs
      let (minute, cs) ← field? (← skip? ':' cs)
      let (second, cs) ← field? (← skip? ':' cs)
      let (nanos, cs) ← fraction? cs
      let (zone, cs) ← zone? (Text.trimStart cs)
      if cs.all Text.isBlank then ofParts? year month day hour minute second nanos zone
      else none) = some t) : t.IsMoment := by
  obtain ⟨⟨hour, cs⟩, -, h⟩ := Option.bind_eq_some_iff.mp h
  obtain ⟨cs, -, h⟩ := Option.bind_eq_some_iff.mp h
  obtain ⟨⟨minute, cs⟩, -, h⟩ := Option.bind_eq_some_iff.mp h
  obtain ⟨cs, -, h⟩ := Option.bind_eq_some_iff.mp h
  obtain ⟨⟨second, cs⟩, -, h⟩ := Option.bind_eq_some_iff.mp h
  obtain ⟨⟨nanos, cs⟩, hnanos, h⟩ := Option.bind_eq_some_iff.mp h
  obtain ⟨⟨zone, cs⟩, hzone, h⟩ := Option.bind_eq_some_iff.mp h
  simp only at h
  split at h
  · exact isMoment_of_ofParts? h (emod_of_zone? hzone) (lt_of_fraction? hnanos)
  · cases h

theorem isMoment_of_ofText? {text : String} {t : Instant} (h : ofText? text = some t) :
    t.IsMoment := by
  unfold ofText? at h
  obtain ⟨⟨year, cs⟩, -, h⟩ := Option.bind_eq_some_iff.mp h
  obtain ⟨cs, -, h⟩ := Option.bind_eq_some_iff.mp h
  obtain ⟨⟨month, cs⟩, -, h⟩ := Option.bind_eq_some_iff.mp h
  obtain ⟨cs, -, h⟩ := Option.bind_eq_some_iff.mp h
  obtain ⟨⟨day, cs⟩, -, h⟩ := Option.bind_eq_some_iff.mp h
  simp only at h
  split at h
  · exact isMoment_of_time? h
  · exact isMoment_of_time? h
  · exact isMoment_of_time? h
  · cases h

end ModelQuery.Instant
