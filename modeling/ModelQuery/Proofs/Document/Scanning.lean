import ModelQuery.Document.Lexeme
import ModelQuery.Document.Writing
import ModelQuery.Proofs.Number.Digits
import Mathlib.Data.List.TakeWhile

/-! Scanning what was written. Between lexemes the scanner passes over blanks and takes up one
lexeme after the other; only a bare word has to be followed by something that ends it. -/

namespace ModelQuery.Document

/-! ### Whole numbers -/

/-- As long as the number stays in its bounds all digits are taken up. -/
theorem absorb_eq {cs : List Char} {number : Nat} (h : Nat.ofDigitChars 10 cs number < 2 ^ 64)
    (taken : Nat) :
    absorb number taken cs = (Nat.ofDigitChars 10 cs number, taken + cs.length, 0) := by
  induction cs generalizing number taken with
  | nil => rfl
  | cons c cs ih =>
    have hstep : Nat.ofDigitChars 10 (c :: cs) number =
        Nat.ofDigitChars 10 cs (10 * number + (c.toNat - '0'.toNat)) := by
      rw [Nat.ofDigitChars_eq_foldl, List.foldl_cons, ← Nat.ofDigitChars_eq_foldl]
    rw [hstep] at h ⊢
    have hnext : 10 * number + (c.toNat - '0'.toNat) < 2 ^ 64 := by
      rw [Nat.ofDigitChars_eq_ofDigitChars_zero] at h
      have hpow : 1 ≤ 10 ^ cs.length := Nat.one_le_pow _ _ (by decide)
      have hle := Nat.le_mul_of_pos_left (10 * number + (c.toNat - '0'.toNat)) hpow
      omega
    rw [absorb]
    simp only [show Nat.pow 2 64 = 2 ^ 64 from rfl, hnext, if_true]
    rw [ih h, List.length_cons, Nat.add_assoc, Nat.add_comm 1]

theorem takeWhile_toDigits (n : Nat) : (Nat.toDigits 10 n).takeWhile Char.isDigit =
    Nat.toDigits 10 n :=
  List.takeWhile_eq_self_iff.mpr fun _ => Number.isDigit_of_mem_toDigits

theorem dropWhile_toDigits (n : Nat) : (Nat.toDigits 10 n).dropWhile Char.isDigit = [] :=
  List.dropWhile_eq_nil_iff.mpr fun _ => Number.isDigit_of_mem_toDigits

/-- No needless zero is written. -/
theorem starts_toDigits (n : Nat) : ((Nat.toDigits 10 n).isEmpty ||
    ((Nat.toDigits 10 n).head? == some '0' && (Nat.toDigits 10 n).length != 1)) = false := by
  have hne : (Nat.toDigits 10 n).isEmpty = false :=
    List.isEmpty_eq_false_iff.mpr Nat.toDigits_ne_nil
  by_cases hzero : (Nat.toDigits 10 n).head? = some '0'
  · rw [Number.head?_toDigits hzero, Nat.toDigits_zero]
    rfl
  · simp [hne, hzero]

theorem ofWhole_toDigits {m : Nat} (negative : Bool) (hpos : negative = true → 0 < m)
    (hm : if negative then m ≤ 2 ^ 63 else m < 2 ^ 63) :
    ofWhole negative (Nat.toDigits 10 m) = .integer (if negative then -(m : Int) else m) := by
  have hdigits : Nat.ofDigitChars 10 (Nat.toDigits 10 m) 0 = m := Nat.ofDigitChars_ten_toDigits
  have hbound : Nat.ofDigitChars 10 (Nat.toDigits 10 m) 0 < 2 ^ 64 := by
    rw [hdigits]
    split at hm <;> omega
  rw [ofWhole, absorb_eq hbound, hdigits]
  cases negative with
  | true =>
    have hpos := hpos rfl
    have hrange : ¬(m = 0 ∨ 9223372036854775808 < m) := by
      simp only [if_true] at hm
      omega
    simpa using hrange
  | false => simpa using hm

/-- A whole number is read as it was written, as long as 64 bits with a sign hold it. -/
theorem ofNumber?_toString {n : Int} (hlow : -2 ^ 63 ≤ n) (hhigh : n < 2 ^ 63) :
    ofNumber? (toString n).toList = some (.integer n) := by
  cases n with
  | ofNat m =>
    have hm : m < 2 ^ 63 := by
      have : (m : Int) < 2 ^ 63 := hhigh
      omega
    have hhead : ∀ cs, Nat.toDigits 10 m ≠ '-' :: cs := by
      intro cs he
      have hminus : ('-' : Char).isDigit = true :=
        Number.isDigit_of_mem_toDigits (n := m) (by rw [he]; exact List.mem_cons_self ..)
      exact absurd hminus (by decide)
    have hwhole := ofWhole_toDigits false (fun h => nomatch h) hm
    rw [Number.toList_ofNat, ofNumber?]
    · simp only [takeWhile_toDigits, dropWhile_toDigits, starts_toDigits, hwhole]
      rfl
    · exact hhead
  | negSucc m =>
    have hm : m + 1 ≤ 2 ^ 63 := by omega
    have hwhole := ofWhole_toDigits true (fun _ => Nat.succ_pos m) hm
    rw [Number.toList_negSucc, ofNumber?]
    simp only [takeWhile_toDigits, dropWhile_toDigits, starts_toDigits, hwhole]
    rfl

namespace Lexeme

/-! ### Texts -/

theorem hexDigit?_hexDigit {n : Nat} (h : n < 16) : hexDigit? (hexDigit n) = some n := by
  have hall : ∀ n < 16, hexDigit? (hexDigit n) = some n := by decide
  exact hall n h

theorem eq_of_toNat_eq {c d : Char} (h : c.toNat = d.toNat) : c = d :=
  Char.ext (UInt32.toNat_inj.mp h)

/-- A character that stands between quotes as it is. -/
theorem units?_cons {c : Char} (hc : c ≠ '\\') (hn : ¬c.toNat < 0x20) (cs : List Char) :
    units? (c :: cs) = (units? cs).map (c.toNat :: ·) := by
  rw [units?]
  · simp [hc, hn]
  · intro _ _ _ _ _ he
    exact absurd he hc
  · intro _ _ he
    exact absurd he hc

/-- A character that a letter behind a backslash stands for. -/
theorem units?_letter {letter c : Char} (h : escape? letter = some c) (cs : List Char) :
    units? ('\\' :: letter :: cs) = (units? cs).map (c.toNat :: ·) := by
  have hu : letter ≠ 'u' := by
    rintro rfl
    cases h
  rw [units?]
  · simp only [h, Option.pure_def, Option.bind_eq_bind, Option.bind_some]
    cases units? cs <;> rfl
  · intro _ _ _ _ _ he
    exact absurd he hu

/-- A character that its number stands for. -/
theorem units?_hex {n : Nat} (hn : n < 0x20) (cs : List Char) :
    units? ('\\' :: 'u' :: '0' :: '0' :: hexDigit (n / 16) :: hexDigit (n % 16) :: cs) =
      (units? cs).map (n :: ·) := by
  have hzero : hexDigit? '0' = some 0 := by decide
  have hvalue : ((0 * 16 + 0) * 16 + n / 16) * 16 + n % 16 = n := by omega
  have hhex : hex? '0' '0' (hexDigit (n / 16)) (hexDigit (n % 16)) = some n := by
    simp only [hex?, hzero, hexDigit?_hexDigit (show n / 16 < 16 by omega),
      hexDigit?_hexDigit (Nat.mod_lt n (show 0 < 16 by decide)), Option.bind_eq_bind,
      Option.bind_some, Option.pure_def, hvalue]
  rw [units?, hhex]
  cases units? cs <;> rfl

theorem units?_escaped (c : Char) (cs : List Char) :
    units? (escaped c ++ cs) = (units? cs).map (c.toNat :: ·) := by
  unfold escaped
  by_cases hquote : c.toNat = 0x22
  · obtain rfl : c = '\x22' := eq_of_toNat_eq hquote
    exact units?_letter rfl cs
  by_cases hbackslash : c.toNat = 0x5C
  · obtain rfl : c = '\\' := eq_of_toNat_eq hbackslash
    exact units?_letter rfl cs
  by_cases hb : c.toNat = 0x08
  · obtain rfl : c = '\x08' := eq_of_toNat_eq hb
    exact units?_letter rfl cs
  by_cases ht : c.toNat = 0x09
  · obtain rfl : c = '\t' := eq_of_toNat_eq ht
    exact units?_letter rfl cs
  by_cases hn : c.toNat = 0x0A
  · obtain rfl : c = '\n' := eq_of_toNat_eq hn
    exact units?_letter rfl cs
  by_cases hf : c.toNat = 0x0C
  · obtain rfl : c = '\x0c' := eq_of_toNat_eq hf
    exact units?_letter rfl cs
  by_cases hr : c.toNat = 0x0D
  · obtain rfl : c = '\r' := eq_of_toNat_eq hr
    exact units?_letter rfl cs
  simp only [hquote, hbackslash, hb, ht, hn, hf, hr, if_false]
  by_cases hcontrol : c.toNat < 0x20
  · rw [if_pos hcontrol]
    exact units?_hex hcontrol cs
  · rw [if_neg hcontrol]
    refine units?_cons ?_ hcontrol cs
    rintro rfl
    exact hbackslash rfl

/-- No character is a surrogate. -/
theorem not_surrogate (c : Char) : isHigh c.toNat = false ∧ isLow c.toNat = false := by
  have hvalid := c.valid
  simp only [UInt32.isValidChar, Nat.isValidChar] at hvalid
  simp only [isHigh, isLow, Bool.and_eq_false_iff, decide_eq_false_iff_not]
  have : c.toNat = c.val.toNat := rfl
  omega

theorem characters?_map_toNat (cs : List Char) : characters? (cs.map Char.toNat) = some cs := by
  induction cs with
  | nil => rfl
  | cons c cs ih =>
    obtain ⟨hhigh, hlow⟩ := not_surrogate c
    cases cs with
    | nil => simp [characters?, hhigh, hlow, Char.ofNat_toNat]
    | cons d cs =>
      rw [List.map_cons, List.map_cons, characters?, ← List.map_cons, ih]
      simp [hhigh, hlow, Char.ofNat_toNat]

theorem units?_flatMap_escaped (cs : List Char) :
    units? (cs.flatMap escaped) = some (cs.map Char.toNat) := by
  induction cs with
  | nil => rfl
  | cons c cs ih => rw [List.flatMap_cons, units?_escaped, ih, Option.map_some, List.map_cons]

/-- What stands between two quotes is the text that was written. -/
theorem ofQuoted?_escaped (s : String) :
    ofQuoted? (s.toList.flatMap escaped) = some (text (some s)) := by
  rw [ofQuoted?, units?_flatMap_escaped, Option.map_some, characters?_map_toNat, Option.map_some,
    String.ofList_toList]

/-! ### Scanning on -/

/-- A text of which the scanner makes these lexemes, whatever stands behind it. -/
def Scans (cs : List Char) (lexemes : List Lexeme) : Prop :=
  ∀ rest, run .gap (cs ++ rest) = (run .gap rest).map (lexemes ++ ·)

theorem Scans.append {cs ds : List Char} {lexemes more : List Lexeme} (h : Scans cs lexemes)
    (h' : Scans ds more) : Scans (cs ++ ds) (lexemes ++ more) := by
  intro rest
  rw [List.append_assoc, h, h', Option.map_map]
  congr 1
  funext later
  simp

theorem run_cons (place : Place) (c : Char) (cs : List Char) :
    run place (c :: cs) = (step place c).bind fun (lexemes, next) =>
      (run next cs).map (lexemes ++ ·) := by
  rw [run]
  cases step place c with
  | none => rfl
  | some found => simp only [Option.bind_eq_bind, Option.bind_some]; cases run found.2 cs <;> rfl

theorem run_of_step {place next : Place} {c : Char} (h : step place c = some ([], next))
    (cs : List Char) : run place (c :: cs) = run next cs := by
  rw [run_cons, h, Option.bind_some]
  dsimp only
  cases run next cs <;> rfl

theorem scans_blank {c : Char} (h : isBlank c = true) : Scans [c] [] := by
  intro rest
  simp [run_cons, step, begin, h]

theorem scans_blanks {cs : List Char} (h : ∀ c ∈ cs, isBlank c = true) : Scans cs [] := by
  induction cs with
  | nil => exact fun rest => by simp
  | cons c cs ih =>
    obtain ⟨hc, hcs⟩ := List.forall_mem_cons.mp h
    exact (scans_blank hc).append (ih hcs)

theorem scans_punctuation {c : Char} {lexeme : Lexeme} (h : punctuation? c = some lexeme) :
    Scans [c] [lexeme] := by
  have hblank : isBlank c = false := by
    rw [← Bool.not_eq_true]
    intro hblank
    simp only [isBlank, Bool.or_eq_true, beq_iff_eq] at hblank
    rcases hblank with ((rfl | rfl) | rfl) | rfl <;> cases h
  have hquote : c ≠ quote := by
    rintro rfl
    cases h
  intro rest
  simp [run_cons, step, begin, h, hblank, hquote]

theorem run_quoted_plain {c : Char} (hquote : c ≠ quote) (hbackslash : c ≠ '\\')
    (read rest : List Char) :
    run (.quoted read false) (c :: rest) = run (.quoted (c :: read) false) rest := by
  have hstep : step (.quoted read false) c = some ([], .quoted (c :: read) false) := by
    rw [step, if_neg hquote, beq_eq_false_iff_ne.mpr hbackslash]
  exact run_of_step hstep rest

theorem run_quoted_pair (c : Char) (read rest : List Char) :
    run (.quoted read false) ('\\' :: c :: rest) =
      run (.quoted (c :: '\\' :: read) false) rest := by
  have hstep : step (.quoted read false) '\\' = some ([], .quoted ('\\' :: read) true) := by
    rw [step, if_neg (by decide), beq_self_eq_true]
  rw [run_of_step hstep, run_of_step rfl]

theorem hexDigit_ne {n : Nat} (h : n < 16) : hexDigit n ≠ quote ∧ hexDigit n ≠ '\\' := by
  have hall : ∀ n < 16, hexDigit n ≠ quote ∧ hexDigit n ≠ '\\' := by decide
  exact hall n h

/-- Inside a text the scanner takes up what was written for a character and stays inside. -/
theorem run_escaped (c : Char) (read rest : List Char) :
    run (.quoted read false) (escaped c ++ rest) =
      run (.quoted ((escaped c).reverse ++ read) false) rest := by
  unfold escaped
  by_cases hquote : c.toNat = 0x22
  · rw [if_pos hquote]
    exact run_quoted_pair c read rest
  rw [if_neg hquote]
  by_cases hbackslash : c.toNat = 0x5C
  · rw [if_pos hbackslash]
    exact run_quoted_pair _ read rest
  rw [if_neg hbackslash]
  iterate 5
    split
    · exact run_quoted_pair _ read rest
  split
  · next hcontrol =>
    obtain ⟨hfirst, hfirst'⟩ := hexDigit_ne (show c.toNat / 16 < 16 by omega)
    obtain ⟨hsecond, hsecond'⟩ := hexDigit_ne (show c.toNat % 16 < 16 by omega)
    refine (run_quoted_pair 'u' read _).trans ?_
    refine (run_quoted_plain (by decide) (by decide) _ _).trans ?_
    refine (run_quoted_plain (by decide) (by decide) _ _).trans ?_
    refine (run_quoted_plain hfirst hfirst' _ _).trans ?_
    exact run_quoted_plain hsecond hsecond' _ _
  · refine run_quoted_plain ?_ ?_ read rest
    · rintro rfl
      exact hquote rfl
    · rintro rfl
      exact hbackslash rfl

theorem run_flatMap_escaped (cs read rest : List Char) :
    run (.quoted read false) (cs.flatMap escaped ++ rest) =
      run (.quoted ((cs.flatMap escaped).reverse ++ read) false) rest := by
  induction cs generalizing read with
  | nil => rfl
  | cons c cs ih =>
    rw [List.flatMap_cons, List.append_assoc, run_escaped, ih, List.reverse_append,
      List.append_assoc]

theorem scans_quoted (s : String) : Scans (quoted s).toList [text (some s)] := by
  intro rest
  have hbegin : ∀ cs, run .gap (quote :: cs) = run (.quoted [] false) cs := by
    intro cs
    simp [run_cons, step, begin, show isBlank quote = false by decide]
  have hend : ∀ read, run (.quoted read false) (quote :: rest) =
      (ofQuoted? read.reverse).bind fun lexeme => (run .gap rest).map (lexeme :: ·) := by
    intro read
    rw [run_cons, step, if_pos rfl]
    cases ofQuoted? read.reverse <;> rfl
  have htext : (quoted s).toList ++ rest =
      quote :: (s.toList.flatMap escaped ++ quote :: rest) := by
    simp [quoted, quote]
  rw [htext, hbegin, run_flatMap_escaped, hend, List.append_nil, List.reverse_reverse,
    ofQuoted?_escaped]
  rfl

/-! ### Bare words -/

/-- Whether a character goes on with a bare word. -/
def isWord (c : Char) : Bool :=
  !(isBlank c || c == quote || (punctuation? c).isSome)

/-- Whether a text ends the bare word in front of it. -/
def Ends (rest : List Char) : Prop :=
  ∀ c ∈ rest.head?, isWord c = false

/-- A text of which the scanner makes these lexemes unless it goes on with a bare word. -/
def ScansBefore (cs : List Char) (lexemes : List Lexeme) : Prop :=
  ∀ rest, Ends rest → run .gap (cs ++ rest) = (run .gap rest).map (lexemes ++ ·)

theorem Scans.before {cs : List Char} {lexemes : List Lexeme} (h : Scans cs lexemes) :
    ScansBefore cs lexemes :=
  fun rest _ => h rest

theorem Scans.append_before {cs ds : List Char} {lexemes more : List Lexeme}
    (h : Scans cs lexemes) (h' : ScansBefore ds more) :
    ScansBefore (cs ++ ds) (lexemes ++ more) := by
  intro rest hrest
  rw [List.append_assoc, h, h' rest hrest, Option.map_map]
  congr 1
  funext later
  simp

/-- What ends a bare word makes sure of what stands before it. -/
theorem ScansBefore.append {cs ds : List Char} {lexemes more : List Lexeme} {c : Char}
    (h : ScansBefore cs lexemes) (hc : isWord c = false) (h' : Scans (c :: ds) more) :
    Scans (cs ++ c :: ds) (lexemes ++ more) := by
  intro rest
  have hends : Ends ((c :: ds) ++ rest) := by
    intro d hd
    obtain rfl : c = d := by simpa using hd
    exact hc
  rw [List.append_assoc, h _ hends, h', Option.map_map]
  congr 1
  funext later
  simp

theorem run_word {word : List Char} (hword : ∀ c ∈ word, isWord c = true)
    (read rest : List Char) :
    run (.word read) (word ++ rest) = run (.word (word.reverse ++ read)) rest := by
  induction word generalizing read with
  | nil => rfl
  | cons c word ih =>
    obtain ⟨hc, hrest⟩ := List.forall_mem_cons.mp hword
    have hstep : step (.word read) c = some ([], .word (c :: read)) := by
      simp only [isWord, Bool.not_eq_true'] at hc
      rw [step, hc, if_neg Bool.false_ne_true]
    rw [List.cons_append, run_cons, hstep, Option.bind_some]
    simp only [List.nil_append, Option.map_id']
    rw [ih hrest, List.reverse_cons, List.append_assoc, List.singleton_append]

theorem scansBefore_word {word : List Char} {value : Document} (hne : word ≠ [])
    (hword : word.all isWord = true) (h : ofBare? word = some (bare value)) :
    ScansBefore word [bare value] := by
  intro rest hrest
  obtain ⟨c, word, rfl⟩ := List.exists_cons_of_ne_nil hne
  obtain ⟨hc, hmore⟩ := List.forall_mem_cons.mp (List.all_eq_true.mp hword)
  have hbegin : step .gap c = some ([], .word [c]) := by
    simp only [isWord, Bool.not_eq_true', Bool.or_eq_false_iff, Option.isSome_eq_false_iff,
      Option.isNone_iff_eq_none, beq_eq_false_iff_ne] at hc
    simp [step, begin, hc.1.1, hc.1.2, hc.2]
  rw [List.cons_append, run_cons, hbegin, Option.bind_some]
  simp only [List.nil_append, Option.map_id']
  rw [run_word hmore]
  have hread : (word.reverse ++ [c]).reverse = c :: word := by simp
  cases rest with
  | nil => simp [run, h]
  | cons d rest =>
    have hd : isWord d = false := hrest d rfl
    simp only [isWord, Bool.not_eq_false'] at hd
    have hend : step (.word (word.reverse ++ [c])) d =
        some (bare value :: (begin d).1, (begin d).2) := by
      simp only [step, hd, if_true, hread, h, Option.map_some]
    rw [run_cons, run_cons, hend, show step .gap d = some (begin d) from rfl, Option.bind_some,
      Option.bind_some, Option.map_map]
    rfl

theorem isWord_of_isDigit {c : Char} (h : c.isDigit = true) : isWord c = true :=
  Number.forall_isDigit isWord (by decide) h

theorem scansBefore_integer {n : Int} (hlow : -2 ^ 63 ≤ n) (hhigh : n < 2 ^ 63) :
    ScansBefore (toString n).toList [bare (.integer n)] := by
  have hnumber := ofNumber?_toString hlow hhigh
  have hletter := @Number.toString_ne_of_letter n
  refine scansBefore_word (Number.toString_ne_nil n) ?_ ?_
  · refine List.all_eq_true.mpr fun c hc => ?_
    rcases Number.mem_toString hc with rfl | hdigit
    · decide
    · exact isWord_of_isDigit hdigit
  · rw [ofBare?, if_neg (hletter ⟨'n', by decide⟩), if_neg (hletter ⟨'t', by decide⟩),
      if_neg (hletter ⟨'f', by decide⟩), hnumber, Option.map_some]

end Lexeme

end ModelQuery.Document
