import ModelQuery.Document.Reading
import ModelQuery.Proofs.Document.Scanning
import Mathlib.Data.List.Forall2

/-! Documents that are read as they were written. Their numbers are whole and fit in 64 bits, as a
double need not come back from its decimals. -/

namespace ModelQuery.Document

open Lexeme

mutual

/-- Whether a document has neither doubles nor broken parts, nor whole numbers beyond 64 bits. -/
def isPlain : Document → Bool
  | null | boolean _ | text _ => true
  | integer n => -2 ^ 63 ≤ n && n < 2 ^ 63
  | array items => arePlain items
  | object entries => entriesArePlain entries
  | real _ | broken => false

def arePlain : List Document → Bool
  | [] => true
  | item :: items => item.isPlain && arePlain items

def entriesArePlain : List (String × Document) → Bool
  | [] => true
  | (_, value) :: entries => value.isPlain && entriesArePlain entries

end

mutual

/-- The lexemes of a document. -/
def lexemes : Document → List Lexeme
  | text s => [.text (some s)]
  | array items => .openArray :: ([.comma].intercalate (itemLexemes items) ++ [.closeArray])
  | object entries => .openObject :: ([.comma].intercalate (entryLexemes entries) ++ [.closeObject])
  | scalar => [.bare scalar]

def itemLexemes : List Document → List (List Lexeme)
  | [] => []
  | item :: items => item.lexemes :: itemLexemes items

def entryLexemes : List (String × Document) → List (List Lexeme)
  | [] => []
  | (name, value) :: entries =>
    (.text (some name) :: .colon :: value.lexemes) :: entryLexemes entries

end

/-! ### Scanning -/

/-- Lines that scan to these parts, one by one. -/
abbrev LinesScan (lines : List String) (parts : List (List Lexeme)) : Prop :=
  List.Forall₂ (fun line part => ScansBefore line.toList part) lines parts

theorem scans_break : Scans ['\n'] [] := scans_blank (by decide)

/-- What stands in front of a line. -/
def IsMargin (margin : String) : Prop :=
  ∀ c ∈ margin.toList, isBlank c = true

theorem isMargin_empty : IsMargin "" := by
  intro c hc
  simp at hc

theorem IsMargin.deeper {margin : String} (h : IsMargin margin) : IsMargin (margin ++ "  ") := by
  intro c hc
  rw [String.toList_append, List.mem_append] at hc
  rcases hc with hc | hc
  · exact h c hc
  · have hall : "  ".toList.all isBlank = true := by decide
    exact List.all_eq_true.mp hall c hc

/-- Lines with commas between them, each of which blanks may follow. -/
theorem scansBefore_joined (separator : String) {blanks : List Char} (hblanks : Scans blanks [])
    (hseparator : separator.toList = ',' :: blanks) {lines : List String}
    {parts : List (List Lexeme)} (h : LinesScan lines parts) (hne : lines ≠ []) :
    ScansBefore (separator.intercalate lines).toList ([.comma].intercalate parts) := by
  induction h with
  | nil => exact absurd rfl hne
  | @cons line part lines parts hline hlines ih =>
    cases hlines with
    | nil => simpa using hline
    | @cons next more lines parts hnext hlines =>
      have hcomma : Scans [','] [.comma] := scans_punctuation rfl
      have hrest := ih (by simp)
      have hall := (hline.append (by decide) (hcomma.append hblanks)).append_before hrest
      simpa [hseparator] using hall

theorem LinesScan.behind {margin : String} (hm : IsMargin margin) {lines : List String}
    {parts : List (List Lexeme)} (h : LinesScan lines parts) :
    LinesScan (lines.map (margin ++ ·)) parts := by
  refine List.forall₂_map_left_iff.mpr (h.imp fun line part hline => ?_)
  have := (scans_blanks hm).append_before hline
  simpa using this

theorem scans_block {margin : String} (hm : IsMargin margin) {opening closing : String}
    {first last : Lexeme} (hopening : Scans opening.toList [first])
    (hclosing : Scans closing.toList [last]) {lines : List String} {parts : List (List Lexeme)}
    (h : LinesScan lines parts) :
    Scans (block opening closing margin lines).toList
      (first :: ([.comma].intercalate parts ++ [last])) := by
  cases h with
  | nil => simpa [block] using hopening.append hclosing
  | @cons line part lines parts hline hlines =>
    have hlines : LinesScan (line :: lines) (part :: parts) := .cons hline hlines
    have hlines := scansBefore_joined ",\n" scans_break rfl (hlines.behind hm.deeper) (by simp)
    have hend := (hlines.append (by decide) scans_break).append ((scans_blanks hm).append hclosing)
    have hall := (hopening.append scans_break).append hend
    simpa [block] using hall

mutual

theorem scansBefore_prettyAt {margin : String} (hm : IsMargin margin) :
    ∀ document : Document, document.isPlain = true →
      ScansBefore (document.prettyAt margin).toList document.lexemes
  | .null, _ => show ScansBefore "null".toList _ from scansBefore_word (by decide) (by decide) rfl
  | .boolean true, _ =>
    show ScansBefore "true".toList _ from scansBefore_word (by decide) (by decide) rfl
  | .boolean false, _ =>
    show ScansBefore "false".toList _ from scansBefore_word (by decide) (by decide) rfl
  | .text s, _ => (scans_quoted s).before
  | .integer n, h => by
    rw [isPlain, Bool.and_eq_true, decide_eq_true_eq, decide_eq_true_eq] at h
    exact scansBefore_integer h.1 h.2
  | .array items, h => by
    have hopening : Scans "[".toList [.openArray] := scans_punctuation (c := '[') rfl
    have hclosing : Scans "]".toList [.closeArray] := scans_punctuation (c := ']') rfl
    exact (scans_block hm hopening hclosing (linesScan_prettyItems hm.deeper items h)).before
  | .object entries, h => by
    have hopening : Scans "\x7b".toList [.openObject] := scans_punctuation (c := '\x7b') rfl
    have hclosing : Scans "\x7d".toList [.closeObject] := scans_punctuation (c := '\x7d') rfl
    exact (scans_block hm hopening hclosing (linesScan_prettyEntries hm.deeper entries h)).before
  | .real _, h => nomatch h
  | .broken, h => nomatch h

theorem linesScan_prettyItems {margin : String} (hm : IsMargin margin) :
    ∀ items : List Document, arePlain items = true →
      LinesScan (prettyItems margin items) (itemLexemes items)
  | [], _ => .nil
  | item :: items, h => by
    rw [arePlain, Bool.and_eq_true] at h
    exact .cons (scansBefore_prettyAt hm item h.1) (linesScan_prettyItems hm items h.2)

theorem linesScan_prettyEntries {margin : String} (hm : IsMargin margin) :
    ∀ entries : List (String × Document), entriesArePlain entries = true →
      LinesScan (prettyEntries margin entries) (entryLexemes entries)
  | [], _ => .nil
  | (name, value) :: entries, h => by
    rw [entriesArePlain, Bool.and_eq_true] at h
    refine .cons ?_ (linesScan_prettyEntries hm entries h.2)
    have hvalue := scansBefore_prettyAt hm value h.1
    have hcolon : Scans [':'] [.colon] := scans_punctuation rfl
    have hblank : Scans [' '] [] := scans_blank (by decide)
    have hentry := ((scans_quoted name).append (hcolon.append hblank)).append_before hvalue
    simpa using hentry

end

theorem scans_bracketed {opening closing : String} {c : Char} {first last : Lexeme}
    (hopening : Scans opening.toList [first]) (hclosing : closing.toList = [c])
    (hc : punctuation? c = some last) {lines : List String} {parts : List (List Lexeme)}
    (h : LinesScan lines parts) :
    Scans (opening ++ ",".intercalate lines ++ closing).toList
      (first :: ([.comma].intercalate parts ++ [last])) := by
  have hword : isWord c = false := by simp [isWord, hc]
  cases h with
  | nil => simpa [hclosing] using hopening.append (scans_punctuation hc)
  | @cons line part lines parts hline hlines =>
    have hlines : LinesScan (line :: lines) (part :: parts) := .cons hline hlines
    have hlines := scansBefore_joined "," (scans_blanks (List.forall_mem_nil _)) rfl hlines (by simp)
    have hall := hopening.append (hlines.append hword (scans_punctuation hc))
    simpa [hclosing] using hall

mutual

theorem scansBefore_compact : ∀ document : Document, document.isPlain = true →
    ScansBefore document.compact.toList document.lexemes
  | .null, h => scansBefore_prettyAt isMargin_empty .null h
  | .boolean b, h => scansBefore_prettyAt isMargin_empty (.boolean b) h
  | .text s, h => scansBefore_prettyAt isMargin_empty (.text s) h
  | .integer n, h => scansBefore_prettyAt isMargin_empty (.integer n) h
  | .array items, h => by
    have hopening : Scans "[".toList [.openArray] := scans_punctuation (c := '[') rfl
    exact (scans_bracketed hopening rfl rfl (linesScan_compactItems items h)).before
  | .object entries, h => by
    have hopening : Scans "\x7b".toList [.openObject] := scans_punctuation (c := '\x7b') rfl
    exact (scans_bracketed hopening rfl rfl (linesScan_compactEntries entries h)).before
  | .real _, h => nomatch h
  | .broken, h => nomatch h

theorem linesScan_compactItems : ∀ items : List Document, arePlain items = true →
    LinesScan (compactItems items) (itemLexemes items)
  | [], _ => .nil
  | item :: items, h => by
    rw [arePlain, Bool.and_eq_true] at h
    exact .cons (scansBefore_compact item h.1) (linesScan_compactItems items h.2)

theorem linesScan_compactEntries : ∀ entries : List (String × Document),
    entriesArePlain entries = true → LinesScan (compactEntries entries) (entryLexemes entries)
  | [], _ => .nil
  | (name, value) :: entries, h => by
    rw [entriesArePlain, Bool.and_eq_true] at h
    refine .cons ?_ (linesScan_compactEntries entries h.2)
    have hvalue := scansBefore_compact value h.1
    have hcolon : Scans [':'] [.colon] := scans_punctuation rfl
    have hentry := ((scans_quoted name).append hcolon).append_before hvalue
    simpa using hentry

end

/-! ### Reading -/

/-- What is written of each item and read again is a list of these items. -/
theorem mapM_map_eq_some {α β : Type} {read : β → Option α} {write : α → β} {items : List α}
    (h : ∀ item ∈ items, read (write item) = some item) :
    (items.map write).mapM read = some items := by
  induction items with
  | nil => rfl
  | cons item items ih =>
    obtain ⟨hitem, hitems⟩ := List.forall_mem_cons.mp h
    rw [List.map_cons, List.mapM_cons, hitem, ih hitems]
    rfl

/-- An entry with a name that is a text. -/
def named (entry : String × Document) : Option String × Document :=
  (some entry.1, entry.2)

theorem ofEntries_named (entries : List (String × Document)) :
    ofEntries (entries.map named) = object entries := by
  rw [ofEntries, mapM_map_eq_some]
  exact fun _ _ => rfl

theorem intercalate_cons (part : List Lexeme) (parts : List (List Lexeme)) :
    [Lexeme.comma].intercalate (part :: parts) = part ++ parts.flatMap (.comma :: ·) := by
  induction parts generalizing part with
  | nil => simp
  | cons next parts ih => rw [List.intercalate_cons_cons, ih, List.flatMap_cons]; simp

/-- A document begins with no closing bracket, and a colon never follows a text in it. -/
theorem exists_lexemes_eq {document : Document} (h : document.isPlain = true) :
    ∃ lexeme more, document.lexemes = lexeme :: more ∧ lexeme ≠ .closeArray ∧
      lexeme ≠ .closeObject ∧ ((∃ value, lexeme = .text value) → more = []) := by
  cases document with
  | null => exact ⟨_, _, rfl, by simp, by simp, by simp⟩
  | boolean b => exact ⟨_, _, rfl, by simp, by simp, by simp⟩
  | integer n => exact ⟨_, _, rfl, by simp, by simp, by simp⟩
  | real x => cases h
  | text s => exact ⟨_, _, rfl, by simp, by simp, by simp⟩
  | array items => exact ⟨_, _, rfl, by simp, by simp, by simp⟩
  | object entries => exact ⟨_, _, rfl, by simp, by simp, by simp⟩
  | broken => cases h

theorem readValue_openArray {document : Document} (h : document.isPlain = true)
    (outer : List Open) (rest : List Lexeme) :
    readValue outer (.openArray :: (document.lexemes ++ rest)) =
      readValue (.array [] :: outer) (document.lexemes ++ rest) := by
  obtain ⟨lexeme, more, hl, hne, -, -⟩ := exists_lexemes_eq h
  rw [hl, readValue]
  intro rest he
  exact hne (List.cons.inj he).1

/-- Inside an array a comma leads to the next item. -/
theorem readEnd_comma {document : Document} (h : document.isPlain = true) (value : Document)
    (items : List Document) (outer : List Open) {rest : List Lexeme}
    (hrest : rest.head? ≠ some .colon) :
    readEnd value (.array items :: outer) (.comma :: (document.lexemes ++ rest)) =
      readValue (.array (value :: items) :: outer) (document.lexemes ++ rest) := by
  obtain ⟨lexeme, more, hl, -, -, htext⟩ := exists_lexemes_eq h
  rw [hl, readEnd]
  intro next later he
  injection he with hlexeme hmore
  rw [htext ⟨next, hlexeme⟩] at hmore
  exact hrest (by rw [show rest = _ from hmore, List.head?_cons])

mutual

theorem readValue_lexemes : ∀ document : Document, document.isPlain = true →
    ∀ (outer : List Open) (rest : List Lexeme),
      readValue outer (document.lexemes ++ rest) = readEnd document outer rest
  | .null, _, _, _ => by simp [lexemes, readValue]
  | .boolean b, _, _, _ => by simp [lexemes, readValue]
  | .integer n, _, _, _ => by simp [lexemes, readValue]
  | .text s, _, _, _ => by simp [lexemes, readValue]
  | .array [], _, outer, rest => by simp [lexemes, itemLexemes, readValue]
  | .array (item :: items), h, outer, rest => by
    rw [isPlain, arePlain, Bool.and_eq_true] at h
    rw [lexemes, itemLexemes, intercalate_cons, List.append_assoc, List.cons_append,
      List.append_assoc, readValue_openArray h.1, readValue_lexemes item h.1, List.append_assoc]
    exact readEnd_items items h.2 item [] outer rest
  | .object [], _, outer, rest => by simp [lexemes, entryLexemes, readValue]
  | .object ((name, value) :: entries), h, outer, rest => by
    rw [isPlain, entriesArePlain, Bool.and_eq_true] at h
    rw [lexemes, entryLexemes, intercalate_cons]
    simp only [List.cons_append, List.append_assoc, readValue]
    rw [readValue_lexemes value h.1]
    refine (readEnd_entries entries h.2 name value [] outer rest).trans ?_
    rw [List.reverse_nil, List.nil_append, ofEntries_named]
  | .real _, h, _, _ => nomatch h
  | .broken, h, _, _ => nomatch h

theorem readEnd_items : ∀ items : List Document, arePlain items = true →
    ∀ (item : Document) (before : List Document) (outer : List Open) (rest : List Lexeme),
      readEnd item (.array before :: outer)
          ((itemLexemes items).flatMap (.comma :: ·) ++ .closeArray :: rest) =
        readEnd (array (before.reverse ++ item :: items)) outer rest
  | [], _, item, before, outer, rest => by simp [itemLexemes, readEnd]
  | next :: items, h, item, before, outer, rest => by
    rw [arePlain, Bool.and_eq_true] at h
    have hrest : ((itemLexemes items).flatMap (.comma :: ·) ++ .closeArray :: rest).head? ≠
        some .colon := by
      cases items <;> simp [itemLexemes]
    rw [itemLexemes, List.flatMap_cons, List.cons_append, List.cons_append, List.append_assoc,
      readEnd_comma h.1 item before outer hrest, readValue_lexemes next h.1,
      readEnd_items items h.2 next (item :: before) outer rest]
    simp

theorem readEnd_entries : ∀ entries : List (String × Document), entriesArePlain entries = true →
    ∀ (name : String) (value : Document) (before : List (Option String × Document))
      (outer : List Open) (rest : List Lexeme),
      readEnd value (.object before (some name) :: outer)
          ((entryLexemes entries).flatMap (.comma :: ·) ++ .closeObject :: rest) =
        readEnd (ofEntries (before.reverse ++ ((name, value) :: entries).map named)) outer rest
  | [], _, name, value, before, outer, rest => by simp [entryLexemes, readEnd, named]
  | (next, later) :: entries, h, name, value, before, outer, rest => by
    rw [entriesArePlain, Bool.and_eq_true] at h
    rw [entryLexemes, List.flatMap_cons]
    simp only [List.cons_append, List.append_assoc, readEnd]
    rw [readValue_lexemes later h.1, readEnd_entries entries h.2 next later _ outer rest]
    simp [named]

end

theorem ofText?_of_scansBefore {document : Document} (h : document.isPlain = true) {text : String}
    (hscan : ScansBefore text.toList document.lexemes) : ofText? text = some document := by
  have hscan := hscan [] (by simp [Ends])
  rw [List.append_nil] at hscan
  have hread := readValue_lexemes document h [] []
  rw [ofText?, hscan, run, Option.map_some, Option.bind_some, hread, readEnd]
  rfl

/-- A document is read as it was written. -/
theorem ofText?_pretty {document : Document} (h : document.isPlain = true) :
    ofText? document.pretty = some document :=
  ofText?_of_scansBefore h (scansBefore_prettyAt isMargin_empty document h)

theorem ofText?_compact {document : Document} (h : document.isPlain = true) :
    ofText? document.compact = some document :=
  ofText?_of_scansBefore h (scansBefore_compact document h)

end ModelQuery.Document
