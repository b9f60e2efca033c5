import ModelQuery.Proofs.Sections.Quoted
import ModelQuery.Proofs.Sections.Scalar
import Mathlib.Data.List.TakeDrop

/-! Sections that are read as they were written. Line by line, what has been read so far grows at
its end: a heading opens an empty table, and the lines below it fill that table. -/

namespace ModelQuery.Sections

/-! ### Values -/

/-- Whether a text at the end of a line is read as a value. No blank begins it. -/
structure IsWritten (text : List Char) (value : Value) : Prop where
  read : ∀ fuel depth rest,
    value? (fuel + 1) depth (text ++ '\n' :: rest) = some (value, '\n' :: rest)
  start : ∃ c rest, text = c :: rest ∧ isBlank c = false

theorem skipBlanks_cons {c : Char} (h : isBlank c = false) (cs : List Char) :
    skipBlanks (c :: cs) = c :: cs := by
  rw [skipBlanks, List.dropWhile_cons, if_neg (by simp [h])]

theorem isWritten_quoted (cs : List Char) : IsWritten (quoted cs) (.text (String.ofList cs)) := by
  obtain ⟨mark, more, hquoted, hmark⟩ := Quoted.exists_quoted_eq cs
  refine ⟨fun fuel depth rest => ?_, mark, more, hquoted, ?_⟩
  · have hread := Quoted.text?_quoted cs rest
    rw [hquoted, List.cons_append] at hread ⊢
    rw [value?]
    · rw [if_pos hmark, hread]
      rfl
    all_goals rintro rfl; rcases hmark with h | h <;> cases h
  · rcases hmark with rfl | rfl <;> decide

/-- Whether a character can stand in a value without quotes. -/
def isBare (c : Char) : Bool :=
  !endsWord c && c != '[' && c != '{' && c != quote && c != apostrophe

theorem span_append {p : Char → Bool} {cs : List Char} (hcs : ∀ c ∈ cs, p c = true) {d : Char}
    (hd : p d = false) (rest : List Char) : (cs ++ d :: rest).span p = (cs, d :: rest) := by
  rw [List.span_eq_takeWhile_dropWhile, List.takeWhile_append_of_pos hcs,
    List.dropWhile_append_of_pos hcs, List.takeWhile_cons, List.dropWhile_cons, hd]
  simp

theorem word_append {cs : List Char} (hcs : ∀ c ∈ cs, isBare c = true) (rest : List Char) :
    word (cs ++ '\n' :: rest) = (cs, '\n' :: rest) := by
  have hends : ∀ c ∈ cs, (!endsWord c) = true := by
    intro c hc
    have hbare := hcs c hc
    simp only [isBare, Bool.and_eq_true] at hbare
    exact hbare.1.1.1.1
  rw [word, span_append hends (by decide)]
  rfl

theorem isWritten_bare {cs : List Char} {value : Value} (hne : cs ≠ [])
    (hcs : ∀ c ∈ cs, isBare c = true) (h : scalar? cs = some value) : IsWritten cs value := by
  obtain ⟨c, more, rfl⟩ := List.exists_cons_of_ne_nil hne
  have hc := hcs c List.mem_cons_self
  simp only [isBare, endsWord, Bool.and_eq_true, Bool.not_eq_true', Bool.or_eq_false_iff,
    bne_iff_ne] at hc
  refine ⟨fun fuel depth rest => ?_, c, more, rfl, ?_⟩
  · have hword := word_append hcs rest
    rw [List.cons_append] at hword ⊢
    rw [value?]
    · rw [if_neg (not_or.mpr ⟨hc.1.2, hc.2⟩), hword]
      dsimp only
      rw [h]
      rfl
    · exact fun he => hc.1.1.1.2 he
    · exact fun he => hc.1.1.2 he
  · exact hc.1.1.1.1.1.1.1.1.1.1

theorem isBare_of_mem_toString {n : Int} {c : Char} (h : c ∈ (toString n).toList) :
    isBare c = true := by
  rcases Number.mem_toString h with rfl | hdigit
  · decide
  · exact Number.forall_isDigit isBare (by decide) hdigit

theorem isWritten_integer {n : Int} (hlow : -2 ^ 63 ≤ n) (hhigh : n < 2 ^ 63) :
    IsWritten (toString n).toList (.integer n) :=
  isWritten_bare (Number.toString_ne_nil n) (fun _ => isBare_of_mem_toString)
    (scalar?_toString hlow hhigh)

/-! ### Names -/

/-- A name that needs no quotes. -/
def IsName (name : String) : Prop :=
  name.toList ≠ [] ∧ ∀ c ∈ name.toList, isNameLetter c = true

instance (name : String) : Decidable (IsName name) :=
  decidable_of_iff (name.toList ≠ [] ∧ name.toList.all isNameLetter = true)
    (and_congr_right' List.all_eq_true)

theorem IsName.exists_eq {name : String} (h : IsName name) :
    ∃ c rest, name.toList = c :: rest ∧ isNameLetter c = true := by
  obtain ⟨c, rest, hc⟩ := List.exists_cons_of_ne_nil h.1
  exact ⟨c, rest, hc, h.2 c (hc ▸ List.mem_cons_self)⟩

theorem name?_of_span {name : String} (hname : IsName name) {rest : List Char}
    (hspan : (name.toList ++ rest).span isNameLetter = (name.toList, rest)) :
    name? (name.toList ++ rest) = some (name, rest) := by
  obtain ⟨first, more, hfirst, hletter⟩ := hname.exists_eq
  have hquotes : first ≠ quote ∧ first ≠ apostrophe := by
    constructor <;> rintro rfl <;> exact absurd hletter (by decide)
  rw [name?]
  · rw [hspan]
    dsimp only
    rw [if_neg (by simpa using hname.1), String.ofList_toList]
  · intro rest he
    rw [hfirst] at he
    exact hquotes.1 (List.cons.inj he).1
  · intro rest he
    rw [hfirst] at he
    exact hquotes.2 (List.cons.inj he).1

theorem name?_append {name : String} (hname : IsName name) {c : Char}
    (hc : isNameLetter c = false) (rest : List Char) :
    name? (name.toList ++ c :: rest) = some (name, c :: rest) :=
  name?_of_span hname (span_append hname.2 hc rest)

theorem skipBlanks_name {name : String} (hname : IsName name) (rest : List Char) :
    skipBlanks (name.toList ++ rest) = name.toList ++ rest := by
  obtain ⟨first, more, hfirst, hletter⟩ := hname.exists_eq
  have hblank : isBlank first = false := by
    rw [← Bool.not_eq_true]
    intro hblank
    simp only [isBlank, Bool.or_eq_true, beq_iff_eq] at hblank
    rcases hblank with rfl | rfl <;> exact absurd hletter (by decide)
  rw [hfirst]
  exact skipBlanks_cons hblank _

/-- A path of one name, in front of what neither goes on with the name nor with a dot. -/
theorem path?_append {name : String} (hname : IsName name) {c d : Char}
    (hc : isNameLetter c = false) {rest more : List Char}
    (hskip : skipBlanks (c :: rest) = d :: more) (hdot : d ≠ '.') :
    path? (name.toList ++ c :: rest) = some ([], name, d :: more) := by
  have hnames : names? (depthLimit - 1) (name.toList ++ c :: rest) = some ([name], d :: more) := by
    rw [depthLimit, names?, skipBlanks_name hname, name?_append hname hc]
    simp only [Option.bind_eq_bind, Option.bind_some, hskip]
    split
    · next he => exact absurd (List.cons.inj he).1 hdot
    · rfl
  rw [path?, hnames]
  rfl

/-! ### Lines -/

theorem lines?_blank (fuel : Nat) (heading : List String) (entries : Entries) (rest : List Char) :
    lines? (fuel + 1) heading entries ('\n' :: rest) = lines? fuel heading entries rest := by
  rw [lines?, skipBlanks_cons (by decide)]
  rfl

theorem lines?_bracket {rest : List Char} (h : ∀ more, rest ≠ '[' :: more) (fuel : Nat)
    (heading : List String) (entries : Entries) :
    lines? (fuel + 1) heading entries ('[' :: rest) = (do
      let (path, name, rest) ← path? rest
      let rest ← lineRest? (← expect? ']' rest)
      lines? fuel (path ++ [name]) (← entries.openTable? path name) rest) := by
  rw [lines?, skipBlanks_cons (by decide)]
  split
  · next he => cases he
  · next he => exact absurd (List.cons.inj he).2 (h _)
  · next he =>
    obtain rfl := (List.cons.inj he).2
    rfl
  · next hnone he => exact absurd (List.cons.inj he).1.symm hnone

theorem IsName.ne_bracket {name : String} (h : IsName name) (rest more : List Char) :
    name.toList ++ rest ≠ '[' :: more := by
  obtain ⟨first, letters, hfirst, hletter⟩ := h.exists_eq
  rw [hfirst]
  intro he
  obtain rfl := (List.cons.inj he).1
  exact absurd hletter (by decide)

theorem lines?_heading {name : String} (hname : IsName name) (fuel : Nat) (heading : List String)
    {entries opened : Entries} (h : entries.openTable? [] name = some opened) (rest : List Char) :
    lines? (fuel + 1) heading entries ('[' :: (name.toList ++ ']' :: '\n' :: rest)) =
      lines? fuel [name] opened rest := by
  have hpath : path? (name.toList ++ ']' :: '\n' :: rest) = some ([], name, ']' :: '\n' :: rest) :=
    path?_append hname (by decide) rfl (by decide)
  rw [lines?_bracket (hname.ne_bracket _), hpath]
  simp only [Option.bind_eq_bind, Option.bind_some, expect?, if_pos, h]
  rfl

theorem lines?_name {name : String} (hname : IsName name) (fuel : Nat) (heading : List String)
    (entries : Entries) (rest : List Char) :
    lines? (fuel + 1) heading entries (name.toList ++ rest) = (do
      let (entries, rest) ← entryLine? heading entries (name.toList ++ rest)
      lines? fuel heading entries rest) := by
  obtain ⟨first, more, hfirst, hletter⟩ := hname.exists_eq
  have hother : first ≠ '[' ∧ ¬(first = '\n' ∨ first = '\r' ∨ first = '#') := by
    refine ⟨?_, ?_⟩
    · rintro rfl
      exact absurd hletter (by decide)
    · rintro (rfl | rfl | rfl) <;> exact absurd hletter (by decide)
  rw [lines?, skipBlanks_name hname, hfirst, List.cons_append]
  split
  · next he => cases he
  · next he => exact absurd (List.cons.inj he).1 hother.1
  · next he => exact absurd (List.cons.inj he).1 hother.1
  · next he =>
    obtain ⟨rfl, rfl⟩ := List.cons.inj he
    rw [if_neg hother.2]

theorem lines?_entry {name : String} (hname : IsName name) {text : List Char} {value : Value}
    (hvalue : IsWritten text value) (fuel : Nat) (heading : List String) {entries changed : Entries}
    (h : entries.within? (Entries.add? name value []) heading = some changed) (rest : List Char) :
    lines? (fuel + 1) heading entries
      (name.toList ++ ' ' :: '=' :: ' ' :: (text ++ '\n' :: rest)) =
        lines? fuel heading changed rest := by
  have hpath : path? (name.toList ++ ' ' :: '=' :: ' ' :: (text ++ '\n' :: rest)) =
      some ([], name, '=' :: ' ' :: (text ++ '\n' :: rest)) :=
    path?_append hname (by decide) rfl (by decide)
  have hskip : skipBlanks (' ' :: (text ++ '\n' :: rest)) = text ++ '\n' :: rest := by
    obtain ⟨c, more, rfl, hc⟩ := hvalue.start
    exact skipBlanks_cons hc _
  have hline : entryLine? heading entries
      (name.toList ++ ' ' :: '=' :: ' ' :: (text ++ '\n' :: rest)) = some (changed, rest) := by
    rw [entryLine?, hpath]
    simp only [Option.bind_eq_bind, Option.bind_some, expect?, if_pos, hskip, hvalue.read, h]
    rfl
  rw [lines?_name hname, hline]
  rfl

/-! ### Tables -/

namespace Entries

variable {entries : Entries} {name : String}

/-- A name that has no value yet. -/
def IsNew (name : String) (entries : Entries) : Prop :=
  ∀ entry ∈ entries, entry.1 ≠ name

/-- Names stay new if none of them is given a value. -/
theorem isNew_append {α : Type} {items : List α} {key : α → String} {entry : String × Value}
    (h : ∀ item ∈ items, IsNew (key item) entries) (hentry : entry.1 ∉ items.map key) :
    ∀ item ∈ items, IsNew (key item) (entries ++ [entry]) := by
  refine fun item hm => List.forall_mem_append.mpr ⟨h item hm, ?_⟩
  refine List.forall_mem_singleton.mpr fun he => hentry ?_
  exact List.mem_map.mpr ⟨item, hm, he.symm⟩

theorem change?_new (h : IsNew name entries) (f : Option Value → Option Value) :
    change? name f entries = (f none).map fun value => entries ++ [(name, value)] := by
  induction entries with
  | nil => rfl
  | cons entry entries ih =>
    obtain ⟨hentry, hentries⟩ := List.forall_mem_cons.mp h
    rw [change?, if_neg hentry, ih hentries, Option.map_map]
    rfl

theorem change?_last (h : IsNew name entries) (f : Option Value → Option Value) (value : Value) :
    change? name f (entries ++ [(name, value)]) =
      (f (some value)).map fun value => entries ++ [(name, value)] := by
  induction entries with
  | nil => rw [List.nil_append, change?, if_pos rfl]; rfl
  | cons entry entries ih =>
    obtain ⟨hentry, hentries⟩ := List.forall_mem_cons.mp h
    rw [List.cons_append, change?, if_neg hentry, ih hentries, Option.map_map]
    rfl

theorem add?_new (h : IsNew name entries) (value : Value) :
    add? name value [] entries = some (entries ++ [(name, value)]) := by
  rw [add?, change?_new h]
  rfl

theorem openTable?_new (h : IsNew name entries) :
    openTable? [] name entries = some (entries ++ [(name, .table .heading [])]) := by
  rw [openTable?, within?, change?_new h]
  rfl

/-- What is under the last heading grows in its table. -/
theorem within?_last (h : IsNew name entries) {inner changed : Entries}
    {f : Entries → Option Entries}
    (hf : f inner = some changed) :
    within? f [name] (entries ++ [(name, .table .heading inner)]) =
      some (entries ++ [(name, .table .heading changed)]) := by
  rw [within?, change?_last h]
  simp [within?, hf]

end Entries

/-- A name with a value, and the text that the value is written as. -/
structure Line where
  name : String
  text : String
  value : Value

namespace Line

/-- The line as it is written. -/
def render (line : Line) : String :=
  entryLine line.name line.text

def entry (line : Line) : String × Value :=
  (line.name, line.value)

/-- Whether a line is read as it was written. -/
def IsSound (line : Line) : Prop :=
  IsName line.name ∧ IsWritten line.text.toList line.value

end Line

theorem ofText?_eq_lines? {text : String} (hmark : text.toList.head? ≠ some '\ufeff') :
    ofText? text = lines? (text.toList.length + 1) [] [] text.toList := by
  rw [ofText?]
  split
  · next he =>
    rw [he] at hmark
    exact absurd rfl hmark
  · rfl

/-- Whether a text that is read under a heading leads on to another heading, with what it adds. -/
def LeadsOn (cs : List Char) (heading : List String) (entries : Entries) (heading' : List String)
    (entries' : Entries) : Prop :=
  ∀ fuel rest, cs.length + rest.length < fuel → ∃ fuel', rest.length < fuel' ∧
    lines? fuel heading entries (cs ++ rest) = lines? fuel' heading' entries' rest

namespace LeadsOn

variable {cs ds : List Char} {first second third : List String} {entries changed last : Entries}

theorem nil (heading : List String) (entries : Entries) :
    LeadsOn [] heading entries heading entries :=
  fun fuel _ hfuel => ⟨fuel, by simpa using hfuel, rfl⟩

theorem of_step (hne : cs ≠ []) (h : ∀ fuel rest,
    lines? (fuel + 1) first entries (cs ++ rest) = lines? fuel second changed rest) :
    LeadsOn cs first entries second changed := by
  intro fuel rest hfuel
  have hpos := List.length_pos_of_ne_nil hne
  cases fuel with
  | zero => omega
  | succ fuel => exact ⟨fuel, by omega, h fuel rest⟩

theorem append (h : LeadsOn cs first entries second changed)
    (h' : LeadsOn ds second changed third last) : LeadsOn (cs ++ ds) first entries third last := by
  intro fuel rest hfuel
  rw [List.length_append, Nat.add_assoc, ← List.length_append] at hfuel
  obtain ⟨left, hleft, hread⟩ := h fuel (ds ++ rest) hfuel
  rw [List.length_append] at hleft
  obtain ⟨left', hleft', hread'⟩ := h' left rest hleft
  exact ⟨left', hleft', by rw [List.append_assoc, hread, hread']⟩

/-- What a text leads to if nothing follows it. -/
theorem lines?_eq (h : LeadsOn cs first entries second changed) {fuel : Nat}
    (hfuel : cs.length < fuel) : lines? fuel first entries cs = some changed := by
  obtain ⟨left, hleft, hread⟩ := h fuel [] hfuel
  rw [List.append_nil] at hread
  rw [hread]
  cases left with
  | zero => simp at hleft
  | succ left => rfl

/-- A text that leads on from nothing is read as what it leads to, unless a mark of its encoding
comes first. -/
theorem ofText?_eq {text : String} (h : LeadsOn cs [] [] second changed) (hcs : text.toList = cs)
    (hmark : text.toList.head? ≠ some '\ufeff') : ofText? text = some changed := by
  subst hcs
  rw [ofText?_eq_lines? hmark, h.lines?_eq (Nat.lt_succ_self _)]

end LeadsOn

theorem leadsOn_blank (heading : List String) (entries : Entries) :
    LeadsOn ['\n'] heading entries heading entries :=
  .of_step (List.cons_ne_nil _ _) fun fuel rest => lines?_blank fuel heading entries rest

theorem Line.toList_render (line : Line) : line.render.toList =
    line.name.toList ++ ' ' :: '=' :: ' ' :: (line.text.toList ++ ['\n']) := by
  simp [render, entryLine]

theorem leadsOn_line {line : Line} (h : line.IsSound) {heading : List String}
    {entries changed : Entries}
    (hadd : entries.within? (Entries.add? line.name line.value []) heading = some changed) :
    LeadsOn line.render.toList heading entries heading changed := by
  refine .of_step (by simp [Line.toList_render]) fun fuel rest => ?_
  have hstep := lines?_entry h.1 h.2 fuel heading hadd rest
  rw [Line.toList_render]
  simpa using hstep

/-- Lines below a heading fill its table. -/
theorem leadsOn_lines {front : Entries} {name : String} (hname : front.IsNew name)
    {lines : List Line} (hsound : ∀ line ∈ lines, line.IsSound) {inner : Entries}
    (hnew : ∀ line ∈ lines, inner.IsNew line.name) (hdistinct : (lines.map Line.name).Nodup) :
    LeadsOn (String.join (lines.map Line.render)).toList
      [name] (front ++ [(name, .table .heading inner)])
      [name] (front ++ [(name, .table .heading (inner ++ lines.map Line.entry))]) := by
  induction lines generalizing inner with
  | nil => simpa using LeadsOn.nil _ _
  | cons line lines ih =>
    obtain ⟨hline, hlines⟩ := List.forall_mem_cons.mp hsound
    obtain ⟨hfirst, hrest⟩ := List.forall_mem_cons.mp hnew
    rw [List.map_cons, List.nodup_cons] at hdistinct
    have hadd := Entries.within?_last hname (Entries.add?_new hfirst line.value)
    have hgrown : ∀ other ∈ lines, (inner ++ [line.entry]).IsNew other.name :=
      Entries.isNew_append hrest hdistinct.1
    have hall := (leadsOn_line hline hadd).append (ih hlines hgrown hdistinct.2)
    simpa [Line.entry] using hall

theorem leadsOn_heading {name : String} (hname : IsName name) {entries opened : Entries}
    (h : entries.openTable? [] name = some opened) (heading : List String) :
    LeadsOn ('[' :: (name.toList ++ [']', '\n'])) heading entries [name] opened := by
  refine .of_step (List.cons_ne_nil _ _) fun fuel rest => ?_
  have hstep := lines?_heading hname fuel heading h rest
  simpa using hstep

/-- A heading with lines below it is one more table. -/
theorem leadsOn_table {front : Entries} {name : String} (hname : IsName name)
    (hnew : front.IsNew name) {lines : List Line} (hsound : ∀ line ∈ lines, line.IsSound)
    (hdistinct : (lines.map Line.name).Nodup) (heading : List String) :
    LeadsOn (table name (lines.map Line.render)).toList heading front
      [name] (front ++ [(name, .table .heading (lines.map Line.entry))]) := by
  have hheading := leadsOn_heading hname (Entries.openTable?_new hnew) heading
  have hall := hheading.append (leadsOn_lines hnew hsound (fun _ _ => nofun) hdistinct)
  simpa [table] using hall

/-- A heading with lines below it. -/
structure Block where
  name : String
  lines : List Line

namespace Block

/-- A block as it is written, behind an empty line. -/
def render (block : Block) : List Char :=
  '\n' :: (table block.name (block.lines.map Line.render)).toList

def entry (block : Block) : String × Value :=
  (block.name, .table .heading (block.lines.map Line.entry))

/-- Whether a block is read as it was written. -/
structure IsSound (block : Block) : Prop where
  name : IsName block.name
  lines : ∀ line ∈ block.lines, line.IsSound
  distinct : (block.lines.map Line.name).Nodup

end Block

/-- Blocks with different names are one table each. -/
theorem leadsOn_blocks {blocks : List Block} (hsound : ∀ block ∈ blocks, block.IsSound)
    (hdistinct : (blocks.map Block.name).Nodup) {front : Entries}
    (hnew : ∀ block ∈ blocks, front.IsNew block.name) (heading : List String) :
    ∃ heading', LeadsOn (blocks.flatMap Block.render) heading front
      heading' (front ++ blocks.map Block.entry) := by
  induction blocks generalizing front heading with
  | nil => exact ⟨heading, by simpa using LeadsOn.nil _ _⟩
  | cons block blocks ih =>
    obtain ⟨hblock, hblocks⟩ := List.forall_mem_cons.mp hsound
    obtain ⟨hfirst, hrest⟩ := List.forall_mem_cons.mp hnew
    rw [List.map_cons, List.nodup_cons] at hdistinct
    have hgrown : ∀ other ∈ blocks, (front ++ [block.entry]).IsNew other.name :=
      Entries.isNew_append hrest hdistinct.1
    obtain ⟨heading', hlater⟩ := ih hblocks hdistinct.2 hgrown [block.name]
    have htable := leadsOn_table hblock.name hfirst hblock.lines hblock.distinct heading
    have hall := ((leadsOn_blank heading front).append htable).append hlater
    exact ⟨heading', by simpa [Block.render] using hall⟩

end ModelQuery.Sections
