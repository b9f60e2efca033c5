import ModelQuery.Proofs.Sections.Reading
import ModelQuery.Proofs.Sections.Stopping

/-! Sections that are cut off. The lines before the cut are read as they were written. Of the line
that was cut nothing is read, or the value that a front of its text stands for. -/

namespace ModelQuery.Sections

/-- A front of two texts ends in the first, or goes on with a front of the second. -/
theorem prefix_append_cases {front cs ds : List Char} (h : front <+: cs ++ ds) :
    front <+: cs ∨ ∃ rest, front = cs ++ rest ∧ rest <+: ds := by
  rcases List.prefix_or_prefix_of_prefix h (List.prefix_append cs ds) with hfront | ⟨rest, rfl⟩
  · exact Or.inl hfront
  · exact Or.inr ⟨rest, rfl, (List.prefix_append_right_inj cs).mp h⟩

/-! ### Values -/

/-- Whether a front of a text that is read as a value is read to its end. -/
def ReadsOut (text : List Char) : Prop :=
  ∀ front, front <+: text → ∀ fuel depth value rest,
    value? fuel depth front = some (value, rest) → rest = []

theorem value?_nil (fuel depth : Nat) : value? fuel depth [] = none := by
  cases fuel <;> rfl

theorem value?_quote {c : Char} (hc : c = quote ∨ c = apostrophe) (fuel depth : Nat)
    (cs : List Char) : value? (fuel + 1) depth (c :: cs) =
      (Quoted.text? (c :: cs)).map fun (text, rest) => (.text (String.ofList text), rest) := by
  rcases hc with rfl | rfl <;> rfl

/-- What is read of the front of a text in quotes is a text. -/
theorem value?_front {cs front rest : List Char} {fuel depth : Nat} {value : Value}
    (hfront : front <+: quoted cs) (h : value? fuel depth front = some (value, rest)) :
    ∃ text, Quoted.text? front = some (text, rest) ∧ value = .text (String.ofList text) := by
  obtain ⟨mark, more, hquoted, hmark⟩ := Quoted.exists_quoted_eq cs
  rw [hquoted, List.prefix_cons_iff] at hfront
  rcases hfront with rfl | ⟨tail, rfl, -⟩
  · rw [value?_nil] at h
    cases h
  cases fuel with
  | zero => cases h
  | succ fuel =>
    rw [value?_quote hmark] at h
    obtain ⟨⟨text, left⟩, htext, he⟩ := Option.map_eq_some_iff.mp h
    cases he
    exact ⟨text, htext, rfl⟩

theorem readsOut_quoted (cs : List Char) : ReadsOut (quoted cs) := by
  intro front hfront fuel depth value rest hread
  obtain ⟨text, htext, -⟩ := value?_front hfront hread
  exact Quoted.eq_nil_of_front hfront htext

theorem span_self {p : Char → Bool} {cs : List Char} (hcs : ∀ c ∈ cs, p c = true) :
    cs.span p = (cs, []) := by
  rw [List.span_eq_takeWhile_dropWhile, List.takeWhile_eq_self_iff.mpr hcs,
    List.dropWhile_eq_nil_iff.mpr hcs]

theorem word_self {cs : List Char} (hcs : ∀ c ∈ cs, endsWord c = false) : word cs = (cs, []) := by
  rw [word, span_self (by simpa using hcs)]

/-- A value without quotes takes the whole of a text that has nothing else. -/
theorem value?_bare {cs rest : List Char} {fuel depth : Nat} {value : Value}
    (hcs : ∀ c ∈ cs, isBare c = true) (h : value? fuel depth cs = some (value, rest)) :
    scalar? cs = some value ∧ rest = [] := by
  cases fuel with
  | zero => cases h
  | succ fuel =>
  cases cs with
  | nil => cases h
  | cons c cs =>
  have hends : ∀ d ∈ c :: cs, endsWord d = false := by
    intro d hd
    have hbare := hcs d hd
    simp only [isBare, Bool.and_eq_true, Bool.not_eq_true'] at hbare
    exact hbare.1.1.1.1
  have hc := hcs c List.mem_cons_self
  simp only [isBare, Bool.and_eq_true, bne_iff_ne] at hc
  rw [value?] at h
  · rw [if_neg (not_or.mpr ⟨hc.1.2, hc.2⟩), word_self hends] at h
    obtain ⟨found, hfound, he⟩ := Option.map_eq_some_iff.mp h
    obtain ⟨rfl, rfl⟩ := Prod.mk.inj he
    exact ⟨hfound, rfl⟩
  · exact fun he => hc.1.1.1.2 he
  · exact fun he => hc.1.1.2 he

theorem readsOut_bare {cs : List Char} (hcs : ∀ c ∈ cs, isBare c = true) : ReadsOut cs :=
  fun _ hfront _ _ _ _ hread => (value?_bare (fun c hc => hcs c (hfront.subset hc)) hread).2

/-- What may be read of a line that is cut off behind its name. -/
inductive Line.Gives (line : Line) : Value → Prop
  | whole : Gives line line.value
  | cut {front : List Char} {fuel depth : Nat} {value : Value}
      (hfront : front <+: line.text.toList)
      (hread : value? fuel depth front = some (value, [])) : Gives line value

/-! ### Lines -/

/-- Whether all that is read of the fronts of a text, under a heading, is of a kind. -/
def FrontsRead (cs : List Char) (heading : List String) (entries : Entries) (P : Entries → Prop) :
    Prop :=
  ∀ front, front <+: cs → ∀ fuel, front.length < fuel →
    ∀ last ∈ lines? fuel heading entries front, P last

variable {cs ds : List Char} {heading second : List String} {entries changed : Entries}
  {P : Entries → Prop}

theorem lines?_nil {fuel : Nat} {last : Entries} (h : last ∈ lines? fuel heading entries []) :
    last = entries := by
  cases fuel with
  | zero => cases h
  | succ fuel => exact (Option.some.inj h).symm

theorem FrontsRead.nil (h : P entries) : FrontsRead [] heading entries P := by
  intro front hfront fuel _ last hlast
  obtain rfl := List.prefix_nil.mp hfront
  rwa [lines?_nil hlast]

theorem FrontsRead.append (h : FrontsRead cs heading entries P)
    (hlead : LeadsOn cs heading entries second changed)
    (h' : FrontsRead ds second changed P) : FrontsRead (cs ++ ds) heading entries P := by
  intro front hfront fuel hfuel last hlast
  rcases prefix_append_cases hfront with hfront | ⟨rest, rfl, hrest⟩
  · exact h front hfront fuel hfuel last hlast
  · rw [List.length_append] at hfuel
    obtain ⟨left, hleft, hread⟩ := hlead fuel rest hfuel
    rw [hread] at hlast
    exact h' rest hrest left hleft last hlast

/-- Nothing is read of a text of one line before its end, or all of it is. -/
theorem FrontsRead.of_step (h : P entries) (hstep : ∀ front, front ≠ [] → front <+: cs →
    ∀ fuel, ∀ last ∈ lines? (fuel + 1) heading entries front, P last) :
    FrontsRead cs heading entries P := by
  intro front hfront fuel hfuel last hlast
  by_cases hne : front = []
  · subst hne
    rwa [lines?_nil hlast]
  · cases fuel with
    | zero => cases hlast
    | succ fuel => exact hstep front hne hfront fuel last hlast

theorem frontsRead_blank (h : P entries) : FrontsRead ['\n'] heading entries P := by
  refine .of_step h fun front hne hfront fuel last hlast => ?_
  obtain ⟨rest, rfl, hrest⟩ := (List.prefix_cons_iff.mp hfront).resolve_left hne
  obtain rfl := List.prefix_nil.mp hrest
  rw [lines?_blank] at hlast
  rwa [lines?_nil hlast]

/-! ### Names -/

theorem IsName.front {name : String} (hname : IsName name) {front : List Char}
    (hne : front ≠ []) (hfront : front <+: name.toList) : IsName (String.ofList front) := by
  rw [IsName, String.toList_ofList]
  exact ⟨hne, fun c hc => hname.2 c (hfront.subset hc)⟩

theorem path?_eq_of_name? {cs rest : List Char} {name : String} (hskip : skipBlanks cs = cs)
    (hname : name? cs = some (name, rest)) (hrest : skipBlanks rest = []) :
    path? cs = some ([], name, []) := by
  have hnames : names? (depthLimit - 1) cs = some ([name], []) := by
    rw [depthLimit, names?, hskip, hname]
    simp only [Option.bind_eq_bind, Option.bind_some, hrest]
    rfl
  rw [path?, hnames]
  rfl

/-- A path of one name at the end of a text. -/
theorem path?_name {name : String} (hname : IsName name) :
    path? name.toList = some ([], name, []) := by
  have hname? : name? (name.toList ++ []) = some (name, []) :=
    name?_of_span hname (by simpa using span_self hname.2)
  rw [List.append_nil] at hname?
  exact path?_eq_of_name? (by simpa using skipBlanks_name hname []) hname? rfl

theorem path?_name_blank {name : String} (hname : IsName name) :
    path? (name.toList ++ [' ']) = some ([], name, []) :=
  path?_eq_of_name? (skipBlanks_name hname _) (name?_append hname (by decide) []) rfl

/-- A path that is cut off leaves nothing. -/
theorem eq_nil_of_path?_front {name : String} (hname : IsName name) {front rest : List Char}
    (hfront : front <+: name.toList) {path : List String} {last : String}
    (h : path? front = some (path, last, rest)) : rest = [] := by
  by_cases hne : front = []
  · subst hne
    cases h
  · have hread := path?_name (hname.front hne hfront)
    rw [String.toList_ofList, h] at hread
    exact (Prod.mk.inj (Prod.mk.inj (Option.some.inj hread)).2).2

/-! ### Headings -/

theorem frontsRead_heading {name : String} (hname : IsName name) {opened : Entries}
    (hopen : entries.openTable? [] name = some opened) (h : P entries) (hopened : P opened) :
    FrontsRead ('[' :: (name.toList ++ [']', '\n'])) heading entries P := by
  refine .of_step h fun front hne hfront fuel last hlast => ?_
  obtain ⟨tail, rfl, htail⟩ := (List.prefix_cons_iff.mp hfront).resolve_left hne
  have hcut : tail <+: name.toList → P last := by
    intro htail
    have hbracket : ∀ more, tail ≠ '[' :: more := by
      rintro more rfl
      exact absurd (hname.2 _ (htail.subset List.mem_cons_self)) (by decide)
    rw [lines?_bracket hbracket] at hlast
    obtain ⟨⟨path, found, rest⟩, hpath, hlast⟩ := Option.bind_eq_some_iff.mp hlast
    obtain rfl := eq_nil_of_path?_front hname htail hpath
    cases hlast
  rcases prefix_append_cases htail with htail | ⟨rest, rfl, hrest⟩
  · exact hcut htail
  rcases List.prefix_cons_iff.mp hrest with rfl | ⟨rest, rfl, hafter⟩
  · exact hcut (by simp)
  rcases List.prefix_cons_iff.mp hafter with rfl | ⟨rest, rfl, hlineEnd⟩
  · have hpath : path? (name.toList ++ [']']) = some ([], name, [']']) :=
      path?_append hname (by decide) rfl (by decide)
    rw [lines?_bracket (hname.ne_bracket _), hpath] at hlast
    simp only [Option.bind_eq_bind, Option.bind_some, expect?, if_pos, hopen] at hlast
    rwa [lines?_nil hlast]
  · obtain rfl := List.prefix_nil.mp hlineEnd
    rw [lines?_heading hname fuel heading hopen] at hlast
    rwa [lines?_nil hlast]

/-! ### Lines with values -/

variable {line : Line}

theorem entryLine?_cut {front left : List Char} (hname : IsName line.name)
    (hfront : front <+: line.name.toList) :
    entryLine? heading entries front ≠ some (changed, left) := by
  intro h
  obtain ⟨⟨path, found, rest⟩, hpath, h⟩ := Option.bind_eq_some_iff.mp h
  obtain rfl := eq_nil_of_path?_front hname hfront hpath
  cases h

/-- Behind the sign, a line gives a value up to its end. -/
theorem gives_of_front (hline : line.IsSound) (hout : ReadsOut line.text.toList)
    {front rest : List Char} (hfront : front <+: ' ' :: (line.text.toList ++ ['\n']))
    {fuel : Nat} {value : Value}
    (h : value? (fuel + 1) depthLimit (skipBlanks front) = some (value, rest)) :
    line.Gives value ∧ (rest = [] ∨ rest = ['\n']) := by
  obtain ⟨c, more, htext, hc⟩ := hline.2.start
  rcases List.prefix_cons_iff.mp hfront with rfl | ⟨tail, rfl, htail⟩
  · cases h
  have hblank : skipBlanks (' ' :: tail) = skipBlanks tail := rfl
  rw [hblank] at h
  rcases prefix_append_cases htail with htail | ⟨rest', rfl, hrest⟩
  · have hskip : skipBlanks tail = tail := by
      rw [htext] at htail
      rcases List.prefix_cons_iff.mp htail with rfl | ⟨_, rfl, -⟩
      · rfl
      · exact skipBlanks_cons hc _
    rw [hskip] at h
    obtain rfl := hout tail htail _ _ _ _ h
    exact ⟨.cut htail h, Or.inl rfl⟩
  · have hskip : skipBlanks (line.text.toList ++ rest') = line.text.toList ++ rest' := by
      rw [htext]
      exact skipBlanks_cons hc _
    rw [hskip] at h
    rcases List.prefix_cons_iff.mp hrest with rfl | ⟨lineEnd, rfl, hlineEnd⟩
    · rw [List.append_nil] at h
      obtain rfl := hout _ List.prefix_rfl _ _ _ _ h
      exact ⟨.cut List.prefix_rfl h, Or.inl rfl⟩
    · obtain rfl := List.prefix_nil.mp hlineEnd
      rw [hline.2.read] at h
      obtain ⟨rfl, rfl⟩ := Prod.mk.inj (Option.some.inj h)
      exact ⟨.whole, Or.inr rfl⟩

/-- What is read behind a name is a value that the line gives. -/
theorem entryLine?_front (hline : line.IsSound) (hout : ReadsOut line.text.toList)
    {front left : List Char}
    (hfront : front <+: ' ' :: '=' :: ' ' :: (line.text.toList ++ ['\n']))
    (h : entryLine? heading entries (line.name.toList ++ front) = some (changed, left)) :
    left = [] ∧ ∃ value, line.Gives value ∧
      entries.within? (Entries.add? line.name value []) heading = some changed := by
  rcases List.prefix_cons_iff.mp hfront with rfl | ⟨tail, rfl, htail⟩
  · rw [List.append_nil] at h
    exact absurd h (entryLine?_cut hline.1 List.prefix_rfl)
  rcases List.prefix_cons_iff.mp htail with rfl | ⟨tail, rfl, hbehind⟩
  · rw [entryLine?, path?_name_blank hline.1] at h
    cases h
  have hpath : path? (line.name.toList ++ ' ' :: '=' :: tail) = some ([], line.name, '=' :: tail) :=
    path?_append hline.1 (by decide) rfl (by decide)
  rw [entryLine?, hpath] at h
  simp only [Option.bind_eq_bind, Option.bind_some, expect?, if_pos] at h
  obtain ⟨⟨value, rest⟩, hvalue, h⟩ := Option.bind_eq_some_iff.mp h
  obtain ⟨hgives, hrest⟩ := gives_of_front hline hout hbehind hvalue
  obtain ⟨found, hadd, h⟩ := Option.bind_eq_some_iff.mp h
  obtain ⟨left', hleft, h⟩ := Option.bind_eq_some_iff.mp h
  obtain ⟨rfl, rfl⟩ := Prod.mk.inj (Option.some.inj h)
  refine ⟨?_, value, hgives, hadd⟩
  rcases hrest with rfl | rfl <;> exact (Option.some.inj hleft).symm

theorem frontsRead_line (hline : line.IsSound) (hout : ReadsOut line.text.toList) (h : P entries)
    (hadd : ∀ value changed, line.Gives value →
      entries.within? (Entries.add? line.name value []) heading = some changed → P changed) :
    FrontsRead line.render.toList heading entries P := by
  refine .of_step h fun front hne hfront fuel last hlast => ?_
  rw [Line.toList_render] at hfront
  rcases prefix_append_cases hfront with hfront | ⟨rest, rfl, hrest⟩
  · have hread := lines?_name (hline.1.front hne hfront) fuel heading entries []
    rw [List.append_nil, String.toList_ofList] at hread
    rw [hread] at hlast
    obtain ⟨⟨changed, left⟩, hentry, -⟩ := Option.bind_eq_some_iff.mp hlast
    exact absurd hentry (entryLine?_cut hline.1 hfront)
  · rw [lines?_name hline.1] at hlast
    obtain ⟨⟨changed, left⟩, hentry, hlast⟩ := Option.bind_eq_some_iff.mp hlast
    obtain ⟨rfl, value, hgives, hchanged⟩ := entryLine?_front hline hout hrest hentry
    rw [lines?_nil hlast]
    exact hadd value changed hgives hchanged

/-! ### Tables -/

/-- Whether fields are what may be read of lines, as far as they are there. -/
def Line.AllGive (lines : List Line) (fields : Entries) : Prop :=
  ∀ field ∈ fields, ∃ line ∈ lines, field.1 = line.name ∧ line.Gives field.2

/-- Whether a line is read as it was written, and a front of its value to the end. -/
structure Line.IsWhole (line : Line) : Prop where
  sound : line.IsSound
  out : ReadsOut line.text.toList

theorem frontsRead_lines {front : Entries} {name : String} (hname : front.IsNew name)
    {lines : List Line} (hwhole : ∀ line ∈ lines, line.IsWhole) {inner : Entries}
    (hnew : ∀ line ∈ lines, inner.IsNew line.name) (hdistinct : (lines.map Line.name).Nodup)
    (h : ∀ fields, Line.AllGive lines fields →
      P (front ++ [(name, .table .heading (inner ++ fields))])) :
    FrontsRead (String.join (lines.map Line.render)).toList [name]
      (front ++ [(name, .table .heading inner)]) P := by
  have hnone : P (front ++ [(name, .table .heading inner)]) := by
    simpa using h [] nofun
  induction lines generalizing inner with
  | nil => exact .nil hnone
  | cons line lines ih =>
    obtain ⟨hline, hlines⟩ := List.forall_mem_cons.mp hwhole
    obtain ⟨hfirst, hrest⟩ := List.forall_mem_cons.mp hnew
    rw [List.map_cons, List.nodup_cons] at hdistinct
    have hadd : ∀ value, Entries.within? (Entries.add? line.name value []) [name]
        (front ++ [(name, .table .heading inner)]) =
          some (front ++ [(name, .table .heading (inner ++ [(line.name, value)]))]) :=
      fun value => Entries.within?_last hname (Entries.add?_new hfirst value)
    have hgrown : ∀ other ∈ lines, (inner ++ [line.entry]).IsNew other.name :=
      Entries.isNew_append hrest hdistinct.1
    have hsingle : ∀ value, line.Gives value →
        ∃ given ∈ line :: lines, (line.name, value).1 = given.name ∧ given.Gives value :=
      fun value hvalue => ⟨line, List.mem_cons_self, rfl, hvalue⟩
    have hthis := frontsRead_line hline.sound hline.out hnone fun value changed hvalue hadded => by
      obtain rfl := Option.some.inj ((hadd value).symm.trans hadded)
      exact h [(line.name, value)] (List.forall_mem_singleton.mpr (hsingle value hvalue))
    have hlater : ∀ fields, Line.AllGive lines fields →
        P (front ++ [(name, .table .heading (inner ++ [line.entry] ++ fields))]) := by
      intro fields hfields
      rw [List.append_assoc]
      refine h _ (List.forall_mem_cons.mpr ⟨hsingle _ .whole, fun field hm => ?_⟩)
      obtain ⟨given, hgiven, hgives⟩ := hfields field hm
      exact ⟨given, List.mem_cons_of_mem _ hgiven, hgives⟩
    have hall := hthis.append (leadsOn_line hline.sound (hadd line.value))
      (ih hlines hgrown hdistinct.2 hlater (by simpa [Line.entry] using hlater [] nofun))
    simpa using hall

theorem frontsRead_table {front : Entries} {name : String} (hname : IsName name)
    (hnew : front.IsNew name) {lines : List Line} (hwhole : ∀ line ∈ lines, line.IsWhole)
    (hdistinct : (lines.map Line.name).Nodup) (h : P front)
    (hfields : ∀ fields, Line.AllGive lines fields →
      P (front ++ [(name, .table .heading fields)])) :
    FrontsRead (table name (lines.map Line.render)).toList heading front P := by
  have hopen := Entries.openTable?_new hnew
  have hheading : FrontsRead _ heading front P :=
    frontsRead_heading hname hopen h (hfields [] nofun)
  have hlines : FrontsRead _ [name] (front ++ [(name, .table .heading [])]) P :=
    frontsRead_lines hnew hwhole (fun _ _ => nofun) hdistinct hfields
  have hall := hheading.append (leadsOn_heading hname hopen heading) hlines
  simpa [table] using hall

namespace Block

/-- Whether an entry is what may be read of a block, as far as it is there. -/
def Gives (block : Block) (entry : String × Value) : Prop :=
  ∃ fields, entry = (block.name, .table .heading fields) ∧ Line.AllGive block.lines fields

/-- Whether a block is read as it was written, and fronts of its values to the end. -/
structure IsWhole (block : Block) : Prop where
  name : IsName block.name
  lines : ∀ line ∈ block.lines, line.IsWhole
  distinct : (block.lines.map Line.name).Nodup

theorem IsWhole.isSound {block : Block} (h : block.IsWhole) : block.IsSound :=
  ⟨h.name, fun line hm => (h.lines line hm).sound, h.distinct⟩

end Block

/-- What is read of the front of several blocks is what the blocks give. -/
theorem frontsRead_blocks {blocks : List Block} (hwhole : ∀ block ∈ blocks, block.IsWhole)
    (hdistinct : (blocks.map Block.name).Nodup) {front : Entries}
    (hnew : ∀ block ∈ blocks, front.IsNew block.name) (heading : List String)
    (h : ∀ tables : Entries, (∀ entry ∈ tables, ∃ block ∈ blocks, block.Gives entry) →
      P (front ++ tables)) : FrontsRead (blocks.flatMap Block.render) heading front P := by
  have hnone : P front := by
    simpa using h [] nofun
  induction blocks generalizing front heading with
  | nil => exact .nil hnone
  | cons block blocks ih =>
    obtain ⟨hblock, hblocks⟩ := List.forall_mem_cons.mp hwhole
    obtain ⟨hfirst, hrest⟩ := List.forall_mem_cons.mp hnew
    rw [List.map_cons, List.nodup_cons] at hdistinct
    have hgrown : ∀ other ∈ blocks, (front ++ [block.entry]).IsNew other.name :=
      Entries.isNew_append hrest hdistinct.1
    have hsingle : ∀ fields, Line.AllGive block.lines fields →
        ∃ given ∈ block :: blocks, given.Gives (block.name, .table .heading fields) :=
      fun fields hfields => ⟨block, List.mem_cons_self, fields, rfl, hfields⟩
    have hself : Line.AllGive block.lines (block.lines.map Line.entry) := by
      intro field hm
      obtain ⟨line, hline, rfl⟩ := List.mem_map.mp hm
      exact ⟨line, hline, rfl, .whole⟩
    have hthis : FrontsRead _ heading front P :=
      frontsRead_table hblock.name hfirst hblock.lines hblock.distinct hnone fun fields hfields =>
        h [_] (List.forall_mem_singleton.mpr (hsingle fields hfields))
    have hlater : ∀ tables : Entries, (∀ entry ∈ tables, ∃ block ∈ blocks, block.Gives entry) →
        P (front ++ [block.entry] ++ tables) := by
      intro tables htables
      rw [List.append_assoc]
      refine h _ (List.forall_mem_cons.mpr ⟨hsingle _ hself, fun entry hm => ?_⟩)
      obtain ⟨given, hgiven, hgives⟩ := htables entry hm
      exact ⟨given, List.mem_cons_of_mem _ hgiven, hgives⟩
    have htable := leadsOn_table hblock.name hfirst hblock.isSound.lines hblock.distinct heading
    have hall := ((frontsRead_blank hnone).append (leadsOn_blank heading front) hthis).append
      ((leadsOn_blank heading front).append htable)
      (ih hblocks hdistinct.2 hgrown [block.name] hlater (by simpa using hlater [] nofun))
    simpa [Block.render] using hall

end ModelQuery.Sections
