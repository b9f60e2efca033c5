import ModelQuery.Proofs.Sections.Range
import ModelQuery.Proofs.Sections.Reading
import ModelQuery.Proofs.Settings.Checked
import ModelQuery.Settings.Stored

/-! Settings that are read as they were stored. Only the size of a page has to be bounded for that,
and whatever was read bounds it. -/

namespace ModelQuery.Settings

open Sections

/-- Settings that can be stored and read again. -/
def IsStorable (settings : Settings) : Prop :=
  ∀ size ∈ settings.pageSize, size < 2 ^ 63

/-! ### Writing -/

/-- The line of a setting with its value, unless it is absent. -/
def optionalLine {α : Type} (name : String) (write : α → String) (toValue : α → Sections.Value)
    (value : Option α) : List Line :=
  (value.map fun value => ⟨name, write value, toValue value⟩).toList

def modelLines (settings : Settings) : List Line :=
  optionalLine "path" quotedText .text settings.model ++
    optionalLine "catalog" quotedText .text settings.catalog

def selectionLines (settings : Settings) : List Line :=
  optionalLine "ttl_secs" (toString ·.toInt) (.integer ·.toInt) settings.lifetime ++
    optionalLine "page_size" toString (fun size : Nat => .integer size) settings.pageSize

def outputLines (settings : Settings) : List Line :=
  optionalLine "color" booleanText .boolean settings.color

def logLines (settings : Settings) : List Line :=
  optionalLine "level" quotedText .text settings.level

theorem render_optionalLine {α : Type} (name : String) (write : α → String)
    (toValue : α → Sections.Value) (value : Option α) :
    (optionalLine name write toValue value).map Line.render = line name write value := by
  cases value <;> rfl

def blocks (settings : Settings) : List Block :=
  [⟨"model", settings.modelLines⟩, ⟨"selection", settings.selectionLines⟩,
    ⟨"output", settings.outputLines⟩, ⟨"log", settings.logLines⟩]

/-- What settings are read as. -/
def entries (settings : Settings) : Entries :=
  ("version", .integer version) :: settings.blocks.map Block.entry

theorem toList_render (settings : Settings) : settings.render.toList =
    (entryLine "version" (toString version)).toList ++ settings.blocks.flatMap Block.render := by
  simp [render, blocks, Block.render, modelLines, selectionLines, outputLines, logLines,
    render_optionalLine]

theorem isWritten_quotedText (s : String) : IsWritten (quotedText s).toList (.text s) := by
  have := isWritten_quoted s.toList
  rwa [String.ofList_toList, ← String.toList_ofList (l := quoted s.toList)] at this

theorem toList_natural (n : Nat) : (toString (n : Int)).toList = (toString n).toList :=
  (Number.toList_ofNat n).trans Nat.toList_repr.symm

theorem isWritten_natural {n : Nat} (h : n < 2 ^ 63) :
    IsWritten (toString n).toList (.integer n) :=
  toList_natural n ▸ isWritten_integer (by omega) (by omega)

theorem isWritten_boolean (b : Bool) : IsWritten (booleanText b).toList (.boolean b) := by
  cases b
  · exact isWritten_bare (by decide) (List.all_eq_true.mp (by decide)) rfl
  · exact isWritten_bare (by decide) (List.all_eq_true.mp (by decide)) rfl

theorem isSound_of_mem_optionalLine {α : Type} {name : String} {write : α → String}
    {toValue : α → Sections.Value} {value : Option α} (hname : IsName name)
    (hvalue : ∀ v ∈ value, IsWritten (write v).toList (toValue v)) {line : Line}
    (hm : line ∈ optionalLine name write toValue value) : line.IsSound := by
  cases value with
  | none => cases hm
  | some v =>
    obtain rfl := List.mem_singleton.mp hm
    exact ⟨hname, hvalue v rfl⟩

theorem nodup_optionalLines {α β : Type} {name other : String} (hne : name ≠ other)
    (write : α → String) (toValue : α → Sections.Value) (value : Option α)
    (write' : β → String) (toValue' : β → Sections.Value) (value' : Option β) :
    ((optionalLine name write toValue value ++
      optionalLine other write' toValue' value').map Line.name).Nodup := by
  cases value <;> cases value' <;> simp [optionalLine, hne]

theorem nodup_optionalLine {α : Type} (name : String) (write : α → String)
    (toValue : α → Sections.Value) (value : Option α) :
    ((optionalLine name write toValue value).map Line.name).Nodup := by
  cases value <;> simp [optionalLine]

theorem isSound_of_mem_modelLines {settings : Settings} {line : Line}
    (hm : line ∈ settings.modelLines) : line.IsSound := by
  rcases List.mem_append.mp hm with hm | hm
  · exact isSound_of_mem_optionalLine (by decide) (fun s _ => isWritten_quotedText s) hm
  · exact isSound_of_mem_optionalLine (by decide) (fun s _ => isWritten_quotedText s) hm

theorem isSound_of_mem_selectionLines {settings : Settings} (h : settings.IsStorable) {line : Line}
    (hm : line ∈ settings.selectionLines) : line.IsSound := by
  rcases List.mem_append.mp hm with hm | hm
  · refine isSound_of_mem_optionalLine (by decide) (fun seconds _ => ?_) hm
    exact isWritten_integer (Int64.le_toInt seconds) (Int64.toInt_lt seconds)
  · exact isSound_of_mem_optionalLine (by decide) (fun size hs => isWritten_natural (h size hs)) hm

theorem isSound_of_mem_blocks {settings : Settings} (h : settings.IsStorable) {block : Block}
    (hm : block ∈ settings.blocks) : block.IsSound := by
  simp only [blocks, List.mem_cons, List.not_mem_nil, or_false] at hm
  rcases hm with rfl | rfl | rfl | rfl
  · exact ⟨(by decide : IsName "model"), fun _ => isSound_of_mem_modelLines,
      nodup_optionalLines (by decide) ..⟩
  · exact ⟨(by decide : IsName "selection"), fun _ => isSound_of_mem_selectionLines h,
      nodup_optionalLines (by decide) ..⟩
  · exact ⟨(by decide : IsName "output"), fun _ => isSound_of_mem_optionalLine (by decide)
      fun b _ => isWritten_boolean b, nodup_optionalLine ..⟩
  · exact ⟨(by decide : IsName "log"), fun _ => isSound_of_mem_optionalLine (by decide)
      fun s _ => isWritten_quotedText s, nodup_optionalLine ..⟩

/-- The first line, which stands before all headings. -/
def versionLine : Line :=
  ⟨"version", toString version, .integer version⟩

theorem isSound_versionLine : versionLine.IsSound :=
  ⟨by decide, isWritten_natural (by decide)⟩

theorem within?_version (value : Sections.Value) :
    Entries.within? (Entries.add? "version" value []) [] [] = some [("version", value)] :=
  Entries.add?_new (by simp [Entries.IsNew]) _

theorem isNew_block (settings : Settings) (value : Sections.Value) :
    ∀ block ∈ settings.blocks, Entries.IsNew block.name [("version", value)] := by
  simp [blocks, Entries.IsNew]

theorem nodup_blocks (settings : Settings) : (settings.blocks.map Block.name).Nodup :=
  (by decide : (["model", "selection", "output", "log"] : List String).Nodup)

theorem head?_render (settings : Settings) : settings.render.toList.head? = some 'v' := by
  have hhead : "version".toList.head? = some 'v' := rfl
  rw [toList_render, entryLine, String.append_assoc, String.append_assoc, String.toList_append,
    List.append_assoc, List.head?_append_of_ne_nil _ (by decide), hhead]

theorem ofText?_render {settings : Settings} (h : settings.IsStorable) :
    Sections.ofText? settings.render = some settings.entries := by
  obtain ⟨heading, hblocks⟩ := leadsOn_blocks (fun _ => isSound_of_mem_blocks h)
    settings.nodup_blocks (settings.isNew_block (.integer version)) []
  have hall := (leadsOn_line isSound_versionLine (within?_version _)).append hblocks
  refine hall.ofText?_eq settings.toList_render ?_
  rw [head?_render]
  decide

/-! ### Reading -/

theorem fields?_optionalLine {α : Type} (name : String) (write : α → String)
    (toValue : α → Sections.Value) (value : Option α) : fields? [name] (some (.table .heading
      ((optionalLine name write toValue value).map Line.entry))) = some [value.map toValue] := by
  cases value <;> simp [fields?, optionalLine, Line.entry, Entries.get?]

theorem fields?_optionalLines {α β : Type} {name other : String} (hne : name ≠ other)
    (write : α → String) (toValue : α → Sections.Value) (value : Option α)
    (write' : β → String) (toValue' : β → Sections.Value) (value' : Option β) :
    fields? [name, other] (some (.table .heading ((optionalLine name write toValue value ++
      optionalLine other write' toValue' value').map Line.entry))) =
      some [value.map toValue, value'.map toValue'] := by
  cases value <;> cases value' <;>
    simp [fields?, optionalLine, Line.entry, Entries.get?, hne, hne.symm]

theorem field?_map {α β : Type} {read? : Sections.Value → Option β}
    {toValue : α → Sections.Value} {f : α → β}
    (h : ∀ a, read? (toValue a) = some (f a)) (value : Option α) :
    field? read? (value.map toValue) = some (value.map f) := by
  cases value <;> simp [field?, h]

theorem field?_map_self {α : Type} {read? : Sections.Value → Option α}
    {toValue : α → Sections.Value} (h : ∀ a, read? (toValue a) = some a) (value : Option α) :
    field? read? (value.map toValue) = some value := by
  rw [field?_map (f := id) h, Option.map_id, id]

theorem versionOf?_entries (settings : Settings) : versionOf? settings.entries = some version := by
  rfl

theorem ofEntries?_entries (settings : Settings) : ofEntries? settings.entries = some settings := by
  have hmodel : Entries.get? "model" settings.entries =
      some (.table .heading (settings.modelLines.map Line.entry)) := rfl
  have hselection : Entries.get? "selection" settings.entries =
      some (.table .heading (settings.selectionLines.map Line.entry)) := rfl
  have houtput : Entries.get? "output" settings.entries =
      some (.table .heading (settings.outputLines.map Line.entry)) := rfl
  have hlog : Entries.get? "log" settings.entries =
      some (.table .heading (settings.logLines.map Line.entry)) := rfl
  have htext : ∀ value, field? textOf? (value.map .text) = some value :=
    field?_map_self fun _ => rfl
  have hboolean : ∀ value, field? booleanOf? (value.map .boolean) = some value :=
    field?_map_self fun _ => rfl
  have hnatural : ∀ value : Option Nat,
      field? naturalOf? (value.map fun n : Nat => .integer n) = some value :=
    field?_map_self (by simp [naturalOf?, integerOf?])
  have hinteger : ∀ value : Option Int64,
      field? integerOf? (value.map (.integer ·.toInt)) = some (value.map Int64.toInt) :=
    field?_map fun _ => rfl
  have hlifetime : (settings.lifetime.map Int64.toInt).map Int64.ofInt = settings.lifetime := by
    cases settings.lifetime <;> simp
  rw [ofEntries?, hmodel, hselection, houtput, hlog, modelLines, selectionLines, outputLines,
    logLines, fields?_optionalLines (by decide), fields?_optionalLines (by decide),
    fields?_optionalLine, fields?_optionalLine]
  simp only [Option.bind_eq_bind, Option.bind_some, htext, hboolean, hnatural, hinteger, hlifetime]
  rfl

/-- Settings are read as they were stored. -/
theorem ofText_render {settings : Settings} (h : settings.IsStorable) :
    ofText settings.render = .ok settings := by
  rw [ofText, ofText?_render h, Option.bind_some, versionOf?_entries, ofEntries?_entries]
  rfl

/-! ### What is read can be stored -/

theorem mem_of_get? {entries : Entries} {name : String} {value : Sections.Value}
    (h : value ∈ Entries.get? name entries) : (name, value) ∈ entries := by
  obtain ⟨⟨key, _⟩, hentry, rfl⟩ := Option.map_eq_some_iff.mp h
  obtain rfl : key = name := by simpa using List.find?_some hentry
  exact List.mem_of_find?_eq_some hentry

theorem fits_of_get? {entries : Entries} (h : entries.Fit) {name : String} :
    ∀ value ∈ Entries.get? name entries, value.Fits :=
  fun _ hvalue => h _ (mem_of_get? hvalue)

theorem fits_of_fields? {names : List String} {value? : Option Sections.Value}
    {fields : List (Option Sections.Value)} (h : ∀ value ∈ value?, value.Fits)
    (hf : fields? names value? = some fields) : ∀ field ∈ fields, ∀ value ∈ field, value.Fits := by
  intro field hm value hvalue
  unfold fields? at hf
  split at hf
  · obtain rfl := Option.some.inj hf
    obtain ⟨_, -, rfl⟩ := List.mem_map.mp hm
    cases hvalue
  · obtain rfl := Option.some.inj hf
    obtain ⟨_, -, rfl⟩ := List.mem_map.mp hm
    cases hvalue
  · obtain rfl := Option.some.inj hf
    obtain ⟨name, -, rfl⟩ := List.mem_map.mp hm
    cases h _ rfl with | table _ h => exact fits_of_get? h value hvalue
  · split at hf
    · obtain rfl := Option.some.inj hf
      obtain ⟨item, hitem, rfl⟩ := List.mem_map.mp hm
      obtain rfl := Option.some.inj hvalue
      cases h _ rfl with | list h => exact h item (List.mem_of_mem_take hitem)
    · cases hf
  · split at hf
    · obtain rfl := Option.some.inj hf
      obtain ⟨row, hrow, rfl⟩ := List.mem_map.mp hm
      obtain rfl := Option.some.inj hvalue
      have hrow := List.mem_reverse.mp (List.mem_of_mem_take hrow)
      cases h _ rfl with | tables h => exact .table _ (h row hrow)
    · cases hf
  · cases hf

theorem natural_lt_of_fits {value : Sections.Value} {n : Nat} (h : value.Fits)
    (hn : naturalOf? value = some n) : n < 2 ^ 63 := by
  obtain ⟨m, hm, hn⟩ := Option.bind_eq_some_iff.mp hn
  cases h with
  | integer _ high =>
    obtain rfl := Option.some.inj hm
    split at hn
    · cases hn
    · obtain rfl := Option.some.inj hn
      have hmax : Int64.maxValue.toInt = 2 ^ 63 - 1 := by decide
      omega
  | _ => cases hm

theorem lt_of_field? {value? : Option Sections.Value} {number : Option Nat}
    (h : ∀ value ∈ value?, value.Fits) (hn : field? naturalOf? value? = some number) :
    ∀ n ∈ number, n < 2 ^ 63 := by
  unfold field? at hn
  split at hn
  · obtain rfl := Option.some.inj hn
    exact nofun
  · obtain ⟨m, hm, rfl⟩ := Option.map_eq_some_iff.mp hn
    rintro _ ⟨⟩
    exact natural_lt_of_fits (h _ rfl) hm

/-- Where the settings that have ranges are read from. -/
theorem fields_of_ofEntries? {entries : Entries} {settings : Settings}
    (h : ofEntries? entries = some settings) :
    ∃ lifetime pageSize level,
      fields? ["ttl_secs", "page_size"] (Entries.get? "selection" entries) =
        some [lifetime, pageSize] ∧
      fields? ["level"] (Entries.get? "log" entries) = some [level] ∧
      (∃ seconds, field? integerOf? lifetime = some seconds ∧
        settings.lifetime = seconds.map Int64.ofInt) ∧
      field? naturalOf? pageSize = some settings.pageSize ∧
      field? textOf? level = some settings.level := by
  obtain ⟨model, -, h⟩ := Option.bind_eq_some_iff.mp h
  obtain ⟨selection, hselection, h⟩ := Option.bind_eq_some_iff.mp h
  obtain ⟨output, -, h⟩ := Option.bind_eq_some_iff.mp h
  obtain ⟨log, hlog, h⟩ := Option.bind_eq_some_iff.mp h
  split at h
  · next _ _ lifetime pageSize _ level _ _ _ =>
    obtain ⟨_, -, h⟩ := Option.bind_eq_some_iff.mp h
    obtain ⟨_, -, h⟩ := Option.bind_eq_some_iff.mp h
    obtain ⟨seconds, hlifetime, h⟩ := Option.bind_eq_some_iff.mp h
    obtain ⟨size, hsize, h⟩ := Option.bind_eq_some_iff.mp h
    obtain ⟨_, -, h⟩ := Option.bind_eq_some_iff.mp h
    obtain ⟨found, hfound, h⟩ := Option.bind_eq_some_iff.mp h
    obtain rfl := Option.some.inj h
    exact ⟨lifetime, pageSize, level, hselection, hlog, ⟨seconds, hlifetime, rfl⟩, hsize, hfound⟩
  · cases h

theorem isStorable_of_ofEntries? {entries : Entries} {settings : Settings} (h : entries.Fit)
    (hread : ofEntries? entries = some settings) : settings.IsStorable := by
  obtain ⟨lifetime, pageSize, _, hselection, -, -, hsize, -⟩ := fields_of_ofEntries? hread
  refine lt_of_field? (fits_of_fields? (fits_of_get? h) hselection pageSize ?_) hsize
  exact List.mem_cons_of_mem _ (List.mem_singleton_self _)

theorem ofText_eq_ok {text : String} {settings : Settings} (h : ofText text = .ok settings) :
    ∃ entries, Sections.ofText? text = some entries ∧ ofEntries? entries = some settings := by
  unfold ofText at h
  split at h
  · cases h
  next found hread =>
  split at h
  · cases h
  obtain rfl := Except.ok.inj h
  obtain ⟨entries, hentries, hread⟩ := Option.bind_eq_some_iff.mp hread
  obtain ⟨_, -, hread⟩ := Option.bind_eq_some_iff.mp hread
  obtain ⟨settings, hsettings, hread⟩ := Option.bind_eq_some_iff.mp hread
  obtain ⟨-, rfl⟩ := Prod.mk.inj (Option.some.inj hread)
  exact ⟨entries, hentries, hsettings⟩

/-- Whatever settings were read can be stored. -/
theorem isStorable_of_ofText {text : String} {settings : Settings}
    (h : ofText text = .ok settings) : settings.IsStorable := by
  obtain ⟨entries, hentries, hsettings⟩ := ofText_eq_ok h
  exact isStorable_of_ofEntries? (fit_of_ofText? hentries) hsettings

theorem isStorable_unset : unset.IsStorable := nofun

theorem IsStorable.of_set {settings changed : Settings} {key value : String}
    (h : settings.IsStorable) (hset : settings.set key value = .ok changed) :
    changed.IsStorable := by
  obtain ⟨setting, -, hwithout, hvalue⟩ := set_eq_ok_iff.mp hset
  by_cases hs : setting = .pageSize
  · subst hs
    obtain ⟨size, -, -, hsize⟩ := hvalue
    rw [IsStorable, hsize]
    rintro _ ⟨⟩
    have hlt := Int64.toInt_lt size
    omega
  · rw [IsStorable, ← pageSize_without changed hs, hwithout, pageSize_without settings hs]
    exact h

end ModelQuery.Settings
