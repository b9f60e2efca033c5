import ModelQuery.Proofs.Number.Digits
import ModelQuery.Proofs.Sections.Fronts
import ModelQuery.Proofs.Settings.Stored
import Mathlib.Data.List.Infix
import Mathlib.Data.List.Nodup

/-! Stored settings that are cut off. A number that is cut off is a smaller one, but no zero, and a
text that is cut off cannot be read at all. Therefore what can still be read is in its range. -/

namespace ModelQuery.Settings

open Sections

/-! ### Values -/

theorem toList_toString {n : Int} (h : 1 ≤ n) :
    (toString n).toList = Nat.toDigits 10 n.toNat := by
  have hn : n = Int.ofNat n.toNat := (Int.toNat_of_nonneg (by omega)).symm
  rw [hn]
  exact Number.toList_ofNat _

theorem readsOut_integer (n : Int) : ReadsOut (toString n).toList :=
  readsOut_bare fun _ => isBare_of_mem_toString

/-- The front of a number above zero is a number above zero, and not a greater one. -/
theorem gives_integer {name : String} {n : Int} (hlow : 1 ≤ n) (hhigh : n < 2 ^ 63)
    {value : Sections.Value} (h : Line.Gives ⟨name, toString n, .integer n⟩ value) :
    ∃ m, 1 ≤ m ∧ m ≤ n ∧ value = .integer m := by
  cases h with
  | whole => exact ⟨n, hlow, Int.le_refl n, rfl⟩
  | @cut front _ _ _ hfront hread =>
    have hbare : ∀ c ∈ front, isBare c = true := fun c hc =>
      isBare_of_mem_toString (hfront.subset hc)
    have hne : front ≠ [] := by
      rintro rfl
      cases hread.symm.trans (value?_nil _ _)
    have hdigits : front <+: Nat.toDigits 10 n.toNat := toList_toString hlow ▸ hfront
    obtain ⟨m, rfl, hle, hpos⟩ := Number.exists_toDigits_eq hne hdigits
    have hm := hpos (by omega)
    have hscalar := (value?_bare hbare hread).1
    rw [← Number.toList_ofNat, scalar?_toString (by simp) (by simp; omega)] at hscalar
    exact ⟨m, by omega, by omega, (Option.some.inj hscalar).symm⟩

/-- Of the name of a level nothing is read before its end. -/
theorem gives_level {name level : String} (hlevel : level ∈ levels) {value : Sections.Value}
    (h : Line.Gives ⟨name, quotedText level, .text level⟩ value) :
    ∃ other ∈ levels, value = .text other := by
  cases h with
  | whole => exact ⟨level, hlevel, rfl⟩
  | @cut front _ _ _ hfront hread =>
    have hall : levels.all (fun level => (quoted level.toList).inits.all fun front =>
        (Quoted.text? front).all fun found => String.ofList found.1 ∈ levels) = true := by
      decide +kernel
    have hfront : front <+: quoted level.toList := by
      rwa [quotedText, String.toList_ofList] at hfront
    obtain ⟨text, htext, rfl⟩ := value?_front hfront hread
    have hfronts := List.all_eq_true.mp hall level hlevel
    have hfound := List.all_eq_true.mp hfronts front ((List.mem_inits _ _).mpr hfront)
    rw [htext] at hfound
    exact ⟨_, of_decide_eq_true hfound, rfl⟩

/-! ### Lines -/

theorem readsOut_natural (n : Nat) : ReadsOut (toString n).toList :=
  toList_natural n ▸ readsOut_integer n

theorem readsOut_quotedText (s : String) : ReadsOut (quotedText s).toList := by
  rw [quotedText, String.toList_ofList]
  exact readsOut_quoted _

theorem readsOut_boolean (b : Bool) : ReadsOut (booleanText b).toList := by
  cases b <;> exact readsOut_bare (List.all_eq_true.mp (by decide))

theorem readsOut_of_mem_optionalLine {α : Type} {name : String} {write : α → String}
    {toValue : α → Sections.Value} {value : Option α} (h : ∀ v, ReadsOut (write v).toList)
    {line : Line} (hm : line ∈ optionalLine name write toValue value) :
    ReadsOut line.text.toList := by
  cases value with
  | none => cases hm
  | some v =>
    obtain rfl := List.mem_singleton.mp hm
    exact h v

theorem readsOut_of_mem_blocks {settings : Settings} {block : Block} {line : Line}
    (hm : block ∈ settings.blocks) (hline : line ∈ block.lines) : ReadsOut line.text.toList := by
  simp only [blocks, List.mem_cons, List.not_mem_nil, or_false] at hm
  rcases hm with rfl | rfl | rfl | rfl
  · rcases List.mem_append.mp hline with hline | hline
    · exact readsOut_of_mem_optionalLine readsOut_quotedText hline
    · exact readsOut_of_mem_optionalLine readsOut_quotedText hline
  · rcases List.mem_append.mp hline with hline | hline
    · exact readsOut_of_mem_optionalLine
        (fun seconds : Int64 => readsOut_integer seconds.toInt) hline
    · exact readsOut_of_mem_optionalLine readsOut_natural hline
  · exact readsOut_of_mem_optionalLine readsOut_boolean hline
  · exact readsOut_of_mem_optionalLine readsOut_quotedText hline

/-! ### Settings -/

/-- Whether entries are what may be read of the front of stored settings. -/
def Torn (settings : Settings) (entries : Entries) : Prop :=
  ∀ entry ∈ entries, entry.1 = "version" ∨ ∃ block ∈ settings.blocks, block.Gives entry

theorem torn_version (settings : Settings) (value : Sections.Value) :
    settings.Torn [("version", value)] :=
  List.forall_mem_singleton.mpr (Or.inl rfl)

theorem isWhole_of_mem_blocks {settings : Settings} (h : settings.IsStorable) {block : Block}
    (hm : block ∈ settings.blocks) : block.IsWhole := by
  obtain ⟨hname, hlines, hdistinct⟩ := isSound_of_mem_blocks h hm
  exact ⟨hname, fun line hline => ⟨hlines line hline, readsOut_of_mem_blocks hm hline⟩, hdistinct⟩

theorem torn_of_front {settings : Settings} (h : settings.IsStorable) {front : List Char}
    (hfront : front <+: settings.render.toList) {entries : Entries}
    (hread : Sections.ofText? (String.ofList front) = some entries) : settings.Torn entries := by
  have hversion : FrontsRead versionLine.render.toList [] [] settings.Torn := by
    refine frontsRead_line isSound_versionLine (readsOut_natural version) nofun ?_
    intro value changed _ hchanged
    obtain rfl := Option.some.inj ((within?_version value).symm.trans hchanged)
    exact torn_version settings value
  have hblocks : FrontsRead (settings.blocks.flatMap Block.render) []
      [("version", .integer version)] settings.Torn := by
    refine frontsRead_blocks (fun _ => isWhole_of_mem_blocks h) settings.nodup_blocks
      (settings.isNew_block _) [] fun tables htables => ?_
    exact List.forall_mem_append.mpr ⟨torn_version _ _, fun entry hm => Or.inr (htables entry hm)⟩
  have hall := hversion.append (leadsOn_line isSound_versionLine (within?_version _)) hblocks
  have hmark : (String.ofList front).toList.head? ≠ some '\ufeff' := by
    obtain ⟨rest, hrest⟩ := hfront
    have hhead := settings.head?_render
    rw [← hrest, List.head?_append] at hhead
    rw [String.toList_ofList]
    intro he
    rw [he, Option.some_or] at hhead
    exact absurd hhead (by decide)
  rw [ofText?_eq_lines? hmark, String.toList_ofList] at hread
  exact hall front (settings.toList_render ▸ hfront) _ (Nat.lt_succ_self _) entries hread

/-- The fields of a heading come from the lines below it. -/
theorem Torn.exists_given {settings : Settings} {entries : Entries} (h : settings.Torn entries)
    {block : Block} (hblock : block ∈ settings.blocks) {names : List String}
    {fields : List (Option Sections.Value)}
    (hfields : fields? names (Entries.get? block.name entries) = some fields) :
    ∃ given, Line.AllGive block.lines given ∧ fields = names.map (Entries.get? · given) := by
  cases hvalue : Entries.get? block.name entries with
  | none =>
    rw [hvalue] at hfields
    exact ⟨[], nofun, (Option.some.inj hfields).symm⟩
  | some value =>
    rw [hvalue] at hfields
    rcases h _ (mem_of_get? hvalue) with he | ⟨other, hother, given, he, hgiven⟩
    · exact absurd he.symm (settings.isNew_block value block hblock _ (List.mem_singleton_self _))
    · obtain ⟨hsame, rfl⟩ := Prod.mk.inj he
      obtain rfl := List.inj_on_of_nodup_map settings.nodup_blocks hblock hother hsame
      exact ⟨given, hgiven, (Option.some.inj hfields).symm⟩

theorem eq_of_mem_optionalLine {α : Type} {name : String} {write : α → String}
    {toValue : α → Sections.Value} {value : Option α} {line : Line}
    (hm : line ∈ optionalLine name write toValue value) :
    ∃ v ∈ value, line = ⟨name, write v, toValue v⟩ := by
  cases value with
  | none => cases hm
  | some v => exact ⟨v, rfl, List.mem_singleton.mp hm⟩

variable {settings : Settings} {given : Entries} {value : Sections.Value}

/-- A lifetime that was cut off is shorter. -/
theorem lifetime_given (h : settings.IsSound) (hgiven : Line.AllGive settings.selectionLines given)
    (hvalue : value ∈ Entries.get? "ttl_secs" given) :
    ∃ seconds : Int, 1 ≤ seconds ∧ seconds ≤ Selections.maxLifetime.toInt ∧
      value = .integer seconds := by
  obtain ⟨line, hline, hname, hgives⟩ := hgiven _ (mem_of_get? hvalue)
  rcases List.mem_append.mp hline with hline | hline
  · obtain ⟨whole, hwhole, rfl⟩ := eq_of_mem_optionalLine hline
    obtain ⟨hlow, hhigh⟩ := h.lifetime whole hwhole
    obtain ⟨seconds, hone, hle, rfl⟩ := gives_integer (Int64.le_iff_toInt_le.mp hlow)
      (Int64.toInt_lt whole) hgives
    exact ⟨seconds, hone, Int.le_trans hle (Int64.le_iff_toInt_le.mp hhigh), rfl⟩
  · obtain ⟨_, -, rfl⟩ := eq_of_mem_optionalLine hline
    exact absurd hname (by decide : "ttl_secs" ≠ "page_size")

/-- A size that was cut off is smaller. -/
theorem pageSize_given (hstorable : settings.IsStorable) (h : settings.IsSound)
    (hgiven : Line.AllGive settings.selectionLines given)
    (hvalue : value ∈ Entries.get? "page_size" given) :
    ∃ size : Int, 1 ≤ size ∧ value = .integer size := by
  obtain ⟨line, hline, hname, hgives⟩ := hgiven _ (mem_of_get? hvalue)
  rcases List.mem_append.mp hline with hline | hline
  · obtain ⟨_, -, rfl⟩ := eq_of_mem_optionalLine hline
    exact absurd hname (by decide : "page_size" ≠ "ttl_secs")
  · obtain ⟨whole, hwhole, rfl⟩ := eq_of_mem_optionalLine hline
    have hlow := h.pageSize whole hwhole
    have hhigh := hstorable whole hwhole
    obtain ⟨size, hone, -, rfl⟩ := gives_integer (n := whole) (by omega) (by omega) hgives
    exact ⟨size, hone, rfl⟩

theorem level_given (h : settings.IsSound) (hgiven : Line.AllGive settings.logLines given)
    (hvalue : value ∈ Entries.get? "level" given) : ∃ level ∈ levels, value = .text level := by
  obtain ⟨line, hline, -, hgives⟩ := hgiven _ (mem_of_get? hvalue)
  obtain ⟨whole, hwhole, rfl⟩ := eq_of_mem_optionalLine hline
  exact gives_level (h.level whole hwhole) hgives

theorem isSound_of_torn {found : Settings} (hstorable : settings.IsStorable)
    (h : settings.IsSound) {entries : Entries} (htorn : settings.Torn entries)
    (hread : ofEntries? entries = some found) : found.IsSound := by
  obtain ⟨lifetime, pageSize, level, hselection, hlog, ⟨read, hread, hlifetime⟩, hsize, hlevel⟩ :=
    fields_of_ofEntries? hread
  have hmem : ⟨"selection", settings.selectionLines⟩ ∈ settings.blocks := by simp [blocks]
  obtain ⟨given, hgiven, hfields⟩ := htorn.exists_given hmem hselection
  obtain ⟨rfl, rfl⟩ : lifetime = Entries.get? "ttl_secs" given ∧
      pageSize = Entries.get? "page_size" given := by simpa using hfields
  have hmem' : ⟨"log", settings.logLines⟩ ∈ settings.blocks := by simp [blocks]
  obtain ⟨logged, hlogged, hfields'⟩ := htorn.exists_given hmem' hlog
  obtain rfl : level = Entries.get? "level" logged := by simpa using hfields'
  refine ⟨?_, ?_, ?_⟩
  · rw [hlifetime]
    cases hvalue : Entries.get? "ttl_secs" given with
    | none =>
      rw [hvalue] at hread
      obtain rfl := Option.some.inj hread
      rintro _ ⟨⟩
    | some value =>
      obtain ⟨seconds, hlow, hhigh, rfl⟩ := lifetime_given h hgiven hvalue
      rw [hvalue] at hread
      obtain rfl := Option.some.inj hread
      rintro _ ⟨⟩
      have hmax := Int64.toInt_lt Selections.maxLifetime
      rw [Int64.le_iff_toInt_le, Int64.le_iff_toInt_le,
        Int64.toInt_ofInt_of_le (by omega) (by omega)]
      exact ⟨hlow, hhigh⟩
  · cases hvalue : Entries.get? "page_size" given with
    | none =>
      rw [hvalue] at hsize
      rw [← Option.some.inj hsize]
      rintro _ ⟨⟩
    | some value =>
      obtain ⟨size, hlow, rfl⟩ := pageSize_given hstorable h hgiven hvalue
      have hnatural : naturalOf? (.integer size) = some size.toNat := if_neg (by omega)
      rw [hvalue, field?, hnatural] at hsize
      rw [← Option.some.inj hsize]
      rintro _ ⟨⟩
      omega
  · cases hvalue : Entries.get? "level" logged with
    | none =>
      rw [hvalue] at hlevel
      rw [← Option.some.inj hlevel]
      rintro _ ⟨⟩
    | some value =>
      obtain ⟨other, hother, rfl⟩ := level_given h hlogged hvalue
      rw [hvalue] at hlevel
      rw [← Option.some.inj hlevel]
      rintro _ ⟨⟩
      exact hother

/-- Settings that were cut off on their way into a file are in their ranges, if they can still be
read. -/
theorem isSound_of_front {settings found : Settings} (hstorable : settings.IsStorable)
    (h : settings.IsSound) {front : List Char} (hfront : front <+: settings.render.toList)
    (hread : ofText (String.ofList front) = .ok found) : found.IsSound := by
  obtain ⟨entries, hentries, hfound⟩ := ofText_eq_ok hread
  exact isSound_of_torn hstorable h (torn_of_front hstorable hfront hentries) hfound

end ModelQuery.Settings
