import ModelQuery.Sections.Reading

/-! The range of numbers in sections. Whatever text is read, no whole number in it is beyond 64 bits
with a sign. -/

namespace ModelQuery.Sections

/-- Whether 64 bits with a sign hold all whole numbers in a value. -/
inductive Value.Fits : Value → Prop
  | text (s : String) : Fits (.text s)
  | integer {n : Int} (low : Int64.minValue.toInt ≤ n) (high : n ≤ Int64.maxValue.toInt) :
      Fits (.integer n)
  | boolean (b : Bool) : Fits (.boolean b)
  | real : Fits .real
  | moment : Fits .moment
  | list {items : List Value} (h : ∀ item ∈ items, Fits item) : Fits (.list items)
  | table (origin : Origin) {entries : List (String × Value)}
      (h : ∀ entry ∈ entries, Fits entry.2) : Fits (.table origin entries)
  | tables {rows : List (List (String × Value))}
      (h : ∀ row ∈ rows, ∀ entry ∈ row, Fits entry.2) : Fits (.tables rows)

namespace Entries

/-- Whether all values under the names fit. -/
def Fit (entries : Entries) : Prop :=
  ∀ entry ∈ entries, entry.2.Fits

variable {entries changed : Entries} {name : String}

theorem fit_nil : Fit [] := nofun

/-- Whether a change of one value, which may be absent, leaves a value that fits. -/
def Keeps (f : Option Value → Option Value) : Prop :=
  ∀ old new, (∀ value ∈ old, value.Fits) → f old = some new → new.Fits

theorem Fit.change? {f : Option Value → Option Value} (hf : Keeps f) (h : entries.Fit)
    (hc : entries.change? name f = some changed) : changed.Fit := by
  induction entries generalizing changed with
  | nil =>
    obtain ⟨value, hvalue, rfl⟩ := Option.map_eq_some_iff.mp hc
    exact List.forall_mem_singleton.mpr (hf none value nofun hvalue)
  | cons entry rest ih =>
    obtain ⟨key, old⟩ := entry
    obtain ⟨hold, hrest⟩ := List.forall_mem_cons.mp h
    rw [Entries.change?] at hc
    split at hc
    · obtain ⟨value, hvalue, rfl⟩ := Option.map_eq_some_iff.mp hc
      refine List.forall_mem_cons.mpr ⟨hf (some old) value ?_ hvalue, hrest⟩
      rintro _ ⟨⟩
      exact hold
    · obtain ⟨later, hlater, rfl⟩ := Option.map_eq_some_iff.mp hc
      exact List.forall_mem_cons.mpr ⟨hold, ih hrest hlater⟩

theorem Fit.add? {value : Value} (hvalue : value.Fits) {path : List String} (h : entries.Fit)
    (hc : entries.add? name value path = some changed) : changed.Fit := by
  induction path generalizing entries changed with
  | nil =>
    refine h.change? (fun old new _ hnew => ?_) hc
    split at hnew
    · cases hnew
    · exact Option.some.inj hnew ▸ hvalue
  | cons step path ih =>
    refine h.change? (fun old new hold hnew => ?_) hc
    split at hnew
    · obtain ⟨inner, hinner, rfl⟩ := Option.map_eq_some_iff.mp hnew
      exact .table _ (ih fit_nil hinner)
    · obtain ⟨inner, hinner, rfl⟩ := Option.map_eq_some_iff.mp hnew
      cases hold _ rfl with | table _ hold => exact .table _ (ih hold hinner)
    · split at hnew
      · cases hnew
      · obtain ⟨inner, hinner, rfl⟩ := Option.map_eq_some_iff.mp hnew
        cases hold _ rfl with | table _ hold => exact .table _ (ih hold hinner)
    · split at hnew
      · cases hnew
      · obtain ⟨row, hrow, rfl⟩ := Option.map_eq_some_iff.mp hnew
        cases hold _ rfl with | tables hold =>
        obtain ⟨hfirst, hrows⟩ := List.forall_mem_cons.mp hold
        exact .tables (List.forall_mem_cons.mpr ⟨ih hfirst hrow, hrows⟩)
    · cases hnew

theorem Fit.within? {f : Entries → Option Entries}
    (hf : ∀ entries changed : Entries, entries.Fit → f entries = some changed → changed.Fit)
    {path : List String} (h : entries.Fit) (hc : entries.within? f path = some changed) :
    changed.Fit := by
  induction path generalizing entries changed with
  | nil => exact hf entries changed h hc
  | cons step path ih =>
    refine h.change? (fun old new hold hnew => ?_) hc
    split at hnew
    · obtain ⟨inner, hinner, rfl⟩ := Option.map_eq_some_iff.mp hnew
      exact .table _ (ih fit_nil hinner)
    · cases hnew
    · obtain ⟨inner, hinner, rfl⟩ := Option.map_eq_some_iff.mp hnew
      cases hold _ rfl with | table _ hold => exact .table _ (ih hold hinner)
    · obtain ⟨row, hrow, rfl⟩ := Option.map_eq_some_iff.mp hnew
      cases hold _ rfl with | tables hold =>
      obtain ⟨hfirst, hrows⟩ := List.forall_mem_cons.mp hold
      exact .tables (List.forall_mem_cons.mpr ⟨ih hfirst hrow, hrows⟩)
    · cases hnew

theorem Fit.openTable? {path : List String} (h : entries.Fit)
    (hc : entries.openTable? path name = some changed) : changed.Fit := by
  refine h.within? (fun entries changed h hc => h.change? (fun old new hold hnew => ?_) hc) hc
  split at hnew
  · exact Option.some.inj hnew ▸ .table _ fit_nil
  · cases hold _ rfl with | table _ hold => exact Option.some.inj hnew ▸ .table _ hold
  · cases hnew

theorem Fit.openRow? {path : List String} (h : entries.Fit)
    (hc : entries.openRow? path name = some changed) : changed.Fit := by
  refine h.within? (fun entries changed h hc => h.change? (fun old new hold hnew => ?_) hc) hc
  split at hnew
  · exact Option.some.inj hnew ▸ .tables (List.forall_mem_singleton.mpr fit_nil)
  · cases hold _ rfl with | tables hold =>
    exact Option.some.inj hnew ▸ .tables (List.forall_mem_cons.mpr ⟨fit_nil, hold⟩)
  · cases hnew

end Entries

/-! ### What is read -/

theorem fits_of_int64? {cs : List Char} {n : Int} (h : int64? cs = some n) :
    Value.Fits (.integer n) := by
  obtain ⟨m, -, hm⟩ := Option.bind_eq_some_iff.mp h
  split at hm
  · next hrange =>
    obtain rfl := Option.some.inj hm
    exact .integer hrange.1 hrange.2
  · cases hm

theorem fits_of_scalar? {cs : List Char} {value : Value} (h : scalar? cs = some value) :
    value.Fits := by
  unfold scalar? at h
  split at h
  · exact Option.some.inj h ▸ .boolean true
  split at h
  · exact Option.some.inj h ▸ .boolean false
  split at h
  · exact Option.some.inj h ▸ .moment
  split at h
  · next hn => exact Option.some.inj h ▸ fits_of_int64? hn
  split at h
  · exact Option.some.inj h ▸ .real
  · cases h

/-- Whether the readers with this fuel read what fits. -/
structure ReadsFitting (fuel : Nat) : Prop where
  value : ∀ depth cs value rest, value? fuel depth cs = some (value, rest) → value.Fits
  items : ∀ depth cs items rest, items? fuel depth cs = some (items, rest) →
    ∀ item ∈ items, item.Fits
  entries : ∀ depth (before : Entries) cs read rest, before.Fit →
    entries? fuel depth before cs = some (read, rest) → Entries.Fit read

section Readers

variable {fuel : Nat}

theorem ReadsFitting.value_succ (h : ReadsFitting fuel) {depth : Nat} {cs rest : List Char}
    {value : Value} (hread : value? (fuel + 1) depth cs = some (value, rest)) : value.Fits := by
  unfold value? at hread
  split at hread
  · split at hread
    · cases hread
    obtain ⟨gap, -, hread⟩ := Option.bind_eq_some_iff.mp hread
    obtain ⟨⟨items, after⟩, hitems, hread⟩ := Option.bind_eq_some_iff.mp hread
    obtain ⟨rfl, -⟩ := Prod.mk.inj (Option.some.inj hread)
    exact .list (h.items _ _ _ _ hitems)
  · split at hread
    · cases hread
    split at hread
    · obtain ⟨rfl, -⟩ := Prod.mk.inj (Option.some.inj hread)
      exact .table _ Entries.fit_nil
    · obtain ⟨⟨entries, after⟩, hentries, hread⟩ := Option.bind_eq_some_iff.mp hread
      obtain ⟨rfl, -⟩ := Prod.mk.inj (Option.some.inj hread)
      exact .table _ (h.entries _ _ _ _ _ Entries.fit_nil hentries)
  · split at hread
    · obtain ⟨⟨text, after⟩, -, hread⟩ := Option.map_eq_some_iff.mp hread
      obtain ⟨rfl, -⟩ := Prod.mk.inj hread
      exact .text _
    · obtain ⟨found, hfound, hread⟩ := Option.map_eq_some_iff.mp hread
      obtain ⟨rfl, -⟩ := Prod.mk.inj hread
      exact fits_of_scalar? hfound
  · cases hread

theorem ReadsFitting.items_succ (h : ReadsFitting fuel) {depth : Nat} {cs rest : List Char}
    {items : List Value} (hread : items? (fuel + 1) depth cs = some (items, rest)) :
    ∀ item ∈ items, item.Fits := by
  unfold items? at hread
  split at hread
  · cases hread
  · obtain ⟨rfl, -⟩ := Prod.mk.inj (Option.some.inj hread)
    exact List.forall_mem_nil _
  · next hfuel _ =>
    obtain rfl := Nat.succ.inj hfuel
    obtain ⟨⟨item, after⟩, hitem, hread⟩ := Option.bind_eq_some_iff.mp hread
    obtain ⟨gap, -, hread⟩ := Option.bind_eq_some_iff.mp hread
    have hitem := h.value _ _ _ _ hitem
    split at hread
    · obtain ⟨gap', -, hread⟩ := Option.bind_eq_some_iff.mp hread
      obtain ⟨⟨later, after'⟩, hlater, hread⟩ := Option.bind_eq_some_iff.mp hread
      obtain ⟨rfl, -⟩ := Prod.mk.inj (Option.some.inj hread)
      exact List.forall_mem_cons.mpr ⟨hitem, h.items _ _ _ _ hlater⟩
    · obtain ⟨rfl, -⟩ := Prod.mk.inj (Option.some.inj hread)
      exact List.forall_mem_singleton.mpr hitem
    · cases hread

theorem ReadsFitting.entries_succ (h : ReadsFitting fuel) {depth : Nat} {before read : Entries}
    {cs rest : List Char} (hbefore : before.Fit)
    (hread : entries? (fuel + 1) depth before cs = some (read, rest)) : read.Fit := by
  unfold entries? at hread
  obtain ⟨⟨path, name, after⟩, -, hread⟩ := Option.bind_eq_some_iff.mp hread
  obtain ⟨equals, -, hread⟩ := Option.bind_eq_some_iff.mp hread
  obtain ⟨⟨value, after⟩, hvalue, hread⟩ := Option.bind_eq_some_iff.mp hread
  obtain ⟨changed, hchanged, hread⟩ := Option.bind_eq_some_iff.mp hread
  have hchanged := hbefore.add? (h.value _ _ _ _ hvalue) hchanged
  split at hread
  · exact h.entries _ _ _ _ _ hchanged hread
  · obtain ⟨rfl, -⟩ := Prod.mk.inj (Option.some.inj hread)
    exact hchanged
  · cases hread

end Readers

/-- The readers call each other with less fuel, so all of them read what fits. -/
theorem readsFitting (fuel : Nat) : ReadsFitting fuel := by
  induction fuel with
  | zero => exact ⟨nofun, nofun, nofun⟩
  | succ fuel ih =>
    exact ⟨fun _ _ _ _ => ih.value_succ, fun _ _ _ _ => ih.items_succ,
      fun _ _ _ _ _ => ih.entries_succ⟩

theorem fit_of_entryLine? {heading : List String} {entries read : Entries} {cs rest : List Char}
    (h : entries.Fit) (hread : entryLine? heading entries cs = some (read, rest)) : read.Fit := by
  obtain ⟨⟨path, name, after⟩, -, hread⟩ := Option.bind_eq_some_iff.mp hread
  obtain ⟨equals, -, hread⟩ := Option.bind_eq_some_iff.mp hread
  obtain ⟨⟨value, after⟩, hvalue, hread⟩ := Option.bind_eq_some_iff.mp hread
  obtain ⟨changed, hchanged, hread⟩ := Option.bind_eq_some_iff.mp hread
  obtain ⟨left, -, hread⟩ := Option.bind_eq_some_iff.mp hread
  obtain ⟨rfl, -⟩ := Prod.mk.inj (Option.some.inj hread)
  have hvalue := (readsFitting _).value _ _ _ _ hvalue
  exact h.within? (fun _ _ hinner hadd => hinner.add? hvalue hadd) hchanged

theorem fit_of_lines? {fuel : Nat} {heading : List String} {entries read : Entries} {cs : List Char}
    (h : entries.Fit) (hread : lines? fuel heading entries cs = some read) : read.Fit := by
  induction fuel generalizing heading entries cs with
  | zero => cases hread
  | succ fuel ih =>
    rw [lines?.eq_def] at hread
    dsimp only at hread
    split at hread
    · exact Option.some.inj hread ▸ h
    · obtain ⟨⟨path, name, after⟩, -, hread⟩ := Option.bind_eq_some_iff.mp hread
      obtain ⟨bracket, -, hread⟩ := Option.bind_eq_some_iff.mp hread
      obtain ⟨brackets, -, hread⟩ := Option.bind_eq_some_iff.mp hread
      obtain ⟨rest, -, hread⟩ := Option.bind_eq_some_iff.mp hread
      obtain ⟨opened, hopened, hread⟩ := Option.bind_eq_some_iff.mp hread
      exact ih (h.openRow? hopened) hread
    · obtain ⟨⟨path, name, after⟩, -, hread⟩ := Option.bind_eq_some_iff.mp hread
      obtain ⟨bracket, -, hread⟩ := Option.bind_eq_some_iff.mp hread
      obtain ⟨rest, -, hread⟩ := Option.bind_eq_some_iff.mp hread
      obtain ⟨opened, hopened, hread⟩ := Option.bind_eq_some_iff.mp hread
      exact ih (h.openTable? hopened) hread
    · split at hread
      · obtain ⟨rest, -, hread⟩ := Option.bind_eq_some_iff.mp hread
        exact ih h hread
      · obtain ⟨⟨changed, rest⟩, hline, hread⟩ := Option.bind_eq_some_iff.mp hread
        exact ih (fit_of_entryLine? h hline) hread

/-- Whatever text is read, its numbers fit. -/
theorem fit_of_ofText? {text : String} {entries : Entries} (h : ofText? text = some entries) :
    entries.Fit :=
  fit_of_lines? Entries.fit_nil h

end ModelQuery.Sections
