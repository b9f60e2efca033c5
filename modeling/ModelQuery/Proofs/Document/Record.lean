import ModelQuery.Document.Record
import ModelQuery.Proofs.Document.RoundTrip

/-! Records that are read as they were written. A field that is absent is left out on writing, and
whatever stands for an absent field on reading has to be what was left out. -/

namespace ModelQuery

theorem exists_of_mem_mapM {α β : Type} {f : α → Option β} {as : List α} {bs : List β}
    (h : as.mapM f = some bs) {b : β} (hb : b ∈ bs) : ∃ a ∈ as, f a = some b := by
  induction as generalizing bs with
  | nil =>
    obtain rfl : [] = bs := Option.some.inj h
    cases hb
  | cons a as ih =>
    rw [List.mapM_cons] at h
    obtain ⟨first, hfirst, h⟩ := Option.bind_eq_some_iff.mp h
    obtain ⟨rest, hrest, h⟩ := Option.bind_eq_some_iff.mp h
    obtain rfl : first :: rest = bs := Option.some.inj h
    rcases List.mem_cons.mp hb with rfl | hb
    · exact ⟨a, List.mem_cons_self, hfirst⟩
    · obtain ⟨a, ha, hfa⟩ := ih hrest hb
      exact ⟨a, List.mem_cons_of_mem _ ha, hfa⟩

/-- What holds of whatever is read holds of all that is read from a list. -/
theorem forall_mem_of_mapM {α β : Type} {f : α → Option β} {p : β → Prop}
    (hf : ∀ a b, f a = some b → p b) {as : List α} {bs : List β} (h : as.mapM f = some bs) :
    ∀ b ∈ bs, p b := by
  intro b hb
  obtain ⟨a, -, ha⟩ := exists_of_mem_mapM h hb
  exact hf a b ha

namespace Document

variable {α : Type} {depth : Nat}

/-! ### Lists and tables -/

theorem list?_map {item? : Document → Option α} {write : α → Document} {items : List α}
    (h : ∀ item ∈ items, item? (write item) = some item) :
    list? item? (array (items.map write)) = some items :=
  mapM_map_eq_some h

theorem list?_text (texts : List String) : list? text? (array (texts.map text)) = some texts :=
  list?_map fun _ _ => rfl

theorem arePlain_iff {items : List Document} :
    arePlain items = true ↔ ∀ item ∈ items, item.isPlain = true := by
  induction items with
  | nil => simp [arePlain]
  | cons item items ih => rw [arePlain, Bool.and_eq_true, ih, List.forall_mem_cons]

theorem entriesArePlain_iff {entries : List (String × Document)} :
    entriesArePlain entries = true ↔ ∀ entry ∈ entries, entry.2.isPlain = true := by
  induction entries with
  | nil => simp [entriesArePlain]
  | cons entry entries ih => rw [entriesArePlain, Bool.and_eq_true, ih, List.forall_mem_cons]

theorem arePlain_texts (texts : List String) : arePlain (texts.map text) = true :=
  arePlain_iff.mpr (List.forall_mem_map.mpr fun _ _ => rfl)

theorem entries?_map {value? : Document → Option α}
    {write : String × α → String × Document} {entries : List (String × α)}
    (h : ∀ entry ∈ entries, (write entry).1 = entry.1 ∧ value? (write entry).2 = some entry.2) :
    entries? value? (object (entries.map write)) = some entries := by
  rw [entries?, mapM_map_eq_some]
  intro entry hm
  obtain ⟨hname, hvalue⟩ := h entry hm
  change (value? (write entry).2).map (fun value => ((write entry).1, value)) = some entry
  rw [hvalue, hname, Option.map_some]

theorem entriesArePlain_map {write : α → String × Document} {items : List α}
    (h : ∀ item ∈ items, (write item).2.isPlain = true) :
    entriesArePlain (items.map write) = true :=
  entriesArePlain_iff.mpr (List.forall_mem_map.mpr h)

theorem int64?_toInt (n : Int64) : int64? (.integer n.toInt) = some n := by
  rw [int64?, if_pos ⟨Int64.minValue_le_toInt n, Int64.toInt_le n⟩, Int64.ofInt_toInt]

theorem areSound_iff {items : List Document} :
    areSound depth items = true ↔ ∀ item ∈ items, item.isSound depth = true := by
  induction items with
  | nil => simp [areSound]
  | cons item items ih => rw [areSound, Bool.and_eq_true, ih, List.forall_mem_cons]

theorem entriesAreSound_iff {entries : List (String × Document)} :
    entriesAreSound depth entries = true ↔ ∀ entry ∈ entries, entry.2.isSound depth = true := by
  induction entries with
  | nil => simp [entriesAreSound]
  | cons entry entries ih => rw [entriesAreSound, Bool.and_eq_true, ih, List.forall_mem_cons]

theorem isSound_array {items : List Document} : (array items).isSound depth = true ↔
    depth ≠ 0 ∧ ∀ item ∈ items, item.isSound (depth - 1) = true := by
  rw [isSound, Bool.and_eq_true, areSound_iff, bne_iff_ne]

theorem isSound_object {entries : List (String × Document)} :
    (object entries).isSound depth = true ↔
      depth ≠ 0 ∧ ∀ entry ∈ entries, entry.2.isSound (depth - 1) = true := by
  rw [isSound, Bool.and_eq_true, entriesAreSound_iff, bne_iff_ne]

/-! ### Fields that were written -/

/-- The entries of the fields that are not absent. -/
def written (fields : List (String × Option Document)) : List (String × Document) :=
  fields.flatMap fun field => present field.1 id field.2

/-- A list, absent if it is empty. -/
def listed (write : α → Document) (values : List α) : Option Document :=
  if values.isEmpty then none else some (array (values.map write))

variable {fields : List (String × Option Document)} {field : String × Option Document}

theorem mem_written {entry : String × Document} :
    entry ∈ written fields ↔ (entry.1, some entry.2) ∈ fields := by
  simp only [written, present, List.mem_flatMap, Option.mem_toList, Option.map_eq_some_iff]
  constructor
  · rintro ⟨⟨name, _⟩, hm, value, rfl, rfl⟩
    exact hm
  · exact fun hm => ⟨_, hm, entry.2, rfl, rfl⟩

theorem filter_present (name other : String) (value : Option Document) :
    (present name id value).filter (·.1 == other) =
      if name = other then present name id value else [] := by
  cases value <;> by_cases h : name = other <;> simp [present, h]

theorem filter_written (hnames : (fields.map Prod.fst).Nodup) (hm : field ∈ fields) :
    (written fields).filter (·.1 == field.1) = present field.1 id field.2 := by
  induction fields with
  | nil => cases hm
  | cons first fields ih =>
    rw [List.map_cons, List.nodup_cons] at hnames
    obtain ⟨hfirst, hnames⟩ := hnames
    rw [written, List.flatMap_cons, List.filter_append, filter_present]
    rcases List.mem_cons.mp hm with rfl | hm
    · have hrest : (written fields).filter (·.1 == field.1) = [] := by
        refine List.filter_eq_nil_iff.mpr fun entry he hname => ?_
        exact hfirst (List.mem_map.mpr ⟨_, mem_written.mp he, eq_of_beq hname⟩)
      rw [if_pos rfl]
      exact (congrArg (_ ++ ·) hrest).trans (List.append_nil _)
    · have hne : first.1 ≠ field.1 := fun he =>
        hfirst (List.mem_map.mpr ⟨field, hm, he.symm⟩)
      rw [if_neg hne, List.nil_append]
      exact ih hnames hm

theorem single?_written (hnames : (fields.map Prod.fst).Nodup) (hm : field ∈ fields) :
    single? field.1 (written fields) = some field.2 := by
  rw [single?, filter_written hnames hm]
  cases field.2 <;> rfl

theorem mapM_eq_some_map {β : Type} {f : α → Option β} {g : α → β} {items : List α}
    (h : ∀ item ∈ items, f item = some (g item)) : items.mapM f = some (items.map g) := by
  induction items with
  | nil => rfl
  | cons item items ih =>
    obtain ⟨hitem, hitems⟩ := List.forall_mem_cons.mp h
    rw [List.mapM_cons, hitem, ih hitems]
    rfl

/-- The fields of a record are read as they were written, the absent ones being absent. -/
theorem fields?_written (fields : List (String × Option Document))
    (hnames : (fields.map Prod.fst).Nodup) :
    fields? (fields.map Prod.fst) (object (written fields)) = some (fields.map Prod.snd) := by
  rw [fields?, List.mapM_map]
  exact mapM_eq_some_map fun field hm => single?_written hnames hm

theorem optional_text (value : Option String) : optional text? (value.map text) = some value := by
  cases value <;> rfl

theorem exists_of_mem_map_text {value : Option String} {document : Document}
    (h : document ∈ value.map text) : ∃ s, document = text s := by
  obtain ⟨s, -, rfl⟩ := Option.map_eq_some_iff.mp h
  exact ⟨s, rfl⟩

theorem defaulting_listed {item? : Document → Option α} {write : α → Document} {values : List α}
    (h : ∀ value ∈ values, item? (write value) = some value) :
    defaulting [] (list? item?) (listed write values) = some values := by
  cases values with
  | nil => rfl
  | cons value values => exact list?_map h

theorem defaulting_texts (texts : List String) :
    defaulting [] (list? text?) (listed text texts) = some texts :=
  defaulting_listed fun _ _ => rfl

theorem isPlain_written (h : ∀ field ∈ fields, ∀ value ∈ field.2, value.isPlain = true) :
    (object (written fields)).isPlain = true :=
  entriesArePlain_iff.mpr fun _ he => h _ (mem_written.mp he) _ rfl

theorem isPlain_listed {write : α → Document} {values : List α}
    (h : ∀ value ∈ values, (write value).isPlain = true) :
    ∀ document ∈ listed write values, document.isPlain = true := by
  cases values with
  | nil => exact nofun
  | cons value values =>
    rintro _ ⟨⟩
    exact arePlain_iff.mpr (List.forall_mem_map.mpr h)

theorem isSound_written (hdepth : depth ≠ 0)
    (h : ∀ field ∈ fields, ∀ value ∈ field.2, value.isSound (depth - 1) = true) :
    (object (written fields)).isSound depth = true := by
  refine isSound_object.mpr ⟨hdepth, fun entry he => ?_⟩
  exact h _ (mem_written.mp he) _ rfl

/-! ### Fields that are read -/

theorem mem_of_single? {entries : List (String × Document)} {name : String} {value : Document}
    (h : single? name entries = some (some value)) : (name, value) ∈ entries := by
  unfold single? at h
  split at h
  · cases h
  · next found value' he =>
    obtain rfl : value' = value := Option.some.inj (Option.some.inj h)
    have hm : (found, value') ∈ entries.filter (·.1 == name) := he ▸ List.mem_singleton_self _
    obtain ⟨hm, hname⟩ := List.mem_filter.mp hm
    rwa [← eq_of_beq hname]
  · cases h

/-- The fields of a sound record are sound in a depth less. -/
theorem isSound_of_fields? {document : Document} {names : List String}
    {found : List (Option Document)} (h : document.fields? names = some found)
    (hsound : document.isSound depth = true) :
    depth ≠ 0 ∧ ∀ field ∈ found, ∀ value ∈ field, value.isSound (depth - 1) = true := by
  cases document with
  | object entries =>
    obtain ⟨hdepth, hentries⟩ := isSound_object.mp hsound
    refine ⟨hdepth, forall_mem_of_mapM (fun name field hfield value hvalue => ?_) h⟩
    obtain rfl : field = some value := hvalue
    exact hentries _ (mem_of_single? hfield)
  | array items =>
    obtain ⟨hdepth, hitems⟩ := isSound_array.mp hsound
    rw [fields?] at h
    split at h
    · obtain rfl := Option.some.inj h
      refine ⟨hdepth, List.forall_mem_map.mpr fun i _ value hvalue => ?_⟩
      exact hitems value (List.mem_of_getElem? hvalue)
    · cases h
  | null | boolean | integer | real | text | broken => cases h

/-- Whether what is read from a sound document is sound as it is written, and read again. -/
def Returns (read? : Document → Option α) (write : α → Document) (depth : Nat) : Prop :=
  ∀ document value, document.isSound depth = true → read? document = some value →
    (write value).isSound depth = true ∧ read? (write value) = some value

variable {item? : Document → Option α} {write : α → Document}

theorem Returns.list (h : Returns item? write (depth - 1)) :
    Returns (list? item?) (fun values => array (values.map write)) depth := by
  intro document values hsound hread
  cases document with
  | array items =>
    obtain ⟨hdepth, hitems⟩ := isSound_array.mp hsound
    have hvalues : ∀ value ∈ values,
        (write value).isSound (depth - 1) = true ∧ item? (write value) = some value := by
      intro value hvalue
      obtain ⟨item, hm, hitem⟩ := exists_of_mem_mapM hread hvalue
      exact h item value (hitems item hm) hitem
    refine ⟨isSound_array.mpr ⟨hdepth, List.forall_mem_map.mpr fun value hm => ?_⟩, ?_⟩
    · exact (hvalues value hm).1
    · exact list?_map fun value hm => (hvalues value hm).2
  | null | boolean | integer | real | text | object | broken => cases hread

theorem Returns.listed (h : Returns item? write (depth - 1)) {field : Option Document}
    {values : List α} (hsound : ∀ value ∈ field, value.isSound depth = true)
    (hread : defaulting [] (list? item?) field = some values) :
    (∀ document ∈ listed write values, document.isSound depth = true) ∧
      defaulting [] (list? item?) (listed write values) = some values := by
  cases values with
  | nil => exact ⟨nofun, rfl⟩
  | cons value values =>
    cases field with
    | none => cases hread
    | some document =>
      obtain ⟨hwritten, hagain⟩ := h.list document _ (hsound document rfl) hread
      exact ⟨by rintro _ ⟨⟩; exact hwritten, hagain⟩

end Document

end ModelQuery
