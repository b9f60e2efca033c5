import ModelQuery.Proofs.Document.Record
import ModelQuery.Proofs.Keyed
import ModelQuery.Proofs.Selection.Lifetime
import ModelQuery.Proofs.Selection.Moment
import ModelQuery.Selection.Documented

/-! Selections that are read as they were written. The table has to be in order and its times have
to be moments, which is so of whatever was read and is kept up by all that happens to selections. -/

namespace ModelQuery

theorem Instant.isMoment_last : Instant.last.IsMoment :=
  ⟨by decide, le_refl _, by decide, by decide⟩

theorem Instant.IsMoment.plus {t : Instant} (h : t.IsMoment) {seconds : Int} (hs : 0 ≤ seconds) :
    (t.plus seconds).IsMoment := by
  have hfirst := h.first_le
  by_cases hlast : t.seconds + seconds ≤ last.seconds
  · by_cases hpos : 0 < seconds
    · have hplus : t.plus seconds = ⟨t.seconds + seconds, t.nanos % 1000000000⟩ := by
        simp [Instant.plus, hlast, hpos]
      rw [hplus]
      exact ⟨by dsimp only; omega, hlast, by dsimp only; omega, by dsimp only; omega⟩
    · obtain rfl : seconds = 0 := by omega
      have hplus : t.plus 0 = t := by simp [Instant.plus, h.le_last]
      rwa [hplus]
  · have hplus : t.plus seconds = last := by simp [Instant.plus, hlast]
    rw [hplus]
    exact isMoment_last

namespace Selection

/-- A selection that can be stored and read again. -/
def IsStorable (selection : Selection) : Prop :=
  selection.created.IsMoment ∧ selection.expires.IsMoment

theorem ofDocument?_toDocument {selection : Selection} (h : selection.IsStorable) :
    ofDocument? selection.toDocument = some selection := by
  have hcreated := Instant.ofText?_render h.1
  have hexpires := Instant.ofText?_render h.2
  simp [ofDocument?, toDocument, Document.fields?, Document.single?, Document.required,
    Document.list?_text, Instant.ofDocument?, Document.text?, hcreated, hexpires]

theorem isStorable_of_ofDocument? {document : Document} {selection : Selection}
    (h : ofDocument? document = some selection) : selection.IsStorable := by
  have hmoment : ∀ field t, Document.required Instant.ofDocument? field = some t → t.IsMoment := by
    intro field t h
    obtain ⟨document, -, h⟩ := Option.bind_eq_some_iff.mp h
    obtain ⟨text, -, h⟩ := Option.bind_eq_some_iff.mp h
    exact Instant.isMoment_of_ofText? h
  unfold ofDocument? at h
  obtain ⟨fields, -, h⟩ := Option.bind_eq_some_iff.mp h
  split at h
  · obtain ⟨ids, -, h⟩ := Option.bind_eq_some_iff.mp h
    obtain ⟨created, hcreated, h⟩ := Option.bind_eq_some_iff.mp h
    obtain ⟨expires, hexpires, h⟩ := Option.bind_eq_some_iff.mp h
    obtain rfl := Option.some.inj h
    exact ⟨hmoment _ _ hcreated, hmoment _ _ hexpires⟩
  · cases h

theorem isPlain_toDocument (selection : Selection) : selection.toDocument.isPlain = true := by
  simp [toDocument, Document.isPlain, Document.entriesArePlain, Document.arePlain_texts]

end Selection

namespace Selections

/-- Selections that can be stored and read again. -/
structure IsStorable (selections : Selections) : Prop where
  ordered : selections.stored.Ordered
  moments : ∀ entry ∈ selections.stored, entry.2.IsStorable

theorem isPlain_toDocument (selections : Selections) : selections.toDocument.isPlain = true := by
  have hlow := Int64.le_toInt selections.lifetime
  have hhigh := Int64.toInt_lt selections.lifetime
  have hlifetime : (Document.integer selections.lifetime.toInt).isPlain = true := by
    simp only [Document.isPlain, Bool.and_eq_true, decide_eq_true_eq]
    omega
  rw [toDocument, Document.isPlain, Document.entriesArePlain, hlifetime, Document.entriesArePlain,
    Document.isPlain, Document.entriesArePlain_map]
  · rfl
  · exact fun entry _ => Selection.isPlain_toDocument entry.2

theorem ofDocument?_toDocument {selections : Selections} (h : selections.IsStorable) :
    ofDocument? selections.toDocument = some selections := by
  obtain ⟨table, htable, hentries⟩ : ∃ table,
      selections.toDocument =
        .object [("ttl_secs", .integer selections.lifetime.toInt), ("selections", table)] ∧
      table.entries? Selection.ofDocument? = some selections.stored :=
    ⟨_, rfl, Document.entries?_map fun entry hm =>
      ⟨rfl, Selection.ofDocument?_toDocument (h.moments entry hm)⟩⟩
  simp [htable, ofDocument?, Document.fields?, Document.single?, Document.defaulting,
    Document.int64?_toInt, hentries, h.ordered.ofEntries_eq]

/-- What is stored is read as it was written. -/
theorem ofText?_render {selections : Selections} (h : selections.IsStorable) :
    ofText? selections.render = some selections := by
  rw [ofText?, render, Document.ofText?_pretty selections.isPlain_toDocument, Option.bind_some,
    ofDocument?_toDocument h]

theorem isStorable_of_ofText? {text : String} {selections : Selections}
    (h : ofText? text = some selections) : selections.IsStorable := by
  have hentries : ∀ field entries,
      Document.defaulting [] (Document.entries? Selection.ofDocument?) field = some entries →
      ∀ entry ∈ entries, entry.2.IsStorable := by
    intro field entries h
    cases field with
    | none =>
      obtain rfl : [] = entries := Option.some.inj h
      exact fun entry he => nomatch he
    | some document =>
      cases document with
      | object fields =>
        refine forall_mem_of_mapM (fun field entry hentry => ?_) h
        obtain ⟨selection, hselection, rfl⟩ := Option.map_eq_some_iff.mp hentry
        exact Selection.isStorable_of_ofDocument? hselection
      | null | boolean | integer | real | text | array | broken => cases h
  obtain ⟨document, -, h⟩ := Option.bind_eq_some_iff.mp h
  unfold ofDocument? at h
  obtain ⟨fields, -, h⟩ := Option.bind_eq_some_iff.mp h
  split at h
  · obtain ⟨lifetime, -, h⟩ := Option.bind_eq_some_iff.mp h
    obtain ⟨entries, he, h⟩ := Option.bind_eq_some_iff.mp h
    obtain rfl := Option.some.inj h
    exact ⟨Keyed.ordered_ofEntries _, fun entry hm =>
      hentries _ _ he entry (Keyed.mem_of_mem_ofEntries hm)⟩
  · cases h

theorem isStorable_empty : empty.IsStorable :=
  ⟨Keyed.ordered_nil, fun _ h => nomatch h⟩

variable {selections : Selections}

theorem IsStorable.purge (h : selections.IsStorable) (now : Instant) :
    (selections.purge now).IsStorable :=
  ⟨h.ordered.filter _, fun entry hm => h.moments entry (List.mem_of_mem_filter hm)⟩

theorem IsStorable.setLifetime (h : selections.IsStorable) (seconds : Int64) :
    (selections.setLifetime seconds).IsStorable :=
  ⟨h.ordered, h.moments⟩

theorem IsStorable.create (h : selections.IsStorable) (token : String) (ids : List String)
    {now : Instant} (hnow : now.IsMoment) : (selections.create token ids now).IsStorable := by
  refine ⟨h.ordered.insert token _, fun entry hm => ?_⟩
  rcases Keyed.mem_of_mem_insert hm with rfl | hm
  · refine ⟨hnow, hnow.plus ?_⟩
    rw [toInt_clamp]
    omega
  · exact h.moments entry hm

theorem IsStorable.ids? (h : selections.IsStorable) (token : String) (now : Instant) :
    (selections.ids? token now).1.IsStorable := by
  unfold Selections.ids?
  split
  · exact h
  · split
    · exact ⟨h.ordered.erase token, fun entry hm => h.moments entry (List.mem_of_mem_filter hm)⟩
    · exact h

end Selections

end ModelQuery
