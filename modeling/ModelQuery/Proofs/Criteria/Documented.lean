import ModelQuery.Criteria.Documented
import ModelQuery.Proofs.Document.Record

/-! Criteria that are read as they were written. A group is written no deeper than it was read, so
that the limit on depth is met again. -/

namespace ModelQuery

open Document

namespace Criterion

/-- The fields of a comparison, as they are written. -/
def fields (criterion : Criterion) : List (String × Option Document) :=
  [("category", some (.text criterion.category)), ("property", some (.text criterion.property)),
    ("operator", criterion.operator.map .text), ("value", some (.text criterion.value)),
    ("logical_operator", criterion.joiner.map .text)]

theorem toDocument_eq (criterion : Criterion) :
    criterion.toDocument = .object (written criterion.fields) := by
  obtain ⟨category, property, operator, value, joiner⟩ := criterion
  cases operator <;> cases joiner <;> rfl

theorem isText_of_mem_fields {criterion : Criterion} {field : String × Option Document}
    (hm : field ∈ criterion.fields) {value : Document} (hvalue : value ∈ field.2) :
    ∃ s, value = .text s := by
  simp only [fields, List.mem_cons, List.not_mem_nil, or_false] at hm
  rcases hm with rfl | rfl | rfl | rfl | rfl
  · exact ⟨_, (Option.some.inj hvalue).symm⟩
  · exact ⟨_, (Option.some.inj hvalue).symm⟩
  · exact exists_of_mem_map_text hvalue
  · exact ⟨_, (Option.some.inj hvalue).symm⟩
  · exact exists_of_mem_map_text hvalue

theorem isPlain_toDocument (criterion : Criterion) : criterion.toDocument.isPlain = true := by
  rw [toDocument_eq]
  refine isPlain_written fun field hm value hvalue => ?_
  obtain ⟨s, rfl⟩ := isText_of_mem_fields hm hvalue
  rfl

theorem isSound_toDocument (criterion : Criterion) {depth : Nat} (hdepth : depth ≠ 0) :
    criterion.toDocument.isSound depth = true := by
  rw [toDocument_eq]
  refine isSound_written hdepth fun field hm value hvalue => ?_
  obtain ⟨s, rfl⟩ := isText_of_mem_fields hm hvalue
  rfl

theorem ofDocument?_toDocument (criterion : Criterion) :
    ofDocument? criterion.toDocument = some criterion := by
  have hfields := fields?_written criterion.fields (by simp [fields])
  rw [← toDocument_eq] at hfields
  simp only [fields, List.map_cons, List.map_nil] at hfields
  simp [ofDocument?, hfields, required, text?, optional_text]

theorem returns (depth : Nat) : Returns ofDocument? toDocument depth := by
  intro document criterion hsound h
  unfold ofDocument? at h
  obtain ⟨found, hfound, -⟩ := Option.bind_eq_some_iff.mp h
  exact ⟨criterion.isSound_toDocument (isSound_of_fields? hfound hsound).1,
    criterion.ofDocument?_toDocument⟩

end Criterion

namespace Criteria

namespace Group

theorem toDocuments_eq (groups : List Group) : toDocuments groups = groups.map toDocument := by
  induction groups with
  | nil => rfl
  | cons group groups ih => rw [toDocuments, ih, List.map_cons]

/-- The fields of a group, as they are written. -/
def fields (group : Group) : List (String × Option Document) :=
  [("logical_operator", group.joiner.map .text),
    ("criteria", listed Criterion.toDocument group.criteria),
    ("groups", listed toDocument group.groups)]

theorem toDocument_eq (group : Group) : group.toDocument = .object (written group.fields) := by
  obtain ⟨joiner, criteria, groups⟩ := group
  rw [toDocument, toDocuments_eq]
  cases joiner <;> cases criteria <;> cases groups <;> rfl

theorem isPlain_toDocument (group : Group) : group.toDocument.isPlain = true := by
  obtain ⟨joiner, criteria, groups⟩ := group
  rw [toDocument_eq]
  refine isPlain_written ?_
  simp only [fields, List.forall_mem_cons]
  refine ⟨?_, ?_, ?_, List.forall_mem_nil _⟩
  · intro value hvalue
    obtain ⟨s, rfl⟩ := exists_of_mem_map_text hvalue
    rfl
  · exact isPlain_listed fun criterion _ => criterion.isPlain_toDocument
  · exact isPlain_listed fun inner hm => isPlain_toDocument inner
termination_by group
decreasing_by
  have hlt := List.sizeOf_lt_of_mem hm
  simp only [Group.groups] at hlt
  simp only [Group.mk.sizeOf_spec]
  omega

theorem isPlain_toDocuments (groups : List Group) : arePlain (toDocuments groups) = true := by
  rw [toDocuments_eq]
  exact arePlain_iff.mpr (List.forall_mem_map.mpr fun group _ => group.isPlain_toDocument)

theorem ofDocument?_eq_some_iff {depth : Nat} {document : Document} {group : Group} :
    ofDocument? (depth + 1) document = some group ↔
      ∃ joiner criteria groups,
        document.fields? ["logical_operator", "criteria", "groups"] =
          some [joiner, criteria, groups] ∧
        optional text? joiner = some group.joiner ∧
        defaulting [] (list? Criterion.ofDocument?) criteria = some group.criteria ∧
        defaulting [] (list? (ofDocument? depth)) groups = some group.groups := by
  constructor
  · intro h
    rw [ofDocument?] at h
    obtain ⟨found, hfound, h⟩ := Option.bind_eq_some_iff.mp h
    split at h
    · obtain ⟨joiner, hjoiner, h⟩ := Option.bind_eq_some_iff.mp h
      obtain ⟨criteria, hcriteria, h⟩ := Option.bind_eq_some_iff.mp h
      obtain ⟨groups, hgroups, h⟩ := Option.bind_eq_some_iff.mp h
      obtain rfl := Option.some.inj h
      exact ⟨_, _, _, hfound, hjoiner, hcriteria, hgroups⟩
    · cases h
  · obtain ⟨joiner', criteria', groups'⟩ := group
    rintro ⟨joiner, criteria, groups, hfound, hjoiner, hcriteria, hgroups⟩
    simp [ofDocument?, hfound, hjoiner, hcriteria, hgroups, Group.joiner, Group.criteria,
      Group.groups]

/-- A group is written no deeper than it was read. -/
theorem returns (fuel : Nat) : ∀ depth, Returns (ofDocument? fuel) toDocument depth := by
  induction fuel with
  | zero =>
    intro depth document group hsound h
    cases h
  | succ fuel ih =>
    intro depth document group hsound h
    obtain ⟨joiner, criteria, groups, hfields, hjoiner, hcriteria, hgroups⟩ :=
      ofDocument?_eq_some_iff.mp h
    obtain ⟨hdepth, hfound⟩ := isSound_of_fields? hfields hsound
    simp only [List.forall_mem_cons] at hfound
    obtain ⟨-, hfoundCriteria, hfoundGroups, -⟩ := hfound
    obtain ⟨hsoundCriteria, hcriteria⟩ := (Criterion.returns _).listed hfoundCriteria hcriteria
    obtain ⟨hsoundGroups, hgroups⟩ := (ih _).listed hfoundGroups hgroups
    rw [toDocument_eq]
    constructor
    · refine isSound_written hdepth ?_
      simp only [fields, List.forall_mem_cons]
      refine ⟨?_, hsoundCriteria, hsoundGroups, List.forall_mem_nil _⟩
      intro value hvalue
      obtain ⟨s, rfl⟩ := exists_of_mem_map_text hvalue
      rfl
    · refine ofDocument?_eq_some_iff.mpr ⟨_, _, _, ?_, optional_text _, hcriteria, hgroups⟩
      exact fields?_written group.fields (by simp [fields])

end Group

theorem isPlain_toDocument (criteria : Criteria) : criteria.toDocument.isPlain = true := by
  cases criteria with
  | sequence list =>
    exact arePlain_iff.mpr (List.forall_mem_map.mpr fun criterion _ => criterion.isPlain_toDocument)
  | grouped groups =>
    rw [toDocument, isPlain, entriesArePlain, isPlain, Group.isPlain_toDocuments]
    rfl

/-- Criteria are written no deeper than they were read. -/
theorem returns (depth : Nat) : Returns ofDocument? toDocument depth := by
  intro document criteria hsound h
  cases document with
  | array items =>
    obtain ⟨list, hlist, rfl⟩ := Option.map_eq_some_iff.mp h
    obtain ⟨hwritten, hagain⟩ := (Criterion.returns (depth - 1)).list _ list hsound hlist
    refine ⟨hwritten, ?_⟩
    exact congrArg (Option.map sequence) hagain
  | object entries =>
    obtain ⟨value, hvalue, h⟩ := Option.bind_eq_some_iff.mp h
    obtain ⟨groups, hgroups, rfl⟩ := Option.map_eq_some_iff.mp h
    obtain ⟨document, rfl, hgroups⟩ := Option.bind_eq_some_iff.mp hgroups
    obtain ⟨hdepth, hentries⟩ := isSound_object.mp hsound
    have hdocument := hentries _ (mem_of_single? hvalue)
    obtain ⟨hwritten, hagain⟩ := (Group.returns _ _).list _ groups hdocument hgroups
    rw [toDocument, Group.toDocuments_eq]
    constructor
    · exact isSound_object.mpr ⟨hdepth, by simpa using hwritten⟩
    · exact congrArg (Option.map grouped) hagain
  | null | boolean | integer | real | text | broken => cases h

/-- Criteria that were read are read again from how they are written. -/
theorem ofText?_written {text : String} {criteria : Criteria} (h : ofText? text = some criteria) :
    ofText? criteria.toDocument.compact = some criteria ∧
      ofText? criteria.toDocument.pretty = some criteria := by
  obtain ⟨document, -, h⟩ := Option.bind_eq_some_iff.mp h
  split at h
  · next hsound =>
    obtain ⟨hwritten, hagain⟩ := returns _ document criteria hsound h
    have hplain := criteria.isPlain_toDocument
    constructor
    · rw [ofText?, ofText?_compact hplain, Option.bind_some, if_pos hwritten, hagain]
    · rw [ofText?, ofText?_pretty hplain, Option.bind_some, if_pos hwritten, hagain]
  · cases h

end Criteria

end ModelQuery
