import ModelQuery.Criteria.Filter
import ModelQuery.Proofs.Outcome
import ModelQuery.Proofs.Text.Trimming

/-! Which criteria are a filter. Every list and every field has to be as it should at every level,
and every joiner has to be a word that joins, apart from one behind the last of a sequence. -/

namespace ModelQuery

open Text

def IsFilled (text : String) : Prop :=
  ∃ c ∈ text.toList, isBlank c = false

/-- Once trimmed, the text holds no character that means something in filters. -/
def IsUnreserved (text : String) : Prop :=
  ∀ c ∈ trim text.toList, c ≠ '|' ∧ c ≠ ';' ∧ c ≠ '(' ∧ c ≠ ')'

structure Criterion.IsSound (criterion : Criterion) : Prop where
  category : IsFilled criterion.category ∧ IsUnreserved criterion.category
  property : IsFilled criterion.property ∧ IsUnreserved criterion.property
  operator : ∀ operator ∈ criterion.operator, IsFilled operator ∧ IsUnreserved operator
  value : IsUnreserved criterion.value

namespace Criteria

/-- What is given as a joiner, if anything, is `AND` or `OR` in any case, with blanks around it. -/
def IsJoiner (given : Option String) : Prop :=
  ∀ word ∈ given, sameLetters (trim word.toList) "AND".toList = true ∨
    sameLetters (trim word.toList) "OR".toList = true

/-- The joiner of the last comparison has no next one to join and may be anything. -/
structure IsSoundSequence (criteria : List Criterion) : Prop where
  inhabited : criteria ≠ []
  sound : ∀ criterion ∈ criteria, criterion.IsSound
  joined : ∀ criterion ∈ criteria.dropLast, IsJoiner criterion.joiner

/-- A group holds a sequence or further groups and not both, and so do all groups inside it. -/
inductive Group.IsSound : Group → Prop
  | sequence {joiner : Option String} {criteria : List Criterion} (hjoiner : IsJoiner joiner)
    (h : IsSoundSequence criteria) : IsSound (.mk joiner criteria [])
  | nested {joiner : Option String} {groups : List Group} (hjoiner : IsJoiner joiner)
    (hne : groups ≠ []) (h : ∀ group ∈ groups, group.IsSound) : IsSound (.mk joiner [] groups)

def IsSound : Criteria → Prop
  | sequence criteria => IsSoundSequence criteria
  | grouped groups => groups ≠ [] ∧ ∀ group ∈ groups, group.IsSound

theorem isFilled_iff {text : String} : IsFilled text ↔ (trim text.toList).isEmpty = false := by
  rw [← Bool.not_eq_true, List.isEmpty_iff, trim_eq_nil_iff]
  simp [IsFilled]

theorem isUnreserved_iff {text : String} :
    IsUnreserved text ↔ (trim text.toList).find? isReserved = none := by
  simp [IsUnreserved, isReserved, List.find?_eq_none, and_assoc]

theorem exists_fieldText_iff {field : Field} {text : String} :
    (∃ found, fieldText field text = .ok found) ↔
      (field ≠ .value → IsFilled text) ∧ IsUnreserved text := by
  rw [isFilled_iff, isUnreserved_iff]
  simp only [fieldText]
  split
  · next hmissing =>
    obtain ⟨hempty, hfield⟩ := (Bool.and_eq_true _ _).mp hmissing
    simp [hempty, of_decide_eq_true hfield]
  · next hpresent =>
    have hfilled : field ≠ .value → (trim text.toList).isEmpty = false := by
      intro hfield
      simpa [hfield] using hpresent
    split
    · next c hfind => simp [hfind]
    · next hfind => simpa [hfind] using hfilled

theorem exists_joinerOf_iff {given : Option String} :
    (∃ joiner, joinerOf given = .ok joiner) ↔ IsJoiner given := by
  cases given with
  | none => simp [joinerOf, IsJoiner]
  | some word =>
    have hjoiner : IsJoiner (some word) ↔ Joiner.ofKeyword? word.toList ≠ none := by
      simp only [IsJoiner, Option.mem_some_iff, forall_eq', Joiner.ofKeyword?, Joiner.ofLetters?]
      split_ifs with hand hor
      · exact ⟨fun _ => Option.some_ne_none _, fun _ => Or.inl hand⟩
      · exact ⟨fun _ => Option.some_ne_none _, fun _ => Or.inr hor⟩
      · exact ⟨fun h => (h.elim hand hor).elim, fun h => absurd rfl h⟩
    rw [hjoiner]
    cases hkeyword : Joiner.ofKeyword? word.toList with
    | none => simp [joinerOf, hkeyword]
    | some joiner => simp [joinerOf, hkeyword]

theorem exists_clauseText_iff {criterion : Criterion} :
    (∃ text, clauseText criterion = .ok text) ↔ criterion.IsSound := by
  have hdefault : IsFilled defaultOperator ∧ IsUnreserved defaultOperator := by
    rw [isFilled_iff, isUnreserved_iff]
    decide
  have hoperator : (∃ text,
      fieldText .operator (criterion.operator.getD defaultOperator) = .ok text) ↔
        ∀ operator ∈ criterion.operator, IsFilled operator ∧ IsUnreserved operator := by
    rw [exists_fieldText_iff]
    cases criterion.operator with
    | none => simp [hdefault]
    | some operator => simp
  simp only [clauseText, exists_bind_eq_ok_iff, pure_eq_ok, Except.ok.injEq, exists_eq',
    and_true, exists_and_right, hoperator]
  simp only [exists_fieldText_iff, ne_eq, reduceCtorEq, not_false_eq_true, not_true_eq_false,
    forall_const, false_implies, true_and]
  exact ⟨fun ⟨hcategory, hproperty, hoperator, hvalue⟩ =>
      ⟨hcategory, hproperty, hoperator, hvalue⟩,
    fun ⟨hcategory, hproperty, hoperator, hvalue⟩ =>
      ⟨hcategory, hproperty, hoperator, hvalue⟩⟩

theorem isSoundSequence_singleton {criterion : Criterion} :
    IsSoundSequence [criterion] ↔ criterion.IsSound :=
  ⟨fun h => h.sound criterion (by simp), fun h => ⟨by simp, by simpa using h, by simp⟩⟩

theorem isSoundSequence_cons {criterion next : Criterion} {rest : List Criterion} :
    IsSoundSequence (criterion :: next :: rest) ↔
      IsJoiner criterion.joiner ∧ criterion.IsSound ∧ IsSoundSequence (next :: rest) := by
  constructor
  · intro h
    obtain ⟨hsound, hrest⟩ := List.forall_mem_cons.mp h.sound
    obtain ⟨hjoiner, hjoined⟩ := List.forall_mem_cons.mp h.joined
    exact ⟨hjoiner, hsound, by simp, hrest, hjoined⟩
  · rintro ⟨hjoiner, hsound, h⟩
    exact ⟨by simp, List.forall_mem_cons.mpr ⟨hsound, h.sound⟩,
      List.forall_mem_cons.mpr ⟨hjoiner, h.joined⟩⟩

theorem exists_sequenceText_iff {criteria : List Criterion} :
    (∃ text, sequenceText criteria = .ok text) ↔ IsSoundSequence criteria := by
  induction criteria with
  | nil =>
    constructor
    · rintro ⟨text, h⟩
      cases h
    · exact fun h => absurd rfl h.inhabited
  | cons criterion rest ih =>
    cases rest with
    | nil => rw [sequenceText, exists_clauseText_iff, isSoundSequence_singleton]
    | cons next rest =>
      rw [isSoundSequence_cons, ← ih, ← exists_clauseText_iff, ← exists_joinerOf_iff]
      simp only [sequenceText, exists_bind_eq_ok_iff, pure_eq_ok, Except.ok.injEq, exists_eq',
        and_true, exists_and_right]

theorem Group.isSound_sequence_iff {joiner : Option String} {criteria : List Criterion} :
    (Group.mk joiner criteria []).IsSound ↔ IsJoiner joiner ∧ IsSoundSequence criteria := by
  constructor
  · intro h
    cases h with
    | sequence hjoiner h => exact ⟨hjoiner, h⟩
    | nested _ hne => exact absurd rfl hne
  · exact fun ⟨hjoiner, h⟩ => .sequence hjoiner h

theorem Group.isSound_nested_iff {joiner : Option String} {groups : List Group} (hne : groups ≠ []) :
    (Group.mk joiner [] groups).IsSound ↔ IsJoiner joiner ∧ ∀ group ∈ groups, group.IsSound := by
  constructor
  · intro h
    cases h with
    | sequence => exact absurd rfl hne
    | nested hjoiner _ h => exact ⟨hjoiner, h⟩
  · exact fun ⟨hjoiner, h⟩ => .nested hjoiner hne h

mutual

/-- A group may stand among others if it can be written and has a joiner. -/
theorem Group.isSound_iff : ∀ group : Group,
    group.IsSound ↔ IsJoiner group.joiner ∧ ∃ text, group.text = .ok text
  | .mk joiner [] [] => by
    have hempty : ¬ IsSoundSequence [] := fun h => h.inhabited rfl
    simp [Group.isSound_sequence_iff, hempty, Group.text]
  | .mk joiner (criterion :: rest) (first :: later) => by
    have hmixed : ¬ (Group.mk joiner (criterion :: rest) (first :: later)).IsSound := nofun
    simp [hmixed, Group.text]
  | .mk joiner (criterion :: rest) [] => by
    rw [Group.isSound_sequence_iff, ← exists_sequenceText_iff]
    simp only [Group.text, Group.joiner, exists_bind_eq_ok_iff, pure_eq_ok, Except.ok.injEq,
      exists_eq', and_true]
  | .mk joiner [] (first :: rest) => by
    have hjoiner : (Group.mk joiner [] (first :: rest)).joiner = joiner := rfl
    rw [hjoiner, Group.isSound_nested_iff (by simp), List.forall_mem_cons, first.isSound_iff,
      ← exists_markedTexts_iff rest, ← exists_joinerOf_iff, ← exists_joinerOf_iff]
    simp only [Group.text, exists_bind_eq_ok_iff, pure_eq_ok, Except.ok.injEq, exists_eq',
      and_true, exists_and_right, and_assoc]

theorem exists_markedTexts_iff : ∀ groups : List Group,
    (∃ text, markedTexts groups = .ok text) ↔ ∀ group ∈ groups, group.IsSound
  | [] => by simp [markedTexts]
  | group :: rest => by
    rw [List.forall_mem_cons, group.isSound_iff, ← exists_markedTexts_iff rest,
      ← exists_joinerOf_iff]
    simp only [markedTexts, exists_bind_eq_ok_iff, pure_eq_ok, Except.ok.injEq, exists_eq',
      and_true, exists_and_right, and_assoc]

end

theorem exists_groupTexts_iff {groups : List Group} : (∃ text, groupTexts groups = .ok text) ↔
    groups ≠ [] ∧ ∀ group ∈ groups, group.IsSound := by
  cases groups with
  | nil => simp [groupTexts]
  | cons first rest =>
    rw [List.forall_mem_cons, first.isSound_iff, ← exists_markedTexts_iff rest,
      ← exists_joinerOf_iff]
    simp only [groupTexts, exists_bind_eq_ok_iff, pure_eq_ok, Except.ok.injEq, exists_eq',
      and_true, exists_and_right, and_assoc, ne_eq, reduceCtorEq, not_false_eq_true, true_and]

/-- Criteria are written as a filter exactly if they are sound at every level. -/
theorem exists_filter_iff (criteria : Criteria) :
    (∃ text, criteria.filter = .ok text) ↔ criteria.IsSound := by
  cases criteria with
  | sequence criteria => exact exists_sequenceText_iff
  | grouped groups => exact exists_groupTexts_iff

example : (sequence [⟨"Part", "NAME", none, "A", some "XOR"⟩]).filter =
    .ok "Part|NAME|IS_EQUAL|A".toList := rfl

example : (sequence [⟨"Part", "NAME", none, "A", some "XOR"⟩,
    ⟨"Part", "NAME", none, "B", none⟩]).filter = .error (.unknownJoiner "XOR") := rfl

end Criteria

end ModelQuery
