import ModelQuery.Proofs.Filter.Compiled

/-! The structure of criteria, apart from any text. The filter that criteria are written as compiles
to it: a sequence to a flat plan and groups to nested ones. -/

namespace ModelQuery

open Text

/-- The clause that a comparison stands for. -/
def Criterion.clause (criterion : Criterion) : Clause where
  category := String.ofList (trim criterion.category.toList)
  property := String.ofList (trim criterion.property.toList)
  operator := String.ofList (trim (criterion.operator.getD Criteria.defaultOperator).toList)
  value := String.ofList (trim criterion.value.toList)

namespace Criteria

/-- The joiner that is asked for. Criteria with a word that is no joiner are no filter. -/
def askedJoiner (word : Option String) : Joiner :=
  (word.bind fun word => Joiner.ofKeyword? word.toList).getD .and

/-- Comparisons side by side: each one's joiner stands at the next one. -/
def sequenceEntries (criteria : List Criterion) : List (Joiner × Plan.Node Clause) :=
  (Joiner.blank :: criteria.map fun criterion => askedJoiner criterion.joiner).zip
    (criteria.map fun criterion => .predicate criterion.clause)

mutual

/-- What is inside a group. -/
def Group.entries : Group → List (Joiner × Plan.Node Clause)
  | .mk _ [] groups => groupEntries groups
  | .mk _ criteria _ => sequenceEntries criteria

/-- Groups side by side. A group alone is not nested once more. -/
def groupEntries : List Group → List (Joiner × Plan.Node Clause)
  | [] => []
  | [only] => only.entries
  | first :: rest => (.blank, .group first.entries) :: laterEntries rest

def laterEntries : List Group → List (Joiner × Plan.Node Clause)
  | [] => []
  | group :: rest => (askedJoiner group.joiner, .group group.entries) :: laterEntries rest

end

/-- The structure of criteria. -/
def plan : Criteria → Plan Clause
  | sequence criteria => ⟨sequenceEntries criteria⟩
  | grouped groups => ⟨groupEntries groups⟩

theorem isFlat_plan_sequence (criteria : List Criterion) :
    (plan (sequence criteria)).isFlat = true := by
  refine List.all_eq_true.mpr fun ⟨joiner, node⟩ he => ?_
  obtain ⟨criterion, -, rfl⟩ := List.mem_map.mp (List.of_mem_zip he).2
  rfl

theorem fieldText_eq_ok {field : Field} {given : String} {text : List Char}
    (h : fieldText field given = .ok text) :
    text = trim given.toList ∧ IsPlain (String.ofList text) := by
  simp only [fieldText] at h
  split at h
  · cases h
  · split at h
    · cases h
    · next hf =>
      cases h
      refine ⟨rfl, ?_, ?_⟩
      · simp [trim_trim]
      · simpa using List.find?_eq_none.mp hf

theorem joinerOf_eq_ok {word : Option String} {joiner : Joiner} (h : joinerOf word = .ok joiner) :
    joiner = askedJoiner word ∧ joiner ≠ .blank := by
  cases word with
  | none =>
    cases h
    exact ⟨rfl, by decide⟩
  | some word =>
    simp only [joinerOf] at h
    cases hk : Joiner.ofKeyword? word.toList with
    | none => simp [hk] at h
    | some found =>
      simp only [hk, Except.ok.injEq] at h
      subst h
      exact ⟨by simp [askedJoiner, hk], Joiner.ne_blank_of_ofLetters? hk⟩

theorem clauseText_eq_ok {criterion : Criterion} {text : List Char}
    (h : clauseText criterion = .ok text) :
    text = criterion.clause.render.toList ∧ criterion.clause.IsPlain := by
  obtain ⟨category, hc, h⟩ := bind_eq_ok_iff.mp h
  obtain ⟨property, hp, h⟩ := bind_eq_ok_iff.mp h
  obtain ⟨operator, ho, h⟩ := bind_eq_ok_iff.mp h
  obtain ⟨value, hv, h⟩ := bind_eq_ok_iff.mp h
  obtain ⟨rfl, hc⟩ := fieldText_eq_ok hc
  obtain ⟨rfl, hp⟩ := fieldText_eq_ok hp
  obtain ⟨rfl, ho⟩ := fieldText_eq_ok ho
  obtain ⟨rfl, hv⟩ := fieldText_eq_ok hv
  cases h
  exact ⟨by simp [Clause.toList_render, Criterion.clause], hc, hp, ho, hv⟩

theorem isPart_clauseText {criterion : Criterion} {text : List Char}
    (h : clauseText criterion = .ok text) :
    IsPart .verbatim text (.predicate criterion.clause) := by
  obtain ⟨he, hplain⟩ := clauseText_eq_ok h
  rw [he]
  exact hplain.isPart rfl

theorem line_sequenceText {criteria : List Criterion} {text : List Char}
    (h : sequenceText criteria = .ok text) (joiner : Joiner) :
    Line .verbatim joiner text
      ((joiner :: criteria.map fun criterion => askedJoiner criterion.joiner).zip
        (criteria.map fun criterion => .predicate criterion.clause)) := by
  induction criteria generalizing joiner text with
  | nil => cases h
  | cons criterion rest ih =>
    cases rest with
    | nil => exact .one (isPart_clauseText h)
    | cons next rest =>
      obtain ⟨asked, hj, h⟩ := bind_eq_ok_iff.mp h
      obtain ⟨clause, hc, h⟩ := bind_eq_ok_iff.mp h
      obtain ⟨later, hl, h⟩ := bind_eq_ok_iff.mp h
      cases h
      obtain ⟨rfl, hne⟩ := joinerOf_eq_ok hj
      have hline : Line .verbatim joiner _ _ :=
        .more (isPart_clauseText hc) (Joiner.marks_word hne) (ih hl _)
      simpa using hline

theorem compile_sequenceText {criteria : List Criterion} {text : List Char}
    (h : sequenceText criteria = .ok text) :
    compile .verbatim text = .ok ⟨sequenceEntries criteria⟩ := by
  rw [(line_sequenceText h .blank).compile_eq_ok]
  rcases criteria with _ | ⟨criterion, _ | ⟨next, rest⟩⟩
  · cases h
  · rfl
  · rfl

theorem compile_line_groups {first : Group} {rest : List Group} {text : List Char}
    (h : Line .verbatim .blank text ((.blank, .group first.entries) :: laterEntries rest)) :
    compile .verbatim text = .ok ⟨groupEntries (first :: rest)⟩ := by
  rw [h.compile_eq_ok]
  cases rest with
  | nil => simp [laterEntries, groupEntries, Plan.ofEntries, Plan.ofNode]
  | cons second rest => simp [laterEntries, groupEntries, Plan.ofEntries]

mutual

theorem Group.isPart_text : ∀ {group : Group} {text : List Char}, group.text = .ok text →
    IsPart .verbatim text (.group group.entries)
  | .mk _ [] [], _, h => by cases h
  | .mk _ (_ :: _) (_ :: _), _, h => by cases h
  | .mk _ (criterion :: rest) [], _, h => by
    obtain ⟨text, ht, h⟩ := bind_eq_ok_iff.mp h
    cases h
    exact isPart_enclosed (compile_sequenceText ht)
  | .mk _ [] (first :: rest), _, h => by
    obtain ⟨_, -, h⟩ := bind_eq_ok_iff.mp h
    obtain ⟨text, ht, h⟩ := bind_eq_ok_iff.mp h
    obtain ⟨later, hl, h⟩ := bind_eq_ok_iff.mp h
    cases h
    have hline := line_markedTexts (first.isPart_text ht) .blank hl
    have henclosed := isPart_enclosed (compile_line_groups hline)
    rwa [Group.entries]

theorem line_markedTexts : ∀ {text : List Char} {node : Plan.Node Clause} {rest : List Group}
    {later : List Char}, IsPart .verbatim text node → ∀ joiner, markedTexts rest = .ok later →
      Line .verbatim joiner (text ++ later) ((joiner, node) :: laterEntries rest)
  | _, _, [], _, hpart, joiner, h => by
    cases h
    simpa [laterEntries] using Line.one hpart
  | _, _, group :: rest, _, hpart, joiner, h => by
    obtain ⟨asked, hj, h⟩ := bind_eq_ok_iff.mp h
    obtain ⟨next, ht, h⟩ := bind_eq_ok_iff.mp h
    obtain ⟨later, hl, h⟩ := bind_eq_ok_iff.mp h
    cases h
    obtain ⟨rfl, hne⟩ := joinerOf_eq_ok hj
    have hline : Line .verbatim joiner _ _ :=
      .more hpart (Joiner.marks_word hne) (line_markedTexts (group.isPart_text ht) _ hl)
    simpa [laterEntries] using hline

end

theorem compile_groupTexts {groups : List Group} {text : List Char}
    (h : groupTexts groups = .ok text) :
    compile .verbatim text = .ok ⟨groupEntries groups⟩ := by
  cases groups with
  | nil => cases h
  | cons first rest =>
    obtain ⟨_, -, h⟩ := bind_eq_ok_iff.mp h
    obtain ⟨text, ht, h⟩ := bind_eq_ok_iff.mp h
    obtain ⟨later, hl, h⟩ := bind_eq_ok_iff.mp h
    cases h
    exact compile_line_groups (line_markedTexts (first.isPart_text ht) .blank hl)

/-- Writing criteria keeps their structure. -/
theorem compile_filter {criteria : Criteria} {text : List Char} (h : criteria.filter = .ok text) :
    compile .verbatim text = .ok criteria.plan := by
  cases criteria with
  | sequence criteria => exact compile_sequenceText h
  | grouped groups => exact compile_groupTexts h

/-- Fields are trimmed, and the nested group stands alone in its list. -/
theorem compile_filter_nested : ∃ criteria : Criteria,
    criteria.filter = .ok "(A|b|IS_EQUAL|or|OR;C|d|CONTAINS|)|OR;((E|f|IS_EQUAL|AND))".toList ∧
      compile .verbatim "(A|b|IS_EQUAL|or|OR;C|d|CONTAINS|)|OR;((E|f|IS_EQUAL|AND))".toList =
        .ok criteria.plan :=
  ⟨.grouped [.mk none [⟨" A", "b ", none, "or", some " or"⟩, ⟨"C", "d", "CONTAINS", " ", none⟩] [],
    .mk (some "Or") [] [.mk none [⟨"E", "f", none, "AND", none⟩] []]], rfl, compile_filter rfl⟩

end Criteria

end ModelQuery
