import ModelQuery.Catalog.Query
import ModelQuery.Proofs.Filter.Compiled

/-! Filters composed from filters. In parentheses, and with markers between them, filters select
what each of them selects, joined from left to right. -/

namespace ModelQuery

/-- Whether two parts hold that a joiner stands between, given whether each of them does. -/
def Joiner.join : Joiner → Bool → Bool → Bool
  | or, left, right => left || right
  | and, left, right => left && right
  | blank, left, right => left && right

theorem Plan.Node.joinAll_cons {P : Type} (test : P → Bool) (found : Bool) (joiner : Joiner)
    (node : Plan.Node P) (rest : List (Joiner × Plan.Node P)) :
    joinAll test found ((joiner, node) :: rest) =
      joinAll test (joiner.join found (node.holds test)) rest := by
  cases joiner <;> simp [joinAll, Joiner.join]

/-- Whether an object is one that a filter selects. -/
def Catalog.selects (catalog : Catalog) (filter : List Char) (object : Object) : Bool :=
  match compile catalog.resolver filter with
  | .ok plan => plan.accepts object
  | .error _ => false

theorem Catalog.selects_eq_accepts {catalog : Catalog} {filter : List Char} {plan : Plan Predicate}
    (h : compile catalog.resolver filter = .ok plan) : catalog.selects filter = plan.accepts := by
  funext object
  simp [selects, h]

namespace Model

variable {catalog : Catalog}

/-- The ids of the objects that a test picks, in the order of the model. -/
def idsWhere (model : Model) (test : Object → Bool) : List String :=
  (model.objects.filter test).map Object.id

theorem selectFilter_of_compile (model : Model) {filter : List Char} {plan : Plan Predicate}
    (h : compile catalog.resolver filter = .ok plan) :
    model.selectFilter catalog filter = .ok (model.idsWhere plan.accepts) := by
  simp [selectFilter, h, select, idsWhere]

theorem exists_compile_of_selectFilter {model : Model} {filter : List Char}
    (h : ∃ ids, model.selectFilter catalog filter = .ok ids) :
    ∃ plan, compile catalog.resolver filter = .ok plan := by
  obtain ⟨ids, h⟩ := h
  obtain ⟨plan, hp, -⟩ := bind_eq_ok_iff.mp h
  exact ⟨plan, hp⟩

end Model

/-- A filter that is joined to others in front of it, and the marker that says how. -/
structure Joined where
  joiner : Joiner
  mark : List Char
  marks : joiner.Marks mark
  filter : List Char

namespace Joined

def text (part : Joined) : List Char :=
  part.mark ++ ('(' :: (part.filter ++ [')']))

/-- Filters side by side, each in parentheses. -/
def compose (first : List Char) (rest : List Joined) : List Char :=
  '(' :: (first ++ [')']) ++ rest.flatMap text

/-- Whether an object is selected, given whether the filters in front select it. -/
def selectsAfter (catalog : Catalog) (object : Object) (found : Bool) (part : Joined) : Bool :=
  part.joiner.join found (catalog.selects part.filter object)

variable {catalog : Catalog}

/-- Behind any part the further filters are further parts of a line. -/
theorem exists_line {text : List Char} {node : Plan.Node Predicate} {rest : List Joined}
    (hpart : IsPart catalog.resolver text node)
    (hrest : ∀ part ∈ rest, ∃ plan, compile catalog.resolver part.filter = .ok plan)
    (joiner : Joiner) :
    ∃ entries, Line catalog.resolver joiner (text ++ rest.flatMap Joined.text)
        ((joiner, node) :: entries) ∧
      ∀ object found, Plan.Node.joinAll (·.holds object) found entries =
        rest.foldl (selectsAfter catalog object) found := by
  induction rest generalizing text node joiner with
  | nil =>
    refine ⟨[], ?_, fun _ _ => rfl⟩
    simpa using Line.one hpart
  | cons part rest ih =>
    obtain ⟨plan, hp⟩ := hrest part (by simp)
    obtain ⟨entries, hl, he⟩ := ih (isPart_enclosed hp)
      (fun other ho => hrest other (by simp [ho])) part.joiner
    refine ⟨(part.joiner, .group plan.entries) :: entries, ?_, fun object found => ?_⟩
    · have hline : Line catalog.resolver joiner _ _ := .more hpart part.marks hl
      simpa [Joined.text] using hline
    · have hsel : catalog.selects part.filter object = plan.holds (·.holds object) := by
        rw [Catalog.selects_eq_accepts hp, Plan.accepts]
      rw [Plan.Node.joinAll_cons, he, List.foldl_cons, selectsAfter, hsel]
      rfl

/-- What composed filters compile to accepts what the filters select, joined from left to right. -/
theorem exists_compile_compose {first : List Char} {rest : List Joined}
    (hfirst : ∃ plan, compile catalog.resolver first = .ok plan)
    (hrest : ∀ part ∈ rest, ∃ plan, compile catalog.resolver part.filter = .ok plan) :
    ∃ plan, compile catalog.resolver (compose first rest) = .ok plan ∧
      ∀ object, plan.accepts object =
        rest.foldl (selectsAfter catalog object) (catalog.selects first object) := by
  obtain ⟨plan, hp⟩ := hfirst
  obtain ⟨entries, hl, he⟩ := exists_line (isPart_enclosed hp) hrest .blank
  refine ⟨_, hl.compile_eq_ok, fun object => ?_⟩
  rw [Plan.accepts, Plan.holds_ofEntries, Plan.Node.holdsAll, he, Catalog.selects_eq_accepts hp]
  rfl

theorem selectFilter_compose (model : Model) {first : List Char} {rest : List Joined}
    (hfirst : ∃ ids, model.selectFilter catalog first = .ok ids)
    (hrest : ∀ part ∈ rest, ∃ ids, model.selectFilter catalog part.filter = .ok ids) :
    (∀ filter ∈ first :: rest.map Joined.filter, model.selectFilter catalog filter =
        .ok (model.idsWhere (catalog.selects filter))) ∧
      model.selectFilter catalog (compose first rest) = .ok (model.idsWhere fun object =>
        rest.foldl (fun found part => part.joiner.join found (catalog.selects part.filter object))
          (catalog.selects first object)) := by
  have hall : ∀ filter ∈ first :: rest.map Joined.filter,
      ∃ plan, compile catalog.resolver filter = .ok plan := by
    intro filter hm
    rcases List.mem_cons.mp hm with rfl | hm
    · exact Model.exists_compile_of_selectFilter hfirst
    · obtain ⟨part, hpart, rfl⟩ := List.mem_map.mp hm
      exact Model.exists_compile_of_selectFilter (hrest part hpart)
  constructor
  · intro filter hm
    obtain ⟨plan, hp⟩ := hall filter hm
    rw [model.selectFilter_of_compile hp, Catalog.selects_eq_accepts hp]
  · obtain ⟨plan, hp, ha⟩ := exists_compile_compose (hall first (by simp))
      fun part hpart => hall part.filter (List.mem_cons_of_mem _ (List.mem_map_of_mem hpart))
    rw [model.selectFilter_of_compile hp, funext ha]
    rfl

/-- The marker inside the first part joins there, and the one behind it joins all of that part. -/
theorem selectFilter_compose_any_case : ∃ (model : Model) (catalog : Catalog),
    model.selectFilter catalog "Part|NAME||a|OR;Part|NAME||b".toList = .ok ["1", "2"] ∧
      model.selectFilter catalog "Part|NAME||b".toList = .ok ["2"] ∧
      model.selectFilter catalog "(Part|NAME||a|OR;Part|NAME||b)|anD;(Part|NAME||b)".toList =
        .ok ["2"] := by
  let catalog : Catalog := ⟨[⟨"Part", [], true, [⟨"NAME", .text, []⟩]⟩]⟩
  let model : Model := ⟨none, [⟨"1", "Part", [("NAME", .text "A")]⟩,
    ⟨"2", "Part", [("NAME", .text "b")]⟩, ⟨"3", "Part", [("NAME", .text "c")]⟩]⟩
  let rest : List Joined := [⟨.and, "|anD;".toList, ⟨"anD".toList, by decide, by decide⟩,
    "Part|NAME||b".toList⟩]
  have hfirst : model.selectFilter catalog "Part|NAME||a|OR;Part|NAME||b".toList =
      .ok ["1", "2"] := by decide +kernel
  have hsecond : model.selectFilter catalog "Part|NAME||b".toList = .ok ["2"] := by
    decide +kernel
  have htext : compose "Part|NAME||a|OR;Part|NAME||b".toList rest =
      "(Part|NAME||a|OR;Part|NAME||b)|anD;(Part|NAME||b)".toList := by decide
  have hrest : ∀ part ∈ rest, ∃ ids, model.selectFilter catalog part.filter = .ok ids := by
    simpa [rest] using ⟨_, hsecond⟩
  have hboth := (selectFilter_compose model ⟨_, hfirst⟩ hrest).2
  rw [htext] at hboth
  exact ⟨model, catalog, hfirst, hsecond, hboth.trans (congrArg _ (by decide +kernel))⟩

end Joined

end ModelQuery
