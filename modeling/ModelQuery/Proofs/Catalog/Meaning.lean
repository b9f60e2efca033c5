import ModelQuery.Proofs.Catalog.Composition
import ModelQuery.Proofs.Filter.WellFormed
import Mathlib.Data.List.Nodup

/-! The meaning of a tree, told without a plan: a clause holds if its predicate does, and a group is
read from left to right. A plan accepts the objects for which its tree holds, and these are what a
filter selects. -/

namespace ModelQuery

variable {P : Type}

/-- Whether the predicate of a clause holds. A clause without a predicate does not. -/
def Resolver.meets (resolve : Resolver P) (test : P → Bool) (clause : Clause) : Bool :=
  match resolve clause with
  | .ok p => test p
  | .error _ => false

namespace Tree

mutual

/-- Whether a tree holds, given which clauses do. A group starts with its first child. -/
def means (test : Clause → Bool) : Tree → Bool
  | leaf clause => test clause
  | empty => false
  | group first rest => meansAfter test (first.means test) rest

/-- What the children of a group come to, given what those in front of them do. -/
def meansAfter (test : Clause → Bool) (found : Bool) : List (Joiner × Tree) → Bool
  | [] => found
  | (joiner, tree) :: rest => meansAfter test (joiner.join found (tree.means test)) rest

end

theorem meansAfter_eq_foldl (test : Clause → Bool) (found : Bool) (rest : List (Joiner × Tree)) :
    meansAfter test found rest =
      rest.foldl (fun found part => part.1.join found (part.2.means test)) found := by
  induction rest generalizing found with
  | nil => rfl
  | cons part rest ih => exact ih _

/-- A group of children holds as they do, joined from left to right by what stands between them. -/
theorem means_ofChildren {first : Tree} {others : List Tree} {joiners : List Joiner} {tree : Tree}
    (h : ofChildren (first :: others) joiners = .ok tree) (test : Clause → Bool) :
    tree.means test = (joiners.zip others).foldl
      (fun found part => part.1.join found (part.2.means test)) (first.means test) := by
  rw [ofChildren] at h
  split at h
  · cases h
    exact meansAfter_eq_foldl test _ _
  · cases h

variable {resolve : Resolver P}

mutual

theorem holds_of_toNode (test : P → Bool) {node : Plan.Node P} :
    ∀ {tree : Tree}, tree.toNode resolve = .ok node →
      node.holds test = tree.means (resolve.meets test)
  | leaf clause, h => by
    simp only [toNode] at h
    cases hc : resolve clause with
    | error cause => simp [hc] at h
    | ok p =>
      simp only [hc, Except.ok.injEq] at h
      subst h
      simp [Plan.Node.holds, means, Resolver.meets, hc]
  | empty, h => nomatch h
  | group first rest, h => by
    obtain ⟨head, hh, ht⟩ := bind_eq_ok_iff.mp h
    obtain ⟨tail, htl, he⟩ := bind_eq_ok_iff.mp ht
    obtain rfl := Except.ok.inj he
    rw [Plan.Node.holds, Plan.Node.holdsAll, holds_of_toNode test hh, joinAll_of_toEntries test htl,
      means]

/-- The joiner in front of a child is the one that its entry carries. -/
theorem joinAll_of_toEntries (test : P → Bool) {entries : List (Joiner × Plan.Node P)} :
    ∀ {parts : List (Joiner × Tree)}, toEntries resolve parts = .ok entries → ∀ {found : Bool},
      Plan.Node.joinAll test found entries = meansAfter (resolve.meets test) found parts
  | [], h, found => by
    obtain rfl := Except.ok.inj h
    rfl
  | (joiner, tree) :: rest, h, found => by
    obtain ⟨node, hn, hl⟩ := bind_eq_ok_iff.mp h
    obtain ⟨later, hlt, he⟩ := bind_eq_ok_iff.mp hl
    obtain rfl := Except.ok.inj he
    rw [Plan.Node.joinAll_cons, holds_of_toNode test hn, joinAll_of_toEntries test hlt, meansAfter]

end

/-- The one entry that the plan of a lone clause has changes nothing. -/
theorem holds_of_plan (test : P → Bool) {tree : Tree} {plan : Plan P}
    (h : tree.plan resolve = .ok plan) : plan.holds test = tree.means (resolve.meets test) := by
  obtain ⟨node, hn, he⟩ := bind_eq_ok_iff.mp h
  obtain rfl := Except.ok.inj he
  rw [Plan.holds_ofNode, holds_of_toNode test hn]

end Tree

theorem exists_tree_of_compileAlong {resolve : Resolver P} {filter : List Char} {route : Route}
    {plan : Plan P} (h : compileAlong resolve filter route = .ok plan) :
    ∃ tree, Tree.ofFilter filter = .ok tree ∧ tree.plan resolve = .ok plan := by
  cases route with
  | flat =>
    obtain ⟨tree, ht, hp⟩ := bind_eq_ok_iff.mp h
    exact ⟨tree, Tree.ofFilter_of_ofFlatFilter ht, hp⟩
  | full => exact bind_eq_ok_iff.mp h

namespace Model

theorem nodup_of_repeated?_eq_none {seen ids : List String} (h : repeated? seen ids = none) :
    ids.Nodup ∧ ∀ id ∈ ids, id ∉ seen := by
  induction ids generalizing seen with
  | nil => simp
  | cons id ids ih =>
    rw [repeated?] at h
    split at h
    · cases h
    · next hid =>
      obtain ⟨hnodup, hseen⟩ := ih h
      have hnew : id ∉ ids := fun hm => hseen id hm (List.mem_cons_self ..)
      refine ⟨List.nodup_cons.mpr ⟨hnew, hnodup⟩, List.forall_mem_cons.mpr ⟨hid, fun other ho => ?_⟩⟩
      exact fun hm => hseen other ho (List.mem_cons_of_mem _ hm)

theorem nodup_of_ofText {text : String} {model : Model} (h : ofText text = .ok model) :
    (model.objects.map Object.id).Nodup := by
  unfold ofText at h
  split at h
  · unfold check at h
    split at h
    · cases h
    · next hnone =>
      obtain rfl := Except.ok.inj h
      exact (nodup_of_repeated?_eq_none hnone).1
  · cases h

variable {model : Model}

theorem nodup_idsWhere (h : (model.objects.map Object.id).Nodup) (test : Object → Bool) :
    (model.idsWhere test).Nodup :=
  h.sublist (List.filter_sublist.map Object.id)

/-- An id tells which object it stands for, so that it is there only if that object passes. -/
theorem mem_idsWhere_iff (h : (model.objects.map Object.id).Nodup) (test : Object → Bool)
    {object : Object} (hm : object ∈ model.objects) :
    object.id ∈ model.idsWhere test ↔ test object = true := by
  simp only [idsWhere, List.mem_map, List.mem_filter]
  constructor
  · rintro ⟨other, ⟨ho, ht⟩, he⟩
    rwa [← List.inj_on_of_nodup_map h ho hm he]
  · intro ht
    exact ⟨object, ⟨hm, ht⟩, rfl⟩

end Model

namespace Catalog

/-- Whether a tree holds for an object, if its clauses mean what the catalog says. -/
def means (catalog : Catalog) (tree : Tree) (object : Object) : Bool :=
  tree.means (catalog.resolver.meets (·.holds object))

/-- The plan of any tree accepts the objects for which the tree holds, and a filter selects these
and no others, along whichever route it is compiled. -/
theorem selects_meaning (catalog : Catalog) :
    (∀ (tree : Tree) (plan : Plan Predicate), tree.plan catalog.resolver = .ok plan →
      ∀ object, plan.accepts object = catalog.means tree object) ∧
    ∀ (text : String) (model : Model) (filter : List Char) (route : Route) (plan : Plan Predicate),
      Model.ofText text = .ok model → compileAlong catalog.resolver filter route = .ok plan →
      ∃ tree, Tree.ofFilter filter = .ok tree ∧
        model.selectFilter catalog filter = .ok (model.idsWhere (catalog.means tree)) ∧
        model.select plan = model.idsWhere (catalog.means tree) ∧
        (model.idsWhere (catalog.means tree)).Nodup ∧
        ∀ object ∈ model.objects,
          object.id ∈ model.idsWhere (catalog.means tree) ↔ catalog.means tree object = true := by
  have haccepts : ∀ (tree : Tree) (plan : Plan Predicate), tree.plan catalog.resolver = .ok plan →
      plan.accepts = catalog.means tree :=
    fun tree plan h => funext fun object => Tree.holds_of_plan _ h
  refine ⟨fun tree plan h => congrFun (haccepts tree plan h), ?_⟩
  intro text model filter route plan hm hc
  obtain ⟨tree, ht, hp⟩ := exists_tree_of_compileAlong hc
  have hcompile : compile catalog.resolver filter = .ok plan := by
    rw [compile_eq_ok_iff, compileFull, ht]
    exact hp
  have hnodup := Model.nodup_of_ofText hm
  refine ⟨tree, ht, ?_, ?_, Model.nodup_idsWhere hnodup _, fun object =>
    Model.mem_idsWhere_iff hnodup _⟩
  · rw [model.selectFilter_of_compile hcompile, haccepts tree plan hp]
  · rw [Model.select, haccepts tree plan hp, Model.idsWhere]

/-- Read from left to right the last joiner narrows all that stands in front of it. In a tree that
no filter spells, a part without a joiner narrows too. -/
theorem selects_meaning_left_to_right : ∃ (catalog : Catalog) (text : String) (model : Model)
    (tree : Tree), Model.ofText text = .ok model ∧
      Tree.ofFilter "Part|NAME||a|OR;(Part|NAME||b|OR;Part|NAME||c)|AND;Part|NAME||c".toList =
        .ok tree ∧
      model.selectFilter catalog
        "Part|NAME||a|OR;(Part|NAME||b|OR;Part|NAME||c)|AND;Part|NAME||c".toList =
          .ok (model.idsWhere (catalog.means tree)) ∧
      model.idsWhere (catalog.means tree) = ["3"] ∧
      ∃ (stray : Tree) (plan : Plan Predicate), stray.joiners = [.blank] ∧
        stray.plan catalog.resolver = .ok plan ∧
        ∀ object, plan.accepts object = catalog.means stray object := by
  let catalog : Catalog := ⟨[⟨"Part", [], true, [⟨"NAME", .text, []⟩]⟩]⟩
  let filter := "Part|NAME||a|OR;(Part|NAME||b|OR;Part|NAME||c)|AND;Part|NAME||c".toList
  let text := "\x7b\"objects\":[\x7b\"id\":\"1\",\"category\":\"Part\"," ++
    "\"properties\":\x7b\"NAME\":\"A\"\x7d\x7d,\x7b\"id\":\"3\",\"category\":\"Part\"," ++
    "\"properties\":\x7b\"NAME\":\"C\"\x7d\x7d]\x7d"
  let stray : Tree := .group (.leaf ⟨"Part", "NAME", "", "a"⟩)
    [(.blank, .leaf ⟨"Part", "NAME", "", "b"⟩)]
  have hfound : (Model.ofText text >>= fun model =>
      (model.selectFilter catalog filter).mapError fun _ => .document) = .ok ["3"] := by
    decide +kernel
  have hplan : (stray.plan catalog.resolver).isOk = true := by decide +kernel
  have hcompile : (compileAlong catalog.resolver filter .full).isOk = true := by decide +kernel
  obtain ⟨plan, hp⟩ := exists_eq_ok_of_isOk hplan
  obtain ⟨compiled, hc⟩ := exists_eq_ok_of_isOk hcompile
  obtain ⟨model, hm, hids⟩ := bind_eq_ok_iff.mp hfound
  obtain ⟨tree, ht, hs, -⟩ := (selects_meaning catalog).2 text model filter .full compiled hm hc
  refine ⟨catalog, text, model, tree, hm, ht, hs, ?_, stray, plan, rfl, hp,
    (selects_meaning catalog).1 stray plan hp⟩
  rw [hs] at hids
  exact Except.ok.inj hids
end Catalog

end ModelQuery
