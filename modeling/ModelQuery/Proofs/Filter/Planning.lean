import ModelQuery.Filter.Plan
import ModelQuery.Proofs.Outcome

/-! Planning a tree, part by part. What each part is planned to is known of the whole, and only the
resolver may stand in the way. -/

namespace ModelQuery

variable {α β P : Type} {resolve : Resolver P}

/-- There is a result that is as it should be, unless the resolver refuses a clause. -/
def Resolved (good : α → Prop) (outcome : Except Fault α) : Prop :=
  (∃ result, outcome = .ok result ∧ good result) ∨
    ∃ clause cause, outcome = .error (.unresolved clause cause)

theorem Resolved.ok {good : α → Prop} {result : α} (h : good result) :
    Resolved good (.ok result) :=
  Or.inl ⟨result, rfl, h⟩

theorem Resolved.bind {good : α → Prop} {good' : β → Prop} {outcome : Except Fault α}
    {next : α → Except Fault β} (h : Resolved good outcome)
    (hn : ∀ result, good result → Resolved good' (next result)) :
    Resolved good' (outcome >>= next) := by
  rcases h with ⟨result, rfl, hr⟩ | ⟨clause, cause, rfl⟩
  · exact hn result hr
  · exact Or.inr ⟨clause, cause, rfl⟩

namespace Tree

theorem resolved_leaf {good : Plan.Node P → Prop} (h : ∀ p, good (.predicate p))
    (clause : Clause) : Resolved good ((leaf clause).toNode resolve) := by
  simp only [toNode]
  cases resolve clause with
  | error cause => exact Or.inr ⟨clause, cause, rfl⟩
  | ok p => exact .ok (h p)

theorem resolved_toEntries {good : Plan.Node P → Prop} {parts : List (Joiner × Tree)}
    (h : ∀ part ∈ parts, Resolved good (part.2.toNode resolve)) :
    Resolved (fun entries => entries.map Prod.fst = parts.map Prod.fst ∧
      ∀ entry ∈ entries, good entry.2) (toEntries resolve parts) := by
  induction parts with
  | nil => exact .ok ⟨rfl, by simp⟩
  | cons part parts ih =>
    obtain ⟨hpart, hparts⟩ := List.forall_mem_cons.mp h
    refine hpart.bind fun node hnode => (ih hparts).bind fun later hlater => ?_
    exact .ok ⟨by simp [hlater.1], by simpa [hnode] using hlater.2⟩

/-- A group is planned to a group of what its children are planned to. -/
theorem resolved_group {good good' : Plan.Node P → Prop} {first : Tree}
    {rest : List (Joiner × Tree)}
    (hfirst : Resolved good (first.toNode resolve))
    (hrest : ∀ part ∈ rest, Resolved good (part.2.toNode resolve))
    (h : ∀ head tail, good head → tail.map Prod.fst = rest.map Prod.fst →
      (∀ entry ∈ tail, good entry.2) → good' (.group ((.blank, head) :: tail))) :
    Resolved good' ((group first rest).toNode resolve) :=
  hfirst.bind fun head hh => (resolved_toEntries hrest).bind fun tail ht =>
    .ok (h head tail hh ht.1 ht.2)

end Tree

end ModelQuery
