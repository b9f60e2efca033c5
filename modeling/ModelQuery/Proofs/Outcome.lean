/-! Outcomes of steps that may fail. A step after a success goes on with its result, and a step
after a failure is not taken. -/

namespace ModelQuery

variable {ε α β : Type}

@[simp] theorem ok_bind (a : α) (f : α → Except ε β) : (Except.ok a >>= f) = f a := rfl

@[simp] theorem error_bind (e : ε) (f : α → Except ε β) :
    ((Except.error e : Except ε α) >>= f) = .error e := rfl

@[simp] theorem pure_eq_ok (a : α) : (pure a : Except ε α) = .ok a := rfl

@[simp] theorem map_ok (f : α → β) (a : α) : f <$> (Except.ok a : Except ε α) = .ok (f a) := rfl

@[simp] theorem map_error (f : α → β) (e : ε) :
    f <$> (Except.error e : Except ε α) = .error e := rfl

/-- An outcome with a function for results and one for failures applied to it. -/
def bimap {ε' : Type} (g : ε → ε') (f : α → β) : Except ε α → Except ε' β
  | .ok a => .ok (f a)
  | .error e => .error (g e)

/-- If a next step agrees with another one, then so do the two steps behind a first. -/
theorem bind_bimap {ε' α' β' : Type} {g : ε → ε'} {f : α → α'} {f' : β → β'}
    {next : α → Except ε β} {next' : α' → Except ε' β'}
    (h : ∀ a, next' (f a) = bimap g f' (next a)) (x : Except ε α) :
    bimap g f x >>= next' = bimap g f' (x >>= next) := by
  cases x with
  | error e => rfl
  | ok a => exact h a

theorem exists_eq_ok_of_isOk {x : Except ε α} (h : x.isOk = true) : ∃ a, x = .ok a := by
  cases x with
  | error e => cases h
  | ok a => exact ⟨a, rfl⟩

theorem bind_eq_ok_iff {x : Except ε α} {f : α → Except ε β} {b : β} :
    x >>= f = .ok b ↔ ∃ a, x = .ok a ∧ f a = .ok b := by
  cases x <;> simp

/-- Two steps have a result if the first one has a result and the second has one from there. -/
theorem exists_bind_eq_ok_iff {x : Except ε α} {f : α → Except ε β} :
    (∃ b, x >>= f = .ok b) ↔ ∃ a, x = .ok a ∧ ∃ b, f a = .ok b := by
  cases x <;> simp

/-- Of two steps either the first one fails or the second one does. -/
theorem bind_eq_error_iff {x : Except ε α} {f : α → Except ε β} {e : ε} :
    x >>= f = .error e ↔ x = .error e ∨ ∃ a, x = .ok a ∧ f a = .error e := by
  cases x <;> simp

theorem map_eq_error_iff {x : Except ε α} {f : α → β} {e : ε} :
    f <$> x = .error e ↔ x = .error e := by
  cases x <;> simp

theorem mapError_eq_ok_iff {ε' : Type} {x : Except ε α} {blame : ε → ε'} {a : α} :
    x.mapError blame = .ok a ↔ x = .ok a := by
  cases x with
  | error e => exact iff_of_false nofun nofun
  | ok found => exact ⟨fun h => Except.ok.inj h ▸ rfl, fun h => Except.ok.inj h ▸ rfl⟩

theorem mapError_eq_error_iff {ε' : Type} {x : Except ε α} {blame : ε → ε'} {e' : ε'} :
    x.mapError blame = .error e' ↔ ∃ e, x = .error e ∧ blame e = e' := by
  cases x with
  | error e => exact ⟨fun h => ⟨e, rfl, Except.error.inj h⟩,
      fun ⟨_, he, hb⟩ => Except.error.inj he ▸ congrArg Except.error hb⟩
  | ok a => exact iff_of_false nofun nofun

theorem map_eq_ok_iff {x : Except ε α} {f : α → β} {b : β} :
    f <$> x = .ok b ↔ ∃ a, x = .ok a ∧ f a = b := by
  cases x <;> simp

end ModelQuery
