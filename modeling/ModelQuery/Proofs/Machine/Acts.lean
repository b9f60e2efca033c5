import ModelQuery.Command.Basic
import ModelQuery.Machine.Basic
import ModelQuery.Proofs.Outcome

/-! Acts on a machine. An act of several steps ends with the first step that fails, or with the
last one, and what a failed act has done so far stays done. -/

namespace ModelQuery

namespace Machine

/-- The machine that has told the time once more. -/
def tick (machine : Machine) : Machine :=
  { machine with ticks := machine.ticks + 1 }

/-- The machine that has given out one more token. -/
def draw (machine : Machine) : Machine :=
  { machine with drawn := machine.drawn + 1 }

/-- A machine on which something ran. Time went on, and files may have changed. -/
structure Later (machine after : Machine) : Prop where
  same : after =
    { machine with files := after.files, ticks := after.ticks, drawn := after.drawn }
  ticks : machine.ticks ≤ after.ticks
  drawn : machine.drawn ≤ after.drawn

variable {machine after last : Machine}

theorem Later.refl (machine : Machine) : machine.Later machine :=
  ⟨rfl, Nat.le_refl _, Nat.le_refl _⟩

theorem Later.trans (h : machine.Later after) (h' : after.Later last) : machine.Later last := by
  refine ⟨?_, Nat.le_trans h.ticks h'.ticks, Nat.le_trans h.drawn h'.drawn⟩
  have hlast := h'.same
  rw [h.same] at hlast
  exact hlast

theorem Later.environment (h : machine.Later after) : after.environment = machine.environment := by
  rw [h.same]

theorem Later.folder (h : machine.Later after) : after.folder = machine.folder := by
  rw [h.same]

theorem Later.clock (h : machine.Later after) : after.clock = machine.clock := by
  rw [h.same]

theorem Later.tokens (h : machine.Later after) : after.tokens = machine.tokens := by
  rw [h.same]

theorem later_tick (machine : Machine) : machine.Later machine.tick :=
  ⟨rfl, Nat.le_succ _, Nat.le_refl _⟩

theorem later_draw (machine : Machine) : machine.Later machine.draw :=
  ⟨rfl, Nat.le_refl _, Nat.le_succ _⟩

theorem later_files (machine : Machine) (files : Files) :
    machine.Later { machine with files } :=
  ⟨rfl, Nat.le_refl _, Nat.le_refl _⟩

theorem run_bind {α β : Type} (act : StateM Machine α) (next : α → StateM Machine β) :
    (act >>= next).run machine = (next (act.run machine).1).run (act.run machine).2 := rfl

theorem run_environment? (name : String) :
    (Host.environment? name : StateM Machine (Option String)).run machine =
      (machine.environment.lookup name, machine) := rfl

end Machine

/-- What a command does, on a machine. -/
abbrev Act (α : Type) := ExceptT Failure (StateM Machine) α

namespace Act

variable {α β : Type}

/-- On one machine an act ends with a result or a failure, and leaves the other machine. -/
def Ends (act : Act α) (machine : Machine) (result : Except Failure α) (after : Machine) : Prop :=
  act.run.run machine = (result, after)

variable {machine after : Machine}

theorem ends_iff {act : Act α} {result : Except Failure α} : act.Ends machine result after ↔
    result = (act.run.run machine).1 ∧ after = (act.run.run machine).2 := by
  rw [Ends, Prod.ext_iff, eq_comm, @eq_comm _ after]

theorem ends_unique {act : Act α} {result other : Except Failure α} {after' : Machine}
    (h : act.Ends machine result after) (h' : act.Ends machine other after') :
    result = other ∧ after = after' :=
  Prod.ext_iff.mp (h.symm.trans h')

theorem ends_pure_iff {a : α} {result : Except Failure α} :
    Ends (pure a) machine result after ↔ result = .ok a ∧ after = machine :=
  ends_iff

theorem ends_throw_iff {failure : Failure} {result : Except Failure α} :
    Ends (throw failure) machine result after ↔ result = .error failure ∧ after = machine :=
  ends_iff

theorem ends_lift_iff {act : StateM Machine α} {result : Except Failure α} :
    Ends (ExceptT.lift act) machine result after ↔
      result = .ok (act.run machine).1 ∧ after = (act.run machine).2 :=
  ends_iff

theorem ends_mk_pure_iff {outcome result : Except Failure α} :
    Ends (ExceptT.mk (pure outcome)) machine result after ↔ result = outcome ∧ after = machine :=
  ends_iff

theorem ends_orFail_iff {ε : Type} {blame : ε → Failure} {outcome : Except ε α}
    {result : Except Failure α} : Ends (Command.orFail blame outcome) machine result after ↔
      result = outcome.mapError blame ∧ after = machine :=
  ends_iff

theorem eq_ok_of_ends_orFail {ε : Type} {blame : ε → Failure} {outcome : Except ε α} {a : α}
    (h : Ends (Command.orFail blame outcome) machine (.ok a) after) : outcome = .ok a :=
  mapError_eq_ok_iff.mp (ends_orFail_iff.mp h).1.symm

theorem ends_attempt_iff {blame : FileFault → Failure} {act : StateM Machine (Except FileFault α)}
    {result : Except Failure α} : Ends (Command.attempt blame act) machine result after ↔
      result = (act.run machine).1.mapError blame ∧ after = (act.run machine).2 := by
  have hrun : (Command.attempt blame act).run.run machine =
      ((act.run machine).1.mapError blame, (act.run machine).2) := by
    rw [Command.attempt, ExceptT.run_mk, Machine.run_bind]
    rcases act.run machine with ⟨fault | a, between⟩ <;> rfl
  rw [ends_iff, hrun]

theorem ends_attempt_ok_iff {blame : FileFault → Failure}
    {act : StateM Machine (Except FileFault α)} {a : α} :
    Ends (Command.attempt blame act) machine (.ok a) after ↔
      (act.run machine).1 = .ok a ∧ after = (act.run machine).2 := by
  rw [ends_attempt_iff, eq_comm, mapError_eq_ok_iff]

theorem ends_bind_iff {act : Act α} {next : α → Act β} {result : Except Failure β} :
    Ends (act >>= next) machine result after ↔
      (∃ failure, result = .error failure ∧ act.Ends machine (.error failure) after) ∨
        ∃ a between, act.Ends machine (.ok a) between ∧ (next a).Ends between result after := by
  have hrun : (act >>= next).run.run machine = match act.run.run machine with
      | (.ok a, between) => (next a).run.run between
      | (.error failure, between) => (.error failure, between) := by
    rw [ExceptT.run_bind, StateT.run_bind]
    rcases act.run.run machine with ⟨failure | a, between⟩ <;> rfl
  simp only [ends_iff, hrun]
  rcases act.run.run machine with ⟨failure | a, between⟩
  · constructor
    · rintro ⟨hr, ha⟩
      exact Or.inl ⟨failure, hr, rfl, ha⟩
    · rintro (⟨_, hr, he, ha⟩ | ⟨_, _, ⟨he, -⟩, -⟩)
      · obtain rfl := Except.error.inj he
        exact ⟨hr, ha⟩
      · cases he
  · constructor
    · exact fun h => Or.inr ⟨a, between, ⟨rfl, rfl⟩, h⟩
    · rintro (⟨_, -, he, -⟩ | ⟨_, _, ⟨he, rfl⟩, h⟩)
      · cases he
      · obtain rfl := Except.ok.inj he
        exact h

theorem Ends.bind {act : Act α} {next : α → Act β} {a : α} {between : Machine}
    {result : Except Failure β} (h : act.Ends machine (.ok a) between)
    (hnext : (next a).Ends between result after) : Ends (act >>= next) machine result after :=
  ends_bind_iff.mpr (Or.inr ⟨a, between, h, hnext⟩)

theorem ends_lift_bind_iff {act : StateM Machine α} {next : α → Act β}
    {result : Except Failure β} : Ends (ExceptT.lift act >>= next) machine result after ↔
      Ends (next (act.run machine).1) (act.run machine).2 result after := by
  rw [ends_bind_iff]
  constructor
  · rintro (⟨_, -, he⟩ | ⟨a, between, hact, h⟩)
    · cases (ends_lift_iff.mp he).1
    · obtain ⟨ha, rfl⟩ := ends_lift_iff.mp hact
      obtain rfl := Except.ok.inj ha
      exact h
  · exact fun h => Or.inr ⟨_, _, ends_lift_iff.mpr ⟨rfl, rfl⟩, h⟩

/-- Whoever asks for the time hears when that is, and the next one hears something else. -/
theorem ends_now_bind_iff {next : Instant → Act β} {result : Except Failure β} :
    Ends (ExceptT.lift Host.now >>= next) machine result after ↔
      Ends (next (machine.clock machine.ticks)) machine.tick result after :=
  ends_lift_bind_iff

theorem ends_freshToken_bind_iff {next : String → Act β} {result : Except Failure β} :
    Ends (ExceptT.lift Host.freshToken >>= next) machine result after ↔
      Ends (next (machine.tokens machine.drawn)) machine.draw result after :=
  ends_lift_bind_iff

/-! ### Acts that do nothing -/

/-- An act that leaves the machine as it is. -/
def Quiet (act : Act α) : Prop :=
  ∀ machine, (act.run.run machine).2 = machine

theorem Quiet.eq {act : Act α} {result : Except Failure α} (h : act.Quiet)
    (he : act.Ends machine result after) : after = machine :=
  (ends_iff.mp he).2.trans (h machine)

theorem quiet_pure (a : α) : Quiet (pure a) :=
  fun _ => rfl

theorem quiet_throw (failure : Failure) : Quiet (throw failure : Act α) :=
  fun _ => rfl

theorem quiet_orFail {ε : Type} (blame : ε → Failure) (outcome : Except ε α) :
    Quiet (Command.orFail blame outcome) :=
  fun _ => rfl

theorem quiet_lift {act : StateM Machine α} (h : ∀ machine, (act.run machine).2 = machine) :
    Quiet (ExceptT.lift act) :=
  h

theorem quiet_attempt {act : StateM Machine (Except FileFault α)} (blame : FileFault → Failure)
    (h : ∀ machine, (act.run machine).2 = machine) : Quiet (Command.attempt blame act) :=
  fun machine => (ends_attempt_iff.mp rfl).2.trans (h machine)

theorem quiet_bind {act : Act α} {next : α → Act β} (h : act.Quiet) (hn : ∀ a, (next a).Quiet) :
    Quiet (act >>= next) := by
  intro machine
  rcases ends_bind_iff.mp (rfl : Ends (act >>= next) machine _ _) with
    ⟨failure, -, hact⟩ | ⟨a, between, hact, hnext⟩
  · exact h.eq hact
  · exact ((hn a).eq hnext).trans (h.eq hact)

/-- A step that does nothing and succeeds leads on from the same machine. -/
theorem Quiet.ends_bind {act : Act α} {next : α → Act β} {result : Except Failure β}
    (h : act.Quiet) (he : Ends (act >>= next) machine result after) :
    (∃ failure, result = .error failure ∧ after = machine) ∨
      ∃ a, act.Ends machine (.ok a) machine ∧ (next a).Ends machine result after := by
  rcases ends_bind_iff.mp he with ⟨failure, hr, hact⟩ | ⟨a, between, hact, hnext⟩
  · exact Or.inl ⟨failure, hr, h.eq hact⟩
  · obtain rfl := h.eq hact
    exact Or.inr ⟨a, hact, hnext⟩

/-! ### Acts that never fail in a certain way -/

/-- An act that does not fail in a certain way, whatever the machine is. -/
def Avoids (act : Act α) (failure : Failure) : Prop :=
  ∀ machine after, ¬ act.Ends machine (.error failure) after

section Avoiding

variable {failure : Failure}

theorem avoids_mk_pure {outcome : Except Failure α} (h : outcome ≠ .error failure) :
    Avoids (ExceptT.mk (pure outcome)) failure :=
  fun _ _ he => h (ends_mk_pure_iff.mp he).1.symm

theorem avoids_pure (a : α) : Avoids (pure a) failure :=
  avoids_mk_pure nofun

theorem avoids_throw {other : Failure} (h : other ≠ failure) :
    Avoids (throw other : Act α) failure :=
  fun _ _ he => h (Except.error.inj (ends_throw_iff.mp he).1).symm

theorem avoids_lift (act : StateM Machine α) : Avoids (ExceptT.lift act) failure :=
  fun _ _ he => nomatch (ends_lift_iff.mp he).1

theorem avoids_orFail {ε : Type} {blame : ε → Failure} {outcome : Except ε α}
    (h : ∀ e, outcome = .error e → blame e ≠ failure) :
    Avoids (Command.orFail blame outcome) failure := by
  refine avoids_mk_pure fun he => ?_
  cases outcome with
  | error e => exact h e rfl (Except.error.inj he)
  | ok a => cases he

theorem avoids_attempt {act : StateM Machine (Except FileFault α)} {blame : FileFault → Failure}
    (h : ∀ fault, blame fault ≠ failure) : Avoids (Command.attempt blame act) failure := by
  intro machine after he
  have he := (ends_attempt_iff.mp he).1
  cases hrun : (act.run machine).1 with
  | error fault =>
    rw [hrun] at he
    exact h fault (Except.error.inj he).symm
  | ok a =>
    rw [hrun] at he
    cases he

theorem avoids_bind {act : Act α} {next : α → Act β} (h : act.Avoids failure)
    (hn : ∀ a, (next a).Avoids failure) : Avoids (act >>= next) failure := by
  intro machine after he
  rcases ends_bind_iff.mp he with ⟨other, hother, hact⟩ | ⟨a, between, -, hnext⟩
  · obtain rfl := Except.error.inj hother
    exact h machine after hact
  · exact hn a between after hnext

end Avoiding

/-! ### Acts that come to the same at any time -/

/-- An act that comes to the same whatever ran in between. -/
def Settled (act : Act α) : Prop :=
  ∀ {machine after}, machine.Later after → (act.run.run after).1 = (act.run.run machine).1

theorem settled_pure (a : α) : Settled (pure a) :=
  fun _ => rfl

theorem settled_throw (failure : Failure) : Settled (throw failure : Act α) :=
  fun _ => rfl

theorem settled_lift {act : StateM Machine α}
    (h : ∀ {machine after : Machine}, machine.Later after → (act.run after).1 = (act.run machine).1) :
    Settled (ExceptT.lift act) :=
  fun hlater => congrArg Except.ok (h hlater)

theorem settled_bind {act : Act α} {next : α → Act β} (hquiet : act.Quiet) (h : act.Settled)
    (hn : ∀ a, (next a).Settled) : Settled (act >>= next) := by
  intro machine after hlater
  have hrun : ∀ machine, ((act >>= next).run.run machine).1 =
      (act.run.run machine).1.bind fun a => ((next a).run.run machine).1 := by
    intro machine
    have hact : act.Ends machine (act.run.run machine).1 machine :=
      ends_iff.mpr ⟨rfl, (hquiet machine).symm⟩
    cases hresult : (act.run.run machine).1 with
    | error failure =>
      rw [hresult] at hact
      exact (ends_iff.mp (ends_bind_iff.mpr (Or.inl ⟨failure, rfl, hact⟩))).1.symm
    | ok a =>
      rw [hresult] at hact
      have hnext : Ends (next a) machine ((next a).run.run machine).1 _ := rfl
      exact (ends_iff.mp (ends_bind_iff.mpr (Or.inr ⟨a, machine, hact, hnext⟩))).1.symm
  rw [hrun, hrun, h hlater]
  congr 1
  exact funext fun a => hn a hlater

theorem ends_later_iff {act : Act α} {result : Except Failure α} (h : act.Settled)
    (hquiet : act.Quiet) (hlater : machine.Later after) :
    act.Ends after result after ↔ act.Ends machine result machine := by
  rw [ends_iff, ends_iff, h hlater, hquiet machine, hquiet after]
  simp

end Act

end ModelQuery
