import ModelQuery.Proofs.Keyed
import ModelQuery.Selection.Basic

/-! How long a selection can be looked at. Its last moment is fixed when it is kept. From then on it
is there until somebody looks at it, or purges, at that moment or later, and nothing else that
happens to the selections matters to it. -/

namespace ModelQuery

namespace Instant

/-- The earlier of two moments. -/
def earlier (a b : Instant) : Instant :=
  if b.before a then b else a

theorem before_iff {a b : Instant} :
    a.before b = true ↔ a.seconds < b.seconds ∨ a.seconds = b.seconds ∧ a.nanos < b.nanos := by
  simp [before]

end Instant

namespace Selections

theorem toInt_clamp (seconds : Int64) :
    (clamp seconds).toInt = max 0 (min seconds.toInt maxLifetime.toInt) := by
  have hmax : maxLifetime.toInt = 315360000 := by decide
  have hzero : (0 : Int64).toInt = 0 := by decide
  unfold clamp
  simp only [Int64.lt_iff_toInt_lt, hzero, hmax]
  split
  · omega
  · split <;> omega

theorem filter_of_forall {α : Type} {p : α → Bool} (h : ∀ a, p a = true) (o : Option α) :
    o.filter p = o := by
  cases o with
  | none => rfl
  | some a => rw [Option.filter_some, if_pos (h a)]

/-- What can happen to selections. -/
inductive Event
  | create (token : String) (ids : List String) (now : Instant)
  | look (token : String) (now : Instant)
  | page (token : String) (offset : Nat) (limit : Option Nat) (now : Instant)
  | purge (now : Instant)
  | setLifetime (seconds : Int64)

namespace Event

def apply (selections : Selections) : Event → Selections
  | create token ids now => selections.create token ids now
  | look token now => (selections.ids? token now).1
  | page token offset limit now => (selections.page? token offset limit now).1
  | purge now => selections.purge now
  | setLifetime seconds => selections.setLifetime seconds

/-- The token under which ids are kept. -/
def created? : Event → Option String
  | create token _ _ => some token
  | _ => none

/-- The moment at which a selection is looked at. A purge looks at all of them. -/
def look? (token : String) : Event → Option Instant
  | look other now | page other _ _ now => if other = token then some now else none
  | purge now => some now
  | create .. | setLifetime _ => none

/-- Whether a selection with this last moment is left where it is. -/
def spares (token : String) (expires : Instant) (event : Event) : Bool :=
  (event.look? token).all (·.before expires)

end Event

def run (selections : Selections) (events : List Event) : Selections :=
  events.foldl Event.apply selections

variable {selections : Selections} {token : String}

theorem ordered_ids? (h : selections.stored.Ordered) (token : String) (now : Instant) :
    (selections.ids? token now).1.stored.Ordered := by
  unfold ids?
  split
  · exact h
  · split
    · exact h.erase token
    · exact h

theorem ordered_apply (h : selections.stored.Ordered) (event : Event) :
    (event.apply selections).stored.Ordered := by
  cases event with
  | create token ids now => exact h.insert token _
  | look token now => exact ordered_ids? h token now
  | page token offset limit now => exact ordered_ids? h token now
  | purge now => exact h.filter _
  | setLifetime seconds => exact h

/-- A look takes away only what it is at, and only if that is expired. -/
theorem get?_ids? (selections : Selections) (token other : String) (now : Instant) :
    (selections.ids? other now).1.stored.get? token = (selections.stored.get? token).filter
      fun selection => (Event.look other now).spares token selection.expires := by
  by_cases ho : other = token
  · subst ho
    cases hg : selections.stored.get? other with
    | none => simp [ids?, hg]
    | some selection =>
      cases hb : now.before selection.expires with
      | false =>
        simp [ids?, hg, Selection.isExpired, hb, Keyed.get?_erase, Event.spares, Event.look?,
          Option.filter_some]
      | true =>
        simp [ids?, hg, Selection.isExpired, hb, Event.spares, Event.look?, Option.filter_some]
  · have hspares : ∀ expires, (Event.look other now).spares token expires = true := by
      simp [Event.spares, Event.look?, ho]
    have hkept : (selections.ids? other now).1.stored.get? token = selections.stored.get? token := by
      unfold ids?
      split
      · rfl
      · split
        · rw [Keyed.get?_erase, if_neg (Ne.symm ho)]
        · rfl
    rw [hkept]
    exact (filter_of_forall (fun selection : Selection => hspares selection.expires) _).symm

theorem get?_apply (h : selections.stored.Ordered) {event : Event}
    (hc : event.created? ≠ some token) :
    (event.apply selections).stored.get? token =
      (selections.stored.get? token).filter fun selection => event.spares token selection.expires := by
  cases event with
  | create other ids now =>
    have hne : token ≠ other := fun he => hc (he ▸ rfl)
    rw [Event.apply, Selections.create, Keyed.get?_insert, if_neg hne]
    exact (filter_of_forall (fun _ => rfl) _).symm
  | look other now => exact get?_ids? selections token other now
  | page other offset limit now => exact get?_ids? selections token other now
  | purge now =>
    rw [Event.apply, Selections.purge, h.get?_filter]
    simp [Event.spares, Event.look?, Selection.isExpired]
  | setLifetime seconds => exact (filter_of_forall (fun _ => rfl) _).symm

theorem get?_run (h : selections.stored.Ordered) {events : List Event}
    (hc : ∀ event ∈ events, event.created? ≠ some token) :
    (run selections events).stored.get? token = (selections.stored.get? token).filter
      fun selection => events.all (Event.spares token selection.expires) := by
  induction events generalizing selections with
  | nil => exact (filter_of_forall (fun _ => rfl) _).symm
  | cons event events ih =>
    obtain ⟨hevent, hevents⟩ := List.forall_mem_cons.mp hc
    have hrun := ih (ordered_apply h event) hevents
    rw [get?_apply h hevent, Option.filter_filter] at hrun
    simpa [run, Bool.and_comm] using hrun

end Selections

end ModelQuery
