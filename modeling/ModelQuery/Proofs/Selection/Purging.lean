import ModelQuery.Proofs.Selection.Lifetime

/-! What is left of selections in the end does not depend on who removed what was expired, and
when. -/

namespace ModelQuery

namespace Keyed

variable {α : Type} {table : Keyed α}

theorem Ordered.get?_of_mem (h : Ordered table) {entry : String × α} (hm : entry ∈ table) :
    get? entry.1 table = some entry.2 := by
  induction table with
  | nil => cases hm
  | cons first rest ih =>
    obtain ⟨hfirst, hrest⟩ := List.pairwise_cons.mp h
    rcases List.mem_cons.mp hm with rfl | hm
    · exact if_pos rfl
    · exact (if_neg (ne_of_lt (hfirst entry hm))).trans (ih hrest hm)

theorem erase_insert (key : String) (value : α) (table : Keyed α) :
    erase key (insert key value table) = erase key table := by
  induction table with
  | nil => simp [insert, erase]
  | cons first rest ih =>
    obtain ⟨k, v⟩ := first
    rw [insert]
    split
    · next he => simp [erase, he]
    · split
      · simp [erase]
      · simp only [erase, List.filter_cons] at ih ⊢
        rw [ih]

theorem erase_eq_self {key : String} (h : get? key table = none) : erase key table = table := by
  induction table with
  | nil => rfl
  | cons first rest ih =>
    obtain ⟨k, v⟩ := first
    rw [get?] at h
    split at h
    · cases h
    · next hne =>
      have hrest := ih h
      simp only [erase] at hrest ⊢
      rw [List.filter_cons_of_pos (by simpa using hne), hrest]

theorem erase_filter (key : String) (p : String × α → Bool) (table : Keyed α) :
    erase key (table.filter p) = (erase key table).filter p := by
  unfold erase
  rw [List.filter_filter, List.filter_filter]
  exact List.filter_congr fun entry _ => Bool.and_comm _ _

end Keyed

/-- What is expired stays so. -/
theorem Selection.isExpired_mono {selection : Selection} {t now : Instant}
    (h : selection.isExpired t = true) (ht : now.before t = false) :
    selection.isExpired now = true := by
  simp only [isExpired, Bool.not_eq_true', ← Bool.not_eq_true, Instant.before_iff] at h ht ⊢
  omega

namespace Selections

variable {selections : Selections} {t now : Instant}

theorem purge_purge (selections : Selections) (ht : now.before t = false) :
    (selections.purge t).purge now = selections.purge now := by
  unfold purge
  rw [List.filter_filter]
  congr 1
  refine List.filter_congr fun entry _ => ?_
  cases hexpired : entry.2.isExpired t with
  | false => simp
  | true => simp [Selection.isExpired_mono hexpired ht]

theorem purge_ids? (h : selections.stored.Ordered) (token : String) (ht : now.before t = false) :
    ((selections.ids? token t).1).purge now = selections.purge now := by
  unfold ids?
  split
  · rfl
  next selection hfound =>
  split
  · next hexpired =>
    unfold purge Keyed.erase
    rw [List.filter_filter]
    congr 1
    refine List.filter_congr fun entry hm => ?_
    by_cases htoken : entry.1 = token
    · -- a key stands once in a table, so this is what was looked at
      have hentry : entry.2 = selection :=
        Option.some.inj ((h.get?_of_mem hm).symm.trans (htoken ▸ hfound))
      simp [hentry, Selection.isExpired_mono hexpired ht]
    · simp [htoken]
  · rfl

/-- Who finds what he looks for changes nothing. -/
theorem ids?_of_eq_some {token : String} {ids : List String}
    (h : (selections.ids? token now).2 = some ids) : (selections.ids? token now).1 = selections := by
  unfold ids? at h ⊢
  split
  · rfl
  · split
    · next hfound hexpired => simp [hfound, hexpired] at h
    · rfl

/-- Without one that is put in after a purge, selections are what they were. -/
theorem erase_purge_of_insert {added : Selections} {token : String} {selection : Selection}
    (hfresh : selections.stored.get? token = none)
    (hadded : added.stored = (selections.purge t).stored.insert token selection)
    (ht : now.before t = false) :
    (added.purge now).stored.erase token = (selections.purge now).stored := by
  have hpurged : added.stored.erase token = (selections.purge t).stored := by
    rw [hadded, Keyed.erase_insert, purge, Keyed.erase_filter, Keyed.erase_eq_self hfresh]
  calc (added.purge now).stored.erase token
      = (added.stored.erase token).filter fun entry => !entry.2.isExpired now :=
        Keyed.erase_filter token _ _
    _ = ((selections.purge t).purge now).stored := by rw [hpurged, purge.eq_def _ now]
    _ = (selections.purge now).stored := by rw [purge_purge selections ht]

end Selections

end ModelQuery
