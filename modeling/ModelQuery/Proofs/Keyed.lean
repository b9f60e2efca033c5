import ModelQuery.Keyed
import Mathlib.Data.String.Basic

/-! Tables in the order of their keys. Whatever is put in or taken out, they stay in order, and so a
key stands in a table once at most. -/

namespace ModelQuery.Keyed

variable {α : Type} {table : Keyed α}

/-- Every key comes before all keys behind it. -/
def Ordered (table : Keyed α) : Prop :=
  List.Pairwise (fun a b : String × α => a.1 < b.1) table

theorem ordered_nil : Ordered ([] : Keyed α) := List.Pairwise.nil

theorem Ordered.filter (h : Ordered table) (p : String × α → Bool) : Ordered (table.filter p) :=
  List.Pairwise.filter p h

theorem Ordered.erase (h : Ordered table) (key : String) : Ordered (erase key table) :=
  h.filter _

theorem mem_of_mem_insert {key : String} {value : α} {entry : String × α}
    (h : entry ∈ insert key value table) : entry = (key, value) ∨ entry ∈ table := by
  induction table with
  | nil => simpa [insert] using h
  | cons first rest ih =>
    obtain ⟨k, v⟩ := first
    simp only [insert] at h
    split at h
    · exact (List.mem_cons.mp h).imp_right (List.mem_cons_of_mem _)
    · split at h
      · exact List.mem_cons.mp h
      · rcases List.mem_cons.mp h with rfl | h
        · exact Or.inr (List.mem_cons_self ..)
        · exact (ih h).imp_right (List.mem_cons_of_mem _)

theorem Ordered.insert (h : Ordered table) (key : String) (value : α) :
    Ordered (insert key value table) := by
  induction table with
  | nil => exact List.pairwise_singleton _ _
  | cons first rest ih =>
    obtain ⟨k, v⟩ := first
    obtain ⟨hfirst, hrest⟩ := List.pairwise_cons.mp h
    simp only [Keyed.insert]
    split
    · next he =>
      subst he
      exact List.pairwise_cons.mpr ⟨hfirst, hrest⟩
    · next hne =>
      split
      · next hlt =>
        refine List.pairwise_cons.mpr ⟨List.forall_mem_cons.mpr ⟨hlt, fun entry hm => ?_⟩, h⟩
        exact lt_trans hlt (hfirst entry hm)
      · next hlt =>
        have hgt : k < key := lt_of_le_of_ne (not_lt.mp hlt) (Ne.symm hne)
        refine List.pairwise_cons.mpr ⟨fun entry hm => ?_, ih hrest⟩
        rcases mem_of_mem_insert hm with rfl | hm
        · exact hgt
        · exact hfirst entry hm

theorem ordered_ofEntries (entries : List (String × α)) : Ordered (ofEntries entries) := by
  suffices ∀ table : Keyed α, Ordered table →
      Ordered (entries.foldl (fun table entry => Keyed.insert entry.1 entry.2 table) table) from
    this [] ordered_nil
  induction entries with
  | nil => exact fun _ h => h
  | cons entry entries ih => exact fun table h => ih _ (h.insert entry.1 entry.2)

theorem mem_of_mem_ofEntries {entries : List (String × α)} {entry : String × α}
    (h : entry ∈ ofEntries entries) : entry ∈ entries := by
  suffices ∀ table : Keyed α,
      entry ∈ entries.foldl (fun table entry => Keyed.insert entry.1 entry.2 table) table →
      entry ∈ table ∨ entry ∈ entries from
    (this [] h).resolve_left (List.not_mem_nil)
  clear h
  induction entries with
  | nil => exact fun table h => Or.inl h
  | cons first entries ih =>
    intro table h
    rcases ih _ h with h | h
    · rcases mem_of_mem_insert h with rfl | h
      · exact Or.inr (List.mem_cons_self ..)
      · exact Or.inl h
    · exact Or.inr (List.mem_cons_of_mem _ h)

theorem insert_eq_append {key : String} {value : α} (h : ∀ entry ∈ table, entry.1 < key) :
    Keyed.insert key value table = table ++ [(key, value)] := by
  induction table with
  | nil => rfl
  | cons first rest ih =>
    obtain ⟨hfirst, hrest⟩ := List.forall_mem_cons.mp h
    rw [Keyed.insert, if_neg (ne_of_gt hfirst), if_neg (not_lt_of_gt hfirst), ih hrest,
      List.cons_append]

/-- Entries that are in order already make up a table as they are. -/
theorem Ordered.ofEntries_eq (h : Ordered table) : ofEntries table = table := by
  suffices ∀ front : Keyed α, Ordered (front ++ table) →
      table.foldl (fun table entry => Keyed.insert entry.1 entry.2 table) front = front ++ table from
    this [] h
  clear h
  induction table with
  | nil => intro front _; simp
  | cons entry table ih =>
    intro front h
    have hlast : ∀ other ∈ front, other.1 < entry.1 := fun other ho =>
      (List.pairwise_append.mp h).2.2 other ho entry (List.mem_cons_self ..)
    rw [List.foldl_cons, insert_eq_append hlast, ih _ (by simpa using h)]
    simp

theorem get?_eq_none_of_forall_ne {key : String} (h : ∀ entry ∈ table, entry.1 ≠ key) :
    get? key table = none := by
  induction table with
  | nil => rfl
  | cons first rest ih =>
    obtain ⟨hfirst, hrest⟩ := List.forall_mem_cons.mp h
    rw [get?, if_neg hfirst, ih hrest]

/-- A value is found after some were taken out if it was there and was not taken out. Were a key
there twice, the second value could come to light. -/
theorem Ordered.get?_filter (h : Ordered table) (p : String × α → Bool) (key : String) :
    get? key (table.filter p) = (get? key table).filter fun value => p (key, value) := by
  induction table with
  | nil => rfl
  | cons first rest ih =>
    obtain ⟨k, v⟩ := first
    obtain ⟨hfirst, hrest⟩ := List.pairwise_cons.mp h
    by_cases hk : k = key
    · subst hk
      have hgone : get? k (rest.filter p) = none :=
        get?_eq_none_of_forall_ne fun entry hm => ne_of_gt (hfirst entry (List.mem_of_mem_filter hm))
      by_cases hp : p (k, v) = true
      · simp [get?, hp, Option.filter_some]
      · simp [get?, hp, hgone, Option.filter_some]
    · by_cases hp : p (k, v) = true <;> simp [get?, hp, hk, ih hrest]

end ModelQuery.Keyed
