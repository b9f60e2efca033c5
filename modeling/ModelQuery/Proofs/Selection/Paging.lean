import ModelQuery.Proofs.Selection.Purging

/-! Reading a selection page by page. A page is a window of the ids, cut off at their end, and each
page tells where the next one starts. Who follows that until nothing is left has read every id once
and in order. -/

namespace ModelQuery

namespace Page

/-- A page of these ids. At each of its places stands the id that far behind the offset, as long as
the limit allows for it. -/
structure Shows (page : Page) (ids : List String) (offset : Nat) (limit : Option Nat) : Prop where
  total_eq : page.total = ids.length
  offset_eq : page.offset = offset
  getElem?_eq : ∀ i, page.ids[i]? = if limit.all (i < ·) then ids[offset + i]? else none

namespace Shows

variable {page : Page} {ids : List String} {offset : Nat} {limit : Option Nat}

theorem ids_eq (h : page.Shows ids offset limit) :
    page.ids = (ids.drop offset).take (limit.getD ids.length) := by
  refine List.ext_getElem? fun i => ?_
  rw [h.getElem?_eq, List.getElem?_take, List.getElem?_drop]
  cases limit with
  | some most => simp
  | none =>
    have hnone : ¬ i < ids.length → ids[offset + i]? = none := fun hi =>
      List.getElem?_eq_none (by omega)
    by_cases hi : i < ids.length
    · simp [hi]
    · simp [hi, hnone hi]

theorem length_eq (h : page.Shows ids offset limit) :
    page.ids.length = min (limit.getD ids.length) (ids.length - offset) := by
  rw [h.ids_eq, List.length_take, List.length_drop]

theorem next_eq (h : page.Shows ids offset limit) : page.next = offset + page.ids.length := by
  rw [Page.next, h.offset_eq]

/-- A page does not reach beyond the ids, even if it starts there. -/
theorem next_le (h : page.Shows ids offset limit) : page.next ≤ max offset ids.length := by
  have hlength := h.length_eq
  rw [h.next_eq]
  omega

/-- A page is empty if it starts behind the ids, or if none are wanted. -/
theorem ids_eq_nil_iff (h : page.Shows ids offset limit) :
    page.ids = [] ↔ ids.length ≤ offset ∨ limit = some 0 := by
  rw [← List.length_eq_zero_iff, h.length_eq]
  cases limit with
  | none =>
    rw [Option.getD_none]
    simp only [reduceCtorEq, or_false]
    omega
  | some most =>
    rw [Option.getD_some, Option.some_inj]
    omega

theorem ids_ne_nil (h : page.Shows ids offset limit) (hlimit : limit ≠ some 0)
    (hoffset : offset < ids.length) : page.ids ≠ [] := fun hnil =>
  (h.ids_eq_nil_iff.mp hnil).elim (Nat.not_le_of_lt hoffset) hlimit

theorem lt_next (h : page.Shows ids offset limit) (hlimit : limit ≠ some 0)
    (hoffset : offset < ids.length) : offset < page.next := by
  rw [h.next_eq]
  exact Nat.lt_add_of_pos_right (List.length_pos_of_ne_nil (h.ids_ne_nil hlimit hoffset))

theorem hasMore_iff (h : page.Shows ids offset limit) :
    page.hasMore = true ↔ page.next < ids.length := by
  rw [hasMore, decide_eq_true_eq, h.total_eq]

theorem hasMore_iff_drop_ne_nil (h : page.Shows ids offset limit) :
    page.hasMore = true ↔ ids.drop (offset + page.ids.length) ≠ [] := by
  rw [h.hasMore_iff, h.next_eq, ne_eq, List.drop_eq_nil_iff, not_le]

/-- Only a page that starts within the ids leaves some behind. -/
theorem lt_length (h : page.Shows ids offset limit) (hmore : page.hasMore = true) :
    offset < ids.length := by
  have hbehind := h.hasMore_iff.mp hmore
  rw [h.next_eq] at hbehind
  omega

/-- What a page shows and what is left behind it is all there is from the offset on. -/
theorem ids_append_drop (h : page.Shows ids offset limit) :
    page.ids ++ ids.drop page.next = ids.drop offset := by
  have hprefix : page.ids <+: ids.drop offset := by
    rw [h.ids_eq]
    exact List.take_prefix _ _
  have happend := List.prefix_iff_eq_append.mp hprefix
  rwa [List.drop_drop, ← h.next_eq] at happend

end Shows

end Page

namespace Selections

variable {selections : Selections} {token : String} {ids : List String} {now : Instant}
  {limit : Option Nat} {offset : Nat}

/-- Whoever asks for a page of a selection that is there gets it, and changes nothing. -/
theorem exists_page (h : (selections.ids? token now).2 = some ids) (offset : Nat)
    (limit : Option Nat) :
    ∃ page, selections.page? token offset limit now = (selections, some page) ∧
      page.token = token ∧ page.Shows ids offset limit := by
  have hfound : selections.ids? token now = (selections, some ids) :=
    Prod.ext (ids?_of_eq_some h) h
  refine ⟨_, by rw [page?, hfound]; rfl, rfl, rfl, rfl, fun i => ?_⟩
  cases limit with
  | none => simp
  | some most => simp [List.getElem?_take]

/-- A reader who goes on from page to page while there is more. Each look is at the next of these
moments, and there is no result if they are used up before. -/
def readOn (token : String) (limit : Option Nat) :
    List Instant → Selections → Nat → Option (List Page)
  | [], _, _ => none
  | now :: later, selections, offset =>
    match selections.page? token offset limit now with
    | (_, none) => none
    | (left, some page) =>
      if page.hasMore then (readOn token limit later left page.next).map (page :: ·)
      else some [page]

/-- Every page that is not the last one brings the reader on, so that one look for each id that is
left is enough. -/
theorem exists_readOn (hlimit : limit ≠ some 0) {moments : List Instant}
    (hlive : ∀ now ∈ moments, (selections.ids? token now).2 = some ids)
    (henough : max 1 (ids.length - offset) ≤ moments.length) :
    ∃ pages, readOn token limit moments selections offset = some pages ∧
      pages.flatMap Page.ids = ids.drop offset := by
  induction moments generalizing offset with
  | nil =>
    rw [List.length_nil] at henough
    omega
  | cons now later ih =>
    obtain ⟨hnow, hlater⟩ := List.forall_mem_cons.mp hlive
    obtain ⟨page, hpage, -, hshows⟩ := exists_page hnow offset limit
    rw [List.length_cons] at henough
    simp only [readOn, hpage]
    have happend := hshows.ids_append_drop
    cases hmore : page.hasMore with
    | false =>
      have hlast : ids.length ≤ page.next := by
        rwa [← Bool.not_eq_true, hshows.hasMore_iff, not_lt] at hmore
      rw [List.drop_of_length_le hlast, List.append_nil] at happend
      exact ⟨[page], rfl, by simpa using happend⟩
    | true =>
      have hleft := hshows.hasMore_iff.mp hmore
      have hnext := hshows.lt_next hlimit (hshows.lt_length hmore)
      have hrest : max 1 (ids.length - page.next) ≤ later.length := by omega
      obtain ⟨pages, hpages, hids⟩ := ih hlater hrest
      exact ⟨page :: pages, by rw [if_pos rfl, hpages, Option.map_some],
        by rw [List.flatMap_cons, hids, happend]⟩

/-- A selection that is there is tiled by its pages. Each is the window that was asked for and tells
whether ids are left behind it, with no number beyond 64 bits. Reading on from the start ends after
one look for each id at most, and has shown all of them in order. -/
theorem pages_tile (hsize : ids.length < 2 ^ 64) :
    (∀ now offset limit, offset < 2 ^ 64 → (selections.ids? token now).2 = some ids →
      ∃ page, selections.page? token offset limit now = (selections, some page) ∧
        page.token = token ∧ page.Shows ids offset limit ∧ page.next < 2 ^ 64 ∧
        (page.hasMore = true ↔ ids.drop (offset + page.ids.length) ≠ [])) ∧
    ∀ limit moments, limit ≠ some 0 → max 1 ids.length ≤ moments.length →
      (∀ now ∈ moments, (selections.ids? token now).2 = some ids) →
      ∃ pages, readOn token limit moments selections 0 = some pages ∧
        pages.flatMap Page.ids = ids := by
  refine ⟨fun now offset limit hoffset hlive => ?_, fun limit moments hlimit henough hlive => ?_⟩
  · obtain ⟨page, hpage, htoken, hshows⟩ := exists_page hlive offset limit
    have hnext := hshows.next_le
    exact ⟨page, hpage, htoken, hshows, by omega, hshows.hasMore_iff_drop_ne_nil⟩
  · exact exists_readOn hlimit hlive henough

theorem pages_tile_by_two :
    let selections : Selections := ⟨600, [("a", ⟨["1", "2", "3"], ⟨0, 0⟩, ⟨600, 0⟩⟩)]⟩
    ["1", "2", "3"].length < 2 ^ 64 ∧
      (∃ page, selections.page? "a" (2 ^ 64 - 1) (some 0) ⟨599, 0⟩ = (selections, some page) ∧
        page.next < 2 ^ 64 ∧ page.hasMore = false) ∧
      ∃ pages, readOn "a" (some 2) [⟨0, 0⟩, ⟨1, 0⟩, ⟨2, 0⟩] selections 0 = some pages ∧
        pages.flatMap Page.ids = ["1", "2", "3"] := by
  intro selections
  have hsize : ["1", "2", "3"].length < 2 ^ 64 := by decide
  have hlive : (selections.ids? "a" ⟨599, 0⟩).2 = some ["1", "2", "3"] := by decide
  obtain ⟨page, hpage, -, -, hnext, hmore⟩ :=
    (pages_tile hsize).1 ⟨599, 0⟩ (2 ^ 64 - 1) (some 0) (by decide) hlive
  have hlast : page.hasMore = false := by
    rw [← Bool.not_eq_true, hmore, not_not, List.drop_eq_nil_iff]
    exact Nat.le_add_right_of_le (by decide)
  exact ⟨hsize, ⟨page, hpage, hnext, hlast⟩,
    (pages_tile hsize).2 (some 2) [⟨0, 0⟩, ⟨1, 0⟩, ⟨2, 0⟩] (by decide) (by decide) (by decide)⟩

end Selections

end ModelQuery
