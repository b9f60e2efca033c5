import ModelQuery.Proofs.Number.Digits
import ModelQuery.Proofs.Selection.Paging
import ModelQuery.Report.Page
import Mathlib.Data.List.DropRight

/-! What a reader learns from the text of a page: which part of the selection he sees, and how he
gets on. The text goes by the ids on the page alone, and there are none also if no more than zero of
them are wanted. -/

namespace ModelQuery.Report

/-- A text up to its first line break. -/
def firstLine (text : String) : String :=
  String.ofList (text.toList.takeWhile (· ≠ '\n'))

/-- Says that a page is empty because the selection has ended before it. -/
def pastEnd (total offset : Nat) : String :=
  toString total ++ " objects (offset " ++ toString offset ++ " is past the end)"

/-- Says which places of the selection are on a page, counted from one. -/
def shown (total first last : Nat) : String :=
  toString total ++ " objects (showing " ++ toString first ++ "-" ++ toString last ++ ")"

/-- The last line of a text is the command that goes on at this offset. -/
def Leads (text token : String) (offset : Nat) : Prop :=
  ∃ before, text = before ++ "\n" ++
    ("Next page: bimq page " ++ token ++ " --offset " ++ toString offset ++ "\n")

variable {page : Page} {colors : Bool}

/-! ### The first line -/

theorem firstLine_append {line : String} (h : '\n' ∉ line.toList) (rest : String) :
    firstLine (line ++ "\n" ++ rest) = line := by
  have hline : ∀ c ∈ line.toList, decide (c ≠ '\n') = true := fun c hc =>
    decide_eq_true fun he => h (he ▸ hc)
  have hbreak : ("\n".toList ++ rest.toList).takeWhile (· ≠ '\n') = [] := rfl
  rw [firstLine, String.toList_append, String.toList_append, List.append_assoc,
    List.takeWhile_append_of_pos hline, hbreak, List.append_nil, String.ofList_toList]

theorem pageSummary_eq (page : Page) :
    pageSummary page = if page.ids = [] then pastEnd page.total page.offset
      else shown page.total (page.offset + 1) page.next := by
  simp only [pageSummary, List.isEmpty_iff]
  rfl

theorem newline_notMem_pageSummary (page : Page) : '\n' ∉ (pageSummary page).toList := by
  have hdigits : ∀ n, '\n' ∉ Nat.toDigits 10 n := Number.notMem_toDigits (by decide)
  rw [pageSummary]
  split <;> simp [hdigits]

theorem newline_notMem_styled {text : String} (h : '\n' ∉ text.toList) :
    '\n' ∉ (styled colors [.dimmed] text).toList := by
  cases colors with
  | false => exact h
  | true => simpa [styled, Style.apply, Style.sequence, Style.on, Style.off] using h

theorem styled_inj {first second : String} :
    styled colors [.dimmed] first = styled colors [.dimmed] second ↔ first = second := by
  cases colors with
  | false => rfl
  | true => exact (String.append_left_inj _).trans (String.append_right_inj _)

theorem firstLine_pageText (h : page.total ≠ 0) :
    firstLine (pageText colors page) = styled colors [.dimmed] (pageSummary page) := by
  obtain ⟨rest, hrest⟩ : ∃ rest,
      pageText colors page = styled colors [.dimmed] (pageSummary page) ++ "\n" ++ rest :=
    ⟨_, by rw [pageText, if_neg h]; simp only [String.append_assoc]; rfl⟩
  rw [hrest, firstLine_append (newline_notMem_styled (newline_notMem_pageSummary page))]

theorem shown_ne_pastEnd (total first last offset : Nat) :
    shown total first last ≠ pastEnd total offset := by
  intro h
  simp only [shown, pastEnd, String.append_assoc, String.append_right_inj] at h
  have hlists := congrArg String.toList h
  simp at hlists

theorem pageSummary_eq_pastEnd_iff :
    pageSummary page = pastEnd page.total page.offset ↔ page.ids = [] := by
  rw [pageSummary_eq]
  split
  · next hnil => exact ⟨fun _ => hnil, fun _ => rfl⟩
  · next hids => exact ⟨fun h => absurd h (shown_ne_pastEnd _ _ _ _), fun h => absurd h hids⟩

/-! ### The last line -/

/-- The digits at the end of a text are those of the number that is there. -/
theorem rtakeWhile_isDigit (cs : List Char) (n : Nat) :
    (cs ++ ' ' :: Nat.toDigits 10 n).rtakeWhile Char.isDigit = Nat.toDigits 10 n := by
  have hdigits : ∀ c ∈ (Nat.toDigits 10 n).reverse, c.isDigit = true := fun c hc =>
    Number.isDigit_of_mem_toDigits (List.mem_reverse.mp hc)
  have hblank : (' ' :: cs.reverse).takeWhile Char.isDigit = [] := rfl
  rw [List.rtakeWhile, List.reverse_append, List.reverse_cons, List.append_assoc,
    List.singleton_append, List.takeWhile_append_of_pos hdigits, hblank, List.append_nil,
    List.reverse_reverse]

/-- One cannot read the same two ways: a word and then the token, or the token and then a tail in
which a character of the word is missing and that is at least as long. -/
theorem append_ne_append {front start word token tail : List Char} {c : Char} (hword : c ∈ word)
    (htail : c ∉ tail) (hle : word.length ≤ tail.length) :
    front ++ word ++ token ≠ start ++ (token ++ tail) := by
  intro h
  obtain ⟨moved, hmoved⟩ : token <:+ token ++ tail :=
    List.suffix_of_suffix_length_le (List.suffix_append (front ++ word) token)
      (h ▸ List.suffix_append start (token ++ tail)) (by simp)
  -- The token ends on both sides now, so that the word ends what takes the place of the tail.
  have hcount : moved.count c = 0 := by
    have hsame := congrArg (List.count c) hmoved
    rw [List.count_append, List.count_append, List.count_eq_zero.mpr htail] at hsame
    omega
  have hlength : moved.length = tail.length := by
    have hsame := congrArg List.length hmoved
    rw [List.length_append, List.length_append] at hsame
    omega
  rw [← hmoved, ← List.append_assoc, List.append_cancel_right_eq] at h
  have hsuffix : word <:+ moved :=
    List.suffix_of_suffix_length_le (List.suffix_append front word)
      (h ▸ List.suffix_append start moved) (by omega)
  exact List.count_eq_zero.mp hcount (hsuffix.subset hword)

theorem dropLast_append_newline (text : String) :
    (text ++ "\n").toList.dropLast = text.toList := by
  rw [String.toList_append]
  exact List.dropLast_concat

namespace Leads

variable {text token : String} {m n : Nat}

theorem dropLast_toList (h : Leads text token n) :
    ∃ start, text.toList.dropLast =
      start ++ (token.toList ++ (" --offset ".toList ++ Nat.toDigits 10 n)) := by
  obtain ⟨before, rfl⟩ := h
  refine ⟨before.toList ++ "\n".toList ++ "Next page: bimq page ".toList, ?_⟩
  rw [← String.append_assoc, dropLast_append_newline]
  simp only [String.toList_append, List.append_assoc]
  rw [← Nat.toList_repr]
  rfl

theorem digits (h : Leads text token n) :
    text.toList.dropLast.rtakeWhile Char.isDigit = Nat.toDigits 10 n := by
  obtain ⟨start, hstart⟩ := h.dropLast_toList
  have hblank : start ++ (token.toList ++ (" --offset ".toList ++ Nat.toDigits 10 n)) =
      start ++ token.toList ++ " --offset".toList ++ ' ' :: Nat.toDigits 10 n := by simp
  rw [hstart, hblank, rtakeWhile_isDigit]

theorem unique (hm : Leads text token m) (hn : Leads text token n) : m = n := by
  have hdigits := hm.digits.symm.trans hn.digits
  have hread := congrArg Number.natural? hdigits
  rwa [Number.natural?_toDigits, Number.natural?_toDigits, Option.some_inj] at hread

end Leads

theorem leads_next (colors : Bool) (h : page.total ≠ 0) (hmore : page.hasMore = true) :
    Leads (pageText colors page) page.token page.next := by
  rw [pageText, if_neg h, if_pos hmore]
  exact ⟨_, rfl⟩

theorem dropLast_pageText (colors : Bool) (h : page.total ≠ 0) (hmore : page.hasMore = false) :
    ∃ front, (pageText colors page).toList.dropLast =
      front ++ (styled colors [.dimmed] ("Selection: " ++ page.token)).toList := by
  rw [pageText, if_neg h, if_neg (by simp [hmore]), String.append_empty, dropLast_append_newline,
    String.toList_append]
  exact ⟨_, rfl⟩

theorem not_leads (h : page.total ≠ 0) (hmore : page.hasMore = false) (n : Nat) :
    ¬ Leads (pageText colors page) page.token n := by
  intro hleads
  obtain ⟨front, hfront⟩ := dropLast_pageText colors h hmore
  cases colors with
  | true =>
    -- The text ends by switching the look off, and that does not end with a digit.
    have hlook : (styled true [.dimmed] ("Selection: " ++ page.token)).toList =
        (Style.sequence "2" ++ ("Selection: " ++ page.token) ++ "\x1b[0").toList ++ ['m'] := by
      simp [styled, Style.apply, Style.sequence, Style.on, Style.off]
    rw [hlook, ← List.append_assoc] at hfront
    have hnone := List.rtakeWhile_concat_neg (p := Char.isDigit)
      (front ++ (Style.sequence "2" ++ ("Selection: " ++ page.token) ++ "\x1b[0").toList) 'm'
      (by decide)
    rw [← hfront, hleads.digits] at hnone
    exact Nat.toDigits_ne_nil hnone
  | false =>
    obtain ⟨start, hstart⟩ := hleads.dropLast_toList
    have hsame : front ++ "Selection: ".toList ++ page.token.toList =
        start ++ (page.token.toList ++ (" --offset ".toList ++ Nat.toDigits 10 n)) := by
      rw [← hstart, hfront, List.append_assoc, ← String.toList_append]
      rfl
    have hmissing : 'S' ∉ " --offset ".toList ++ Nat.toDigits 10 n := by
      rw [List.mem_append, not_or]
      exact ⟨by decide, Number.notMem_toDigits (by decide) n⟩
    have hdigits := List.length_pos_of_ne_nil (Nat.toDigits_ne_nil (b := 10) (n := n))
    exact append_ne_append (c := 'S') (by decide) hmissing (by simp; omega) hsame

theorem leads_iff (h : page.total ≠ 0) {n : Nat} :
    Leads (pageText colors page) page.token n ↔ page.hasMore = true ∧ n = page.next := by
  cases hmore : page.hasMore with
  | false => exact iff_of_false (not_leads h hmore n) fun hn => Bool.false_ne_true hn.1
  | true =>
    have hnext := leads_next colors h hmore
    exact ⟨fun hn => ⟨rfl, hn.unique hnext⟩, fun hn => hn.2 ▸ hnext⟩

/-- The text of a page guides a reader onward, unless he wants no ids. It tells where the page
stands in the selection and leads on if and only if ids remain behind it. A page that is empty by
his wish is said to be past the end wherever it stands, and leads to itself. -/
theorem pageText_guides {selections : Selections} {token : String} {ids : List String}
    {now : Instant} (hlive : (selections.ids? token now).2 = some ids) (hne : ids ≠ [])
    (colors : Bool) (offset : Nat) (limit : Option Nat) :
    ∃ page, selections.page? token offset limit now = (selections, some page) ∧
      (firstLine (pageText colors page) = styled colors [.dimmed] (pastEnd ids.length offset) ↔
        ids.length ≤ offset ∨ limit = some 0) ∧
      (offset < ids.length → limit ≠ some 0 → offset + 1 ≤ page.next ∧ page.next ≤ ids.length ∧
        firstLine (pageText colors page) =
          styled colors [.dimmed] (shown ids.length (offset + 1) page.next)) ∧
      ((∃ next, Leads (pageText colors page) token next) ↔
        ids.drop (offset + page.ids.length) ≠ []) ∧
      ∀ next, Leads (pageText colors page) token next →
        (limit ≠ some 0 → offset < next) ∧ (limit = some 0 → next = offset) := by
  obtain ⟨page, hpage, rfl, hshows⟩ := Selections.exists_page hlive offset limit
  have htotal : page.total ≠ 0 := by
    rw [hshows.total_eq]
    exact mt List.length_eq_zero_iff.mp hne
  refine ⟨page, hpage, ?_, fun hoffset hlimit => ⟨?_, ?_, ?_⟩, ?_, ?_⟩
  · rw [firstLine_pageText htotal, styled_inj, ← hshows.total_eq, ← hshows.offset_eq,
      pageSummary_eq_pastEnd_iff, hshows.ids_eq_nil_iff, hshows.total_eq, hshows.offset_eq]
  · exact hshows.lt_next hlimit hoffset
  · exact hshows.next_le.trans (max_le hoffset.le le_rfl)
  · rw [firstLine_pageText htotal, pageSummary_eq, if_neg (hshows.ids_ne_nil hlimit hoffset),
      hshows.total_eq, hshows.offset_eq]
  · simp only [leads_iff htotal, exists_and_left, exists_eq, and_true]
    exact hshows.hasMore_iff_drop_ne_nil
  · intro next hnext
    obtain ⟨hmore, rfl⟩ := (leads_iff htotal).mp hnext
    refine ⟨fun hlimit => hshows.lt_next hlimit (hshows.lt_length hmore), fun hlimit => ?_⟩
    rw [hshows.next_eq, hshows.ids_eq_nil_iff.mpr (Or.inr hlimit), List.length_nil, Nat.add_zero]

theorem pageText_guides_nowhere :
    let selections : Selections := ⟨600, [("a", ⟨["1"], ⟨0, 0⟩, ⟨600, 0⟩⟩)]⟩
    (selections.ids? "a" ⟨0, 0⟩).2 = some ["1"] ∧ ["1"] ≠ [] ∧
      (∃ page, selections.page? "a" 0 (some 0) ⟨0, 0⟩ = (selections, some page) ∧
        firstLine (pageText false page) = "1 objects (offset 0 is past the end)" ∧
        Leads (pageText false page) "a" 0) ∧
      ∃ page, selections.page? "a" 0 (some 1) ⟨0, 0⟩ = (selections, some page) ∧
        firstLine (pageText false page) = "1 objects (showing 1-1)" ∧
        ∀ next, ¬ Leads (pageText false page) "a" next := by
  intro selections
  have hlive : (selections.ids? "a" ⟨0, 0⟩).2 = some ["1"] := by decide
  have hne : ["1"] ≠ [] := by decide
  have hguides := pageText_guides hlive hne false 0
  refine ⟨hlive, hne, ?_, ?_⟩
  · obtain ⟨page, hpage, hpast, -, hleads, hnext⟩ := hguides (some 0)
    have hids : [] = page.ids :=
      congrArg Page.ids (Option.some.inj (congrArg Prod.snd hpage : some (Page.mk _ _ _ _) = _))
    obtain ⟨next, hat⟩ := hleads.mpr (by simp [← hids])
    exact ⟨page, hpage, hpast.mpr (Or.inr rfl), (hnext next hat).2 rfl ▸ hat⟩
  · obtain ⟨page, hpage, -, hshown, hleads, -⟩ := hguides (some 1)
    have hids : ["1"] = page.ids :=
      congrArg Page.ids (Option.some.inj (congrArg Prod.snd hpage : some (Page.mk _ _ _ _) = _))
    obtain ⟨hfirst, hlast, hline⟩ := hshown (by decide) (by decide)
    rw [Nat.le_antisymm hlast hfirst] at hline
    exact ⟨page, hpage, hline, fun next hat => hleads.mp ⟨next, hat⟩ (by simp [← hids])⟩

end ModelQuery.Report
