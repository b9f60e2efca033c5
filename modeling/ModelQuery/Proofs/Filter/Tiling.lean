import ModelQuery.Proofs.Filter.Scanning

/-! Tokens tile the filter that they are cut from. Each stands for a stretch of it that begins at the
position of the token, these stretches follow one another, and only blanks lie between them. -/

namespace ModelQuery

open Text

theorem Joiner.sameLetters_of_ofLetters? {letters : List Char} {joiner : Joiner}
    (h : ofLetters? letters = some joiner) : sameLetters letters joiner.word.toList = true := by
  unfold ofLetters? at h
  split at h
  · next hs =>
    cases h
    exact hs
  · split at h
    · next hs =>
      cases h
      exact hs
    · cases h

namespace Token

/-- How many characters of a filter a token stands for. -/
def width : Token → Nat
  | clauses text => text.length
  | joiner j => j.word.length + 2
  | opening | closing => 1
  | finish => 0

/-- What a token may stand for. -/
def Covers : Token → List Char → Prop
  | clauses text, source => source = text.toList ∧ source ≠ [] ∧ trim source = source ∧
      ∀ c ∈ source, Route.isParenthesis c = false
  | joiner j, source => j ≠ .blank ∧ ∃ letters,
      sameLetters letters j.word.toList = true ∧ source = '|' :: (letters ++ [';'])
  | opening, source => source = ['(']
  | closing, source => source = [')']
  | finish, source => source = []

theorem Covers.length_eq {token : Token} {source : List Char} (h : token.Covers source) :
    source.length = token.width := by
  cases token with
  | clauses text => rw [h.1, width, String.length_toList]
  | joiner j =>
    obtain ⟨-, letters, hl, rfl⟩ := h
    have hlen : letters.length = j.word.toList.length := by
      simpa [asciiLower] using congrArg List.length (sameLetters_iff.mp hl)
    simp [width, hlen, String.length_toList]
  | opening | closing | finish =>
    obtain rfl := h
    rfl

theorem covers_mark {joiner : Joiner} {mark : List Char} (h : joiner.Marks mark) :
    (Token.joiner joiner).Covers mark := by
  refine ⟨h.ne_blank, ?_⟩
  obtain ⟨letters, hl, rfl⟩ := h
  exact ⟨letters, Joiner.sameLetters_of_ofLetters? hl, rfl⟩

end Token

/-- Tokens from a position on tile the text that stands there. -/
inductive Tiles : Nat → List Char → List Placed → Prop
  | finish {position : Nat} : Tiles position [] [⟨.finish, position⟩]
  | blank {position : Nat} {c : Char} {rest : List Char} {tokens : List Placed}
    (hc : isBlank c = true) (h : Tiles (position + 1) rest tokens) :
    Tiles position (c :: rest) tokens
  | token {position : Nat} {token : Token} {source rest : List Char} {tokens : List Placed}
    (hne : token ≠ .finish) (hs : token.Covers source)
    (h : Tiles (position + source.length) rest tokens) :
    Tiles position (source ++ rest) (⟨token, position⟩ :: tokens)

variable {position : Nat} {text : List Char} {tokens : List Placed}

theorem Tiles.blanks {blanks rest : List Char} (hb : ∀ c ∈ blanks, isBlank c = true)
    (h : Tiles (position + blanks.length) rest tokens) :
    Tiles position (blanks ++ rest) tokens := by
  induction blanks generalizing position with
  | nil => exact h
  | cons c blanks ih =>
    obtain ⟨hc, hb⟩ := List.forall_mem_cons.mp hb
    refine .blank hc (ih hb ?_)
    rwa [Nat.add_assoc, Nat.add_comm 1]

/-- The token of clause text covers it up to the blanks behind. -/
theorem Scan.Extent.tiles {depth : Nat} {run rest : List Char} (hx : Extent depth run rest)
    (h : Tiles (position + run.length) rest tokens) :
    Tiles position (run ++ rest) (⟨.clauses (String.ofList (trim run)), position⟩ :: tokens) := by
  obtain ⟨c, hc, hcb⟩ := hx.begins
  obtain ⟨back, he, hback⟩ := exists_trim_append hx.head_not_blank
  have hcovers : (Token.clauses (String.ofList (trim run))).Covers (trim run) := by
    refine ⟨by simp, fun hempty => ?_, trim_trim run, fun d hd => ?_⟩
    · rw [trim_eq_nil_iff.mp hempty c (List.mem_of_mem_head? hc)] at hcb
      cases hcb
    · exact hx.no_parenthesis d (mem_of_mem_trim hd)
  have hlen : run.length = (trim run).length + back.length := by
    rw [← List.length_append, ← he]
  rw [hlen, ← Nat.add_assoc] at h
  have htoken := Tiles.token (by simp) hcovers (h.blanks hback)
  rwa [← List.append_assoc, ← he] at htoken

theorem tiles_of_run {depth : Nat} (h : Scan.run ⟨depth, .gap⟩ position text = .ok tokens) :
    Tiles position text tokens := by
  induction hn : text.length using Nat.strong_induction_on
    generalizing depth position text tokens with
  | _ n ih =>
    subst hn
    cases Scan.ahead depth text with
    | nothing =>
      rw [Scan.run_nil] at h
      split at h
      · cases h
      · cases h
        exact .finish
    | blank hb =>
      rw [Scan.run_blank hb] at h
      exact .blank hb (ih _ (by simp) h rfl)
    | opening =>
      rw [Scan.run_opening] at h
      obtain ⟨later, hl, rfl⟩ := map_eq_ok_iff.mp h
      exact @Tiles.token position .opening ['('] _ _ (by simp) rfl (ih _ (by simp) hl rfl)
    | closing =>
      cases depth with
      | zero =>
        rw [Scan.run_closing_outside] at h
        cases h
      | succ depth =>
        rw [Scan.run_closing] at h
        obtain ⟨later, hl, rfl⟩ := map_eq_ok_iff.mp h
        exact @Tiles.token position .closing [')'] _ _ (by simp) rfl (ih _ (by simp) hl rfl)
    | mark hm =>
      have hlen := hm.length_pos
      rw [Scan.run_mark hm] at h
      obtain ⟨later, hl, rfl⟩ := map_eq_ok_iff.mp h
      exact .token (by simp) (Token.covers_mark hm)
        (ih _ (by simp only [List.length_append]; omega) hl rfl)
    | clauses hx =>
      have hlen := List.length_pos_iff.mpr hx.ne_nil
      rw [Scan.run_clauses hx] at h
      obtain ⟨later, hl, rfl⟩ := map_eq_ok_iff.mp h
      exact hx.tiles (ih _ (by simp only [List.length_append]; omega) hl rfl)

theorem Tiles.ends_in_finish (h : Tiles position text tokens) :
    ∃ before, tokens = before ++ [⟨.finish, position + text.length⟩] ∧
      ∀ placed ∈ before, placed.token ≠ .finish := by
  induction h with
  | finish => exact ⟨[], rfl, by simp⟩
  | blank _ _ ih =>
    obtain ⟨before, rfl, hb⟩ := ih
    refine ⟨before, ?_, hb⟩
    rw [List.length_cons, Nat.add_assoc, Nat.add_comm 1]
  | @token position token _ _ _ hne _ _ ih =>
    obtain ⟨before, rfl, hb⟩ := ih
    refine ⟨⟨token, position⟩ :: before, ?_, List.forall_mem_cons.mpr ⟨hne, hb⟩⟩
    rw [List.length_append, Nat.add_assoc, List.cons_append]

/-- Each token covers what stands at its position. -/
theorem Tiles.exists_source (h : Tiles position text tokens) {placed : Placed}
    (hp : placed ∈ tokens) : ∃ front source back, text = front ++ (source ++ back) ∧
      placed.position = position + front.length ∧ placed.token.Covers source := by
  induction h with
  | finish =>
    obtain rfl := List.mem_singleton.mp hp
    exact ⟨[], [], [], rfl, rfl, rfl⟩
  | @blank _ c _ _ _ _ ih =>
    obtain ⟨front, source, back, rfl, hpos, hs⟩ := ih hp
    refine ⟨c :: front, source, back, rfl, ?_, hs⟩
    rw [hpos, List.length_cons, Nat.add_assoc, Nat.add_comm 1]
  | @token _ _ first rest _ _ hfirst _ ih =>
    rcases List.mem_cons.mp hp with rfl | hp
    · exact ⟨[], first, rest, rfl, rfl, hfirst⟩
    · obtain ⟨front, source, back, rfl, hpos, hs⟩ := ih hp
      refine ⟨first ++ front, source, back, by rw [List.append_assoc], ?_, hs⟩
      rw [hpos, List.length_append, Nat.add_assoc]

theorem Tiles.ordered (h : Tiles position text tokens) :
    tokens.Pairwise fun earlier later =>
      earlier.position + earlier.token.width ≤ later.position := by
  induction h with
  | finish => exact List.pairwise_singleton _ _
  | blank _ _ ih => exact ih
  | token _ hs h ih =>
    refine List.pairwise_cons.mpr ⟨fun later hl => ?_, ih⟩
    obtain ⟨front, _, _, -, hpos, -⟩ := h.exists_source hl
    rw [hpos, hs.length_eq]
    exact Nat.le_add_right _ _

theorem Tiles.blank_between (h : Tiles position text tokens) (i : Nat) (hi : i < text.length) :
    isBlank text[i] = true ∨ ∃ placed ∈ tokens, placed.position ≤ position + i ∧
      position + i < placed.position + placed.token.width := by
  induction h generalizing i with
  | finish => cases hi
  | blank hc _ ih =>
    cases i with
    | zero => exact Or.inl hc
    | succ i =>
      have hrest := ih i (Nat.lt_of_succ_lt_succ hi)
      rwa [Nat.add_right_comm, Nat.add_assoc] at hrest
  | @token position _ source rest _ _ hs _ ih =>
    by_cases hin : i < source.length
    · refine Or.inr ⟨_, List.mem_cons_self .., Nat.le_add_right _ _, ?_⟩
      rw [← hs.length_eq]
      exact Nat.add_lt_add_left hin position
    · have hle := Nat.le_of_not_lt hin
      have hlt : i - source.length < rest.length := by
        rw [List.length_append] at hi
        omega
      rw [List.getElem_append_right hle]
      refine (ih _ hlt).imp_right ?_
      rintro ⟨placed, hp, hspan⟩
      exact ⟨placed, List.mem_cons_of_mem _ hp, by omega⟩

theorem tiles_of_tokenize {filter : List Char} {tokens : List Placed}
    (h : tokenize filter = .ok tokens) : Tiles 0 filter tokens := by
  unfold tokenize at h
  split at h
  · cases h
  · exact tiles_of_run h

/-- The last token and no other is the end. Each token covers what stands at its position, no two
tokens cover the same, and whatever no token covers is blank. -/
theorem tokenize_tiles {filter : List Char} {tokens : List Placed}
    (h : tokenize filter = .ok tokens) :
    (∃ before, tokens = before ++ [⟨.finish, filter.length⟩] ∧
      ∀ placed ∈ before, placed.token ≠ .finish) ∧
    (∀ placed ∈ tokens,
      placed.token.Covers ((filter.drop placed.position).take placed.token.width)) ∧
    tokens.Pairwise (fun earlier later =>
      earlier.position + earlier.token.width ≤ later.position) ∧
    ∀ (i : Nat) (hi : i < filter.length), isBlank filter[i] = true ∨
      ∃ placed ∈ tokens, placed.position ≤ i ∧ i < placed.position + placed.token.width := by
  have htiles := tiles_of_tokenize h
  refine ⟨?_, fun placed hp => ?_, htiles.ordered, fun i hi => ?_⟩
  · simpa using htiles.ends_in_finish
  · obtain ⟨front, source, back, rfl, hpos, hs⟩ := htiles.exists_source hp
    rw [Nat.zero_add] at hpos
    rwa [hpos, List.drop_left, ← hs.length_eq, List.take_left]
  · simpa using htiles.blank_between i hi

theorem tokenize_tiles_wide :
    let filter := " (ä|b|c|d )|oR; e|f|g|h".toList
    let tokens : List Placed := [⟨.opening, 1⟩, ⟨.clauses "ä|b|c|d", 2⟩, ⟨.closing, 10⟩,
      ⟨.joiner .or, 11⟩, ⟨.clauses "e|f|g|h", 16⟩, ⟨.finish, 23⟩]
    tokenize filter = .ok tokens ∧
      (∀ placed ∈ tokens,
        placed.token.Covers ((filter.drop placed.position).take placed.token.width)) ∧
      ∀ (i : Nat) (hi : i < filter.length), isBlank filter[i] = true ∨
        ∃ placed ∈ tokens, placed.position ≤ i ∧ i < placed.position + placed.token.width := by
  intro filter tokens
  have h : tokenize filter = .ok tokens := by decide +kernel
  exact ⟨h, (tokenize_tiles h).2.1, (tokenize_tiles h).2.2.2⟩

end ModelQuery
