import ModelQuery.Proofs.Filter.Scanning

/-! Whether the parentheses of a filter pair up. Markers and clause text hold none of them, so the
scanner may be blind to everything else: how scanning ends can be read off the parentheses. -/

namespace ModelQuery.Scan

open Text

/-- A closing parenthesis stands here and closes nothing: up to it there are more closing than
opening ones, even with `depth` further ones open in front of the text. -/
def Unopened (depth : Nat) (text : List Char) (position : Nat) : Prop :=
  text[position]? = some ')' ∧
    depth + (text.take (position + 1)).count '(' < (text.take (position + 1)).count ')'

/-- How many parentheses are open behind a text that starts at `position` with `depth` of them
open. -/
def balance (depth position : Nat) : List Char → Except Fault Nat
  | [] => .ok depth
  | c :: rest =>
    if c = '(' then balance (depth + 1) (position + 1) rest
    else if c = ')' then
      if depth = 0 then .error (.unopened position)
      else balance (depth - 1) (position + 1) rest
    else balance depth (position + 1) rest

theorem balance_cons_other {c : Char} (h : Route.isParenthesis c = false) (depth position : Nat)
    (rest : List Char) :
    balance depth position (c :: rest) = balance depth (position + 1) rest := by
  have hc := Bool.eq_false_iff.mp h
  simp only [ne_eq, Route.isParenthesis_iff, not_or] at hc
  simp only [balance, hc.1, hc.2, if_false]

theorem balance_append {text : List Char} (h : ∀ c ∈ text, Route.isParenthesis c = false)
    (depth position : Nat) (rest : List Char) :
    balance depth position (text ++ rest) = balance depth (position + text.length) rest := by
  induction text generalizing position with
  | nil => rfl
  | cons c text ih =>
    rw [List.cons_append, balance_cons_other (h c (by simp)), ih fun d hd => h d (by simp [hd]),
      List.length_cons]
    congr 1
    omega

/-- Parentheses that are open in front of a text and that the text has no use for stay open. -/
theorem balance_append_of_ok {depth position left : Nat} {text : List Char}
    (h : balance depth position text = .ok left) (more place : Nat) (rest : List Char) :
    balance (depth + more) place (text ++ rest) =
      balance (left + more) (place + text.length) rest := by
  induction text generalizing depth position place with
  | nil =>
    obtain rfl : depth = left := Except.ok.inj h
    rfl
  | cons c text ih =>
    rw [List.cons_append, List.length_cons, Nat.add_comm text.length, ← Nat.add_assoc]
    by_cases hopen : c = '('
    · subst c
      have hi := ih h (place + 1)
      rwa [Nat.add_right_comm] at hi
    by_cases hclose : c = ')'
    · subst c
      cases depth with
      | zero => cases h
      | succ depth =>
        have hi := ih h (place + 1)
        rw [Nat.add_right_comm depth 1]
        exact hi
    · simp only [balance, hopen, hclose, if_false] at h ⊢
      exact ih h (place + 1)

/-- Apart from its tokens, scanning gives what the parentheses alone give. -/
theorem run_eq_balance (depth position : Nat) (text : List Char) :
    (fun _ => ()) <$> run ⟨depth, .gap⟩ position text =
      balance depth position text >>= fun left =>
        if left > 0 then .error (.unclosed left) else .ok () := by
  induction hn : text.length using Nat.strong_induction_on generalizing depth position text with
  | _ n ih =>
    subst hn
    cases ahead depth text with
    | nothing => by_cases h : depth > 0 <;> simp [run_nil, balance, h]
    | blank hb =>
      rw [run_blank hb, balance_cons_other (Route.isParenthesis_of_isBlank hb)]
      exact ih _ (by simp) _ _ _ rfl
    | opening =>
      rw [run_opening, Functor.map_map]
      exact ih _ (by simp) _ _ _ rfl
    | closing =>
      cases depth with
      | zero => rw [run_closing_outside]; rfl
      | succ depth =>
        rw [run_closing, Functor.map_map]
        exact ih _ (by simp) _ _ _ rfl
    | mark hm =>
      have hlen := hm.length_pos
      rw [run_mark hm, Functor.map_map, balance_append hm.no_parenthesis]
      exact ih _ (by simp only [List.length_append]; omega) _ _ _ rfl
    | clauses hx =>
      have hlen := List.length_pos_iff.mpr hx.ne_nil
      rw [run_clauses hx, Functor.map_map, balance_append hx.no_parenthesis]
      exact ih _ (by simp only [List.length_append]; omega) _ _ _ rfl

theorem unopened_zero {depth : Nat} {c : Char} {text : List Char} :
    Unopened depth (c :: text) 0 ↔ c = ')' ∧ depth = 0 := by
  simp only [Unopened, List.getElem?_cons_zero, Option.some.injEq, Nat.zero_add,
    List.take_succ_cons, List.take_zero]
  constructor
  · rintro ⟨rfl, h⟩
    simpa using h
  · rintro ⟨rfl, rfl⟩
    simp

/-- Behind a first character the same parentheses are unopened, with as many open as it leaves. -/
theorem unopened_succ {depth left position : Nat} {c : Char} {text : List Char}
    (h : depth + [c].count '(' = left + [c].count ')') :
    Unopened depth (c :: text) (position + 1) ↔ Unopened left text position := by
  have hcount : ∀ d, (c :: text.take (position + 1)).count d =
      [c].count d + (text.take (position + 1)).count d := fun d => by
    rw [← List.singleton_append, List.count_append]
  simp only [Unopened, List.getElem?_cons_succ, List.take_succ_cons, hcount]
  refine and_congr_right fun _ => ?_
  omega

/-- A first character that is not unopened leaves a number of parentheses open, from which the rest
is judged. -/
theorem exists_balance_rest {depth : Nat} {c : Char} {text : List Char}
    (h : ¬ Unopened depth (c :: text) 0) (position : Nat) :
    ∃ left, balance depth position (c :: text) = balance left (position + 1) text ∧
      depth + [c].count '(' = left + [c].count ')' := by
  rw [unopened_zero] at h
  by_cases hopen : c = '('
  · subst c
    exact ⟨depth + 1, rfl, by simp⟩
  by_cases hclose : c = ')'
  · subst c
    have hdepth : depth ≠ 0 := fun hd => h ⟨rfl, hd⟩
    refine ⟨depth - 1, by simp [balance, hdepth], ?_⟩
    simp only [List.count_singleton_self, List.count_singleton, Char.reduceBEq, Bool.false_eq_true,
      if_false]
    omega
  · exact ⟨depth, by simp [balance, hopen, hclose], by simp [hopen, hclose]⟩

theorem balance_cases (depth position : Nat) (text : List Char) :
    (∃ left, balance depth position text = .ok left ∧ (∀ place, ¬ Unopened depth text place) ∧
      depth + text.count '(' = left + text.count ')') ∨
    ∃ place, balance depth position text = .error (.unopened (position + place)) ∧
      Unopened depth text place ∧ ∀ earlier < place, ¬ Unopened depth text earlier := by
  induction text generalizing depth position with
  | nil => exact Or.inl ⟨depth, rfl, fun place h => by simp [Unopened] at h, rfl⟩
  | cons c text ih =>
    by_cases hzero : Unopened depth (c :: text) 0
    · obtain ⟨rfl, rfl⟩ := unopened_zero.mp hzero
      exact Or.inr ⟨0, rfl, hzero, fun earlier h => absurd h (Nat.not_lt_zero _)⟩
    obtain ⟨left, hb, hleft⟩ := exists_balance_rest hzero position
    have hsucc : ∀ place, Unopened depth (c :: text) (place + 1) ↔ Unopened left text place :=
      fun place => unopened_succ hleft
    rw [hb]
    rcases ih left (position + 1) with ⟨behind, he, hnone, hcount⟩ | ⟨place, he, hat, hfirst⟩
    · refine Or.inl ⟨behind, he, ?_, ?_⟩
      · rintro (_ | place)
        · exact hzero
        · exact (hsucc place).not.mpr (hnone place)
      · rw [← List.singleton_append, List.count_append, List.count_append]
        omega
    · refine Or.inr ⟨place + 1, ?_, (hsucc place).mpr hat, ?_⟩
      · rw [he]
        congr 2
        omega
      · rintro (_ | earlier) h
        · exact hzero
        · exact (hsucc earlier).not.mpr (hfirst earlier (by omega))

theorem balance_eq_ok_iff {depth position left : Nat} {text : List Char} :
    balance depth position text = .ok left ↔ (∀ place, ¬ Unopened depth text place) ∧
      depth + text.count '(' = left + text.count ')' := by
  rcases balance_cases depth position text with ⟨left', he, hnone, hcount⟩ | ⟨place, he, hat, -⟩
  · simp only [he, Except.ok.injEq, hnone, not_false_eq_true, implies_true, true_and]
    omega
  · simp only [he, reduceCtorEq, false_iff, not_and]
    exact fun hnone => absurd hat (hnone place)

theorem count_closing_le {depth : Nat} {text : List Char}
    (h : ∀ place, ¬ Unopened depth text place) : text.count ')' ≤ depth + text.count '(' := by
  rcases balance_cases depth 0 text with ⟨left, -, -, hcount⟩ | ⟨place, -, hat, -⟩
  · omega
  · exact absurd hat (h place)

theorem balance_eq_error_iff {depth position : Nat} {text : List Char} {fault : Fault} :
    balance depth position text = .error fault ↔ ∃ place, Unopened depth text place ∧
      (∀ earlier < place, ¬ Unopened depth text earlier) ∧
        fault = .unopened (position + place) := by
  rcases balance_cases depth position text with ⟨left, he, hnone, -⟩ | ⟨place, he, hat, hfirst⟩
  · simp [he, hnone]
  · rw [he, Except.error.injEq]
    constructor
    · rintro rfl
      exact ⟨place, hat, hfirst, rfl⟩
    · rintro ⟨other, hother, hearlier, rfl⟩
      obtain rfl : place = other := by
        rcases Nat.lt_trichotomy place other with h | h | h
        · exact absurd hat (hearlier place h)
        · exact h
        · exact absurd hother (hfirst other h)
      rfl

theorem balance_blank {text : List Char} (h : ∀ c ∈ text, isBlank c = true)
    (depth position : Nat) : balance depth position text = .ok depth := by
  have hpar : ∀ c ∈ text, Route.isParenthesis c = false := fun c hc =>
    Route.isParenthesis_of_isBlank (h c hc)
  have hb := balance_append hpar depth position []
  rwa [List.append_nil] at hb

end Scan

open Text Scan

theorem tokenize_cases (filter : List Char) :
    (tokenize filter = .error .blank ∧ (∀ c ∈ filter, isBlank c = true) ∧
      balance 0 0 filter = .ok 0) ∨
    (∃ c ∈ filter, isBlank c = false) ∧
      ((∃ tokens, tokenize filter = .ok tokens ∧ balance 0 0 filter = .ok 0) ∨
      (∃ missing > 0, tokenize filter = .error (.unclosed missing) ∧
        balance 0 0 filter = .ok missing) ∨
      ∃ position, tokenize filter = .error (.unopened position) ∧
        balance 0 0 filter = .error (.unopened position)) := by
  by_cases hall : filter.all isBlank = true
  · have hblank := List.all_eq_true.mp hall
    exact Or.inl ⟨by simp only [tokenize, hall, if_true], hblank, balance_blank hblank 0 0⟩
  refine Or.inr ⟨by simpa using hall, ?_⟩
  have hr := run_eq_balance 0 0 filter
  have ht : tokenize filter = run ⟨0, .gap⟩ 0 filter := by simp [tokenize, hall]
  rw [← ht] at hr
  rcases balance_cases 0 0 filter with ⟨left, hb, -⟩ | ⟨place, hb, -⟩
  · rw [hb, ok_bind] at hr
    by_cases hleft : left > 0
    · rw [if_pos hleft, map_eq_error_iff] at hr
      exact Or.inr (Or.inl ⟨left, hleft, hr, hb⟩)
    · rw [if_neg hleft, map_eq_ok_iff] at hr
      obtain ⟨tokens, hr, -⟩ := hr
      obtain rfl : left = 0 := by omega
      exact Or.inl ⟨tokens, hr, hb⟩
  · rw [hb, error_bind, map_eq_error_iff] at hr
    exact Or.inr (Or.inr ⟨_, hr, hb⟩)

theorem tokenize_blank_iff {filter : List Char} :
    tokenize filter = .error .blank ↔ ∀ c ∈ filter, isBlank c = true := by
  rcases tokenize_cases filter with ⟨ht, hblank, -⟩ |
    ⟨hne, ⟨tokens, ht, -⟩ | ⟨missing, -, ht, -⟩ | ⟨position, ht, -⟩⟩
  · exact iff_of_true ht hblank
  all_goals simpa [ht] using hne

theorem tokenize_unopened_iff {filter : List Char} {position : Nat} :
    tokenize filter = .error (.unopened position) ↔
      balance 0 0 filter = .error (.unopened position) := by
  rcases tokenize_cases filter with ⟨ht, -, hb⟩ |
    ⟨-, ⟨tokens, ht, hb⟩ | ⟨missing, -, ht, hb⟩ | ⟨position', ht, hb⟩⟩ <;> simp [ht, hb]

theorem tokenize_unclosed_iff {filter : List Char} {missing : Nat} :
    tokenize filter = .error (.unclosed missing) ↔
      0 < missing ∧ balance 0 0 filter = .ok missing := by
  rcases tokenize_cases filter with ⟨ht, -, hb⟩ |
    ⟨-, ⟨tokens, ht, hb⟩ | ⟨missing', hpos, ht, hb⟩ | ⟨position, ht, hb⟩⟩
  · simp [ht, hb]
    omega
  · simp [ht, hb]
    omega
  · simp [ht, hb]
    omega
  · simp [ht, hb]

/-- There are tokens exactly if something stands in the filter and its parentheses pair up. -/
theorem exists_tokens_iff {filter : List Char} : (∃ tokens, tokenize filter = .ok tokens) ↔
    (∃ c ∈ filter, isBlank c = false) ∧ balance 0 0 filter = .ok 0 := by
  rcases tokenize_cases filter with ⟨ht, hblank, -⟩ |
    ⟨hne, ⟨tokens, ht, hb⟩ | ⟨missing, hpos, ht, hb⟩ | ⟨position, ht, hb⟩⟩
  · simpa [ht] using fun c hc hb => by simp [hblank c hc] at hb
  · simp [ht, hb, hne]
  · simp [ht, hb]
    omega
  · simp [ht, hb]

theorem stage_of_tokenize {filter : List Char} {fault : Fault}
    (h : tokenize filter = .error fault) : fault.stage = .tokenize := by
  rcases tokenize_cases filter with ⟨ht, -⟩ | ⟨-, ⟨_, ht, -⟩ | ⟨_, -, ht, -⟩ | ⟨_, ht, -⟩⟩ <;>
    rw [ht] at h <;> cases h <;> rfl

/-- How scanning ends, told by the parentheses alone: at the first one that closes nothing, or for
want of as many as are left open, or with tokens. -/
theorem tokenize_outcome (filter : List Char) :
    (tokenize filter = .error .blank ↔ ∀ c ∈ filter, isBlank c = true) ∧
    (∀ position, tokenize filter = .error (.unopened position) ↔
      Unopened 0 filter position ∧ ∀ earlier < position, ¬ Unopened 0 filter earlier) ∧
    (∀ missing, tokenize filter = .error (.unclosed missing) ↔
      (∀ position, ¬ Unopened 0 filter position) ∧ 0 < missing ∧
        filter.count '(' = filter.count ')' + missing) ∧
    ((∃ tokens, tokenize filter = .ok tokens) ↔ (∃ c ∈ filter, isBlank c = false) ∧
      (∀ position, ¬ Unopened 0 filter position) ∧ filter.count '(' ≤ filter.count ')') ∧
    ∀ position, tokenize filter ≠ .error (.blankClauses position) := by
  refine ⟨tokenize_blank_iff, fun position => ?_, fun missing => ?_, ?_, fun position h => ?_⟩
  · rw [tokenize_unopened_iff, balance_eq_error_iff]
    simp
  · rw [tokenize_unclosed_iff, balance_eq_ok_iff, and_left_comm, Nat.zero_add, Nat.add_comm missing]
  · rw [exists_tokens_iff, balance_eq_ok_iff]
    refine and_congr_right fun _ => and_congr_right fun hnone => ?_
    have hle := count_closing_le hnone
    omega
  · rcases tokenize_cases filter with ⟨ht, -⟩ | ⟨-, ⟨_, ht, -⟩ | ⟨_, -, ht, -⟩ | ⟨_, ht, -⟩⟩ <;>
      simp [ht] at h

/-- As many parentheses open as close, and still the first closes nothing. -/
example : tokenize "a|b|c|d)|AND;(e|f|g|h".toList = .error (.unopened 7) := by decide

end ModelQuery
