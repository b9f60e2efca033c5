import ModelQuery.Proofs.Filter.Scanning

/-! How a filter spells its tree, without tokens and without regard to how many parentheses are
open. The scanner cuts clause text at more places outside all parentheses than inside, and the tree
does not show where. -/

namespace ModelQuery.Tree

open Text

/-- What has to stand next on a level. -/
inductive Turn
  | term
  | join
  deriving DecidableEq, Repr

/-- Reads on in a turn. -/
def readOn (last : Nat) : Turn → Level → List Level → List Placed → Except Fault Tree
  | .term => readTerm last
  | .join => readJoin last

theorem stage_of_readOn {last : Nat} {turn : Turn} {level : Level} {outer : List Level}
    {tokens : List Placed} {fault : Fault}
    (h : readOn last turn level outer tokens = .error fault) : fault.stage = .parse := by
  induction tokens generalizing turn level outer with
  | nil =>
    cases turn with
    | term =>
      cases h
      rfl
    | join =>
      cases outer with
      | nil => cases h
      | cons around outer =>
        cases h
        rfl
  | cons placed tokens ih =>
    obtain ⟨token, position⟩ := placed
    cases turn with
    | term =>
      cases token with
      | opening => exact @ih .term _ _ h
      | clauses text =>
        simp only [readOn, readTerm] at h
        cases hr : Clause.readRun level.next position text.toList with
        | error short =>
          rw [hr] at h
          cases h
          exact Clause.stage_of_readRun hr
        | ok parts =>
          rw [hr] at h
          exact @ih .join _ _ h
      | joiner | closing | finish =>
        cases h
        rfl
    | join =>
      cases token with
      | joiner joiner => exact @ih .term _ _ h
      | closing =>
        cases outer with
        | nil =>
          cases h
          rfl
        | cons around outer => exact @ih .join _ _ h
      | clauses | opening | finish => cases outer <;> cases h <;> rfl

theorem stage_of_ofTokens {tokens : List Placed} {fault : Fault}
    (h : ofTokens tokens = .error fault) : fault.stage = .parse :=
  @stage_of_readOn _ .term _ _ _ _ h

/-- A run of clause text ends before this text at any depth. -/
def Bounds (text : List Char) : Prop :=
  text = [] ∨ (∃ c rest, text = c :: rest ∧ Route.isParenthesis c = true) ∨
    ∃ (joiner : Joiner) (mark rest : List Char), joiner.Marks mark ∧ text = mark ++ rest ∧
      (trimStart rest).head? = some '('

/-- On a level within the levels `outer`, the text goes on to spell the tree of a whole filter. -/
inductive Spells : Turn → Level → List Level → List Char → Tree → Prop
  | blank {turn level outer c text tree} (h : isBlank c = true)
    (rest : Spells turn level outer text tree) : Spells turn level outer (c :: text) tree
  | opening {level outer text tree} (rest : Spells .term .start (level :: outer) text tree) :
    Spells .term level outer ('(' :: text) tree
  | closing {level around outer text tree}
    (rest : Spells .join (around.addEnclosed level) outer text tree) :
    Spells .join level (around :: outer) (')' :: text) tree
  | mark {level outer text tree} {joiner : Joiner} {mark : List Char} (h : joiner.Marks mark)
    (rest : Spells .term { level with next := joiner } outer text tree) :
    Spells .join level outer (mark ++ text) tree
  | run {level outer run parts text tree} (h : Clause.IsRun level.next run parts)
    (hpar : ∀ c ∈ run, Route.isParenthesis c = false) (hb : Bounds text)
    (rest : Spells .join (level.add parts) outer text tree) :
    Spells .term level outer (run ++ text) tree
  | finish {level} : Spells .join level [] [] level.tree

/-- Where a term has just ended, the joiner of the next term is not yet known. -/
theorem Spells.join_congr {level level' : Level} {outer : List Level} {text : List Char}
    {tree : Tree} (h : Spells .join level outer text tree) (hp : level'.parts = level.parts) :
    Spells .join level' outer text tree := by
  have htree : level'.tree = level.tree := by simp only [Level.tree, hp]
  generalize ht : Turn.join = turn at h
  induction h with
  | blank hb _ ih => exact .blank hb (ih hp htree ht)
  | opening => cases ht
  | closing rest =>
    refine .closing ?_
    simpa only [Level.addEnclosed, htree] using rest
  | mark hm rest =>
    refine .mark hm ?_
    simpa only [hp] using rest
  | run => cases ht
  | finish => exact htree ▸ .finish

theorem Spells.term_cases {level : Level} {outer : List Level} {text : List Char} {tree : Tree}
    (h : Spells .term level outer text tree) :
    (∃ blanks rest, text = blanks ++ '(' :: rest ∧ (∀ c ∈ blanks, isBlank c = true) ∧
      Spells .term .start (level :: outer) rest tree) ∨
    ∃ run parts rest, text = run ++ rest ∧ Clause.IsRun level.next run parts ∧
      (∀ c ∈ run, Route.isParenthesis c = false) ∧ Bounds rest ∧
      Spells .join (level.add parts) outer rest tree := by
  generalize ht : Turn.term = turn at h
  induction h with
  | @blank _ _ _ c _ _ hc _ ih =>
    rcases ih ht with ⟨blanks, rest, rfl, hb, hr⟩ | ⟨run, parts, rest, rfl, hrun, hpar, hb, hr⟩
    · exact Or.inl ⟨c :: blanks, rest, rfl, by simpa [hc] using hb, hr⟩
    · have hrun' := (@Clause.isRun_blank_append [c] (by simpa using hc) _ _ _).mpr hrun
      have hpar' : ∀ d ∈ c :: run, Route.isParenthesis d = false := by
        simpa [Route.isParenthesis_of_isBlank hc] using hpar
      exact Or.inr ⟨c :: run, parts, rest, rfl, hrun', hpar', hb, hr⟩
  | opening rest => exact Or.inl ⟨[], _, rfl, by simp, rest⟩
  | run hrun hpar hb rest => exact Or.inr ⟨_, _, _, rfl, hrun, hpar, hb, rest⟩
  | closing | mark | finish => cases ht

/-- A run that ends in a clause of four fields may be followed by a marker and any further term,
whether that goes on the run or opens a group. -/
theorem Spells.run_mark {level : Level} {outer : List Level} {run mark text : List Char}
    {parts : List (Joiner × Tree)} {joiner : Joiner} {tree : Tree}
    (hrun : Clause.IsRun level.next run parts)
    (hpar : ∀ c ∈ run, Route.isParenthesis c = false)
    (hbars : (Clause.lastClause run).count '|' = 3) (hm : joiner.Marks mark)
    (h : Spells .term { level.add parts with next := joiner } outer text tree) :
    Spells .term level outer (run ++ (mark ++ text)) tree := by
  rcases h.term_cases with
    ⟨blanks, rest, rfl, hb, -⟩ | ⟨run', parts', rest, rfl, hrun', hpar', hb, hr⟩
  · refine .run hrun hpar (Or.inr (Or.inr ⟨joiner, mark, _, hm, rfl, ?_⟩)) (.mark hm h)
    rw [trimStart_blank_append hb]
    rfl
  · have hjoined := (Clause.isRun_append_mark_iff hbars hm).mpr ⟨_, _, hrun, hrun', rfl⟩
    have he : run ++ (mark ++ (run' ++ rest)) = (run ++ (mark ++ run')) ++ rest := by simp
    rw [he]
    refine .run hjoined ?_ hb (hr.join_congr ?_)
    · intro c hc
      simp only [List.mem_append] at hc
      rcases hc with hc | hc | hc
      · exact hpar c hc
      · exact hm.no_parenthesis c hc
      · exact hpar' c hc
    · simp [Level.add]

/-- Scanning a text between two tokens and reading on from there gives the tree. -/
def Accepts (last position : Nat) (turn : Turn) (level : Level) (outer : List Level)
    (text : List Char) (tree : Tree) : Prop :=
  ∃ tokens, Scan.run ⟨outer.length, .gap⟩ position text = .ok tokens ∧
    readOn last turn level outer tokens = .ok tree

section Steps

variable {last position : Nat} {turn : Turn} {level : Level} {outer : List Level}
  {text : List Char} {tree : Tree}

theorem accepts_nil : Accepts last position turn level outer [] tree ↔
    turn = .join ∧ outer = [] ∧ tree = level.tree := by
  cases outer with
  | cons around outer => simp [Accepts, Scan.run_nil]
  | nil =>
    cases turn with
    | term => simp [Accepts, Scan.run_nil, readOn, readTerm]
    | join => simp [Accepts, Scan.run_nil, readOn, readJoin, eq_comm]

theorem accepts_blank {c : Char} (h : isBlank c = true) :
    Accepts last position turn level outer (c :: text) tree ↔
      Accepts last (position + 1) turn level outer text tree := by
  simp only [Accepts, Scan.run_blank h]

theorem accepts_opening : Accepts last position turn level outer ('(' :: text) tree ↔
    turn = .term ∧ Accepts last (position + 1) .term .start (level :: outer) text tree := by
  simp only [Accepts, Scan.run_opening, map_eq_ok_iff, List.length_cons]
  cases turn with
  | term => simp [readOn, readTerm]
  | join => cases outer <;> simp [readOn, readJoin]

theorem accepts_closing : Accepts last position turn level outer (')' :: text) tree ↔
    turn = .join ∧ ∃ around further, outer = around :: further ∧
      Accepts last (position + 1) .join (around.addEnclosed level) further text tree := by
  cases outer with
  | nil => simp [Accepts, Scan.run_closing_outside]
  | cons around outer =>
    simp only [Accepts, List.length_cons, Scan.run_closing, map_eq_ok_iff]
    cases turn with
    | term => simp [readOn, readTerm]
    | join => simp [readOn, readJoin]

theorem accepts_mark {joiner : Joiner} {mark : List Char} (hm : joiner.Marks mark) :
    Accepts last position turn level outer (mark ++ text) tree ↔
      turn = .join ∧ Accepts last (position + mark.length) .term { level with next := joiner }
        outer text tree := by
  simp only [Accepts, Scan.run_mark hm, map_eq_ok_iff]
  cases turn with
  | term => simp [readOn, readTerm]
  | join => simp [readOn, readJoin]

theorem accepts_clauses {rest : List Char} (h : Scan.Extent outer.length text rest) :
    Accepts last position turn level outer (text ++ rest) tree ↔
      turn = .term ∧ ∃ parts, Clause.IsRun level.next text parts ∧
        Accepts last (position + text.length) .join (level.add parts) outer rest tree := by
  simp only [Accepts, Scan.run_clauses h, map_eq_ok_iff]
  cases turn with
  | join => cases outer <;> simp [readOn, readJoin]
  | term =>
    simp only [readOn, true_and]
    constructor
    · rintro ⟨_, ⟨tokens, hr, rfl⟩, ht⟩
      simp only [readTerm, String.toList_ofList] at ht
      obtain ⟨parts, hp, ht⟩ := bind_eq_ok_iff.mp ht
      exact ⟨parts, Clause.isRun_trim.mp (Clause.isRun_of_readRun hp), tokens, hr, ht⟩
    · rintro ⟨parts, hp, tokens, hr, ht⟩
      refine ⟨_, ⟨tokens, hr, rfl⟩, ?_⟩
      rw [readTerm, String.toList_ofList, Clause.isRun_trim.mpr hp, ok_bind]
      exact ht

end Steps

/-- Whatever is accepted is spelled: clause text that was cut at a marker outside all parentheses
is put together again, unless a group follows. -/
theorem Accepts.spells {last position : Nat} {turn : Turn} {level : Level} {outer : List Level}
    {text : List Char} {tree : Tree} (h : Accepts last position turn level outer text tree) :
    Spells turn level outer text tree := by
  induction hn : text.length using Nat.strong_induction_on
    generalizing position turn level outer text with
  | _ n ih =>
    subst hn
    cases Scan.ahead outer.length text with
    | nothing =>
      obtain ⟨rfl, rfl, rfl⟩ := accepts_nil.mp h
      exact .finish
    | blank hb => exact .blank hb (ih _ (by simp) ((accepts_blank hb).mp h) rfl)
    | opening =>
      obtain ⟨rfl, hr⟩ := accepts_opening.mp h
      exact .opening (ih _ (by simp) hr rfl)
    | closing =>
      obtain ⟨rfl, around, further, rfl, hr⟩ := accepts_closing.mp h
      exact .closing (ih _ (by simp) hr rfl)
    | mark hm =>
      obtain ⟨rfl, hr⟩ := (accepts_mark hm).mp h
      have hlen := hm.length_pos
      exact .mark hm (ih _ (by simp only [List.length_append]; omega) hr rfl)
    | @clauses run rest hx =>
      obtain ⟨rfl, parts, hrun, hr⟩ := (accepts_clauses hx).mp h
      have hlen : 0 < run.length := List.length_pos_iff.mpr hx.ne_nil
      have hlt : rest.length < (run ++ rest).length := by simp only [List.length_append]; omega
      rcases hx.ends_cases with rfl | ⟨c, more, rfl, hp⟩ | ⟨joiner, mark, more, hm, rfl, he⟩
      · exact .run hrun hx.no_parenthesis (Or.inl rfl) (ih _ hlt hr rfl)
      · exact .run hrun hx.no_parenthesis (Or.inr (Or.inl ⟨c, more, rfl, hp⟩)) (ih _ hlt hr rfl)
      rcases he with hgroup | ⟨-, hbars⟩
      · exact .run hrun hx.no_parenthesis (Or.inr (Or.inr ⟨joiner, mark, more, hm, rfl, hgroup⟩))
          (ih _ hlt hr rfl)
      -- The scanner cut the run at a marker behind four fields, so the term behind it is taken
      -- first: if it is clause text, it belongs to the same run.
      · obtain ⟨-, hr'⟩ := (accepts_mark hm).mp hr
        have hlt' : more.length < (run ++ (mark ++ more)).length := by
          simp only [List.length_append] at hlt ⊢
          omega
        exact Spells.run_mark hrun hx.no_parenthesis hbars hm (ih _ hlt' hr' rfl)

theorem readJoin_congr {level level' : Level} (hp : level'.parts = level.parts) (last : Nat)
    (outer : List Level) (tokens : List Placed) :
    readJoin last level' outer tokens = readJoin last level outer tokens := by
  have htree : level'.tree = level.tree := by simp only [Level.tree, hp]
  cases tokens with
  | nil => cases outer <;> simp [readJoin, htree]
  | cons placed tokens =>
    obtain ⟨token, place⟩ := placed
    cases token <;> cases outer <;> simp [readJoin, htree, hp, Level.addEnclosed]

theorem Bounds.breaks {depth : Nat} {text : List Char} (h : Bounds text) (hne : text ≠ [])
    (read : List Char) : Scan.breaks depth read text = true := by
  rcases h with rfl | ⟨c, rest, rfl, hp⟩ | ⟨joiner, mark, rest, hm, rfl, hgroup⟩
  · exact absurd rfl hne
  · rcases Route.isParenthesis_iff.mp hp with rfl | rfl <;> rfl
  · exact Scan.breaks_iff.mpr
      (Or.inr ⟨joiner, mark, rest, hm, rfl, by simp [Scan.endsBefore, hgroup]⟩)

/-- A run does not end inside a marker. -/
theorem Bounds.not_inside_mark {joiner : Joiner} {before after more : List Char}
    (hm : joiner.Marks (before ++ after)) (hbefore : before ≠ []) (hafter : after ≠ []) :
    ¬ Bounds (after ++ more) := by
  have hpar := hm.no_parenthesis
  have hinside := (hm.mem_parts hbefore hafter).2
  obtain ⟨d, after, rfl⟩ := List.exists_cons_of_ne_nil hafter
  rintro (hn | ⟨c, rest, hc, hp⟩ | ⟨next, mark, rest, ⟨letters, -, rfl⟩, hc, -⟩)
  · cases hn
  · obtain ⟨rfl, -⟩ := List.cons.inj hc
    rw [hpar d (by simp)] at hp
    cases hp
  · obtain ⟨rfl, -⟩ := List.cons.inj hc
    exact absurd (hinside '|' (by simp)) (by decide)

theorem Bounds.mark_before {joiner : Joiner} {taken text mark rest : List Char} (hb : Bounds text)
    (hm : joiner.Marks mark) (hne : taken ≠ []) (he : taken ++ text = mark ++ rest) :
    ∃ after, taken = mark ++ after ∧ rest = after ++ text := by
  rcases List.append_eq_append_iff.mp he with ⟨after, rfl, rfl⟩ | ⟨after, rfl, rfl⟩
  · by_cases hafter : after = []
    · subst after
      exact ⟨[], by simp, rfl⟩
    · exact absurd hb (Bounds.not_inside_mark hm hne hafter)
  · exact ⟨after, rfl, rfl⟩

/-- The scanner takes a run whole, or outside all parentheses up to a marker behind four fields. -/
theorem extent_of_run {depth : Nat} {joiner : Joiner} {run text taken rest : List Char}
    {parts : List (Joiner × Tree)} (hrun : Clause.IsRun joiner run parts)
    (hpar : ∀ c ∈ run, Route.isParenthesis c = false) (hb : Bounds text)
    (hx : Scan.Extent depth taken rest) (he : run ++ text = taken ++ rest) :
    (taken = run ∧ rest = text) ∨
      ∃ (next : Joiner) (mark after : List Char), next.Marks mark ∧
        run = taken ++ (mark ++ after) ∧ rest = mark ++ (after ++ text) ∧
        (Clause.lastClause taken).count '|' = 3 := by
  obtain ⟨e, hlast, -⟩ := hrun.exists_not_blank
  rcases List.append_eq_append_iff.mp he with ⟨more, rfl, rfl⟩ | ⟨more, rfl, rfl⟩
  · by_cases hmore : more = []
    · subst more
      simp
    -- What bounds the run breaks clause text, which therefore does not go on behind the run.
    · have hne : run ≠ [] := by
        rintro rfl
        cases hlast
      have hun := hx.unbroken run more hne hmore rfl
      rw [hb.breaks (by simp [hmore])] at hun
      cases hun
  · by_cases hmore : more = []
    · subst more
      simp
    · rcases hx.ends_cases with hnil | ⟨c, tail, hc, hp⟩ | ⟨next, mark, tail, hm, hc, hbefore⟩
      · exact absurd (List.append_eq_nil_iff.mp hnil).1 hmore
      · obtain ⟨d, more, rfl⟩ := List.exists_cons_of_ne_nil hmore
        obtain ⟨rfl, -⟩ := List.cons.inj hc
        rw [hpar d (by simp)] at hp
        cases hp
      · obtain ⟨after, rfl, rfl⟩ := hb.mark_before hm hmore hc
        refine Or.inr ⟨next, mark, after, hm, rfl, by simp, ?_⟩
        rcases hbefore with hgroup | ⟨-, hbars⟩
        · obtain ⟨c, hc, hcb⟩ := hrun.exists_not_blank_after hm
          have hopen : '(' ∉ after := fun hm => absurd (hpar '(' (by simp [hm])) (by decide)
          simp [blank_of_head?_trimStart hgroup hopen c hc] at hcb
        · exact hbars

/-- What is read of a run, however the scanner cuts it. -/
theorem accepts_run {last : Nat} {level : Level} {outer : List Level} {run text : List Char}
    {parts : List (Joiner × Tree)} {tree : Tree} (hrun : Clause.IsRun level.next run parts)
    (hpar : ∀ c ∈ run, Route.isParenthesis c = false) (hb : Bounds text)
    (h : ∀ position, Accepts last position .join (level.add parts) outer text tree)
    (position : Nat) : Accepts last position .term level outer (run ++ text) tree := by
  induction hn : run.length using Nat.strong_induction_on
    generalizing position level run parts with
  | _ n ih =>
    subst hn
    obtain ⟨c, run, rfl⟩ : ∃ c more, run = c :: more := by
      obtain ⟨e, he, -⟩ := hrun.exists_not_blank
      cases run with
      | nil => cases he
      | cons c run => exact ⟨c, run, rfl⟩
    have hc := hpar c (by simp)
    generalize hw : c :: run ++ text = whole
    cases Scan.ahead outer.length whole with
    | nothing => cases hw
    | blank hblank =>
      obtain ⟨rfl, rfl⟩ := List.cons.inj hw
      have hrun' := (@Clause.isRun_blank_append [c] (by simpa using hblank) _ _ _).mp hrun
      exact (accepts_blank hblank).mpr
        (ih run.length (by simp) hrun' (fun d hd => hpar d (by simp [hd])) h _ rfl)
    | opening =>
      obtain ⟨rfl, -⟩ := List.cons.inj hw
      cases hc
    | closing =>
      obtain ⟨rfl, -⟩ := List.cons.inj hw
      cases hc
    | mark hm => exact absurd hw (hrun.append_ne_mark hm)
    | clauses hx =>
      rcases extent_of_run hrun hpar hb hx hw with
        ⟨rfl, rfl⟩ | ⟨next, mark, after, hm, he, rfl, hbars⟩
      · exact (accepts_clauses hx).mpr ⟨rfl, parts, hrun, h _⟩
      · rw [he] at hrun
        obtain ⟨before, later, hbefore, hlater, rfl⟩ :=
          (Clause.isRun_append_mark_iff hbars hm).mp hrun
        -- What is left of the run behind the marker is a shorter run with the marker's joiner.
        refine (accepts_clauses hx).mpr ⟨rfl, before, hbefore, (accepts_mark hm).mpr ⟨rfl, ?_⟩⟩
        have hlen := hm.length_pos
        refine ih after.length ?_ hlater ?_ ?_ _ rfl
        · simp only [he, List.length_append]
          omega
        · exact fun d hd => hpar d (by simp [he, hd])
        · intro place
          obtain ⟨tokens, hr, ht⟩ := h place
          refine ⟨tokens, hr, ?_⟩
          rw [← ht]
          exact readJoin_congr (by simp [Level.add]) last outer tokens

theorem Spells.accepts {turn : Turn} {level : Level} {outer : List Level} {text : List Char}
    {tree : Tree} (h : Spells turn level outer text tree) (last position : Nat) :
    Accepts last position turn level outer text tree := by
  induction h generalizing position with
  | blank hb _ ih => exact (accepts_blank hb).mpr (ih _)
  | opening _ ih => exact accepts_opening.mpr ⟨rfl, ih _⟩
  | closing _ ih => exact accepts_closing.mpr ⟨rfl, _, _, rfl, ih _⟩
  | mark hm _ ih => exact (accepts_mark hm).mpr ⟨rfl, ih _⟩
  | run hrun hpar hb _ ih => exact accepts_run hrun hpar hb ih position
  | finish => exact accepts_nil.mpr ⟨rfl, rfl, rfl⟩

theorem Spells.exists_not_blank {level : Level} {outer : List Level} {text : List Char}
    {tree : Tree} (h : Spells .term level outer text tree) : ∃ c ∈ text, isBlank c = false := by
  rcases h.term_cases with ⟨blanks, rest, rfl, -, -⟩ | ⟨run, parts, rest, rfl, hrun, -⟩
  · exact ⟨'(', by simp, by decide⟩
  · obtain ⟨c, hc, hb⟩ := hrun.exists_not_blank
    have hm := List.mem_reverse.mp ((List.takeWhile_prefix _).subset hc)
    exact ⟨c, List.mem_append_left _ hm, hb⟩

/-- A filter has a tree exactly if it spells that tree. -/
theorem ofFilter_eq_ok_iff {filter : List Char} {tree : Tree} :
    ofFilter filter = .ok tree ↔ Spells .term .start [] filter tree := by
  constructor
  · intro h
    obtain ⟨tokens, ht, hr⟩ := bind_eq_ok_iff.mp h
    unfold tokenize at ht
    split at ht
    · cases ht
    · exact Accepts.spells ⟨tokens, ht, hr⟩
  · intro h
    obtain ⟨c, hc, hb⟩ := h.exists_not_blank
    have hall : filter.all isBlank = false := List.all_eq_false.mpr ⟨c, hc, by simp [hb]⟩
    obtain ⟨tokens, ht, -⟩ := h.accepts 0 0
    obtain ⟨tokens', ht', hr⟩ := h.accepts ((tokens.getLast?.map Placed.position).getD 0) 0
    obtain rfl : tokens = tokens' := Except.ok.inj (ht.symm.trans ht')
    refine bind_eq_ok_iff.mpr ⟨tokens, ?_, hr⟩
    simp only [tokenize, hall, Bool.false_eq_true, if_false]
    exact ht

end ModelQuery.Tree
