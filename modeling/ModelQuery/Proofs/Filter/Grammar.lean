import ModelQuery.Proofs.Filter.Spelling

/-! The grammar of tokens, told by derivations instead of by the reader. The reader takes the tokens
of exactly those derivations whose clauses all have their four fields, and builds the tree that the
derivation determines. It gives each part its joiner while it reads; a derivation keeps the children
of a group and the joiners between them in two lists and has them counted against each other. -/

namespace ModelQuery

namespace Grammar

mutual

/-- Terms with a marker between any two. -/
inductive Expression
  | one (term : Term)
  | joined (term : Term) (joiner : Joiner) (rest : Expression)

/-- A run of clause text, or an expression in parentheses. -/
inductive Term
  | run (text : String)
  | enclosed (inner : Expression)

end

/-- The clause that a stretch of text between two semicolons spells. -/
def clauseOf (piece : List Char) : Clause :=
  let field := fun i => String.ofList ((Clause.fields piece).getD i [])
  ⟨field 0, field 1, field 2, field 3⟩

/-- The joiner behind a clause, by its fifth field. -/
def joinerOf (piece : List Char) : Joiner :=
  Joiner.ofField ((Clause.fields piece).getD 4 [])

/-- The clauses of a run, each as a tree of its own. -/
def leaves (text : String) : List Tree :=
  (Text.pieces ';' text.toList).map fun piece => .leaf (clauseOf piece)

/-- The joiners between the clauses of a run; behind the last clause none is needed. -/
def joiners (text : String) : List Joiner :=
  ((Text.pieces ';' text.toList).map joinerOf).dropLast

/-- The tree of children side by side: a child alone stands for itself. -/
def treeOf : List Tree → List Joiner → Except Fault Tree
  | [tree], [] => .ok tree
  | children, joiners => Tree.ofChildren children joiners

mutual

def Expression.tokens : Expression → List Token
  | .one term => term.tokens
  | .joined term joiner rest => term.tokens ++ .joiner joiner :: rest.tokens

def Term.tokens : Term → List Token
  | .run text => [.clauses text]
  | .enclosed inner => .opening :: (inner.tokens ++ [.closing])

end

mutual

/-- Every clause has at least four fields. -/
def Expression.Complete : Expression → Prop
  | .one term => term.Complete
  | .joined term _ rest => term.Complete ∧ rest.Complete

def Term.Complete : Term → Prop
  | .run text => ∀ piece ∈ Text.pieces ';' text.toList, 4 ≤ (Clause.fields piece).length
  | .enclosed inner => inner.Complete

end

mutual

/-- What an expression puts side by side, with the joiners between. The clauses of a run count one
by one and what stands in parentheses counts as one. -/
def Expression.parts : Expression → Except Fault (List Tree × List Joiner)
  | .one term => term.parts
  | .joined term joiner rest => do
    let (children, between) ← term.parts
    let (later, behind) ← rest.parts
    return (children ++ later, between ++ joiner :: behind)

def Term.parts : Term → Except Fault (List Tree × List Joiner)
  | .run text => .ok (leaves text, joiners text)
  | .enclosed inner => do
    let (children, between) ← inner.parts
    return ([(← treeOf children between).enclose], [])

end

/-- The tree that a derivation determines. -/
def Expression.tree (expression : Expression) : Except Fault Tree := do
  let (children, between) ← expression.parts
  treeOf children between

/-- The tokens that count: those before the first `finish`. -/
def sentence (tokens : List Placed) : List Token :=
  (tokens.map Placed.token).takeWhile (· ≠ .finish)

/-- Children with their joiners in front, the first with `next`. -/
def row (next : Joiner) (parts : List Tree × List Joiner) : List (Joiner × Tree) :=
  (next :: parts.2).zip parts.1

/-- There is a joiner between any two children, so that children and joiners stay in step. -/
def InStep (parts : List Tree × List Joiner) : Prop :=
  parts.2.length + 1 = parts.1.length

theorem InStep.joined {parts later : List Tree × List Joiner} (h : InStep parts)
    (hl : InStep later) (joiner : Joiner) :
    InStep (parts.1 ++ later.1, parts.2 ++ joiner :: later.2) := by
  simp only [InStep, List.length_append, List.length_cons] at h hl ⊢
  omega

theorem InStep.row_joined {parts : List Tree × List Joiner} (h : InStep parts)
    (later : List Tree × List Joiner) (next joiner : Joiner) :
    row next (parts.1 ++ later.1, parts.2 ++ joiner :: later.2) =
      row next parts ++ row joiner later := by
  rw [row, row, row, ← List.zip_append (by simpa [InStep] using h), List.cons_append]

/-- The count of joiners is never found wrong. -/
theorem InStep.treeOf_eq {parts : List Tree × List Joiner} (h : InStep parts) (next : Joiner) :
    treeOf parts.1 parts.2 = .ok (Tree.ofParts (row next parts)) := by
  obtain ⟨children, joiners⟩ := parts
  cases children with
  | nil => cases h
  | cons first rest =>
    have hlen : joiners.length = rest.length := Nat.succ.inj h
    cases rest with
    | nil =>
      obtain rfl : joiners = [] := List.eq_nil_of_length_eq_zero hlen
      rfl
    | cons second rest =>
      obtain ⟨joiner, joiners, rfl⟩ := List.exists_cons_of_length_eq_add_one hlen
      simp only [treeOf, Tree.ofChildren, hlen, if_true]
      rfl

theorem read_eq {piece : List Char} (h : 4 ≤ (Clause.fields piece).length) (position : Nat) :
    Clause.read piece position = .ok (clauseOf piece, joinerOf piece) := by
  match hf : Clause.fields piece with
  | category :: property :: operator :: value :: more =>
    simp only [Clause.read, clauseOf, joinerOf, hf]
    cases more <;> rfl
  | [] | [_] | [_, _] | [_, _, _] => simp [hf] at h

theorem complete_of_read {piece : List Char} {position : Nat} {found : Clause × Joiner}
    (h : Clause.read piece position = .ok found) : 4 ≤ (Clause.fields piece).length := by
  unfold Clause.read at h
  split at h
  · next hf => simp [hf]
  · cases h

theorem readAll_eq {pieces : List (List Char)}
    (h : ∀ piece ∈ pieces, 4 ≤ (Clause.fields piece).length) (next : Joiner) (position : Nat) :
    Clause.readAll next position pieces = .ok ((next :: pieces.map joinerOf).zip
      (pieces.map fun piece => .leaf (clauseOf piece))) := by
  induction pieces generalizing next position with
  | nil => rfl
  | cons piece pieces ih =>
    obtain ⟨hpiece, hpieces⟩ := List.forall_mem_cons.mp h
    simp only [Clause.readAll, read_eq hpiece, ok_bind, ih hpieces]
    rfl

theorem complete_of_readAll {pieces : List (List Char)} {next : Joiner} {position : Nat}
    {parts : List (Joiner × Tree)} (h : Clause.readAll next position pieces = .ok parts) :
    ∀ piece ∈ pieces, 4 ≤ (Clause.fields piece).length := by
  induction pieces generalizing next position parts with
  | nil => simp
  | cons piece pieces ih =>
    obtain ⟨found, hf, hl⟩ := bind_eq_ok_iff.mp h
    obtain ⟨later, hl, -⟩ := bind_eq_ok_iff.mp hl
    exact List.forall_mem_cons.mpr ⟨complete_of_read hf, ih hl⟩

theorem inStep_run (text : String) : InStep (leaves text, joiners text) := by
  have hpos := List.length_pos_iff.mpr (Text.pieces_ne_nil ';' text.toList)
  simp only [InStep, leaves, joiners, List.length_dropLast, List.length_map]
  omega

theorem zip_concat {α β : Type} {as : List α} {bs : List β} (h : as.length = bs.length) (a : α) :
    (as ++ [a]).zip bs = as.zip bs := by
  simpa using @List.zip_append _ _ as [a] bs [] h

/-- The reader finds the clauses of a run, and the joiners between them, at their places. -/
theorem readRun_eq {text : String} (h : (Term.run text).Complete) (next : Joiner)
    (position : Nat) :
    Clause.readRun next position text.toList = .ok (row next (leaves text, joiners text)) := by
  have hlen : (next :: joiners text).length = (leaves text).length := inStep_run text
  have hne : (Text.pieces ';' text.toList).map joinerOf ≠ [] := by simp [Text.pieces_ne_nil]
  rw [Clause.readRun, readAll_eq h, ← List.dropLast_append_getLast hne, ← List.cons_append]
  exact congrArg _ (zip_concat hlen _)

/-- However it is placed, a list of tokens is read as these parts of the level that it stands in. -/
def Reads (tokens : List Token) (parts : List Tree × List Joiner) : Prop :=
  ∀ (last : Nat) (level : Tree.Level) (outer : List Tree.Level) (placed rest : List Placed),
    placed.map Placed.token = tokens → Tree.readTerm last level outer (placed ++ rest) =
      Tree.readJoin last (level.add (row level.next parts)) outer rest

theorem reads_run {text : String} (h : (Term.run text).Complete) :
    Reads (Term.run text).tokens (leaves text, joiners text) := by
  intro last level outer placed rest hp
  obtain ⟨⟨token, position⟩, rfl, ht⟩ := List.map_eq_singleton_iff.mp hp
  obtain rfl : token = .clauses text := ht
  rw [List.singleton_append, Tree.readTerm, readRun_eq h, ok_bind]

theorem Reads.enclosed {inner : Expression} {parts : List Tree × List Joiner} {tree : Tree}
    (h : Reads inner.tokens parts) (hs : InStep parts) (ht : treeOf parts.1 parts.2 = .ok tree) :
    Reads (Term.enclosed inner).tokens ([tree.enclose], []) := by
  intro last level outer placed rest hp
  obtain ⟨⟨first, start⟩, within, rfl, hf, hw⟩ := List.map_eq_cons_iff.mp hp
  obtain ⟨placed, behind, rfl, hi, hb⟩ := List.map_eq_append_iff.mp hw
  obtain ⟨⟨final, stop⟩, rfl, hl⟩ := List.map_eq_singleton_iff.mp hb
  obtain rfl : first = .opening := hf
  obtain rfl : final = .closing := hl
  obtain rfl : tree = Tree.ofParts (row .blank parts) :=
    Except.ok.inj (ht.symm.trans (hs.treeOf_eq .blank))
  rw [List.cons_append, List.append_assoc, Tree.readTerm, h _ _ _ placed _ hi,
    List.singleton_append, Tree.readJoin]
  simp [Tree.Level.addEnclosed, Tree.Level.tree, Tree.Level.add, Tree.Level.start, row]

theorem Reads.joined {tokens tokens' : List Token} {parts later : List Tree × List Joiner}
    (h : Reads tokens parts) (hl : Reads tokens' later) (hs : InStep parts) (joiner : Joiner) :
    Reads (tokens ++ .joiner joiner :: tokens')
      (parts.1 ++ later.1, parts.2 ++ joiner :: later.2) := by
  intro last level outer placed rest hp
  obtain ⟨before, marked, rfl, hb, hm⟩ := List.map_eq_append_iff.mp hp
  obtain ⟨⟨mark, position⟩, behind, rfl, hmark, hbehind⟩ := List.map_eq_cons_iff.mp hm
  obtain rfl : mark = .joiner joiner := hmark
  rw [List.append_assoc, h _ _ _ before _ hb, List.cons_append, Tree.readJoin,
    hl _ _ _ behind _ hbehind, hs.row_joined]
  -- The two levels differ in the joiner for the next part, which is not asked for after a term.
  exact Tree.readJoin_congr (by simp [Tree.Level.add]) last outer rest

mutual

theorem Expression.reads : ∀ expression : Expression, expression.Complete →
    ∃ parts, expression.parts = .ok parts ∧ InStep parts ∧ Reads expression.tokens parts
  | .one term, h => term.reads h
  | .joined term joiner rest, h => by
    obtain ⟨parts, hp, hs, hr⟩ := term.reads h.1
    obtain ⟨later, hp', hs', hr'⟩ := rest.reads h.2
    refine ⟨_, ?_, hs.joined hs' joiner, hr.joined hr' hs joiner⟩
    rw [Expression.parts, hp, hp']
    rfl

theorem Term.reads : ∀ term : Term, term.Complete →
    ∃ parts, term.parts = .ok parts ∧ InStep parts ∧ Reads term.tokens parts
  | .run text, h => ⟨_, rfl, inStep_run text, reads_run h⟩
  | .enclosed inner, h => by
    obtain ⟨parts, hp, hs, hr⟩ := inner.reads h
    have ht := hs.treeOf_eq .blank
    refine ⟨_, ?_, ?_, hr.enclosed hs ht⟩
    · simp only [Term.parts, hp, ok_bind, ht]
      rfl
    · rfl

end

theorem Term.tokens_ne_nil (term : Term) : term.tokens ≠ [] := by
  cases term <;> simp [Term.tokens]

/-- The first tokens spell an expression that is as long as it can be. -/
def Begins (placed : List Placed) : Prop :=
  ∃ (expression : Expression) (before rest : List Placed), placed = before ++ rest ∧
    before.map Placed.token = expression.tokens ∧ expression.Complete ∧
      ∀ next ∈ rest.head?, ∀ joiner, next.token ≠ .joiner joiner

section Sound

variable {last : Nat} {level : Tree.Level} {outer : List Tree.Level} {tree : Tree}

/-- If the reader got past the closing parenthesis of what stands in parentheses, then it is a
term. -/
theorem Begins.exists_enclosed {position : Nat} {placed : List Placed} (h : Begins placed)
    (hr : Tree.readTerm last .start (level :: outer) placed = .ok tree) :
    ∃ (term : Term) (before rest : List Placed) (level' : Tree.Level),
      ⟨.opening, position⟩ :: placed = before ++ rest ∧ before.map Placed.token = term.tokens ∧
        term.Complete ∧ Tree.readJoin last level' outer rest = .ok tree := by
  obtain ⟨inner, before, rest, rfl, hb, hc, hend⟩ := h
  obtain ⟨parts, -, -, hreads⟩ := inner.reads hc
  rw [hreads _ _ _ before _ hb] at hr
  cases rest with
  | nil => cases hr
  | cons next rest =>
    obtain ⟨token, place⟩ := next
    cases token with
    | closing =>
      rw [Tree.readJoin] at hr
      exact ⟨.enclosed inner, ⟨.opening, position⟩ :: (before ++ [⟨.closing, place⟩]), rest, _,
        by simp, by simp [Term.tokens, hb], hc, hr⟩
    | joiner joiner => exact absurd rfl (hend _ rfl joiner)
    | clauses text => cases hr
    | opening => cases hr
    | finish => cases hr

theorem exists_term {placed : List Placed}
    (ih : ∀ {level outer} {later : List Placed}, later.length < placed.length →
      Tree.readTerm last level outer later = .ok tree → Begins later)
    (h : Tree.readTerm last level outer placed = .ok tree) :
    ∃ (term : Term) (before rest : List Placed) (level' : Tree.Level), placed = before ++ rest ∧
      before.map Placed.token = term.tokens ∧ term.Complete ∧
        Tree.readJoin last level' outer rest = .ok tree := by
  cases placed with
  | nil => cases h
  | cons next placed =>
    obtain ⟨token, position⟩ := next
    cases token with
    | clauses text =>
      obtain ⟨parts, hp, hr⟩ := bind_eq_ok_iff.mp h
      exact ⟨.run text, [⟨.clauses text, position⟩], placed, _, rfl, rfl,
        complete_of_readAll hp, hr⟩
    | opening =>
      have hr : Tree.readTerm last .start (level :: outer) placed = .ok tree := h
      exact (ih (by simp) hr).exists_enclosed hr
    | joiner joiner => cases h
    | closing => cases h
    | finish => cases h

/-- What the reader takes begins with an expression. -/
theorem begins_of_readTerm {placed : List Placed}
    (h : Tree.readTerm last level outer placed = .ok tree) : Begins placed := by
  induction hn : placed.length using Nat.strong_induction_on generalizing level outer placed with
  | _ n ih =>
    subst hn
    obtain ⟨term, before, rest, level', rfl, hb, hc, hr⟩ := exists_term
      (fun hlt hl => ih _ hlt hl rfl) h
    by_cases hend : ∀ next ∈ rest.head?, ∀ joiner, next.token ≠ .joiner joiner
    · exact ⟨.one term, before, rest, rfl, hb, hc, hend⟩
    -- Behind a marker the reader goes on with a term, and there is an expression by induction.
    · push Not at hend
      obtain ⟨⟨token, position⟩, hnext, joiner, rfl⟩ := hend
      obtain ⟨rest, rfl⟩ := List.head?_eq_some_iff.mp hnext
      have hpos : 0 < before.length := by
        rw [← List.length_map, hb]
        exact List.length_pos_iff.mpr term.tokens_ne_nil
      rw [Tree.readJoin] at hr
      obtain ⟨later, taken, rest, rfl, ht, hc', hend⟩ :=
        ih rest.length (by simp only [List.length_append, List.length_cons]; omega) hr rfl
      exact ⟨.joined term joiner later, before ++ ⟨.joiner joiner, position⟩ :: taken, rest,
        by simp, by simp [Expression.tokens, hb, ht], ⟨hc, hc'⟩, hend⟩

end Sound

mutual

theorem Expression.finish_not_mem : ∀ expression : Expression, .finish ∉ expression.tokens
  | .one term => term.finish_not_mem
  | .joined term _ rest => by
    simp [Expression.tokens, term.finish_not_mem, rest.finish_not_mem]

theorem Term.finish_not_mem : ∀ term : Term, .finish ∉ term.tokens
  | .run _ => by simp [Term.tokens]
  | .enclosed inner => by simp [Term.tokens, inner.finish_not_mem]

end

/-- Tokens end at `finish`, or where there are no more. -/
def IsEnd (rest : List Placed) : Prop :=
  ∀ next ∈ rest.head?, next.token = .finish

theorem exists_sentence (tokens : List Placed) : ∃ before rest, tokens = before ++ rest ∧
    before.map Placed.token = sentence tokens ∧ IsEnd rest := by
  refine ⟨tokens.takeWhile (·.token ≠ .finish), tokens.dropWhile (·.token ≠ .finish),
    List.takeWhile_append_dropWhile.symm, ?_, ?_⟩
  · rw [sentence, List.takeWhile_map]
    rfl
  · intro next hn
    have hd := List.head?_dropWhile_not (fun p : Placed => decide (p.token ≠ .finish)) tokens
    rw [hn] at hd
    simpa using hd

theorem sentence_append {before rest : List Placed} (h : .finish ∉ before.map Placed.token)
    (he : IsEnd rest) : sentence (before ++ rest) = before.map Placed.token := by
  rw [sentence, List.map_append, List.takeWhile_append_of_pos]
  · cases rest with
    | nil => simp
    | cons next rest => simp [he next rfl]
  · intro token ht
    simpa using fun hf : token = .finish => h (hf ▸ ht)

theorem readJoin_end {rest : List Placed} (h : IsEnd rest) (last : Nat) (level : Tree.Level) :
    Tree.readJoin last level [] rest = .ok level.tree := by
  cases rest with
  | nil => rfl
  | cons next rest =>
    obtain ⟨token, position⟩ := next
    obtain rfl : token = .finish := h _ rfl
    rfl

theorem isEnd_of_readJoin {last : Nat} {level : Tree.Level} {rest : List Placed} {tree : Tree}
    (hjoin : ∀ next ∈ rest.head?, ∀ joiner, next.token ≠ .joiner joiner)
    (h : Tree.readJoin last level [] rest = .ok tree) : IsEnd rest := by
  rintro ⟨token, position⟩ hn
  obtain ⟨rest, rfl⟩ := List.head?_eq_some_iff.mp hn
  cases token with
  | finish => rfl
  | joiner joiner => exact absurd rfl (hjoin _ rfl joiner)
  | clauses text => cases h
  | opening => cases h
  | closing => cases h

/-- A derivation of the sentence with all its fields is read, and its tree is the outcome. -/
theorem Expression.ofTokens_eq {expression : Expression} {tokens : List Placed}
    (ht : expression.tokens = sentence tokens) (hc : expression.Complete) :
    ∃ tree, expression.tree = .ok tree ∧ Tree.ofTokens tokens = .ok tree := by
  obtain ⟨before, rest, he, hb, hend⟩ := exists_sentence tokens
  obtain ⟨parts, hp, hs, hr⟩ := expression.reads hc
  refine ⟨Tree.ofParts (row .blank parts), ?_, ?_⟩
  · simp only [Expression.tree, hp, ok_bind, hs.treeOf_eq .blank]
  · rw [Tree.ofTokens]
    generalize (tokens.getLast?.map Placed.position).getD 0 = last
    rw [he, hr _ _ _ before _ (hb.trans ht.symm), readJoin_end hend]
    simp [Tree.Level.tree, Tree.Level.add, Tree.Level.start]

/-- What the reader takes is a sentence: it stops where an expression is over, and all that it lets
stand there is the end. -/
theorem exists_expression {tokens : List Placed} {tree : Tree}
    (h : Tree.ofTokens tokens = .ok tree) :
    ∃ expression : Expression, expression.tokens = sentence tokens ∧ expression.Complete := by
  obtain ⟨expression, before, rest, rfl, hb, hc, hjoin⟩ := begins_of_readTerm h
  obtain ⟨parts, -, -, hr⟩ := expression.reads hc
  rw [Tree.ofTokens, hr _ _ _ before _ hb] at h
  refine ⟨expression, ?_, hc⟩
  rw [sentence_append (hb ▸ expression.finish_not_mem) (isEnd_of_readJoin hjoin h), hb]

end Grammar

/-- The reader takes exactly the sentences of the grammar whose clauses have all their fields, and
the outcome is the tree that the derivation determines. -/
theorem ofTokens_sentence (tokens : List Placed) :
    ((∃ tree, Tree.ofTokens tokens = .ok tree) ↔
      ∃ derivation : Grammar.Expression,
        derivation.tokens = Grammar.sentence tokens ∧ derivation.Complete) ∧
    ∀ derivation : Grammar.Expression, derivation.tokens = Grammar.sentence tokens →
      derivation.Complete → Tree.ofTokens tokens = derivation.tree := by
  refine ⟨⟨fun ⟨tree, h⟩ => Grammar.exists_expression h, fun ⟨derivation, ht, hc⟩ => ?_⟩,
    fun derivation ht hc => ?_⟩
  · obtain ⟨tree, -, h⟩ := derivation.ofTokens_eq ht hc
    exact ⟨tree, h⟩
  · obtain ⟨tree, hd, h⟩ := derivation.ofTokens_eq ht hc
    rw [hd, h]

/-- A blank joiner joins like any other, and what comes behind the end does not matter. -/
example : Tree.ofTokens [⟨.clauses "a|b|c|d", 0⟩, ⟨.joiner .blank, 7⟩, ⟨.opening, 8⟩,
      ⟨.clauses "e|f|g|h", 9⟩, ⟨.closing, 16⟩, ⟨.finish, 17⟩, ⟨.closing, 18⟩] =
    .ok (.group (.leaf ⟨"a", "b", "c", "d"⟩)
      [(.blank, .group (.leaf ⟨"e", "f", "g", "h"⟩) [])]) := by
  rfl

end ModelQuery
