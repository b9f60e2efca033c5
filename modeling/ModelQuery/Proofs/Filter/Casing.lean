import ModelQuery.Filter.Compile
import ModelQuery.Proofs.Outcome
import ModelQuery.Proofs.Text.Casing

/-! Filters without regard to the case of the letters `A` to `Z`. When a filter is lowered, then so
is what its tokens, its clauses and its faults quote of it, and nothing else changes. -/

namespace ModelQuery

namespace Text

/-- `asciiLower` on strings. -/
def lowered (s : String) : String :=
  String.ofList (asciiLower s.toList)

@[simp] theorem toList_lowered (s : String) : (lowered s).toList = asciiLower s.toList := by
  simp [lowered]

@[simp] theorem lowered_ofList (cs : List Char) :
    lowered (String.ofList cs) = String.ofList (asciiLower cs) := by
  simp [lowered]

end Text

open Text

namespace Joiner

theorem ofLetters?_asciiLower (letters : List Char) :
    ofLetters? (asciiLower letters) = ofLetters? letters := by
  simp only [ofLetters?, asciiLower_sameLetters]

theorem ofField_asciiLower (field : List Char) : ofField (asciiLower field) = ofField field := by
  simp only [ofField, ofKeyword?, trim_asciiLower, ofLetters?_asciiLower]

end Joiner

def Clause.lowered (c : Clause) : Clause :=
  ⟨Text.lowered c.category, Text.lowered c.property, Text.lowered c.operator, Text.lowered c.value⟩

def Token.lowered : Token → Token
  | clauses text => clauses (Text.lowered text)
  | joiner j => joiner j
  | opening => opening
  | closing => closing
  | finish => finish

def Placed.lowered (placed : Placed) : Placed :=
  ⟨placed.token.lowered, placed.position⟩

/-- Lowers what a mismatch quotes of a clause. The names that a resolver knows stay as they are. -/
def Mismatch.lowered : Mismatch → Mismatch
  | unknownCategory category suggestion => unknownCategory (Text.lowered category) suggestion
  | unknownProperty category property suggestion =>
    unknownProperty category (Text.lowered property) suggestion
  | invalidValue property value expected => invalidValue property (Text.lowered value) expected
  | unsupportedComparison property operator => unsupportedComparison property operator

def Fault.lowered : Fault → Fault
  | blank => blank
  | unclosed missing => unclosed missing
  | unopened position => unopened position
  | blankClauses position => blankClauses position
  | unexpected token position => unexpected token.lowered position
  | shortClause text position fields => shortClause (Text.lowered text) position fields
  | trailing token position => trailing token.lowered position
  | emptyGroup => emptyGroup
  | joinerCount children joiners => joinerCount children joiners
  | unresolved clause cause => unresolved clause.lowered cause.lowered

namespace Scan

theorem marker?_asciiLower (cs : List Char) : marker? (asciiLower cs) = marker? cs := by
  cases cs with
  | nil => rfl
  | cons c cs =>
    by_cases hc : c = '|'
    · subst hc
      have hbar : asciiLower ('|' :: cs) = '|' :: asciiLower cs := rfl
      have hend : ∀ n, ((asciiLower cs).drop n).head? = some ';' ↔ (cs.drop n).head? = some ';' := by
        intro n
        rw [drop_asciiLower, head?_asciiLower_iff (by decide)]
      simp only [hbar, marker?, caseless_isAlpha.takeWhile, length_asciiLower, hend,
        Joiner.ofLetters?_asciiLower]
    · have hlow : c.toLower ≠ '|' := mt (toLower_eq_iff (by decide)).mp hc
      simp only [asciiLower_cons]
      rw [marker?.eq_def, marker?.eq_def]
      simp [hc, hlow]

theorem endsBefore_asciiLower (depth : Nat) (read afterMarker : List Char) :
    endsBefore depth (asciiLower read) (asciiLower afterMarker) =
      endsBefore depth read afterMarker := by
  have hopens : ((trimStart (asciiLower afterMarker)).head? == some '(') =
      ((trimStart afterMarker).head? == some '(') := by
    rw [Bool.eq_iff_iff, beq_iff_eq, beq_iff_eq, trimStart_asciiLower,
      head?_asciiLower_iff (by decide)]
  have hclause : Caseless fun c => c ≠ ';' := by
    intro c
    simp [toLower_eq_iff (show (';' : Char).isAlpha = false by decide)]
  have hbars : ((asciiLower read).takeWhile fun c => c ≠ ';').count '|' =
      (read.takeWhile fun c => c ≠ ';').count '|' := by
    rw [hclause.takeWhile, count_asciiLower (by decide)]
  simp only [endsBefore, caseless_isBlank.all, hopens, hbars]

theorem breaks_cons {c : Char} (hc : ¬(c = '(' ∨ c = ')')) (depth : Nat) (read rest : List Char) :
    breaks depth read (c :: rest) =
      match marker? (c :: rest) with
      | some (_, length) => endsBefore depth read ((c :: rest).drop length)
      | none => false := by
  unfold breaks
  split
  · next he => exact absurd (Or.inl (List.cons.inj he).1) hc
  · next he => exact absurd (Or.inr (List.cons.inj he).1) hc
  · rfl

theorem breaks_asciiLower (depth : Nat) (read next : List Char) :
    breaks depth (asciiLower read) (asciiLower next) = breaks depth read next := by
  cases next with
  | nil => rfl
  | cons c rest =>
    by_cases hp : c = '(' ∨ c = ')'
    · rcases hp with rfl | rfl <;> rfl
    · have hlow : ¬(c.toLower = '(' ∨ c.toLower = ')') := by
        rwa [toLower_eq_iff (by decide), toLower_eq_iff (by decide)]
      rw [asciiLower_cons, breaks_cons hp, breaks_cons hlow, ← asciiLower_cons, marker?_asciiLower]
      cases marker? (c :: rest) with
      | none => rfl
      | some found => simp only [drop_asciiLower, endsBefore_asciiLower]

theorem textToken_asciiLower (start : Nat) (read : List Char) :
    textToken start (asciiLower read) =
      bimap Fault.lowered Placed.lowered (textToken start read) := by
  have hempty : (asciiLower (trim read.reverse)).isEmpty = (trim read.reverse).isEmpty := by
    cases trim read.reverse <;> rfl
  simp only [textToken, ← asciiLower_reverse, trim_asciiLower, hempty]
  split
  · rfl
  · simp [bimap, Placed.lowered, Token.lowered]

def Place.lowered : Place → Place
  | gap => gap
  | marker left => marker left
  | text start read => text start (asciiLower read)

def State.lowered (state : State) : State :=
  ⟨state.depth, state.place.lowered⟩

/-- Lowers the outcome of a step. -/
def lowerStep : Except Fault (List Placed × State) → Except Fault (List Placed × State) :=
  bimap Fault.lowered fun (tokens, next) => (tokens.map Placed.lowered, next.lowered)

theorem begin_toLower (depth position : Nat) (c : Char) (rest : List Char) :
    begin depth position c.toLower (asciiLower rest) =
      lowerStep (begin depth position c rest) := by
  have hmark := marker?_asciiLower (c :: rest)
  rw [asciiLower_cons] at hmark
  simp only [begin, toLower_eq_iff (show ('(' : Char).isAlpha = false by decide),
    toLower_eq_iff (show (')' : Char).isAlpha = false by decide), caseless_isBlank c, hmark]
  split
  · rfl
  · split
    · split <;> rfl
    · split
      · rfl
      · split <;> rfl

/-- A step over a lowered character is the step over the character, lowered. -/
theorem step_lowered (state : State) (position : Nat) (c : Char) (rest : List Char) :
    step state.lowered position c.toLower (asciiLower rest) =
      lowerStep (step state position c rest) := by
  obtain ⟨depth, place⟩ := state
  match place with
  | .gap => exact begin_toLower depth position c rest
  | .marker 0 | .marker 1 | .marker (left + 2) => rfl
  | .text start read =>
    have hbreaks := breaks_asciiLower depth read (c :: rest)
    rw [asciiLower_cons] at hbreaks
    simp only [step, State.lowered, Place.lowered, hbreaks]
    split
    · rw [textToken_asciiLower, begin_toLower]
      refine bind_bimap (fun token => ?_) _
      refine bind_bimap (fun _ => ?_) _
      rfl
    · rfl

theorem close_lowered (state : State) (position : Nat) :
    close state.lowered position =
      bimap Fault.lowered (List.map Placed.lowered) (close state position) := by
  obtain ⟨depth, place⟩ := state
  have hpending : place.lowered.pending =
      bimap Fault.lowered (List.map Placed.lowered) place.pending := by
    cases place with
    | gap => rfl
    | marker left => rfl
    | text start read =>
      simp only [Place.lowered, Place.pending, textToken_asciiLower]
      refine bind_bimap (fun _ => ?_) _
      rfl
  simp only [close, State.lowered, hpending]
  refine bind_bimap (fun tokens => ?_) _
  by_cases hdepth : depth > 0
  · simp [hdepth, bimap, Fault.lowered]
  · simp [hdepth, bimap, Placed.lowered, Token.lowered]

theorem run_lowered (state : State) (position : Nat) (cs : List Char) :
    run state.lowered position (asciiLower cs) =
      bimap Fault.lowered (List.map Placed.lowered) (run state position cs) := by
  induction cs generalizing state position with
  | nil => exact close_lowered state position
  | cons c rest ih =>
    simp only [asciiLower_cons, run, step_lowered]
    refine bind_bimap (fun result => ?_) _
    rw [ih]
    exact bind_bimap (fun later => by simp [bimap]) _

end Scan

theorem tokenize_asciiLower (filter : List Char) :
    tokenize (asciiLower filter) =
      bimap Fault.lowered (List.map Placed.lowered) (tokenize filter) := by
  simp only [tokenize, caseless_isBlank.all]
  split
  · rfl
  · exact Scan.run_lowered ⟨0, .gap⟩ 0 filter

/-! ### Reading the tree -/

namespace Tree

mutual

def lowered : Tree → Tree
  | leaf clause => leaf clause.lowered
  | empty => empty
  | group first rest => group first.lowered (loweredAll rest)

def loweredAll : List (Joiner × Tree) → List (Joiner × Tree)
  | [] => []
  | (joiner, tree) :: rest => (joiner, tree.lowered) :: loweredAll rest

end

theorem loweredAll_eq_map (parts : List (Joiner × Tree)) :
    loweredAll parts = parts.map fun part => (part.1, part.2.lowered) := by
  induction parts with
  | nil => rfl
  | cons part parts ih => rw [loweredAll, ih, List.map_cons]

theorem ofParts_loweredAll (parts : List (Joiner × Tree)) :
    ofParts (loweredAll parts) = (ofParts parts).lowered := by
  match parts with
  | [] | [_] | _ :: _ :: _ => rfl

theorem enclose_lowered (tree : Tree) : tree.lowered.enclose = tree.enclose.lowered := by
  cases tree <;> rfl

end Tree

namespace Clause

theorem fields_asciiLower (text : List Char) :
    fields (asciiLower text) = (fields text).map asciiLower := by
  simp only [fields, caseless_isBlank.all]
  split
  · rfl
  · rw [pieces_asciiLower (by decide), List.map_map, List.map_map]
    congr 1
    funext piece
    exact trim_asciiLower piece

theorem read_asciiLower (text : List Char) (position : Nat) :
    read (asciiLower text) position =
      bimap Fault.lowered (fun (clause, next) => (clause.lowered, next)) (read text position) := by
  simp only [read, fields_asciiLower]
  match fields text with
  | category :: property :: operator :: value :: more =>
    simp only [List.map_cons, bimap, Clause.lowered, lowered_ofList, List.head?_map,
      Option.map_map]
    congr 3
    cases more.head? with
    | none => rfl
    | some field => exact congrArg some (Joiner.ofField_asciiLower field)
  | [] | [_] | [_, _] | [_, _, _] => simp [bimap, Fault.lowered]

theorem readAll_asciiLower (joiner : Joiner) (position : Nat) (texts : List (List Char)) :
    readAll joiner position (texts.map asciiLower) =
      bimap Fault.lowered Tree.loweredAll (readAll joiner position texts) := by
  induction texts generalizing joiner position with
  | nil => rfl
  | cons text rest ih =>
    simp only [List.map_cons, readAll, leadingBlanks_asciiLower, read_asciiLower, length_asciiLower]
    refine bind_bimap (fun result => ?_) _
    rw [ih]
    refine bind_bimap (fun _ => ?_) _
    rfl

theorem readRun_asciiLower (joiner : Joiner) (position : Nat) (text : List Char) :
    readRun joiner position (asciiLower text) =
      bimap Fault.lowered Tree.loweredAll (readRun joiner position text) := by
  rw [readRun, pieces_asciiLower (by decide), readAll_asciiLower, readRun]

end Clause

namespace Tree

def Level.lowered (level : Level) : Level :=
  ⟨loweredAll level.parts, level.next⟩

theorem Level.tree_lowered (level : Level) : level.lowered.tree = level.tree.lowered := by
  rw [tree, tree, ← ofParts_loweredAll, Level.lowered, loweredAll_eq_map, loweredAll_eq_map,
    List.map_reverse]

theorem Level.add_lowered (level : Level) (parts : List (Joiner × Tree)) :
    level.lowered.add (loweredAll parts) = (level.add parts).lowered := by
  simp [Level.add, Level.lowered, loweredAll_eq_map]

theorem Level.addEnclosed_lowered (level inner : Level) :
    level.lowered.addEnclosed inner.lowered = (level.addEnclosed inner).lowered := by
  rw [addEnclosed, addEnclosed, ← add_lowered, tree_lowered, enclose_lowered]
  rfl

/-- Reading on from lowered tokens at lowered levels gives the lowered tree, wherever the reader
stands. -/
theorem reads_lowered (last : Nat) (tokens : List Placed) (level : Level) (outer : List Level) :
    readTerm last level.lowered (outer.map Level.lowered) (tokens.map Placed.lowered) =
        bimap Fault.lowered lowered (readTerm last level outer tokens) ∧
      readJoin last level.lowered (outer.map Level.lowered) (tokens.map Placed.lowered) =
        bimap Fault.lowered lowered (readJoin last level outer tokens) := by
  induction tokens generalizing level outer with
  | nil =>
    refine ⟨rfl, ?_⟩
    cases outer with
    | nil => simp [readJoin, bimap, Level.tree_lowered]
    | cons around outer => rfl
  | cons placed tokens ih =>
    obtain ⟨token, position⟩ := placed
    constructor
    · cases token with
      | opening => exact (ih .start (level :: outer)).1
      | clauses text =>
        simp only [List.map_cons, Placed.lowered, Token.lowered, readTerm, toList_lowered]
        rw [show level.lowered.next = level.next from rfl, Clause.readRun_asciiLower]
        refine bind_bimap (fun parts => ?_) _
        rw [Level.add_lowered]
        exact (ih _ _).2
      | joiner | closing | finish => rfl
    · cases token with
      | joiner joiner => exact (ih ⟨level.parts, joiner⟩ outer).1
      | closing =>
        cases outer with
        | nil => rfl
        | cons around outer =>
          have h := (ih (around.addEnclosed level) outer).2
          rw [← Level.addEnclosed_lowered] at h
          exact h
      | clauses | opening => cases outer <;> rfl
      | finish =>
        cases outer with
        | nil => simp [readJoin, bimap, Level.tree_lowered, Placed.lowered, Token.lowered]
        | cons around outer => rfl

theorem ofTokens_lowered (tokens : List Placed) :
    ofTokens (tokens.map Placed.lowered) = bimap Fault.lowered lowered (ofTokens tokens) := by
  have hlast : (tokens.map Placed.lowered).getLast?.map Placed.position =
      tokens.getLast?.map Placed.position := by
    rw [List.getLast?_map, Option.map_map]
    rfl
  rw [ofTokens, hlast]
  exact (reads_lowered _ tokens .start []).1

theorem ofFilter_asciiLower (filter : List Char) :
    ofFilter (asciiLower filter) = bimap Fault.lowered lowered (ofFilter filter) := by
  rw [ofFilter, tokenize_asciiLower]
  exact bind_bimap ofTokens_lowered _

end Tree

theorem Scan.parenthesis?_asciiLower (position : Nat) (filter : List Char) :
    parenthesis? position (asciiLower filter) =
      (parenthesis? position filter).map Placed.lowered := by
  induction filter generalizing position with
  | nil => rfl
  | cons c rest ih =>
    simp only [asciiLower_cons, parenthesis?, ih,
      toLower_eq_iff (show ('(' : Char).isAlpha = false by decide),
      toLower_eq_iff (show (')' : Char).isAlpha = false by decide)]
    split
    · rfl
    · split <;> rfl

theorem Tree.ofFlatFilter_asciiLower (filter : List Char) :
    ofFlatFilter (asciiLower filter) = bimap Fault.lowered lowered (ofFlatFilter filter) := by
  simp only [ofFlatFilter, caseless_isBlank.all, Scan.parenthesis?_asciiLower]
  split
  · rfl
  · cases Scan.parenthesis? 0 filter with
    | some placed => rfl
    | none =>
      simp only [Option.map_none, Clause.readRun_asciiLower]
      refine bind_bimap (fun parts => ?_) _
      rw [ofParts_loweredAll]
      rfl

theorem Route.ofFilter_asciiLower (filter : List Char) :
    ofFilter (asciiLower filter) = ofFilter filter := by
  have hparenthesis : Caseless isParenthesis := apply_toLower _ (by decide)
  rw [ofFilter, ofFilter, hparenthesis.any]

/-! ### Planning the tree -/

variable {P : Type}

namespace Plan

namespace Node

mutual

def map (g : P → P) : Node P → Node P
  | predicate p => predicate (g p)
  | group entries => group (mapAll g entries)

def mapAll (g : P → P) : List (Joiner × Node P) → List (Joiner × Node P)
  | [] => []
  | (joiner, node) :: rest => (joiner, node.map g) :: mapAll g rest

end

mutual

theorem holds_map (test : P → Bool) (g : P → P) :
    ∀ node : Node P, (node.map g).holds test = node.holds fun p => test (g p)
  | predicate p => rfl
  | group [] => rfl
  | group ((joiner, first) :: rest) => by
    rw [map, mapAll, holds, holdsAll, holds_map test g first, joinAll_mapAll test g _ rest]
    rfl

theorem joinAll_mapAll (test : P → Bool) (g : P → P) (found : Bool) :
    ∀ entries : List (Joiner × Node P), joinAll test found (mapAll g entries) =
      joinAll (fun p => test (g p)) found entries
  | [] => rfl
  | (joiner, node) :: rest => by
    simp only [mapAll, joinAll, holds_map test g node, joinAll_mapAll test g _ rest]

end

end Node

def map (g : P → P) (plan : Plan P) : Plan P :=
  ⟨Node.mapAll g plan.entries⟩

theorem holds_map (test : P → Bool) (g : P → P) (plan : Plan P) :
    (plan.map g).holds test = plan.holds fun p => test (g p) :=
  Node.holds_map test g (.group plan.entries)

end Plan

section Planning

variable {resolve : Resolver P} {g : P → P}

mutual

/-- If lowering a clause is nothing to the resolver but to the predicates, then so it is with a
tree. -/
theorem Tree.toNode_lowered
    (h : ∀ clause, resolve clause.lowered = bimap Mismatch.lowered g (resolve clause)) :
    ∀ tree : Tree, tree.lowered.toNode resolve =
      bimap Fault.lowered (Plan.Node.map g) (tree.toNode resolve)
  | .leaf clause => by
    simp only [lowered, toNode, h]
    cases resolve clause <;> rfl
  | .empty => rfl
  | .group first rest => by
    simp only [lowered, toNode, toNode_lowered h first]
    refine bind_bimap (fun head => ?_) _
    rw [toEntries_loweredAll h rest]
    refine bind_bimap (fun tail => ?_) _
    rfl

theorem Tree.toEntries_loweredAll
    (h : ∀ clause, resolve clause.lowered = bimap Mismatch.lowered g (resolve clause)) :
    ∀ rest : List (Joiner × Tree), toEntries resolve (loweredAll rest) =
      bimap Fault.lowered (Plan.Node.mapAll g) (toEntries resolve rest)
  | [] => rfl
  | (joiner, tree) :: rest => by
    simp only [loweredAll, toEntries, toNode_lowered h tree]
    refine bind_bimap (fun node => ?_) _
    rw [toEntries_loweredAll h rest]
    refine bind_bimap (fun later => ?_) _
    rfl

end

theorem Tree.plan_lowered
    (h : ∀ clause, resolve clause.lowered = bimap Mismatch.lowered g (resolve clause))
    (tree : Tree) :
    tree.lowered.plan resolve = bimap Fault.lowered (Plan.map g) (tree.plan resolve) := by
  rw [plan, toNode_lowered h]
  refine bind_bimap (fun node => ?_) _
  cases node <;> rfl

theorem compile_asciiLower
    (h : ∀ clause, resolve clause.lowered = bimap Mismatch.lowered g (resolve clause))
    (filter : List Char) :
    compile resolve (asciiLower filter) =
      bimap Fault.lowered (Plan.map g) (compile resolve filter) := by
  rw [compile, Route.ofFilter_asciiLower, compile]
  cases Route.ofFilter filter with
  | flat =>
    rw [compileAlong, compileFlat, Tree.ofFlatFilter_asciiLower]
    exact bind_bimap (Tree.plan_lowered h) _
  | full =>
    rw [compileAlong, compileFull, Tree.ofFilter_asciiLower]
    exact bind_bimap (Tree.plan_lowered h) _

end Planning

end ModelQuery
