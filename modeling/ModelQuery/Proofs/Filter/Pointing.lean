import ModelQuery.Proofs.Filter.Tiling
import ModelQuery.Proofs.Filter.WellFormed

/-! Faults of reading point at the filter. A clause with too few fields stands where the fault says,
however many clauses were counted over on the way, and a token that is out of place is one of the
tokens that the filter is cut into. -/

namespace ModelQuery

open Text

namespace Clause

/-- A clause with too few fields stands at a place in a text that begins at `start`. Of a blank
clause nothing stands there. -/
structure ShortIn (text : List Char) (start : Nat) (short : String) (place count : Nat) :
    Prop where
  found : ∃ front back, text = front ++ (short.toList ++ back) ∧ place = start + front.length
  few : count < 4
  counted : count = if short.toList.all isBlank then 0 else short.toList.count '|' + 1

variable {text : List Char} {start place count : Nat} {short : String}

theorem ShortIn.within {middle : Nat} {before : List Char} (h : ShortIn text middle short place count)
    (hmiddle : middle = start + before.length) (after : List Char) :
    ShortIn (before ++ (text ++ after)) start short place count := by
  obtain ⟨front, back, rfl, hplace⟩ := h.found
  refine ⟨⟨before ++ front, back ++ after, by simp, ?_⟩, h.few, h.counted⟩
  rw [hplace, hmiddle, List.length_append, Nat.add_assoc]

theorem length_fields_trim (text : List Char) : (fields text).length =
    if (trim text).all isBlank then 0 else (trim text).count '|' + 1 := by
  have hfields : fields (trim text) = fields text := by
    obtain ⟨front, back, he, hfront, hback⟩ := exists_trim text
    conv_rhs => rw [he, fields_blank_append hfront, fields_append_blank hback]
  rw [← hfields, fields]
  split
  · rfl
  · rw [List.length_map, length_pieces]

theorem shortIn_of_read {position : Nat} (hposition : position = start + leadingBlanks text)
    (h : read text position = .error (.shortClause short place count)) :
    ShortIn text start short place count := by
  obtain ⟨back, htext, -⟩ := exists_leading_trim text
  have hcount := length_fields_trim text
  unfold read at h
  split at h
  · cases h
  · next hmore =>
    cases h
    refine ⟨⟨_, back, ?_, hposition⟩, ?_, ?_⟩
    · rwa [String.toList_ofList]
    · match hf : fields text with
      | [] | [_] | [_, _] | [_, _, _] => simp
      | category :: property :: operator :: value :: more => exact absurd hf (hmore _ _ _ _ _)
    · rwa [String.toList_ofList]

/-- The places of later clauses are counted from the semicolons before them. -/
theorem shortIn_of_readRun {joiner : Joiner}
    (h : readRun joiner start text = .error (.shortClause short place count)) :
    ShortIn text start short place count := by
  induction text using cut_induction ';' generalizing joiner start with
  | whole piece hp =>
    rw [readRun_whole hp, map_eq_error_iff] at h
    exact shortIn_of_read rfl h
  | cut piece rest hp ih =>
    rw [readRun_cut hp] at h
    rcases bind_eq_error_iff.mp h with hr | ⟨found, -, hrest⟩
    · have hpiece := shortIn_of_read rfl hr
      exact hpiece.within (show start = start + [].length from rfl) (';' :: rest)
    · rcases bind_eq_error_iff.mp hrest with hl | ⟨later, -, hnone⟩
      · have hlen : start + piece.length + 1 = start + (piece ++ [';']).length := by
          rw [List.length_append, List.length_singleton, Nat.add_assoc]
        simpa using (ih hl).within hlen []
      · cases hnone

end Clause

/-- What a fault of reading points at among these tokens. -/
inductive Fault.PointsAt (tokens : List Placed) : Fault → Prop
  | unexpected {token : Token} {position : Nat} (h : ⟨token, position⟩ ∈ tokens) :
    PointsAt tokens (.unexpected token position)
  | trailing {token : Token} {position : Nat} (h : ⟨token, position⟩ ∈ tokens) :
    PointsAt tokens (.trailing token position)
  | shortClause {text short : String} {start place count : Nat}
    (h : ⟨.clauses text, start⟩ ∈ tokens)
    (hs : Clause.ShortIn text.toList start short place count) :
    PointsAt tokens (.shortClause short place count)

theorem Fault.PointsAt.cons {tokens : List Placed} {fault : Fault} (h : fault.PointsAt tokens)
    (placed : Placed) : fault.PointsAt (placed :: tokens) := by
  cases h with
  | unexpected h => exact .unexpected (List.mem_cons_of_mem _ h)
  | trailing h => exact .trailing (List.mem_cons_of_mem _ h)
  | shortClause h hs => exact .shortClause (List.mem_cons_of_mem _ h) hs

namespace Tree

theorem pointsAt_of_readOn {last : Nat} {turn : Turn} {level : Level} {outer : List Level}
    {tokens : List Placed} {fault : Fault} (hfinish : ∃ placed ∈ tokens, placed.token = .finish)
    (h : readOn last turn level outer tokens = .error fault) : fault.PointsAt tokens := by
  induction tokens generalizing turn level outer with
  | nil => simp at hfinish
  | cons placed tokens ih =>
    obtain ⟨token, position⟩ := placed
    have hhere : (⟨token, position⟩ : Placed) ∈ ⟨token, position⟩ :: tokens := List.mem_cons_self ..
    have hlater : token ≠ .finish → ∃ placed ∈ tokens, placed.token = .finish := by
      intro hne
      obtain ⟨placed, hp, ht⟩ := hfinish
      rcases List.mem_cons.mp hp with rfl | hp
      · exact absurd ht hne
      · exact ⟨placed, hp, ht⟩
    cases turn with
    | term =>
      cases token with
      | opening => exact (@ih .term _ _ (hlater (by simp)) h).cons _
      | clauses text =>
        simp only [readOn, readTerm] at h
        cases hr : Clause.readRun level.next position text.toList with
        | error short =>
          rw [hr] at h
          cases h
          obtain ⟨short, place, count, rfl⟩ := Clause.eq_shortClause_of_readRun hr
          exact .shortClause hhere (Clause.shortIn_of_readRun hr)
        | ok parts =>
          rw [hr] at h
          exact (@ih .join _ _ (hlater (by simp)) h).cons _
      | joiner | closing | finish =>
        cases h
        exact .unexpected hhere
    | join =>
      cases token with
      | joiner joiner => exact (@ih .term _ _ (hlater (by simp)) h).cons _
      | closing =>
        cases outer with
        | nil =>
          cases h
          exact .trailing hhere
        | cons around outer => exact (@ih .join _ _ (hlater (by simp)) h).cons _
      | clauses | opening | finish =>
        cases outer <;> cases h
        all_goals first | exact .trailing hhere | exact .unexpected hhere

/-- Whatever is wrong with the tokens of a filter, the fault points at one of them. -/
theorem pointsAt_of_ofFilter {filter : List Char} {fault : Fault}
    (h : ofFilter filter = .error fault) (hstage : fault.stage = .parse) :
    ∃ tokens, tokenize filter = .ok tokens ∧ fault.PointsAt tokens := by
  rcases bind_eq_error_iff.mp h with ht | ⟨tokens, ht, hread⟩
  · have hfirst := stage_of_tokenize ht
    rw [hstage] at hfirst
    cases hfirst
  · obtain ⟨before, rfl, -⟩ := (tiles_of_tokenize ht).ends_in_finish
    refine ⟨_, ht, @pointsAt_of_readOn _ .term _ _ _ _ ⟨_, List.mem_concat_self, rfl⟩ hread⟩

theorem shortIn_of_ofFilter {filter : List Char} {short : String} {place count : Nat}
    (h : ofFilter filter = .error (.shortClause short place count)) :
    Clause.ShortIn filter 0 short place count := by
  obtain ⟨tokens, ht, hpoints⟩ := pointsAt_of_ofFilter h rfl
  cases hpoints with
  | @shortClause text _ start _ _ hm hs =>
    obtain ⟨front, source, back, rfl, hstart, hcovers⟩ := (tiles_of_tokenize ht).exists_source hm
    obtain ⟨rfl, -⟩ := hcovers
    exact hs.within hstart back

theorem shortIn_of_ofFlatFilter {filter : List Char} {short : String} {place count : Nat}
    (h : ofFlatFilter filter = .error (.shortClause short place count)) :
    Clause.ShortIn filter 0 short place count := by
  unfold ofFlatFilter at h
  split at h
  · cases h
  · split at h
    · cases h
    · rcases bind_eq_error_iff.mp h with hr | ⟨parts, -, hnone⟩
      · exact Clause.shortIn_of_readRun hr
      · cases hnone

end Tree

variable {P : Type} {resolve : Resolver P}

/-- Planning what was read brings up no faults of reading. -/
theorem read_of_compileAlong {filter : List Char} {route : Route} {fault : Fault}
    (h : compileAlong resolve filter route = .error fault) (hstage : fault.stage ≠ .build) :
    Tree.ofFlatFilter filter = .error fault ∨ Tree.ofFilter filter = .error fault := by
  have hplan : ∀ tree : Tree, tree.Normal → tree.plan resolve ≠ .error fault := by
    intro tree hn he
    rcases @Tree.Normal.resolved_plan P resolve tree hn with ⟨plan, hp, -⟩ | ⟨clause, cause, hp⟩
    · rw [hp] at he
      cases he
    · rw [hp, Except.error.injEq] at he
      subst he
      exact hstage rfl
  cases route with
  | flat =>
    rcases bind_eq_error_iff.mp h with ht | ⟨tree, ht, hp⟩
    · exact Or.inl ht
    · exact absurd hp (hplan tree (Tree.normal_of_ofFlatFilter ht))
  | full =>
    rcases bind_eq_error_iff.mp h with ht | ⟨tree, ht, hp⟩
    · exact Or.inr ht
    · exact absurd hp (hplan tree (Tree.normal_of_ofFilter ht))

/-! ### What is shown -/

/-- What a token is called in messages, and that it stands at a place of a filter: a run of clauses
is called by its text, a marker by its word, whatever its case, and a parenthesis by itself. -/
inductive Token.Shows (filter : List Char) (place : Nat) : Token → String → Prop
  | clauses {front back : List Char} {text : String}
      (h : filter = front ++ (text.toList ++ back)) (hplace : place = front.length) :
      Shows filter place (.clauses text) ("expression '" ++ text ++ "'")
  | and {front letters back : List Char} (hletters : sameLetters letters "AND".toList = true)
      (h : filter = front ++ ('|' :: (letters ++ [';']) ++ back)) (hplace : place = front.length) :
      Shows filter place (.joiner .and) "operator AND"
  | or {front letters back : List Char} (hletters : sameLetters letters "OR".toList = true)
      (h : filter = front ++ ('|' :: (letters ++ [';']) ++ back)) (hplace : place = front.length) :
      Shows filter place (.joiner .or) "operator OR"
  | opening {front back : List Char} (h : filter = front ++ '(' :: back)
      (hplace : place = front.length) : Shows filter place .opening "'('"
  | closing {front back : List Char} (h : filter = front ++ ')' :: back)
      (hplace : place = front.length) : Shows filter place .closing "')'"
  | finish (hplace : place = filter.length) : Shows filter place .finish "end of input"

/-- A token is called after what stands where it was found. -/
theorem shows_of_mem {filter : List Char} {tokens : List Placed} (h : tokenize filter = .ok tokens)
    {token : Token} {place : Nat} (hm : ⟨token, place⟩ ∈ tokens) :
    token.Shows filter place token.describe := by
  have htiles := tiles_of_tokenize h
  obtain ⟨front, source, back, hfilter, hplace, hcovers⟩ := htiles.exists_source hm
  rw [Nat.zero_add] at hplace
  cases token with
  | clauses text =>
    obtain ⟨rfl, -⟩ := hcovers
    exact .clauses hfilter hplace
  | joiner joiner =>
    obtain ⟨hblank, letters, hletters, rfl⟩ := hcovers
    cases joiner with
    | and => exact .and hletters hfilter hplace
    | or => exact .or hletters hfilter hplace
    | blank => exact absurd rfl hblank
  | opening =>
    obtain rfl := hcovers
    exact .opening hfilter hplace
  | closing =>
    obtain rfl := hcovers
    exact .closing hfilter hplace
  | finish =>
    obtain ⟨before, rfl, hbefore⟩ := htiles.ends_in_finish
    rcases List.mem_append.mp hm with hm | hm
    · exact absurd rfl (hbefore _ hm)
    · obtain rfl : place = 0 + filter.length := (Placed.mk.inj (List.mem_singleton.mp hm)).2
      exact .finish (Nat.zero_add _)

/-- On either route a clause with too few fields is told with its text and its place in the filter,
and a token that is out of place is told as a token of the filter, with what stands at its place. -/
theorem faults_point (filter : List Char) :
    (∀ (P : Type) (resolve : Resolver P) (route : Route) (short : String) (place count : Nat),
      compileAlong resolve filter route = .error (.shortClause short place count) →
        Clause.ShortIn filter 0 short place count) ∧
    ∀ (token : Token) (position : Nat) (fault : Fault),
      fault = .unexpected token position ∨ fault = .trailing token position →
      Tree.ofFilter filter = .error fault →
        ∃ tokens, tokenize filter = .ok tokens ∧ ⟨token, position⟩ ∈ tokens ∧
          ∃ shown, token.Shows filter position shown ∧
            (fault = .unexpected token position →
              fault.message = "unexpected " ++ shown ++ " at position " ++ toString position) ∧
            (fault = .trailing token position →
              fault.message =
                "unexpected trailing " ++ shown ++ " at position " ++ toString position) := by
  constructor
  · intro P resolve route short place count h
    rcases read_of_compileAlong h (by simp [Fault.stage]) with hflat | hfull
    · exact Tree.shortIn_of_ofFlatFilter hflat
    · exact Tree.shortIn_of_ofFilter hfull
  · intro token position fault hfault h
    have hstage : fault.stage = .parse := by rcases hfault with rfl | rfl <;> rfl
    obtain ⟨tokens, ht, hpoints⟩ := Tree.pointsAt_of_ofFilter h hstage
    have hm : ⟨token, position⟩ ∈ tokens := by
      rcases hfault with rfl | rfl <;> cases hpoints <;> assumption
    exact ⟨tokens, ht, hm, token.describe, shows_of_mem ht hm, fun he => he ▸ rfl,
      fun he => he ▸ rfl⟩

theorem faults_point_behind_wide :
    let filter := "(ä|b|c|d\u2003; e|f )".toList
    let trailing := "(ä|b|c|d) (e|f|g|h)".toList
    compileFull Resolver.verbatim filter = .error (.shortClause "e|f" 11 2) ∧
      Clause.ShortIn filter 0 "e|f" 11 2 ∧
      Tree.ofFilter trailing = .error (.trailing .opening 10) ∧
      ∃ tokens, tokenize trailing = .ok tokens ∧ ⟨.opening, 10⟩ ∈ tokens ∧
        ∃ shown, Token.opening.Shows trailing 10 shown ∧
          (Fault.trailing .opening 10).message =
            "unexpected trailing " ++ shown ++ " at position " ++ toString 10 := by
  intro filter trailing
  have hshort : compileFull Resolver.verbatim filter = .error (.shortClause "e|f" 11 2) := rfl
  have htrailing : Tree.ofFilter trailing = .error (.trailing .opening 10) := rfl
  obtain ⟨tokens, ht, hm, shown, hshows, -, hmessage⟩ :=
    (faults_point trailing).2 .opening 10 _ (Or.inr rfl) htrailing
  exact ⟨hshort, (faults_point filter).1 Clause Resolver.verbatim .full "e|f" 11 2 hshort,
    htrailing, tokens, ht, hm, shown, hshows, hmessage rfl⟩

end ModelQuery
