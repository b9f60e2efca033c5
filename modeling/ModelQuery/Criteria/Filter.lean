import ModelQuery.Criteria.Basic

/-! Writing criteria as a filter. Fields are trimmed, and what would be read as something else is
refused. -/

namespace ModelQuery.Criteria

/-- The characters that mean something in filters. -/
def isReserved (c : Char) : Bool :=
  c == '|' || c == ';' || c == '(' || c == ')'

/-- The comparison that is asked for if none is given. -/
def defaultOperator : String := "IS_EQUAL"

/-- The trimmed text of a field. -/
def fieldText (field : Field) (text : String) : Except Flaw (List Char) :=
  let trimmed := Text.trim text.toList
  if trimmed.isEmpty && field ≠ .value then .error (.missing field)
  else match trimmed.find? isReserved with
    | some c => .error (.reserved field (String.ofList trimmed) c)
    | none => .ok trimmed

/-- Reads a joining word; nothing given is `AND`. -/
def joinerOf : Option String → Except Flaw Joiner
  | none => .ok .and
  | some word =>
    match Joiner.ofKeyword? word.toList with
    | some joiner => .ok joiner
    | none => .error (.unknownJoiner word)

/-- The clause of a comparison. -/
def clauseText (criterion : Criterion) : Except Flaw (List Char) := do
  let category ← fieldText .category criterion.category
  let property ← fieldText .property criterion.property
  let operator ← fieldText .operator (criterion.operator.getD defaultOperator)
  let value ← fieldText .value criterion.value
  return category ++ '|' :: property ++ '|' :: operator ++ '|' :: value

/-- The clauses of a sequence. What joins the last comparison to a next one is not looked at. -/
def sequenceText : List Criterion → Except Flaw (List Char)
  | [] => .error .empty
  | [last] => clauseText last
  | criterion :: next :: rest => do
    let joiner ← joinerOf criterion.joiner
    let clause ← clauseText criterion
    let later ← sequenceText (next :: rest)
    return clause ++ '|' :: joiner.word.toList ++ ';' :: later

mutual

/-- A group in parentheses. -/
def Group.text : Group → Except Flaw (List Char)
  | .mk _ [] [] => .error .empty
  | .mk _ (_ :: _) (_ :: _) => .error .mixed
  | .mk _ (criterion :: rest) [] => do
    return '(' :: (← sequenceText (criterion :: rest)) ++ [')']
  | .mk _ [] (first :: rest) => do
    let _ ← joinerOf first.joiner
    let text ← first.text
    let later ← markedTexts rest
    return '(' :: (text ++ later) ++ [')']

/-- Groups that follow another, each behind its marker. -/
def markedTexts : List Group → Except Flaw (List Char)
  | [] => .ok []
  | group :: rest => do
    let joiner ← joinerOf group.joiner
    let text ← group.text
    let later ← markedTexts rest
    return '|' :: joiner.word.toList ++ ';' :: text ++ later

end

/-- Groups side by side. The joiner of the first is only checked. -/
def groupTexts : List Group → Except Flaw (List Char)
  | [] => .error .empty
  | first :: rest => do
    let _ ← joinerOf first.joiner
    let text ← first.text
    let later ← markedTexts rest
    return text ++ later

/-- The filter that criteria stand for. -/
def filter : Criteria → Except Flaw (List Char)
  | .sequence criteria => sequenceText criteria
  | .grouped list => groupTexts list

end ModelQuery.Criteria
