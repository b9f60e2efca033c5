import ModelQuery.Filter.Fault

/-! Cutting a filter into tokens, one character at a time. The scanner is between two tokens, or
inside a marker, or inside clause text. Only a bar needs a look ahead: it is either the start of a
marker between groups or the bar between two fields of a clause, and what was read before it, what
comes after it and the number of open parentheses decide which. -/

namespace ModelQuery.Scan

/-- A marker at the start of the text, a bar and `AND` or `OR` and a semicolon, with its length. -/
def marker? : List Char → Option (Joiner × Nat)
  | '|' :: cs =>
    let letters := cs.takeWhile Char.isAlpha
    if (cs.drop letters.length).head? = some ';' then
      (Joiner.ofLetters? letters).map fun joiner => (joiner, letters.length + 2)
    else none
  | _ => none

/-- Where the scanner is. -/
inductive Place
  /-- Between two tokens. -/
  | gap
  /-- Inside a marker of which `left` characters are still to come. -/
  | marker (left : Nat)
  /-- Inside clause text that starts at `start`; `read` is what was read of it, last first. -/
  | text (start : Nat) (read : List Char)
  deriving DecidableEq, Repr

structure State where
  /-- How many parentheses are open. -/
  depth : Nat
  place : Place
  deriving DecidableEq, Repr

/-- Whether clause text that was read so far ends before the marker that stands next. It does if
nothing was read, if a group opens behind the marker, or if outside all groups the marker stands
where the clause has its fifth field. -/
def endsBefore (depth : Nat) (read : List Char) (afterMarker : List Char) : Bool :=
  read.all Text.isBlank ||
    (Text.trimStart afterMarker).head? == some '(' ||
    (depth == 0 && (read.takeWhile (· ≠ ';')).count '|' == 3)

/-- Whether the text `next` begins with something that ends the clause text read so far. -/
def breaks (depth : Nat) (read : List Char) (next : List Char) : Bool :=
  match next with
  | '(' :: _ | ')' :: _ => true
  | _ => match marker? next with
    | some (_, length) => endsBefore depth read (next.drop length)
    | none => false

/-- The token of clause text. It is checked once more that the text is not blank, although the
scanner begins clause text only at a character that is not. -/
def textToken (start : Nat) (read : List Char) : Except Fault Placed :=
  let text := Text.trim read.reverse
  if text.isEmpty then .error (.blankClauses start)
  else .ok ⟨.clauses (String.ofList text), start⟩

/-- Steps over the character `c` between two tokens. -/
def begin (depth position : Nat) (c : Char) (rest : List Char) :
    Except Fault (List Placed × State) :=
  if c = '(' then .ok ([⟨.opening, position⟩], ⟨depth + 1, .gap⟩)
  else if c = ')' then
    if depth = 0 then .error (.unopened position)
    else .ok ([⟨.closing, position⟩], ⟨depth - 1, .gap⟩)
  else if Text.isBlank c then .ok ([], ⟨depth, .gap⟩)
  else match marker? (c :: rest) with
    | some (joiner, length) => .ok ([⟨.joiner joiner, position⟩], ⟨depth, .marker (length - 1)⟩)
    | none => .ok ([], ⟨depth, .text position [c]⟩)

/-- Steps over the character `c`, giving the tokens that it completes. -/
def step (state : State) (position : Nat) (c : Char) (rest : List Char) :
    Except Fault (List Placed × State) :=
  match state.place with
  | .marker (left + 2) => .ok ([], ⟨state.depth, .marker (left + 1)⟩)
  | .marker _ => .ok ([], ⟨state.depth, .gap⟩)
  | .gap => begin state.depth position c rest
  | .text start read =>
    if breaks state.depth read (c :: rest) then do
      let token ← textToken start read
      let (tokens, next) ← begin state.depth position c rest
      return (token :: tokens, next)
    else .ok ([], ⟨state.depth, .text start (c :: read)⟩)

/-- The token that the end of the filter completes, if the scanner is inside clause text. -/
def Place.pending : Place → Except Fault (List Placed)
  | .text start read => do return [← textToken start read]
  | .gap | .marker _ => .ok []

/-- The tokens that are complete where the filter ends. -/
def close (state : State) (position : Nat) : Except Fault (List Placed) := do
  let tokens ← state.place.pending
  if state.depth > 0 then .error (.unclosed state.depth)
  else return tokens ++ [⟨.finish, position⟩]

/-- Scans on from a state. -/
def run (state : State) (position : Nat) : List Char → Except Fault (List Placed)
  | [] => close state position
  | c :: rest => do
    let (tokens, next) ← step state position c rest
    let later ← run next (position + 1) rest
    return tokens ++ later

end Scan

/-- The tokens of a filter, the last of them `finish`. -/
def tokenize (filter : List Char) : Except Fault (List Placed) :=
  if filter.all Text.isBlank then .error .blank
  else Scan.run ⟨0, .gap⟩ 0 filter

end ModelQuery
