import ModelQuery.Text.CaseTable
import ModelQuery.Text.CasedTable

/-! The lower case of a text by the rules of Unicode. Letters are lowered one by one, with two
exceptions: the dotted capital I becomes two characters, and the lower case of the capital sigma
depends on whether a word ends with it. -/

namespace ModelQuery.Text

/-- The lower case of a letter that has just one. -/
def lowerLetter (c : Char) : Char :=
  if c.toNat < 0x80 then c.toLower
  else
    let n := c.toNat
    match lowerRuns.find? fun (first, last, step, _) =>
        first ≤ n && n ≤ last && (n - first) % step == 0 with
    | some (first, _, _, lower) => Char.ofNat (lower + (n - first))
    | none => c

/-- What a character becomes wherever it stands. -/
def lowerOne (c : Char) : List Char :=
  if c = 'İ' then ['i', '\u0307'] else [lowerLetter c]

def inRanges (ranges : List (Nat × Nat)) (c : Char) : Bool :=
  ranges.any fun (first, last) => first ≤ c.toNat && c.toNat ≤ last

/-- Whether the first character of a text that is more than a mark is a letter with a case. -/
def meetsCased (cs : List Char) : Bool :=
  match cs.dropWhile (inRanges caseIgnorableRanges) with
  | [] => false
  | c :: _ => inRanges casedRanges c

/-- The lower case of a sigma, given what stands before it, last first, and what stands behind. -/
def lowerSigma (before after : List Char) : Char :=
  if meetsCased before && !meetsCased after then 'ς' else 'σ'

/-- Lowers a text of which `before` is what stands in front, last first. -/
def lowercaseAfter (before : List Char) : List Char → List Char
  | [] => []
  | c :: cs =>
    (if c = 'Σ' then [lowerSigma before cs] else lowerOne c) ++ lowercaseAfter (c :: before) cs

def lowercase (cs : List Char) : List Char :=
  lowercaseAfter [] cs

end ModelQuery.Text
