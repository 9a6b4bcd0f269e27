import CodeGauge.Text.CaseTable

/-!
# Lower case

The full lower-case mapping. Each character has its simple mapping, but for the capital I with a
dot, which becomes two characters, and the capital sigma, which has another form at the end of a
word.
-/

namespace CodeGauge

namespace Text

/-- Whether a code point lies in one of the ranges. -/
def inRanges (ranges : List (Nat × Nat)) (n : Nat) : Bool :=
  ranges.any fun r => r.1 ≤ n && n ≤ r.2

/-- The lower case of a code point as a single one. -/
def lowerCode (n : Nat) : Nat :=
  match caseRuns.find? fun r => r.first ≤ n && n ≤ r.last && (n - r.first) % r.step == 0 with
  | some run => ((n : Int) + run.distance).toNat
  | none => n

/-- Whether the first character that is not ignorable is cased. -/
def startsCased (cs : List Char) : Bool :=
  match cs.dropWhile fun c => inRanges ignorableRanges c.toNat with
  | c :: _ => inRanges casedRanges c.toNat
  | [] => false

/-- The lower case of a character after `before`, nearest first, and before `after`. -/
def lowerChar (before : List Char) (c : Char) (after : List Char) : List Char :=
  if c.toNat < 0x80 then [c.toLower]
  else if c.toNat = 0x130 then ['i', Char.ofNat 0x307]
  else if c.toNat = 0x3A3 then
    [Char.ofNat (if startsCased before && !startsCased after then 0x3C2 else 0x3C3)]
  else [Char.ofNat (lowerCode c.toNat)]

/-- The lower case of characters after `before`, nearest first. -/
def lowerFrom (before : List Char) : List Char → List Char
  | [] => []
  | c :: after => lowerChar before c after ++ lowerFrom (c :: before) after

/-- A text in lower case. -/
def lowerCase (s : String) : String := String.ofList (lowerFrom [] s.toList)

end Text

end CodeGauge
