/-!
# White space and lines

The characters with the property White_Space, and the two ends of a text without them.

A line of a file ends with a newline, which may have a carriage return before it; what follows the
last newline is a line as well, unless nothing does.
-/

namespace CodeGauge

namespace Text

/-- The characters with the property White_Space. -/
def isBlank (c : Char) : Bool :=
  let n := c.toNat
  (9 ≤ n && n ≤ 13) || n == 0x20 || n == 0x85 || n == 0xA0 || n == 0x1680 ||
    (0x2000 ≤ n && n ≤ 0x200A) || n == 0x2028 || n == 0x2029 || n == 0x202F || n == 0x205F ||
    n == 0x3000

/-- A list without its longest end in `p`. -/
def dropEndWhile (p : Char → Bool) (cs : List Char) : List Char :=
  (cs.reverse.dropWhile p).reverse

/-- Characters without the white space at both ends. -/
def trimChars (cs : List Char) : List Char := dropEndWhile isBlank (cs.dropWhile isBlank)

/-- A text without the white space at both ends. -/
def trim (s : String) : String := String.ofList (trimChars s.toList)

/-! ## Lines -/

/-- A line that a newline has ended, without a carriage return at its end. -/
def withoutReturn (line : List UInt8) : List UInt8 :=
  if line.getLast? = some 0x0D then line.dropLast else line

/-- The lines in bytes behind the start of a line, of which the last byte comes first. -/
def lineBytesFrom (start : List UInt8) : List UInt8 → List (List UInt8)
  | [] => if start.isEmpty then [] else [start.reverse]
  | b :: rest =>
    if b = 0x0A then withoutReturn start.reverse :: lineBytesFrom [] rest
    else lineBytesFrom (b :: start) rest

/-- The lines in bytes. -/
def lineBytes (bytes : ByteArray) : List (List UInt8) := lineBytesFrom [] bytes.toList

/-- Lines as texts, up to the first one that is no text. -/
def textsOf : List (List UInt8) → List String
  | [] => []
  | line :: rest =>
    match String.fromUTF8? ⟨line.toArray⟩ with
    | some text => text :: textsOf rest
    | none => []

/-- The lines of a file up to the first one that is no text. -/
def fileLines (bytes : ByteArray) : List String := textsOf (lineBytes bytes)

/-- The first line of a file, if there is one and it is text. -/
def firstLine? (bytes : ByteArray) : Option String := (fileLines bytes).head?

end Text

end CodeGauge
