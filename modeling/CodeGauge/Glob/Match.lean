import CodeGauge.Glob.Pattern

/-!
# Matching paths

A pattern is matched against the bytes of a whole path. Matching keeps the set of rests of the path
that are left after the tokens so far; a path matches if nothing is among the rests at the end.
Whether a star crosses slashes is up to the caller.
-/

namespace CodeGauge

namespace Glob

def slash : UInt8 := 0x2F

/-- The bytes of a character. -/
def bytesOf (c : Char) : List UInt8 := String.utf8EncodeChar c

/-- The bytes between two characters, as ranges: those of a single character, or a range from the
last byte of the first to the first byte of the last, with the bytes around it. -/
def byteRanges (range : Char × Char) : List (UInt8 × UInt8) :=
  let single (b : UInt8) : UInt8 × UInt8 := (b, b)
  let first := bytesOf range.1
  let last := bytesOf range.2
  if range.1 = range.2 then first.map single
  else first.dropLast.map single ++ [(first.getLastD 0, last.headD 0)] ++ last.tail.map single

/-- Whether a byte is among the bytes of ranges of characters. -/
def inRanges (ranges : List (Char × Char)) (b : UInt8) : Bool :=
  (ranges.flatMap byteRanges).any fun (low, high) => low ≤ b && b ≤ high

/-- The rest behind a list of bytes. -/
def afterBytes? : List UInt8 → List UInt8 → Option (List UInt8)
  | [], rest => some rest
  | b :: bs, c :: rest => if b = c then afterBytes? bs rest else none
  | _ :: _, [] => none

/-- The rest behind one byte. -/
def afterByte? (p : UInt8 → Bool) : List UInt8 → Option (List UInt8)
  | b :: rest => if p b then some rest else none
  | [] => none

/-- The rests behind any number of bytes. -/
def afterRun (p : UInt8 → Bool) : List UInt8 → List (List UInt8)
  | [] => [[]]
  | b :: rest => (b :: rest) :: if p b then afterRun p rest else []

/-- The rests behind a slash. -/
def afterSlashes : List UInt8 → List (List UInt8)
  | [] => []
  | b :: rest => if b = slash then rest :: afterSlashes rest else afterSlashes rest

/-- Whether a star or a question mark matches a byte. -/
def isWild (separated : Bool) (b : UInt8) : Bool := !(separated && b == slash)

mutual

/-- The rests behind a token. -/
def Token.after (separated : Bool) (path : List UInt8) : Token → List (List UInt8)
  | .literal c => (afterBytes? (bytesOf c) path).toList
  | .one => (afterByte? (isWild separated) path).toList
  | .many => afterRun (isWild separated) path
  | .oneOf negated ranges => (afterByte? (fun b => inRanges ranges b != negated) path).toList
  | .alternatives branches => if branches.isEmpty then [path] else anyAfter separated path branches
  | .leading => path :: afterSlashes path
  | .inside => (afterByte? (· == slash) path).toList.flatMap (afterRun fun _ => true)
  | .between =>
    (afterByte? (· == slash) path).toList.flatMap fun rest => rest :: afterSlashes rest

/-- The rests behind tokens. -/
def allAfter (separated : Bool) (paths : List (List UInt8)) : List Token → List (List UInt8)
  | [] => paths
  | t :: ts => allAfter separated (paths.flatMap fun path => t.after separated path).eraseDups ts

/-- The rests behind any of several branches. -/
def anyAfter (separated : Bool) (path : List UInt8) : List (List Token) → List (List UInt8)
  | [] => []
  | branch :: branches => allAfter separated [path] branch ++ anyAfter separated path branches

end

/-- Whether a pattern matches a path. A pattern that is a double star alone matches all paths. -/
def isMatch (g : Glob) (separated : Bool) (path : String) : Bool :=
  match g.tokens with
  | [.leading] => true
  | tokens => (allAfter separated [path.toUTF8.toList] tokens).contains []

end Glob

end CodeGauge
