import CodeGauge.Grammar.Concrete

/-!
# Concrete trees as rows

A concrete tree can be written as the list of its rows in document order, each with its depth.
`Concrete.ofRows?` reads it back.

A parser may hand the rows over as text. Every line is a row, its parts set apart by tabs: depth,
kind, `1` for a named node and `0` for any other, field or nothing, first byte, byte past the end,
first line, last line. Lines count from zero here.
-/

namespace CodeGauge

namespace Concrete

/-- Puts a row before the trees that follow it: the ones one level down become its children. -/
def attach (entry : Nat × Row) (forest : List (Nat × Concrete)) : List (Nat × Concrete) :=
  let (depth, row) := entry
  let below := forest.takeWhile fun t => t.1 = depth + 1
  let after := forest.dropWhile fun t => t.1 = depth + 1
  (depth, mk row (below.map (·.2))) :: after

/-- The tree of a list of rows, if it has one root. -/
def ofRows? (rows : List (Nat × Row)) : Option Concrete :=
  match rows.foldr attach [] with
  | [(0, root)] => some root
  | _ => none

end Concrete

/-! ## Rows as text -/

/-- The row of a line, with its depth. -/
def Row.ofLine? (line : String) : Option (Nat × Row) :=
  match line.splitOn "\t" with
  | [depth, kind, named, field, start, stop, firstRow, lastRow] => do
    let row : Row := {
      kind
      named := named = "1"
      field := if field = "" then none else some field
      start := ← start.toNat?
      stop := ← stop.toNat?
      firstRow := ← firstRow.toNat?
      lastRow := ← lastRow.toNat? }
    return (← depth.toNat?, row)
  | _ => none

/-- The tree of a text of rows, if every line is a row and there is one root. -/
def Concrete.ofText? (text : String) : Option Concrete :=
  (((text.splitOn "\n").filter (· ≠ "")).mapM Row.ofLine?).bind ofRows?

end CodeGauge
