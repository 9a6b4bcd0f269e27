import CodeGauge.Toml.Value

/-!
# Tables in the making

While a document is read, a table remembers how it came about: by its own header or only as a step
of a longer one (`implied`), and by a dotted key or not. A table may be opened by a header once, and
dotted keys may extend only tables that dotted keys made.
-/

namespace CodeGauge

namespace Toml

/-- What stands under a key of a document. -/
inductive Item where
  | value (value : Value)
  | table (implied dotted : Bool) (entries : List (String × Item))
  /-- An array of tables, the last first. -/
  | tables (elements : List (List (String × Item)))

abbrev Entries := List (String × Item)

namespace Entries

/-- Sets what stands under a key. -/
def set (key : String) (item : Item) : Entries → Entries
  | [] => [(key, item)]
  | (k, i) :: rest => if k = key then (key, item) :: rest else (k, i) :: set key item rest

/-- Changes the table at the end of a path, making the tables on the way. The change is told
whether its table was made by a dotted key; `dotted` says whether the path is a dotted key. -/
def update? (dotted : Bool) (change : Bool → Entries → Option Entries) :
    List String → Bool → Entries → Option Entries
  | [], made, entries => change made entries
  | key :: path, _, entries =>
    match entries.lookup key with
    | none => do
      let inner ← update? dotted change path dotted []
      return entries.set key (.table true dotted inner)
    | some (.table implied made inner) =>
      if dotted && !implied then none
      else do
        let inner ← update? dotted change path made inner
        return entries.set key (.table implied made inner)
    | some (.tables (last :: earlier)) => do
      let last ← update? dotted change path false last
      return entries.set key (.tables (last :: earlier))
    | some (.tables []) | some (.value _) => none

/-- Adds a value under a dotted key. -/
def insert? (path : List String) (key : String) (item : Item) (entries : Entries) :
    Option Entries :=
  update? true (fun made inner =>
    if made == path.isEmpty then none
    else if (inner.lookup key).isSome then none
    else some (inner.set key item)) path false entries

/-- Entries with one more at the end. An earlier one under its key goes. -/
def putLast (key : String) (item : Item) (entries : Entries) : Entries :=
  entries.filter (·.1 ≠ key) ++ [(key, item)]

/-- Opens the table of a header. -/
def openTable? (path : List String) (key : String) (entries : Entries) : Option Entries :=
  update? false (fun _ inner =>
    match inner.lookup key with
    | none => some (inner.putLast key (.table false false []))
    | some (.table true false found) => some (inner.putLast key (.table false false found))
    | some _ => none) path false entries

/-- Appends a table to the array of a header. -/
def appendTable? (path : List String) (key : String) (entries : Entries) : Option Entries :=
  update? false (fun _ inner =>
    match inner.lookup key with
    | none => some (inner.set key (.tables [[]]))
    | some (.tables elements) => some (inner.set key (.tables ([] :: elements)))
    | some _ => none) path false entries

end Entries

mutual

/-- An item as a value. -/
def Item.toValue : Item → Value
  | .value v => v
  | .table _ _ entries => .table (entriesToValues entries)
  | .tables elements => .array (tablesToValues elements).reverse

def entriesToValues : List (String × Item) → List (String × Value)
  | [] => []
  | (key, item) :: rest => (key, item.toValue) :: entriesToValues rest

def tablesToValues : List (List (String × Item)) → List Value
  | [] => []
  | entries :: rest => .table (entriesToValues entries) :: tablesToValues rest

end

end Toml

end CodeGauge
