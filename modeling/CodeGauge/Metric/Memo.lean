import Std.Data.TreeMap
import CodeGauge.Metric.Key

/-!
# Remembered values

A memo holds the computed values of one declaration; presence in it is what counts, so a remembered
value that is not a number is a hit like any other. A project memo holds the memos of all types and
operations of an analysis by qualified name.
-/

namespace CodeGauge

/-- The values remembered for one declaration. -/
structure Memo where
  entries : List (Slot × Float)

namespace Memo

def empty : Memo := ⟨[]⟩

instance : EmptyCollection Memo := ⟨empty⟩

/-- The value last put under a slot. -/
def get? (memo : Memo) (slot : Slot) : Option Float := memo.entries.lookup slot

/-- Puts a value under a slot, in place of an earlier one. -/
def put (memo : Memo) (slot : Slot) (value : Float) : Memo :=
  ⟨(slot, value) :: memo.entries.filter (·.1 != slot)⟩

def size (memo : Memo) : Nat := memo.entries.length

def isEmpty (memo : Memo) : Bool := memo.entries.isEmpty

@[simp] theorem get?_empty (slot : Slot) : (∅ : Memo).get? slot = none := rfl

theorem get?_put_self (memo : Memo) (slot : Slot) (value : Float) :
    (memo.put slot value).get? slot = some value := by
  unfold get? put
  exact List.lookup_cons_self

theorem lookup_filter_of_ne {slot other : Slot} (h : other ≠ slot) (entries : List (Slot × Float)) :
    (entries.filter (·.1 != slot)).lookup other = entries.lookup other := by
  induction entries with
  | nil => rfl
  | cons e rest ih =>
    obtain ⟨s, value⟩ := e
    rw [List.filter_cons, List.lookup_cons]
    by_cases hs : s = slot
    · have ho : (other == s) = false := by
        rw [hs]
        exact beq_false_of_ne h
      rw [if_neg (by simp [hs]), ih, ho]
    · rw [if_pos (by simp [hs]), List.lookup_cons, ih]

theorem get?_put_of_ne {slot other : Slot} (h : other ≠ slot) (memo : Memo) (value : Float) :
    (memo.put slot value).get? other = memo.get? other := by
  unfold get? put
  rw [List.lookup_cons, beq_false_of_ne h]
  exact lookup_filter_of_ne h memo.entries

end Memo

/-- The memos of every declaration of one analysis. -/
structure ProjectMemo where
  types : Std.TreeMap QualifiedName Memo
  operations : Std.TreeMap QualifiedName Memo

namespace ProjectMemo

def empty : ProjectMemo := ⟨∅, ∅⟩

instance : EmptyCollection ProjectMemo := ⟨empty⟩

/-- The memos of the declarations of a target. -/
def memos (p : ProjectMemo) : MetricTarget → Std.TreeMap QualifiedName Memo
  | .type => p.types
  | .operation => p.operations

/-- The memo of a declaration, empty before the first request. -/
def get (p : ProjectMemo) (target : MetricTarget) (name : QualifiedName) : Memo :=
  (p.memos target).getD name ∅

/-- Sets the memo of a declaration. -/
def set (p : ProjectMemo) (target : MetricTarget) (name : QualifiedName) (memo : Memo) :
    ProjectMemo :=
  match target with
  | .type => { p with types := p.types.insert name memo }
  | .operation => { p with operations := p.operations.insert name memo }

theorem get_set_self (p : ProjectMemo) (target : MetricTarget) (name : QualifiedName)
    (memo : Memo) : (p.set target name memo).get target name = memo := by
  cases target <;> exact Std.TreeMap.getD_insert_self

/-- Setting the memo of one declaration leaves those of all others. -/
theorem get_set_of_ne (p : ProjectMemo) {target other : MetricTarget}
    {name otherName : QualifiedName} (h : other ≠ target ∨ otherName ≠ name) (memo : Memo) :
    (p.set target name memo).get other otherName = p.get other otherName := by
  have hn (hs : other = target) : ¬compare name otherName = .eq := fun hc =>
    (h.resolve_left fun hne => hne hs) (Std.LawfulEqCmp.eq_of_compare hc).symm
  cases target <;> cases other
  · exact Std.TreeMap.getD_insert.trans (if_neg (hn rfl))
  · rfl
  · rfl
  · exact Std.TreeMap.getD_insert.trans (if_neg (hn rfl))

def typeCount (p : ProjectMemo) : Nat := p.types.size

def operationCount (p : ProjectMemo) : Nat := p.operations.size

/-- Number of values remembered for all declarations. -/
def memoCount (p : ProjectMemo) : Nat :=
  ((p.types.values ++ p.operations.values).flatMap (·.entries)).length

end ProjectMemo

end CodeGauge
