import CodeGauge.Metric.Key

/-!
# Shared slots

A registry hands out one instance of each slot until it is cleared. Instances are equal when their
slots are; whether two of them are the same instance depends on the clears between.
-/

namespace CodeGauge

/-- An instance of a slot, numbered in the order of making. -/
structure SharedSlot where
  slot : Slot
  serial : Nat

namespace SharedSlot

/-- Whether two instances are one. -/
def sameInstance (a b : SharedSlot) : Bool := a.serial == b.serial

/-- Instances are equal when they are one, or their slots are equal. -/
def equal (a b : SharedSlot) : Bool := a.sameInstance b || a.slot == b.slot

end SharedSlot

/-- The instances handed out since the last clear, and the number of the next one. -/
structure SlotRegistry where
  instances : List SharedSlot
  next : Nat

namespace SlotRegistry

def empty : SlotRegistry := ⟨[], 0⟩

/-- The instance of a slot, made if there is none. -/
def instanceOf (r : SlotRegistry) (slot : Slot) : SharedSlot × SlotRegistry :=
  match r.instances.find? (·.slot = slot) with
  | some shared => (shared, r)
  | none =>
    let shared : SharedSlot := ⟨slot, r.next⟩
    (shared, ⟨shared :: r.instances, r.next + 1⟩)

/-- Forgets every instance. -/
def clear (r : SlotRegistry) : SlotRegistry := ⟨[], r.next⟩

end SlotRegistry

end CodeGauge
