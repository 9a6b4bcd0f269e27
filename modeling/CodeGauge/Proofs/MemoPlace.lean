import CodeGauge.Metric.Memo

/-!
# The places of a project memo

A project memo is a map of memos, and each of these a map of values. `contents` reads it as one map
from places to values. Setting a memo to what it was changes nothing, and setting it to itself with
a value put under a slot changes one place.
-/

namespace CodeGauge

/-- Where a value is remembered: under a slot of the type or the operation of a qualified name. -/
structure MemoPlace where
  side : MetricTarget
  name : QualifiedName
  slot : Slot
  deriving DecidableEq

namespace ProjectMemo

/-- The value remembered in a place. -/
def contents (p : ProjectMemo) (place : MemoPlace) : Option Float :=
  (p.get place.side place.name).get? place.slot

theorem contents_empty (place : MemoPlace) : (∅ : ProjectMemo).contents place = none := by
  rcases place with ⟨side, name, slot⟩
  cases side <;> rfl

variable (p : ProjectMemo) (side : MetricTarget) (name : QualifiedName)

theorem contents_set_get (place : MemoPlace) :
    (p.set side name (p.get side name)).contents place = p.contents place := by
  unfold contents
  by_cases h : place.side = side ∧ place.name = name
  · obtain ⟨rfl, rfl⟩ := h
    rw [get_set_self]
  · rw [get_set_of_ne p (Decidable.not_and_iff_or_not.1 h)]

theorem contents_set_put (slot : Slot) (value : Float) (place : MemoPlace) :
    (p.set side name ((p.get side name).put slot value)).contents place =
      if place = ⟨side, name, slot⟩ then some value else p.contents place := by
  obtain ⟨side', name', slot'⟩ := place
  simp only [contents, MemoPlace.mk.injEq]
  by_cases h : side' = side ∧ name' = name
  · obtain ⟨rfl, rfl⟩ := h
    rw [get_set_self]
    by_cases hs : slot' = slot
    · rw [if_pos ⟨rfl, rfl, hs⟩, hs, Memo.get?_put_self]
    · rw [if_neg fun he => hs he.2.2, Memo.get?_put_of_ne hs]
  · rw [get_set_of_ne p (Decidable.not_and_iff_or_not.1 h), if_neg fun he => h ⟨he.1, he.2.1⟩]

end ProjectMemo

end CodeGauge
