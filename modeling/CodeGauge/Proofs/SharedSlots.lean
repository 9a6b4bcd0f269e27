import CodeGauge.Metric.Memo
import CodeGauge.Metric.Registry

/-!
# Instances of slots

A registry numbers the instances it makes, and goes on counting after a clear. So the slots of all
instances made so far, in that order, say which slot an instance is of (`SlotRegistry.Numbers`),
whatever was called in between. Two of them are equal exactly if their slots are (`equal_iff`), and
a memo under instances is read and written as the memo under their slots (`get?_eq`, `bySlot_put`).
-/

namespace CodeGauge

/-! ## Calls of a registry -/

inductive RegistryCall where
  | instanceOf (slot : Slot)
  | clear

namespace SlotRegistry

def call (r : SlotRegistry) : RegistryCall → SlotRegistry
  | .instanceOf slot => (r.instanceOf slot).2
  | .clear => r.clear

/-- The registry after some calls. -/
def calls (r : SlotRegistry) (cs : List RegistryCall) : SlotRegistry := cs.foldl call r

end SlotRegistry

/-- Whether an instance is of the slot that stands under its number. -/
def SharedSlot.MadeAs (made : List Slot) (shared : SharedSlot) : Prop :=
  made[shared.serial]? = some shared.slot

/-- Whether these are the slots of all instances that a registry has made. -/
def SlotRegistry.Numbers (made : List Slot) (r : SlotRegistry) : Prop :=
  made.length = r.next ∧ ∀ shared ∈ r.instances, shared.MadeAs made

namespace SharedSlot

variable {made made' : List Slot} {a b : SharedSlot}

theorem MadeAs.mono (h : a.MadeAs made) (hp : made <+: made') : a.MadeAs made' := by
  obtain ⟨rest, rfl⟩ := hp
  obtain ⟨hlt, -⟩ := List.getElem?_eq_some_iff.1 h
  exact (List.getElem?_append_left hlt).trans h

theorem equal_iff (ha : a.MadeAs made) (hb : b.MadeAs made) : a.equal b ↔ a.slot = b.slot := by
  have hsame : a.serial = b.serial → a.slot = b.slot := by
    intro h
    rw [MadeAs, h, hb] at ha
    exact (Option.some.inj ha).symm
  simpa [equal, sameInstance] using hsame

end SharedSlot

namespace SlotRegistry.Numbers

variable {made : List Slot} {r : SlotRegistry}

theorem empty : SlotRegistry.empty.Numbers [] := ⟨rfl, fun _ h => absurd h List.not_mem_nil⟩

theorem clear (h : r.Numbers made) : r.clear.Numbers made :=
  ⟨h.1, fun _ h => absurd h List.not_mem_nil⟩

theorem instanceOf (h : r.Numbers made) (slot : Slot) :
    (r.instanceOf slot).1.slot = slot ∧ ∃ made', made <+: made' ∧
      (r.instanceOf slot).1.MadeAs made' ∧ (r.instanceOf slot).2.Numbers made' := by
  unfold SlotRegistry.instanceOf
  split
  · rename_i shared hfound
    have hslot : shared.slot = slot := by simpa using List.find?_some hfound
    exact ⟨hslot, made, List.prefix_rfl, h.2 shared (List.mem_of_find?_eq_some hfound), h⟩
  · have hp : made <+: made ++ [slot] := List.prefix_append _ _
    have hnew : (⟨slot, r.next⟩ : SharedSlot).MadeAs (made ++ [slot]) := by
      simp [SharedSlot.MadeAs, ← h.1]
    refine ⟨rfl, made ++ [slot], hp, hnew, ?_, fun shared hs => ?_⟩
    · rw [List.length_append, h.1]
      rfl
    · rcases List.mem_cons.1 hs with rfl | hs
      · exact hnew
      · exact (h.2 shared hs).mono hp

theorem calls (h : r.Numbers made) (cs : List RegistryCall) :
    ∃ made', made <+: made' ∧ (r.calls cs).Numbers made' := by
  induction cs generalizing r made with
  | nil => exact ⟨made, List.prefix_rfl, h⟩
  | cons c cs ih =>
    cases c with
    | instanceOf slot =>
      obtain ⟨-, made', hp, -, h'⟩ := h.instanceOf slot
      obtain ⟨made'', hp', h''⟩ := ih h'
      exact ⟨made'', hp.trans hp', h''⟩
    | clear => exact ih h.clear

end SlotRegistry.Numbers

/-! ## Memos under instances -/

/-- The values remembered for one declaration, each under an instance of its slot. -/
structure SharedMemo where
  entries : List (SharedSlot × Float)

namespace SharedMemo

def empty : SharedMemo := ⟨[]⟩

def get? (memo : SharedMemo) (shared : SharedSlot) : Option Float :=
  (memo.entries.find? (·.1.equal shared)).map (·.2)

/-- Puts a value under an instance, or under an equal one that is there already. -/
def put (memo : SharedMemo) (shared : SharedSlot) (value : Float) : SharedMemo :=
  let kept := ((memo.entries.find? (·.1.equal shared)).map (·.1)).getD shared
  ⟨(kept, value) :: memo.entries.filter (!·.1.equal shared)⟩

/-- The same values under the slots. -/
def bySlot (memo : SharedMemo) : Memo := ⟨memo.entries.map (Prod.map SharedSlot.slot id)⟩

def MadeAs (made : List Slot) (memo : SharedMemo) : Prop := ∀ e ∈ memo.entries, e.1.MadeAs made

variable {made made' : List Slot} {memo : SharedMemo} {shared : SharedSlot}

theorem MadeAs.empty : SharedMemo.empty.MadeAs made := fun _ h => absurd h List.not_mem_nil

theorem MadeAs.mono (h : memo.MadeAs made) (hp : made <+: made') : memo.MadeAs made' :=
  fun e he => (h e he).mono hp

theorem get?_eq (h : memo.MadeAs made) (hs : shared.MadeAs made) :
    memo.get? shared = memo.bySlot.get? shared.slot := by
  obtain ⟨entries⟩ := memo
  unfold get? bySlot Memo.get?
  induction entries with
  | nil => rfl
  | cons e entries ih =>
    have hequal := SharedSlot.equal_iff (h e List.mem_cons_self) hs
    have ih := ih fun e he => h e (List.mem_cons_of_mem _ he)
    rw [List.map_cons, List.find?_cons, Prod.map, List.lookup_cons]
    by_cases he : e.1.slot = shared.slot
    · rw [hequal.2 he, he, beq_self_eq_true]
      rfl
    · rw [Bool.eq_false_iff.2 fun h => he (hequal.1 h), beq_false_of_ne (Ne.symm he)]
      exact ih

/-- What is put stands under an instance of its slot, before what the other slots have. -/
theorem entries_put (h : memo.MadeAs made) (hs : shared.MadeAs made) (value : Float) :
    ∃ kept : SharedSlot, kept.slot = shared.slot ∧ kept.MadeAs made ∧
      (memo.put shared value).entries =
        (kept, value) :: memo.entries.filter (·.1.slot != shared.slot) := by
  have hothers : memo.entries.filter (!·.1.equal shared) =
      memo.entries.filter (·.1.slot != shared.slot) := by
    refine List.filter_congr fun e he => congrArg not ?_
    rw [Bool.eq_iff_iff, beq_iff_eq]
    exact SharedSlot.equal_iff (h e he) hs
  rcases hfound : memo.entries.find? (·.1.equal shared) with _ | ⟨e, v⟩
  · exact ⟨shared, rfl, hs, by simp only [put, hfound, hothers]; rfl⟩
  · have he := h (e, v) (List.mem_of_find?_eq_some hfound)
    have hequal : e.equal shared := by simpa using List.find?_some hfound
    exact ⟨e, (SharedSlot.equal_iff he hs).1 hequal, he, by simp only [put, hfound, hothers]; rfl⟩

theorem MadeAs.put (h : memo.MadeAs made) (hs : shared.MadeAs made) (value : Float) :
    (memo.put shared value).MadeAs made := by
  obtain ⟨kept, -, hkept, hentries⟩ := entries_put h hs value
  intro e he
  rw [hentries] at he
  rcases List.mem_cons.1 he with rfl | he
  · exact hkept
  · exact h e (List.mem_filter.1 he).1

theorem bySlot_put (h : memo.MadeAs made) (hs : shared.MadeAs made) (value : Float) :
    (memo.put shared value).bySlot = memo.bySlot.put shared.slot value := by
  obtain ⟨kept, hslot, -, hentries⟩ := entries_put h hs value
  unfold bySlot Memo.put
  rw [hentries, List.map_cons, Prod.map, hslot, List.filter_map]
  rfl

end SharedMemo

end CodeGauge
