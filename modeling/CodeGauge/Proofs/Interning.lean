import Mathlib.Data.List.Induction
import Mathlib.Data.List.Sort
import Mathlib.Data.String.Basic
import CodeGauge.Metric.Catalog
import CodeGauge.Proofs.SharedSlots

/-!
# Interning

Callers ask a registry for instances by metric and option list, in any order, and may clear it at
any time. The answer to a call is found from the registry before it (`getElem?_answers`).

An instance that was handed out is the one for its slot until the next clear (`Current`), and what
is made after a clear has a higher number than all before (`From`). So two answers are the same
instance exactly if their slots agree and no clear lies between (`sameInstance_answers_iff`), while
they are equal exactly if their slots agree. A memo read under one instance gives the value last
written under an equal one (`get?_written`).
-/

namespace CodeGauge

/-! ## Option sets -/

namespace MetricOptions

theorem mem_names_ofList {name : String} {names : List String} :
    name ∈ (ofList names).names ↔ name ∈ names := by
  induction names with
  | nil => exact Iff.rfl
  | cons n ns ih =>
    show name ∈ place n (ofList ns).names ↔ _
    rw [mem_place, ih, List.mem_cons]

theorem contains_ofList {name : String} {names : List String} :
    (ofList names).contains name ↔ name ∈ names := by
  rw [contains, List.contains_iff_mem, mem_names_ofList]

/-- Lists make one set if they have the same members, whatever their order and repetitions. -/
theorem ofList_eq_iff {ns ns' : List String} :
    ofList ns = ofList ns' ↔ ∀ n, n ∈ ns ↔ n ∈ ns' := by
  constructor
  · intro h n
    rw [← mem_names_ofList, h, mem_names_ofList]
  · intro h
    have hnames : (ofList ns).names = (ofList ns').names :=
      (ofList ns).ascending.eq_of_mem_iff (ofList ns').ascending fun n => by
        rw [mem_names_ofList, mem_names_ofList, h]
    cases hns : ofList ns
    cases hns' : ofList ns'
    simpa [hns, hns'] using hnames

end MetricOptions

/-! ## Answers of a registry -/

namespace SlotRegistry

variable {r : SlotRegistry} {cs : List RegistryCall} {i j : Nat} {a b : SharedSlot}

/-- What a registry answers to a call: an instance, or nothing to a clear. -/
def answer (r : SlotRegistry) : RegistryCall → Option SharedSlot
  | .instanceOf slot => some (r.instanceOf slot).1
  | .clear => none

/-- The answers to some calls. -/
def answers (r : SlotRegistry) : List RegistryCall → List (Option SharedSlot)
  | [] => []
  | c :: cs => r.answer c :: (r.call c).answers cs

theorem getElem?_answers (r : SlotRegistry) (cs : List RegistryCall) (i : Nat) :
    (r.answers cs)[i]? = cs[i]?.map (r.calls (cs.take i)).answer := by
  induction cs generalizing r i with
  | nil => simp [answers]
  | cons c cs ih =>
    cases i with
    | zero => simp [answers, calls]
    | succ i => simp [answers, calls, ih]

/-- An answer is the instance of the slot that was asked for. -/
theorem call_of_answer (h : (empty.answers cs)[i]? = some (some a)) :
    cs[i]? = some (.instanceOf a.slot) ∧
      ((empty.calls (cs.take i)).instanceOf a.slot).1 = a := by
  rw [getElem?_answers, Option.map_eq_some_iff] at h
  obtain ⟨c, hc, ha⟩ := h
  cases c with
  | clear => cases ha
  | instanceOf slot =>
    obtain rfl := Option.some_inj.1 ha
    obtain ⟨made, -, hmade⟩ := Numbers.empty.calls (cs.take i)
    rw [(hmade.instanceOf slot).1]
    exact ⟨hc, rfl⟩

/-- Every call for an instance is answered with one of the slot. -/
theorem answer_of_call {slot : Slot} (h : cs[i]? = some (.instanceOf slot)) :
    ∃ a, (empty.answers cs)[i]? = some (some a) ∧ a.slot = slot := by
  obtain ⟨made, -, hmade⟩ := Numbers.empty.calls (cs.take i)
  exact ⟨_, by rw [getElem?_answers, h]; rfl, (hmade.instanceOf slot).1⟩

/-- The instances handed out during some calls are numbered together. -/
theorem Numbers.answers {made : List Slot} (h : r.Numbers made) (cs : List RegistryCall) :
    ∃ made', made <+: made' ∧ ∀ a, some a ∈ r.answers cs → a.MadeAs made' := by
  induction cs generalizing r made with
  | nil => exact ⟨made, List.prefix_rfl, fun _ ha => absurd ha List.not_mem_nil⟩
  | cons c cs ih =>
    cases c with
    | clear =>
      obtain ⟨made', hp, hall⟩ := ih h.clear
      exact ⟨made', hp, fun a ha => hall a ((List.mem_cons.1 ha).resolve_left nofun)⟩
    | instanceOf slot =>
      obtain ⟨-, made', hp, hnew, hmade'⟩ := h.instanceOf slot
      obtain ⟨made'', hp', hall⟩ := ih hmade'
      refine ⟨made'', hp.trans hp', fun a ha => ?_⟩
      rcases List.mem_cons.1 ha with ha | ha
      · obtain rfl := Option.some_inj.1 ha
        exact hnew.mono hp'
      · exact hall a ha

/-! ## Same instances -/

theorem calls_take_succ {c : RegistryCall} (h : cs[i]? = some c) :
    r.calls (cs.take (i + 1)) = (r.calls (cs.take i)).call c := by
  rw [List.take_add_one, h, calls, List.foldl_append]
  rfl

/-- What holds after some calls, and is kept by the next ones, holds after those. -/
theorem holds_calls_take {P : SlotRegistry → Prop} (hij : i ≤ j) (hi : P (r.calls (cs.take i)))
    (hstep : ∀ k c s, i ≤ k → k < j → cs[k]? = some c → P s → P (s.call c)) :
    P (r.calls (cs.take j)) := by
  induction j, hij using Nat.le_induction with
  | base => exact hi
  | succ j hij ih =>
    have hj := ih fun k c s hik hk => hstep k c s hik (by omega)
    rcases hc : cs[j]? with _ | c
    · rwa [List.take_add_one, hc, Option.toList_none, List.append_nil]
    · rw [calls_take_succ hc]
      exact hstep j c _ hij (Nat.lt_succ_self j) hc hj

/-- Whether an instance is the one that is handed out for its slot. -/
def Current (r : SlotRegistry) (a : SharedSlot) : Prop :=
  r.instances.find? (·.slot = a.slot) = some a

theorem current_instanceOf (r : SlotRegistry) (slot : Slot) :
    (r.instanceOf slot).2.Current (r.instanceOf slot).1 := by
  unfold instanceOf
  split
  · rename_i shared hfound
    have hslot : shared.slot = slot := by simpa using List.find?_some hfound
    rwa [Current, hslot]
  · simp [Current]

theorem Current.call (h : r.Current a) {c : RegistryCall} (hc : c ≠ .clear) :
    (r.call c).Current a := by
  cases c with
  | clear => exact absurd rfl hc
  | instanceOf slot =>
    show (r.instanceOf slot).2.Current a
    unfold instanceOf
    split
    · exact h
    · rename_i hnone
      have hne : slot ≠ a.slot := by
        rintro rfl
        rw [Current, hnone] at h
        cases h
      rw [Current, List.find?_cons_of_neg (by simpa using hne)]
      exact h

/-- Whether a registry numbers its instances, those it has and those to come, from one number on. -/
def From (n : Nat) (r : SlotRegistry) : Prop := n ≤ r.next ∧ ∀ a ∈ r.instances, n ≤ a.serial

theorem from_clear (r : SlotRegistry) : From r.next r.clear :=
  ⟨Nat.le_refl _, fun _ h => absurd h List.not_mem_nil⟩

theorem From.instanceOf {n : Nat} (h : From n r) (slot : Slot) :
    n ≤ (r.instanceOf slot).1.serial ∧ From n (r.instanceOf slot).2 := by
  unfold SlotRegistry.instanceOf
  split
  · rename_i shared hfound
    exact ⟨h.2 shared (List.mem_of_find?_eq_some hfound), h⟩
  · refine ⟨h.1, Nat.le_succ_of_le h.1, fun a ha => ?_⟩
    rcases List.mem_cons.1 ha with rfl | ha
    · exact h.1
    · exact h.2 a ha

theorem From.call {n : Nat} (h : From n r) (c : RegistryCall) : From n (r.call c) := by
  cases c with
  | instanceOf slot => exact (h.instanceOf slot).2
  | clear => exact ⟨h.1, fun _ ha => absurd ha List.not_mem_nil⟩

theorem next_le_call (r : SlotRegistry) (c : RegistryCall) : r.next ≤ (r.call c).next := by
  cases c with
  | clear => exact Nat.le_refl _
  | instanceOf slot =>
    show r.next ≤ (r.instanceOf slot).2.next
    unfold instanceOf
    split
    · exact Nat.le_refl _
    · exact Nat.le_succ _

/-- After an answer, the next instance to be made has a higher number than the answer. -/
theorem serial_lt_next (h : (empty.answers cs)[i]? = some (some a)) (hij : i < j) :
    a.serial < (empty.calls (cs.take j)).next := by
  obtain ⟨hcall, ha⟩ := call_of_answer h
  refine holds_calls_take (P := (a.serial < ·.next)) (Nat.succ_le_of_lt hij) ?_
    fun _ c s _ _ _ hlt => hlt.trans_le (next_le_call s c)
  obtain ⟨made, -, hmade⟩ := Numbers.empty.calls (cs.take i)
  obtain ⟨-, made', -, hnew, hmade'⟩ := hmade.instanceOf a.slot
  rw [ha] at hnew
  rw [calls_take_succ hcall]
  show _ < SlotRegistry.next (SlotRegistry.instanceOf _ a.slot).2
  rw [← hmade'.1]
  exact (List.getElem?_eq_some_iff.1 hnew).1

/-- Two answers are the same instance exactly if they are of one slot and no clear lies between. -/
theorem sameInstance_answers_iff (hij : i < j) (ha : (empty.answers cs)[i]? = some (some a))
    (hb : (empty.answers cs)[j]? = some (some b)) :
    a.sameInstance b ↔ a.slot = b.slot ∧ ∀ k, i < k → k < j → cs[k]? ≠ some .clear := by
  obtain ⟨hcall, ha'⟩ := call_of_answer ha
  obtain ⟨-, hb'⟩ := call_of_answer hb
  constructor
  · intro hsame
    obtain ⟨made, -, hmade⟩ := Numbers.empty.answers cs
    have hequal : a.equal b := by rw [SharedSlot.equal, hsame, Bool.true_or]
    refine ⟨(SharedSlot.equal_iff (hmade a (List.mem_of_getElem? ha))
      (hmade b (List.mem_of_getElem? hb))).1 hequal, fun k hik hkj hclear => ?_⟩
    -- what is made after the clear has a higher number
    have hfrom : From (empty.calls (cs.take k)).next (empty.calls (cs.take j)) := by
      refine holds_calls_take (Nat.succ_le_of_lt hkj) ?_ fun _ c _ _ _ _ h => h.call c
      rw [calls_take_succ hclear]
      exact from_clear _
    have hlt := serial_lt_next ha hik
    have hle := (hfrom.instanceOf b.slot).1
    rw [hb'] at hle
    have hserial : a.serial = b.serial := by simpa [SharedSlot.sameInstance] using hsame
    omega
  · rintro ⟨hslot, hclear⟩
    have hcurrent : (empty.calls (cs.take j)).Current a := by
      refine holds_calls_take (P := (·.Current a)) (Nat.succ_le_of_lt hij) ?_
        fun k c s hik hkj hc h => h.call fun hc' => hclear k hik hkj (hc' ▸ hc)
      have hnew := current_instanceOf (empty.calls (cs.take i)) a.slot
      rw [ha'] at hnew
      rwa [calls_take_succ hcall]
    rw [Current, hslot] at hcurrent
    rw [instanceOf, hcurrent] at hb'
    obtain rfl : a = b := hb'
    exact beq_self_eq_true a.serial

end SlotRegistry

/-! ## Memos under answers -/

namespace SharedMemo

/-- The memo after some values were put under instances, one after the other. -/
def written (writes : List (SharedSlot × Float)) : SharedMemo :=
  writes.foldl (fun memo w => memo.put w.1 w.2) empty

variable {made : List Slot} {a b : SharedSlot}

theorem written_concat (writes : List (SharedSlot × Float)) (w : SharedSlot × Float) :
    written (writes ++ [w]) = (written writes).put w.1 w.2 :=
  List.foldl_concat ..

theorem madeAs_written {writes : List (SharedSlot × Float)}
    (h : ∀ w ∈ writes, w.1.MadeAs made) : (written writes).MadeAs made := by
  induction writes using List.reverseRecOn with
  | nil => exact .empty
  | append_singleton writes w ih =>
    rw [written_concat]
    exact (ih fun w' hw' => h w' (List.mem_append_left _ hw')).put (h w (by simp)) w.2

/-- A value that is put under an instance is found under the instances equal to it, and leaves what
the others find. -/
theorem get?_put {memo : SharedMemo} (h : memo.MadeAs made) (ha : a.MadeAs made)
    (hb : b.MadeAs made) (value : Float) :
    (memo.put a value).get? b = if a.equal b then some value else memo.get? b := by
  rw [get?_eq (h.put ha value) hb, bySlot_put h ha, get?_eq h hb]
  by_cases hslot : a.slot = b.slot
  · rw [if_pos ((SharedSlot.equal_iff ha hb).2 hslot), hslot, Memo.get?_put_self]
  · rw [if_neg fun hequal => hslot ((SharedSlot.equal_iff ha hb).1 hequal),
      Memo.get?_put_of_ne (Ne.symm hslot)]

/-- The value found under an instance is the one last written under an instance equal to it. -/
theorem get?_written {writes : List (SharedSlot × Float)} (h : ∀ w ∈ writes, w.1.MadeAs made)
    (hb : b.MadeAs made) :
    (written writes).get? b = (writes.reverse.find? (·.1.equal b)).map (·.2) := by
  induction writes using List.reverseRecOn with
  | nil => rfl
  | append_singleton writes w ih =>
    have hwrites : ∀ w' ∈ writes, w'.1.MadeAs made := fun w' hw' =>
      h w' (List.mem_append_left _ hw')
    rw [written_concat, get?_put (madeAs_written hwrites) (h w (by simp)) hb, List.reverse_concat,
      List.find?_cons, ih hwrites]
    cases w.1.equal b <;> rfl

end SharedMemo

/-! ## Calls with metrics and options -/

variable {m : Type → Type}

/-- A call as its callers make it: for the instance of a metric with some options, or to clear. -/
inductive KeyCall (m : Type → Type) where
  | get (metric : Metric m) (options : List String)
  | clear

def KeyCall.registryCall : KeyCall m → RegistryCall
  | get metric options => .instanceOf (metric.slot (.ofList options))
  | clear => .clear

theorem KeyCall.registryCall_eq_clear {c : KeyCall m} : c.registryCall = .clear ↔ c = .clear := by
  cases c <;> simp [registryCall]

theorem slot_eq_iff {k l : Metric m} {os ps : List String} :
    k.slot (.ofList os) = l.slot (.ofList ps) ↔
      k.name = l.name ∧ k.target = l.target ∧ ∀ o, o ∈ os ↔ o ∈ ps := by
  obtain ⟨⟨name, target⟩, -, -⟩ := k
  obtain ⟨⟨name', target'⟩, -, -⟩ := l
  simp [Metric.slot, MetricOptions.ofList_eq_iff, and_assoc]

/-- Whatever is asked of a registry and however often it is cleared, each answer is of the name, the
target and the set of options asked for; answers are equal exactly if these agree, and the same
instance exactly if no clear lies between as well. Of the values written under answers, each answer
finds the last one written under an equal one. -/
theorem answers_interned (calls : List (KeyCall m)) :
    let answers := SlotRegistry.empty.answers (calls.map (·.registryCall))
    (∀ (i : Nat) (k : Metric m) (os : List String), calls[i]? = some (.get k os) →
      ∃ a, answers[i]? = some (some a) ∧ a.slot.metric.name = k.name ∧
        a.slot.metric.target = k.target ∧ ∀ o, a.slot.options.contains o ↔ o ∈ os) ∧
    (∀ (i j : Nat) (k l : Metric m) (os ps : List String) (a b : SharedSlot),
      calls[i]? = some (.get k os) → calls[j]? = some (.get l ps) →
      answers[i]? = some (some a) → answers[j]? = some (some b) →
        (a.equal b ↔ k.name = l.name ∧ k.target = l.target ∧ ∀ o, o ∈ os ↔ o ∈ ps) ∧
        (i < j → (a.sameInstance b ↔
          (k.name = l.name ∧ k.target = l.target ∧ ∀ o, o ∈ os ↔ o ∈ ps) ∧
            ∀ n, i < n → n < j → calls[n]? ≠ some .clear))) ∧
    ∀ writes : List (SharedSlot × Float), (∀ w ∈ writes, some w.1 ∈ answers) →
      ∀ b, some b ∈ answers →
        (SharedMemo.written writes).get? b = (writes.reverse.find? (·.1.equal b)).map (·.2) ∧
        ∀ a v, some a ∈ answers → ((SharedMemo.written writes).put a v).get? b =
          if a.equal b then some v else (SharedMemo.written writes).get? b := by
  intro answers
  have hget {i : Nat} {k : Metric m} {os : List String} (h : calls[i]? = some (.get k os)) :
      (calls.map (·.registryCall))[i]? = some (.instanceOf (k.slot (.ofList os))) := by
    rw [List.getElem?_map, h]
    rfl
  have hslot {i : Nat} {k : Metric m} {os : List String} {a : SharedSlot}
      (h : calls[i]? = some (.get k os)) (ha : answers[i]? = some (some a)) :
      a.slot = k.slot (.ofList os) := by
    have hcall := (SlotRegistry.call_of_answer ha).1
    rw [hget h, Option.some_inj] at hcall
    exact (RegistryCall.instanceOf.inj hcall).symm
  obtain ⟨made, -, hmade⟩ := SlotRegistry.Numbers.empty.answers (calls.map (·.registryCall))
  refine ⟨fun i k os hi => ?_, fun i j k l os ps a b hi hj ha hb => ?_,
    fun writes hwrites b hb => ?_⟩
  · obtain ⟨a, ha, hslot⟩ := SlotRegistry.answer_of_call (hget hi)
    refine ⟨a, ha, ?_⟩
    rw [hslot]
    exact ⟨rfl, rfl, fun o => MetricOptions.contains_ofList⟩
  · have hclear (n : Nat) : (calls.map (·.registryCall))[n]? = some .clear ↔
        calls[n]? = some .clear := by
      simp [KeyCall.registryCall_eq_clear]
    rw [← slot_eq_iff, ← hslot hi ha, ← hslot hj hb]
    refine ⟨SharedSlot.equal_iff (hmade a (List.mem_of_getElem? ha))
      (hmade b (List.mem_of_getElem? hb)), fun hij => ?_⟩
    rw [SlotRegistry.sameInstance_answers_iff hij ha hb]
    simp only [ne_eq, hclear]
  · have hwrites : ∀ w ∈ writes, w.1.MadeAs made := fun w hw => hmade w.1 (hwrites w hw)
    exact ⟨SharedMemo.get?_written hwrites (hmade b hb), fun a v ha =>
      SharedMemo.get?_put (SharedMemo.madeAs_written hwrites) (hmade a ha) (hmade b hb) v⟩

/-! ## Calls around a clear -/

/-- Calls for the operation count, with nested types and without, and a clear between them. -/
def nestedCalls : List (KeyCall Id) :=
  [.get Metric.typeOperations [Metric.countNested],
   .get Metric.typeOperations [Metric.countNested, Metric.countNested], .clear,
   .get Metric.typeOperations [Metric.countNested], .get Metric.typeOperations []]

/-- The clear parts one instance from another, and what is found under the one is found under the
other. -/
theorem answers_around_clear :
    let answers := SlotRegistry.empty.answers (nestedCalls.map (·.registryCall))
    ∃ a b c d, answers[0]? = some (some a) ∧ answers[1]? = some (some b) ∧
      answers[3]? = some (some c) ∧ answers[4]? = some (some d) ∧
      a.sameInstance b ∧ a.equal c ∧ ¬a.sameInstance c ∧ ¬c.equal d ∧
      (SharedMemo.empty.put a 3).get? c = some 3 ∧
      (SharedMemo.empty.put a 3).get? d = none := by
  intro answers
  obtain ⟨hanswer, hpair, hmemo⟩ := answers_interned nestedCalls
  obtain ⟨a, ha, -⟩ := hanswer 0 _ _ rfl
  obtain ⟨b, hb, -⟩ := hanswer 1 _ _ rfl
  obtain ⟨c, hc, -⟩ := hanswer 3 _ _ rfl
  obtain ⟨d, hd, -⟩ := hanswer 4 _ _ rfl
  have hab := (hpair 0 1 _ _ _ _ a b rfl rfl ha hb).2 (by decide)
  have hac := hpair 0 3 _ _ _ _ a c rfl rfl ha hc
  have had := (hpair 0 4 _ _ _ _ a d rfl rfl ha hd).1
  have hcd := (hpair 3 4 _ _ _ _ c d rfl rfl hc hd).1
  have hput {x : SharedSlot} (hx : some x ∈ answers) :=
    (hmemo [] (fun _ h => absurd h List.not_mem_nil) x hx).2 a 3 (List.mem_of_getElem? ha)
  have hequal : a.equal c := hac.1.2 ⟨rfl, rfl, fun _ => Iff.rfl⟩
  have hother : ¬a.equal d := fun h => by simpa using had.1 h
  refine ⟨a, b, c, d, ha, hb, hc, hd, hab.2 ⟨⟨rfl, rfl, by simp⟩, by omega⟩, hequal, fun h => ?_,
    fun h => by simpa using hcd.1 h, ?_, ?_⟩
  · exact ((hac.2 (by decide)).1 h).2 2 (by decide) (by decide) rfl
  · exact (hput (List.mem_of_getElem? hc)).trans (if_pos hequal)
  · exact (hput (List.mem_of_getElem? hd)).trans (if_neg hother)

end CodeGauge
