import CodeGauge.Metric.Request
import CodeGauge.Proofs.MemoPlace
import CodeGauge.Proofs.Preorder

/-!
# What a project memo remembers

A project memo answers requests as the list of the values written into it would. `answer` says so on
such a list, last write first: a request that is not forced is answered with the last value written
to its place, and any other is computed and written there. A request on the wrong target has no
place and no value, a node without a qualified name has no place, and rolling up comes to requests
on the supported operations in document order.

Calculators may read and change a world. Since the world comes out the same on both sides, the same
calculators ran on the same nodes in the same order. One request keeps the memo in agreement with
the list (`agree_run`), so any number of them does (`Agree.inTurn`).
-/

namespace CodeGauge

/-- The values written so far, last one first. -/
abbrev WriteLog := List (MemoPlace × Float)

def WriteLog.last? (log : WriteLog) (place : MemoPlace) : Option Float := log.lookup place

/-- A metric requested on one declaration, as a type or as an operation. -/
structure SingleRequest (W : Type) where
  side : MetricTarget
  /-- The qualified name whose memo is asked, if there is one. -/
  home : Option QualifiedName
  metric : Metric (StateM W)
  node : Node
  force : Bool
  options : MetricOptions

/-- Anything that a project memo can be asked. -/
inductive MetricRequest (W : Type) where
  | single (request : SingleRequest W)
  | rolledUp (metric : Metric (StateM W)) (type : Node) (force : Bool) (options : MetricOptions)
    (mode : Rollup)

/-- Asks in turn, each time in the state that the time before left. -/
def inTurn {m : Type → Type} [Monad m] {ρ σ : Type} (ask : ρ → σ → m (Float × σ)) :
    List ρ → σ → m (List Float × σ)
  | [], state => pure ([], state)
  | r :: rs, state => do
    let (value, state) ← ask r state
    let (values, state) ← inTurn ask rs state
    pure (value :: values, state)

section InTurn

variable {m : Type → Type} [Monad m] {ρ ρ' σ : Type}

theorem inTurn_map (ask : ρ → σ → m (Float × σ)) (f : ρ' → ρ) :
    ∀ (rs : List ρ') (state : σ), inTurn ask (rs.map f) state = inTurn (fun r => ask (f r)) rs state
  | [], _ => rfl
  | r :: rs, state => by simp only [List.map_cons, inTurn, inTurn_map ask f rs]

/-- Requests on several operations in turn leave out the values that are no numbers. -/
theorem requestAll_eq_inTurn [LawfulMonad m] (k : Metric m) (force : Bool)
    (options : MetricOptions) : ∀ (ops : List Node) (p : ProjectMemo),
      k.requestAll force options ops p = do
        let (values, p) ← inTurn (k.requestIn .operation · force options) ops p
        pure (values.filter (!·.isNaN), p)
  | [], p => by simp only [Metric.requestAll, inTurn, pure_bind, List.filter_nil]
  | op :: ops, p => by
    simp only [Metric.requestAll, inTurn, requestAll_eq_inTurn k force options ops, bind_assoc,
      pure_bind, List.filter_cons, Bool.not_eq_true', ← Bool.not_eq_true, ite_not]

end InTurn

/-- The operations of a type that a metric supports, in the pre-order of the nodes below it. -/
theorem supportedOperations_eq {m : Type → Type} (k : Metric m) (type : Node) :
    type.declaredOperations.filter k.supports =
      (Node.preorders (some .typeDeclaration) type.children).filter fun n =>
        n.kind = .operationDeclaration && k.supports n := by
  rw [Node.declaredOperations, Node.descendantsWithin, Node.nodesBelow_eq, List.filter_filter]
  exact List.filter_congr fun n _ => Bool.and_comm _ _

variable {W : Type}

/-! ## Asking the memo -/

/-- A request on the memo of its home, or on an empty one that is dropped. -/
def SingleRequest.run (r : SingleRequest W) (p : ProjectMemo) : StateM W (Float × ProjectMemo) :=
  match r.home with
  | some name => do
    let (value, memo) ← r.metric.request r.side r.node r.force r.options (p.get r.side name)
    pure (value, p.set r.side name memo)
  | none => do
    let (value, _) ← r.metric.request r.side r.node r.force r.options ∅
    pure (value, p)

def MetricRequest.run : MetricRequest W → ProjectMemo → StateM W (Float × ProjectMemo)
  | single r, p => r.run p
  | rolledUp k type force options mode, p => k.rollUp type.declaredOperations force options mode p

/-- The request on a declaration under its own qualified name. -/
def Metric.requestOn (k : Metric (StateM W)) (side : MetricTarget) (n : Node) (force : Bool)
    (options : MetricOptions) : SingleRequest W :=
  ⟨side, n.qualifiedName?, k, n, force, options⟩

theorem requestIn_eq_run (k : Metric (StateM W)) (side : MetricTarget) (n : Node) (force : Bool)
    (options : MetricOptions) (p : ProjectMemo) :
    k.requestIn side n force options p = (k.requestOn side n force options).run p := rfl

/-! ## What the writes say -/

namespace SingleRequest

/-- Where a request reads and writes. -/
def place? (r : SingleRequest W) : Option MemoPlace :=
  if r.metric.target = r.side then r.home.map (⟨r.side, ·, r.metric.slot r.options⟩) else none

/-- The value that makes computing unnecessary: the last one written to the request's place. -/
def remembered? (r : SingleRequest W) (log : WriteLog) : Option Float :=
  if r.force then none else r.place?.bind log.last?

/-- The answer to a request after some writes, and the writes after it. -/
def answer (r : SingleRequest W) (log : WriteLog) : StateM W (Float × WriteLog) :=
  if r.metric.target ≠ r.side then pure (Rollup.notANumber, log)
  else match r.remembered? log with
    | some value => pure (value, log)
    | none => do
      let value ← r.metric.compute r.node r.options
      pure (value, (r.place?.map (·, value)).toList ++ log)

end SingleRequest

/-- The requests that rolling up comes to: one for each supported operation of the type, in document
order and without those of nested types. -/
def Metric.operationRequests (k : Metric (StateM W)) (type : Node) (force : Bool)
    (options : MetricOptions) : List (SingleRequest W) :=
  let inside := Node.preorders (some .typeDeclaration) type.children
  let operations := inside.filter fun n => n.kind = .operationDeclaration && k.supports n
  operations.map (k.requestOn .operation · force options)

def MetricRequest.answer : MetricRequest W → WriteLog → StateM W (Float × WriteLog)
  | single r, log => r.answer log
  | rolledUp k type force options mode, log => do
    let (values, log) ← inTurn SingleRequest.answer (k.operationRequests type force options) log
    pure (mode.reduce (values.filter (!·.isNaN)), log)

/-- The places that a request may write. -/
def MetricRequest.places : MetricRequest W → List MemoPlace
  | single r => r.place?.toList
  | rolledUp k type force options _ => (k.operationRequests type force options).filterMap (·.place?)

theorem last?_cons (log : WriteLog) (written place : MemoPlace) (value : Float) :
    WriteLog.last? ((written, value) :: log) place =
      if place = written then some value else log.last? place := by
  unfold WriteLog.last?
  by_cases h : place = written
  · rw [if_pos h, h, List.lookup_cons_self]
  · rw [if_neg h, List.lookup_cons, beq_false_of_ne h]

section Frame

variable {place : MemoPlace}

theorem last?_answer {r : SingleRequest W} (h : r.place? ≠ some place) (log : WriteLog) (w : W) :
    WriteLog.last? ((r.answer log).run w).1.2 place = log.last? place := by
  unfold SingleRequest.answer
  split
  · rfl
  · split
    · rfl
    · change WriteLog.last? ((r.place?.map (·, _)).toList ++ log) place = _
      rcases hp : r.place? with _ | written
      · rfl
      · exact (last?_cons log written place _).trans (if_neg fun he => h (by rw [hp, he]))

theorem last?_inTurn : ∀ {rs : List (SingleRequest W)}, (∀ r ∈ rs, r.place? ≠ some place) →
    ∀ (log : WriteLog) (w : W),
      WriteLog.last? ((inTurn SingleRequest.answer rs log).run w).1.2 place = log.last? place
  | [], _, _, _ => rfl
  | r :: rs, h, log, w => by
    have hrest := last?_inTurn (fun r hr => h r (List.mem_cons_of_mem _ hr))
      ((r.answer log).run w).1.2 ((r.answer log).run w).2
    exact hrest.trans (last?_answer (h r List.mem_cons_self) log w)

/-- The last values written to other places stay the last ones. -/
theorem last?_request : ∀ {r : MetricRequest W}, place ∉ r.places → ∀ (log : WriteLog) (w : W),
    WriteLog.last? ((r.answer log).run w).1.2 place = log.last? place
  | .single r, h, log, w => last?_answer (fun he => h (by simp [MetricRequest.places, he])) log w
  | .rolledUp k type force options mode, h, log, w =>
    last?_inTurn (fun r hr he => h (List.mem_filterMap.2 ⟨r, hr, he⟩)) log w

end Frame

/-! ## Agreement -/

/-- Whether every place of a memo holds what was last written there. -/
def ProjectMemo.Reflects (p : ProjectMemo) (log : WriteLog) : Prop :=
  ∀ place, p.contents place = log.last? place

namespace ProjectMemo.Reflects

theorem empty : (∅ : ProjectMemo).Reflects [] := contents_empty

variable {p : ProjectMemo} {log : WriteLog}

theorem touch (h : p.Reflects log) (side : MetricTarget) (name : QualifiedName) :
    (p.set side name (p.get side name)).Reflects log :=
  fun place => (contents_set_get p side name place).trans (h place)

theorem write (h : p.Reflects log) (side : MetricTarget) (name : QualifiedName) (slot : Slot)
    (value : Float) :
    (p.set side name ((p.get side name).put slot value)).Reflects
      ((⟨side, name, slot⟩, value) :: log) := by
  intro place
  rw [last?_cons, contents_set_put, h place]

end ProjectMemo.Reflects

/-- Two computations, on a memo and on writes, that do the same to the world and give the same
answer, and of which the memo ends up reflecting the writes. -/
def Agree {α : Type} (asked : StateM W (α × ProjectMemo)) (told : StateM W (α × WriteLog)) : Prop :=
  ∀ w, (asked.run w).1.1 = (told.run w).1.1 ∧ (asked.run w).2 = (told.run w).2 ∧
    (asked.run w).1.2.Reflects (told.run w).1.2

namespace Agree

variable {α β : Type} {p : ProjectMemo} {log : WriteLog}

theorem pure (h : p.Reflects log) (a : α) :
    Agree (W := W) (Pure.pure (a, p)) (Pure.pure (a, log)) :=
  fun _ => ⟨rfl, rfl, h⟩

/-- Agreement goes on through steps that agree whatever the first ones answer. -/
theorem bind {asked : StateM W (α × ProjectMemo)} {told : StateM W (α × WriteLog)}
    {next : α × ProjectMemo → StateM W (β × ProjectMemo)}
    {next' : α × WriteLog → StateM W (β × WriteLog)} (h : Agree asked told)
    (hnext : ∀ a p log, p.Reflects log → Agree (next (a, p)) (next' (a, log))) :
    Agree (asked >>= next) (told >>= next') := by
  intro w
  obtain ⟨ha, hw, hr⟩ := h w
  have hasked : (asked >>= next).run w = (next (asked.run w).1).run (asked.run w).2 := rfl
  have htold : (told >>= next').run w = (next' (told.run w).1).run (told.run w).2 := rfl
  rw [hasked, htold]
  generalize asked.run w = x at ha hw hr ⊢
  generalize told.run w = y at ha hw hr ⊢
  obtain ⟨⟨a, p⟩, v⟩ := x
  obtain ⟨⟨_, log⟩, _⟩ := y
  obtain rfl : a = _ := ha
  obtain rfl : v = _ := hw
  exact hnext a p log hr v

theorem map {asked : StateM W (α × ProjectMemo)} {told : StateM W (α × WriteLog)}
    (h : Agree asked told) (f : α → β) :
    Agree (do let (a, p) ← asked; Pure.pure (f a, p))
      (do let (a, log) ← told; Pure.pure (f a, log)) :=
  h.bind fun a _ _ hr => .pure hr (f a)

/-- Agreement holds after a calculator ran, if it holds whatever the value. -/
theorem compute (c : StateM W α) {next : α → StateM W (β × ProjectMemo)}
    {next' : α → StateM W (β × WriteLog)} (hnext : ∀ a, Agree (next a) (next' a)) :
    Agree (c >>= next) (c >>= next') :=
  fun w => hnext (c.run w).1 (c.run w).2

theorem inTurn {ρ : Type} {ask : ρ → ProjectMemo → StateM W (Float × ProjectMemo)}
    {tell : ρ → WriteLog → StateM W (Float × WriteLog)}
    (h : ∀ r p log, p.Reflects log → Agree (ask r p) (tell r log)) :
    ∀ (rs : List ρ) {p : ProjectMemo} {log : WriteLog}, p.Reflects log →
      Agree (CodeGauge.inTurn ask rs p) (CodeGauge.inTurn tell rs log)
  | [], _, _, hr => .pure hr []
  | r :: rs, _, _, hr => by
    refine (h r _ _ hr).bind fun value p log hr => ?_
    exact (inTurn h rs hr).bind fun values p log hr => .pure hr (value :: values)

end Agree

/-! ## One request -/

section Step

variable {p : ProjectMemo} {log : WriteLog}

/-- A single request on the memo agrees with the answer that the writes give, and so does the memo
after it with the writes after it. -/
theorem agree_run (r : SingleRequest W) (hr : p.Reflects log) : Agree (r.run p) (r.answer log) := by
  obtain ⟨side, home, k, n, force, options⟩ := r
  by_cases ht : k.target = side
  case neg =>
    -- No calculator runs; a memo that was looked at is put back as it was.
    simp only [SingleRequest.run, SingleRequest.answer, Metric.request, ht, ne_eq,
      not_false_eq_true, if_true]
    rcases home with _ | name
    · exact .pure hr _
    · exact .pure (hr.touch side name) _
  subst ht
  rcases home with _ | name
  · simp only [SingleRequest.run, SingleRequest.answer, Metric.request, Metric.fetch,
      SingleRequest.remembered?, SingleRequest.place?, Memo.get?_empty, Option.map_none,
      Option.bind_none, ite_self, if_true, ne_eq, not_true_eq_false, if_false, bind_assoc,
      pure_bind]
    exact .compute _ fun value => .pure hr value
  · have hplace := hr ⟨k.target, name, k.slot options⟩
    simp only [SingleRequest.run, SingleRequest.answer, Metric.request, Metric.fetch,
      SingleRequest.remembered?, SingleRequest.place?, Option.map_some, Option.bind_some,
      if_true, ne_eq, not_true_eq_false, if_false, ← hplace, ProjectMemo.contents]
    cases if force then none else (p.get k.target name).get? (k.slot options)
    case some value => exact .pure (hr.touch k.target name) value
    case none =>
      simp only [bind_assoc, pure_bind]
      exact .compute _ fun value => .pure (hr.write k.target name (k.slot options) value) value

theorem agree_requestAll (k : Metric (StateM W)) (force : Bool) (options : MetricOptions)
    (ops : List Node) (hr : p.Reflects log) :
    Agree (k.requestAll force options ops p) (do
      let (values, log) ←
        inTurn SingleRequest.answer (ops.map (k.requestOn .operation · force options)) log
      pure (values.filter (!·.isNaN), log)) := by
  rw [requestAll_eq_inTurn, inTurn_map]
  have hrequest (op : Node) (p : ProjectMemo) (log : WriteLog) (hr : p.Reflects log) :
      Agree (k.requestIn .operation op force options p)
        ((k.requestOn .operation op force options).answer log) := by
    rw [requestIn_eq_run]
    exact agree_run _ hr
  exact (Agree.inTurn hrequest ops hr).map fun values => values.filter (!·.isNaN)

theorem operations_eq (k : Metric (StateM W)) (type : Node) (force : Bool)
    (options : MetricOptions) :
    (type.declaredOperations.filter k.supports).map (k.requestOn .operation · force options) =
      k.operationRequests type force options := by
  rw [supportedOperations_eq, Metric.operationRequests]

theorem agree_request : ∀ (r : MetricRequest W) (p : ProjectMemo) (log : WriteLog),
    p.Reflects log → Agree (r.run p) (r.answer log)
  | .single r, _, _, hr => agree_run r hr
  | .rolledUp k type force options mode, _, _, hr => by
    have := (agree_requestAll k force options (type.declaredOperations.filter k.supports) hr).map
      mode.reduce
    simp only [operations_eq, bind_assoc, pure_bind] at this
    exact this

/-- Whatever a fresh project memo is asked, in any order, the answers are those that the values
written before give, and every place holds the last of them. As the calculators can tell from the
world and leave anything in it, they are run for the same requests too. One more request writes to
its own places only. -/
theorem requests_eq_answers (requests : List (MetricRequest W)) (w : W) :
    let asked := (inTurn MetricRequest.run requests ∅).run w
    let told := (inTurn MetricRequest.answer requests []).run w
    asked.1.1 = told.1.1 ∧ asked.2 = told.2 ∧
      (∀ place, asked.1.2.contents place = WriteLog.last? told.1.2 place) ∧
      ∀ (r : MetricRequest W) (place : MemoPlace), place ∉ r.places →
        ((r.run asked.1.2).run asked.2).1.2.contents place = asked.1.2.contents place := by
  intro asked told
  obtain ⟨hanswers, hworld, hr⟩ := Agree.inTurn agree_request requests .empty w
  refine ⟨hanswers, hworld, hr, fun r place h => ?_⟩
  obtain ⟨-, -, hafter⟩ := agree_request r _ _ hr asked.2
  rw [hafter place, hr place]
  exact last?_request h _ _

end Step

end CodeGauge
