import CodeGauge.Report.Listing
import CodeGauge.Proofs.DirectRun

/-!
# Listings without a memo

`directListing` lists a tree with every value computed on its node. On a lowered tree a listing made
with a memo is the same (`collect_lower`), for the reason that a run of rules is: from a sound memo
each request gives the value that computing would.
-/

namespace CodeGauge

namespace Listing

/-- Adds the values of the metrics that support a declaration, each computed on it. -/
def directValues (n : Node) (ks : List (Metric Id)) (found : MetricValues) : MetricValues :=
  ks.foldl (fun found k => if k.supports n then found.insert k.name (k.compute n ∅).run else found)
    found

def directOperation (file : String) (op : Node) : OperationMetrics :=
  entry file op (directValues op Metric.ofOperations ∅)

/-- The complexity of a type, rolled up from its operations. -/
def directRollUp (mode : Rollup) (type : Node) : Float :=
  let complexity : Metric Id := Metric.operationComplexity
  let values := (type.declaredOperations.filter complexity.supports).map fun op =>
    (complexity.compute op ∅).run
  mode.reduce (values.filter (!·.isNaN))

def directType (file : String) (mode : Rollup) (type : Node) : TypeMetrics :=
  ⟨entry file type ((directValues type Metric.ofTypes ∅).insert
      (Metric.operationComplexity (m := Id)).name (directRollUp mode type)),
    type.declaredOperations.map (directOperation file)⟩

def directListing (file : String) (mode : Rollup) (root : Node) : Listing :=
  ⟨(root.descendantsOfKind .typeDeclaration).map (directType file mode),
    root.declaredOperations.map (directOperation file)⟩

/-! ## What a value list holds -/

theorem directValues_cons (n : Node) (k : Metric Id) (ks : List (Metric Id))
    (found : MetricValues) :
    directValues n (k :: ks) found =
      directValues n ks (if k.supports n then found.insert k.name (k.compute n ∅).run else found) :=
  rfl

theorem getElem?_directValues_of_notMem {n : Node} {name : String} {ks : List (Metric Id)}
    (h : name ∉ ks.map (·.name)) (found : MetricValues) :
    (directValues n ks found)[name]? = found[name]? := by
  induction ks generalizing found with
  | nil => rfl
  | cons k ks ih =>
    rw [List.map_cons, List.mem_cons, not_or] at h
    rw [directValues_cons, ih h.2]
    split
    · rw [Std.TreeMap.getElem?_insert,
        if_neg fun hc => h.1 (Std.LawfulEqCmp.eq_of_compare hc).symm]
    · rfl

/-- A supported metric is listed with its value on the node if its name belongs to no other. -/
theorem getElem?_directValues {n : Node} {k : Metric Id} (hs : k.supports n)
    {ks : List (Metric Id)} (hk : k ∈ ks) (hd : (ks.map (·.name)).Nodup) (found : MetricValues) :
    (directValues n ks found)[k.name]? = some (k.compute n ∅).run := by
  induction ks generalizing found with
  | nil => exact absurd hk List.not_mem_nil
  | cons k' ks ih =>
    obtain ⟨hnew, hd⟩ := List.nodup_cons.1 hd
    rw [directValues_cons]
    rcases List.mem_cons.1 hk with rfl | hk
    · rw [if_pos hs, getElem?_directValues_of_notMem hnew, Std.TreeMap.getElem?_insert_self]
    · exact ih hk hd _

/-- A type is listed with the values of the metrics of types, whose names no other metric has. -/
theorem getElem?_directType {n : Node} {k : Metric Id} (hk : k ∈ Metric.ofTypes)
    (hs : k.supports n) (hc : k.name ≠ "CYCLO") (file : String) (mode : Rollup) :
    (directType file mode n).metrics[k.name]? = some (k.compute n ∅).run := by
  have hne : ¬compare (Metric.operationComplexity (m := Id)).name k.name = .eq := fun h =>
    hc (Std.LawfulEqCmp.eq_of_compare h).symm
  show ((directValues n Metric.ofTypes ∅).insert _ _)[k.name]? = _
  rw [Std.TreeMap.getElem?_insert, if_neg hne]
  exact getElem?_directValues hs hk (by decide) ∅

theorem target_of_mem_ofOperations {k : Metric Id} (h : k ∈ Metric.ofOperations) :
    k.target = .operation := by
  have hall : ∀ id ∈ (Metric.ofOperations (m := Id)).map (·.toMetricId),
      id.target = .operation := by decide
  exact hall _ (List.mem_map_of_mem h)

theorem target_of_mem_ofTypes {k : Metric Id} (h : k ∈ Metric.ofTypes) : k.target = .type := by
  have hall : ∀ id ∈ (Metric.ofTypes (m := Id)).map (·.toMetricId), id.target = .type := by decide
  exact hall _ (List.mem_map_of_mem h)

/-! ## Requests give the same -/

section Yields

variable {nodes : List Node} (hd : (nodes.filterMap (·.qualifiedName?)).Nodup) (file : String)

include hd

theorem yields_values {target : MetricTarget} {n : Node} (hn : n ∈ nodes) :
    ∀ ks : List (Metric Id), (∀ k ∈ ks, k ∈ Metric.builtIn) → (∀ k ∈ ks, k.target = target) →
      ∀ found, Yields nodes (values target n ks found) (directValues n ks found)
  | [], _, _, found => fun _ hp => ⟨rfl, hp⟩
  | k :: ks, hks, ht, found => by
    have hrest := yields_values hn ks (fun k' h => hks k' (List.mem_cons_of_mem _ h))
      fun k' h => ht k' (List.mem_cons_of_mem _ h)
    intro p hp
    rw [values, directValues_cons]
    split
    · obtain ⟨hvalue, hp⟩ := yields_requestIn hd (hks k List.mem_cons_self) ∅
        (ht k List.mem_cons_self) hn p hp
      simp only [hvalue]
      exact hrest _ _ hp
    · exact hrest found p hp

theorem yields_operationEntries :
    ∀ ops : List Node, (∀ op ∈ ops, op ∈ nodes) →
      Yields nodes (operationEntries file ops) (ops.map (directOperation file))
  | [], _ => fun _ hp => ⟨rfl, hp⟩
  | op :: ops, hops => by
    intro p hp
    obtain ⟨hfound, hp⟩ := yields_values hd (hops op List.mem_cons_self) Metric.ofOperations
      (fun k h => List.mem_append_right _ h) (fun k => target_of_mem_ofOperations) ∅ p hp
    obtain ⟨hrest, hp⟩ := yields_operationEntries ops
      (fun op h => hops op (List.mem_cons_of_mem _ h)) _ hp
    refine ⟨?_, hp⟩
    rw [List.map_cons, directOperation, ← hfound, ← hrest]
    rfl

theorem yields_typeEntry (mode : Rollup) {type : Node} (h : type ∈ nodes)
    (hops : ∀ op ∈ type.declaredOperations, op ∈ nodes) :
    Yields nodes (typeEntry file mode type) (directType file mode type) := by
  intro p hp
  obtain ⟨hfound, hp⟩ := yields_values hd h Metric.ofTypes
    (fun k h => List.mem_append_left _ h) (fun k => target_of_mem_ofTypes) ∅ p hp
  obtain ⟨hrolled, hp⟩ := yields_requestAll hd (k := .operationComplexity)
    (by simp [Metric.builtIn, Metric.ofOperations]) ∅ rfl
    (type.declaredOperations.filter (Metric.operationComplexity (m := Id)).supports)
    (fun op h => hops op (List.mem_filter.1 h).1) _ hp
  obtain ⟨hentries, hp⟩ := yields_operationEntries hd file type.declaredOperations hops _ hp
  refine ⟨?_, hp⟩
  rw [directType, directRollUp, ← hfound, ← hrolled, ← hentries]
  rfl

theorem yields_typeEntries (mode : Rollup) :
    ∀ types : List Node, (∀ t ∈ types, t ∈ nodes ∧ ∀ op ∈ t.declaredOperations, op ∈ nodes) →
      Yields nodes (typeEntries file mode types) (types.map (directType file mode))
  | [], _ => fun _ hp => ⟨rfl, hp⟩
  | t :: ts, hts => by
    obtain ⟨ht, hops⟩ := hts t List.mem_cons_self
    intro p hp
    obtain ⟨hentry, hp⟩ := yields_typeEntry hd file mode ht hops p hp
    obtain ⟨hrest, hp⟩ := yields_typeEntries mode ts
      (fun t h => hts t (List.mem_cons_of_mem _ h)) _ hp
    refine ⟨?_, hp⟩
    rw [List.map_cons, ← hentry, ← hrest]
    rfl

end Yields

theorem yields_collect {root : Node} (hd : (root.nodes.filterMap (·.qualifiedName?)).Nodup)
    (file : String) (mode : Rollup) :
    Yields root.nodes (collect file root mode) (directListing file mode root) := by
  intro p hp
  obtain ⟨htypes, hp⟩ := yields_typeEntries hd file mode (root.descendantsOfKind .typeDeclaration)
    (fun t h => have ht := Node.mem_nodes_of_mem_descendantsOfKind h
      ⟨ht, fun op => Node.mem_nodes_of_mem_declaredOperations ht⟩) p hp
  obtain ⟨hfunctions, hp⟩ := yields_operationEntries hd file root.declaredOperations
    (fun op => Node.mem_nodes_of_mem_declaredOperations List.mem_cons_self) _ hp
  refine ⟨?_, hp⟩
  rw [directListing, ← htypes, ← hfunctions]
  rfl

/-- The listing of the tree of any source is what it would be if no value were remembered. -/
theorem collect_lower (language : Language) (bytes : ByteArray) (path : String) (root : Concrete)
    (file : String) (mode : Rollup) :
    (collect file (lower language bytes path root) mode ∅).1 =
      directListing file mode (lower language bytes path root) :=
  (yields_collect (qualifiedNames_lower_nodup language bytes path root) file mode ∅ .empty).1

end Listing

end CodeGauge
