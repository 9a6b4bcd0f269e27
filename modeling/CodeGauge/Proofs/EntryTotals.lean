import CodeGauge.Proofs.DirectListing
import CodeGauge.Proofs.Ownership
import CodeGauge.Proofs.RollupValue

/-!
# A listed type adds up

What a listing shows for a type comes about in three ways: the weight is computed on the type, the
complexity is rolled up through the memo, and the operations are listed one by one. All three go
over the same operations and count the same decisions, so an entry agrees with itself
(`typeEntries_addUp`).
-/

namespace CodeGauge

/-- Whether a listed type agrees with its listed operations, whose complexities are given as counts.
The total of the counts is exact as long as the values of counts are. -/
structure TypeMetrics.AddsUp (t : TypeMetrics) (mode : Rollup) (counts : List Nat) : Prop where
  complexities : t.operations.map (·.metrics["CYCLO"]?) = counts.map fun n => some (Float.ofNat n)
  operationCount : t.metrics["NOM"]? = some (Float.ofNat t.operations.length)
  weight : t.metrics["WMC"]? = some (Rollup.total (counts.map Float.ofNat))
  weight_eq_sum : counts.sum < WholeNumber.bound →
    Rollup.total (counts.map Float.ofNat) == Float.ofNat counts.sum
  sum : mode = .sum → t.metrics["CYCLO"]? = t.metrics["WMC"]?
  highest : mode = .highest → ∃ n, t.metrics["CYCLO"]? = some (Float.ofNat n) ∧
    (counts = [] ∧ n = 0 ∨
      n ∈ counts ∧ (∀ m ∈ counts, ¬Float.ofNat n < Float.ofNat m) ∧
        ((∀ m ∈ counts, m < WholeNumber.bound) → ∀ m ∈ counts, m ≤ n))

namespace Listing

/-- The complexities of the operations of a type. -/
def complexities (type : Node) : List Nat := type.declaredOperations.map (·.complexity true)

theorem kind_of_mem_declaredOperations {type op : Node} (h : op ∈ type.declaredOperations) :
    op.kind = .operationDeclaration := by
  simpa using (List.mem_filter.1 h).2

theorem supports_operationComplexity {type op : Node} (h : op ∈ type.declaredOperations) :
    (Metric.operationComplexity (m := Id)).supports op := by
  simp [Metric.supports, Metric.operationComplexity, kind_of_mem_declaredOperations h,
    MetricTarget.kind]

theorem directRollUp_eq (mode : Rollup) (type : Node) :
    directRollUp mode type = mode.reduce ((complexities type).map Float.ofNat) := by
  have hsupported : type.declaredOperations.filter (Metric.operationComplexity (m := Id)).supports =
      type.declaredOperations :=
    List.filter_eq_self.2 fun op h => supports_operationComplexity h
  have hvalues : (type.declaredOperations.map fun op =>
      ((Metric.operationComplexity (m := Id)).compute op ∅).run) =
        (complexities type).map Float.ofNat := by
    rw [complexities, List.map_map]
    rfl
  have hnumbers : ((complexities type).map Float.ofNat).filter (!·.isNaN) =
      (complexities type).map Float.ofNat := by
    rw [List.filter_eq_self]
    intro x hx
    obtain ⟨n, -, rfl⟩ := List.mem_map.1 hx
    rw [WholeNumber.isNaN_ofNat]
    rfl
  simp only [directRollUp, hsupported, hvalues, hnumbers]

theorem getElem?_complexity {type op : Node} (h : op ∈ type.declaredOperations) (file : String) :
    (directOperation file op).metrics["CYCLO"]? = some (Float.ofNat (op.complexity true)) :=
  getElem?_directValues (supports_operationComplexity h)
    (by simp [Metric.ofOperations]) (by decide) ∅

theorem addsUp_directType (file : String) (mode : Rollup) {type : Node}
    (h : type.kind = .typeDeclaration) :
    (directType file mode type).AddsUp mode (complexities type) := by
  have htype {k : Metric Id} (hk : k ∈ Metric.ofTypes) (hs : k.accepts type) : k.supports type := by
    rw [Metric.supports, target_of_mem_ofTypes hk, h, hs]
    rfl
  have hcomplexity : (directType file mode type).metrics["CYCLO"]? =
      some (mode.reduce ((complexities type).map Float.ofNat)) := by
    rw [← directRollUp_eq]
    exact Std.TreeMap.getElem?_insert_self
  have hweight : (directType file mode type).metrics["WMC"]? =
      some (Rollup.total ((complexities type).map Float.ofNat)) := by
    have hvalue := getElem?_directType (n := type) (k := .typeWeight) (by simp [Metric.ofTypes])
      (htype (by simp [Metric.ofTypes]) rfl) (by decide) file mode
    rw [complexities, List.map_map]
    exact hvalue
  have hcount : (directType file mode type).metrics["NOM"]? =
      some (Float.ofNat type.declaredOperations.length) :=
    getElem?_directType (k := .typeOperations) (by simp [Metric.ofTypes])
      (htype (by simp [Metric.ofTypes]) rfl) (by decide) file mode
  have hoperations : (directType file mode type).operations =
      type.declaredOperations.map (directOperation file) := rfl
  constructor
  · rw [hoperations, complexities, List.map_map, List.map_map]
    exact List.map_congr_left fun op hop => getElem?_complexity hop file
  · rw [hoperations, List.length_map]
    exact hcount
  · exact hweight
  · exact Rollup.total_map_ofNat
  · rintro rfl
    rw [hcomplexity, hweight]
    rfl
  · rintro rfl
    rw [hcomplexity]
    by_cases hne : complexities type = []
    · exact ⟨0, by rw [hne]; rfl, .inl ⟨hne, rfl⟩⟩
    · obtain ⟨n, hn, hlargest, hge⟩ := Rollup.largest_map_ofNat hne
      exact ⟨n, congrArg some hlargest, .inr ⟨hn, hge⟩⟩

end Listing

/-- Every type in the listing of any source adds up: its operation count is the number of its listed
operations, its weight and its complexity rolled up as a sum are the total of their complexities,
and its complexity rolled up as the highest is the largest of them, or zero without operations. -/
theorem typeEntries_addUp (language : Language) (bytes : ByteArray) (path : String)
    (root : Concrete) (file : String) (mode : Rollup) :
    ∀ t ∈ (Listing.collect file (lower language bytes path root) mode ∅).1.types,
      ∃ counts, t.AddsUp mode counts := by
  intro t ht
  rw [Listing.collect_lower] at ht
  obtain ⟨type, htype, rfl⟩ := List.mem_map.1 ht
  have hkind : type.kind = .typeDeclaration := by simpa using (List.mem_filter.1 htype).2
  exact ⟨_, Listing.addsUp_directType file mode hkind⟩

namespace Lowering

def branchingSource : ByteArray :=
  "class T \x7b void m() \x7b if (x) \x7b\x7d \x7d void n() \x7b\x7d \x7d\n".toUTF8

/-- A class with a method that branches and one that does not. -/
def branchingTree : Concrete :=
  .mk ⟨"program", true, none, 0, 47, 0, 1⟩
    [.mk (row "class_declaration" none 0 46 0)
      [.mk (row "identifier" (some "name") 6 7 0) [],
       .mk (row "class_body" (some "body") 8 46 0)
        [.mk (row "method_declaration" none 10 32 0)
          [.mk (row "void_type" (some "type") 10 14 0) [],
           .mk (row "identifier" (some "name") 15 16 0) [],
           .mk (row "formal_parameters" (some "parameters") 16 18 0) [],
           .mk (row "block" (some "body") 19 32 0)
            [.mk (row "if_statement" none 21 30 0)
              [.mk (row "parenthesized_expression" (some "condition") 24 27 0)
                [.mk (row "identifier" none 25 26 0) []],
               .mk (row "block" (some "consequence") 28 30 0) []]]],
         .mk (row "method_declaration" none 33 44 0)
          [.mk (row "void_type" (some "type") 33 37 0) [],
           .mk (row "identifier" (some "name") 38 39 0) [],
           .mk (row "formal_parameters" (some "parameters") 39 41 0) [],
           .mk (row "block" (some "body") 42 44 0) []]]]]

/-- A class with two methods, one of which branches, is listed and adds up. -/
theorem branching_class_addsUp :
    ∃ t ∈ (Listing.collect "T.java" (lower .java branchingSource "T.java" branchingTree)
        .highest ∅).1.types,
      t.operations.length = 2 ∧ ∃ counts, t.AddsUp .highest counts := by
  have htypes : (Listing.directListing "T.java" .highest
      (lower .java branchingSource "T.java" branchingTree)).types.map (·.operations.length) =
        [2] := by decide +kernel
  rw [← Listing.collect_lower] at htypes
  obtain ⟨t, ht, hlength⟩ := List.mem_map.1 (htypes ▸ List.mem_singleton_self 2)
  exact ⟨t, ht, hlength, typeEntries_addUp .java branchingSource "T.java" branchingTree "T.java"
    .highest t ht⟩

end Lowering

end CodeGauge
