import CodeGauge.Proofs.Inquiries
import CodeGauge.Proofs.ReportOrder
import CodeGauge.Proofs.SharedSlots
import CodeGauge.Proofs.SplitText

/-!
# Files apart

Workers analyse files at the same time. Each has memos of its own, but the instances that values are
remembered under come from one registry, which the others use and clear meanwhile. What a worker
finds in its memos does not depend on that: it answers as a project memo does (`simulates_answer`),
so its report is the one of a run by itself (`reportBy_start`).

Violations of files with different paths never tie, so the reports may be merged in any order, and
sorting leaves those of each file as they are sorted alone (`merged_reports`).
-/

namespace CodeGauge

/-- A worker on one file. -/
structure Worker where
  /-- The registry of all workers, as this one left it. -/
  registry : SlotRegistry
  /-- What the others call before each of the coming queries. -/
  meanwhile : List (List RegistryCall)
  memos : MetricTarget → QualifiedName → SharedMemo

/-- The value under an instance of the query's slot, computed and remembered if absent. -/
def Query.fetch (q : Query) (shared : SharedSlot) (memo : SharedMemo) : Float × SharedMemo :=
  match memo.get? shared with
  | some value => (value, memo)
  | none =>
    let value := (q.metric.compute q.node q.options).run
    (value, memo.put shared value)

section Answer

variable {q : Query} (p : ProjectMemo)

theorem Query.answer_of_name {name : QualifiedName} (h : q.node.qualifiedName? = some name) :
    let fetched := (q.metric.fetch q.node false q.options (p.get q.metric.target name)).run
    q.answer p = (fetched.1, p.set q.metric.target name fetched.2) := by
  simp only [answer, Metric.requestIn, Metric.request, h, if_true]
  rfl

theorem Query.answer_of_unnamed (h : q.node.qualifiedName? = none) :
    q.answer p = ((q.metric.fetch q.node false q.options ∅).run.1, p) := by
  simp only [answer, Metric.requestIn, Metric.request, h, if_true]
  rfl

end Answer

namespace Worker

/-- A worker that has not asked anything, in a registry that was called before. -/
def start (before : List RegistryCall) (meanwhile : List (List RegistryCall)) : Worker :=
  ⟨SlotRegistry.empty.calls before, meanwhile, fun _ _ => .empty⟩

/-- Sets the memo of a declaration. -/
def remember (w : Worker) (target : MetricTarget) (name : QualifiedName) (memo : SharedMemo) :
    Worker :=
  { w with memos := fun other otherName =>
      if other = target ∧ otherName = name then memo else w.memos other otherName }

/-- The answer to a query after what the others have called, and the worker after it. -/
def answer (q : Query) (w : Worker) : Float × Worker :=
  let found := (w.registry.calls (w.meanwhile.headD [])).instanceOf (q.metric.slot q.options)
  let w := { w with registry := found.2, meanwhile := w.meanwhile.tail }
  match q.node.qualifiedName? with
  | some name =>
    let fetched := q.fetch found.1 (w.memos q.metric.target name)
    (fetched.1, w.remember q.metric.target name fetched.2)
  | none => ((q.fetch found.1 .empty).1, w)

/-- Whether a worker remembers what a project memo does, under instances of the registry. -/
def Follows (w : Worker) (p : ProjectMemo) : Prop :=
  ∃ made, w.registry.Numbers made ∧
    ∀ side name, (w.memos side name).MadeAs made ∧ (w.memos side name).bySlot = p.get side name

theorem follows_start (before : List RegistryCall) (meanwhile : List (List RegistryCall)) :
    (start before meanwhile).Follows ∅ := by
  obtain ⟨made, -, hmade⟩ := SlotRegistry.Numbers.empty.calls before
  refine ⟨made, hmade, fun side name => ⟨.empty, ?_⟩⟩
  cases side <;> rfl

theorem fetch_eq {made : List Slot} {q : Query} {shared : SharedSlot} {memo : SharedMemo}
    (h : memo.MadeAs made) (hs : shared.MadeAs made)
    (hslot : shared.slot = q.metric.slot q.options) :
    let fetched := q.fetch shared memo
    let plain := (q.metric.fetch q.node false q.options memo.bySlot).run
    fetched.1 = plain.1 ∧ fetched.2.bySlot = plain.2 ∧ fetched.2.MadeAs made := by
  intro fetched plain
  unfold fetched plain Query.fetch Metric.fetch
  rw [SharedMemo.get?_eq h hs, hslot]
  rcases memo.bySlot.get? (q.metric.slot q.options) with _ | value
  · refine ⟨rfl, ?_, h.put hs _⟩
    rw [SharedMemo.bySlot_put h hs, hslot]
    rfl
  · exact ⟨rfl, rfl, h⟩

theorem memos_remember {made : List Slot} {w : Worker} {p : ProjectMemo} {memo : SharedMemo}
    (h : ∀ side name,
      (w.memos side name).MadeAs made ∧ (w.memos side name).bySlot = p.get side name)
    (hmade : memo.MadeAs made) (target : MetricTarget) (name : QualifiedName) :
    ∀ side other, ((w.remember target name memo).memos side other).MadeAs made ∧
      ((w.remember target name memo).memos side other).bySlot =
        (p.set target name memo.bySlot).get side other := by
  intro side other
  unfold remember
  dsimp only
  split
  · rename_i hplace
    obtain ⟨rfl, rfl⟩ := hplace
    exact ⟨hmade, (ProjectMemo.get_set_self ..).symm⟩
  · rename_i hplace
    rw [ProjectMemo.get_set_of_ne p (Decidable.not_and_iff_or_not.1 hplace)]
    exact h side other

/-- A worker answers as a project memo does, whatever the others call. -/
theorem simulates_answer : Simulates Follows answer Query.answer := by
  rintro q w p ⟨made, hnumbers, hmemos⟩
  -- the calls of the others and the query's own only add instances
  obtain ⟨made₁, hp₁, hcalled⟩ := hnumbers.calls (w.meanwhile.headD [])
  obtain ⟨hslot, made₂, hp₂, hshared, hregistry⟩ := hcalled.instanceOf (q.metric.slot q.options)
  have hmemos side name := (hmemos side name).imp_left fun h => h.mono (hp₁.trans hp₂)
  rcases hname : q.node.qualifiedName? with _ | name
  · obtain ⟨hvalue, -⟩ := fetch_eq .empty hshared hslot
    rw [Query.answer_of_unnamed p hname, answer, hname]
    exact ⟨hvalue, made₂, hregistry, hmemos⟩
  · obtain ⟨hmade, hplain⟩ := hmemos q.metric.target name
    obtain ⟨hvalue, hfetched, hmade⟩ := fetch_eq hmade hshared hslot
    rw [hplain] at hvalue hfetched
    rw [Query.answer_of_name p hname, answer, hname]
    dsimp only
    rw [← hfetched]
    exact ⟨hvalue, made₂, hregistry, memos_remember hmemos hmade q.metric.target name⟩

end Worker

/-- The report of a worker on its file. -/
def RuleSets.reportBy (s : RuleSets) (w : Worker) (file : String × Node) : Report :=
  (Report.ofFile file.1).merge
    (.ofViolations (violationsIn Worker.answer file.1 file.2 s.allRules w).1)

theorem reportBy_start (s : RuleSets) (before : List RegistryCall)
    (meanwhile : List (List RegistryCall)) (file : String × Node) :
    s.reportBy (.start before meanwhile) file = s.reportOn file := by
  have hfound := Worker.simulates_answer.violationsIn file.1 file.2 s.allRules
    (Worker.follows_start before meanwhile)
  rw [RuleSets.reportBy, hfound, ← applyAll_eq]
  rfl

/-! ## Merging -/

theorem violations_foldl_merge (reports : List Report) (first : Report) :
    (reports.foldl Report.merge first).violations =
      first.violations ++ reports.flatMap (·.violations) := by
  induction reports generalizing first with
  | nil => simp
  | cons r reports ih =>
    rw [List.foldl_cons, ih, List.flatMap_cons, ← List.append_assoc]
    rfl

section Separate

variable {s : RuleSets} {f g : String × Node}

theorem file_of_mem_reportOn {v : Violation} (h : v ∈ (s.reportOn f).violations) :
    v.file = f.1 := by
  rw [violations_reportOn] at h
  exact file_of_mem_violationsIn h

theorem same_of_mem_reportOn {v : Violation} (h : v ∈ (s.reportOn f).violations) (path : String) :
    Path.same v.file path = Path.same f.1 path := by
  rw [file_of_mem_reportOn h]

theorem ties_reportOn_of_not_same {v : Violation} (h : ¬Path.same v.file f.1) :
    ties Violation.compare v (s.reportOn f).violations = [] := by
  refine List.eq_nil_iff_forall_not_mem.2 fun w hw => ?_
  obtain ⟨hw, htie⟩ := (mem_ties Violation.compare).1 hw
  have hsame := Violation.same_file_of_compare htie
  rw [file_of_mem_reportOn hw] at hsame
  exact h hsame

/-- Violations of files with different paths never tie. -/
theorem ties_reportOn_apart (h : ¬Path.same f.1 g.1) (v : Violation) :
    ties Violation.compare v (s.reportOn f).violations = [] ∨
      ties Violation.compare v (s.reportOn g).violations = [] := by
  by_cases hf : Path.same v.file f.1
  · refine .inr (ties_reportOn_of_not_same fun hg => h ?_)
    rw [Path.same_iff] at hf hg ⊢
    exact hf.symm.trans hg
  · exact .inl (ties_reportOn_of_not_same hf)

theorem filter_reportOn_of_not_same (h : ¬Path.same g.1 f.1) :
    (s.reportOn g).violations.filter (Path.same ·.file f.1) = [] := by
  refine List.filter_eq_nil_iff.2 fun v hv => ?_
  rwa [same_of_mem_reportOn hv]

theorem filter_reportOn_self :
    (s.reportOn f).violations.filter (Path.same ·.file f.1) = (s.reportOn f).violations := by
  refine List.filter_eq_self.2 fun v hv => ?_
  rw [same_of_mem_reportOn hv, Path.same_iff]

theorem filter_flatMap_of_not_same {files : List (String × Node)}
    (h : ∀ g ∈ files, ¬Path.same g.1 f.1) :
    (files.flatMap fun g => (s.reportOn g).violations).filter (Path.same ·.file f.1) = [] := by
  rw [List.filter_flatMap]
  exact List.flatMap_eq_nil_iff.2 fun g hg => filter_reportOn_of_not_same (h g hg)

theorem filter_flatMap_reportOn {files : List (String × Node)}
    (hd : files.Pairwise fun f g => ¬Path.same f.1 g.1) (hf : f ∈ files) :
    (files.flatMap fun g => (s.reportOn g).violations).filter (Path.same ·.file f.1) =
      (s.reportOn f).violations := by
  obtain ⟨earlier, later, rfl⟩ := List.append_of_mem hf
  obtain ⟨-, hlater, hearlier⟩ := List.pairwise_append.1 hd
  have hbefore (g : String × Node) (hg : g ∈ earlier) : ¬Path.same g.1 f.1 :=
    hearlier g hg f List.mem_cons_self
  have hafter (g : String × Node) (hg : g ∈ later) : ¬Path.same g.1 f.1 := by
    have hne := (List.pairwise_cons.1 hlater).1 g hg
    rw [Path.same_iff] at hne ⊢
    exact fun h => hne h.symm
  rw [List.flatMap_append, List.flatMap_cons, List.filter_append, List.filter_append,
    filter_flatMap_of_not_same hbefore, filter_flatMap_of_not_same hafter, filter_reportOn_self,
    List.nil_append, List.append_nil]

end Separate

theorem violations_reportAll (s : RuleSets) (files : List (String × Node)) :
    (s.reportAll files).violations =
      (files.flatMap fun f => (s.reportOn f).violations).mergeSort
        fun v w => (v.compare w).isLE := by
  unfold RuleSets.reportAll Report.sort
  rw [violations_foldl_merge, List.flatMap_map]
  rfl

/-- Workers make the reports of files with different paths, whatever they call in the registry that
they share. Merged in any order and sorted, the reports give the same violations, and those of one
file are the sorted report of that file alone. -/
theorem merged_reports (s : RuleSets) {files : List (String × Node)}
    (hd : files.Pairwise fun f g => ¬Path.same f.1 g.1)
    (before : String × Node → List RegistryCall)
    (meanwhile : String × Node → List (List RegistryCall)) {reports : List Report}
    (h : reports.Perm (files.map fun f => s.reportBy (.start (before f) (meanwhile f)) f)) :
    let merged := (reports.foldl Report.merge (.ofViolations [])).sort
    merged.violations = (s.reportAll files).violations ∧
      ∀ f ∈ files,
        merged.violations.filter (Path.same ·.file f.1) = (s.reportAll [f]).violations := by
  intro merged
  simp only [reportBy_start] at h
  have hmerged : merged.violations = (s.reportAll files).violations := by
    rw [violations_reportAll]
    unfold merged Report.sort
    rw [violations_foldl_merge]
    refine mergeSort_eq_of_ties_eq Violation.compare fun v => ?_
    have hapart : (files.map s.reportOn).Pairwise fun r r' =>
        ties Violation.compare v r.violations = [] ∨ ties Violation.compare v r'.violations = [] :=
      List.pairwise_map.2 (hd.imp fun hne => ties_reportOn_apart hne v)
    have hperm := ties_flatMap_perm Violation.compare (·.violations) v h.symm hapart
    rw [List.flatMap_map] at hperm
    exact hperm.symm
  refine ⟨hmerged, fun f hf => ?_⟩
  rw [hmerged, violations_reportAll, violations_reportAll, filter_mergeSort Violation.compare,
    filter_flatMap_reportOn hd hf, List.flatMap_singleton]

namespace Worker

/-- A file of one operation, which branches once. -/
def branchingFile : Node :=
  let branch : Node := .leaf ⟨.branch, "if_statement", ⟨3, 4⟩, none, none⟩
  .mk ⟨.compilationUnit, "program", ⟨1, 9⟩, none, none⟩
    [.mk ⟨.operationDeclaration, "method_declaration", ⟨2, 5⟩, some "f", some "T#f()"⟩ [branch]]

/-- Two files that declare the same names. -/
def sameNames : List (String × Node) := [("a/T.java", branchingFile), ("b/T.java", branchingFile)]

/-- The registry is cleared before each worker's query, and the reports are merged last first. -/
theorem sameNames_merged :
    let s : RuleSets :=
      ⟨[⟨"low", [.threshold { ThresholdRule.cyclomaticComplexity with minimum := 1 }]⟩]⟩
    let reports := sameNames.map fun f => s.reportBy (.start [] [[.clear]]) f
    let merged := (reports.reverse.foldl Report.merge (.ofViolations [])).sort
    (sameNames.Pairwise fun f g => ¬Path.same f.1 g.1) ∧ reports.reverse.Perm reports ∧
      ∀ f ∈ sameNames, (merged.violations.filter (Path.same ·.file f.1)).map
        (fun v => (v.file, v.score)) = [(f.1, "2")] := by
  intro s reports merged
  have ha : Path.components "a/T.java" = [.name "a", .name "T.java"] := by
    rw [Path.components, Text.splitOn_eq]
    decide +kernel
  have hb : Path.components "b/T.java" = [.name "b", .name "T.java"] := by
    rw [Path.components, Text.splitOn_eq]
    decide +kernel
  have hd : sameNames.Pairwise fun f g => ¬Path.same f.1 g.1 := by
    simp [sameNames, Path.same_iff, ha, hb]
  have hperm : reports.reverse.Perm reports := List.reverse_perm reports
  obtain ⟨-, hpart⟩ := merged_reports s hd (fun _ => []) (fun _ => [[.clear]]) hperm
  refine ⟨hd, hperm, fun f hf => ?_⟩
  rw [hpart f hf]
  simp only [sameNames, List.mem_cons, List.not_mem_nil, or_false] at hf
  rcases hf with rfl | rfl
  · decide +kernel
  · decide +kernel

end Worker

end CodeGauge
