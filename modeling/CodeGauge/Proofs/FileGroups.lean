import Mathlib.Data.List.Chain
import Mathlib.Data.String.Basic
import CodeGauge.Proofs.ReportOrder

/-!
# One group for each file

`Path.Before` and `Violation.Before` say in words what the comparisons of paths and violations
compute. Paths are in order or spellings of one path, whatever two are taken, so in a sorted report
the violations of one path stand together.

Grouping cuts a list of violations where the path changes (`groupedByFile`). The headings of the
groups are files of violations in the order of the list (`headings_sublist`), and neighbours differ,
so the groups of a sorted report are in strictly ascending order and no path has two
(`sorted_report_grouped`).
-/

namespace CodeGauge

/-! ## The order in words -/

namespace Path

/-- Root before dot before parent before names, and names by their text. -/
inductive Component.Before : Component → Component → Prop
  | rank {c d : Component} (h : c.rank < d.rank) : Before c d
  | text {s t : String} (h : s < t) : Before (.name s) (.name t)

/-- Paths component by component; the end of a path is before any component. -/
def Before (a b : String) : Prop := List.Lex Component.Before (components a) (components b)

theorem Component.compare_eq_lt_iff {c d : Component} : compare c d = .lt ↔ Before c d := by
  rw [compare, compareLex, Ordering.then_eq_lt, compareOn, compareOn, Nat.compare_eq_lt,
    Nat.compare_eq_eq, compare_lt_iff_lt]
  constructor
  · rintro (h | ⟨hrank, htext⟩)
    · exact .rank h
    · -- of one rank there are names only, or twice the same component
      cases c <;> cases d <;> simp only [rank, reduceCtorEq, Nat.reduceEqDiff] at hrank
      case name.name => exact .text htext
      all_goals exact absurd htext (by decide)
  · rintro (h | h)
    · exact .inl h
    · exact .inr ⟨rfl, h⟩

theorem compareLex_eq_lt_iff : ∀ {cs ds : List Component},
    List.compareLex Component.compare cs ds = .lt ↔ List.Lex Component.Before cs ds
  | [], [] => by simp [List.compareLex]
  | [], d :: ds => by simp [List.compareLex]
  | c :: cs, [] => by simp [List.compareLex]
  | c :: cs, d :: ds => by
    rw [List.compareLex_cons_cons, Ordering.then_eq_lt, Component.compare_eq_lt_iff,
      Std.LawfulEqCmp.compare_eq_iff_eq, compareLex_eq_lt_iff, List.cons_lex_cons_iff]

theorem compare_eq_lt_iff {a b : String} : compare a b = .lt ↔ Before a b := compareLex_eq_lt_iff

theorem Before.not_same {a b : String} (h : Before a b) : ¬same a b := by
  rw [← compare_eq_iff, compare_eq_lt_iff.2 h]
  decide

instance : Trans Before Before Before where
  trans h h' := compare_eq_lt_iff.1 <|
    Std.TransCmp.lt_trans (compare_eq_lt_iff.2 h) (compare_eq_lt_iff.2 h')

end Path

namespace Violation

/-- Whether two violations are of one path, on one line and of one rule. -/
def agrees (v w : Violation) : Bool :=
  Path.same v.file w.file && v.firstLine == w.firstLine && v.rule == w.rule

/-- By path, on one path by line, and on one line by rule. -/
inductive Before (v w : Violation) : Prop
  | file (h : Path.Before v.file w.file)
  | line (hfile : Path.same v.file w.file) (h : v.firstLine < w.firstLine)
  | rule (hfile : Path.same v.file w.file) (hline : v.firstLine = w.firstLine) (h : v.rule < w.rule)

theorem compare_eq_iff {v w : Violation} : v.compare w = .eq ↔ v.agrees w := by
  rw [compare, compareLex_eq_eq, compareLex_eq_eq, Path.compare_eq_iff, agrees]
  simp [compareOn, and_assoc]

theorem compare_eq_lt_iff {v w : Violation} : v.compare w = .lt ↔ v.Before w := by
  simp only [compare, compareLex, Ordering.then_eq_lt, compareOn, Path.compare_eq_lt_iff,
    Path.compare_eq_iff, Nat.compare_eq_eq, compare_lt_iff_lt]
  constructor
  · rintro (h | ⟨hfile, h | ⟨hline, h⟩⟩)
    · exact .file h
    · exact .line hfile h
    · exact .rule hfile hline h
  · rintro (h | ⟨hfile, h⟩ | ⟨hfile, hline, h⟩)
    · exact .inl h
    · exact .inr ⟨hfile, .inl h⟩
    · exact .inr ⟨hfile, .inr ⟨hline, h⟩⟩

theorem isLE_compare_iff {v w : Violation} : (v.compare w).isLE ↔ v.Before w ∨ v.agrees w := by
  rw [Ordering.isLE_iff_eq_lt_or_eq_eq, compare_eq_lt_iff, compare_eq_iff]

theorem isLE_file_of_compare {v w : Violation} (h : (v.compare w).isLE) :
    (Path.compare v.file w.file).isLE := by
  have hthen : (Path.compare v.file w.file).then _ = v.compare w := rfl
  cases hfile : Path.compare v.file w.file with
  | gt => rw [← hthen, hfile] at h; exact h
  | _ => rfl

theorem ties_eq (v : Violation) (vs : List Violation) : ties compare v vs = vs.filter v.agrees := by
  refine List.filter_congr fun w _ => ?_
  rw [Bool.eq_iff_iff, decide_eq_true_iff, compare_eq_iff]

end Violation

/-! ## Groups -/

namespace Report

/-- Whether the groups of a report are its violations cut where the path changes, each group under
the file of its first violation. -/
structure GroupedByFile (r : Report) : Prop where
  violations : r.byFile.flatMap (·.2) = r.violations
  neighbours : r.byFile.IsChain fun g h => ¬Path.same g.1 h.1
  heading : ∀ g ∈ r.byFile, g.2.head?.map (·.file) = some g.1 ∧ ∀ v ∈ g.2, Path.same v.file g.1

/-- A violation joins the first group of the others or stands alone before them. -/
theorem group_cons (v : Violation) (vs : List Violation) :
    (∃ file items groups, group vs = (file, items) :: groups ∧ Path.same v.file file ∧
      group (v :: vs) = (v.file, v :: items) :: groups) ∨
    ((∀ g ∈ (group vs).head?, ¬Path.same v.file g.1) ∧
      group (v :: vs) = (v.file, [v]) :: group vs) := by
  rw [group]
  rcases hgroups : group vs with _ | ⟨⟨file, items⟩, groups⟩
  · exact .inr ⟨by simp, rfl⟩
  · by_cases h : Path.same v.file file
    · exact .inl ⟨file, items, groups, rfl, h, if_pos h⟩
    · exact .inr ⟨by simpa using h, if_neg h⟩

theorem flatMap_group (vs : List Violation) : (group vs).flatMap (·.2) = vs := by
  induction vs with
  | nil => rfl
  | cons v vs ih =>
    rcases group_cons v vs with ⟨file, items, groups, hgroups, -, hcons⟩ | ⟨-, hcons⟩
    · rw [hgroups] at ih
      rw [hcons]
      exact congrArg (v :: ·) ih
    · rw [hcons, List.flatMap_cons, ih, List.singleton_append]

theorem isChain_group (vs : List Violation) :
    (group vs).IsChain fun g h => ¬Path.same g.1 h.1 := by
  induction vs with
  | nil => exact .nil
  | cons v vs ih =>
    rcases group_cons v vs with ⟨file, items, groups, hgroups, hsame, hcons⟩ | ⟨hne, hcons⟩
    · rw [hgroups, List.isChain_cons] at ih
      rw [hcons, List.isChain_cons]
      refine ⟨fun g hg => ?_, ih.2⟩
      have hne := ih.1 g hg
      rw [Path.same_iff] at hsame hne ⊢
      rwa [hsame]
    · rw [hcons, List.isChain_cons]
      exact ⟨hne, ih⟩

theorem heading_group (vs : List Violation) :
    ∀ g ∈ group vs, g.2.head?.map (·.file) = some g.1 ∧ ∀ v ∈ g.2, Path.same v.file g.1 := by
  have hself (v : Violation) : Path.same v.file v.file := Path.same_iff.2 rfl
  induction vs with
  | nil => exact fun g hg => absurd hg List.not_mem_nil
  | cons v vs ih =>
    rcases group_cons v vs with ⟨file, items, groups, hgroups, hsame, hcons⟩ | ⟨-, hcons⟩
    · rw [hgroups] at ih
      rw [hcons]
      intro g hg
      rcases List.mem_cons.1 hg with rfl | hg
      · refine ⟨rfl, fun w hw => ?_⟩
        rcases List.mem_cons.1 hw with rfl | hw
        · exact hself _
        · have hw := (ih _ List.mem_cons_self).2 w hw
          rw [Path.same_iff] at hw hsame ⊢
          exact hw.trans hsame.symm
      · exact ih g (List.mem_cons_of_mem _ hg)
    · rw [hcons]
      intro g hg
      rcases List.mem_cons.1 hg with rfl | hg
      · exact ⟨rfl, by simpa using hself v⟩
      · exact ih g hg

theorem groupedByFile (r : Report) : r.GroupedByFile where
  violations := flatMap_group r.violations
  neighbours := isChain_group r.violations
  heading := heading_group r.violations

/-- The headings are files of violations, in the order of these. -/
theorem headings_sublist (vs : List Violation) :
    ((group vs).map (·.1)).Sublist (vs.map (·.file)) := by
  induction vs with
  | nil => exact .refl _
  | cons v vs ih =>
    rcases group_cons v vs with ⟨file, items, groups, hgroups, -, hcons⟩ | ⟨-, hcons⟩
    · rw [hgroups] at ih
      rw [hcons]
      exact ((List.sublist_cons_self _ _).trans ih).cons_cons _
    · rw [hcons]
      exact ih.cons_cons _

/-- The headings of a list that is ordered by path are in strictly ascending order. -/
theorem pairwise_headings {vs : List Violation}
    (h : vs.Pairwise fun v w => (Path.compare v.file w.file).isLE) :
    ((group vs).map (·.1)).Pairwise Path.Before := by
  have hfiles : (vs.map (·.file)).Pairwise fun a b => (Path.compare a b).isLE :=
    List.pairwise_map.2 h
  have hle := (hfiles.sublist (headings_sublist vs)).isChain
  have hne : ((group vs).map (·.1)).IsChain fun a b => ¬Path.same a b :=
    (List.isChain_map _).2 (isChain_group vs)
  -- neighbours are in order and differ
  have hchain : ((group vs).map (·.1)).IsChain Path.Before := by
    refine List.isChain_iff_getElem.2 fun i hi => ?_
    rcases Ordering.isLE_iff_eq_lt_or_eq_eq.1 (hle.getElem i hi) with hlt | heq
    · exact Path.compare_eq_lt_iff.1 hlt
    · exact absurd (Path.compare_eq_iff.1 heq) (hne.getElem i hi)
  exact hchain.pairwise

end Report

/-- Sorting a report permutes its violations into the order by path, line and rule and keeps the
order of those that agree in all three. The groups of a sorted report are in strictly ascending
order of their paths, so no two are of one path however it is spelled. The groups of any report,
sorted or not, are its violations cut where the path changes. -/
theorem sorted_report_grouped (r : Report) :
    let sorted := r.sort
    sorted.violations.Perm r.violations ∧
    (sorted.violations.Pairwise fun v w => v.Before w ∨ v.agrees w) ∧
    (∀ v : Violation, sorted.violations.filter v.agrees = r.violations.filter v.agrees) ∧
    (sorted.byFile.Pairwise fun g h => Path.Before g.1 h.1 ∧ ¬Path.same g.1 h.1) ∧
    sorted.GroupedByFile ∧ r.GroupedByFile := by
  intro sorted
  have hsorted : sorted.violations.Pairwise fun v w => (v.compare w).isLE :=
    sorted_mergeSort Violation.compare r.violations
  refine ⟨List.mergeSort_perm _ _, hsorted.imp Violation.isLE_compare_iff.1, fun v => ?_, ?_,
    sorted.groupedByFile, r.groupedByFile⟩
  · rw [← Violation.ties_eq, ← Violation.ties_eq]
    exact ties_mergeSort Violation.compare v r.violations
  · have hheadings := Report.pairwise_headings (hsorted.imp Violation.isLE_file_of_compare)
    exact (List.pairwise_map.1 hheadings).imp fun h => ⟨h, h.not_same⟩

end CodeGauge
