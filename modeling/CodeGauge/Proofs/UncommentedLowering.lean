import CodeGauge.Proofs.CommentsAside
import CodeGauge.Proofs.MarkCopies

/-!
# Lowering without comments

What is lowered of a comment and of its parts is of no kind, takes no name and opens no scope
(`loweredAll_silent`). So a site is lowered to the same node under the same names whether comments
stand around it or not, and its children are those of before without the ones of comments
(`loweredAll_uncommented`).
-/

namespace CodeGauge

/-! ## Source trees without comments -/

namespace Node

def isComment (n : Node) : Bool := commentKinds.contains n.rawKind

mutual

/-- A source tree without what was lowered from comments below its root. -/
def uncommented : Node → Node
  | mk head children => mk head (uncommentedAll children)

/-- Several source trees without what was lowered from comments. -/
def uncommentedAll : List Node → List Node
  | [] => []
  | n :: ns => if n.isComment then uncommentedAll ns else n.uncommented :: uncommentedAll ns

end

end Node

namespace Lowering

open Concrete

variable (file : SourceFile)

/-! ## Comments -/

/-- Whether a site is a comment or part of one, with nothing else below. -/
def Silent (s : Site) : Prop :=
  silentKinds.contains s.kind ∧ ∀ c ∈ s.node.preorder, c.isSilent

theorem Silent.given_eq {s : Site} (h : Silent s) (scope : Option String) (taken : TakenNames) :
    given file scope taken s = none := by
  simp [given, wanted?, Language.classify_of_silent h.1, Language.scopeSegment?_of_silent h.1]

theorem Silent.childSites {language : Language} {s c : Site} (h : Silent s)
    (hc : c ∈ childSites language s) : Silent c := by
  rw [Lowering.childSites, Language.classify_of_silent h.1] at hc
  have hc : c ∈ s.node.sites := by simpa [Kind.isDeclaration] using hc
  have hbelow := preorder_subset_of_mem_children (mem_sites hc).2.1
  have hnode := h.2 c.node (hbelow c.node.mem_preorder_self)
  have hnamed : c.node.isNamed := by simpa using (List.mem_filter.1 hc).2
  rw [isSilent, hnamed, Bool.not_true, Bool.false_and, Bool.or_false] at hnode
  exact ⟨hnode, fun d hd => h.2 d (hbelow hd)⟩

theorem loweredAll_silent {sites : List Site} (h : ∀ s ∈ sites, Silent s) (scope : Option String)
    (taken : TakenNames) :
    (∀ n ∈ Node.preorders none (loweredAll file scope taken sites).1, n.kind = .other) ∧
      (loweredAll file scope taken sites).2 = taken := by
  induction sites using sites_induction file.language generalizing scope taken with
  | nil => simp [Node.preorders]
  | cons s rest ihchildren ihrest =>
    have hs := h s List.mem_cons_self
    obtain ⟨hbelow, htaken⟩ := ihchildren (fun c => hs.childSites) scope taken
    obtain ⟨hafter, hrest⟩ := ihrest (fun t ht => h t (List.mem_cons_of_mem s ht)) scope taken
    have hscope : (none <|> scope) = scope := rfl
    rw [loweredAll_cons, lowered_eq, hs.given_eq]
    simp only [Option.elim_none, hscope, htaken, hrest, Node.preorders, Node.preorder, and_true]
    intro n hn
    rcases List.mem_append.1 hn with hn | hn
    · rcases List.mem_cons.1 hn with rfl | hn
      · exact Language.classify_of_silent hs.1
      · exact hbelow n (by simpa using hn)
    · exact hafter n hn

theorem Silent.lowered {s : Site} (h : Silent s) (scope : Option String) (taken : TakenNames) :
    (∀ n ∈ (lowered file scope taken s).1.nodes, n.kind = .other) ∧
      (Lowering.lowered file scope taken s).2 = taken := by
  have hall : ∀ t ∈ [s], Silent t := by simpa using h
  have hlowered := loweredAll_silent file hall scope taken
  simpa only [loweredAll_cons, loweredAll_nil, Node.preorders, List.append_nil, Node.nodes_eq]
    using hlowered

/-! ## Everything else -/

section Sites

variable {file} {s : Site} (h : s.CommentsAside file.language)

include h

theorem silent_of_isComment (hc : s.node.isComment) : Silent s :=
  ⟨Language.silentKinds_of_isComment hc, h.node.silent s.node s.node.mem_preorder_self hc⟩

theorem wanted?_uncommented (scope : Option String) :
    wanted? file scope s.uncommented = wanted? file scope s := by
  simp only [wanted?, simpleName, Language.classify_uncommented h, Site.node_uncommented,
    Language.declarationName?_uncommented h.node, Language.operationOwner?_uncommented h.node,
    Language.parameterTypes_uncommented h.node, Language.scopeSegment?_uncommented h]

theorem header_uncommented (name : Option QualifiedName) :
    header file s.uncommented name = header file s name := by
  simp only [header, simpleName, Language.classify_uncommented h, Site.node_uncommented,
    Language.declarationName?_uncommented h.node, row_uncommented]
  cases hk : file.language.classify s with
  | mark => simp only [Language.markName?_uncommented h hk]
  | _ => rfl

theorem attachedMarks_commentsAside {a : Site} (ha : a ∈ file.language.attachedMarks s) :
    a.CommentsAside file.language := by
  cases hl : file.language with
  | java | go => simp [Language.attachedMarks, hl] at ha
  | python =>
    simp only [Language.attachedMarks, hl, Python.attachedMarks] at ha
    split at ha
    · rename_i parent hp
      split at ha
      · exact hl ▸ (h.parent parent hp).site (List.mem_filter.1 ha).1
      · simp at ha
    · simp at ha
  | rust =>
    rw [hl] at h ha
    obtain ⟨hp, -, hb⟩ := (Language.suffix_of_mem_attributeRun ha).resolve_left (by simp)
    refine ⟨h.before _ (hb.subset List.mem_cons_self), fun parent hparent => ?_, fun d hd => ?_⟩
    · exact h.parent parent (hp ▸ hparent)
    · exact h.before d (hb.subset (List.mem_cons_of_mem _ hd))

theorem childSites_commentsAside {c : Site} (hc : c ∈ childSites file.language s) :
    c.CommentsAside file.language := by
  rcases List.mem_append.1 hc with hc | hc
  · split at hc
    · exact attachedMarks_commentsAside h hc
    · simp at hc
  · exact h.node.site hc

theorem childSites_uncommented :
    childSites file.language s.uncommented =
      ((childSites file.language s).filter (!·.node.isComment)).map Site.uncommented := by
  rw [childSites, Language.classify_uncommented h, Site.node_uncommented, sites_uncommented,
    childSites, List.filter_append, List.map_append]
  congr 1
  split
  · have hmarks (a : Site) (ha : a ∈ file.language.attachedMarks s) : !a.node.isComment := by
      have hk := (Language.classify_attachedMarks ha).1
      cases hc : a.node.isComment with
      | false => rfl
      | true => simp [Language.classify_of_isComment hc] at hk
    rw [Language.attachedMarks_uncommented h, List.filter_eq_self.2 hmarks]
  · rfl

theorem lowered_uncommented (scope : Option String) (taken : TakenNames)
    (hbelow : ∀ scope taken,
      loweredAll file scope taken (childSites file.language s.uncommented) =
        (Node.uncommentedAll (loweredAll file scope taken (childSites file.language s)).1,
          (loweredAll file scope taken (childSites file.language s)).2)) :
    lowered file scope taken s.uncommented =
      ((lowered file scope taken s).1.uncommented, (lowered file scope taken s).2) := by
  simp only [lowered_eq, given, wanted?_uncommented h, header_uncommented h, hbelow,
    Node.uncommented]

end Sites

/-- Sites are lowered without the comments among them and below them as they are with them, and
take the same names. -/
theorem loweredAll_uncommented {sites : List Site}
    (h : ∀ s ∈ sites, s.CommentsAside file.language) (scope : Option String) (taken : TakenNames) :
    loweredAll file scope taken ((sites.filter (!·.node.isComment)).map Site.uncommented) =
      (Node.uncommentedAll (loweredAll file scope taken sites).1,
        (loweredAll file scope taken sites).2) := by
  induction sites using sites_induction file.language generalizing scope taken with
  | nil => simp [Node.uncommentedAll]
  | cons s rest ihchildren ihrest =>
    have hs := h s List.mem_cons_self
    have ihrest := ihrest fun t ht => h t (List.mem_cons_of_mem s ht)
    have hcomment : (lowered file scope taken s).1.isComment = s.node.isComment := by
      rw [lowered_eq]; rfl
    rw [loweredAll_cons, Node.uncommentedAll, hcomment]
    cases hc : s.node.isComment with
    | true =>
      have htaken := ((silent_of_isComment hs hc).lowered file scope taken).2
      simp only [List.filter_cons_of_neg, hc, Bool.not_true, Bool.false_eq_true, not_false_iff,
        if_true, htaken, ihrest]
    | false =>
      have hfirst := lowered_uncommented hs scope taken fun scope taken => by
        rw [childSites_uncommented hs]
        exact ihchildren (fun c => childSites_commentsAside hs) scope taken
      simp only [List.filter_cons_of_pos, hc, Bool.not_false, List.map_cons, loweredAll_cons,
        hfirst, ihrest, Bool.false_eq_true, if_false]

end Lowering

open Lowering

theorem lower_uncommented {language : Language} {root : Concrete}
    (h : CommentsAside language root) (bytes : ByteArray) (path : String) :
    lower language bytes path root.uncommented = (lower language bytes path root).uncommented := by
  let file : SourceFile := .ofTree language bytes path root
  have hfile : SourceFile.ofTree language bytes path root.uncommented = file := by
    rw [SourceFile.ofTree, Language.moduleName_uncommented h]
    rfl
  have hroot : Site.CommentsAside file.language (.root root) := h.root
  have hlowered := lowered_uncommented hroot none ∅ fun scope taken => by
    rw [childSites_uncommented hroot]
    exact loweredAll_uncommented file (fun c => childSites_commentsAside hroot) scope taken
  rw [lower, lower, hfile, tree_eq, tree_eq]
  exact congrArg Prod.fst hlowered

end CodeGauge
