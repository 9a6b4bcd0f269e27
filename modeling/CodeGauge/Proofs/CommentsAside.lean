import Mathlib.Data.List.Basic
import CodeGauge.Proofs.Uncommented

/-!
# What grammars see of comments

A grammar asks for most children by their field, where no comment stands. A few it asks for by their
place among the named children, and there it takes a comment for the child it wants
(`readsComment`). In a tree without such places (`CommentsAside`) every question of lowering has the
same answer when the comments are gone.
-/

namespace CodeGauge

open Concrete

/-! ## Comments in the place of something else -/

/-- A variable parameter is read by its first child, and a case label counts by having one. -/
def Java.readsComment (c : Concrete) : Bool :=
  match c.kind with
  | "formal_parameter" | "spread_parameter" =>
    (c.childByField? "type").isNone && (c.namedChildren.find? fun d =>
      d.kind != "modifiers" && d.kind != "variable_declarator").any (·.isComment)
  | "switch_label" => !c.namedChildren.isEmpty && c.namedChildren.all (·.isComment)
  | _ => false

/-- A decorator is read by its first child. -/
def Python.readsComment (c : Concrete) : Bool :=
  c.kind == "decorator" && c.namedChildren.head?.any (·.isComment)

/-- An attribute is read by the first child of its first child. A run of attributes goes on past the
two kinds of comments that the grammar has, and ends at the third. -/
def Rust.readsComment (c : Concrete) : Bool :=
  c.kind == "comment" || c.kind == "attribute_item" && c.namedChildren.head?.any fun content =>
    content.isComment || content.namedChildren.head?.any (·.isComment)

/-- Whether a grammar takes a comment below a node for something else. -/
def Language.readsComment : Language → Concrete → Bool
  | java => Java.readsComment
  | python => Python.readsComment
  | go => fun _ => false
  | rust => Rust.readsComment

namespace Concrete

/-- The kinds of comments, and of what documentation comments are made of. -/
def silentKinds : List String :=
  commentKinds ++ ["outer_doc_comment_marker", "inner_doc_comment_marker", "doc_comment"]

/-- Whether a node may stand in a comment: a comment, a part of one, or a token. -/
def isSilent (c : Concrete) : Bool :=
  silentKinds.contains c.kind || !c.isNamed && c.children.isEmpty

end Concrete

/-- A tree in which comments stand under no field, hold nothing but their parts, and are taken for
nothing else. -/
structure CommentsAside (language : Language) (c : Concrete) : Prop where
  unfielded : ∀ d ∈ c.preorder, d.isComment → d.field = none
  silent : ∀ d ∈ c.preorder, d.isComment → ∀ e ∈ d.preorder, e.isSilent
  unread : ∀ d ∈ c.preorder, ¬language.readsComment d

/-- A site in such a tree. -/
structure Site.CommentsAside (language : Language) (s : Site) : Prop where
  node : CodeGauge.CommentsAside language s.node
  parent : ∀ parent, s.parent = some parent → CodeGauge.CommentsAside language parent
  before : ∀ d ∈ s.before, CodeGauge.CommentsAside language d

namespace CommentsAside

variable {language : Language} {c d : Concrete} (h : CommentsAside language c)

include h

theorem child (hd : d ∈ c.children) : CommentsAside language d where
  unfielded e he := h.unfielded e (preorder_subset_of_mem_children hd he)
  silent e he := h.silent e (preorder_subset_of_mem_children hd he)
  unread e he := h.unread e (preorder_subset_of_mem_children hd he)

theorem namedChild (hd : d ∈ c.namedChildren) : CommentsAside language d :=
  h.child (List.mem_filter.1 hd).1

theorem children_unfielded : c.Unfielded := fun d hd =>
  h.unfielded d (preorder_subset_of_mem_children hd d.mem_preorder_self)

theorem not_readsComment : language.readsComment c = false := by
  simpa using h.unread c c.mem_preorder_self

theorem root : Site.CommentsAside language (.root c) where
  node := h
  parent _ hp := nomatch hp
  before _ hd := nomatch hd

theorem site {s : Site} (hs : s ∈ c.sites) : s.CommentsAside language := by
  obtain ⟨hp, hn, hb⟩ := mem_sites hs
  refine ⟨h.child hn, fun parent hparent => ?_, fun d hd => h.child (hb d hd)⟩
  rw [hp, Option.some.injEq] at hparent
  exact hparent ▸ h

end CommentsAside

theorem Site.CommentsAside.isField {language : Language} {s : Site} (h : s.CommentsAside language)
    (field : String) : s.uncommented.isField field = s.isField field :=
  isField_uncommented (fun d hd => (h.before d hd).unfielded d d.mem_preorder_self) field

/-! ## Kinds -/

theorem Java.namedChildren_isEmpty_uncommented {c : Concrete} (h : CommentsAside .java c)
    (hk : c.kind = "switch_label") :
    c.uncommented.namedChildren.isEmpty = c.namedChildren.isEmpty := by
  have hread : (!c.namedChildren.isEmpty && c.namedChildren.all (·.isComment)) = false := by
    have hread := h.not_readsComment
    simpa only [Language.readsComment, Java.readsComment, hk] using hread
  rw [namedChildren_uncommented, List.isEmpty_map, Bool.eq_iff_iff]
  cases hc : c.namedChildren with
  | nil => simp
  | cons d ds =>
    rw [hc] at hread
    simpa using hread

theorem Language.classify_uncommented {language : Language} {s : Site}
    (h : s.CommentsAside language) : language.classify s.uncommented = language.classify s := by
  have hshort := isShortCircuit_uncommented h.node.children_unfielded
  cases language with
  | java =>
    simp only [classify, Java.classify, Site.kind_uncommented, Site.node_uncommented, hshort]
    split
    all_goals first
      | rfl
      | rename_i hk; simp only [Java.namedChildren_isEmpty_uncommented h.node hk]
  | python =>
    simp only [classify, Python.classify, Python.isParameter, Site.kind_uncommented,
      Site.parentKind?_uncommented]
    rfl
  | go =>
    simp only [classify, Go.classify, Site.kind_uncommented, Site.node_uncommented, hshort,
      h.isField]
  | rust =>
    simp only [classify, Rust.classify, Site.kind_uncommented, Site.node_uncommented, hshort]

/-! ## Names -/

theorem Go.operationOwner?_uncommented {c : Concrete} (h : CommentsAside .go c)
    (source : ByteArray) : operationOwner? source c.uncommented = operationOwner? source c := by
  simp only [operationOwner?, kind_uncommented, childByField?_uncommented h.children_unfielded]
  cases hr : c.childByField? "receiver" with
  | none => rfl
  | some receiver =>
    have hreceiver := h.child (List.mem_of_find?_eq_some hr)
    have hfound (d : Concrete)
        (hd : receiver.namedChildren.find? (·.kind = "parameter_declaration") = some d) :
        ¬d.isComment := by
      have hk := List.find?_some hd
      simp only [decide_eq_true_eq] at hk
      simp [isComment, hk, commentKinds]
    have hparameter := find?_namedChildren_uncommented _ (fun d => by simp) hfound
    simp only [Option.map_some, Option.bind_eq_bind, Option.bind_some, hparameter]
    cases hp : receiver.namedChildren.find? (·.kind = "parameter_declaration") with
    | none => rfl
    | some parameter =>
      have hfield := (hreceiver.namedChild (List.mem_of_find?_eq_some hp)).children_unfielded
      simp only [Option.map_some, Option.bind_some, childByField?_uncommented hfield]
      cases parameter.childByField? "type" <;> simp

namespace Language

variable {language : Language}

theorem declarationName?_uncommented {c : Concrete} (h : CommentsAside language c)
    (source : ByteArray) :
    language.declarationName? source c.uncommented = language.declarationName? source c := by
  have hfield := fieldText?_uncommented h.children_unfielded source
  cases language <;>
    simp only [declarationName?, Rust.declarationName?, kind_uncommented, hfield]

theorem operationOwner?_uncommented {c : Concrete} (h : CommentsAside language c)
    (source : ByteArray) :
    language.operationOwner? source c.uncommented = language.operationOwner? source c := by
  cases language with
  | java | python | rust => rfl
  | go => exact Go.operationOwner?_uncommented h source

theorem scopeSegment?_uncommented {s : Site} (h : s.CommentsAside language) (source : ByteArray) :
    language.scopeSegment? source s.uncommented = language.scopeSegment? source s := by
  have hfield := fieldText?_uncommented h.node.children_unfielded source
  cases language with
  | python | go => rfl
  | java =>
    simp only [scopeSegment?, Java.scopeSegment?, Site.kind_uncommented, Site.node_uncommented,
      hfield, childByField?_uncommented h.node.children_unfielded, Option.isSome_map]
    cases hp : s.parent with
    | none => simp only [Site.uncommented, hp, Option.map_none]
    | some parent =>
      have hparent := fieldText?_uncommented (h.parent parent hp).children_unfielded source
      simp only [Site.uncommented, hp, Option.map_some, kind_uncommented, hparent]
  | rust =>
    simp only [scopeSegment?, Rust.scopeSegment?, Site.kind_uncommented, Site.node_uncommented,
      hfield]

end Language

/-! ## Names of marks and parameters -/

theorem Python.kind_of_classify_mark {s : Site} (h : classify s = .mark) :
    s.kind = "decorator" := by
  unfold classify at h
  split at h
  · contradiction
  · split at h <;> first | assumption | contradiction | (split at h <;> contradiction)

theorem Rust.kind_of_classify_mark {s : Site} (h : classify s = .mark) :
    s.kind = "attribute_item" := by
  unfold classify at h
  split at h <;> first | assumption | contradiction | (split at h <;> contradiction)

theorem Java.kind_of_classify_parameter {s : Site} (h : classify s = .parameter) :
    s.kind = "formal_parameter" ∨ s.kind = "spread_parameter" := by
  unfold classify at h
  split at h <;> first
    | (simp only [*, true_or, or_true]; done) | contradiction | (split at h <;> contradiction)

theorem Python.markName?_uncommented {c : Concrete} (h : CommentsAside .python c)
    (hk : c.kind = "decorator") (source : ByteArray) :
    markName? source c.uncommented = markName? source c := by
  have hread := h.not_readsComment
  simp only [Language.readsComment, readsComment, hk, beq_self_eq_true, Bool.true_and] at hread
  have hhead := head?_namedChildren_uncommented (c := c) fun d hd => by
    simpa [hd] using hread
  rw [markName?, markName?]
  cases hc : c.namedChildren with
  | nil =>
    simp only [hc, List.head?_nil, Option.map_none, List.head?_eq_none_iff] at hhead
    rw [hhead]
  | cons expression rest =>
    rw [hc] at hhead
    obtain ⟨rest', hc'⟩ := List.head?_eq_some_iff.1 hhead
    have hexpression := h.namedChild (d := expression) (by simp [hc])
    simp only [hc', kind_uncommented, text_uncommented,
      childByField?_uncommented hexpression.children_unfielded]
    cases expression.childByField? "function" <;> simp

theorem Rust.markName?_uncommented {c : Concrete} (h : CommentsAside .rust c)
    (hk : c.kind = "attribute_item") (source : ByteArray) :
    markName? source c.uncommented = markName? source c := by
  have hread := h.not_readsComment
  simp only [Language.readsComment, readsComment, hk, beq_self_eq_true, Bool.true_and,
    Bool.or_eq_false_iff] at hread
  obtain ⟨-, hread⟩ := hread
  have hhead := head?_namedChildren_uncommented (c := c) fun d hd => by
    simp only [hd, Option.any_some, Bool.or_eq_false_iff] at hread
    simp [hread.1]
  rw [markName?, markName?, hhead]
  cases hc : c.namedChildren.head? with
  | none => rfl
  | some content =>
    simp only [hc, Option.any_some, Bool.or_eq_false_iff] at hread
    have hpath := head?_namedChildren_uncommented (c := content) fun d hd => by
      simpa [hd] using hread.2
    simp only [Option.map_some, Option.bind_eq_bind, Option.bind_some, hpath]
    cases content.namedChildren.head? <;> simp

theorem Java.parameterType_uncommented {c : Concrete} (h : CommentsAside .java c)
    (hk : c.kind = "formal_parameter" ∨ c.kind = "spread_parameter") (source : ByteArray) :
    parameterType source c.uncommented = parameterType source c := by
  have hread := h.not_readsComment
  simp only [parameterType, childByField?_uncommented h.children_unfielded]
  cases ht : c.childByField? "type" with
  | some type => simp
  | none =>
    have hfind := find?_namedChildren_uncommented (c := c)
      (fun d => d.kind != "modifiers" && d.kind != "variable_declarator") (fun d => by simp)
      fun d hd => by
        rcases hk with hk | hk <;>
          simpa [Language.readsComment, readsComment, hk, ht, hd] using hread
    simp only [Option.map_none, hfind]
    cases c.namedChildren.find? _ <;> simp

namespace Language

variable {language : Language}

theorem markName?_uncommented {s : Site} (h : s.CommentsAside language)
    (hk : language.classify s = .mark) (source : ByteArray) :
    language.markName? source s.node.uncommented = language.markName? source s.node := by
  cases language with
  | java | go => exact fieldText?_uncommented h.node.children_unfielded source "name"
  | python => exact Python.markName?_uncommented h.node (Python.kind_of_classify_mark hk) source
  | rust => exact Rust.markName?_uncommented h.node (Rust.kind_of_classify_mark hk) source

theorem parameterType_uncommented {s : Site} (h : s.CommentsAside language)
    (hk : language.classify s = .parameter) (source : ByteArray) :
    language.parameterType source s.node.uncommented = language.parameterType source s.node := by
  have hchild := childByField?_uncommented h.node.children_unfielded "type"
  cases language with
  | java =>
    exact Java.parameterType_uncommented h.node (Java.kind_of_classify_parameter hk) source
  | python =>
    simp only [parameterType, Python.parameterType, hchild]
    cases s.node.childByField? "type" <;> simp
  | go =>
    simp only [parameterType, Go.parameterType, hchild, kind_uncommented]
    cases s.node.childByField? "type" <;> simp
  | rust =>
    simp only [parameterType, Rust.parameterType, kind_uncommented, text_uncommented,
      fieldText?_uncommented h.node.children_unfielded]

end Language

/-! ## Sites without comments -/

namespace Language

variable {language : Language}

theorem eq_of_silentKinds {kind : String} (h : silentKinds.contains kind) :
    kind = "comment" ∨ kind = "line_comment" ∨ kind = "block_comment" ∨
      kind = "outer_doc_comment_marker" ∨ kind = "inner_doc_comment_marker" ∨
      kind = "doc_comment" := by
  simpa [silentKinds, commentKinds] using h

/-- Comments and their parts are of no kind in any grammar. -/
theorem classify_of_silent {s : Site} (h : silentKinds.contains s.kind) :
    language.classify s = .other := by
  have hends : s.kind.endsWith "_statement" = false :=
    (by decide +kernel : ∀ kind ∈ silentKinds, kind.endsWith "_statement" = false) _
      (List.contains_iff_mem.1 h)
  have hparameter : Python.isParameter s = false := by
    have hnone : ∀ kind ∈ silentKinds, Python.parameterKinds.contains kind = false := by decide
    rw [Python.isParameter, hnone _ (List.contains_iff_mem.1 h), Bool.and_false]
  rcases eq_of_silentKinds h with hk | hk | hk | hk | hk | hk <;> rw [hk] at hends <;>
    cases language <;>
    simp [classify, Java.classify, Python.classify, hparameter, Go.classify, Rust.classify, hk,
      hends]

theorem scopeSegment?_of_silent {s : Site} (h : silentKinds.contains s.kind)
    (source : ByteArray) : language.scopeSegment? source s = none := by
  rcases eq_of_silentKinds h with hk | hk | hk | hk | hk | hk <;> cases language <;>
    simp [scopeSegment?, Java.scopeSegment?, Rust.scopeSegment?, hk]

theorem silentKinds_of_isComment {c : Concrete} (h : c.isComment) :
    silentKinds.contains c.kind :=
  List.contains_iff_mem.2 (List.mem_append_left _ (List.contains_iff_mem.1 h))

theorem classify_of_isComment {s : Site} (h : s.node.isComment) :
    language.classify s = .other :=
  classify_of_silent (silentKinds_of_isComment h)

theorem filter_sites_uncommented {c : Concrete} (h : CommentsAside language c) {kind : Kind}
    (hk : kind ≠ .other) :
    c.uncommented.sites.filter (language.classify · = kind) =
      (c.sites.filter (language.classify · = kind)).map Site.uncommented := by
  rw [sites_uncommented, List.filter_map, List.filter_filter]
  congr 1
  refine List.filter_congr fun s hs => ?_
  rw [Function.comp, classify_uncommented (h.site hs)]
  cases hc : s.node.isComment with
  | false => simp
  | true => simp [classify_of_isComment hc, hk.symm]

theorem parameterTypes_uncommented {op : Concrete} (h : CommentsAside language op)
    (source : ByteArray) :
    language.parameterTypes source op.uncommented = language.parameterTypes source op := by
  rw [parameterTypes, parameterTypes, filter_sites_uncommented h (by decide), List.flatMap_map]
  refine List.flatMap_congr fun list hlist => ?_
  have hlist := h.site (List.mem_filter.1 hlist).1
  rw [Site.node_uncommented, filter_sites_uncommented hlist.node (by decide), List.map_map]
  refine List.map_congr_left fun p hp => ?_
  obtain ⟨hp, hk⟩ := List.mem_filter.1 hp
  exact parameterType_uncommented (hlist.node.site hp) (by simpa using hk) source

/-! ## Marks beside declarations -/

theorem attributeRun_uncommented (parent : Option Concrete) {before : List Concrete}
    (h : ∀ c ∈ before, CommentsAside .rust c) (found : List Site) :
    Rust.attributeRun (parent.map uncommented) (found.map Site.uncommented)
        (uncommentedAll before) =
      (Rust.attributeRun parent found before).map Site.uncommented := by
  induction before generalizing found with
  | nil => simp [uncommentedAll, Rust.attributeRun]
  | cons c before ih =>
    have ih := ih fun d hd => h d (List.mem_cons_of_mem c hd)
    have hread : c.kind ≠ "comment" := by
      have hread := (h c List.mem_cons_self).not_readsComment
      simp only [readsComment, Rust.readsComment, Bool.or_eq_false_iff,
        beq_eq_false_iff_ne] at hread
      exact hread.1
    have hcomment : c.isComment = decide (c.kind = "line_comment" ∨ c.kind = "block_comment") := by
      simp [isComment, commentKinds, hread, Bool.decide_or]
    rw [uncommentedAll, Rust.attributeRun]
    by_cases hc : c.kind = "line_comment" ∨ c.kind = "block_comment"
    · have hmark : c.kind ≠ "attribute_item" := by
        rcases hc with hc | hc <;> simp [hc]
      rw [if_pos (by simpa [hcomment] using hc), if_neg hmark, if_pos hc, ite_self]
      exact ih found
    · rw [if_neg (by simpa [hcomment] using hc), Rust.attributeRun, isNamed_uncommented,
        kind_uncommented, if_neg hc]
      split
      · exact ih found
      · split
        · exact ih (⟨c, parent, before⟩ :: found)
        · rfl

theorem attachedMarks_uncommented {s : Site} (h : s.CommentsAside language) :
    language.attachedMarks s.uncommented = (language.attachedMarks s).map Site.uncommented := by
  cases language with
  | java | go => rfl
  | python =>
    simp only [attachedMarks, Python.attachedMarks, Site.uncommented]
    cases s.parent with
    | none => rfl
    | some parent =>
      simp only [Option.map_some, kind_uncommented]
      split
      · rw [sites_uncommented, List.filter_map, List.filter_filter]
        congr 1
        refine List.filter_congr fun a _ => ?_
        by_cases hk : a.kind = "decorator"
        · simp [hk, isComment, commentKinds, show a.node.kind = _ from hk]
        · simp [hk]
      · rfl
  | rust => exact attributeRun_uncommented s.parent h.before []

/-! ## Packages -/

/-- Whether a search asks comments in vain, and every other node the same without comments. -/
structure PassesComments {α : Type} (language : Language) (f : Concrete → Option α) : Prop where
  silent : ∀ c, c.isSilent → f c = none
  same : ∀ c, CommentsAside language c → f c.uncommented = f c

namespace PassesComments

section Search

variable {α : Type} {f : Concrete → Option α} (hf : PassesComments language f)

include hf

mutual

theorem findSome?_preorder :
    ∀ c, CommentsAside language c →
      c.uncommented.preorder.findSome? f = c.preorder.findSome? f
  | .mk row children, h => by
    have hbelow := findSome?_preorders children fun _ => h.child
    rw [preorder_eq (uncommented _), children_uncommented, preorder, List.findSome?_cons,
      List.findSome?_cons, hf.same _ h]
    cases f (.mk row children) with
    | none => exact hbelow
    | some a => rfl

theorem findSome?_preorders :
    ∀ cs, (∀ c ∈ cs, CommentsAside language c) →
      (preorders (uncommentedAll cs)).findSome? f = (preorders cs).findSome? f
  | [], _ => by rw [uncommentedAll]
  | c :: cs, h => by
    have hc := h c List.mem_cons_self
    have hrest := findSome?_preorders cs fun d hd => h d (List.mem_cons_of_mem c hd)
    rw [uncommentedAll, preorders, List.findSome?_append]
    split
    · rename_i hcomment
      have hnone : c.preorder.findSome? f = none := List.findSome?_eq_none_iff.2 fun d hd =>
        hf.silent d (hc.silent c c.mem_preorder_self hcomment d hd)
      rw [hrest, hnone, Option.none_or]
    · rw [preorders, List.findSome?_append, findSome?_preorder c hc, hrest]

end

theorem findFirst? {c : Concrete} (h : CommentsAside language c) :
    Concrete.findFirst? f [c.uncommented] = Concrete.findFirst? f [c] := by
  simpa [findFirst?_eq, preorders] using hf.findSome?_preorder c h

end Search

/-- The search for a name in a clause. -/
theorem clause {clause : String} (names : String → Bool)
    (hclause : clause ∉ silentKinds)
    (hnames : ∀ kind ∈ commentKinds, names kind = false) (source : ByteArray) :
    PassesComments language fun c =>
      if c.kind = clause then (c.namedChildren.find? (names ·.kind)).map (·.text source)
      else none where
  silent c h := by
    split
    · rename_i hk
      rw [isSilent, Bool.or_eq_true, or_iff_right (by simpa [hk] using hclause)] at h
      simp_all [namedChildren]
    · rfl
  same c _ := by
    have hfound (d : Concrete) (hd : c.namedChildren.find? (names ·.kind) = some d) :
        ¬d.isComment := fun hc => by
      have hname := hnames d.kind (List.contains_iff_mem.1 hc)
      simp [List.find?_some hd] at hname
    simp only [kind_uncommented, find?_namedChildren_uncommented _ (fun d => by simp) hfound]
    cases c.namedChildren.find? (names ·.kind) <;> simp

end PassesComments

theorem moduleName_uncommented {root : Concrete} (h : CommentsAside language root)
    (source : ByteArray) (path : String) :
    language.moduleName source root.uncommented path = language.moduleName source root path := by
  cases language with
  | python | rust => rfl
  | java =>
    have hpackage : Java.package? source root.uncommented = Java.package? source root :=
      (PassesComments.clause (fun kind => kind == "identifier" || kind == "scoped_identifier")
        (by decide) (by decide) source).findFirst? h
    rw [moduleName, moduleName, hpackage]
  | go =>
    have hpackage : Go.package? source root.uncommented = Go.package? source root :=
      (PassesComments.clause (fun kind => decide (kind = "package_identifier"))
        (by decide) (by decide) source).findFirst? h
    simp only [moduleName, hpackage]

end Language

end CodeGauge
