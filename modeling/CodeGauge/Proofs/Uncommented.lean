import CodeGauge.Grammar.Dispatch
import CodeGauge.Proofs.Lists

/-!
# Concrete trees without their comments

Comments are named nodes and may stand between any two children. `uncommented` drops those below a
node with everything below them and keeps all else as it is. A search through children that does
not end at a comment finds the same child afterwards (`find?_namedChildren_uncommented`), and the
sites of what is left are the sites of before without the comments (`sites_uncommented`).
-/

namespace CodeGauge

/-- The kinds of comments in all grammars. -/
def commentKinds : List String := ["comment", "line_comment", "block_comment"]

namespace Concrete

def isComment (c : Concrete) : Bool := commentKinds.contains c.kind

mutual

/-- A tree without the comments below its root. -/
def uncommented : Concrete → Concrete
  | mk row children => mk row (uncommentedAll children)

/-- Several trees without their comments. -/
def uncommentedAll : List Concrete → List Concrete
  | [] => []
  | c :: cs => if c.isComment then uncommentedAll cs else c.uncommented :: uncommentedAll cs

end

mutual

/-- A node and all nodes below it, named or not, in document order. -/
def preorder : Concrete → List Concrete
  | mk row children => mk row children :: preorders children

/-- The nodes of several trees, one tree after the other. -/
def preorders : List Concrete → List Concrete
  | [] => []
  | c :: cs => c.preorder ++ preorders cs

end

theorem preorder_eq (c : Concrete) : c.preorder = c :: preorders c.children := by
  cases c; rw [preorder, children]

theorem preorders_append (cs ds : List Concrete) :
    preorders (cs ++ ds) = preorders cs ++ preorders ds := by
  induction cs with
  | nil => simp [preorders]
  | cons c cs ih => simp [preorders, ih]

theorem mem_preorder_self (c : Concrete) : c ∈ c.preorder := by simp [preorder_eq]

theorem preorder_subset_preorders {c : Concrete} {cs : List Concrete} (h : c ∈ cs) :
    c.preorder ⊆ preorders cs := by
  obtain ⟨before, after, rfl⟩ := List.append_of_mem h
  intro d hd
  simp [preorders_append, preorders, hd]

theorem preorder_subset_of_mem_children {c d : Concrete} (h : d ∈ c.children) :
    d.preorder ⊆ c.preorder := by
  rw [preorder_eq c]
  exact fun _ he => List.mem_cons_of_mem _ (preorder_subset_preorders h he)

theorem findFirst?_eq {α : Type} (f : Concrete → Option α) (pending : List Concrete) :
    findFirst? f pending = (preorders pending).findSome? f := by
  fun_induction findFirst? f pending with
  | case1 => simp [preorders]
  | case2 c pending a h => simp [preorders, preorder_eq, h]
  | case3 c pending h ih => simp [preorders, preorder_eq, preorders_append, h, ih]

/-! ## What a node keeps -/

theorem uncommentedAll_eq (cs : List Concrete) :
    uncommentedAll cs = (cs.filter (!·.isComment)).map uncommented := by
  induction cs with
  | nil => rw [uncommentedAll]; rfl
  | cons c cs ih =>
    rw [uncommentedAll, List.filter_cons, ih]
    cases c.isComment <;> rfl

@[simp] theorem row_uncommented (c : Concrete) : c.uncommented.row = c.row := by
  cases c; rw [uncommented]; rfl

theorem children_uncommented (c : Concrete) :
    c.uncommented.children = uncommentedAll c.children := by
  cases c; rw [uncommented]; rfl

@[simp] theorem kind_uncommented (c : Concrete) : c.uncommented.kind = c.kind :=
  congrArg Row.kind c.row_uncommented

@[simp] theorem field_uncommented (c : Concrete) : c.uncommented.field = c.field :=
  congrArg Row.field c.row_uncommented

@[simp] theorem isNamed_uncommented (c : Concrete) : c.uncommented.isNamed = c.isNamed :=
  congrArg Row.named c.row_uncommented

@[simp] theorem text?_uncommented (source : ByteArray) (c : Concrete) :
    c.uncommented.text? source = c.text? source := by
  rw [text?, text?, row_uncommented]

@[simp] theorem text_uncommented (source : ByteArray) (c : Concrete) :
    c.uncommented.text source = c.text source := by
  rw [text, text, text?_uncommented]

theorem namedChildren_uncommented (c : Concrete) :
    c.uncommented.namedChildren = (c.namedChildren.filter (!·.isComment)).map uncommented := by
  rw [namedChildren, children_uncommented, uncommentedAll_eq, namedChildren, List.filter_map,
    List.filter_filter, List.filter_filter]
  congr 2
  funext d
  simp [Bool.and_comm]

/-! ## Searches through children -/

theorem find?_namedChildren_uncommented {c : Concrete} (p : Concrete → Bool)
    (hp : ∀ d, p d.uncommented = p d)
    (h : ∀ d, c.namedChildren.find? p = some d → ¬d.isComment) :
    c.uncommented.namedChildren.find? p = (c.namedChildren.find? p).map uncommented := by
  rw [namedChildren_uncommented, List.find?_map,
    show p ∘ uncommented = p from funext hp,
    find?_filter_of_found fun d hd => by simpa using h d hd]

theorem head?_namedChildren_uncommented {c : Concrete}
    (h : ∀ d, c.namedChildren.head? = some d → ¬d.isComment) :
    c.uncommented.namedChildren.head? = c.namedChildren.head?.map uncommented := by
  have hhead (cs : List Concrete) : cs.head? = cs.find? fun _ => true := by cases cs <;> rfl
  simp only [hhead] at h ⊢
  exact find?_namedChildren_uncommented _ (fun _ => rfl) h

/-- Whether no comment below a node stands under a field. -/
def Unfielded (c : Concrete) : Prop := ∀ d ∈ c.children, d.isComment → d.field = none

theorem childByField?_uncommented {c : Concrete} (h : c.Unfielded) (field : String) :
    c.uncommented.childByField? field = (c.childByField? field).map uncommented := by
  have hfound (d : Concrete) (hd : c.children.find? (·.field = some field) = some d) :
      !d.isComment := by
    have hfield := List.find?_some hd
    have hnone := h d (List.mem_of_find?_eq_some hd)
    cases hc : d.isComment with
    | false => rfl
    | true => simp [hnone hc] at hfield
  rw [childByField?, children_uncommented, uncommentedAll_eq, List.find?_map, childByField?,
    ← find?_filter_of_found hfound]
  congr 2
  funext d
  simp

theorem fieldText?_uncommented {c : Concrete} (h : c.Unfielded) (source : ByteArray)
    (field : String) : c.uncommented.fieldText? source field = c.fieldText? source field := by
  rw [fieldText?, childByField?_uncommented h, fieldText?]
  cases c.childByField? field <;> simp

theorem isShortCircuit_uncommented {c : Concrete} (h : c.Unfielded) :
    c.uncommented.isShortCircuit = c.isShortCircuit := by
  rw [isShortCircuit, childByField?_uncommented h, isShortCircuit]
  cases c.childByField? "operator" <;> simp

end Concrete

/-! ## Where nodes stand -/

open Concrete

/-- A site in the tree without comments. -/
def Site.uncommented (s : Site) : Site :=
  ⟨s.node.uncommented, s.parent.map Concrete.uncommented, uncommentedAll s.before⟩

@[simp] theorem Site.node_uncommented (s : Site) : s.uncommented.node = s.node.uncommented := rfl

@[simp] theorem Site.kind_uncommented (s : Site) : s.uncommented.kind = s.kind :=
  s.node.kind_uncommented

@[simp] theorem Site.parentKind?_uncommented (s : Site) :
    s.uncommented.parentKind? = s.parentKind? := by
  rw [parentKind?, uncommented, parentKind?]
  cases s.parent <;> simp

theorem Site.isField_uncommented {s : Site} (h : ∀ d ∈ s.before, d.isComment → d.field = none)
    (field : String) : s.uncommented.isField field = s.isField field := by
  have hbefore : (uncommentedAll s.before).all (·.field != some field) =
      s.before.all (·.field != some field) := by
    rw [uncommentedAll_eq, List.all_map, List.all_filter, Bool.eq_iff_iff]
    simp only [List.all_eq_true]
    refine forall₂_congr fun d hd => ?_
    cases hc : d.isComment with
    | false => simp
    | true => simp [h d hd hc]
  rw [isField, isField, uncommented, hbefore]
  simp

namespace Concrete

theorem sitesFrom_uncommented (parent : Concrete) (before cs : List Concrete) :
    sitesFrom parent.uncommented (uncommentedAll before) (uncommentedAll cs) =
      ((sitesFrom parent before cs).filter (!·.node.isComment)).map Site.uncommented := by
  induction cs generalizing before with
  | nil => simp [uncommentedAll, sitesFrom]
  | cons c cs ih =>
    rw [uncommentedAll, sitesFrom]
    have ih := ih (c :: before)
    rw [uncommentedAll] at ih
    cases hc : c.isComment with
    | true =>
      rw [if_pos hc] at ih
      rw [List.filter_cons_of_neg (by simp [hc])]
      exact ih
    | false =>
      rw [if_neg (by simp [hc])] at ih
      rw [List.filter_cons_of_pos (by simp [hc]), List.map_cons, ← ih]
      rfl

/-- The named children stand in the tree without comments where they stood before. -/
theorem sites_uncommented (c : Concrete) :
    c.uncommented.sites = (c.sites.filter (!·.node.isComment)).map Site.uncommented := by
  have hsites := sitesFrom_uncommented c [] c.children
  rw [uncommentedAll] at hsites
  rw [sites, children_uncommented, hsites, sites, List.filter_map, List.filter_filter,
    List.filter_filter]
  congr 2
  funext s
  simp [Bool.and_comm]

end Concrete

end CodeGauge
