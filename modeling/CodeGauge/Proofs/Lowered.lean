import CodeGauge.Grammar.Lowering

/-!
# Lowering by recursion

`lowered` says by recursion what a site becomes inside a scope, when some names are taken already:
one node, whose children are the attached marks and the named children of the site, lowered in
order. The names given out are handed from each site to the next in the order of visiting. A
declaration asks for a name under the scope, or under the module when there is none, and what it is
given is the scope of its own children and of nothing else (`wanted?`, `header`).

The frames of `Lowering.run` come to the same. Finishing the pending sites of the top frame leaves
the scopes as they were and appends to the frame what the recursion makes of the sites (`run_eq`),
so the tree of a file is the recursion from its root (`tree_eq`).
-/

namespace CodeGauge

namespace Lowering

variable (file : SourceFile)

/-- The simple name of a declaration. -/
def simpleName (s : Site) : String :=
  (file.language.declarationName? file.bytes s.node).getD "<anonymous>"

/-- The name that a site asks for: a type or a scope under the innermost scope, an operation under
its receiver's type in the module or else under the innermost scope. Outside all scopes, the module
takes the place of the scope. -/
def wanted? (scope : Option String) (s : Site) : Option QualifiedName :=
  let owner := scope.getD file.moduleName
  match file.language.classify s with
  | .typeDeclaration => some (.nested owner (simpleName file s))
  | .operationDeclaration =>
    let home := ((file.language.operationOwner? file.bytes s.node).map
      (QualifiedName.nested file.moduleName)).getD owner
    some (.operation home (simpleName file s) (file.language.parameterTypes file.bytes s.node))
  | .mark => none
  | _ => (file.language.scopeSegment? file.bytes s).map (.nested owner)

/-- What a site's node says about itself when the site is given a name. -/
def header (s : Site) (given : Option QualifiedName) : Header where
  kind := file.language.classify s
  rawKind := s.node.row.kind
  span := ⟨s.node.row.firstRow + 1, s.node.row.lastRow + 1⟩
  name :=
    match file.language.classify s with
    | .typeDeclaration | .operationDeclaration => some (simpleName file s)
    | .mark => file.language.markName? file.bytes s.node
    | _ => none
  qualified := if (file.language.classify s).isDeclaration then given else none

/-- The name a site is given: the one it asks for, made free. -/
def given (scope : Option String) (taken : TakenNames) (s : Site) : Option QualifiedName :=
  (wanted? file scope s).map taken.free

theorem weight_pos (language : Language) (s : Site) : 0 < weight language s := by
  rw [weight_eq]
  omega

mutual

/-- The node of a site inside a scope, and the names taken after it. -/
def lowered (scope : Option String) (taken : TakenNames) (s : Site) : Node × TakenNames :=
  let name := given file scope taken s
  let below := loweredAll (name <|> scope) (name.elim taken taken.insert)
    (childSites file.language s)
  (.mk (header file s name) below.1, below.2)
termination_by (weight file.language s, 0)
decreasing_by
  have := weight_eq file.language s
  exact .left _ _ (by omega)

/-- The nodes of several sites inside a scope, one after the other, and the names taken then. -/
def loweredAll (scope : Option String) (taken : TakenNames) :
    List Site → List Node × TakenNames
  | [] => ([], taken)
  | s :: rest =>
    let first := lowered scope taken s
    let others := loweredAll scope first.2 rest
    (first.1 :: others.1, others.2)
termination_by sites => (weights file.language sites, 1)
decreasing_by
  · rw [weights_cons, Prod.lex_def]
    simp only
    omega
  · have := weight_pos file.language s
    exact .left _ _ (by rw [weights_cons]; omega)

end

theorem lowered_eq (scope : Option String) (taken : TakenNames) (s : Site) :
    lowered file scope taken s =
      let name := given file scope taken s
      let below := loweredAll file (name <|> scope) (name.elim taken taken.insert)
        (childSites file.language s)
      (.mk (header file s name) below.1, below.2) := by
  rw [lowered]

@[simp] theorem loweredAll_nil (scope : Option String) (taken : TakenNames) :
    loweredAll file scope taken [] = ([], taken) := by
  rw [loweredAll]

theorem loweredAll_cons (scope : Option String) (taken : TakenNames) (s : Site)
    (rest : List Site) :
    loweredAll file scope taken (s :: rest) =
      let first := lowered file scope taken s
      let others := loweredAll file scope first.2 rest
      (first.1 :: others.1, others.2) := by
  rw [loweredAll]

/-- Induction over the children of the first site and over the sites after it. -/
@[elab_as_elim]
theorem sites_induction (language : Language) {motive : List Site → Prop} (nil : motive [])
    (cons : ∀ s rest, motive (childSites language s) → motive rest → motive (s :: rest)) :
    ∀ sites, motive sites
  | [] => nil
  | s :: rest =>
    cons s rest (sites_induction language nil cons (childSites language s))
      (sites_induction language nil cons rest)
termination_by sites => weights language sites
decreasing_by
  · rw [weights_cons, weight_eq]
    omega
  · have := weight_pos language s
    rw [weights_cons]
    omega

/-! ## One node -/

/-- Entering a node gives it its name, opens the name as a scope and takes it. -/
theorem enter_eq (scopes : List String) (taken : TakenNames) (s : Site) :
    enter file scopes taken s =
      let name := given file scopes.head? taken s
      (⟨header file s name, name⟩, name.elim taken taken.insert) := by
  have howner : owner file scopes = scopes.head?.getD file.moduleName := by
    cases scopes <;> rfl
  rcases hk : file.language.classify s <;> simp only [enter, given, wanted?, header, hk, howner]
  case typeDeclaration => rfl
  case operationDeclaration =>
    cases file.language.operationOwner? file.bytes s.node <;> rfl
  case mark => rfl
  all_goals cases file.language.scopeSegment? file.bytes s <;> rfl

/-! ## The frames -/

section Frames

variable (scopes : List String) (taken : TakenNames) (head : Header) (done : List Node)
  (opened : Bool) (outer : List Frame)

theorem run_cons (s : Site) (rest : List Site) :
    run file scopes taken ⟨head, done, s :: rest, opened⟩ outer =
      let name := given file scopes.head? taken s
      run file (name.toList ++ scopes) (name.elim taken taken.insert)
        ⟨header file s name, [], childSites file.language s, name.isSome⟩
        (⟨head, done, rest, opened⟩ :: outer) := by
  conv => lhs; rw [run.eq_def]
  simp only [enter_eq, Frame.start]

theorem run_nil_cons (around : Frame) :
    run file scopes taken ⟨head, done, [], opened⟩ (around :: outer) =
      run file (if opened then scopes.tail else scopes) taken
        { around with done := .mk head done.reverse :: around.done } outer := by
  rw [run]
  rfl

theorem run_nil_nil :
    run file scopes taken ⟨head, done, [], opened⟩ [] = .mk head done.reverse := by
  rw [run]
  rfl

theorem head?_push (name : Option QualifiedName) :
    (name.toList ++ scopes).head? = (name <|> scopes.head?) := by
  cases name <;> rfl

theorem pop_push (name : Option QualifiedName) :
    (if name.isSome then (name.toList ++ scopes).tail else name.toList ++ scopes) = scopes := by
  cases name <;> rfl

/-- Finishing the pending sites of the top frame appends their nodes to it, and every scope opened
on the way is closed again. -/
theorem run_eq (sites : List Site) :
    run file scopes taken ⟨head, done, sites, opened⟩ outer =
      let nodes := loweredAll file scopes.head? taken sites
      run file scopes nodes.2 ⟨head, nodes.1.reverse ++ done, [], opened⟩ outer := by
  induction sites using sites_induction file.language
    generalizing scopes taken head done opened outer with
  | nil => simp
  | cons s rest ihchildren ihrest =>
    rw [run_cons]
    simp only
    rw [ihchildren]
    simp only
    rw [run_nil_cons, pop_push, ihrest, loweredAll_cons, lowered_eq, head?_push]
    simp

end Frames

/-- The tree of a file is what the recursion makes of its root. -/
theorem tree_eq (root : Concrete) :
    tree file root = (lowered file none ∅ (.root root)).1 := by
  rw [tree]
  simp only [enter_eq, Frame.start, List.head?_nil]
  rw [run_eq, run_nil_nil, lowered_eq]
  simp

end Lowering

/-- A concrete tree of any shape is lowered to what the recursion makes of its root, outside all
scopes and with no name taken. -/
theorem lower_eq_lowered (language : Language) (bytes : ByteArray) (path : String)
    (root : Concrete) :
    lower language bytes path root =
      (Lowering.lowered (.ofTree language bytes path root) none ∅ (.root root)).1 :=
  Lowering.tree_eq _ root

end CodeGauge
