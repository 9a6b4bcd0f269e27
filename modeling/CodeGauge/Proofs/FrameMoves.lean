import CodeGauge.Proofs.Lowered
import CodeGauge.Proofs.Preorder

/-!
# The walk over frames, move by move

Lowering is a walk over a stack of frames (`Walk`). A move enters a frame for the next pending site
of the top frame, or finishes the top frame when it has no pending site left (`Walk.next?`), and
`Lowering.run` makes moves until there is none (`run_next?`). Nothing in a move says that there is a
last one: the sites of a declaration's frame are not only those below it but also the marks beside
it, whose trees may be larger than its own.

There is a last one, and the moves made until then are read off the tree that is returned, once
around each of its nodes: a node's frame is entered, its children are gone around, and the frame is
finished (`tour`). That holds of the pending sites of any frame within any frames
(`makes_pending`), by induction on the sites (`sites_induction`), whose measure falls from a site to
its children and from a declaration to its marks.
-/

namespace CodeGauge

namespace Lowering

/-! ## Moves -/

/-- The walk between two moves: the open scopes, innermost first, the names taken, the top frame and
the frames around it. -/
structure Walk where
  scopes : List String
  taken : TakenNames
  top : Frame
  outer : List Frame

/-- Entering a frame for a node, or finishing the top frame. -/
inductive Move where
  | enter (head : Header)
  | finish

namespace Walk

variable (file : SourceFile)

/-- The walk over a tree, the frame of its root just entered. -/
def start (root : Concrete) : Walk :=
  let site := Site.root root
  let (e, taken) := enter file [] ∅ site
  ⟨e.scope.toList, taken, .start e (childSites file.language site), []⟩

/-- The next move and the walk after it. -/
def next? (w : Walk) : Option (Move × Walk) :=
  match w.top.pending, w.outer with
  | s :: rest, outer =>
    let (e, taken) := enter file w.scopes w.taken s
    some (.enter e.head, ⟨e.scope.toList ++ w.scopes, taken,
      .start e (childSites file.language s), { w.top with pending := rest } :: outer⟩)
  | [], around :: outer =>
    some (.finish, ⟨if w.top.opened then w.scopes.tail else w.scopes, w.taken,
      { around with done := w.top.node :: around.done }, outer⟩)
  | [], [] => none

/-- What a walk ends with. -/
def result (w : Walk) : Node := run file w.scopes w.taken w.top w.outer

/-- Some moves that lead from a walk to another. -/
inductive Makes : Walk → List Move → Walk → Prop
  | nothing {w : Walk} : Makes w [] w
  | next {w w' last : Walk} {m : Move} {moves : List Move} (h : w.next? file = some (m, w'))
    (rest : Makes w' moves last) : Makes w (m :: moves) last

variable {file}

/-- Lowering makes the next move, or returns the node of the top frame when there is none. -/
theorem result_next? (w : Walk) :
    w.result file = match w.next? file with
      | some (_, w') => w'.result file
      | none => w.top.node := by
  obtain ⟨scopes, taken, ⟨head, done, _ | ⟨s, rest⟩, opened⟩, _ | ⟨around, outer⟩⟩ := w
  · exact run_nil_nil file scopes taken head done opened
  · exact run_nil_cons file scopes taken head done opened outer around
  all_goals
    rw [result, run]
    rfl

namespace Makes

variable {w v u : Walk} {moves moves' : List Move}

theorem trans (h : Makes file w moves v) (h' : Makes file v moves' u) :
    Makes file w (moves ++ moves') u := by
  induction h with
  | nothing => exact h'
  | next hnext _ ih => exact .next hnext (ih h')

theorem result_eq (h : Makes file w moves v) : w.result file = v.result file := by
  induction h with
  | nothing => rfl
  | next hnext _ ih =>
    rw [result_next?, hnext]
    exact ih

/-- All that can be made from a walk is a beginning of what ends it. -/
theorem prefix_of_end (h : Makes file w moves v) (hend : v.next? file = none)
    (h' : Makes file w moves' u) : moves' <+: moves := by
  induction h generalizing moves' u with
  | nothing =>
    cases h' with
    | nothing => exact List.prefix_rfl
    | next hnext _ => rw [hend] at hnext; cases hnext
  | next hnext _ ih =>
    cases h' with
    | nothing => exact List.nil_prefix
    | next hnext' rest =>
      rw [hnext] at hnext'
      cases hnext'
      exact List.cons_prefix_cons.2 ⟨rfl, ih hend rest⟩

end Makes

end Walk

/-! ## Once around a tree -/

mutual

/-- The moves around a node: its frame entered, its children gone around, its frame finished. -/
def tour : Node → List Move
  | .mk head children => .enter head :: tours children ++ [.finish]

/-- The moves around several nodes. -/
def tours : List Node → List Move
  | [] => []
  | n :: ns => tour n ++ tours ns

end

/-- What the frames say that are entered in some moves. -/
def entries (moves : List Move) : List Header :=
  moves.filterMap fun | .enter head => some head | .finish => none

theorem entries_append (moves moves' : List Move) :
    entries (moves ++ moves') = entries moves ++ entries moves' :=
  List.filterMap_append

mutual

theorem entries_tour : ∀ n : Node, entries (tour n) = (n.preorder none).map (·.head)
  | .mk head children => by
    rw [tour, Node.preorder, if_neg (by simp), List.map_cons, ← entries_tours, entries_append]
    exact List.append_nil _

theorem entries_tours : ∀ ns : List Node, entries (tours ns) = (Node.preorders none ns).map (·.head)
  | [] => by
    rw [tours, Node.preorders]
    rfl
  | n :: ns => by
    rw [tours, Node.preorders, entries_append, List.map_append, entries_tour, entries_tours]

end

mutual

/-- Each node is entered once and finished once. -/
theorem length_tour : ∀ n : Node, (tour n).length = 2 * n.size
  | .mk head children => by
    have := length_tours children
    simp only [tour, Node.size, List.length_append, List.length_cons, List.length_nil]
    omega

theorem length_tours : ∀ ns : List Node, (tours ns).length = 2 * Node.sizes ns
  | [] => by simp [tours, Node.sizes]
  | n :: ns => by
    have := length_tour n
    have := length_tours ns
    simp only [tours, Node.sizes, List.length_append]
    omega

end

mutual

theorem length_preorder : ∀ n : Node, (n.preorder none).length = n.size
  | .mk head children => by
    rw [Node.preorder, if_neg (by simp), List.length_cons, length_preorders, Node.size,
      Nat.add_comm]

theorem length_preorders : ∀ ns : List Node, (Node.preorders none ns).length = Node.sizes ns
  | [] => by simp [Node.preorders, Node.sizes]
  | n :: ns => by
    rw [Node.preorders, Node.sizes, List.length_append, length_preorder, length_preorders]

end

/-! ## The walk goes once around the tree -/

section Pending

variable (file : SourceFile) (scopes : List String) (taken : TakenNames) (head : Header)
  (done : List Node) (opened : Bool) (outer : List Frame)

/-- Entering a site, with what its name does to the scopes and the taken names. -/
theorem next?_cons (s : Site) (rest : List Site) :
    Walk.next? file ⟨scopes, taken, ⟨head, done, s :: rest, opened⟩, outer⟩ =
      let name := given file scopes.head? taken s
      some (.enter (header file s name), ⟨name.toList ++ scopes, name.elim taken taken.insert,
        ⟨header file s name, [], childSites file.language s, name.isSome⟩,
        ⟨head, done, rest, opened⟩ :: outer⟩) := by
  simp only [Walk.next?, enter_eq, Frame.start]

/-- From the pending sites of a frame the walk goes once around each of the nodes that they become,
and has them in the frame then, with the scopes as they were and nothing pending. -/
theorem makes_pending (sites : List Site) :
    let nodes := loweredAll file scopes.head? taken sites
    Walk.Makes file ⟨scopes, taken, ⟨head, done, sites, opened⟩, outer⟩ (tours nodes.1)
      ⟨scopes, nodes.2, ⟨head, nodes.1.reverse ++ done, [], opened⟩, outer⟩ := by
  induction sites using sites_induction file.language
    generalizing scopes taken head done opened outer with
  | nil =>
    simp only [loweredAll_nil, tours, List.reverse_nil, List.nil_append]
    exact .nothing
  | cons s rest ihchildren ihrest =>
    let name := given file scopes.head? taken s
    -- into the frame of the first site, around its children, and out again
    have hchildren := ihchildren (name.toList ++ scopes) (name.elim taken taken.insert)
      (header file s name) [] name.isSome (⟨head, done, rest, opened⟩ :: outer)
    have hfirst := hchildren.trans (.next rfl .nothing)
    rw [head?_push] at hfirst
    have hall := (Walk.Makes.next (next?_cons file scopes taken head done opened outer s rest)
      hfirst).trans (ihrest _ _ _ _ _ _)
    simp only [pop_push] at hall
    rw [loweredAll_cons, lowered_eq]
    simpa [tours, tour, Frame.node] using hall

end Pending

variable (file : SourceFile)

theorem start_eq (root : Concrete) :
    Walk.start file root =
      let name := given file none ∅ (.root root)
      ⟨name.toList, name.elim ∅ (∅ : TakenNames).insert,
        ⟨header file (.root root) name, [], childSites file.language (.root root), name.isSome⟩,
        []⟩ := by
  simp only [Walk.start, enter_eq, Frame.start, List.head?_nil]

theorem head_tree (root : Concrete) :
    (tree file root).head = (Walk.start file root).top.head := by
  rw [tree_eq, lowered_eq, start_eq]
  rfl

theorem children_tree (root : Concrete) :
    let name := given file none ∅ (.root root)
    (tree file root).children = (loweredAll file (name <|> none)
      (name.elim ∅ (∅ : TakenNames).insert) (childSites file.language (.root root))).1 := by
  rw [tree_eq, lowered_eq]
  rfl

/-- From the start the walk goes once around each child of the root of the tree it returns, and then
has no next move. -/
theorem makes_start (root : Concrete) :
    ∃ last, Walk.Makes file (.start file root) (tours (tree file root).children) last ∧
      last.next? file = none ∧ last.top.node = tree file root := by
  let name := given file none ∅ (.root root)
  have hscope : name.toList.head? = (name <|> none) := by cases name <;> rfl
  have hmakes := makes_pending file name.toList (name.elim ∅ (∅ : TakenNames).insert)
    (header file (.root root) name) [] name.isSome [] (childSites file.language (.root root))
  simp only [hscope] at hmakes
  rw [← start_eq] at hmakes
  rw [children_tree]
  refine ⟨_, hmakes, rfl, ?_⟩
  calc
    _ = Walk.result file _ := (Walk.result_next? _).symm
    _ = (Walk.start file root).result file := hmakes.result_eq.symm
    _ = tree file root := rfl

end Lowering

open Lowering in
/-- Whatever the concrete tree and its language, the walk that lowers it comes to an end where it
has no next move, and every other run of moves from its start is only a beginning of the moves until
then. What it returns is the node of the last frame. The frames entered are those of the nodes of
that tree, one each and in document order, the first of them at the start, and each but the root's
is finished by a move of its own. -/
theorem lowering_walk_ends (language : Language) (bytes : ByteArray) (path : String)
    (root : Concrete) :
    let file := SourceFile.ofTree language bytes path root
    let n := lower language bytes path root
    ∃ moves last, Walk.Makes file (.start file root) moves last ∧ last.next? file = none ∧
      (∀ moves' w, Walk.Makes file (.start file root) moves' w → moves' <+: moves) ∧
      last.top.node = n ∧
      (Walk.start file root).top.head :: entries moves = n.nodes.map (·.head) ∧
      1 + (entries moves).length = n.size ∧ moves.length + 2 = 2 * n.size := by
  intro file n
  obtain ⟨last, hmakes, hend, hnode⟩ := makes_start file root
  have hsize := Node.size_eq n
  have hentries : (Walk.start file root).top.head :: entries (tours n.children) =
      n.nodes.map (·.head) := by
    rw [entries_tours, Node.nodes, Node.descendants_eq, List.map_cons, ← head_tree]
    rfl
  refine ⟨tours n.children, last, hmakes, hend, fun moves' w h => hmakes.prefix_of_end hend h,
    hnode, hentries, ?_, ?_⟩
  · rw [entries_tours, List.length_map, length_preorders, hsize]
  · rw [length_tours]
    omega

end CodeGauge
