import Mathlib.Data.List.GetD
import Mathlib.Data.List.Infix
import Mathlib.Logic.Function.Basic
import Std.Data.String.ToNat
import CodeGauge.Rule.Threshold
import CodeGauge.Proofs.Lists

/-!
# Messages filled in at once

A template is a list of pieces: its placeholders and the characters between them (`Message.pieces`).
Filling it in at once writes each argument for its placeholder and keeps everything else. A message
substitutes the arguments one after the other instead, so it can differ where an argument, as it is
put in, makes up the placeholder of a later one. If none does, the message is the template filled in
at once (`substitute_eq_filled`).

The messages of threshold rules have the name of a declaration as their second argument and its
score as the third. Neither the kind of the target nor a score has a brace in it, so a name is kept
unless it contains the placeholder of the score.
-/

namespace CodeGauge

theorem isDigit_of_mem_toString {i : Nat} {c : Char} (h : c ∈ (toString i).toList) : c.isDigit :=
  Nat.isDigit_of_mem_toDigits (by decide) (by decide) (Nat.toList_repr ▸ h)

namespace Message

/-! ## Occurrences -/

/-- The number of places of a text where another one stands. -/
def occurrences (what text : List Char) : Nat := text.tails.countP what.isPrefixOf

section Occurrences

variable {what new rest : List Char} {c : Char}

theorem occurrences_cons (what : List Char) (c : Char) (cs : List Char) :
    occurrences what (c :: cs) =
      occurrences what cs + if what.isPrefixOf (c :: cs) then 1 else 0 := by
  rw [occurrences, List.tails_cons, List.countP_cons]
  rfl

theorem occurrences_le_append (what w rest : List Char) :
    occurrences what rest ≤ occurrences what (w ++ rest) := by
  induction w with
  | nil => exact le_rfl
  | cons c w ih =>
    rw [List.cons_append, occurrences_cons]
    omega

theorem occurrences_append_of_notMem {w : List Char} (h : c ∉ w) :
    occurrences (c :: what) (w ++ rest) = occurrences (c :: what) rest := by
  induction w with
  | nil => rfl
  | cons d w ih =>
    rw [List.mem_cons, not_or] at h
    rw [List.cons_append, occurrences_cons, ih h.2]
    simp [List.isPrefixOf, h.1]

theorem replaceFrom_skip (what new : List Char) (skip : Nat) (cs : List Char) :
    replaceFrom what new skip cs = replaceFrom what new 0 (cs.drop skip) := by
  induction cs generalizing skip with
  | nil => cases skip <;> rfl
  | cons c cs ih =>
    cases skip with
    | zero => rfl
    | succ skip => exact ih skip

theorem replaceFrom_self_append :
    replaceFrom (c :: what) new 0 (c :: what ++ rest) =
      new ++ replaceFrom (c :: what) new 0 rest := by
  have hprefix : (c :: what).isPrefixOf (c :: (what ++ rest)) = true :=
    List.isPrefixOf_iff_prefix.2 (List.prefix_append (c :: what) rest)
  rw [List.cons_append, replaceFrom, if_pos hprefix, replaceFrom_skip]
  simp

/-- A text that no occurrence starts in is kept. -/
theorem replaceFrom_append {w : List Char}
    (h : occurrences what (w ++ rest) = occurrences what rest) :
    replaceFrom what new 0 (w ++ rest) = w ++ replaceFrom what new 0 rest := by
  induction w with
  | nil => rfl
  | cons c w ih =>
    have hle := occurrences_le_append what w rest
    rw [List.cons_append, occurrences_cons] at h
    have hprefix : ¬what.isPrefixOf (c :: (w ++ rest)) := fun hprefix => by
      rw [if_pos hprefix] at h
      omega
    rw [if_neg hprefix] at h
    rw [List.cons_append, replaceFrom, if_neg hprefix, ih h]
    rfl

end Occurrences

/-! ## Placeholders -/

/-- The part of a placeholder behind its opening brace. -/
def placeholderTail (i : Nat) : List Char := (toString i).toList ++ ['\x7d']

theorem placeholder_eq (i : Nat) : placeholder i = '\x7b' :: placeholderTail i := rfl

theorem brace_notMem_placeholderTail (i : Nat) : '\x7b' ∉ placeholderTail i := by
  intro h
  rcases List.mem_append.1 h with h | h
  · exact absurd (isDigit_of_mem_toString h) (by decide)
  · exact absurd (List.mem_singleton.1 h) (by decide)

/-- A text starts with one placeholder at most. -/
theorem eq_of_prefix_placeholder {i k : Nat} {rest : List Char}
    (h : placeholder k <+: placeholder i ++ rest) : k = i := by
  obtain ⟨others, h⟩ := h
  have hdigits (j : Nat) (cs : List Char) :
      (placeholderTail j ++ cs).takeWhile (· ≠ '\x7d') = (toString j).toList := by
    have hall : ∀ c ∈ (toString j).toList, decide (c ≠ '\x7d') = true := fun c hc =>
      decide_eq_true fun hbrace => absurd (hbrace ▸ isDigit_of_mem_toString hc) (by decide)
    rw [placeholderTail, List.append_assoc, List.takeWhile_append_of_pos hall]
    simp
  rw [placeholder_eq, placeholder_eq, List.cons_append, List.cons_append] at h
  have htails := congrArg (List.takeWhile (· ≠ '\x7d')) (List.cons.inj h).2
  rw [hdigits, hdigits] at htails
  exact Nat.repr_inj.1 (String.toList_inj.1 htails)

theorem occurrences_placeholder_append (k i : Nat) (rest : List Char) :
    occurrences (placeholder k) (placeholder i ++ rest) =
      occurrences (placeholder k) rest + if i = k then 1 else 0 := by
  have hprefix : (placeholder k).isPrefixOf (placeholder i ++ rest) ↔ i = k := by
    rw [List.isPrefixOf_iff_prefix]
    constructor
    · exact fun h => (eq_of_prefix_placeholder h).symm
    · rintro rfl
      exact List.prefix_append _ _
  simp only [← hprefix]
  rw [placeholder_eq i, List.cons_append, occurrences_cons, placeholder_eq k,
    occurrences_append_of_notMem (brace_notMem_placeholderTail i)]

/-! ## Pieces of a template -/

/-- A piece of a template: a placeholder, or a character between them. -/
inductive Piece where
  | char (c : Char)
  | slot (i : Nat)
  deriving DecidableEq

/-- Which of the first `n` placeholders a text starts with. -/
def slot? (n : Nat) (cs : List Char) : Option Nat :=
  (List.range n).find? fun i => (placeholder i).isPrefixOf cs

/-- The pieces of a template for `n` arguments; `skip` characters belong to a placeholder already
read. -/
def pieces (n : Nat) : Nat → List Char → List Piece
  | _, [] => []
  | skip + 1, _ :: cs => pieces n skip cs
  | 0, c :: cs =>
    match slot? n (c :: cs) with
    | some i => .slot i :: pieces n ((placeholder i).length - 1) cs
    | none => .char c :: pieces n 0 cs

/-- The text of pieces, with something for every placeholder. -/
def render (fill : Nat → List Char) (ps : List Piece) : List Char :=
  ps.flatMap fun
    | .char c => [c]
    | .slot i => fill i

section Pieces

variable {n i : Nat} {c : Char} {cs rest : List Char}

theorem slot?_eq_some (h : slot? n cs = some i) : i < n ∧ placeholder i <+: cs := by
  unfold slot? at h
  have hprefix := List.find?_some h
  exact ⟨List.mem_range.1 (List.mem_of_find?_eq_some h), List.isPrefixOf_iff_prefix.1 hprefix⟩

theorem slot?_placeholder_append (hi : i < n) : slot? n (placeholder i ++ rest) = some i := by
  cases h : slot? n (placeholder i ++ rest) with
  | none =>
    exact absurd (List.isPrefixOf_iff_prefix.2 (List.prefix_append _ _))
      (List.find?_eq_none.1 h i (List.mem_range.2 hi))
  | some j => rw [eq_of_prefix_placeholder (slot?_eq_some h).2]

theorem pieces_skip (n skip : Nat) (cs : List Char) :
    pieces n skip cs = pieces n 0 (cs.drop skip) := by
  induction cs generalizing skip with
  | nil => cases skip <;> rfl
  | cons c cs ih =>
    cases skip with
    | zero => rfl
    | succ skip => exact ih skip

theorem pieces_placeholder_append (hi : i < n) :
    pieces n 0 (placeholder i ++ rest) = .slot i :: pieces n 0 rest := by
  have hslot : slot? n (placeholder i ++ rest) = some i := slot?_placeholder_append hi
  rw [placeholder_eq, List.cons_append] at hslot ⊢
  rw [pieces, hslot]
  show Piece.slot i :: pieces n _ _ = _
  rw [pieces_skip]
  simp [placeholder_eq]

theorem pieces_cons (h : slot? n (c :: cs) = none) :
    pieces n 0 (c :: cs) = .char c :: pieces n 0 cs := by
  rw [pieces, h]

/-- Every template is made of placeholders and of characters that none starts with. -/
theorem template_induction {motive : List Char → Prop} (n : Nat) (nil : motive [])
    (slot : ∀ i < n, ∀ rest, motive rest → motive (placeholder i ++ rest))
    (char : ∀ c cs, slot? n (c :: cs) = none → motive cs → motive (c :: cs)) :
    ∀ template, motive template
  | [] => nil
  | c :: cs => by
    cases h : slot? n (c :: cs) with
    | none => exact char c cs h (template_induction n nil slot char cs)
    | some i =>
      obtain ⟨hi, rest, hrest⟩ := slot?_eq_some h
      have hshorter : rest.length < cs.length + 1 := by
        rw [← List.length_cons, ← hrest, placeholder_eq, List.length_append, List.length_cons]
        omega
      rw [← hrest]
      exact slot i hi rest (template_induction n nil slot char rest)
termination_by template => template.length

theorem render_placeholder_pieces (n : Nat) (template : List Char) :
    render placeholder (pieces n 0 template) = template := by
  induction template using template_induction n with
  | nil => rfl
  | slot i hi rest ih => rw [pieces_placeholder_append hi, render, List.flatMap_cons, ← render, ih]
  | char c cs h ih => rw [pieces_cons h, render, List.flatMap_cons, ← render, ih]; rfl

/-- The placeholders among the pieces are all there are. -/
theorem count_slot_pieces {k : Nat} (hk : k < n) (template : List Char) :
    (pieces n 0 template).count (.slot k) = occurrences (placeholder k) template := by
  induction template using template_induction n with
  | nil => rfl
  | slot i hi rest ih =>
    rw [pieces_placeholder_append hi, List.count_cons, ih, occurrences_placeholder_append]
    simp
  | char c cs h ih =>
    have hprefix := List.find?_eq_none.1 h k (List.mem_range.2 hk)
    rw [pieces_cons h, List.count_cons, ih, occurrences_cons, if_neg hprefix]
    simp

theorem lt_of_slot_mem_pieces {template : List Char} (h : .slot i ∈ pieces n 0 template) :
    i < n := by
  induction template using template_induction n with
  | nil => cases h
  | slot j hj rest ih =>
    rw [pieces_placeholder_append hj] at h
    rcases List.mem_cons.1 h with h | h
    · cases h
      exact hj
    · exact ih h
  | char c cs hnone ih =>
    rw [pieces_cons hnone] at h
    exact ih (List.mem_of_ne_of_mem Piece.noConfusion h)

end Pieces

/-! ## One argument after the other -/

section Render

variable {fill : Nat → List Char} {k : Nat}

theorem render_cons (fill : Nat → List Char) (p : Piece) (ps : List Piece) :
    render fill (p :: ps) = render fill [p] ++ render fill ps := by
  simp [render]

theorem render_congr {other : Nat → List Char} {ps : List Piece}
    (h : ∀ i, .slot i ∈ ps → fill i = other i) : render fill ps = render other ps := by
  refine List.flatMap_congr fun p hp => ?_
  cases p with
  | char c => rfl
  | slot i => exact h i hp

theorem count_slot_le_occurrences (hk : fill k = placeholder k) (ps : List Piece) :
    ps.count (.slot k) ≤ occurrences (placeholder k) (render fill ps) := by
  induction ps with
  | nil => exact Nat.zero_le _
  | cons p ps ih =>
    rw [render_cons, List.count_cons]
    split_ifs with hp
    · obtain rfl := beq_iff_eq.1 hp
      have hself : render fill [.slot k] = placeholder k := by simp [render, hk]
      rw [hself, occurrences_placeholder_append, if_pos rfl]
      omega
    · exact ih.trans (occurrences_le_append _ _ _)

/-- Where a placeholder occurs only as a piece, replacing its occurrences fills in the piece. -/
theorem replaceFrom_render (new : List Char) (hk : fill k = placeholder k) {ps : List Piece}
    (h : occurrences (placeholder k) (render fill ps) = ps.count (.slot k)) :
    replaceFrom (placeholder k) new 0 (render fill ps) =
      render (Function.update fill k new) ps := by
  induction ps with
  | nil => rfl
  | cons p ps ih =>
    have hle := count_slot_le_occurrences hk ps
    rw [render_cons, List.count_cons] at h
    rw [render_cons fill, render_cons (Function.update fill k new)]
    by_cases hp : p = .slot k
    · subst hp
      have hself : render fill [.slot k] = placeholder k := by simp [render, hk]
      rw [hself] at h ⊢
      rw [occurrences_placeholder_append, if_pos rfl, if_pos (beq_self_eq_true _)] at h
      rw [placeholder_eq, replaceFrom_self_append, ← placeholder_eq, ih (by omega)]
      simp [render]
    · have hle' := occurrences_le_append (placeholder k) (render fill [p]) (render fill ps)
      rw [if_neg (by simpa using hp)] at h
      rw [replaceFrom_append (by omega), ih (by omega)]
      congr 1
      refine render_congr fun i hi => ?_
      obtain rfl := List.mem_singleton.1 hi
      exact (Function.update_of_ne (fun hik => hp (congrArg Piece.slot hik)) _ _).symm

end Render

/-- Something for every placeholder once the first `k` arguments are put in. -/
def partly (args : List String) (k i : Nat) : List Char :=
  if i < k then (args.getD i "").toList else placeholder i

/-- A template with the first `k` arguments filled in at once. -/
def filledTo (args : List String) (k : Nat) (template : List Char) : List Char :=
  render (partly args k) (pieces args.length 0 template)

/-- A template with all its arguments filled in at once. -/
def filled (args : List String) (template : List Char) : List Char :=
  render (fun i => (args.getD i "").toList) (pieces args.length 0 template)

/-- Filling in the arguments before one makes up no placeholder for it. -/
def MakesUpNone (args : List String) (template : List Char) : Prop :=
  ∀ k < args.length,
    occurrences (placeholder k) (filledTo args k template) = occurrences (placeholder k) template

instance (args : List String) (template : List Char) : Decidable (MakesUpNone args template) :=
  inferInstanceAs (Decidable (∀ k < args.length, _))

section Fill

variable {args : List String} {template : List Char}

theorem filledTo_zero (args : List String) (template : List Char) :
    filledTo args 0 template = template := by
  have hnone : partly args 0 = placeholder := by
    funext i
    rw [partly, if_neg (Nat.not_lt_zero i)]
  rw [filledTo, hnone, render_placeholder_pieces]

theorem filledTo_length (args : List String) (template : List Char) :
    filledTo args args.length template = filled args template :=
  render_congr fun _ hi => if_pos (lt_of_slot_mem_pieces hi)

theorem replaceFrom_filledTo (h : MakesUpNone args template) {k : Nat} (hk : k < args.length) :
    replaceFrom (placeholder k) args[k].toList 0 (filledTo args k template) =
      filledTo args (k + 1) template := by
  have hpieces : occurrences (placeholder k) (filledTo args k template) =
      (pieces args.length 0 template).count (.slot k) :=
    (h k hk).trans (count_slot_pieces hk template).symm
  have hself : partly args k k = placeholder k := if_neg (lt_irrefl k)
  rw [filledTo, replaceFrom_render _ hself hpieces, filledTo]
  refine render_congr fun i _ => ?_
  rw [Function.update_apply, partly, partly]
  by_cases hi : i = k
  · rw [hi, if_pos rfl, if_pos (Nat.lt_succ_self k), List.getD_eq_getElem _ _ hk]
  · have hsucc : i < k + 1 ↔ i < k := by omega
    simp only [hi, if_false, hsucc]

/-- The arguments from one on, put in one after the other. -/
theorem substitute_filledTo (h : MakesUpNone args template) {k : Nat} (hk : k ≤ args.length) :
    substitute k (args.drop k) (filledTo args k template) = filled args template := by
  induction hk using Nat.decreasingInduction with
  | self => rw [List.drop_length, substitute, filledTo_length]
  | of_succ k hk ih =>
    rw [List.drop_eq_getElem_cons hk, substitute, replaceFrom_filledTo h hk, ih]

theorem substitute_eq_filled (h : MakesUpNone args template) :
    substitute 0 args template = filled args template := by
  have hrun := substitute_filledTo h (Nat.zero_le args.length)
  rwa [filledTo_zero, List.drop_zero] at hrun

end Fill

/-! ## Texts in other texts -/

section Infix

variable {what new cs : List Char} {c : Char}

theorem occurrences_eq_zero_iff : occurrences what cs = 0 ↔ ¬what <:+: cs := by
  rw [occurrences, List.countP_eq_zero, List.infix_iff_prefix_suffix]
  simp only [List.mem_tails, List.isPrefixOf_iff_prefix]
  exact ⟨fun h ⟨rest, hprefix, hsuffix⟩ => h rest hsuffix hprefix,
    fun h rest hsuffix hprefix => h ⟨rest, hprefix, hsuffix⟩⟩

theorem replaceFrom_of_absent (hwhat : what ≠ []) (h : ¬what <:+: cs) :
    replaceFrom what new 0 cs = cs := by
  have hnil : occurrences what [] = 0 := occurrences_eq_zero_iff.2 (by simpa using hwhat)
  have hkept : replaceFrom what new 0 (cs ++ []) = cs ++ replaceFrom what new 0 [] :=
    replaceFrom_append (by rw [List.append_nil, hnil, occurrences_eq_zero_iff.2 h])
  simpa [replaceFrom] using hkept

/-- A character that the replaced text does not have divides the text. -/
theorem replaceFrom_append_cons {b : List Char} (hwhat : what ≠ []) (hc : c ∉ what) :
    ∀ (skip : Nat) (a : List Char), skip ≤ a.length →
      replaceFrom what new skip (a ++ c :: b) =
        replaceFrom what new skip a ++ c :: replaceFrom what new 0 b
  | 0, [], _ => by
    have hprefix : ¬what.isPrefixOf (c :: b) := by
      rw [← List.nil_append (c :: b), isPrefixOf_append_cons hc]
      simpa using hwhat
    show replaceFrom what new 0 (c :: b) = c :: replaceFrom what new 0 b
    rw [replaceFrom, if_neg hprefix]
  | skip + 1, [], h => absurd h (by simp)
  | skip + 1, d :: a, h => replaceFrom_append_cons hwhat hc skip a (by simpa using h)
  | 0, d :: a, _ => by
    have hprefix := isPrefixOf_append_cons (b := b) hc (d :: a)
    rw [List.cons_append] at hprefix ⊢
    rw [replaceFrom, replaceFrom, hprefix]
    split_ifs with hfound
    · have hlength := (List.isPrefixOf_iff_prefix.1 hfound).length_le
      rw [List.length_cons] at hlength
      rw [replaceFrom_append_cons hwhat hc _ a (by omega), List.append_assoc]
    · rw [replaceFrom_append_cons hwhat hc 0 a (Nat.zero_le _)]
      rfl

theorem count_replaceFrom_le (hnew : c ∉ new) : ∀ (skip : Nat) (cs : List Char),
    (replaceFrom what new skip cs).count c ≤ cs.count c
  | _, [] => by simp [replaceFrom]
  | skip + 1, d :: cs =>
    (count_replaceFrom_le hnew skip cs).trans (List.count_le_count_cons)
  | 0, d :: cs => by
    rw [replaceFrom]
    split_ifs
    · rw [List.count_append, List.count_eq_zero_of_not_mem hnew, Nat.zero_add]
      exact (count_replaceFrom_le hnew _ cs).trans (List.count_le_count_cons)
    · rw [List.count_cons, List.count_cons]
      exact Nat.add_le_add_right (count_replaceFrom_le hnew 0 cs) _

/-- Every replacement takes away the first character of the replaced text. -/
theorem count_replaceFrom_lt (hnew : c ∉ new) {cs : List Char} (h : c :: what <:+: cs) :
    (replaceFrom (c :: what) new 0 cs).count c < cs.count c := by
  induction cs with
  | nil => simp at h
  | cons d cs ih =>
    rw [replaceFrom]
    split_ifs with hprefix
    · obtain ⟨rfl, -⟩ := List.cons_prefix_cons.1 (List.isPrefixOf_iff_prefix.1 hprefix)
      rw [List.count_append, List.count_eq_zero_of_not_mem hnew, Nat.zero_add, List.count_cons_self]
      exact Nat.lt_succ_of_le (count_replaceFrom_le hnew _ cs)
    · rcases List.infix_cons_iff.1 h with h | h
      · exact absurd (List.isPrefixOf_iff_prefix.2 h) hprefix
      · rw [List.count_cons, List.count_cons]
        exact Nat.add_lt_add_right (ih h) _

end Infix

end Message

/-! ## Scores have no braces -/

namespace Decimal

theorem brace_notMem_toString (n : Nat) : '\x7b' ∉ (toString n).toList := fun h =>
  absurd (isDigit_of_mem_toString h) (by decide)

theorem brace_notMem_signed {negative : Bool} {text : String} (h : '\x7b' ∉ text.toList) :
    '\x7b' ∉ (signed negative text).toList := by
  cases negative <;> simp [signed, h]

theorem brace_notMem_pointed (places n : Nat) : '\x7b' ∉ (pointed places n).toList := by
  have hdigits : '\x7b' ∉ List.replicate (places + 1 - (digitChars n).length) '0' ++
      digitChars n := by
    intro h
    rcases List.mem_append.1 h with h | h
    · exact absurd (List.eq_of_mem_replicate h) (by decide)
    · exact absurd (Nat.isDigit_of_mem_toDigits (by decide) (by decide) h) (by decide)
  unfold pointed
  simp only []
  split_ifs
  · simpa using fun h => hdigits (List.mem_of_mem_take h)
  · rw [String.toList_ofList, List.mem_append, List.mem_cons]
    rintro (h | h | h)
    · exact hdigits (List.mem_of_mem_take h)
    · exact absurd h (by decide)
    · exact hdigits (List.mem_of_mem_drop h)

theorem brace_notMem_plain (x : Float) : '\x7b' ∉ (plain x).toList := by
  unfold plain
  split
  · decide
  · exact brace_notMem_signed (by decide)
  · refine brace_notMem_signed ?_
    unfold Scaled.positional
    split_ifs
    · exact brace_notMem_toString _
    · exact brace_notMem_pointed _ _

theorem brace_notMem_fixed (places : Nat) (x : Float) : '\x7b' ∉ (fixed places x).toList := by
  unfold fixed
  split
  · decide
  · exact brace_notMem_signed (by decide)
  · exact brace_notMem_signed (brace_notMem_pointed _ _)

end Decimal

namespace ThresholdRule

theorem brace_notMem_scoreLabel (value : Float) : '\x7b' ∉ (scoreLabel value).toList := by
  unfold scoreLabel
  split_ifs
  · exact Decimal.brace_notMem_plain value
  · exact Decimal.brace_notMem_fixed 2 value

end ThresholdRule

/-! ## Messages of threshold rules -/

namespace Message

section Target

variable {k : Nat} {new rest : List Char}

theorem replaceFrom_text {w : List Char} (h : '\x7b' ∉ w) :
    replaceFrom (placeholder k) new 0 (w ++ rest) =
      w ++ replaceFrom (placeholder k) new 0 rest :=
  replaceFrom_append (occurrences_append_of_notMem h)

theorem replaceFrom_own : replaceFrom (placeholder k) new 0 (placeholder k ++ rest) =
    new ++ replaceFrom (placeholder k) new 0 rest :=
  replaceFrom_self_append

theorem replaceFrom_other {i : Nat} (h : i ≠ k) :
    replaceFrom (placeholder k) new 0 (placeholder i ++ rest) =
      placeholder i ++ replaceFrom (placeholder k) new 0 rest :=
  replaceFrom_append (by rw [occurrences_placeholder_append, if_neg h, Nat.add_zero])

end Target

/-- The end of messages about a quantity of a target, from the quote behind its name. -/
def ending (quantity : String) (score : List Char) : List Char :=
  '\'' :: (" has ".toList ++ (quantity.toList ++ (" of ".toList ++ (score ++ ".".toList))))

/-- Messages about a quantity of a target. -/
def about (quantity : String) (target name score : List Char) : List Char :=
  "The ".toList ++ (target ++ (" '".toList ++ (name ++ ending quantity score)))

section About

variable {target quantity : String} (hquantity : '\x7b' ∉ quantity.toList)

include hquantity

theorem replaceFrom_ending {k : Nat} {new : List Char} (hk : 2 ≠ k) :
    replaceFrom (placeholder k) new 0 (ending quantity (placeholder 2)) =
      ending quantity (placeholder 2) := by
  rw [ending, ← List.cons_append, replaceFrom_text, replaceFrom_text hquantity, replaceFrom_text,
    replaceFrom_other hk]
  · rfl
  · decide
  · decide

theorem substitute_about (htarget : '\x7b' ∉ target.toList) (name score : String) :
    substitute 0 [target, name, score]
        (about quantity (placeholder 0) (placeholder 1) (placeholder 2)) =
      about quantity target.toList (replaceFrom (placeholder 2) score.toList 0 name.toList)
        score.toList := by
  have htext : '\x7b' ∉ "The ".toList ∧ '\x7b' ∉ " '".toList := by decide
  have hfirst : replaceFrom (placeholder 0) target.toList 0
      (about quantity (placeholder 0) (placeholder 1) (placeholder 2)) =
        about quantity target.toList (placeholder 1) (placeholder 2) := by
    rw [about, replaceFrom_text htext.1, replaceFrom_own, replaceFrom_text htext.2,
      replaceFrom_other (by decide), replaceFrom_ending hquantity (by decide), about]
  have hsecond : replaceFrom (placeholder 1) name.toList 0
      (about quantity target.toList (placeholder 1) (placeholder 2)) =
        about quantity target.toList name.toList (placeholder 2) := by
    rw [about, replaceFrom_text htext.1, replaceFrom_text htarget, replaceFrom_text htext.2,
      replaceFrom_own, replaceFrom_ending hquantity (by decide), about]
  have hthird : replaceFrom (placeholder 2) score.toList 0
      (about quantity target.toList name.toList (placeholder 2)) =
        about quantity target.toList (replaceFrom (placeholder 2) score.toList 0 name.toList)
          score.toList := by
    have hquote : '\'' ∉ placeholder 2 := by decide
    rw [about, replaceFrom_text htext.1, replaceFrom_text htarget, replaceFrom_text htext.2, ending,
      replaceFrom_append_cons (by decide) hquote 0 _ (Nat.zero_le _), replaceFrom_text,
      replaceFrom_text hquantity, replaceFrom_text, replaceFrom_own]
    · rfl
    · decide
    · decide
  rw [substitute, hfirst, substitute, hsecond, substitute, hthird, substitute]

theorem infix_about_iff {score : String} (htarget : '\x7b' ∉ target.toList)
    (hscore : '\x7b' ∉ score.toList) (name : List Char) :
    name <:+: about quantity target.toList (replaceFrom (placeholder 2) score.toList 0 name)
        score.toList ↔
      ¬placeholder 2 <:+: name := by
  constructor
  · -- the name with placeholders replaced has fewer braces, and there are no others in the message
    intro hkept hinfix
    have hcount := hkept.sublist.count_le '\x7b'
    have hless : (replaceFrom (placeholder 2) score.toList 0 name).count '\x7b' <
        name.count '\x7b' := count_replaceFrom_lt hscore hinfix
    have hothers : List.count '\x7b' "The ".toList = 0 ∧ List.count '\x7b' " '".toList = 0 ∧
        List.count '\x7b' " has ".toList = 0 ∧ List.count '\x7b' " of ".toList = 0 ∧
        List.count '\x7b' ".".toList = 0 := by decide
    obtain ⟨hthe, hopen, hhas, hof, hstop⟩ := hothers
    simp only [about, ending, List.count_append, List.count_cons, hthe, hopen, hhas, hof, hstop,
      List.count_eq_zero_of_not_mem htarget, List.count_eq_zero_of_not_mem hquantity,
      List.count_eq_zero_of_not_mem hscore] at hcount
    simp at hcount
    omega
  · intro hinfix
    rw [replaceFrom_of_absent (by decide) hinfix, about, ← List.append_assoc,
      ← List.append_assoc]
    exact ⟨_, _, List.append_assoc _ _ _⟩

end About

/-- If filling in earlier arguments makes up no placeholder of a later one, a message is its
template filled in at once. The messages of metric rules have the name of their target with the
placeholder of the score replaced in it, so the name is kept exactly if it has none. -/
theorem format_eq_filled (template : String) (args : List String) (r : ThresholdRule)
    (quantity : String) (target : MetricTarget) (n : Node) (value : Float) :
    (MakesUpNone args template.toList →
      Message.format template args = String.ofList (filled args template.toList)) ∧
    ((r.message, quantity) ∈
        [(ThresholdRule.cyclomaticComplexity.message, "a cyclomatic complexity"),
          (ThresholdRule.ncssCount.message, "a NCSS line count")] →
      let name := (ThresholdRule.displayName n).toList
      let score := (ThresholdRule.scoreLabel value).toList
      let message := (r.finding target n value).message.toList
      message = about quantity target.name.toList (replaceFrom (placeholder 2) score 0 name)
          score ∧
        (name <:+: message ↔ ¬placeholder 2 <:+: name)) := by
  refine ⟨fun h => congrArg String.ofList (substitute_eq_filled h), ?_⟩
  intro hr name score message
  obtain ⟨htemplate, hquantity⟩ : r.message.toList =
      about quantity (placeholder 0) (placeholder 1) (placeholder 2) ∧
        '\x7b' ∉ quantity.toList := by
    rcases List.mem_pair.1 hr with h | h
    all_goals
      obtain ⟨htemplate, rfl⟩ := Prod.mk.inj h
      rw [htemplate]
      decide
  have htarget : '\x7b' ∉ target.name.toList := by cases target <;> decide
  have hmessage : message = about quantity target.name.toList
      (replaceFrom (placeholder 2) score 0 name) score := by
    show (Message.format r.message [_, _, _]).toList = _
    rw [Message.format, String.toList_ofList, htemplate, substitute_about hquantity htarget]
  refine ⟨hmessage, ?_⟩
  rw [hmessage]
  exact infix_about_iff hquantity htarget (ThresholdRule.brace_notMem_scoreLabel value) name

theorem format_of_braced_name :
    let name := "<Ring<\x7b1\x7d>>"
    let node := Node.leaf ⟨.typeDeclaration, "impl_item", ⟨1, 3⟩, some name, none⟩
    let message := "The type '<Ring<\x7b1\x7d>>' has a NCSS line count of 7."
    MakesUpNone ["type", name, "7"] ThresholdRule.ncssCount.message.toList ∧
      Message.format ThresholdRule.ncssCount.message ["type", name, "7"] = message ∧
      (ThresholdRule.ncssCount.finding .type node 7).message = message ∧
      name.toList <:+: message.toList := by
  intro name node message
  obtain ⟨hformat, hfinding⟩ := format_eq_filled ThresholdRule.ncssCount.message ["type", name, "7"]
    .ncssCount "a NCSS line count" .type node 7
  have hmakes : MakesUpNone ["type", name, "7"] ThresholdRule.ncssCount.message.toList := by
    decide +kernel
  have htext : (ThresholdRule.ncssCount.finding .type node 7).message = message := by
    decide +kernel
  refine ⟨hmakes, (hformat hmakes).trans (by decide +kernel), htext, ?_⟩
  rw [← htext]
  exact (hfinding (by simp)).2.2 (by decide +kernel)

/-- The name of an implementation for a type with a constant in braces can hold the placeholder of
the score. It is not kept, so the message is not its template filled in at once. -/
theorem format_of_name_with_placeholder :
    let name := "<Ring<\x7b2\x7d>>"
    let node := Node.leaf ⟨.typeDeclaration, "impl_item", ⟨1, 3⟩, some name, none⟩
    let template := ThresholdRule.ncssCount.message
    Message.format template ["type", name, "7"] =
        "The type '<Ring<7>>' has a NCSS line count of 7." ∧
      String.ofList (filled ["type", name, "7"] template.toList) =
        "The type '<Ring<\x7b2\x7d>>' has a NCSS line count of 7." ∧
      ¬name.toList <:+: (ThresholdRule.ncssCount.finding .type node 7).message.toList := by
  decide +kernel

end Message

end CodeGauge
