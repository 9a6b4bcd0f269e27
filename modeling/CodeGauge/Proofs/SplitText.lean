import Mathlib.Data.String.Basic
import CodeGauge.Rule.RuleSet

/-!
# Splitting a text at a character

The pieces of a text between two occurrences of a character are those of its list of characters.
The search keeps three stretches of the text: what lies before the current piece, what of the piece
has been passed, and what is left (`splitOnAux_of_valid`).
-/

namespace CodeGauge

namespace Text

open String

theorem splitOnAux_of_valid (c : Char) : ∀ (l m r : List Char) (done : List String),
    (ofList (l ++ m ++ r)).splitOnAux (ofList [c]) ⟨utf8Len l⟩ ⟨utf8Len l + utf8Len m⟩ 0 done =
      done.reverse ++ (List.splitOnPPrepend (· == c) r m.reverse).map ofList
  | l, m, [], done => by
    have hend := (atEnd_of_valid (l ++ m) []).2 rfl
    rw [utf8Len_append] at hend
    rw [splitOnAux.eq_def, if_pos hend]
    simpa using extract_of_valid l m []
  | l, m, d :: r, done => by
    have hend := mt (atEnd_of_valid (l ++ m) (d :: r)).1 (List.cons_ne_nil d r)
    have hget := get_of_valid (l ++ m) (d :: r)
    have hnext := next_of_valid (l ++ m) d r
    have hpiece := extract_of_valid l m (d :: r)
    have hsep : Pos.Raw.get (ofList [c]) 0 = c := get_of_valid [] [c]
    have hnextSep : Pos.Raw.next (ofList [c]) 0 = ⟨0 + c.utf8Size⟩ := next_of_valid [] c []
    have hendSep : Pos.Raw.atEnd (ofList [c]) ⟨0 + c.utf8Size⟩ = true := by
      have h := (atEnd_of_valid [c] []).2 rfl
      rwa [List.append_nil, utf8Len_cons, utf8Len_nil] at h
    rw [utf8Len_append] at hend hget hnext
    rw [splitOnAux.eq_def, if_neg hend, hget, hsep, List.splitOnPPrepend_cons_eq_if]
    by_cases h : d = c
    · subst h
      have hrest := splitOnAux_of_valid d (l ++ m ++ [d]) [] r (ofList m :: done)
      simp only [List.headD_cons, BEq.rfl, if_true, hnext, hnextSep, Pos.Raw.unoffsetBy]
      rw [if_pos hendSep, Nat.zero_add, Nat.add_sub_cancel, hpiece]
      simpa [Nat.add_assoc] using hrest
    · have hrest := splitOnAux_of_valid c l (m ++ [d]) r done
      have hstart : Pos.Raw.unoffsetBy ⟨utf8Len l + utf8Len m⟩ 0 = ⟨utf8Len l + utf8Len m⟩ := rfl
      simp only [List.headD_cons, beq_iff_eq, h, if_false, hstart, hnext]
      simpa [Nat.add_assoc] using hrest

theorem splitOn_eq (s : String) (c : Char) :
    s.splitOn (ofList [c]) = (s.toList.splitOn c).map ofList := by
  have h := splitOnAux_of_valid c [] [] s.toList []
  simp only [List.append_nil, List.nil_append, ofList_toList, List.reverse_nil] at h
  rw [splitOn, if_neg (by simp), List.splitOn, List.splitOnP]
  exact h

end Text

theorem identifiers_eq (list : String) :
    identifiers list =
      (((list.toList.splitOn ',').map String.ofList).map Text.trim).filter (· ≠ "") := by
  rw [identifiers, show "," = String.ofList [','] from rfl, Text.splitOn_eq]

example : identifiers " metrics,, all/NcssCount " = ["metrics", "all/NcssCount"] := by
  rw [identifiers_eq]
  decide

end CodeGauge
