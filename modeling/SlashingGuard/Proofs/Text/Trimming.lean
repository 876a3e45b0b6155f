import Mathlib.Data.List.TakeWhile
import Mathlib.Data.String.Basic
import SlashingGuard.Text.Blank

/-! # Trimming and splitting

    Trimming takes away the blanks at both ends of a text and nothing else,
    and splitting at commas undoes joining by commas. -/

namespace SlashingGuard.Text

/-! ## Trimming -/

/-- What is between two runs of blanks is left, if it neither begins nor ends with a blank. -/
theorem trimWhile_between {α : Type} {p : α → Bool} {before inner after : List α}
    (first : ∀ a ∈ before, p a) (last : ∀ a ∈ after, p a) (starts : ∀ a ∈ inner.head?, ¬ p a)
    (ends : ∀ a ∈ inner.getLast?, ¬ p a) : trimWhile p (before ++ (inner ++ after)) = inner := by
  have last' : ∀ a ∈ after.reverse, p a := fun a among => last a (List.mem_reverse.1 among)
  cases inner with
  | nil =>
    have all : ∀ a ∈ before ++ ([] ++ after), p a := by
      intro a among
      rcases List.mem_append.1 among with front | back
      · exact first a front
      · exact last a back
    have nothing : (before ++ ([] ++ after)).dropWhile p = [] := List.dropWhile_eq_nil_iff.2 all
    rw [trimWhile, nothing]
    rfl
  | cons c rest =>
    have solid : ¬ p c := starts c rfl
    rw [trimWhile, List.dropWhile_append_of_pos first, List.cons_append, List.dropWhile_cons,
      if_neg solid, ← List.cons_append, List.reverse_append, List.dropWhile_append_of_pos last']
    -- Seen from the other end the text begins with its last character.
    cases reversed : (c :: rest).reverse with
    | nil => exact absurd (congrArg List.length reversed) (by simp)
    | cons d more =>
      have solid : ¬ p d := by
        apply ends
        rw [← List.head?_reverse, reversed]
        rfl
      rw [List.dropWhile_cons, if_neg solid, ← reversed, List.reverse_reverse]

/-- A text between two runs of blanks is what trimming leaves of it, if it neither begins nor ends
    with a blank itself. -/
theorem trim_between {before after : List Char} {inner : String}
    (first : ∀ c ∈ before, isBlank c) (last : ∀ c ∈ after, isBlank c)
    (starts : ∀ c ∈ inner.toList.head?, ¬ isBlank c)
    (ends : ∀ c ∈ inner.toList.getLast?, ¬ isBlank c) :
    trim (String.ofList (before ++ (inner.toList ++ after))) = inner := by
  rw [trim, String.toList_ofList, trimWhile_between first last starts ends, String.ofList_toList]

/-! ## Splitting -/

open String in
/-- The pieces that are found from some place on: `m` was passed since the last comma, behind
    `l`. -/
theorem splitOnAux_comma (l m r : List Char) (pieces : List String) :
    splitOnAux (ofList (l ++ m ++ r)) "," ⟨utf8Len l⟩ ⟨utf8Len l + utf8Len m⟩ 0 pieces =
      pieces.reverse ++ (List.splitOnPPrepend (· == ',') r m.reverse).map ofList := by
  have comma : Pos.Raw.get "," 0 = ',' := by decide
  have behind : Pos.Raw.next "," 0 = ⟨1⟩ := by decide
  have whole : Pos.Raw.atEnd "," ⟨1⟩ = true := by decide
  rw [splitOnAux]
  cases r with
  | nil =>
    have ended : Pos.Raw.atEnd (ofList (l ++ m ++ [])) ⟨utf8Len l + utf8Len m⟩ = true := by
      rw [atEnd_iff, rawEndPos_ofList, List.append_nil, utf8Len_append]
      exact Pos.Raw.le_refl
    rw [if_pos ended]
    simpa using extract_of_valid l m []
  | cons c r =>
    have more : ¬ Pos.Raw.atEnd (ofList (l ++ m ++ c :: r)) ⟨utf8Len l + utf8Len m⟩ = true := by
      rw [atEnd_iff, rawEndPos_ofList, utf8Len_append, utf8Len_append, Pos.Raw.mk_le_mk,
        utf8Len_cons]
      have := c.utf8Size_pos
      omega
    have get := get_of_valid (l ++ m) (c :: r)
    have next := next_of_valid (l ++ m) c r
    have piece := extract_of_valid l m (c :: r)
    rw [utf8Len_append] at get next
    rw [if_neg more, get, comma, behind, List.headD_cons, next]
    dsimp only
    rw [if_pos whole]
    by_cases found : c = ','
    · subst found
      have rest := splitOnAux_comma (l ++ m ++ [',']) [] r (ofList m :: pieces)
      have back : (⟨utf8Len l + utf8Len m + ','.utf8Size⟩ : Pos.Raw).unoffsetBy ⟨1⟩ =
          ⟨utf8Len l + utf8Len m⟩ := rfl
      rw [if_pos (by rfl), back, piece, List.splitOnPPrepend_cons_pos rfl, List.map_cons]
      simp only [List.append_nil, utf8Len_append, utf8Len_cons, utf8Len_nil, Nat.zero_add,
        Nat.add_zero, List.reverse_nil, List.reverse_cons, List.append_assoc, List.cons_append,
        List.nil_append, List.reverse_reverse] at rest ⊢
      exact rest
    · have rest := splitOnAux_comma l (m ++ [c]) r pieces
      have here : (⟨utf8Len l + utf8Len m⟩ : Pos.Raw).unoffsetBy 0 = ⟨utf8Len l + utf8Len m⟩ := rfl
      rw [if_neg (by simpa using found), here, next,
        List.splitOnPPrepend_cons_neg (by simpa using found)]
      simp only [utf8Len_append, utf8Len_cons, utf8Len_nil, Nat.zero_add, Nat.add_assoc,
        List.append_assoc, List.singleton_append, List.reverse_append,
        List.reverse_singleton] at rest ⊢
      exact rest

theorem splitOn_comma (text : String) :
    text.splitOn "," = (text.toList.splitOn ',').map String.ofList := by
  have found := splitOnAux_comma [] [] text.toList []
  simp only [List.nil_append, String.ofList_toList, List.reverse_nil] at found
  rw [String.splitOn, if_neg (by decide), List.splitOn_eq_splitOnP,
    List.splitOnP_eq_splitOnPPrepend]
  exact found

/-- Pieces that are joined by commas and hold none are found again. -/
theorem splitOn_intercalate {pieces : List String} (none : ∀ piece ∈ pieces, ',' ∉ piece.toList)
    (some : pieces ≠ []) : (",".intercalate pieces).splitOn "," = pieces := by
  have none' : ∀ piece ∈ pieces.map String.toList, ',' ∉ piece := by
    intro piece among
    obtain ⟨text, member, rfl⟩ := List.mem_map.1 among
    exact none text member
  rw [splitOn_comma, String.toList_intercalate]
  have found := List.splitOn_intercalate ',' none' (by simpa using some)
  rw [show ",".toList = [','] from rfl, found, List.map_map]
  simp

end SlashingGuard.Text
