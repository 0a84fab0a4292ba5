/-!
# Space in graph descriptions

Between any two words of a graph description there may be blanks and comments, and between two
statements there are line ends as well. Only the space and the tab are blanks. A comment runs
from a number sign to just before the end of its line.

## Main definitions

* `skip` — the text after the blanks and comments that it starts with.
* `skipLines` — the text after the blanks, comments and line ends that it starts with.

## Main results

* `length_skip_le`, `length_skipLines_le` — nothing is added to the text.
-/

namespace PartialRedundancy.GraphText

/-- The characters that separate words on a line. -/
def isBlank (c : Char) : Bool := c == ' ' || c == '\t'

/-- The characters that end a line; a carriage return and a line feed end it together. -/
def isLineEnd (c : Char) : Bool := c == '\n' || c == '\r'

/-- The character that starts a comment. -/
def isCommentStart (c : Char) : Bool := c == '#'

/-- The text after the blanks and comments that it starts with. -/
def skip : List Char → List Char
  | [] => []
  | c :: rest =>
    if isBlank c then skip rest
    else if isCommentStart c then rest.dropWhile fun d => !isLineEnd d
    else c :: rest

/-- The text after the blanks, comments and line ends that it starts with; `inComment` says that
it starts within a comment. -/
def skipLines (inComment : Bool) : List Char → List Char
  | [] => []
  | c :: rest =>
    if isLineEnd c then skipLines false rest
    else if inComment then skipLines true rest
    else if isBlank c then skipLines false rest
    else if isCommentStart c then skipLines true rest
    else c :: rest

/-- Skipping does not lengthen the text. -/
theorem length_skip_le (s : List Char) : (skip s).length ≤ s.length := by
  induction s with
  | nil => simp [skip]
  | cons c rest ih =>
    simp only [skip]
    split
    · exact Nat.le_succ_of_le ih
    · split
      · exact Nat.le_succ_of_le (List.dropWhile_suffix _).length_le
      · exact Nat.le_refl _

/-- Skipping lines does not lengthen the text. -/
theorem length_skipLines_le (inComment : Bool) (s : List Char) :
    (skipLines inComment s).length ≤ s.length := by
  induction s generalizing inComment with
  | nil => simp [skipLines]
  | cons c rest ih =>
    have hrest (b : Bool) : (skipLines b rest).length ≤ (c :: rest).length :=
      Nat.le_succ_of_le (ih b)
    by_cases hl : isLineEnd c = true
    · simp only [skipLines, hl, if_true]
      exact hrest false
    · cases inComment with
      | true =>
        simp only [skipLines, hl, if_true, if_false, Bool.false_eq_true]
        exact hrest true
      | false =>
        simp only [skipLines, hl, if_false, Bool.false_eq_true]
        split
        · exact hrest false
        · split
          · exact hrest true
          · exact Nat.le_refl _

end PartialRedundancy.GraphText
