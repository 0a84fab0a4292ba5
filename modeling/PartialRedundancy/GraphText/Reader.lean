import PartialRedundancy.GraphText.Document
import PartialRedundancy.GraphText.Space

/-!
# Reading graph descriptions

A description is the word `nodes` and a number, and then any number of statements, each on a line
of its own:

* `edge`, a number, an arrow `->` and a number;
* `used` or `killed`, and one or more numbers on the same line.

Blanks and comments may stand between any two words, also none at all, and further line ends
before, between and after the lines. Reading never goes back over what it has accepted, so a text
is rejected at the first place where no word that could stand there does.

## Main definitions

* `read` — the document that a text describes, or where and why it describes none.
* `Rejection` — the text that was left at the failure and what was expected there.

## Main results

* `length_numeral_lt`, `length_statement_lt` — numbers and statements use up text, so reading ends.
-/

namespace PartialRedundancy.GraphText

/-- What could have stood where a text was rejected. -/
inductive Expected
  /-- The word that starts a description. -/
  | nodes
  /-- A number. -/
  | number
  /-- The end of the text, or of the line. -/
  | ending
  /-- The end of the text or of the line, or one more number of a list. -/
  | endingOrNumber
  /-- The end of the text, or a statement. -/
  | endingOrStatement
deriving DecidableEq, Repr

/-- A failure to read: the text that was left, and what was expected at its start. -/
structure Rejection where
  /-- The text from the place of the failure on. -/
  rest : List Char
  /-- What was expected there. -/
  expected : Expected
deriving DecidableEq, Repr

/-! ## Words -/

/-- The text after `word`, if it starts with it. -/
def dropWord : (word s : List Char) → Option (List Char)
  | [], s => some s
  | _ :: _, [] => none
  | w :: word, c :: s => if w = c then dropWord word s else none

/-- A word is dropped from exactly the texts that start with it. -/
theorem dropWord_eq_some_iff {word s rest : List Char} :
    dropWord word s = some rest ↔ s = word ++ rest := by
  induction word generalizing s with
  | nil => simp [dropWord]
  | cons w word ih =>
    cases s with
    | nil => simp [dropWord]
    | cons c s =>
      simp only [dropWord, List.cons_append, List.cons.injEq]
      split
      · rename_i h
        simp [ih, h]
      · rename_i h
        simp [Ne.symm h]

/-- Dropping a word does not lengthen the text. -/
theorem length_dropWord_le {word s rest : List Char} (h : dropWord word s = some rest) :
    rest.length ≤ s.length := by
  rw [dropWord_eq_some_iff.mp h, List.length_append]
  omega

/-! ## Numbers -/

/-- The number that a text starts with, and the text after it. -/
def numeral? (s : List Char) : Option (Numeral × List Char) :=
  if h : s.takeWhile Char.isDigit = [] then none
  else some
    (⟨s.takeWhile Char.isDigit, h, fun _ hc => List.all_eq_true.mp List.all_takeWhile _ hc⟩,
      s.dropWhile Char.isDigit)

/-- A number is followed by less text than it was read from. -/
theorem length_numeral?_lt {s rest : List Char} {n : Numeral} (h : numeral? s = some (n, rest)) :
    rest.length < s.length := by
  unfold numeral? at h
  split at h
  · simp at h
  · rename_i hne
    simp only [Option.some.injEq, Prod.mk.injEq] at h
    obtain ⟨-, rfl⟩ := h
    have hs := congrArg List.length (List.takeWhile_append_dropWhile (p := Char.isDigit) (l := s))
    have hpos := List.length_pos_iff.mpr hne
    rw [List.length_append] at hs
    omega

/-- The number that has to stand next, after blanks and comments. -/
def numeral (s : List Char) : Except Rejection (Numeral × List Char) :=
  match numeral? (skip s) with
  | some found => .ok found
  | none => .error ⟨skip s, .number⟩

/-- A number that was found is followed by less text. -/
theorem length_numeral_lt {s rest : List Char} {n : Numeral} (h : numeral s = .ok (n, rest)) :
    rest.length < s.length := by
  unfold numeral at h
  split at h
  · rename_i found hf
    cases h
    exact Nat.lt_of_lt_of_le (length_numeral?_lt hf) (length_skip_le s)
  · simp at h

-- `h` is used by `decreasing_by`, which the linter misses.
set_option linter.unusedVariables false in
/-- All further numbers of a list, and the text after the last of them. -/
def numerals (s : List Char) : List Numeral × List Char :=
  match h : numeral s with
  | .ok (n, rest) =>
    let (more, left) := numerals rest
    (n :: more, left)
  | .error _ => ([], s)
termination_by s.length
decreasing_by exact length_numeral_lt h

/-- A list of numbers does not lengthen the text. -/
theorem length_numerals_le (s : List Char) : (numerals s).2.length ≤ s.length := by
  fun_induction numerals s with
  | case1 s n rest h more left hml ih =>
    rw [hml] at ih
    exact Nat.le_trans ih (Nat.le_of_lt (length_numeral_lt h))
  | case2 s e h => exact Nat.le_refl _

/-! ## Statements -/

/-- The word that starts a description. -/
def nodesWord : List Char := ['n', 'o', 'd', 'e', 's']

/-- The word that starts an edge. -/
def edgeWord : List Char := ['e', 'd', 'g', 'e']

/-- The word that starts a list of used nodes. -/
def usedWord : List Char := ['u', 's', 'e', 'd']

/-- The word that starts a list of killed nodes. -/
def killedWord : List Char := ['k', 'i', 'l', 'l', 'e', 'd']

/-- The word between the ends of an edge. -/
def arrowWord : List Char := ['-', '>']

/-- A list of one or more numbers, made into a statement. -/
def listStatement (make : Numeral → List Numeral → Statement) (s : List Char) :
    Except Rejection (Statement × List Char) :=
  match numeral s with
  | .error e => .error e
  | .ok (first, rest) =>
    let (more, left) := numerals rest
    .ok (make first more, left)

/-- The ends of an edge whose statement starts at `start`; without an arrow between them the whole
statement is none. -/
def edgeStatement (start s : List Char) : Except Rejection (Statement × List Char) :=
  match numeral s with
  | .error e => .error e
  | .ok (source, rest) =>
    match dropWord arrowWord (skip rest) with
    | none => .error ⟨start, .endingOrStatement⟩
    | some rest =>
      match numeral rest with
      | .error e => .error e
      | .ok (target, left) => .ok (.edge source target, left)

/-- The statement that a text starts with. -/
def statement (s : List Char) : Except Rejection (Statement × List Char) :=
  match dropWord edgeWord s with
  | some rest => edgeStatement s rest
  | none =>
    match dropWord usedWord s with
    | some rest => listStatement .used rest
    | none =>
      match dropWord killedWord s with
      | some rest => listStatement .killed rest
      | none => .error ⟨s, .endingOrStatement⟩

/-- A list of numbers is followed by less text. -/
theorem length_listStatement_lt {make : Numeral → List Numeral → Statement} {s left : List Char}
    {st : Statement} (h : listStatement make s = .ok (st, left)) : left.length < s.length := by
  unfold listStatement at h
  split at h
  · cases h
  · rename_i first rest hn
    cases h
    exact Nat.lt_of_le_of_lt (length_numerals_le rest) (length_numeral_lt hn)

/-- The ends of an edge are followed by less text. -/
theorem length_edgeStatement_lt {start s left : List Char} {st : Statement}
    (h : edgeStatement start s = .ok (st, left)) : left.length < s.length := by
  unfold edgeStatement at h
  split at h
  · cases h
  · rename_i source rest hs
    split at h
    · cases h
    · rename_i rest' ha
      split at h
      · cases h
      · rename_i target left' ht
        cases h
        have h1 := length_numeral_lt hs
        have h2 := length_skip_le rest
        have h3 := length_dropWord_le ha
        have h4 := length_numeral_lt ht
        omega

/-- A statement is followed by less text. -/
theorem length_statement_lt {s left : List Char} {st : Statement}
    (h : statement s = .ok (st, left)) : left.length < s.length := by
  unfold statement at h
  split at h
  · rename_i rest hw
    exact Nat.lt_of_lt_of_le (length_edgeStatement_lt h) (length_dropWord_le hw)
  · split at h
    · rename_i rest hw
      exact Nat.lt_of_lt_of_le (length_listStatement_lt h) (length_dropWord_le hw)
    · split at h
      · rename_i rest hw
        exact Nat.lt_of_lt_of_le (length_listStatement_lt h) (length_dropWord_le hw)
      · cases h

/-! ## Whole texts -/

/-- What may follow a statement on its line: a list of numbers may go on. -/
def Statement.continuation : Statement → Expected
  | .edge .. => .ending
  | .used .. => .endingOrNumber
  | .killed .. => .endingOrNumber

-- The equations of the matches are used by `decreasing_by`, which the linter misses.
set_option linter.unusedVariables false in
/-- The statements from the end of a line on, to the end of the text; `after` says what could
still stand on the line. -/
def statements (after : Expected) (s : List Char) : Except Rejection (List Statement) :=
  match hs : skip s with
  | [] => .ok []
  | c :: rest =>
    if isLineEnd c then
      match hl : skipLines false rest with
      | [] => .ok []
      | d :: line =>
        match hst : statement (d :: line) with
        | .error e => .error e
        | .ok (st, left) => (statements st.continuation left).map (st :: ·)
    else .error ⟨c :: rest, after⟩
termination_by s.length
decreasing_by
  have h1 := length_statement_lt hst
  have h2 := length_skipLines_le false rest
  have h3 := length_skip_le s
  rw [hl] at h2
  rw [hs, List.length_cons] at h3
  omega

/-- The document that a text describes. -/
def read (s : List Char) : Except Rejection Document :=
  let start := skipLines false s
  match dropWord nodesWord start with
  | none => .error ⟨start, .nodes⟩
  | some rest =>
    match numeral rest with
    | .error e => .error e
    | .ok (count, rest) => (statements .ending rest).map fun sts => ⟨count, sts⟩

end PartialRedundancy.GraphText
