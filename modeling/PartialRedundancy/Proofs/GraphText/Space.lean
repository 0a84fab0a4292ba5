import Mathlib.Data.List.TakeWhile
import PartialRedundancy.GraphText.Space

/-!
# Space between words

What may stand between the words of a graph description: blanks and comments, and in some places
line ends as well. The reader goes over as much space as there is, a description may be read as
going over less of it, and the two come to the same.

## Main definitions

* `Skip`, `Newline`, `Gap` — blanks and comments, one line end, and all of them, as relations
  between a text and the text after them.
* `AtWord`, `EndsLine` — a text that starts with a word; a text whose line is over.

## Main results

* `skip_of_skip`, `skip_skip` — the reader goes over every skip, and over nothing but a skip.
* `skipLines_of_gap`, `gap_skipLines` — it goes over every gap, and over nothing but a gap.

## Design

A text may start with blanks of which a skip goes over some only, while the reader goes over all of
them. So the two are compared by what the reader makes of the texts that are left: that is the same
before and after a skip, and at a word the reader stops.
-/

namespace PartialRedundancy.GraphText

variable {s t u : List Char}

/-! ## Relations -/

/-- The text is over, or its line is. -/
def EndsLine (s : List Char) : Prop := ∀ c ∈ s.head?, isLineEnd c = true

/-- `t` is what follows some blanks and comments that `s` starts with. A comment ends where its line
or the text does. -/
inductive Skip : (s t : List Char) → Prop
  /-- Nothing is skipped. -/
  | none (s : List Char) : Skip s s
  /-- A blank is skipped first. -/
  | blank {c : Char} {s t : List Char} (hc : isBlank c = true) (h : Skip s t) : Skip (c :: s) t
  /-- A comment is skipped first. -/
  | comment {c : Char} {body s t : List Char} (hc : isCommentStart c = true)
      (hbody : ∀ d ∈ body, isLineEnd d = false) (hs : EndsLine s) (h : Skip s t) :
      Skip (c :: (body ++ s)) t

/-- `t` is what follows the line end that `s` starts with. -/
inductive Newline : (s t : List Char) → Prop
  /-- A line feed. -/
  | lf (s : List Char) : Newline ('\n' :: s) s
  /-- A carriage return and a line feed. -/
  | crlf (s : List Char) : Newline ('\r' :: '\n' :: s) s
  /-- A carriage return alone. -/
  | cr (s : List Char) : Newline ('\r' :: s) s

/-- `t` is what follows some blanks, comments and line ends that `s` starts with. -/
inductive Gap : (s t : List Char) → Prop
  /-- Nothing is left out. -/
  | none (s : List Char) : Gap s s
  /-- Blanks and comments are left out first. -/
  | skip {s t u : List Char} (hs : Skip s t) (h : Gap t u) : Gap s u
  /-- A line end is left out first. -/
  | newline {s t u : List Char} (hs : Newline s t) (h : Gap t u) : Gap s u

/-- Gaps can be put together. -/
lemma Gap.trans (hst : Gap s t) (htu : Gap t u) : Gap s u := by
  induction hst with
  | none => exact htu
  | skip hs _ ih => exact .skip hs (ih htu)
  | newline hs _ ih => exact .newline hs (ih htu)

/-- The text starts with a character of a word. -/
def AtWord (s : List Char) : Prop :=
  ∃ c ∈ s.head?, isBlank c = false ∧ isCommentStart c = false ∧ isLineEnd c = false

/-- A text that starts with a word does. -/
lemma atWord_append {c : Char} {word : List Char}
    (hc : isBlank c = false ∧ isCommentStart c = false ∧ isLineEnd c = false) :
    AtWord (c :: word ++ s) :=
  ⟨c, rfl, hc⟩

/-! ## Where the reader stops -/

/-- The reader skips nothing in front of a word. -/
lemma skip_of_atWord (h : AtWord s) : skip s = s := by
  obtain ⟨c, hc, hblank, hcomment, _⟩ := h
  obtain ⟨rest, rfl⟩ := List.head?_eq_some_iff.mp hc
  simp [skip, hblank, hcomment]

/-- The reader leaves out no lines in front of a word. -/
lemma skipLines_of_atWord (h : AtWord s) : skipLines false s = s := by
  obtain ⟨c, hc, hblank, hcomment, hend⟩ := h
  obtain ⟨rest, rfl⟩ := List.head?_eq_some_iff.mp hc
  simp [skipLines, hblank, hcomment, hend]

/-- The characters that end a line are no others. -/
lemma not_isBlank_of_isLineEnd {c : Char} (h : isLineEnd c = true) :
    isBlank c = false ∧ isCommentStart c = false := by
  simp only [isLineEnd, Bool.or_eq_true, beq_iff_eq] at h
  rcases h with rfl | rfl <;> decide

/-- The character that starts a comment is no other. -/
lemma not_isBlank_of_isCommentStart {c : Char} (h : isCommentStart c = true) :
    isBlank c = false ∧ isLineEnd c = false := by
  obtain rfl := beq_iff_eq.mp h
  decide

/-- The reader skips nothing at the end of a line. -/
lemma skip_of_endsLine (h : EndsLine s) : skip s = s := by
  cases s with
  | nil => rfl
  | cons c rest =>
    obtain ⟨hblank, hcomment⟩ := not_isBlank_of_isLineEnd (h c rfl)
    simp [skip, hblank, hcomment]

/-! ## Blanks and comments -/

/-- The rest of a comment is dropped up to the end of its line. -/
lemma dropWhile_comment {body : List Char} (hbody : ∀ d ∈ body, isLineEnd d = false)
    (hs : EndsLine s) : (body ++ s).dropWhile (fun d => !isLineEnd d) = s := by
  rw [List.dropWhile_append_of_pos (by simpa using hbody)]
  cases s with
  | nil => rfl
  | cons c rest => simp [hs c rfl]

/-- Where a comment is dropped, a line ends. -/
lemma endsLine_dropWhile (s : List Char) : EndsLine (s.dropWhile fun d => !isLineEnd d) := by
  intro c hc
  have h := List.head?_dropWhile_not (fun d => !isLineEnd d) s
  rw [Option.mem_def.mp hc] at h
  simpa using h

/-- The reader skips the same characters from a text and from what a skip leaves of it. -/
lemma skip_of_skip (h : Skip s t) : skip s = skip t := by
  induction h with
  | none => rfl
  | blank hc _ ih => rw [skip, if_pos hc, ih]
  | comment hc hbody hs _ ih =>
    obtain ⟨hblank, _⟩ := not_isBlank_of_isCommentStart hc
    rw [← ih, skip_of_endsLine hs, skip, if_neg (by simp [hblank]), if_pos hc,
      dropWhile_comment hbody hs]

/-- What the reader skips is a skip. -/
lemma skip_skip (s : List Char) : Skip s (skip s) := by
  induction s with
  | nil => exact .none []
  | cons c rest ih =>
    rw [skip]
    split
    · rename_i hc
      exact .blank hc ih
    · split
      · rename_i hc
        have hbody : ∀ d ∈ rest.takeWhile (fun d => !isLineEnd d), isLineEnd d = false := by
          intro d hd
          simpa using List.all_eq_true.mp List.all_takeWhile d hd
        have h := Skip.comment hc hbody (endsLine_dropWhile rest) (.none _)
        rwa [List.takeWhile_append_dropWhile] at h
      · exact .none _

/-! ## Lines -/

/-- Leaving out lines is skipping, and leaving out lines again after a line end. -/
lemma skipLines_eq (s : List Char) : skipLines false s = match skip s with
    | [] => []
    | c :: rest => if isLineEnd c then skipLines false rest else c :: rest := by
  have hcomment (s : List Char) :
      skipLines true s = skipLines false (s.dropWhile fun d => !isLineEnd d) := by
    induction s with
    | nil => rfl
    | cons c rest ih =>
      by_cases hc : isLineEnd c = true
      · simp [skipLines, hc]
      · simp [skipLines, hc, ih]
  induction s with
  | nil => rfl
  | cons c rest ih =>
    by_cases hend : isLineEnd c = true
    · obtain ⟨hblank, hstart⟩ := not_isBlank_of_isLineEnd hend
      simp [skip, skipLines, hend, hblank, hstart]
    · by_cases hblank : isBlank c = true
      · simp [skip, skipLines, hend, hblank, ih]
      · by_cases hstart : isCommentStart c = true
        · have hline := endsLine_dropWhile rest
          simp only [skip, skipLines, hend, hblank, hstart, hcomment, if_true, if_false,
            Bool.false_eq_true]
          cases hrest : rest.dropWhile fun d => !isLineEnd d with
          | nil => rfl
          | cons d more =>
            rw [hrest] at hline
            simp [skipLines, hline d rfl]
        · simp [skip, skipLines, hend, hblank, hstart]

/-- The reader leaves out the same lines of a text and of what a gap leaves of it. -/
lemma skipLines_of_gap (h : Gap s t) : skipLines false s = skipLines false t := by
  induction h with
  | none => rfl
  | skip hs _ ih => rw [skipLines_eq, skip_of_skip hs, ← skipLines_eq, ih]
  | newline hs _ ih =>
    rw [← ih]
    cases hs <;> rfl

/-- A line end is one newline, or half of one. -/
lemma newline_of_isLineEnd {c : Char} (hc : isLineEnd c = true) : Newline (c :: s) s := by
  simp only [isLineEnd, Bool.or_eq_true, beq_iff_eq] at hc
  rcases hc with rfl | rfl
  · exact .lf s
  · exact .cr s

/-- What the reader leaves out is a gap.

**Proof sketch.** Induction on the length of the text: the reader skips, and if a line ends there it
goes on with the shorter text after it. -/
lemma gap_skipLines (s : List Char) : Gap s (skipLines false s) := by
  induction hn : s.length using Nat.strong_induction_on generalizing s with
  | _ n ih =>
    subst hn
    have hskip := skip_skip s
    have hle := length_skip_le s
    rw [skipLines_eq]
    cases hrest : skip s with
    | nil =>
      rw [hrest] at hskip
      exact .skip hskip (.none _)
    | cons c rest =>
      rw [hrest] at hskip hle
      simp only
      split
      · rename_i hc
        exact .skip hskip (.newline (newline_of_isLineEnd hc) (ih _ hle _ rfl))
      · exact .skip hskip (.none _)

/-- Before a line end the reader skips up to a line end. -/
lemma skip_of_gap_newline {v : List Char} (h : Gap s u) (hv : Newline u v) :
    ∃ c rest, skip s = c :: rest ∧ isLineEnd c = true := by
  have hstart {a b : List Char} (hab : Newline a b) :
      ∃ c rest, skip a = c :: rest ∧ isLineEnd c = true := by
    cases hab with
    | lf => exact ⟨'\n', _, rfl, rfl⟩
    | crlf => exact ⟨'\r', _, rfl, rfl⟩
    | cr => exact ⟨'\r', _, rfl, rfl⟩
  induction h with
  | none => exact hstart hv
  | skip hs _ ih => rw [skip_of_skip hs]; exact ih hv
  | newline hs _ _ => exact hstart hs

end PartialRedundancy.GraphText
