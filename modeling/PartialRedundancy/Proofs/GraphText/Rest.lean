import PartialRedundancy.Proofs.GraphText.Space
import PartialRedundancy.GraphText.Reader

/-!
# What the reader leaves

Whether it succeeds or fails, the reader leaves a last part of the text. A statement and all parts
of it stay on their line: more text behind the end of the line only makes what is left longer. Whole
texts are read line by line, so what is behind a line end matters only if there is no failure in
front of it.

## Main definitions

* `leftOver` — the text that a reader leaves.
* `Rejection.append`, `appendRest` — a result with more text behind what is left.
* `StaysOnLine` — a reader that leaves a last part of the text and does not look past the line.

## Main results

* `staysOnLine_numeral`, `staysOnLine_statement` — numbers and statements stay on their line.
* `statements_append`, `read_append` — what is read of a text with more text behind a line end.
* `suffix_of_read` — a failure leaves a last part of the text.
* `exists_of_read_append` — a failure in front of a line end does not depend on what is behind it.
-/

namespace PartialRedundancy.GraphText

variable {s t m : List Char} {c : Char} {e : Rejection}

/-! ## Space -/

/-- A skip leaves a last part of the text. -/
lemma Skip.suffix (h : Skip s t) : t <:+ s := by
  induction h with
  | none s => exact List.suffix_refl s
  | blank _ _ ih => exact ih.trans (List.suffix_cons _ _)
  | comment _ _ _ _ ih => exact ih.trans ((List.suffix_append _ _).trans (List.suffix_cons _ _))

/-- A line end leaves a last part of the text. -/
lemma Newline.suffix (h : Newline s t) : t <:+ s := by
  cases h with
  | lf => exact List.suffix_cons _ _
  | crlf => exact (List.suffix_cons _ _).trans (List.suffix_cons _ _)
  | cr => exact List.suffix_cons _ _

/-- A gap leaves a last part of the text. -/
lemma Gap.suffix (h : Gap s t) : t <:+ s := by
  induction h with
  | none s => exact List.suffix_refl s
  | skip hs _ ih => exact ih.trans hs.suffix
  | newline hs _ ih => exact ih.trans hs.suffix

/-- What the reader leaves of the blanks and comments is a last part of the text. -/
lemma skip_suffix (s : List Char) : skip s <:+ s := (skip_skip s).suffix

/-- What the reader leaves of the lines is a last part of the text. -/
lemma skipLines_suffix (s : List Char) : skipLines false s <:+ s := (gap_skipLines s).suffix

/-- Blanks and comments end where the line does. -/
lemma skip_append (hc : isLineEnd c = true) (s m : List Char) :
    skip (s ++ c :: m) = skip s ++ c :: m := by
  induction s with
  | nil => exact skip_of_endsLine (by simpa [EndsLine] using hc)
  | cons d s ih =>
    simp only [List.cons_append, skip]
    split
    · exact ih
    · split
      · rw [List.dropWhile_append]
        split
        · rename_i hnil
          simp [List.isEmpty_iff.mp hnil, hc]
        · rfl
      · rfl

/-- Lines are left out up to the end of a line, and only if nothing is left in front of it they are
left out behind it. -/
lemma skipLines_append (hc : isLineEnd c = true) (inComment : Bool) (s m : List Char) :
    skipLines inComment (s ++ c :: m) =
      if skipLines inComment s = [] then skipLines false m
      else skipLines inComment s ++ c :: m := by
  induction s generalizing inComment with
  | nil => simp [skipLines, hc]
  | cons d s ih =>
    simp only [List.cons_append, skipLines]
    split
    · exact ih false
    · split
      · exact ih true
      · split
        · exact ih false
        · split
          · exact ih true
          · rfl

/-! ## Readers that stay on their line -/

/-- The text that a reader leaves. -/
def leftOver {α : Type} : Except Rejection (α × List Char) → List Char
  | .ok (_, rest) => rest
  | .error e => e.rest

/-- A failure with more text behind what is left. -/
def Rejection.append (e : Rejection) (m : List Char) : Rejection := ⟨e.rest ++ m, e.expected⟩

/-- A result with more text behind what is left. -/
def appendRest {α : Type} (m : List Char) :
    Except Rejection (α × List Char) → Except Rejection (α × List Char)
  | .ok (a, rest) => .ok (a, rest ++ m)
  | .error e => .error (e.append m)

/-- A reader that leaves a last part of the text and does not look past the end of the line. -/
structure StaysOnLine {α : Type} (f : List Char → Except Rejection (α × List Char)) : Prop where
  /-- What is left is a last part of the text. -/
  suffix (s : List Char) : leftOver (f s) <:+ s
  /-- The text behind a line end is left as it is. -/
  append {c : Char} (hc : isLineEnd c = true) (s m : List Char) :
    f (s ++ c :: m) = appendRest (c :: m) (f s)

/-- A word without line ends does not reach past the end of the line. -/
lemma dropWord_append {w : List Char} (hw : (w.all fun d => !isLineEnd d) = true)
    (hc : isLineEnd c = true) (s m : List Char) :
    dropWord w (s ++ c :: m) = (dropWord w s).map fun rest => rest ++ c :: m := by
  induction w generalizing s with
  | nil => rfl
  | cons d w ih =>
    obtain ⟨hd, hw⟩ := Bool.and_eq_true_iff.mp hw
    cases s with
    | nil =>
      have hne : d ≠ c := by
        rintro rfl
        simp [hc] at hd
      simp [dropWord, hne]
    | cons x s =>
      simp only [List.cons_append, dropWord]
      split
      · exact ih hw s
      · rfl

/-- A line end is no digit. -/
lemma isDigit_of_isLineEnd (hc : isLineEnd c = true) : c.isDigit = false := by
  simp only [isLineEnd, Bool.or_eq_true, beq_iff_eq] at hc
  rcases hc with rfl | rfl <;> rfl

/-- A number does not reach past the end of the line. -/
lemma numeral?_append (hc : isLineEnd c = true) (s m : List Char) :
    numeral? (s ++ c :: m) = (numeral? s).map fun found => (found.1, found.2 ++ c :: m) := by
  have hdigit : ¬ c.isDigit = true := by simp [isDigit_of_isLineEnd hc]
  have htake : (s ++ c :: m).takeWhile Char.isDigit = s.takeWhile Char.isDigit := by
    rw [List.takeWhile_append, List.takeWhile_cons_of_neg hdigit, List.append_nil]
    split
    · rename_i hall
      exact ((List.takeWhile_prefix _).eq_of_length hall).symm
    · rfl
  have hdrop : (s ++ c :: m).dropWhile Char.isDigit = s.dropWhile Char.isDigit ++ c :: m := by
    rw [List.dropWhile_append, List.dropWhile_cons_of_neg hdigit]
    split
    · rename_i hnil
      rw [List.isEmpty_iff.mp hnil]
      rfl
    · rfl
  unfold numeral?
  simp only [htake, hdrop]
  split <;> rfl

/-- Numbers stay on their line. -/
lemma staysOnLine_numeral : StaysOnLine numeral where
  suffix s := by
    unfold numeral
    split
    · rename_i found hfound
      unfold numeral? at hfound
      split at hfound <;> cases hfound
      exact (List.dropWhile_suffix _).trans (skip_suffix s)
    · exact skip_suffix s
  append hc s m := by
    unfold numeral
    rw [skip_append hc, numeral?_append hc]
    cases numeral? (skip s) <;> rfl

/-- What is left after all numbers of a list is a last part of the text. -/
lemma numerals_suffix (s : List Char) : (numerals s).2 <:+ s := by
  fun_induction numerals s with
  | case1 s n rest h more left hml ih =>
    have hrest := staysOnLine_numeral.suffix s
    rw [h] at hrest
    rw [hml] at ih
    exact ih.trans hrest
  | case2 s e h => exact List.suffix_refl s

/-- The numbers of a list do not reach past the end of the line. -/
lemma numerals_append (hc : isLineEnd c = true) (s m : List Char) :
    numerals (s ++ c :: m) = ((numerals s).1, (numerals s).2 ++ c :: m) := by
  fun_induction numerals s with
  | case1 s n rest h more left hml ih =>
    have hstep := staysOnLine_numeral.append hc s m
    rw [h] at hstep
    rw [numerals]
    split
    · rename_i n' rest' h'
      cases hstep.symm.trans h'
      rw [ih, hml]
    · rename_i e h'
      cases hstep.symm.trans h'
  | case2 s e h =>
    have hstep := staysOnLine_numeral.append hc s m
    rw [h] at hstep
    rw [numerals]
    split
    · rename_i n rest h'
      cases hstep.symm.trans h'
    · rfl

/-- Lists of numbers stay on their line. -/
lemma staysOnLine_listStatement (make : Numeral → List Numeral → Statement) :
    StaysOnLine (listStatement make) where
  suffix s := by
    have hfirst := staysOnLine_numeral.suffix s
    unfold listStatement
    cases hn : numeral s with
    | error e =>
      rw [hn] at hfirst
      exact hfirst
    | ok found =>
      rw [hn] at hfirst
      exact (numerals_suffix found.2).trans hfirst
  append hc s m := by
    unfold listStatement
    rw [staysOnLine_numeral.append hc]
    cases numeral s with
    | error e => rfl
    | ok found =>
      simp only [appendRest]
      rw [numerals_append hc]

/-- What is left of an edge is a last part of its statement. -/
lemma edgeStatement_suffix {start : List Char} (h : s <:+ start) :
    leftOver (edgeStatement start s) <:+ start := by
  have hsource := staysOnLine_numeral.suffix s
  unfold edgeStatement
  cases hm : numeral s with
  | error e =>
    rw [hm] at hsource
    exact hsource.trans h
  | ok found =>
    obtain ⟨m, left⟩ := found
    rw [hm] at hsource
    simp only
    cases ha : dropWord arrowWord (skip left) with
    | none => exact List.suffix_refl start
    | some rest =>
      have harrow : rest <:+ skip left :=
        ⟨arrowWord, (dropWord_eq_some_iff.mp ha).symm⟩
      have hrest : rest <:+ start := harrow.trans ((skip_suffix left).trans (hsource.trans h))
      have htarget := staysOnLine_numeral.suffix rest
      simp only
      cases hn : numeral rest with
      | error e =>
        rw [hn] at htarget
        exact htarget.trans hrest
      | ok found =>
        rw [hn] at htarget
        exact htarget.trans hrest

/-- An edge does not reach past the end of the line. -/
lemma edgeStatement_append (hc : isLineEnd c = true) (start s m : List Char) :
    edgeStatement (start ++ c :: m) (s ++ c :: m) =
      appendRest (c :: m) (edgeStatement start s) := by
  unfold edgeStatement
  rw [staysOnLine_numeral.append hc]
  cases numeral s with
  | error e => rfl
  | ok found =>
    obtain ⟨source, left⟩ := found
    simp only [appendRest]
    rw [skip_append hc, dropWord_append rfl hc]
    cases dropWord arrowWord (skip left) with
    | none => rfl
    | some rest =>
      simp only [Option.map_some]
      rw [staysOnLine_numeral.append hc]
      cases numeral rest <;> rfl

/-- Statements stay on their line. -/
lemma staysOnLine_statement : StaysOnLine statement where
  suffix s := by
    have hword {w rest : List Char} (hw : dropWord w s = some rest) : rest <:+ s :=
      ⟨w, (dropWord_eq_some_iff.mp hw).symm⟩
    unfold statement
    cases hedge : dropWord edgeWord s with
    | some rest => exact edgeStatement_suffix (hword hedge)
    | none =>
      simp only
      cases hused : dropWord usedWord s with
      | some rest => exact ((staysOnLine_listStatement _).suffix rest).trans (hword hused)
      | none =>
        simp only
        cases hkilled : dropWord killedWord s with
        | some rest => exact ((staysOnLine_listStatement _).suffix rest).trans (hword hkilled)
        | none => exact List.suffix_refl s
  append hc s m := by
    unfold statement
    rw [dropWord_append rfl hc, dropWord_append rfl hc,
      dropWord_append rfl hc]
    cases dropWord edgeWord s with
    | some rest => exact edgeStatement_append hc s rest m
    | none =>
      cases dropWord usedWord s with
      | some rest => exact (staysOnLine_listStatement _).append hc rest m
      | none =>
        cases dropWord killedWord s with
        | some rest => exact (staysOnLine_listStatement _).append hc rest m
        | none => rfl

/-! ## Lines -/

/-- What is read from the end of a line on, as an equation. -/
lemma statements_eq (after : Expected) (s : List Char) :
    statements after s = match skip s with
      | [] => .ok []
      | c :: rest =>
        if isLineEnd c then
          match skipLines false rest with
          | [] => .ok []
          | d :: line => match statement (d :: line) with
            | .error e => .error e
            | .ok (st, left) => (statements st.continuation left).map (st :: ·)
        else .error ⟨c :: rest, after⟩ := by
  rw [statements]
  split
  · rename_i hs
    rw [hs]
  · rename_i c rest hs
    rw [hs]
    simp only
    split
    · split
      · rename_i hl
        rw [hl]
      · rename_i d line hl
        rw [hl]
        simp only
        split
        · rename_i hst
          rw [hst]
        · rename_i hst
          rw [hst]
    · rfl

/-- At a line end it does not matter what could have stood on the line. -/
lemma statements_of_isLineEnd (hc : isLineEnd c = true) (after : Expected) (m : List Char) :
    statements after (c :: m) = match skipLines false m with
      | [] => .ok []
      | d :: line => match statement (d :: line) with
        | .error e => .error e
        | .ok (st, left) => (statements st.continuation left).map (st :: ·) := by
  have hskip : skip (c :: m) = c :: m := skip_append hc [] m
  rw [statements_eq, hskip]
  simp only
  rw [if_pos hc]

/-- A failure behind a line end leaves a last part of the text behind it, if failures in what
statements leave do. -/
lemma suffix_of_line (hc : isLineEnd c = true) {after : Expected}
    (hleft : ∀ left, left.length ≤ m.length → ∀ {after : Expected} {e : Rejection},
      statements after left = .error e → e.rest <:+ left)
    (h : statements after (c :: m) = .error e) : e.rest <:+ m := by
  have hlines := skipLines_suffix m
  rw [statements_of_isLineEnd hc] at h
  cases hl : skipLines false m with
  | nil => rw [hl] at h; cases h
  | cons d line =>
    have hstatement := staysOnLine_statement.suffix (d :: line)
    rw [hl] at h hlines
    simp only at h
    cases hst : statement (d :: line) with
    | error e' =>
      rw [hst] at h hstatement
      cases h
      exact hstatement.trans hlines
    | ok found =>
      obtain ⟨st, left⟩ := found
      rw [hst] at h hstatement
      have hsuffix : left <:+ m := hstatement.trans hlines
      simp only at h
      cases hmore : statements st.continuation left with
      | ok sts => rw [hmore] at h; cases h
      | error e' =>
        rw [hmore] at h
        cases h
        exact (hleft left hsuffix.length_le hmore).trans hsuffix

/-- A failure leaves a last part of the text. -/
lemma suffix_of_statements {after : Expected} (h : statements after s = .error e) :
    e.rest <:+ s := by
  induction hn : s.length using Nat.strong_induction_on generalizing s after e with
  | _ n ih =>
    subst hn
    have hskip := skip_suffix s
    cases hs : skip s with
    | nil => rw [statements_eq, hs] at h; cases h
    | cons c rest =>
      rw [hs] at hskip
      by_cases hc : isLineEnd c = true
      · have hrest : rest.length < s.length := hskip.length_le
        have hsame : statements after s = statements after (c :: rest) := by
          rw [statements_of_isLineEnd hc, statements_eq, hs]
          exact if_pos hc
        rw [hsame] at h
        have hsuffix : e.rest <:+ rest := suffix_of_line hc
          (fun left hle _ _ hmore => ih left.length (hle.trans_lt hrest) hmore rfl) h
        exact hsuffix.trans ((List.suffix_cons c rest).trans hskip)
      · rw [statements_eq, hs] at h
        simp only at h
        rw [if_neg hc] at h
        cases h
        exact hskip

/-- A failure in front of a line end is the same whatever is behind it, and without one the
statements behind it are read as well.

**Proof sketch.** Induction along the reader. What it skips and the statements that it finds stay on
their lines, so they are the same, and where it has come to the end of the text it goes on behind
the line end. -/
lemma statements_append (hc : isLineEnd c = true) (after : Expected) (s m : List Char) :
    statements after (s ++ c :: m) = match statements after s with
      | .error e => .error (e.append (c :: m))
      | .ok sts => (statements .ending (c :: m)).map (sts ++ ·) := by
  have hnil (x : Except Rejection (List Statement)) : x = x.map ([] ++ ·) := by cases x <;> rfl
  fun_induction statements after s with
  | case1 after s hs =>
    refine .trans ?_ (hnil _)
    rw [statements_eq, skip_append hc, hs, statements_of_isLineEnd hc]
    simp only [List.nil_append]
    rw [if_pos hc]
  | case2 after s d rest hs hd hl =>
    refine .trans ?_ (hnil _)
    rw [statements_eq, skip_append hc, hs, statements_of_isLineEnd hc]
    simp only [List.cons_append]
    rw [if_pos hd, skipLines_append hc, if_pos hl]
  | case3 after s d rest hs hd x line hl e hst =>
    have hstatement := staysOnLine_statement.append hc (x :: line) m
    rw [hst] at hstatement
    rw [statements_eq, skip_append hc, hs]
    simp only [List.cons_append]
    rw [if_pos hd, skipLines_append hc, hl, if_neg (List.cons_ne_nil x line)]
    simp only [List.cons_append] at hstatement ⊢
    rw [hstatement]
    rfl
  | case4 after s d rest hs hd x line hl st left hst ih =>
    have hstatement := staysOnLine_statement.append hc (x :: line) m
    rw [hst] at hstatement
    rw [statements_eq, skip_append hc, hs]
    simp only [List.cons_append]
    rw [if_pos hd, skipLines_append hc, hl, if_neg (List.cons_ne_nil x line)]
    simp only [List.cons_append] at hstatement ⊢
    rw [hstatement]
    simp only [appendRest]
    rw [ih]
    cases statements st.continuation left with
    | error e => rfl
    | ok sts => cases statements .ending (c :: m) <;> rfl
  | case5 after s d rest hs hd =>
    rw [statements_eq, skip_append hc, hs]
    simp only [List.cons_append]
    rw [if_neg hd]
    rfl

/-! ## Whole texts -/

/-- A failure leaves a last part of the text. -/
lemma suffix_of_read (h : read s = .error e) : e.rest <:+ s := by
  have hstart := skipLines_suffix s
  unfold read at h
  simp only at h
  cases hw : dropWord nodesWord (skipLines false s) with
  | none =>
    rw [hw] at h
    cases h
    exact hstart
  | some rest =>
    have hrest : rest <:+ s := .trans ⟨nodesWord, (dropWord_eq_some_iff.mp hw).symm⟩ hstart
    have hcount := staysOnLine_numeral.suffix rest
    rw [hw] at h
    simp only at h
    cases hn : numeral rest with
    | error e' =>
      rw [hn] at h hcount
      cases h
      exact hcount.trans hrest
    | ok found =>
      rw [hn] at h hcount
      simp only at h
      cases hmore : statements .ending found.2 with
      | ok sts => rw [hmore] at h; cases h
      | error e' =>
        rw [hmore] at h
        cases h
        exact (suffix_of_statements hmore).trans (hcount.trans hrest)

/-- A failure in front of a line end is the same whatever is behind it, unless there is nothing but
space in front of it. Without a failure the statements behind it are read as well. -/
lemma read_append (hc : isLineEnd c = true) (s m : List Char) :
    read (s ++ c :: m) =
      if skipLines false s = [] then read m
      else match read s with
        | .error e => .error (e.append (c :: m))
        | .ok d => (statements .ending (c :: m)).map fun sts =>
            ⟨d.count, d.statements ++ sts⟩ := by
  unfold read
  simp only
  rw [skipLines_append hc]
  by_cases hstart : skipLines false s = []
  · rw [if_pos hstart, if_pos hstart]
  · rw [if_neg hstart, if_neg hstart, dropWord_append rfl hc]
    cases dropWord nodesWord (skipLines false s) with
    | none => rfl
    | some rest =>
      simp only [Option.map_some]
      rw [staysOnLine_numeral.append hc]
      cases numeral rest with
      | error e => rfl
      | ok found =>
        simp only [appendRest]
        rw [statements_append hc]
        cases statements .ending found.2 with
        | error e => rfl
        | ok sts => cases statements .ending (c :: m) <;> rfl

/-- **A failure in front of a line end does not depend on what is behind it.** -/
theorem exists_of_read_append (hc : isLineEnd c = true) (h : read (s ++ c :: m) = .error e)
    (hlt : m.length < e.rest.length) :
    ∃ e' : Rejection, e = e'.append (c :: m) ∧
      ∀ m', read (s ++ c :: m') = .error (e'.append (c :: m')) := by
  rw [read_append hc] at h
  split at h
  · exact absurd (suffix_of_read h).length_le hlt.not_ge
  · rename_i hstart
    cases hread : read s with
    | error e' =>
      rw [hread] at h
      cases h
      refine ⟨e', rfl, fun m' => ?_⟩
      rw [read_append hc, if_neg hstart, hread]
    | ok d =>
      rw [hread] at h
      cases hmore : statements .ending (c :: m) with
      | ok sts => simp only [hmore] at h; cases h
      | error e' =>
        simp only [hmore] at h
        cases h
        have hsuffix := suffix_of_line hc (fun _ _ _ _ => suffix_of_statements) hmore
        exact absurd hsuffix.length_le hlt.not_ge

end PartialRedundancy.GraphText
