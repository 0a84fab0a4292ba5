import PartialRedundancy.GraphText.Graph
import PartialRedundancy.Proofs.GraphText.Space

/-!
# The layout of graph descriptions

A text lays out a document if it consists of the words of the document, in their order, with blanks
and comments between any two words and line ends as well before the first word, before each
statement and at the end. Reading a text gives the document that it lays out, and there is no more
than one.

## Main definitions

* `Number` — a maximal run of digits.
* `NumbersLayout`, `StatementLayout`, `BodyLayout`, `Layout` — the layouts of a list of numbers, of
  a statement, of all statements and of a document.

## Main results

* `numeral_eq_ok_iff` — the reader finds the number that stands after a skip.
* `statement_of_layout`, `layout_of_statement` — it finds a statement that ends where its line does.
* `statements_of_layout`, `layout_of_statements` — it finds the statements of a text.
* `read_eq_ok_iff` — the reader accepts exactly the layouts.
-/

namespace PartialRedundancy.GraphText

variable {s t u : List Char}

/-! ## Numbers -/

/-- `t` is what follows the number `n` that `s` starts with. -/
def Number (n : Numeral) (s t : List Char) : Prop :=
  s = n.digits ++ t ∧ ∀ c ∈ t.head?, c.isDigit = false

/-- The reader finds the number that a text starts with. -/
lemma numeral?_eq_some_iff {n : Numeral} : numeral? s = some (n, t) ↔ Number n s t := by
  constructor
  · intro h
    unfold numeral? at h
    split at h
    · cases h
    · cases h
      refine ⟨List.takeWhile_append_dropWhile.symm, fun c hc => ?_⟩
      have h := List.head?_dropWhile_not Char.isDigit s
      rw [Option.mem_def.mp hc] at h
      simpa using h
  · rintro ⟨rfl, ht⟩
    have htail : t.takeWhile Char.isDigit = [] ∧ t.dropWhile Char.isDigit = t := by
      cases t with
      | nil => exact ⟨rfl, rfl⟩
      | cons c rest => simp [ht c rfl]
    have htake : (n.digits ++ t).takeWhile Char.isDigit = n.digits := by
      rw [List.takeWhile_append_of_pos n.isDigit_of_mem, htail.1, List.append_nil]
    have hdrop : (n.digits ++ t).dropWhile Char.isDigit = t := by
      rw [List.dropWhile_append_of_pos n.isDigit_of_mem, htail.2]
    unfold numeral?
    rw [dif_neg (by rw [htake]; exact n.ne_nil)]
    simp only [htake, hdrop]

/-- A number is a word. -/
lemma Number.atWord {n : Numeral} (h : Number n s t) : AtWord s := by
  obtain ⟨rfl, _⟩ := h
  obtain ⟨c, digits, hdigits⟩ := List.exists_cons_of_ne_nil n.ne_nil
  have hc : c.isDigit = true := n.isDigit_of_mem c (by simp [hdigits])
  have hother (d : Char) (hd : d.isDigit = false) : ¬ c = d := by
    rintro rfl
    rw [hc] at hd
    cases hd
  refine ⟨c, by simp [hdigits], ?_⟩
  simp [isBlank, isCommentStart, isLineEnd, hother ' ' (by decide), hother '\t' (by decide),
    hother '#' (by decide), hother '\n' (by decide), hother '\r' (by decide)]

/-- The reader finds the number that stands after a skip. -/
lemma numeral_eq_ok_iff {n : Numeral} :
    numeral s = .ok (n, t) ↔ ∃ u, Skip s u ∧ Number n u t := by
  have hread : numeral s = .ok (n, t) ↔ numeral? (skip s) = some (n, t) := by
    unfold numeral
    cases numeral? (skip s) <;> simp
  rw [hread]
  constructor
  · intro h
    exact ⟨skip s, skip_skip s, numeral?_eq_some_iff.mp h⟩
  · rintro ⟨u, hsu, hn⟩
    rw [skip_of_skip hsu, skip_of_atWord hn.atWord]
    exact numeral?_eq_some_iff.mpr hn

/-- `t` is what follows the numbers of a list, each with a skip before it, that `s` starts with. -/
inductive NumbersLayout : List Numeral → (s t : List Char) → Prop
  /-- No number. -/
  | nil (s : List Char) : NumbersLayout [] s s
  /-- A first number, and the others. -/
  | cons {n : Numeral} {ns : List Numeral} {s t u v : List Char} (hs : Skip s t) (hn : Number n t u)
      (h : NumbersLayout ns u v) :
      NumbersLayout (n :: ns) s v

/-- What the reader finds are numbers. -/
lemma numbersLayout_numerals (s : List Char) :
    NumbersLayout (numerals s).1 s (numerals s).2 := by
  fun_induction numerals s with
  | case1 s n rest h more left hml ih =>
    rw [hml] at ih
    obtain ⟨u, hsu, hn⟩ := numeral_eq_ok_iff.mp h
    exact .cons hsu hn ih
  | case2 s e h => exact .nil s

/-- No number stands at the end of a line. -/
lemma numerals_of_endsLine (h : EndsLine (skip s)) : numerals s = ([], s) := by
  rw [numerals]
  split
  · rename_i n rest hn
    obtain ⟨u, hsu, hu⟩ := numeral_eq_ok_iff.mp hn
    obtain ⟨c, hc, _, _, hend⟩ := hu.atWord
    rw [skip_of_skip hsu, skip_of_atWord hu.atWord] at h
    rw [h c hc] at hend
    cases hend
  · rfl

/-- The reader finds all numbers of a list up to the end of the line. -/
lemma numerals_of_layout {ns : List Numeral} (h : NumbersLayout ns s t) (ht : EndsLine (skip t)) :
    numerals s = (ns, t) := by
  induction h with
  | nil => exact numerals_of_endsLine ht
  | cons hs hn _ ih =>
    have hread := numeral_eq_ok_iff.mpr ⟨_, hs, hn⟩
    rw [numerals]
    split
    · rename_i n rest hfound
      rw [hread] at hfound
      cases hfound
      rw [ih ht]
    · rename_i e herror
      rw [hread] at herror
      cases herror

/-! ## Statements -/

/-- `t` is what follows the statement that `s` starts with. -/
inductive StatementLayout : Statement → (s t : List Char) → Prop
  /-- The word `edge`, a number, an arrow and a number. -/
  | edge {m n : Numeral} {a b c d e t : List Char} (ha : Skip a b) (hm : Number m b c)
      (hc : Skip c (arrowWord ++ d)) (hd : Skip d e) (hn : Number n e t) :
      StatementLayout (.edge m n) (edgeWord ++ a) t
  /-- The word `used` and numbers. -/
  | used {n : Numeral} {ns : List Numeral} {a b c t : List Char} (ha : Skip a b) (hn : Number n b c)
      (hns : NumbersLayout ns c t) :
      StatementLayout (.used n ns) (usedWord ++ a) t
  /-- The word `killed` and numbers. -/
  | killed {n : Numeral} {ns : List Numeral} {a b c t : List Char} (ha : Skip a b)
      (hn : Number n b c) (hns : NumbersLayout ns c t) :
      StatementLayout (.killed n ns) (killedWord ++ a) t

/-- A statement starts with a word. -/
lemma StatementLayout.atWord {st : Statement} (h : StatementLayout st s t) : AtWord s := by
  cases h <;> exact atWord_append (by decide)

/-- The ends of an edge that the reader finds. -/
lemma edgeStatement_eq_ok_iff {start : List Char} {st : Statement} :
    edgeStatement start s = .ok (st, t) ↔ StatementLayout st (edgeWord ++ s) t := by
  constructor
  · intro h
    unfold edgeStatement at h
    split at h
    · cases h
    · rename_i m rest hm
      split at h
      · cases h
      · rename_i rest' harrow
        split at h
        · cases h
        · rename_i n left hn
          cases h
          obtain ⟨b, hb, hm⟩ := numeral_eq_ok_iff.mp hm
          obtain ⟨e, he, hn⟩ := numeral_eq_ok_iff.mp hn
          have hskip := skip_skip rest
          rw [dropWord_eq_some_iff.mp harrow] at hskip
          exact .edge hb hm hskip he hn
  · intro h
    generalize hw : edgeWord ++ s = w at h
    cases h with
    | @edge m n a b c d e t ha hm hc hd hn =>
      obtain rfl := List.append_cancel_left hw
      have hword : AtWord (arrowWord ++ d) := atWord_append (by decide)
      have harrow : skip c = arrowWord ++ d := by
        rw [skip_of_skip hc, skip_of_atWord hword]
      unfold edgeStatement
      rw [numeral_eq_ok_iff.mpr ⟨b, ha, hm⟩]
      simp only
      rw [dropWord_eq_some_iff.mpr harrow]
      simp only
      rw [numeral_eq_ok_iff.mpr ⟨e, hd, hn⟩]
    | used => simp [edgeWord, usedWord] at hw
    | killed => simp [edgeWord, killedWord] at hw

/-- The numbers of a statement that the reader finds. -/
lemma listStatement_eq_ok {make : Numeral → List Numeral → Statement} {st : Statement}
    (h : listStatement make s = .ok (st, t)) :
    ∃ n ns u v, st = make n ns ∧ Skip s u ∧ Number n u v ∧ NumbersLayout ns v t := by
  unfold listStatement at h
  split at h
  · cases h
  · rename_i n rest hn
    cases h
    obtain ⟨u, hu, hn⟩ := numeral_eq_ok_iff.mp hn
    exact ⟨n, _, u, rest, rfl, hu, hn, numbersLayout_numerals rest⟩

/-- The reader finds the numbers of a statement up to the end of the line. -/
lemma listStatement_of_layout {make : Numeral → List Numeral → Statement} {n : Numeral}
    {ns : List Numeral} {v : List Char} (hs : Skip s u) (hn : Number n u v)
    (hns : NumbersLayout ns v t) (ht : EndsLine (skip t)) :
    listStatement make s = .ok (make n ns, t) := by
  unfold listStatement
  rw [numeral_eq_ok_iff.mpr ⟨u, hs, hn⟩]
  simp only
  rw [numerals_of_layout hns ht]

/-- What the reader finds is a statement. -/
lemma layout_of_statement {st : Statement} (h : statement s = .ok (st, t)) :
    StatementLayout st s t := by
  unfold statement at h
  split at h
  · rename_i rest hw
    rw [dropWord_eq_some_iff.mp hw]
    exact edgeStatement_eq_ok_iff.mp h
  · split at h
    · rename_i rest hw
      rw [dropWord_eq_some_iff.mp hw]
      obtain ⟨n, ns, u, v, rfl, hs, hn, hns⟩ := listStatement_eq_ok h
      exact .used hs hn hns
    · split at h
      · rename_i rest hw
        rw [dropWord_eq_some_iff.mp hw]
        obtain ⟨n, ns, u, v, rfl, hs, hn, hns⟩ := listStatement_eq_ok h
        exact .killed hs hn hns
      · cases h

/-- The reader finds a statement that ends where the line does. -/
lemma statement_of_layout {st : Statement} (h : StatementLayout st s t)
    (ht : EndsLine (skip t)) : statement s = .ok (st, t) := by
  unfold statement
  cases h with
  | edge ha hm hc hd hn =>
    rw [dropWord_eq_some_iff.mpr rfl]
    exact edgeStatement_eq_ok_iff.mpr (.edge ha hm hc hd hn)
  | @used n ns a b c _ ha hn hns =>
    have hedge : dropWord edgeWord (usedWord ++ a) = none := rfl
    rw [hedge, dropWord_eq_some_iff.mpr rfl]
    exact listStatement_of_layout ha hn hns ht
  | @killed n ns a b c _ ha hn hns =>
    have hedge : dropWord edgeWord (killedWord ++ a) = none := rfl
    have hused : dropWord usedWord (killedWord ++ a) = none := rfl
    rw [hedge, hused, dropWord_eq_some_iff.mpr rfl]
    exact listStatement_of_layout ha hn hns ht

/-! ## Whole texts -/

/-- The text consists of statements, each after at least one line end, and then of blanks, comments
and line ends. -/
inductive BodyLayout : List Statement → List Char → Prop
  /-- No statement. -/
  | nil {s : List Char} (h : Gap s []) : BodyLayout [] s
  /-- A first statement, and the others. -/
  | cons {st : Statement} {sts : List Statement} {s t u v w : List Char} (hs : Gap s t)
      (ht : Newline t u) (hu : Gap u v) (hst : StatementLayout st v w) (h : BodyLayout sts w) :
      BodyLayout (st :: sts) s

/-- The text is a layout of the document: the word `nodes`, the count and the statements. -/
def Layout (d : Document) (s : List Char) : Prop :=
  ∃ t u v, Gap s (nodesWord ++ t) ∧ Skip t u ∧ Number d.count u v ∧ BodyLayout d.statements v

/-- Before the statements, or the end of the text, a line ends. -/
lemma BodyLayout.endsLine {sts : List Statement} (h : BodyLayout sts s) : EndsLine (skip s) := by
  cases h with
  | nil h =>
    have hnil : skipLines false s = [] := skipLines_of_gap h
    rw [skipLines_eq] at hnil
    intro c hc
    obtain ⟨rest, hrest⟩ := List.head?_eq_some_iff.mp hc
    rw [hrest] at hnil
    by_contra hend
    simp [hend] at hnil
  | cons hs ht =>
    obtain ⟨c, rest, hrest, hc⟩ := skip_of_gap_newline hs ht
    intro d hd
    rw [hrest] at hd
    cases hd
    exact hc

/-- What the reader finds on the lines of a text is laid out there. -/
lemma layout_of_statements {after : Expected} {sts : List Statement}
    (h : statements after s = .ok sts) : BodyLayout sts s := by
  fun_induction statements after s generalizing sts with
  | case1 after s hs =>
    cases h
    have hskip := skip_skip s
    rw [hs] at hskip
    exact .nil (.skip hskip (.none []))
  | case2 after s c rest hs hc hl =>
    cases h
    have hskip := skip_skip s
    have hgap := gap_skipLines rest
    rw [hs] at hskip
    rw [hl] at hgap
    exact .nil (.skip hskip (.newline (newline_of_isLineEnd hc) hgap))
  | case3 after s c rest hs hc d line hl e hst => cases h
  | case4 after s c rest hs hc d line hl st left hst ih =>
    cases hrec : statements st.continuation left with
    | error e =>
      rw [hrec] at h
      cases h
    | ok more =>
      rw [hrec] at h
      cases h
      have hskip := skip_skip s
      have hgap := gap_skipLines rest
      rw [hs] at hskip
      rw [hl] at hgap
      exact .cons (.skip hskip (.none _)) (newline_of_isLineEnd hc) hgap (layout_of_statement hst)
        (ih hrec)
  | case5 after s c rest hs hc => cases h

/-- The reader finds the statements that are laid out.

**Proof sketch.** Induction on the statements. Before each of them, and before the end of the text,
a line ends, so the reader goes on with the next line; there it leaves out the same lines as the
layout and stops at the word that starts the statement. The statement ends where its line does. -/
lemma statements_of_layout {sts : List Statement} (h : BodyLayout sts s) (after : Expected) :
    statements after s = .ok sts := by
  induction h generalizing after with
  | @nil s h =>
    have hnil : skipLines false s = [] := skipLines_of_gap h
    have hline : EndsLine (skip s) := (BodyLayout.nil h).endsLine
    rw [skipLines_eq] at hnil
    rw [statements]
    split
    · rfl
    · rename_i c rest hs
      rw [hs] at hnil hline
      have hc : isLineEnd c = true := hline c rfl
      simp only [hc, if_true] at hnil ⊢
      split
      · rfl
      · rename_i d line hl
        rw [hnil] at hl
        cases hl
  | @cons st sts s t u v w hs ht hu hst hbody ih =>
    obtain ⟨c, rest, hskip, hc⟩ := skip_of_gap_newline hs ht
    have hlines : skipLines false rest = v := by
      have h : skipLines false s = skipLines false v :=
        skipLines_of_gap (hs.trans (.newline ht hu))
      rw [skipLines_eq, hskip, skipLines_of_atWord hst.atWord] at h
      simpa only [hc, if_true] using h
    have hread := statement_of_layout hst hbody.endsLine
    rw [statements]
    split
    · rename_i hnil
      rw [hskip] at hnil
      cases hnil
    · rename_i c' rest' hs'
      rw [hskip] at hs'
      cases hs'
      simp only [hc, if_true]
      split
      · rename_i hl
        obtain ⟨d, hd, _⟩ := hst.atWord
        rw [← hlines, hl] at hd
        cases hd
      · rename_i d line hl
        rw [hlines] at hl
        subst hl
        split
        · rename_i e herror
          rw [hread] at herror
          cases herror
        · rename_i st' left hfound
          rw [hread] at hfound
          cases hfound
          rw [ih]
          rfl

/-- The reader accepts exactly the layouts, and gives the document that is laid out. -/
theorem read_eq_ok_iff {d : Document} : read s = .ok d ↔ Layout d s := by
  unfold read
  constructor
  · intro h
    have hgap := gap_skipLines s
    simp only at h
    split at h
    · cases h
    · rename_i rest hw
      rw [dropWord_eq_some_iff.mp hw] at hgap
      split at h
      · cases h
      · rename_i count left hn
        obtain ⟨u, hu, hn⟩ := numeral_eq_ok_iff.mp hn
        cases hrec : statements .ending left with
        | error e =>
          rw [hrec] at h
          cases h
        | ok sts =>
          rw [hrec] at h
          cases h
          exact ⟨rest, u, left, hgap, hu, hn, layout_of_statements hrec⟩
  · rintro ⟨t, u, v, hgap, hu, hn, hbody⟩
    have hword : AtWord (nodesWord ++ t) := atWord_append (by decide)
    have hlines : skipLines false s = nodesWord ++ t := by
      rw [skipLines_of_gap hgap, skipLines_of_atWord hword]
    simp only
    rw [dropWord_eq_some_iff.mpr hlines]
    simp only
    rw [numeral_eq_ok_iff.mpr ⟨u, hu, hn⟩]
    simp only
    rw [statements_of_layout hbody]
    rfl

/-- A text is a layout of one document at most. -/
theorem Layout.unique {d d' : Document} (h : Layout d s) (h' : Layout d' s) : d = d' := by
  have hread := read_eq_ok_iff.mpr h
  rw [read_eq_ok_iff.mpr h'] at hread
  exact (Except.ok.inj hread).symm

end PartialRedundancy.GraphText
