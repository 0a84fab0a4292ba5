import PartialRedundancy.Proofs.GraphText.Expression
import PartialRedundancy.Proofs.GraphText.Layout

/-!
# The grammar of graph descriptions

The reader of graph descriptions goes through a text once and from left to right. The grammar of the
descriptions says the same as parsing expressions, which try and give up alternatives: a line end is
first taken for the beginning of a statement, and if there is none, for one of the line ends after
the last statement. The two agree on every text.

## Main definitions

* `Grammar.graph` and so on — the rules.
* `Grammar.skipped` — what is left after the blanks and comments that may stand anywhere.
* `Document.pair` — the tree of a document.

## Main results

* `Grammar.skipped_eq` — blanks and comments are those that the reader skips.
* `Grammar.matches_statement` — the statement at the start of a line.
* `Grammar.again_line` — a repetition that takes statements with the line ends before them.
* `Grammar.run_graph` — the grammar matches the texts that the reader accepts, and gives the tree of
  the document that is read.

## Design

After a list of numbers the grammar may have skipped the space up to the end of the line, which the
reader leaves there. Both skip it next, so the texts that are left are compared after a skip.
-/

namespace PartialRedundancy.GraphText

namespace Grammar

open Expression

/-! ## The rules -/

/-- `" " | "\t"` -/
def whitespace : Expression := choice (word [' ']) (word ['\t'])

/-- `"\n" | "\r\n" | "\r"` -/
def newline : Expression := choice (word ['\n']) (choice (word ['\r', '\n']) (word ['\r']))

/-- `"#" ~ (!newline ~ any)*` -/
def comment : Expression := seq (word ['#']) (many (seq (absent newline) (char fun _ => true)))

/-- `whitespace* ~ (comment ~ whitespace*)*` -/
def space : Expression := seq (many whitespace) (many (seq comment (many whitespace)))

/-- The text after the space that it starts with. -/
def skipped (s : List Char) : List Char :=
  match space.run id s with
  | none => s
  | some (_, rest) => rest

/-- `number = @{ digit+ }` -/
def number : Expression := token .number (many1 (char Char.isDigit))

/-- `nodes = { "nodes" ~ number }` -/
def nodes : Expression := rule .nodes (seq (word nodesWord) number)

/-- `edge = { "edge" ~ number ~ "->" ~ number }` -/
def edge : Expression :=
  rule .edge (seq (word edgeWord) (seq number (seq (word arrowWord) number)))

/-- `used = { "used" ~ number+ }`, and likewise for other lists. -/
def list (r : Rule) (w : List Char) : Expression := rule r (seq (word w) (many1 number))

/-- `edge | used | killed` -/
def statement : Expression :=
  choice edge (choice (list .used usedWord) (list .killed killedWord))

/-- `newline+ ~ statement` -/
def line : Expression := seq (many1 newline) statement

/-- `graph = { newline* ~ nodes ~ (newline+ ~ statement)* ~ newline* ~ ending }`, where the first
expression stands for the start of the text. -/
def graph : Expression :=
  rule .graph (seq (word []) (seq (many newline) (seq nodes (seq (many line)
    (seq (many newline) (rule .ending ending))))))

end Grammar

/-! ## Trees -/

/-- The token of a number. -/
def Numeral.pair (n : Numeral) : Pair := .token .number n.digits

/-- The tree of a statement. -/
def Statement.pair : Statement → Pair
  | edge source target => .node .edge [source.pair, target.pair]
  | used first more => .node .used (first.pair :: more.map Numeral.pair)
  | killed first more => .node .killed (first.pair :: more.map Numeral.pair)

/-- The tree of a document. -/
def Document.pair (d : Document) : Pair :=
  .node .graph (.node .nodes [d.count.pair] ::
    (d.statements.map Statement.pair ++ [.node .ending []]))

namespace Grammar

open Expression

variable {s t rest : List Char} {ps : List Pair}

/-! ## Space -/

/-- A repetition of characters of some kind takes all of them. -/
lemma run_many_char (p : Char → Bool) (s : List Char) :
    (many (char p)).run id s = some ([], s.dropWhile p) := by
  have hagain (s : List Char) :
      again (fun t => (char p).run id (id t)) s = ([], s.dropWhile p) := by
    induction s with
    | nil => exact again_of_none rfl
    | cons c s ih =>
      by_cases hc : p c = true
      · have hstep : (char p).run id (c :: s) = some ([], s) := by rw [run, if_pos hc]
        have h : again (fun t => (char p).run id (id t)) (c :: s) = ([] ++ _, _) :=
          again_of_some hstep (Nat.lt_succ_self _)
        rw [h, ih, List.dropWhile_cons_of_pos hc]
        rfl
      · have hstep : (char p).run id (c :: s) = none := by rw [run, if_neg hc]
        have h : again (fun t => (char p).run id (id t)) (c :: s) = ([], c :: s) :=
          again_of_none hstep
        rw [h, List.dropWhile_cons_of_neg hc]
  cases s with
  | nil => rfl
  | cons c s =>
    rw [run, run]
    by_cases hc : p c = true
    · rw [if_pos hc, List.dropWhile_cons_of_pos hc]
      simp only
      rw [hagain]
      rfl
    · rw [if_neg hc, List.dropWhile_cons_of_neg hc]

/-- Equal matches have equal repetitions. -/
lemma run_many_congr {a b : Expression} {between : List Char → List Char}
    (h : a.run between = b.run between) : (many a).run between = (many b).run between := by
  funext s
  simp only [run, h]

/-- A blank. -/
lemma run_whitespace : whitespace.run id = (char isBlank).run id := by
  funext s
  cases s with
  | nil => rfl
  | cons c s =>
    by_cases hspace : c = ' '
    · subst hspace
      rfl
    · by_cases htab : c = '\t'
      · subst htab
        rfl
      · simp [whitespace, run, dropWord, isBlank, hspace, htab, Ne.symm hspace, Ne.symm htab]

/-- A line end matches where there is one, and nowhere else. -/
lemma run_newline (between : List Char → List Char) (s : List Char) :
    (newline.run between s = none ∧ ∀ c ∈ s.head?, isLineEnd c = false) ∨
      ∃ rest, newline.run between s = some ([], rest) ∧ Newline s rest := by
  cases s with
  | nil => exact Or.inl ⟨rfl, by simp⟩
  | cons c s =>
    by_cases hlf : c = '\n'
    · subst hlf
      exact Or.inr ⟨s, rfl, .lf s⟩
    by_cases hcr : c = '\r'
    · subst hcr
      cases s with
      | nil => exact Or.inr ⟨[], rfl, .cr []⟩
      | cons d s =>
        by_cases hd : d = '\n'
        · subst hd
          exact Or.inr ⟨s, rfl, .crlf s⟩
        · refine Or.inr ⟨d :: s, ?_, .cr (d :: s)⟩
          simp [newline, run, dropWord, Ne.symm hd]
    · refine Or.inl ⟨?_, by simp [isLineEnd, hlf, hcr]⟩
      simp [newline, run, dropWord, Ne.symm hlf, Ne.symm hcr]

/-- A character of a comment. -/
lemma run_absent_newline :
    (seq (absent newline) (char fun _ => true)).run id = (char fun d => !isLineEnd d).run id := by
  funext s
  rw [run, run]
  rcases run_newline id s with ⟨hnone, hs⟩ | ⟨rest, hrest, hs⟩
  · rw [hnone]
    cases s with
    | nil => rfl
    | cons c s =>
      have hc := hs c rfl
      simp [run, hc]
  · rw [hrest]
    cases hs <;> rfl

/-- A comment matches up to the end of its line. -/
lemma run_comment (s : List Char) : comment.run id s =
    match s with
    | [] => none
    | c :: rest =>
      if isCommentStart c then some ([], rest.dropWhile fun d => !isLineEnd d) else none := by
  cases s with
  | nil => rfl
  | cons c rest =>
    by_cases hc : c = '#'
    · subst hc
      have hword : (word ['#']).run id ('#' :: rest) = some ([], rest) := rfl
      rw [comment, run_seq_of_some hword, run_many_congr run_absent_newline, run_many_char]
      rfl
    · have hword : (word ['#']).run id (c :: rest) = none := by simp [run, dropWord, Ne.symm hc]
      rw [comment, run_seq_of_none hword]
      simp [isCommentStart, hc]

/-- No comment starts where a line ends. -/
lemma run_comment_of_endsLine (h : EndsLine s) : comment.run id s = none := by
  rw [run_comment]
  cases s with
  | nil => rfl
  | cons c rest =>
    obtain ⟨_, hstart⟩ := not_isBlank_of_isLineEnd (h c rfl)
    simp [hstart]

/-- A run of blanks. -/
lemma run_many_whitespace (s : List Char) :
    (many whitespace).run id s = some ([], s.dropWhile isBlank) := by
  rw [run_many_congr run_whitespace, run_many_char]

/-- No blanks follow a comment. -/
lemma run_comment_blanks (s : List Char) :
    (seq comment (many whitespace)).run id s = comment.run id s := by
  have hcomment := run_comment s
  cases hs : comment.run id s with
  | none => exact run_seq_of_none hs
  | some found =>
    rw [hs] at hcomment
    cases s with
    | nil => cases hcomment
    | cons c rest =>
      simp only at hcomment
      split at hcomment <;> cases hcomment
      have hline : EndsLine (rest.dropWhile fun d => !isLineEnd d) := endsLine_dropWhile rest
      rw [run_seq_of_some hs, id, run_many_whitespace]
      cases ht : rest.dropWhile fun d => !isLineEnd d with
      | nil => rfl
      | cons d more =>
        rw [ht] at hline
        obtain ⟨hblank, _⟩ := not_isBlank_of_isLineEnd (hline d rfl)
        simp [hblank]

/-- Space matches what the reader skips.

**Proof sketch.** The blanks at the start are taken first. If a comment follows, it is taken up to
the end of its line, where there are neither blanks nor a further comment. -/
lemma run_space (s : List Char) : space.run id s = some ([], skip s) := by
  rw [space, run_seq_of_some (run_many_whitespace s), id, run, run_comment_blanks, run_comment]
  induction s with
  | nil => rfl
  | cons c s ih =>
    by_cases hc : isBlank c = true
    · rw [List.dropWhile_cons_of_pos hc, skip, if_pos hc]
      exact ih
    · rw [List.dropWhile_cons_of_neg hc, skip, if_neg hc]
      by_cases hstart : isCommentStart c = true
      · have hline : EndsLine (s.dropWhile fun d => !isLineEnd d) := endsLine_dropWhile s
        have hend : again (fun t => (seq comment (many whitespace)).run id (id t))
            (s.dropWhile fun d => !isLineEnd d) = ([], _) :=
          again_of_none ((run_comment_blanks _).trans (run_comment_of_endsLine hline))
        simp only [hstart, if_true, hend]
        rfl
      · simp [hstart]

/-- Blanks and comments are those that the reader skips. -/
lemma skipped_eq : skipped = skip := by
  funext s
  rw [skipped, run_space]

/-! ## Numbers -/

/-- What is left out of a text by dropping its first part is that part. -/
lemma take_sub_length_dropWhile (p : Char → Bool) (s : List Char) :
    s.take (s.length - (s.dropWhile p).length) = s.takeWhile p := by
  calc s.take (s.length - (s.dropWhile p).length)
      = (s.takeWhile p ++ s.dropWhile p).take
          ((s.takeWhile p ++ s.dropWhile p).length - (s.dropWhile p).length) := by
        rw [List.takeWhile_append_dropWhile]
    _ = s.takeWhile p := by
        rw [List.length_append, Nat.add_sub_cancel, List.take_left]

/-- One or more digits. -/
lemma run_digits (s : List Char) : (many1 (char Char.isDigit)).run id s =
    if s.takeWhile Char.isDigit = [] then none else some ([], s.dropWhile Char.isDigit) := by
  cases s with
  | nil => rfl
  | cons c s =>
    by_cases hc : c.isDigit = true
    · have hfirst : (char Char.isDigit).run id (c :: s) = some ([], s) := by rw [run, if_pos hc]
      rw [many1, run_seq_of_some hfirst, id, run_many_char]
      simp [hc]
    · have hfirst : (char Char.isDigit).run id (c :: s) = none := by rw [run, if_neg hc]
      rw [many1, run_seq_of_none hfirst]
      simp [hc]

/-- A number matches where the reader finds one. -/
lemma run_number (between : List Char → List Char) (s : List Char) :
    number.run between s = (numeral? s).map fun found => ([found.1.pair], found.2) := by
  rw [number, run, run_digits]
  unfold numeral?
  split
  · rename_i h
    split at h
    · rename_i hnil
      rw [dif_pos hnil]
      rfl
    · cases h
  · rename_i ps rest h
    split at h
    · cases h
    · rename_i hne
      cases h
      rw [dif_neg hne, take_sub_length_dropWhile]
      rfl

/-- After a skip, a number matches where the reader finds one. -/
lemma run_number_skip (between : List Char → List Char) (s : List Char) :
    number.run between (skip s) =
      match numeral s with
      | .ok (n, rest) => some ([n.pair], rest)
      | .error _ => none := by
  rw [run_number]
  unfold numeral
  cases numeral? (skip s) <;> rfl

/-- A number takes something from the text. -/
lemma length_run_number_lt {between : List Char → List Char}
    (h : number.run between s = some (ps, rest)) : rest.length < s.length := by
  rw [run_number] at h
  obtain ⟨found, hfound, h⟩ := Option.map_eq_some_iff.mp h
  cases h
  exact length_numeral?_lt hfound

/-- Skipping again changes nothing. -/
lemma skip_skip_eq (s : List Char) : skip (skip s) = skip s := (skip_of_skip (skip_skip s)).symm

/-- A repetition after a skip. -/
lemma run_many_skip {a : Expression}
    (hlt : ∀ s ps rest, a.run skip s = some (ps, rest) → rest.length < s.length) (s : List Char) :
    ∃ rest, (many a).run skip (skip s) =
        some ((again (fun t => a.run skip (skip t)) s).1, rest) ∧
      skip rest = skip (again (fun t => a.run skip (skip t)) s).2 := by
  rw [run_many fun ps rest h => (hlt _ ps rest h).trans_le (length_skip_le s)]
  refine ⟨_, rfl, ?_⟩
  by_cases h : a.run skip (skip s) = none
  · have hend : again (fun t => a.run skip (skip t)) s = ([], s) := again_of_none h
    rw [if_pos h, hend]
    exact skip_skip_eq s
  · rw [if_neg h]

/-- A repetition of numbers takes those that the reader finds. -/
lemma again_number (s : List Char) : again (fun t => number.run skip (skip t)) s =
    ((numerals s).1.map Numeral.pair, (numerals s).2) := by
  fun_induction numerals s with
  | case1 s n rest h more left hml ih =>
    have hstep : number.run skip (skip s) = some ([n.pair], rest) := by rw [run_number_skip, h]
    have hagain : again (fun t => number.run skip (skip t)) s = ([n.pair] ++ _, _) :=
      again_of_some hstep (length_numeral_lt h)
    rw [hagain, ih, hml]
    rfl
  | case2 s e h =>
    have hstep : number.run skip (skip s) = none := by rw [run_number_skip, h]
    exact again_of_none hstep

/-! ## Statements -/

/-- A word and what follows it. -/
lemma run_word_seq {w : List Char} {e : Expression} (s : List Char) :
    (seq (word w) e).run skip s = (dropWord w s).bind fun rest => e.run skip (skip rest) := by
  cases h : dropWord w s with
  | none =>
    have hword : (word w).run skip s = none := by rw [run, h]; rfl
    rw [run_seq_of_none hword]
    rfl
  | some rest =>
    have hword : (word w).run skip s = some ([], rest) := by rw [run, h]; rfl
    rw [run_seq_of_some hword]
    exact Option.map_id'

/-- A rule that starts with a word. -/
lemma run_rule_word (r : Rule) (w : List Char) (e : Expression) (s : List Char) :
    (rule r (seq (word w) e)).run skip s = (dropWord w s).bind fun rest =>
      (e.run skip (skip rest)).map fun found => ([.node r found.1], found.2) := by
  rw [run, run_word_seq]
  cases dropWord w s with
  | none => rfl
  | some rest =>
    simp only [Option.bind_some]
    cases e.run skip (skip rest) <;> rfl

/-- The expression matches the statement that is found at the start of the text, if any. It may take
some of the space after the statement as well. -/
def Matches (e : Expression) (s : List Char) : Option (Statement × List Char) → Prop
  | none => e.run skip s = none
  | some (st, left) => ∃ rest, e.run skip s = some ([st.pair], rest) ∧ skip rest = skip left

/-- A choice matches what its first expression finds, or else what its second one does. -/
lemma Matches.choice {a b : Expression} {x y : Option (Statement × List Char)}
    (ha : Matches a s x) (hb : Matches b s y) : Matches (choice a b) s (x.or y) := by
  cases x with
  | none =>
    have hrun : (Expression.choice a b).run skip s = b.run skip s := run_choice_of_none ha
    cases y with
    | none => exact hrun.trans hb
    | some found =>
      obtain ⟨rest, hrest, hskip⟩ := hb
      exact ⟨rest, hrun.trans hrest, hskip⟩
  | some found =>
    obtain ⟨rest, hrest, hskip⟩ := ha
    exact ⟨rest, run_choice_of_some hrest, hskip⟩

/-- An edge matches where the reader finds one. -/
lemma matches_edge (s : List Char) :
    Matches edge s ((dropWord edgeWord s).bind fun rest => (edgeStatement s rest).toOption) := by
  have hrun : edge.run skip s = _ := run_rule_word _ _ _ s
  cases hw : dropWord edgeWord s with
  | none =>
    rw [hw] at hrun
    exact hrun
  | some rest =>
    rw [hw, Option.bind_some] at hrun
    rw [Option.bind_some]
    have hsource := run_number_skip skip rest
    unfold edgeStatement
    cases hm : numeral rest with
    | error e =>
      rw [hm] at hsource
      rw [run_seq_of_none hsource] at hrun
      exact hrun
    | ok found =>
      obtain ⟨m, rest⟩ := found
      rw [hm] at hsource
      rw [run_seq_of_some hsource, run_word_seq] at hrun
      simp only
      cases ha : dropWord arrowWord (skip rest) with
      | none =>
        rw [ha] at hrun
        exact hrun
      | some rest =>
        rw [ha, Option.bind_some, run_number_skip] at hrun
        simp only
        cases hn : numeral rest with
        | error e =>
          rw [hn] at hrun
          exact hrun
        | ok found =>
          rw [hn] at hrun
          exact ⟨found.2, hrun, rfl⟩

/-- A list of numbers matches where the reader finds one. -/
lemma matches_list {r : Rule} {make : Numeral → List Numeral → Statement}
    (hmake : ∀ n ns, (make n ns).pair = .node r (n.pair :: ns.map Numeral.pair)) (w s : List Char) :
    Matches (list r w) s ((dropWord w s).bind fun rest => (listStatement make rest).toOption) := by
  have hrun : (list r w).run skip s = _ := run_rule_word _ _ _ s
  cases hw : dropWord w s with
  | none =>
    rw [hw] at hrun
    exact hrun
  | some rest =>
    rw [hw, Option.bind_some] at hrun
    rw [Option.bind_some]
    have hfirst := run_number_skip skip rest
    unfold listStatement
    cases hn : numeral rest with
    | error e =>
      rw [hn] at hfirst
      rw [many1, run_seq_of_none hfirst] at hrun
      exact hrun
    | ok found =>
      obtain ⟨n, rest⟩ := found
      rw [hn] at hfirst
      obtain ⟨left, hmany, hleft⟩ := run_many_skip (fun _ _ _ => length_run_number_lt) rest
      rw [again_number] at hmany hleft
      rw [many1, run_seq_of_some hfirst, hmany] at hrun
      refine ⟨left, ?_, hleft⟩
      rw [hrun, hmake]
      rfl

/-- The reader finds an edge, or else a list of used nodes, or else one of killed nodes. -/
lemma toOption_statement (s : List Char) : (GraphText.statement s).toOption =
    ((dropWord edgeWord s).bind fun rest => (edgeStatement s rest).toOption).or
      (((dropWord usedWord s).bind fun rest => (listStatement .used rest).toOption).or
        ((dropWord killedWord s).bind fun rest => (listStatement .killed rest).toOption)) := by
  unfold GraphText.statement
  cases hedge : dropWord edgeWord s with
  | some rest =>
    -- no list starts with the word of an edge
    obtain rfl := dropWord_eq_some_iff.mp hedge
    have hused : dropWord usedWord (edgeWord ++ rest) = none := rfl
    have hkilled : dropWord killedWord (edgeWord ++ rest) = none := rfl
    rw [hused, hkilled]
    simp
  | none =>
    cases hused : dropWord usedWord s with
    | some rest =>
      obtain rfl := dropWord_eq_some_iff.mp hused
      have hkilled : dropWord killedWord (usedWord ++ rest) = none := rfl
      rw [hkilled]
      simp
    | none => cases dropWord killedWord s <;> simp [Except.toOption]

/-- A statement matches where the reader finds one. -/
lemma matches_statement (s : List Char) :
    Matches statement s (GraphText.statement s).toOption := by
  rw [toOption_statement]
  exact (matches_edge s).choice
    ((matches_list (fun _ _ => rfl) usedWord s).choice
      (matches_list (fun _ _ => rfl) killedWord s))

/-! ## Lines -/

/-- A line end takes something from the text. -/
lemma length_run_newline_lt {between : List Char → List Char}
    (h : newline.run between s = some (ps, rest)) : rest.length < s.length := by
  rcases run_newline between s with ⟨hnone, _⟩ | ⟨t, ht, hs⟩
  · rw [hnone] at h
    cases h
  · rw [ht] at h
    cases h
    cases hs <;> simp only [List.length_cons] <;> omega

/-- A repetition of line ends leaves out the lines that the reader leaves out. -/
lemma again_newline (s : List Char) :
    (again (fun t => newline.run skip (skip t)) s).1 = [] ∧
      skip (again (fun t => newline.run skip (skip t)) s).2 = skipLines false s := by
  induction hn : s.length using Nat.strong_induction_on generalizing s with
  | _ n ih =>
    subst hn
    rcases run_newline skip (skip s) with ⟨hnone, hs⟩ | ⟨rest, hrest, hs⟩
    · have hend : again (fun t => newline.run skip (skip t)) s = ([], s) := again_of_none hnone
      rw [hend, skipLines_eq]
      refine ⟨rfl, ?_⟩
      cases hskip : skip s with
      | nil => rfl
      | cons c rest =>
        rw [hskip] at hs
        simp [hs c rfl]
    · have hlt : rest.length < s.length :=
        (length_run_newline_lt hrest).trans_le (length_skip_le s)
      have hstep : again (fun t => newline.run skip (skip t)) s = ([] ++ _, _) :=
        again_of_some hrest hlt
      obtain ⟨hnil, hlines⟩ := ih _ hlt rest rfl
      rw [hstep, hnil, skipLines_of_gap (.skip (skip_skip s) (.newline hs (.none rest)))]
      exact ⟨rfl, hlines⟩

/-- A repetition of line ends after a skip. -/
lemma run_many_newline (s : List Char) :
    ∃ rest, (many newline).run skip (skip s) = some ([], rest) ∧ skip rest = skipLines false s := by
  obtain ⟨rest, hrun, hskip⟩ := run_many_skip (fun _ _ _ => length_run_newline_lt) s
  obtain ⟨hnil, hlines⟩ := again_newline s
  rw [hnil] at hrun
  exact ⟨rest, hrun, hskip.trans hlines⟩

/-- A line takes something from the text. -/
lemma length_run_line_lt (h : line.run skip s = some (ps, rest)) : rest.length < s.length :=
  length_run_seq_lt length_skip_le
    (fun _ _ => length_run_seq_lt length_skip_le fun _ _ => length_run_newline_lt) h

/-- Where a line ends and the text goes on, one line end or more leave out the lines that the reader
leaves out. -/
lemma run_many1_newline {c : Char} (hs : skip s = c :: rest) (hc : isLineEnd c = true) :
    ∃ t, (many1 newline).run skip (skip s) = some ([], t) ∧ skip t = skipLines false s := by
  rcases run_newline skip (skip s) with ⟨_, hnot⟩ | ⟨rest', hrest, hnewline⟩
  · rw [hs] at hnot
    cases hc.symm.trans (hnot c rfl)
  · obtain ⟨t, hmany, ht⟩ := run_many_newline rest'
    refine ⟨t, ?_, ?_⟩
    · rw [many1, run_seq_of_some hrest, hmany]
      rfl
    · rw [ht, skipLines_of_gap (.skip (skip_skip s) (.newline hnewline (.none rest')))]

/-- Where a line ends, the next statement matches if the reader finds one. The two may be at places
that are the same up to a skip. -/
lemma matches_line (ht : skip t = skip s) (h : EndsLine (skip s)) :
    Matches line (skip t) (GraphText.statement (skipLines false s)).toOption := by
  rw [ht]
  cases hs : skip s with
  | nil =>
    -- the text is over
    rw [skipLines_eq, hs]
    rfl
  | cons c rest =>
    rw [hs] at h
    obtain ⟨t, hfirst, ht⟩ := run_many1_newline hs (h c rfl)
    have hstatement := matches_statement (skip t)
    have hline : line.run skip (skip s) = statement.run skip (skip t) := by
      rw [line, run_seq_of_some hfirst]
      exact Option.map_id'
    rw [← hs, ← ht]
    cases hread : (GraphText.statement (skip t)).toOption with
    | none =>
      rw [hread] at hstatement
      exact hline.trans hstatement
    | some found =>
      rw [hread] at hstatement
      obtain ⟨left, hleft, hskip⟩ := hstatement
      exact ⟨left, hline.trans hleft, hskip⟩

/-- Where no line ends, there are no line ends. -/
lemma run_many1_newline_of_not_endsLine (h : ¬ EndsLine s) : (many1 newline).run skip s = none := by
  rcases run_newline skip s with ⟨hnone, _⟩ | ⟨rest, _, hs⟩
  · exact run_seq_of_none hnone
  · refine absurd ?_ h
    intro c hc
    cases hs <;> cases hc <;> rfl

/-- Where no line ends, no line starts. -/
lemma run_line_of_not_endsLine (h : ¬ EndsLine s) : line.run skip s = none :=
  run_seq_of_none (run_many1_newline_of_not_endsLine h)

/-! ## Whole texts -/

/-- A repetition of lines takes the statements that the reader finds, and then only line ends are
left. If the reader fails, something else is left.

**Proof sketch.** Induction along the reader. Where it stops, there is no further line; where it
finds a statement, the line matches, and the texts after the two are the same up to a skip. -/
lemma again_line (after : Expected) (s t : List Char) (ht : skip t = skip s) :
    match statements after s with
    | .ok sts => (again (fun u => line.run skip (skip u)) t).1 = sts.map Statement.pair ∧
        skipLines false (again (fun u => line.run skip (skip u)) t).2 = []
    | .error _ => skipLines false (again (fun u => line.run skip (skip u)) t).2 ≠ [] := by
  have hsame : skipLines false t = skipLines false s := by
    rw [skipLines_eq, ht, ← skipLines_eq]
  -- where there is no further line, the repetition ends at `t`
  have hend (h : line.run skip (skip t) = none) :
      again (fun u => line.run skip (skip u)) t = ([], t) := again_of_none h
  fun_induction statements after s generalizing t with
  | case1 after s hs =>
    have hlines : skipLines false s = [] := by rw [skipLines_eq, hs]
    have hnone : line.run skip (skip t) = none := by rw [ht, hs]; rfl
    rw [hend hnone, hsame, hlines]
    exact ⟨rfl, rfl⟩
  | case2 after s c rest hs hc hl =>
    have hlines : skipLines false s = [] := by
      rw [skipLines_eq, hs]
      simp [hc, hl]
    have hmatch := matches_line ht (by rw [hs]; simpa [EndsLine] using hc)
    rw [hlines] at hmatch
    rw [hend hmatch, hsame, hlines]
    exact ⟨rfl, rfl⟩
  | case3 after s c rest hs hc d more hl e hst =>
    have hlines : skipLines false s = d :: more := by
      rw [skipLines_eq, hs]
      simp [hc, hl]
    have hmatch := matches_line ht (by rw [hs]; simpa [EndsLine] using hc)
    rw [hlines, hst] at hmatch
    rw [hend hmatch, hsame, hlines]
    simp
  | case4 after s c rest hs hc d more hl st left hst ih =>
    have hlines : skipLines false s = d :: more := by
      rw [skipLines_eq, hs]
      simp [hc, hl]
    have hmatch := matches_line ht (by rw [hs]; simpa [EndsLine] using hc)
    rw [hlines, hst] at hmatch
    obtain ⟨u, hu, hskip⟩ := hmatch
    have hlt : u.length < t.length := (length_run_line_lt hu).trans_le (length_skip_le t)
    have hstep : again (fun u => line.run skip (skip u)) t = ([st.pair] ++ _, _) :=
      again_of_some hu hlt
    have hrest := ih u hskip (by rw [skipLines_eq, hskip, ← skipLines_eq])
      fun h => again_of_none h
    rw [hstep]
    cases hmore : statements st.continuation left with
    | error e =>
      rw [hmore] at hrest
      exact hrest
    | ok sts =>
      rw [hmore] at hrest
      exact ⟨by simp [hrest.1], hrest.2⟩
  | case5 after s c rest hs hc =>
    have hlines : skipLines false s = c :: rest := by
      rw [skipLines_eq, hs]
      simp [hc]
    have hnone : line.run skip (skip t) = none := by
      refine run_line_of_not_endsLine fun h => ?_
      rw [ht, hs] at h
      exact hc (h c rfl)
    rw [hend hnone, hsame, hlines]
    simp

/-- The count at the start of a description. -/
lemma run_nodes (s : List Char) : nodes.run skip s = (dropWord nodesWord s).bind fun rest =>
    match numeral rest with
    | .ok (n, left) => some ([.node .nodes [n.pair]], left)
    | .error _ => none := by
  rw [nodes, run_rule_word]
  congr 1
  funext rest
  rw [run_number_skip]
  cases numeral rest <;> rfl

/-- The lines of a description match if the reader accepts them. -/
lemma run_lines (s : List Char) :
    (seq (many line) (seq (many newline) (rule .ending ending))).run skip (skip s) =
      match statements .ending s with
      | .ok sts => some (sts.map Statement.pair ++ [.node .ending []], [])
      | .error _ => none := by
  obtain ⟨t, hmany, ht⟩ := run_many_skip (fun _ _ _ => length_run_line_lt) s
  obtain ⟨u, hnewlines, hu⟩ := run_many_newline t
  have hlines := again_line .ending s s rfl
  rw [skipLines_eq, ht, ← skipLines_eq] at hu
  rw [run_seq_of_some hmany, run_seq_of_some hnewlines, hu]
  cases hread : statements .ending s with
  | error e =>
    rw [hread] at hlines
    simp only at hlines
    rw [run, run, if_neg hlines]
    rfl
  | ok sts =>
    rw [hread] at hlines
    rw [hlines.1, hlines.2]
    rfl

/-- **The grammar and the reader agree.** The grammar matches exactly the texts that the reader
accepts, and its match is the tree of the document that is read. -/
theorem run_graph (s : List Char) : graph.run skipped s =
    match read s with
    | .ok d => some ([d.pair], [])
    | .error _ => none := by
  obtain ⟨t, hnewlines, ht⟩ := run_many_newline s
  have hstart : (word []).run skip s = some ([], s) := rfl
  rw [skipped_eq, graph, run, run_seq_of_some hstart, run_seq_of_some hnewlines, ht]
  have hnodes := run_nodes (skipLines false s)
  unfold read
  dsimp only
  cases hw : dropWord nodesWord (skipLines false s) with
  | none =>
    rw [hw] at hnodes
    rw [run_seq_of_none hnodes]
    rfl
  | some rest =>
    rw [hw, Option.bind_some] at hnodes
    dsimp only
    cases hn : numeral rest with
    | error e =>
      rw [hn] at hnodes
      rw [run_seq_of_none hnodes]
      rfl
    | ok found =>
      obtain ⟨n, left⟩ := found
      rw [hn] at hnodes
      rw [run_seq_of_some hnodes, run_lines]
      dsimp only
      cases statements .ending left <;> rfl

end Grammar

end PartialRedundancy.GraphText
