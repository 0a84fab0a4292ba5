import PartialRedundancy.Proofs.GraphText.Grammar
import PartialRedundancy.Proofs.GraphText.Rest

/-!
# Failed attempts

A grammar tries alternatives and gives them up again, so a text that it does not match is left at
many places. The failure is reported at the furthest place where a rule was tried and did not match,
together with the rules that were tried there. A word is no rule, and nothing is tried within a
token.

## Main definitions

* `Attempts` — the furthest place where rules did not match, and these rules.
* `Attempts.fail` — what is known after a rule did not match.
* `Expression.attempts` — what is known after an expression was tried at the start of a text.
* `Expected.rules` — the rules that are expected at a failure.

## Main results

* `Expression.attempts_of_ruleless` — without rules nothing is recorded.
* `Grammar.attempts_statement`, `Grammar.attemptsMany_line` — what is known after a statement, and
  after all lines.
* `Grammar.attempts_graph` — the furthest failed attempts are where the reader fails, and they are
  those of the rules that it expects there.

## Design

Places are compared by the length of the text that is left. After a list of numbers the number that
might have followed is known as a failed attempt at the end of the line, and after an edge nothing
is. In both cases the end of the text can be added to what is known, and this gives what the reader
expects there; that is the invariant of the lines.
-/

namespace PartialRedundancy.GraphText

/-! ## What is known -/

/-- The furthest place where rules were tried and did not match: the text from there on, and the
rules, in the order in which they were tried. -/
structure Attempts where
  /-- The text from the place on. -/
  rest : List Char
  /-- The rules that did not match there. -/
  rules : List Rule

namespace Attempts

/-- How many rules did not match at the start of a text. -/
def countAt (A : Attempts) (s : List Char) : Nat :=
  if A.rest.length = s.length then A.rules.length else 0

/-- What is known after rule `r` did not match at the start of `s`, if `old` was known before it was
tried, and `new` is known from the rules within it. At the same place `r` replaces the rules within
it, unless there is exactly one of them. -/
def fail (r : Rule) (s : List Char) (old new : Attempts) : Attempts :=
  if new.countAt s = old.countAt s + 1 then new
  else if new.rest.length < s.length then new
  else if new.rest.length = s.length then ⟨s, new.rules.take (old.countAt s) ++ [r]⟩
  else ⟨s, [r]⟩

/-- What is known after a rule without rules within it did not match. -/
def add (A : Attempts) (r : Rule) (s : List Char) : Attempts := fail r s A A

variable {A old new : Attempts} {r : Rule} {s : List Char}

/-- A place that is further is what counts. -/
lemma fail_of_lt (h : new.rest.length < s.length) : fail r s old new = new := by
  unfold fail
  rw [if_pos h, ite_self]

/-- Nothing is added in front of the furthest place. -/
lemma add_of_lt (h : A.rest.length < s.length) : A.add r s = A := fail_of_lt h

/-- A rule that does not match behind the furthest place makes a new one. -/
lemma add_of_gt (h : s.length < A.rest.length) : A.add r s = ⟨s, [r]⟩ := by
  unfold add fail
  rw [if_neg (Nat.succ_ne_self _).symm, if_neg h.not_gt, if_neg h.ne']

/-- At the furthest place one rule after the other is added. -/
@[simp] lemma add_mk (s : List Char) (rs : List Rule) (r : Rule) :
    (mk s rs).add r s = ⟨s, rs ++ [r]⟩ := by
  simp [add, fail, countAt]

/-- The first rule that does not match makes a new place. -/
lemma add_of_rules_eq_nil (hA : A.rules = []) (h : s.length ≤ A.rest.length) :
    A.add r s = ⟨s, [r]⟩ := by
  rcases h.lt_or_eq with hlt | heq
  · exact add_of_gt hlt
  · obtain ⟨rest, rules⟩ := A
    cases hA
    simp only at heq
    simp [add, fail, countAt, heq]

/-- A single rule that did not match stands for the first rule around it. -/
lemma fail_mk_singleton {r' : Rule} {t : List Char} (hold : old.rules = [])
    (h : t.length ≤ s.length) : fail r s old ⟨t, [r']⟩ = ⟨t, [r']⟩ := by
  rcases h.lt_or_eq with hlt | heq
  · exact fail_of_lt hlt
  · unfold fail
    rw [if_pos]
    simp [countAt, heq, hold]

/-- Where something is added, the furthest place is not behind. -/
lemma length_le_of_add {rs : List Rule} (h : A.add r s = ⟨s, rs⟩) :
    s.length ≤ A.rest.length := by
  by_contra hlt
  rw [add_of_lt (Nat.lt_of_not_le hlt)] at h
  subst h
  exact hlt (Nat.le_refl _)

end Attempts

/-- What is known after a repetition of `f`, where `g` gives what is known after each round. -/
def attemptsAgain (f : Matcher) (g : List Char → Attempts → Attempts) (s : List Char)
    (old : Attempts) : Attempts :=
  match f s with
  | none => g s old
  | some (_, rest) => if rest.length < s.length then attemptsAgain f g rest (g s old) else g s old
termination_by s.length

namespace Expression

/-- What is known after an expression was tried at the start of a text, if `old` was known before.
Nothing is recorded within a token, nor within what must not match: there are no rules in it. -/
def attempts : Expression → (between : List Char → List Char) → List Char → Attempts → Attempts
  | word _, _, _, old => old
  | char _, _, _, old => old
  | ending, _, _, old => old
  | seq a b, between, s, old =>
    match a.run between s with
    | none => a.attempts between s old
    | some (_, rest) => b.attempts between (between rest) (a.attempts between s old)
  | choice a b, between, s, old =>
    match a.run between s with
    | none => b.attempts between s (a.attempts between s old)
    | some _ => a.attempts between s old
  | many a, between, s, old =>
    match a.run between s with
    | none => a.attempts between s old
    | some (_, rest) =>
      attemptsAgain (fun t => a.run between (between t)) (fun t => a.attempts between (between t))
        rest (a.attempts between s old)
  | absent _, _, _, old => old
  | rule r a, between, s, old =>
    match a.run between s with
    | none => .fail r s old (a.attempts between s old)
    | some _ => a.attempts between s old
  | token r a, _, s, old =>
    match a.run id s with
    | none => old.add r s
    | some _ => old

/-- What is known after a repetition that skips before every round. -/
def attemptsMany (a : Expression) (between : List Char → List Char) (s : List Char)
    (old : Attempts) : Attempts :=
  attemptsAgain (fun t => a.run between (between t)) (fun t => a.attempts between (between t)) s old

/-- There is no rule within an expression. -/
def ruleless : Expression → Bool
  | word _ => true
  | char _ => true
  | ending => true
  | seq a b => a.ruleless && b.ruleless
  | choice a b => a.ruleless && b.ruleless
  | many a => a.ruleless
  | absent a => a.ruleless
  | rule _ _ => false
  | token _ _ => false

end Expression

/-- The rules that are expected at a failure, in the order in which they are tried. -/
def Expected.rules : Expected → List Rule
  | nodes => [.nodes]
  | number => [.number]
  | ending => [.ending]
  | endingOrNumber => [.number, .ending]
  | endingOrStatement => [.edge, .used, .killed, .ending]

variable {f : Matcher} {g : List Char → Attempts → Attempts} {s t rest : List Char}
  {ps : List Pair} {old : Attempts}

/-! ## Expressions -/

namespace Expression

variable {a b : Expression} {between : List Char → List Char} {r : Rule}

/-- A repetition ends with the round that does not match. -/
lemma attemptsMany_of_none (h : a.run between (between s) = none) :
    a.attemptsMany between s old = a.attempts between (between s) old := by
  rw [attemptsMany, attemptsAgain, h]

/-- A repetition goes on after a match. -/
lemma attemptsMany_of_some (h : a.run between (between s) = some (ps, rest))
    (hlt : rest.length < s.length) :
    a.attemptsMany between s old =
      a.attemptsMany between rest (a.attempts between (between s) old) := by
  rw [attemptsMany, attemptsAgain, h]
  simp only
  rw [if_pos hlt]
  rfl

/-- If no round adds anything, then the repetition does not. -/
lemma attemptsAgain_eq (hg : ∀ t A, g t A = A) (s : List Char) (old : Attempts) :
    attemptsAgain f g s old = old := by
  fun_induction attemptsAgain f g s old with
  | case1 s old h => exact hg s old
  | case2 s old ps rest h hlt ih => exact ih.trans (hg s old)
  | case3 s old ps rest h hlt => exact hg s old

/-- Without rules nothing is recorded. -/
lemma attempts_of_ruleless (h : a.ruleless = true) (s : List Char) (old : Attempts) :
    a.attempts between s old = old := by
  induction a generalizing s old with
  | word w => rfl
  | char p => rfl
  | ending => rfl
  | seq a b iha ihb =>
    obtain ⟨ha, hb⟩ := Bool.and_eq_true_iff.mp h
    rw [attempts, iha ha]
    split
    · rfl
    · exact ihb hb _ _
  | choice a b iha ihb =>
    obtain ⟨ha, hb⟩ := Bool.and_eq_true_iff.mp h
    rw [attempts, iha ha]
    split
    · exact ihb hb _ _
    · rfl
  | many a iha =>
    rw [attempts, iha h]
    split
    · rfl
    · exact attemptsAgain_eq (fun t A => iha h _ A) _ _
  | absent a _ => rfl
  | rule r a _ => cases h
  | token r a _ => cases h

/-- A sequence ends with its first part if that does not match. -/
lemma attempts_seq_of_none (h : a.run between s = none) :
    (seq a b).attempts between s old = a.attempts between s old := by
  rw [attempts, h]

/-- A sequence goes on with its second part. -/
lemma attempts_seq_of_some (h : a.run between s = some (ps, rest)) :
    (seq a b).attempts between s old =
      b.attempts between (between rest) (a.attempts between s old) := by
  rw [attempts, h]

/-- What is known before a sequence is known before its second part, if there are no rules in the
first one. -/
lemma attempts_seq_of_ruleless (ha : a.ruleless = true) (h : a.run between s = some (ps, rest)) :
    (seq a b).attempts between s old = b.attempts between (between rest) old := by
  rw [attempts_seq_of_some h, attempts_of_ruleless ha]

/-- A choice goes on with its second expression if the first one does not match. -/
lemma attempts_choice_of_none (h : a.run between s = none) :
    (choice a b).attempts between s old = b.attempts between s (a.attempts between s old) := by
  rw [attempts, h]

/-- A choice is settled by its first expression. -/
lemma attempts_choice_of_some (h : a.run between s = some (ps, rest)) :
    (choice a b).attempts between s old = a.attempts between s old := by
  rw [attempts, h]

/-- A rule that does not match is recorded. -/
lemma attempts_rule_of_none (h : (rule r a).run between s = none) :
    (rule r a).attempts between s old = .fail r s old (a.attempts between s old) := by
  rw [run] at h
  rw [attempts]
  cases ha : a.run between s with
  | none => rfl
  | some found => rw [ha] at h; cases h

/-- A rule that matches is not recorded. -/
lemma attempts_rule_of_some (h : (rule r a).run between s = some (ps, rest)) :
    (rule r a).attempts between s old = a.attempts between s old := by
  rw [run] at h
  rw [attempts]
  cases ha : a.run between s with
  | none => rw [ha] at h; cases h
  | some found => rfl

/-- A repetition after a skip is one that skips before every round. -/
lemma attempts_many
    (hlt : ∀ ps rest, a.run between (between s) = some (ps, rest) → rest.length < s.length) :
    (many a).attempts between (between s) old = a.attemptsMany between s old := by
  rw [attempts]
  cases h : a.run between (between s) with
  | none => exact (attemptsMany_of_none h).symm
  | some found => exact (attemptsMany_of_some h (hlt found.1 found.2 h)).symm

end Expression

namespace Grammar

open Expression

/-! ## Numbers -/

/-- Where a number is missing, it is what is expected. -/
lemma eq_of_numeral_eq_error {e : Rejection} (h : numeral s = .error e) :
    e = ⟨skip s, .number⟩ := by
  unfold numeral at h
  split at h <;> cases h
  rfl

/-- A number that is missing is recorded. -/
lemma attempts_number (s : List Char) (old : Attempts) :
    number.attempts skip (skip s) old = match numeral s with
      | .ok _ => old
      | .error _ => old.add .number (skip s) := by
  have hrun := run_number_skip skip s
  rw [number, run] at hrun
  rw [number, attempts]
  cases hdigits : (many1 (char Char.isDigit)).run id (skip s) with
  | none =>
    rw [hdigits] at hrun
    cases hn : numeral s with
    | ok found => rw [hn] at hrun; cases hrun
    | error e => rfl
  | some found =>
    rw [hdigits] at hrun
    cases hn : numeral s with
    | ok found => rfl
    | error e => rw [hn] at hrun; cases hrun

/-- A number that is missing further than anything before is all that is known. -/
lemma attempts_number_of_error {e : Rejection} (h : numeral s = .error e)
    (hold : s.length < old.rest.length) :
    number.attempts skip (skip s) old = ⟨e.rest, [.number]⟩ := by
  rw [attempts_number, h, eq_of_numeral_eq_error h]
  exact Attempts.add_of_gt ((length_skip_le s).trans_lt hold)

/-- A number and what follows it. -/
lemma attempts_number_seq (e : Expression) (hold : s.length < old.rest.length) :
    (seq number e).attempts skip (skip s) old = match numeral s with
      | .error e => ⟨e.rest, [.number]⟩
      | .ok found => e.attempts skip (skip found.2) old := by
  have hrun := run_number_skip skip s
  cases hn : numeral s with
  | error e =>
    rw [hn] at hrun
    rw [attempts_seq_of_none hrun, attempts_number_of_error hn hold]
  | ok found =>
    rw [hn] at hrun
    rw [attempts_seq_of_some hrun, attempts_number, hn]

/-- After the numbers of a list one more number is missing. -/
lemma attemptsMany_number (s : List Char) (old : Attempts) (hold : s.length < old.rest.length) :
    number.attemptsMany skip s old = ⟨skip (numerals s).2, [.number]⟩ := by
  fun_induction numerals s with
  | case1 s n rest h more left hml ih =>
    have hstep : number.run skip (skip s) = some ([n.pair], rest) := by rw [run_number_skip, h]
    have hlt : rest.length < s.length := length_numeral_lt h
    rw [attemptsMany_of_some hstep hlt, attempts_number, h, ih (hlt.trans hold), hml]
  | case2 s e h =>
    have hstep : number.run skip (skip s) = none := by rw [run_number_skip, h]
    rw [attemptsMany_of_none hstep, attempts_number_of_error h hold, eq_of_numeral_eq_error h]

/-! ## Statements -/

/-- A word and what follows it. -/
lemma attempts_word_seq (w : List Char) (e : Expression) (s : List Char) (old : Attempts) :
    (seq (word w) e).attempts skip s old = match dropWord w s with
      | none => old
      | some rest => e.attempts skip (skip rest) old := by
  cases hw : dropWord w s with
  | none =>
    have hword : (word w).run skip s = none := by rw [run, hw]; rfl
    rw [attempts_seq_of_none hword]
    rfl
  | some rest =>
    have hword : (word w).run skip s = some ([], rest) := by rw [run, hw]; rfl
    rw [attempts_seq_of_ruleless rfl hword]

/-- A word uses up text. -/
lemma length_lt_of_dropWord {c : Char} {w : List Char} (h : dropWord (c :: w) s = some rest) :
    rest.length < s.length := by
  rw [dropWord_eq_some_iff.mp h, List.length_append, List.length_cons]
  omega

/-- Where a number is missing, it is not in front of the text that is left. -/
lemma length_le_of_numeral_eq_error {e : Rejection} (h : numeral s = .error e) :
    e.rest.length ≤ s.length := by
  rw [eq_of_numeral_eq_error h]
  exact length_skip_le s

/-- What is known after no statement was found: either nothing but that the rules `rs` did not match
at its start, or that a number is missing further on. -/
def Missing (s : List Char) (rs : List Rule) (e : Rejection) (A : Attempts) : Prop :=
  (e = ⟨s, .endingOrStatement⟩ ∧ A = ⟨s, rs⟩) ∨
    (e.expected = .number ∧ e.rest.length < s.length ∧ A = ⟨e.rest, [.number]⟩)

/-- Where a number is missing within a rule, this is known and the rule is not recorded. -/
lemma attempts_rule_of_error {r : Rule} {a : Expression} {e : Rejection}
    (hrun : (rule r a).run skip s = none) (he : numeral t = .error e) (ht : t.length < s.length)
    (hA : a.attempts skip s old = ⟨e.rest, [.number]⟩) :
    (rule r a).attempts skip s old = ⟨e.rest, [.number]⟩ := by
  rw [attempts_rule_of_none hrun, hA]
  exact Attempts.fail_of_lt ((length_le_of_numeral_eq_error he).trans_lt ht)

/-- Where a number is missing within a statement, this is all that is known. -/
lemma Missing.of_numeral {rs : List Rule} {e : Rejection} {A : Attempts}
    (he : numeral t = .error e) (ht : t.length < s.length) (hA : A = ⟨e.rest, [.number]⟩) :
    Missing s rs e A := by
  obtain rfl := eq_of_numeral_eq_error he
  exact Or.inr ⟨rfl, (length_skip_le t).trans_lt ht, hA⟩

/-- One more rule that does not match at the start counts only if no number is missing. -/
lemma Missing.add {rs : List Rule} {e : Rejection} {A : Attempts} (h : Missing s rs e A)
    (r : Rule) : Missing s (rs ++ [r]) e (A.add r s) := by
  rcases h with ⟨he, rfl⟩ | ⟨he, hlt, rfl⟩
  · exact Or.inl ⟨he, Attempts.add_mk s rs r⟩
  · exact Or.inr ⟨he, hlt, Attempts.add_of_lt hlt⟩

/-- What is known when all is tried agrees with what the reader expects. -/
lemma Missing.eq {e : Rejection} {A : Attempts}
    (h : Missing s Expected.endingOrStatement.rules e A) : A = ⟨e.rest, e.expected.rules⟩ := by
  rcases h with ⟨rfl, rfl⟩ | ⟨he, _, rfl⟩
  · rfl
  · rw [he]
    rfl

/-- What is known after a statement was tried. If there is none, then only the rules `rs` were tried
at its start. If there is one, then this and the end of the text are what the reader expects after
it. -/
def Known (s : List Char) (rs : List Rule) (found : Except Rejection (Statement × List Char))
    (A : Attempts) : Prop :=
  match found with
  | .error e => Missing s rs e A
  | .ok (st, left) => A.add .ending (skip left) = ⟨skip left, st.continuation.rules⟩

/-- A choice goes on only if its first expression finds no statement. -/
lemma Known.choice {a b : Expression} {rs rs' : List Rule}
    {found : Except Rejection (Statement × List Char)} (hmatch : Matches a s found.toOption)
    (ha : Known s rs found (a.attempts skip s old))
    (hb : ∀ e A, Missing s rs e A → Missing s rs' e (b.attempts skip s A)) :
    Known s rs' found ((Expression.choice a b).attempts skip s old) := by
  cases found with
  | error e =>
    have hattempts : (Expression.choice a b).attempts skip s old = _ :=
      attempts_choice_of_none hmatch
    rw [hattempts]
    exact hb e _ ha
  | ok found =>
    obtain ⟨t, ht, -⟩ := hmatch
    have hattempts : (Expression.choice a b).attempts skip s old = _ := attempts_choice_of_some ht
    rw [hattempts]
    exact ha

/-- A rule does not match where its word is missing. -/
lemma attempts_rule_of_dropWord {r : Rule} {w : List Char} {e : Expression}
    (h : dropWord w s = none) : (rule r (seq (word w) e)).attempts skip s old = old.add r s := by
  have hrun : (rule r (seq (word w) e)).run skip s = _ := run_rule_word r w e s
  rw [h] at hrun
  rw [attempts_rule_of_none hrun, attempts_word_seq, h]
  rfl

/-- What is known after a list was tried. -/
lemma attempts_list {r : Rule} {make : Numeral → List Numeral → Statement}
    (hmake : ∀ n ns, (make n ns).pair = .node r (n.pair :: ns.map Numeral.pair))
    (hcontinue : ∀ n ns, (make n ns).continuation = .endingOrNumber) {c : Char} {w : List Char}
    (h : dropWord (c :: w) s = some rest) (hold : s.length ≤ old.rest.length) (rs : List Rule) :
    Known s rs (listStatement make rest) ((list r (c :: w)).attempts skip s old) := by
  have hlt : rest.length < s.length := length_lt_of_dropWord h
  have hrest : rest.length < old.rest.length := hlt.trans_le hold
  have hinner : (seq (word (c :: w)) (many1 number)).attempts skip s old =
      match numeral rest with
      | .error e => ⟨e.rest, [.number]⟩
      | .ok found => (many number).attempts skip (skip found.2) old := by
    rw [attempts_word_seq, h]
    exact attempts_number_seq _ hrest
  have hmatch := matches_list hmake (c :: w) s
  rw [h, Option.bind_some] at hmatch
  unfold listStatement at hmatch ⊢
  cases hn : numeral rest with
  | error e =>
    rw [hn] at hmatch hinner
    exact Missing.of_numeral hn hlt (attempts_rule_of_error hmatch hn hlt hinner)
  | ok found =>
    obtain ⟨n, left⟩ := found
    rw [hn] at hmatch hinner
    obtain ⟨t, ht, -⟩ := hmatch
    simp only at hinner
    rw [attempts_many fun _ _ h => (length_run_number_lt h).trans_le (length_skip_le left),
      attemptsMany_number left old ((length_numeral_lt hn).trans hrest)] at hinner
    have hfound : (list r (c :: w)).attempts skip s old = ⟨skip (numerals left).2, [.number]⟩ :=
      (attempts_rule_of_some ht).trans hinner
    simp only [Known]
    rw [hfound, Attempts.add_mk, hcontinue]
    rfl

/-- What is known after an edge was tried.

**Proof sketch.** The numbers and the arrow are gone through one after the other. Where one of the
numbers is missing, this is further than the start of the edge; where the arrow is missing, nothing
is recorded there, and the edge itself is. -/
lemma attempts_edge (h : dropWord edgeWord s = some rest) (hold : s.length < old.rest.length) :
    Known s [.edge] (edgeStatement s rest) (edge.attempts skip s old) := by
  have hlt : rest.length < s.length := length_lt_of_dropWord h
  have hrest : rest.length < old.rest.length := hlt.trans hold
  have hinner :
      (seq (word edgeWord) (seq number (seq (word arrowWord) number))).attempts skip s old =
      match numeral rest with
      | .error e => ⟨e.rest, [.number]⟩
      | .ok found => (seq (word arrowWord) number).attempts skip (skip found.2) old := by
    rw [attempts_word_seq, h]
    exact attempts_number_seq _ hrest
  have hmatch := matches_edge s
  rw [h, Option.bind_some] at hmatch
  unfold edgeStatement at hmatch ⊢
  cases hm : numeral rest with
  | error e =>
    rw [hm] at hmatch hinner
    exact Missing.of_numeral hm hlt (attempts_rule_of_error hmatch hm hlt hinner)
  | ok found =>
    obtain ⟨m, left⟩ := found
    rw [hm] at hmatch hinner
    simp only at hmatch hinner ⊢
    rw [attempts_word_seq arrowWord] at hinner
    cases ha : dropWord arrowWord (skip left) with
    | none =>
      rw [ha] at hmatch hinner
      refine Or.inl ⟨rfl, ?_⟩
      rw [edge, attempts_rule_of_none hmatch, hinner]
      exact Attempts.add_of_gt hold
    | some rest' =>
      have hle : rest'.length ≤ rest.length :=
        (length_dropWord_le ha).trans ((length_skip_le left).trans (length_numeral_lt hm).le)
      have hlt' : rest'.length < s.length := hle.trans_lt hlt
      rw [ha] at hmatch hinner
      simp only at hmatch hinner ⊢
      cases hn : numeral rest' with
      | error e =>
        rw [hn] at hmatch
        rw [attempts_number_of_error hn (hle.trans_lt hrest)] at hinner
        exact Missing.of_numeral hn hlt' (attempts_rule_of_error hmatch hn hlt' hinner)
      | ok found =>
        obtain ⟨n, left'⟩ := found
        have hleft : left'.length < rest'.length := length_numeral_lt hn
        rw [hn] at hmatch
        rw [attempts_number, hn] at hinner
        obtain ⟨t, ht, -⟩ := hmatch
        have hA : edge.attempts skip s old = old := (attempts_rule_of_some ht).trans hinner
        rw [hA]
        exact Attempts.add_of_gt ((length_skip_le left').trans_lt
          (hleft.trans (hle.trans_lt hrest)))

/-- What is known after a statement was tried. -/
lemma attempts_statement (s : List Char) (old : Attempts) (hold : s.length < old.rest.length) :
    Known s [.edge, .used, .killed] (GraphText.statement s) (statement.attempts skip s old) := by
  -- where its word is missing, a list does not match, and this is recorded
  have hnone (r : Rule) {w : List Char} (hw : dropWord w s = none) :
      (list r w).run skip s = none := by
    have hrun : (list r w).run skip s = _ := run_rule_word _ _ _ s
    rwa [hw] at hrun
  have hadd (r : Rule) {w : List Char} (A : Attempts) (hw : dropWord w s = none) :
      (list r w).attempts skip s A = A.add r s := attempts_rule_of_dropWord hw
  unfold GraphText.statement
  cases hedge : dropWord edgeWord s with
  | some rest =>
    -- no list starts with the word of an edge
    have hused : dropWord usedWord s = none := by rw [dropWord_eq_some_iff.mp hedge]; rfl
    have hkilled : dropWord killedWord s = none := by rw [dropWord_eq_some_iff.mp hedge]; rfl
    have hmatch := matches_edge s
    rw [hedge, Option.bind_some] at hmatch
    refine .choice hmatch (attempts_edge hedge hold) fun e A h => ?_
    rw [attempts_choice_of_none (hnone .used hused), hadd .used _ hused, hadd .killed _ hkilled]
    exact (h.add .used).add .killed
  | none =>
    have hA : edge.attempts skip s old = ⟨s, [.edge]⟩ :=
      (attempts_rule_of_dropWord hedge).trans (Attempts.add_of_gt hold)
    have hrun : edge.run skip s = none := by
      have hrun : edge.run skip s = _ := run_rule_word _ _ _ s
      rwa [hedge] at hrun
    simp only
    rw [statement, attempts_choice_of_none hrun, hA]
    cases hused : dropWord usedWord s with
    | some rest =>
      have hkilled : dropWord killedWord s = none := by rw [dropWord_eq_some_iff.mp hused]; rfl
      have hmatch : Matches (list .used usedWord) s ((dropWord usedWord s).bind fun rest =>
          (listStatement .used rest).toOption) := matches_list (fun _ _ => rfl) usedWord s
      rw [hused, Option.bind_some] at hmatch
      refine .choice hmatch (attempts_list (fun _ _ => rfl) (fun _ _ => rfl) hused (Nat.le_refl _)
        [.edge, .used]) fun e A h => ?_
      rw [hadd .killed _ hkilled]
      exact h.add .killed
    | none =>
      rw [attempts_choice_of_none (hnone .used hused), hadd .used _ hused, Attempts.add_mk]
      cases hkilled : dropWord killedWord s with
      | some rest =>
        exact attempts_list (fun _ _ => rfl) (fun _ _ => rfl) hkilled (Nat.le_refl _) _
      | none =>
        rw [hadd .killed _ hkilled]
        exact Or.inl ⟨rfl, Attempts.add_mk _ _ _⟩

/-! ## Lines -/

/-- Where a line ends and the text goes on, a statement is tried behind the line ends. -/
lemma attempts_line {c : Char} (hs : skip s = c :: rest) (hc : isLineEnd c = true)
    (old : Attempts) :
    line.attempts skip (skip s) old = statement.attempts skip (skipLines false s) old := by
  obtain ⟨t, hfirst, ht⟩ := run_many1_newline hs hc
  rw [line, attempts_seq_of_ruleless rfl hfirst, ht]

/-- Where no line ends, nothing is tried. -/
lemma attempts_line_of_not_endsLine (h : ¬ EndsLine s) (old : Attempts) :
    line.attempts skip s old = old := by
  rw [line, attempts_seq_of_none (run_many1_newline_of_not_endsLine h)]
  exact attempts_of_ruleless rfl _ _

/-- Behind a line end the next statement is further than what is known. -/
lemma length_line_lt {c : Char} {line : List Char} {A : Attempts} {r : Rule} {rs : List Rule}
    (hA : A.add r (skip s) = ⟨skip s, rs⟩) (hs : skip s = c :: rest)
    (hl : skipLines false rest = line) : line.length < A.rest.length := by
  have hle := length_skipLines_le false rest
  have hplace := Attempts.length_le_of_add hA
  rw [hl] at hle
  rw [hs, List.length_cons] at hplace
  omega

/-- After all lines the end of the text is tried, and if the reader fails, then what is known is
where it fails and what it expects there.

**Proof sketch.** Induction along the reader. At the end of each line the end of the text can be
added to what is known, and that gives what the reader expects there. So if no line ends there, this
is what is known, and else what is known of the next statement is further. -/
lemma attemptsMany_line {after : Expected} {e : Rejection} (s t : List Char) (A : Attempts)
    (ht : skip t = skip s) (hA : A.add .ending (skip s) = ⟨skip s, after.rules⟩)
    (h : statements after s = .error e) :
    (line.attemptsMany skip t A).add .ending
      (skipLines false (again (fun u => line.run skip (skip u)) t).2) =
        ⟨e.rest, e.expected.rules⟩ := by
  have hsame : skipLines false t = skipLines false s := by
    rw [skipLines_eq, ht, ← skipLines_eq]
  -- where there is no further line, the repetition ends at `t`
  have hend (h : line.run skip (skip t) = none) :
      again (fun u => line.run skip (skip u)) t = ([], t) := again_of_none h
  fun_induction statements after s generalizing t A with
  | case1 after s hs => cases h
  | case2 after s c rest hs hc hl => cases h
  | case3 after s c rest hs hc d more hl e' hst =>
    cases h
    have hlines : skipLines false s = d :: more := by
      rw [skipLines_eq, hs]
      simp [hc, hl]
    have hmatch := matches_line ht (by rw [hs]; simpa [EndsLine] using hc)
    rw [hlines, hst] at hmatch
    have hknown := attempts_statement (d :: more) A (length_line_lt hA hs hl)
    rw [hst] at hknown
    rw [hend hmatch, hsame, hlines, attemptsMany_of_none hmatch, ht, attempts_line hs hc, hlines]
    exact (Missing.add hknown .ending).eq
  | case4 after s c rest hs hc d more hl st left hst ih =>
    have hlines : skipLines false s = d :: more := by
      rw [skipLines_eq, hs]
      simp [hc, hl]
    have hmatch := matches_line ht (by rw [hs]; simpa [EndsLine] using hc)
    rw [hlines, hst] at hmatch
    obtain ⟨u, hu, hskip⟩ := hmatch
    have hlt : u.length < t.length := (length_run_line_lt hu).trans_le (length_skip_le t)
    have hstep : again (fun u => line.run skip (skip u)) t = ([st.pair] ++ _, _) :=
      again_of_some hu hlt
    have hknown := attempts_statement (d :: more) A (length_line_lt hA hs hl)
    rw [hst] at hknown
    rw [hstep, attemptsMany_of_some hu hlt, ht, attempts_line hs hc, hlines]
    cases hmore : statements st.continuation left with
    | ok sts => rw [hmore] at h; cases h
    | error e' =>
      rw [hmore] at h
      cases h
      exact ih u _ hskip hknown hmore (by rw [skipLines_eq, hskip, ← skipLines_eq])
        fun h => again_of_none h
  | case5 after s c rest hs hc =>
    cases h
    have hlines : skipLines false s = c :: rest := by
      rw [skipLines_eq, hs]
      simp [hc]
    have hnot : ¬ EndsLine (skip t) := by
      intro h
      rw [ht, hs] at h
      exact hc (h c rfl)
    have hnone : line.run skip (skip t) = none := run_line_of_not_endsLine hnot
    rw [hend hnone, hsame, hlines, attemptsMany_of_none hnone, attempts_line_of_not_endsLine hnot,
      ← hs]
    exact hA

/-! ## Whole texts -/

/-- What is known after the count was tried. -/
lemma attempts_nodes (s : List Char) (hrules : old.rules = [])
    (hold : s.length ≤ old.rest.length) :
    nodes.attempts skip s old = match dropWord nodesWord s with
      | none => ⟨s, [.nodes]⟩
      | some rest => match numeral rest with
        | .error e => ⟨e.rest, [.number]⟩
        | .ok _ => old := by
  have hrun := run_nodes s
  cases hw : dropWord nodesWord s with
  | none =>
    rw [nodes, attempts_rule_of_dropWord hw]
    exact Attempts.add_of_rules_eq_nil hrules hold
  | some rest =>
    have hlt : rest.length < s.length := length_lt_of_dropWord hw
    have hinner := attempts_word_seq nodesWord number s old
    rw [hw] at hrun hinner
    rw [Option.bind_some] at hrun
    simp only at hinner ⊢
    cases hn : numeral rest with
    | error e =>
      rw [hn] at hrun
      rw [attempts_number_of_error hn (hlt.trans_le hold)] at hinner
      exact attempts_rule_of_error hrun hn hlt hinner
    | ok found =>
      rw [hn] at hrun
      rw [attempts_number, hn] at hinner
      exact (attempts_rule_of_some hrun).trans hinner

/-- What is known after the lines of a description, if the reader fails in them. -/
lemma attempts_lines {e : Rejection} (hold : s.length < old.rest.length)
    (h : statements .ending s = .error e) :
    (seq (many line) (seq (many newline) (rule .ending ending))).attempts skip (skip s) old =
      ⟨e.rest, e.expected.rules⟩ := by
  have hA : old.add .ending (skip s) = ⟨skip s, Expected.ending.rules⟩ :=
    Attempts.add_of_gt ((length_skip_le s).trans_lt hold)
  have hlines := attemptsMany_line s s old rfl hA h
  have hleft := again_line .ending s s rfl
  rw [h] at hleft
  obtain ⟨t, hmany, ht⟩ := run_many_skip (fun _ _ _ => length_run_line_lt) s
  obtain ⟨u, hnewlines, hu⟩ := run_many_newline t
  rw [skipLines_eq, ht, ← skipLines_eq] at hu
  have hend : (rule .ending ending).run skip (skip u) = none := by
    rw [hu, run, run, if_neg hleft]
  rw [attempts_seq_of_some hmany, attempts_seq_of_ruleless rfl hnewlines,
    attempts_many fun _ _ h => (length_run_line_lt h).trans_le (length_skip_le s),
    attempts_rule_of_none hend, hu]
  exact hlines

/-- **The reader fails at the furthest failed attempt.** If a text is no description, then the
furthest place where the grammar tried rules that did not match is where the reader fails, and the
rules that were tried there are those that it expects. -/
theorem attempts_graph {e : Rejection} (h : read s = .error e) :
    graph.attempts skipped s ⟨s, []⟩ = ⟨e.rest, e.expected.rules⟩ := by
  have hrun := run_graph s
  rw [h] at hrun
  rw [skipped_eq] at hrun ⊢
  rw [graph, attempts_rule_of_none hrun]
  obtain ⟨t, hnewlines, ht⟩ := run_many_newline s
  have hstart : (word []).run skip s = some ([], s) := rfl
  rw [attempts_seq_of_ruleless rfl hstart, attempts_seq_of_ruleless rfl hnewlines, ht]
  have hle := length_skipLines_le false s
  have hattempts : nodes.attempts skip (skipLines false s) ⟨s, []⟩ = _ :=
    attempts_nodes (skipLines false s) rfl hle
  have hnodes := run_nodes (skipLines false s)
  unfold read at h
  simp only at h
  cases hw : dropWord nodesWord (skipLines false s) with
  | none =>
    rw [hw] at h hnodes hattempts
    cases h
    rw [attempts_seq_of_none hnodes, hattempts]
    exact Attempts.fail_mk_singleton rfl hle
  | some rest =>
    have hlt : rest.length < s.length := (length_lt_of_dropWord hw).trans_le hle
    rw [hw] at h hnodes hattempts
    rw [Option.bind_some] at hnodes
    simp only at h hattempts
    cases hn : numeral rest with
    | error e' =>
      rw [hn] at h hnodes hattempts
      cases h
      rw [attempts_seq_of_none hnodes, hattempts]
      rw [eq_of_numeral_eq_error hn]
      exact Attempts.fail_of_lt ((length_skip_le rest).trans_lt hlt)
    | ok found =>
      have hleft : found.2.length < s.length := (length_numeral_lt hn).trans hlt
      rw [hn] at h hnodes hattempts
      simp only at h
      cases hmore : statements .ending found.2 with
      | ok sts => rw [hmore] at h; cases h
      | error e' =>
        rw [hmore] at h
        cases h
        rw [attempts_seq_of_some hnodes, hattempts, attempts_lines hleft hmore]
        exact Attempts.fail_of_lt ((suffix_of_statements hmore).length_le.trans_lt hleft)

end Grammar

end PartialRedundancy.GraphText
