import Mathlib.Data.List.TakeWhile
import PartialRedundancy.GraphText.Reader

/-!
# Parsing expressions

Parsing expressions are matched against the start of a text. They are deterministic: an alternative
is only tried if the ones before it do not match, and a repetition matches as often as it can and
never gives anything back. Between the parts of a sequence, and between the rounds of a repetition,
something may be skipped, but not within a match that is kept as a token.

## Main definitions

* `Rule`, `Pair` — the rules of graph descriptions, and their matches as a tree.
* `Expression` — parsing expressions.
* `again` — a repetition.
* `Expression.run` — what an expression matches at the start of a text.

## Main results

* `again_of_none`, `again_of_some` — how a repetition ends and goes on.
* `Expression.run_many` — a repetition after a skip.
* `Expression.length_run_le` — a match does not lengthen the text.
-/

namespace PartialRedundancy.GraphText

/-- The rules whose matches are kept. -/
inductive Rule
  /-- A whole text. -/
  | graph
  /-- The count. -/
  | nodes
  /-- An edge. -/
  | edge
  /-- A list of used nodes. -/
  | used
  /-- A list of killed nodes. -/
  | killed
  /-- A number. -/
  | number
  /-- The end of the text. -/
  | ending
deriving DecidableEq

/-- A match of a rule: a token with its text, or a node with the matches of the rules within it. -/
inductive Pair
  /-- A match without parts. -/
  | token (rule : Rule) (text : List Char)
  /-- A match with parts. -/
  | node (rule : Rule) (inner : List Pair)

/-- Parsing expressions. -/
inductive Expression
  /-- A fixed word. -/
  | word (w : List Char)
  /-- One character of some kind. -/
  | char (p : Char → Bool)
  /-- The end of the text. -/
  | ending
  /-- One expression after another. -/
  | seq (a b : Expression)
  /-- The first of two expressions that matches. -/
  | choice (a b : Expression)
  /-- An expression as often as it matches, or not at all. -/
  | many (a : Expression)
  /-- Nothing, where an expression does not match. -/
  | absent (a : Expression)
  /-- A rule whose match is kept as a node. -/
  | rule (r : Rule) (a : Expression)
  /-- A rule whose match is kept as a token, with nothing skipped within it. -/
  | token (r : Rule) (a : Expression)

/-- What is matched at the start of a text, if anything: the pairs, and the text that is left. -/
abbrev Matcher : Type := List Char → Option (List Pair × List Char)

/-- One match after another, as long as there is one that takes something from the text. -/
def again (f : Matcher) (s : List Char) : List Pair × List Char :=
  match f s with
  | none => ([], s)
  | some (ps, rest) =>
    if rest.length < s.length then (ps ++ (again f rest).1, (again f rest).2) else (ps, rest)
termination_by s.length

namespace Expression

/-- One or more times. -/
def many1 (a : Expression) : Expression := seq a (many a)

/-- What an expression matches at the start of a text, where `between` is skipped. -/
def run : Expression → (between : List Char → List Char) → Matcher
  | word w, _, s => (dropWord w s).map fun rest => ([], rest)
  | char _, _, [] => none
  | char p, _, c :: rest => if p c then some ([], rest) else none
  | ending, _, s => if s = [] then some ([], []) else none
  | seq a b, between, s =>
    match a.run between s with
    | none => none
    | some (ps, rest) =>
      match b.run between (between rest) with
      | none => none
      | some (qs, rest) => some (ps ++ qs, rest)
  | choice a b, between, s =>
    match a.run between s with
    | none => b.run between s
    | some found => some found
  | many a, between, s =>
    match a.run between s with
    | none => some ([], s)
    | some (ps, rest) =>
      let (qs, rest) := again (fun t => a.run between (between t)) rest
      some (ps ++ qs, rest)
  | absent a, between, s =>
    match a.run between s with
    | none => some ([], s)
    | some _ => none
  | rule r a, between, s =>
    match a.run between s with
    | none => none
    | some (ps, rest) => some ([.node r ps], rest)
  | token r a, _, s =>
    match a.run id s with
    | none => none
    | some (_, rest) => some ([.token r (s.take (s.length - rest.length))], rest)

end Expression

variable {f : Matcher} {s rest : List Char} {ps : List Pair}

/-- A repetition ends where there is no further match. -/
lemma again_of_none (h : f s = none) : again f s = ([], s) := by
  rw [again, h]

/-- A repetition goes on after a match. -/
lemma again_of_some (h : f s = some (ps, rest)) (hlt : rest.length < s.length) :
    again f s = (ps ++ (again f rest).1, (again f rest).2) := by
  rw [again, h]
  simp only
  rw [if_pos hlt]

namespace Expression

variable {a b : Expression} {between : List Char → List Char}

/-- A sequence does not match if its first part does not. -/
lemma run_seq_of_none (h : a.run between s = none) : (seq a b).run between s = none := by
  rw [run, h]

/-- A sequence goes on with its second part. -/
lemma run_seq_of_some (h : a.run between s = some (ps, rest)) :
    (seq a b).run between s =
      (b.run between (between rest)).map fun found => (ps ++ found.1, found.2) := by
  rw [run, h]
  simp only
  cases b.run between (between rest) <;> rfl

/-- A choice goes on with its second expression if the first one does not match. -/
lemma run_choice_of_none {s : List Char} (h : a.run between s = none) :
    (choice a b).run between s = b.run between s := by
  rw [run, h]

/-- A choice is settled by its first expression. -/
lemma run_choice_of_some (h : a.run between s = some (ps, rest)) :
    (choice a b).run between s = some (ps, rest) := by
  rw [run, h]

/-- A repetition after a skip is one that skips before every round. If it matches at all, the two
end at the same place. -/
lemma run_many
    (hlt : ∀ ps rest, a.run between (between s) = some (ps, rest) → rest.length < s.length) :
    (many a).run between (between s) =
      let found := again (fun t => a.run between (between t)) s
      some (found.1, if a.run between (between s) = none then between s else found.2) := by
  rw [run]
  cases h : a.run between (between s) with
  | none =>
    have hend : again (fun t => a.run between (between t)) s = ([], s) := again_of_none h
    rw [hend]
    rfl
  | some found =>
    obtain ⟨ps, rest⟩ := found
    have hstep : again (fun t => a.run between (between t)) s = (ps ++ _, _) :=
      again_of_some h (hlt ps rest h)
    rw [hstep]
    rfl

/-- A match takes nothing away but a first part of the text. -/
lemma length_run_le (hb : ∀ s, (between s).length ≤ s.length)
    (h : a.run between s = some (ps, rest)) : rest.length ≤ s.length := by
  induction a generalizing between s ps rest with
  | word w =>
    rw [run] at h
    obtain ⟨t, ht, h⟩ := Option.map_eq_some_iff.mp h
    cases h
    exact length_dropWord_le ht
  | char p =>
    cases s with
    | nil => cases h
    | cons c s =>
      rw [run] at h
      split at h <;> cases h
      exact Nat.le_succ _
  | ending =>
    rw [run] at h
    split at h <;> cases h
    exact Nat.zero_le _
  | seq a b iha ihb =>
    rw [run] at h
    split at h
    · cases h
    · rename_i ps' rest' ha
      split at h
      · cases h
      · rename_i qs rest'' hb'
        cases h
        exact (ihb hb hb').trans ((hb rest').trans (iha hb ha))
  | choice a b iha ihb =>
    rw [run] at h
    split at h
    · exact ihb hb h
    · rename_i found ha
      cases h
      exact iha hb ha
  | many a iha =>
    have hagain (t : List Char) :
        (again (fun t => a.run between (between t)) t).2.length ≤ t.length := by
      induction hn : t.length using Nat.strong_induction_on generalizing t with
      | _ n ih =>
        subst hn
        rw [again]
        split
        · exact Nat.le_refl _
        · split
          · rename_i hlt
            exact (ih _ hlt _ rfl).trans hlt.le
          · rename_i ps' rest' ht _
            exact (iha hb ht).trans (hb t)
    rw [run] at h
    split at h
    · cases h
      exact Nat.le_refl _
    · rename_i ps' rest' ha
      cases h
      exact (hagain rest').trans (iha hb ha)
  | absent a _ =>
    rw [run] at h
    split at h <;> cases h
    exact Nat.le_refl _
  | rule r a iha =>
    rw [run] at h
    split at h
    · cases h
    · rename_i ps' rest' ha
      cases h
      exact iha hb ha
  | token r a iha =>
    rw [run] at h
    split at h
    · cases h
    · rename_i ps' rest' ha
      cases h
      exact iha (fun _ => Nat.le_refl _) ha

/-- A sequence takes something from the text if its first part does. -/
lemma length_run_seq_lt (hb : ∀ s, (between s).length ≤ s.length)
    (ha : ∀ ps rest, a.run between s = some (ps, rest) → rest.length < s.length)
    (h : (seq a b).run between s = some (ps, rest)) : rest.length < s.length := by
  cases hfirst : a.run between s with
  | none =>
    rw [run_seq_of_none hfirst] at h
    cases h
  | some found =>
    obtain ⟨qs, t⟩ := found
    rw [run_seq_of_some hfirst] at h
    obtain ⟨⟨_, u⟩, hsecond, h⟩ := Option.map_eq_some_iff.mp h
    cases h
    exact ((length_run_le hb hsecond).trans (hb t)).trans_lt (ha qs t hfirst)

end Expression

end PartialRedundancy.GraphText
