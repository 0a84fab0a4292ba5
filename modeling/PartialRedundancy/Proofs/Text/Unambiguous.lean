import Mathlib.Logic.Function.Basic

/-!
# Texts that can only be read in one way

What a text says is lost if two different things can be written alike. Here two writings are
compared together with whatever follows them, so that the parts of a long text can be compared one
after the other, from the left.

## Main definitions

* `Text.Unambiguous` — two writings can only be the start of one text if they say the same.
* `Text.Begins`, `Text.Avoids` — what the first character of a text is, or is not.
* `Text.EndsRow` — what may stand behind the last one of several writings.

## Main results

* `Text.Unambiguous.append` — one writing after another one.
* `Text.Unambiguous.span`, `Text.Unambiguous.number` — words, and numbers in base ten.
* `Text.Unambiguous.join`, `Text.Unambiguous.intercalate` — any number of writings in a row, without
  and with something between them.

## Design

Most writings are only unambiguous in front of certain texts: after a number there must not be
another digit. The condition on what follows is part of the notion, and it is proved where writings
are put together.
-/

namespace PartialRedundancy.Text

variable {P Q : String → Prop} {A B : Prop} {x y u v w r s t : String} {p q : Char → Bool}

/-! ## First characters -/

/-- The text has a first character, and it satisfies `p`. -/
def Begins (p : Char → Bool) (s : String) : Prop := s.toList.head?.any p = true

instance (p : Char → Bool) (s : String) : Decidable (Begins p s) :=
  inferInstanceAs (Decidable (_ = true))

/-- The text does not start with a character that satisfies `p`. -/
def Avoids (p : Char → Bool) (s : String) : Prop := ¬ Begins p s

instance (p : Char → Bool) (s : String) : Decidable (Avoids p s) :=
  inferInstanceAs (Decidable (¬ _))

/-- What stands behind a text does not change how it begins. -/
lemma Begins.append (h : Begins p w) : Begins p (w ++ r) := by
  unfold Begins at *
  rw [String.toList_append]
  cases hw : w.toList with
  | nil => simp [hw] at h
  | cons c cs => simpa [hw] using h

/-- A first character that satisfies `p` may satisfy more. -/
lemma Begins.mono (h : Begins p s) (hpq : ∀ c, p c = true → q c = true) : Begins q s := by
  unfold Begins at *
  obtain ⟨c, hc, hp⟩ := (Option.any_eq_true ..).mp h
  exact (Option.any_eq_true ..).mpr ⟨c, hc, hpq c hp⟩

/-- A text has only one first character. -/
lemma Begins.exists_both (hp : Begins p s) (hq : Begins q s) : ∃ c, p c = true ∧ q c = true := by
  obtain ⟨c, hc, hpc⟩ := (Option.any_eq_true ..).mp hp
  obtain ⟨d, hd, hqd⟩ := (Option.any_eq_true ..).mp hq
  obtain rfl : c = d := Option.some.inj (hc.symm.trans hd)
  exact ⟨c, hpc, hqd⟩

/-- What stands behind some text does not change what it avoids. -/
lemma Avoids.append (h : Avoids p w) (hw : w ≠ "") : Avoids p (w ++ r) := by
  unfold Avoids Begins at *
  rw [String.toList_append]
  cases hcs : w.toList with
  | nil => exact absurd (String.toList_inj.mp hcs) hw
  | cons c cs => simpa [hcs] using h

/-- A text may avoid less. -/
lemma Avoids.mono (h : Avoids q s) (hpq : ∀ c, p c = true → q c = true) : Avoids p s :=
  fun hp => h (hp.mono hpq)

/-- A text that avoids a character is none that begins with it. -/
lemma Avoids.ne_append (h : Avoids p r) (hw : Begins p w) : r ≠ w ++ t :=
  fun hr => h (hr ▸ hw.append)

/-- Of two starts of one text, one is a start of the other one. -/
lemma prefix_total_of_append_eq (h : x ++ r = y ++ s) :
    x.toList <+: y.toList ∨ y.toList <+: x.toList := by
  have hchars : x.toList ++ r.toList = y.toList ++ s.toList := by
    rw [← String.toList_append, h, String.toList_append]
  exact List.prefix_or_prefix_of_prefix (hchars ▸ List.prefix_append _ _) (List.prefix_append _ _)

/-- Texts of which none is a start of the other one do not start the same text. -/
lemma append_ne_append (h : ¬ x.toList <+: y.toList) (h' : ¬ y.toList <+: x.toList) :
    x ++ r ≠ y ++ s :=
  fun heq => (prefix_total_of_append_eq heq).elim h h'

/-! ## Unambiguous writings -/

/-- No condition on what follows. -/
abbrev Anything (_ : String) : Prop := True

/-- However the texts `x` and `y` go on, with something that satisfies `P`: if the whole texts are
the same, then so is what the two say, that is, `A` holds, and they go on alike. -/
def Unambiguous (P : String → Prop) (x y : String) (A : Prop) : Prop :=
  ∀ ⦃r s : String⦄, P r → P s → x ++ r = y ++ s → A ∧ r = s

namespace Unambiguous

/-- Whole texts are writings that nothing follows. -/
lemma of_eq (h : Unambiguous P x y A) (hP : P "") (hxy : x = y) : A :=
  (h hP hP (by rw [hxy])).1

/-- Neither of the writings is the first one. -/
lemma symm (h : Unambiguous P x y A) : Unambiguous P y x A := fun _ _ hr hs hxy =>
  (h hs hr hxy.symm).imp_right Eq.symm

/-- Conclusions can be drawn from what writings say. -/
lemma imp (h : Unambiguous P x y A) (hAB : A → B) : Unambiguous P x y B :=
  fun _ _ hr hs hxy => (h hr hs hxy).imp_left hAB

/-- Less may be allowed to follow. -/
lemma restrict (h : Unambiguous P x y A) (hQP : ∀ r, Q r → P r) : Unambiguous Q x y A :=
  fun _ _ hr hs hxy => h (hQP _ hr) (hQP _ hs) hxy

/-- A fixed text says nothing. -/
lemma literal (w : String) : Unambiguous P w w True := fun _ _ _ _ h =>
  ⟨trivial, (String.append_right_inj w).mp h⟩

/-- Writings that never start one text are unambiguous. -/
lemma of_ne (h : ∀ r s, P r → P s → x ++ r ≠ y ++ s) : Unambiguous P x y A :=
  fun r s hr hs hxy => absurd hxy (h r s hr hs)

/-- Nothing can be told from a writing that must not follow. -/
lemma empty_left (h : ∀ r t, P r → r ≠ y ++ t) : Unambiguous P "" y A :=
  of_ne fun r s hr _ heq => h r s hr (by rwa [String.empty_append] at heq)

/-- Writings that begin differently are unambiguous. -/
lemma of_begins (hx : Begins p x) (hy : Avoids p y) (hne : y ≠ "") : Unambiguous P x y A :=
  of_ne fun _ _ _ _ h => (hy.append hne).ne_append hx h.symm

/-- **One writing after another.** The second one may be compared under the assumption that the
first ones say the same. -/
lemma append (hx : Unambiguous P x y A) (hu : A → Unambiguous Q u v B)
    (hPu : ∀ r, Q r → P (u ++ r)) (hPv : ∀ r, Q r → P (v ++ r)) :
    Unambiguous Q (x ++ u) (y ++ v) (A ∧ B) := by
  intro r s hr hs h
  rw [String.append_assoc, String.append_assoc] at h
  obtain ⟨hA, h⟩ := hx (hPu r hr) (hPv s hs) h
  obtain ⟨hB, hrs⟩ := hu hA hr hs h
  exact ⟨⟨hA, hB⟩, hrs⟩

/-- One writing after another one that anything may follow. -/
lemma append_of_anything (hx : Unambiguous Anything x y A) (hu : A → Unambiguous Q u v B) :
    Unambiguous Q (x ++ u) (y ++ v) (A ∧ B) :=
  hx.append hu (fun _ _ => trivial) fun _ _ => trivial

/-- A writing after a fixed text. -/
lemma literal_append (h : Unambiguous P x y A) : Unambiguous P (w ++ x) (w ++ y) A :=
  ((literal w).append_of_anything fun _ => h).imp And.right

/-- A fixed text after a writing. -/
lemma append_literal (h : Unambiguous P x y A) (hw : ∀ r, P (w ++ r)) :
    Unambiguous Q (x ++ w) (y ++ w) A :=
  (h.append (fun _ => literal w) (fun r _ => hw r) fun r _ => hw r).imp And.left

/-- **Words** of certain characters, with something else behind them. -/
lemma span (hx : x.toList.all p = true) (hy : y.toList.all p = true) :
    Unambiguous (Avoids p) x y (x = y) := by
  have key {w r : String} (hw : w.toList.all p = true) (hr : Avoids p r) :
      (w ++ r).toList.takeWhile p = w.toList := by
    rw [String.toList_append, List.takeWhile_append_of_pos (List.all_eq_true.mp hw)]
    cases hcs : r.toList with
    | nil => simp
    | cons c cs =>
      have hc : ¬ p c = true := by simpa [Avoids, Begins, hcs] using hr
      rw [List.takeWhile_cons_of_neg hc, List.append_nil]
  intro r s hr hs h
  have hxy : x = y := by rw [← String.toList_inj, ← key hx hr, h, key hy hs]
  subst hxy
  exact ⟨rfl, (String.append_right_inj x).mp h⟩

/-- **Words of which none is a start of another one.** -/
lemma of_prefixFree {α : Type} {word : α → String}
    (hword : ∀ a b, (word a).toList <+: (word b).toList → a = b) (a b : α) :
    Unambiguous P (word a) (word b) (a = b) := by
  intro r s _ _ h
  have hab : a = b := (prefix_total_of_append_eq h).elim (hword a b) fun hba => (hword b a hba).symm
  subst hab
  exact ⟨rfl, (String.append_right_inj _).mp h⟩

end Unambiguous

/-! ## Numbers -/

/-- A number is written in digits. -/
lemma all_isDigit_toString (n : Nat) : (toString n).toList.all Char.isDigit = true := by
  change n.repr.toList.all Char.isDigit = true
  rw [Nat.toList_repr, List.all_eq_true]
  exact fun c hc => Nat.isDigit_of_mem_toDigits (by decide) (by decide) hc

/-- A number begins with a digit. -/
lemma begins_toString (n : Nat) : Begins Char.isDigit (toString n) := by
  have hdigits := all_isDigit_toString n
  unfold Begins
  cases h : (toString n).toList with
  | nil => exact absurd (Nat.toList_repr ▸ h) Nat.toDigits_ne_nil
  | cons c cs =>
    rw [h, List.all_cons, Bool.and_eq_true] at hdigits
    exact hdigits.1

/-- Numbers that are written alike are equal. -/
lemma toString_injective : Function.Injective (toString : Nat → String) := by
  intro m n h
  have hdigits : Nat.toDigits 10 m = Nat.toDigits 10 n := by
    rw [← Nat.toList_repr, ← Nat.toList_repr]
    exact congrArg String.toList h
  rw [← Nat.ofDigitChars_ten_toDigits (n := m), hdigits, Nat.ofDigitChars_ten_toDigits]

/-- **Numbers** in base ten, with something else than a digit behind them. -/
lemma Unambiguous.number (m n : Nat) :
    Unambiguous (Avoids Char.isDigit) (toString m) (toString n) (m = n) :=
  (span (all_isDigit_toString m) (all_isDigit_toString n)).imp fun h => toString_injective h

/-! ## Several writings in a row -/

section Sequences

variable {α : Type} {item : α → String} {l k : List α} {sep : String}

/-- What may stand behind the last one of several writings: it must not look like another one. -/
def EndsRow (P : String → Prop) (item : α → String) (r : String) : Prop :=
  P r ∧ ∀ a t, r ≠ item a ++ t

/-- What may follow a writing may do so with more writings in front of it. -/
lemma follows_join (hnext : ∀ a r, P (item a ++ r)) (l : List α) {r : String} (hr : P r) :
    P (String.join (l.map item) ++ r) := by
  cases l with
  | nil => simpa using hr
  | cons a l => simpa [String.append_assoc] using hnext a (String.join (l.map item) ++ r)

/-- **Writings in a row.**

**Proof sketch.** Induction on one of the lists. Where one list ends and the other one does not, the
next writing of the other one stands where none may be. -/
lemma Unambiguous.join (hitem : ∀ a ∈ l, ∀ b ∈ k, Unambiguous P (item a) (item b) (a = b))
    (hnext : ∀ a r, P (item a ++ r)) :
    Unambiguous (EndsRow P item) (String.join (l.map item)) (String.join (k.map item)) (l = k) := by
  have hnothing {b : α} {k : List α} {A : Prop} :
      Unambiguous (EndsRow P item) "" (String.join ((b :: k).map item)) A :=
    .empty_left fun r t hr h => hr.2 b (String.join (k.map item) ++ t)
      (by simpa [String.append_assoc] using h)
  induction l generalizing k with
  | nil =>
    cases k with
    | nil => exact (literal _).imp fun _ => rfl
    | cons b k => exact hnothing
  | cons a l ih =>
    cases k with
    | nil => exact hnothing.symm
    | cons b k =>
      have hhead := hitem a List.mem_cons_self b List.mem_cons_self
      have htail := ih fun a ha b hb => hitem a (.tail _ ha) b (.tail _ hb)
      simp only [List.map_cons, String.join_cons]
      exact (hhead.append (fun _ => htail) (fun _ hr => follows_join hnext l hr.1)
        fun _ hr => follows_join hnext k hr.1).imp fun ⟨ha, hl⟩ => by rw [ha, hl]

/-- Writings with something between them are a first one, and then others with something in front
of each. -/
lemma intercalate_cons (a : α) (l : List α) :
    sep.intercalate ((a :: l).map item) =
      item a ++ String.join (l.map fun b => sep ++ item b) := by
  induction l generalizing a with
  | nil => simp
  | cons b l ih =>
    rw [List.map_cons, List.map_cons, String.intercalate_cons_cons, ← List.map_cons, ih,
      List.map_cons, String.join_cons, String.append_assoc, String.append_assoc]

/-- **Writings with something between them.** What follows the last one must not look like that
which stands between two. -/
lemma Unambiguous.intercalate
    (hitem : ∀ a ∈ l, ∀ b ∈ k, Unambiguous P (item a) (item b) (a = b))
    (hsep : ∀ r, P (sep ++ r)) (hempty : l = [] ↔ k = []) :
    Unambiguous (fun r => P r ∧ ∀ t, r ≠ sep ++ t)
      (sep.intercalate (l.map item)) (sep.intercalate (k.map item)) (l = k) := by
  cases l with
  | nil =>
    rw [hempty.mp rfl]
    exact (literal _).imp fun _ => rfl
  | cons a l =>
    cases k with
    | nil => exact absurd (hempty.mpr rfl) (List.cons_ne_nil a l)
    | cons b k =>
      have hnext (a : α) (r : String) : P (sep ++ item a ++ r) :=
        String.append_assoc ▸ hsep (item a ++ r)
      have hrest := join (fun a ha b hb =>
        (hitem a (.tail _ ha) b (.tail _ hb)).literal_append (w := sep)) hnext
      rw [intercalate_cons, intercalate_cons]
      have hboth := (hitem a List.mem_cons_self b List.mem_cons_self).append (fun _ => hrest)
        (fun r hr => follows_join hnext l hr.1) fun r hr => follows_join hnext k hr.1
      refine (hboth.imp fun ⟨ha, hl⟩ => by rw [ha, hl]).restrict fun r hr => ⟨hr.1, fun a t h => ?_⟩
      exact hr.2 (item a ++ t) (h.trans String.append_assoc)

end Sequences

end PartialRedundancy.Text
