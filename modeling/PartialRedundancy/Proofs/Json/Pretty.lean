import PartialRedundancy.Json.Value
import PartialRedundancy.Proofs.Text.Unambiguous

/-!
# Indented JSON tells the value

Two values with the same indented text are the same value, as long as their names hold no quotation
marks.

## Main definitions

* `Json.Value.Plain` — no name of the value holds a quotation mark.
* `Json.Value.shape` — what a value is: the text shows it in its first character.

## Main results

* `Json.Value.unambiguous_pretty` — the text of a value, with something else than a digit behind it.
* `Json.Value.eq_of_pretty_eq` — values with the same text are the same value.

## Design

The elements of a list and the fields of a record stand on lines of their own. The line feed behind
the last one is where another one would have a comma, so a list is read element by element, and
indentation plays no part in it.
-/

namespace PartialRedundancy.Json

open Text (Anything Avoids Begins Unambiguous)

variable {α : Type}

/-- No quotation mark stands in the text. -/
def Unquoted (text : String) : Prop := text.toList.all (· != '"') = true

instance (text : String) : Decidable (Unquoted text) :=
  inferInstanceAs (Decidable (_ = true))

/-- **A text between quotation marks**, if it holds none. -/
lemma unambiguous_quoted {P : String → Prop} {s t : String} (hs : Unquoted s) (ht : Unquoted t) :
    Unambiguous P (quoted s) (quoted t) (s = t) :=
  (Unambiguous.span hs ht).literal_append.append_literal fun _ => .append (by decide) (by decide)

section Brackets

variable {P : String → Prop} {item : α → String} {l k : List α} {opening closing : String}

/-- Some lines between brackets. -/
lemma bracketed_map (depth : Nat) (hl : l ≠ []) : bracketed opening closing depth (l.map item) =
    opening ++ ("\n" ++
      (",\n".intercalate (l.map fun a => indentation (depth + 1) ++ item a) ++
        ("\n" ++ (indentation depth ++ closing)))) := by
  obtain ⟨a, rest, rfl⟩ := List.exists_cons_of_ne_nil hl
  simp [bracketed, String.append_assoc, Function.comp_def]

/-- The opening bracket is the first character. -/
lemma begins_bracketed {p : Char → Bool} (h : Begins p opening) (depth : Nat)
    (lines : List String) : Begins p (bracketed opening closing depth lines) := by
  cases lines with
  | nil => exact h.append
  | cons line rest => simpa [bracketed, String.append_assoc] using h.append

/-- Where there is nothing between brackets, no line starts. -/
lemma unambiguous_bracketed_nil {A : Prop} (depth : Nat) (hclosing : Avoids (· == '\n') closing)
    (hne : closing ≠ "") (hk : k ≠ []) :
    Unambiguous P (bracketed opening closing depth (List.map item []))
      (bracketed opening closing depth (k.map item)) A := by
  rw [bracketed_map depth hk]
  exact Unambiguous.literal_append <| .of_ne fun r s _ _ h =>
    (hclosing.append hne).ne_append (w := "\n") (by decide) (h.trans String.append_assoc)

/-- **Lines between brackets.** The closing bracket must not be a line feed. -/
lemma unambiguous_bracketed (depth : Nat) (hclosing : Avoids (· == '\n') closing)
    (hne : closing ≠ "")
    (hitem : ∀ a ∈ l, ∀ b ∈ k, Unambiguous (Avoids Char.isDigit) (item a) (item b) (a = b)) :
    Unambiguous P (bracketed opening closing depth (l.map item))
      (bracketed opening closing depth (k.map item)) (l = k) := by
  by_cases hl : l = []
  · subst hl
    by_cases hk : k = []
    · subst hk
      exact (Unambiguous.literal _).imp fun _ => rfl
    · exact unambiguous_bracketed_nil depth hclosing hne hk
  · by_cases hk : k = []
    · subst hk
      exact (unambiguous_bracketed_nil depth hclosing hne hl).symm
    · have hlines : Unambiguous _
          (",\n".intercalate (l.map fun a => indentation (depth + 1) ++ item a))
          (",\n".intercalate (k.map fun a => indentation (depth + 1) ++ item a)) (l = k) :=
        .intercalate (fun a ha b hb => (hitem a ha b hb).literal_append)
          (fun _ => .append (by decide) (by decide)) (iff_of_false hl hk)
      rw [bracketed_map depth hl, bracketed_map depth hk]
      refine Unambiguous.literal_append <| Unambiguous.literal_append <|
        hlines.append_literal fun r => ?_
      rw [String.append_assoc]
      exact ⟨.append (by decide) (by decide), fun t =>
        (Avoids.append (p := (· == ',')) (by decide) (by decide)).ne_append (by decide)⟩

end Brackets

namespace Value

/-- What a value is. -/
inductive Shape
  /-- A string. -/
  | name
  /-- A number. -/
  | number
  /-- An array. -/
  | list
  /-- An object. -/
  | record
deriving DecidableEq

/-- What a value is. -/
def shape : Value → Shape
  | name _ => .name
  | number _ => .number
  | list _ => .list
  | record _ => .record

/-- What the text is that starts with a character. -/
def shapeOf (c : Char) : Shape :=
  if c == '"' then .name else if c == '[' then .list else if c == '\x7b' then .record else .number

/-- Names and keys hold no quotation marks. -/
inductive Plain : Value → Prop
  /-- A name. -/
  | name {text : String} (h : Unquoted text) : Plain (.name text)
  /-- A number. -/
  | number (n : Nat) : Plain (.number n)
  /-- An array. -/
  | list {items : List Value} (h : ∀ v ∈ items, Plain v) : Plain (.list items)
  /-- An object. -/
  | record {fields : List (String × Value)} (hkey : ∀ f ∈ fields, Unquoted f.1)
      (h : ∀ f ∈ fields, Plain f.2) : Plain (.record fields)

/-- The text of a field. -/
def prettyField (depth : Nat) (f : String × Value) : String :=
  quoted f.1 ++ ": " ++ pretty depth f.2

/-- The texts of the elements of a list, one by one. -/
lemma prettyItems_eq (depth : Nat) (items : List Value) :
    prettyItems depth items = items.map (pretty depth) := by
  induction items with
  | nil => rfl
  | cons v rest ih => rw [prettyItems, ih, List.map_cons]

/-- The texts of the fields of a record, one by one. -/
lemma prettyFields_eq (depth : Nat) (fields : List (String × Value)) :
    prettyFields depth fields = fields.map (prettyField depth) := by
  induction fields with
  | nil => rfl
  | cons f rest ih => rw [prettyFields, ih, List.map_cons, prettyField]

/-- A digit starts a number. -/
lemma shapeOf_of_isDigit {c : Char} (hc : c.isDigit = true) : shapeOf c = .number := by
  have hne {d : Char} (hd : d.isDigit = false) : ¬ (c == d) = true := fun h =>
    Bool.false_ne_true (hd.symm.trans (eq_of_beq h ▸ hc))
  rw [shapeOf, if_neg (hne (by decide)), if_neg (hne (by decide)), if_neg (hne (by decide))]

/-- The first character of the text of a value shows what it is. -/
lemma begins_pretty (depth : Nat) (v : Value) :
    Begins (fun c => shapeOf c == v.shape) (pretty depth v) := by
  cases v with
  | name text => exact Begins.append (Begins.append rfl)
  | number n =>
    exact (Text.begins_toString n).mono fun c hc => beq_iff_eq.mpr (shapeOf_of_isDigit hc)
  | list items =>
    refine begins_bracketed ?_ depth _
    rfl
  | record fields =>
    refine begins_bracketed ?_ depth _
    rfl

/-- Different kinds of values have different texts. -/
lemma unambiguous_of_shape_ne {P : String → Prop} {A : Prop} {v w : Value}
    (h : v.shape ≠ w.shape) (depth : Nat) : Unambiguous P (pretty depth v) (pretty depth w) A := by
  refine .of_ne fun r s _ _ heq => ?_
  obtain ⟨c, hv, hw⟩ :=
    (begins_pretty depth v).append.exists_both (heq ▸ (begins_pretty depth w).append)
  exact h ((eq_of_beq hv).symm.trans (eq_of_beq hw))

/-- The text of a field tells its key, and its value if the text of the value does. -/
lemma unambiguous_prettyField {P : String → Prop} {f f' : String × Value} {depth : Nat}
    (hkey : Unquoted f.1) (hkey' : Unquoted f'.1)
    (hvalue : Unambiguous P (pretty depth f.2) (pretty depth f'.2) (f.2 = f'.2)) :
    Unambiguous P (prettyField depth f) (prettyField depth f') (f = f') := by
  have hname : Unambiguous Anything (quoted f.1 ++ ": ") (quoted f'.1 ++ ": ") (f.1 = f'.1) :=
    (unambiguous_quoted (P := Anything) hkey hkey').append_literal fun _ => trivial
  exact (hname.append_of_anything fun _ => hvalue).imp fun ⟨h, h'⟩ => Prod.ext h h'

/-- **The text of a value tells the value**, with something else than a digit behind it.

**Proof sketch.** Induction on what makes a value plain, with both values taken apart. Values of
different kinds begin differently; two lists or two records are compared line by line. -/
lemma unambiguous_pretty {v w : Value} (hv : v.Plain) (hw : w.Plain) (depth : Nat) :
    Unambiguous (Avoids Char.isDigit) (pretty depth v) (pretty depth w) (v = w) := by
  induction hv generalizing w depth with
  | name hs =>
    cases hw with
    | name ht => exact (unambiguous_quoted hs ht).imp fun h => congrArg name h
    | _ => exact unambiguous_of_shape_ne (by simp [shape]) depth
  | number m =>
    cases hw with
    | number n => exact (Unambiguous.number m n).imp fun h => congrArg number h
    | _ => exact unambiguous_of_shape_ne (by simp [shape]) depth
  | list _ ih =>
    cases hw with
    | list hw =>
      simp only [pretty, prettyItems_eq]
      exact (unambiguous_bracketed depth (by decide) (by decide)
        fun v hv w hwk => ih v hv (hw w hwk) (depth + 1)).imp fun h => congrArg list h
    | _ => exact unambiguous_of_shape_ne (by simp [shape]) depth
  | record hkey _ ih =>
    cases hw with
    | record hkey' hw =>
      simp only [pretty, prettyFields_eq]
      exact (unambiguous_bracketed depth (by decide) (by decide) fun f hf f' hf' =>
        unambiguous_prettyField (hkey f hf) (hkey' f' hf')
          (ih f hf (hw f' hf') (depth + 1))).imp fun h => congrArg record h
    | _ => exact unambiguous_of_shape_ne (by simp [shape]) depth

/-- **Values with the same text are the same value.** -/
theorem eq_of_pretty_eq {v w : Value} (hv : v.Plain) (hw : w.Plain) {depth : Nat}
    (h : pretty depth v = pretty depth w) : v = w :=
  (unambiguous_pretty hv hw depth).of_eq (by decide) h

end Value

end PartialRedundancy.Json
