import PartialRedundancy.Json.Failure

/-!
# JSON strings

Reading the space between the parts of a JSON text, and strings with their escapes.

## Main definitions

* `Json.skipSpace` — the text after the space that it starts with.
* `Json.string` — the string whose opening quotation mark has been read.
-/

namespace PartialRedundancy.Json

/-- The characters that may stand between the parts of a text. -/
def isSpace (c : Char) : Bool := c == ' ' || c == '\n' || c == '\t' || c == '\r'

/-- The text after the space that it starts with. -/
def skipSpace (s : List Char) : List Char := s.dropWhile isSpace

/-! ## Escapes -/

/-- The value of a digit in base sixteen. -/
def hexDigit? (c : Char) : Option Nat :=
  if c.isDigit then some (c.toNat - '0'.toNat)
  else if 'a' ≤ c && c ≤ 'f' then some (c.toNat - 'a'.toNat + 10)
  else if 'A' ≤ c && c ≤ 'F' then some (c.toNat - 'A'.toNat + 10)
  else none

/-- The failure of an escape that takes four bytes of a text. -/
def hexFailure {α : Type} (s : List Char) : Except Failure α :=
  if byteCount s < 4 then failBefore (.ended .string) [] else failAfter .invalidEscape 4 s

/-- The code of four digits. -/
def hexCode (s : List Char) : Except Failure (Nat × List Char) :=
  match s with
  | a :: b :: c :: d :: rest =>
    match hexDigit? a, hexDigit? b, hexDigit? c, hexDigit? d with
    | some a, some b, some c, some d => .ok (((a * 16 + b) * 16 + c) * 16 + d, rest)
    | _, _, _, _ => hexFailure s
  | _ => hexFailure s

/-- Whether a code is the first half of a pair. -/
def isLeading (code : Nat) : Bool := 0xD800 ≤ code && code ≤ 0xDBFF

/-- Whether a code is the second half of a pair. -/
def isTrailing (code : Nat) : Bool := 0xDC00 ≤ code && code ≤ 0xDFFF

/-- The character of a code, which takes a second escape if the code is the first half of a
pair. -/
def codeChar (code : Nat) (s : List Char) : Except Failure (Char × List Char) :=
  if isTrailing code then failBefore .loneSurrogate s
  else if isLeading code then
    match s with
    | [] => failBefore (.ended .string) []
    | '\\' :: [] => failBefore (.ended .string) []
    | '\\' :: 'u' :: rest =>
      match hexCode rest with
      | .error e => .error e
      | .ok (second, rest) =>
        if isTrailing second then
          .ok (Char.ofNat ((code - 0xD800) * 0x400 + (second - 0xDC00) + 0x10000), rest)
        else failBefore .loneSurrogate rest
    | '\\' :: rest => failAt .unexpectedEndOfEscape rest
    | rest => failAt .unexpectedEndOfEscape rest
  else .ok (Char.ofNat code, s)

/-- The character that a letter after a backslash stands for. -/
def escaped? : Char → Option Char
  | '"' => some '"'
  | '\\' => some '\\'
  | '/' => some '/'
  | 'b' => some '\x08'
  | 'f' => some '\x0c'
  | 'n' => some '\n'
  | 'r' => some '\r'
  | 't' => some '\t'
  | _ => none

/-- The character of an escape whose backslash has been read. -/
def escape (s : List Char) : Except Failure (Char × List Char) :=
  match s with
  | [] => failBefore (.ended .string) []
  | 'u' :: rest =>
    match hexCode rest with
    | .error e => .error e
    | .ok (code, rest) => codeChar code rest
  | c :: rest =>
    match escaped? c with
    | some d => .ok (d, rest)
    | none => failAt .invalidEscape s

/-- Four digits are followed by less text. -/
theorem length_hexCode_lt {s rest : List Char} {code : Nat} (h : hexCode s = .ok (code, rest)) :
    rest.length < s.length := by
  have failure : hexFailure s ≠ .ok (code, rest) := by
    unfold hexFailure failBefore failAfter
    split <;> simp
  unfold hexCode at h
  split at h
  · split at h
    · cases h
      simp only [List.length_cons]
      omega
    · exact absurd h failure
  · exact absurd h failure

/-- What follows a code is not longer than the text after it. -/
theorem length_codeChar_le {s rest : List Char} {code : Nat} {c : Char}
    (h : codeChar code s = .ok (c, rest)) : rest.length ≤ s.length := by
  unfold codeChar failAt failAfter failBefore at h
  split at h
  · cases h
  · split at h
    · split at h
      · cases h
      · cases h
      · split at h
        · cases h
        · rename_i hc
          split at h
          · simp only [Except.ok.injEq, Prod.mk.injEq] at h
            obtain ⟨-, rfl⟩ := h
            have := length_hexCode_lt hc
            simp only [List.length_cons]
            omega
          · cases h
      · cases h
      · cases h
    · cases h
      exact Nat.le_refl _

/-- An escape is followed by less text. -/
theorem length_escape_lt {s rest : List Char} {c : Char} (h : escape s = .ok (c, rest)) :
    rest.length < s.length := by
  unfold escape failAt failAfter failBefore at h
  split at h
  · cases h
  · split at h
    · cases h
    · rename_i hc
      have h1 := length_hexCode_lt hc
      have h2 := length_codeChar_le h
      simp only [List.length_cons]
      omega
  · split at h
    · cases h
      simp
    · cases h

/-! ## Strings -/

-- `h` is used by `decreasing_by`, which the linter misses.
set_option linter.unusedVariables false in
/-- The characters of a string up to its closing quotation mark, and the text after it. -/
def characters (s : List Char) : Except Failure (List Char × List Char) :=
  match s with
  | [] => failBefore (.ended .string) []
  | c :: rest =>
    if c = '"' then .ok ([], rest)
    else if c = '\\' then
      match h : escape rest with
      | .error e => .error e
      | .ok (d, left) => (characters left).map fun (ds, left) => (d :: ds, left)
    else if c.toNat < 0x20 then failBefore .controlCharacter rest
    else (characters rest).map fun (ds, left) => (c :: ds, left)
termination_by s.length
decreasing_by
  · have := length_escape_lt h
    simp only [List.length_cons]
    omega
  · simp

/-- The string whose opening quotation mark has been read, and the text after it. -/
def string (s : List Char) : Except Failure (String × List Char) :=
  (characters s).map fun (cs, left) => (String.ofList cs, left)

end PartialRedundancy.Json
