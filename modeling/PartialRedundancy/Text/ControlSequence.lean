/-!
# Control sequences

A text for a terminal may hold control sequences, which change how the terminal shows the text and
are not shown themselves. All start with the escape character. The character after it tells the
form: a control sequence proper goes on to its final letter, a device control string and a few
other strings to their terminator, a command for the operating system to a bell, and any other
sequence ends after one character, or after that of the first intermediate ones which is none.
A new escape character and the two characters that cancel end a sequence wherever it is.

Where a text is not shown on a terminal, its sequences are left out, and so are all other control
characters that are not white space.

## Main definitions

* `ControlSequence.Place` — where in a sequence a text goes on.
* `ControlSequence.next` — the place after one character.
* `plain` — the text that is left.
* `emphasized` — a text between the sequences that begin and end its emphasis.
-/

namespace PartialRedundancy.Text

namespace ControlSequence

/-- Where in a control sequence a text goes on. -/
inductive Place
  /-- Outside of all sequences. -/
  | outside
  /-- After the escape character. -/
  | escape
  /-- After an intermediate character of a short sequence. -/
  | intermediate
  /-- In a control sequence proper, before its final letter. -/
  | control
  /-- At the start of a device control string. -/
  | deviceStart
  /-- Among the parameters of a device control string. -/
  | deviceParameters
  /-- After an intermediate character of a device control string. -/
  | deviceIntermediate
  /-- In a string, before its terminator. -/
  | string
  /-- In a command for the operating system. -/
  | command
deriving DecidableEq, Repr

/-- Whether the code point of a character is in a range. -/
def inRange (first last : Nat) (c : Char) : Bool := first ≤ c.toNat && c.toNat ≤ last

/-- The escape character, which starts a sequence. -/
def isEscape (c : Char) : Bool := c == '\x1b'

/-- The characters that cancel a sequence. -/
def isCancel (c : Char) : Bool := c == '\x18' || c == '\x1a'

/-- The character that ends a command for the operating system. -/
def isBell (c : Char) : Bool := c == '\x07'

/-- The intermediate characters. -/
def isIntermediate (c : Char) : Bool := inRange 0x20 0x2F c

/-- The digits of parameters and the semicolon between them. -/
def isParameter (c : Char) : Bool := inRange 0x30 0x39 c || c == ';'

/-- The marks of private parameters. -/
def isPrivate (c : Char) : Bool := inRange 0x3C 0x3F c

/-- The letters that end a control sequence proper. -/
def isFinal (c : Char) : Bool := inRange 0x40 0x7E c

/-- Whether a character ends a string: the byte of the terminator is one of its own. -/
def isTerminator (c : Char) : Bool := (String.utf8EncodeChar c).contains 0x9C

/-- The place after the escape character and one character more. -/
def afterEscape (c : Char) : Place :=
  if c = '[' then .control
  else if c = ']' then .command
  else if c = 'P' then .deviceStart
  else if c = 'X' || c = '^' || c = '_' then .string
  else if isIntermediate c then .intermediate
  else if inRange 0x30 0x7E c then .outside
  else .escape

/-- The place after a character at the start of a device control string. -/
def afterDeviceStart (c : Char) : Place :=
  if isIntermediate c then .deviceIntermediate
  else if isParameter c || isPrivate c then .deviceParameters
  else if c = ':' || isFinal c then .string
  else .deviceStart

/-- The place after a character among the parameters of a device control string. -/
def afterDeviceParameters (c : Char) : Place :=
  if isIntermediate c then .deviceIntermediate
  else if c = ':' || isPrivate c || isFinal c then .string
  else .deviceParameters

/-- The place after a character that is not shown. -/
def next (p : Place) (c : Char) : Place :=
  if isEscape c then .escape
  else if isCancel c then .outside
  else
    match p with
    | .outside => .outside
    | .escape => afterEscape c
    | .intermediate => if inRange 0x30 0x7E c then .outside else .intermediate
    | .control => if isFinal c then .outside else .control
    | .deviceStart => afterDeviceStart c
    | .deviceParameters => afterDeviceParameters c
    | .deviceIntermediate => if inRange 0x30 0x7E c then .string else .deviceIntermediate
    | .string => if isTerminator c then .outside else .string
    | .command => if isBell c then .outside else .command

/-- The control characters that are white space. -/
def isSpacing (c : Char) : Bool := c == '\t' || c == '\n' || c == '\x0c' || c == '\r'

/-- Whether a character is in ASCII. -/
def isAscii (c : Char) : Bool := c.toNat < 0x80

/-- The characters that are shown outside of sequences. -/
def isShown (c : Char) : Bool := inRange 0x20 0x7E c || isSpacing c || !isAscii c

/-- Whether a character is shown where the one before it is not. White space within a sequence
that is no string is. -/
def emerges (p : Place) (c : Char) : Bool :=
  match p with
  | .outside => isShown c
  | .escape | .intermediate | .control => isSpacing c
  | _ => false

/-- The characters that are left of a text which goes on at some place; `shown` says whether the
character before it is shown. After white space within a sequence the text is shown until the next
character that never is, and there the sequence goes on, unless a character outside of ASCII has
ended it. -/
def strip (p : Place) (shown : Bool) : List Char → List Char
  | [] => []
  | c :: rest =>
    if isShown c && (shown || emerges p c) then
      c :: strip (if isAscii c then p else .outside) true rest
    else strip (next p c) false rest

/-- Nothing that is left is a control character other than white space. -/
theorem isShown_of_mem_strip {p : Place} {shown : Bool} {s : List Char} {c : Char}
    (h : c ∈ strip p shown s) : isShown c = true := by
  induction s generalizing p shown with
  | nil => simp [strip] at h
  | cons d rest ih =>
    simp only [strip] at h
    split at h
    · rename_i hd
      rcases List.mem_cons.mp h with rfl | h
      · exact (Bool.and_eq_true_iff.mp hd).1
      · exact ih h
    · exact ih h

/-- Outside of sequences, a text that is shown throughout is left as it is. -/
theorem strip_of_forall_isShown {s : List Char} (h : ∀ c ∈ s, isShown c = true) (shown : Bool) :
    strip .outside shown s = s := by
  induction s generalizing shown with
  | nil => rfl
  | cons c rest ih =>
    have hc : isShown c = true := h c List.mem_cons_self
    have hrest := ih (fun d hd => h d (List.mem_cons_of_mem c hd)) true
    simp [strip, emerges, hc, hrest]

end ControlSequence

/-- A text without its control sequences and control characters. -/
def plain (text : String) : String :=
  String.ofList (ControlSequence.strip .outside false text.toList)

/-- A text between the sequences that begin and end its emphasis. -/
def emphasized (text : String) : String := "\x1b[1m" ++ text ++ "\x1b[0m"

/-- The sequences of an emphasis are left out. -/
example : plain (emphasized "a" ++ "b") = "ab" := by decide +kernel

/-- An unfinished sequence in an emphasized text ends with the emphasis. -/
example : plain (emphasized "a\x1b]0;x\n" ++ "b") = "ab" := by decide +kernel

end PartialRedundancy.Text
