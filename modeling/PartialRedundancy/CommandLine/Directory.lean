import PartialRedundancy.CommandLine.Run

/-!
# Runs in a directory

What a run of the program does to a directory that holds files and no other directories.

## Main definitions

* `Directory` — names with the bytes of their files.
* `Directory.resolve` — where a path leads.
* `Directory.text`, `Directory.save` — reading through a path, and writing to a name.
* `Directory.run` — a run of the program, with the directory after it.
-/

namespace PartialRedundancy.CommandLine

/-- A directory of files. -/
structure Directory where
  /-- The names with the bytes of their files. -/
  files : List (String × ByteArray)

/-- Where the steps of a path lead. -/
inductive Place
  /-- The directory itself. -/
  | here
  /-- A directory around it, or apart from it. -/
  | elsewhere
  /-- A name in the directory, whether there is a file of that name or not. -/
  | name (name : String)
deriving DecidableEq, Repr

/-- The number of bytes of a name that is not too long. -/
def nameLimit : Nat := 255

/-- The number of bytes of a path that is not too long. -/
def pathLimit : Nat := 4095

namespace Directory

/-- The bytes of a file. -/
def bytes? (d : Directory) (name : String) : Option ByteArray :=
  (d.files.find? fun file => file.1 == name).map Prod.snd

/-- Goes a step on. An empty step and a dot stay in a directory, two dots lead up, and from a name
there is no way on. Nothing is known of other directories, so no name is found in them. -/
def step (d : Directory) (place : Place) (text : String) : Except ReadFailure Place :=
  match place with
  | .name name => .error (if (d.bytes? name).isSome then .notDirectory else .missing)
  | place =>
    if text = "" || text = "." then .ok place
    else if text = ".." then .ok .elsewhere
    else if nameLimit < text.utf8ByteSize then .error .nameTooLong
    else if place = .here then .ok (.name text)
    else .error .missing

/-- Where a path leads. The empty path leads nowhere, and a path that starts with a slash leads out
of the directory. -/
def resolve (d : Directory) (path : String) : Except ReadFailure Place :=
  if path = "" then .error .missing
  else if pathLimit < path.utf8ByteSize then .error .nameTooLong
  else
    let start := if path.startsWith "/" then .elsewhere else .here
    (path.splitOn "/").foldlM d.step start

/-- The text that a path leads to. -/
def text (d : Directory) : Files := fun path => do
  match ← d.resolve path with
  | .here | .elsewhere => .error .directory
  | .name name =>
    match d.bytes? name with
    | none => .error .missing
    | some bytes =>
      match String.fromUTF8? bytes with
      | none => .error .notText
      | some text => .ok text

/-- The directory with another text in one of its files, or in a new one. -/
def save (d : Directory) (name text : String) : Directory :=
  ⟨(name, text.toUTF8) :: d.files.filter fun file => file.1 != name⟩

/-- A run of the program: what it shows, and the directory after it. -/
def run (d : Directory) (arguments : List String) : Completion × Directory :=
  match respond d.text arguments with
  | .print text => (.success text, d)
  | .refuse error => (.refusal error, d)
  | .fail error => (.failure error, d)
  | .save path text =>
    match d.resolve path with
    | .ok (.name name) => (.success "", d.save name text)
    | _ => (.failure (.unwritable path), d)

/-- The files of `after` that are new or have changed, with their texts. -/
def changes (before after : Directory) : List (String × String) :=
  after.files.filterMap fun (name, bytes) =>
    if (before.bytes? name).map ByteArray.toList = some bytes.toList then none
    else (String.fromUTF8? bytes).map fun text => (name, text)

end Directory

end PartialRedundancy.CommandLine
