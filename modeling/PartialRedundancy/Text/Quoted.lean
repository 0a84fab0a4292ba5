import PartialRedundancy.Text.Unprintable

/-!
# Quoted texts

A text between quotation marks, on one line and with every character visible.

## Main definitions

* `Text.escape` — one character as it stands in a quoted text.
* `Text.quoted` — the whole text.
-/

namespace PartialRedundancy.Text

/-- A character as it stands in a quoted text: the quotation mark and the backslash follow a
backslash, some control characters have a letter, and all else that is not visible is shown by its
number in base sixteen. -/
def escape (c : Char) : List Char :=
  if c = '"' then ['\\', '"']
  else if c = '\\' then ['\\', '\\']
  else if c = '\n' then ['\\', 'n']
  else if c = '\r' then ['\\', 'r']
  else if c = '\t' then ['\\', 't']
  else if c.toNat = 0 then ['\\', '0']
  else if Unprintable.contains c then
    ['\\', 'u', '\x7b'] ++ Nat.toDigits 16 c.toNat ++ ['\x7d']
  else [c]

/-- A text between quotation marks. -/
def quoted (text : String) : String := String.ofList (['"'] ++ text.toList.flatMap escape ++ ['"'])

end PartialRedundancy.Text
