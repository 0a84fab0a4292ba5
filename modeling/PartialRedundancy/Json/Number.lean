import PartialRedundancy.Decimal.Shortest
import PartialRedundancy.Json.Failure

/-!
# JSON numbers

Reading a number, only to say what it is. A number without point and exponent that fits in 64 bits
is an integer, and any other is a floating-point value. The value of the latter is computed from
the leading digits that fit in 64 bits, and from a power of ten that counts the others.

## Main definitions

* `Json.number` — the number whose sign has been read, described.
* `Json.floatText` — the text of a floating-point value.
-/

namespace PartialRedundancy.Json

/-- The value of a decimal digit. -/
def digitValue (c : Char) : Nat := c.toNat - '0'.toNat

/-- Whether a text goes on with a digit. -/
def startsWithDigit : List Char → Bool
  | [] => false
  | c :: _ => c.isDigit

/-- Appends digits to a number as long as it stays below a bound; the result and the text left. -/
def appendDigits (bound value : Nat) : List Char → Nat × List Char
  | [] => (value, [])
  | c :: rest =>
    if c.isDigit && 10 * value + digitValue c < bound then
      appendDigits bound (10 * value + digitValue c) rest
    else (value, c :: rest)

/-- The significand of a number stays below this bound. -/
def significandBound : Nat := Nat.pow 2 64

/-- The exponent that is written stays below this bound. -/
def exponentBound : Nat := Nat.pow 2 31

/-! ## Floating-point values -/

/-- A power of ten. The greatest that a double holds is `10 ^ 308`. -/
def powerOfTen (exponent : Nat) : Float := Float.ofScientific 1 false exponent

/-- Divides by a power of ten, in steps of `10 ^ 308` while anything is left. -/
def divideByPower (f : Float) (exponent : Nat) : Float :=
  if exponent ≤ 308 then f / powerOfTen exponent
  else if f == 0 then f
  else divideByPower (f / powerOfTen 308) (exponent - 308)
termination_by exponent
decreasing_by omega

/-- The value of a significand and a power of ten, unless it is too large. -/
def scaled? (significand : Nat) (exponent : Int) : Option Float :=
  let f := significand.toUInt64.toFloat
  if exponent < 0 then some (divideByPower f (-exponent).toNat)
  else if exponent ≤ 308 then
    let product := f * powerOfTen exponent.toNat
    if product.isInf then none else some product
  else if significand = 0 then some f
  else none

/-- The exponent of a decimal, always with its sign. -/
def exponentText (exponent : Int) : String :=
  (if exponent < 0 then "e-" else "e+") ++ toString exponent.natAbs

/-- The digits of a decimal with its point: positional from `0.00001` to below `10 ^ 16`, and with
an exponent elsewhere. -/
def layout (d : Decimal.Scaled) : String :=
  let digits := Nat.toDigits 10 d.digits
  let point := (digits.length : Int) + d.exponent
  let zeros (count : Int) := List.replicate count.toNat '0'
  String.ofList <|
    if 0 ≤ d.exponent && point ≤ 16 then digits ++ zeros d.exponent ++ ['.', '0']
    else if 0 < point && point ≤ 16 then
      digits.take point.toNat ++ ['.'] ++ digits.drop point.toNat
    else if -5 < point && point ≤ 0 then ['0', '.'] ++ zeros (-point) ++ digits
    else
      let fraction := digits.drop 1
      digits.take 1 ++ (if fraction.isEmpty then [] else '.' :: fraction) ++
        (exponentText (point - 1)).toList

/-- The text of a finite value without its sign. -/
def magnitudeText (f : Float) : String :=
  let x := Decimal.Binary.ofBits f.toBits.toNat
  if x.significand = 0 then "0.0" else layout x.shortest

/-- The text of a value with a sign. -/
def floatText (negative : Bool) (f : Float) : String :=
  (if negative then "-" else "") ++ magnitudeText f

/-! ## Reading -/

/-- The description of a floating-point value that has been read. -/
def floating (negative : Bool) (significand : Nat) (exponent : Int) (rest : List Char) :
    Except Failure (Found × List Char) :=
  match scaled? significand exponent with
  | some f => .ok (.floating (floatText negative f), rest)
  | none => failBefore .numberOutOfRange rest

/-- The digits of an exponent whose sign has been read. An exponent past its bound makes any
number but zero too large, or so small that it is zero. -/
def exponentDigits (negative : Bool) (significand : Nat) (exponent : Int) (down : Bool)
    (s : List Char) : Except Failure (Found × List Char) :=
  match s with
  | [] => failBefore (.ended .value) []
  | _ :: after =>
    if !startsWithDigit s then failAt .invalidNumber s
    else
      let (written, rest) := appendDigits exponentBound 0 s
      if startsWithDigit rest then
        if significand != 0 && !down then failAt .numberOutOfRange rest
        else .ok (.floating (floatText negative 0), after.dropWhile Char.isDigit)
      else
        let exponent := if down then exponent - written else exponent + written
        floating negative significand exponent rest

/-- The exponent of a number whose mark of exponent has been read. -/
def exponentPart (negative : Bool) (significand : Nat) (exponent : Int) :
    List Char → Except Failure (Found × List Char)
  | '+' :: rest => exponentDigits negative significand exponent false rest
  | '-' :: rest => exponentDigits negative significand exponent true rest
  | rest => exponentDigits negative significand exponent false rest

/-- What may follow the digits of a number with a point or with dropped digits. -/
def afterDigits (negative : Bool) (significand : Nat) (exponent : Int) :
    List Char → Except Failure (Found × List Char)
  | 'e' :: rest => exponentPart negative significand exponent rest
  | 'E' :: rest => exponentPart negative significand exponent rest
  | rest => floating negative significand exponent rest

/-- The digits after the point. -/
def fraction (negative : Bool) (significand : Nat) (exponent : Int) (s : List Char) :
    Except Failure (Found × List Char) :=
  match s with
  | [] => failBefore (.ended .value) []
  | _ =>
    if !startsWithDigit s then failAt .invalidNumber s
    else
      let (significand, rest) := appendDigits significandBound significand s
      let used : Int := (s.length - rest.length : Nat)
      afterDigits negative significand (exponent - used) (rest.dropWhile Char.isDigit)

/-- The integer of some digits. There is no negative zero among the integers, and the negative
ones end at `-2 ^ 63`. -/
def integer (negative : Bool) (significand : Nat) (rest : List Char) :
    Except Failure (Found × List Char) :=
  if !negative then .ok (.integer significand, rest)
  else if significand = 0 || Nat.pow 2 63 < significand then floating true significand 0 rest
  else .ok (.integer (-significand), rest)

/-- What may follow the digits before the point, of which those after the significand are
dropped. -/
def afterInteger (negative : Bool) (significand : Nat) (s : List Char) :
    Except Failure (Found × List Char) :=
  let dropped := (s.takeWhile Char.isDigit).length
  match s.dropWhile Char.isDigit with
  | '.' :: rest => fraction negative significand dropped rest
  | rest =>
    if dropped = 0 && !(rest.head? == some 'e' || rest.head? == some 'E') then
      integer negative significand rest
    else afterDigits negative significand dropped rest

/-- The number whose sign has been read. -/
def number (negative : Bool) (s : List Char) : Except Failure (Found × List Char) :=
  match s with
  | [] => failBefore (.ended .value) []
  | '0' :: rest =>
    if startsWithDigit rest then failAt .invalidNumber rest else afterInteger negative 0 rest
  | _ =>
    if startsWithDigit s then
      let (significand, rest) := appendDigits significandBound 0 s
      afterInteger negative significand rest
    else failAt .invalidNumber s

end PartialRedundancy.Json
