/-!
# Shortest decimals

The decimal with the fewest digits that stands for a binary floating-point value: every real
number near such a value rounds to it, and of the decimals among these one with the fewest digits
is taken, and the nearest of those.

## Main definitions

* `Decimal.Binary` — a finite binary value without its sign, as a multiple of a power of two.
* `Decimal.Scaled` — a decimal, as a multiple of a power of ten.
* `Decimal.Binary.readsBack` — whether a decimal rounds to a value.
* `Decimal.Binary.shortest` — the shortest decimal that does.

## Design

All comparisons are exact, between natural numbers. The grids of decimals are tried from coarse to
fine; if a point of a grid lies among the reals that round to the value, so does one of the two
neighbours of the value on that grid, so only these are tried. Seventeen digits are always enough.
-/

namespace PartialRedundancy.Decimal

/-- The value `significand * 2 ^ exponent`. -/
structure Binary where
  /-- The integer part. -/
  significand : Nat
  /-- The power of two. -/
  exponent : Int
  /-- Whether the next smaller value is only half as far away as the next greater one. -/
  narrowBelow : Bool
deriving DecidableEq, Repr

/-- The decimal `digits * 10 ^ exponent`. -/
structure Scaled where
  /-- The digits, read as one number. -/
  digits : Nat
  /-- The power of ten. -/
  exponent : Int
deriving DecidableEq, Repr

/-- The same decimal without zeros at the end of its digits. -/
def Scaled.reduced (d : Scaled) : Scaled :=
  if d.digits ≠ 0 ∧ d.digits % 10 = 0 then reduced ⟨d.digits / 10, d.exponent + 1⟩ else d
termination_by d.digits
decreasing_by omega

namespace Binary

/-- The value of the bits of a finite double without their sign: one bit of sign, eleven of
exponent and fifty-two of significand. -/
def ofBits (bits : Nat) : Binary :=
  let exponent : Nat := bits / Nat.pow 2 52 % Nat.pow 2 11
  let fraction : Nat := bits % Nat.pow 2 52
  if exponent = 0 then ⟨fraction, -1074, false⟩
  else ⟨Nat.pow 2 52 + fraction, (exponent : Int) - 1075, fraction == 0 && 1 < exponent⟩

/-- The order of `a * 10 ^ i` and `b * 2 ^ j`. -/
def compareScaled (a : Nat) (i : Int) (b : Nat) (j : Int) : Ordering :=
  compare (a * Nat.pow 10 i.toNat * Nat.pow 2 (-j).toNat)
    (b * Nat.pow 2 j.toNat * Nat.pow 10 (-i).toNat)

/-- Whether a decimal rounds to the value: it lies between the points halfway to the next values,
or on one of these points if the significand is even. -/
def readsBack (x : Binary) (d : Scaled) : Bool :=
  let below := if x.narrowBelow then 4 * x.significand - 1 else 4 * x.significand - 2
  let above := 4 * x.significand + 2
  let even := x.significand % 2 == 0
  let lower := compareScaled d.digits d.exponent below (x.exponent - 2)
  let upper := compareScaled d.digits d.exponent above (x.exponent - 2)
  (lower == .gt || (even && lower == .eq)) && (upper == .lt || (even && upper == .eq))

/-- The number of digits before the decimal point; zeros after the point count backwards. No
double but zero is below `10 ^ -400`. -/
def scale (x : Binary) : Int :=
  let shifted :=
    x.significand * Nat.pow 2 x.exponent.toNat * Nat.pow 10 400 / Nat.pow 2 (-x.exponent).toNat
  ((Nat.toDigits 10 shifted).length : Int) - 400

/-- The decimal of some number of digits that rounds to the value; of two the nearer, and of two
that are equally near the even one. -/
def onGrid? (x : Binary) (digits : Nat) : Option Scaled :=
  let exponent := x.scale - digits
  let num := x.significand * Nat.pow 2 x.exponent.toNat * Nat.pow 10 (-exponent).toNat
  let den := Nat.pow 2 (-x.exponent).toNat * Nat.pow 10 exponent.toNat
  let below : Scaled := ⟨num / den, exponent⟩
  let above : Scaled := ⟨num / den + 1, exponent⟩
  match x.readsBack below, x.readsBack above with
  | false, false => none
  | true, false => some below
  | false, true => some above
  | true, true =>
    match compare (2 * num) ((2 * below.digits + 1) * den) with
    | .lt => some below
    | .gt => some above
    | .eq => if below.digits % 2 = 0 then some below else some above

/-- The value itself as a decimal. -/
def exact (x : Binary) : Scaled :=
  if 0 ≤ x.exponent then ⟨x.significand * Nat.pow 2 x.exponent.toNat, 0⟩
  else ⟨x.significand * Nat.pow 5 (-x.exponent).toNat, x.exponent⟩

/-- The shortest decimal that rounds to the value. On the first grid that has one it may still end
in a zero, if it is a power of ten. -/
def shortest (x : Binary) : Scaled :=
  (((List.range' 1 17).findSome? x.onGrid?).getD x.exact).reduced

end Binary

/-- Halfway between two values a decimal rounds to the even one. -/
example : (Binary.ofBits 0x3FF0000000000000).readsBack ⟨(2 ^ 53 + 1) * 5 ^ 53, -53⟩ = true := by
  decide +kernel

/-- A decimal past that point rounds to the next value. -/
example :
    (Binary.ofBits 0x3FF0000000000000).readsBack ⟨(2 ^ 53 + 1) * 5 ^ 53 + 1, -53⟩ = false := by
  decide +kernel

/-- Below a power of two the values stand closer. -/
example :
    (Binary.ofBits 0x3FF0000000000000).readsBack ⟨(2 ^ 54 - 1) * 5 ^ 54 - 1, -54⟩ = false := by
  decide +kernel

/-- One tenth has one digit, although its double has fifty-five. -/
example : (Binary.ofBits 0x3FB999999999999A).shortest = ⟨1, -1⟩ := by decide +kernel

/-- The double of a ten-millionth lies below it, and so its digits start one place further on. -/
example : (Binary.ofBits 0x3E7AD7F29ABCAF48).shortest = ⟨1, -7⟩ := by decide +kernel

end PartialRedundancy.Decimal
