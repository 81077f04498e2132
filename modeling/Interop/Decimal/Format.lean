/-
# How a float is written

Two formats, both with the digits of `Interop.Decimal.Shortest`.  `plain` never
uses an exponent and writes whole numbers without a point.  `exact` keeps a `.0`
on whole numbers and goes over to an exponent from 10¹⁶ upwards and below 10⁻⁴.
Both write the sign of a negative zero.
-/

import Interop.Decimal.Shortest

namespace Interop
namespace Decimal

/-- The choices of a format. -/
structure Format where
  /-- Least exponent of the leading digit that is written without an exponent. -/
  positionalFrom : Option Int
  /-- Greatest exponent of the leading digit that is written without an
  exponent. -/
  positionalTo : Option Int
  /-- Whether a whole number ends in `.0`. -/
  pointZero : Bool

/-- The format of numbers turned into text. -/
def plain : Format := ⟨none, none, false⟩

/-- The format of numbers inside a printed value. -/
def exact : Format := ⟨some (-4), some 15, true⟩

/-- Whether a number whose leading digit has exponent `lead` is written without
an exponent. -/
def Format.positional (f : Format) (lead : Int) : Bool :=
  (match f.positionalFrom with | some lo => lo ≤ lead | none => true) &&
    (match f.positionalTo with | some hi => lead ≤ hi | none => true)

/-- A number without an exponent. -/
def Format.writePositional (f : Format) (d : Fraction) : List Char :=
  let ds := Nat.toDigits 10 d.digits
  if 0 ≤ d.exponent then
    ds ++ List.replicate d.exponent.toNat '0' ++ (if f.pointZero then ['.', '0'] else [])
  else
    let places := (-d.exponent).toNat
    let padded := List.replicate (places + 1 - ds.length) '0' ++ ds
    let whole := padded.length - places
    padded.take whole ++ '.' :: padded.drop whole

/-- A number with one digit before the point and an exponent. -/
def writeScientific (d : Fraction) (lead : Int) : List Char :=
  let ds := Nat.toDigits 10 d.digits
  let fraction := match ds.drop 1 with
    | [] => []
    | rest => '.' :: rest
  ds.take 1 ++ fraction ++ 'e' :: (toString lead).toList

/-- A positive decimal. -/
def Format.write (f : Format) (d : Fraction) : List Char :=
  let lead := d.exponent + digitCount d.digits - 1
  if f.positional lead then f.writePositional d else writeScientific d lead

/-- What a float stands for. -/
inductive Reading
  | nan
  | infinity (negative : Bool)
  | zero (negative : Bool)
  | finite (negative : Bool) (value : Binary)

/-- The value with the pattern `bits`: a sign, 11 bits of exponent, and 52 bits of
significand below a hidden one. -/
def Reading.ofBits (bits : Nat) : Reading :=
  let hidden := 0x10000000000000
  let negative := bits / (hidden * 0x800) == 1
  let e : Nat := bits / hidden % 0x800
  let m := bits % hidden
  if e = 2047 then (if m = 0 then .infinity negative else .nan)
  else if e = 0 then
    (if m = 0 then .zero negative else .finite negative ⟨m, -1074, false⟩)
  else .finite negative ⟨m + hidden, (e : Int) - 1075, m == 0 && e != 1⟩

/-- The sign in front of a number. -/
def signText (negative : Bool) : List Char :=
  if negative then ['-'] else []

/-- The text of a value. -/
def Format.text (f : Format) : Reading → String
  | .nan => "NaN"
  | .infinity negative => String.ofList (signText negative ++ "inf".toList)
  | .zero negative => String.ofList (signText negative ++ f.write ⟨0, 0⟩)
  | .finite negative value => String.ofList (signText negative ++ f.write (shortest value))

/-- The text of a float. -/
def Format.ofFloat (f : Format) (x : Float) : String :=
  f.text (Reading.ofBits x.toBits.toNat)

end Decimal
end Interop
