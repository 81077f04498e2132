/-
# Numerals in base 36

The digits are `0` to `9` and `a` to `z`.  `base36` writes a number without
leading zeros, zero itself as `0`; `readBase36` reads a numeral back.
-/

namespace Interop
namespace Numeral

/-- The digit with value `n`, for `n < 36`. -/
def digit (n : Nat) : Char :=
  if n < 10 then Char.ofNat ('0'.toNat + n) else Char.ofNat ('a'.toNat + (n - 10))

/-- The digits of `n` in base 36, most significant first. -/
def digits (n : Nat) : List Char :=
  if n < 36 then [digit n] else digits (n / 36) ++ [digit (n % 36)]
termination_by n
decreasing_by omega

/-- The numeral of `n` in base 36. -/
def base36 (n : Nat) : String :=
  String.ofList (digits n)

/-- The value of one digit. -/
def digitValue? (c : Char) : Option Nat :=
  if '0' ≤ c ∧ c ≤ '9' then some (c.toNat - '0'.toNat)
  else if 'a' ≤ c ∧ c ≤ 'z' then some (c.toNat - 'a'.toNat + 10)
  else none

/-- The number that the numeral `cs` continues from `acc`. -/
def readFrom (acc : Nat) : List Char → Option Nat
  | [] => some acc
  | c :: rest =>
    match digitValue? c with
    | some d => readFrom (36 * acc + d) rest
    | none => none

/-- The number that a numeral in base 36 stands for. -/
def readBase36 (s : String) : Option Nat :=
  if s.isEmpty then none else readFrom 0 s.toList

end Numeral
end Interop
