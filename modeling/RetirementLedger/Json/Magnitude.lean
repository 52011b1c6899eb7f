/-!
The size of numerals, as far as it takes to tell whether one is out of range for a 64-bit float. A
numeral becomes a float in three rounded steps: the leading digits, a power of ten, and the product
of both. So a numeral a little below the greatest float may still be out of range.
-/
namespace RetirementLedger.Json

/-- The nearest number with at most 53 binary digits before its zeros, the even one of two. -/
def roundBinary (n : Nat) : Nat :=
  let unit := Nat.pow 2 (n.log2 - 52)
  let below := n / unit
  let rest := n % unit
  if unit < 2 * rest || (unit == 2 * rest && below % 2 == 1) then (below + 1) * unit
  else below * unit

/-- The leading digits that fit into 64 bits, and how many digits follow them. -/
def leadingDigits (digits : Nat) : Nat × Nat :=
  let further := (toString digits).length - 20
  let leading := digits / Nat.pow 10 further
  if leading < 0x10000000000000000 then (leading, further) else (leading / 10, further + 1)

def magnitudeLimit : Nat := Nat.pow 2 1024 - Nat.pow 2 970

def maxExponent : Nat := 308

/-- Whether the 64-bit float that `digits * 10 ^ exponent` is read as is finite. -/
def isFinite (digits : Nat) (exponent : Int) : Bool :=
  let (leading, further) := leadingDigits digits
  let exponent := exponent + further
  leading == 0 || exponent < 0 ||
    (exponent ≤ maxExponent &&
      roundBinary leading * roundBinary (Nat.pow 10 exponent.toNat) < magnitudeLimit)

end RetirementLedger.Json
