import RetirementLedger.Text.Numeral
import RetirementLedger.Text.Utf8

namespace RetirementLedger.Text.Percent

def percentSign : UInt8 := 0x25

def hexOctet? (b : UInt8) : Option Nat := hexValue? (Char.ofNat b.toNat)

def escaped? (a b : UInt8) : Option UInt8 := do
  let high ← hexOctet? a
  let low ← hexOctet? b
  return UInt8.ofNat (high * 16 + low)

def decode : List UInt8 → List UInt8
  | b :: c :: d :: rest =>
    if b = percentSign then
      match escaped? c d with
      | some octet => octet :: decode rest
      | none => b :: decode (c :: d :: rest)
    else b :: decode (c :: d :: rest)
  | short => short

def isUnreserved (b : UInt8) : Bool :=
  let n := b.toNat
  (0x30 ≤ n && n ≤ 0x39) || (0x41 ≤ n && n ≤ 0x5A) || (0x61 ≤ n && n ≤ 0x7A) ||
    n == 0x2D || n == 0x2E || n == 0x5F || n == 0x7E

def upperHexDigit (n : Nat) : Char := Char.ofNat (if n < 10 then 0x30 + n else 0x37 + n)

def encodeOctet (b : UInt8) : List Char :=
  if isUnreserved b then [Char.ofNat b.toNat]
  else ['%', upperHexDigit (b.toNat / 16), upperHexDigit (b.toNat % 16)]

def encode (s : String) : String := String.ofList ((Utf8.encode s).flatMap encodeOctet)

end RetirementLedger.Text.Percent
