/-!
Octets read as UTF-8. `decode` keeps the reading total: every longest run of octets that starts a
character but never finishes one becomes a single `none`, and all other octets become the
characters they denote.
-/
namespace RetirementLedger.Text.Utf8

/-- A character under way: how many octets it still owes, the range of the next one, and the bits
read so far. -/
structure Partial where
  owed : Nat
  low : Nat
  high : Nat
  bits : Nat
  deriving Repr, DecidableEq

inductive Lead where
  | whole (symbol : Option Char)
  | opens (start : Partial)
  deriving Repr, DecidableEq

/-- What an octet means where a character may start. The narrowed ranges after `E0`, `ED`, `F0` and
`F4` leave out overlong forms, surrogates and everything above U+10FFFF. -/
def lead (b : Nat) : Lead :=
  if b < 0x80 then .whole (some (Char.ofNat b))
  else if b < 0xC2 then .whole none
  else if b < 0xE0 then .opens ⟨1, 0x80, 0xBF, b - 0xC0⟩
  else if b = 0xE0 then .opens ⟨2, 0xA0, 0xBF, 0⟩
  else if b = 0xED then .opens ⟨2, 0x80, 0x9F, 0xD⟩
  else if b < 0xF0 then .opens ⟨2, 0x80, 0xBF, b - 0xE0⟩
  else if b = 0xF0 then .opens ⟨3, 0x90, 0xBF, 0⟩
  else if b < 0xF4 then .opens ⟨3, 0x80, 0xBF, b - 0xF0⟩
  else if b = 0xF4 then .opens ⟨3, 0x80, 0x8F, 4⟩
  else .whole none

def decodeFrom : Option Partial → List UInt8 → List (Option Char)
  | none, [] => []
  | some _, [] => [none]
  | none, b :: rest =>
    match lead b.toNat with
    | .whole symbol => symbol :: decodeFrom none rest
    | .opens p => decodeFrom (some p) rest
  | some p, b :: rest =>
    if p.low ≤ b.toNat ∧ b.toNat ≤ p.high then
      let bits := p.bits * 64 + (b.toNat - 0x80)
      if p.owed = 1 then some (Char.ofNat bits) :: decodeFrom none rest
      else decodeFrom (some ⟨p.owed - 1, 0x80, 0xBF, bits⟩) rest
    else
      match lead b.toNat with
      | .whole symbol => none :: symbol :: decodeFrom none rest
      | .opens q => none :: decodeFrom (some q) rest

def decode (bytes : List UInt8) : List (Option Char) := decodeFrom none bytes

def toText? (bytes : List UInt8) : Option String :=
  (decode bytes).mapM id |>.map String.ofList

def toTextLossy (bytes : List UInt8) : String :=
  String.ofList ((decode bytes).map (·.getD '\uFFFD'))

def encode (s : String) : List UInt8 := s.toUTF8.toList

end RetirementLedger.Text.Utf8
