namespace RetirementLedger.Text

def isDigit (c : Char) : Bool := 0x30 ≤ c.toNat && c.toNat ≤ 0x39

def digitValue (c : Char) : Nat := c.toNat - 0x30

def digitsValue (cs : List Char) : Nat := cs.foldl (fun n c => n * 10 + digitValue c) 0

def natural? (cs : List Char) : Option Nat :=
  if !cs.isEmpty && cs.all isDigit then some (digitsValue cs) else none

def unsigned? : List Char → Option Nat
  | '+' :: cs => natural? cs
  | cs => natural? cs

def signed? : List Char → Option Int
  | '+' :: cs => (natural? cs).map Int.ofNat
  | '-' :: cs => (natural? cs).map fun n => -(n : Int)
  | cs => (natural? cs).map Int.ofNat

def natDigits (n : Nat) : List Char := Nat.toDigits 10 n

def intDigits : Int → List Char
  | .ofNat n => natDigits n
  | .negSucc n => '-' :: natDigits (n + 1)

def padded (width n : Nat) : List Char :=
  let ds := natDigits n
  List.replicate (width - ds.length) '0' ++ ds

def hexValue? (c : Char) : Option Nat :=
  let n := c.toNat
  if 0x30 ≤ n ∧ n ≤ 0x39 then some (n - 0x30)
  else if 0x41 ≤ n ∧ n ≤ 0x46 then some (n - 0x37)
  else if 0x61 ≤ n ∧ n ≤ 0x66 then some (n - 0x57)
  else none

def hexDigit (n : Nat) : Char := Char.ofNat (if n < 10 then 0x30 + n else 0x57 + n)

def hexByte (b : UInt8) : List Char := [hexDigit (b.toNat / 16), hexDigit (b.toNat % 16)]

def unhex? : List Char → Option (List UInt8)
  | [] => some []
  | [_] => none
  | a :: b :: rest => do
    let high ← hexValue? a
    let low ← hexValue? b
    return UInt8.ofNat (high * 16 + low) :: (← unhex? rest)

end RetirementLedger.Text
