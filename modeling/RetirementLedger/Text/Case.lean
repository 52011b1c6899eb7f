namespace RetirementLedger.Text

def lowerAscii (c : Char) : Char :=
  if 0x41 ≤ c.toNat ∧ c.toNat ≤ 0x5A then Char.ofNat (c.toNat + 0x20) else c

end RetirementLedger.Text
