namespace RetirementLedger.Http

def isTokenChar (c : Char) : Bool :=
  let n := c.toNat
  (0x30 ≤ n && n ≤ 0x39) || (0x41 ≤ n && n ≤ 0x5A) || (0x61 ≤ n && n ≤ 0x7A) ||
    "!#$%&'*+-.^_|~".toList.contains c || n == 0x60

def isToken (s : String) : Bool := !s.isEmpty && s.toList.all isTokenChar

end RetirementLedger.Http
