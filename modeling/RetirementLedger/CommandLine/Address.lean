import RetirementLedger.Text.Numeral

namespace RetirementLedger

inductive HostAddress where
  | four (octets : Vector UInt8 4)
  | six (groups : Vector UInt16 8) (zone : UInt32)
  deriving Repr, DecidableEq

structure ListenAddress where
  host : HostAddress
  number : UInt16
  deriving Repr, DecidableEq

namespace ListenAddress
open Text

def char? (c : Char) : List Char → Option (List Char)
  | d :: rest => if c = d then some rest else none
  | [] => none

def isDigitOf (radix : Nat) (c : Char) : Bool := (hexValue? c).any (· < radix)

def numeral? (radix limit : Nat) (cs : List Char) : Option (Nat × List Char) :=
  let ds := cs.takeWhile (isDigitOf radix)
  let n := ds.foldl (fun n c => n * radix + (hexValue? c).getD 0) 0
  if ds.isEmpty || limit < n then none else some (n, cs.drop ds.length)

def shortNumeral? (radix digits limit : Nat) (cs : List Char) : Option (Nat × List Char) :=
  if (cs.takeWhile (isDigitOf radix)).length ≤ digits then numeral? radix limit cs else none

def octet? (cs : List Char) : Option (Nat × List Char) := do
  let (n, rest) ← shortNumeral? 10 3 255 cs
  if cs.length - rest.length = (natDigits n).length then some (n, rest) else none

def dotted? (cs : List Char) : Option (Vector UInt8 4 × List Char) := do
  let (a, cs) ← octet? cs
  let (b, cs) ← octet? (← char? '.' cs)
  let (c, cs) ← octet? (← char? '.' cs)
  let (d, cs) ← octet? (← char? '.' cs)
  return (#v[.ofNat a, .ofNat b, .ofNat c, .ofNat d], cs)

def groupsOfOctets (octets : Vector UInt8 4) : List Nat :=
  [octets[0].toNat * 256 + octets[1].toNat, octets[2].toNat * 256 + octets[3].toNat]

/-- Reads at most `room` groups with colons between them, and whether they end with four octets. -/
def groups (first : Bool) : Nat → List Char → List Nat × Bool × List Char
  | 0, cs => ([], false, cs)
  | room + 1, cs =>
    match if first then some cs else char? ':' cs with
    | none => ([], false, cs)
    | some inner =>
      match if room = 0 then none else dotted? inner with
      | some (octets, rest) => (groupsOfOctets octets, true, rest)
      | none =>
        match shortNumeral? 16 4 0xFFFF inner with
        | none => ([], false, cs)
        | some (n, rest) =>
          let (others, isDotted, rest) := groups false room rest
          (n :: others, isDotted, rest)

def eightGroups? (cs : List Char) : Option (Vector UInt16 8 × List Char) := do
  let (front, isDotted, cs) := groups true 8 cs
  let (all, cs) ←
    if front.length = 8 then some (front, cs)
    else if isDotted then none
    else do
      let cs ← char? ':' (← char? ':' cs)
      let (back, _, cs) := groups true (7 - front.length) cs
      some (front ++ List.replicate (8 - front.length - back.length) 0 ++ back, cs)
  let all := (all.map UInt16.ofNat).toArray
  if h : all.size = 8 then some (⟨all, h⟩, cs) else none

def zone (cs : List Char) : Nat × List Char :=
  match char? '%' cs with
  | none => (0, cs)
  | some rest => (numeral? 10 0xFFFFFFFF rest).getD (0, cs)

def host? (cs : List Char) : Option (HostAddress × List Char) :=
  match dotted? cs with
  | some (octets, rest) => some (.four octets, rest)
  | none => do
    let (groups, cs) ← eightGroups? (← char? '[' cs)
    let (zone, cs) := zone cs
    return (.six groups (.ofNat zone), ← char? ']' cs)

def ofText? (s : String) : Option ListenAddress := do
  let (host, cs) ← host? s.toList
  let (number, rest) ← numeral? 10 0xFFFF (← char? ':' cs)
  if rest.isEmpty then some ⟨host, .ofNat number⟩ else none

def dottedChars (octets : List Nat) : List Char :=
  ['.'].intercalate (octets.map natDigits)

def groupChars (groups : List Nat) : List Char :=
  [':'].intercalate (groups.map (Nat.toDigits 16))

def zeroRun (groups : List Nat) : Nat := (groups.takeWhile (· == 0)).length

def longestRun (groups : List Nat) : Nat × Nat :=
  (List.range groups.length).foldl
    (fun best start =>
      let run := zeroRun (groups.drop start)
      if best.2 < run then (start, run) else best)
    (0, 0)

def eightChars (groups : List Nat) : List Char :=
  match groups with
  | [0, 0, 0, 0, 0, 0xFFFF, high, low] =>
    "::ffff:".toList ++ dottedChars [high / 256, high % 256, low / 256, low % 256]
  | _ =>
    let (start, run) := longestRun groups
    if run ≤ 1 then groupChars groups
    else groupChars (groups.take start) ++ ':' :: ':' :: groupChars (groups.drop (start + run))

def hostChars : HostAddress → List Char
  | .four octets => dottedChars (octets.toList.map UInt8.toNat)
  | .six groups zone =>
    let zoneChars := if zone = 0 then [] else '%' :: natDigits zone.toNat
    '[' :: (eightChars (groups.toList.map UInt16.toNat) ++ zoneChars ++ [']'])

def toText (a : ListenAddress) : String :=
  String.ofList (hostChars a.host ++ ':' :: natDigits a.number.toNat)

def isOwn (a : ListenAddress) : Bool :=
  match a.host with
  | .four octets => octets[0] == 127 || octets.toList.all (· == 0)
  | .six groups _ => groups.toList.dropLast.all (· == 0) && groups[7] ≤ 1

end ListenAddress

end RetirementLedger
