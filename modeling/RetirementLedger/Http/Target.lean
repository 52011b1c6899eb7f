import RetirementLedger.Text.Percent

namespace RetirementLedger.Http

structure Target where
  path : List Char
  query : List Char
  deriving Repr, DecidableEq

namespace Target

def isPathChar (c : Char) : Bool :=
  let n := c.toNat
  n == 0x21 || n == 0x22 || (0x24 ≤ n && n ≤ 0x3B) || n == 0x3D || (0x40 ≤ n && n ≤ 0x5F) ||
    (0x61 ≤ n && n ≤ 0x7E) || 0x80 ≤ n

def isQueryChar (c : Char) : Bool :=
  let n := c.toNat
  n == 0x21 || (0x24 ≤ n && n ≤ 0x3B) || n == 0x3D || (0x3F ≤ n && n ≤ 0x7E) || 0x80 ≤ n

def isLetterOrDigit (c : Char) : Bool :=
  let n := c.toNat
  (0x30 ≤ n && n ≤ 0x39) || (0x41 ≤ n && n ≤ 0x5A) || (0x61 ≤ n && n ≤ 0x7A)

def isSchemeChar (c : Char) : Bool := isLetterOrDigit c || "+-.~".toList.contains c

def isPlainAuthorityChar (c : Char) : Bool :=
  isLetterOrDigit c || "-._~!$&'()*+,;=".toList.contains c

def ofPathAndQuery? (cs : List Char) : Option Target :=
  let written := cs.takeWhile (· != '#')
  let path := written.takeWhile (· != '?')
  let query := (written.dropWhile (· != '?')).drop 1
  if path.all isPathChar && query.all isQueryChar then
    some ⟨if path.isEmpty then ['/'] else path, query⟩
  else none

/-- What has been read of an authority. An at sign ends the name of a user and a closing bracket an
address, in both of which colons and percent signs may stand. -/
structure Authority where
  colons : Nat := 0
  hasPercent : Bool := false
  isOpened : Bool := false
  isClosed : Bool := false
  isAfterUser : Bool := false
  deriving Repr, DecidableEq

namespace Authority

def maxColons : Nat := 8

def read? (a : Authority) (c : Char) : Option Authority :=
  let a := { a with isAfterUser := false }
  if c == ':' then if a.colons < maxColons then some { a with colons := a.colons + 1 } else none
  else if c == '[' then
    if a.hasPercent || a.isOpened then none else some { a with isOpened := true }
  else if c == ']' then
    if a.isOpened && !a.isClosed then
      some { a with isClosed := true, colons := 0, hasPercent := false }
    else none
  else if c == '@' then some { a with colons := 0, hasPercent := false, isAfterUser := true }
  else if c == '%' then some { a with hasPercent := true }
  else if isPlainAuthorityChar c then some a
  else none

def isComplete (a : Authority) : Bool :=
  a.colons ≤ 1 && !a.hasPercent && a.isOpened == a.isClosed && !a.isAfterUser

end Authority

def isAuthority (cs : List Char) : Bool :=
  !cs.isEmpty && (cs.foldlM Authority.read? {}).any Authority.isComplete

def maxSchemeSize : Nat := 64

def splitScheme? (cs : List Char) : Option (List Char × List Char) :=
  match cs.dropWhile isSchemeChar with
  | ':' :: '/' :: '/' :: rest => some (cs.takeWhile isSchemeChar, rest)
  | _ => none

def isAuthorityEnd (c : Char) : Bool := c == '/' || c == '?' || c == '#'

def ofAddress? (cs : List Char) : Option Target :=
  match splitScheme? cs with
  | some (scheme, rest) =>
    if scheme.length ≤ maxSchemeSize && isAuthority (rest.takeWhile (!isAuthorityEnd ·)) then
      ofPathAndQuery? (rest.dropWhile (!isAuthorityEnd ·))
    else none
  | none => if isAuthority cs then some ⟨[], []⟩ else none

def maxSize : Nat := 65534

def parse? (s : String) : Option Target :=
  if maxSize < s.utf8ByteSize then none
  else
    match s.toList with
    | ['*'] => some ⟨['*'], []⟩
    | '/' :: rest => ofPathAndQuery? ('/' :: rest)
    | cs => ofAddress? cs

end Target

end RetirementLedger.Http
