import RetirementLedger.Text.Case
import RetirementLedger.Text.Numeral
import RetirementLedger.Text.Percent
import RetirementLedger.Text.Split

namespace RetirementLedger

inductive FileMode where
  | create
  | write
  | read
  deriving Repr, DecidableEq, Inhabited

structure FileUse where
  mode : FileMode := .create
  /-- The file is locked for writing, without which there is no write-ahead logging. -/
  isLocking : Bool := true
  /-- The file is taken for one that nobody changes, so it is only read and needs no locks. -/
  isFixed : Bool := false
  deriving Repr, DecidableEq, Inhabited

inductive Location where
  | memory (isReadOnly : Bool)
  | file (path : String) (use : FileUse)
  deriving Repr, DecidableEq, Inhabited

namespace Location
open Text

def memoryName : String := ":memory:"

def ofPath (path : String) (use : FileUse) : Location :=
  if path.isEmpty || path == memoryName then .memory (use.mode = .read) else .file path use

def decodePart (cs : List Char) : String :=
  let octets := Percent.decode (Utf8.encode (String.ofList cs))
  Utf8.toTextLossy (octets.takeWhile (· != 0))

def parameters (cs : List Char) : List (String × String) :=
  ((splitAt '&' cs).map fun part =>
      (decodePart (part.takeWhile (· != '=')), decodePart ((part.dropWhile (· != '=')).drop 1))).filter
    fun (name, _) => !name.isEmpty

structure Access where
  mode : FileMode := .create
  inMemory : Bool := false
  deriving Repr, DecidableEq, Inhabited

def rank : FileMode → Nat
  | .read => 1
  | .write => 2
  | .create => 3

/-- A mode may take away what was allowed, but not give it back; memory allows everything. -/
def Access.limit? (a : Access) (mode : FileMode) : Option Access :=
  if a.inMemory || rank mode ≤ rank a.mode then some { mode } else none

def Access.take? (a : Access) : String × String → Option Access
  | ("mode", "ro") => a.limit? .read
  | ("mode", "rw") => a.limit? .write
  | ("mode", "rwc") => a.limit? .create
  | ("mode", "memory") => some { inMemory := true }
  | ("mode", _) => none
  | ("cache", value) => if value == "shared" || value == "private" then some a else none
  | _ => some a

structure FileSystem where
  isLocking : Bool := true
  inMemory : Bool := false
  deriving Repr, DecidableEq, Inhabited

def fileSystem? (parameters : List (String × String)) : Option FileSystem :=
  match ((parameters.filter fun p => p.1 == "vfs").getLast?).map (·.2) with
  | none | some "unix" | some "unix-excl" => some {}
  | some "unix-none" | some "unix-dotfile" => some { isLocking := false }
  | some "memdb" => some { inMemory := true }
  | some _ => none

/-- Whether a parameter's value says yes: in a word, or as a number that leaves something over when
divided by 256. -/
def isYes (value : String) : Bool :=
  let digits := value.toList.takeWhile isDigit
  if digits.isEmpty then ["on", "yes", "true"].contains (String.ofList (value.toList.map lowerAscii))
  else
    let n := digitsValue digits
    n < 0x80000000 && n % 256 != 0

def isAsked (parameters : List (String × String)) (name : String) : Bool :=
  (parameters.lookup name).any isYes

def afterHost? : List Char → Option (List Char)
  | '/' :: '/' :: rest =>
    let host := String.ofList (rest.takeWhile (· != '/'))
    if host.isEmpty || host == "localhost" then some (rest.dropWhile (· != '/')) else none
  | cs => some cs

def ofAddress? (cs : List Char) : Option Location := do
  let rest := (← afterHost? cs).takeWhile (· != '#')
  let parameters := parameters ((rest.dropWhile (· != '?')).drop 1)
  let access ← parameters.foldlM Access.take? {}
  let system ← fileSystem? parameters
  if access.inMemory || system.inMemory then return .memory (access.mode = .read)
  else
    return ofPath (decodePart (rest.takeWhile (· != '?')))
      { mode := access.mode
        isLocking := system.isLocking && !isAsked parameters "nolock"
        isFixed := isAsked parameters "immutable" }

def scheme : List Char := "file:".toList

def ofName? (name : String) : Option Location :=
  if name.contains '\x00' then none
  else if scheme.isPrefixOf name.toList then ofAddress? (name.toList.drop scheme.length)
  else some (ofPath name {})

end Location

end RetirementLedger
