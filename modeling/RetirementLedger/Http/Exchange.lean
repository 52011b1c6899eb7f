import RetirementLedger.Http.MediaType
import RetirementLedger.Http.Target
import RetirementLedger.Instant.Text
import RetirementLedger.Json.Reader
import RetirementLedger.Json.Writer
import RetirementLedger.Text.Blank

namespace RetirementLedger.Http

structure Request where
  method : String
  target : Target
  headers : List (String × String) := []
  body : List UInt8 := []

inductive Body where
  | empty
  | text (s : String)
  | json (j : Json)
  deriving Inhabited

structure Response where
  status : Nat
  contentType : Option String := none
  body : Body := .empty
  allow : Option String := none
  deriving Inhabited

namespace Request

def sameName (a b : String) : Bool :=
  a.toList.map Text.lowerAscii == b.toList.map Text.lowerAscii

def isVisible (c : Char) : Bool := (0x20 ≤ c.toNat && c.toNat ≤ 0x7E) || c == '\t'

def header? (r : Request) (name : String) : Option String := do
  let (_, value) ← r.headers.find? fun h => sameName h.1 name
  if value.toList.all isVisible then some value else none

def hasJsonBody (r : Request) : Bool :=
  (r.header? "content-type").any fun value => MediaType.isJson value.toList

def defaultActor : String := "management-api"

def isValueChar (c : Char) : Bool := (0x20 ≤ c.toNat && c.toNat != 0x7F) || c == '\t'

def maxNameSize : Nat := 65535

def isSendable (r : Request) : Bool :=
  isToken r.method && r.headers.all fun (name, value) =>
    isToken name && name.utf8ByteSize ≤ maxNameSize && value.toList.all isValueChar

def actor (r : Request) : String :=
  match r.header? "x-actor" with
  | some value => if Text.isBlankText value then defaultActor else Text.trim value
  | none => defaultActor

end Request

namespace Response

def jsonType : String := "application/json"

def textType : String := "text/plain; charset=utf-8"

def ofJson (status : Nat) (j : Json) : Response :=
  { status, contentType := some jsonType, body := .json j }

def ofText (status : Nat) (s : String) : Response :=
  { status, contentType := some textType, body := .text s }

def withoutBody (r : Response) : Response := { r with body := .empty }

end Response

end RetirementLedger.Http
