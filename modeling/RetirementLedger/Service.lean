import RetirementLedger.Query.Spec
import RetirementLedger.Store.Faults

/-!
The retirement service: a store, a clock, and the notices it sends. Retiring an agreement goes in
three steps (make out the record at the present instant and check it, insert it, announce it if it is new),
which other calls may come between; `RetireCall` is a call that has come so far, and `Service.retire` takes all of its steps at
once. A notice that is refused is counted and otherwise changes nothing.
-/
namespace RetirementLedger

structure Service where
  store : FaultyStore
  clock : Instant
  refuses : String → Bool := fun _ => false
  delivered : List Notice := []
  auditFailures : Nat := 0

inductive RetireCall where
  | asked (agreementId reason actor : String)
  | checked (record : Retirement)
  | stored (receipt : Receipt)
  | done (reply : Reply Receipt)
  deriving Inhabited

structure Page where
  items : List Retirement
  offset : UInt32
  limit : UInt32
  deriving DecidableEq, Inhabited

namespace Service

def announce (s : Service) (r : Retirement) : Service :=
  if s.refuses r.agreementId then { s with auditFailures := s.auditFailures + 1 }
  else { s with delivered := s.delivered ++ [.ofRetirement r] }

def insert (s : Service) (r : Retirement) : Reply Receipt × Service :=
  let (reply, store) := s.store.insert r
  (reply, { s with store })

end Service

namespace RetireCall

def step : RetireCall → Service → RetireCall × Service
  | .asked agreementId reason actor, s =>
    let r := Retirement.create agreementId reason actor s.clock
    match r.validate with
    | .error f => (.done (.failed f), s)
    | .ok () => (.checked r, s)
  | .checked r, s =>
    match s.insert r with
    | (.ok receipt, s) => if receipt.wasNew then (.stored receipt, s) else (.done (.ok receipt), s)
    | (reply, s) => (.done reply, s)
  | .stored receipt, s => (.done (.ok receipt), s.announce receipt.record)
  | .done reply, s => (.done reply, s)

def stepCount : Nat := 3

def steps : Nat → RetireCall → Service → RetireCall × Service
  | 0, call, s => (call, s)
  | n + 1, call, s =>
    let (call, s) := call.step s
    steps n call s

def reply : RetireCall → Reply Receipt
  | .done reply => reply
  | _ => .crashed

def finish (call : RetireCall) (s : Service) : Reply Receipt × Service :=
  let (call, s) := call.steps stepCount s
  (call.reply, s)

end RetireCall

namespace Service

def retire (s : Service) (agreementId reason actor : String) : Reply Receipt × Service :=
  (RetireCall.asked agreementId reason actor).finish s

def get (s : Service) (agreementId : String) : Except Failure (Option Retirement) :=
  s.store.find? agreementId

def isRetired (s : Service) (agreementId : String) : Except Failure Bool := do
  return (← s.get agreementId).isSome

def select (s : Service) (selection : Selection) : Except Failure Page := do
  return ⟨← s.store.select selection, selection.offset, selection.limit⟩

def find (s : Service) (q : RetirementQuery) : Except Failure Page := do s.select (← q.compile)

def query (s : Service) (spec : QuerySpec) : Except Failure Page := do s.select (← spec.compile)

end Service

namespace Page

def toJson? (p : Page) : Option Json := do
  return .ofFields [("items", .array (← p.items.mapM Retirement.toJson?)),
    ("offset", .word32 p.offset), ("limit", .word32 p.limit)]

def ofJson? (j : Json) : Option Page := do
  let [items, offset, limit] ← j.slots? [["items"], ["offset"], ["limit"]] | none
  return ⟨← items.required (Json.list? Retirement.ofJson?), ← offset.required Json.word32?,
    ← limit.required Json.word32?⟩

end Page

structure RetireRequest where
  agreementId : String
  reason : String
  deriving Repr, DecidableEq, Inhabited

namespace RetireRequest

def fields : List (List String) := [["agreementId", "agreement_id"], ["reason"]]

def toJson (r : RetireRequest) : Json :=
  .ofFields [("agreementId", .text r.agreementId), ("reason", .text r.reason)]

def ofJson? (j : Json) : Option RetireRequest := do
  let [id, reason] ← j.slots? fields | none
  return ⟨← id.required Json.text?, ← reason.required Json.text?⟩

end RetireRequest

def apiVersion : String := "api.v1"

end RetirementLedger
