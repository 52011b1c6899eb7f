import RetirementLedger.Store.Basic

/-!
Stores that fail as planned. A plan says for each agreement id whether an insertion crashes, fails,
cancels the scan that asked for it, or stalls, and whether reads fail. Every fault strikes before
anything is written.
-/
namespace RetirementLedger

inductive Reply (α : Type) where
  | ok (answer : α)
  | failed (failure : Failure)
  | crashed
  deriving Repr, Inhabited

def Reply.ofExcept {α : Type} : Except Failure α → Reply α
  | .ok a => .ok a
  | .error f => .failed f

structure FaultPlan where
  insert : String → Option Failure := fun _ => none
  get : String → Option Failure := fun _ => none
  query : Option Failure := none
  crash : String → Bool := fun _ => false
  cancel : String → Bool := fun _ => false
  stall : String → Bool := fun _ => false
  deriving Inhabited

def FaultPlan.none : FaultPlan := {}

structure FaultyStore where
  store : Store
  faults : FaultPlan

namespace FaultyStore

/-- What strikes an insertion before it reaches the store: a crash comes before a failure. -/
def insertFault (s : FaultyStore) (agreementId : String) : Option (Reply Receipt) :=
  if s.faults.crash agreementId then some .crashed
  else (s.faults.insert agreementId).map .failed

def insert (s : FaultyStore) (r : Retirement) : Reply Receipt × FaultyStore :=
  match s.insertFault r.agreementId with
  | some reply => (reply, s)
  | none =>
    let (reply, store) := s.store.insert r
    (.ofExcept reply, { s with store })

def find? (s : FaultyStore) (agreementId : String) : Except Failure (Option Retirement) :=
  match s.faults.get agreementId with
  | some f => .error f
  | none => s.store.find? agreementId

def select (s : FaultyStore) (selection : Selection) : Except Failure (List Retirement) :=
  match s.faults.query with
  | some f => .error f
  | none => s.store.select selection

end FaultyStore

end RetirementLedger
