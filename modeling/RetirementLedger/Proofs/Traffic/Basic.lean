import Mathlib.Logic.Relation
import RetirementLedger.Http.Router
import RetirementLedger.Proofs.Database.Script
import RetirementLedger.Proofs.Service
import RetirementLedger.Snapshot.Basic

/-!
The traffic at a service: calls that are begun, take their steps in any order and end, and all that
others do to the store meanwhile. `Act` lists what may happen next. Questions are not acts, since they
change nothing.

The log keeps what happened, oldest first, and nothing ever looks at it.
-/
namespace RetirementLedger

inductive Event where
  /-- An insertion was answered. `byService` says that it was a step of a call. -/
  | inserted (byService : Bool) (receipt : Receipt)
  | announced (record : Retirement) (taken : Bool)
  deriving DecidableEq

/-- A service with all the calls that were ever begun; those that have ended stay in their places. -/
structure Traffic where
  service : Service
  calls : List RetireCall := []
  log : List Event := []

namespace Event

def ofReply (byService : Bool) (reply : Reply Receipt) : List Event :=
  reply.receipt?.toList.map (.inserted byService)

def creation? (id : String) : Event → Option Retirement
  | .inserted _ receipt =>
    if receipt.wasNew && receipt.record.agreementId == id then some receipt.record else none
  | .announced _ _ => none

def isServed (id : String) : Event → Bool
  | .inserted byService receipt =>
    byService && receipt.wasNew && receipt.record.agreementId == id
  | .announced _ _ => false

def isNotice (id : String) : Event → Bool
  | .inserted _ _ => false
  | .announced r _ => r.agreementId == id

def isRefused : Event → Bool
  | .inserted _ _ => false
  | .announced _ taken => !taken

def delivery? : Event → Option Notice
  | .inserted _ _ => none
  | .announced r taken => if taken then some (.ofRetirement r) else none

def subject : Event → Retirement
  | .inserted _ receipt => receipt.record
  | .announced r _ => r

end Event

def Http.asked? (r : Request) : Option RetireRequest :=
  match Resource.ofPath? r.target.path, r.method with
  | some .retirements, "POST" => (decodeBody r RetireRequest.ofJson?).toOption
  | _, _ => none

namespace RetireCall

def events (call : RetireCall) (s : Service) : List Event :=
  match call with
  | .checked r => Event.ofReply true (s.insert r).1
  | .stored receipt => [.announced receipt.record (!s.refuses receipt.record.agreementId)]
  | _ => []

def isDone : RetireCall → Bool
  | .done _ => true
  | _ => false

def receipt? : RetireCall → Option Receipt
  | .stored receipt => some receipt
  | .done reply => reply.receipt?
  | _ => none

end RetireCall

namespace Traffic

variable (t : Traffic)

abbrev store : Store := t.service.holdings

def created (id : String) : List Retirement := t.log.filterMap (Event.creation? id)

inductive Act where
  | ask (agreementId reason actor : String)
  | request (r : Http.Request)
  | advance (place : Nat)
  | insert (r : Retirement)
  /-- Someone works on the database in a transaction of their own. -/
  | transact (access : WriteAccess) (script : Database.Script Unit) (failsOnLoss : script.FailsOnLoss)
  | importSnapshot (access : WriteAccess) (path : String) (dir : SnapshotDir)
  | reopen (access : WriteAccess)
  | setClock (clock : Instant)
  | setFaults (faults : FaultPlan)
  | setRefusals (refuses : String → Bool)

def ask (agreementId reason actor : String) : Traffic :=
  { t with calls := t.calls ++ [.asked agreementId reason actor] }

def advance (place : Nat) : Traffic :=
  match t.calls[place]? with
  | none => t
  | some call =>
    { service := (call.step t.service).2
      calls := t.calls.set place (call.step t.service).1
      log := t.log ++ call.events t.service }

/-- Works on the database past the service, and puts down the receipts that come of it. -/
def administer {ε : Type} (work : ExceptT ε (StateM Database) (List Receipt)) : Traffic :=
  match t.store with
  | .memory _ => t
  | .database db =>
    { t with
      service := t.service.withHoldings (.database (work.run db).2)
      log := t.log ++ ((work.run db).1.toOption.getD []).map (.inserted false) }

def transact (access : WriteAccess) (script : Database.Script Unit) : Traffic :=
  t.administer ((script.noting []).execute access)

def step : Act → Traffic
  | .ask agreementId reason actor => t.ask agreementId reason actor
  | .request r =>
    match Http.asked? r with
    | none => t
    | some body => t.ask body.agreementId body.reason r.actor
  | .advance place => t.advance place
  | .insert r =>
    { t with
      service := (t.service.insert r).2
      log := t.log ++ Event.ofReply false (t.service.insert r).1 }
  | .transact access script _ => t.transact access script
  | .importSnapshot access path dir => t.administer (Database.importRecords access path dir)
  | .reopen access => t.administer ((fun _ => []) <$> Database.migrate access)
  | .setClock clock => { t with service := { t.service with clock } }
  | .setFaults faults =>
    { t with service := { t.service with store := { t.service.store with faults } } }
  | .setRefusals refuses => { t with service := { t.service with refuses } }

def run (acts : List Act) : Traffic := acts.foldl step t

structure IsInitial : Prop where
  empty : t.store = .memory .empty ∨ t.store = .database .fresh
  noCalls : t.calls = []
  noLog : t.log = []
  noNotices : t.service.delivered = []
  noFailures : t.service.auditFailures = 0

end Traffic

end RetirementLedger
