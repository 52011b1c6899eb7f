import RetirementLedger.Database.Records

namespace RetirementLedger.Database

inductive Call where
  | insert (r : Retirement)
  | find (agreementId : String)

namespace Call

abbrev Answer : Call → Type
  | insert _ => Receipt
  | find _ => Option Retirement

def perform (access : WriteAccess) : (call : Call) → Work call.Answer
  | insert r => if access = .denied then do r.validate; refuseWriting else insertIn r
  | find id => do (← get).find? id

end Call

inductive Script (α : Type) where
  | finish (result : Except Failure α)
  | call (call : Call) (next : Except Failure call.Answer → Script α)

namespace Script

variable {α : Type}

/-- Nothing is thrown by a call that fails; what comes of that is the caller's business. -/
def work (access : WriteAccess) : Script α → Work α
  | finish result => result
  | call c next => do
    let answer ← ExceptT.lift (c.perform access).run
    (next answer).work access

/-- Whatever the calls have put in stays if the result is a success, and nothing of it otherwise. -/
def execute (access : WriteAccess) (script : Script α) : Work α :=
  transaction (access = .locked) (script.work access)

def noting (receipts : List Receipt) : Script α → Script (List Receipt)
  | finish result => finish (result.map fun _ => receipts)
  | call (.insert r) next =>
    call (.insert r) fun answer => (next answer).noting (receipts ++ answer.toOption.toList)
  | call (.find id) next => call (.find id) fun answer => (next answer).noting receipts

end Script

end RetirementLedger.Database
