import RetirementLedger.Retirement

namespace RetirementLedger

inductive AuditFailure where
  | transport (detail : String)
  | rejected (status : Nat)
  | queueFull
  | closed
  deriving Repr, DecidableEq

namespace AuditFailure

def message : AuditFailure → String
  | .transport detail => "audit transport failed: " ++ detail
  | .rejected status => "audit endpoint rejected event with status " ++ toString status
  | .queueFull => "audit queue is full"
  | .closed => "audit queue is closed"

end AuditFailure

structure NoticeQueue where
  capacity : Nat
  waiting : List Notice := []
  /-- The notice that the worker has taken and not yet handed on. -/
  inHand : Option Notice := none
  isClosed : Bool := false
  /-- The notices handed to the sink, oldest first, each with whether the sink took it. -/
  handed : List (Notice × Bool) := []
  deriving Inhabited

namespace NoticeQueue

def placeSize : Nat := 96

def maxSize : Nat := 0x7fffffffffffffff

def isCapacity (capacity : Nat) : Bool := capacity * placeSize ≤ maxSize

def withCapacity? (capacity : Nat) : Option NoticeQueue :=
  if isCapacity capacity then some { capacity := max capacity 1 } else none

def publish (q : NoticeQueue) (n : Notice) : Except AuditFailure Unit × NoticeQueue :=
  if q.isClosed then (.error .closed, q)
  else if q.waiting.length < q.capacity then (.ok (), { q with waiting := q.waiting ++ [n] })
  else (.error .queueFull, q)

def take (q : NoticeQueue) : NoticeQueue :=
  match q.inHand, q.waiting with
  | none, n :: rest => { q with inHand := some n, waiting := rest }
  | _, _ => q

def deliver (accepts : Notice → Bool) (q : NoticeQueue) : NoticeQueue :=
  match q.inHand with
  | some n => { q with inHand := none, handed := q.handed ++ [(n, accepts n)] }
  | none => q

def close (q : NoticeQueue) : NoticeQueue := { q with isClosed := true }

def drain (accepts : Notice → Bool) (q : NoticeQueue) : NoticeQueue :=
  (List.range (q.waiting.length + 1)).foldl (fun q _ => (q.take).deliver accepts) q

def shutdown (accepts : Notice → Bool) (q : NoticeQueue) : NoticeQueue := q.close.drain accepts

def delivered (q : NoticeQueue) : List Notice := (q.handed.filter (·.2)).map (·.1)

def deliveryFailures (q : NoticeQueue) : Nat := q.handed.countP (!·.2)

end NoticeQueue

end RetirementLedger
