import RetirementLedger.Enforcement
import RetirementLedger.Proofs.Store

namespace RetirementLedger

def Reply.receipt? : Reply Receipt → Option Receipt
  | .ok receipt => some receipt
  | _ => none

@[simp] theorem Reply.receipt?_failed (f : Failure) :
    Reply.receipt? (.failed f) = none := rfl

@[simp] theorem Reply.receipt?_crashed : Reply.receipt? .crashed = none := rfl

@[simp] theorem Reply.receipt?_ok (receipt : Receipt) :
    Reply.receipt? (.ok receipt) = some receipt := rfl

theorem Reply.receipt?_eq_some {reply : Reply Receipt} {receipt : Receipt} :
    reply.receipt? = some receipt ↔ reply = .ok receipt := by
  cases reply <;> simp [receipt?]

namespace Store

variable {s after : Store} {r : Retirement} {receipt : Receipt}

def Holds (s : Store) (r : Retirement) : Prop := s.record? r.agreementId = some r

theorem Holds.unique {other : Retirement} (held : s.Holds r) (also : s.Holds other)
    (about : r.agreementId = other.agreementId) : r = other := by
  unfold Holds at held also
  rw [about, also] at held
  exact (Option.some.inj held).symm

theorem Insertion.agreementId (sound : s.Sound) (insertion : Insertion s r (.ok receipt) after) :
    receipt.record.agreementId = r.agreementId := by
  cases insertion with
  | known accepted held => exact (sound.filed _ _ held).1
  | made accepted free kept content kind => exact (kept_spec kept).1

theorem Insertion.holds (sound : s.Sound) (insertion : Insertion s r (.ok receipt) after) :
    after.Holds receipt.record := by
  have about := insertion.agreementId sound
  unfold Holds
  cases insertion with
  | known accepted held => rw [about, held]
  | made accepted free kept content kind => rw [about, content, if_pos rfl]

theorem Insertion.keeps (insertion : Insertion s r (.ok receipt) after) {id : String}
    {earlier : Retirement} (held : s.record? id = some earlier) :
    after.record? id = some earlier := by
  cases insertion with
  | known accepted known => exact held
  | made accepted free kept content kind =>
      rw [content]
      split
      · next same =>
          rw [same, free] at held
          cases held
      · exact held

theorem Insertion.kind (insertion : Insertion s r (.ok receipt) after) :
    after.isDatabase = s.isDatabase := by
  cases insertion with
  | known accepted held => rfl
  | made accepted free kept content kind => exact kind

end Store

namespace Service

variable {s : Service}

abbrev holdings (s : Service) : Store := s.store.store

def withHoldings (s : Service) (store : Store) : Service :=
  { s with store := { s.store with store } }

theorem exists_withHoldings_insert (r : Retirement) :
    ∃ holdings, (s.insert r).2 = s.withHoldings holdings := by
  unfold insert FaultyStore.insert
  cases s.store.insertFault r.agreementId with
  | some reply => exact ⟨s.holdings, rfl⟩
  | none => rcases s.store.store.insert r with ⟨_ | _, after⟩ <;> exact ⟨after, rfl⟩

theorem insert_cases (sound : s.holdings.Sound) (r : Retirement) :
    (∃ reply, reply.receipt? = none ∧ s.insert r = (reply, s)) ∨
      ∃ receipt after, Store.Insertion s.holdings r (.ok receipt) after ∧ after.Sound ∧
        s.insert r = (.ok receipt, s.withHoldings after) := by
  unfold insert FaultyStore.insert
  cases struck : s.store.insertFault r.agreementId with
  | some reply =>
      left
      refine ⟨reply, ?_, rfl⟩
      unfold FaultyStore.insertFault at struck
      split at struck
      · cases struck
        rfl
      · obtain ⟨f, -, rfl⟩ := Option.map_eq_some_iff.mp struck
        rfl
  | none =>
      obtain ⟨insertion, sound'⟩ := Store.insert_spec sound r
      rcases answer : s.holdings.insert r with ⟨f | receipt, after⟩
      · rw [answer] at insertion
        left
        refine ⟨.failed f, rfl, ?_⟩
        cases insertion <;> rfl
      · rw [answer] at insertion sound'
        exact .inr ⟨receipt, after, insertion, sound', rfl⟩

theorem get_eq (sound : s.holdings.Sound) (id : String) :
    s.get id =
      match s.store.faults.get id with
      | some f => .error f
      | none => .ok (s.holdings.record? id) := by
  unfold get FaultyStore.find?
  cases s.store.faults.get id with
  | some f => rfl
  | none => exact sound.readable id

theorem check_eq {id : String} (shown : Text.isBlankText id = false) :
    s.check id =
      match s.get id with
      | .ok none => .allow
      | .ok (some r) => .ofRetirement r
      | .error _ => .unavailable id := by
  unfold check Decision.ofLookup
  rw [shown]
  rfl

@[simp] theorem holdings_announce (r : Retirement) : (s.announce r).holdings = s.holdings := by
  unfold announce
  split <;> rfl

end Service

end RetirementLedger
