import RetirementLedger.Proofs.RetireCall
import RetirementLedger.Proofs.Traffic.Basic

namespace RetirementLedger.Traffic
open Relation

inductive Move (t : Traffic) : Traffic → Prop
  | adjust (service : Service) (holdings : service.holdings = t.store)
      (delivered : service.delivered = t.service.delivered)
      (failures : service.auditFailures = t.service.auditFailures) : Move t { t with service }
  | begin (agreementId reason actor : String) :
      Move t { t with calls := t.calls ++ [.asked agreementId reason actor] }
  | insert {r : Retirement} {receipt : Receipt} {after : Store}
      (insertion : Store.Insertion t.store r (.ok receipt) after) (sound : after.Sound) :
      Move t
        { t with
          service := t.service.withHoldings after
          log := t.log ++ [.inserted false receipt] }
  | check {place : Nat} {agreementId reason actor : String}
      (call : t.calls[place]? = some (.asked agreementId reason actor)) :
      Move t
        { t with
          calls := t.calls.set place (.checked (.create agreementId reason actor t.service.clock)) }
  | fail {place : Nat} {old : RetireCall} {reply : Reply Receipt}
      (call : t.calls[place]? = some old) (unstored : old.receipt? = none)
      (failure : reply.receipt? = none) :
      Move t { t with calls := t.calls.set place (.done reply) }
  | answer {place : Nat} {r : Retirement} {receipt : Receipt} {after : Store}
      (call : t.calls[place]? = some (.checked r))
      (insertion : Store.Insertion t.store r (.ok receipt) after) (sound : after.Sound) :
      Move t
        { service := t.service.withHoldings after
          calls := t.calls.set place
            (if receipt.wasNew then .stored receipt else .done (.ok receipt))
          log := t.log ++ [.inserted true receipt] }
  | announce {place : Nat} {receipt : Receipt} (call : t.calls[place]? = some (.stored receipt)) :
      Move t
        { service := t.service.announce receipt.record
          calls := t.calls.set place (.done (.ok receipt))
          log := t.log ++ [.announced receipt.record (!t.service.refuses receipt.record.agreementId)] }

variable {t : Traffic}

theorem Move.sound {u : Traffic} (move : Move t u) (sound : t.store.Sound) : u.store.Sound := by
  cases move with
  | adjust service holdings delivered failures =>
      change service.holdings.Sound
      rwa [holdings]
  | begin => exact sound
  | insert insertion after => exact after
  | check call => exact sound
  | fail call unstored failure => exact sound
  | answer call insertion after => exact after
  | announce call => simpa [store] using sound

theorem Move.keeps {u : Traffic} (move : Move t u) {id : String} {r : Retirement}
    (held : t.store.record? id = some r) : u.store.record? id = some r := by
  cases move with
  | adjust service holdings delivered failures =>
      change service.holdings.record? id = some r
      rwa [holdings]
  | begin => exact held
  | insert insertion after => exact insertion.keeps held
  | check call => exact held
  | fail call unstored failure => exact held
  | answer call insertion after => exact insertion.keeps held
  | announce call => simpa [store] using held

theorem Move.kind {u : Traffic} (move : Move t u) : u.store.isDatabase = t.store.isDatabase := by
  cases move with
  | adjust service holdings delivered failures =>
      change service.holdings.isDatabase = _
      rw [holdings]
  | insert insertion after => exact insertion.kind
  | answer call insertion after => exact insertion.kind
  | announce call => simp [store]
  | _ => rfl

theorem set_getElem? {calls : List RetireCall} {place : Nat} {call : RetireCall}
    (at_ : calls[place]? = some call) : calls.set place call = calls := by
  obtain ⟨bound, rfl⟩ := List.getElem?_eq_some_iff.mp at_
  exact List.set_getElem_self bound

/-- One call changes, and what was true of a call at some place stays true of the one there. -/
theorem exists_getElem?_set {calls : List RetireCall} {place other : Nat} {old new : RetireCall}
    {P : RetireCall → Prop} (found : ∃ call, calls[place]? = some call ∧ P call)
    (at_ : calls[other]? = some old) (step : P old → P new) :
    ∃ call, (calls.set other new)[place]? = some call ∧ P call := by
  obtain ⟨call, here, holds⟩ := found
  by_cases same : other = place
  · subst same
    obtain ⟨bound, -⟩ := List.getElem?_eq_some_iff.mp at_
    rw [here] at at_
    cases at_
    exact ⟨new, List.getElem?_set_self bound, step holds⟩
  · exact ⟨call, by rw [List.getElem?_set_ne same, here], holds⟩

theorem advance_moves (sound : t.store.Sound) (place : Nat) :
    ReflTransGen Move t (t.advance place) := by
  unfold advance
  cases known : t.calls[place]? with
  | none => exact .refl
  | some call =>
      cases call with
      | asked agreementId reason actor =>
          simp only [RetireCall.step, RetireCall.events, List.append_nil]
          cases (Retirement.create agreementId reason actor t.service.clock).validate with
          | error f => exact .single (.fail known rfl rfl)
          | ok u => exact .single (.check known)
      | checked r =>
          simp only [RetireCall.step, RetireCall.events]
          rcases Service.insert_cases sound r with
            ⟨reply, failure, answer⟩ | ⟨receipt, after, insertion, sound', answer⟩
          · have nothing : Event.ofReply true reply = [] := by simp [Event.ofReply, failure]
            simp only [answer, nothing, List.append_nil]
            cases reply with
            | ok receipt => cases failure
            | failed f => exact .single (.fail known rfl rfl)
            | crashed => exact .single (.fail known rfl rfl)
          · have event : Event.ofReply true (.ok receipt) = [.inserted true receipt] := rfl
            have move := Move.answer known insertion sound'
            simp only [answer, event]
            cases new : receipt.wasNew with
            | true => exact .single (by simpa [new] using move)
            | false => exact .single (by simpa [new] using move)
      | stored receipt => exact .single (.announce known)
      | done reply =>
          have unchanged : t.calls.set place (.done reply) = t.calls := set_getElem? known
          simp only [RetireCall.step, RetireCall.events, List.append_nil, unchanged]
          exact .refl

theorem inserts_moves {db after : Database} {receipts : List Receipt}
    (inserts : Database.Inserts db receipts after) (sound : t.store.Sound)
    (store : t.store = .database db) :
    ReflTransGen Move t
      { t with
        service := t.service.withHoldings (.database after)
        log := t.log ++ receipts.map (.inserted false) } := by
  induction inserts generalizing t with
  | nil db =>
      have same : t.service.withHoldings (.database db) = t.service := by
        simp only [Service.withHoldings, ← store]
      simp only [List.map_nil, List.append_nil, same]
      exact .refl
  | @cons db next last r receipt receipts insert rest ih =>
      obtain ⟨insertion, sound'⟩ := Store.insert_spec sound r
      have first : t.store.insert r = (.ok receipt, .database next) := by
        rw [store, Store.insert, insert]
      rw [first] at insertion sound'
      -- The rest of the chain starts from the store that the first insertion leaves behind.
      have others := ih (t :=
        { t with
          service := t.service.withHoldings (.database next)
          log := t.log ++ [.inserted false receipt] }) sound' rfl
      refine ReflTransGen.head (.insert insertion sound') ?_
      simpa [Service.withHoldings, List.append_assoc] using others

def OnlyInserts {ε : Type} (work : ExceptT ε (StateM Database) (List Receipt)) (db : Database) :
    Prop :=
  (∃ f, work.run db = (.error f, db)) ∨
    ∃ receipts after, work.run db = (.ok receipts, after) ∧ Database.Inserts db receipts after

theorem administer_moves {ε : Type} {work : ExceptT ε (StateM Database) (List Receipt)}
    (sound : t.store.Sound) (inserts : ∀ db, t.store = .database db → OnlyInserts work db) :
    ReflTransGen Move t (t.administer work) := by
  unfold administer
  cases store : t.store with
  | memory ledger => exact .refl
  | database db =>
      rcases inserts db store with ⟨f, failed⟩ | ⟨receipts, after, worked, chain⟩
      · have same : t.service.withHoldings (.database db) = t.service := by
          simp only [Service.withHoldings, ← store]
        simp only [failed, Except.toOption, Option.getD_none, List.map_nil, List.append_nil, same]
        exact .refl
      · simp only [worked, Except.toOption, Option.getD_some]
        exact inserts_moves chain sound store

theorem onlyInserts_importRecords {db : Database} (current : db.recordedVersion = Database.latestVersion)
    (access : WriteAccess) (path : String) (dir : SnapshotDir) :
    OnlyInserts (Database.importRecords access path dir) db := by
  unfold OnlyInserts Database.importRecords
  simp only [run_bind, Database.run_migrate_current access current, run_lift]
  cases read : Snapshot.read path dir with
  | error f => exact .inl ⟨f, rfl⟩
  | ok records =>
      rcases Database.insertAll_cases access records db with
        ⟨f, failed⟩ | ⟨receipts, after, worked, chain⟩
      · exact .inl ⟨.store f, by simp only [Database.run_ofWork, failed]⟩
      · exact .inr ⟨receipts, after, by simp only [Database.run_ofWork, worked], chain⟩

theorem onlyInserts_migrate {db : Database} (current : db.recordedVersion = Database.latestVersion)
    (access : WriteAccess) :
    OnlyInserts ((fun _ => []) <$> Database.migrate access) db := by
  refine .inr ⟨[], db, ?_, .nil db⟩
  rw [map_eq_pure_bind, run_bind, Database.run_migrate_current access current]
  rfl

theorem step_moves (sound : t.store.Sound) (act : Act) : ReflTransGen Move t (t.step act) := by
  have current {db : Database} (store : t.store = .database db) :
      db.recordedVersion = Database.latestVersion := by
    have current := sound.current
    rw [store] at current
    exact current.1
  cases act with
  | ask agreementId reason actor => exact .single (.begin _ _ _)
  | request r =>
      simp only [step]
      cases Http.asked? r with
      | none => exact .refl
      | some body => exact .single (.begin _ _ _)
  | advance place => exact advance_moves sound place
  | insert r =>
      simp only [step]
      rcases Service.insert_cases sound r with
        ⟨reply, failure, answer⟩ | ⟨receipt, after, insertion, sound', answer⟩
      · simp only [answer, Event.ofReply, failure, Option.toList_none, List.map_nil,
          List.append_nil]
        exact .refl
      · simp only [answer]
        exact .single (.insert insertion sound')
  | transact access script failsOnLoss =>
      exact administer_moves sound fun db _ => Database.Script.execute_noting_cases failsOnLoss access db
  | importSnapshot access path dir =>
      exact administer_moves sound fun db store =>
        onlyInserts_importRecords (current store) access path dir
  | reopen access =>
      exact administer_moves sound fun db store => onlyInserts_migrate (current store) access
  | setClock clock => exact .single (.adjust _ rfl rfl rfl)
  | setFaults faults => exact .single (.adjust _ rfl rfl rfl)
  | setRefusals refuses => exact .single (.adjust _ rfl rfl rfl)

theorem exists_withHoldings_administer {ε : Type}
    (work : ExceptT ε (StateM Database) (List Receipt)) :
    ∃ holdings, (t.administer work).service = t.service.withHoldings holdings := by
  unfold administer
  split
  · exact ⟨t.service.holdings, rfl⟩
  · exact ⟨_, rfl⟩

theorem service_step (t : Traffic) (act : Act) :
    (∃ holdings, (t.step act).service = t.service.withHoldings holdings) ∨
      (∃ place receipt, act = .advance place ∧ t.calls[place]? = some (.stored receipt) ∧
        (t.step act).service = t.service.announce receipt.record) ∨
      (∃ clock, act = .setClock clock ∧ (t.step act).service = { t.service with clock }) ∨
      (∃ faults, act = .setFaults faults ∧
        (t.step act).service = { t.service with store := { t.service.store with faults } }) ∨
      ∃ refuses, act = .setRefusals refuses ∧ (t.step act).service = { t.service with refuses } := by
  cases act with
  | ask agreementId reason actor => exact .inl ⟨t.service.holdings, rfl⟩
  | request r =>
      refine .inl ⟨t.service.holdings, ?_⟩
      simp only [step]
      split <;> rfl
  | advance place =>
      simp only [step, advance]
      cases here : t.calls[place]? with
      | none => exact .inl ⟨t.service.holdings, rfl⟩
      | some call =>
          rcases call.service_step t.service with ⟨receipt, rfl⟩ | kept
          · exact .inr (.inl ⟨place, receipt, rfl, here, rfl⟩)
          · exact .inl kept
  | insert r => exact .inl (Service.exists_withHoldings_insert r)
  | transact access script failsOnLoss => exact .inl (exists_withHoldings_administer _)
  | importSnapshot access path dir => exact .inl (exists_withHoldings_administer _)
  | reopen access => exact .inl (exists_withHoldings_administer _)
  | setClock clock => exact .inr (.inr (.inl ⟨clock, rfl, rfl⟩))
  | setFaults faults => exact .inr (.inr (.inr (.inl ⟨faults, rfl, rfl⟩)))
  | setRefusals refuses => exact .inr (.inr (.inr (.inr ⟨refuses, rfl, rfl⟩)))

theorem step_clock {act : Act} (unset : ∀ clock, act ≠ .setClock clock) :
    (t.step act).service.clock = t.service.clock := by
  rcases t.service_step act with ⟨_, same⟩ | ⟨place, receipt, rfl, here, same⟩ | ⟨clock, rfl, -⟩ |
    ⟨_, -, same⟩ | ⟨_, -, same⟩
  · exact same ▸ rfl
  · rw [same]
    unfold Service.announce
    split <;> rfl
  · exact absurd rfl (unset clock)
  · exact same ▸ rfl
  · exact same ▸ rfl

theorem step_calls {act : Act} (other : ∀ place, act ≠ .advance place) :
    ∃ begun, (t.step act).calls = t.calls ++ begun ∧
      ∀ call ∈ begun, ∃ id reason actor, call = .asked id reason actor := by
  have nothing : ∃ begun, t.calls = t.calls ++ begun ∧
      ∀ call ∈ begun, ∃ id reason actor, call = .asked id reason actor :=
    ⟨[], by simp, by simp⟩
  have administered {ε : Type} (work : ExceptT ε (StateM Database) (List Receipt)) :
      (t.administer work).calls = t.calls := by
    unfold administer
    split <;> rfl
  cases act with
  | ask agreementId reason actor => exact ⟨[_], rfl, by simp⟩
  | request r =>
      simp only [step]
      split
      · exact nothing
      · exact ⟨[_], rfl, by simp⟩
  | advance place => exact absurd rfl (other place)
  | transact access script failsOnLoss => simpa only [step, transact, administered] using nothing
  | importSnapshot access path dir => simpa only [step, administered] using nothing
  | reopen access => simpa only [step, administered] using nothing
  | _ => exact nothing

theorem moves_preserve {u : Traffic} {P : Traffic → Prop} (moves : ReflTransGen Move t u)
    (holds : P t) (preserved : ∀ {t u : Traffic}, P t → Move t u → P u) : P u := by
  induction moves with
  | refl => exact holds
  | tail _ move ih => exact preserved ih move

theorem moves_sound {u : Traffic} (moves : ReflTransGen Move t u) (sound : t.store.Sound) :
    u.store.Sound :=
  moves_preserve moves sound fun sound move => move.sound sound

theorem moves_kind {u : Traffic} (moves : ReflTransGen Move t u) :
    u.store.isDatabase = t.store.isDatabase :=
  moves_preserve (P := fun u => u.store.isDatabase = t.store.isDatabase) moves rfl
    fun same move => move.kind.trans same

theorem moves_keep {u : Traffic} (moves : ReflTransGen Move t u) {id : String} {r : Retirement}
    (held : t.store.record? id = some r) : u.store.record? id = some r :=
  moves_preserve (P := fun t => t.store.record? id = some r) moves held fun held move =>
    move.keeps held

theorem run_moves (sound : t.store.Sound) (acts : List Act) : ReflTransGen Move t (t.run acts) := by
  induction acts generalizing t with
  | nil => exact .refl
  | cons act rest ih =>
      have first := step_moves sound act
      exact first.trans (ih (moves_sound first sound))

theorem IsInitial.sound (initial : t.IsInitial) : t.store.Sound := by
  rcases initial.empty with store | store
  · rw [store]
    exact Store.sound_empty
  · rw [store]
    exact Store.sound_fresh

end RetirementLedger.Traffic
