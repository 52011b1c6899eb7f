import RetirementLedger.Proofs.Readings
import RetirementLedger.Proofs.System.Transitions

namespace RetirementLedger

namespace RetireCall

def pending? : RetireCall → Option Retirement
  | .checked r => some r
  | _ => none

theorem pending?_ofReply (reply : Reply Receipt) : (ofReply reply).pending? = none := by
  cases reply with
  | ok receipt =>
      simp only [ofReply]
      split <;> rfl
  | failed f => rfl
  | crashed => rfl

theorem step_precise {call : RetireCall} {s : Service} (sound : s.holdings.Sound)
    (precise : s.holdings.IsPrecise) (whole : ∀ r, call.pending? = some r → r.retiredAt.IsWhole) :
    (call.step s).2.holdings.IsPrecise ∧
      ∀ r, (call.step s).1.pending? = some r → r.retiredAt.IsWhole := by
  cases call with
  | asked agreementId reason actor =>
      simp only [step]
      split
      · exact ⟨precise, fun other pending => by cases pending⟩
      · refine ⟨precise, fun other pending => ?_⟩
        cases pending
        exact Instant.isWhole_truncateToMillis _
  | checked r =>
      rw [step_checked]
      refine ⟨?_, fun other pending => by rw [pending?_ofReply] at pending; cases pending⟩
      rcases Service.insert_cases sound r with
        ⟨reply, failure, answer⟩ | ⟨receipt, after, insertion, sound', answer⟩
      · rw [answer]
        exact precise
      · rw [answer]
        exact insertion.isPrecise precise (whole r rfl)
  | stored receipt =>
      refine ⟨?_, fun other pending => by cases pending⟩
      change (s.announce receipt.record).holdings.IsPrecise
      rwa [Service.holdings_announce]
  | done reply => exact ⟨precise, whole⟩

end RetireCall

namespace Traffic

/-- Whoever inserts a retirement past the service has it built by the one function that builds them. -/
def Act.IsBuilt : Act → Prop
  | .insert r => ∃ id reason actor instant, r = .create id reason actor instant
  | _ => True

structure Precise (t : Traffic) : Prop where
  store : t.store.IsPrecise
  calls : ∀ call ∈ t.calls, ∀ r, call.pending? = some r → r.retiredAt.IsWhole

variable {t : Traffic}

theorem Precise.ask (precise : t.Precise) (id reason actor : String) :
    (t.ask id reason actor).Precise := by
  refine ⟨precise.store, fun call member r pending => ?_⟩
  rcases List.mem_append.mp member with earlier | new
  · exact precise.calls call earlier r pending
  · cases List.mem_singleton.mp new
    cases pending

theorem Precise.advance (precise : t.Precise) (sound : t.store.Sound) (place : Nat) :
    (t.advance place).Precise := by
  unfold Traffic.advance
  split
  · exact precise
  · next call here =>
    obtain ⟨store, pending⟩ :=
      RetireCall.step_precise sound precise.store (precise.calls call (List.mem_of_getElem? here))
    refine ⟨store, fun other member r waits => ?_⟩
    rcases List.mem_or_eq_of_mem_set member with earlier | rfl
    · exact precise.calls other earlier r waits
    · exact pending r waits

theorem Precise.step {act : Act} (precise : t.Precise) (sound : t.store.Sound) (built : act.IsBuilt) :
    (t.step act).Precise := by
  have sound' : (t.step act).store.Sound := moves_sound (step_moves sound act) sound
  have administer {ε : Type} (work : ExceptT ε (StateM Database) (List Receipt))
      (sound : (t.administer work).store.Sound) : (t.administer work).Precise := by
    unfold Traffic.administer at sound ⊢
    split
    · exact precise
    · next db store =>
      simp only [store] at sound
      exact ⟨Store.isPrecise_database sound.current, precise.calls⟩
  cases act with
  | ask id reason actor => exact precise.ask id reason actor
  | request r =>
      simp only [Traffic.step]
      split
      · exact precise
      · exact precise.ask _ _ _
  | advance place => exact precise.advance sound place
  | insert r =>
      obtain ⟨id, reason, actor, instant, rfl⟩ := built
      refine ⟨?_, precise.calls⟩
      change (t.service.insert _).2.holdings.IsPrecise
      rcases Service.insert_cases sound (.create id reason actor instant) with
        ⟨reply, failure, answer⟩ | ⟨receipt, after, insertion, sound', answer⟩
      · rw [answer]
        exact precise.store
      · rw [answer]
        exact insertion.isPrecise precise.store (Instant.isWhole_truncateToMillis instant)
  | transact access script failsOnLoss => exact administer _ sound'
  | importSnapshot access path dir => exact administer _ sound'
  | reopen access => exact administer _ sound'
  | setClock clock => exact ⟨precise.store, precise.calls⟩
  | setFaults faults => exact ⟨precise.store, precise.calls⟩
  | setRefusals refuses => exact ⟨precise.store, precise.calls⟩

theorem IsInitial.precise (initial : t.IsInitial) : t.Precise where
  store id r held := by
    have nothing : t.store.record? id = none := by
      rcases initial.empty with store | store <;> rw [store] <;> rfl
    rw [nothing] at held
    cases held
  calls call member := by simp [initial.noCalls] at member

end Traffic

namespace System

variable {s after : System}

def Act.IsBuilt : Act → Prop
  | .traffic act => act.IsBuilt
  | _ => True

theorem Transition.precise {act : Act} (transition : s.Transition act after) (sound : s.store.Sound)
    (precise : s.toTraffic.Precise) (built : act.IsBuilt) : after.toTraffic.Precise := by
  cases transition with
  | traffic act => exact precise.step sound built
  | begunCall phase going examined => exact precise.ask _ _ _
  | _ => exact precise

end System

namespace Traffic

variable {t : Traffic} {db : Database} {lost : List (String × Row)}

theorem filed_administer {ε : Type} {work : ExceptT ε (StateM Database) (List Receipt)}
    (store : t.store = .database db) (filed : db.Filed lost) (inserts : OnlyInserts work db) :
    ∃ after, (t.administer work).store = .database after ∧ after.Filed lost := by
  simp only [administer, store]
  refine ⟨_, rfl, ?_⟩
  rcases inserts with ⟨f, failed⟩ | ⟨receipts, after, worked, chain⟩
  · rw [failed]
    exact filed
  · rw [worked]
    exact filed.inserts chain

theorem filed_insert {s : Service} (store : s.holdings = .database db) (filed : db.Filed lost)
    (r : Retirement) : ∃ after, (s.insert r).2.holdings = .database after ∧ after.Filed lost := by
  unfold Service.insert FaultyStore.insert
  cases s.store.insertFault r.agreementId with
  | some reply => exact ⟨db, store, filed⟩
  | none =>
      have made : (s.holdings.insert r).2 = .database ((Database.insert .granted r).run db).2 := by
        rw [store]
        rfl
      rcases answer : s.holdings.insert r with ⟨f | receipt, after⟩
      · rw [answer] at made
        exact ⟨_, made, filed.insert r⟩
      · rw [answer] at made
        exact ⟨_, made, filed.insert r⟩

theorem filed_step (store : t.store = .database db) (filed : db.Filed lost) (act : Act) :
    ∃ after, (t.step act).store = .database after ∧ after.Filed lost := by
  have unmoved : ∃ after, t.store = .database after ∧ after.Filed lost := ⟨db, store, filed⟩
  cases act with
  | request r =>
      simp only [step]
      split <;> exact unmoved
  | advance place =>
      simp only [step, advance]
      cases t.calls[place]? with
      | none => exact unmoved
      | some call =>
          cases call with
          | checked r =>
              change ∃ after, (RetireCall.step (.checked r) t.service).2.holdings = _ ∧ _
              rw [RetireCall.step_checked]
              exact filed_insert store filed r
          | asked agreementId reason actor =>
              simp only [RetireCall.step]
              split <;> exact unmoved
          | stored receipt =>
              change ∃ after, (t.service.announce receipt.record).holdings = _ ∧ _
              rwa [Service.holdings_announce]
          | done reply => exact unmoved
  | insert r => exact filed_insert store filed r
  | transact access script failsOnLoss =>
      exact filed_administer store filed (Database.Script.execute_noting_cases failsOnLoss access db)
  | importSnapshot access path dir =>
      exact filed_administer store filed (onlyInserts_importRecords filed.current.1 access path dir)
  | reopen access => exact filed_administer store filed (onlyInserts_migrate filed.current.1 access)
  | _ => exact unmoved

theorem filed_run (store : t.store = .database db) (filed : db.Filed lost) (acts : List Act) :
    ∃ after, (t.run acts).store = .database after ∧ after.Filed lost := by
  induction acts generalizing t db with
  | nil => exact ⟨db, store, filed⟩
  | cons act rest ih =>
      obtain ⟨next, store, filed⟩ := filed_step store filed act
      exact ih store filed

def losses (t : Traffic) (access : WriteAccess) (script : Database.Script Unit) :
    List (String × Row) :=
  match t.store with
  | .memory _ => []
  | .database db => script.committedLosses access db

theorem filed_transact (store : t.store = .database db) (filed : db.Filed lost) (access : WriteAccess)
    (script : Database.Script Unit) :
    ∃ after, (t.transact access script).store = .database after ∧
      after.Filed (lost ++ t.losses access script) := by
  simp only [transact, administer, losses, store]
  exact ⟨_, rfl, script.after_execute_noting db ▸ script.filed_execute filed⟩

end Traffic

namespace System

/-- What may happen where others work on the database in transactions of any kind. -/
inductive Operation where
  | act (act : Act)
  | transact (access : WriteAccess) (script : Database.Script Unit)

def Operation.IsBuilt : Operation → Prop
  | .act own => own.IsBuilt
  | .transact _ _ => True

def perform (s : System) : Operation → System
  | .act act => s.step act
  | .transact access script => { s with toTraffic := s.toTraffic.transact access script }

def performAll (s : System) (operations : List Operation) : System := operations.foldl perform s

/-- The rows of those transactions that succeeded although the insertion of the row had been answered with a
failure. -/
def losses : System → List Operation → List (String × Row)
  | _, [] => []
  | s, .act act :: rest => (s.step act).losses rest
  | s, .transact access script :: rest =>
    s.toTraffic.losses access script ++ (s.perform (.transact access script)).losses rest

def WellFiled (s : System) (lost : List (String × Row)) : Prop :=
  match s.store with
  | .memory _ => s.store.Sound ∧ s.toTraffic.Precise
  | .database db => db.Filed lost

variable {s : System} {lost : List (String × Row)}

theorem wellFiled_of_database {db : Database} (store : s.store = .database db) (filed : db.Filed lost) :
    s.WellFiled lost := by
  rw [WellFiled, store]
  exact filed

theorem wellFiled_of_memory {ledger : Ledger} (store : s.store = .memory ledger) (sound : s.store.Sound)
    (precise : s.toTraffic.Precise) : s.WellFiled lost := by
  unfold WellFiled
  rw [store]
  exact ⟨store ▸ sound, precise⟩

theorem IsInitial.wellFiled (initial : s.IsInitial) : s.WellFiled [] := by
  rcases initial.traffic.empty with store | store
  · exact wellFiled_of_memory store initial.traffic.sound initial.traffic.precise
  · exact wellFiled_of_database store Database.filed_fresh

theorem WellFiled.step (filed : s.WellFiled lost) {act : Act} (built : act.IsBuilt) :
    (s.step act).WellFiled lost := by
  unfold WellFiled at filed
  split at filed
  · next ledger store =>
    have sound := Traffic.moves_sound (run_moves filed.1 [act]) filed.1
    have precise := (s.transition act).precise filed.1 filed.2 built
    have kind := Traffic.moves_kind (run_moves filed.1 [act])
    rw [store] at kind
    cases after : (s.step act).store with
    | memory ledger => exact wellFiled_of_memory after sound precise
    | database db =>
        change (s.step act).store.isDatabase = _ at kind
        rw [after] at kind
        cases kind
  · next db store =>
    obtain ⟨acts, run⟩ := step_toTraffic (s := s) act
    obtain ⟨after, store, filed⟩ := Traffic.filed_run store filed acts
    exact wellFiled_of_database (run ▸ store) filed

theorem WellFiled.transact (filed : s.WellFiled lost) (access : WriteAccess)
    (script : Database.Script Unit) :
    (s.perform (.transact access script)).WellFiled (lost ++ s.toTraffic.losses access script) := by
  unfold WellFiled at filed
  split at filed
  · next ledger store =>
    have same : s.toTraffic.transact access script = s.toTraffic := by
      simp only [Traffic.transact, Traffic.administer, store]
    refine wellFiled_of_memory (same ▸ store) ?_ ?_
    · change (s.toTraffic.transact access script).store.Sound
      rw [same]
      exact filed.1
    · change (s.toTraffic.transact access script).Precise
      rw [same]
      exact filed.2
  · next db store =>
    obtain ⟨after, store, filed⟩ := Traffic.filed_transact store filed access script
    exact wellFiled_of_database store filed

theorem WellFiled.performAll (filed : s.WellFiled lost) {operations : List Operation}
    (built : ∀ operation ∈ operations, operation.IsBuilt) :
    (s.performAll operations).WellFiled (lost ++ s.losses operations) := by
  induction operations generalizing s lost with
  | nil =>
      rw [losses, List.append_nil]
      exact filed
  | cons operation rest ih =>
      obtain ⟨first, later⟩ := List.forall_mem_cons.mp built
      cases operation with
      | act act => exact ih (filed.step first) later
      | transact access script =>
          rw [losses, ← List.append_assoc]
          exact ih (filed.transact access script) later

theorem WellFiled.represents (filed : s.WellFiled lost) :
    ∃ records unreadable, s.store.Represents records unreadable ∧ unreadable ⊆ lost := by
  unfold WellFiled at filed
  split at filed
  · next ledger store =>
    rw [store] at filed ⊢
    have precise := filed.2.store
    rw [store] at precise
    exact ⟨_, [], Store.represents_values filed.1 precise, List.nil_subset _⟩
  · next db store =>
    rw [store]
    exact Store.represents_rows filed

end System

namespace Service

variable {s : Service} {records : List Retirement} {lost : List (String × Row)}

theorem mem_of_get (represents : s.holdings.Represents records lost) {id : String} {r : Retirement}
    (shown : s.get id = .ok (some r)) : r ∈ records ∧ r.agreementId = id := by
  unfold get FaultyStore.find? at shown
  split at shown
  · cases shown
  · by_cases known : ∃ e ∈ lost, e.1 = id
    · obtain ⟨e, member, rfl⟩ := known
      rw [represents.unread e member] at shown
      cases shown
    · rw [represents.found id fun e member same => known ⟨e, member, same⟩] at shown
      exact (Retirement.find?_eq_some_iff represents.nodup).mp (Except.ok.inj shown)

theorem subset_of_select (represents : s.holdings.Represents records lost) {selection : Selection}
    {page : Page} (shown : s.select selection = .ok page) : page.items ⊆ records := by
  obtain ⟨items, answer, rest⟩ := bind_eq_ok.mp shown
  cases rest
  unfold FaultyStore.select at answer
  split at answer
  · cases answer
  · exact represents.selected selection items answer

end Service

namespace System

/-- Whatever retirements are built, called for, scanned, requested, imported or inserted in transactions, the
store represents a list of valid ones at whole milliseconds, and every reader sees the members of this list.
Besides them there can only be rows that a transaction has left unreadable. -/
theorem store_represents {start : System} (initial : start.IsInitial) {operations : List Operation}
    (built : ∀ operation ∈ operations, operation.IsBuilt) :
    let s := start.performAll operations
    ∃ records lost, s.store.Represents records lost ∧ lost ⊆ start.losses operations ∧
      (∀ id r, s.service.get id = .ok (some r) → r ∈ records ∧ r.agreementId = id) ∧
      (∀ q page, s.service.find q = .ok page → page.items ⊆ records) ∧
      (∀ spec page, s.service.query spec = .ok page → page.items ⊆ records) := by
  intro s
  obtain ⟨records, lost, represents, among⟩ := (initial.wellFiled.performAll built).represents
  refine ⟨records, lost, represents, among, fun id r => Service.mem_of_get represents, ?_, ?_⟩
  · intro q page shown
    obtain ⟨selection, -, shown⟩ := bind_eq_ok.mp shown
    exact Service.subset_of_select represents shown
  · intro spec page shown
    obtain ⟨selection, -, shown⟩ := bind_eq_ok.mp shown
    exact Service.subset_of_select represents shown

theorem store_represents_before_epoch :
    let early : Instant := ⟨-1, 0, by decide, by decide⟩
    let start := setUp (.memory .empty) early
    let operations : List Operation :=
      [.act (.traffic (.ask "a-1" "MANUAL" "alice")), .act (.traffic (.advance 0)),
        .act (.traffic (.insert (.create "a-2" "EXPIRED" "bob" early))), .act (.traffic (.advance 0))]
    start.IsInitial ∧ (∀ operation ∈ operations, operation.IsBuilt) ∧
      ∃ records, (start.performAll operations).store.Represents records [] ∧ ∃ r ∈ records,
        r.agreementId = "a-1" ∧ r.retiredAt.nanos = -1000000 := by
  intro early start operations
  have initial : start.IsInitial := isInitial_setUp (.inl rfl) early
  have built : ∀ operation ∈ operations, operation.IsBuilt :=
    List.forall_mem_cons.mpr ⟨trivial, List.forall_mem_cons.mpr ⟨trivial,
      List.forall_mem_cons.mpr ⟨⟨"a-2", "EXPIRED", "bob", early, rfl⟩,
        List.forall_mem_cons.mpr ⟨trivial, List.forall_mem_nil _⟩⟩⟩⟩
  obtain ⟨records, lost, represents, among, shown, -, -⟩ := store_represents initial built
  obtain rfl : lost = [] := List.subset_nil.mp among
  have stored : (start.performAll operations).service.get "a-1" =
      .ok (some (.create "a-1" "MANUAL" "alice" early)) := by decide
  exact ⟨initial, built, records, represents, _, (shown _ _ stored).1, rfl, by decide⟩

theorem ignored_failure_leaves_unreadable_row :
    let edge : Retirement := .create "a-1" "MANUAL" "alice"
      ⟨253402302600000000000, -3600, by decide, by decide⟩
    let script : Database.Script Unit := .call (.insert edge) fun _ => .finish (.ok ())
    let start := setUp (.database .fresh) .epoch
    let s := start.performAll [.transact .granted script]
    start.IsInitial ∧ edge.validate = .ok () ∧
      s.store.contents = [("a-1", .error (Instant.millisFailure 253402302600000))] ∧
      s.service.get "a-1" = .error (Instant.millisFailure 253402302600000) := by
  intro edge script start s
  exact ⟨isInitial_setUp (.inr rfl) .epoch, by decide, by decide, by decide⟩

end System

end RetirementLedger