import RetirementLedger.Database.Connection
import RetirementLedger.Proofs.Database.Insertion

namespace RetirementLedger

namespace Disk

variable {disk : Disk} {p : Place} {address : DatabaseAddress} {path : String} {use : FileUse}

def stored? (disk : Disk) (p : Place) : Option Database := (disk.databaseFile? p).map (·.database)

theorem databaseFile?_put (disk : Disk) (p : Place) (file : DatabaseFile) :
    (disk.put p (.database file)).databaseFile? p = some file := by
  rw [databaseFile?, node?, put, Catalog.find?_insert, if_pos rfl]

theorem stored?_put (disk : Disk) (p : Place) (file : DatabaseFile) :
    (disk.put p (.database file)).stored? p = some file.database := by
  rw [stored?, databaseFile?_put]
  rfl

theorem stored?_created (missing : disk.node? p = none) :
    (disk.put p (.octets [])).stored? p = disk.stored? p := by
  rw [stored?, stored?, databaseFile?, databaseFile?, missing, node?, put, Catalog.find?_insert, if_pos rfl]

theorem run_openFile (name : String) (mode : FileMode) (placed : disk.databasePlace? path = some p) :
    ((openFile name path mode).run disk).2.stored? p = disk.stored? p ∧
      ∀ q, ((openFile name path mode).run disk).1 = .ok q → q = p := by
  unfold openFile
  simp only [run_bind, run_get, placed]
  cases node : disk.node? p with
  | some found => exact ⟨rfl, fun q done => (Except.ok.inj done).symm⟩
  | none =>
      by_cases creating : mode = .create
      · simp only [Option.isNone_none, if_true, creating]
        exact ⟨stored?_created node, fun q done => (Except.ok.inj done).symm⟩
      · simp only [Option.isNone_none, if_true, creating, if_false]
        exact ⟨rfl, fun q done => by cases done⟩

theorem run_setUp (p : Place) (use : FileUse) (disk : Disk) :
    ((setUp p use).run disk).2.stored? p = disk.stored? p ∧
      ∀ file, ((setUp p use).run disk).1 = .ok file → disk.stored? p = some file.database := by
  unfold setUp
  simp only [run_bind, run_get]
  cases held : disk.databaseFile? p with
  | none => exact ⟨rfl, fun file done => by cases done⟩
  | some file =>
      dsimp only
      cases disk.obstruction? p file use with
      | some failure => exact ⟨rfl, fun file done => by cases done⟩
      | none =>
          have stored : disk.stored? p = some file.database := by rw [stored?, held, Option.map_some]
          dsimp only
          split
          · refine ⟨rfl, fun file' done => ?_⟩
            rw [stored, ← Except.ok.inj done]
          · refine ⟨(stored?_put _ _ _).trans stored.symm, fun file' done => ?_⟩
            rw [stored, ← Except.ok.inj done]

theorem run_checkWait (address : DatabaseAddress) (disk : Disk) :
    (∃ f, (Connection.checkWait address).run disk = (.error f, disk)) ∨
      (Connection.checkWait address).run disk = (.ok (), disk) := by
  unfold Connection.checkWait
  split
  · exact .inl ⟨_, rfl⟩
  · exact .inr rfl

theorem run_connect (named : Location.ofName? address.name = some (.file path use))
    (placed : disk.databasePlace? path = some p) :
    ((Connection.connect address).run disk).2.stored? p = disk.stored? p ∧
      ∀ c, ((Connection.connect address).run disk).1 = .ok c →
        c.place = some p ∧ disk.stored? p = some c.database := by
  unfold Connection.connect
  simp only [named, run_bind]
  obtain ⟨kept, place⟩ := run_openFile address.name use.mode placed
  rcases opened : (openFile address.name path use.mode).run disk with ⟨f | q, found⟩
  · rw [opened] at kept
    exact ⟨kept, fun c done => by cases done⟩
  · rw [opened] at kept place
    obtain rfl := place q rfl
    dsimp only at kept ⊢
    rcases run_checkWait address found with ⟨f, waiting⟩ | waited
    · rw [waiting]
      exact ⟨kept, fun c done => by cases done⟩
    · rw [waited]
      obtain ⟨kept', file⟩ := run_setUp q use found
      dsimp only
      rcases prepared : (setUp q use).run found with ⟨f | held, last⟩
      · rw [prepared] at kept'
        exact ⟨kept'.trans kept, fun c done => by cases done⟩
      · rw [prepared] at kept' file
        refine ⟨kept'.trans kept, fun c done => ?_⟩
        obtain rfl := Except.ok.inj done
        exact ⟨rfl, kept.symm.trans (file held rfl)⟩

theorem stored?_keep {c : Connection} {db : Database} (place : c.place = some p)
    (stored : disk.stored? p = some db) (after : Database) :
    (c.keep after disk).stored? p = some (if c.access = .denied then db else after) := by
  obtain ⟨file, held, rfl⟩ := Option.map_eq_some_iff.mp stored
  unfold Connection.keep
  rw [place]
  dsimp only
  split
  · exact stored
  · rw [held]
    exact stored?_put disk p _

theorem run_onRecords {α : Type} {db : Database} (named : Location.ofName? address.name = some (.file path use))
    (placed : disk.databasePlace? path = some p) (stored : disk.stored? p = some db)
    (work : WriteAccess → Database.Work α) :
    (∃ f after, (onRecords address work).run disk = (.error f, after) ∧ after.stored? p = some db) ∨
      ∃ access after, (onRecords address work).run disk = (((work access).run db).1, after) ∧
        after.stored? p = some (if access = .denied then db else ((work access).run db).2) := by
  obtain ⟨kept, connected⟩ := run_connect named placed
  have run : (onRecords address work).run disk = onRecords address work disk := rfl
  rw [run, onRecords]
  rcases opening : Connection.connect address disk with ⟨f | c, found⟩
  · have kept := (congrArg (fun reached => reached.2.stored? p) opening).symm.trans kept
    exact .inl ⟨_, _, rfl, kept.trans stored⟩
  · have kept := (congrArg (fun reached => reached.2.stored? p) opening).symm.trans kept
    obtain ⟨place, held⟩ := connected c (congrArg Prod.fst opening)
    obtain rfl : c.database = db := Option.some.inj (held.symm.trans stored)
    dsimp only
    unfold Connection.perform
    split
    · exact .inr ⟨c.access, _, rfl, stored?_keep place (kept.trans stored) _⟩
    · exact .inl ⟨_, _, rfl, kept.trans stored⟩

end Disk

end RetirementLedger
