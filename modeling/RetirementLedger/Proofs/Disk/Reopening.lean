import RetirementLedger.Proofs.Database.File

namespace RetirementLedger

def DiskNode.cleared : Option DiskNode → Option DiskNode
  | some .directory => some .directory
  | _ => none

theorem DiskNode.cleared_cleared (node : Option DiskNode) : cleared (cleared node) = cleared node := by
  rcases node with _ | _ | _ | _ <;> rfl

theorem DiskNode.ite_cleared (first second : Prop) [Decidable first] [Decidable second]
    (node : Option DiskNode) :
    (if second then cleared (if first then cleared node else node)
      else if first then cleared node else node) = if first ∨ second then cleared node else node := by
  by_cases one : first <;> by_cases two : second <;> simp [one, two, cleared_cleared]

theorem DiskNode.cleared_eq_directory {node : Option DiskNode} :
    cleared node = some .directory ↔ node = some .directory := by
  rcases node with _ | _ | _ | _ <;> simp [cleared]

namespace Disk

variable {disk before after : Disk} {p : Place} {path : String}

theorem isDirectory_iff : disk.isDirectory p = true ↔ p.names = [] ∨ disk.node? p = some .directory := by
  rw [isDirectory, Bool.or_eq_true, List.isEmpty_iff]
  cases disk.node? p with
  | none => simp
  | some node => cases node <;> simp

/-- The same directories are there, and no file that was not there. -/
structure Clears (after before : Disk) : Prop where
  directories : ∀ name, after.find? name = some .directory ↔ before.find? name = some .directory
  files : ∀ name, before.find? name = none → after.find? name = none

theorem Clears.refl (disk : Disk) : disk.Clears disk := ⟨fun _ => .rfl, fun _ free => free⟩

theorem Clears.isDirectory (clears : after.Clears before) (q : Place) :
    after.isDirectory q = before.isDirectory q := by
  rw [Bool.eq_iff_iff, isDirectory_iff, isDirectory_iff, node?, node?, clears.directories]

theorem Clears.follow (clears : after.Clears before) {here : Place} {steps : List String}
    (blocked : after.follow here steps = .error .blocked) : before.follow here steps = .error .blocked := by
  induction steps generalizing here with
  | nil => cases blocked
  | cons step rest ih =>
      rw [Disk.follow] at blocked ⊢
      rw [clears.isDirectory] at blocked
      split at blocked
      · next outside =>
          rw [if_pos outside]
          cases there : before.node? here with
          | some node => rfl
          | none =>
              rw [node?, clears.files _ there] at blocked
              cases blocked
      · next inside =>
          rw [if_neg inside]
          split at blocked
          · next named =>
              rw [if_pos named]
              exact ih blocked
          · next unnamed => rw [if_neg unnamed]

theorem Clears.isPassable (clears : after.Clears before) (passable : before.isPassable path = true) :
    after.isPassable path = true := by
  rw [Disk.isPassable, List.all_eq_true] at passable ⊢
  intro q member
  have free := passable q member
  split
  · next blocked =>
      rw [clears.follow blocked] at free
      exact free
  · rfl

theorem databasePlace?_eq_some_iff : disk.databasePlace? path = some p ↔
    Path.place path = p ∧ p.path.utf8ByteSize ≤ maxDatabasePathSize ∧ disk.isPassable path = true ∧
      disk.isDirectory p.above = true ∧ disk.isDirectory p = false := by
  unfold databasePlace?
  dsimp only
  simp only [Option.ite_none_right_eq_some, Option.some.injEq, Bool.and_eq_true, decide_eq_true_eq,
    Bool.not_eq_true', and_assoc]
  constructor
  · rintro ⟨short, passable, above, file, rfl⟩
    exact ⟨rfl, short, passable, above, file⟩
  · rintro ⟨rfl, short, passable, above, file⟩
    exact ⟨short, passable, above, file, rfl⟩

theorem Clears.databasePlace? (clears : after.Clears before) (placed : before.databasePlace? path = some p) :
    after.databasePlace? path = some p := by
  obtain ⟨place, short, passable, above, file⟩ := databasePlace?_eq_some_iff.mp placed
  exact databasePlace?_eq_some_iff.mpr ⟨place, short, clears.isPassable passable,
    (clears.isDirectory _).trans above, (clears.isDirectory _).trans file⟩

def besideNames (p : Place) : List String :=
  [journalSuffix, logSuffix, indexSuffix].map fun suffix => (p.beside suffix).path

theorem find?_erase_beside (disk : Disk) (p : Place) (suffix name : String) :
    (if disk.isDirectory (p.beside suffix) then disk else disk.erase (p.beside suffix).path).find? name =
      if name = (p.beside suffix).path then DiskNode.cleared (disk.find? name) else disk.find? name := by
  have directory : disk.isDirectory (p.beside suffix) = true ↔
      disk.find? (p.beside suffix).path = some .directory := by
    rw [isDirectory_iff, node?]
    simp [Place.beside, Place.below]
  split
  · next there =>
      split
      · next same => rw [same, directory.mp there, DiskNode.cleared]
      · rfl
  · next absent =>
      rw [Catalog.find?_erase]
      split
      · next same =>
          rw [same]
          rw [directory] at absent
          cases node : disk.find? (p.beside suffix).path with
          | none => rfl
          | some node' => cases node' <;> simp_all [DiskNode.cleared]
      · rfl

theorem find?_sweep (disk : Disk) (p : Place) (name : String) :
    (disk.sweep p).find? name =
      if name ∈ besideNames p then DiskNode.cleared (disk.find? name) else disk.find? name := by
  unfold sweep besideNames
  simp only [List.foldl_cons, List.foldl_nil, find?_erase_beside, DiskNode.ite_cleared, List.map_cons, List.map_nil,
    List.mem_cons, List.not_mem_nil, or_false, or_assoc]

theorem clears_sweep (disk : Disk) (p : Place) : (disk.sweep p).Clears disk where
  directories name := by
    rw [find?_sweep]
    split
    · exact DiskNode.cleared_eq_directory
    · rfl
  files name free := by
    rw [find?_sweep, free]
    split <;> rfl

def prepared (disk : Disk) (p : Place) (file : DatabaseFile) : Disk := (disk.sweep p).put p (.database file)

theorem find?_prepared (disk : Disk) (p : Place) (file : DatabaseFile) (name : String) :
    (disk.prepared p file).find? name =
      if name = p.path then some (.database file) else (disk.sweep p).find? name :=
  Catalog.find?_insert _ _ _ _

theorem clears_prepared {file held : DatabaseFile} (there : disk.node? p = some (.database held)) :
    (disk.prepared p file).Clears disk where
  directories name := by
    rw [find?_prepared]
    split
    · next same =>
        rw [node?, ← same] at there
        simp [there]
    · exact (clears_sweep disk p).directories name
  files name free := by
    rw [find?_prepared]
    split
    · next same =>
        rw [node?, ← same, free] at there
        cases there
    · exact (clears_sweep disk p).files name free

theorem put_self {node : DiskNode} (there : disk.node? p = some node) : disk.put p node = disk := by
  refine Catalog.ext_find? fun name => ?_
  rw [put, Catalog.find?_insert]
  split
  · next same => rw [same, ← there, node?]
  · rfl

theorem prepared_prepared (disk : Disk) (p : Place) (file : DatabaseFile) :
    (disk.prepared p file).prepared p file = disk.prepared p file := by
  refine Catalog.ext_find? fun name => ?_
  rw [find?_prepared, find?_prepared, find?_sweep, find?_prepared, find?_sweep]
  split
  · rfl
  · split
    · exact DiskNode.cleared_cleared _
    · rfl

variable {use : FileUse} {file : DatabaseFile}

theorem node?_of_databaseFile? (held : disk.databaseFile? p = some file) (known : file.database.versions ≠ none) :
    disk.node? p = some (.database file) := by
  unfold databaseFile? at held
  split at held
  · cases held
  · next there => rw [there, Option.some.inj held]
  · cases held
    exact absurd rfl known

theorem run_openFile_of_node {node : DiskNode} (name : String) (mode : FileMode)
    (placed : disk.databasePlace? path = some p) (there : disk.node? p = some node) :
    (openFile name path mode).run disk = (.ok p, disk) := by
  simp only [openFile, run_bind, run_get, placed, there]
  rfl

theorem setUp_eq_ok (done : (setUp p use).run disk = (.ok file, after)) :
    ∃ found, disk.databaseFile? p = some found ∧ disk.obstruction? p found use = none ∧
      if use.isFixed || !use.isLocking then file = found ∧ after = disk
      else file = { found with writeAhead := true } ∧ after = disk.prepared p file := by
  simp only [setUp, run_bind, run_get] at done
  cases held : disk.databaseFile? p with
  | none =>
      rw [held] at done
      cases done
  | some found =>
      rw [held] at done
      dsimp only at done
      cases free : disk.obstruction? p found use with
      | some failure =>
          rw [free] at done
          cases done
      | none =>
          rw [free] at done
          refine ⟨found, rfl, free, ?_⟩
          dsimp only at done
          split at done
          · next plain =>
              rw [if_pos plain]
              cases done
              exact ⟨rfl, rfl⟩
          · next logged =>
              rw [if_neg logged]
              cases done
              exact ⟨rfl, rfl⟩

theorem obstruction?_eq_none (changing : use.isFixed = false)
    (free : disk.obstruction? p file use = none) :
    disk.isDirectory (p.beside journalSuffix) = false ∧ disk.isDirectory (p.beside logSuffix) = false := by
  unfold obstruction? at free
  dsimp only at free
  rw [changing] at free
  cases journal : disk.isDirectory (p.beside journalSuffix) with
  | true => simp [journal] at free
  | false =>
      cases log : disk.isDirectory (p.beside logSuffix) with
      | true => simp [journal, log] at free
      | false => exact ⟨rfl, rfl⟩

theorem obstruction?_of_writeAhead (locking : use.isLocking = true) (logged : file.writeAhead = true)
    (journal : disk.isDirectory (p.beside journalSuffix) = false)
    (log : disk.isDirectory (p.beside logSuffix) = false)
    (index : disk.isDirectory (p.beside indexSuffix) = false) : disk.obstruction? p file use = none := by
  simp [obstruction?, locking, logged, journal, log, index]

theorem setUp_again (done : (setUp p use).run disk = (.ok file, after)) (known : file.database.versions ≠ none)
    (readable : use.isLocking = true → use.isFixed = false →
      after.isDirectory (p.beside indexSuffix) = false) :
    (setUp p use).run after = (.ok file, after) ∧ after.node? p = some (.database file) ∧
      after.Clears disk := by
  obtain ⟨found, held, free, outcome⟩ := setUp_eq_ok done
  split at outcome
  · obtain ⟨rfl, rfl⟩ := outcome
    exact ⟨done, node?_of_databaseFile? held known, .refl after⟩
  · next logged =>
      obtain ⟨same, rfl⟩ := outcome
      have kept : file.database = found.database := by rw [same]
      have there : disk.node? p = some (.database found) := node?_of_databaseFile? held (kept ▸ known)
      have clears : (disk.prepared p file).Clears disk := clears_prepared there
      obtain ⟨changing, locking⟩ : use.isFixed = false ∧ use.isLocking = true := by simpa using logged
      obtain ⟨journal, log⟩ := obstruction?_eq_none changing free
      have free' : (disk.prepared p file).obstruction? p file use = none :=
        obstruction?_of_writeAhead locking (by rw [same])
          ((clears.isDirectory _).trans journal) ((clears.isDirectory _).trans log) (readable locking changing)
      have again : (disk.prepared p file).databaseFile? p = some file := databaseFile?_put _ p file
      have set : ({ file with writeAhead := true } : DatabaseFile) = file := by rw [same]
      refine ⟨?_, ?_, clears⟩
      · simp only [setUp, run_bind, run_get, again, free', logged]
        rw [if_neg (by simp), set]
        exact congrArg (Except.ok file, ·) (prepared_prepared disk p file)
      · rw [node?, find?_prepared, if_pos rfl]

end Disk

namespace Connection
open Disk

variable {address : DatabaseAddress} {c : Connection} {disk after : Disk} {p : Place} {path : String} {use : FileUse}

theorem connect_file_eq_ok (named : Location.ofName? address.name = some (.file path use))
    (done : (connect address).run disk = (.ok c, after)) :
    ∃ p made file, (openFile address.name path use.mode).run disk = (.ok p, made) ∧
      (checkWait address).run made = (.ok (), made) ∧ (setUp p use).run made = (.ok file, after) ∧
      c = { place := some p
            database := file.database
            access := accessOf use file
            isReadable := !(use.isLocking && !use.isFixed && after.isDirectory (p.beside indexSuffix)) } := by
  unfold connect at done
  simp only [named] at done
  obtain ⟨p, made, opened, afterOpening⟩ := run_bind_eq_ok.mp done
  obtain ⟨_, waited, waiting, afterWaiting⟩ := run_bind_eq_ok.mp afterOpening
  obtain ⟨file, held, prepared, answered⟩ := run_bind_eq_ok.mp afterWaiting
  have same : waited = made := by
    rcases run_checkWait address made with ⟨f, failed⟩ | fine
    · cases failed.symm.trans waiting
    · cases fine.symm.trans waiting
      rfl
  subst same
  cases answered
  exact ⟨p, waited, file, opened, waiting, prepared, rfl⟩

theorem run_connect_file {made : Disk} {file : DatabaseFile}
    (named : Location.ofName? address.name = some (.file path use))
    (opened : (openFile address.name path use.mode).run disk = (.ok p, made))
    (waiting : (checkWait address).run made = (.ok (), made))
    (prepared : (setUp p use).run made = (.ok file, after)) :
    (connect address).run disk =
      (.ok { place := some p
             database := file.database
             access := accessOf use file
             isReadable := !(use.isLocking && !use.isFixed && after.isDirectory (p.beside indexSuffix)) }, after) := by
  unfold connect
  simp only [named, run_bind, opened, waiting, prepared]
  rfl

theorem openFile_eq_ok {name : String} {mode : FileMode} {made : Disk}
    (opened : (openFile name path mode).run disk = (.ok p, made)) :
    disk.databasePlace? path = some p ∧ (made = disk ∨ made = disk.put p (.octets [])) := by
  simp only [openFile, run_bind, run_get] at opened
  cases placed : disk.databasePlace? path with
  | none =>
      rw [placed] at opened
      cases opened
  | some q =>
      rw [placed] at opened
      dsimp only at opened
      split at opened
      · split at opened
        · cases opened
          exact ⟨rfl, .inr rfl⟩
        · cases opened
      · cases opened
        exact ⟨rfl, .inl rfl⟩

theorem run_checkWait_again (waiting : (checkWait address).run disk = (.ok (), disk)) (other : Disk) :
    (checkWait address).run other = (.ok (), other) := by
  unfold checkWait at waiting ⊢
  split
  · next long =>
      rw [if_pos long] at waiting
      cases waiting
  · rfl

/-- A database that was opened, and can be read, is there to be opened again just so. -/
theorem connect_again (connected : (connect address).run disk = (.ok c, after)) (readable : c.isReadable = true)
    (known : c.database.versions ≠ none) :
    (connect address).run after = (.ok c, after) ∧ c.keep c.database after = after := by
  rcases named : Location.ofName? address.name with _ | isReadOnly | ⟨path, use⟩
  · simp only [connect, named] at connected
    cases connected
  · simp only [connect, named] at connected
    obtain ⟨_, waited, waiting, answered⟩ := run_bind_eq_ok.mp connected
    cases answered
    exact absurd rfl known
  · obtain ⟨p, made, file, opened, waiting, prepared, rfl⟩ := connect_file_eq_ok named connected
    obtain ⟨again, there, clears⟩ := setUp_again prepared known (by
      intro locking changing
      simpa [locking, changing] using readable)
    obtain ⟨placed, rfl | rfl⟩ := openFile_eq_ok opened
    · have reopened := run_openFile_of_node address.name use.mode (clears.databasePlace? placed) there
      refine ⟨run_connect_file named reopened (run_checkWait_again waiting after) again, ?_⟩
      unfold keep
      dsimp only
      split
      · rfl
      · have held : after.databaseFile? p = some file := by rw [databaseFile?, there]
        rw [held]
        exact put_self there
    · -- A file that had to be made has no versions yet.
      obtain ⟨found, held, -, outcome⟩ := setUp_eq_ok prepared
      have empty : found = {} := by
        rw [databaseFile?, node?, put, Catalog.find?_insert, if_pos rfl] at held
        exact (Option.some.inj held).symm
      have same : file.database = found.database := by
        split at outcome <;> rw [outcome.1]
      exact absurd (by rw [same, empty]) known

end Connection
end RetirementLedger
