import RetirementLedger.Database.Location
import RetirementLedger.Database.Records
import RetirementLedger.Disk.Basic

/-!
Connections to databases on a disk. Opening a database makes its file if it may, and turns on
write-ahead logging, which is kept in files beside it. While someone else holds the write lock, reading
works and writing fails; to turn on write-ahead logging is to write.
-/
namespace RetirementLedger

def defaultBusyMillis : Nat := 5000

def maxBusyMillis : Nat := 2147483647

structure DatabaseAddress where
  name : String
  busyMillis : Nat := defaultBusyMillis
  deriving Repr, DecidableEq, Inhabited

/-- What keeps a database from being opened: the message, and the whole chain of causes. A fatal failure
ends the program. -/
structure OpenFailure where
  message : String
  causes : String
  isFatal : Bool := false
  deriving Repr, DecidableEq

namespace OpenFailure

def chain (f : OpenFailure) : String := f.message ++ ": " ++ f.causes

def toAdminFailure (f : OpenFailure) : AdminFailure :=
  if f.isFatal then .waitTooLong else .refused f.message

def cannotOpen (name : String) : OpenFailure :=
  ⟨"failed to open sqlite database at " ++ name,
    "unable to open database file: " ++ name ++
      ": Error code 14: Unable to open the database file", false⟩

def waitTooLong : OpenFailure :=
  ⟨"failed to configure sqlite busy timeout", AdminFailure.waitTooLong.message, true⟩

def unusable (causes : String) : OpenFailure :=
  ⟨"failed to configure sqlite pragmas", causes, false⟩

def notADatabase : OpenFailure :=
  unusable "file is not a database: Error code 26: File opened that is not a database file"

def locked : OpenFailure :=
  unusable "database is locked: Error code 5: The database file is locked"

def readOnly : OpenFailure :=
  unusable
    "attempt to write a readonly database: Error code 8: Attempt to write a readonly database"

def cannotOpenBeside : OpenFailure :=
  unusable "unable to open database file: Error code 14: Unable to open the database file"

def cannotReadBeside : OpenFailure :=
  unusable "disk I/O error: Error code 266: Error reading from disk"

def cannotDeleteBeside : OpenFailure :=
  unusable "disk I/O error: Error code 2570: I/O error within xDelete of a VFS object"

end OpenFailure

abbrev DiskTask (α : Type) := ExceptT AdminFailure (StateM Disk) α

abbrev DiskWork (α : Type) := ExceptT Failure (StateM Disk) α

namespace Disk

/-! ## Files of databases -/

def maxDatabasePathSize : Nat := 504

def journalSuffix : String := "-journal"

def logSuffix : String := "-wal"

def indexSuffix : String := "-shm"

/-- No file is in the way of a path. Two points take back any name before them, but that name is looked
at first. -/
def isPassable (disk : Disk) (path : String) : Bool :=
  (Path.places path).all fun p =>
    match disk.follow ⟨p.isAbsolute, []⟩ p.names with
    | .error .blocked => false
    | _ => true

def databasePlace? (disk : Disk) (path : String) : Option Place :=
  let p := Path.place path
  if p.path.utf8ByteSize ≤ maxDatabasePathSize && disk.isPassable path && disk.isDirectory p.above
      && !disk.isDirectory p then
    some p
  else none

/-- The database that a file holds. A file of a single octet counts as an empty one. -/
def databaseFile? (disk : Disk) (p : Place) : Option DatabaseFile :=
  match disk.node? p with
  | some (.octets (_ :: _ :: _)) => none
  | some (.database file) => some file
  | _ => some {}

def obstruction? (disk : Disk) (p : Place) (file : DatabaseFile) (use : FileUse) :
    Option OpenFailure :=
  let isBlocked (suffix : String) : Bool := disk.isDirectory (p.beside suffix)
  if use.isFixed then none
  else if isBlocked journalSuffix then
    some (if file.isUntouched then .cannotOpenBeside else .cannotReadBeside)
  else if isBlocked logSuffix then
    some (if file.isUntouched then .cannotDeleteBeside else .cannotOpenBeside)
  else if file.writeAhead then
    if !use.isLocking || isBlocked indexSuffix then some .cannotOpenBeside else none
  else if !use.isLocking then none
  else if use.mode = .read then some .readOnly
  else if file.locked then some .locked
  else if !isName ((p.beside journalSuffix).names.getLast?.getD "") then some .cannotOpenBeside
  else none

def sweep (disk : Disk) (p : Place) : Disk :=
  [journalSuffix, logSuffix, indexSuffix].foldl
    (fun disk suffix =>
      let other := p.beside suffix
      if disk.isDirectory other then disk else disk.erase other.path)
    disk

def openFile (name path : String) (mode : FileMode) : ExceptT OpenFailure (StateM Disk) Place := do
  let disk ← get
  match disk.databasePlace? path with
  | none => throw (.cannotOpen name)
  | some p =>
    if (disk.node? p).isNone then
      if mode = .create then set (disk.put p (.octets [])) else throw (.cannotOpen name)
    return p

def setUp (p : Place) (use : FileUse) : ExceptT OpenFailure (StateM Disk) DatabaseFile := do
  let disk ← get
  match disk.databaseFile? p with
  | none => throw .notADatabase
  | some file =>
    match disk.obstruction? p file use with
    | some failure => throw failure
    | none =>
      if use.isFixed || !use.isLocking then return file
      let file := { file with writeAhead := true }
      set ((disk.sweep p).put p (.database file))
      return file

end Disk

/-! ## Connections -/

/-- An open database. One in memory has no place and is gone with its connection. -/
structure Connection where
  place : Option Place := none
  database : Database := {}
  access : WriteAccess := .granted
  /-- The index of the log can be made, without which there is no reading. -/
  isReadable : Bool := true

namespace Connection

def checkWait (address : DatabaseAddress) : ExceptT OpenFailure (StateM Disk) Unit :=
  if maxBusyMillis < address.busyMillis then throw .waitTooLong else pure ()

def accessOf (use : FileUse) (file : DatabaseFile) : WriteAccess :=
  if use.mode = .read || use.isFixed then .denied
  else if use.isLocking && file.locked then .locked
  else .granted

def connect (address : DatabaseAddress) : ExceptT OpenFailure (StateM Disk) Connection := do
  match Location.ofName? address.name with
  | none => throw (.cannotOpen address.name)
  | some (.memory isReadOnly) =>
    checkWait address
    return { access := if isReadOnly then .denied else .granted }
  | some (.file path use) =>
    let p ← Disk.openFile address.name path use.mode
    checkWait address
    let file ← Disk.setUp p use
    let isBlocked := (← get).isDirectory (p.beside Disk.indexSuffix)
    return { place := some p
             database := file.database
             access := accessOf use file
             isReadable := !(use.isLocking && !use.isFixed && isBlocked) }

def opened (address : DatabaseAddress) : DiskTask Connection := fun disk =>
  match connect address disk with
  | (.ok c, disk) => (.ok c, disk)
  | (.error f, disk) => (.error f.toAdminFailure, disk)

def keep (c : Connection) (database : Database) (disk : Disk) : Disk :=
  match c.place with
  | none => disk
  | some p =>
    if c.access = .denied then disk
    else
      match disk.databaseFile? p with
      | some file => disk.put p (.database { file with database })
      | none => disk

/-- Runs an administrative task. Where nothing can be read, it fails at its first step. -/
def administer {α : Type} (c : Connection) (task : WriteAccess → Database.Task α)
    (firstFailure : String := Database.noVersionsMessage) : DiskTask α :=
  if c.isReadable then fun disk =>
    let (result, database) := (task c.access).run c.database
    (result, c.keep database disk)
  else throw (.refused firstFailure)

def perform {α : Type} (c : Connection) (work : WriteAccess → Database.Work α) : DiskWork α :=
  if c.isReadable then fun disk =>
    let (result, database) := (work c.access).run c.database
    (result, c.keep database disk)
  else throw (.transientStore "unable to open database file")

end Connection

namespace Disk

def onDatabase {α : Type} (address : DatabaseAddress) (task : WriteAccess → Database.Task α)
    (firstFailure : String := Database.noVersionsMessage) : DiskTask α := do
  (← Connection.opened address).administer task firstFailure

def onRecords {α : Type} (address : DatabaseAddress) (work : WriteAccess → Database.Work α) :
    DiskWork α := fun disk =>
  match Connection.connect address disk with
  | (.error f, disk) => (.error (.transientStore f.chain), disk)
  | (.ok c, disk) => c.perform work disk

/-! ## Others -/

def filed? (disk : Disk) (path : String) : Option (Place × DatabaseFile) := do
  let p ← disk.databasePlace? path
  return (p, ← disk.databaseFile? p)

def changeDatabase (disk : Disk) (path : String) (change : Database → Option Database) :
    Option Disk := do
  let (p, file) ← disk.filed? path
  if file.locked || (disk.obstruction? p file {}).isSome then none
  else return disk.put p (.database { file with database := ← change file.database })

def unlock (disk : Disk) : Disk :=
  disk.map fun
    | .database file => .database { file with locked := false }
    | node => node

def lock (disk : Disk) (path : String) : Option Disk := do
  let (p, file) ← disk.filed? path
  if file.locked then none else return disk.unlock.put p (.database { file with locked := true })

end Disk

end RetirementLedger
