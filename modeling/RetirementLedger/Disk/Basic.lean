import RetirementLedger.Database.Schema
import RetirementLedger.Disk.Path

namespace RetirementLedger

structure DatabaseFile where
  database : Database := {}
  writeAhead : Bool := false
  locked : Bool := false
  deriving Inhabited

def DatabaseFile.isUntouched (f : DatabaseFile) : Bool :=
  !f.writeAhead && f.database.versions.isNone && f.database.table.isNone

inductive DiskNode where
  | directory
  | octets (content : List UInt8)
  | database (file : DatabaseFile)
  deriving Inhabited

abbrev Disk := Catalog DiskNode

inductive Obstacle where
  | missing
  | blocked
  deriving Repr, DecidableEq

namespace Disk

def node? (disk : Disk) (p : Place) : Option DiskNode := disk.find? p.path

def put (disk : Disk) (p : Place) (node : DiskNode) : Disk := disk.insert p.path node

def isDirectory (disk : Disk) (p : Place) : Bool :=
  p.names.isEmpty ||
    match disk.node? p with
    | some .directory => true
    | _ => false

def maxNameSize : Nat := 255

def isName (name : String) : Bool := name.utf8ByteSize ≤ maxNameSize && !name.contains '\x00'

/-- Follows steps from a place. What the last step leads to need not be there. -/
def follow (disk : Disk) (here : Place) : List String → Except Obstacle Place
  | [] => .ok here
  | step :: rest =>
    if !disk.isDirectory here then
      .error (if (disk.node? here).isSome then .blocked else .missing)
    else if isName step then disk.follow (here.enter step) rest
    else .error .blocked

def maxPathSize : Nat := 4095

def isPath (path : String) : Bool := path.utf8ByteSize ≤ maxPathSize && !path.contains '\x00'

def reach (disk : Disk) (path : String) : Except Obstacle Place :=
  if isPath path then disk.follow (Path.start path) (Path.steps path) else .error .blocked

def found? (disk : Disk) (path : String) : Option DiskNode :=
  match disk.reach path with
  | .ok p => disk.node? p
  | .error _ => none

def hasDirectory (disk : Disk) (path : String) : Bool :=
  match disk.reach path with
  | .ok p => disk.isDirectory p
  | .error _ => false

def makeDirectory (disk : Disk) (start : Place) (steps : List String) : Except Obstacle Disk := do
  let p ← disk.follow start steps
  if disk.isDirectory p || (disk.node? p).isSome then throw .blocked
  else return disk.put p .directory

def makeWay (start : Place) : List String → Disk → Bool × Disk
  | [], disk => (true, disk)
  | last :: before, disk =>
    let steps := (last :: before).reverse
    let isThere (disk : Disk) : Bool := (disk.follow start steps).toOption.any disk.isDirectory
    match disk.makeDirectory start steps with
    | .ok disk => (true, disk)
    | .error .blocked => (isThere disk, disk)
    | .error .missing =>
      match makeWay start before disk with
      | (false, disk) => (false, disk)
      | (true, disk) =>
        match disk.makeDirectory start steps with
        | .ok disk => (true, disk)
        | .error _ => (isThere disk, disk)

/-- Makes the directory that a path leads to, and those on the way that are missing. A path that ends in
a point makes only those on the way. -/
def makeDirectories (disk : Disk) (path : String) : Bool × Disk :=
  let steps := (Path.steps path).reverse
  if !isPath path then (false, disk)
  else if !Path.endsInPoint path then makeWay (Path.start path) steps disk
  else
    match disk.reach path with
    | .ok p =>
      if disk.isDirectory p then (true, disk)
      else if (disk.node? p).isSome then (false, disk)
      else (false, (makeWay (Path.start path) (steps.drop 1) disk).2)
    | .error .blocked => (false, disk)
    | .error .missing => (false, (makeWay (Path.start path) (steps.drop 1) disk).2)

def writeFile (disk : Disk) (path : String) (content : List UInt8) : Option Disk :=
  match disk.reach path with
  | .ok p =>
    if disk.isDirectory p || path.endsWith "/" || Path.endsInPoint path then none
    else some (disk.put p (.octets content))
  | .error _ => none

def writeFileDeep (disk : Disk) (path : String) (content : List UInt8) : Option Disk :=
  match makeWay (Path.start path) ((Path.steps path).reverse.drop 1) disk with
  | (true, disk) => disk.writeFile path content
  | (false, _) => none

/-- Removes what a path leads to, a directory with all that is below it. A directory that is named by
points is emptied only. -/
def remove (disk : Disk) (path : String) : Disk :=
  match disk.reach path with
  | .error _ => disk
  | .ok p =>
    let byPoints := Path.endsInPoint path || (Path.steps path).getLast? == some ".."
    if disk.isDirectory p then
      disk.retain fun other =>
        !other.startsWith (p.path ++ "/") && (byPoints || other != p.path)
    else if byPoints || path.endsWith "/" then disk
    else disk.erase p.path

end Disk

end RetirementLedger
