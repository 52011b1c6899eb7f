import RetirementLedger.CommandLine.Operator
import RetirementLedger.Database.Image
import Std.Time.DateTime.Timestamp

namespace RetirementLedger.Program
open CommandLine

def variableNames : List String :=
  Operator.settings.filterMap (·.environment) ++ Operator.retireSettings.filterMap (·.environment)

def readEnvironment : IO Environment := do
  let found ← variableNames.filterMapM fun name => do
    return (← IO.getEnv name).map fun value => (name, value)
  return fun name => found.lookup name

/-- What is at a path. What can be neither read nor missing is taken for a directory. -/
def readNode (path : String) : IO (Option DiskNode) := do
  try
    return some (.ofOctets (← IO.FS.readBinFile path).toList)
  catch
    | .noFileOrDirectory .. => return none
    | _ => return some .directory

def readDisk (places : List Place) : IO Disk :=
  places.foldlM
    (fun disk p => do
      match ← readNode p.path with
      | some node => return disk.put p node
      | none => return disk)
    ∅

/-- Writes back what has changed, directories before what is in them. -/
def writeDisk (before after : Disk) : IO Unit := do
  before.names.forM fun path => do
    if !after.contains path then IO.FS.removeFile path
  after.entries.forM fun (path, node) => do
    match node.octets? with
    | none => if (before.find? path).isNone then IO.FS.createDirAll path
    | some octets =>
      if (before.find? path).bind DiskNode.octets? != some octets then
        IO.FS.writeBinFile path ⟨octets.toArray⟩

def readClock : IO Instant := do
  let stamp ← Std.Time.Timestamp.now
  return (Instant.of? stamp.toNanosecondsSinceUnixEpoch.val 0).getD .epoch

def usage : String := "usage: ar [settings] db|retire|show|check|list|policy ..."

def carryOut (invocation : Operator.Invocation) : IO UInt32 := do
  let before ← readDisk (Operator.places invocation)
  let (outcome, after) := (Operator.run invocation (← readClock)).run before
  writeDisk before after
  match outcome with
  | .printed result =>
    IO.println result.renderPretty
    return 0
  | .failed message =>
    IO.eprintln ("Error: " ++ message)
    return 1
  | .brokenOff => return 101

def run (arguments : List String) : IO UInt32 := do
  match Operator.parse? (← readEnvironment) arguments with
  | .ok invocation => carryOut invocation
  | .error .help =>
    IO.println usage
    return 0
  | .error .usage =>
    IO.eprintln usage
    return 2

end RetirementLedger.Program

def main (arguments : List String) : IO UInt32 := RetirementLedger.Program.run arguments
