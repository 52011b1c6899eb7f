namespace RetirementLedger

structure Place where
  isAbsolute : Bool
  names : List String := []
  deriving Repr, DecidableEq, Inhabited

namespace Place

def path (p : Place) : String := (if p.isAbsolute then "/" else "") ++ "/".intercalate p.names

def below (p : Place) (name : String) : Place := { p with names := p.names ++ [name] }

/-- The directory that a place is in. Nothing is above the root, and what is above the working
directory has two points for a name. -/
def above (p : Place) : Place :=
  match p.names.getLast? with
  | none => if p.isAbsolute then p else p.below ".."
  | some last => if last == ".." then p.below ".." else { p with names := p.names.dropLast }

def enter (p : Place) (step : String) : Place := if step == ".." then p.above else p.below step

def beside (p : Place) (suffix : String) : Place :=
  p.above.below (p.names.getLast?.getD "" ++ suffix)

end Place

namespace Path

def start (path : String) : Place := ⟨path.startsWith "/", []⟩

def steps (path : String) : List String :=
  (path.splitOn "/").filter fun step => !step.isEmpty && step != "."

def endsInPoint (path : String) : Bool :=
  ((path.splitOn "/").reverse.dropWhile (·.isEmpty)).head? == some "."

def places (path : String) : List Place :=
  let steps := steps path
  (List.range steps.length).map fun i => (steps.take (i + 1)).foldl Place.enter (start path)

def place (path : String) : Place := (steps path).foldl Place.enter (start path)

end Path

end RetirementLedger
