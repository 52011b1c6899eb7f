import RetirementLedger.Text.Numeral

namespace RetirementLedger.CommandLine

inductive Refusal where
  | usage
  | help
  deriving Repr, DecidableEq, Inhabited

abbrev Environment := String → Option String

structure Setting (σ : Type) where
  name : String
  environment : Option String := none
  isSwitch : Bool := false
  isRequired : Bool := false
  assign : String → σ → Option σ

namespace Setting

variable {σ : Type}

def text (name : String) (set : String → σ → σ) (environment : Option String := none) : Setting σ :=
  { name, environment, assign := fun value s => some (set value s) }

def path (name : String) (set : String → σ → σ) (environment : Option String := none) : Setting σ :=
  { name, environment, assign := fun value s => if value.isEmpty then none else some (set value s) }

def count (name : String) (bits : Nat) (set : Nat → σ → σ) (environment : Option String := none) :
    Setting σ :=
  { name, environment
    assign := fun value s =>
      match Text.unsigned? value.toList with
      | some n => if n < Nat.pow 2 bits then some (set n s) else none
      | none => none }

/-- A number that fits into 32 bits; zero may have a minus sign. -/
def word32 (name : String) (set : UInt32 → σ → σ) : Setting σ :=
  { name
    assign := fun value s =>
      match Text.signed? value.toList with
      | some n => if 0 ≤ n ∧ n < 0x100000000 then some (set (UInt32.ofNat n.toNat) s) else none
      | none => none }

def reading {α : Type} (name : String) (read : String → Option α) (set : α → σ → σ)
    (environment : Option String := none) : Setting σ :=
  { name, environment, assign := fun value s => (read value).map (set · s) }

def switch (name : String) (set : Bool → σ → σ) (environment : Option String := none) : Setting σ :=
  { name, environment, isSwitch := true
    assign := fun value s =>
      match value with
      | "true" => some (set true s)
      | "false" => some (set false s)
      | _ => none }

def required (s : Setting σ) : Setting σ := { s with isRequired := true }

end Setting

inductive Argument where
  | word (text : String)
  | named (name : String) (value : Option String)
  | letters (first : Char)
  | terminator
  deriving Repr, DecidableEq, Inhabited

namespace Argument

def ofChars : List Char → Argument
  | ['-', '-'] => .terminator
  | '-' :: '-' :: cs =>
    let name := String.ofList (cs.takeWhile (· != '='))
    match cs.dropWhile (· != '=') with
    | [] => .named name none
    | _ :: value => .named name (some (String.ofList value))
  | '-' :: c :: _ => .letters c
  | cs => .word (String.ofList cs)

def ofText (s : String) : Argument := ofChars s.toList

end Argument

structure Reading (σ : Type) where
  settings : σ
  given : List String := []

inductive Words where
  | atMost (count : Nat)
  | command
  deriving Repr, DecidableEq, Inhabited

namespace Reading

variable {σ : Type}

def give (r : Reading σ) (s : Setting σ) (value : String) : Except Refusal (Reading σ) :=
  if r.given.contains s.name then .error .usage
  else
    match s.assign value r.settings with
    | some settings => .ok ⟨settings, s.name :: r.given⟩
    | none => .error .usage

def wordsWithin (words : Words) (rest : List String) : Except Refusal (List String) :=
  match words with
  | .atMost n => if rest.length ≤ n then .ok rest else .error .usage
  | .command => .error .usage

/-- Reads settings and words. Where a word names another command, it is returned with everything
that follows. -/
def read (known : List (Setting σ)) (words : Words) (r : Reading σ) :
    List String → Except Refusal (Reading σ × List String)
  | [] => .ok (r, [])
  | argument :: rest =>
    match Argument.ofText argument with
    | .letters c => .error (if c = 'h' then .help else .usage)
    | .terminator => do return (r, ← wordsWithin words rest)
    | .word word =>
      match words with
      | .command => .ok (r, word :: rest)
      | .atMost 0 => .error .usage
      | .atMost (n + 1) => do
        let (r, others) ← read known (.atMost n) r rest
        return (r, word :: others)
    | .named name value =>
      match known.find? (·.name == name), value with
      | none, none => .error (if name = "help" then .help else .usage)
      | none, some _ => .error .usage
      | some s, some value =>
        if s.isSwitch then .error .usage
        else do read known words (← r.give s value) rest
      | some s, none =>
        if s.isSwitch then do read known words (← r.give s "true") rest
        else
          match rest with
          | [] => .error .usage
          | next :: rest =>
            match Argument.ofText next with
            | .word value => do read known words (← r.give s value) rest
            | _ => .error .usage

def complete (known : List (Setting σ)) (environment : Environment) (r : Reading σ) :
    Except Refusal (Reading σ) :=
  known.foldlM
    (fun r s =>
      if r.given.contains s.name then .ok r
      else
        match s.environment.bind environment with
        | some value => r.give s value
        | none => .ok r)
    r

def finish (known : List (Setting σ)) (environment : Environment) (r : Reading σ) :
    Except Refusal σ := do
  let r ← r.complete known environment
  if known.all fun s => !s.isRequired || r.given.contains s.name then .ok r.settings
  else .error .usage

end Reading

def readAll {σ : Type} (known : List (Setting σ)) (words : Nat) (defaults : σ)
    (environment : Environment) (arguments : List String) :
    Except Refusal (σ × List String) := do
  let (r, rest) ← Reading.read known (.atMost words) ⟨defaults, []⟩ arguments
  return (← r.finish known environment, rest)

end RetirementLedger.CommandLine
