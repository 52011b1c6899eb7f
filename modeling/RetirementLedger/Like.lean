/-!
SQL's LIKE: `%` stands for any run of characters, `_` for one character, and a backslash makes the
character after it stand for itself. A pattern that ends in a lone backslash matches nothing.
-/
namespace RetirementLedger.Like

inductive Token where
  | anyRun
  | anyOne
  | literal (c : Char)
  deriving Repr, DecidableEq

def escapeMark : Char := '\\'

def tokens? : List Char → Option (List Token)
  | [] => some []
  | '\\' :: c :: rest => (tokens? rest).map (.literal c :: ·)
  | ['\\'] => none
  | '%' :: rest => (tokens? rest).map (.anyRun :: ·)
  | '_' :: rest => (tokens? rest).map (.anyOne :: ·)
  | c :: rest => (tokens? rest).map (.literal c :: ·)

def Token.takes : Token → Char → Bool
  | .anyRun, _ => false
  | .anyOne, _ => true
  | .literal d, c => c == d

/-- A run that a scan can go back to: its token, and the character before which it ends so far. -/
structure Mark where
  token : Nat
  place : Nat
  deriving Repr, DecidableEq

structure Cursor where
  token : Nat := 0
  place : Nat := 0
  mark : Option Mark := none
  deriving Repr, DecidableEq

inductive Turn where
  | goOn (cursor : Cursor)
  | answer (isMatch : Bool)
  | outOfRange
  deriving Repr, DecidableEq

def Cursor.retreat (c : Cursor) : Turn :=
  match c.mark with
  | some m => .goOn ⟨m.token + 1, m.place + 1, some ⟨m.token, m.place + 1⟩⟩
  | none => .answer false

def turn (tokens : Array Token) (value : Array Char) (c : Cursor) : Turn :=
  if c.place < value.size then
    match tokens[c.token]? with
    | none => c.retreat
    | some token =>
      if token = .anyRun then .goOn ⟨c.token + 1, c.place, some ⟨c.token, c.place⟩⟩
      else
        match value[c.place]? with
        | none => .outOfRange
        | some char =>
          if token.takes char then .goOn ⟨c.token + 1, c.place + 1, c.mark⟩ else c.retreat
  else if c.token ≤ tokens.size then
    .answer ((tokens.toList.drop c.token).all (· == .anyRun))
  else .outOfRange

section
variable {tokens : Array Token} {value : Array Char} {c d : Cursor}

structure Cursor.IsStuck (tokens : Array Token) (value : Array Char) (c : Cursor) : Prop where
  inside : c.place < value.size
  refused : ∀ token, tokens[c.token]? = some token →
    token ≠ .anyRun ∧ token.takes value[c.place] = false

inductive Turned (tokens : Array Token) (value : Array Char) (c : Cursor) : Turn → Prop
  | marked (inside : c.place < value.size) (here : tokens[c.token]? = some .anyRun) :
      Turned tokens value c (.goOn ⟨c.token + 1, c.place, some ⟨c.token, c.place⟩⟩)
  | taken {token : Token} (inside : c.place < value.size) (here : tokens[c.token]? = some token)
      (single : token ≠ .anyRun) (takes : token.takes value[c.place] = true) :
      Turned tokens value c (.goOn ⟨c.token + 1, c.place + 1, c.mark⟩)
  | stretched {m : Mark} (stuck : c.IsStuck tokens value) (known : c.mark = some m) :
      Turned tokens value c
        (.goOn ⟨m.token + 1, m.place + 1, some ⟨m.token, m.place + 1⟩⟩)
  | failed (stuck : c.IsStuck tokens value) (unknown : c.mark = none) :
      Turned tokens value c (.answer false)
  | ended (outside : value.size ≤ c.place) (whole : c.token ≤ tokens.size) :
      Turned tokens value c (.answer ((tokens.toList.drop c.token).all (· == .anyRun)))
  | astray (beyond : tokens.size < c.token) : Turned tokens value c .outOfRange

theorem Cursor.IsStuck.turned (stuck : c.IsStuck tokens value) : Turned tokens value c c.retreat := by
  unfold retreat
  cases known : c.mark with
  | some m => exact .stretched stuck known
  | none => exact .failed stuck known

theorem turned (tokens : Array Token) (value : Array Char) (c : Cursor) :
    Turned tokens value c (turn tokens value c) := by
  unfold turn
  split
  · next inside =>
    cases here : tokens[c.token]? with
    | none =>
      exact Cursor.IsStuck.turned ⟨inside, fun token known => by rw [here] at known; cases known⟩
    | some token =>
      dsimp only
      split
      · next run => exact .marked inside (run ▸ here)
      · next single =>
        rw [Array.getElem?_eq_getElem inside]
        dsimp only
        split
        · next takes => exact .taken inside here single takes
        · next refused =>
          refine Cursor.IsStuck.turned ⟨inside, fun other known => ?_⟩
          cases here.symm.trans known
          exact ⟨single, Bool.eq_false_iff.mpr refused⟩
  · next outside =>
    split
    · next whole => exact .ended (Nat.not_lt.mp outside) whole
    · next beyond => exact .astray (Nat.not_le.mp beyond)

structure Cursor.IsWithin (tokens : Array Token) (value : Array Char) (c : Cursor) : Prop where
  token : c.token ≤ tokens.size
  place : c.place ≤ value.size
  mark : ∀ m, c.mark = some m → m.token < tokens.size ∧ m.place ≤ c.place

theorem Cursor.isWithin_start : ({} : Cursor).IsWithin tokens value :=
  ⟨Nat.zero_le _, Nat.zero_le _, fun _ known => by cases known⟩

/-- How many characters are behind the end of the run that was met last, that run counted as one. -/
def Cursor.stretch (c : Cursor) : Nat :=
  match c.mark with
  | some m => m.place + 1
  | none => 0

/-- A bound on the turns that are left. As a run only ever grows, it decides before the tokens do. -/
def Cursor.left (tokens : Array Token) (value : Array Char) (c : Cursor) : Nat :=
  (value.size + 1 - c.stretch) * (tokens.size + 1) + (tokens.size - c.token)

theorem Cursor.IsWithin.stretch_le (within : c.IsWithin tokens value) : c.stretch ≤ c.place + 1 := by
  unfold stretch
  cases known : c.mark with
  | some m => exact Nat.succ_le_succ (within.mark m known).2
  | none => exact Nat.zero_le _

theorem Cursor.IsWithin.goOn (within : c.IsWithin tokens value)
    (next : turn tokens value c = .goOn d) :
    d.IsWithin tokens value ∧ d.left tokens value < c.left tokens value := by
  have turned := turned tokens value c
  rw [next] at turned
  cases turned with
  | marked inside here =>
    obtain ⟨bound, -⟩ := Array.getElem?_eq_some_iff.mp here
    refine ⟨⟨bound, within.place, fun m known => ?_⟩, ?_⟩
    · cases known
      exact ⟨bound, Nat.le_refl _⟩
    · have behind := within.stretch_le
      have grown : (value.size + 1 - (c.place + 1)) * (tokens.size + 1) ≤
          (value.size + 1 - c.stretch) * (tokens.size + 1) := Nat.mul_le_mul_right _ (by omega)
      change (value.size + 1 - (c.place + 1)) * (tokens.size + 1) + (tokens.size - (c.token + 1)) < _
      rw [left]
      omega
  | taken inside here single takes =>
    obtain ⟨bound, -⟩ := Array.getElem?_eq_some_iff.mp here
    refine ⟨⟨bound, inside, fun m known => ?_⟩, ?_⟩
    · obtain ⟨run, behind⟩ := within.mark m known
      exact ⟨run, Nat.le_succ_of_le behind⟩
    · exact Nat.add_lt_add_left (Nat.sub_succ_lt_self _ _ bound) _
  | @stretched m stuck known =>
    obtain ⟨run, behind⟩ := within.mark m known
    have inside := stuck.inside
    refine ⟨⟨run, Nat.lt_of_le_of_lt behind inside, fun other same => ?_⟩, ?_⟩
    · cases same
      exact ⟨run, Nat.le_refl _⟩
    · have stretch : c.stretch = m.place + 1 := by rw [Cursor.stretch, known]
      have one : value.size + 1 - (m.place + 1) = value.size + 1 - (m.place + 2) + 1 := by omega
      change (value.size + 1 - (m.place + 2)) * (tokens.size + 1) + (tokens.size - (m.token + 1)) < _
      rw [left, stretch, one, Nat.add_mul]
      omega

theorem Cursor.IsWithin.turn_ne_outOfRange (within : c.IsWithin tokens value) :
    turn tokens value c ≠ .outOfRange := by
  intro lost
  have turned := turned tokens value c
  rw [lost] at turned
  cases turned with
  | astray beyond => exact Nat.not_le.mpr beyond within.token

end

/-- Turns until there is an answer. More turns are allowed than are left. -/
def scan (tokens : Array Token) (value : Array Char) (c : Cursor) (within : c.IsWithin tokens value) :
    (turns : Nat) → c.left tokens value < turns → Bool
  | 0, enough => absurd enough (Nat.not_lt_zero _)
  | turns + 1, enough =>
    match next : turn tokens value c with
    | .goOn d =>
      scan tokens value d (within.goOn next).1 turns
        (Nat.lt_of_lt_of_le (within.goOn next).2 (Nat.le_of_lt_succ enough))
    | .answer isMatch => isMatch
    | .outOfRange => absurd next within.turn_ne_outOfRange

def matchesTokens (tokens : List Token) (value : List Char) : Bool :=
  scan tokens.toArray value.toArray {} Cursor.isWithin_start _ (Nat.lt_succ_self _)

def matchesChars (pattern value : List Char) : Bool :=
  match tokens? pattern with
  | none => false
  | some tokens => matchesTokens tokens value

def isMatch (pattern value : String) : Bool := matchesChars pattern.toList value.toList

def escapeChar (c : Char) : List Char :=
  if c = '%' || c = '_' || c = escapeMark then [escapeMark, c] else [c]

def escape (text : String) : String := String.ofList (text.toList.flatMap escapeChar)

end RetirementLedger.Like
