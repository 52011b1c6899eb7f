import RetirementLedger.Text.Numeral

namespace RetirementLedger.Json

inductive Token where
  | openObject
  | closeObject
  | openArray
  | closeArray
  | comma
  | colon
  | null
  | bool (b : Bool)
  | integer (n : Int)
  | real (negative : Bool) (digits : Nat) (exponent : Int)
  | string (s : Option String)
  | junk
  deriving Repr, DecidableEq

/-- Where the machine stands inside a string: after plain text, after a backslash, or after some
digits of a `\u` escape, of which `owed` are missing. -/
inductive Escape where
  | plain
  | backslash
  | unicode (owed : Nat) (unit : Nat)
  deriving Repr, DecidableEq

/-- A string under way. `surrogate` is a high surrogate that waits for its low one, and `sound`
says that the text so far denotes characters. -/
structure Quoted where
  chars : List Char := []
  sound : Bool := true
  surrogate : Option Nat := none
  escape : Escape := .plain
  deriving Repr, DecidableEq

inductive NumeralPart where
  | sign
  | zero
  | whole
  | point
  | fraction
  | letter
  | exponentSign
  | exponent
  deriving Repr, DecidableEq

structure Numeral where
  part : NumeralPart
  negative : Bool := false
  digits : Nat := 0
  places : Nat := 0
  exponentNegative : Bool := false
  exponent : Nat := 0
  deriving Repr, DecidableEq

inductive Mode where
  | between
  | word (rest : List Char) (token : Token)
  | quoted (q : Quoted)
  | numeral (n : Numeral)
  | failed
  deriving Repr, DecidableEq

def isGap (c : Char) : Bool := c == ' ' || c == '\t' || c == '\n' || c == '\r'

def startToken : Option Char → List Token × Mode
  | none => ([.junk], .failed)
  | some c =>
    if isGap c then ([], .between)
    else if c == '\x7b' then ([.openObject], .between)
    else if c == '\x7d' then ([.closeObject], .between)
    else if c == '[' then ([.openArray], .between)
    else if c == ']' then ([.closeArray], .between)
    else if c == ',' then ([.comma], .between)
    else if c == ':' then ([.colon], .between)
    else if c == '"' then ([], .quoted {})
    else if c == 't' then ([], .word ['r', 'u', 'e'] (.bool true))
    else if c == 'f' then ([], .word ['a', 'l', 's', 'e'] (.bool false))
    else if c == 'n' then ([], .word ['u', 'l', 'l'] .null)
    else if c == '-' then ([], .numeral { part := .sign, negative := true })
    else if c == '0' then ([], .numeral { part := .zero })
    else if Text.isDigit c then ([], .numeral { part := .whole, digits := Text.digitValue c })
    else ([.junk], .failed)

namespace Quoted

def push (q : Quoted) (c : Char) : Quoted :=
  { q with chars := c :: q.chars, sound := q.sound && q.surrogate.isNone, surrogate := none,
           escape := .plain }

/-- A finished `\u` escape: a character of its own, one half of a pair, or no character. -/
def pushUnit (q : Quoted) (unit : Nat) : Quoted :=
  if 0xD800 ≤ unit ∧ unit < 0xDC00 then
    { q with surrogate := some unit, sound := q.sound && q.surrogate.isNone, escape := .plain }
  else if 0xDC00 ≤ unit ∧ unit < 0xE000 then
    match q.surrogate with
    | some high =>
      { q with chars := Char.ofNat (0x10000 + (high - 0xD800) * 0x400 + (unit - 0xDC00)) :: q.chars,
               surrogate := none, escape := .plain }
    | none => { q with sound := false, escape := .plain }
  else q.push (Char.ofNat unit)

def token (q : Quoted) : Token :=
  .string (if q.sound && q.surrogate.isNone then some (String.ofList q.chars.reverse) else none)

def escaped? (c : Char) : Option Char :=
  if c == '"' || c == '\\' || c == '/' then some c
  else if c == 'b' then some '\x08'
  else if c == 'f' then some '\x0c'
  else if c == 'n' then some '\n'
  else if c == 'r' then some '\r'
  else if c == 't' then some '\t'
  else none

def step (q : Quoted) (symbol : Option Char) : List Token × Mode :=
  match q.escape, symbol with
  | .plain, none => ([], .quoted { q with sound := false, surrogate := none })
  | .plain, some c =>
    if c == '"' then ([q.token], .between)
    else if c == '\\' then ([], .quoted { q with escape := .backslash })
    else if c.toNat < 0x20 then ([.junk], .failed)
    else ([], .quoted (q.push c))
  | .backslash, some c =>
    if c == 'u' then ([], .quoted { q with escape := .unicode 4 0 })
    else match escaped? c with
      | some d => ([], .quoted (q.push d))
      | none => ([.junk], .failed)
  | .unicode owed unit, some c =>
    match Text.hexValue? c with
    | some d =>
      if owed ≤ 1 then ([], .quoted (q.pushUnit (unit * 16 + d)))
      else ([], .quoted { q with escape := .unicode (owed - 1) (unit * 16 + d) })
    | none => ([.junk], .failed)
  | _, none => ([.junk], .failed)

end Quoted

namespace Numeral

def token (n : Numeral) : Token :=
  match n.part with
  | .sign | .point | .letter | .exponentSign => .junk
  | .zero => if n.negative then .real true 0 0 else .integer 0
  | .whole => .integer (if n.negative then -(n.digits : Int) else n.digits)
  | .fraction => .real n.negative n.digits (-(n.places : Int))
  | .exponent =>
    .real n.negative n.digits
      ((if n.exponentNegative then -(n.exponent : Int) else n.exponent) - n.places)

def extend? (n : Numeral) (c : Char) : Option Numeral :=
  let digit := Text.isDigit c
  let value := Text.digitValue c
  let exponentLetter := c == 'e' || c == 'E'
  match n.part with
  | .sign =>
    if c == '0' then some { n with part := .zero }
    else if digit then some { n with part := .whole, digits := value } else none
  | .zero =>
    if c == '.' then some { n with part := .point }
    else if exponentLetter then some { n with part := .letter } else none
  | .whole =>
    if digit then some { n with digits := n.digits * 10 + value }
    else if c == '.' then some { n with part := .point }
    else if exponentLetter then some { n with part := .letter } else none
  | .point =>
    if digit then
      some { n with part := .fraction, digits := n.digits * 10 + value, places := n.places + 1 }
    else none
  | .fraction =>
    if digit then some { n with digits := n.digits * 10 + value, places := n.places + 1 }
    else if exponentLetter then some { n with part := .letter } else none
  | .letter =>
    if digit then some { n with part := .exponent, exponent := value }
    else if c == '+' then some { n with part := .exponentSign }
    else if c == '-' then some { n with part := .exponentSign, exponentNegative := true } else none
  | .exponentSign => if digit then some { n with part := .exponent, exponent := value } else none
  | .exponent => if digit then some { n with exponent := n.exponent * 10 + value } else none

/-- A numeral ends at the first symbol it cannot take; a digit there is a leading zero too many. -/
def step (n : Numeral) (symbol : Option Char) : List Token × Mode :=
  match symbol.bind n.extend? with
  | some longer => ([], .numeral longer)
  | none =>
    if n.token = .junk ∨ (symbol.any Text.isDigit = true) then ([.junk], .failed)
    else
      let (tokens, mode) := startToken symbol
      (n.token :: tokens, mode)

end Numeral

def Mode.step : Mode → Option Char → List Token × Mode
  | .between, symbol => startToken symbol
  | .word [] token, symbol =>
    let (tokens, mode) := startToken symbol
    (token :: tokens, mode)
  | .word (c :: rest) token, symbol =>
    if symbol = some c then
      if rest.isEmpty then ([token], .between) else ([], .word rest token)
    else ([.junk], .failed)
  | .quoted q, symbol => q.step symbol
  | .numeral n, symbol => n.step symbol
  | .failed, _ => ([], .failed)

def Mode.finish : Mode → List Token
  | .between | .failed => []
  | .word [] token => [token]
  | .word _ _ | .quoted _ => [.junk]
  | .numeral n => [n.token]

def Mode.tokens : Mode → List (Option Char) → List Token
  | mode, [] => mode.finish
  | mode, symbol :: rest =>
    let (tokens, next) := mode.step symbol
    tokens ++ next.tokens rest

def Token.scan (symbols : List (Option Char)) : List Token := Mode.between.tokens symbols

def quoteChar (c : Char) : List Char :=
  if c == '"' then ['\\', '"']
  else if c == '\\' then ['\\', '\\']
  else if c == '\x08' then ['\\', 'b']
  else if c == '\t' then ['\\', 't']
  else if c == '\n' then ['\\', 'n']
  else if c == '\x0c' then ['\\', 'f']
  else if c == '\r' then ['\\', 'r']
  else if c.toNat < 0x20 then
    ['\\', 'u', '0', '0', Text.hexDigit (c.toNat / 16), Text.hexDigit (c.toNat % 16)]
  else [c]

/-- A string in quotes. One that denotes no text is written as an unpaired surrogate. -/
def quote : Option String → List Char
  | some s => '"' :: (s.toList.flatMap quoteChar ++ ['"'])
  | none => ['"', '\\', 'u', 'd', '8', '0', '0', '"']

def Token.write : Token → List Char
  | .openObject => ['\x7b']
  | .closeObject => ['\x7d']
  | .openArray => ['[']
  | .closeArray => [']']
  | .comma => [',']
  | .colon => [':']
  | .null => ['n', 'u', 'l', 'l']
  | .bool true => ['t', 'r', 'u', 'e']
  | .bool false => ['f', 'a', 'l', 's', 'e']
  | .integer n => Text.intDigits n
  | .real negative digits exponent =>
    (if negative then ['-'] else []) ++ Text.natDigits digits ++ 'e' :: Text.intDigits exponent
  | .string s => quote s
  | .junk => ['?']

end RetirementLedger.Json
