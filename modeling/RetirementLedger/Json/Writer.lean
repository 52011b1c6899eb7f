import RetirementLedger.Json.Basic
import RetirementLedger.Json.Token

namespace RetirementLedger.Json

mutual

def tokens : Json → List Token
  | .null => [.null]
  | .bool b => [.bool b]
  | .integer n => [.integer n]
  | .real negative digits exponent => [.real negative digits exponent]
  | .string s => [.string s]
  | .array items => .openArray :: (itemTokens items ++ [.closeArray])
  | .object members => .openObject :: (memberTokens members ++ [.closeObject])

def itemTokens : List Json → List Token
  | [] => []
  | [v] => v.tokens
  | v :: rest => v.tokens ++ .comma :: itemTokens rest

def memberTokens : List (Option String × Json) → List Token
  | [] => []
  | [(name, v)] => .string name :: .colon :: v.tokens
  | (name, v) :: rest => .string name :: .colon :: (v.tokens ++ .comma :: memberTokens rest)

end

def render (j : Json) : String := String.ofList (j.tokens.flatMap Token.write)

def lineStart (level : Nat) : List Char := '\n' :: List.replicate (2 * level) ' '

mutual

def prettyChars (level : Nat) : Json → List Char
  | .array [] => ['[', ']']
  | .object [] => ['\x7b', '\x7d']
  | .array items => '[' :: (prettyItems (level + 1) items ++ lineStart level ++ [']'])
  | .object members => '\x7b' :: (prettyMembers (level + 1) members ++ lineStart level ++ ['\x7d'])
  | .null => Token.null.write
  | .bool b => (Token.bool b).write
  | .integer n => (Token.integer n).write
  | .real negative digits exponent => (Token.real negative digits exponent).write
  | .string s => quote s

def prettyItems (level : Nat) : List Json → List Char
  | [] => []
  | [v] => lineStart level ++ prettyChars level v
  | v :: rest => lineStart level ++ prettyChars level v ++ ',' :: prettyItems level rest

def prettyMembers (level : Nat) : List (Option String × Json) → List Char
  | [] => []
  | [(name, v)] => lineStart level ++ quote name ++ [':', ' '] ++ prettyChars level v
  | (name, v) :: rest =>
    lineStart level ++ quote name ++ [':', ' '] ++ prettyChars level v ++
      ',' :: prettyMembers level rest

end

def renderPretty (j : Json) : String := String.ofList (prettyChars 0 j)

end RetirementLedger.Json
