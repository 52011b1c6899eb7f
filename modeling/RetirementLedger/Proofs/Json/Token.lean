import RetirementLedger.Json.Token
import RetirementLedger.Proofs.Text.Numeral

namespace RetirementLedger.Json

def Stops (symbols : List (Option Char)) : Prop :=
  ∀ c, symbols.head? = some (some c) → Text.isDigit c = false ∧ c ∉ ['.', 'e', 'E']

/-- The characters are read as these tokens, whatever follows that cannot belong to them. -/
def Reads (chars : List Char) (tokens : List Token) : Prop :=
  ∀ rest, Stops rest →
    Mode.between.tokens (chars.map some ++ rest) = tokens ++ Mode.between.tokens rest

theorem stops_nil : Stops [] := fun c first => by cases first

theorem stops_cons {c : Char} (other : Text.isDigit c = false ∧ c ∉ ['.', 'e', 'E'])
    (rest : List (Option Char)) : Stops (some c :: rest) := fun d first => by
  cases first
  exact other

def inside (chars : List Char) : Mode := .quoted { chars }

theorem hexValue?_hexDigit : ∀ n < 16, Text.hexValue? (Text.hexDigit n) = some n := by decide

theorem tokens_hexDigit {q : Quoted} {owed unit d : Nat} (pending : q.escape = .unicode owed unit)
    (small : d < 16) (rest : List (Option Char)) :
    (Mode.quoted q).tokens (some (Text.hexDigit d) :: rest) =
      (Mode.quoted (if owed ≤ 1 then q.pushUnit (unit * 16 + d)
        else { q with escape := .unicode (owed - 1) (unit * 16 + d) })).tokens rest := by
  have step : q.step (some (Text.hexDigit d)) =
      ([], .quoted (if owed ≤ 1 then q.pushUnit (unit * 16 + d)
        else { q with escape := .unicode (owed - 1) (unit * 16 + d) })) := by
    simp only [Quoted.step, pending, hexValue?_hexDigit d small]
    split <;> rfl
  simp only [Mode.tokens, Mode.step, step, List.nil_append]

theorem tokens_unit {chars : List Char} {c : Char} (control : c.toNat < 0x20)
    (rest : List (Option Char)) :
    (inside chars).tokens
        ((['\\', 'u', '0', '0', Text.hexDigit (c.toNat / 16), Text.hexDigit (c.toNat % 16)]).map some ++
          rest) =
      (inside (c :: chars)).tokens rest := by
  have high : c.toNat / 16 < 16 := by omega
  have low : c.toNat % 16 < 16 := by omega
  have whole : (((0 * 16 + 0) * 16 + 0) * 16 + c.toNat / 16) * 16 + c.toNat % 16 = c.toNat := by omega
  change (Mode.quoted { chars, escape := .unicode 4 0 }).tokens
    (some (Text.hexDigit 0) :: some (Text.hexDigit 0) :: some (Text.hexDigit (c.toNat / 16)) ::
      some (Text.hexDigit (c.toNat % 16)) :: rest) = _
  rw [tokens_hexDigit rfl (by decide), if_neg (by decide), tokens_hexDigit rfl (by decide),
    if_neg (by decide), tokens_hexDigit rfl high, if_neg (by decide), tokens_hexDigit rfl low,
    if_pos (by decide), whole, Quoted.pushUnit, if_neg (by omega), if_neg (by omega),
    Char.ofNat_toNat]
  rfl

theorem tokens_quoteChar (chars : List Char) (c : Char) (rest : List (Option Char)) :
    (inside chars).tokens ((quoteChar c).map some ++ rest) = (inside (c :: chars)).tokens rest := by
  -- The characters with an escape of two, the other control characters, and all else.
  by_cases special : c ∈ ['"', '\\', '\x08', '\t', '\n', '\x0c', '\r']
  · simp only [List.mem_cons, List.not_mem_nil, or_false] at special
    rcases special with rfl | rfl | rfl | rfl | rfl | rfl | rfl <;> rfl
  · simp only [List.mem_cons, List.not_mem_nil, or_false, not_or] at special
    by_cases control : c.toNat < 0x20
    · have form : quoteChar c =
          ['\\', 'u', '0', '0', Text.hexDigit (c.toNat / 16), Text.hexDigit (c.toNat % 16)] := by
        simp [quoteChar, special, control]
      rw [form]
      exact tokens_unit control rest
    · have form : quoteChar c = [c] := by simp [quoteChar, special, control]
      have step : (inside chars).step (some c) = ([], inside (c :: chars)) := by
        simp [inside, Mode.step, Quoted.step, Quoted.push, special, control]
      rw [form]
      simp only [List.map_cons, List.map_nil, List.singleton_append, Mode.tokens, step, List.nil_append]

theorem tokens_flatMap_quoteChar (chars text : List Char) (rest : List (Option Char)) :
    (inside chars).tokens ((text.flatMap quoteChar).map some ++ rest) =
      (inside (text.reverse ++ chars)).tokens rest := by
  induction text generalizing chars with
  | nil => rfl
  | cons c text ih =>
      rw [List.flatMap_cons, List.map_append, List.append_assoc, tokens_quoteChar, ih,
        List.reverse_cons, List.append_assoc, List.singleton_append]

theorem reads_quote (s : Option String) (rest : List (Option Char)) :
    Mode.between.tokens ((quote s).map some ++ rest) = .string s :: Mode.between.tokens rest := by
  cases s with
  | none => rfl
  | some s =>
      change (inside []).tokens ((s.toList.flatMap quoteChar ++ ['"']).map some ++ rest) = _
      rw [List.map_append, List.append_assoc, tokens_flatMap_quoteChar, List.append_nil]
      change Token.string (some (String.ofList s.toList.reverse.reverse)) :: _ = _
      rw [List.reverse_reverse, String.ofList_toList]
      rfl

/-- The machine before the digits of a numeral, whose minus sign it may have met. -/
def unopened (negative : Bool) : Mode :=
  if negative then .numeral { part := .sign, negative := true } else .between

theorem step_unopened : ∀ negative, ∀ d < 9,
    (unopened negative).step (some (Char.ofNat (0x31 + d))) =
      ([], .numeral { part := .whole, negative,
                      digits := Text.digitValue (Char.ofNat (0x31 + d)) }) := by decide

theorem natDigits_of_pos {n : Nat} (positive : 0 < n) :
    ∃ d < 9, ∃ ds, Text.natDigits n = Char.ofNat (0x31 + d) :: ds := by
  induction n using Nat.strongRecOn with
  | ind n ih =>
    by_cases small : n < 10
    · have first : ∀ d < 9, Nat.digitChar (d + 1) = Char.ofNat (0x31 + d) := by decide
      refine ⟨n - 1, by omega, [], ?_⟩
      rw [Text.natDigits, Nat.toDigits_of_lt_base small, ← first (n - 1) (by omega),
        Nat.sub_add_cancel positive]
    · obtain ⟨d, bound, ds, digits⟩ := ih (n / 10) (by omega) (by omega)
      refine ⟨d, bound, ds ++ [(n % 10).digitChar], ?_⟩
      rw [Text.natDigits, Nat.toDigits_of_base_le (by decide) (by omega), ← List.cons_append, ← digits]
      rfl

theorem tokens_digits {numeral : Nat → Numeral} {ds : List Char}
    (extended : ∀ m c, Text.isDigit c = true →
      (numeral m).extend? c = some (numeral (m * 10 + Text.digitValue c)))
    (digits : ∀ c ∈ ds, Text.isDigit c = true) (m : Nat) (rest : List (Option Char)) :
    (Mode.numeral (numeral m)).tokens (ds.map some ++ rest) =
      (Mode.numeral (numeral (ds.foldl (fun m c => m * 10 + Text.digitValue c) m))).tokens rest := by
  induction ds generalizing m with
  | nil => rfl
  | cons c ds ih =>
      have step : (Mode.numeral (numeral m)).step (some c) =
          ([], .numeral (numeral (m * 10 + Text.digitValue c))) := by
        simp only [Mode.step, Numeral.step, Option.bind_some, extended m c (digits c (.head _))]
      simp only [List.map_cons, List.cons_append, Mode.tokens, step, List.nil_append, List.foldl_cons]
      exact ih (fun c member => digits c (.tail _ member)) _

theorem tokens_natDigits (negative : Bool) (n : Nat) (rest : List (Option Char)) :
    (unopened negative).tokens ((Text.natDigits n).map some ++ rest) =
      (Mode.numeral { part := if n = 0 then .zero else .whole, negative, digits := n }).tokens rest := by
  by_cases zero : n = 0
  · rw [zero]
    cases negative <;> rfl
  · obtain ⟨d, bound, ds, digits⟩ := natDigits_of_pos (Nat.pos_of_ne_zero zero)
    have value := Text.digitsValue_natDigits n
    have run := @tokens_digits (fun m => { part := .whole, negative, digits := m }) ds
      (fun m c digit => by simp only [Numeral.extend?, digit, if_true])
      (fun c member => Text.isDigit_of_mem_natDigits (n := n) (by rw [digits]; exact .tail _ member))
      (Text.digitValue (Char.ofNat (0x31 + d))) rest
    rw [digits, Text.digitsValue, List.foldl_cons, Nat.zero_mul, Nat.zero_add] at value
    rw [value] at run
    rw [digits, if_neg zero, ← run]
    simp only [List.map_cons, List.cons_append, Mode.tokens, step_unopened negative d bound,
      List.nil_append]

theorem tokens_ended {n : Numeral} (complete : n.token ≠ .junk) {rest : List (Option Char)}
    (stops : Stops rest) :
    (Mode.numeral n).tokens rest = n.token :: Mode.between.tokens rest := by
  cases rest with
  | nil => rfl
  | cons symbol rest =>
      have refused : symbol.bind n.extend? = none ∧ symbol.any Text.isDigit = false := by
        cases symbol with
        | none => exact ⟨rfl, rfl⟩
        | some c =>
            obtain ⟨digit, other⟩ := stops c rfl
            simp only [List.mem_cons, List.not_mem_nil, or_false, not_or] at other
            refine ⟨?_, digit⟩
            cases part : n.part <;> simp_all [Numeral.extend?, Numeral.token]
      simp only [Mode.tokens, Mode.step, Numeral.step, refused.1, refused.2, complete, false_or,
        Bool.false_eq_true, if_false, List.cons_append]

theorem tokens_intDigits (n : Int) (rest : List (Option Char)) (stops : Stops rest) :
    Mode.between.tokens ((Text.intDigits n).map some ++ rest) =
      .integer n :: Mode.between.tokens rest := by
  have whole (negative : Bool) (m : Nat) (named : m = 0 → negative = false) :
      (unopened negative).tokens ((Text.natDigits m).map some ++ rest) =
        .integer (if negative then -(m : Int) else m) :: Mode.between.tokens rest := by
    have token : ({ part := if m = 0 then .zero else .whole, negative, digits := m } : Numeral).token =
        .integer (if negative then -(m : Int) else m) := by
      by_cases zero : m = 0
      · rw [named zero, zero]
        rfl
      · rw [if_neg zero]
        rfl
    rw [tokens_natDigits, tokens_ended (by simp [token]) stops, token]
  cases n with
  | ofNat n => exact whole false n fun _ => rfl
  | negSucc n => exact whole true (n + 1) (by omega)

theorem tokens_exponentDigits {n : Numeral} (part : n.part = .letter ∨ n.part = .exponentSign)
    (e : Nat) (rest : List (Option Char)) :
    (Mode.numeral n).tokens ((Text.natDigits e).map some ++ rest) =
      (Mode.numeral { n with part := .exponent, exponent := e }).tokens rest := by
  cases digits : Text.natDigits e with
  | nil => exact absurd digits (Text.natDigits_ne_nil e)
  | cons c ds =>
      have isDigit : ∀ d ∈ c :: ds, Text.isDigit d = true := fun d member =>
        Text.isDigit_of_mem_natDigits (by rw [digits]; exact member)
      have step : (Mode.numeral n).step (some c) =
          ([], .numeral { n with part := .exponent, exponent := Text.digitValue c }) := by
        rcases part with letter | sign
        · simp only [Mode.step, Numeral.step, Option.bind_some, Numeral.extend?, letter,
            isDigit c (.head _), if_true]
        · simp only [Mode.step, Numeral.step, Option.bind_some, Numeral.extend?, sign,
            isDigit c (.head _), if_true]
      have value := Text.digitsValue_natDigits e
      rw [digits, Text.digitsValue, List.foldl_cons, Nat.zero_mul, Nat.zero_add] at value
      have run := @tokens_digits (fun m => { n with part := .exponent, exponent := m }) ds
        (fun m d digit => by simp only [Numeral.extend?, digit, if_true])
        (fun d member => isDigit d (.tail _ member)) (Text.digitValue c) rest
      rw [value] at run
      rw [← run]
      simp only [List.map_cons, List.cons_append, Mode.tokens, step, List.nil_append]

theorem tokens_exponent (negative : Bool) (digits : Nat) (exponent : Int) (rest : List (Option Char))
    (stops : Stops rest) :
    (Mode.numeral { part := .letter, negative, digits }).tokens
        ((Text.intDigits exponent).map some ++ rest) =
      .real negative digits exponent :: Mode.between.tokens rest := by
  cases exponent with
  | ofNat e =>
      rw [Text.intDigits, tokens_exponentDigits (.inl rfl), tokens_ended (by simp [Numeral.token]) stops]
      simp [Numeral.token]
  | negSucc e =>
      change (Mode.numeral
        { part := .exponentSign, negative, digits, exponentNegative := true }).tokens
          ((Text.natDigits (e + 1)).map some ++ rest) = _
      rw [tokens_exponentDigits (.inr rfl), tokens_ended (by simp [Numeral.token]) stops]
      simp [Numeral.token, Int.negSucc_eq]

theorem tokens_real (negative : Bool) (digits : Nat) (exponent : Int) (rest : List (Option Char))
    (stops : Stops rest) :
    Mode.between.tokens ((Token.real negative digits exponent).write.map some ++ rest) =
      .real negative digits exponent :: Mode.between.tokens rest := by
  have unsigned : Mode.between.tokens ((Token.real negative digits exponent).write.map some ++ rest) =
      (unopened negative).tokens ((Text.natDigits digits).map some ++
        (some 'e' :: ((Text.intDigits exponent).map some ++ rest))) := by
    cases negative <;>
      simp only [Token.write, Bool.false_eq_true, if_false, if_true, List.nil_append, List.map_append,
        List.map_cons, List.append_assoc, List.cons_append] <;> rfl
  rw [unsigned, tokens_natDigits, ← tokens_exponent negative digits exponent rest stops]
  by_cases zero : digits = 0
  · rw [if_pos zero]
    rfl
  · rw [if_neg zero]
    rfl

theorem reads_write {t : Token} (proper : t ≠ .junk) : Reads t.write [t] := by
  intro rest stops
  cases t with
  | junk => exact absurd rfl proper
  | integer n => exact tokens_intDigits n rest stops
  | real negative digits exponent => exact tokens_real negative digits exponent rest stops
  | string s => exact reads_quote s rest
  | bool b => cases b <;> rfl
  | openObject | closeObject | openArray | closeArray | comma | colon | null => rfl

end RetirementLedger.Json
