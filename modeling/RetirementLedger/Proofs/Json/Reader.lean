import RetirementLedger.Json.Reader
import RetirementLedger.Json.Writer
import RetirementLedger.Proofs.Json.Token
import RetirementLedger.Proofs.Text.Utf8

namespace RetirementLedger.Json

@[elab_as_elim]
theorem induction {motive : Json → Prop} (null : motive .null) (bool : ∀ b, motive (.bool b))
    (integer : ∀ n, motive (.integer n))
    (real : ∀ negative digits exponent, motive (.real negative digits exponent))
    (string : ∀ s, motive (.string s))
    (array : ∀ items, (∀ v ∈ items, motive v) → motive (.array items))
    (object : ∀ members, (∀ m ∈ members, motive m.2) → motive (.object members)) (j : Json) :
    motive j :=
  @Json.rec motive (fun items => ∀ v ∈ items, motive v) (fun members => ∀ m ∈ members, motive m.2)
    (fun m => motive m.2) null bool integer real string array object
    (fun _ absent => absurd absent List.not_mem_nil) (fun _ _ head tail => List.forall_mem_cons.mpr ⟨head, tail⟩)
    (fun _ absent => absurd absent List.not_mem_nil) (fun _ _ head tail => List.forall_mem_cons.mpr ⟨head, tail⟩)
    (fun _ _ value => value) j

/-! ## Values as tokens -/

def Reading.goOn : Reading → List Token → Option (Json × List Token)
  | .finished v, rest => some (v, rest)
  | .underway frames wanted, rest => readFrom frames wanted rest

theorem readFrom_cons {frames : List Frame} {wanted : Wanted} {t : Token} {reading : Reading}
    (step : Reading.step? frames wanted t = some reading) (rest : List Token) :
    readFrom frames wanted (t :: rest) = reading.goOn rest := by
  rw [readFrom, step]
  cases reading <;> rfl

/-- Where a value is wanted, its tokens are read as the value and nothing more. -/
def Delivered (v : Json) : Prop :=
  ∀ frames rest, readFrom frames .value (v.tokens ++ rest) = (Reading.deliver v frames).goOn rest

theorem tokens_eq_cons (v : Json) : ∃ t ts, v.tokens = t :: ts ∧ t ≠ .closeArray := by
  cases v <;> exact ⟨_, _, rfl, by simp⟩

theorem itemTokens_eq_cons (v : Json) (items : List Json) :
    ∃ t ts, itemTokens (v :: items) = t :: ts ∧ t ≠ .closeArray := by
  obtain ⟨t, ts, tokens, other⟩ := tokens_eq_cons v
  cases items with
  | nil => exact ⟨t, ts, tokens, other⟩
  | cons w items =>
      refine ⟨t, ts ++ .comma :: itemTokens (w :: items), ?_, other⟩
      rw [itemTokens, tokens, List.cons_append]
      exact List.cons_ne_nil _ _

theorem memberTokens_eq_cons (m : Option String × Json) (members : List (Option String × Json)) :
    ∃ ts, memberTokens (m :: members) = .string m.1 :: ts := by
  cases members <;> exact ⟨_, rfl⟩

theorem readFrom_valueOrClose {t : Token} (other : t ≠ .closeArray) (frames : List Frame)
    (rest : List Token) :
    readFrom frames .valueOrClose (t :: rest) = readFrom frames .value (t :: rest) := by
  have same : Reading.step? frames .valueOrClose t = Reading.step? frames .value t := if_neg other
  rw [readFrom, readFrom, same]

theorem readFrom_items {items : List Json} (each : ∀ v ∈ items, Delivered v) (filled : items ≠ [])
    (done : List Json) (outer : List Frame) (rest : List Token) :
    readFrom (.items done :: outer) .value (itemTokens items ++ .closeArray :: rest) =
      (Reading.deliver (.array (done.reverse ++ items)) outer).goOn rest := by
  induction items generalizing done with
  | nil => exact absurd rfl filled
  | cons v items ih =>
      have first := each v (.head _)
      cases items with
      | nil =>
          rw [itemTokens, first, Reading.deliver, Reading.goOn, readFrom_cons rfl, List.reverse_cons]
      | cons w items =>
          rw [itemTokens, List.append_assoc, first, Reading.deliver, Reading.goOn, List.cons_append,
            readFrom_cons rfl, Reading.goOn,
            ih (fun u member => each u (.tail _ member)) (List.cons_ne_nil _ _), List.reverse_cons,
            List.append_assoc, List.singleton_append]
          exact List.cons_ne_nil _ _

theorem readFrom_members {members : List (Option String × Json)}
    (each : ∀ m ∈ members, Delivered m.2) (filled : members ≠ []) (done : List (Option String × Json))
    (name : Option String) (outer : List Frame) (rest : List Token) :
    readFrom (.members done name :: outer) .name (memberTokens members ++ .closeObject :: rest) =
      (Reading.deliver (.object (done.reverse ++ members)) outer).goOn rest := by
  induction members generalizing done name with
  | nil => exact absurd rfl filled
  | cons m members ih =>
      have first := each m (.head _)
      cases members with
      | nil =>
          rw [memberTokens, List.cons_append, List.cons_append, readFrom_cons rfl, Reading.goOn,
            readFrom_cons rfl, Reading.goOn, first, Reading.deliver, Reading.goOn, readFrom_cons rfl,
            List.reverse_cons]
      | cons w members =>
          rw [memberTokens, List.cons_append, List.cons_append, List.append_assoc, readFrom_cons rfl,
            Reading.goOn, readFrom_cons rfl, Reading.goOn, first, Reading.deliver, Reading.goOn,
            List.cons_append, readFrom_cons rfl, Reading.goOn,
            ih (fun u member => each u (.tail _ member)) (List.cons_ne_nil _ _), List.reverse_cons,
            List.append_assoc, List.singleton_append]
          exact List.cons_ne_nil _ _

theorem delivered (v : Json) : Delivered v := by
  induction v using Json.induction with
  | null | bool | integer | real | string => exact fun frames rest => readFrom_cons rfl rest
  | array items each =>
      intro frames rest
      rw [tokens, List.cons_append, List.append_assoc, readFrom_cons rfl, Reading.goOn,
        List.singleton_append]
      -- After an opening bracket there may be nothing; items, if any, go into a frame of their own.
      cases items with
      | nil => exact readFrom_cons rfl rest
      | cons v items =>
          obtain ⟨t, ts, tokens, other⟩ := itemTokens_eq_cons v items
          have read := readFrom_items each (List.cons_ne_nil v items) [] frames rest
          rwa [tokens, List.cons_append, ← readFrom_valueOrClose other, ← List.cons_append, ← tokens]
            at read
  | object members each =>
      intro frames rest
      rw [tokens, List.cons_append, List.append_assoc, readFrom_cons rfl, Reading.goOn,
        List.singleton_append]
      cases members with
      | nil => exact readFrom_cons rfl rest
      | cons m members =>
          obtain ⟨ts, tokens⟩ := memberTokens_eq_cons m members
          have read := readFrom_members each (List.cons_ne_nil m members) [] none frames rest
          rw [tokens, List.cons_append] at read ⊢
          exact read

theorem readValue_tokens (v : Json) (rest : List Token) :
    readValue (v.tokens ++ rest) = some (v, rest) :=
  delivered v [] rest

/-! ## Texts as tokens -/

theorem Reads.mark {c : Char} {t : Token} (mark : startToken (some c) = ([t], .between))
    {chars : List Char} {tokens : List Token} (reads : Reads chars tokens) :
    Reads (c :: chars) (t :: tokens) := fun rest stops => by
  simp only [List.map_cons, List.cons_append, Mode.tokens, Mode.step, mark, List.nil_append,
    reads rest stops]

theorem Reads.gap {c : Char} (gap : isGap c = true) {chars : List Char} {tokens : List Token}
    (reads : Reads chars tokens) : Reads (c :: chars) tokens := fun rest stops => by
  have step : startToken (some c) = ([], .between) := if_pos gap
  simp only [List.map_cons, List.cons_append, Mode.tokens, Mode.step, step, List.nil_append,
    reads rest stops]

theorem Reads.lineStart (level : Nat) {chars : List Char} {tokens : List Token}
    (reads : Reads chars tokens) : Reads (lineStart level ++ chars) tokens := by
  refine .gap rfl ?_
  induction 2 * level with
  | zero => exact reads
  | succ n ih => exact .gap rfl ih

theorem Reads.quoted (s : Option String) {chars : List Char} {tokens : List Token}
    (reads : Reads chars tokens) : Reads (quote s ++ chars) (.string s :: tokens) :=
  fun rest stops => by
    rw [List.map_append, List.append_assoc, reads_quote, reads rest stops, List.cons_append]

/-- Two texts in a row, where the second one starts with a character that ends every token. -/
theorem Reads.append {a b : List Char} {c : Char} {ts us : List Token} (first : Reads a ts)
    (ends : Text.isDigit c = false ∧ c ∉ ['.', 'e', 'E']) (second : Reads (c :: b) us) :
    Reads (a ++ c :: b) (ts ++ us) := fun rest stops => by
  rw [List.map_append, List.append_assoc, List.map_cons, List.cons_append,
    first _ (stops_cons ends _), ← List.cons_append, ← List.map_cons, second rest stops,
    List.append_assoc]

theorem reads_nil : Reads [] [] := fun _ _ => rfl

theorem reads_itemTokens {items : List Json}
    (each : ∀ v ∈ items, Reads (v.tokens.flatMap Token.write) v.tokens) {b : List Char}
    {us : List Token} (close : Reads (']' :: b) us) :
    Reads ((itemTokens items).flatMap Token.write ++ ']' :: b) (itemTokens items ++ us) := by
  induction items with
  | nil => exact close
  | cons v items ih =>
      have first := each v (.head _)
      cases items with
      | nil => exact first.append (by decide) close
      | cons w items =>
          rw [itemTokens, List.flatMap_append, List.append_assoc, List.append_assoc]
          · exact first.append (by decide) (.mark rfl (ih fun u member => each u (.tail _ member)))
          · exact List.cons_ne_nil _ _

theorem reads_memberTokens {members : List (Option String × Json)}
    (each : ∀ m ∈ members, Reads (m.2.tokens.flatMap Token.write) m.2.tokens) {b : List Char}
    {us : List Token} (close : Reads ('\x7d' :: b) us) :
    Reads ((memberTokens members).flatMap Token.write ++ '\x7d' :: b) (memberTokens members ++ us) := by
  induction members with
  | nil => exact close
  | cons m members ih =>
      have first := each m (.head _)
      cases members with
      | nil =>
          rw [memberTokens, List.flatMap_cons, List.flatMap_cons, List.append_assoc, List.append_assoc]
          exact .quoted m.1 (.mark rfl (first.append (by decide) close))
      | cons w members =>
          rw [memberTokens, List.flatMap_cons, List.flatMap_cons, List.flatMap_append,
            List.append_assoc, List.append_assoc, List.append_assoc, List.cons_append,
            List.cons_append, List.append_assoc]
          · exact .quoted m.1 (.mark rfl (first.append (by decide)
              (.mark rfl (ih fun u member => each u (.tail _ member)))))
          · exact List.cons_ne_nil _ _

theorem reads_tokens (v : Json) : Reads (v.tokens.flatMap Token.write) v.tokens := by
  induction v using Json.induction with
  | null | bool | integer | real | string =>
      simpa only [tokens, List.flatMap_cons, List.flatMap_nil, List.append_nil] using
        reads_write (by simp)
  | array items each =>
      rw [tokens, List.flatMap_cons, List.flatMap_append]
      exact .mark rfl (reads_itemTokens each (.mark rfl reads_nil))
  | object members each =>
      rw [tokens, List.flatMap_cons, List.flatMap_append]
      exact .mark rfl (reads_memberTokens each (.mark rfl reads_nil))

/-! ## Indented texts -/

theorem reads_prettyItems {items : List Json}
    (each : ∀ v ∈ items, ∀ level, Reads (prettyChars level v) v.tokens) (level : Nat)
    {b : List Char} {us : List Token} (close : Reads ('\n' :: b) us) :
    Reads (prettyItems level items ++ '\n' :: b) (itemTokens items ++ us) := by
  induction items with
  | nil => exact close
  | cons v items ih =>
      have first := each v (.head _) level
      cases items with
      | nil =>
          rw [prettyItems, List.append_assoc]
          exact .lineStart level (first.append (by decide) close)
      | cons w items =>
          rw [prettyItems, itemTokens, List.append_assoc, List.append_assoc, List.append_assoc]
          · exact .lineStart level (first.append (by decide)
              (.mark rfl (ih fun u member => each u (.tail _ member))))
          · exact List.cons_ne_nil _ _
          · exact List.cons_ne_nil _ _

theorem reads_prettyMembers {members : List (Option String × Json)}
    (each : ∀ m ∈ members, ∀ level, Reads (prettyChars level m.2) m.2.tokens) (level : Nat)
    {b : List Char} {us : List Token} (close : Reads ('\n' :: b) us) :
    Reads (prettyMembers level members ++ '\n' :: b) (memberTokens members ++ us) := by
  induction members with
  | nil => exact close
  | cons m members ih =>
      have first := each m (.head _) level
      cases members with
      | nil =>
          rw [prettyMembers, memberTokens]
          simp only [List.append_assoc, List.cons_append, List.nil_append]
          exact .lineStart level (.quoted m.1 (.mark rfl (.gap rfl (first.append (by decide) close))))
      | cons w members =>
          rw [prettyMembers, memberTokens]
          · simp only [List.append_assoc, List.cons_append, List.nil_append]
            exact .lineStart level (.quoted m.1 (.mark rfl (.gap rfl (first.append (by decide)
              (.mark rfl (ih fun u member => each u (.tail _ member)))))))
          · exact List.cons_ne_nil _ _
          · exact List.cons_ne_nil _ _

theorem reads_prettyChars (v : Json) : ∀ level, Reads (prettyChars level v) v.tokens := by
  induction v using Json.induction with
  | null => exact fun _ => reads_write (t := .null) (by simp)
  | bool b => exact fun _ => reads_write (t := .bool b) (by simp)
  | integer n => exact fun _ => reads_write (t := .integer n) (by simp)
  | real negative digits exponent =>
      exact fun _ => reads_write (t := .real negative digits exponent) (by simp)
  | string s => exact fun _ => reads_write (t := .string s) (by simp)
  | array items each =>
      intro level
      cases items with
      | nil => exact .mark rfl (.mark rfl reads_nil)
      | cons v items =>
          rw [prettyChars, tokens, List.append_assoc]
          · exact .mark rfl (reads_prettyItems each (level + 1)
              (.lineStart level (.mark rfl reads_nil)))
          · exact List.cons_ne_nil _ _
  | object members each =>
      intro level
      cases members with
      | nil => exact .mark rfl (.mark rfl reads_nil)
      | cons m members =>
          rw [prettyChars, tokens, List.append_assoc]
          · exact .mark rfl (reads_prettyMembers each (level + 1)
              (.lineStart level (.mark rfl reads_nil)))
          · exact List.cons_ne_nil _ _

/-! ## Round trips -/

theorem Reads.scan {chars : List Char} {tokens : List Token} (reads : Reads chars tokens) :
    Token.scan (chars.map some) = tokens := by
  have whole := reads [] stops_nil
  rwa [List.append_nil, show Mode.between.tokens [] = [] from rfl, List.append_nil] at whole

theorem Reads.ofSymbols? {chars : List Char} {v : Json} (reads : Reads chars v.tokens) :
    ofSymbols? (chars.map some) = some v := by
  have read := readValue_tokens v []
  rw [List.append_nil] at read
  rw [Json.ofSymbols?, reads.scan, read]

@[simp] theorem parse?_render (v : Json) : parse? v.render = some v := by
  rw [parse?, render, String.toList_ofList]
  exact (reads_tokens v).ofSymbols?

@[simp] theorem parse?_renderPretty (v : Json) : parse? v.renderPretty = some v := by
  rw [parse?, renderPretty, String.toList_ofList]
  exact (reads_prettyChars v 0).ofSymbols?

end RetirementLedger.Json
