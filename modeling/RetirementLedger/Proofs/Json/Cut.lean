import RetirementLedger.Proofs.Json.Reader

namespace RetirementLedger.Json

/-! ## Containers that are left open -/

def Token.Closes (t : Token) : Prop := t = .closeArray ∨ t = .closeObject

inductive Reading.Inside (t : Token) : Reading → Prop
  | closed (v : Json) (closes : t.Closes) : Inside t (.finished v)
  | opened {frames : List Frame} {wanted : Wanted} (filled : frames ≠ []) :
      Inside t (.underway frames wanted)

section
variable {frames : List Frame} {wanted : Wanted} {t : Token} {reading : Reading}

theorem Reading.deliver_inside (filled : frames ≠ []) (v : Json) :
    (Reading.deliver v frames).Inside t := by
  cases frames with
  | nil => exact absurd rfl filled
  | cons frame outer => cases frame <;> exact .opened (List.cons_ne_nil _ _)

theorem Reading.close?_inside (step : Reading.close? frames t = some reading) :
    reading.Inside t := by
  have closed (closes : t.Closes) (v : Json) (outer : List Frame) :
      (Reading.deliver v outer).Inside t := by
    cases outer with
    | nil => exact .closed v closes
    | cons frame outer => exact deliver_inside (List.cons_ne_nil _ _) v
  unfold close? at step
  split at step
  · cases step
    exact closed (.inl rfl) _ _
  · cases step
    exact closed (.inr rfl) _ _
  · cases step

theorem Reading.begin?_inside (filled : frames ≠ []) (step : Reading.begin? frames t = some reading) :
    reading.Inside t := by
  unfold begin? at step
  split at step
  · cases step
    exact .opened (List.cons_ne_nil _ _)
  · cases step
    exact .opened (List.cons_ne_nil _ _)
  · obtain ⟨v, -, rfl⟩ := Option.map_eq_some_iff.mp step
    exact deliver_inside filled v

theorem Reading.name?_inside (step : Reading.name? frames t = some reading) : reading.Inside t := by
  unfold name? at step
  split at step
  · cases step
    exact .opened (List.cons_ne_nil _ _)
  · cases step

theorem Reading.comma?_inside (step : Reading.comma? frames = some reading) : reading.Inside t := by
  unfold comma? at step
  split at step
  · cases step
    exact .opened (List.cons_ne_nil _ _)
  · cases step
    exact .opened (List.cons_ne_nil _ _)
  · cases step

theorem Reading.step?_inside (filled : frames ≠ [])
    (step : Reading.step? frames wanted t = some reading) : reading.Inside t := by
  unfold step? at step
  cases wanted with
  | value => exact begin?_inside filled step
  | valueOrClose =>
      dsimp only at step
      split at step
      · exact close?_inside step
      · exact begin?_inside filled step
  | name => exact name?_inside step
  | nameOrClose =>
      dsimp only at step
      split at step
      · exact close?_inside step
      · exact name?_inside step
  | colon =>
      dsimp only at step
      split at step
      · cases step
        exact .opened filled
      · cases step
  | separator =>
      dsimp only at step
      split at step
      · exact comma?_inside step
      · exact close?_inside step

theorem closes_of_readFrom {tokens : List Token} {v : Json} (filled : frames ≠ [])
    (read : readFrom frames wanted tokens = some (v, [])) :
    ∃ t, tokens.getLast? = some t ∧ t.Closes := by
  induction tokens generalizing frames wanted with
  | nil => cases read
  | cons t rest ih =>
      cases step : Reading.step? frames wanted t with
      | none =>
          rw [readFrom, step] at read
          cases read
      | some reading =>
          rw [readFrom_cons step] at read
          cases Reading.step?_inside filled step with
          | closed w closes =>
              cases read
              exact ⟨t, rfl, closes⟩
          | opened filled =>
              obtain ⟨last, ends, closes⟩ := ih filled read
              exact ⟨last, by rw [List.getLast?_cons, ends]; rfl, closes⟩

theorem readFrom_append {tokens rest : List Token} {v : Json}
    (read : readFrom frames wanted tokens = some (v, rest)) (more : List Token) :
    readFrom frames wanted (tokens ++ more) = some (v, rest ++ more) := by
  induction tokens generalizing frames wanted with
  | nil => cases read
  | cons t tokens ih =>
      cases step : Reading.step? frames wanted t with
      | none =>
          rw [readFrom, step] at read
          cases read
      | some reading =>
          rw [readFrom_cons step] at read
          rw [List.cons_append, readFrom_cons step]
          cases reading with
          | finished w =>
              cases read
              rfl
          | underway next wanted => exact ih read

end

/-! ## The machine between two symbols -/

namespace Mode

/-- The machine is never left after a word that is complete. -/
def IsProper (mode : Mode) : Prop := ∀ t, mode ≠ .word [] t

structure IsBusy (mode : Mode) : Prop where
  begun : mode ≠ .between
  sound : mode ≠ .failed

structure Begins (r : List Token × Mode) : Prop where
  proper : r.2.IsProper
  begun : r.1 ≠ [] ∨ r.2.IsBusy

theorem Begins.ite {c : Prop} [Decidable c] {r s : List Token × Mode} (first : Begins r)
    (other : Begins s) : Begins (if c then r else s) := by
  split
  · exact first
  · exact other

theorem startToken_gap {c : Char} (gap : isGap c = true) : startToken (some c) = ([], .between) :=
  if_pos gap

theorem begins_startToken {c : Char} (solid : isGap c = false) : Begins (startToken (some c)) := by
  unfold startToken
  dsimp only
  rw [if_neg (by simp [solid])]
  repeat' refine .ite ?_ ?_
  all_goals first
    | exact ⟨fun t => Mode.noConfusion, .inl (List.cons_ne_nil _ _)⟩
    | exact ⟨(fun t same => by cases same), .inr ⟨Mode.noConfusion, Mode.noConfusion⟩⟩

theorem isProper_startToken (symbol : Option Char) : (startToken symbol).2.IsProper := by
  cases symbol with
  | none => exact fun t => Mode.noConfusion
  | some c =>
      cases solid : isGap c with
      | true =>
          rw [startToken_gap solid]
          exact fun t => Mode.noConfusion
      | false => exact (begins_startToken solid).proper

variable {mode : Mode}

theorem isProper_step (mode : Mode) (symbol : Option Char) : (mode.step symbol).2.IsProper := by
  intro t same
  cases mode with
  | between => exact isProper_startToken symbol t same
  | word rest token =>
      cases rest with
      | nil => exact isProper_startToken symbol t same
      | cons c rest =>
          simp only [step] at same
          split at same
          · split at same
            · cases same
            · next more =>
                cases same
                exact more rfl
          · cases same
  | quoted q =>
      simp only [step, Quoted.step] at same
      repeat' split at same
      all_goals cases same
  | numeral n =>
      simp only [step, Numeral.step] at same
      split at same
      · cases same
      · split at same
        · cases same
        · exact isProper_startToken symbol t same
  | failed => cases same

theorem exists_tokens_append (proper : mode.IsProper) (before : List (Option Char)) :
    ∃ out, ∃ next : Mode, next.IsProper ∧
      ∀ after, mode.tokens (before ++ after) = out ++ next.tokens after := by
  induction before generalizing mode with
  | nil => exact ⟨[], mode, proper, fun after => rfl⟩
  | cons symbol before ih =>
      obtain ⟨out, next, proper, runs⟩ := ih (isProper_step mode symbol)
      refine ⟨(mode.step symbol).1 ++ out, next, proper, fun after => ?_⟩
      rw [List.cons_append, Mode.tokens, List.append_assoc, ← runs]

theorem step_busy (busy : mode.IsBusy) (symbol : Option Char) :
    (mode.step symbol).1 ≠ [] ∨ (mode.step symbol).2.IsBusy := by
  cases mode with
  | between => exact absurd rfl busy.begun
  | word rest token =>
      cases rest with
      | nil => exact .inl (List.cons_ne_nil _ _)
      | cons c rest =>
          simp only [step]
          repeat' split
          all_goals first
            | exact .inl (List.cons_ne_nil _ _)
            | exact .inr ⟨by simp, by simp⟩
  | quoted q =>
      simp only [step, Quoted.step]
      repeat' split
      all_goals first
        | exact .inl (List.cons_ne_nil _ _)
        | exact .inr ⟨by simp, by simp⟩
  | numeral n =>
      simp only [step, Numeral.step]
      repeat' split
      all_goals first
        | exact .inl (List.cons_ne_nil _ _)
        | exact .inr ⟨by simp, by simp⟩
  | failed => exact absurd rfl busy.sound

theorem tokens_ne_nil (busy : mode.IsBusy) (symbols : List (Option Char)) :
    mode.tokens symbols ≠ [] := by
  induction symbols generalizing mode with
  | nil =>
      cases mode with
      | between => exact absurd rfl busy.begun
      | word rest token => cases rest <;> exact List.cons_ne_nil _ _
      | quoted q => exact List.cons_ne_nil _ _
      | numeral n => exact List.cons_ne_nil _ _
      | failed => exact absurd rfl busy.sound
  | cons symbol symbols ih =>
      rw [Mode.tokens]
      rcases step_busy busy symbol with some | busy
      · exact List.append_ne_nil_of_left_ne_nil some _
      · exact List.append_ne_nil_of_right_ne_nil _ (ih busy)

theorem not_mem_of_tokens {symbols : List (Option Char)}
    (nothing : Mode.between.tokens symbols = []) : some '\x7d' ∉ symbols := by
  induction symbols with
  | nil => exact List.not_mem_nil
  | cons symbol symbols ih =>
      have both : (startToken symbol).1 = [] ∧ (startToken symbol).2.tokens symbols = [] :=
        List.append_eq_nil_iff.mp nothing
      cases symbol with
      | none => cases both.1
      | some c =>
          cases solid : isGap c with
          | true =>
              rw [startToken_gap solid] at both
              refine List.not_mem_cons_of_ne_of_not_mem ?_ (ih both.2)
              rintro ⟨⟩
              cases solid
          | false =>
              rcases (begins_startToken solid).begun with token | busy
              · exact absurd both.1 token
              · exact absurd both.2 (tokens_ne_nil busy symbols)

theorem finish_busy (proper : mode.IsProper) (busy : mode.IsBusy) :
    ∃ t, mode.finish = [t] ∧ ¬ t.Closes := by
  have junk : ¬ Token.junk.Closes := by simp [Token.Closes]
  cases mode with
  | between => exact absurd rfl busy.begun
  | word rest token =>
      cases rest with
      | nil => exact absurd rfl (proper token)
      | cons c rest => exact ⟨.junk, rfl, junk⟩
  | quoted q => exact ⟨.junk, rfl, junk⟩
  | numeral n =>
      refine ⟨n.token, rfl, ?_⟩
      unfold Numeral.token
      split
      all_goals first
        | split <;> simp [Token.Closes]
        | simp [Token.Closes]
  | failed => exact absurd rfl busy.sound

theorem tokens_failed (symbols : List (Option Char)) : Mode.failed.tokens symbols = [] := by
  induction symbols with
  | nil => rfl
  | cons symbol symbols ih => exact ih

theorem tokens_ill_formed (sound : mode ≠ .failed) : ∃ out, mode.tokens [none] = out ++ [.junk] := by
  cases mode with
  | between => exact ⟨[], rfl⟩
  | word rest token =>
      cases rest with
      | nil => exact ⟨[token], rfl⟩
      | cons c rest => exact ⟨[], rfl⟩
  | quoted q =>
      simp only [Mode.tokens, step, Quoted.step]
      cases q.escape <;> exact ⟨[], rfl⟩
  | numeral n =>
      simp only [Mode.tokens, step, Numeral.step, Option.bind_none, Option.any_none]
      split
      · exact ⟨[], rfl⟩
      · exact ⟨[n.token], rfl⟩
  | failed => exact absurd rfl sound

end Mode

/-! ## Objects that were cut short -/

theorem ofSymbols?_eq_some {symbols : List (Option Char)} {v : Json} :
    ofSymbols? symbols = some v ↔ readValue (Token.scan symbols) = some (v, []) := by
  unfold ofSymbols?
  split
  · next w read =>
      rw [read]
      simp
  · next other =>
      constructor
      · intro none
        cases none
      · exact fun read => absurd read (other v)

theorem ofSymbols?_open {symbols : List (Option Char)} {tokens : List Token} {t : Token}
    (scan : Token.scan symbols = .openObject :: (tokens ++ [t])) (other : ¬ t.Closes) :
    ofSymbols? symbols = none := by
  refine Option.eq_none_iff_forall_ne_some.mpr fun v read => ?_
  rw [ofSymbols?_eq_some, scan, readValue, readFrom_cons rfl] at read
  obtain ⟨last, ends, closes⟩ := closes_of_readFrom (List.cons_ne_nil _ _) read
  rw [List.getLast?_concat] at ends
  cases ends
  exact other closes

/-- The text of an object is no longer one after any loss at its end, cut between two characters or
inside one. -/
theorem ofSymbols?_cut {body : List Char} {members : List (Option String × Json)}
    (reads : Reads ('\x7b' :: (body ++ ['\x7d'])) (object members).tokens)
    {before after : List (Option Char)}
    (split : ('\x7b' :: (body ++ ['\x7d'])).map some = before ++ after) (cut : after ≠ []) :
    ofSymbols? before = none ∧ ofSymbols? (before ++ [none]) = none := by
  cases before with
  | nil => exact ⟨rfl, rfl⟩
  | cons symbol before =>
    obtain ⟨rfl, inner⟩ := List.cons.inj split
    have start : Mode.between.IsProper := fun t => Mode.noConfusion
    obtain ⟨out, mode, proper, runs⟩ := Mode.exists_tokens_append start before
    have scan (more : List (Option Char)) :
        Token.scan (some '\x7b' :: (before ++ more)) = .openObject :: (out ++ mode.tokens more) :=
      congrArg (Token.openObject :: ·) (runs more)
    have whole : (object members).tokens = .openObject :: (out ++ mode.tokens after) := by
      rw [← scan, ← List.cons_append, ← split, reads.scan]
    have sound : mode ≠ .failed := by
      -- A comma after the whole text would be read, but a machine that has failed reads no more.
      rintro rfl
      have comma := reads _ (stops_cons (c := ',') (by decide) [])
      have more := scan (after ++ [some ','])
      rw [← List.append_assoc, ← List.cons_append, ← List.cons_append, ← split] at more
      rw [Token.scan, comma, whole, Mode.tokens_failed, Mode.tokens_failed] at more
      exact absurd (List.append_right_eq_self.mp more) (List.cons_ne_nil _ _)
    have closing : some '\x7d' ∈ after := by
      have last := congrArg List.getLast? split
      rw [List.getLast?_append, List.getLast?_eq_some_getLast cut, ← List.cons_append, List.map_append,
        List.map_singleton, List.getLast?_concat] at last
      exact List.mem_of_getLast? (by rw [List.getLast?_eq_some_getLast cut]; exact last.symm)
    constructor
    · have scanned : Token.scan (some '\x7b' :: before) = .openObject :: (out ++ mode.finish) := by
        have ended := scan []
        rwa [List.append_nil] at ended
      by_cases between : mode = .between
      · -- An object that is read from what is left would leave the closing brace unread.
        subst between
        refine Option.eq_none_iff_forall_ne_some.mpr fun v read => ?_
        rw [ofSymbols?_eq_some, scanned] at read
        have more := readFrom_append read (Mode.between.tokens after)
        have value := readValue_tokens (object members) []
        rw [List.append_nil, whole, readValue] at value
        rw [Mode.finish, List.append_nil, List.cons_append, value] at more
        have nothing := (Prod.mk.inj (Option.some.inj more)).2
        exact absurd closing (Mode.not_mem_of_tokens nothing.symm)
      · obtain ⟨t, ends, other⟩ := Mode.finish_busy proper ⟨between, sound⟩
        rw [ends] at scanned
        exact ofSymbols?_open scanned other
    · obtain ⟨more, ends⟩ := Mode.tokens_ill_formed sound
      have scanned := scan [none]
      rw [ends, ← List.append_assoc] at scanned
      exact ofSymbols?_open scanned (by simp [Token.Closes])

theorem exists_prettyChars_object (level : Nat) (members : List (Option String × Json)) :
    ∃ body, prettyChars level (object members) = '\x7b' :: (body ++ ['\x7d']) := by
  cases members with
  | nil => exact ⟨[], rfl⟩
  | cons m members => exact ⟨_, rfl⟩

/-- The octets of an object's text are no text of any value after any loss at their end. -/
theorem ofSymbols?_decode_cut {members : List (Option String × Json)} {before after : List UInt8}
    (split : Text.Utf8.encode (object members).renderPretty = before ++ after) (cut : after ≠ []) :
    ofSymbols? (Text.Utf8.decode before) = none := by
  obtain ⟨body, chars⟩ := exists_prettyChars_object 0 members
  have reads := reads_prettyChars (object members) 0
  obtain ⟨kept, lost, symbols, some, here⟩ := Text.Utf8.exists_decode_cut before cut
  rw [← split, Text.Utf8.decode_encode, renderPretty, String.toList_ofList, chars] at symbols
  rw [chars] at reads
  obtain ⟨between, inside⟩ := ofSymbols?_cut reads symbols some
  rcases here with whole | broken
  · rw [whole, between]
  · rw [broken, inside]

end RetirementLedger.Json
