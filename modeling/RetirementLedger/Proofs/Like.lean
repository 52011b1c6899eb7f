import RetirementLedger.Like

/-!
What a LIKE pattern denotes: all values that its tokens can share out among them. The scan, which can go
back to the last run that it met and to no run before that, finds exactly these.
-/
namespace RetirementLedger.Like

inductive Matches : List Token → List Char → Prop
  | nil : Matches [] []
  | anyRun {tokens : List Token} {value : List Char} (run : List Char) (rest : Matches tokens value) :
      Matches (.anyRun :: tokens) (run ++ value)
  | anyOne {tokens : List Token} {value : List Char} (c : Char) (rest : Matches tokens value) :
      Matches (.anyOne :: tokens) (c :: value)
  | literal {tokens : List Token} {value : List Char} (c : Char) (rest : Matches tokens value) :
      Matches (.literal c :: tokens) (c :: value)

def Denotes (pattern value : String) : Prop :=
  ∃ tokens, tokens? pattern.toList = some tokens ∧ Matches tokens value.toList

variable {token : Token} {tokens : List Token} {c : Char} {value : List Char}

theorem matches_nil_iff : Matches [] value ↔ value = [] := by
  constructor
  · intro shared
    cases shared
    rfl
  · rintro rfl
    exact .nil

theorem matches_anyRun_iff :
    Matches (.anyRun :: tokens) value ↔ ∃ rest, rest <:+ value ∧ Matches tokens rest := by
  constructor
  · intro shared
    cases shared with
    | anyRun run rest => exact ⟨_, List.suffix_append run _, rest⟩
  · rintro ⟨rest, ⟨run, rfl⟩, shared⟩
    exact .anyRun run shared

theorem matches_anyRun_nil : Matches (.anyRun :: tokens) [] ↔ Matches tokens [] := by
  simp [matches_anyRun_iff]

theorem matches_anyRun_cons :
    Matches (.anyRun :: tokens) (c :: value) ↔
      Matches tokens (c :: value) ∨ Matches (.anyRun :: tokens) value := by
  simp only [matches_anyRun_iff, List.suffix_cons_iff]
  constructor
  · rintro ⟨rest, rfl | suffix, shared⟩
    · exact .inl shared
    · exact .inr ⟨rest, suffix, shared⟩
  · rintro (shared | ⟨rest, suffix, shared⟩)
    · exact ⟨_, .inl rfl, shared⟩
    · exact ⟨rest, .inr suffix, shared⟩

theorem not_matches_nil (single : token ≠ .anyRun) : ¬ Matches (token :: tokens) [] := by
  intro shared
  cases token with
  | anyRun => exact single rfl
  | anyOne => cases shared
  | literal d => cases shared

theorem matches_cons (single : token ≠ .anyRun) :
    Matches (token :: tokens) (c :: value) ↔ token.takes c = true ∧ Matches tokens value := by
  cases token with
  | anyRun => exact absurd rfl single
  | anyOne =>
      constructor
      · intro shared
        cases shared with
        | anyOne c rest => exact ⟨rfl, rest⟩
      · rintro ⟨-, rest⟩
        exact .anyOne c rest
  | literal d =>
      constructor
      · intro shared
        cases shared with
        | literal c rest => exact ⟨by simp [Token.takes], rest⟩
      · rintro ⟨same, rest⟩
        have same : c = d := by simpa [Token.takes] using same
        rw [same]
        exact .literal d rest

theorem Matches.drop {k : Nat} (shared : Matches tokens value)
    (singles : ∀ i < k, tokens[i]? ≠ some .anyRun) : Matches (tokens.drop k) (value.drop k) := by
  induction k generalizing tokens value with
  | zero => exact shared
  | succ k ih =>
      have later {token : Token} {tokens : List Token}
          (singles : ∀ i < k + 1, (token :: tokens)[i]? ≠ some .anyRun) :
          ∀ i < k, tokens[i]? ≠ some .anyRun := fun i bound => singles (i + 1) (by omega)
      cases shared with
      | nil => exact .nil
      | anyRun run rest => exact absurd rfl (singles 0 k.succ_pos)
      | anyOne c rest => exact ih rest (later singles)
      | literal c rest => exact ih rest (later singles)

theorem matches_nil_right : Matches tokens [] ↔ tokens.all (· == .anyRun) = true := by
  induction tokens with
  | nil => simp [matches_nil_iff]
  | cons token tokens ih =>
      by_cases run : token = .anyRun
      · simp [run, matches_anyRun_nil, ih]
      · simp [run, not_matches_nil run]

section
variable {tokens : Array Token} {value : Array Char} {t p : Nat}

def MatchesFrom (tokens : Array Token) (value : Array Char) (t p : Nat) : Prop :=
  Matches (tokens.toList.drop t) (value.toList.drop p)

theorem drop_token (here : tokens[t]? = some token) :
    tokens.toList.drop t = token :: tokens.toList.drop (t + 1) := by
  obtain ⟨bound, rfl⟩ := Array.getElem?_eq_some_iff.mp here
  exact List.drop_eq_getElem_cons bound

theorem drop_char (inside : p < value.size) :
    value.toList.drop p = value[p] :: value.toList.drop (p + 1) :=
  List.drop_eq_getElem_cons inside

theorem drop_outside (outside : value.size ≤ p) : value.toList.drop p = [] :=
  List.drop_eq_nil_of_le outside

theorem matchesFrom_outside (outside : value.size ≤ p) :
    MatchesFrom tokens value t p ↔ (tokens.toList.drop t).all (· == .anyRun) = true := by
  rw [MatchesFrom, drop_outside outside, matches_nil_right]

theorem matchesFrom_anyRun (here : tokens[t]? = some .anyRun) :
    MatchesFrom tokens value t p ↔
      MatchesFrom tokens value (t + 1) p ∨ MatchesFrom tokens value t (p + 1) := by
  unfold MatchesFrom
  rw [drop_token here]
  by_cases inside : p < value.size
  · rw [drop_char inside, matches_anyRun_cons]
  · have outside : value.size ≤ p := Nat.not_lt.mp inside
    rw [drop_outside outside, drop_outside (Nat.le_succ_of_le outside), matches_anyRun_nil, or_self]

theorem matchesFrom_single (inside : p < value.size) (here : tokens[t]? = some token)
    (single : token ≠ .anyRun) :
    MatchesFrom tokens value t p ↔
      token.takes value[p] = true ∧ MatchesFrom tokens value (t + 1) (p + 1) := by
  rw [MatchesFrom, drop_token here, drop_char inside, matches_cons single, MatchesFrom]

theorem Cursor.IsStuck.not_matchesFrom {c : Cursor} (stuck : c.IsStuck tokens value) :
    ¬ MatchesFrom tokens value c.token c.place := by
  intro shared
  cases here : tokens[c.token]? with
  | none =>
      rw [MatchesFrom, drop_char stuck.inside,
        List.drop_eq_nil_of_le (by simpa using here)] at shared
      cases shared
  | some token =>
      obtain ⟨single, refused⟩ := stuck.refused token here
      have taken := ((matchesFrom_single stuck.inside here single).mp shared).1
      rw [refused] at taken
      cases taken

variable {c d : Cursor} {m : Mark}

structure Cursor.Follows (tokens : Array Token) (c : Cursor) (m : Mark) : Prop where
  run : tokens[m.token]? = some .anyRun
  behind : m.token < c.token
  even : m.token + 1 + c.place = c.token + m.place
  singles : ∀ i, m.token < i → i < c.token → tokens[i]? ≠ some .anyRun

def Cursor.FollowsMark (tokens : Array Token) (c : Cursor) : Prop :=
  ∀ m, c.mark = some m → c.Follows tokens m

/-- What the scan can still find: a match from where it stands, or one with a longer last run. -/
def Cursor.Reaches (tokens : Array Token) (value : Array Char) (c : Cursor) : Prop :=
  MatchesFrom tokens value c.token c.place ∨
    ∃ m, c.mark = some m ∧ MatchesFrom tokens value m.token (m.place + 1)

theorem Cursor.follows_met {mark : Option Mark} (here : tokens[t]? = some .anyRun) :
    (⟨t + 1, p, mark⟩ : Cursor).Follows tokens ⟨t, p⟩ where
  run := here
  behind := Nat.lt_succ_self t
  even := rfl
  singles := fun _ after before => absurd before (Nat.not_lt.mpr after)

/-- A longer last run would put the present token further on, before a shorter rest. -/
theorem Cursor.Follows.further (follows : c.Follows tokens m)
    (longer : MatchesFrom tokens value m.token (m.place + 1)) :
    ∃ rest, rest <:+ value.toList.drop (c.place + 1) ∧ Matches (tokens.toList.drop c.token) rest := by
  obtain ⟨k, token⟩ := Nat.exists_eq_add_of_lt follows.behind
  have place : c.place = m.place + k := by have := follows.even; omega
  rw [MatchesFrom, drop_token follows.run, matches_anyRun_iff] at longer
  obtain ⟨rest, suffix, shared⟩ := longer
  have moved := shared.drop (k := k) fun i bound => by
    rw [List.getElem?_drop, Array.getElem?_toList]
    exact follows.singles _ (by omega) (by omega)
  refine ⟨rest.drop k, ?_, ?_⟩
  · obtain ⟨front, whole⟩ := suffix
    have rest_drop : value.toList.drop (c.place + 1) = (front ++ rest).drop k := by
      rw [whole, List.drop_drop, place]
      congr 1
      omega
    rw [rest_drop, List.drop_append]
    exact List.suffix_append_of_suffix ((List.drop_suffix_drop_left _ (Nat.sub_le _ _)))
  · rwa [List.drop_drop, show m.token + 1 + k = c.token by omega] at moved

theorem Cursor.Reaches.of_anyRun (follows : c.FollowsMark tokens)
    (here : tokens[c.token]? = some .anyRun) :
    c.Reaches tokens value ↔ MatchesFrom tokens value c.token c.place := by
  constructor
  · rintro (now | ⟨m, known, longer⟩)
    · exact now
    · obtain ⟨rest, suffix, shared⟩ := (follows m known).further longer
      rw [drop_token here, matches_anyRun_iff] at shared
      obtain ⟨last, within, shared⟩ := shared
      rw [MatchesFrom, drop_token here, matches_anyRun_iff]
      exact ⟨last, within.trans (suffix.trans (List.drop_suffix_drop_left _ (Nat.le_succ _))), shared⟩
  · exact .inl

theorem Cursor.Reaches.of_outside (follows : c.FollowsMark tokens) (outside : value.size ≤ c.place) :
    c.Reaches tokens value ↔ MatchesFrom tokens value c.token c.place := by
  constructor
  · rintro (now | ⟨m, known, longer⟩)
    · exact now
    · obtain ⟨rest, suffix, shared⟩ := (follows m known).further longer
      rw [drop_outside (Nat.le_succ_of_le outside), List.suffix_nil] at suffix
      rwa [MatchesFrom, drop_outside outside, ← suffix]
  · exact .inl

theorem Cursor.FollowsMark.goOn (follows : c.FollowsMark tokens)
    (next : turn tokens value c = .goOn d) :
    d.FollowsMark tokens ∧ (d.Reaches tokens value ↔ c.Reaches tokens value) := by
  have turned := turned tokens value c
  rw [next] at turned
  cases turned with
  | marked inside here =>
      refine ⟨fun m known => ?_, ?_⟩
      · cases known
        exact follows_met here
      · rw [Reaches.of_anyRun follows here, matchesFrom_anyRun here]
        simp [Reaches]
  | taken inside here single takes =>
      refine ⟨fun m known => ?_, ?_⟩
      · obtain ⟨run, behind, even, singles⟩ := follows m known
        refine ⟨run, Nat.lt_succ_of_lt behind, by dsimp only; omega, fun i after before => ?_⟩
        obtain earlier | rfl := Nat.lt_succ_iff_lt_or_eq.mp before
        · exact singles i after earlier
        · rw [here]
          exact fun same => single (Option.some.inj same)
      · unfold Reaches
        rw [matchesFrom_single inside here single]
        simp only [takes, true_and]
  | @stretched m stuck known =>
      have run := (follows m known).run
      refine ⟨fun other same => ?_, ?_⟩
      · cases same
        exact follows_met run
      · have now : c.Reaches tokens value ↔ MatchesFrom tokens value m.token (m.place + 1) := by
          simp [Reaches, known, stuck.not_matchesFrom]
        rw [now, matchesFrom_anyRun run]
        simp [Reaches]

theorem Cursor.FollowsMark.answer {isMatch : Bool} (follows : c.FollowsMark tokens)
    (next : turn tokens value c = .answer isMatch) : isMatch = true ↔ c.Reaches tokens value := by
  have turned := turned tokens value c
  rw [next] at turned
  cases turned with
  | failed stuck unknown => simp [Reaches, unknown, stuck.not_matchesFrom]
  | ended outside whole => rw [Reaches.of_outside follows outside, matchesFrom_outside outside]

theorem scan_iff {turns : Nat} (within : c.IsWithin tokens value) (follows : c.FollowsMark tokens)
    (enough : c.left tokens value < turns) :
    scan tokens value c within turns enough = true ↔ c.Reaches tokens value := by
  fun_induction scan tokens value c within turns enough with
  | case1 c within turns enough d next ih =>
      obtain ⟨kept, same⟩ := follows.goOn next
      exact (ih kept).trans same
  | case2 c within turns enough isMatch next => exact follows.answer next

/-- The turns that a scan takes from here until it has an answer, never looking beyond an end. -/
inductive Answers (tokens : Array Token) (value : Array Char) : Cursor → Nat → Bool → Prop
  | now {c : Cursor} {isMatch : Bool} (next : turn tokens value c = .answer isMatch) :
      Answers tokens value c 1 isMatch
  | later {c d : Cursor} {turns : Nat} {isMatch : Bool} (next : turn tokens value c = .goOn d)
      (rest : Answers tokens value d turns isMatch) : Answers tokens value c (turns + 1) isMatch

theorem scan_answers {turns : Nat} (within : c.IsWithin tokens value)
    (enough : c.left tokens value < turns) :
    ∃ taken ≤ turns, Answers tokens value c taken (scan tokens value c within turns enough) := by
  fun_induction scan tokens value c within turns enough with
  | case1 c within turns enough d next ih =>
      obtain ⟨taken, bound, answers⟩ := ih
      exact ⟨taken + 1, Nat.succ_le_succ bound, .later next answers⟩
  | case2 c within turns enough isMatch next => exact ⟨1, Nat.le_add_left _ _, .now next⟩

end

theorem matchesTokens_answers (tokens : List Token) (value : List Char) :
    ∃ turns ≤ (value.length + 2) * (tokens.length + 1),
      Answers tokens.toArray value.toArray {} turns (matchesTokens tokens value) := by
  obtain ⟨turns, bound, answers⟩ := scan_answers Cursor.isWithin_start (Nat.lt_succ_self _)
  have allowed : ({} : Cursor).left tokens.toArray value.toArray + 1 =
      (value.length + 2) * (tokens.length + 1) :=
    (Nat.succ_mul (value.length + 1) (tokens.length + 1)).symm
  exact ⟨turns, allowed ▸ bound, answers⟩

theorem matchesTokens_iff : matchesTokens tokens value = true ↔ Matches tokens value := by
  rw [matchesTokens, scan_iff Cursor.isWithin_start fun m known => by cases known]
  simp [Cursor.Reaches, MatchesFrom]

theorem isMatch_iff {pattern value : String} : isMatch pattern value = true ↔ Denotes pattern value := by
  unfold isMatch matchesChars Denotes
  cases tokens? pattern.toList with
  | none => simp
  | some tokens => simp [matchesTokens_iff]

end RetirementLedger.Like
