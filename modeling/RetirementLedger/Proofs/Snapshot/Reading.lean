import RetirementLedger.Proofs.Json.Reader
import RetirementLedger.Proofs.Text.Blank
import RetirementLedger.Proofs.Wire

namespace RetirementLedger

theorem Text.Utf8.ne_of_mem_utf8EncodeChar {c : Char} (printed : 0x20 ≤ c.toNat) {b : UInt8}
    (member : b ∈ String.utf8EncodeChar c) : b ≠ 0x0A := by
  have whole : 0x20 ≤ c.val.toNat := printed
  have ne {n : Nat} (bound : n < 256) (other : n ≠ 0x0A) : UInt8.ofNat n ≠ 0x0A := by
    intro same
    have octet : (UInt8.ofNat n).toNat = n := UInt8.toNat_ofNat_of_lt bound
    rw [same] at octet
    exact other octet.symm
  unfold String.utf8EncodeChar at member
  simp only at member
  split at member
  · rw [List.mem_singleton.mp member]
    exact ne (by omega) (by omega)
  split at member
  · simp only [List.mem_cons, List.not_mem_nil, or_false] at member
    rcases member with rfl | rfl <;> exact ne (by omega) (by omega)
  split at member
  · simp only [List.mem_cons, List.not_mem_nil, or_false] at member
    rcases member with rfl | rfl | rfl <;> exact ne (by omega) (by omega)
  · simp only [List.mem_cons, List.not_mem_nil, or_false] at member
    rcases member with rfl | rfl | rfl | rfl <;> exact ne (by omega) (by omega)

theorem Text.Utf8.not_mem_encode {s : String} (printed : ∀ c ∈ s.toList, 0x20 ≤ c.toNat) :
    0x0A ∉ encode s := by
  intro member
  rw [encode_eq] at member
  obtain ⟨c, here, octet⟩ := List.mem_flatMap.mp member
  exact ne_of_mem_utf8EncodeChar (printed c here) octet rfl

namespace Json

theorem printed_natDigits {n : Nat} {c : Char} (member : c ∈ Text.natDigits n) : 0x20 ≤ c.toNat := by
  have digit := Text.isDigit_of_mem_natDigits member
  simp only [Text.isDigit, Bool.and_eq_true, decide_eq_true_eq] at digit
  omega

theorem printed_intDigits {n : Int} {c : Char} (member : c ∈ Text.intDigits n) : 0x20 ≤ c.toNat := by
  cases n with
  | ofNat n => exact printed_natDigits member
  | negSucc n =>
      rcases List.mem_cons.mp member with rfl | digit
      · decide
      · exact printed_natDigits digit

theorem printed_hexDigit : ∀ n < 16, 0x20 ≤ (Text.hexDigit n).toNat := by decide

theorem printed_quoteChar {c d : Char} (member : d ∈ quoteChar c) : 0x20 ≤ d.toNat := by
  have two (e : Char) (mark : 0x20 ≤ e.toNat) (member : d ∈ ['\\', e]) : 0x20 ≤ d.toNat := by
    simp only [List.mem_cons, List.not_mem_nil, or_false] at member
    rcases member with rfl | rfl
    · decide
    · exact mark
  unfold quoteChar at member
  repeat' split at member
  all_goals first | exact two _ (by decide) member | skip
  · next control =>
      simp only [List.mem_cons, List.not_mem_nil, or_false] at member
      rcases member with rfl | rfl | rfl | rfl | rfl | rfl
      · decide
      · decide
      · decide
      · decide
      · exact printed_hexDigit _ (by omega)
      · exact printed_hexDigit _ (by omega)
  · next plain =>
      rw [List.mem_singleton.mp member]
      omega

theorem printed_quote {s : Option String} {c : Char} (member : c ∈ quote s) : 0x20 ≤ c.toNat := by
  cases s with
  | none =>
      have each : ['"', '\\', 'u', 'd', '8', '0', '0', '"'].all (0x20 ≤ ·.toNat) = true := rfl
      exact of_decide_eq_true (List.all_eq_true.mp each c member)
  | some s =>
      simp only [quote, List.mem_cons, List.mem_append, List.mem_flatMap, List.not_mem_nil,
        or_false] at member
      rcases member with rfl | ⟨d, -, here⟩ | rfl
      · decide
      · exact printed_quoteChar here
      · decide

theorem printed_write (t : Token) {c : Char} (member : c ∈ t.write) : 0x20 ≤ c.toNat := by
  have fixed (text : List Char) (each : text.all (0x20 ≤ ·.toNat) = true) (member : c ∈ text) :
      0x20 ≤ c.toNat := of_decide_eq_true (List.all_eq_true.mp each c member)
  cases t with
  | integer n => exact printed_intDigits member
  | real negative digits exponent =>
      rw [Token.write] at member
      rcases List.mem_append.mp member with front | back
      · rcases List.mem_append.mp front with sign | digit
        · cases negative with
          | true => exact fixed ['-'] rfl sign
          | false => cases sign
        · exact printed_natDigits digit
      · rcases List.mem_cons.mp back with rfl | digit
        · decide
        · exact printed_intDigits digit
  | string s => exact printed_quote member
  | bool b => cases b <;> exact fixed _ rfl member
  | _ => exact fixed _ rfl member

theorem printed_render (j : Json) {c : Char} (member : c ∈ j.render.toList) : 0x20 ≤ c.toNat := by
  rw [render, String.toList_ofList] at member
  obtain ⟨t, -, written⟩ := List.mem_flatMap.mp member
  exact printed_write t written

end Json

namespace Snapshot

theorem splitLines_append {line : List UInt8} (plain : 0x0A ∉ line) (rest : List UInt8) :
    splitLines (line ++ 0x0A :: rest) = line :: splitLines rest := by
  induction line with
  | nil => exact if_pos rfl
  | cons b line ih =>
      rw [List.mem_cons, not_or] at plain
      rw [List.cons_append, splitLines, if_neg (Ne.symm plain.1), ih plain.2]

-- What a line holds does not matter here, and to look into it would take long.
attribute [local irreducible] line? in
theorem lines_cons (r : Retirement) (rest : List Retirement) :
    lines (r :: rest) =
      match line? r with
      | none => ([], true)
      | some octets => (octets ++ (lines rest).1, (lines rest).2) := rfl

theorem exists_line? {r : Retirement} {octets : List UInt8} (written : line? r = some octets) :
    ∃ j, r.toJson? = some j ∧ octets = Text.Utf8.encode j.render ++ [0x0A] := by
  obtain ⟨j, form, same⟩ := Option.map_eq_some_iff.mp written
  exact ⟨j, form, same.symm⟩

theorem trim_render_object (members : List (Option String × Json)) :
    Text.trim (Json.object members).render = (Json.object members).render ∧
      (Json.object members).render.isEmpty = false := by
  have chars : (Json.object members).render.toList =
      '\x7b' :: ((Json.memberTokens members).flatMap Json.Token.write ++ ['\x7d']) := by
    rw [Json.render, String.toList_ofList, Json.tokens, List.flatMap_cons, List.flatMap_append]
    rfl
  have trimmed : Text.trimChars (Json.object members).render.toList =
      (Json.object members).render.toList := by
    refine Text.trimChars_eq (fun c first => ?_) (fun c last => ?_)
    · rw [chars] at first
      cases first
      rfl
    · rw [chars, ← List.cons_append, List.getLast?_append] at last
      cases last
      rfl
  constructor
  · rw [Text.trim, trimmed, String.ofList_toList]
  · cases empty : (Json.object members).render.isEmpty with
    | false => rfl
    | true =>
        rw [String.isEmpty_iff.mp empty] at chars
        cases chars

theorem readLine_render {r : Retirement} {j : Json} (written : r.toJson? = some j) (path : String)
    (number : Nat) : readLine path number (Text.Utf8.encode j.render) = .ok (some r) := by
  obtain ⟨stamp, form, same⟩ := Option.bind_eq_some_iff.mp written
  obtain ⟨trimmed, filled⟩ : Text.trim j.render = j.render ∧ j.render.isEmpty = false := by
    cases same
    exact trim_render_object _
  rw [readLine, Text.Utf8.toText?_encode]
  simp only [trimmed, filled, Json.parse?_render, Option.bind_some,
    Retirement.ofJson?_of_toJson? written]
  rfl

theorem readLinesFrom_lines {records : List Retirement} {content : List UInt8}
    (written : lines records = (content, false)) (path : String) (number : Nat) :
    readLinesFrom path number (splitLines content) = .ok records := by
  induction records generalizing content number with
  | nil =>
      cases written
      rfl
  | cons r records ih =>
      rw [lines_cons] at written
      cases line : line? r with
      | none =>
          rw [line] at written
          cases written
      | some octets =>
          rcases others : lines records with ⟨more, broken⟩
          rw [line, others] at written
          cases written
          obtain ⟨j, form, rfl⟩ := exists_line? line
          have plain : 0x0A ∉ Text.Utf8.encode j.render :=
            Text.Utf8.not_mem_encode fun _ member => Json.printed_render j member
          rw [List.append_assoc, List.singleton_append, splitLines_append plain, readLinesFrom,
            readLine_render form, ih others (number + 1)]
          rfl

theorem write_whole {content onDisk : List UInt8} {room : Option Nat}
    (written : write content room = (onDisk, true)) : onDisk = content := by
  cases room with
  | none =>
      cases written
      rfl
  | some n =>
      obtain ⟨kept, whole⟩ := Prod.mk.inj written
      rw [← kept]
      exact List.take_of_length_le (of_decide_eq_true whole)

theorem write_cut {content onDisk : List UInt8} {room : Option Nat}
    (written : write content room = (onDisk, false)) : ∃ lost, content = onDisk ++ lost ∧ lost ≠ [] := by
  cases room with
  | none => cases written
  | some n =>
      obtain ⟨rfl, short⟩ := Prod.mk.inj written
      refine ⟨content.drop n, (List.take_append_drop n content).symm, fun nothing => ?_⟩
      rw [List.drop_eq_nil_iff] at nothing
      exact of_decide_eq_false short nothing

theorem exportTo_cases (path : String) (records : List Retirement) (now : String)
    (room : WriteRoom) :
    (∃ f octets, ∀ dir,
      exportTo path records now room dir = (.error f, { dir with records := some octets })) ∨
    (∃ f octets m kept lost, manifestBytes m = kept ++ lost ∧ lost ≠ [] ∧
      ∀ dir, exportTo path records now room dir = (.error f, ⟨some octets, some kept⟩)) ∨
    ∃ content, lines records = (content, false) ∧ ∀ dir,
      exportTo path records now room dir =
        (.ok (manifestOf content records.length now),
          ⟨some content, some (manifestBytes (manifestOf content records.length now))⟩) := by
  rcases form : lines records with ⟨content, broken⟩
  rcases first : write content room.records with ⟨octets, whole⟩
  rcases second : write (manifestBytes (manifestOf content records.length now)) room.manifest with
    ⟨vouching, complete⟩
  simp only [exportTo, form, first, second]
  cases broken with
  | true => exact .inl ⟨_, octets, fun dir => rfl⟩
  | false =>
      cases whole with
      | false => exact .inl ⟨_, octets, fun dir => rfl⟩
      | true =>
          cases complete with
          | false =>
              obtain ⟨lost, split, cut⟩ := write_cut second
              exact .inr (.inl ⟨_, octets, _, vouching, lost, split, cut, fun dir => rfl⟩)
          | true =>
              rw [write_whole first, write_whole second]
              exact .inr (.inr ⟨content, rfl, fun dir => rfl⟩)

theorem exportTo_ok {path now : String} {records : List Retirement} {room : WriteRoom}
    {before dir : SnapshotDir} {manifest : Manifest}
    (exported : exportTo path records now room before = (.ok manifest, dir)) :
    ∃ content, lines records = (content, false) ∧
      manifest = manifestOf content records.length now ∧
      dir = ⟨some content, some (manifestBytes manifest)⟩ := by
  rcases exportTo_cases path records now room with ⟨f, octets, runs⟩ |
    ⟨f, octets, m, kept, lost, -, -, runs⟩ | ⟨content, written, runs⟩
  · rw [runs] at exported
    cases exported
  · rw [runs] at exported
    cases exported
  · rw [runs] at exported
    cases exported
    exact ⟨content, written, rfl, rfl⟩

theorem ofSymbols?_manifestBytes (m : Manifest) :
    Json.ofSymbols? (Text.Utf8.decode (manifestBytes m)) = some m.toJson := by
  rw [manifestBytes, Text.Utf8.decode_encode]
  exact Json.parse?_renderPretty m.toJson

theorem readManifest_manifestBytes {m : Manifest}
    (version : m.schemaVersion = Database.latestVersion)
    (bound : ∀ f ∈ m.files, f.records < Nat.pow 2 64) (path : String)
    (records : Option (List UInt8)) :
    readManifest path ⟨records, some (manifestBytes m)⟩ = .ok m := by
  have signed : Json.IsSigned64 m.schemaVersion := by
    rw [version]
    decide
  simp only [readManifest, ofSymbols?_manifestBytes, Option.bind_some,
    Manifest.ofJson?_toJson signed bound]

theorem readRecordsFile_manifestOf (path : String) (content : List UInt8) (records : Nat)
    (now : String) (manifest : Option (List UInt8)) :
    readRecordsFile path (manifestOf content records now) ⟨some content, manifest⟩ = .ok content := by
  have supported : 0 < Database.latestVersion := by decide
  simp [readRecordsFile, manifestOf, supported]

theorem read_of_lines {records : List Retirement} {content : List UInt8}
    (written : lines records = (content, false)) (countable : records.length < Nat.pow 2 64)
    (now path : String) :
    read path ⟨some content, some (manifestBytes (manifestOf content records.length now))⟩ =
      .ok records := by
  have vouched := readManifest_manifestBytes (m := manifestOf content records.length now) rfl
    (fun f member => by rwa [List.mem_singleton.mp member]) path (some content)
  rw [read, vouched]
  change (do
    let octets ← readRecordsFile path (manifestOf content records.length now) _
    readLinesFrom path 1 (splitLines octets)) = _
  rw [readRecordsFile_manifestOf]
  exact readLinesFrom_lines written path 1

theorem read_of_exportTo {path now : String} {records : List Retirement} {room : WriteRoom}
    {before dir : SnapshotDir} {manifest : Manifest}
    (exported : exportTo path records now room before = (.ok manifest, dir))
    (countable : records.length < Nat.pow 2 64) (at_ : String) : read at_ dir = .ok records := by
  obtain ⟨content, written, rfl, rfl⟩ := exportTo_ok exported
  exact read_of_lines written countable now at_

end Snapshot

end RetirementLedger
