import RetirementLedger.Text.Utf8

namespace RetirementLedger.Text.Utf8

theorem toList_loop_eq (bytes : ByteArray) (i : Nat) (done : List UInt8) :
    ByteArray.toList.loop bytes i done = done.reverse ++ bytes.data.toList.drop i := by
  fun_induction ByteArray.toList.loop bytes i done with
  | case1 i done bound ih =>
      have inside : i < bytes.data.toList.length := bound
      have octet : bytes.get! i = bytes.data.toList[i] :=
        getElem!_pos bytes.data i bound
      rw [ih, octet, List.reverse_cons, List.append_assoc, List.singleton_append,
        ← List.drop_eq_getElem_cons inside]
  | case2 i done bound =>
      have outside : bytes.data.toList.length ≤ i := Nat.le_of_not_lt bound
      rw [List.drop_eq_nil_of_le outside, List.append_nil]

theorem toByteArray_eq (s : String) :
    s.toByteArray = (s.toList.flatMap String.utf8EncodeChar).toByteArray := by
  conv => lhs; rw [← String.ofList_toList (s := s), String.toByteArray_ofList]
  rfl

theorem encode_eq (s : String) : encode s = s.toList.flatMap String.utf8EncodeChar := by
  rw [encode, String.toUTF8_eq_toByteArray, toByteArray_eq, ByteArray.toList, toList_loop_eq]
  simp

theorem lead_two : ∀ k < 32, 2 ≤ k → lead (k + 192) = .opens ⟨1, 0x80, 0xBF, k⟩ := by decide

theorem lead_three : ∀ k < 16, lead (k + 224) =
    .opens ⟨2, if k = 0 then 0xA0 else 0x80, if k = 13 then 0x9F else 0xBF, k⟩ := by decide

theorem lead_four : ∀ k < 5, lead (k + 240) =
    .opens ⟨3, if k = 0 then 0x90 else 0x80, if k = 4 then 0x8F else 0xBF, k⟩ := by decide

theorem decodeFrom_opens {n : Nat} {p : Partial} (octet : n < 256) (opens : lead n = .opens p)
    (rest : List UInt8) : decodeFrom none (.ofNat n :: rest) = decodeFrom (some p) rest := by
  have same : (UInt8.ofNat n).toNat = n := UInt8.toNat_ofNat_of_lt octet
  simp only [decodeFrom, same, opens]

theorem decodeFrom_six {owed low high bits six : Nat} (bound : six < 64)
    (within : low ≤ six + 128 ∧ six + 128 ≤ high) (rest : List UInt8) :
    decodeFrom (some ⟨owed + 1, low, high, bits⟩) (.ofNat (six + 128) :: rest) =
      if owed = 0 then some (Char.ofNat (bits * 64 + six)) :: decodeFrom none rest
      else decodeFrom (some ⟨owed, 0x80, 0xBF, bits * 64 + six⟩) rest := by
  have octet : (UInt8.ofNat (six + 128)).toNat = six + 128 :=
    UInt8.toNat_ofNat_of_lt (by change _ < 256; omega)
  simp only [decodeFrom, octet, within, and_self, if_true, Nat.add_sub_cancel, Nat.add_eq_right]

theorem decodeFrom_utf8EncodeChar (c : Char) (rest : List UInt8) :
    decodeFrom none (String.utf8EncodeChar c ++ rest) = some c :: decodeFrom none rest := by
  obtain ⟨v, same⟩ : ∃ v, v = c.val.toNat := ⟨_, rfl⟩
  have char : c = Char.ofNat v := by rw [same]; exact (Char.ofNat_toNat c).symm
  have scalar : v < 0xD800 ∨ 0xDFFF < v ∧ v < 0x110000 := same ▸ c.valid
  rw [String.utf8EncodeChar, ← same, char]
  -- A case for each number of octets: the first opens the character, each other one brings six bits.
  split
  · next one =>
      have whole : lead v = .whole (some (Char.ofNat v)) := if_pos (by omega)
      have octet : (UInt8.ofNat v).toNat = v := UInt8.toNat_ofNat_of_lt (by change _ < 256; omega)
      simp only [List.singleton_append, decodeFrom, octet, whole]
  split
  · next two =>
      have sum : v / 64 % 32 * 64 + v % 64 = v := by omega
      simp only [List.cons_append, List.nil_append]
      rw [decodeFrom_opens (by omega) (lead_two _ (by omega) (by omega)),
        decodeFrom_six (by omega) (by omega), if_pos rfl, sum]
  split
  · next three =>
      have sum : (v / 4096 % 16 * 64 + v / 64 % 64) * 64 + v % 64 = v := by omega
      simp only [List.cons_append, List.nil_append]
      rw [decodeFrom_opens (by omega) (lead_three _ (by omega)),
        decodeFrom_six (by omega) (by split <;> split <;> omega), if_neg (by decide),
        decodeFrom_six (by omega) (by omega), if_pos rfl, sum]
  · next four =>
      have sum : ((v / 262144 % 8 * 64 + v / 4096 % 64) * 64 + v / 64 % 64) * 64 + v % 64 = v := by
        omega
      simp only [List.cons_append, List.nil_append]
      rw [decodeFrom_opens (by omega) (lead_four _ (by omega)),
        decodeFrom_six (by omega) (by split <;> split <;> omega), if_neg (by decide),
        decodeFrom_six (by omega) (by omega), if_neg (by decide),
        decodeFrom_six (by omega) (by omega), if_pos rfl, sum]

theorem decode_encode (s : String) : decode (encode s) = s.toList.map some := by
  rw [encode_eq]
  unfold decode
  induction s.toList with
  | nil => rfl
  | cons c cs ih => rw [List.flatMap_cons, decodeFrom_utf8EncodeChar, ih, List.map_cons]

@[simp] theorem toText?_encode (s : String) : toText? (encode s) = some s := by
  have read (cs : List Char) : (cs.map some).mapM id = some cs := by
    induction cs with
    | nil => rfl
    | cons c cs ih => simp [ih]
  rw [toText?, decode_encode, read, Option.map_some, String.ofList_toList]

theorem exists_decodeFrom_cons (p : Option Partial) (b : UInt8) :
    ∃ out q, ∀ rest, decodeFrom p (b :: rest) = out ++ decodeFrom q rest := by
  cases p with
  | none =>
      cases first : lead b.toNat with
      | whole symbol => exact ⟨[symbol], none, fun rest => by simp [decodeFrom, first]⟩
      | opens q => exact ⟨[], some q, fun rest => by simp [decodeFrom, first]⟩
  | some p =>
      by_cases within : p.low ≤ b.toNat ∧ b.toNat ≤ p.high
      · by_cases last : p.owed = 1
        · exact ⟨[_], none, fun rest => by rw [decodeFrom, if_pos within, if_pos last]; rfl⟩
        · exact ⟨[], some _, fun rest => by rw [decodeFrom, if_pos within, if_neg last]; rfl⟩
      · cases first : lead b.toNat with
        | whole symbol =>
            exact ⟨[none, symbol], none, fun rest => by simp [decodeFrom, within, first]⟩
        | opens q => exact ⟨[none], some q, fun rest => by simp [decodeFrom, within, first]⟩

theorem exists_decodeFrom_append (p : Option Partial) (before : List UInt8) :
    ∃ out q, ∀ after, decodeFrom p (before ++ after) = out ++ decodeFrom q after := by
  induction before generalizing p with
  | nil => exact ⟨[], p, fun after => rfl⟩
  | cons b before ih =>
      obtain ⟨first, next, step⟩ := exists_decodeFrom_cons p b
      obtain ⟨out, q, runs⟩ := ih next
      exact ⟨first ++ out, q, fun after => by rw [List.cons_append, step, runs, List.append_assoc]⟩

theorem decodeFrom_some_ne_nil (p : Partial) (bytes : List UInt8) : decodeFrom (some p) bytes ≠ [] := by
  induction bytes generalizing p with
  | nil => exact List.cons_ne_nil _ _
  | cons b bytes ih =>
      rw [decodeFrom]
      split
      · dsimp only
        split
        · exact List.cons_ne_nil _ _
        · exact ih _
      · split <;> exact List.cons_ne_nil _ _

theorem decodeFrom_ne_nil (p : Option Partial) {bytes : List UInt8} (filled : bytes ≠ []) :
    decodeFrom p bytes ≠ [] := by
  cases p with
  | some p => exact decodeFrom_some_ne_nil p bytes
  | none =>
      obtain ⟨b, rest, rfl⟩ := List.exists_cons_of_ne_nil filled
      rw [decodeFrom]
      split
      · exact List.cons_ne_nil _ _
      · exact decodeFrom_some_ne_nil _ rest

/-- Octets that were cut short give fewer symbols, and maybe one for the character that was cut. -/
theorem exists_decode_cut (before : List UInt8) {after : List UInt8} (cut : after ≠ []) :
    ∃ kept lost, decode (before ++ after) = kept ++ lost ∧ lost ≠ [] ∧
      (decode before = kept ∨ decode before = kept ++ [none]) := by
  obtain ⟨out, q, runs⟩ := exists_decodeFrom_append none before
  refine ⟨out, decodeFrom q after, runs after, decodeFrom_ne_nil q cut, ?_⟩
  have ended := runs []
  rw [List.append_nil] at ended
  cases q with
  | none => exact .inl (ended.trans (List.append_nil out))
  | some q => exact .inr ended

theorem length_encode (s : String) : (encode s).length = s.utf8ByteSize := by
  rw [encode_eq, String.utf8ByteSize, toByteArray_eq, List.size_toByteArray]

theorem length_le_length_flatMap {α β : Type} {f : α → List β} (filled : ∀ a, f a ≠ []) (l : List α) :
    l.length ≤ (l.flatMap f).length := by
  induction l with
  | nil => exact Nat.le_refl 0
  | cons a l ih =>
      have first : 0 < (f a).length := List.length_pos_iff.mpr (filled a)
      rw [List.flatMap_cons, List.length_append, List.length_cons]
      omega

theorem length_le_length_encode (s : String) : s.length ≤ (encode s).length := by
  rw [encode_eq, ← String.length_toList]
  exact length_le_length_flatMap (fun c => String.utf8EncodeChar_ne_nil) _

end RetirementLedger.Text.Utf8
