import RetirementLedger.Proofs.Text.Utf8
import RetirementLedger.Text.Percent

namespace RetirementLedger.Text

theorem toNat_ofNat {n : Nat} (scalar : n.isValidChar) : (Char.ofNat n).toNat = n := by
  rw [Char.ofNat, dif_pos scalar]
  rfl

theorem Utf8.utf8EncodeChar_of_ascii {c : Char} (ascii : c.toNat < 128) :
    String.utf8EncodeChar c = [.ofNat c.toNat] :=
  if_pos (Nat.le_of_lt_succ ascii)

namespace Percent

def Spells (octets : List UInt8) (b : UInt8) : Prop :=
  ∀ rest, decode (octets ++ rest) = b :: decode rest

theorem decode_flatMap {spell : UInt8 → List UInt8} (spells : ∀ b, Spells (spell b) b)
    (octets : List UInt8) : decode (octets.flatMap spell) = octets := by
  induction octets with
  | nil => rfl
  | cons b rest ih => rw [List.flatMap_cons, spells, ih]

theorem spells_self {b : UInt8} (plain : b ≠ percentSign) : Spells [b] b := by
  intro rest
  rcases rest with _ | ⟨c, _ | ⟨d, rest⟩⟩
  · rfl
  · rfl
  · simp only [List.singleton_append, decode, plain, if_false]

theorem spells_escape {high low b : UInt8} (escape : escaped? high low = some b) :
    Spells [percentSign, high, low] b := by
  intro rest
  simp only [List.cons_append, List.nil_append, decode, if_true, escape]

theorem hexValue?_upperHexDigit : ∀ n < 16, hexValue? (upperHexDigit n) = some n := by decide

theorem upperHexDigit_ascii : ∀ n < 16, (upperHexDigit n).toNat < 128 := by decide

theorem hexOctet?_upperHexDigit {n : Nat} (digit : n < 16) :
    hexOctet? (.ofNat (upperHexDigit n).toNat) = some n := by
  have ascii := upperHexDigit_ascii n digit
  have octet : (UInt8.ofNat (upperHexDigit n).toNat).toNat = (upperHexDigit n).toNat :=
    UInt8.toNat_ofNat_of_lt (by change _ < 256; omega)
  rw [hexOctet?, octet, Char.ofNat_toNat, hexValue?_upperHexDigit n digit]

theorem unreserved_ascii {b : UInt8} (unreserved : isUnreserved b = true) :
    b.toNat < 128 ∧ b ≠ percentSign := by
  constructor
  · simp [isUnreserved] at unreserved
    omega
  · rintro rfl
    revert unreserved
    decide

theorem spells_encodeOctet (b : UInt8) :
    Spells ((encodeOctet b).flatMap String.utf8EncodeChar) b := by
  unfold encodeOctet
  split
  · next unreserved =>
      obtain ⟨ascii, plain⟩ := unreserved_ascii unreserved
      have char : (Char.ofNat b.toNat).toNat = b.toNat := toNat_ofNat (.inl (by omega))
      rw [List.flatMap_singleton, Utf8.utf8EncodeChar_of_ascii (by omega), char, UInt8.ofNat_toNat]
      exact spells_self plain
  · next reserved =>
      have bound : b.toNat < 256 := b.toNat_lt
      have high := upperHexDigit_ascii (b.toNat / 16) (by omega)
      have low := upperHexDigit_ascii (b.toNat % 16) (by omega)
      have mark : String.utf8EncodeChar '%' = [percentSign] := rfl
      simp only [List.flatMap_cons, List.flatMap_nil, Utf8.utf8EncodeChar_of_ascii high,
        Utf8.utf8EncodeChar_of_ascii low, mark, List.singleton_append, List.append_nil]
      refine spells_escape ?_
      have sum : b.toNat / 16 * 16 + b.toNat % 16 = b.toNat := by omega
      change (do
        let high ← hexOctet? _
        let low ← hexOctet? _
        return UInt8.ofNat (high * 16 + low)) = _
      rw [hexOctet?_upperHexDigit (by omega), hexOctet?_upperHexDigit (by omega)]
      change some (UInt8.ofNat (b.toNat / 16 * 16 + b.toNat % 16)) = _
      rw [sum, UInt8.ofNat_toNat]

theorem decode_encode (s : String) : decode (Utf8.encode (encode s)) = Utf8.encode s := by
  rw [encode, Utf8.encode_eq (String.ofList _), String.toList_ofList, List.flatMap_assoc]
  exact decode_flatMap spells_encodeOctet _

end Percent

end RetirementLedger.Text
