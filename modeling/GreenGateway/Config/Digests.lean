import GreenGateway.Foundation.Ascii
import GreenGateway.Config.CanonicalJson

/-! What the spellings of digests and frames determine: hexadecimal text its bytes, a
length prefix its number, and a frame each of its parts. -/

namespace GreenGateway.Config

open Foundation List

section Hex

/-- The bytes lowercase hexadecimal digits spell. -/
def hexDecode : List Char → Option (List UInt8)
  | high :: low :: rest => do
    let high ← Json.hexValue high
    let low ← Json.hexValue low
    let rest ← hexDecode rest
    some (UInt8.ofNat (16 * high + low) :: rest)
  | [_] => none
  | [] => some []

theorem hexDecode_hexEncode (bytes : List UInt8) :
    hexDecode (hexEncode bytes).toList = some bytes := by
  rw [hexEncode, String.toList_ofList]
  induction bytes with
  | nil => rfl
  | cons byte rest ih =>
    have bound : byte.toNat < 256 := byte.toNat_lt
    have high := Json.hexValue_hexDigit (byte.toNat / 16) (by omega)
    have low := Json.hexValue_hexDigit (byte.toNat % 16) (by omega)
    have whole : 16 * (byte.toNat / 16) + byte.toNat % 16 = byte.toNat := by omega
    simp only [flatMap_cons, cons_append, nil_append, hexDecode, high, low,
      ih, Option.bind_eq_bind, Option.bind_some, whole, UInt8.ofNat_toNat]

theorem hexEncode_inj {left right : List UInt8} (same : hexEncode left = hexEncode right) :
    left = right := by
  have read := hexDecode_hexEncode left
  rw [same, hexDecode_hexEncode] at read
  exact (Option.some.inj read).symm

theorem hexEncode_length (bytes : List UInt8) :
    (hexEncode bytes).toList.length = 2 * bytes.length := by
  simp [hexEncode, length_flatMap, Nat.mul_comm]

theorem hexDigit_lower : ∀ value < 16, (Json.hexDigit value).utf8Size = 1 ∧
    ((Json.hexDigit value).isDigit || decide ('a' ≤ Json.hexDigit value ∧
      Json.hexDigit value ≤ 'f')) = true := by
  decide

/-- Every character of hexadecimal text is a lowercase digit. -/
theorem hexEncode_mem {bytes : List UInt8} {char : Char}
    (member : char ∈ (hexEncode bytes).toList) : ∃ value < 16, char = Json.hexDigit value := by
  rw [hexEncode, String.toList_ofList, mem_flatMap] at member
  obtain ⟨byte, -, listed⟩ := member
  have bound : byte.toNat < 256 := byte.toNat_lt
  rcases List.mem_pair.mp listed with high | low
  · exact ⟨byte.toNat / 16, by omega, high⟩
  · exact ⟨byte.toNat % 16, by omega, low⟩

end Hex

section Frames

theorem u64be_length (value : Nat) : (u64be value).length = 8 := by
  simp [u64be]

theorem u64be_inj {left right : Nat} (small : left < 2 ^ 64) (small' : right < 2 ^ 64)
    (same : u64be left = u64be right) : left = right := by
  have byte : ∀ index < 8, left / 256 ^ (7 - index) % 256 = right / 256 ^ (7 - index) % 256 := by
    intro index bound
    have listed := congrArg (fun bytes => bytes[index]?.map UInt8.toNat) same
    simpa [u64be, bound] using listed
  -- the leading bytes agree, one more at each step
  have leading : ∀ count ≤ 8, left / 256 ^ (8 - count) = right / 256 ^ (8 - count) := by
    intro count
    induction count with
    | zero =>
      intro _
      have bound : 256 ^ 8 = 2 ^ 64 := by decide
      rw [Nat.div_eq_of_lt (by simpa [bound] using small),
        Nat.div_eq_of_lt (by simpa [bound] using small')]
    | succ count ih =>
      intro bound
      have before := ih (by omega)
      have digit := byte count (by omega)
      obtain ⟨rest, split⟩ : ∃ rest, 8 - count = rest + 1 := ⟨7 - count, by omega⟩
      have position : 7 - count = rest := by omega
      have next : 8 - (count + 1) = rest := by omega
      rw [split, Nat.pow_succ, ← Nat.div_div_eq_div_mul, ← Nat.div_div_eq_div_mul] at before
      rw [position] at digit
      rw [next]
      omega
  simpa using leading 8 (by decide)

theorem utf8_toByteArray (text : String) : (utf8 text).toByteArray = text.toByteArray := by
  conv_rhs => rw [← String.ofList_toList (s := text)]
  rw [String.toByteArray_ofList]
  rfl

theorem utf8_inj {left right : String} (same : utf8 left = utf8 right) : left = right := by
  rw [← String.toByteArray_inj, ← utf8_toByteArray, ← utf8_toByteArray, same]

theorem utf8_length (text : String) : (utf8 text).length = text.utf8ByteSize := by
  rw [← size_toByteArray, utf8_toByteArray, String.size_toByteArray]

/-- A part after its length is told apart from whatever follows it. -/
theorem part_inj {left right rest rest' : List UInt8} (small : left.length < 2 ^ 64)
    (small' : right.length < 2 ^ 64)
    (same : u64be left.length ++ left ++ rest = u64be right.length ++ right ++ rest') :
    left = right ∧ rest = rest' := by
  rw [append_assoc, append_assoc] at same
  obtain ⟨length, tail⟩ := append_inj same (by rw [u64be_length, u64be_length])
  exact append_inj tail (u64be_inj small small' length)

/-- A frame determines each of its parts. -/
theorem framed_inj {kind mediaType schemaVersion kind' mediaType' schemaVersion' : String}
    {payload payload' : List UInt8} (sized : (utf8 kind).length < 2 ^ 64)
    (sized' : (utf8 kind').length < 2 ^ 64) (media : (utf8 mediaType).length < 2 ^ 64)
    (media' : (utf8 mediaType').length < 2 ^ 64) (version : (utf8 schemaVersion).length < 2 ^ 64)
    (version' : (utf8 schemaVersion').length < 2 ^ 64) (payloads : payload.length < 2 ^ 64)
    (payloads' : payload'.length < 2 ^ 64)
    (same : framed kind mediaType schemaVersion payload =
      framed kind' mediaType' schemaVersion' payload') :
    kind = kind' ∧ mediaType = mediaType' ∧ schemaVersion = schemaVersion' ∧
      payload = payload' := by
  simp only [framed, flatMap_cons, flatMap_nil, append_cancel_left_eq,
    List.cons.injEq, true_and] at same
  obtain ⟨kinds, same⟩ := part_inj sized sized' same
  obtain ⟨medias, same⟩ := part_inj media media' same
  obtain ⟨versions, same⟩ := part_inj version version' same
  obtain ⟨contents, -⟩ := part_inj payloads payloads' same
  exact ⟨utf8_inj kinds, utf8_inj medias, utf8_inj versions, contents⟩

end Frames

section Sizes

theorem hexEncode_len (bytes : List UInt8) : Text.len (hexEncode bytes) = 2 * bytes.length := by
  rw [len_of_ascii, hexEncode_length]
  intro char member
  obtain ⟨value, bound, rfl⟩ := hexEncode_mem member
  exact (hexDigit_lower value bound).1

variable [Codecs]

/-- A digest has the size of a SHA-256 digest, whatever it is taken of. -/
def DigestsSized : Prop := ∀ bytes, (Codecs.sha256 bytes).length = 32

end Sizes

end GreenGateway.Config
