import GreenGateway.Foundation.JsonText

/-! RFC 8785 canonical JSON and the digest frame over it. Canonical bytes are held
as the text they encode. -/

namespace GreenGateway.Config

open Foundation

/-- What lies outside the repository: the digest, the JSON parser, and the reading
and spelling of doubles. -/
class Codecs where
  /-- `Sha256::digest`. -/
  sha256 : List UInt8 → List UInt8
  /-- `serde_json::from_slice` to a value. -/
  parseJson : String → Option Json
  /-- The ECMAScript spelling of the double nearest a number's text, when it is
  finite and its magnitude is within the safe range. -/
  doubleText : String → Option String

def maxSafeInteger : Nat := 2 ^ 53 - 1

inductive CanonicalJsonError where
  | unsupportedNumber
  deriving DecidableEq, Repr

section Numbers

def decimal? (digits : List Char) : Option Nat :=
  if digits.isEmpty || !digits.all Char.isDigit then none else some (Nat.ofDigitChars 10 digits 0)

/-- `Number::as_u64`, on the number's text. -/
def asU64 (text : String) : Option Nat :=
  (decimal? text.toList).filter fun value => decide (value < 2 ^ 64)

/-- `Number::as_i64` of a text `as_u64` refuses. -/
def asI64 (text : String) : Option Int :=
  match text.toList with
  | '-' :: digits =>
    (decimal? digits).bind fun value => if value ≤ 2 ^ 63 then some (-value) else none
  | _ => none

def writeNumber [Codecs] (text : String) : Except CanonicalJsonError (List Char) :=
  match asU64 text with
  | some value =>
    if value > maxSafeInteger then .error .unsupportedNumber else .ok (toString value).toList
  | none =>
    match asI64 text with
    | some value =>
      if value.natAbs > maxSafeInteger then .error .unsupportedNumber
      else .ok (toString value).toList
    | none =>
      match Codecs.doubleText text with
      | some spelled => .ok spelled.toList
      | none => .error .unsupportedNumber

end Numbers

section Values

/-- `str::encode_utf16`. -/
def encodeUtf16 (text : String) : List Nat :=
  text.toList.flatMap fun char =>
    let code := char.toNat
    if code < 0x10000 then [code]
    else [0xd800 + (code - 0x10000) / 0x400, 0xdc00 + (code - 0x10000) % 0x400]

/-- The order of member names: their UTF-16 code units. -/
def NameOrder {α : Type} (left right : String × α) : Prop :=
  encodeUtf16 left.1 ≤ encodeUtf16 right.1

instance {α : Type} : DecidableRel (NameOrder (α := α)) := fun left right =>
  inferInstanceAs (Decidable (encodeUtf16 left.1 ≤ encodeUtf16 right.1))

variable [Codecs]

mutual

def writeValue : Json → Except CanonicalJsonError (List Char)
  | .null => .ok ['n', 'u', 'l', 'l']
  | .bool true => .ok ['t', 'r', 'u', 'e']
  | .bool false => .ok ['f', 'a', 'l', 's', 'e']
  | .number text => writeNumber text
  | .string text => .ok (Json.quoted text)
  | .array items => do
    let parts ← writeItems items
    .ok ('[' :: (Json.separated parts ++ [']']))
  | .object members => do
    let parts ← writeMembers members
    let ordered := parts.insertionSort NameOrder
    .ok ('\x7b' :: (Json.separated (ordered.map fun (name, text) => Json.member name text) ++
      ['\x7d']))

def writeItems : List Json → Except CanonicalJsonError (List (List Char))
  | [] => .ok []
  | item :: rest => do
    let part ← writeValue item
    let parts ← writeItems rest
    .ok (part :: parts)

/-- The text of every member's value, under its name. -/
def writeMembers : List (String × Json) → Except CanonicalJsonError (List (String × List Char))
  | [] => .ok []
  | (name, value) :: rest => do
    let part ← writeValue value
    let parts ← writeMembers rest
    .ok ((name, part) :: parts)

end

/-- The canonical byte sequence of a value, as text. -/
def canonicalJson (value : Json) : Except CanonicalJsonError String := do
  let text ← writeValue value
  .ok (String.ofList text)

end Values

section Settled

theorem decimal?_toString (value : Nat) : decimal? (toString value).toList = some value := by
  have digits : (toString value).toList = Nat.toDigits 10 value := Nat.toList_repr
  have all : (Nat.toDigits 10 value).all Char.isDigit = true :=
    List.all_eq_true.mpr fun _ member => Nat.isDigit_of_mem_toDigits (by omega) (by omega) member
  rw [digits]
  simp [decimal?, all, Nat.toDigits_ne_nil, Nat.ofDigitChars_ten_toDigits]

theorem asU64_toString {value : Nat} (bound : value < 2 ^ 64) :
    asU64 (toString value) = some value := by
  rw [asU64, decimal?_toString]
  simp only [Option.filter, decide_eq_true_eq, if_pos bound]

mutual

/-- A value already in canonical form: safe integers in decimal, and members in the
order of their names. -/
def Settled : Json → Prop
  | .null | .bool _ | .string _ => True
  | .number text => ∃ value ≤ maxSafeInteger, text = toString value
  | .array items => SettledItems items
  | .object members =>
    (members.map fun member => (member.1, ())).Pairwise NameOrder ∧ SettledMembers members

def SettledItems : List Json → Prop
  | [] => True
  | item :: rest => Settled item ∧ SettledItems rest

def SettledMembers : List (String × Json) → Prop
  | [] => True
  | (_, value) :: rest => Settled value ∧ SettledMembers rest

end

theorem plain_toString (value : Nat) : (Json.number (toString value)).Plain := by
  have digits : (toString value).toList = Nat.toDigits 10 value := Nat.toList_repr
  refine ⟨?_, fun char member => ?_⟩
  · rw [digits]
    exact Nat.toDigits_ne_nil
  · rw [digits] at member
    exact Nat.isDigit_of_mem_toDigits (by omega) (by omega) member

mutual

theorem Settled.plain : ∀ value, Settled value → value.Plain
  | .null, _ | .bool _, _ | .string _, _ => trivial
  | .number _, ⟨value, _, spelled⟩ => spelled ▸ plain_toString value
  | .array items, settled => SettledItems.plain items settled
  | .object members, settled => SettledMembers.plain members settled.2

theorem SettledItems.plain : ∀ items, SettledItems items → Json.PlainItems items
  | [], _ => trivial
  | item :: rest, settled => ⟨Settled.plain item settled.1, SettledItems.plain rest settled.2⟩

theorem SettledMembers.plain : ∀ members, SettledMembers members → Json.PlainMembers members
  | [], _ => trivial
  | (_, value) :: rest, settled =>
    ⟨Settled.plain value settled.1, SettledMembers.plain rest settled.2⟩

end

variable [Codecs]

theorem writeNumber_safe {value : Nat} (safe : value ≤ maxSafeInteger) :
    writeNumber (toString value) = .ok (toString value).toList := by
  have bound : value < 2 ^ 64 := by
    unfold maxSafeInteger at safe
    omega
  rw [writeNumber, asU64_toString bound]
  simp [Nat.not_lt.mpr safe]

mutual

/-- A settled value is its own canonical form. -/
theorem writeValue_settled : ∀ value, Settled value → writeValue value = .ok value.text
  | .null, _ => rfl
  | .bool true, _ => rfl
  | .bool false, _ => rfl
  | .string _, _ => rfl
  | .number _, ⟨value, safe, spelled⟩ => by
    subst spelled
    exact writeNumber_safe safe
  | .array items, settled => by
    simp only [writeValue, writeItems_settled items settled]
    rfl
  | .object members, settled => by
    simp only [writeValue, writeMembers_settled members settled.2]
    change Except.ok _ = _
    have ordered : (members.map fun member => (member.1, member.2.text)).Pairwise NameOrder := by
      have names := settled.1
      rw [List.pairwise_map] at names ⊢
      exact names
    rw [ordered.insertionSort_eq]
    simp only [Json.text, List.map_map, Function.comp_def, Json.memberTexts_eq]

theorem writeItems_settled :
    ∀ items, SettledItems items → writeItems items = .ok (Json.itemTexts items)
  | [], _ => rfl
  | item :: rest, settled => by
    simp only [writeItems, writeValue_settled item settled.1, writeItems_settled rest settled.2]
    rfl

theorem writeMembers_settled : ∀ members, SettledMembers members →
    writeMembers members = .ok (members.map fun member => (member.1, member.2.text))
  | [], _ => rfl
  | (name, value) :: rest, settled => by
    simp only [writeMembers, writeValue_settled value settled.1,
      writeMembers_settled rest settled.2]
    rfl

end

theorem canonicalJson_settled {value : Json} (settled : Settled value) :
    canonicalJson value = .ok (String.ofList value.text) := by
  simp only [canonicalJson, writeValue_settled value settled]
  rfl

end Settled

section Digests

/-- `str::as_bytes`. -/
def utf8 (text : String) : List UInt8 := text.toList.flatMap String.utf8EncodeChar

/-- `u64::to_be_bytes`. -/
def u64be (value : Nat) : List UInt8 :=
  (List.range 8).map fun index => UInt8.ofNat (value / 256 ^ (7 - index))

/-- `hex::encode`. -/
def hexEncode (bytes : List UInt8) : String :=
  String.ofList <| bytes.flatMap fun byte =>
    [Json.hexDigit (byte.toNat / 16), Json.hexDigit (byte.toNat % 16)]

/-- The bytes a digest is taken of: a tag, then each part after its length. -/
def framed (kind mediaType schemaVersion : String) (payload : List UInt8) : List UInt8 :=
  let parts := [utf8 kind, utf8 mediaType, utf8 schemaVersion, payload]
  utf8 "GGDIGEST" ++ 0 :: parts.flatMap fun part => u64be part.length ++ part

variable [Codecs]

/-- A file's pin: the digest of its exact bytes. -/
def sha256Pin (bytes : List UInt8) : String := hexEncode (Codecs.sha256 bytes)

def framedDigest (kind mediaType schemaVersion : String) (payload : List UInt8) : String :=
  "sha256:" ++ hexEncode (Codecs.sha256 (framed kind mediaType schemaVersion payload))

/-- `sha256:<hex>` over the frame of a value's canonical bytes. -/
def semanticDigest (mediaType schemaVersion : String) (value : Json) :
    Except CanonicalJsonError String := do
  let payload ← canonicalJson value
  .ok (framedDigest "semantic" mediaType schemaVersion (utf8 payload))

/-- `sha256:<hex>` over the frame of exact source bytes. -/
def sourceDigest (mediaType schemaVersion : String) (payload : List UInt8) : String :=
  framedDigest "source" mediaType schemaVersion payload

end Digests

end GreenGateway.Config
