import Mathlib.Data.List.Forall2
import GreenGateway.Archive.Portable
import GreenGateway.Kernel.Context

/-! The query facts of a request: every parameter decoded strictly, and those a condition reads
kept. -/

namespace GreenGateway.Middleware

open Foundation Config Kernel List Archive

section Model

inductive FactsRefusal where
  | queryUndecodable
  | tooLarge
  deriving DecidableEq, Repr

def hexDigit (byte : UInt8) : Option UInt8 :=
  if 48 ≤ byte ∧ byte ≤ 57 then some (byte - 48)
  else if 97 ≤ byte ∧ byte ≤ 102 then some (byte - 97 + 10)
  else if 65 ≤ byte ∧ byte ≤ 70 then some (byte - 65 + 10)
  else none

/-- The loop of `decode_component` over the bytes that are left. -/
def decodeFrom (decoded : List UInt8) : List UInt8 → Option (List UInt8)
  | [] => some decoded
  | byte :: rest =>
    if byte = 43 then decodeFrom (decoded ++ [32]) rest
    else if byte = 37 then
      match rest with
      | high :: low :: rest =>
        match hexDigit high, hexDigit low with
        | some high, some low => decodeFrom (decoded ++ [high <<< 4 ||| low]) rest
        | _, _ => none
      | _ => none
    else decodeFrom (decoded ++ [byte]) rest

def decodeComponent (raw : String) : Except FactsRefusal String :=
  if !(utf8 raw).any fun byte => byte == 37 || byte == 43 then do
    refuse (raw.toList.any Text.isControl) .queryUndecodable
    .ok raw
  else do
    let decoded ← okOr (decodeFrom [] (utf8 raw)) .queryUndecodable
    let text ← okOr (fromUtf8? decoded) .queryUndecodable
    refuse (text.toList.any Text.isControl) .queryUndecodable
    .ok text

/-- The name and the value of a parameter, cut at the first `=`. -/
def splitPair (piece : String) : String × String :=
  (Text.splitOnce '=' piece).getD (piece, "")

def decodePair (piece : String) : Except FactsRefusal (String × String) := do
  let name ← decodeComponent (splitPair piece).1
  let value ← decodeComponent (splitPair piece).2
  .ok (name, value)

/-- The pieces that carry a parameter. -/
def pieces (query : String) : List String :=
  (Text.split '&' query).filter fun piece => !piece.isEmpty

end Model

section Meaning

/-- A hexadecimal digit, of either case. -/
def HexDigit (byte value : UInt8) : Prop :=
  value < 10 ∧ byte = 48 + value ∨
    10 ≤ value ∧ value < 16 ∧ (byte = 87 + value ∨ byte = 55 + value)

/-- Form-encoded bytes whose escapes are all well formed, and the bytes they spell. -/
inductive Spells : List UInt8 → List UInt8 → Prop where
  | nil : Spells [] []
  | plain {byte : UInt8} {raw decoded : List UInt8} (literal : byte ≠ 43 ∧ byte ≠ 37)
      (rest : Spells raw decoded) : Spells (byte :: raw) (byte :: decoded)
  | plus {raw decoded : List UInt8} (rest : Spells raw decoded) : Spells (43 :: raw) (32 :: decoded)
  | escape {high low left right : UInt8} {raw decoded : List UInt8}
      (first : HexDigit high left) (second : HexDigit low right) (rest : Spells raw decoded) :
      Spells (37 :: high :: low :: raw) ((left * 16 + right) :: decoded)

/-- The component spells the text, which has no control character. -/
def Decodes (raw text : String) : Prop :=
  Spells (utf8 raw) (utf8 text) ∧ ∀ char ∈ text.toList, Text.isControl char = false

def DecodesPair (piece : String) (pair : String × String) : Prop :=
  Decodes (splitPair piece).1 pair.1 ∧ Decodes (splitPair piece).2 pair.2

/-- The pairs of the whole query, in order. -/
def FormDecodes (query : String) : List (String × String) → Prop :=
  Forall₂ DecodesPair (pieces query)

/-- The pairs under the names that are read. -/
def referenced (names : List String) (pairs : List (String × String)) : List (String × String) :=
  pairs.filter fun pair => decide (pair.1 ∈ names)

/-- The pair is within the evaluator's bounds. -/
def Fits (pair : String × String) : Prop :=
  Text.len pair.1 ≤ maxFactNameBytes ∧ Text.len pair.2 ≤ maxFactValueBytes

end Meaning

section Components

variable {raw decoded out : List UInt8} {byte value : UInt8}

theorem hexDigit_eq_some : hexDigit byte = some value ↔ HexDigit byte value := by
  simp only [hexDigit, HexDigit, UInt8.le_iff_toNat_le, UInt8.lt_iff_toNat_lt]
  split_ifs <;> simp [← UInt8.toNat_inj, UInt8.toNat_sub, UInt8.toNat_add] at * <;> omega

/-- The two halves of an escaped byte. -/
theorem HexDigit.byte_eq {other digit : UInt8} (first : HexDigit byte value)
    (second : HexDigit other digit) : value <<< 4 ||| digit = value * 16 + digit := by
  have halves : ∀ high < 16, ∀ low < 16, UInt8.ofNat high <<< 4 ||| UInt8.ofNat low =
      UInt8.ofNat high * 16 + UInt8.ofNat low := by decide
  simp only [HexDigit, UInt8.lt_iff_toNat_lt, UInt8.reduceToNat] at first second
  simpa using halves value.toNat (by omega) digit.toNat (by omega)

theorem spells_of_decodeFrom (read : decodeFrom decoded raw = some out) :
    ∃ more, Spells raw more ∧ out = decoded ++ more := by
  fun_induction decodeFrom decoded raw with
  | case1 decoded =>
    cases read
    exact ⟨[], .nil, (append_nil _).symm⟩
  | case2 decoded rest ih =>
    obtain ⟨more, spelled, rfl⟩ := ih read
    exact ⟨_, .plus spelled, by simp⟩
  | case3 decoded high low rest left right second first _ ih =>
    obtain ⟨more, spelled, rfl⟩ := ih read
    rw [hexDigit_eq_some] at first second
    exact ⟨_, .escape first second spelled, by simp [first.byte_eq second]⟩
  | case4 => cases read
  | case5 => cases read
  | case6 decoded byte rest unlike other ih =>
    obtain ⟨more, spelled, rfl⟩ := ih read
    exact ⟨_, .plain ⟨unlike, other⟩ spelled, by simp⟩

theorem Spells.decodeFrom_eq (spelled : Spells raw out) (decoded : List UInt8) :
    decodeFrom decoded raw = some (decoded ++ out) := by
  induction spelled generalizing decoded with
  | nil => rw [decodeFrom, append_nil]
  | plain literal _ ih =>
    rw [decodeFrom.eq_def]
    simp [literal, ih]
  | plus _ ih =>
    rw [decodeFrom.eq_def]
    simp [ih]
  | escape first second _ ih =>
    rw [decodeFrom.eq_def]
    simp [hexDigit_eq_some.mpr first, hexDigit_eq_some.mpr second, ih, first.byte_eq second]

/-- Bytes that are none of them encoded spell themselves. -/
theorem spells_self (literal : ∀ byte ∈ raw, byte ≠ 43 ∧ byte ≠ 37) : Spells raw raw := by
  induction raw with
  | nil => exact .nil
  | cons byte raw ih =>
    rw [forall_mem_cons] at literal
    exact .plain literal.1 (ih literal.2)

theorem decodeComponent_eq_ok {raw text : String} :
    decodeComponent raw = .ok text ↔ Decodes raw text := by
  rw [decodeComponent, Decodes]
  split
  · case _ literal =>
    have own : Spells (utf8 raw) (utf8 raw) := spells_self (by simpa [and_comm] using literal)
    simp only [bind_eq_ok, unit_exists_ok, refuse_eq_ok, any_eq_false, Except.ok.injEq,
      Bool.not_eq_true]
    constructor
    · rintro ⟨plain, rfl⟩
      exact ⟨own, plain⟩
    · rintro ⟨spelled, plain⟩
      have same := (own.decodeFrom_eq []).symm.trans (spelled.decodeFrom_eq [])
      obtain rfl := utf8_inj (Option.some.inj same)
      exact ⟨plain, rfl⟩
  · simp only [bind_eq_ok, unit_exists_ok, refuse_eq_ok, okOr_eq_ok, fromUtf8?_eq_some,
      any_eq_false, Except.ok.injEq, Bool.not_eq_true]
    constructor
    · rintro ⟨_, read, _, rfl, plain, rfl⟩
      obtain ⟨more, spelled, rfl⟩ := spells_of_decodeFrom read
      exact ⟨spelled, plain⟩
    · rintro ⟨spelled, plain⟩
      exact ⟨_, spelled.decodeFrom_eq [], text, rfl, plain, rfl⟩

end Components

section Facts

variable {names : List String} {held next facts : List (String × String)} {pair : String × String}

theorem decodePair_eq_ok {piece : String} : decodePair piece = .ok pair ↔ DecodesPair piece pair := by
  simp only [decodePair, bind_eq_ok, decodeComponent_eq_ok, Except.ok.injEq]
  constructor
  · rintro ⟨name, first, value, second, rfl⟩
    exact ⟨first, second⟩
  · exact fun decodes => ⟨pair.1, decodes.1, pair.2, decodes.2, rfl⟩

theorem FormDecodes.unique {query : String} (first : FormDecodes query held)
    (second : FormDecodes query next) : held = next := by
  refine Relator.RightUnique.forall₂ (fun piece left right one other => ?_) first second
  rw [← decodePair_eq_ok] at one other
  exact Except.ok.inj (one.symm.trans other)

end Facts

end GreenGateway.Middleware
