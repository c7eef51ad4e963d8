import GreenGateway.Foundation.Text

/-! How many bytes text takes, and facts about ASCII characters, settled by trying each of
them. -/

namespace Foundation

open List

section Width

/-- The UTF-8 bytes of characters. -/
def utf8Width (chars : List Char) : Nat := (chars.map Char.utf8Size).sum

@[simp] theorem utf8Width_nil : utf8Width [] = 0 := rfl

@[simp] theorem utf8Width_cons (char : Char) (chars : List Char) :
    utf8Width (char :: chars) = char.utf8Size + utf8Width chars := rfl

@[simp] theorem utf8Width_append (left right : List Char) :
    utf8Width (left ++ right) = utf8Width left + utf8Width right := by
  rw [utf8Width, map_append, sum_append]
  rfl

theorem len_ofList (chars : List Char) : Text.len (String.ofList chars) = utf8Width chars := by
  induction chars with
  | nil => rfl
  | cons char chars ih =>
    have split : String.ofList (char :: chars) = String.singleton char ++ String.ofList chars := by
      rw [String.singleton_eq_ofList, ← String.ofList_append]
      rfl
    rw [Text.len] at ih ⊢
    rw [split, String.utf8ByteSize_append, ih, String.utf8ByteSize_singleton, utf8Width_cons]

end Width

section Decimals

variable {char : Char} {value : Nat}

theorem utf8Size_of_ascii (small : char.toNat < 128) : char.utf8Size = 1 := by
  have narrow : ∀ code < 128, (Char.ofNat code).utf8Size = 1 := by decide
  rw [← Char.ofNat_toNat char]
  exact narrow char.toNat small

/-- ASCII text has one byte for each character. -/
theorem len_of_ascii {text : String} (ascii : ∀ char ∈ text.toList, char.utf8Size = 1) :
    Text.len text = text.toList.length := by
  have ones : text.toList.map Char.utf8Size = List.replicate text.toList.length 1 := by
    rw [eq_replicate_iff]
    exact ⟨length_map _, List.forall_mem_map.mpr ascii⟩
  rw [← String.ofList_toList (s := text), len_ofList, String.toList_ofList, utf8Width, ones,
    sum_replicate_nat, Nat.mul_one]

theorem toString_digits (member : char ∈ (toString value).toList) : char.isDigit = true := by
  have digits : (toString value).toList = Nat.toDigits 10 value := Nat.toList_repr
  rw [digits] at member
  exact Nat.isDigit_of_mem_toDigits (by omega) (by omega) member

theorem toString_nat_inj {left right : Nat} (same : toString left = toString right) :
    left = right := by
  have texts : Nat.toDigits 10 left = Nat.toDigits 10 right := by
    rw [← Nat.toList_repr, ← Nat.toList_repr]
    exact congrArg String.toList same
  have values := congrArg (fun digits => Nat.ofDigitChars 10 digits 0) texts
  simpa only [Nat.ofDigitChars_ten_toDigits] using values

theorem toString_len_le {digits : Nat} (positive : 0 < digits) (small : value < 10 ^ digits) :
    Text.len (toString value) ≤ digits := by
  have ascii : ∀ char ∈ (toString value).toList, char.utf8Size = 1 := by
    intro char member
    have digit := toString_digits member
    exact utf8Size_of_ascii
      (Nat.lt_of_le_of_lt (of_decide_eq_true (Bool.and_eq_true_iff.mp digit).2) (by decide))
  have spelled : (toString value).toList = Nat.toDigits 10 value := Nat.toList_repr
  rw [len_of_ascii ascii, spelled]
  exact (Nat.length_toDigits_le_iff (by decide) positive).mpr small

end Decimals

namespace Ascii

variable {char : Char}

theorem forall_lt (holds : Char → Prop) [DecidablePred holds]
    (each : ∀ code < 128, holds (Char.ofNat code)) (ascii : char.toNat < 128) : holds char := by
  have own := each char.toNat ascii
  rwa [Char.ofNat_toNat] at own

theorem toNat_ofNat {code : Nat} (small : code < 128) : (Char.ofNat code).toNat = code := by
  rw [Char.toNat_ofNat, if_pos (.inl (by omega))]

theorem toNat_lt_of_isAlphanum (spelled : char.isAlphanum = true) : char.toNat < 128 := by
  simp only [Char.isAlphanum, Char.isAlpha, Char.isUpper, Char.isLower, Char.isDigit,
    Bool.or_eq_true, Bool.and_eq_true, decide_eq_true_eq, UInt32.le_iff_toNat_le,
    ge_iff_le] at spelled
  have upper : 'Z'.val.toNat = 90 := rfl
  have lower : 'z'.val.toNat = 122 := rfl
  have digit : '9'.val.toNat = 57 := rfl
  have same : char.toNat = char.val.toNat := rfl
  omega

theorem isAlphanum_of_isHexDigit (digit : Text.isHexDigit char = true) :
    char.isAlphanum = true := by
  simp only [Text.isHexDigit, Bool.or_eq_true, decide_eq_true_eq, Char.le_def,
    UInt32.le_iff_toNat_le] at digit
  simp only [Char.isAlphanum, Char.isAlpha, Char.isUpper, Char.isLower, Bool.or_eq_true,
    Bool.and_eq_true, decide_eq_true_eq, ge_iff_le, UInt32.le_iff_toNat_le]
  have bounds : 'f'.val.toNat = 102 ∧ 'z'.val.toNat = 122 ∧ 'F'.val.toNat = 70 ∧
      'Z'.val.toNat = 90 := by decide
  rcases digit with (digit | lower) | upper
  · exact .inr digit
  · exact .inl (.inr (by omega))
  · exact .inl (.inl (by omega))

/-- Visible ASCII: neither a space nor a control character. -/
def Solid (chars : List Char) : Prop := ∀ char ∈ chars, 33 ≤ char.toNat ∧ char.toNat < 127

@[simp] theorem solid_nil : Solid [] := nofun

@[simp] theorem solid_cons {chars : List Char} :
    Solid (char :: chars) ↔ (33 ≤ char.toNat ∧ char.toNat < 127) ∧ Solid chars := by
  simp [Solid]

@[simp] theorem solid_append {left right : List Char} :
    Solid (left ++ right) ↔ Solid left ∧ Solid right := by
  simp only [Solid, mem_append]
  exact ⟨fun both => ⟨fun char listed => both char (.inl listed),
    fun char listed => both char (.inr listed)⟩,
    fun both char listed => listed.elim (both.1 char) (both.2 char)⟩

theorem Solid.trim_eq {text : String} (solid : Solid text.toList) : Text.trim text = text := by
  apply Text.trim_of_forall
  intro char listed
  have bounds := solid char listed
  exact forall_lt (fun char => 33 ≤ char.toNat ∧ char.toNat < 127 → Text.isWhitespace char = false)
    (by decide) (by omega) bounds

theorem isDigit_solid (digit : char.isDigit = true) : 33 ≤ char.toNat ∧ char.toNat < 127 := by
  have ascii := @toNat_lt_of_isAlphanum char (by simp [Char.isAlphanum, digit])
  exact forall_lt (fun char => char.isDigit = true → 33 ≤ char.toNat ∧ char.toNat < 127)
    (by decide) ascii digit

end Ascii

end Foundation
