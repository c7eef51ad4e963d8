import GreenGateway.Foundation.Ascii
import GreenGateway.Foundation.JsonText

/-! How many bytes the text of a JSON value takes: the size of an object or an array from
the sizes of its parts, and of a string from its characters as they are escaped. -/

namespace Foundation

open List

namespace Json

section Strings

/-- The bytes one character of a string takes. -/
def escapedSize (char : Char) : Nat :=
  if char ∈ ['"', '\\', '\x08', '\t', '\n', '\x0c', '\r'] then 2
  else if char.toNat < 0x20 then 6
  else char.utf8Size

theorem utf8Width_escape (char : Char) : utf8Width (escape char) = escapedSize char := by
  by_cases listed : char ∈ ['"', '\\', '\x08', '\t', '\n', '\x0c', '\r']
  · rw [escapedSize, if_pos listed]
    simp only [mem_cons, not_mem_nil, or_false] at listed
    rcases listed with rfl | rfl | rfl | rfl | rfl | rfl | rfl <;> rfl
  · rw [escapedSize, if_neg listed]
    simp only [mem_cons, not_mem_nil, or_false, not_or] at listed
    obtain ⟨quote, slash, backspace, tab, newline, feed, carriage⟩ := listed
    rw [escape, if_neg quote, if_neg slash, if_neg backspace, if_neg tab, if_neg newline,
      if_neg feed, if_neg carriage]
    split_ifs with control
    · have digit : ∀ value < 16, (hexDigit value).utf8Size = 1 := by decide
      have high := digit (char.toNat / 16) (by omega)
      have low := digit (char.toNat % 16) (by omega)
      simp only [utf8Width_cons, utf8Width_nil, high, low]
      rfl
    · rfl

/-- The bytes of a string between its quotation marks. -/
def escapedBytes (text : String) : Nat := (text.toList.map escapedSize).sum

@[simp] theorem utf8Width_quoted (text : String) :
    utf8Width (quoted text) = escapedBytes text + 2 := by
  have chars : ∀ chars : List Char,
      utf8Width (chars.flatMap escape) = (chars.map escapedSize).sum := by
    intro chars
    induction chars with
    | nil => rfl
    | cons char chars ih =>
      rw [flatMap_cons, utf8Width_append, utf8Width_escape, ih, map_cons, sum_cons]
  rw [quoted, utf8Width_cons, utf8Width_append, chars, escapedBytes, utf8Width_cons, utf8Width_nil,
    show '"'.utf8Size = 1 from rfl]
  omega

/-- A character that is spelled as it is. -/
def IsPlain (char : Char) : Prop := 0x20 ≤ char.toNat ∧ char ≠ '"' ∧ char ≠ '\\'

theorem escapedBytes_of_plain {text : String} (plain : ∀ char ∈ text.toList, IsPlain char) :
    escapedBytes text = Text.len text := by
  have each : ∀ char ∈ text.toList, escapedSize char = char.utf8Size := by
    intro char member
    obtain ⟨visible, quote, slash⟩ := plain char member
    have unlisted : char ∉ ['"', '\\', '\x08', '\t', '\n', '\x0c', '\r'] := by
      simp only [mem_cons, not_mem_nil, or_false, not_or]
      refine ⟨quote, slash, ?_, ?_, ?_, ?_, ?_⟩ <;>
        · rintro rfl
          revert visible
          decide
    rw [escapedSize, if_neg unlisted, if_neg (Nat.not_lt.mpr visible)]
  rw [escapedBytes, map_congr_left each, ← utf8Width, ← len_ofList, String.ofList_toList]

end Strings

section Collections

/-- An object with members: each takes its quoted name, a colon, its value, and the comma or
brace after it. -/
def objectBytes (members : List (String × Nat)) : Nat :=
  (members.map fun member => Text.len member.1 + member.2 + 4).sum + 1

/-- An array: each item takes its value and the comma or bracket after it. -/
def arrayBytes (items : List Nat) : Nat :=
  if items = [] then 2 else (items.map (· + 1)).sum + 1

theorem objectBytes_le {members : List (String × Nat)} {bounds : List Nat}
    (each : Forall₂ (fun member bound => member.2 ≤ bound) members bounds) :
    objectBytes members ≤ objectBytes ((members.map Prod.fst).zip bounds) := by
  induction each with
  | nil => exact le_rfl
  | cons own _ ih =>
    simp only [objectBytes, map_cons, zip_cons_cons, sum_cons] at ih ⊢
    omega

theorem arrayBytes_le {items : List Nat} {bound : Nat} (each : ∀ item ∈ items, item ≤ bound) :
    arrayBytes items ≤ items.length * (bound + 1) + 2 := by
  have total : (items.map (· + 1)).sum ≤ items.length * (bound + 1) := by
    induction items with
    | nil => exact Nat.zero_le _
    | cons item items ih =>
      rw [forall_mem_cons] at each
      have own := each.1
      have others := ih each.2
      rw [map_cons, sum_cons, length_cons, Nat.succ_mul]
      omega
  rw [arrayBytes]
  split_ifs <;> omega

theorem utf8Width_separated {parts : List (List Char)} (some_ : parts ≠ []) :
    utf8Width (separated parts) + 1 = (parts.map fun part => utf8Width part + 1).sum := by
  induction parts with
  | nil => exact absurd rfl some_
  | cons part rest ih =>
    cases rest with
    | nil => simp [separated]
    | cons next rest =>
      have more := ih nofun
      rw [separated, utf8Width_append, utf8Width_cons, map_cons, sum_cons, ← more,
        show ','.utf8Size = 1 from rfl]
      omega

theorem utf8Width_object {members : List (String × Json)} (some_ : members ≠ [])
    (plain : ∀ name ∈ members.map Prod.fst, escapedBytes name = Text.len name) :
    utf8Width (object members).text =
      objectBytes (members.map fun member => (member.1, utf8Width member.2.text)) := by
  have parts : memberTexts members ≠ [] := by
    rw [memberTexts_eq]
    simpa using some_
  have total := utf8Width_separated parts
  rw [memberTexts_eq, map_map] at total
  rw [objectBytes, map_map, text, utf8Width_cons, utf8Width_append, utf8Width_cons,
    utf8Width_nil, memberTexts_eq]
  have each : ∀ entry ∈ members,
      ((fun part => utf8Width part + 1) ∘ fun entry : String × Json => member entry.1 entry.2.text)
        entry =
      ((fun sized : String × Nat => Text.len sized.1 + sized.2 + 4) ∘ fun entry : String × Json =>
        (entry.1, utf8Width entry.2.text)) entry := by
    intro entry listed
    have name := plain entry.1 (mem_map_of_mem listed)
    simp only [Function.comp_apply, member, utf8Width_append, utf8Width_cons, utf8Width_quoted,
      name,
      show ':'.utf8Size = 1 from rfl]
    omega
  rw [map_congr_left each] at total
  simp only [show '\x7b'.utf8Size = 1 from rfl, show '\x7d'.utf8Size = 1 from rfl]
  omega

theorem utf8Width_array (items : List Json) :
    utf8Width (array items).text = arrayBytes (items.map fun item => utf8Width item.text) := by
  have texts : itemTexts items = items.map text := by
    induction items with
    | nil => rfl
    | cons item items ih => rw [itemTexts, ih, map_cons]
  rw [arrayBytes, text, utf8Width_cons, utf8Width_append, utf8Width_cons, utf8Width_nil, texts]
  cases items with
  | nil => rfl
  | cons item items =>
    have total := utf8Width_separated (cons_ne_nil item.text (items.map text))
    rw [← map_cons, map_map] at total
    rw [map_map]
    rw [if_neg nofun]
    simp only [show '['.utf8Size = 1 from rfl, show ']'.utf8Size = 1 from rfl,
      Function.comp_def] at *
    omega

end Collections

end Json

end Foundation
