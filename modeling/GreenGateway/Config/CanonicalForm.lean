import GreenGateway.Config.Digests
import Mathlib.Data.List.Sort

/-! Equality of JSON values up to the order of members and the spelling of integers, and
the normal form whose text canonical JSON writes. -/

namespace GreenGateway.Config

open Foundation List

section NameOrder

/-- The UTF-16 code units of one character. -/
def units (char : Char) : List Nat :=
  let code := char.toNat
  if code < 0x10000 then [code]
  else [0xd800 + (code - 0x10000) / 0x400, 0xdc00 + (code - 0x10000) % 0x400]

/-- A character's units are told apart from whatever follows them. -/
theorem units_append_inj {char other : Char} {rest rest' : List Nat}
    (same : units char ++ rest = units other ++ rest') : char = other ∧ rest = rest' := by
  have valid : char.toNat < 0xd800 ∨ (0xdfff < char.toNat ∧ char.toNat < 0x110000) := char.valid
  have valid' : other.toNat < 0xd800 ∨ (0xdfff < other.toNat ∧ other.toNat < 0x110000) :=
    other.valid
  rw [← Char.toNat_inj]
  simp only [units] at same
  -- a unit below the surrogates or above them begins no pair
  split_ifs at same with basic basic' <;>
    simp only [cons_append, nil_append, List.cons.injEq] at same
  · exact same
  · omega
  · omega
  · exact ⟨by omega, same.2.2⟩

theorem encodeUtf16_inj {left right : String} (same : encodeUtf16 left = encodeUtf16 right) :
    left = right := by
  have chars : ∀ chars others : List Char, chars.flatMap units = others.flatMap units →
      chars = others := by
    intro chars
    induction chars with
    | nil =>
      intro others same
      cases others with
      | nil => rfl
      | cons other others => unfold units at same; grind
    | cons char chars ih =>
      intro others same
      cases others with
      | nil => unfold units at same; grind
      | cons other others =>
        obtain ⟨head, tail⟩ := units_append_inj same
        rw [head, ih others tail]
  exact String.toList_injective (chars left.toList right.toList same)

variable {α : Type} {left right : List (String × α)}

instance : Std.Total (NameOrder (α := α)) where
  total left right := le_total (encodeUtf16 left.1) (encodeUtf16 right.1)

instance : IsTrans (String × α) NameOrder where
  trans _ _ _ before after := le_trans (α := List Nat) before after

/-- Under distinct names the order of members leaves one sorted list. -/
theorem sorted_of_perm (distinct : (left.map Prod.fst).Nodup) (same : left.Perm right) :
    left.insertionSort NameOrder = right.insertionSort NameOrder := by
  refine List.Perm.eq_of_pairwise ?_ (pairwise_insertionSort _ _)
    (pairwise_insertionSort _ _)
    ((perm_insertionSort _ _).trans (same.trans (perm_insertionSort _ _).symm))
  intro entry other listed listed' before after
  have member : entry ∈ left := (perm_insertionSort _ _).mem_iff.mp listed
  have member' : other ∈ left := same.mem_iff.mpr ((perm_insertionSort _ _).mem_iff.mp listed')
  exact inj_on_of_nodup_map distinct member member'
    (encodeUtf16_inj (le_antisymm (α := List Nat) before after))

/-- Distinct names tell two objects' settled members apart as sets. -/
theorem sorted_eq_iff (distinct : (left.map Prod.fst).Nodup) :
    left.insertionSort NameOrder = right.insertionSort NameOrder ↔
      left.length = right.length ∧ ∀ member ∈ left, member ∈ right := by
  constructor
  · intro same
    have reordered : left.Perm right :=
      (perm_insertionSort NameOrder left).symm.trans
        (same ▸ perm_insertionSort NameOrder right)
    exact ⟨reordered.length_eq, fun member listed => reordered.mem_iff.mp listed⟩
  · rintro ⟨lengths, members⟩
    have reordered : left.Perm right :=
      (subperm_of_subset (List.Nodup.of_map _ distinct) members).perm_of_length_le lengths.ge
    exact sorted_of_perm distinct reordered

end NameOrder

section Integers

theorem decimal?_of_mem {digits : List Char} {char : Char} (member : char ∈ digits)
    (other : char.isDigit = false) : decimal? digits = none := by
  have some_ : digits.all Char.isDigit = false :=
    List.all_eq_false.mpr ⟨char, member, by simp [other]⟩
  simp [decimal?, some_]

theorem toString_neg (value : Nat) : (toString (Int.negSucc value)).toList =
    '-' :: (toString (value + 1)).toList := by
  change ("-" ++ toString (value + 1)).toList = _
  rw [String.toList_append]
  rfl

theorem toString_head (value : Nat) :
    ∃ head tail, (toString value).toList = head :: tail ∧ head.isDigit = true := by
  have digits : (toString value).toList = Nat.toDigits 10 value := Nat.toList_repr
  obtain ⟨head, tail, split⟩ : ∃ head tail, (toString value).toList = head :: tail := by
    rw [digits]
    exact exists_cons_of_ne_nil Nat.toDigits_ne_nil
  have member : head ∈ (toString value).toList := by
    rw [split]
    exact mem_cons_self ..
  exact ⟨head, tail, split, toString_digits member⟩

theorem toString_unsigned (value : Nat) (rest : List Char) :
    (toString value).toList ≠ '-' :: rest := by
  intro split
  have member : '-' ∈ (toString value).toList := by
    rw [split]
    exact mem_cons_self ..
  exact absurd (toString_digits member) (by decide)

theorem toString_int_inj {left right : Int} (same : toString left = toString right) :
    left = right := by
  have chars := congrArg String.toList same
  cases left with
  | ofNat left =>
    cases right with
    | ofNat right => rw [toString_nat_inj same]
    | negSucc right =>
      rw [toString_neg] at chars
      exact absurd chars (toString_unsigned left _)
  | negSucc left =>
    cases right with
    | ofNat right =>
      rw [toString_neg] at chars
      exact absurd chars.symm (toString_unsigned right _)
    | negSucc right =>
      rw [toString_neg, toString_neg, List.cons.injEq] at chars
      have successors := toString_nat_inj (String.toList_injective chars.2)
      rw [Nat.succ.inj successors]

variable {mark : Char} {text : String} {value : Int}

theorem not_mem_digits (listed : mark ∈ ['.', 'e', 'E']) (value : Nat) :
    mark ∉ (toString value).toList := by
  intro member
  have digit := toString_digits member
  simp only [mem_cons, not_mem_nil, or_false] at listed
  rcases listed with rfl | rfl | rfl <;> cases digit

theorem asU64_negative (digits : List Char) : asU64 (String.ofList ('-' :: digits)) = none := by
  rw [asU64, String.toList_ofList, decimal?_of_mem (mem_cons_self ..) (by decide)]
  rfl

theorem negative_eq (value : Nat) :
    "-" ++ toString value = String.ofList ('-' :: (toString value).toList) := by
  apply String.toList_injective
  rw [String.toList_append, String.toList_ofList, String.toList_ofList, singleton_append]

variable [Codecs]

/-- The integer a number's text denotes: a token of the integer grammar its decimal
value, and a text with a fraction or an exponent the double nearest it, when that is an
integer. -/
inductive Denotes : String → Int → Prop
  | natural (value : Nat) : Denotes (toString value) value
  | negative (value : Nat) : Denotes ("-" ++ toString value) (-value)
  | double {text : String} {value : Int} {mark : Char} (marked : mark ∈ text.toList)
    (listed : mark ∈ ['.', 'e', 'E']) (spelled : Codecs.doubleText text = some (toString value)) :
    Denotes text value

theorem writeNumber_negative {value : Nat} (safe : value ≤ maxSafeInteger) :
    writeNumber ("-" ++ toString value) = .ok (toString (-(value : Int))).toList := by
  have held : asI64 (String.ofList ('-' :: (toString value).toList)) = some (-(value : Int)) := by
    have bound : value ≤ 2 ^ 63 := safe.trans (by decide)
    simp only [asI64, String.toList_ofList, decimal?_toString, Option.bind_some, if_pos bound]
  have small : ¬(-(value : Int)).natAbs > maxSafeInteger := by
    rw [Int.natAbs_neg, Int.natAbs_natCast]
    exact Nat.not_lt.mpr safe
  rw [negative_eq, writeNumber, asU64_negative, held]
  simp only [if_neg small]

theorem writeNumber_double (marked : mark ∈ text.toList)
    (listed : mark ∈ ['.', 'e', 'E']) (spelled : Codecs.doubleText text = some (toString value)) :
    writeNumber text = .ok (toString value).toList := by
  have apart : mark.isDigit = false ∧ mark ≠ '-' := by
    simp only [mem_cons, not_mem_nil, or_false] at listed
    rcases listed with rfl | rfl | rfl <;> decide
  have notNatural : asU64 text = none := by
    rw [asU64, decimal?_of_mem marked apart.1]
    rfl
  have notNegative : asI64 text = none := by
    unfold asI64
    split
    · rename_i digits split
      rw [split, mem_cons] at marked
      rw [decimal?_of_mem (marked.resolve_left apart.2) apart.1]
      rfl
    · rfl
  simp only [writeNumber, notNatural, notNegative, spelled]

/-- A number of a safe integer is written as that integer in decimal. -/
theorem writeNumber_of_denotes (denotes : Denotes text value)
    (safe : value.natAbs ≤ maxSafeInteger) : writeNumber text = .ok (toString value).toList := by
  cases denotes with
  | natural value => exact writeNumber_safe safe
  | negative value => exact writeNumber_negative (by simpa using safe)
  | double marked listed spelled => exact writeNumber_double marked listed spelled

theorem Denotes.unique {other : Int} (denotes : Denotes text value)
    (denotes' : Denotes text other) : value = other := by
  have signed (natural : Nat) : ("-" ++ toString natural).toList =
      '-' :: (toString natural).toList := by
    rw [negative_eq, String.toList_ofList]
  -- digits, digits after a sign, and a text with a mark are three kinds of text
  have unmarked {mark : Char} (listed : mark ∈ ['.', 'e', 'E']) (natural : Nat) :
      mark ∉ ("-" ++ toString natural).toList := by
    rw [signed, mem_cons, not_or]
    refine ⟨?_, not_mem_digits listed natural⟩
    rintro rfl
    simp at listed
  generalize spelled : text = copy at denotes'
  cases denotes with
  | natural value =>
    cases denotes' with
    | natural other => rw [toString_nat_inj spelled]
    | negative other =>
      exact absurd ((congrArg String.toList spelled).trans (signed other)) (toString_unsigned value _)
    | double marked listed _ => exact absurd (spelled ▸ marked) (not_mem_digits listed value)
  | negative value =>
    cases denotes' with
    | natural other =>
      exact absurd ((congrArg String.toList spelled).symm.trans (signed value))
        (toString_unsigned other _)
    | negative other =>
      have chars := congrArg String.toList spelled
      rw [signed, signed, List.cons.injEq] at chars
      rw [toString_nat_inj (String.toList_injective chars.2)]
    | double marked listed _ => exact absurd (spelled ▸ marked) (unmarked listed value)
  | double marked listed held =>
    cases denotes' with
    | natural other => exact absurd (spelled ▸ marked) (not_mem_digits listed other)
    | negative other => exact absurd (spelled ▸ marked) (unmarked listed other)
    | double _ _ held' =>
      rw [← spelled, held] at held'
      exact toString_int_inj (Option.some.inj held')

theorem Denotes.toString (value : Int) : Denotes (toString value) value := by
  cases value with
  | ofNat value => exact .natural value
  | negSucc value => exact .negative (value + 1)

end Integers

section Values

variable [Codecs]

mutual

/-- Every number is a safe integer, and no object names a member twice. -/
def Integral : Json → Prop
  | .null | .bool _ | .string _ => True
  | .number text => ∃ value : Int, value.natAbs ≤ maxSafeInteger ∧ Denotes text value
  | .array items => IntegralItems items
  | .object members => (members.map Prod.fst).Nodup ∧ IntegralMembers members

def IntegralItems : List Json → Prop
  | [] => True
  | item :: rest => Integral item ∧ IntegralItems rest

def IntegralMembers : List (String × Json) → Prop
  | [] => True
  | (_, value) :: rest => Integral value ∧ IntegralMembers rest

end

mutual

/-- Equality as JSON: a number is its integer, and an object's members are found by
name. -/
def Equal : Json → Json → Prop
  | .null, .null => True
  | .bool left, .bool right => left = right
  | .number left, .number right => ∃ value, Denotes left value ∧ Denotes right value
  | .string left, .string right => left = right
  | .array left, .array right => EqualItems left right
  | .object left, .object right => left.length = right.length ∧ EqualMembers left right
  | _, _ => False

def EqualItems : List Json → List Json → Prop
  | [], [] => True
  | left :: lefts, right :: rights => Equal left right ∧ EqualItems lefts rights
  | _, _ => False

/-- Every member has an equal one of its name among the others. -/
def EqualMembers : List (String × Json) → List (String × Json) → Prop
  | [], _ => True
  | (name, value) :: rest, others =>
    (∃ other, Json.lookup name others = some other ∧ Equal value other) ∧ EqualMembers rest others

end

/-- A number's canonical spelling, if it has one. -/
def settleNumber (text : String) : String :=
  match writeNumber text with
  | .ok chars => String.ofList chars
  | .error _ => text

mutual

/-- The normal form: integers in decimal, and members in the order of their names. -/
def settle : Json → Json
  | .null => .null
  | .bool value => .bool value
  | .number text => .number (settleNumber text)
  | .string text => .string text
  | .array items => .array (settleItems items)
  | .object members => .object ((settleMembers members).insertionSort NameOrder)

def settleItems : List Json → List Json
  | [] => []
  | item :: rest => settle item :: settleItems rest

def settleMembers : List (String × Json) → List (String × Json)
  | [] => []
  | (name, value) :: rest => (name, settle value) :: settleMembers rest

end

variable (members : List (String × Json))

theorem settleMembers_eq :
    settleMembers members = members.map fun member => (member.1, settle member.2) := by
  induction members with
  | nil => rfl
  | cons member rest ih =>
    rw [settleMembers, ih, map_cons]

theorem settleMembers_names : (settleMembers members).map Prod.fst = members.map Prod.fst := by
  rw [settleMembers_eq, map_map]
  rfl

theorem settleMembers_length : (settleMembers members).length = members.length := by
  rw [settleMembers_eq, length_map]

theorem integralMembers_iff : IntegralMembers members ↔ ∀ member ∈ members, Integral member.2 := by
  induction members with
  | nil => simp [IntegralMembers]
  | cons member rest ih => simp [IntegralMembers, ih]

theorem settleNumber_of_denotes {text : String} {value : Int} (denotes : Denotes text value)
    (safe : value.natAbs ≤ maxSafeInteger) : settleNumber text = toString value := by
  simp [settleNumber, writeNumber_of_denotes denotes safe]

mutual

/-- Two values are equal as JSON exactly when they have one normal form. -/
theorem equal_iff : ∀ value other, Integral value → Integral other →
    (Equal value other ↔ settle value = settle other)
  | .number left, .number right, ⟨value, safe, denotes⟩, ⟨value', safe', denotes'⟩ => by
    have spelled := settleNumber_of_denotes denotes safe
    have spelled' := settleNumber_of_denotes denotes' safe'
    simp only [Equal, settle, Json.number.injEq]
    constructor
    · rintro ⟨common, held, held'⟩
      rw [spelled, spelled', denotes.unique held, denotes'.unique held']
    · intro same
      rw [spelled, spelled'] at same
      obtain rfl := toString_int_inj same
      exact ⟨_, denotes, denotes'⟩
  | .array left, .array right, integral, integral' => by
    simp only [Equal, settle, Json.array.injEq]
    exact equalItems_iff left right integral integral'
  | .object left, .object right, integral, integral' => by
    have distinct : ((settleMembers left).map Prod.fst).Nodup := by
      rw [settleMembers_names]
      exact integral.1
    simp only [Equal, settle, Json.object.injEq, sorted_eq_iff distinct, settleMembers_length]
    exact and_congr_right fun _ =>
      equalMembers_iff left right integral.2 integral'.1 integral'.2
  | .null, other, _, _ => by cases other <;> simp [Equal, settle]
  | .bool _, other, _, _ => by cases other <;> simp [Equal, settle]
  | .string _, other, _, _ => by cases other <;> simp [Equal, settle]
  | .number _, .null, _, _ | .number _, .bool _, _, _ | .number _, .string _, _, _
  | .number _, .array _, _, _ | .number _, .object _, _, _ => by simp [Equal, settle]
  | .array _, .null, _, _ | .array _, .bool _, _, _ | .array _, .number _, _, _
  | .array _, .string _, _, _ | .array _, .object _, _, _ => by simp [Equal, settle]
  | .object _, .null, _, _ | .object _, .bool _, _, _ | .object _, .number _, _, _
  | .object _, .string _, _, _ | .object _, .array _, _, _ => by simp [Equal, settle]

theorem equalItems_iff : ∀ items others, IntegralItems items → IntegralItems others →
    (EqualItems items others ↔ settleItems items = settleItems others)
  | [], others, _, _ => by cases others <;> simp [EqualItems, settleItems]
  | _ :: _, [], _, _ => by simp [EqualItems, settleItems]
  | item :: items, other :: others, integral, integral' => by
    simp [EqualItems, settleItems, equal_iff item other integral.1 integral'.1,
      equalItems_iff items others integral.2 integral'.2]

theorem equalMembers_iff : ∀ members others, IntegralMembers members →
    (others.map Prod.fst).Nodup → IntegralMembers others →
    (EqualMembers members others ↔
      ∀ member ∈ settleMembers members, member ∈ settleMembers others)
  | [], others, _, _, _ => by simp [EqualMembers, settleMembers]
  | (name, value) :: rest, others, integral, distinct, integral' => by
    have own : (∃ other, Json.lookup name others = some other ∧ Equal value other) ↔
        (name, settle value) ∈ settleMembers others := by
      simp only [Json.lookup_eq_some distinct, settleMembers_eq, mem_map, Prod.mk.injEq,
        Prod.exists]
      constructor
      · rintro ⟨other, listed, equal⟩
        have held := (integralMembers_iff others).mp integral' _ listed
        exact ⟨name, other, listed, rfl, ((equal_iff value other integral.1 held).mp equal).symm⟩
      · rintro ⟨_, other, listed, rfl, same⟩
        have held := (integralMembers_iff others).mp integral' _ listed
        exact ⟨other, listed, (equal_iff value other integral.1 held).mpr same.symm⟩
    simp [EqualMembers, settleMembers, own,
      equalMembers_iff rest others integral.2 distinct integral']

end

mutual

/-- Canonical JSON writes the text of the normal form. -/
theorem writeValue_settle : ∀ value, Integral value → writeValue value = .ok (settle value).text
  | .null, _ => rfl
  | .bool true, _ => rfl
  | .bool false, _ => rfl
  | .string _, _ => rfl
  | .number text, ⟨value, safe, denotes⟩ => by
    rw [writeValue, settle, Json.text, settleNumber_of_denotes denotes safe]
    exact writeNumber_of_denotes denotes safe
  | .array items, integral => by
    simp only [writeValue, writeItems_settle items integral]
    rfl
  | .object members, integral => by
    have sorted := map_insertionSort NameOrder NameOrder
      (fun member : String × Json => (member.1, member.2.text)) (settleMembers members)
      fun _ _ _ _ => Iff.rfl
    simp only [writeValue, writeMembers_settle members integral.2]
    change Except.ok _ = _
    rw [← sorted, settle]
    simp only [Json.text, map_map, Function.comp_def, Json.memberTexts_eq]

theorem writeItems_settle : ∀ items, IntegralItems items →
    writeItems items = .ok (Json.itemTexts (settleItems items))
  | [], _ => rfl
  | item :: rest, integral => by
    simp only [writeItems, writeValue_settle item integral.1, writeItems_settle rest integral.2]
    rfl

theorem writeMembers_settle : ∀ members, IntegralMembers members → writeMembers members =
    .ok ((settleMembers members).map fun member => (member.1, member.2.text))
  | [], _ => rfl
  | (name, value) :: rest, integral => by
    simp only [writeMembers, writeValue_settle value integral.1,
      writeMembers_settle rest integral.2]
    rfl

end

mutual

/-- A value in normal form. -/
def Normal : Json → Prop
  | .null | .bool _ | .string _ => True
  | .number text => ∃ value : Int, value.natAbs ≤ maxSafeInteger ∧ text = toString value
  | .array items => NormalItems items
  | .object members =>
    members.Pairwise NameOrder ∧ (members.map Prod.fst).Nodup ∧ NormalMembers members

def NormalItems : List Json → Prop
  | [] => True
  | item :: rest => Normal item ∧ NormalItems rest

def NormalMembers : List (String × Json) → Prop
  | [] => True
  | (_, value) :: rest => Normal value ∧ NormalMembers rest

end

omit [Codecs] in
theorem normalMembers_iff (members : List (String × Json)) :
    NormalMembers members ↔ ∀ member ∈ members, Normal member.2 := by
  induction members with
  | nil => simp [NormalMembers]
  | cons member rest ih => simp [NormalMembers, ih]

mutual

theorem settle_normal : ∀ value, Integral value → Normal (settle value)
  | .null, _ | .bool _, _ | .string _, _ => trivial
  | .number _, ⟨value, safe, denotes⟩ => ⟨value, safe, settleNumber_of_denotes denotes safe⟩
  | .array items, integral => settleItems_normal items integral
  | .object members, integral => by
    have reordered := perm_insertionSort NameOrder (settleMembers members)
    refine ⟨pairwise_insertionSort _ _, ?_, ?_⟩
    · rw [(reordered.map Prod.fst).nodup_iff, settleMembers_names]
      exact integral.1
    · rw [normalMembers_iff]
      intro member listed
      exact (normalMembers_iff _).mp (settleMembers_normal members integral.2) member
        (reordered.mem_iff.mp listed)

theorem settleItems_normal : ∀ items, IntegralItems items → NormalItems (settleItems items)
  | [], _ => trivial
  | item :: rest, integral =>
    ⟨settle_normal item integral.1, settleItems_normal rest integral.2⟩

theorem settleMembers_normal : ∀ members, IntegralMembers members →
    NormalMembers (settleMembers members)
  | [], _ => trivial
  | (_, value) :: rest, integral =>
    ⟨settle_normal value integral.1, settleMembers_normal rest integral.2⟩

end

theorem canonicalJson_settle {value : Json} (integral : Integral value) :
    canonicalJson value = .ok (String.ofList (settle value).text) := by
  simp only [canonicalJson, writeValue_settle value integral]
  rfl

end Values

section Depth

mutual

/-- How many collections are open at the deepest point of a value. -/
def depth : Json → Nat
  | .null | .bool _ | .number _ | .string _ => 0
  | .array items => itemsDepth items + 1
  | .object members => membersDepth members + 1

def itemsDepth : List Json → Nat
  | [] => 0
  | item :: rest => max (depth item) (itemsDepth rest)

def membersDepth : List (String × Json) → Nat
  | [] => 0
  | (_, value) :: rest => max (depth value) (membersDepth rest)

end

theorem membersDepth_perm {members others : List (String × Json)} (same : members.Perm others) :
    membersDepth members = membersDepth others := by
  induction same with
  | nil => rfl
  | cons member _ ih => rw [membersDepth, membersDepth, ih]
  | swap member other rest => simp only [membersDepth]; omega
  | trans _ _ first second => exact first.trans second

variable [Codecs]

mutual

theorem depth_settle : ∀ value, depth (settle value) = depth value
  | .null | .bool _ | .number _ | .string _ => rfl
  | .array items => congrArg (· + 1) (itemsDepth_settle items)
  | .object members => by
    rw [settle, depth, depth, membersDepth_perm (List.perm_insertionSort _ _),
      membersDepth_settle members]

theorem itemsDepth_settle : ∀ items, itemsDepth (settleItems items) = itemsDepth items
  | [] => rfl
  | item :: rest => by
    rw [settleItems, itemsDepth, itemsDepth, depth_settle item, itemsDepth_settle rest]

theorem membersDepth_settle : ∀ members, membersDepth (settleMembers members) = membersDepth members
  | [] => rfl
  | (_, value) :: rest => by
    rw [settleMembers, membersDepth, membersDepth, depth_settle value, membersDepth_settle rest]

end

end Depth

end GreenGateway.Config
