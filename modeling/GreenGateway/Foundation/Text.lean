import Mathlib

/-! The string operations of the source language that the model uses, read on
the characters of a string so that they evaluate. Lengths are in UTF-8 bytes. -/

namespace Foundation.Text

open List

/-- `str::len`. -/
def len (text : String) : Nat := text.utf8ByteSize

/-- `str::starts_with`. -/
def startsWith (text start : String) : Bool := start.toList.isPrefixOf text.toList

/-- `str::ends_with`. -/
def endsWith (text ending : String) : Bool :=
  ending.toList.isSuffixOf text.toList

/-- `str::strip_prefix`. -/
def stripFront? (text start : String) : Option String :=
  if startsWith text start then some (String.ofList (text.toList.drop start.toList.length)) else none

/-- `str::strip_suffix`. -/
def stripBack? (text ending : String) : Option String :=
  if endsWith text ending then
    some (String.ofList (text.toList.take (text.toList.length - ending.toList.length)))
  else none

/-- `str::split` on one character: always at least one piece. -/
def split (separator : Char) (text : String) : List String :=
  (text.toList.splitOn separator).map String.ofList

def hasInfix (piece : List Char) : List Char → Bool
  | [] => piece.isEmpty
  | head :: rest => piece.isPrefixOf (head :: rest) || hasInfix piece rest

/-- `str::contains` of a substring. -/
def contains (text piece : String) : Bool := hasInfix piece.toList text.toList

/-- `char::is_control`: the Unicode category Cc. -/
def isControl (char : Char) : Bool :=
  decide (char.toNat ≤ 0x1f ∨ (0x7f ≤ char.toNat ∧ char.toNat ≤ 0x9f))

/-- `char::is_whitespace`: the Unicode property White_Space. -/
def isWhitespace (char : Char) : Bool :=
  decide ((0x09 ≤ char.toNat ∧ char.toNat ≤ 0x0d) ∨ (0x2000 ≤ char.toNat ∧ char.toNat ≤ 0x200a) ∨
    char.toNat ∈ [0x20, 0x85, 0xa0, 0x1680, 0x2028, 0x2029, 0x202f, 0x205f, 0x3000])

/-- `u8::is_ascii_hexdigit`. -/
def isHexDigit (char : Char) : Bool :=
  char.isDigit || decide ('a' ≤ char ∧ char ≤ 'f') || decide ('A' ≤ char ∧ char ≤ 'F')

/-- `str::to_ascii_lowercase`. -/
def toAsciiLowercase (text : String) : String := String.ofList (text.toList.map Char.toLower)

/-- `str::eq_ignore_ascii_case`. -/
def eqIgnoreAsciiCase (left right : String) : Bool :=
  left.toList.map Char.toLower == right.toList.map Char.toLower

/-- `str::trim_end_matches` of one character. -/
def trimEndMatches (text : String) (drop : Char) : String :=
  String.ofList (text.toList.rdropWhile (· == drop))

/-- `str::trim`. -/
def trim (text : String) : String :=
  String.ofList ((text.toList.dropWhile isWhitespace).rdropWhile isWhitespace)

/-- `str::split_once` at one character. -/
def splitOnce (separator : Char) (text : String) : Option (String × String) :=
  match text.toList.dropWhile (· != separator) with
  | [] => none
  | _ :: back => some (String.ofList (text.toList.takeWhile (· != separator)), String.ofList back)

/-- `str::replace` of a two-character sequence by one character, left to right. -/
def replacePair (first second by_ : Char) : List Char → List Char
  | [] => []
  | [last] => [last]
  | head :: next :: rest =>
    if head = first ∧ next = second then by_ :: replacePair first second by_ rest
    else head :: replacePair first second by_ (next :: rest)

/-- `Vec::dedup`: drops an entry equal to the one before it. -/
def dedup : List String → List String
  | [] => []
  | [last] => [last]
  | head :: next :: rest =>
    if head = next then dedup (next :: rest) else head :: dedup (next :: rest)

/-- `sort_unstable` followed by `dedup`: sorted and unique. -/
def sortDedup (names : List String) : List String := dedup (names.insertionSort (· ≤ ·))

theorem mem_dedup (name : String) : ∀ names : List String, name ∈ dedup names ↔ name ∈ names
  | [] => by simp [dedup]
  | [last] => by simp [dedup]
  | head :: next :: rest => by
    have tail := mem_dedup name (next :: rest)
    by_cases same : head = next <;> simp_all [dedup]

variable {left right text start ending front : String} {separator : Char}

@[simp] theorem mem_sortDedup {name : String} {names : List String} :
    name ∈ sortDedup names ↔ name ∈ names := by
  simp [sortDedup, mem_dedup]

theorem eqIgnoreAsciiCase_iff :
    eqIgnoreAsciiCase left right = true ↔ toAsciiLowercase left = toAsciiLowercase right := by
  simp [eqIgnoreAsciiCase, toAsciiLowercase, String.ofList_inj]

theorem eqIgnoreAsciiCase_trans {middle : String} (first : eqIgnoreAsciiCase left middle = true)
    (second : eqIgnoreAsciiCase middle right = true) : eqIgnoreAsciiCase left right = true := by
  rw [eqIgnoreAsciiCase_iff] at *
  exact first.trans second

private theorem toLower_idem (char : Char) : char.toLower.toLower = char.toLower := by
  unfold Char.toLower
  grind

@[simp] theorem toAsciiLowercase_idem (text : String) :
    toAsciiLowercase (toAsciiLowercase text) = toAsciiLowercase text := by
  simp only [toAsciiLowercase, String.toList_ofList, map_map, Function.comp_def, toLower_idem]

theorem startsWith_iff : startsWith text start = true ↔ ∃ rest, text = start ++ rest := by
  rw [startsWith, isPrefixOf_iff_prefix]
  constructor
  · rintro ⟨rest, same⟩
    refine ⟨String.ofList rest, String.toList_inj.mp ?_⟩
    simp [← same]
  · rintro ⟨rest, rfl⟩
    simp

theorem stripFront?_eq_some {rest : String} :
    stripFront? text start = some rest ↔ text = start ++ rest := by
  simp only [stripFront?, startsWith, Option.ite_none_right_eq_some, Option.some.injEq,
    isPrefixOf_iff_prefix]
  constructor
  · rintro ⟨⟨tail, same⟩, rfl⟩
    apply String.toList_inj.mp
    simp [← same]
  · rintro rfl
    simp

theorem endsWith_iff :
    endsWith text ending = true ↔ ∃ front, text = front ++ ending := by
  rw [endsWith, isSuffixOf_iff_suffix]
  constructor
  · rintro ⟨front, same⟩
    refine ⟨String.ofList front, String.toList_inj.mp ?_⟩
    simp [← same]
  · rintro ⟨front, rfl⟩
    simp

theorem stripBack?_eq_some : stripBack? text ending = some front ↔ text = front ++ ending := by
  simp only [stripBack?, endsWith, Option.ite_none_right_eq_some, Option.some.injEq,
    isSuffixOf_iff_suffix]
  constructor
  · rintro ⟨⟨head, same⟩, rfl⟩
    apply String.toList_inj.mp
    simp [← same]
  · rintro rfl
    simp

theorem splitOnce_eq_some {back : String} :
    splitOnce separator text = some (front, back) ↔
      text = front ++ (String.singleton separator ++ back) ∧ separator ∉ front.toList := by
  rw [splitOnce]
  constructor
  · intro found
    have whole := takeWhile_append_dropWhile (p := (· != separator)) (l := text.toList)
    split at found
    · cases found
    · case _ head rest below =>
      cases found
      have stops : head = separator := by
        have here := List.head?_dropWhile_not (· != separator) text.toList
        rw [below] at here
        simpa using here
      subst stops
      refine ⟨String.toList_inj.mp ?_, ?_⟩
      · simp [← below]
      · intro listed
        rw [String.toList_ofList] at listed
        have differs := mem_takeWhile_imp listed
        simp at differs
  · rintro ⟨rfl, outside⟩
    have passes : ∀ char ∈ front.toList, (char != separator) = true := by
      intro char listed
      simpa using ne_of_mem_of_not_mem listed outside
    simp [dropWhile_append_of_pos passes, takeWhile_append_of_pos passes]

theorem splitOnce_eq_none : splitOnce separator text = none ↔ separator ∉ text.toList := by
  rw [splitOnce]
  constructor
  · intro missing listed
    split at missing
    · case _ gone =>
      have passes := List.dropWhile_eq_nil_iff.mp gone separator listed
      simp at passes
    · cases missing
  · intro outside
    have gone : text.toList.dropWhile (· != separator) = [] := by
      rw [dropWhile_eq_nil_iff]
      intro char listed
      simpa using ne_of_mem_of_not_mem listed outside
    rw [gone]

/-- Text without whitespace has nothing to trim. -/
theorem trim_of_forall (solid : ∀ char ∈ text.toList, isWhitespace char = false) :
    trim text = text := by
  have front : text.toList.dropWhile isWhitespace = text.toList := by
    rw [dropWhile_eq_self_iff]
    intro some_
    simpa using solid _ (getElem_mem some_)
  have back : text.toList.rdropWhile isWhitespace = text.toList := by
    rw [rdropWhile_eq_self_iff]
    intro some_
    simpa using solid _ (getLast_mem some_)
  rw [trim, front, back, String.ofList_toList]

theorem split_append (separator : Char) (front back : String) :
    split separator (front ++ (String.singleton separator ++ back)) =
      split separator front ++ split separator back := by
  simp [split, splitOn_append_cons_self]

section Joined

variable {separator : Char} {front back : List (List Char)} {text : List Char}

/-- A join splits where its parts do. -/
theorem intercalate_append (some_ : front ≠ []) (more : back ≠ []) :
    [separator].intercalate (front ++ back) =
      [separator].intercalate front ++ separator :: [separator].intercalate back := by
  induction front with
  | nil => exact absurd rfl some_
  | cons first rest ih =>
    cases rest with
    | nil =>
      obtain ⟨next, later, rfl⟩ := exists_cons_of_ne_nil more
      simp [intercalate_cons_cons]
    | cons second rest =>
      have tail := ih (by simp)
      rw [cons_append] at tail
      rw [cons_append, cons_append, intercalate_cons_cons, tail, intercalate_cons_cons]
      simp

/-- The pieces hold, in order, whatever does not separate them. -/
theorem flatten_splitOnP {α : Type*} (separates : α → Bool) (items : List α) :
    (items.splitOnP separates).flatten = items.filter (!separates ·) := by
  induction items with
  | nil => simp
  | cons item items ih =>
    rw [splitOnP_cons_eq_if_modifyHead]
    split
    · simp [*]
    · obtain ⟨piece, pieces, split⟩ := exists_cons_of_ne_nil (splitOnP_ne_nil separates items)
      rw [split] at ih ⊢
      rw [modifyHead_cons, flatten_cons, cons_append, ← flatten_cons, ih]
      simp [*]

theorem mem_of_mem_splitOnP {α : Type*} {separates : α → Bool} {items piece : List α} {item : α}
    (listed : piece ∈ items.splitOnP separates) (member : item ∈ piece) :
    item ∈ items ∧ separates item = false := by
  have within := mem_flatten.mpr ⟨piece, listed, member⟩
  simpa [flatten_splitOnP] using within

theorem mem_splitOn (separator : Char) {char : Char} (member : char ∈ text) :
    char = separator ∨ ∃ piece ∈ text.splitOn separator, char ∈ piece := by
  rw [← mem_flatten, List.splitOn, flatten_splitOnP]
  by_cases same : char = separator <;> simp [same, member]

theorem not_mem_of_mem_splitOn {piece : List Char} (listed : piece ∈ text.splitOn separator) :
    separator ∉ piece := by
  intro member
  simpa using (mem_of_mem_splitOnP listed member).2

theorem splitOnP_congr {α : Type} {items : List α} {first second : α → Bool}
    (agree : ∀ item ∈ items, first item = second item) :
    items.splitOnP first = items.splitOnP second := by
  induction items with
  | nil => rfl
  | cons item items ih =>
    obtain ⟨own, others⟩ := List.forall_mem_cons.mp agree
    rw [splitOnP_cons_eq_if_modifyHead, splitOnP_cons_eq_if_modifyHead, own, ih others]

end Joined

end Foundation.Text
