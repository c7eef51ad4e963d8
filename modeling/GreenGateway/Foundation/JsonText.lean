import GreenGateway.Foundation.Json

/-! The compact text of a JSON value and a reader for it: a value whose numbers are
plain digits is read back from its text. -/

namespace Foundation.Json

open List

section Writing

def hexDigit (value : Nat) : Char :=
  if value < 10 then Char.ofNat ('0'.toNat + value) else Char.ofNat ('a'.toNat + (value - 10))

/-- A character as a JSON string spells it. -/
def escape (char : Char) : List Char :=
  if char = '"' then ['\\', '"']
  else if char = '\\' then ['\\', '\\']
  else if char = '\x08' then ['\\', 'b']
  else if char = '\t' then ['\\', 't']
  else if char = '\n' then ['\\', 'n']
  else if char = '\x0c' then ['\\', 'f']
  else if char = '\r' then ['\\', 'r']
  else if char.toNat < 0x20 then
    ['\\', 'u', '0', '0', hexDigit (char.toNat / 16), hexDigit (char.toNat % 16)]
  else [char]

def quoted (text : String) : List Char := '"' :: (text.toList.flatMap escape ++ ['"'])

/-- The parts of an array or an object, with commas between them. -/
def separated : List (List Char) → List Char
  | [] => []
  | [part] => part
  | part :: next :: rest => part ++ ',' :: separated (next :: rest)

def member (name : String) (text : List Char) : List Char := quoted name ++ ':' :: text

mutual

/-- The text of a value, without insignificant whitespace. -/
def text : Json → List Char
  | .null => ['n', 'u', 'l', 'l']
  | .bool true => ['t', 'r', 'u', 'e']
  | .bool false => ['f', 'a', 'l', 's', 'e']
  | .number digits => digits.toList
  | .string value => quoted value
  | .array items => '[' :: (separated (itemTexts items) ++ [']'])
  | .object members => '\x7b' :: (separated (memberTexts members) ++ ['\x7d'])

def itemTexts : List Json → List (List Char)
  | [] => []
  | item :: rest => item.text :: itemTexts rest

def memberTexts : List (String × Json) → List (List Char)
  | [] => []
  | (name, value) :: rest => member name value.text :: memberTexts rest

end

theorem memberTexts_eq (members : List (String × Json)) :
    memberTexts members = members.map fun entry => member entry.1 entry.2.text := by
  induction members with
  | nil => rfl
  | cons head rest ih => rw [memberTexts, ih, map_cons]

mutual

/-- Every number of a value is a run of digits. -/
def Plain : Json → Prop
  | .null | .bool _ | .string _ => True
  | .number digits => digits.toList ≠ [] ∧ ∀ char ∈ digits.toList, char.isDigit = true
  | .array items => PlainItems items
  | .object members => PlainMembers members

def PlainItems : List Json → Prop
  | [] => True
  | item :: rest => item.Plain ∧ PlainItems rest

def PlainMembers : List (String × Json) → Prop
  | [] => True
  | (_, value) :: rest => value.Plain ∧ PlainMembers rest

end

end Writing

section Reading

def hexValue (char : Char) : Option Nat :=
  if char.isDigit then some (char.toNat - '0'.toNat)
  else if 'a' ≤ char ∧ char ≤ 'f' then some (char.toNat - 'a'.toNat + 10)
  else none

/-- The character an escape stands for, and what follows it. -/
def readEscape : List Char → Option (Char × List Char)
  | 'b' :: rest => some ('\x08', rest)
  | 't' :: rest => some ('\t', rest)
  | 'n' :: rest => some ('\n', rest)
  | 'f' :: rest => some ('\x0c', rest)
  | 'r' :: rest => some ('\r', rest)
  | '"' :: rest => some ('"', rest)
  | '\\' :: rest => some ('\\', rest)
  | 'u' :: '0' :: '0' :: high :: low :: rest => do
    let high ← hexValue high
    let low ← hexValue low
    some (Char.ofNat (16 * high + low), rest)
  | _ => none

/-- The characters up to the closing quote. -/
def readChars : Nat → List Char → Option (List Char × List Char)
  | 0, _ => none
  | _ + 1, [] => none
  | fuel + 1, head :: rest =>
    if head = '"' then some ([], rest)
    else if head = '\\' then do
      let (char, rest) ← readEscape rest
      let (chars, rest) ← readChars fuel rest
      some (char :: chars, rest)
    else do
      let (chars, rest) ← readChars fuel rest
      some (head :: chars, rest)

def readQuoted (chars : List Char) : Option (String × List Char) :=
  match chars with
  | '"' :: rest => (readChars (rest.length + 1) rest).map fun (chars, rest) =>
      (String.ofList chars, rest)
  | _ => none

/-- What follows an expected word. -/
def afterWord (word chars : List Char) : Option (List Char) :=
  if word.isPrefixOf chars then some (chars.drop word.length) else none

mutual

def readValue : Nat → List Char → Option (Json × List Char)
  | 0, _ => none
  | _ + 1, [] => none
  | fuel + 1, head :: rest =>
    if head = '"' then (readQuoted (head :: rest)).map fun (text, rest) => (.string text, rest)
    else if head = '[' then
      if rest.head? = some ']' then some (.array [], rest.tail)
      else (readItems fuel rest).map fun (items, rest) => (.array items, rest)
    else if head = '\x7b' then
      if rest.head? = some '\x7d' then some (.object [], rest.tail)
      else (readMembers fuel rest).map fun (members, rest) => (.object members, rest)
    else if head.isDigit then
      let digits := (head :: rest).takeWhile Char.isDigit
      some (.number (String.ofList digits), (head :: rest).dropWhile Char.isDigit)
    else if head = 'n' then (afterWord ['u', 'l', 'l'] rest).map fun rest => (.null, rest)
    else if head = 't' then (afterWord ['r', 'u', 'e'] rest).map fun rest => (.bool true, rest)
    else (afterWord ['f', 'a', 'l', 's', 'e'] (head :: rest)).map fun rest => (.bool false, rest)

def readItems : Nat → List Char → Option (List Json × List Char)
  | 0, _ => none
  | fuel + 1, chars => do
    let (item, rest) ← readValue fuel chars
    if rest.head? = some ']' then some ([item], rest.tail)
    else if rest.head? = some ',' then
      (readItems fuel rest.tail).map fun (items, rest) => (item :: items, rest)
    else none

def readMembers : Nat → List Char → Option (List (String × Json) × List Char)
  | 0, _ => none
  | fuel + 1, chars => do
    let (name, rest) ← readQuoted chars
    let rest ← afterWord [':'] rest
    let (value, rest) ← readValue fuel rest
    if rest.head? = some '\x7d' then some ([(name, value)], rest.tail)
    else if rest.head? = some ',' then
      (readMembers fuel rest.tail).map fun (members, rest) => ((name, value) :: members, rest)
    else none

end

/-- The value a whole text spells. -/
def read (chars : List Char) : Option Json :=
  match readValue chars.length chars with
  | some (value, []) => some value
  | _ => none

end Reading

section RoundTrip

theorem hexValue_hexDigit : ∀ value < 16, hexValue (hexDigit value) = some value := by
  decide

theorem readChars_backslash {char : Char} {spelled rest : List Char} (fuel : Nat)
    (escapes : readEscape (spelled ++ rest) = some (char, rest)) :
    readChars (fuel + 1) ('\\' :: spelled ++ rest) =
      (readChars fuel rest).map fun (chars, rest) => (char :: chars, rest) := by
  have apart : '\\' ≠ '"' := by decide
  simp only [cons_append, readChars, escapes, apart, if_false, if_true,
    Option.bind_eq_bind, Option.bind_some]
  cases readChars fuel rest <;> rfl

/-- A spelled character is read back, whatever follows. -/
theorem readChars_escape (char : Char) (fuel : Nat) (rest : List Char) :
    readChars (fuel + 1) (escape char ++ rest) =
      (readChars fuel rest).map fun (chars, rest) => (char :: chars, rest) := by
  unfold escape
  split_ifs with quote slash backspace tab newline feed carriage control
  · exact readChars_backslash fuel (by rw [quote]; rfl)
  · exact readChars_backslash fuel (by rw [slash]; rfl)
  · exact readChars_backslash fuel (by rw [backspace]; rfl)
  · exact readChars_backslash fuel (by rw [tab]; rfl)
  · exact readChars_backslash fuel (by rw [newline]; rfl)
  · exact readChars_backslash fuel (by rw [feed]; rfl)
  · exact readChars_backslash fuel (by rw [carriage]; rfl)
  · refine readChars_backslash fuel ?_
    have high := hexValue_hexDigit (char.toNat / 16) (by omega)
    have low := hexValue_hexDigit (char.toNat % 16) (by omega)
    have value : Char.ofNat (16 * (char.toNat / 16) + char.toNat % 16) = char := by
      rw [Nat.div_add_mod]
      exact Char.ofNat_toNat char
    simp [readEscape, high, low, value]
  · simp only [cons_append, nil_append, readChars, quote, slash, if_false]
    cases readChars fuel rest <;> rfl

theorem readChars_spelled (chars : List Char) (rest : List Char) {fuel : Nat}
    (enough : chars.length < fuel) :
    readChars fuel (chars.flatMap escape ++ '"' :: rest) = some (chars, rest) := by
  induction chars generalizing fuel with
  | nil =>
    obtain ⟨fuel, rfl⟩ := Nat.exists_eq_add_of_lt enough
    simp [readChars]
  | cons head chars ih =>
    obtain ⟨fuel, rfl⟩ : ∃ inner, fuel = inner + 1 := ⟨fuel - 1, by simp at enough; omega⟩
    rw [flatMap_cons, append_assoc, readChars_escape]
    rw [ih (by simpa using enough)]
    rfl

theorem length_le_flatMap_escape (chars : List Char) :
    chars.length ≤ (chars.flatMap escape).length := by
  induction chars with
  | nil => simp
  | cons head chars ih =>
    have spelled : 1 ≤ (escape head).length := by
      unfold escape
      split_ifs <;> simp
    simp only [length_cons, flatMap_cons, length_append]
    omega

theorem readQuoted_quoted (text : String) (rest : List Char) :
    readQuoted (quoted text ++ rest) = some (text, rest) := by
  have enough : text.toList.length <
      (text.toList.flatMap escape ++ '"' :: rest).length + 1 := by
    have := length_le_flatMap_escape text.toList
    simp only [length_append, length_cons]
    omega
  simp only [quoted, cons_append, append_assoc, nil_append, readQuoted,
    readChars_spelled _ rest enough, Option.map_some, String.ofList_toList]

/-- What may follow a number. -/
def Delimited (rest : List Char) : Prop := ∀ char, rest.head? = some char → char.isDigit = false

theorem digits_taken {digits rest : List Char} (all : ∀ char ∈ digits, char.isDigit = true)
    (delimited : Delimited rest) :
    (digits ++ rest).takeWhile Char.isDigit = digits ∧
      (digits ++ rest).dropWhile Char.isDigit = rest := by
  have stops : rest.takeWhile Char.isDigit = [] ∧ rest.dropWhile Char.isDigit = rest := by
    cases rest with
    | nil => simp
    | cons head rest => simp [delimited head rfl]
  rw [takeWhile_append_of_pos all, dropWhile_append_of_pos all]
  simp [stops.1, stops.2]

/-- A value's text is not empty and begins no end of an array or an object. -/
theorem text_head (value : Json) (plain : value.Plain) :
    ∃ head rest, value.text = head :: rest ∧ head ≠ ']' ∧ head ≠ '\x7d' := by
  cases value with
  | null => exact ⟨_, _, rfl, by decide, by decide⟩
  | bool value => cases value <;> exact ⟨_, _, rfl, by decide, by decide⟩
  | string value => exact ⟨_, _, rfl, by decide, by decide⟩
  | array items => exact ⟨_, _, rfl, by decide, by decide⟩
  | object members => exact ⟨_, _, rfl, by decide, by decide⟩
  | number digits =>
    obtain ⟨nonempty, all⟩ := plain
    obtain ⟨head, rest, split⟩ := exists_cons_of_ne_nil nonempty
    refine ⟨head, rest, split, ?_, ?_⟩ <;>
    · rintro rfl
      have := all _ (by rw [split]; exact mem_cons_self ..)
      simp at this

theorem readValue_number {digits : List Char} (fuel : Nat) {rest : List Char}
    (nonempty : digits ≠ []) (all : ∀ char ∈ digits, char.isDigit = true)
    (delimited : Delimited rest) :
    readValue (fuel + 1) (digits ++ rest) = some (.number (String.ofList digits), rest) := by
  obtain ⟨head, tail, rfl⟩ := exists_cons_of_ne_nil nonempty
  obtain ⟨taken, dropped⟩ := digits_taken all delimited
  have digit := all head (mem_cons_self ..)
  have apart (char : Char) (other : char.isDigit = false) : head ≠ char := by
    rintro rfl
    rw [digit] at other
    cases other
  rw [cons_append] at taken dropped ⊢
  simp only [readValue, apart '"' (by decide), apart '[' (by decide), apart '\x7b' (by decide),
    digit, taken, dropped, if_false, if_true]

mutual

theorem readValue_text : ∀ (value : Json) (_ : value.Plain) (fuel : Nat) (rest : List Char)
    (_ : value.text.length ≤ fuel) (_ : Delimited rest),
    readValue fuel (value.text ++ rest) = some (value, rest)
  | value, plain, 0, rest, enough, delimited => by
    obtain ⟨head, tail, split, -⟩ := text_head value plain
    simp [split] at enough
  | .null, _, fuel + 1, rest, _, _ => by simp [text, readValue, afterWord]
  | .bool true, _, fuel + 1, rest, _, _ => by simp [text, readValue, afterWord]
  | .bool false, _, fuel + 1, rest, _, _ => by simp [text, readValue, afterWord]
  | .number digits, plain, fuel + 1, rest, _, delimited => by
    rw [text, readValue_number fuel plain.1 plain.2 delimited, String.ofList_toList]
  | .string value, _, fuel + 1, rest, _, _ => by
    have spelled := readQuoted_quoted value rest
    rw [quoted, cons_append] at spelled
    rw [text, quoted, cons_append, readValue, if_pos rfl, spelled]
    rfl
  | .array [], _, fuel + 1, rest, _, _ => by simp [text, itemTexts, separated, readValue]
  | .array (item :: items), plain, fuel + 1, rest, enough, _ => by
    obtain ⟨head, tail, split, notEnd, -⟩ := text_head item plain.1
    have inner := readItems_text item items plain fuel rest
      (by simp [text, itemTexts] at enough ⊢; omega)
    have first : (separated (itemTexts (item :: items)) ++ ']' :: rest).head? = some head := by
      cases items <;> simp [itemTexts, separated, split]
    simp only [text, cons_append, append_assoc, nil_append, readValue, first]
    simp [notEnd, inner]
  | .object [], _, fuel + 1, rest, _, _ => by simp [text, memberTexts, separated, readValue]
  | .object ((name, value) :: members), plain, fuel + 1, rest, enough, _ => by
    have inner := readMembers_text name value members plain fuel rest
      (by simp [text, memberTexts] at enough ⊢; omega)
    have first : (separated (memberTexts ((name, value) :: members)) ++ '\x7d' :: rest).head? =
        some '"' := by
      cases members <;> simp [memberTexts, separated, member, quoted]
    simp only [text, cons_append, append_assoc, nil_append, readValue, first]
    simp [inner]

theorem readItems_text : ∀ (item : Json) (items : List Json) (_ : PlainItems (item :: items))
    (fuel : Nat) (rest : List Char) (_ : (separated (itemTexts (item :: items))).length < fuel),
    readItems fuel (separated (itemTexts (item :: items)) ++ ']' :: rest) =
      some (item :: items, rest)
  | _, _, _, 0, _, enough => by omega
  | item, [], plain, fuel + 1, rest, enough => by
    have own := readValue_text item plain.1 fuel (']' :: rest)
      (by simpa [itemTexts, separated, Nat.lt_succ_iff] using enough) (by simp [Delimited])
    simp [itemTexts, separated, readItems, own]
  | item, next :: items, plain, fuel + 1, rest, enough => by
    have size : (separated (itemTexts (item :: next :: items))).length =
        item.text.length + 1 + (separated (itemTexts (next :: items))).length := by
      simp [itemTexts, separated]
      omega
    obtain ⟨head, tail, split, -⟩ := text_head item plain.1
    have positive : 0 < item.text.length := by simp [split]
    have own := readValue_text item plain.1 fuel
      (',' :: (separated (itemTexts (next :: items)) ++ ']' :: rest)) (by omega)
      (by simp [Delimited])
    have others := readItems_text next items plain.2 fuel rest (by omega)
    have opened : separated (itemTexts (item :: next :: items)) ++ ']' :: rest =
        item.text ++ ',' :: (separated (itemTexts (next :: items)) ++ ']' :: rest) := by
      simp [itemTexts, separated]
    rw [opened, readItems, own]
    simp [others]

theorem readMembers_text : ∀ (name : String) (value : Json) (members : List (String × Json))
    (_ : PlainMembers ((name, value) :: members)) (fuel : Nat) (rest : List Char)
    (_ : (separated (memberTexts ((name, value) :: members))).length < fuel),
    readMembers fuel (separated (memberTexts ((name, value) :: members)) ++ '\x7d' :: rest) =
      some ((name, value) :: members, rest)
  | _, _, _, _, 0, _, enough => by omega
  | name, value, [], plain, fuel + 1, rest, enough => by
    have own := readValue_text value plain.1 fuel ('\x7d' :: rest)
      (by simp [memberTexts, separated, member] at enough; omega) (by simp [Delimited])
    have named := readQuoted_quoted name (':' :: (value.text ++ '\x7d' :: rest))
    simp [memberTexts, separated, member, readMembers, named, afterWord, own]
  | name, value, next :: members, plain, fuel + 1, rest, enough => by
    obtain ⟨other, following⟩ := next
    have size : (separated (memberTexts ((name, value) :: (other, following) :: members))).length =
        (quoted name).length + 1 + value.text.length + 1 +
          (separated (memberTexts ((other, following) :: members))).length := by
      simp [memberTexts, separated, member]
      omega
    have own := readValue_text value plain.1 fuel
      (',' :: (separated (memberTexts ((other, following) :: members)) ++ '\x7d' :: rest))
      (by omega) (by simp [Delimited])
    have others := readMembers_text other following members plain.2 fuel rest (by omega)
    have named := readQuoted_quoted name (':' :: (value.text ++
      ',' :: (separated (memberTexts ((other, following) :: members)) ++ '\x7d' :: rest)))
    have opened :
        separated (memberTexts ((name, value) :: (other, following) :: members)) ++ '\x7d' :: rest =
          quoted name ++ ':' :: (value.text ++
            ',' :: (separated (memberTexts ((other, following) :: members)) ++ '\x7d' :: rest)) := by
      simp [memberTexts, separated, member]
    rw [opened, readMembers, named]
    simp [afterWord, own, others]

end

theorem read_text (value : Json) (plain : value.Plain) : read value.text = some value := by
  have whole := readValue_text value plain value.text.length [] le_rfl (by simp [Delimited])
  rw [append_nil] at whole
  simp [read, whole]

end RoundTrip

end Foundation.Json
