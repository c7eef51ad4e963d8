import GreenGateway.Config.CanonicalForm
import GreenGateway.Config.StrictSound

/-! The strict reader refuses no document the grammar derives and the bounds allow, so it
accepts exactly those. -/

namespace GreenGateway.Config.Parser

open Foundation Grammar List

section Characters

variable {parser : Parser} {char : Char} {rest skipped : List Char}

@[simp] theorem bump_rest (parser : Parser) : parser.bump.2.rest = parser.rest.tail := by
  obtain ⟨rest, position, nodes⟩ := parser
  cases rest <;> rfl

theorem bump_tail (at_ : parser.rest = char :: rest) : parser.bump.2.rest = rest := by
  rw [bump_rest, at_, tail_cons]

theorem bump_of_cons (at_ : parser.rest = char :: rest) : parser.bump =
    (some char, parser.bump.2) := by
  obtain ⟨chars, position, nodes⟩ := parser
  subst at_
  rfl

theorem expect_of_head (first : parser.rest.head? = some char) :
    parser.expect char = .ok parser.bump.2 := by
  rw [expect, if_pos first]

theorem skipFrom_append (keep : Char → Bool) (all : ∀ char ∈ skipped, keep char = true)
    (stops : ∀ char, rest.head? = some char → keep char = false) (position : Position) :
    (skipFrom keep (skipped ++ rest) position).1 = rest := by
  induction skipped generalizing position with
  | nil =>
    cases rest with
    | nil => rfl
    | cons char rest => simp [skipFrom, stops char rfl]
  | cons char skipped ih =>
    rw [forall_mem_cons] at all
    simpa [skipFrom, all.1] using ih all.2 (position.after char)

theorem skipWhile_rest (keep : Char → Bool)
    (at_ : parser.rest = skipped ++ rest) (all : ∀ char ∈ skipped, keep char = true)
    (stops : ∀ char, rest.head? = some char → keep char = false) :
    (parser.skipWhile keep).rest = rest := by
  change (skipFrom keep parser.rest parser.position).1 = rest
  rw [at_]
  exact skipFrom_append keep all stops parser.position

/-- Text that no whitespace begins. -/
def Visible (rest : List Char) : Prop := ∀ char, rest.head? = some char → char ∉
    [' ', '\t', '\n', '\r']

theorem visible_cons (visible : char ∉ [' ', '\t', '\n', '\r']) : Visible (char :: rest) := by
  intro head first
  rwa [← Option.some.inj first]

/-- The whitespace a derivation passes over is what the reader skips. -/
theorem skipWhitespace_complete (skips : Whitespace parser.rest rest) (visible : Visible rest) :
    parser.skipWhitespace.rest = rest := by
  obtain ⟨skipped, blank, at_⟩ := skips
  refine skipWhile_rest _ at_ (fun char member => (isWhitespace_iff char).mpr (blank char member)) ?_
  intro char first
  rw [← Bool.not_eq_true, isWhitespace_iff]
  exact visible char first

theorem skipFrom_of_stops {keep : Char → Bool}
    (stops : ∀ char, rest.head? = some char → keep char = false) (position : Position) :
    skipFrom keep rest position = (rest, position) := by
  cases rest with
  | nil => rfl
  | cons char rest => rw [skipFrom, stops char rfl]; rfl

theorem skipWhitespace_idem (parser : Parser) :
    parser.skipWhitespace.skipWhitespace = parser.skipWhitespace := by
  obtain ⟨-, -, -, stops⟩ := skipWhile_split
    (fun char => char == ' ' || char == '\t' || char == '\n' || char == '\r') parser
  have same := skipFrom_of_stops stops parser.skipWhitespace.position
  exact congrArg (fun stopped : List Char × Position =>
    ({ parser.skipWhitespace with rest := stopped.1, position := stopped.2 } : Parser)) same

theorem whitespace_length {input : List Char} (skips : Whitespace input rest) :
    rest.length ≤ input.length := by
  obtain ⟨skipped, -, rfl⟩ := skips
  rw [length_append]
  omega

end Characters

section Strings

variable {parser : Parser} {char : Char} {more digits decoded input rest : List Char}
  {position start : Position} {code : Nat} {limits : Limits}

theorem hexadecimal_lt {start : Nat}
    (spelled : Hexadecimal start digits code) : code < (start + 1) * 16 ^ digits.length := by
  obtain ⟨values, each, rfl⟩ := spelled
  induction each generalizing start with
  | nil => simp
  | @cons char value digits values digit each ih =>
    have small := digit.1
    calc (values.foldl (fun code value => code * 16 + value) (start * 16 + value))
        < (start * 16 + value + 1) * 16 ^ digits.length := ih
      _ ≤ ((start + 1) * 16) * 16 ^ digits.length := Nat.mul_le_mul_right _ (by omega)
      _ = (start + 1) * 16 ^ (char :: digits).length := by
        rw [length_cons, Nat.pow_succ', Nat.mul_assoc]

theorem hexDigits_complete {start : Nat}
    (spelled : Hexadecimal start digits code) (at_ : parser.rest = digits ++ more) :
    ∃ after : Parser, after.rest = more ∧
      hexDigits digits.length start parser = .ok (code, after) := by
  obtain ⟨values, each, rfl⟩ := spelled
  induction each generalizing start parser with
  | nil => exact ⟨parser, at_, rfl⟩
  | @cons char value digits values digit each ih =>
    have next : parser.bump.2.rest = digits ++ more := bump_tail at_
    obtain ⟨after, done, read⟩ : ∃ after : Parser, after.rest = more ∧
        hexDigits digits.length (start * 16 + value) parser.bump.2 = _ := ih next
    refine ⟨after, done, ?_⟩
    rw [length_cons, hexDigits, at_, cons_append, List.head?_cons, Option.bind_some,
      toDigit16_eq_some.mpr digit]
    exact read

theorem hex4_complete (unit : Unit16 digits code) (at_ : parser.rest = digits ++ more) :
    ∃ after : Parser, after.rest = more ∧ parser.hex4 = .ok (code, after) := by
  obtain ⟨after, done, read⟩ := hexDigits_complete unit.2 at_
  rw [unit.1] at read
  exact ⟨after, done, read⟩

theorem unit16_lt (unit : Unit16 digits code) : code < 65536 := by
  have small := hexadecimal_lt unit.2
  rw [unit.1] at small
  exact small

theorem fromU32_of_valid (valid : code.isValidChar) : fromU32 code = some (Char.ofNat code) := by
  rw [fromU32, if_pos valid]

theorem unicode_scalar (unit : Unit16 digits code)
    (alone : ¬ (0xd800 ≤ code ∧ code ≤ 0xdfff)) (at_ : parser.rest = digits ++ more) :
    ∃ after : Parser, after.rest = more ∧
      parser.unicode position = .ok (Char.ofNat code, after) := by
  obtain ⟨after, done, read⟩ := hex4_complete unit at_
  have small := unit16_lt unit
  have valid : code.isValidChar := by
    unfold Nat.isValidChar
    omega
  refine ⟨after, done, bind_eq_ok.mpr ⟨(code, after), read, ?_⟩⟩
  dsimp only
  rw [if_neg (by omega), if_neg (by omega)]
  exact bind_eq_ok.mpr ⟨Char.ofNat code, okOr_eq_ok.mpr (fromU32_of_valid valid), rfl⟩

theorem unicode_pair {digits' : List Char} {high low : Nat} (first : Unit16 digits high)
    (isHigh : 0xd800 ≤ high ∧ high ≤ 0xdbff) (second : Unit16 digits' low)
    (isLow : 0xdc00 ≤ low ∧ low ≤ 0xdfff)
    (at_ : parser.rest = digits ++ '\\' :: 'u' :: (digits' ++ more)) :
    ∃ after : Parser, after.rest = more ∧ parser.unicode position =
      .ok (Char.ofNat (0x10000 + (high - 0xd800) * 0x400 + (low - 0xdc00)), after) := by
  obtain ⟨middle, slash, read⟩ := hex4_complete first at_
  have letter := bump_tail slash
  have last := bump_tail letter
  obtain ⟨after, done, read'⟩ := hex4_complete second last
  have valid : (0x10000 + (high - 0xd800) * 0x400 + (low - 0xdc00)).isValidChar := by
    unfold Nat.isValidChar
    omega
  refine ⟨after, done, bind_eq_ok.mpr ⟨(high, middle), read, ?_⟩⟩
  dsimp only
  rw [if_pos isHigh]
  simp only [bind_eq_ok, unit_exists_ok, refuse_eq_ok, bne_eq_false_iff_eq, okOr_eq_ok,
    Prod.exists, Bool.not_eq_false', decide_eq_true_eq, Except.ok.injEq, Prod.mk.injEq]
  exact ⟨by rw [bump_of_cons slash], by rw [bump_of_cons letter], low, after, read', isLow, _,
    fromU32_of_valid valid, rfl, rfl⟩

theorem escape_simple {letter : Char} (position : Position) (at_ : parser.rest = letter :: more)
    (listed : (letter, char) ∈ escapes) : parser.escape position = .ok (char, parser.bump.2) := by
  have plain : letter ≠ 'u' := by
    rintro rfl
    revert listed
    simp [escapes]
  rw [escape, bump_of_cons at_]
  simp only [if_neg plain, simpleEscape_eq_some.mpr listed]

theorem escape_unicode {result : Except ReadError (Char × Parser)} (at_ : parser.rest = 'u' :: more)
    (read : parser.bump.2.unicode position = result) : parser.escape position = result := by
  rw [escape, bump_of_cons at_]
  exact read

theorem stringFrom_backslash {fuel : Nat} {out : List Char}
    {after : Parser} (fits : Within limits.stringBytes (Text.len (String.ofList out)))
    (at_ : parser.rest = '\\' :: more)
    (escapes : parser.bump.2.escape parser.position = .ok (char, after)) :
    stringFrom limits start (fuel + 1) out parser =
      stringFrom limits start fuel (out ++ [char]) after := by
  have apart : '\\' ≠ '"' := by decide
  simp only [stringFrom, stringOverflows_eq_false.mpr fits, Bool.false_eq_true, if_false, at_,
    apart,
    if_true, escapes, bind, Except.bind]

theorem within_le {maximum : Option Nat} {count bound : Nat} (within : Within maximum bound)
    (le : count ≤ bound) : Within maximum count :=
  fun limit held => le.trans (within limit held)

theorem chars_length (chars : Chars decoded input rest) :
    decoded.length + rest.length < input.length := by
  induction chars with
  | close => simp
  | unescaped _ _ ih => simpa [Nat.add_right_comm] using ih
  | escaped _ _ ih => simp only [length_cons]; omega
  | scalar _ _ _ ih => simp only [length_cons, length_append]; omega
  | pair _ _ _ _ _ ih => simp only [length_cons, length_append]; omega

/-- The reader decodes `decoded` from `input`, whatever it decoded before. -/
def Decodes (limits : Limits) (start : Position) (decoded input rest : List Char) : Prop :=
  ∀ (fuel : Nat) (out : List Char) (parser : Parser), decoded.length < fuel →
    Within limits.stringBytes (Text.len (String.ofList (out ++ decoded))) → parser.rest = input →
    ∃ after : Parser, after.rest = rest ∧
      stringFrom limits start fuel out parser = .ok (String.ofList (out ++ decoded), after)

/-- One character, and those after it. -/
theorem decodes_cons {next : List Char} (step : ∀ (fuel : Nat) (out : List Char) (parser : Parser),
      Within limits.stringBytes (Text.len (String.ofList out)) → parser.rest = input →
      ∃ after : Parser, after.rest = next ∧ stringFrom limits start (fuel + 1) out parser =
        stringFrom limits start fuel (out ++ [char]) after)
    (decodes : Decodes limits start decoded next rest) :
    Decodes limits start (char :: decoded) input rest := by
  intro fuel out parser enough fits at_
  cases fuel with
  | zero => cases enough
  | succ fuel =>
    have before : Within limits.stringBytes (Text.len (String.ofList out)) :=
      within_le fits (by
        simp only [Text.len, String.ofList_append, String.utf8ByteSize_append]
        omega)
    obtain ⟨middle, left, stepped⟩ := step fuel out parser before at_
    rw [append_cons] at fits ⊢
    obtain ⟨after, done, read⟩ :=
      decodes fuel (out ++ [char]) middle (Nat.lt_of_succ_lt_succ enough) fits left
    exact ⟨after, done, stepped.trans read⟩

/-- The characters up to the closing quotation mark are decoded. -/
theorem stringFrom_complete (limits : Limits) (start : Position)
    (chars : Chars decoded input rest) : Decodes limits start decoded input rest := by
  induction chars with
  | close =>
    intro fuel out parser enough fits at_
    obtain ⟨fuel, rfl⟩ := Nat.exists_eq_add_of_lt enough
    rw [append_nil] at fits ⊢
    refine ⟨parser.bump.2, bump_tail at_, ?_⟩
    simp only [stringFrom, stringOverflows_eq_false.mpr fits, Bool.false_eq_true, if_false, at_,
      if_true]
  | unescaped plain _ ih =>
    refine decodes_cons (fun fuel out parser fits at_ => ?_) ih
    refine ⟨parser.bump.2, bump_tail at_, ?_⟩
    simp only [stringFrom, stringOverflows_eq_false.mpr fits, Bool.false_eq_true, if_false, at_,
      plain.2.1, plain.2.2, Nat.not_lt.mpr plain.1]
  | escaped listed _ ih =>
    refine decodes_cons (fun fuel out parser fits at_ => ?_) ih
    have letter := bump_tail at_
    exact ⟨parser.bump.2.bump.2, bump_tail letter,
      stringFrom_backslash fits at_ (escape_simple parser.position letter listed)⟩
  | scalar unit alone _ ih =>
    refine decodes_cons (fun fuel out parser fits at_ => ?_) ih
    have letter := bump_tail at_
    have digits := bump_tail letter
    obtain ⟨after, done, read⟩ := unicode_scalar unit alone digits
    exact ⟨after, done, stringFrom_backslash fits at_ (escape_unicode letter read)⟩
  | pair first isHigh second isLow _ ih =>
    refine decodes_cons (fun fuel out parser fits at_ => ?_) ih
    have letter := bump_tail at_
    have digits := bump_tail letter
    obtain ⟨after, done, read⟩ := unicode_pair first isHigh second isLow digits
    exact ⟨after, done, stringFrom_backslash fits at_ (escape_unicode letter read)⟩

theorem string_complete {text : String}
    (quoted : Quoted text parser.rest rest) (fits : Within limits.stringBytes (Text.len text)) :
    ∃ after : Parser, after.rest = rest ∧ after.nodes = parser.nodes ∧
      parser.string limits = .ok (text, after) := by
  generalize at_ : parser.rest = input at quoted
  obtain ⟨chars⟩ := quoted
  rename_i inner
  have opened : parser.expect '"' = .ok parser.bump.2 := expect_of_head (by rw [at_]; rfl)
  have inside : parser.bump.2.rest = inner := bump_tail at_
  have enough : text.toList.length < parser.bump.2.rest.length + 1 := by
    have shorter := chars_length chars
    rw [inside]
    omega
  obtain ⟨after, done, read⟩ := stringFrom_complete limits parser.position chars _ [] parser.bump.2
    enough (by rwa [nil_append, String.ofList_toList]) inside
  rw [nil_append, String.ofList_toList] at read
  have whole : parser.string limits = .ok (text, after) := bind_eq_ok.mpr ⟨_, opened, read⟩
  exact ⟨after, done, (string_sound whole).2.1, whole⟩

end Strings

section Numbers

variable {parser : Parser} {rest digits whole fraction sign exponent text : List Char} {value : Int}

/-- What may follow a number's text. -/
def Ends (rest : List Char) : Prop :=
  ∀ char, rest.head? = some char → char.isDigit = false ∧ char ∉ ['.', 'e', 'E']

/-- Text that no digit begins. -/
def NoDigit (rest : List Char) : Prop := ∀ char, rest.head? = some char → char.isDigit = false

theorem digits_complete (spelled : Digits digits)
    (at_ : parser.rest = digits ++ rest) (ends : NoDigit rest) :
    ∃ after : Parser, after.rest = rest ∧ parser.digits = .ok after := by
  refine ⟨parser.skipWhile Char.isDigit, skipWhile_rest _ at_ spelled.2 ends, ?_⟩
  obtain ⟨first, more, rfl⟩ := exists_cons_of_ne_nil spelled.1
  have leads : parser.rest.head?.any Char.isDigit = true := by
    rw [at_]
    exact spelled.2 first (mem_cons_self ..)
  rw [digits, if_pos leads]

theorem integerPart_complete (spelled : Whole whole)
    (at_ : parser.rest = whole ++ rest) (ends : NoDigit rest) :
    ∃ after : Parser, after.rest = rest ∧ parser.integerPart = .ok after := by
  cases spelled with
  | zero => exact ⟨parser.bump.2, bump_tail at_, by rw [integerPart, at_]; rfl⟩
  | digits leads significant digits =>
    refine ⟨parser.skipWhile Char.isDigit,
      skipWhile_rest _ at_ (List.forall_mem_cons.mpr ⟨leads, digits⟩) ends, ?_⟩
    rw [integerPart, at_, cons_append, List.head?_cons]
    dsimp only
    rw [if_neg significant, if_pos leads]

theorem fractionPart_complete (spelled : Fraction fraction)
    (at_ : parser.rest = fraction ++ rest) (ends : NoDigit rest) (whole : rest.head? ≠ some '.') :
    ∃ after : Parser, after.rest = rest ∧ parser.fractionPart = .ok after := by
  cases spelled with
  | absent =>
    rw [nil_append] at at_
    exact ⟨parser, at_, by rw [fractionPart, at_, if_neg whole]⟩
  | digits spelled =>
    obtain ⟨after, done, read⟩ := digits_complete spelled (bump_tail at_) ends
    refine ⟨after, done, ?_⟩
    rw [fractionPart, if_pos (by rw [at_]; rfl), read]

theorem skipSign_complete (signs : sign ∈ [[], ['+'], ['-']])
    (spelled : Digits digits) (at_ : parser.rest = sign ++ (digits ++ rest)) :
    parser.skipSign.rest = digits ++ rest := by
  simp only [mem_cons, not_mem_nil, or_false] at signs
  unfold skipSign
  rcases signs with rfl | rfl | rfl
  · obtain ⟨first, more, rfl⟩ := exists_cons_of_ne_nil spelled.1
    have digit := spelled.2 first (mem_cons_self ..)
    have unsigned : ¬(parser.rest.head? = some '+' ∨ parser.rest.head? = some '-') := by
      rw [at_]
      rintro (plus | minus)
      · rw [Option.some.inj plus] at digit
        cases digit
      · rw [Option.some.inj minus] at digit
        cases digit
    rw [if_neg unsigned, at_, nil_append]
  · rw [if_pos (.inl (by rw [at_]; rfl))]
    exact bump_tail at_
  · rw [if_pos (.inr (by rw [at_]; rfl))]
    exact bump_tail at_

theorem exponentPart_complete (spelled : Exponent exponent)
    (at_ : parser.rest = exponent ++ rest) (ends : Ends rest) :
    ∃ after : Parser, after.rest = rest ∧ parser.exponentPart = .ok after := by
  cases spelled with
  | absent =>
    rw [nil_append] at at_
    have unmarked : ¬(parser.rest.head? = some 'e' ∨ parser.rest.head? = some 'E') := by
      rw [at_]
      rintro (first | first)
      · exact (ends 'e' first).2 (by decide)
      · exact (ends 'E' first).2 (by decide)
    exact ⟨parser, at_, by rw [exponentPart, if_neg unmarked]⟩
  | @digits mark sign digits marks signs spelled =>
    have marked : parser.rest.head? = some 'e' ∨ parser.rest.head? = some 'E' := by
      rw [at_]
      exact marks.imp (congrArg some) (congrArg some)
    have inside : parser.bump.2.rest = sign ++ (digits ++ rest) := by
      exact (bump_tail at_).trans (append_assoc ..)
    obtain ⟨after, done, read⟩ :=
      digits_complete spelled (skipSign_complete signs spelled inside) fun char first =>
        (ends char first).1
    exact ⟨after, done, by rw [exponentPart, if_pos marked, read]⟩

theorem whole_head (spelled : Whole whole) :
    ∃ first more, whole = first :: more ∧ first.isDigit = true := by
  cases spelled with
  | zero => exact ⟨'0', [], rfl, rfl⟩
  | digits leads _ _ => exact ⟨_, _, rfl, leads⟩

theorem unsigned_complete (signs : sign = [] ∨ sign = ['-'])
    (spelled : Whole whole) (at_ : parser.rest = sign ++ (whole ++ rest)) :
    parser.unsigned.rest = whole ++ rest := by
  unfold unsigned
  rcases signs with rfl | rfl
  · obtain ⟨first, more, rfl, digit⟩ := whole_head spelled
    have positive : parser.rest.head? ≠ some '-' := by
      rw [at_]
      intro minus
      rw [Option.some.inj minus] at digit
      cases digit
    rw [if_neg positive, at_, nil_append]
  · rw [if_pos (by rw [at_]; rfl)]
    exact bump_tail at_

theorem exponent_follows (spelled : Exponent exponent) (ends : Ends rest) :
    NoDigit (exponent ++ rest) ∧ (exponent ++ rest).head? ≠ some '.' := by
  cases spelled with
  | absent => exact ⟨fun char first => (ends char first).1, fun point => (ends '.' point).2 (by decide)⟩
  | digits marks _ _ =>
    rcases marks with rfl | rfl <;>
      exact ⟨fun char first => by rw [← Option.some.inj first]; rfl, by simp⟩

theorem fraction_follows (spelled : Fraction fraction) (ends : NoDigit rest) :
    NoDigit (fraction ++ rest) := by
  cases spelled with
  | absent => exact ends
  | digits _ =>
    intro char first
    rw [← Option.some.inj first]
    rfl

theorem integerOf_mem (integer : integerOf text = some value)
    {char : Char} (member : char ∈ text) : char.isDigit = true ∨ char = '-' := by
  by_contra other
  rw [not_or, Bool.not_eq_true] at other
  unfold integerOf at integer
  split at integer
  · rw [decimal?_of_mem ((List.mem_cons.mp member).resolve_left other.2) other.1] at integer
    cases integer
  · rw [decimal?_of_mem member other.1] at integer
    cases integer

/-- A fraction or an exponent leaves no integer to read. -/
theorem integerOf_whole (number : Number sign whole fraction exponent)
    (integer : integerOf (sign ++ (whole ++ (fraction ++ exponent))) = some value) :
    fraction = [] ∧ exponent = [] := by
  constructor
  · cases number.fraction with
    | absent => rfl
    | digits _ =>
      have point := integerOf_mem integer (by simp : '.' ∈ _)
      simp at point
  · cases number.exponent with
    | absent => rfl
    | digits marks _ _ =>
      rcases marks with rfl | rfl
      · have mark := integerOf_mem integer (by simp : 'e' ∈ _)
        simp at mark
      · have mark := integerOf_mem integer (by simp : 'E' ∈ _)
        simp at mark

theorem isJsonInteger_stripped {text : String}
    (stripped : ((Text.stripFront? text "-").getD text).toList = whole) (spelled : Whole whole) :
    isJsonInteger text = true := by
  unfold isJsonInteger
  rw [stripped]
  cases spelled with
  | zero => rfl
  | digits leads significant digits =>
    split
    · rename_i empty
      cases empty
    · rfl
    · rename_i split
      obtain ⟨rfl, rfl⟩ := List.cons.inj split
      simp only [leads, bne_iff_ne.mpr significant, List.all_eq_true.mpr digits, Bool.and_self]

theorem isJsonInteger_whole (signs : sign = [] ∨ sign = ['-'])
    (spelled : Whole whole) : isJsonInteger (String.ofList (sign ++ whole)) = true := by
  refine isJsonInteger_stripped ?_ spelled
  rcases signs with rfl | rfl
  · obtain ⟨first, more, rfl, digit⟩ := whole_head spelled
    have apart : first ≠ '-' := by
      rintro rfl
      cases digit
    have unsigned : Text.stripFront? (String.ofList (first :: more)) "-" = none := by
      simp [Text.stripFront?, Text.startsWith, List.isPrefixOf, apart.symm]
    rw [nil_append, unsigned, Option.getD_none, String.toList_ofList]
  · have signed : Text.stripFront? (String.ofList ('-' :: whole)) "-" = some (String.ofList whole) := by
      rw [Text.stripFront?_eq_some]
      exact String.toList_inj.mp (by simp)
    rw [singleton_append, signed, Option.getD_some, String.toList_ofList]

theorem number_complete {limits : Limits} (position : Position)
    (number : IsNumber text) (at_ : parser.rest = text ++ rest) (ends : Ends rest)
    (allowed : NumberAllowed limits.numbers (String.ofList text)) :
    ∃ (node : Node) (after : Parser), after.rest = rest ∧ after.nodes = parser.nodes ∧
      Represents limits.numbers node (.number (String.ofList text)) ∧
      parser.number limits position = .ok (node, after) := by
  obtain ⟨sign, whole, fraction, exponent, number, rfl⟩ := number
  have spelled : parser.rest = sign ++ (whole ++ (fraction ++ (exponent ++ rest))) := by
    rw [at_]
    simp
  obtain ⟨exponents, point⟩ := exponent_follows number.exponent ends
  have fractions := fraction_follows number.fraction exponents
  have unsigned := unsigned_complete number.sign number.whole spelled
  obtain ⟨first, left₁, read₁⟩ := integerPart_complete number.whole unsigned fractions
  obtain ⟨second, left₂, read₂⟩ := fractionPart_complete number.fraction left₁ exponents point
  obtain ⟨third, left₃, read₃⟩ := exponentPart_complete number.exponent left₂ ends
  have taken : parser.rest.take (parser.rest.length - third.rest.length) = _ :=
    take_spelled (left₃.symm ▸ at_)
  cases mode : limits.numbers with
  | any =>
    have read : parser.number limits position = .ok (.number (String.ofList
        (parser.rest.take (parser.rest.length - third.rest.length))) position, third) := by
      simp only [Parser.number, bind_eq_ok]
      exact ⟨first, read₁, second, read₂, third, read₃, by rw [mode]⟩
    rw [taken] at read
    exact ⟨.number _ position, third, left₃, (number_sound read).1, ⟨rfl, rfl⟩, read⟩
  | safeIntegers =>
    rw [mode] at allowed
    obtain ⟨value, integer, safe⟩ := allowed
    have bare : fraction = [] ∧ exponent = [] :=
      integerOf_whole number (String.toList_ofList ▸ integer)
    have plain : first.rest.length = third.rest.length ∧ isJsonInteger
        (String.ofList (parser.rest.take (parser.rest.length - third.rest.length))) = true := by
      rw [taken, left₁, left₃, bare.1, bare.2, append_nil, append_nil]
      exact ⟨rfl, isJsonInteger_whole number.sign number.whole⟩
    have read : parser.number limits position = .ok (.integer value position, third) := by
      simp only [Parser.number, bind_eq_ok]
      refine ⟨first, read₁, second, read₂, third, read₃, ?_⟩
      rw [mode]
      dsimp only
      rw [if_pos plain, taken]
      exact bind_eq_ok.mpr ⟨value, safeInteger_eq_ok.mpr ⟨integer, safe⟩, rfl⟩
    exact ⟨.integer value position, third, left₃, (number_sound read).1, ⟨rfl, integer⟩, read⟩

end Numbers

section Values

variable {limits : Limits} {parser : Parser} {fuel open_ : Nat} {head : Char}
  {rest text input start named valued spelled inner after next : List Char} {json : Json}
  {name : String} {phrase : Phrase} {values : List Json} {members : List (String × Json)}

/-- The parser after one more value was counted. -/
def counted (parser : Parser) : Parser := { parser with nodes := parser.nodes + 1 }

@[simp] theorem counted_rest (parser : Parser) : parser.counted.rest = parser.rest := rfl

@[simp] theorem counted_nodes (parser : Parser) : parser.counted.nodes = parser.nodes + 1 := rfl

/-- The reader's choice by the first character of a value. -/
theorem value_eq (fuel open_ : Nat) (first : parser.rest.head? = some head)
    (room : Within limits.nodes (parser.nodes + 1)) :
    value limits (fuel + 1) open_ parser =
      if head = '\x7b' then object limits fuel open_ parser.position parser.counted
      else if head = '[' then array limits fuel open_ parser.position parser.counted
      else if head = '"' then do
        let (text, after) ← parser.counted.string limits
        limits.string text parser.position
        .ok (.string text parser.position, after)
      else if head = 't' then
        parser.counted.literal ['t', 'r', 'u', 'e'] (.bool true) parser.position
      else if head = 'f' then
        parser.counted.literal ['f', 'a', 'l', 's', 'e'] (.bool false) parser.position
      else if head = 'n' then parser.counted.literal ['n', 'u', 'l', 'l'] .null parser.position
      else if head = '-' ∨ head.isDigit = true then parser.counted.number limits parser.position
      else parser.counted.error .jsonSyntax := by
  have node : parser.node limits parser.position = .ok parser.counted := node_eq_ok.mpr ⟨room, rfl⟩
  rw [value]
  simp only [node, bind, Except.bind, counted_rest, first]

theorem literal_complete (parser : Parser) {word : List Char} (node : Position → Node)
    (position : Position) (at_ : parser.rest = word ++ rest) :
    ∃ after : Parser, after.rest = rest ∧ after.nodes = parser.nodes ∧
      parser.literal word node position = .ok (node position, after) := by
  have leads : word.isPrefixOf parser.rest = true := by
    rw [at_, isPrefixOf_iff_prefix]
    exact prefix_append ..
  obtain ⟨kept, split⟩ := literal_rest word parser leads
  exact ⟨_, append_cancel_left (split.symm.trans at_), kept, by rw [literal, if_pos leads]⟩

/-- A value's text never begins with whitespace or with the end of a collection. -/
def Opens (head : Char) : Prop := head ∉ [' ', '\t', '\n', '\r', ']', '\x7d']

instance (head : Char) : Decidable (Opens head) := inferInstanceAs (Decidable (_ ∉ _))

theorem Opens.visible (opens : Opens head) : head ∉ [' ', '\t', '\n', '\r'] :=
  fun listed => opens (mem_append_left [']', '\x7d'] listed)

theorem opens_of_digit (digit : head.isDigit = true) : Opens head := by
  intro listed
  simp only [mem_cons, not_mem_nil, or_false] at listed
  rcases listed with rfl | rfl | rfl | rfl | rfl | rfl <;> cases digit

theorem isNumber_head (number : IsNumber text) :
    ∃ head more, text = head :: more ∧ (head = '-' ∨ head.isDigit = true) := by
  obtain ⟨sign, whole, fraction, exponent, number, rfl⟩ := number
  rcases number.sign with rfl | rfl
  · obtain ⟨first, more, rfl, digit⟩ := whole_head number.whole
    exact ⟨first, _, rfl, .inr digit⟩
  · exact ⟨'-', _, rfl, .inl rfl⟩

theorem derives_head (derives : Derives (.value json) input rest) :
    ∃ head more, input = head :: more ∧ Opens head := by
  cases derives with
  | number number =>
    obtain ⟨head, more, rfl, leads⟩ := isNumber_head number
    refine ⟨head, _, rfl, ?_⟩
    rcases leads with rfl | digit
    · decide
    · exact opens_of_digit digit
  | string quoted =>
    cases quoted
    exact ⟨'"', _, rfl, by decide⟩
  | null | true_ | false_ | emptyArray _ | array _ | emptyObject _ | object _ =>
    exact ⟨_, _, rfl, by decide⟩

theorem quoted_length {text : String} (quoted : Quoted text input rest) :
    rest.length < input.length := by
  obtain ⟨chars⟩ := quoted
  have shorter := chars_length chars
  rw [length_cons]
  omega

/-- The text of a member up to its value. -/
def Heads (name : String) (input spelled : List Char) : Prop :=
  ∃ start named valued, Whitespace input start ∧ Quoted name start named ∧
    Whitespace named (':' :: valued) ∧ Whitespace valued spelled

theorem Heads.length (heads : Heads name input spelled) : spelled.length < input.length := by
  obtain ⟨start, named, valued, leads, quoted, colon, follows⟩ := heads
  have first := whitespace_length leads
  have second := quoted_length quoted
  have third := whitespace_length colon
  have fourth := whitespace_length follows
  rw [length_cons] at third
  omega

/-- Every phrase takes some of the text. -/
theorem derives_length (derives : Derives phrase input rest) : rest.length < input.length := by
  induction derives with
  | null | true_ | false_ => simp only [length_cons]; omega
  | number number =>
    obtain ⟨head, more, rfl, -⟩ := isNumber_head number
    simp only [length_append, length_cons]
    omega
  | string quoted => exact quoted_length quoted
  | emptyArray closes | emptyObject closes =>
    have shorter := whitespace_length closes
    simp only [length_cons] at shorter ⊢
    omega
  | array _ shorter | object _ shorter =>
    rw [length_cons]
    omega
  | lastItem leads _ closes shorter =>
    have before := whitespace_length leads
    have after := whitespace_length closes
    rw [length_cons] at after
    omega
  | item leads _ separates _ shorter shorter' =>
    have before := whitespace_length leads
    have after := whitespace_length separates
    rw [length_cons] at after
    omega
  | lastMember leads quoted colon follows _ closes shorter =>
    have before := Heads.length ⟨_, _, _, leads, quoted, colon, follows⟩
    have after := whitespace_length closes
    rw [length_cons] at after
    omega
  | member leads quoted colon follows _ separates _ shorter shorter' =>
    have before := Heads.length ⟨_, _, _, leads, quoted, colon, follows⟩
    have after := whitespace_length separates
    rw [length_cons] at after
    omega

/-- The reader reads whatever a phrase derives, after any values and items read before. -/
def Completes (limits : Limits) : Phrase → List Char → List Char → Prop
  | .value json, input, rest => ∀ (fuel open_ : Nat) (parser : Parser), parser.rest = input →
      3 * input.length ≤ fuel → Ends rest → Allowed limits open_ json →
      Within limits.nodes (parser.nodes + Grammar.nodes json) →
      ∃ node after, value limits fuel open_ parser = .ok (node, after) ∧ after.rest = rest ∧
        after.nodes = parser.nodes + Grammar.nodes json ∧ Represents limits.numbers node json
  | .items values, input, rest => ∀ (fuel open_ : Nat) (held : List Node) (parser : Parser),
      parser.rest = input → 3 * input.length + 1 ≤ fuel → AllowedItems limits (open_ + 1) values →
      Within limits.elements (held.length + values.length) →
      Within limits.nodes (parser.nodes + nodesOfItems values) →
      ∃ items after, itemsFrom limits fuel open_ held parser = .ok (held ++ items, after) ∧
        after.rest = rest ∧ after.nodes = parser.nodes + nodesOfItems values ∧
        RepresentsItems limits.numbers items values
  | .members members, input, rest => ∀ (fuel open_ : Nat)
      (held : List (String × Position × Node)) (parser : Parser), parser.rest = input →
      3 * input.length + 1 ≤ fuel → AllowedMembers limits (open_ + 1) members →
      (members.map Prod.fst).Nodup →
      (∀ name ∈ members.map Prod.fst, name ∉ held.map Prod.fst) →
      Within limits.members (held.length + members.length) →
      Within limits.nodes (parser.nodes + nodesOfMembers members) →
      ∃ entries after, membersFrom limits fuel open_ held parser = .ok (held ++ entries, after) ∧
        after.rest = rest ∧ after.nodes = parser.nodes + nodesOfMembers members ∧
        RepresentsMembers limits.numbers entries members

theorem nodes_pos (json : Json) : 0 < Grammar.nodes json := by
  cases json <;> simp [Grammar.nodes]

/-- A word of the grammar. -/
theorem completes_word (head : Char) (word : List Char) (made : Position → Node)
    (single : Grammar.nodes json = 1)
    (represents : ∀ position, Represents limits.numbers (made position) json)
    (chosen : ∀ (fuel open_ : Nat) (parser : Parser), parser.rest.head? = some head →
      Within limits.nodes (parser.nodes + 1) → value limits (fuel + 1) open_ parser =
        parser.counted.literal (head :: word) made parser.position) :
    Completes limits (.value json) (head :: (word ++ rest)) rest := by
  intro fuel open_ parser at_ enough _ _ within
  cases fuel with
  | zero => rw [length_cons] at enough; omega
  | succ fuel =>
    rw [single] at within ⊢
    have spelled : parser.counted.rest = (head :: word) ++ rest := at_
    obtain ⟨after, done, kept, read⟩ := literal_complete parser.counted made parser.position spelled
    refine ⟨made parser.position, after, ?_, done, kept, represents parser.position⟩
    rw [chosen fuel open_ parser (by rw [at_]; rfl) within, read]

theorem completes_number (number : IsNumber text) :
    Completes limits (.value (.number (String.ofList text))) (text ++ rest) rest := by
  intro fuel open_ parser at_ enough ends allowed within
  obtain ⟨head, more, spelled, leads⟩ := isNumber_head number
  cases fuel with
  | zero =>
    rw [spelled, cons_append, length_cons] at enough
    omega
  | succ fuel =>
    obtain ⟨node, after, done, kept, represents, read⟩ :=
      number_complete parser.position number ((counted_rest parser).trans at_) ends allowed
    have first : parser.rest.head? = some head := by rw [at_, spelled]; rfl
    have apart (char : Char) (other : char.isDigit = false) (unsigned : char ≠ '-') :
        head ≠ char := by
      rintro rfl
      rcases leads with sign | digit
      · exact unsigned sign
      · rw [digit] at other
        cases other
    refine ⟨node, after, ?_, done, kept, represents⟩
    rw [value_eq fuel open_ first within, if_neg (apart '\x7b' rfl (by decide)),
      if_neg (apart '[' rfl (by decide)), if_neg (apart '"' rfl (by decide)),
      if_neg (apart 't' rfl (by decide)), if_neg (apart 'f' rfl (by decide)),
      if_neg (apart 'n' rfl (by decide)), if_pos leads, read]

theorem completes_string {text : String} (quoted : Quoted text input rest) :
    Completes limits (.value (.string text)) input rest := by
  intro fuel open_ parser at_ enough _ allowed within
  have shorter := quoted_length quoted
  cases fuel with
  | zero => omega
  | succ fuel =>
    have first : parser.rest.head? = some '"' := by
      obtain ⟨-⟩ := quoted
      rw [at_]
      rfl
    obtain ⟨after, done, kept, read⟩ :=
      string_complete ((counted_rest parser).trans at_ ▸ quoted) allowed.1
    refine ⟨.string text parser.position, after, ?_, done, kept, rfl⟩
    rw [value_eq fuel open_ first within]
    exact bind_eq_ok.mpr ⟨(text, after), read,
      bind_eq_ok.mpr ⟨(), limits_string_eq_ok.mpr allowed, rfl⟩⟩

theorem closes_complete {bracket : Char}
    (visible : bracket ∉ [' ', '\t', '\n', '\r']) (at_ : parser.rest = inner)
    (closes : Whitespace inner (bracket :: rest)) : parser.skipWhitespace.rest = bracket :: rest :=
  skipWhitespace_complete (at_ ▸ closes) (visible_cons visible)

theorem value_array {inside : Parser} (fuel : Nat)
    (skips : parser.counted.bump.2.skipWhitespace = inside) (at_ : parser.rest = '[' :: inner)
    (room : Within limits.nodes (parser.nodes + 1)) (shallow : open_ + 1 ≤ limits.depth) :
    value limits (fuel + 2) open_ parser =
      if inside.rest.head? = some ']' then .ok (.array [] parser.position, inside.bump.2)
      else (do
        let (items, after) ← itemsFrom limits fuel open_ [] inside
        .ok (.array items parser.position, after)) := by
  have opened : parser.counted.expect '[' = .ok parser.counted.bump.2 :=
    expect_of_head (by rw [counted_rest, at_]; rfl)
  rw [value_eq (fuel + 1) open_ (by rw [at_]; rfl) room]
  simp only [Char.reduceEq, if_false, if_true, array, openCollection_eq_ok.mpr shallow, opened, skips,
    bind, Except.bind]

theorem value_object {inside : Parser} (fuel : Nat)
    (skips : parser.counted.bump.2.skipWhitespace = inside) (at_ : parser.rest = '\x7b' :: inner)
    (room : Within limits.nodes (parser.nodes + 1)) (shallow : open_ + 1 ≤ limits.depth) :
    value limits (fuel + 2) open_ parser =
      if inside.rest.head? = some '\x7d' then .ok (.object [] parser.position, inside.bump.2)
      else (do
        let (members, after) ← membersFrom limits fuel open_ [] inside
        .ok (.object members parser.position, after)) := by
  have opened : parser.counted.expect '\x7b' = .ok parser.counted.bump.2 :=
    expect_of_head (by rw [counted_rest, at_]; rfl)
  rw [value_eq (fuel + 1) open_ (by rw [at_]; rfl) room]
  simp only [if_true, object, openCollection_eq_ok.mpr shallow, opened, skips, bind,
    Except.bind]

theorem itemsFrom_skip (fuel : Nat) (held : List Node) :
    itemsFrom limits fuel open_ held parser.skipWhitespace = itemsFrom limits fuel open_ held parser := by
  cases fuel with
  | zero => rw [itemsFrom, itemsFrom]
  | succ fuel => rw [itemsFrom, itemsFrom, skipWhitespace_idem]

theorem membersFrom_skip (fuel : Nat) (held : List (String × Position × Node)) :
    membersFrom limits fuel open_ held parser.skipWhitespace =
      membersFrom limits fuel open_ held parser := by
  cases fuel with
  | zero => rw [membersFrom, membersFrom]
  | succ fuel => rw [membersFrom, membersFrom, skipWhitespace_idem]

/-- Text after a value: whitespace, and then what may follow a number. -/
theorem ends_of_whitespace (skips : Whitespace input rest) (ends : Ends rest) : Ends input := by
  obtain ⟨skipped, blank, rfl⟩ := skips
  cases skipped with
  | nil => exact ends
  | cons head skipped =>
    intro char first
    obtain rfl : head = char := Option.some.inj first
    have listed := blank head (mem_cons_self ..)
    simp only [mem_cons, not_mem_nil, or_false] at listed
    rcases listed with rfl | rfl | rfl | rfl <;> decide

theorem ends_cons {char : Char} (listed : char ∈ [',', ']', '\x7d']) : Ends (char :: rest) := by
  intro other first
  obtain rfl : char = other := Option.some.inj first
  simp only [mem_cons, not_mem_nil, or_false] at listed
  rcases listed with rfl | rfl | rfl <;> decide

/-- After an entry the collection closes, or goes on. -/
theorem ends_of_more {bracket : Char} {last : Prop} {goes : List Char → Prop}
    (listed : bracket ∈ [',', ']', '\x7d']) (more : last ∧ Whitespace after (bracket :: rest) ∨
      ∃ next, Whitespace after (',' :: next) ∧ goes next) : Ends after := by
  rcases more with ⟨-, closes⟩ | ⟨next, separates, -⟩
  · exact ends_of_whitespace closes (ends_cons listed)
  · exact ends_of_whitespace separates (ends_cons (by decide))

theorem completes_emptyArray (closes : Whitespace inner (']' :: rest)) :
    Completes limits (.value (.array [])) ('[' :: inner) rest := by
  intro fuel open_ parser at_ enough _ allowed within
  rw [length_cons] at enough
  obtain ⟨fuel, rfl⟩ := Nat.exists_eq_add_of_le' (show 2 ≤ fuel by omega)
  have inside : parser.counted.bump.2.rest = inner := bump_tail at_
  have skipped := closes_complete (by decide) inside closes
  refine ⟨.array [] parser.position, _, ?_, bump_tail skipped, ?_, trivial⟩
  · rw [value_array fuel rfl at_ within allowed.1, skipped]
    rfl
  · rw [bump_nodes, skipWhitespace_nodes, bump_nodes]
    rfl

theorem completes_emptyObject (closes : Whitespace inner ('\x7d' :: rest)) :
    Completes limits (.value (.object [])) ('\x7b' :: inner) rest := by
  intro fuel open_ parser at_ enough _ allowed within
  rw [length_cons] at enough
  obtain ⟨fuel, rfl⟩ := Nat.exists_eq_add_of_le' (show 2 ≤ fuel by omega)
  have inside : parser.counted.bump.2.rest = inner := bump_tail at_
  have skipped := closes_complete (by decide) inside closes
  refine ⟨.object [] parser.position, _, ?_, bump_tail skipped, ?_, trivial⟩
  · rw [value_object fuel rfl at_ within allowed.1, skipped]
    rfl
  · rw [bump_nodes, skipWhitespace_nodes, bump_nodes]
    rfl

/-- What a collection with something in it begins with. -/
theorem inside_head (derives : Derives phrase input rest) (within : ∀ json, phrase ≠ .value json)
    (at_ : parser.rest = input) : ∃ head, parser.skipWhitespace.rest.head? = some head ∧ Opens head := by
  have begins : ∃ head more, Whitespace input (head :: more) ∧ Opens head := by
    cases derives with
    | lastItem leads derives _ | item leads derives _ _ =>
      obtain ⟨head, more, rfl, opens⟩ := derives_head derives
      exact ⟨head, more, leads, opens⟩
    | lastMember leads quoted _ _ _ _ | member leads quoted _ _ _ _ _ =>
      obtain ⟨-⟩ := quoted
      exact ⟨'"', _, leads, by decide⟩
    | _ => exact absurd rfl (within _)
  obtain ⟨head, more, leads, opens⟩ := begins
  exact ⟨head, by rw [closes_complete opens.visible at_ leads]; rfl, opens⟩

theorem completes_array (derives : Derives (.items values) inner rest)
    (completes : Completes limits (.items values) inner rest) :
    Completes limits (.value (.array values)) ('[' :: inner) rest := by
  intro fuel open_ parser at_ enough _ allowed within
  rw [length_cons] at enough
  obtain ⟨fuel, rfl⟩ := Nat.exists_eq_add_of_le' (show 2 ≤ fuel by omega)
  have inside : parser.counted.bump.2.rest = inner := bump_tail at_
  have nodes : parser.counted.bump.2.nodes + nodesOfItems values =
      parser.nodes + Grammar.nodes (.array values) := by
    rw [bump_nodes, counted_nodes, Grammar.nodes]
    omega
  obtain ⟨items, after, read, done, counts, represents⟩ := completes fuel open_ []
    parser.counted.bump.2 inside (by omega) allowed.2.2
    (by simpa using allowed.2.1) (nodes ▸ within)
  obtain ⟨head, first, opens⟩ := inside_head derives (fun _ same => by cases same) inside
  refine ⟨.array items parser.position, after, ?_, done, counts.trans nodes, represents⟩
  rw [value_array fuel rfl at_ (within_le within (Nat.add_le_add_left (nodes_pos _) _)) allowed.1,
    if_neg, itemsFrom_skip, read]
  · rfl
  · rw [first]
    rintro ⟨⟩
    exact opens (by decide)

theorem completes_object (derives : Derives (.members members) inner rest)
    (completes : Completes limits (.members members) inner rest) :
    Completes limits (.value (.object members)) ('\x7b' :: inner) rest := by
  intro fuel open_ parser at_ enough _ allowed within
  rw [length_cons] at enough
  obtain ⟨fuel, rfl⟩ := Nat.exists_eq_add_of_le' (show 2 ≤ fuel by omega)
  have inside : parser.counted.bump.2.rest = inner := bump_tail at_
  have nodes : parser.counted.bump.2.nodes + nodesOfMembers members =
      parser.nodes + Grammar.nodes (.object members) := by
    rw [bump_nodes, counted_nodes, Grammar.nodes]
    omega
  obtain ⟨entries, after, read, done, counts, represents⟩ := completes fuel open_ []
    parser.counted.bump.2 inside (by omega) allowed.2.2.2 allowed.2.2.1
    (fun _ _ => not_mem_nil) (by simpa using allowed.2.1) (nodes ▸ within)
  obtain ⟨head, first, opens⟩ := inside_head derives (fun _ same => by cases same) inside
  refine ⟨.object entries parser.position, after, ?_, done, counts.trans nodes, represents⟩
  rw [value_object fuel rfl at_ (within_le within (Nat.add_le_add_left (nodes_pos _) _)) allowed.1,
    if_neg, membersFrom_skip, read]
  · rfl
  · rw [first]
    rintro ⟨⟩
    exact opens (by decide)

theorem itemsFrom_step {held : List Node}
    (leads : Whitespace input start) (derives : Derives (.value json) start after)
    (completes : Completes limits (.value json) start after) (ends : Ends after)
    (at_ : parser.rest = input) (enough : 3 * input.length ≤ fuel)
    (allowed : Allowed limits (open_ + 1) json) (room : Within limits.elements (held.length + 1))
    (within : Within limits.nodes (parser.nodes + Grammar.nodes json)) :
    ∃ (item : Node) (next : Parser), next.rest = after ∧
      next.nodes = parser.nodes + Grammar.nodes json ∧ Represents limits.numbers item json ∧
      itemsFrom limits (fuel + 1) open_ held parser =
        if next.skipWhitespace.rest.head? = some ',' then
          itemsFrom limits fuel open_ (held ++ [item]) next.skipWhitespace.bump.2
        else if next.skipWhitespace.rest.head? = some ']' then
          .ok (held ++ [item], next.skipWhitespace.bump.2)
        else next.skipWhitespace.error .jsonSyntax := by
  obtain ⟨head, more, rfl, opens⟩ := derives_head derives
  have skipped : parser.skipWhitespace.rest = head :: more :=
    skipWhitespace_complete (at_ ▸ leads) (visible_cons opens.visible)
  have shorter := whitespace_length leads
  obtain ⟨item, next, read, done, counts, represents⟩ := completes fuel (open_ + 1)
    parser.skipWhitespace skipped (by omega) ends allowed within
  refine ⟨item, next, done, counts, represents, ?_⟩
  simp only [itemsFrom, bound_eq_ok.mpr room, read, bind, Except.bind]

theorem completes_items
    (leads : Whitespace input start) (derives : Derives (.value json) start after)
    (completes : Completes limits (.value json) start after)
    (more : values = [] ∧ Whitespace after (']' :: rest) ∨
      ∃ next, Whitespace after (',' :: next) ∧ Completes limits (.items values) next rest) :
    Completes limits (.items (json :: values)) input rest := by
  intro fuel open_ held parser at_ enough allowed room within
  obtain ⟨fuel, rfl⟩ := Nat.exists_eq_add_of_le' (show 1 ≤ fuel by omega)
  rw [length_cons] at room
  rw [nodesOfItems] at within
  have one : Within limits.elements (held.length + 1) := within_le room (by omega)
  obtain ⟨item, middle, done, counts, represents, step⟩ := itemsFrom_step leads derives completes
    (ends_of_more (by decide) more) at_ (Nat.le_of_succ_le_succ enough) allowed.1 one
    (within_le within (by omega))
  have kept : middle.skipWhitespace.bump.2.nodes = parser.nodes + Grammar.nodes json := by
    rw [bump_nodes, skipWhitespace_nodes, counts]
  rcases more with ⟨rfl, closes⟩ | ⟨next, separates, more⟩
  · have skipped : middle.skipWhitespace.rest = ']' :: rest := closes_complete (by decide) done closes
    refine ⟨[item], middle.skipWhitespace.bump.2, ?_, bump_tail skipped, kept, represents, trivial⟩
    rw [step, skipped, if_neg (by simp), if_pos (by simp)]
  · have skipped : middle.skipWhitespace.rest = ',' :: next :=
      closes_complete (by decide) done separates
    have first := whitespace_length leads
    have second := derives_length derives
    have third := whitespace_length separates
    rw [length_cons] at third
    obtain ⟨items, after, read, left, counts', represents'⟩ := more fuel open_ (held ++ [item])
      middle.skipWhitespace.bump.2 (bump_tail skipped) (by omega) allowed.2
      (within_le room (by rw [length_append, length_singleton]; omega)) (within_le within (by omega))
    rw [append_assoc, singleton_append] at read
    refine ⟨item :: items, after, ?_, left, ?_, represents, represents'⟩
    · rw [step, if_pos (by rw [skipped]; rfl), read]
    · rw [counts', kept, nodesOfItems, Nat.add_assoc]

theorem membersFrom_step {held : List (String × Position × Node)}
    (heads : Heads name input spelled) (derives : Derives (.value json) spelled after)
    (completes : Completes limits (.value json) spelled after) (ends : Ends after)
    (at_ : parser.rest = input) (enough : 3 * input.length ≤ fuel)
    (nameAllowed : NameAllowed limits name) (allowed : Allowed limits (open_ + 1) json)
    (fresh : name ∉ held.map Prod.fst) (room : Within limits.members (held.length + 1))
    (within : Within limits.nodes (parser.nodes + Grammar.nodes json)) :
    ∃ (entry : String × Position × Node) (next : Parser), next.rest = after ∧
      next.nodes = parser.nodes + Grammar.nodes json ∧ entry.1 = name ∧
      Represents limits.numbers entry.2.2 json ∧
      membersFrom limits (fuel + 1) open_ held parser =
        if next.skipWhitespace.rest.head? = some ',' then
          membersFrom limits fuel open_ (held ++ [entry]) next.skipWhitespace.bump.2
        else if next.skipWhitespace.rest.head? = some '\x7d' then
          .ok (held ++ [entry], next.skipWhitespace.bump.2)
        else next.skipWhitespace.error .jsonSyntax := by
  have shorter := heads.length
  obtain ⟨start, named, valued, leads, quoted, colon, follows⟩ := heads
  have quote : start.head? = some '"' := by
    obtain ⟨-⟩ := quoted
    rfl
  have skipped : parser.skipWhitespace.rest = start := by
    refine skipWhitespace_complete (at_ ▸ leads) fun char first => ?_
    rw [← Option.some.inj (quote.symm.trans first)]
    decide
  obtain ⟨middle, left, kept, key⟩ := string_complete (skipped ▸ quoted) nameAllowed.1
  have colons : middle.skipWhitespace.rest = ':' :: valued := closes_complete (by decide) left colon
  obtain ⟨head, more, rfl, opens⟩ := derives_head derives
  have inside : middle.skipWhitespace.bump.2.skipWhitespace.rest = head :: more :=
    closes_complete opens.visible (bump_tail colons) follows
  have counted : middle.skipWhitespace.bump.2.skipWhitespace.nodes = parser.nodes := by
    rw [skipWhitespace_nodes, bump_nodes, skipWhitespace_nodes, kept, skipWhitespace_nodes]
  obtain ⟨node, next, read, done, counts, represents⟩ := completes fuel (open_ + 1) _ inside
    (by omega) ends allowed (counted.symm ▸ within)
  have unused : (held.any fun member => member.1 == name) = false := by
    rw [any_eq_false]
    intro member listed same
    exact fresh (List.mem_map.mpr ⟨member, listed, beq_iff_eq.mp same⟩)
  refine ⟨(name, parser.skipWhitespace.position, node), next, done, counted ▸ counts, rfl,
    represents, ?_⟩
  have first : parser.skipWhitespace.rest.head? = some '"' := skipped ▸ quote
  have colon : middle.skipWhitespace.expect ':' = .ok middle.skipWhitespace.bump.2 :=
    expect_of_head (by rw [colons]; rfl)
  simp only [membersFrom, first, ne_eq, not_true_eq_false, if_false, key,
    limits_key_eq_ok.mpr nameAllowed.2, unused, refuse, Bool.false_eq_true, bound_eq_ok.mpr room,
    colon, read, bind, Except.bind]

theorem completes_members (heads : Heads name input spelled)
    (derives : Derives (.value json) spelled after)
    (completes : Completes limits (.value json) spelled after)
    (more : members = [] ∧ Whitespace after ('\x7d' :: rest) ∨
      ∃ next, Whitespace after (',' :: next) ∧ Completes limits (.members members) next rest) :
    Completes limits (.members ((name, json) :: members)) input rest := by
  intro fuel open_ held parser at_ enough allowed distinct fresh room within
  obtain ⟨fuel, rfl⟩ := Nat.exists_eq_add_of_le' (show 1 ≤ fuel by omega)
  rw [length_cons] at room
  rw [nodesOfMembers] at within
  rw [map_cons, nodup_cons] at distinct
  rw [map_cons, forall_mem_cons] at fresh
  have one : Within limits.members (held.length + 1) := within_le room (by omega)
  obtain ⟨entry, middle, done, counts, isNamed, represents, step⟩ := membersFrom_step heads derives
    completes (ends_of_more (by decide) more) at_ (Nat.le_of_succ_le_succ enough) allowed.1
    allowed.2.1 fresh.1 one (within_le within (by omega))
  have kept : middle.skipWhitespace.bump.2.nodes = parser.nodes + Grammar.nodes json := by
    rw [bump_nodes, skipWhitespace_nodes, counts]
  rcases more with ⟨rfl, closes⟩ | ⟨next, separates, more⟩
  · have skipped : middle.skipWhitespace.rest = '\x7d' :: rest :=
      closes_complete (by decide) done closes
    refine ⟨[entry], middle.skipWhitespace.bump.2, ?_, bump_tail skipped, kept, isNamed, represents,
      trivial⟩
    rw [step, skipped, if_neg (by simp), if_pos (by simp)]
  · have skipped : middle.skipWhitespace.rest = ',' :: next :=
      closes_complete (by decide) done separates
    have first := heads.length
    have second := derives_length derives
    have third := whitespace_length separates
    rw [length_cons] at third
    have apart : ∀ other ∈ members.map Prod.fst, other ∉ (held ++ [entry]).map Prod.fst := by
      intro other listed
      rw [map_append, mem_append, not_or]
      refine ⟨fresh.2 other listed, fun same => distinct.1 ?_⟩
      rw [map_singleton, mem_singleton, isNamed] at same
      exact same ▸ listed
    obtain ⟨entries, after, read, left, counts', represents'⟩ := more fuel open_ (held ++ [entry])
      middle.skipWhitespace.bump.2 (bump_tail skipped) (by omega) allowed.2.2 distinct.2 apart
      (within_le room (by rw [length_append, length_singleton]; omega)) (within_le within (by omega))
    rw [append_assoc, singleton_append] at read
    refine ⟨entry :: entries, after, ?_, left, ?_, isNamed, represents, represents'⟩
    · rw [step, if_pos (by rw [skipped]; rfl), read]
    · rw [counts', kept, nodesOfMembers, Nat.add_assoc]

/-- No phrase of the grammar within the bounds is refused. -/
theorem derives_completes
    (derives : Derives phrase input rest) : Completes limits phrase input rest := by
  induction derives with
  | null =>
    exact completes_word 'n' ['u', 'l', 'l'] .null rfl (fun _ => trivial)
      fun fuel open_ _ => value_eq fuel open_
  | true_ =>
    exact completes_word 't' ['r', 'u', 'e'] (.bool true) rfl (fun _ => rfl)
      fun fuel open_ _ => value_eq fuel open_
  | false_ =>
    exact completes_word 'f' ['a', 'l', 's', 'e'] (.bool false) rfl (fun _ => rfl)
      fun fuel open_ _ => value_eq fuel open_
  | number number => exact completes_number number
  | string quoted => exact completes_string quoted
  | emptyArray closes => exact completes_emptyArray closes
  | array items completes => exact completes_array items completes
  | emptyObject closes => exact completes_emptyObject closes
  | object listed completes => exact completes_object listed completes
  | lastItem leads derives closes completes =>
    exact completes_items leads derives completes (.inl ⟨rfl, closes⟩)
  | item leads derives separates _ completes more =>
    exact completes_items leads derives completes (.inr ⟨_, separates, more⟩)
  | lastMember leads quoted colon follows derives closes completes =>
    exact completes_members ⟨_, _, _, leads, quoted, colon, follows⟩ derives completes
      (.inl ⟨rfl, closes⟩)
  | member leads quoted colon follows derives separates _ completes more =>
    exact completes_members ⟨_, _, _, leads, quoted, colon, follows⟩ derives completes
      (.inr ⟨_, separates, more⟩)

theorem parse_complete {text : String} (document : Document json text.toList)
    (accepted : Accepted limits json) :
    ∃ node, parse text limits = .ok node ∧ Represents limits.numbers node json := by
  obtain ⟨start, after, leads, derives, trails⟩ := document
  obtain ⟨head, more, rfl, opens⟩ := derives_head derives
  have skipped : ({ rest := text.toList } : Parser).skipWhitespace.rest = head :: more :=
    skipWhitespace_complete leads (visible_cons opens.visible)
  have shorter := whitespace_length leads
  obtain ⟨node, last, read, done, -, represents⟩ := derives_completes derives
    (3 * text.toList.length + 3) 0 _ skipped (by omega)
    (ends_of_whitespace trails fun _ first => by cases first) accepted.1
    ((Nat.zero_add (Grammar.nodes json)).symm ▸ accepted.2)
  have finished : last.skipWhitespace.rest = [] :=
    skipWhitespace_complete (done ▸ trails) fun _ first => by cases first
  refine ⟨node, ?_, represents⟩
  simp only [parse, skipped, isEmpty_cons, Bool.false_eq_true, if_false, bind_eq_ok]
  exact ⟨(node, last), read, by rw [finished]; rfl⟩

end Values

section Exactness

mutual

theorem represents_unique : ∀ (node : Node) (value other : Json), Represents .any node value →
    Represents .any node other → value = other
  | .null _, .null, .null, _, _ => rfl
  | .bool _ _, .bool _, .bool _, same, same' => congrArg Json.bool (same.symm.trans same')
  | .number _ _, .number _, .number _, same, same' =>
    congrArg Json.number (same.2.symm.trans same'.2)
  | .string _ _, .string _, .string _, same, same' => congrArg Json.string (same.symm.trans same')
  | .array items _, .array values, .array others, same, same' =>
    congrArg Json.array (representsItems_unique items values others same same')
  | .object entries _, .object members, .object others, same, same' =>
    congrArg Json.object (representsMembers_unique entries members others same same')
  | .integer _ _, .number _, _, same, _ => nomatch same.1

theorem representsItems_unique : ∀ (items : List Node) (values others : List Json),
    RepresentsItems .any items values → RepresentsItems .any items others → values = others
  | [], [], [], _, _ => rfl
  | item :: items, value :: values, other :: others, same, same' =>
    congrArg₂ List.cons (represents_unique item value other same.1 same'.1)
      (representsItems_unique items values others same.2 same'.2)

theorem representsMembers_unique : ∀ (entries : List (String × Position × Node))
    (members others : List (String × Json)), RepresentsMembers .any entries members →
    RepresentsMembers .any entries others → members = others
  | [], [], [], _, _ => rfl
  | (_, _, node) :: entries, (_, value) :: members, (_, other) :: others, same, same' =>
    congrArg₂ List.cons
      (Prod.ext (same.1.symm.trans same'.1) (represents_unique node value other same.2.1 same'.2.1))
      (representsMembers_unique entries members others same.2.2 same'.2.2)

end

variable {limits : Limits}

mutual

theorem allowed_any : ∀ (open_ : Nat) (value : Json), Allowed limits open_ value →
    Allowed { limits with numbers := .any } open_ value
  | _, .null, _ | _, .bool _, _ | _, .number _, _ => trivial
  | _, .string _, allowed => allowed
  | open_, .array values, allowed =>
    ⟨allowed.1, allowed.2.1, allowedItems_any (open_ + 1) values allowed.2.2⟩
  | open_, .object members, allowed =>
    ⟨allowed.1, allowed.2.1, allowed.2.2.1, allowedMembers_any (open_ + 1) members allowed.2.2.2⟩

theorem allowedItems_any : ∀ (open_ : Nat) (values : List Json), AllowedItems limits open_ values →
    AllowedItems { limits with numbers := .any } open_ values
  | _, [], _ => trivial
  | open_, value :: values, allowed =>
    ⟨allowed_any open_ value allowed.1, allowedItems_any open_ values allowed.2⟩

theorem allowedMembers_any : ∀ (open_ : Nat) (members : List (String × Json)),
    AllowedMembers limits open_ members →
    AllowedMembers { limits with numbers := .any } open_ members
  | _, [], _ => trivial
  | open_, (_, value) :: members, allowed =>
    ⟨allowed.1, allowed_any open_ value allowed.2.1, allowedMembers_any open_ members allowed.2.2⟩

end

/-- A text derives one value within the bounds, at most. -/
theorem document_unique {text : List Char} {value other : Json} (document : Document value text)
    (accepted : Accepted limits value) (document' : Document other text)
    (accepted' : Accepted limits other) : value = other := by
  rw [← String.toList_ofList (l := text)] at document document'
  have any : Accepted { limits with numbers := .any } value :=
    ⟨allowed_any 0 value accepted.1, accepted.2⟩
  have any' : Accepted { limits with numbers := .any } other :=
    ⟨allowed_any 0 other accepted'.1, accepted'.2⟩
  obtain ⟨node, read, represents⟩ := parse_complete document any
  obtain ⟨node', read', represents'⟩ := parse_complete document' any'
  rw [read] at read'
  obtain rfl : node = node' := Except.ok.inj read'
  exact represents_unique node value other represents represents'

/-- The reader accepts exactly the texts of one value that the grammar derives and the bounds
allow, and the node it returns represents that value. -/
theorem parse_accepts (text : String) (limits : Limits) :
    ((∃ node, parse text limits = .ok node) ↔
      ∃! value, Document value text.toList ∧ Accepted limits value) ∧
    ∀ node value, parse text limits = .ok node → Document value text.toList →
      Accepted limits value → Represents limits.numbers node value := by
  refine ⟨⟨?_, ?_⟩, ?_⟩
  · rintro ⟨node, read⟩
    obtain ⟨value, document, accepted, -⟩ := parse_sound read
    exact ⟨value, ⟨document, accepted⟩, fun other within =>
      document_unique within.1 within.2 document accepted⟩
  · rintro ⟨value, ⟨document, accepted⟩, -⟩
    obtain ⟨node, read, -⟩ := parse_complete document accepted
    exact ⟨node, read⟩
  · intro node value read document accepted
    obtain ⟨node', read', represents⟩ := parse_complete document accepted
    rw [read] at read'
    rwa [Except.ok.inj read']

/-- A surrogate pair is one character; its second half alone is none. -/
theorem parse_accepts_sample :
    (∃! value, Document value "[\"\\ud83d\\ude00\", 0]".toList ∧ Accepted documentLimits value) ∧
      ¬ ∃! value, Document value "\"\\ude00\"".toList ∧ Accepted documentLimits value := by
  have pair : (parse "[\"\\ud83d\\ude00\", 0]" documentLimits).isOk = true := by decide +kernel
  have half : (parse "\"\\ude00\"" documentLimits).isOk = false := by decide +kernel
  constructor
  · refine (parse_accepts _ documentLimits).1.mp ?_
    cases read : parse "[\"\\ud83d\\ude00\", 0]" documentLimits with
    | ok node => exact ⟨node, rfl⟩
    | error problem =>
      rw [read] at pair
      cases pair
  · intro unique
    obtain ⟨node, read⟩ := (parse_accepts _ documentLimits).1.mpr unique
    rw [read] at half
    cases half

end Exactness

end GreenGateway.Config.Parser
