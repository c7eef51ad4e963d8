import GreenGateway.Config.JsonGrammar

/-! Whatever the strict reader reads derives from the grammar, is within the bounds and is
what its node denotes. -/

namespace GreenGateway.Config.Parser

open Foundation Grammar List

section Characters

variable {parser after : Parser} {char : Char}

@[simp] theorem bump_nodes (parser : Parser) : parser.bump.2.nodes = parser.nodes := by
  obtain ⟨rest, position, nodes⟩ := parser
  cases rest <;> rfl

theorem bump_eq_some (bumped : parser.bump = (some char, after)) :
    parser.rest = char :: after.rest ∧ after.nodes = parser.nodes := by
  obtain ⟨rest, position, nodes⟩ := parser
  cases rest with
  | nil => cases bumped
  | cons head rest =>
    obtain ⟨same, rfl⟩ := Prod.mk.inj bumped
    rw [← Option.some.inj same]
    exact ⟨rfl, rfl⟩

theorem bump_of_head (first : parser.rest.head? = some char) :
    parser.rest = char :: parser.bump.2.rest := by
  obtain ⟨rest, position, nodes⟩ := parser
  cases rest with
  | nil => cases first
  | cons head rest => rw [← Option.some.inj first]; rfl

theorem expect_eq_ok (expected : parser.expect char = .ok after) :
    parser.rest = char :: after.rest ∧ after.nodes = parser.nodes := by
  unfold expect at expected
  split at expected
  · rename_i first
    rw [← Except.ok.inj expected]
    exact ⟨bump_of_head first, bump_nodes parser⟩
  · cases expected

theorem skipFrom_split (keep : Char → Bool) (chars : List Char) (position : Position) :
    ∃ skipped, (∀ char ∈ skipped, keep char = true) ∧
      chars = skipped ++ (skipFrom keep chars position).1 ∧
      ∀ char, (skipFrom keep chars position).1.head? = some char → keep char = false := by
  induction chars generalizing position with
  | nil => exact ⟨[], nofun, rfl, nofun⟩
  | cons char chars ih =>
    rw [skipFrom]
    split
    · rename_i kept
      obtain ⟨skipped, all, whole, stops⟩ := ih (position.after char)
      exact ⟨char :: skipped, List.forall_mem_cons.mpr ⟨kept, all⟩, by rw [cons_append, ← whole],
        stops⟩
    · rename_i other
      refine ⟨[], nofun, rfl, fun head first => ?_⟩
      rw [← Option.some.inj first]
      exact Bool.not_eq_true _ ▸ other

theorem skipWhile_split (keep : Char → Bool) (parser : Parser) :
    ∃ skipped, (∀ char ∈ skipped, keep char = true) ∧
      parser.rest = skipped ++ (parser.skipWhile keep).rest ∧
      ∀ char, (parser.skipWhile keep).rest.head? = some char → keep char = false :=
  skipFrom_split keep parser.rest parser.position

theorem isWhitespace_iff (char : Char) :
    (char == ' ' || char == '\t' || char == '\n' || char == '\r') = true ↔
      char ∈ [' ', '\t', '\n', '\r'] := by
  simp [or_assoc]

theorem skipWhitespace_sound (parser : Parser) :
    Whitespace parser.rest parser.skipWhitespace.rest := by
  obtain ⟨skipped, all, whole, -⟩ := skipWhile_split _ parser
  exact ⟨skipped, fun char member => (isWhitespace_iff char).mp (all char member), whole⟩

@[simp] theorem skipWhitespace_nodes (parser : Parser) :
    parser.skipWhitespace.nodes = parser.nodes := rfl

end Characters

section Bounds

variable {position : Position} {limits : Limits} {text : String}

theorem bound_eq_ok {maximum : Option Nat} {count : Nat} {code : Code} :
    bound maximum count code position = .ok () ↔ Within maximum count := by
  rw [bound, refuse_eq_ok, Within]
  cases maximum with
  | none => simp
  | some limit => simp

theorem characters_eq_ok :
    limits.characters text position = .ok () ↔ CharactersAllowed limits text := by
  rw [Limits.characters, refuse_eq_ok, CharactersAllowed, Bool.and_eq_false_iff]
  cases limits.textCharacters <;> simp

theorem limits_string_eq_ok :
    limits.string text position = .ok () ↔
      Within limits.stringBytes (Text.len text) ∧ CharactersAllowed limits text := by
  simp only [Limits.string, bind_eq_ok, unit_exists_ok, bound_eq_ok, characters_eq_ok]

theorem limits_key_eq_ok :
    limits.key text position = .ok () ↔
      Within limits.keyBytes (Text.len text) ∧ CharactersAllowed limits text := by
  simp only [Limits.key, bind_eq_ok, unit_exists_ok, bound_eq_ok, characters_eq_ok]

theorem stringOverflows_eq_false {bytes : Nat} :
    limits.stringOverflows bytes = false ↔ Within limits.stringBytes bytes := by
  rw [Limits.stringOverflows, Within]
  cases limits.stringBytes with
  | none => simp
  | some limit => simp

theorem openCollection_eq_ok {open_ : Nat} :
    limits.openCollection open_ position = .ok () ↔ open_ + 1 ≤ limits.depth := by
  rw [Limits.openCollection, refuse_eq_ok, decide_eq_false_iff_not, gt_iff_lt, Nat.not_lt]

theorem node_eq_ok {parser after : Parser} :
    parser.node limits position = .ok after ↔
      Within limits.nodes (parser.nodes + 1) ∧ { parser with nodes := parser.nodes + 1 } = after := by
  simp only [node, bind_eq_ok, unit_exists_ok, bound_eq_ok, Except.ok.injEq]

end Bounds

section Strings

variable {parser after : Parser} {char : Char} {position : Position} {value code : Nat}
  {limits : Limits} {text : String}

theorem toDigit16_ascii (read : toDigit16 char = some value) : char.toNat < 128 := by
  unfold toDigit16 at read
  split_ifs at read with digit small big
  · have range := (Bool.and_eq_true_iff.mp digit).2
    exact Nat.lt_of_le_of_lt (of_decide_eq_true range) (by decide)
  · exact Nat.lt_of_le_of_lt small.2 (by decide)
  · exact Nat.lt_of_le_of_lt big.2 (by decide)

theorem toDigit16_eq_some : toDigit16 char = some value ↔ HexDigit char value := by
  have listed : ∀ code < 128, ∀ value, toDigit16 (Char.ofNat code) = some value →
      value < 16 ∧ (Char.ofNat code = Json.hexDigit value ∨
        Char.ofNat code = (Json.hexDigit value).toUpper) := by
    have checked : ∀ code < 128, ((toDigit16 (Char.ofNat code)).all fun value =>
        decide (value < 16 ∧ (Char.ofNat code = Json.hexDigit value ∨
          Char.ofNat code = (Json.hexDigit value).toUpper))) = true := by
      decide
    intro code small value read
    simpa [read] using checked code small
  constructor
  · intro read
    have held := listed char.toNat (toDigit16_ascii read) value (by rw [Char.ofNat_toNat]; exact read)
    rw [Char.ofNat_toNat] at held
    exact held
  · rintro ⟨small, rfl | rfl⟩
    · revert value
      decide
    · revert value
      decide

theorem hexDigits_sound {count start : Nat}
    (read : hexDigits count start parser = .ok (code, after)) :
    ∃ digits, digits.length = count ∧ Hexadecimal start digits code ∧
      parser.rest = digits ++ after.rest ∧ after.nodes = parser.nodes := by
  induction count generalizing parser start with
  | zero =>
    obtain ⟨rfl, rfl⟩ := Prod.mk.inj (Except.ok.inj read)
    exact ⟨[], rfl, ⟨[], .nil, rfl⟩, rfl, rfl⟩
  | succ count ih =>
    rw [hexDigits] at read
    split at read
    · rename_i digit found
      obtain ⟨char, first, value⟩ := Option.bind_eq_some_iff.mp found
      obtain ⟨digits, length, ⟨values, spelled, total⟩, split, nodes⟩ := ih read
      refine ⟨char :: digits, by rw [length_cons, length],
        ⟨digit :: values, .cons (toDigit16_eq_some.mp value) spelled, total⟩, ?_, ?_⟩
      · rw [bump_of_head first, split, cons_append]
      · rw [nodes, bump_nodes]
    · cases read

theorem hex4_sound (read : parser.hex4 = .ok (code, after)) :
    ∃ digits, Unit16 digits code ∧ parser.rest = digits ++ after.rest ∧
      after.nodes = parser.nodes := by
  obtain ⟨digits, length, spelled, split, nodes⟩ := hexDigits_sound read
  exact ⟨digits, ⟨length, spelled⟩, split, nodes⟩

theorem fromU32_eq_some (read : fromU32 code = some char) : char = Char.ofNat code := by
  unfold fromU32 at read
  split at read
  · exact (Option.some.inj read).symm
  · cases read

theorem unicode_sound (read : parser.unicode position = .ok (char, after)) :
    after.nodes = parser.nodes ∧ ∀ decoded rest, Chars decoded after.rest rest →
      Chars (char :: decoded) ('\\' :: 'u' :: parser.rest) rest := by
  rw [unicode, bind_eq_ok] at read
  obtain ⟨⟨first, middle⟩, hex, read⟩ := read
  obtain ⟨digits, unit, split, nodes⟩ := hex4_sound hex
  dsimp only at read
  split_ifs at read with high low
  · simp only [bind_eq_ok, unit_exists_ok, refuse_eq_ok, bne_eq_false_iff_eq, okOr_eq_ok,
      Prod.exists, Bool.not_eq_false', decide_eq_true_eq, Except.ok.injEq, Prod.mk.injEq] at read
    obtain ⟨slash, letter, second, last, hexed, isLow, combined, valid, rfl, rfl⟩ := read
    obtain ⟨digits', unit', split', nodes'⟩ := hex4_sound hexed
    obtain ⟨at_, bumped⟩ := bump_eq_some (Prod.ext slash rfl : middle.bump = (some '\\', middle.bump.2))
    obtain ⟨at_', bumped'⟩ := bump_eq_some
      (Prod.ext letter rfl : middle.bump.2.bump = (some 'u', middle.bump.2.bump.2))
    refine ⟨by rw [nodes', bumped', bumped, nodes], fun decoded rest more => ?_⟩
    rw [split, at_, at_', split', fromU32_eq_some valid]
    exact .pair unit high unit' isLow more
  · simp only [bind_eq_ok, okOr_eq_ok, Except.ok.injEq, Prod.mk.injEq] at read
    obtain ⟨held, valid, rfl, rfl⟩ := read
    refine ⟨nodes, fun decoded rest more => ?_⟩
    rw [split, fromU32_eq_some valid]
    exact .scalar unit (by omega) more

theorem simpleEscape_eq_some {letter : Char} :
    simpleEscape letter = some char ↔ (letter, char) ∈ escapes := by
  unfold simpleEscape
  split <;> simp_all [escapes, eq_comm]

theorem escape_sound (read : parser.escape position = .ok (char, after)) :
    after.nodes = parser.nodes ∧ ∀ decoded rest, Chars decoded after.rest rest →
      Chars (char :: decoded) ('\\' :: parser.rest) rest := by
  rw [escape] at read
  split at read
  · rename_i letter next bumped
    obtain ⟨at_, nodes⟩ := bump_eq_some bumped
    split at read
    · rename_i isUnicode
      subst isUnicode
      obtain ⟨kept, spells⟩ := unicode_sound read
      exact ⟨kept.trans nodes, fun decoded rest more => at_ ▸ spells decoded rest more⟩
    · split at read
      · rename_i escaped simple
        obtain ⟨rfl, rfl⟩ := Prod.mk.inj (Except.ok.inj read)
        exact ⟨nodes, fun decoded rest more => at_ ▸ .escaped (simpleEscape_eq_some.mp simple) more⟩
      · cases read
  · cases read

/-- The characters up to a closing quotation mark. -/
theorem stringFrom_sound {start : Position} {fuel : Nat} {out : List Char}
    (read : stringFrom limits start fuel out parser = .ok (text, after)) :
    Within limits.stringBytes (Text.len text) ∧ after.nodes = parser.nodes ∧
      ∃ decoded, text = String.ofList (out ++ decoded) ∧ Chars decoded parser.rest after.rest := by
  induction fuel generalizing out parser with
  | zero => cases read
  | succ fuel ih =>
    rw [stringFrom] at read
    split at read
    · cases read
    · rename_i fits
      split at read
      · cases read
      · rename_i char rest at_
        have first : parser.rest.head? = some char := by rw [at_]; rfl
        have bumped := bump_of_head first
        split_ifs at read with quote slash control
        · obtain ⟨rfl, rfl⟩ := Prod.mk.inj (Except.ok.inj read)
          refine ⟨stringOverflows_eq_false.mp (Bool.not_eq_true _ ▸ fits), bump_nodes parser, [],
            by rw [append_nil], ?_⟩
          rw [bumped, quote]
          exact .close
        · rw [bind_eq_ok] at read
          obtain ⟨⟨escaped, next⟩, escapes, read⟩ := read
          obtain ⟨nodes, spells⟩ := escape_sound escapes
          obtain ⟨within, kept, decoded, whole, more⟩ := ih read
          refine ⟨within, by rw [kept, nodes, bump_nodes], escaped :: decoded, ?_, ?_⟩
          · rw [whole, append_assoc, singleton_append]
          · rw [bumped, slash]
            exact spells decoded after.rest more
        · cases read
        · obtain ⟨within, kept, decoded, whole, more⟩ := ih read
          refine ⟨within, by rw [kept, bump_nodes], char :: decoded, ?_, ?_⟩
          · rw [whole, append_assoc, singleton_append]
          · rw [bumped]
            exact .unescaped ⟨Nat.not_lt.mp control, quote, slash⟩ more

theorem string_sound (read : parser.string limits = .ok (text, after)) :
    Within limits.stringBytes (Text.len text) ∧ after.nodes = parser.nodes ∧
      Quoted text parser.rest after.rest := by
  rw [string, bind_eq_ok] at read
  obtain ⟨inner, opened, read⟩ := read
  obtain ⟨at_, nodes⟩ := expect_eq_ok opened
  obtain ⟨within, kept, decoded, whole, chars⟩ := stringFrom_sound read
  refine ⟨within, kept.trans nodes, ?_⟩
  rw [at_]
  refine .intro ?_
  rw [whole, nil_append, String.toList_ofList]
  exact chars

end Strings

section Numbers

variable {parser after : Parser} {position : Position}

/-- A run that begins with a digit. -/
theorem skipDigits_leads {first : Char} (leads : parser.rest.head? = some first)
    (digit : first.isDigit = true) :
    ∃ more, (∀ char ∈ more, char.isDigit = true) ∧
      parser.rest = first :: (more ++ (parser.skipWhile Char.isDigit).rest) := by
  obtain ⟨digits, all, whole, stops⟩ := skipWhile_split Char.isDigit parser
  cases digits with
  | nil =>
    rw [nil_append] at whole
    rw [whole] at leads
    rw [stops first leads] at digit
    cases digit
  | cons head more =>
    rw [whole] at leads
    obtain rfl : head = first := Option.some.inj leads
    exact ⟨more, (List.forall_mem_cons.mp all).2, whole⟩

theorem digits_sound (read : parser.digits = .ok after) :
    after.nodes = parser.nodes ∧ ∃ digits, Digits digits ∧ parser.rest = digits ++ after.rest := by
  unfold digits at read
  split at read
  · rename_i leads
    rw [← Except.ok.inj read]
    cases first : parser.rest.head? with
    | none =>
      rw [first] at leads
      cases leads
    | some char =>
      rw [first] at leads
      obtain ⟨more, all, whole⟩ := skipDigits_leads first leads
      exact ⟨rfl, char :: more, ⟨nofun, List.forall_mem_cons.mpr ⟨leads, all⟩⟩, whole⟩
  · cases read

theorem integerPart_sound (read : parser.integerPart = .ok after) :
    after.nodes = parser.nodes ∧ ∃ whole, Whole whole ∧ parser.rest = whole ++ after.rest := by
  unfold integerPart at read
  split at read
  · rename_i head first
    split_ifs at read with zero digit
    · rw [← Except.ok.inj read]
      exact ⟨bump_nodes parser, ['0'], .zero, bump_of_head (zero ▸ first)⟩
    · rw [← Except.ok.inj read]
      obtain ⟨more, all, whole⟩ := skipDigits_leads first digit
      exact ⟨rfl, head :: more, .digits digit zero all, whole⟩
    · cases read
  · cases read

theorem fractionPart_sound (read : parser.fractionPart = .ok after) :
    after.nodes = parser.nodes ∧
      ∃ fraction, Fraction fraction ∧ parser.rest = fraction ++ after.rest := by
  unfold fractionPart at read
  split at read
  · rename_i point
    obtain ⟨nodes, digits, some_, split⟩ := digits_sound read
    refine ⟨nodes.trans (bump_nodes parser), '.' :: digits, .digits some_, ?_⟩
    rw [bump_of_head point, split, cons_append]
  · rw [← Except.ok.inj read]
    exact ⟨rfl, [], .absent, rfl⟩

theorem skipSign_sound (parser : Parser) :
    parser.skipSign.nodes = parser.nodes ∧
      ∃ sign ∈ [[], ['+'], ['-']], parser.rest = sign ++ parser.skipSign.rest := by
  unfold skipSign
  split
  · rename_i signed
    refine ⟨bump_nodes parser, ?_⟩
    rcases signed with plus | minus
    · exact ⟨['+'], by simp, bump_of_head plus⟩
    · exact ⟨['-'], by simp, bump_of_head minus⟩
  · exact ⟨rfl, [], by simp, rfl⟩

theorem exponentPart_sound (read : parser.exponentPart = .ok after) :
    after.nodes = parser.nodes ∧
      ∃ exponent, Exponent exponent ∧ parser.rest = exponent ++ after.rest := by
  unfold exponentPart at read
  split at read
  · rename_i marked
    obtain ⟨nodes, digits, some_, split⟩ := digits_sound read
    obtain ⟨kept, sign, signs, signed⟩ := skipSign_sound parser.bump.2
    have marks : ∃ mark, (mark = 'e' ∨ mark = 'E') ∧ parser.rest = mark :: parser.bump.2.rest := by
      rcases marked with small | capital
      · exact ⟨'e', .inl rfl, bump_of_head small⟩
      · exact ⟨'E', .inr rfl, bump_of_head capital⟩
    obtain ⟨mark, marks, at_⟩ := marks
    refine ⟨nodes.trans (kept.trans (bump_nodes parser)), mark :: (sign ++ digits),
      .digits marks signs some_, ?_⟩
    rw [at_, signed, split, cons_append, append_assoc]
  · rw [← Except.ok.inj read]
    exact ⟨rfl, [], .absent, rfl⟩

/-- `i64::from_str` within the safe range is the integer's own value. -/
theorem safeInteger_eq_ok {text : String} {value : Int} :
    safeInteger text position = .ok value ↔
      integerOf text.toList = some value ∧ value.natAbs ≤ maxSafeInteger := by
  have top : maxSafeInteger < 2 ^ 63 := by decide
  rw [safeInteger, okOr_eq_ok, Option.filter_eq_some_iff, decide_eq_true_eq]
  refine and_congr_left fun safe => ?_
  unfold parseI64
  generalize text.toList = chars
  unfold integerOf
  generalize 2 ^ 63 = limit at top
  split <;>
    simp only [Option.bind_eq_some_iff, Option.map_eq_some_iff, Option.ite_none_right_eq_some,
      Option.some.injEq] <;>
    refine exists_congr fun held => and_congr_right fun _ => ⟨And.right, fun same => ⟨?_, same⟩⟩ <;>
    omega

/-- The parser past a number's minus sign, if it has one. -/
def unsigned (parser : Parser) : Parser :=
  if parser.rest.head? = some '-' then parser.bump.2 else parser

theorem unsigned_sound (parser : Parser) :
    parser.unsigned.nodes = parser.nodes ∧
      ∃ sign, (sign = [] ∨ sign = ['-']) ∧ parser.rest = sign ++ parser.unsigned.rest := by
  unfold unsigned
  split
  · rename_i minus
    exact ⟨bump_nodes parser, ['-'], .inr rfl, bump_of_head minus⟩
  · exact ⟨rfl, [], .inl rfl, rfl⟩

theorem take_spelled {spelled rest : List Char} (at_ : parser.rest = spelled ++ rest) :
    parser.rest.take (parser.rest.length - rest.length) = spelled := by
  rw [at_, length_append, Nat.add_sub_cancel, take_left]

theorem number_sound {limits : Limits} {node : Node}
    (read : parser.number limits position = .ok (node, after)) :
    after.nodes = parser.nodes ∧ ∃ text, IsNumber text ∧ parser.rest = text ++ after.rest ∧
      NumberAllowed limits.numbers (String.ofList text) ∧
      Represents limits.numbers node (.number (String.ofList text)) := by
  simp only [number, bind_eq_ok] at read
  obtain ⟨first, wholes, second, fractions, third, exponents, read⟩ := read
  obtain ⟨nodes, sign, signs, signed⟩ := unsigned_sound parser
  obtain ⟨nodes₁, whole, isWhole, split₁⟩ := integerPart_sound wholes
  obtain ⟨nodes₂, fraction, isFraction, split₂⟩ := fractionPart_sound fractions
  obtain ⟨nodes₃, exponent, isExponent, split₃⟩ := exponentPart_sound exponents
  have spelled : parser.rest = sign ++ (whole ++ (fraction ++ exponent)) ++ third.rest := by
    rw [signed, unsigned, split₁, split₂, split₃]
    simp
  have isNumber : IsNumber (sign ++ (whole ++ (fraction ++ exponent))) :=
    ⟨sign, whole, fraction, exponent, ⟨signs, isWhole, isFraction, isExponent⟩, rfl⟩
  rw [take_spelled spelled] at read
  generalize sign ++ (whole ++ (fraction ++ exponent)) = text at read spelled isNumber
  have kept : third.nodes = parser.nodes := nodes₃.trans (nodes₂.trans (nodes₁.trans nodes))
  split at read
  · rename_i any
    obtain ⟨rfl, rfl⟩ := Prod.mk.inj (Except.ok.inj read)
    exact ⟨kept, text, isNumber, spelled, any ▸ trivial, any, rfl⟩
  · rename_i safe
    split at read
    · simp only [bind_eq_ok, safeInteger_eq_ok, Except.ok.injEq, Prod.mk.injEq] at read
      obtain ⟨value, ⟨held, small⟩, rfl, rfl⟩ := read
      exact ⟨kept, text, isNumber, spelled, safe ▸ ⟨value, held, small⟩, safe, held⟩
    · cases read

end Numbers

section Values

variable {limits : Limits} {parser after : Parser} {open_ : Nat} {position : Position} {node : Node}
  {input rest start : List Char}

theorem literal_rest (word : List Char) (parser : Parser)
    (leads : word.isPrefixOf parser.rest = true) :
    (word.foldl (fun parser _ => parser.bump.2) parser).nodes = parser.nodes ∧
      parser.rest = word ++ (word.foldl (fun parser _ => parser.bump.2) parser).rest := by
  induction word generalizing parser with
  | nil => exact ⟨rfl, rfl⟩
  | cons char word ih =>
    obtain ⟨rest, position, nodes⟩ := parser
    cases rest with
    | nil => cases leads
    | cons head rest =>
      rw [List.isPrefixOf, Bool.and_eq_true, beq_iff_eq] at leads
      obtain ⟨nodes, whole⟩ := ih ⟨rest, _, _⟩ leads.2
      exact ⟨nodes, by rw [leads.1]; exact congrArg (head :: ·) whole⟩

theorem literal_sound {word : List Char} {made : Position → Node}
    (read : parser.literal word made position = .ok (node, after)) :
    node = made position ∧ after.nodes = parser.nodes ∧ parser.rest = word ++ after.rest := by
  unfold literal at read
  split at read
  · rename_i leads
    obtain ⟨rfl, rfl⟩ := Prod.mk.inj (Except.ok.inj read)
    exact ⟨rfl, literal_rest word parser leads⟩
  · cases read

/-- What reading one value establishes, where `start` values were counted before it. -/
structure ValueRead (limits : Limits) (open_ start : Nat) (input : List Char) (after : Parser)
    (node : Node) (json : Json) : Prop where
  derives : Derives (.value json) input after.rest
  allowed : Allowed limits open_ json
  represents : Represents limits.numbers node json
  counts : after.nodes = start + Grammar.nodes json
  within : Within limits.nodes after.nodes

/-- What reading the items after `held` establishes. -/
structure ItemsRead (limits : Limits) (open_ : Nat) (held : List Node) (parser after : Parser)
    (items : List Node) (values : List Json) : Prop where
  derives : Derives (.items values) parser.rest after.rest
  allowed : AllowedItems limits (open_ + 1) values
  represents : RepresentsItems limits.numbers items values
  elements : Within limits.elements (held.length + values.length)
  counts : after.nodes = parser.nodes + nodesOfItems values
  within : Within limits.nodes after.nodes

/-- What reading the members after `held` establishes. -/
structure MembersRead (limits : Limits) (open_ : Nat) (held : List (String × Position × Node))
    (parser after : Parser) (entries : List (String × Position × Node))
    (members : List (String × Json)) : Prop where
  derives : Derives (.members members) parser.rest after.rest
  allowed : AllowedMembers limits (open_ + 1) members
  represents : RepresentsMembers limits.numbers entries members
  distinct : (members.map Prod.fst).Nodup
  fresh : ∀ name ∈ members.map Prod.fst, name ∉ held.map Prod.fst
  listed : Within limits.members (held.length + members.length)
  counts : after.nodes = parser.nodes + nodesOfMembers members
  within : Within limits.nodes after.nodes

theorem whitespace_trans {middle : List Char} (first : Whitespace input middle)
    (second : Whitespace middle rest) : Whitespace input rest := by
  obtain ⟨skipped, blank, rfl⟩ := first
  obtain ⟨skipped', blank', rfl⟩ := second
  exact ⟨skipped ++ skipped', List.forall_mem_append.mpr ⟨blank, blank'⟩,
    (append_assoc ..).symm⟩

/-- The text inside a collection may begin with more whitespace. -/
theorem derives_skip {phrase : Phrase} (within : ∀ json, phrase ≠ .value json)
    (skips : Whitespace input start) (derives : Derives phrase start rest) :
    Derives phrase input rest := by
  cases derives with
  | lastItem leads derives closes => exact .lastItem (whitespace_trans skips leads) derives closes
  | item leads derives separates more =>
    exact .item (whitespace_trans skips leads) derives separates more
  | lastMember leads quoted colon follows derives closes =>
    exact .lastMember (whitespace_trans skips leads) quoted colon follows derives closes
  | member leads quoted colon follows derives separates more =>
    exact .member (whitespace_trans skips leads) quoted colon follows derives separates more
  | _ => exact absurd rfl (within _)

theorem opened_sound {bracket : Char} {inner : Parser}
    (opened : parser.expect bracket = .ok inner) :
    inner.skipWhitespace.nodes = parser.nodes ∧
      ∃ body, parser.rest = bracket :: body ∧ Whitespace body inner.skipWhitespace.rest :=
  ⟨(expect_eq_ok opened).2, inner.rest, (expect_eq_ok opened).1, skipWhitespace_sound inner⟩

/-- What follows an item or a member: the separator and more, or the end. -/
theorem closes_sound {char : Char} (first : parser.skipWhitespace.rest.head? = some char) :
    Whitespace parser.rest (char :: parser.skipWhitespace.bump.2.rest) := by
  have skips := skipWhitespace_sound parser
  rwa [bump_of_head first] at skips

mutual

theorem value_sound : ∀ (fuel open_ : Nat) (parser after : Parser) (node : Node)
    (_ : value limits fuel open_ parser = .ok (node, after)),
    ∃ json, ValueRead limits open_ parser.nodes parser.rest after node json
  | 0, _, _, _, _, read => by
    rw [value] at read
    cases read
  | fuel + 1, open_, parser, after, node, read => by
    simp only [value, bind_eq_ok, node_eq_ok] at read
    obtain ⟨_, ⟨within, rfl⟩, read⟩ := read
    split at read
    · cases read
    · rename_i head first
      split_ifs at read with brace bracket quote letterT letterF letterN numeral
      · exact object_sound fuel open_ parser.position parser.nodes
          { parser with nodes := parser.nodes + 1 } after node rfl within read
      · exact array_sound fuel open_ parser.position parser.nodes
          { parser with nodes := parser.nodes + 1 } after node rfl within read
      · simp only [bind_eq_ok, unit_exists_ok, limits_string_eq_ok, Prod.exists, Except.ok.injEq,
          Prod.mk.injEq] at read
        obtain ⟨text, _, spelled, allowed, rfl, rfl⟩ := read
        obtain ⟨-, kept, quoted⟩ := string_sound spelled
        exact ⟨.string text, .string quoted, allowed, rfl, kept, kept ▸ within⟩
      · obtain ⟨rfl, kept, at_⟩ := literal_sound read
        exact ⟨.bool true, at_ ▸ .true_, trivial, rfl, kept, kept ▸ within⟩
      · obtain ⟨rfl, kept, at_⟩ := literal_sound read
        exact ⟨.bool false, at_ ▸ .false_, trivial, rfl, kept, kept ▸ within⟩
      · obtain ⟨rfl, kept, at_⟩ := literal_sound read
        exact ⟨.null, at_ ▸ .null, trivial, trivial, kept, kept ▸ within⟩
      · obtain ⟨kept, text, isNumber, at_, allowed, represents⟩ := number_sound read
        exact ⟨.number (String.ofList text), at_ ▸ .number isNumber, allowed, represents, kept,
          kept ▸ within⟩
      · cases read

theorem array_sound : ∀ (fuel open_ : Nat) (position : Position) (start : Nat)
    (parser after : Parser) (node : Node) (_ : parser.nodes = start + 1)
    (_ : Within limits.nodes parser.nodes)
    (_ : array limits fuel open_ position parser = .ok (node, after)),
    ∃ json, ValueRead limits open_ start parser.rest after node json
  | 0, _, _, _, _, _, _, _, _, read => by
    rw [array] at read
    cases read
  | fuel + 1, open_, position, start, parser, after, node, counted, within, read => by
    simp only [array, bind_eq_ok, unit_exists_ok, openCollection_eq_ok] at read
    obtain ⟨shallow, inner, opened, read⟩ := read
    obtain ⟨kept, body, at_, skips⟩ := opened_sound opened
    split_ifs at read with closes
    · obtain ⟨rfl, rfl⟩ := Prod.mk.inj (Except.ok.inj read)
      have same : inner.skipWhitespace.bump.2.nodes = parser.nodes := (bump_nodes _).trans kept
      refine ⟨.array [], ?_, ⟨shallow, fun _ _ => Nat.zero_le _, trivial⟩, trivial,
        same.trans counted, same ▸ within⟩
      rw [at_]
      exact .emptyArray (bump_of_head closes ▸ skips)
    · simp only [bind_eq_ok, Prod.exists, Except.ok.injEq, Prod.mk.injEq] at read
      obtain ⟨items, _, listed, rfl, rfl⟩ := read
      obtain ⟨items', values, rfl, reads⟩ := itemsFrom_sound fuel open_ [] _ _ items listed
      refine ⟨.array values, ?_, ⟨shallow, ?_, reads.allowed⟩, reads.represents, ?_, reads.within⟩
      · rw [at_]
        exact .array (derives_skip nofun skips reads.derives)
      · simpa using reads.elements
      · rw [reads.counts, kept, counted, Grammar.nodes]
        omega

theorem itemsFrom_sound : ∀ (fuel open_ : Nat) (held : List Node) (parser after : Parser)
    (all : List Node) (_ : itemsFrom limits fuel open_ held parser = .ok (all, after)),
    ∃ items values, all = held ++ items ∧ ItemsRead limits open_ held parser after items values
  | 0, _, _, _, _, _, read => by
    rw [itemsFrom] at read
    cases read
  | fuel + 1, open_, held, parser, after, all, read => by
    simp only [itemsFrom, bind_eq_ok, unit_exists_ok, bound_eq_ok, Prod.exists] at read
    obtain ⟨room, item, next, valued, read⟩ := read
    obtain ⟨json, first⟩ := value_sound fuel (open_ + 1) _ next item valued
    have leads := skipWhitespace_sound parser
    split_ifs at read with comma closes
    · obtain ⟨items, values, rfl,
        more⟩ := itemsFrom_sound fuel open_ (held ++ [item]) _ after all read
      refine ⟨item :: items, json :: values, by rw [append_assoc, singleton_append],
        .item leads first.derives (closes_sound comma) more.derives, ⟨first.allowed, more.allowed⟩,
        ⟨first.represents, more.represents⟩, ?_, ?_, more.within⟩
      · have elements := more.elements
        rwa [length_append, length_singleton, Nat.add_assoc, Nat.add_comm 1] at elements
      · rw [more.counts, bump_nodes, skipWhitespace_nodes, first.counts, skipWhitespace_nodes,
          nodesOfItems, Nat.add_assoc]
    · obtain ⟨rfl, rfl⟩ := Prod.mk.inj (Except.ok.inj read)
      refine ⟨[item], [json], rfl, .lastItem leads first.derives (closes_sound closes),
        ⟨first.allowed, trivial⟩, ⟨first.represents, trivial⟩, room, ?_, ?_⟩
      · rw [bump_nodes, skipWhitespace_nodes, first.counts, skipWhitespace_nodes]
        rfl
      · rw [bump_nodes, skipWhitespace_nodes]
        exact first.within
    · cases read

theorem object_sound : ∀ (fuel open_ : Nat) (position : Position) (start : Nat)
    (parser after : Parser) (node : Node) (_ : parser.nodes = start + 1)
    (_ : Within limits.nodes parser.nodes)
    (_ : object limits fuel open_ position parser = .ok (node, after)),
    ∃ json, ValueRead limits open_ start parser.rest after node json
  | 0, _, _, _, _, _, _, _, _, read => by
    rw [object] at read
    cases read
  | fuel + 1, open_, position, start, parser, after, node, counted, within, read => by
    simp only [object, bind_eq_ok, unit_exists_ok, openCollection_eq_ok] at read
    obtain ⟨shallow, inner, opened, read⟩ := read
    obtain ⟨kept, body, at_, skips⟩ := opened_sound opened
    split_ifs at read with closes
    · obtain ⟨rfl, rfl⟩ := Prod.mk.inj (Except.ok.inj read)
      have same : inner.skipWhitespace.bump.2.nodes = parser.nodes := (bump_nodes _).trans kept
      refine ⟨.object [], ?_, ⟨shallow, fun _ _ => Nat.zero_le _, .nil, trivial⟩, trivial,
        same.trans counted, same ▸ within⟩
      rw [at_]
      exact .emptyObject (bump_of_head closes ▸ skips)
    · simp only [bind_eq_ok, Prod.exists, Except.ok.injEq, Prod.mk.injEq] at read
      obtain ⟨entries, _, listed, rfl, rfl⟩ := read
      obtain ⟨entries', members, rfl, reads⟩ := membersFrom_sound fuel open_ [] _ _ entries listed
      refine ⟨.object members, ?_, ⟨shallow, ?_, reads.distinct, reads.allowed⟩, reads.represents, ?_,
        reads.within⟩
      · rw [at_]
        exact .object (derives_skip nofun skips reads.derives)
      · simpa using reads.listed
      · rw [reads.counts, kept, counted, Grammar.nodes]
        omega

theorem membersFrom_sound : ∀ (fuel open_ : Nat) (held : List (String × Position × Node))
    (parser after : Parser) (all : List (String × Position × Node))
    (_ : membersFrom limits fuel open_ held parser = .ok (all, after)),
    ∃ entries members, all = held ++ entries ∧
      MembersRead limits open_ held parser after entries members
  | 0, _, _, _, _, _, read => by
    rw [membersFrom] at read
    cases read
  | fuel + 1, open_, held, parser, after, all, read => by
    simp only [membersFrom] at read
    split at read
    · cases read
    · simp only [bind_eq_ok, unit_exists_ok, bound_eq_ok, limits_key_eq_ok, refuse_eq_ok,
        Prod.exists] at read
      obtain ⟨name, named, spelled, ⟨key, characters⟩, unused, room, spaced, colon, node, next,
        valued, read⟩ := read
      obtain ⟨string, kept, quoted⟩ := string_sound spelled
      obtain ⟨separated, kept'⟩ := expect_eq_ok colon
      obtain ⟨json, first⟩ := value_sound fuel (open_ + 1) _ next node valued
      have leads := skipWhitespace_sound parser
      have colons : Whitespace named.rest (':' :: spaced.rest) :=
        separated ▸ skipWhitespace_sound named
      have follows := skipWhitespace_sound spaced
      have fresh : name ∉ held.map Prod.fst := by
        intro listed
        obtain ⟨member, isHeld, rfl⟩ := List.mem_map.mp listed
        exact List.any_eq_false.mp unused member isHeld (beq_self_eq_true _)
      have counted : next.nodes = parser.nodes + Grammar.nodes json := by
        rw [first.counts, skipWhitespace_nodes, kept', skipWhitespace_nodes, kept,
          skipWhitespace_nodes]
      split_ifs at read with comma closes
      · obtain ⟨entries, members, rfl, more⟩ := membersFrom_sound fuel open_ _ _ after all read
        have names := more.fresh
        simp only [map_append, map_cons, map_nil, mem_append,
          mem_singleton, not_or] at names
        refine ⟨(name, parser.skipWhitespace.position, node) :: entries, (name, json) :: members,
          by rw [append_assoc, singleton_append],
          .member leads quoted colons follows first.derives (closes_sound comma) more.derives,
          ⟨⟨string, key, characters⟩, first.allowed, more.allowed⟩,
          ⟨rfl, first.represents, more.represents⟩,
          List.nodup_cons.mpr ⟨fun listed => (names name listed).2 rfl, more.distinct⟩,
          List.forall_mem_cons.mpr ⟨fresh, fun other listed => (names other listed).1⟩, ?_, ?_,
          more.within⟩
        · have listed := more.listed
          rwa [length_append, length_singleton, Nat.add_assoc, Nat.add_comm 1] at listed
        · rw [more.counts, bump_nodes, skipWhitespace_nodes, counted, nodesOfMembers, Nat.add_assoc]
      · obtain ⟨rfl, rfl⟩ := Prod.mk.inj (Except.ok.inj read)
        refine ⟨[(name, parser.skipWhitespace.position, node)], [(name, json)], rfl,
          .lastMember leads quoted colons follows first.derives (closes_sound closes),
          ⟨⟨string, key, characters⟩, first.allowed, trivial⟩, ⟨rfl, first.represents, trivial⟩,
          nodup_singleton name, List.forall_mem_singleton.mpr fresh, room, ?_, ?_⟩
        · rw [bump_nodes, skipWhitespace_nodes, counted]
          rfl
        · rw [bump_nodes, skipWhitespace_nodes]
          exact first.within
      · cases read

end

/-- A document that is read is one the grammar derives and the bounds allow. -/
theorem parse_sound {text : String} (read : parse text limits = .ok node) :
    ∃ json, Document json text.toList ∧ Accepted limits json ∧ Represents limits.numbers node json := by
  simp only [parse] at read
  split at read
  · cases read
  · simp only [bind_eq_ok, Prod.exists] at read
    obtain ⟨held, after, valued, read⟩ := read
    split at read
    · rename_i done
      obtain rfl := Except.ok.inj read
      obtain ⟨json, reads⟩ := value_sound _ 0 _ after held valued
      have counted : after.nodes = Grammar.nodes json := reads.counts.trans (Nat.zero_add _)
      refine ⟨json, ⟨_, after.rest, skipWhitespace_sound { rest := text.toList }, reads.derives, ?_⟩,
        ⟨reads.allowed, counted ▸ reads.within⟩, reads.represents⟩
      have trailing := skipWhitespace_sound after
      rwa [List.isEmpty_iff.mp done] at trailing
    · cases read

end Values

end GreenGateway.Config.Parser
