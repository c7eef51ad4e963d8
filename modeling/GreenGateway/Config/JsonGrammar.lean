import GreenGateway.Config.StrictJson

/-! The grammar of RFC 8259, and the documents a reader's bounds allow. A phrase derives
from a text that begins with it; what follows it is the rest. -/

namespace GreenGateway.Config.Grammar

open Foundation

section Lexical

/-- `ws`, up to the rest. -/
def Whitespace (input rest : List Char) : Prop :=
  ∃ skipped, (∀ char ∈ skipped, char ∈ [' ', '\t', '\n', '\r']) ∧ input = skipped ++ rest

/-- `unescaped`: everything but the quotation mark, the backslash and the controls. -/
def IsUnescaped (char : Char) : Prop := 0x20 ≤ char.toNat ∧ char ≠ '"' ∧ char ≠ '\\'

/-- The letters of the two-character escapes, with what they stand for. -/
def escapes : List (Char × Char) :=
  [('"', '"'), ('\\', '\\'), ('/', '/'), ('b', '\x08'), ('f', '\x0c'), ('n', '\n'), ('r', '\r'),
    ('t', '\t')]

/-- `HEXDIG`, in either case. -/
def HexDigit (char : Char) (value : Nat) : Prop :=
  value < 16 ∧ (char = Json.hexDigit value ∨ char = (Json.hexDigit value).toUpper)

/-- Hexadecimal digits after `start`. -/
def Hexadecimal (start : Nat) (digits : List Char) (code : Nat) : Prop :=
  ∃ values, List.Forall₂ HexDigit digits values ∧
    code = values.foldl (fun code value => code * 16 + value) start

/-- `4HEXDIG`: one UTF-16 code unit. -/
def Unit16 (digits : List Char) (code : Nat) : Prop := digits.length = 4 ∧ Hexadecimal 0 digits code

/-- The characters of a string and its closing quotation mark. A unit of a surrogate pair
stands with its other half only. -/
inductive Chars : List Char → List Char → List Char → Prop where
  | close {rest : List Char} : Chars [] ('"' :: rest) rest
  | unescaped {char : Char} {decoded input rest : List Char} (plain : IsUnescaped char)
      (more : Chars decoded input rest) : Chars (char :: decoded) (char :: input) rest
  | escaped {letter char : Char} {decoded input rest : List Char}
      (listed : (letter, char) ∈ escapes) (more : Chars decoded input rest) :
      Chars (char :: decoded) ('\\' :: letter :: input) rest
  | scalar {digits decoded input rest : List Char} {code : Nat} (unit : Unit16 digits code)
      (alone : ¬ (0xd800 ≤ code ∧ code ≤ 0xdfff)) (more : Chars decoded input rest) :
      Chars (Char.ofNat code :: decoded) ('\\' :: 'u' :: (digits ++ input)) rest
  | pair {digits digits' decoded input rest : List Char} {high low : Nat}
      (first : Unit16 digits high) (isHigh : 0xd800 ≤ high ∧ high ≤ 0xdbff)
      (second : Unit16 digits' low) (isLow : 0xdc00 ≤ low ∧ low ≤ 0xdfff)
      (more : Chars decoded input rest) :
      Chars (Char.ofNat (0x10000 + (high - 0xd800) * 0x400 + (low - 0xdc00)) :: decoded)
        ('\\' :: 'u' :: (digits ++ '\\' :: 'u' :: (digits' ++ input))) rest

/-- `string`. -/
inductive Quoted : String → List Char → List Char → Prop where
  | intro {text : String} {input rest : List Char} (chars : Chars text.toList input rest) :
      Quoted text ('"' :: input) rest

/-- `1*DIGIT`. -/
def Digits (chars : List Char) : Prop := chars ≠ [] ∧ ∀ char ∈ chars, char.isDigit = true

/-- `int`. -/
inductive Whole : List Char → Prop where
  | zero : Whole ['0']
  | digits {first : Char} {more : List Char} (leads : first.isDigit = true) (significant : first ≠ '0')
      (digits : ∀ char ∈ more, char.isDigit = true) : Whole (first :: more)

/-- `[ frac ]`. -/
inductive Fraction : List Char → Prop where
  | absent : Fraction []
  | digits {digits : List Char} (some_ : Digits digits) : Fraction ('.' :: digits)

/-- `[ exp ]`. -/
inductive Exponent : List Char → Prop where
  | absent : Exponent []
  | digits {mark : Char} {sign digits : List Char} (marks : mark = 'e' ∨ mark = 'E')
      (signs : sign ∈ [[], ['+'], ['-']]) (some_ : Digits digits) :
      Exponent (mark :: (sign ++ digits))

/-- `number`, in its parts. -/
structure Number (sign whole fraction exponent : List Char) : Prop where
  sign : sign = [] ∨ sign = ['-']
  whole : Whole whole
  fraction : Fraction fraction
  exponent : Exponent exponent

/-- `number`. -/
def IsNumber (text : List Char) : Prop :=
  ∃ sign whole fraction exponent, Number sign whole fraction exponent ∧
    text = sign ++ (whole ++ (fraction ++ exponent))

end Lexical

section Phrases

/-- What a text derives: a value, or what stands between an array's or object's brackets up
to the closing one. -/
inductive Phrase where
  | value (value : Json)
  | items (values : List Json)
  | members (members : List (String × Json))

inductive Derives : Phrase → List Char → List Char → Prop where
  | null {rest : List Char} : Derives (.value .null) ('n' :: 'u' :: 'l' :: 'l' :: rest) rest
  | true_ {rest : List Char} :
      Derives (.value (.bool true)) ('t' :: 'r' :: 'u' :: 'e' :: rest) rest
  | false_ {rest : List Char} :
      Derives (.value (.bool false)) ('f' :: 'a' :: 'l' :: 's' :: 'e' :: rest) rest
  | number {text rest : List Char} (number : IsNumber text) :
      Derives (.value (.number (String.ofList text))) (text ++ rest) rest
  | string {text : String} {input rest : List Char} (quoted : Quoted text input rest) :
      Derives (.value (.string text)) input rest
  | emptyArray {inner rest : List Char} (closes : Whitespace inner (']' :: rest)) :
      Derives (.value (.array [])) ('[' :: inner) rest
  | array {values : List Json} {inner rest : List Char} (items : Derives (.items values) inner rest) :
      Derives (.value (.array values)) ('[' :: inner) rest
  | emptyObject {inner rest : List Char} (closes : Whitespace inner ('\x7d' :: rest)) :
      Derives (.value (.object [])) ('\x7b' :: inner) rest
  | object {members : List (String × Json)} {inner rest : List Char}
      (listed : Derives (.members members) inner rest) :
      Derives (.value (.object members)) ('\x7b' :: inner) rest
  | lastItem {value : Json} {input start after rest : List Char} (leads : Whitespace input start)
      (derives : Derives (.value value) start after) (closes : Whitespace after (']' :: rest)) :
      Derives (.items [value]) input rest
  | item {value : Json} {values : List Json} {input start after next rest : List Char}
      (leads : Whitespace input start) (derives : Derives (.value value) start after)
      (separates : Whitespace after (',' :: next)) (more : Derives (.items values) next rest) :
      Derives (.items (value :: values)) input rest
  | lastMember {name : String} {value : Json}
      {input start named valued spelled after rest : List Char} (leads : Whitespace input start)
      (quoted : Quoted name start named) (colon : Whitespace named (':' :: valued))
      (follows : Whitespace valued spelled) (derives : Derives (.value value) spelled after)
      (closes : Whitespace after ('\x7d' :: rest)) : Derives (.members [(name, value)]) input rest
  | member {name : String} {value : Json} {members : List (String × Json)}
      {input start named valued spelled after next rest : List Char}
      (leads : Whitespace input start) (quoted : Quoted name start named)
      (colon : Whitespace named (':' :: valued)) (follows : Whitespace valued spelled)
      (derives : Derives (.value value) spelled after) (separates : Whitespace after (',' :: next))
      (more : Derives (.members members) next rest) :
      Derives (.members ((name, value) :: members)) input rest

/-- `JSON-text`: one value between whitespace. -/
def Document (value : Json) (text : List Char) : Prop :=
  ∃ start after, Whitespace text start ∧ Derives (.value value) start after ∧ Whitespace after []

end Phrases

section Bounds

mutual

/-- The values of a document, itself included. -/
def nodes : Json → Nat
  | .null | .bool _ | .number _ | .string _ => 1
  | .array values => nodesOfItems values + 1
  | .object members => nodesOfMembers members + 1

def nodesOfItems : List Json → Nat
  | [] => 0
  | value :: values => nodes value + nodesOfItems values

def nodesOfMembers : List (String × Json) → Nat
  | [] => 0
  | (_, value) :: members => nodes value + nodesOfMembers members

end

/-- A bound that is not checked holds of everything. -/
def Within (maximum : Option Nat)
    (count : Nat) : Prop := ∀ limit, maximum = some limit → count ≤ limit

/-- The value of an integer's text. -/
def integerOf : List Char → Option Int
  | '-' :: digits => (decimal? digits).map fun value : Nat => -(value : Int)
  | digits => (decimal? digits).map fun value : Nat => (value : Int)

def NumberAllowed : Numbers → String → Prop
  | .any, _ => True
  | .safeIntegers, text => ∃ value, integerOf text.toList = some value ∧ value.natAbs ≤ maxSafeInteger

/-- The characters a decoded string may hold. -/
def CharactersAllowed (limits : Limits) (text : String) : Prop :=
  limits.textCharacters = true → ∀ char ∈ text.toList, isForbiddenCharacter char = false

variable (limits : Limits)

/-- A member name is a string, and is held to the bound of a key besides. -/
def NameAllowed (name : String) : Prop :=
  Within limits.stringBytes (Text.len name) ∧ Within limits.keyBytes (Text.len name) ∧
    CharactersAllowed limits name

mutual

/-- The values allowed inside `open_` collections. -/
def Allowed (open_ : Nat) : Json → Prop
  | .null | .bool _ => True
  | .number text => NumberAllowed limits.numbers text
  | .string text => Within limits.stringBytes (Text.len text) ∧ CharactersAllowed limits text
  | .array values =>
    open_ + 1 ≤ limits.depth ∧ Within limits.elements values.length ∧ AllowedItems (open_ + 1) values
  | .object members =>
    open_ + 1 ≤ limits.depth ∧ Within limits.members members.length ∧
      (members.map Prod.fst).Nodup ∧ AllowedMembers (open_ + 1) members

def AllowedItems (open_ : Nat) : List Json → Prop
  | [] => True
  | value :: values => Allowed open_ value ∧ AllowedItems open_ values

def AllowedMembers (open_ : Nat) : List (String × Json) → Prop
  | [] => True
  | (name, value) :: members =>
    NameAllowed limits name ∧ Allowed open_ value ∧ AllowedMembers open_ members

end

/-- The documents a reader under `limits` accepts. -/
def Accepted (value : Json) : Prop := Allowed limits 0 value ∧ Within limits.nodes (nodes value)

end Bounds

section Denotation

variable (mode : Numbers)

mutual

/-- The value a node stands for. A number keeps its text, or is the value of its text where
only integers are read. -/
def Represents : Node → Json → Prop
  | .null _, .null => True
  | .bool held _, .bool value => held = value
  | .integer held _, .number text => mode = .safeIntegers ∧ integerOf text.toList = some held
  | .number held _, .number text => mode = .any ∧ held = text
  | .string held _, .string text => held = text
  | .array items _, .array values => RepresentsItems items values
  | .object entries _, .object members => RepresentsMembers entries members
  | _, _ => False

def RepresentsItems : List Node → List Json → Prop
  | [], [] => True
  | item :: items, value :: values => Represents item value ∧ RepresentsItems items values
  | _, _ => False

def RepresentsMembers : List (String × Position × Node) → List (String × Json) → Prop
  | [], [] => True
  | (key, _, node) :: entries, (name, value) :: members =>
    key = name ∧ Represents node value ∧ RepresentsMembers entries members
  | _, _ => False

end

end Denotation

end GreenGateway.Config.Grammar
