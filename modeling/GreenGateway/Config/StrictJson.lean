import GreenGateway.Config.CanonicalJson
import GreenGateway.Foundation.Guards

/-! The bundle's strict JSON reader: it refuses a duplicate member, charges every bound
before the value it limits, and keeps the position of each value. -/

namespace GreenGateway.Config

open Foundation

section Bounds

structure Position where
  line : Nat
  column : Nat
  deriving DecidableEq, Repr

/-- What the reader reports. -/
inductive Code where
  | emptyDocument
  | jsonSyntax
  | jsonDuplicateKey
  | tooManyNodes
  | tooDeep
  | tooManyMembers
  | tooManyElements
  | stringTooLong
  | keyTooLong
  | forbiddenCharacter
  | numberNotInteger
  | integerOutOfRange
  deriving DecidableEq, Repr

structure SyntaxError where
  code : Code
  position : Position
  deriving DecidableEq, Repr

/-- Why a document was not read: it was refused, or the given number of steps was too
small. -/
inductive ReadError where
  | refused (problem : SyntaxError)
  | unfinished
  deriving DecidableEq, Repr

inductive Numbers where
  | safeIntegers
  | any
  deriving DecidableEq, Repr

/-- The bounds one document is read under; one that is `none` is not checked. -/
structure Limits where
  depth : Nat
  members : Option Nat
  elements : Option Nat
  nodes : Option Nat
  stringBytes : Option Nat
  keyBytes : Option Nat
  numbers : Numbers
  textCharacters : Bool

def maxDepth : Nat := 32

def documentLimits : Limits where
  depth := maxDepth
  members := some 1024
  elements := some 4096
  nodes := some 65536
  stringBytes := some (64 * 1024)
  keyBytes := some 128
  numbers := .safeIntegers
  textCharacters := true

def resourceLimits : Limits where
  depth := maxDepth
  members := none
  elements := none
  nodes := none
  stringBytes := none
  keyBytes := none
  numbers := .any
  textCharacters := false

/-- A value with the position it started at. -/
inductive Node where
  | null (position : Position)
  | bool (value : Bool) (position : Position)
  | integer (value : Int) (position : Position)
  | number (text : String) (position : Position)
  | string (text : String) (position : Position)
  | array (items : List Node) (position : Position)
  | object (members : List (String × Position × Node)) (position : Position)

mutual

/-- The JSON value a node denotes. -/
def Node.toJson : Node → Json
  | .null _ => .null
  | .bool value _ => .bool value
  | .integer value _ => .number (toString value)
  | .number text _ => .number text
  | .string text _ => .string text
  | .array items _ => .array (itemsToJson items)
  | .object members _ => .ofMembers (membersToJson members)

def itemsToJson : List Node → List Json
  | [] => []
  | item :: rest => item.toJson :: itemsToJson rest

def membersToJson : List (String × Position × Node) → List (String × Json)
  | [] => []
  | (key, _, value) :: rest => (key, value.toJson) :: membersToJson rest

end

def fail {α : Type} (code : Code) (position : Position) : Except ReadError α :=
  .error (.refused { code, position })

def bound (maximum : Option Nat) (count : Nat) (code : Code) (position : Position) :
    Except ReadError Unit :=
  refuse (maximum.any fun maximum => decide (count > maximum)) (.refused { code, position })

/-- Characters a bundle document may not contain. -/
def isForbiddenCharacter (char : Char) : Bool :=
  let code := char.toNat
  decide (code ≤ 0x8 ∨ (0xb ≤ code ∧ code ≤ 0x1f) ∨ (0x7f ≤ code ∧ code ≤ 0x9f) ∨
    (0x202a ≤ code ∧ code ≤ 0x202e) ∨ (0x2066 ≤ code ∧ code ≤ 0x2069) ∨
    code ∈ [0x61c, 0x200e, 0x200f, 0x2028, 0x2029, 0xfeff])

namespace Limits

def characters (limits : Limits) (text : String) (position : Position) : Except ReadError Unit :=
  refuse (limits.textCharacters && text.toList.any isForbiddenCharacter)
    (.refused { code := .forbiddenCharacter, position })

def string (limits : Limits) (text : String) (position : Position) : Except ReadError Unit := do
  bound limits.stringBytes (Text.len text) .stringTooLong position
  limits.characters text position

def key (limits : Limits) (text : String) (position : Position) : Except ReadError Unit := do
  bound limits.keyBytes (Text.len text) .keyTooLong position
  limits.characters text position

def stringOverflows (limits : Limits) (bytes : Nat) : Bool :=
  limits.stringBytes.any fun maximum => decide (bytes > maximum)

def openCollection (limits : Limits) (open_ : Nat) (position : Position) : Except ReadError Unit :=
  refuse (decide (open_ + 1 > limits.depth)) (.refused { code := .tooDeep, position })

end Limits

end Bounds

section Parser

/-- `u32::saturating_add(1)`. -/
def saturatingNext (value : Nat) : Nat := min (value + 1) (2 ^ 32 - 1)

def Position.after (position : Position) (char : Char) : Position :=
  if char = '\n' then { line := saturatingNext position.line, column := 1 }
  else { position with column := saturatingNext position.column }

structure Parser where
  rest : List Char
  position : Position := { line := 1, column := 1 }
  nodes : Nat := 0

namespace Parser

def error {α : Type} (parser : Parser)
    (code : Code) : Except ReadError α := fail code parser.position

def bump (parser : Parser) : Option Char × Parser :=
  match parser.rest with
  | [] => (none, parser)
  | char :: rest => (some char, { parser with rest, position := parser.position.after char })

def expect (parser : Parser) (expected : Char) : Except ReadError Parser :=
  if parser.rest.head? = some expected then .ok parser.bump.2 else parser.error .jsonSyntax

/-- Goes past the characters `keep` holds of, and keeps count of lines and columns. -/
def skipFrom (keep : Char → Bool) : List Char → Position → List Char × Position
  | [], position => ([], position)
  | char :: rest, position =>
    if keep char then skipFrom keep rest (position.after char) else (char :: rest, position)

def skipWhile (keep : Char → Bool) (parser : Parser) : Parser :=
  let (rest, position) := skipFrom keep parser.rest parser.position
  { parser with rest, position }

def skipWhitespace (parser : Parser) : Parser :=
  parser.skipWhile fun char => char == ' ' || char == '\t' || char == '\n' || char == '\r'

/-- Counts one value. -/
def node (limits : Limits) (position : Position) (parser : Parser) : Except ReadError Parser := do
  let parser := { parser with nodes := parser.nodes + 1 }
  bound limits.nodes parser.nodes .tooManyNodes position
  .ok parser

def literal (word : List Char) (value : Position → Node) (position : Position) (parser : Parser) :
    Except ReadError (Node × Parser) :=
  if word.isPrefixOf parser.rest then
    .ok (value position, word.foldl (fun parser _ => parser.bump.2) parser)
  else parser.error .jsonSyntax

/-- `char::to_digit(16)`. -/
def toDigit16 (char : Char) : Option Nat :=
  if char.isDigit then some (char.toNat - '0'.toNat)
  else if 'a' ≤ char ∧ char ≤ 'f' then some (char.toNat - 'a'.toNat + 10)
  else if 'A' ≤ char ∧ char ≤ 'F' then some (char.toNat - 'A'.toNat + 10)
  else none

/-- `count` more hexadecimal digits after `value`. -/
def hexDigits : Nat → Nat → Parser → Except ReadError (Nat × Parser)
  | 0, value, parser => .ok (value, parser)
  | count + 1, value, parser =>
    match parser.rest.head?.bind toDigit16 with
    | some digit => hexDigits count (value * 16 + digit) parser.bump.2
    | none => parser.error .jsonSyntax

def hex4 (parser : Parser) : Except ReadError (Nat × Parser) := hexDigits 4 0 parser

/-- `char::from_u32`. -/
def fromU32 (code : Nat) : Option Char :=
  if code.isValidChar then some (Char.ofNat code) else none

/-- The character a `\u` escape stands for, of one unit or a surrogate pair. -/
def unicode (position : Position) (parser : Parser) : Except ReadError (Char × Parser) := do
  let malformed : ReadError := .refused { code := .jsonSyntax, position }
  let (first, parser) ← parser.hex4
  if 0xd800 ≤ first ∧ first ≤ 0xdbff then do
    let (slash, parser) := parser.bump
    refuse (slash != some '\\') malformed
    let (letter, parser) := parser.bump
    refuse (letter != some 'u') malformed
    let (second, parser) ← parser.hex4
    refuse (!decide (0xdc00 ≤ second ∧ second ≤ 0xdfff)) malformed
    let char ← okOr (fromU32 (0x10000 + (first - 0xd800) * 0x400 + (second - 0xdc00))) malformed
    .ok (char, parser)
  else if 0xdc00 ≤ first ∧ first ≤ 0xdfff then .error malformed
  else do
    let char ← okOr (fromU32 first) malformed
    .ok (char, parser)

/-- The character a one-letter escape stands for. -/
def simpleEscape : Char → Option Char
  | '"' => some '"'
  | '\\' => some '\\'
  | '/' => some '/'
  | 'b' => some '\x08'
  | 'f' => some '\x0c'
  | 'n' => some '\n'
  | 'r' => some '\r'
  | 't' => some '\t'
  | _ => none

/-- The escape after a backslash at `position`. -/
def escape (position : Position) (parser : Parser) : Except ReadError (Char × Parser) :=
  match parser.bump with
  | (some char, parser) =>
    if char = 'u' then parser.unicode position
    else
      match simpleEscape char with
      | some escaped => .ok (escaped, parser)
      | none => fail .jsonSyntax position
  | (none, _) => fail .jsonSyntax position

/-- The rest of a string of which `out` has been decoded. -/
def stringFrom (limits : Limits) (start : Position) :
    Nat → List Char → Parser → Except ReadError (String × Parser)
  | 0, _, _ => .error .unfinished
  | fuel + 1, out, parser =>
    if limits.stringOverflows (Text.len (String.ofList out)) then fail .stringTooLong start
    else
      match parser.rest with
      | [] => parser.error .jsonSyntax
      | char :: _ =>
        if char = '"' then .ok (String.ofList out, parser.bump.2)
        else if char = '\\' then do
          let (char, after) ← parser.bump.2.escape parser.position
          stringFrom limits start fuel (out ++ [char]) after
        else if char.toNat < 0x20 then parser.error .jsonSyntax
        else stringFrom limits start fuel (out ++ [char]) parser.bump.2

/-- A string, decoded. -/
def string (limits : Limits) (parser : Parser) : Except ReadError (String × Parser) := do
  let start := parser.position
  let parser ← parser.expect '"'
  parser.stringFrom limits start (parser.rest.length + 1) []

def digits (parser : Parser) : Except ReadError Parser :=
  if parser.rest.head?.any Char.isDigit then .ok (parser.skipWhile Char.isDigit)
  else parser.error .jsonSyntax

/-- The integer part of a number, after its sign. -/
def integerPart (parser : Parser) : Except ReadError Parser :=
  match parser.rest.head? with
  | some head =>
    if head = '0' then .ok parser.bump.2
    else if head.isDigit then .ok (parser.skipWhile Char.isDigit)
    else parser.error .jsonSyntax
  | none => parser.error .jsonSyntax

/-- A fraction, if there is one. -/
def fractionPart (parser : Parser) : Except ReadError Parser :=
  if parser.rest.head? = some '.' then parser.bump.2.digits else .ok parser

/-- Goes past an exponent's sign, if it has one. -/
def skipSign (parser : Parser) : Parser :=
  if parser.rest.head? = some '+' ∨ parser.rest.head? = some '-' then parser.bump.2 else parser

/-- An exponent, if there is one. -/
def exponentPart (parser : Parser) : Except ReadError Parser :=
  if parser.rest.head? = some 'e' ∨ parser.rest.head? = some 'E' then parser.bump.2.skipSign.digits
  else .ok parser

/-- The RFC 8259 integer grammar. -/
def isJsonInteger (text : String) : Bool :=
  match ((Text.stripFront? text "-").getD text).toList with
  | [] => false
  | ['0'] => true
  | first :: rest => first.isDigit && first != '0' && rest.all Char.isDigit

/-- `i64::from_str` of a text of that grammar. -/
def parseI64 (text : String) : Option Int :=
  match text.toList with
  | '-' :: digits =>
    (decimal? digits).bind fun value => if value ≤ 2 ^ 63 then some (-(value : Int)) else none
  | digits => (decimal? digits).bind fun value => if value < 2 ^ 63 then some (value : Int) else none

/-- An integer within the safe range. -/
def safeInteger (text : String) (position : Position) : Except ReadError Int :=
  okOr ((parseI64 text).filter fun value => decide (value.natAbs ≤ maxSafeInteger))
    (.refused { code := .integerOutOfRange, position })

def number (limits : Limits) (position : Position) (parser : Parser) :
    Except ReadError (Node × Parser) := do
  let start := parser.rest
  let parser := if parser.rest.head? = some '-' then parser.bump.2 else parser
  let whole ← parser.integerPart
  let fraction ← whole.fractionPart
  let parser ← fraction.exponentPart
  let integer := whole.rest.length = parser.rest.length
  let text := String.ofList (start.take (start.length - parser.rest.length))
  match limits.numbers with
  | .any => .ok (.number text position, parser)
  | .safeIntegers =>
    if integer ∧ isJsonInteger text = true then do
      let value ← safeInteger text position
      .ok (.integer value position, parser)
    else fail .numberNotInteger position

mutual

/-- One value, inside `open_` already-open collections. -/
def value (limits : Limits) : Nat → Nat → Parser → Except ReadError (Node × Parser)
  | 0, _, _ => .error .unfinished
  | fuel + 1, open_, parser => do
    let position := parser.position
    let parser ← parser.node limits position
    match parser.rest.head? with
    | none => parser.error .jsonSyntax
    | some head =>
      if head = '\x7b' then object limits fuel open_ position parser
      else if head = '[' then array limits fuel open_ position parser
      else if head = '"' then do
        let (text, parser) ← parser.string limits
        limits.string text position
        .ok (.string text position, parser)
      else if head = 't' then parser.literal ['t', 'r', 'u', 'e'] (.bool true) position
      else if head = 'f' then parser.literal ['f', 'a', 'l', 's', 'e'] (.bool false) position
      else if head = 'n' then parser.literal ['n', 'u', 'l', 'l'] .null position
      else if head = '-' ∨ head.isDigit = true then parser.number limits position
      else parser.error .jsonSyntax

def object (limits : Limits) :
    Nat → Nat → Position → Parser → Except ReadError (Node × Parser)
  | 0, _, _, _ => .error .unfinished
  | fuel + 1, open_, position, parser => do
    limits.openCollection open_ position
    let parser ← parser.expect '\x7b'
    let parser := parser.skipWhitespace
    if parser.rest.head? = some '\x7d' then .ok (.object [] position, parser.bump.2)
    else do
      let (members, parser) ← membersFrom limits fuel open_ [] parser
      .ok (.object members position, parser)

/-- The members after those already read. -/
def membersFrom (limits : Limits) : Nat → Nat → List (String × Position × Node) → Parser →
    Except ReadError (List (String × Position × Node) × Parser)
  | 0, _, _, _ => .error .unfinished
  | fuel + 1, open_, members, parser => do
    let parser := parser.skipWhitespace
    let keyPosition := parser.position
    if parser.rest.head? ≠ some '"' then parser.error .jsonSyntax
    else do
      let (key, parser) ← parser.string limits
      limits.key key keyPosition
      refuse (members.any fun member => member.1 == key)
        (.refused { code := .jsonDuplicateKey, position := keyPosition })
      bound limits.members (members.length + 1) .tooManyMembers keyPosition
      let parser ← parser.skipWhitespace.expect ':'
      let (value, parser) ← value limits fuel (open_ + 1) parser.skipWhitespace
      let members := members ++ [(key, keyPosition, value)]
      let parser := parser.skipWhitespace
      if parser.rest.head? = some ',' then membersFrom limits fuel open_ members parser.bump.2
      else if parser.rest.head? = some '\x7d' then .ok (members, parser.bump.2)
      else parser.error .jsonSyntax

def array (limits : Limits) :
    Nat → Nat → Position → Parser → Except ReadError (Node × Parser)
  | 0, _, _, _ => .error .unfinished
  | fuel + 1, open_, position, parser => do
    limits.openCollection open_ position
    let parser ← parser.expect '['
    let parser := parser.skipWhitespace
    if parser.rest.head? = some ']' then .ok (.array [] position, parser.bump.2)
    else do
      let (items, parser) ← itemsFrom limits fuel open_ [] parser
      .ok (.array items position, parser)

/-- The items after those already read. -/
def itemsFrom (limits : Limits) : Nat → Nat → List Node → Parser →
    Except ReadError (List Node × Parser)
  | 0, _, _, _ => .error .unfinished
  | fuel + 1, open_, items, parser => do
    let parser := parser.skipWhitespace
    bound limits.elements (items.length + 1) .tooManyElements parser.position
    let (item, parser) ← value limits fuel (open_ + 1) parser
    let items := items ++ [item]
    let parser := parser.skipWhitespace
    if parser.rest.head? = some ',' then itemsFrom limits fuel open_ items parser.bump.2
    else if parser.rest.head? = some ']' then .ok (items, parser.bump.2)
    else parser.error .jsonSyntax

end

/-- Reads one JSON document. -/
def parse (text : String) (limits : Limits) : Except ReadError Node := do
  let parser : Parser := skipWhitespace { rest := text.toList }
  if parser.rest.isEmpty then parser.error .emptyDocument
  else do
    let (node, parser) ← value limits (3 * text.toList.length + 3) 0 parser
    let parser := parser.skipWhitespace
    if parser.rest.isEmpty then .ok node else parser.error .jsonSyntax

end Parser

end Parser

end GreenGateway.Config
