import GreenGateway.Config.StrictReading
import GreenGateway.Rbac.Conditions

/-! What a condition leaf makes of JSON numbers: it compares their doubles. -/

namespace GreenGateway.Rbac

open Foundation Config CompiledCondition

section Numbers

/-- The exponent of a number, after its mark. -/
def exponentValue : List Char → Int
  | '-' :: digits => -Nat.ofDigitChars 10 digits 0
  | '+' :: digits | digits => Nat.ofDigitChars 10 digits 0

/-- What a JSON number denotes. -/
def numberValue (text : String) : Rat :=
  let (sign, unsigned) : Int × List Char :=
    match text.toList with
    | '-' :: unsigned => (-1, unsigned)
    | unsigned => (1, unsigned)
  let (mantissa, exponent) := unsigned.span fun char => char != 'e' && char != 'E'
  let (whole, fraction) := mantissa.span (· != '.')
  sign * Nat.ofDigitChars 10 (whole ++ fraction.tail) 0 *
    10 ^ (exponentValue exponent.tail - fraction.tail.length)

/-- The number of 53 significant bits nearest to `value`, ties to even. -/
def roundToEven (value : Nat) : Nat :=
  let unit := 2 ^ (value.log2 + 1 - 53)
  let below := value / unit * unit
  if 2 * (value - below) < unit ∨ 2 * (value - below) = unit ∧ value / unit % 2 = 0 then below
  else below + unit

/-- The double nearest to an integer, if it is finite. -/
def nearestDouble (value : Int) : Option Rat :=
  let magnitude := roundToEven value.natAbs
  if magnitude < 2 ^ 1024 then some (value.sign * magnitude) else none

/-- The double of a text that denotes an integer. -/
def integerDouble (text : String) : Option Rat := nearestDouble (numberValue text).num

/-- A JSON number that denotes an integer, however it is spelled. -/
structure IsInteger (text : String) : Prop where
  number : Grammar.IsNumber text.toList
  integer : (numberValue text).den = 1

section

variable [Externals] {authored actual : String}

/-- A number is equal to a listed one, for either leaf, when both denote the same. -/
structure ComparedByValue (authored actual : String) : Prop where
  scalar : scalarEq (.number authored) (.number actual) = true ↔
    numberValue authored = numberValue actual
  argument : ∀ principal facts arguments pointer, facts.toolArguments = .captured arguments →
    arguments.pointer pointer = some (.number actual) →
    (evaluate principal facts (.toolArgument pointer [.number authored]) = .true ↔
      numberValue authored = numberValue actual)
  claim : ∀ principal facts issuer claims entry, issuedBy principal issuer = true →
    facts.claims = .captured claims →
    claims.find? (fun other => other.name == entry.name) = some entry →
    entry.values = [.number actual] →
    (evaluate principal facts (.claim issuer entry.name [.number authored]) = .true ↔
      numberValue authored = numberValue actual)

/-- Different integers have different doubles, and one integer spelled twice has one. -/
def Distinguished (authored actual : String) : Prop :=
  if numberValue authored = numberValue actual then
    authored = actual ∨ integerDouble authored ≠ none
  else integerDouble authored = none ∨ integerDouble authored ≠ integerDouble actual

instance (authored actual : String) : Decidable (Distinguished authored actual) :=
  inferInstanceAs (Decidable (ite ..))

theorem scalarEq_number_iff (double : Externals.asF64 authored = integerDouble authored)
    (double' : Externals.asF64 actual = integerDouble actual) :
    (scalarEq (.number authored) (.number actual) = true ↔
      numberValue authored = numberValue actual) ↔ Distinguished authored actual := by
  have equal : scalarEq (.number authored) (.number actual) = true ↔ authored = actual ∨
      integerDouble authored ≠ none ∧ integerDouble authored = integerDouble actual := by
    simp only [scalarEq, double, double', Bool.or_eq_true, beq_iff_eq]
    cases integerDouble authored <;> cases integerDouble actual <;> simp
  rw [equal, Distinguished]
  split
  · case _ same =>
    have doubles : integerDouble authored = integerDouble actual :=
      congrArg (fun value : Rat => nearestDouble value.num) same
    simp only [doubles, and_true, same, iff_true]
  · case _ differs =>
    have apart : authored ≠ actual := fun same => differs (same ▸ rfl)
    rw [or_iff_right apart, iff_false_right differs, ne_eq, not_and_or, not_not]

/-- Integers are compared by value exactly where their doubles tell them apart. -/
theorem comparedByValue_iff
    (converts : ∀ text, IsInteger text → Externals.asF64 text = integerDouble text)
    (isInteger : IsInteger authored) (isInteger' : IsInteger actual) :
    ComparedByValue authored actual ↔ Distinguished authored actual := by
  rw [← scalarEq_number_iff (converts authored isInteger) (converts actual isInteger')]
  refine ⟨ComparedByValue.scalar, fun same => ⟨same, ?_, ?_⟩⟩
  · intro principal facts arguments pointer captured found
    simp [evaluate, leafTruth, captured, found, Truth.of, same]
  · intro principal facts issuer claims entry issued captured found held
    simp [evaluate, leafTruth, issued, captured, found, held, Truth.of, same]

end

@[reducible] def integerDoubles : Externals := { inertExternals with asF64 := integerDouble }

theorem scalarEq_collapses : integerDoubles.asF64 = integerDouble ∧
    @scalarEq integerDoubles (.number "9007199254740992") (.number "9007199254740993") = true ∧
    numberValue "9007199254740992" = 9007199254740992 ∧
    numberValue "9007199254740993" = 9007199254740993 := by
  refine ⟨rfl, ?_⟩
  decide +kernel

theorem comparedByValue_sample :
    @ComparedByValue integerDoubles (toString (15 : Int)) (toString (-16 : Int)) :=
  (@comparedByValue_iff integerDoubles _ _ (fun text _ => Eq.refl (integerDouble text))
    ⟨Grammar.isNumber_toString 15, by decide +kernel⟩
    ⟨Grammar.isNumber_toString (-16), by decide +kernel⟩).mpr (by decide +kernel)

end Numbers

end GreenGateway.Rbac
