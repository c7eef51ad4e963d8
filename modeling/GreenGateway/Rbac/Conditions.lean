import GreenGateway.Foundation.Kleene
import GreenGateway.Rbac.Model

/-! Typed rule conditions: the facts a lane captured, what a policy's conditions
and identity mappings read of them, and the three-valued answer of a condition
tree compiled once per policy. -/

namespace GreenGateway.Rbac

open Foundation

/-- One fact a typed matcher reads: never captured, or what was captured. -/
inductive Fact (α : Type) where
  | uncaptured
  | captured (value : α)
  deriving DecidableEq, Repr

/-- The facts a rule condition or an identity mapping may read. -/
structure PolicyFacts where
  organization : Fact (Option String) := .uncaptured
  scopes : Fact (List String) := .uncaptured
  claims : Fact (List VerifiedClaim) := .uncaptured
  sourceIp : Fact IpAddr := .uncaptured
  headers : Fact (List (String × String)) := .uncaptured
  query : Fact (List (String × String)) := .uncaptured
  toolArguments : Fact Json := .uncaptured
  now : Fact Int := .uncaptured
  deriving DecidableEq, Repr

/-- `UNCAPTURED_FACTS`. -/
def uncapturedFacts : PolicyFacts := {}

/-- Canonical issuer form used by authentication and policy. -/
def canonicalIssuer (issuer : String) : Option String :=
  let issuer := Text.trimEndMatches (Text.trim issuer) '/'
  if issuer.isEmpty then none else some issuer

/-- Seconds since the Unix epoch of `YYYY-MM-DDTHH:MM:SSZ`. A text of twenty
bytes with a twentieth character is ASCII, so characters stand for bytes. -/
def parseUtcInstant [Externals] (value : String) : Option Int :=
  if Text.len value != 20 || value.toList[10]? != some 'T' || value.toList[19]? != some 'Z' then
    none
  else Externals.parseRfc3339 value

/-- A condition tree compiled once per policy snapshot. -/
inductive CompiledCondition where
  | all (operands : List CompiledCondition)
  | any (operands : List CompiledCondition)
  | not (operand : CompiledCondition)
  | organization (issuer : String) (values : List String)
  | scope (issuer : String) (values : List String)
  | claim (issuer name : String) (values : List Json)
  | sourceNetwork (networks : List IpNet)
  | header (name : String) (values : List String)
  | query (name : String) (values : List String)
  | toolArgument (pointer : String) (values : List Json)
  | timeWindow («from» «until» : Option Int)
  /-- A leaf whose authored value does not compile: never answered. -/
  | unusable

namespace CompiledCondition

section New

variable [Externals]

/-- An issuer-bound leaf compiles only when its issuer has a canonical form. -/
def issuerBound (issuer : String) (leaf : String → CompiledCondition) : CompiledCondition :=
  match canonicalIssuer issuer with
  | some issuer => leaf issuer
  | none => .unusable

mutual

def new : Condition → CompiledCondition
  | .all operands => .all (newList operands)
  | .any operands => .any (newList operands)
  | .not operand => .not (new operand)
  | .organization leaf => issuerBound leaf.issuer fun issuer => .organization issuer leaf.values
  | .scope leaf => issuerBound leaf.issuer fun issuer => .scope issuer leaf.values
  | .claim leaf => issuerBound leaf.issuer fun issuer => .claim issuer leaf.name leaf.values
  | .sourceNetwork leaf =>
    match leaf.cidrs.mapM Externals.parseIpNet with
    | some networks => .sourceNetwork networks
    | none => .unusable
  | .header leaf => .header (Text.toAsciiLowercase leaf.name) leaf.values
  | .query leaf => .query leaf.name leaf.values
  | .toolArgument leaf => .toolArgument leaf.pointer leaf.values
  | .timeWindow leaf =>
    match leaf.from.map parseUtcInstant, leaf.until.map parseUtcInstant with
    | some none, _ | _, some none | none, none => .unusable
    | «from», «until» => .timeWindow from.join until.join

def newList : List Condition → List CompiledCondition
  | [] => []
  | operand :: rest => new operand :: newList rest

end

end New

/-- Whether `principal` was authenticated by exactly `issuer`. -/
def issuedBy (principal : Option Principal) (issuer : String) : Bool :=
  principal.any fun principal => principal.issuer == some issuer

/-- Scalar equality: strings and booleans exactly, numbers by value. -/
def scalarEq [Externals] (authored actual : Json) : Bool :=
  match authored, actual with
  | .string authored, .string actual => authored == actual
  | .bool authored, .bool actual => authored == actual
  | .number authored, .number actual =>
    authored == actual ||
      match Externals.asF64 authored, Externals.asF64 actual with
      | some authored, some actual => authored == actual
      | _, _ => false
  | _, _ => false

section Evaluate

variable [Externals] (principal : Option Principal) (facts : PolicyFacts)

/-- A leaf that reads one fact: unknown when the fact was never captured. -/
def leafTruth {α : Type} (fact : Fact α) (answer : α → Truth) : Truth :=
  match fact with
  | .uncaptured => .unknown
  | .captured value => answer value

mutual

/-- Whether the condition holds for the judged principal and the facts. -/
def evaluate : CompiledCondition → Truth
  | .all operands => foldAll .true operands
  | .any operands => foldAny .false operands
  | .not operand => (evaluate operand).not
  | .organization issuer values =>
    if !issuedBy principal issuer then .false
    else leafTruth facts.organization fun
      | none => .false
      | some verified => .of (values.contains verified)
  | .scope issuer values =>
    if !issuedBy principal issuer then .false
    else leafTruth facts.scopes fun scopes => .of (scopes.any values.contains)
  | .claim issuer name values =>
    if !issuedBy principal issuer then .false
    else leafTruth facts.claims fun claims =>
      -- a name with no entry was never captured, so it is unknown, not absent
      match claims.find? fun entry => entry.name == name with
      | none => .unknown
      | some entry =>
        .of (entry.values.any fun actual => values.any fun authored => scalarEq authored actual)
  | .sourceNetwork networks =>
    leafTruth facts.sourceIp fun address =>
      .of (networks.any fun network => network.contains address.toCanonical)
  | .header name values =>
    leafTruth facts.headers fun headers =>
      .of (headers.any fun (field, value) =>
        Text.eqIgnoreAsciiCase field name && values.contains value)
  | .query name values =>
    leafTruth facts.query fun pairs =>
      .of (pairs.any fun (key, value) => key == name && values.contains value)
  | .toolArgument pointer values =>
    leafTruth facts.toolArguments fun arguments =>
      .of ((arguments.pointer pointer).any fun actual =>
        values.any fun value => scalarEq value actual)
  | .timeWindow «from» «until» =>
    leafTruth facts.now fun now =>
      .of (from.all (fun «from» => decide (now ≥ «from»)) &&
        until.all fun «until» => decide (now < «until»))
  | .unusable => .unknown

def foldAll (truth : Truth) : List CompiledCondition → Truth
  | [] => truth
  | operand :: rest => foldAll (truth.andThen (evaluate operand)) rest

def foldAny (truth : Truth) : List CompiledCondition → Truth
  | [] => truth
  | operand :: rest => foldAny (truth.orElse (evaluate operand)) rest

end

end Evaluate

end CompiledCondition

/-- The facts a policy's typed matchers can read. -/
structure FactNeeds where
  organization : Bool := false
  scopes : Bool := false
  claims : List String := []
  sourceIp : Bool := false
  headers : List String := []
  query : List String := []
  toolArguments : NameMap (List String) := ∅
  now : Bool := false

namespace FactNeeds

mutual

/-- Adds what one condition reads; `toolName` is the tool its rule names. -/
def add (needs : FactNeeds) (toolName : Option String) : Condition → FactNeeds
  | .all operands | .any operands => addList needs toolName operands
  | .not operand => add needs toolName operand
  | .organization _ => { needs with organization := true }
  | .scope _ => { needs with scopes := true }
  | .claim leaf => { needs with claims := needs.claims ++ [leaf.name] }
  | .sourceNetwork _ => { needs with sourceIp := true }
  | .header leaf => { needs with headers := needs.headers ++ [Text.toAsciiLowercase leaf.name] }
  | .query leaf => { needs with query := needs.query ++ [leaf.name] }
  | .toolArgument leaf =>
    match toolName with
    | some toolName =>
      let listed := (needs.toolArguments[toolName]?).getD []
      { needs with toolArguments := needs.toolArguments.insert toolName (listed ++ [leaf.pointer]) }
    | none => needs
  | .timeWindow _ => { needs with now := true }

def addList (needs : FactNeeds) (toolName : Option String) : List Condition → FactNeeds
  | [] => needs
  | operand :: rest => addList (add needs toolName operand) toolName rest

end

/-- What the conditions of `rules`, and the identity mappings of a policy in
mapped-role mode, read. -/
def of (rules : List Rule) (identityMappings : Option (List IdentityMapping)) : FactNeeds :=
  let start : FactNeeds :=
    { organization := identityMappings.isSome
      scopes := identityMappings.any fun mappings =>
        mappings.any fun mapping => !mapping.scopes.isEmpty }
  let needs := rules.foldl (fun needs rule =>
    match rule.conditions with
    | some conditions => needs.add rule.toolName conditions
    | none => needs) start
  { needs with
    headers := Text.sortDedup needs.headers
    query := Text.sortDedup needs.query
    claims := Text.sortDedup needs.claims
    toolArguments := needs.toolArguments.map fun _ pointers => Text.sortDedup pointers }

end FactNeeds

end GreenGateway.Rbac
