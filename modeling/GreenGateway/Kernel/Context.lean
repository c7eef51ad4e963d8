import GreenGateway.Rbac.ConditionCheck

/-! The inputs of an evaluation: the pinned policy snapshot, the request context
and the bounds the kernel states for itself before it decides anything. -/

namespace GreenGateway.Kernel

open Foundation Rbac

inductive PolicyAuthority where
  | standalone
  | postgreSql (securityRevision : Int)
  deriving DecidableEq, Repr

inductive PolicyDigest where
  | source (bytes : List UInt8)
  | validatedPolicy (bytes : List UInt8)
  deriving DecidableEq, Repr

/-- What a context is pinned to. The two version constants are left out. -/
structure ResourceSnapshot where
  digest : PolicyDigest
  authority : PolicyAuthority
  deriving DecidableEq, Repr

def contextVersion : Nat := 3
def maxFactEntries : Nat := 128
def maxFactNameBytes : Nat := 256
def maxFactValueBytes : Nat := 8192
def maxRequestMethodBytes : Nat := 64
def maxRequestPathBytes : Nat := 8192
def maxRequestHostBytes : Nat := 4096
def maxDispatchFactBytes : Nat := 4096

inductive PrincipalFact where
  | missing
  | anonymous
  | authenticated (identity : Principal)
  deriving DecidableEq, Repr

inductive HttpTarget where
  /-- Routing was never classified for this request. -/
  | missing
  | contextless
  | proxyDispatch
  /-- An MCP endpoint reached by a path that is not its canonical identity. -/
  | mcpAlias (canonicalPath : String)
  deriving DecidableEq, Repr

/-- The identity a request reached an MCP endpoint under, if by an alias. -/
def HttpTarget.canonicalPath? : HttpTarget → Option String
  | .mcpAlias canonicalPath => some canonicalPath
  | _ => none

/-- The request host: never captured, not sent, or sent. -/
inductive HostFact where
  | missing
  | absent
  | present (host : String)
  deriving DecidableEq, Repr

/-- Trusted routing facts established before policy evaluation. -/
structure DispatchFacts where
  routeId : Option String := none
  /-- The route's bound host: its presence selects a virtual upstream. -/
  routeHost : Option String := none
  routePathPrefix : Option String := none
  upstreamOrigin : String
  deriving DecidableEq, Repr

structure PolicyEvaluationContext where
  version : Nat := contextVersion
  snapshot : ResourceSnapshot
  method : Option String
  path : Option String
  principal : PrincipalFact
  target : HttpTarget
  requestHost : HostFact
  dispatch : Option DispatchFacts := none
  deriving DecidableEq, Repr

inductive EvaluationError where
  | unsupportedContextVersion
  | snapshotMismatch
  | malformedPath
  | contextTooLarge
  | invalidPrincipal
  | invalidHost
  | inconsistentContext
  | internalInvariant
  deriving DecidableEq, Repr

def isUnsafeRequestPath (path : String) : Bool :=
  path.toList.contains '%' || path.toList.contains '\\' || Text.contains path "//" ||
    (Text.split '/' path).any fun segment => segment == "." || segment == ".."

/-- Rejects a path that is not an exact, already-separated request path. -/
def validatePath (path : String) : Except EvaluationError Unit := do
  refuse (decide (Text.len path > maxRequestPathBytes)) .contextTooLarge
  refuse (!Text.startsWith path "/" ||
    path.toList.any (fun char => char == '?' || char == '#') ||
    path.toList.any (fun char => decide (char.toNat ≤ 32 ∨ char.toNat = 127)) ||
    isUnsafeRequestPath path) .malformedPath

def isBareHost [Externals] (host : String) : Bool :=
  if host.isEmpty || host.toList.contains '/' then false
  else if host.toList.contains ':' then Externals.isIpv6 host
  else true

/-- A principal outside its shape bounds is refused, by size or by content. -/
def PrincipalFact.validate (principal : PrincipalFact) : Except EvaluationError Unit :=
  match principal with
  | .authenticated identity =>
    match identity.checkShape with
    | some problem => .error (if problem.isSize then .contextTooLarge else .invalidPrincipal)
    | none => .ok ()
  | _ => .ok ()

def HostFact.validate [Externals] (host : HostFact) : Except EvaluationError Unit :=
  match host with
  | .present host => do
    refuse (decide (Text.len host > maxRequestHostBytes)) .contextTooLarge
    refuse (!isBareHost host) .invalidHost
  | _ => .ok ()

def DispatchFacts.values (facts : DispatchFacts) : List String :=
  facts.routeId.toList ++ facts.routeHost.toList ++ facts.routePathPrefix.toList ++
    [facts.upstreamOrigin]

/-- Dispatch facts on a target that does not evaluate them are refused. -/
def DispatchFacts.validate [Externals] (facts : DispatchFacts) (target : HttpTarget) :
    Except EvaluationError Unit := do
  refuse (decide (target ≠ .proxyDispatch)) .inconsistentContext
  refuse (facts.values.any fun value => decide (Text.len value > maxDispatchFactBytes))
    .contextTooLarge
  refuse facts.upstreamOrigin.isEmpty .inconsistentContext
  refuse (facts.routeHost.any fun host => !isBareHost host) .invalidHost

def PolicyEvaluationContext.validate [Externals] (context : PolicyEvaluationContext)
    (expected : ResourceSnapshot) : Except EvaluationError Unit := do
  refuse (context.version != contextVersion) .unsupportedContextVersion
  refuse (decide (context.snapshot ≠ expected)) .snapshotMismatch
  checkSome context.path validatePath
  checkSome context.target.canonicalPath? validatePath
  refuse (context.method.any fun method => decide (Text.len method > maxRequestMethodBytes))
    .contextTooLarge
  context.principal.validate
  context.requestHost.validate
  checkSome context.dispatch fun facts => facts.validate context.target

mutual

/-- Whether a value stays within the tool-argument fact bounds, with the scalars
counted so far. -/
def argumentsWithinBounds (depth scalars : Nat) : Json → Bool × Nat
  | .object members =>
    if depth < maxToolArgumentPointerTokens then membersWithinBounds (depth + 1) scalars members
    else (false, scalars)
  | .array _ => (false, scalars)
  | .string text =>
    (decide (Text.len text ≤ maxFactValueBytes ∧ scalars + 1 ≤ maxFactEntries), scalars + 1)
  | .null | .bool _ | .number _ => (decide (scalars + 1 ≤ maxFactEntries), scalars + 1)

def membersWithinBounds (depth scalars : Nat) : List (String × Json) → Bool × Nat
  | [] => (true, scalars)
  | (name, member) :: rest =>
    if Text.len name ≤ maxFactNameBytes then
      match argumentsWithinBounds depth scalars member with
      | (true, scalars) => membersWithinBounds depth scalars rest
      | (false, scalars) => (false, scalars)
    else (false, scalars)

end

/-- Runs a check on a captured fact. -/
def Fact.check {α : Type} (fact : Fact α) (validate : α → Except EvaluationError Unit) :
    Except EvaluationError Unit :=
  match fact with
  | .uncaptured => .ok ()
  | .captured value => validate value

def validateEntries (entries : List (String × String)) : Except EvaluationError Unit :=
  refuse (decide (entries.length > maxFactEntries) || entries.any fun (name, value) =>
    decide (Text.len name > maxFactNameBytes ∨ Text.len value > maxFactValueBytes))
    .contextTooLarge

def validateClaims (claims : List VerifiedClaim) : Except EvaluationError Unit := do
  refuse (decide (claims.length > maxVerifiedClaims) || claims.any fun claim =>
    decide (Text.len claim.name > maxVerifiedClaimNameBytes) ||
      decide (claim.values.length > maxVerifiedClaimValues) ||
      claim.values.any fun value =>
        value.asStr.any fun text => decide (Text.len text > maxVerifiedClaimValueBytes))
    .contextTooLarge
  refuse (claims.any fun claim => claim.values.any fun value =>
    !(value.isString || value.isBoolean || value.isNumber)) .invalidPrincipal

/-- Refuses facts past the work bounds every lane states for itself. -/
def validateFacts (facts : PolicyFacts) : Except EvaluationError Unit := do
  Fact.check facts.organization fun organization =>
    refuse (organization.any fun organization => decide (Text.len organization > maxFactValueBytes))
      .contextTooLarge
  Fact.check facts.scopes fun scopes =>
    refuse (decide (scopes.length > maxPrincipalScopes) ||
      scopes.any fun scope => decide (Text.len scope > maxPrincipalScopeBytes)) .contextTooLarge
  Fact.check facts.claims validateClaims
  Fact.check facts.headers validateEntries
  Fact.check facts.query validateEntries
  Fact.check facts.toolArguments fun arguments =>
    refuse (!(argumentsWithinBounds 0 0 arguments).1) .contextTooLarge

end GreenGateway.Kernel
