import GreenGateway.Foundation.Json
import Mathlib.Data.Rat.Defs

/-! The policy document as the gateway holds it once parsed: direct rules with
their conditions, routes, roles, identity mappings, rate overrides and tool
entries, and the authenticated principal they are matched against. -/

namespace GreenGateway.Rbac

open Foundation

/-- A map keyed by name. The source's `HashMap`s are only looked up, or walked
in name order. -/
abbrev NameMap (α : Type) := Std.ExtTreeMap String α compare

inductive IpAddr where
  | v4 (bits : BitVec 32)
  | v6 (bits : BitVec 128)
  deriving DecidableEq, Repr

/-- `IpAddr::to_canonical`: an IPv4-mapped IPv6 address is the IPv4 address. -/
def IpAddr.toCanonical : IpAddr → IpAddr
  | .v4 bits => .v4 bits
  | .v6 bits =>
    if bits.extractLsb' 32 96 = 0xffff#96 then .v4 (bits.extractLsb' 0 32) else .v6 bits

/-- A network of the `ipnet` crate: an address and its prefix length. -/
inductive IpNet where
  | v4 (addr : BitVec 32) (length : Fin 33)
  | v6 (addr : BitVec 128) (length : Fin 129)
  deriving DecidableEq, Repr

instance ipv4Lengths : NeZero 33 := ⟨by decide⟩

instance ipv6Lengths : NeZero 129 := ⟨by decide⟩

namespace IpNet

def hostmask (width length : Nat) : BitVec width :=
  if length = 0 then BitVec.allOnes width else (BitVec.allOnes width) >>> length

def network {width : Nat} (addr : BitVec width) (length : Nat) : BitVec width :=
  addr &&& ~~~(hostmask width length)

def broadcast {width : Nat} (addr : BitVec width) (length : Nat) : BitVec width :=
  addr ||| hostmask width length

def trunc : IpNet → IpNet
  | .v4 addr length => .v4 (network addr length) length
  | .v6 addr length => .v6 (network addr length) length

def contains : IpNet → IpAddr → Bool
  | .v4 addr length, .v4 other =>
    decide (network addr length ≤ other) && decide (other ≤ broadcast addr length)
  | .v6 addr length, .v6 other =>
    decide (network addr length ≤ other) && decide (other ≤ broadcast addr length)
  | _, _ => false

end IpNet

/-- What the source calls outside its own crates: parsers of the `ipnet`, `url`
and `time` crates, of the standard library's IPv6 type, and the reading of a JSON
number's text as a double. -/
class Externals where
  parseIpNet : String → Option IpNet
  isIpv6 : String → Bool
  /-- The scheme and the ASCII origin of a URL. -/
  parseUrl : String → Option (String × String)
  /-- The Unix timestamp of an RFC 3339 instant. -/
  parseRfc3339 : String → Option Int
  /-- The value of a number's text as a finite double. -/
  asF64 : String → Option Rat

/-- Parsers that accept nothing, for evaluating a policy that needs none. -/
@[reducible] def inertExternals : Externals where
  parseIpNet _ := none
  isIpv6 _ := false
  parseUrl _ := none
  parseRfc3339 _ := none
  asF64 _ := none

inductive AuthMethod where
  | cookie
  | bearer
  | serviceToken
  | clientCertificate
  deriving DecidableEq, Repr

structure VerifiedClaim where
  name : String
  values : List Json
  deriving DecidableEq, Repr

structure Principal where
  userId : String
  issuer : Option String
  orgId : Option String
  roles : List String
  authMethod : AuthMethod
  scopes : Option (List String)
  verifiedClaims : List VerifiedClaim
  deriving DecidableEq, Repr

inductive RuleAction where
  | allow
  | deny
  | shadow
  deriving DecidableEq, Repr

structure PrincipalMatcher where
  roles : List String := []
  issuers : List String := []
  authMethods : List String := []
  principalIds : List String := []
  deriving DecidableEq, Repr

inductive RuleDispatchKind where
  | contextless
  | legacy
  | route
  deriving DecidableEq, Repr

structure RuleDispatchMatcher where
  kind : RuleDispatchKind
  upstreamOrigin : Option String := none
  routeId : Option String := none
  deriving DecidableEq, Repr

structure OrganizationCondition where
  issuer : String
  values : List String
  deriving DecidableEq, Repr

structure ScopeCondition where
  issuer : String
  values : List String
  deriving DecidableEq, Repr

structure ClaimCondition where
  issuer : String
  name : String
  values : List Json
  deriving DecidableEq, Repr

structure SourceNetworkCondition where
  cidrs : List String
  deriving DecidableEq, Repr

structure HeaderCondition where
  name : String
  values : List String
  deriving DecidableEq, Repr

structure QueryCondition where
  name : String
  values : List String
  deriving DecidableEq, Repr

structure ToolArgumentCondition where
  pointer : String
  values : List Json
  deriving DecidableEq, Repr

structure TimeWindowCondition where
  «from» : Option String
  «until» : Option String
  deriving DecidableEq, Repr

/-- One node of a rule's condition tree. -/
inductive Condition where
  | all (operands : List Condition)
  | any (operands : List Condition)
  | not (operand : Condition)
  | organization (leaf : OrganizationCondition)
  | scope (leaf : ScopeCondition)
  | claim (leaf : ClaimCondition)
  | sourceNetwork (leaf : SourceNetworkCondition)
  | header (leaf : HeaderCondition)
  | query (leaf : QueryCondition)
  | toolArgument (leaf : ToolArgumentCondition)
  | timeWindow (leaf : TimeWindowCondition)
  deriving Repr, Inhabited

structure Rule where
  id : Option String := none
  enabled : Bool := true
  methods : List String := []
  path : String := ""
  toolName : Option String := none
  dispatch : Option RuleDispatchMatcher := none
  principal : PrincipalMatcher := {}
  conditions : Option Condition := none
  action : RuleAction
  deriving Repr

inductive DefaultAction where
  | allow
  | deny
  deriving DecidableEq, Repr

inductive EnforcementMode where
  | enforce
  | shadow
  deriving DecidableEq, Repr

structure RoleEntry where
  permissions : List String := []
  issuers : List String := []
  authMethods : List String := []
  description : Option String := none
  deriving DecidableEq, Repr

structure IdentityMapping where
  id : String
  issuer : String
  authMethods : List String := []
  subjects : List String := []
  organizations : List String := []
  claimedRoles : List String := []
  scopes : List String := []
  grantRoles : List String
  deriving DecidableEq, Repr

structure RouteRule where
  id : Option String := none
  methods : List String := []
  hosts : List String := []
  pathPrefix : String
  permission : String
  enforcementMode : Option EnforcementMode := none
  deriving DecidableEq, Repr

structure EgressPolicy where
  hosts : List String := []
  cidrs : List String := []
  ports : List Nat := []
  deriving DecidableEq, Repr

/-- `requestsPerSecond` is a finite double, held as its value. -/
structure RateLimitRule where
  id : Option String := none
  principal : PrincipalMatcher := {}
  methods : List String := []
  path : Option String := none
  requestsPerSecond : Rat
  burst : Nat
  deriving DecidableEq, Repr

structure ToolPolicyEntry where
  enabled : Bool := true
  allowedRoles : List String := []
  issuers : List String := []
  authMethods : List String := []
  timeoutMs : Nat := 30000
  maxConcurrent : Nat := 8
  deriving DecidableEq, Repr

structure Policy where
  schemaVersion : String
  id : Option String := none
  defaultAction : DefaultAction := .deny
  enforcementMode : EnforcementMode := .enforce
  roles : NameMap RoleEntry := ∅
  identityMappings : Option (List IdentityMapping) := none
  routes : List RouteRule := []
  rules : List Rule := []
  egress : EgressPolicy := {}
  rateLimits : List RateLimitRule := []
  tools : NameMap ToolPolicyEntry := ∅

end GreenGateway.Rbac
