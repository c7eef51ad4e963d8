import GreenGateway.Rbac.Matcher

/-! The principal a lane judges: its shape bounds, the internal roles identity
mappings grant it, and the permissions its roles hold. -/

namespace GreenGateway.Rbac

open Foundation

def maxPrincipalRoles : Nat := 256
def maxPrincipalRoleBytes : Nat := 256
def maxPrincipalIssuerBytes : Nat := 4096
def maxPrincipalSubjectBytes : Nat := 4096
def maxPrincipalScopes : Nat := 256
def maxPrincipalScopeBytes : Nat := 256
def maxVerifiedClaims : Nat := 16
def maxVerifiedClaimNameBytes : Nat := 256
def maxVerifiedClaimValues : Nat := 32
def maxVerifiedClaimValueBytes : Nat := 256
def maxToolNameBytes : Nat := 4096

inductive PrincipalShapeError where
  | tooManyRoles
  | subjectTooLong
  | issuerTooLong
  | roleTooLong
  | emptySubject
  | emptyRole
  deriving DecidableEq, Repr

def PrincipalShapeError.isSize : PrincipalShapeError → Bool
  | .emptySubject | .emptyRole => false
  | _ => true

def checkRolesSize (roles : List String) : Option PrincipalShapeError :=
  if roles.length > maxPrincipalRoles then some .tooManyRoles
  else if roles.any fun role => decide (Text.len role > maxPrincipalRoleBytes) then
    some .roleTooLong
  else none

/-- The first fault in a principal's identity facts, size before emptiness. -/
def Principal.checkShape (principal : Principal) : Option PrincipalShapeError :=
  if Text.len principal.userId > maxPrincipalSubjectBytes then some .subjectTooLong
  else if principal.issuer.any fun issuer => decide (Text.len issuer > maxPrincipalIssuerBytes) then
    some .issuerTooLong
  else match checkRolesSize principal.roles with
    | some problem => some problem
    | none =>
      if principal.userId.isEmpty then some .emptySubject
      else if principal.roles.any String.isEmpty then some .emptyRole
      else none

/-- Whether `mapping` applies to `principal`. -/
def mappingApplies (mapping : IdentityMapping) (principal : Principal) (facts : PolicyFacts) :
    Truth :=
  let listed (values : List String) (present : String) := values.isEmpty || values.contains present
  let identityHolds :=
    principal.issuer == some mapping.issuer &&
      listed mapping.authMethods (authMethodPolicyValue principal.authMethod) &&
      listed mapping.subjects principal.userId &&
      (mapping.claimedRoles.isEmpty || principal.roles.any mapping.claimedRoles.contains)
  if !identityHolds then .false
  else
    let organization : Truth :=
      if mapping.organizations.isEmpty then .true
      else match facts.organization with
        | .uncaptured => .unknown
        | .captured none => .false
        | .captured (some organization) => .of (mapping.organizations.contains organization)
    organization.andThen <|
      if mapping.scopes.isEmpty then .true
      else match facts.scopes with
        | .uncaptured => .unknown
        | .captured scopes => .of (scopes.any mapping.scopes.contains)

/-- The roles the mappings that apply grant, or `none` when one cannot be told. -/
def grantedRoles (principal : Principal) (facts : PolicyFacts) :
    List IdentityMapping → Option (List String)
  | [] => some []
  | mapping :: rest =>
    match mappingApplies mapping principal facts with
    | .true => (grantedRoles principal facts rest).map (mapping.grantRoles ++ ·)
    | .false => grantedRoles principal facts rest
    | .unknown => none

/-- The internal roles `principal` holds, sorted and de-duplicated. -/
def effectiveRoles (mappings : List IdentityMapping) (principal : Principal)
    (facts : PolicyFacts) : Option (List String) :=
  (grantedRoles principal facts mappings).map Text.sortDedup

def grantsPermission (permissions : List String) (permission : String) : Bool :=
  permissions.any fun grant => grant == "*" || grant == permission

def RoleEntry.matchesPrincipalIdentity (entry : RoleEntry) (principal : Principal) : Bool :=
  principalIdentityMatches entry.issuers entry.authMethods principal

/-- Whether one of the principal's roles, active for its identity, grants
`permission`. -/
def Policy.principalHasPermission (policy : Policy) (principal : Principal)
    (permission : String) : Bool :=
  ((principal.roles.filterMap fun role => policy.roles[role]?).filter fun entry =>
    entry.matchesPrincipalIdentity principal).any fun entry =>
      grantsPermission entry.permissions permission

end GreenGateway.Rbac
