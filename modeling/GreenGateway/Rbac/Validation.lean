import GreenGateway.Rbac.ConditionCheck

/-! The semantic validation of a policy document, section by section, stopping at
the first problem with its code, its location and its text. -/

namespace GreenGateway.Rbac

open Foundation

def policyV1SchemaVersion : String := "1.0.0"

inductive PolicySchema where
  | v0
  | v1
  deriving DecidableEq, Repr

/-- The schema a version dispatches to. -/
def PolicySchema.ofVersion (schemaVersion : String) : Option PolicySchema :=
  if schemaVersion = policyV1SchemaVersion then some .v1
  else if Text.startsWith schemaVersion "0." then some .v0
  else none

def maxRoleDescriptionBytes : Nat := 512
def stableRouteIdMaxLen : Nat := 64
def maxIdentityMappings : Nat := 256
def maxIdentityMappingValues : Nat := 64
def maxOrganizationBytes : Nat := 256

def allAuthMethodNames : List String :=
  ["bearer_token", "session_cookie", "service_token", "client_certificate"]

def validAuthMethodName (value : String) : Bool := allAuthMethodNames.contains value

/-- A reference token with its two special characters escaped. -/
def pointerToken (raw : String) : String :=
  String.ofList (raw.toList.flatMap fun
    | '~' => ['~', '0']
    | '/' => ['~', '1']
    | char => [char])

def isAsciiAlphanumeric (char : Char) : Bool := char.isUpper || char.isLower || char.isDigit

def isValidHostnameLabel (value : String) : Bool :=
  !value.isEmpty && decide (Text.len value ≤ 63) && !Text.startsWith value "-" &&
    !Text.endsWith value "-" && value.toList.all fun char => isAsciiAlphanumeric char || char == '-'

def isValidHostnameWithoutPort (value : String) : Bool :=
  !value.isEmpty && decide (Text.len value ≤ 253) && !value.toList.contains ':' &&
    (Text.split '.' value).all isValidHostnameLabel

def isValidEgressHostPattern (value : String) : Bool :=
  if Text.trim value != value then false
  else match Text.stripFront? value "*." with
    | some suffix => isValidHostnameWithoutPort suffix
    | none => !value.toList.contains '*' && isValidHostnameWithoutPort value

def isValidStableRouteId (value : String) : Bool :=
  !value.isEmpty && decide (Text.len value ≤ stableRouteIdMaxLen) &&
    (value.toList.take 1).all isAsciiAlphanumeric && (value.toList.drop 1).all fun char =>
      isAsciiAlphanumeric char || char == '.' || char == '_' || char == '-'

/-- The first segment that looks like a capture and is none. -/
def findMalformedCaptureSegment (pattern : String) : Option String :=
  match Text.stripFront? pattern "/" with
  | none => none
  | some tail =>
    if tail.isEmpty then none
    else (Text.split '/' tail).find? fun segment =>
      segment != "*" && segment != "**" && hasCaptureDelimiter segment && !isCaptureSegment segment

def validateIdentityConstraints (issuers authMethods : List String) (fieldPath pointer : String) :
    Except PolicyIssue Unit := do
  checkSome (issuers.findIdx? fun issuer => (Text.trim issuer).isEmpty) fun index =>
    .error
      { code := .issuerEmpty
        pointer := s!"{pointer}/issuers/{index}"
        detail := s!"{fieldPath}.issuers must not contain empty values" }
  eachIndexed (fun index authMethod =>
    refuse (!validAuthMethodName authMethod)
      { code := .authMethodUnknown
        pointer := s!"{pointer}/auth_methods/{index}"
        detail := s!"{fieldPath}.auth_methods contains unknown auth method '{authMethod}', " ++
          "expected 'bearer_token', 'session_cookie', or 'service_token'" })
    authMethods

def validatePrincipalMatcher (principal : PrincipalMatcher) (fieldPath pointer : String) :
    Except PolicyIssue Unit :=
  validateIdentityConstraints principal.issuers principal.authMethods fieldPath pointer

/-- The members only policy v1 defines. -/
def validateV0HasNoV1Members (policy : Policy) : Except PolicyIssue Unit := do
  let required (pointer what rest : String) : PolicyIssue :=
    { code := .memberRequiresV1
      pointer
      detail := s!"{what} requires schema_version \"{policyV1SchemaVersion}\"{rest}" }
  refuse policy.identityMappings.isSome (required "/identity_mappings" "identity_mappings" "")
  checkSome (policy.rules.findIdx? fun rule => rule.conditions.isSome) fun index =>
    .error (required s!"/rules/{index}/conditions" s!"rules[{index}].conditions" "")
  checkSome (policy.routes.findIdx? fun route => route.id.isSome) fun index =>
    .error (required s!"/routes/{index}/id" s!"routes[{index}].id"
      "; a 0.x document's routes carry no id")
  checkSome (policy.rateLimits.findIdx? fun rule => rule.id.isSome) fun index =>
    .error (required s!"/rate_limits/{index}/id" s!"rate_limits[{index}].id"
      "; a 0.x document's rate overrides carry no id")

def validateRoute (routeIndex : Nat) (route : RouteRule) : Except PolicyIssue Unit := do
  refuse (!Text.startsWith route.pathPrefix "/")
    { code := .pathNotAbsolute
      pointer := s!"/routes/{routeIndex}/path_prefix"
      detail := s!"routes[{routeIndex}].path_prefix must start with '/'" }
  eachIndexed (fun hostIndex host => do
    refuse (Text.trim host != host || !isValidHostnameWithoutPort host)
      { code := .routeHostInvalid
        pointer := s!"/routes/{routeIndex}/hosts/{hostIndex}"
        detail := s!"routes[{routeIndex}].hosts must contain hostnames without ports, got " ++
          s!"'{host}'" }
    -- the names already seen are the earlier ones, lowercase
    let seen := (route.hosts.take hostIndex).map Text.toAsciiLowercase
    refuse (seen.contains (Text.toAsciiLowercase host))
      { code := .routeHostDuplicate
        pointer := s!"/routes/{routeIndex}/hosts/{hostIndex}"
        detail := s!"routes[{routeIndex}].hosts contains duplicate hostname '{host}'" })
    route.hosts

def validateRoutes (routes : List RouteRule) : Except PolicyIssue Unit :=
  eachIndexed validateRoute routes

def validateRuleDispatchOrigin [Externals] (upstreamOrigin : String) (ruleIndex : Nat) :
    Except PolicyIssue Unit := do
  let invalid (detail : String) : PolicyIssue :=
    { code := .dispatchOriginInvalid
      pointer := s!"/rules/{ruleIndex}/dispatch/upstream_origin"
      detail := s!"rules[{ruleIndex}].dispatch.upstream_origin {detail}" }
  let authority := (Text.stripFront? upstreamOrigin "http://").or
    (Text.stripFront? upstreamOrigin "https://")
  refuse (!authority.any fun authority =>
      !authority.isEmpty && !authority.toList.any (['/', '?', '#', '@'].contains ·))
    (invalid "must be an HTTP(S) origin without credentials, path, query, or fragment")
  refuse (!(Externals.parseUrl upstreamOrigin).any fun (scheme, _) =>
      scheme == "http" || scheme == "https")
    (invalid "must be a valid HTTP(S) origin")

/-- A rule's dispatch: which members its kind needs and forbids. -/
def validateRuleDispatch [Externals] (ruleIndex : Nat) (dispatch : RuleDispatchMatcher) :
    Except PolicyIssue Unit :=
  let pointer := s!"/rules/{ruleIndex}/dispatch"
  let fieldPath := s!"rules[{ruleIndex}].dispatch"
  match dispatch.kind with
  | .contextless =>
    refuse (dispatch.upstreamOrigin.isSome || dispatch.routeId.isSome)
      { code := .dispatchMemberNotAllowed
        pointer
        detail := s!"{fieldPath} upstream_origin and route_id must be omitted for a contextless " ++
          "dispatch" }
  | .legacy => do
    refuse dispatch.routeId.isSome
      { code := .dispatchMemberNotAllowed
        pointer := s!"{pointer}/route_id"
        detail := s!"{fieldPath}.route_id must be omitted for a legacy dispatch" }
    refuse dispatch.upstreamOrigin.isNone
      { code := .dispatchMemberMissing
        pointer := s!"{pointer}/upstream_origin"
        detail := s!"{fieldPath}.upstream_origin is required for a legacy dispatch" }
    checkSome dispatch.upstreamOrigin fun upstreamOrigin =>
      validateRuleDispatchOrigin upstreamOrigin ruleIndex
  | .route => do
    refuse dispatch.upstreamOrigin.isSome
      { code := .dispatchMemberNotAllowed
        pointer := s!"{pointer}/upstream_origin"
        detail := s!"{fieldPath}.upstream_origin must be omitted for a route dispatch" }
    refuse dispatch.routeId.isNone
      { code := .dispatchMemberMissing
        pointer := s!"{pointer}/route_id"
        detail := s!"{fieldPath}.route_id is required for a route dispatch" }
    checkSome dispatch.routeId fun routeId =>
      refuse (!isValidStableRouteId routeId)
        { code := .dispatchRouteIdInvalid
          pointer := s!"{pointer}/route_id"
          detail := s!"{fieldPath}.route_id must be a valid stable route ID" }

/-- What a rule that names a tool may not carry. -/
def validateRuleToolName (ruleIndex : Nat) (rule : Rule) (toolName : String) :
    Except PolicyIssue Unit := do
  let pointer := s!"/rules/{ruleIndex}"
  refuse (Text.trim toolName).isEmpty
    { code := .toolNameEmpty
      pointer := s!"{pointer}/tool_name"
      detail := s!"rules[{ruleIndex}].tool_name must not be empty" }
  refuse (decide (Text.len toolName > maxToolNameBytes))
    { code := .toolNameTooLong
      pointer := s!"{pointer}/tool_name"
      detail := s!"rules[{ruleIndex}].tool_name must not exceed {maxToolNameBytes} bytes" }
  refuse (!rule.methods.isEmpty)
    { code := .toolRuleMethodsPresent
      pointer := s!"{pointer}/methods"
      detail := s!"rules[{ruleIndex}].methods must be empty when tool_name is set" }
  refuse rule.dispatch.isSome
    { code := .toolRuleDispatchPresent
      pointer := s!"{pointer}/dispatch"
      detail := s!"rules[{ruleIndex}].dispatch is only valid for HTTP path rules" }

/-- A path pattern's malformed capture; `what` is the element that never matches. -/
def validateCaptures (path pointer fieldPath what : String) : Except PolicyIssue Unit :=
  checkSome (findMalformedCaptureSegment path) fun segment =>
    .error
      { code := .pathCaptureMalformed
        pointer := s!"{pointer}/path"
        detail := s!"{fieldPath}.path segment '{segment}' looks like a capture but is not valid " ++
          "(capture names must start with a letter or underscore and contain only ASCII " ++
          "letters, digits, and underscores, e.g. '\x7bid\x7d'); as written this " ++
          s!"{what} would never match any request" }

/-- The path of a rule that has one. -/
def validateRulePath (path pointer fieldPath : String) : Except PolicyIssue Unit :=
  if path.isEmpty then .ok ()
  else do
    refuse (!Text.startsWith path "/")
      { code := .pathNotAbsolute
        pointer := s!"{pointer}/path"
        detail := s!"{fieldPath}.path must start with '/', got '{path}'" }
    validateCaptures path pointer fieldPath "rule"

def validateRule [Externals] (ruleIndex : Nat) (rule : Rule) : Except PolicyIssue Unit := do
  let pointer := s!"/rules/{ruleIndex}"
  let fieldPath := s!"rules[{ruleIndex}]"
  refuse (!rule.path.isEmpty == rule.toolName.isSome)
    { code := .ruleTargetInvalid
      pointer
      detail := s!"{fieldPath} must set exactly one of path or tool_name" }
  checkSome rule.toolName (validateRuleToolName ruleIndex rule)
  checkSome rule.dispatch (validateRuleDispatch ruleIndex)
  validateRulePath rule.path pointer fieldPath
  validatePrincipalMatcher rule.principal s!"{fieldPath}.principal" s!"{pointer}/principal"
  checkSome rule.conditions <|
    validateCondition (if rule.toolName.isSome then .toolName else .httpPath)
      s!"{pointer}/conditions" s!"{fieldPath}.conditions"

def validateRules [Externals] (rules : List Rule) : Except PolicyIssue Unit :=
  eachIndexed validateRule rules

def validateRateLimit (ruleIndex : Nat) (rule : RateLimitRule) : Except PolicyIssue Unit := do
  let pointer := s!"/rate_limits/{ruleIndex}"
  let fieldPath := s!"rate_limits[{ruleIndex}]"
  refuse (decide (rule.requestsPerSecond ≤ 0))
    { code := .rateLimitRateInvalid
      pointer := s!"{pointer}/requests_per_second"
      detail := s!"{fieldPath}.requests_per_second must be finite and positive" }
  refuse (decide (rule.burst = 0))
    { code := .rateLimitBurstInvalid
      pointer := s!"{pointer}/burst"
      detail := s!"{fieldPath}.burst must be positive" }
  checkSome rule.path fun path => do
    refuse (!Text.startsWith path "/")
      { code := .pathNotAbsolute
        pointer := s!"{pointer}/path"
        detail := s!"{fieldPath}.path must start with '/', got '{path}'" }
    validateCaptures path pointer fieldPath "override"
  validatePrincipalMatcher rule.principal s!"{fieldPath}.principal" s!"{pointer}/principal"

def validateRateLimits (rateLimits : List RateLimitRule) : Except PolicyIssue Unit :=
  eachIndexed validateRateLimit rateLimits

def validateRoleDescription (description roleName pointer : String) : Except PolicyIssue Unit := do
  let invalid (problem : String) : PolicyIssue :=
    { code := .roleDescriptionInvalid
      pointer := s!"{pointer}/description"
      detail := s!"roles.{roleName}.description must not {problem}" }
  refuse (Text.trim description).isEmpty (invalid "be empty; omit it instead")
  refuse (decide (Text.len description > maxRoleDescriptionBytes))
    (invalid s!"exceed {maxRoleDescriptionBytes} bytes")
  refuse (description.toList.any Text.isControl) (invalid "contain control characters")

def validateRoles (roles : NameMap RoleEntry) : Except PolicyIssue Unit :=
  eachIndexed (fun _ (roleName, entry) => do
    let pointer := s!"/roles/{pointerToken roleName}"
    validateIdentityConstraints entry.issuers entry.authMethods s!"roles.{roleName}" pointer
    checkSome entry.description fun description =>
      validateRoleDescription description roleName pointer)
    roles.toList

/-- The issue of a mapping member that lists too many values. -/
def tooManyValues (pointer fieldPath member : String) : PolicyIssue :=
  { code := .identityMappingValueInvalid
    pointer := s!"{pointer}/{member}"
    detail := s!"{fieldPath}.{member} must list at most {maxIdentityMappingValues} values" }

def validateMappingValues (pointer fieldPath member : String) (values : List String)
    (accepted : String → Bool) (requirement : String) : Except PolicyIssue Unit := do
  refuse (decide (values.length > maxIdentityMappingValues)) (tooManyValues pointer fieldPath member)
  eachIndexed (fun index value =>
    refuse (!accepted value)
      { code := .identityMappingValueInvalid
        pointer := s!"{pointer}/{member}/{index}"
        detail := s!"{fieldPath}.{member}[{index}] must be {requirement}" })
    values

/-- A mapping's list of texts of at most `maxBytes`. -/
def validateMappingTexts (pointer fieldPath member : String) (values : List String)
    (maxBytes : Nat) : Except PolicyIssue Unit :=
  validateMappingValues pointer fieldPath member values (isBoundedText · maxBytes false)
    s!"1 to {maxBytes} bytes of text without control characters"

def validateIdentityMapping (roles : NameMap RoleEntry) (index : Nat) (mapping : IdentityMapping) :
    Except PolicyIssue Unit := do
  let pointer := s!"/identity_mappings/{index}"
  let fieldPath := s!"identity_mappings[{index}]"
  refuse (Text.trim mapping.issuer).isEmpty
    { code := .issuerEmpty
      pointer := s!"{pointer}/issuer"
      detail := s!"{fieldPath}.issuer must not be empty" }
  refuse (decide (Text.len mapping.issuer > maxPrincipalIssuerBytes))
    { code := .identityMappingValueInvalid
      pointer := s!"{pointer}/issuer"
      detail := s!"{fieldPath}.issuer must not exceed {maxPrincipalIssuerBytes} bytes" }
  refuse (decide (mapping.authMethods.length > maxIdentityMappingValues))
    (tooManyValues pointer fieldPath "auth_methods")
  eachIndexed (fun methodIndex authMethod =>
    refuse (!validAuthMethodName authMethod)
      { code := .authMethodUnknown
        pointer := s!"{pointer}/auth_methods/{methodIndex}"
        detail := s!"{fieldPath}.auth_methods contains unknown auth method '{authMethod}'" })
    mapping.authMethods
  validateMappingTexts pointer fieldPath "subjects" mapping.subjects maxPrincipalSubjectBytes
  validateMappingTexts pointer fieldPath "organizations" mapping.organizations maxOrganizationBytes
  validateMappingTexts pointer fieldPath "claimed_roles" mapping.claimedRoles maxPrincipalRoleBytes
  validateMappingValues pointer fieldPath "scopes" mapping.scopes isScopeToken
    ("an OAuth scope token: 1 to 256 bytes of visible ASCII without a space, a quote or a " ++
      "backslash")
  refuse mapping.grantRoles.isEmpty
    { code := .identityMappingGrantEmpty
      pointer := s!"{pointer}/grant_roles"
      detail := s!"{fieldPath}.grant_roles must name at least one role" }
  refuse (decide (mapping.grantRoles.length > maxIdentityMappingValues))
    (tooManyValues pointer fieldPath "grant_roles")
  eachIndexed (fun roleIndex role =>
    refuse (!roles.contains role)
      { code := .identityMappingRoleUnknown
        pointer := s!"{pointer}/grant_roles/{roleIndex}"
        detail := s!"{fieldPath}.grant_roles[{roleIndex}] names role '{role}', which the " ++
          "policy's roles do not define" })
    mapping.grantRoles

def validateIdentityMappings (mappings : List IdentityMapping) (roles : NameMap RoleEntry) :
    Except PolicyIssue Unit := do
  refuse (decide (mappings.length > maxIdentityMappings))
    { code := .identityMappingsTooMany
      pointer := "/identity_mappings"
      detail := s!"identity_mappings must list at most {maxIdentityMappings} mappings" }
  eachIndexed (validateIdentityMapping roles) mappings

def validateTools (tools : NameMap ToolPolicyEntry) : Except PolicyIssue Unit :=
  eachIndexed (fun _ (toolName, entry) => do
    refuse (decide (Text.len toolName > maxToolNameBytes))
      { code := .toolNameTooLong
        pointer := "/tools"
        detail := s!"tools entry names must not exceed {maxToolNameBytes} bytes" }
    let pointer := s!"/tools/{pointerToken toolName}"
    refuse (decide (entry.timeoutMs = 0))
      { code := .toolTimeoutInvalid
        pointer := s!"{pointer}/timeout_ms"
        detail := s!"tools.{toolName}.timeout_ms must be positive" }
    validateIdentityConstraints entry.issuers entry.authMethods s!"tools.{toolName}" pointer)
    tools.toList

def EgressPolicy.validate [Externals] (egress : EgressPolicy) : Except PolicyIssue Unit := do
  eachIndexed (fun index host =>
    refuse (!isValidEgressHostPattern host)
      { code := .egressHostInvalid
        pointer := s!"/egress/hosts/{index}"
        detail := "egress host pattern must be an ASCII hostname or wildcard prefix like " ++
          s!"\"*.example.com\", got '{host}'" })
    egress.hosts
  eachIndexed (fun index cidr =>
    refuse (Externals.parseIpNet cidr).isNone
      { code := .egressCidrInvalid
        pointer := s!"/egress/cidrs/{index}"
        detail := s!"egress CIDR '{cidr}' is invalid: invalid IP address syntax" })
    egress.cidrs
  checkSome (egress.ports.findIdx? (· == 0)) fun index =>
    .error
      { code := .egressPortInvalid
        pointer := s!"/egress/ports/{index}"
        detail := "egress ports must be in the range 1..=65535" }

/-- The schema version, and the members it may not have. -/
def validateSchemaVersion (policy : Policy) : Except PolicyIssue Unit :=
  match PolicySchema.ofVersion policy.schemaVersion with
  | none =>
    .error
      { code := .schemaVersionUnsupported
        pointer := "/schema_version"
        detail := "policy schema_version must start with \"0.\" or be exactly " ++
          s!"\"{policyV1SchemaVersion}\", got '{policy.schemaVersion}'" }
  | some .v0 => validateV0HasNoV1Members policy
  | some .v1 => .ok ()

/-- The semantic validation both schemas share. -/
def Policy.checkSemantics [Externals] (policy : Policy) : Except PolicyIssue Unit := do
  validateSchemaVersion policy
  validateRoutes policy.routes
  validateRules policy.rules
  validateRateLimits policy.rateLimits
  validateRoles policy.roles
  checkSome policy.identityMappings fun mappings => validateIdentityMappings mappings policy.roles
  validateTools policy.tools
  policy.egress.validate

/-- A policy the validating parse accepted. -/
def Policy.Validated [Externals] (policy : Policy) : Prop := policy.checkSemantics = .ok ()

instance [Externals] (policy : Policy) : Decidable policy.Validated :=
  inferInstanceAs (Decidable (policy.checkSemantics = .ok ()))

section Validated

variable [Externals] {policy : Policy}

theorem Policy.Validated.rule (validated : policy.Validated) {rule : Rule}
    (member : rule ∈ policy.rules) : ∃ index, validateRule index rule = .ok () := by
  simp only [Policy.Validated, Policy.checkSemantics, bind_eq_ok, unit_exists_ok] at validated
  obtain ⟨index, found⟩ := List.mem_iff_getElem?.mp member
  exact ⟨index, eachIndexed_eq_ok.mp validated.2.2.1 index rule found⟩

/-- A validated rule's conditions read nothing its kind of lane cannot capture. -/
theorem Policy.Validated.conditions_fit (validated : policy.Validated) {rule : Rule}
    (member : rule ∈ policy.rules) {conditions : Condition}
    (carried : rule.conditions = some conditions) :
    conditions.Fits (if rule.toolName.isSome then .toolName else .httpPath) := by
  obtain ⟨index, passed⟩ := validated.rule member
  simp only [validateRule, bind_eq_ok, unit_exists_ok, checkSome_eq_ok] at passed
  exact validateCondition_fits (passed.2.2.2.2.2 conditions carried)

end Validated

end GreenGateway.Rbac
