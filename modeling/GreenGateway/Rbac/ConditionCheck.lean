import GreenGateway.Foundation.Guards
import GreenGateway.Rbac.Identity

/-! Validation of a rule's condition tree: its size bounds, the names and values
of its leaves, and the kind of rule each leaf may stand in. -/

namespace GreenGateway.Rbac

open Foundation

/-- The stable codes the semantic validation reports. -/
inductive IssueCode where
  | schemaVersionUnsupported
  | memberRequiresV1
  | pathNotAbsolute
  | pathCaptureMalformed
  | ruleTargetInvalid
  | toolNameEmpty
  | toolNameTooLong
  | toolRuleMethodsPresent
  | toolRuleDispatchPresent
  | dispatchMemberNotAllowed
  | dispatchMemberMissing
  | dispatchOriginInvalid
  | dispatchRouteIdInvalid
  | routeHostInvalid
  | routeHostDuplicate
  | rateLimitRateInvalid
  | rateLimitBurstInvalid
  | issuerEmpty
  | authMethodUnknown
  | roleDescriptionInvalid
  | toolTimeoutInvalid
  | egressHostInvalid
  | egressCidrInvalid
  | egressPortInvalid
  | identityMappingsTooMany
  | identityMappingGrantEmpty
  | identityMappingRoleUnknown
  | identityMappingValueInvalid
  | conditionTooComplex
  | conditionNotApplicable
  | conditionValueInvalid
  | conditionNameForbidden
  | conditionCidrInvalid
  | conditionPointerInvalid
  | conditionTimeInvalid
  deriving DecidableEq, Repr

/-- One problem, located by an RFC 6901 pointer into the document. -/
structure PolicyIssue where
  code : IssueCode
  pointer : String
  detail : String
  deriving DecidableEq, Repr

/-- The kind of rule a condition belongs to. -/
inductive ConditionTarget where
  | httpPath
  | toolName
  deriving DecidableEq, Repr

def maxConditionDepth : Nat := 4
def maxConditionNodes : Nat := 32
def maxConditionBranches : Nat := 16
def maxConditionValues : Nat := 32
def maxConditionValueBytes : Nat := 256
def maxConditionNameBytes : Nat := 128
def maxToolArgumentPointerBytes : Nat := 256
def maxToolArgumentPointerTokens : Nat := 8

def forbiddenHeaderNames : List String :=
  ["authorization", "proxy-authorization", "cookie", "set-cookie", "host", "connection",
    "keep-alive", "proxy-connection", "te", "trailer", "transfer-encoding", "upgrade", "forwarded",
    "via", "true-client-ip", "cf-connecting-ip"]

def forbiddenHeaderPrefixes : List String := ["x-forwarded-", "proxy-", "x-original-", "x-rewrite-"]

def forbiddenHeaderFragments : List String :=
  ["auth", "token", "secret", "passw", "cookie", "session", "credential", "key", "signature", "jwt",
    "csrf", "xsrf", "user", "email", "identity", "principal", "subject", "account", "role", "group",
    "tenant", "organization", "org-id", "real-ip", "client-ip", "client-cert", "remote-", "ssl-",
    "tls-"]

def forbiddenQueryNames : List String := ["code", "state", "sig"]

def forbiddenQueryFragments : List String :=
  ["auth", "token", "secret", "passw", "cookie", "session", "credential", "key", "signature", "jwt",
    "csrf", "xsrf"]

/-- Whether a condition may read the header `name`, already lowercase. -/
def headerNameIsReadable (name : String) : Bool :=
  !forbiddenHeaderNames.contains name &&
    !forbiddenHeaderPrefixes.any (fun start => Text.startsWith name start) &&
    !forbiddenHeaderFragments.any fun fragment => Text.contains name fragment

def queryNameIsReadable (name : String) : Bool :=
  let name := Text.toAsciiLowercase name
  !forbiddenQueryNames.contains name &&
    !forbiddenQueryFragments.any fun fragment => Text.contains name fragment

def reservedClaimNames : List String :=
  ["iss", "sub", "aud", "exp", "nbf", "iat", "jti", "sid", "nonce", "at_hash", "c_hash", "s_hash",
    "cnf", "scope", "scp", "email"]

def credentialClaimFragments : List String := ["token", "secret", "passw", "credential"]

/-- An RFC 6749 scope token. -/
def isScopeToken (value : String) : Bool :=
  !value.isEmpty && decide (Text.len value ≤ maxPrincipalScopeBytes) &&
    value.toList.all fun char =>
      decide (char.toNat = 0x21 ∨ (0x23 ≤ char.toNat ∧ char.toNat ≤ 0x5b) ∨
        (0x5d ≤ char.toNat ∧ char.toNat ≤ 0x7e))

def isVerifiedClaimText (text : String) : Bool :=
  decide (Text.len text ≤ maxVerifiedClaimValueBytes) && !text.toList.any Text.isControl

/-- Why `name` cannot be a verified claim. -/
def verifiedClaimNameProblem (name : String) : Option String :=
  if name.isEmpty || decide (Text.len name > maxVerifiedClaimNameBytes) then
    some "must be 1 to 256 bytes"
  else if name.toList.any Text.isControl || Text.trim name != name then
    some "must not contain control characters or leading or trailing whitespace"
  else if reservedClaimNames.contains name ||
      credentialClaimFragments.any (fun fragment =>
        Text.contains (Text.toAsciiLowercase name) fragment) then
    some ("names a claim that carries the principal's identity, scopes, email or credential " ++
      "metadata, which policy reads some other way or never")
  else none

def valueIssue (pointer detail : String) : PolicyIssue :=
  { code := .conditionValueInvalid, pointer, detail }

def timeIssue (pointer detail : String) : PolicyIssue :=
  { code := .conditionTimeInvalid, pointer, detail }

def isBoundedText (value : String) (maxBytes : Nat) (allowEmpty : Bool) : Bool :=
  (allowEmpty || !value.isEmpty) && decide (Text.len value ≤ maxBytes) &&
    !value.toList.any Text.isControl

def isPrintableText (value : String) (maxBytes : Nat) : Bool := isBoundedText value maxBytes false

/-- An HTTP field name, lowercase, of bounded length. -/
def isLowercaseToken (name : String) : Bool :=
  !name.isEmpty && decide (Text.len name ≤ maxConditionNameBytes) &&
    name.toList.all fun char =>
      char.isLower || char.isDigit || "!#$%&'*+-.^_`|~".toList.contains char

/-- Every `~` of a pointer token starts one of the two escapes. -/
def tokenEscapesValid (token : String) : Bool :=
  ((Text.split '~' token).drop 1).all fun rest =>
    Text.startsWith rest "0" || Text.startsWith rest "1"

/-- A non-empty RFC 6901 pointer of bounded size and token count. -/
def isBoundedJsonPointer (pointer : String) : Bool :=
  match Text.stripFront? pointer "/" with
  | none => false
  | some tokens =>
    let tokens := Text.split '/' tokens
    decide (Text.len pointer ≤ maxToolArgumentPointerBytes) &&
      !pointer.toList.any Text.isControl && tokens.all tokenEscapesValid &&
      decide (tokens.length ≤ maxToolArgumentPointerTokens)

/-- An identity leaf's issuer: present, and within a principal's bound. -/
def validateIssuer (issuer pointer fieldPath : String) : Except PolicyIssue Unit := do
  refuse (Text.trim issuer).isEmpty
    { code := .issuerEmpty
      pointer := s!"{pointer}/issuer"
      detail := s!"{fieldPath}.issuer must not be empty" }
  refuse (decide (Text.len issuer > maxPrincipalIssuerBytes))
    (valueIssue s!"{pointer}/issuer"
      s!"{fieldPath}.issuer must not exceed {maxPrincipalIssuerBytes} bytes")

/-- A leaf stands only in the kind of rule its fact exists for. -/
def requireTarget (target required : ConditionTarget) (pointer fieldPath : String) :
    Except PolicyIssue Unit :=
  let ruleKind := match required with
    | .httpPath => "an HTTP path rule"
    | .toolName => "a tool_name rule"
  refuse (decide (target ≠ required))
    { code := .conditionNotApplicable
      pointer
      detail := s!"{fieldPath} is valid only in {ruleKind}" }

def validateValueCount (count : Nat) (pointer fieldPath : String) : Except PolicyIssue Unit :=
  refuse (decide (count = 0 ∨ count > maxConditionValues))
    (valueIssue pointer s!"{fieldPath} must list 1 to {maxConditionValues} values")

/-- A leaf's `in` list: its count, then each value. -/
def validateValues {α : Type} (values : List α) (accepted : α → Bool)
    (pointer fieldPath requirement : String) : Except PolicyIssue Unit := do
  validateValueCount values.length s!"{pointer}/in" fieldPath
  eachIndexed (fun index value =>
    refuse (!accepted value)
      (valueIssue s!"{pointer}/in/{index}" s!"{fieldPath}.in[{index}] must be {requirement}"))
    values

def validateTextValues (values : List String) (pointer fieldPath : String) (allowEmpty : Bool) :
    Except PolicyIssue Unit :=
  let ending := if allowEmpty then "" else ", and not empty"
  validateValues values (isBoundedText · maxConditionValueBytes allowEmpty) pointer fieldPath
    s!"at most {maxConditionValueBytes} bytes of text without control characters{ending}"

/-- A JSON scalar whose text, if it is one, is accepted. -/
def isScalarWith (acceptedText : String → Bool) : Json → Bool
  | .string text => acceptedText text
  | .bool _ | .number _ => true
  | .null | .array _ | .object _ => false

def OrganizationCondition.validate (leaf : OrganizationCondition) (pointer fieldPath : String) :
    Except PolicyIssue Unit := do
  validateIssuer leaf.issuer pointer fieldPath
  validateTextValues leaf.values pointer fieldPath false

def ScopeCondition.validate (leaf : ScopeCondition) (pointer fieldPath : String) :
    Except PolicyIssue Unit := do
  validateIssuer leaf.issuer pointer fieldPath
  validateValues leaf.values isScopeToken pointer fieldPath
    (s!"an OAuth scope token: 1 to {maxPrincipalScopeBytes} bytes of visible ASCII without a " ++
      "space, a quote or a backslash")

def ClaimCondition.validate (leaf : ClaimCondition) (pointer fieldPath : String) :
    Except PolicyIssue Unit := do
  validateIssuer leaf.issuer pointer fieldPath
  checkSome (verifiedClaimNameProblem leaf.name) fun problem =>
    -- a malformed name is a value problem, a well-formed reserved one a forbidden name
    let malformed := leaf.name.isEmpty ||
      decide (Text.len leaf.name > maxVerifiedClaimNameBytes) ||
      leaf.name.toList.any Text.isControl || Text.trim leaf.name != leaf.name
    .error
      { code := if malformed then .conditionValueInvalid else .conditionNameForbidden
        pointer := s!"{pointer}/name"
        detail := s!"{fieldPath}.name {problem}" }
  validateValues leaf.values (isScalarWith isVerifiedClaimText) pointer fieldPath
    (s!"a string of at most {maxVerifiedClaimValueBytes} bytes without control characters, " ++
      "a number, or a boolean")

def SourceNetworkCondition.validate [Externals] (leaf : SourceNetworkCondition)
    (pointer fieldPath : String) : Except PolicyIssue Unit := do
  validateValueCount leaf.cidrs.length s!"{pointer}/cidrs" fieldPath
  eachIndexed (fun index cidr =>
    refuse (!(Externals.parseIpNet cidr).any fun network => network.trunc == network)
      { code := .conditionCidrInvalid
        pointer := s!"{pointer}/cidrs/{index}"
        detail := s!"{fieldPath}.cidrs[{index}] must be an IPv4 or IPv6 network address in CIDR " ++
          "notation, with no host bits set" })
    leaf.cidrs

def HeaderCondition.validate (leaf : HeaderCondition) (target : ConditionTarget)
    (pointer fieldPath : String) : Except PolicyIssue Unit := do
  requireTarget target .httpPath pointer fieldPath
  refuse (!isLowercaseToken leaf.name)
    (valueIssue s!"{pointer}/name"
      (s!"{fieldPath}.name must be a lowercase HTTP field name of 1 to " ++
        s!"{maxConditionNameBytes} bytes"))
  refuse (!headerNameIsReadable leaf.name)
    { code := .conditionNameForbidden
      pointer := s!"{pointer}/name"
      detail := s!"{fieldPath}.name '{leaf.name}' names a header that can carry credentials, " ++
        "identity, or hop-by-hop routing" }
  validateValues leaf.values (fun value =>
      !value.isEmpty && decide (Text.len value ≤ maxConditionValueBytes) &&
        value.toList.all (fun char => decide (0x20 ≤ char.toNat ∧ char.toNat ≤ 0x7e)) &&
        !Text.startsWith value " " && !Text.endsWith value " ") pointer fieldPath
    (s!"1 to {maxConditionValueBytes} bytes of visible ASCII, without leading or trailing " ++
      "spaces")

def QueryCondition.validate (leaf : QueryCondition) (target : ConditionTarget)
    (pointer fieldPath : String) : Except PolicyIssue Unit := do
  requireTarget target .httpPath pointer fieldPath
  refuse (!isPrintableText leaf.name maxConditionNameBytes)
    (valueIssue s!"{pointer}/name"
      (s!"{fieldPath}.name must be 1 to {maxConditionNameBytes} bytes of text without control " ++
        "characters"))
  refuse (!queryNameIsReadable leaf.name)
    { code := .conditionNameForbidden
      pointer := s!"{pointer}/name"
      detail := s!"{fieldPath}.name '{leaf.name}' names a query parameter that can carry a " ++
        "credential" }
  validateTextValues leaf.values pointer fieldPath true

def ToolArgumentCondition.validate (leaf : ToolArgumentCondition) (target : ConditionTarget)
    (pointer fieldPath : String) : Except PolicyIssue Unit := do
  requireTarget target .toolName pointer fieldPath
  refuse (!isBoundedJsonPointer leaf.pointer)
    { code := .conditionPointerInvalid
      pointer := s!"{pointer}/pointer"
      detail := s!"{fieldPath}.pointer must be a non-empty RFC 6901 JSON Pointer of at most " ++
        s!"{maxToolArgumentPointerTokens} reference tokens and " ++
        s!"{maxToolArgumentPointerBytes} bytes" }
  validateValues leaf.values (isScalarWith (isBoundedText · maxConditionValueBytes true)) pointer
    fieldPath
    (s!"a string of at most {maxConditionValueBytes} bytes without control characters, a " ++
      "number, or a boolean")

def TimeWindowCondition.validate [Externals] (leaf : TimeWindowCondition)
    (pointer fieldPath : String) : Except PolicyIssue Unit := do
  refuse (leaf.from.isNone && leaf.until.isNone)
    (timeIssue pointer s!"{fieldPath} must set from, until, or both")
  let instant (member : String) (value : String) :=
    refuse (parseUtcInstant value).isNone
      (timeIssue s!"{pointer}/{member}"
        (s!"{fieldPath}.{member} must be an RFC 3339 UTC instant such as " ++
          "2026-01-01T00:00:00Z"))
  checkSome leaf.from (instant "from")
  checkSome leaf.until (instant "until")
  checkSome (leaf.from.bind parseUtcInstant) fun «from» =>
    checkSome (leaf.until.bind parseUtcInstant) fun «until» =>
      refuse (decide («from» ≥ «until»))
        (timeIssue s!"{pointer}/until" s!"{fieldPath}.until must be later than from")

section Nodes

variable [Externals] (target : ConditionTarget)

/-- A node that is a leaf; the operators are checked by `validateNode`. -/
def validateLeaf (pointer fieldPath : String) : Condition → Except PolicyIssue Unit
  | .all _ | .any _ | .not _ => .ok ()
  | .organization leaf => leaf.validate s!"{pointer}/organization" s!"{fieldPath}.organization"
  | .scope leaf => leaf.validate s!"{pointer}/scope" s!"{fieldPath}.scope"
  | .claim leaf => leaf.validate s!"{pointer}/claim" s!"{fieldPath}.claim"
  | .sourceNetwork leaf =>
    leaf.validate s!"{pointer}/source_network" s!"{fieldPath}.source_network"
  | .header leaf => leaf.validate target s!"{pointer}/header" s!"{fieldPath}.header"
  | .query leaf => leaf.validate target s!"{pointer}/query" s!"{fieldPath}.query"
  | .toolArgument leaf =>
    leaf.validate target s!"{pointer}/tool_argument" s!"{fieldPath}.tool_argument"
  | .timeWindow leaf => leaf.validate s!"{pointer}/time_window" s!"{fieldPath}.time_window"

/-- The bounds on the tree; `nodes` counts this node. -/
def validateSize (pointer fieldPath : String) (depth nodes : Nat) : Except PolicyIssue Unit :=
  refuse (decide (depth > maxConditionDepth ∨ nodes > maxConditionNodes))
    { code := .conditionTooComplex
      pointer
      detail := s!"{fieldPath} nests deeper than {maxConditionDepth} levels or holds more than " ++
        s!"{maxConditionNodes} nodes" }

/-- The number of operands of `all` or `any`. -/
def validateBranches (pointer fieldPath operator : String) (count : Nat) :
    Except PolicyIssue Unit := do
  refuse (decide (count = 0))
    (valueIssue s!"{pointer}/{operator}"
      s!"{fieldPath}.{operator} must list at least one condition")
  refuse (decide (count > maxConditionBranches))
    { code := .conditionTooComplex
      pointer := s!"{pointer}/{operator}"
      detail := s!"{fieldPath}.{operator} must list at most {maxConditionBranches} conditions" }

mutual

/-- Checks one node, of which `nodes` were visited before, in document order,
and counts the nodes visited after it. -/
def validateNode (pointer fieldPath : String) (depth nodes : Nat) :
    Condition → Except PolicyIssue Nat
  | .all operands => do
    validateSize pointer fieldPath depth (nodes + 1)
    validateBranches pointer fieldPath "all" operands.length
    validateOperands s!"{pointer}/all" s!"{fieldPath}.all" (depth + 1) 0 (nodes + 1) operands
  | .any operands => do
    validateSize pointer fieldPath depth (nodes + 1)
    validateBranches pointer fieldPath "any" operands.length
    validateOperands s!"{pointer}/any" s!"{fieldPath}.any" (depth + 1) 0 (nodes + 1) operands
  | .not operand => do
    validateSize pointer fieldPath depth (nodes + 1)
    validateNode s!"{pointer}/not" s!"{fieldPath}.not" (depth + 1) (nodes + 1) operand
  | leaf => do
    validateSize pointer fieldPath depth (nodes + 1)
    validateLeaf target pointer fieldPath leaf
    .ok (nodes + 1)

def validateOperands (pointer fieldPath : String) (depth index nodes : Nat) :
    List Condition → Except PolicyIssue Nat
  | [] => .ok nodes
  | operand :: rest => do
    let nodes ← validateNode s!"{pointer}/{index}" s!"{fieldPath}[{index}]" depth nodes operand
    validateOperands pointer fieldPath depth (index + 1) nodes rest

end

/-- Validates a rule's condition tree, stopping at the first problem. -/
def validateCondition (pointer fieldPath : String) (condition : Condition) :
    Except PolicyIssue Unit := do
  let _ ← validateNode target pointer fieldPath 1 0 condition
  .ok ()

end Nodes

mutual

/-- Every leaf stands in a kind of rule where its fact can exist. -/
def Condition.Fits (target : ConditionTarget) : Condition → Prop
  | .all operands | .any operands => Condition.AllFit target operands
  | .not operand => operand.Fits target
  | .header _ | .query _ => target = .httpPath
  | .toolArgument _ => target = .toolName
  | .organization _ | .scope _ | .claim _ | .sourceNetwork _ | .timeWindow _ => True

def Condition.AllFit (target : ConditionTarget) : List Condition → Prop
  | [] => True
  | operand :: rest => operand.Fits target ∧ Condition.AllFit target rest

end

variable {target : ConditionTarget} {pointer fieldPath : String} {condition : Condition}

theorem requireTarget_eq_ok {required : ConditionTarget} :
    requireTarget target required pointer fieldPath = .ok () ↔ target = required := by
  simp [requireTarget]

theorem validateLeaf_fits [Externals]
    (passed : validateLeaf target pointer fieldPath condition = .ok ()) :
    (∀ leaf, condition = .header leaf → target = .httpPath) ∧
      (∀ leaf, condition = .query leaf → target = .httpPath) ∧
      ∀ leaf, condition = .toolArgument leaf → target = .toolName := by
  refine ⟨?_, ?_, ?_⟩ <;> rintro leaf rfl
  · simp only [validateLeaf, HeaderCondition.validate, bind_eq_ok, unit_exists_ok,
      requireTarget_eq_ok] at passed
    exact passed.1
  · simp only [validateLeaf, QueryCondition.validate, bind_eq_ok, unit_exists_ok,
      requireTarget_eq_ok] at passed
    exact passed.1
  · simp only [validateLeaf, ToolArgumentCondition.validate, bind_eq_ok, unit_exists_ok,
      requireTarget_eq_ok] at passed
    exact passed.1

mutual

theorem validateNode_fits [Externals] {target : ConditionTarget} {pointer fieldPath : String}
    {depth nodes count : Nat} : ∀ condition : Condition,
      validateNode target pointer fieldPath depth nodes condition = .ok count →
        condition.Fits target
  | .all operands, passed => by
    simp only [validateNode, bind_eq_ok, unit_exists_ok] at passed
    exact validateOperands_fits operands passed.2.2
  | .any operands, passed => by
    simp only [validateNode, bind_eq_ok, unit_exists_ok] at passed
    exact validateOperands_fits operands passed.2.2
  | .not operand, passed => by
    simp only [validateNode, bind_eq_ok, unit_exists_ok] at passed
    exact validateNode_fits operand passed.2
  | .header leaf, passed => by
    simp only [validateNode, bind_eq_ok, unit_exists_ok] at passed
    exact (validateLeaf_fits passed.2.1).1 leaf rfl
  | .query leaf, passed => by
    simp only [validateNode, bind_eq_ok, unit_exists_ok] at passed
    exact (validateLeaf_fits passed.2.1).2.1 leaf rfl
  | .toolArgument leaf, passed => by
    simp only [validateNode, bind_eq_ok, unit_exists_ok] at passed
    exact (validateLeaf_fits passed.2.1).2.2 leaf rfl
  | .organization _, _ | .scope _, _ | .claim _, _ | .sourceNetwork _, _ | .timeWindow _, _ => by
    simp [Condition.Fits]

theorem validateOperands_fits [Externals] {target : ConditionTarget} {pointer fieldPath : String}
    {depth index nodes count : Nat} : ∀ operands : List Condition,
      validateOperands target pointer fieldPath depth index nodes operands = .ok count →
        Condition.AllFit target operands
  | [], _ => by simp [Condition.AllFit]
  | operand :: rest, passed => by
    simp only [validateOperands, bind_eq_ok] at passed
    obtain ⟨visited, own, others⟩ := passed
    exact ⟨validateNode_fits operand own, validateOperands_fits rest others⟩

end

/-- A validated tree keeps every leaf where its fact can exist. -/
theorem validateCondition_fits [Externals]
    (passed : validateCondition target pointer fieldPath condition = .ok ()) :
    condition.Fits target := by
  simp only [validateCondition, bind_eq_ok] at passed
  obtain ⟨count, visited, -⟩ := passed
  exact validateNode_fits condition visited

end GreenGateway.Rbac
