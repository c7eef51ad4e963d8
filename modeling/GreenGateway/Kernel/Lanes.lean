import GreenGateway.Kernel.Decide

/-! The kernel's other lanes: tool decisions, enum-source requests and the choice
of a rate override. -/

namespace GreenGateway.Kernel

open Foundation Rbac

def toolContextVersion : Nat := 1

inductive ToolOperation where
  | invocation
  | visibility
  | policyEligibility
  /-- Enablement only: the caller already holds a composite grant. -/
  | compositeLeaf
  /-- Direct HTTP rules only, under an unknown dispatch. -/
  | renderedHttp
  deriving DecidableEq, Repr

structure ToolEvaluationContext where
  version : Nat := toolContextVersion
  snapshot : ResourceSnapshot
  operation : ToolOperation
  toolName : Option String
  principal : PrincipalFact
  method : Option String := none
  path : Option String := none
  deriving DecidableEq, Repr

/-- Every `%` starts a two-digit escape. -/
def escapesValid : List Char → Bool
  | [] => true
  | '%' :: rest =>
    match rest with
    | high :: low :: rest => Text.isHexDigit high && Text.isHexDigit low && escapesValid rest
    | _ => false
  | _ :: rest => escapesValid rest

/-- Rendered paths may contain percent-encoded template arguments. -/
def validateRenderedHttpPath (path : String) : Except EvaluationError Unit := do
  refuse (decide (Text.len path > maxRequestPathBytes)) .contextTooLarge
  refuse (!escapesValid path.toList) .malformedPath
  refuse (!Text.startsWith path "/" ||
    path.toList.any (fun char => char == '?' || char == '#' || char == '\\') ||
    path.toList.any (fun char => decide (char.toNat ≤ 32 ∨ char.toNat = 127)) ||
    Text.contains path "//" ||
    (Text.split '/' path).any fun segment => segment == "." || segment == "..") .malformedPath

def ToolEvaluationContext.validate (context : ToolEvaluationContext)
    (expected : ResourceSnapshot) : Except EvaluationError Unit := do
  refuse (context.version != toolContextVersion) .unsupportedContextVersion
  refuse (decide (context.snapshot ≠ expected)) .snapshotMismatch
  refuse ((context.toolName.any fun name => decide (Text.len name > maxToolNameBytes)) ||
    context.method.any fun method => decide (Text.len method > maxRequestMethodBytes))
    .contextTooLarge
  refuse (decide (context.operation ≠ .renderedHttp) &&
    (context.method.isSome || context.path.isSome)) .inconsistentContext
  checkSome context.path fun path =>
    if context.operation = .renderedHttp then validateRenderedHttpPath path else validatePath path
  context.principal.validate
  refuse (decide (context.operation = .policyEligibility) &&
    decide (context.principal = .anonymous)) .inconsistentContext

inductive ToolReason where
  | unknownTool
  | disabled
  | roleNotAllowed
  | matchedRule
  | allowed
  | notInPolicy
  | policyDisabled
  | principalNotEligible
  | policyDenied
  | eligible
  | noHttpRule
  | incomplete
  deriving DecidableEq, Repr

inductive ToolLimitation where
  | toolName
  | principal
  | method
  | path
  | matcherFact
  deriving DecidableEq, Repr

structure ToolEvaluation where
  operation : ToolOperation
  logical : LogicalDecision := .allow
  effect : PolicyEffect := .allow
  reason : ToolReason := .allowed
  matched : Option RuleReference := none
  complete : Bool := true
  limitation : Option ToolLimitation := none
  deriving DecidableEq, Repr

namespace ToolEvaluation

def deny (result : ToolEvaluation) (reason : ToolReason) : ToolEvaluation :=
  { result with logical := .deny, effect := .block, reason }

def incomplete (result : ToolEvaluation) (limitation : ToolLimitation) : ToolEvaluation :=
  { result with
    logical := .indeterminate
    effect := .block
    reason := .incomplete
    complete := false
    limitation := some limitation }

end ToolEvaluation

def toolPrincipalMatches (tool : ToolPolicyEntry) (principal : Option Principal) : Bool :=
  if tool.allowedRoles.isEmpty && tool.issuers.isEmpty && tool.authMethods.isEmpty then true
  else principal.any fun principal =>
    principalIdentityMatches tool.issuers tool.authMethods principal &&
      (tool.allowedRoles.isEmpty || tool.allowedRoles.any principal.roles.contains)

/-- Whether an operation previews a tool rather than runs it. -/
def ToolOperation.preview (operation : ToolOperation) : Bool :=
  operation == .visibility || operation == .policyEligibility

/-- An enum-source refresh request: no caller and no inbound route. -/
structure SourceRequestContext where
  version : Nat := toolContextVersion
  snapshot : ResourceSnapshot
  /-- The tool the source is derived from, or none for one that names a path. -/
  toolName : Option String
  path : String
  deriving DecidableEq, Repr

def SourceRequestContext.validate (context : SourceRequestContext)
    (expected : ResourceSnapshot) : Except EvaluationError Unit := do
  refuse (context.version != toolContextVersion) .unsupportedContextVersion
  refuse (decide (context.snapshot ≠ expected)) .snapshotMismatch
  refuse (context.toolName.any fun name => decide (Text.len name > maxToolNameBytes))
    .contextTooLarge
  validateRenderedHttpPath context.path

inductive SourceRequestDecision where
  | allowed
  | toolDisabled
  | denied (index : Nat)
  | undetermined
  deriving DecidableEq, Repr

structure RateLimit where
  requestsPerSecond : Rat
  burst : Nat
  deriving DecidableEq, Repr

inductive RateLaneOutcome where
  | override (index : Nat) (limit : RateLimit)
  | noOverride
  | indeterminate (limitation : Limitation)
  deriving DecidableEq, Repr

namespace CompiledPolicy

variable [Externals] (compiled : CompiledPolicy)

/-- The principal a tool operation judges, or the first fact it lacks. -/
def toolPrincipal (context : ToolEvaluationContext) (facts : PolicyFacts) :
    Except ToolLimitation (Option Principal) :=
  match context.toolName, context.principal with
  | none, _ => .error .toolName
  | some _, .missing =>
    if context.operation ≠ .compositeLeaf then .error .principal else .ok none
  | some _, .authenticated identity =>
    match compiled.effectivePrincipal identity facts with
    | some principal => .ok (some principal)
    | none => .error .matcherFact
  | some _, .anonymous => .ok none

/-- A rendered request's method and path, or the one that is missing. -/
def renderedMissing (context : ToolEvaluationContext) : Option ToolLimitation :=
  if context.operation = .renderedHttp then
    if context.method.isNone then some .method
    else if context.path.isNone then some .path
    else none
  else none

/-- A rule scan applied to the answer the admission reached. -/
def toolRuleAnswer (result : ToolEvaluation) (scan : RuleScan) : ToolEvaluation :=
  match scan with
  | .undetermined _ => result.incomplete .matcherFact
  | .noMatch => result
  | .matched decision =>
    let result := { result with matched := some (.direct decision.ruleIndex) }
    if result.operation.preview then
      if decision.action = .deny then result.deny .policyDenied else result
    else
      let result := { result with reason := .matchedRule }
      match decision.action with
      | .allow => result
      | .deny => result.deny .matchedRule
      | .shadow => { result with logical := .deny, effect := .observe }

/-- A tool operation other than a rendered request: the entry, its identity
constraint, then the tool-name rules. -/
def toolAnswer (operation : ToolOperation) (name : String) (principal : Option Principal)
    (facts : PolicyFacts) : ToolEvaluation :=
  let result : ToolEvaluation := { operation }
  match compiled.policy.tools[name]? with
  | none => result.deny (if operation.preview then .notInPolicy else .unknownTool)
  | some tool =>
    if !tool.enabled then
      result.deny (if operation.preview then .policyDisabled else .disabled)
    else if operation = .compositeLeaf then result
    else if !toolPrincipalMatches tool principal then
      result.deny (if operation.preview then .principalNotEligible else .roleNotAllowed)
    else
      let result := if operation.preview then { result with reason := .eligible } else result
      toolRuleAnswer result (compiled.matcher.scanTool name principal facts)

def evaluateToolWithFacts (context : ToolEvaluationContext) (facts : PolicyFacts) :
    Except EvaluationError ToolEvaluation := do
  context.validate compiled.snapshot
  validateFacts facts
  let result : ToolEvaluation := { operation := context.operation }
  match compiled.toolPrincipal context facts with
  | .error limitation => .ok (result.incomplete limitation)
  | .ok principal =>
    match renderedMissing context with
    | some limitation => .ok (result.incomplete limitation)
    | none =>
      match context.toolName with
      | none => .error .internalInvariant
      | some name =>
        if context.operation = .renderedHttp then
          match context.method, context.path with
          | some method, some path =>
            .ok (toolRuleAnswer { result with reason := .noHttpRule }
              (compiled.matcher.scanWithDispatch method principal .unknown facts path))
          | _, _ => .error .internalInvariant
        else .ok (compiled.toolAnswer context.operation name principal facts)

/-- Decide an enum-source refresh request: the named tool's enable bit, then the
direct deny rules alone, as an anonymous contextless `GET`. -/
def evaluateSourceRequest (context : SourceRequestContext) :
    Except EvaluationError SourceRequestDecision := do
  context.validate compiled.snapshot
  let usable := context.toolName.all fun name =>
    (compiled.policy.tools[name]?).any fun tool => tool.enabled
  if !usable then .ok .toolDisabled
  else .ok <|
    match compiled.matchDirect "GET" context.path none none .contextless true uncapturedFacts with
    | .matched decision => .denied decision.ruleIndex
    | .noMatch => .allowed
    | .undetermined _ => .undetermined

/-- Whether an override governs a request of a principal. -/
def rateRuleMatches (principal : Principal) (method path : String) (rule : RateLimitRule) : Bool :=
  rule.principal.matches (some principal) && methodMatches rule.methods method &&
    rule.path.all fun pattern => pathPatternMatches pattern path

/-- The fact rate selection reads that was never supplied. -/
def missingRateFact (context : PolicyEvaluationContext) : Option Limitation :=
  if context.method.isNone then some .missingMethod
  else if context.path.isNone then some .missingPath
  else if context.principal = .missing then some .missingPrincipalFact
  else none

/-- Which configured override governs a request, first match in source order. An
anonymous caller reaches none. -/
def selectRateLaneWithFacts (context : PolicyEvaluationContext) (facts : PolicyFacts) :
    Except EvaluationError RateLaneOutcome := do
  context.validate compiled.snapshot
  validateFacts facts
  match missingRateFact context with
  | some limitation => .ok (.indeterminate limitation)
  | none =>
    match context.method, context.path with
    | some method, some path =>
      match compiled.judgedPrincipal context.principal facts with
      | .ok none => .ok .noOverride
      | .error .missingMatcherFact => .ok (.indeterminate .missingMatcherFact)
      | .error _ => .error .internalInvariant
      | .ok (some principal) =>
        match findIndexed (rateRuleMatches principal method path) compiled.policy.rateLimits with
        | some (index, rule) =>
          .ok (.override index { requestsPerSecond := rule.requestsPerSecond, burst := rule.burst })
        | none => .ok .noOverride
    | _, _ => .error .internalInvariant

end CompiledPolicy

end GreenGateway.Kernel
