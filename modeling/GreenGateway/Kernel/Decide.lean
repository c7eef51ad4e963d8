import GreenGateway.Kernel.Context

/-! The policy kernel: a compiled policy, and the HTTP decision it gives a
context and the facts captured beside it. -/

namespace GreenGateway.Kernel

open Foundation Rbac

inductive LogicalDecision where
  | allow
  | deny
  | indeterminate
  deriving DecidableEq, Repr

/-- Effect within this logical lane only. -/
inductive PolicyEffect where
  | allow
  | block
  | observe
  deriving DecidableEq, Repr

inductive RuleReference where
  | direct (index : Nat)
  | route (index : Nat)
  deriving DecidableEq, Repr

inductive Reason where
  | matchedRule
  | missingPermission
  | missingPrincipal
  | defaultAllow
  | defaultDeny
  /-- A virtual upstream was selected and no host-bound route authorized it. -/
  | hostPolicyRequired
  | incomplete
  deriving DecidableEq, Repr

/-- Why an evaluation could not complete. -/
inductive Limitation where
  | missingMethod
  | missingPath
  | missingPrincipalFact
  | missingDispatchFact
  | missingHostFact
  | missingMatcherFact
  deriving DecidableEq, Repr

structure Evaluation where
  logical : LogicalDecision
  effect : PolicyEffect
  reason : Reason
  matched : Option RuleReference
  /-- A first-matching shadow rule that recorded a would-deny without deciding. -/
  observation : Option RuleReference
  complete : Bool
  limitation : Option Limitation
  deriving DecidableEq, Repr

namespace Evaluation

def completed (logical : LogicalDecision) (effect : PolicyEffect) (reason : Reason)
    (matched observation : Option RuleReference) : Evaluation :=
  { logical, effect, reason, matched, observation, complete := true, limitation := none }

def indeterminate (limitation : Limitation) : Evaluation :=
  { logical := .indeterminate
    effect := .block
    reason := .incomplete
    matched := none
    observation := none
    complete := false
    limitation := some limitation }

end Evaluation

/-- A policy compiled once per snapshot. The derived parts are the ones the
policy determines. -/
structure CompiledPolicy [Externals] where
  policy : Policy
  snapshot : ResourceSnapshot
  matcher : RuleMatcher
  /-- Whether any route is host-qualified. -/
  hostQualifiedRoutes : Bool
  /-- The identity mappings of a policy in mapped-role mode. -/
  identity : Option (List IdentityMapping)
  factNeeds : FactNeeds
  matcher_eq : matcher = RuleMatcher.new policy.rules
  hostQualifiedRoutes_eq :
    hostQualifiedRoutes = policy.routes.any fun route => !route.hosts.isEmpty
  identity_eq : identity = policy.identityMappings
  factNeeds_eq : factNeeds = FactNeeds.of policy.rules policy.identityMappings

def pathPrefixMatches (path pathPrefix : String) : Bool :=
  if !Text.startsWith pathPrefix "/" then false
  else if path = pathPrefix then true
  else if Text.endsWith pathPrefix "/" then Text.startsWith path pathPrefix
  else (Text.stripFront? path pathPrefix).any fun remaining => Text.startsWith remaining "/"

/-- What a prefix selects: the prefix itself, or something below it. -/
theorem pathPrefixMatches_iff {path pathPrefix : String} :
    pathPrefixMatches path pathPrefix = true ↔
      Text.startsWith pathPrefix "/" = true ∧
        (path = pathPrefix ∨
          (Text.endsWith pathPrefix "/" = true ∧ ∃ rest, path = pathPrefix ++ rest) ∨
          (Text.endsWith pathPrefix "/" = false ∧ ∃ rest, path = pathPrefix ++ ("/" ++ rest))) := by
  unfold pathPrefixMatches
  cases absolute : Text.startsWith pathPrefix "/" with
  | false => simp
  | true =>
    by_cases same : path = pathPrefix
    · simp [same]
    · cases ending : Text.endsWith pathPrefix "/" with
      | true => simp [same, Text.startsWith_iff]
      | false =>
        simp only [Bool.not_true, Bool.false_eq_true, if_false, same, false_or, true_and,
          false_and, Option.any_eq_true, Text.stripFront?_eq_some, Text.startsWith_iff]
        constructor
        · rintro ⟨remaining, rfl, rest, rfl⟩
          exact ⟨rest, rfl⟩
        · rintro ⟨rest, rfl⟩
          exact ⟨"/" ++ rest, rfl, rest, rfl⟩

/-- Whether a route's host binding admits this request. -/
def routeHostMatches (hosts : List String) (requestHost : Option String)
    (bindingRequired : Bool) : Bool :=
  if hosts.isEmpty then !bindingRequired
  else requestHost.any fun requestHost =>
    hosts.any fun host => Text.eqIgnoreAsciiCase host requestHost

def effect (allowed : Bool) (mode : EnforcementMode) : PolicyEffect :=
  if allowed then .allow else if mode = .shadow then .observe else .block

/-- What a request's facts resolve to once none is missing. -/
structure Lane where
  method : String
  path : String
  /-- The canonical identity of a request that reached an MCP endpoint by
  another path. -/
  canonicalPath : Option String
  /-- The judged principal, or none for an anonymous caller. -/
  principal : Option Principal
  /-- The host routes are matched against. -/
  host : Option String
  hostBindingRequired : Bool
  dispatchContext : RuleDispatchContext

/-- The first fact of a context, in reporting order, that was never supplied. -/
def missingFact (context : PolicyEvaluationContext) : Option Limitation :=
  if context.method.isNone then some .missingMethod
  else if context.path.isNone then some .missingPath
  else if context.principal = .missing then some .missingPrincipalFact
  else match context.target with
    | .missing => some .missingDispatchFact
    | .contextless | .mcpAlias _ => none
    | .proxyDispatch => if context.dispatch.isNone then some .missingDispatchFact else none

namespace CompiledPolicy

variable [Externals]

def assemble (policy : Policy) (snapshot : ResourceSnapshot) : CompiledPolicy :=
  { policy
    snapshot
    matcher := RuleMatcher.new policy.rules
    hostQualifiedRoutes := policy.routes.any fun route => !route.hosts.isEmpty
    identity := policy.identityMappings
    factNeeds := FactNeeds.of policy.rules policy.identityMappings
    matcher_eq := rfl
    hostQualifiedRoutes_eq := rfl
    identity_eq := rfl
    factNeeds_eq := rfl }

variable (compiled : CompiledPolicy)

/-- The principal every lane judges: in mapped-role mode, with exactly the
internal roles its identity mappings grant. -/
def effectivePrincipal (principal : Principal) (facts : PolicyFacts) : Option Principal :=
  match compiled.identity with
  | none => some principal
  | some mappings =>
    (effectiveRoles mappings principal facts).map fun roles => { principal with roles }

def judgedPrincipal (fact : PrincipalFact) (facts : PolicyFacts) :
    Except Limitation (Option Principal) :=
  match fact with
  | .missing => .error .missingPrincipalFact
  | .anonymous => .ok none
  | .authenticated identity =>
    match compiled.effectivePrincipal identity facts with
    | some principal => .ok (some principal)
    | none => .error .missingMatcherFact

/-- The host routes are matched against: the selected upstream's when one was
chosen, otherwise the request's own. -/
def effectiveHost (routeHost : Option String) (requestHost : HostFact) :
    Except Limitation (Option String) :=
  match routeHost, requestHost with
  | some host, _ => .ok (some host)
  | none, .present host => .ok (some host)
  | none, .absent => .ok none
  | none, .missing => if compiled.hostQualifiedRoutes then .error .missingHostFact else .ok none

/-- The dispatch identity direct rules are matched under. -/
def dispatchContextOf (target : HttpTarget) (dispatch : Option DispatchFacts) :
    Except EvaluationError RuleDispatchContext :=
  match target, dispatch with
  | .contextless, _ | .mcpAlias _, _ => .ok .contextless
  | .proxyDispatch, some facts =>
    .ok (.classifiedWithRouteId facts.routeId facts.routeHost facts.routePathPrefix
      (some facts.upstreamOrigin))
  | _, _ => .error .internalInvariant

/-- Resolves a context's facts in the order the kernel reports what is missing. -/
def resolve (context : PolicyEvaluationContext) (facts : PolicyFacts) :
    Except EvaluationError (Except Limitation Lane) :=
  match missingFact context with
  | some limitation => .ok (.error limitation)
  | none =>
    match compiled.judgedPrincipal context.principal facts with
    | .error limitation => .ok (.error limitation)
    | .ok principal =>
      match context.method, context.path with
      | some method, some path =>
        let routeHost := context.dispatch.bind DispatchFacts.routeHost
        match compiled.effectiveHost routeHost context.requestHost with
        | .error limitation => .ok (.error limitation)
        | .ok host =>
          match dispatchContextOf context.target context.dispatch with
          | .error problem => .error problem
          | .ok dispatchContext =>
            .ok (.ok
              { method
                path
                canonicalPath := context.target.canonicalPath?
                principal
                host
                hostBindingRequired := routeHost.isSome
                dispatchContext })
      | _, _ => .error .internalInvariant

/-- First deciding direct rule, over one path identity or an alias pair. -/
def matchDirect (method path : String) (canonicalPath : Option String)
    (principal : Option Principal) (dispatchContext : RuleDispatchContext) (deniesOnly : Bool)
    (facts : PolicyFacts) : RuleScan :=
  match canonicalPath with
  | some canonical =>
    compiled.matcher.scanEquivalentPathsWithDispatch method principal dispatchContext facts
      [canonical, path] deniesOnly
  | none =>
    if deniesOnly then
      compiled.matcher.scanDeniesWithDispatch method principal dispatchContext facts path
    else compiled.matcher.scanWithDispatch method principal dispatchContext facts path

/-- First matching route. An alias matches a route's prefix exactly on the
request path, and only then by prefix on the canonical identity. -/
def matchRoute (method path : String) (canonicalPath host : Option String)
    (hostBindingRequired : Bool) : Option (Nat × RouteRule) :=
  let admissible (route : RouteRule) :=
    methodMatches route.methods method && routeHostMatches route.hosts host hostBindingRequired
  match canonicalPath with
  | some canonical =>
    (findIndexed (fun route => route.pathPrefix == path && admissible route)
      compiled.policy.routes).or
      (findIndexed (fun route => pathPrefixMatches canonical route.pathPrefix && admissible route)
        compiled.policy.routes)
  | none =>
    findIndexed (fun route => pathPrefixMatches path route.pathPrefix && admissible route)
      compiled.policy.routes

/-- The answer of a direct rule that decides. -/
def directAnswer (decision : RuleDecision) (observation : Option RuleReference) : Evaluation :=
  let (logical, effect) : LogicalDecision × PolicyEffect :=
    match decision.action with
    | .allow => (.allow, .allow)
    | .deny => (.deny, .block)
    | .shadow => (.deny, .observe)
  .completed logical effect .matchedRule (some (.direct decision.ruleIndex)) observation

/-- The answer of a route that decides. -/
def routeAnswer (index : Nat) (route : RouteRule) (principal : Option Principal)
    (observation : Option RuleReference) : Evaluation :=
  let allowed := principal.any fun principal =>
    compiled.policy.principalHasPermission principal route.permission
  let reason : Reason :=
    if allowed then .matchedRule
    else if principal.isSome then .missingPermission
    else .missingPrincipal
  let mode := route.enforcementMode.getD compiled.policy.enforcementMode
  .completed (if allowed then .allow else .deny) (effect allowed mode) reason
    (some (.route index)) observation

/-- The answer when neither a direct rule nor a route decides. A selected
upstream is refused outright: neither the default nor shadow enforcement applies. -/
def defaultAnswer (hostBindingRequired : Bool) (observation : Option RuleReference) : Evaluation :=
  if hostBindingRequired then
    .completed .deny .block .hostPolicyRequired none observation
  else
    let allowed := decide (compiled.policy.defaultAction = .allow)
    .completed (if allowed then .allow else .deny)
      (effect allowed compiled.policy.enforcementMode)
      (if allowed then .defaultAllow else .defaultDeny) none observation

/-- What the routes and the default answer once no direct rule decides. -/
def routedAnswer (lane : Lane) (observation : Option RuleReference) : Evaluation :=
  match compiled.matchRoute lane.method lane.path lane.canonicalPath lane.host
      lane.hostBindingRequired with
  | some (index, route) => compiled.routeAnswer index route lane.principal observation
  | none => compiled.defaultAnswer lane.hostBindingRequired observation

/-- The shadow rule a request bound to a virtual upstream records. -/
def observationOf (hostBindingRequired : Bool) (firstDirect : Option RuleDecision) :
    Option RuleReference :=
  firstDirect.bind fun decision =>
    if hostBindingRequired && decision.action = .shadow then some (.direct decision.ruleIndex)
    else none

/-- The deciding direct rule, or the routed answer. -/
def answerFrom (lane : Lane) (deciding : Option RuleDecision)
    (observation : Option RuleReference) : Evaluation :=
  match deciding with
  | some decision => directAnswer decision observation
  | none => compiled.routedAnswer lane observation

/-- The scan of a lane's direct rules. -/
def laneScan (lane : Lane) (deniesOnly : Bool) (facts : PolicyFacts) : RuleScan :=
  compiled.matchDirect lane.method lane.path lane.canonicalPath lane.principal
    lane.dispatchContext deniesOnly facts

/-- Direct rules first, except that a selected upstream narrows them to denies;
then routes; then the default. -/
def judge (lane : Lane) (facts : PolicyFacts) : Evaluation :=
  match compiled.laneScan lane false facts with
  | .undetermined _ => .indeterminate .missingMatcherFact
  | .noMatch => afterFirst none
  | .matched decision => afterFirst (some decision)
where
  /-- The decision once the first direct match is known. -/
  afterFirst (firstDirect : Option RuleDecision) : Evaluation :=
    let observation := observationOf lane.hostBindingRequired firstDirect
    if lane.hostBindingRequired then
      match compiled.laneScan lane true facts with
      | .undetermined _ => .indeterminate .missingMatcherFact
      | .noMatch => compiled.answerFrom lane none observation
      | .matched decision => compiled.answerFrom lane (some decision) observation
    else compiled.answerFrom lane firstDirect observation

/-- The HTTP decision. -/
def decide (context : PolicyEvaluationContext) (facts : PolicyFacts) :
    Except EvaluationError Evaluation := do
  context.validate compiled.snapshot
  validateFacts facts
  match ← compiled.resolve context facts with
  | .error limitation => .ok (.indeterminate limitation)
  | .ok lane => .ok (compiled.judge lane facts)

end CompiledPolicy

end GreenGateway.Kernel
