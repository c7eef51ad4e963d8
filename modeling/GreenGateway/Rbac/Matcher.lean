import GreenGateway.Foundation.FirstMatch
import GreenGateway.Foundation.Glob
import GreenGateway.Rbac.Conditions

/-! The direct-rule matcher: method lists, anchored segment patterns, dispatch
and principal constraints, and the scans over the compiled rules under the two
precedence orders. -/

namespace GreenGateway.Rbac

open Foundation

def authMethodPolicyValue : AuthMethod → String
  | .bearer => "bearer_token"
  | .cookie => "session_cookie"
  | .serviceToken => "service_token"
  | .clientCertificate => "client_certificate"

def constraintMatches (values : List String) (matchesValue : String → Bool) : Bool :=
  values.isEmpty || values.any matchesValue

def principalIdentityMatches (issuers authMethods : List String) (principal : Principal) : Bool :=
  constraintMatches issuers (fun issuer => principal.issuer == some issuer) &&
    constraintMatches authMethods fun authMethod =>
      authMethod == authMethodPolicyValue principal.authMethod

namespace PrincipalMatcher

def isUnconstrained (matcher : PrincipalMatcher) : Bool :=
  matcher.roles.isEmpty && matcher.issuers.isEmpty && matcher.authMethods.isEmpty &&
    matcher.principalIds.isEmpty

/-- Whether the optional principal satisfies every configured constraint. -/
def «matches» (matcher : PrincipalMatcher) (principal : Option Principal) : Bool :=
  if matcher.isUnconstrained then true
  else match principal with
    | none => false
    | some principal =>
      constraintMatches matcher.roles (fun role => principal.roles.contains role) &&
        principalIdentityMatches matcher.issuers matcher.authMethods principal &&
        constraintMatches matcher.principalIds fun principalId => principal.userId == principalId

end PrincipalMatcher

inductive MethodMatcher where
  | any
  | exact (methods : List String)

namespace MethodMatcher

def new (methods : List String) : MethodMatcher :=
  if methods.isEmpty || methods.any (fun method => Text.trim method == "*") then .any
  else .exact (methods.map Text.trim)

def «matches» (matcher : MethodMatcher) (method : String) : Bool :=
  match matcher with
  | .any => true
  | .exact methods => methods.any fun configured => Text.eqIgnoreAsciiCase configured method

end MethodMatcher

def methodMatches (methods : List String) (method : String) : Bool :=
  (MethodMatcher.new methods).matches method

def isValidCaptureName (name : String) : Bool :=
  match name.toList with
  | [] => false
  | first :: rest =>
    (first.isAlpha || first == '_') && rest.all fun char => char.isAlphanum || char == '_'

def isCaptureSegment (segment : String) : Bool :=
  match (Text.stripFront? segment "\x7b").bind (Text.stripBack? · "\x7d") with
  | some name => isValidCaptureName name
  | none => false

def hasCaptureDelimiter (segment : String) : Bool :=
  segment.toList.any fun char => char == '\x7b' || char == '\x7d'

inductive PathSegment where
  | literal (text : String)
  | singleWildcard
  | deepWildcard
  | capture
  | never
  deriving DecidableEq, Repr

namespace PathSegment

def new (segment : String) : PathSegment :=
  if segment = "*" then .singleWildcard
  else if segment = "**" then .deepWildcard
  else if isCaptureSegment segment then .capture
  else if hasCaptureDelimiter segment then .never
  else .literal segment

def «matches» (segment : PathSegment) (pathSegment : String) : Bool :=
  match segment with
  | .literal text => text == pathSegment
  | .singleWildcard | .capture => !pathSegment.isEmpty
  | .deepWildcard | .never => false

def isDeep (segment : PathSegment) : Bool := segment == .deepWildcard

end PathSegment

def absolutePathSegments (value : String) : Option (List String) :=
  (Text.stripFront? value "/").map fun tail =>
    if tail.isEmpty then [] else Text.split '/' tail

/-- The table over the positions of the path, one pattern segment at a time. -/
def pathSegmentsMatch (pattern : List PathSegment) (path : List String) : Bool :=
  Glob.tableMatch PathSegment.isDeep PathSegment.matches pattern path

structure PathPattern where
  segments : Option (List PathSegment)

namespace PathPattern

def new (pattern : String) : PathPattern :=
  { segments := (absolutePathSegments pattern).map fun segments => segments.map PathSegment.new }

def «matches» (pattern : PathPattern) (path : String) : Bool :=
  match pattern.segments, absolutePathSegments path with
  | some patternSegments, some pathSegments => pathSegmentsMatch patternSegments pathSegments
  | _, _ => false

end PathPattern

def pathPatternMatches (pattern path : String) : Bool := (PathPattern.new pattern).matches path

/-- Trusted request dispatch identity established before evaluation. -/
structure RuleDispatchContext where
  routingContextKnown : Bool
  routeId : Option String := none
  routeHost : Option String := none
  routePathPrefix : Option String := none
  upstreamOrigin : Option String := none
  deriving DecidableEq, Repr

namespace RuleDispatchContext

def unknown : RuleDispatchContext := { routingContextKnown := false }

def contextless : RuleDispatchContext := { routingContextKnown := true }

def classifiedWithRouteId (routeId routeHost routePathPrefix upstreamOrigin : Option String) :
    RuleDispatchContext :=
  { routingContextKnown := true, routeId, routeHost, routePathPrefix, upstreamOrigin }

end RuleDispatchContext

structure CompiledDispatchMatcher where
  kind : RuleDispatchKind
  upstreamOrigin : Option String
  routeId : Option String
  valid : Bool

namespace CompiledDispatchMatcher

def new [Externals] (matcher : RuleDispatchMatcher) : CompiledDispatchMatcher :=
  let upstreamOrigin :=
    (matcher.upstreamOrigin.bind Externals.parseUrl).map fun (_, origin) => origin
  { kind := matcher.kind
    upstreamOrigin
    routeId := matcher.routeId
    valid :=
      match matcher.kind with
      | .contextless => matcher.upstreamOrigin.isNone && matcher.routeId.isNone
      | .legacy => upstreamOrigin.isSome && matcher.routeId.isNone
      | .route => matcher.upstreamOrigin.isNone && matcher.routeId.isSome }

def «matches» (matcher : CompiledDispatchMatcher) (context : RuleDispatchContext) : Bool :=
  if !matcher.valid || !context.routingContextKnown then false
  else match matcher.kind with
    | .contextless =>
      context.routeId.isNone && context.routeHost.isNone && context.routePathPrefix.isNone &&
        context.upstreamOrigin.isNone
    | .legacy =>
      context.routeHost.isNone && context.routePathPrefix.isNone &&
        matcher.upstreamOrigin == context.upstreamOrigin
    | .route => matcher.routeId == context.routeId

end CompiledDispatchMatcher

inductive RuleTarget where
  | http (methods : MethodMatcher) (path : PathPattern)
  | tool (toolName : String)

structure CompiledRule where
  ruleIndex : Nat
  enabled : Bool
  target : RuleTarget
  principal : PrincipalMatcher
  dispatch : Option CompiledDispatchMatcher
  conditions : Option CompiledCondition
  action : RuleAction

namespace CompiledRule

variable [Externals]

def new (ruleIndex : Nat) (rule : Rule) : CompiledRule :=
  { ruleIndex
    enabled := rule.enabled
    target :=
      match rule.toolName with
      | some toolName => .tool toolName
      | none => .http (MethodMatcher.new rule.methods) (PathPattern.new rule.path)
    principal := rule.principal
    dispatch := rule.dispatch.map CompiledDispatchMatcher.new
    conditions := rule.conditions.map CompiledCondition.new
    action := rule.action }

/-- Conditions are read only once every other predicate holds. -/
def withConditions (rule : CompiledRule) (predicatesHold : Bool) (principal : Option Principal)
    (facts : PolicyFacts) : Truth :=
  if !predicatesHold then .false
  else match rule.conditions with
    | none => .true
    | some conditions => conditions.evaluate principal facts

def httpTruth (rule : CompiledRule) (method path : String) (principal : Option Principal)
    (dispatchContext : RuleDispatchContext) (facts : PolicyFacts) : Truth :=
  match rule.target with
  | .tool _ => .false
  | .http methods rulePath =>
    rule.withConditions
      (rule.enabled && methods.matches method && rulePath.matches path &&
        rule.dispatch.all (fun dispatch => dispatch.matches dispatchContext) &&
        rule.principal.matches principal)
      principal facts

def toolTruth (rule : CompiledRule) (toolName : String) (principal : Option Principal)
    (facts : PolicyFacts) : Truth :=
  match rule.target with
  | .http _ _ => .false
  | .tool ruleToolName =>
    rule.withConditions
      (rule.enabled && ruleToolName == toolName && rule.principal.matches principal)
      principal facts

end CompiledRule

structure RuleDecision where
  ruleIndex : Nat
  action : RuleAction
  deriving DecidableEq, Repr

/-- What a scan of the direct rules found under the precedence order asked for. -/
inductive RuleScan where
  | matched (decision : RuleDecision)
  | noMatch
  | undetermined (ruleIndex : Nat)
  deriving DecidableEq, Repr

/-- The first certain match, unless an undetermined rule comes first. -/
def firstMatch : List (CompiledRule × Truth) → RuleScan
  | [] => .noMatch
  | (rule, truth) :: rest =>
    match truth with
    | .true => .matched { ruleIndex := rule.ruleIndex, action := rule.action }
    | .unknown => .undetermined rule.ruleIndex
    | .false => firstMatch rest

/-- First-match-wins evaluator for direct firewall rules. -/
structure RuleMatcher where
  rules : List CompiledRule

namespace RuleMatcher

variable [Externals]

def new (rules : List Rule) : RuleMatcher :=
  { rules := rules.mapIdx CompiledRule.new }

section Scans

variable (matcher : RuleMatcher) (method : String) (principal : Option Principal)
  (dispatchContext : RuleDispatchContext) (facts : PolicyFacts)

/-- The first rule in source order that matches an HTTP request. -/
def scanWithDispatch (path : String) : RuleScan :=
  firstMatch (matcher.rules.map fun rule =>
    (rule, rule.httpTruth method path principal dispatchContext facts))

/-- Whether a rule matches one of the path identities. -/
def pathsTruth (paths : List String) (rule : CompiledRule) : Truth :=
  paths.foldl (fun truth path =>
    truth.orElse (rule.httpTruth method path principal dispatchContext facts)) .false

/-- Action-major precedence: the first rule of the first action, in `actions`
order, that matches any of `paths`. -/
def scanMatchingPathsByAction (paths : List String) : List RuleAction → RuleScan
  | [] => .noMatch
  | action :: actions =>
    match firstMatch (matcher.rules.map fun rule =>
        (rule, if rule.action = action then
          pathsTruth method principal dispatchContext facts paths rule else .false)) with
    | .noMatch => scanMatchingPathsByAction paths actions
    | scan => scan

/-- The first dispatch-compatible deny, ignoring every other rule. -/
def scanDeniesWithDispatch (path : String) : RuleScan :=
  matcher.scanMatchingPathsByAction method principal dispatchContext facts [path] [.deny]

/-- One request against equivalent path identities, preferring the most
restrictive matching action across the full rulebase. -/
def scanEquivalentPathsWithDispatch (paths : List String) (deniesOnly : Bool) : RuleScan :=
  matcher.scanMatchingPathsByAction method principal dispatchContext facts paths
    (if deniesOnly then [.deny] else [.deny, .shadow, .allow])

end Scans

/-- The first tool-name rule in source order that matches a tool call. -/
def scanTool (matcher : RuleMatcher) (toolName : String) (principal : Option Principal)
    (facts : PolicyFacts) : RuleScan :=
  firstMatch (matcher.rules.map fun rule => (rule, rule.toolTruth toolName principal facts))

end RuleMatcher

end GreenGateway.Rbac
