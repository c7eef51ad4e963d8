import GreenGateway.Analysis.Findings

/-! The analyzer's checks. A reachability claim is an inclusion proof between two
elements plus the precedence of each lane, and is reported as proven only when
the evaluator confirms a witness for it. -/

namespace GreenGateway.Analysis

open Foundation Rbac Simulation Stoppable

/-- An enabled rule that matches HTTP requests rather than tool names. -/
def isHttpRule (rule : Rule) : Bool := rule.enabled && rule.toolName.isNone

/-- A rule without typed conditions. -/
def unconditional (rule : Rule) : Bool := rule.conditions.isNone

def restrictiveness : RuleAction → Nat
  | .allow => 0
  | .shadow => 1
  | .deny => 2

def actionStr : RuleAction → String
  | .allow => "allow"
  | .shadow => "shadow"
  | .deny => "deny"

/-- Whether `covering` matches every HTTP request `covered` matches. -/
def httpRuleCovers (covering : Rule) (coveringPath : Segments) (covered : Rule)
    (coveredPath : Segments) : Bool :=
  unconditional covering && methodsCover covering.methods covered.methods &&
    principalCovers covering.principal covered.principal &&
    dispatchCovers covering.dispatch covered.dispatch && patternCovers coveringPath coveredPath

def routeCovers (covering covered : RouteRule) : Bool :=
  methodsCover covering.methods covered.methods && hostsCover covering.hosts covered.hosts &&
    prefixCovers covering.pathPrefix covered.pathPrefix

def rateCovers (covering : RateLimitRule) (coveringPath : Segments) (covered : RateLimitRule)
    (coveredPath : Segments) : Bool :=
  principalCovers covering.principal covered.principal &&
    methodsCover covering.methods covered.methods &&
    match covering.path, covered.path with
    | none, _ => true
    | some _, none => matchesEveryPath coveringPath
    | some _, some _ => patternCovers coveringPath coveredPath

/-- Two constrained value lists with nothing in common. -/
def disjoint (left right : List String) : Bool :=
  !left.isEmpty && !right.isEmpty && !left.any right.contains

/-- Every lane a direct HTTP rule decides in. -/
def httpRuleLanes : List Lane :=
  [.http, .mcpAlias, .selectedUpstream, .renderedToolHttp, .sourceRequest]

/-- The lanes that decide direct HTTP rules by first match in source order. -/
def firstMatchHttpLanes : List Lane := [.http, .renderedToolHttp]

/-- Every lane a route decides in. -/
def routeLanes : List Lane := [.http, .mcpAlias, .selectedUpstream]

/-- A patch of one edit, when there is one. -/
def patchOf (accessEffect : AccessEffect) (edit : Option PolicyEdit) : Option CandidatePatch :=
  edit.map fun edit => { accessEffect, edits := [edit] }

section Confirmation

/-- What the evaluator says about the witness the analyzer builds for a claim: a
request the element alone matches is, or is not, decided as claimed. -/
structure Witnesses where
  confirmRule : Nat → Rule → Except AnalysisError Bool
  confirmToolRule : Nat → Rule → String → Except AnalysisError Bool
  confirmToolRefusal : Rule → String → Except AnalysisError Bool
  confirmRouteDecidedEarlier : Nat → RouteRule → Except AnalysisError Bool
  confirmRouteDecidedByRule : RouteRule → Except AnalysisError Bool
  confirmRate : Nat → RateLimitRule → Except AnalysisError Bool
  confirmBroad : Rule → Except AnalysisError Bool
  confirmAllMethods : Rule → Except AnalysisError Bool

/-- A check whose findings claim no reachability and carry no patch. -/
structure Lint where
  run : Run → Except AnalysisError Run
  appends : ∀ before after, run before = .ok after →
    ∃ added, after.findings = before.findings ++ added ∧
      ∀ finding ∈ added, finding.neverDecidesIn = [] ∧ finding.patch = none

/-- The checks that only lint. -/
structure Lints where
  issuerlessRoleGrants : Lint
  rateLaneLints : Lint
  egressLints : Lint
  crossResources : Lint
  partialOverlaps : Lint
  mcpAliasLane : Lint
  selectedUpstreams : Lint

/-- What the analysis reads besides the policy. -/
structure AnalysisResources where
  /-- The request paths that reach an MCP endpoint by an alias. -/
  mcpAliasPaths : List String
  /-- Whether the deadline has passed when the clock is read at a comparison. -/
  expired : Nat → Bool
  witnesses : Witnesses
  lints : Lints

end Confirmation

section Defaults

/-- A route for `/` with every method and no host binding. -/
def routesEverything (route : RouteRule) : Bool :=
  route.pathPrefix == "/" && matchesEveryMethod route.methods && route.hosts.isEmpty

/-- An enabled direct rule matching every caller, method and path. -/
def decidesEverything (rule : Rule) : Bool :=
  isHttpRule rule && unconditional rule && rule.principal.isUnconstrained &&
    rule.dispatch.isNone && matchesEveryMethod rule.methods && matchesEveryPath (segments rule.path)

/-- The first element that decides every ordinary request, so the default never
does. -/
def defaultMaskedBy (policy : Policy) : Option ElementRef :=
  match findIndexed routesEverything policy.routes with
  | some (index, route) => some (routeRef index route)
  | none =>
    (findIndexed decidesEverything policy.rules).map fun (index, rule) => ruleRef index rule

def defaultAllowFinding (policy : Policy) : Finding :=
  let maskedBy := defaultMaskedBy policy
  let finding : Finding :=
    { code := .defaultAllow
      severity := if maskedBy.isSome then .low else .high
      proofBasis := .proven
      element := scalarRef .defaultAction
      related := maskedBy
      patch := some
        { accessEffect := if maskedBy.isSome then .equivalent else .narrowing
          edits := [.set (.defaultAction .deny)] } }
  finding.detail "masked" (.bool maskedBy.isSome)

/-- The routes without a mode of their own. -/
def inheritingRoutes (policy : Policy) : List RouteRule :=
  policy.routes.filter fun route => route.enforcementMode.isNone

/-- Whether the global mode softens a denial of the default. -/
def defaultSoftened (policy : Policy) : Bool :=
  (defaultMaskedBy policy).isNone && policy.defaultAction == .deny

/-- The mode softens only denials: the default's, and those of routes without a
mode of their own. -/
def shadowInert (policy : Policy) : Bool :=
  (inheritingRoutes policy).length == 0 && !defaultSoftened policy

def globalShadowFinding (policy : Policy) : Finding :=
  let inert := shadowInert policy
  let finding : Finding :=
    { code := .globalShadowEnforcement
      severity := if inert then .low else .high
      proofBasis := .proven
      element := scalarRef .enforcementMode
      patch := some
        { accessEffect := if inert then .equivalent else .narrowing
          edits := [.set (.enforcementMode .enforce)] } }
  (finding.detail "inheriting_routes" (.number (toString (inheritingRoutes policy).length))).detail
    "default_softened" (.bool (defaultSoftened policy))

def riskyDefaults (policy : Policy) : Check Unit := do
  when (policy.defaultAction == .allow) (Run.push (defaultAllowFinding policy))
  when (policy.enforcementMode == .shadow) (Run.push (globalShadowFinding policy))

end Defaults

/-- Roles granting `*`. -/
def wildcardGrants (policy : Policy) : Check Unit :=
  each policy.roles.toList fun _ (name, role) =>
    match role.permissions.findIdx? (· == "*") with
    | none => pure ()
    | some index =>
      Run.push
        { code :=
            if role.issuers.isEmpty then .wildcardGrantWithoutIssuer else .wildcardPermission
          severity := if role.issuers.isEmpty then .medium else .low
          proofBasis := .heuristic
          element :=
            { section_ := .roles
              pointer := s!"/roles/{pointerToken name}/permissions/{index}"
              name := some name } }

section BroadRules

/-- Removing an allow or a shadow lets later rules, routes and the default decide
what it decided; it forwarded all of it. -/
def broadRuleFinding (index : Nat) (rule : Rule) : Finding :=
  let finding : Finding :=
    { code :=
        if rule.action = .allow then .broadUnconstrainedAllow else .broadUnconstrainedShadow
      severity := .high
      proofBasis := .proven
      element := ruleRef index rule
      patch := patchOf .narrowing (deleteEdit .rules (ruleRef index rule)) }
  finding.detail "all_methods" (.bool (matchesEveryMethod rule.methods))

def narrowerFinding (code : FindingCode) (index : Nat) (rule : Rule) : Finding :=
  let finding : Finding :=
    { code, severity := .medium, proofBasis := .proven, element := ruleRef index rule }
  finding.detail "action" (.string (actionStr rule.action))

/-- Every path for the callers it names, or every method for every caller on less
than every path. -/
def narrowerBroadRule (witnesses : Witnesses) (index : Nat) (rule : Rule) (everyPath : Bool) :
    Check Unit :=
  let everyMethod := matchesEveryMethod rule.methods
  if everyPath then do
    let confirmed ← ofExcept (witnesses.confirmBroad rule)
    Run.push <| .unconfirmedUnless confirmed <|
      (narrowerFinding .broadPathGrant index rule).detail "all_methods" (.bool everyMethod)
  else if everyMethod && rule.principal.isUnconstrained then do
    let confirmed ← ofExcept (witnesses.confirmAllMethods rule)
    Run.push (.unconfirmedUnless confirmed (narrowerFinding .allMethodsGrant index rule))
  else pure ()

/-- Whether a rule is an allow or a shadow that could be too broad. -/
def couldBeBroad (rule : Rule) : Bool :=
  rule.action != .deny && isHttpRule rule && unconditional rule && rule.dispatch.isNone

def broadRules (resources : AnalysisResources) (policy : Policy) : Check Unit :=
  each policy.rules fun index rule =>
    when (couldBeBroad rule) do
      Run.pay resources.expired
      let everyPath := matchesEveryPath (segments rule.path)
      if !everyPath || !rule.principal.isUnconstrained then
        narrowerBroadRule resources.witnesses index rule everyPath
      else do
        let confirmed ← ofExcept (resources.witnesses.confirmBroad rule)
        Run.push (.unconfirmedUnless confirmed (broadRuleFinding index rule))

end BroadRules

section ToolPolicy

/-- Why a tool's own entry refuses every caller a tool-name rule matches. -/
def toolConflict (policy : Policy) (rule : Rule) (toolName : String) : Option String :=
  match policy.tools[toolName]? with
  | none => some "tool_absent"
  | some entry =>
    if !entry.enabled then some "tool_disabled"
    else if disjoint entry.issuers rule.principal.issuers then some "issuers_disjoint"
    else if disjoint entry.authMethods rule.principal.authMethods then
      some "auth_methods_disjoint"
    else none

/-- A rule that decides nothing changes nothing when it goes. -/
def toolRefusedFinding (position : Nat) (rule : Rule) (reason : String) : Finding :=
  let finding : Finding :=
    { code := .toolRuleNeverDecides
      severity := .low
      proofBasis := .proven
      element := ruleRef position rule
      neverDecidesIn := [.tool]
      patch := patchOf .equivalent (deleteEdit .rules (ruleRef position rule)) }
  (finding.detail "reason" (.string reason)).detail "action" (.string (actionStr rule.action))

def toolNarrowedFinding (position : Nat) (rule : Rule) : Finding :=
  let finding : Finding :=
    { code := .toolRuleGrantNarrowed
      severity := .low
      proofBasis := .proven
      element := ruleRef position rule }
  finding.detail "action" (.string (actionStr rule.action))

/-- One tool-name rule against its tool's entry. -/
def toolPolicyConflict (resources : AnalysisResources) (policy : Policy) (position : Nat)
    (rule : Rule) (toolName : String) : Check Unit :=
  match toolConflict policy rule toolName with
  | some reason => do
    let refused ← ofExcept (resources.witnesses.confirmToolRefusal rule toolName)
    Run.cover position
    Run.push (.unconfirmedUnless refused (toolRefusedFinding position rule reason))
  | none =>
    when (rule.action != .deny && !rule.principal.isUnconstrained) do
      let refused ← ofExcept (resources.witnesses.confirmToolRefusal rule toolName)
      when refused (Run.push (toolNarrowedFinding position rule))

/-- Tool-name rules against the tool entries the tool lane admits an invocation by
before any tool-name rule is read. -/
def toolPolicyConflicts (resources : AnalysisResources) (policy : Policy) : Check Unit :=
  each policy.rules fun position rule =>
    match rule.toolName with
    | none => pure ()
    | some toolName =>
      when rule.enabled do
        Run.pay resources.expired
        toolPolicyConflict resources policy position rule toolName

end ToolPolicy

section Rules

def unreachableRule (position : Nat) (rule : Rule) (earlierPosition : Nat) (earlier : Rule)
    (duplicate : Bool) (lanes : List Lane) : Finding :=
  let finding : Finding :=
    { code := .ruleUnreachable
      severity := if earlier.action = rule.action then .low else .medium
      proofBasis := .proven
      element := ruleRef position rule
      related := some (ruleRef earlierPosition earlier)
      neverDecidesIn := lanes
      patch := patchOf .equivalent (deleteEdit .rules (ruleRef position rule)) }
  ((finding.detail "relation" (.string (if duplicate then "duplicate" else "covered"))).detail
    "action" (.string (actionStr rule.action))).detail
    "covering_action" (.string (actionStr earlier.action))

/-- Moved before the earliest less restrictive rule covering it, the rule decides
what no rule before that one matches, with a more restrictive action. -/
def shadowedRule (position : Nat) (rule : Rule) (earlierPosition : Nat) (earlier : Rule)
    (neverDecidesIn mayDecideIn : List Lane) : Finding :=
  let finding : Finding :=
    { code := .ruleShadowed
      severity := if rule.action = .deny then .high else .low
      proofBasis := .proven
      element := ruleRef position rule
      related := some (ruleRef earlierPosition earlier)
      neverDecidesIn
      mayDecideIn
      patch := patchOf .narrowing
        (some (moveEdit .rules (ruleRef position rule) position earlierPosition)) }
  (finding.detail "action" (.string (actionStr rule.action))).detail
    "covering_action" (.string (actionStr earlier.action))

/-- The earlier rules found to cover a rule. -/
structure CoveringRules where
  atLeastAsRestrictive : Option (Nat × Rule) := none
  lessRestrictive : Option (Nat × Rule) := none

/-- The first earlier rule that covers `rule` and is at least as restrictive, and
the first less restrictive one read before it. -/
def coveringRulesFrom (expired : Nat → Bool) (rule : Rule) (start : Nat)
    (lessRestrictive : Option (Nat × Rule)) : List Rule → Check CoveringRules
  | [] => pure { lessRestrictive }
  | earlier :: rest =>
    if !isHttpRule earlier then coveringRulesFrom expired rule (start + 1) lessRestrictive rest
    else do
      Run.pay expired
      if !httpRuleCovers earlier (segments earlier.path) rule (segments rule.path) then
        coveringRulesFrom expired rule (start + 1) lessRestrictive rest
      else if restrictiveness earlier.action ≥ restrictiveness rule.action then
        pure { atLeastAsRestrictive := some (start, earlier), lessRestrictive }
      else
        coveringRulesFrom expired rule (start + 1)
          (lessRestrictive.or (some (start, earlier))) rest

/-- Whether the covered rule covers its covering one in turn, within the budget. -/
def duplicateOf (expired : Nat → Bool) (rule earlier : Rule) : Check Bool :=
  if earlier.action = rule.action then do
    let paid ← Run.spend expired
    pure (paid && httpRuleCovers rule (segments rule.path) earlier (segments earlier.path))
  else pure false

/-- A deny still decides where denies are read first or alone; a shadow only where
the most restrictive action wins. -/
def shadowedMayDecideIn (action : RuleAction) : List Lane :=
  match action with
  | .deny => [.mcpAlias, .selectedUpstream, .sourceRequest]
  | _ => [.mcpAlias]

/-- Reports a rule its covering rules keep from deciding. -/
def reportCovered (resources : AnalysisResources) (position : Nat) (rule : Rule)
    (covering : CoveringRules) : Check Unit :=
  match covering.atLeastAsRestrictive, covering.lessRestrictive with
  | some (earlierPosition, earlier), _ => do
    Run.cover position
    let duplicate ← duplicateOf resources.expired rule earlier
    let confirmed ← ofExcept (resources.witnesses.confirmRule position rule)
    Run.push <| .unconfirmedUnless confirmed <|
      unreachableRule position rule earlierPosition earlier duplicate httpRuleLanes
  | none, some (earlierPosition, earlier) => do
    Run.cover position
    let confirmed ← ofExcept (resources.witnesses.confirmRule position rule)
    Run.push <| .unconfirmedUnless confirmed <|
      shadowedRule position rule earlierPosition earlier firstMatchHttpLanes
        (shadowedMayDecideIn rule.action)
  | none, none => pure ()

def directRules (resources : AnalysisResources) (policy : Policy) : Check Unit :=
  each policy.rules fun position rule =>
    when (isHttpRule rule) do
      let covering ← coveringRulesFrom resources.expired rule 0 none (policy.rules.take position)
      reportCovered resources position rule covering

/-- What a tool-name rule covered by an earlier one is reported as. -/
def coveredToolFinding (position : Nat) (rule : Rule) (earlierPosition : Nat) (earlier : Rule) :
    Finding :=
  if restrictiveness earlier.action ≥ restrictiveness rule.action then
    unreachableRule position rule earlierPosition earlier
      (earlier.action == rule.action && unconditional rule &&
        principalCovers rule.principal earlier.principal) [.tool]
  else shadowedRule position rule earlierPosition earlier [.tool] []

/-- Tool-name rules decide by first match among the rules naming the same tool. -/
def toolRule (resources : AnalysisResources) (policy : Policy) (position : Nat) (rule : Rule)
    (toolName : String) : Check Unit := do
  let covering ← search (Run.pay resources.expired)
    (fun earlier => !earlier.enabled || earlier.toolName != some toolName)
    (fun earlier => unconditional earlier && principalCovers earlier.principal rule.principal)
    (policy.rules.take position)
  match covering with
  | none => pure ()
  | some (earlierPosition, earlier) => do
    let confirmed ← ofExcept
      (resources.witnesses.confirmToolRule position rule toolName)
    Run.push (.unconfirmedUnless confirmed
      (coveredToolFinding position rule earlierPosition earlier))

/-- A rule its tool's entry refuses every caller of is not compared again. -/
def toolRules (resources : AnalysisResources) (policy : Policy) : Check Unit :=
  each policy.rules fun position rule =>
    match rule.toolName with
    | none => pure ()
    | some toolName => do
      let run ← Stoppable.get
      when (rule.enabled && !run.coveredRules.contains position)
        (toolRule resources policy position rule toolName)

end Rules

section Routes

/-- The mode a route decides under. -/
def routeMode (policy : Policy) (route : RouteRule) : EnforcementMode :=
  route.enforcementMode.getD policy.enforcementMode

/-- An MCP alias request selects the first route whose prefix equals its path
before matching any prefix. -/
def aliasCannotSelect (aliasPaths : List String) (earlier route : RouteRule) : Bool :=
  earlier.pathPrefix == route.pathPrefix || !aliasPaths.contains route.pathPrefix

/-- Whether every request `stricter` forwards, `looser` forwards too. One
permission implies another when every role granting the first grants the second. -/
def routeRequirementImplies (policy : Policy) (stricter looser : RouteRule) : Bool :=
  match routeMode policy stricter, routeMode policy looser with
  | _, .shadow => true
  | .shadow, .enforce => false
  | .enforce, .enforce =>
    policy.roles.toList.all fun (_, role) =>
      !grantsPermission role.permissions stricter.permission ||
        grantsPermission role.permissions looser.permission

/-- The access effect of moving `route` before `earlier`, which covers it. -/
def routeMoveEffect (policy : Policy) (earlier route : RouteRule) : AccessEffect :=
  match routeRequirementImplies policy route earlier,
      routeRequirementImplies policy earlier route with
  | true, true => .equivalent
  | true, false => .narrowing
  | false, true => .expanding
  | false, false => .unknown

/-- A route every request of which a direct rule decides first. -/
def routeDecidedByRule (position : Nat) (route : RouteRule) (rulePosition : Nat) (rule : Rule) :
    Finding :=
  let element := routeRef position route
  let related := ruleRef rulePosition rule
  if rule.action = .deny then
    let finding : Finding :=
      { code := .routeUnreachable
        severity := .low
        proofBasis := .proven
        element
        related := some related
        neverDecidesIn := routeLanes
        patch := patchOf .equivalent (deleteEdit .routes element) }
    finding.detail "decided_by" (.string "rule")
  else
    let finding : Finding :=
      { code := .routeBypassed
        severity := .high
        proofBasis := .proven
        element
        related := some related
        neverDecidesIn := [.http, .mcpAlias]
        mayDecideIn := if route.hosts.isEmpty then [] else [.selectedUpstream]
        patch := patchOf .narrowing (deleteEdit .rules related) }
    finding.detail "rule_action" (.string (actionStr rule.action))

/-- A route every request of which an earlier route decides. -/
def routeDecidedEarlier (policy : Policy) (position : Nat) (route : RouteRule)
    (earlierPosition : Nat) (earlier : RouteRule) : Finding :=
  let element := routeRef position route
  let permissionDiffers := earlier.permission != route.permission
  let modeDiffers := routeMode policy earlier != routeMode policy route
  if permissionDiffers || modeDiffers then
    let finding : Finding :=
      { code := .routeShadowed
        severity := .medium
        proofBasis := .proven
        element
        related := some (routeRef earlierPosition earlier)
        neverDecidesIn := routeLanes
        patch := patchOf (routeMoveEffect policy earlier route)
          (some (moveEdit .routes element position earlierPosition)) }
    (finding.detail "permission_differs" (.bool permissionDiffers)).detail "mode_differs"
      (.bool modeDiffers)
  else
    let finding : Finding :=
      { code := .routeUnreachable
        severity := .low
        proofBasis := .proven
        element
        related := some (routeRef earlierPosition earlier)
        neverDecidesIn := routeLanes
        patch := patchOf .equivalent (deleteEdit .routes element) }
    finding.detail "decided_by" (.string "route")

/-- Whether a rule cannot decide every caller's request on its path. -/
def bindsCaller (rule : Rule) : Bool :=
  !isHttpRule rule || !unconditional rule || !rule.principal.isUnconstrained ||
    rule.dispatch.isSome

/-- The first direct rule that decides every request of a route: every direct rule
runs before every route. -/
def decidingRule (resources : AnalysisResources) (policy : Policy) (route : RouteRule) :
    Check (Option (Nat × Rule)) :=
  let routeSegments : Segments := (prefixPattern route.pathPrefix).bind segments
  if routeSegments.isSome then
    search (Run.pay resources.expired) bindsCaller
      (fun rule => methodsCover rule.methods route.methods &&
        patternCovers (segments rule.path) routeSegments) policy.rules
  else pure none

/-- The first earlier route that decides every request of a route. -/
def coveringRoute (resources : AnalysisResources) (policy : Policy) (position : Nat)
    (route : RouteRule) : Check (Option (Nat × RouteRule)) :=
  search (Run.pay resources.expired) (fun _ => false)
    (fun earlier => routeCovers earlier route &&
      aliasCannotSelect resources.mcpAliasPaths earlier route) (policy.routes.take position)

def checkRoute (resources : AnalysisResources) (policy : Policy) (position : Nat)
    (route : RouteRule) : Check Unit := do
  match ← decidingRule resources policy route with
  | some (rulePosition, rule) => do
    let confirmed ← ofExcept (resources.witnesses.confirmRouteDecidedByRule route)
    Run.push (.unconfirmedUnless confirmed (routeDecidedByRule position route rulePosition rule))
  | none => do
    match ← coveringRoute resources policy position route with
    | some (earlierPosition, earlier) => do
      let confirmed ← ofExcept
        (resources.witnesses.confirmRouteDecidedEarlier position route)
      Run.push (.unconfirmedUnless confirmed
        (routeDecidedEarlier policy position route earlierPosition earlier))
    | none => pure ()

def routes (resources : AnalysisResources) (policy : Policy) : Check Unit :=
  each policy.routes (checkRoute resources policy)

end Routes

section RateOverrides

/-- How two overrides' limits compare: the first no looser than the second. -/
def limitsWithin (limit other : RateLimitRule) : Bool :=
  decide (limit.requestsPerSecond ≤ other.requestsPerSecond) && decide (limit.burst ≤ other.burst)

/-- An override every request of which an earlier one selects. -/
def rateCoveredFinding (position : Nat) (limit : RateLimitRule) (earlierPosition : Nat)
    (earlier : RateLimitRule) : Finding :=
  let element := rateRef position limit
  if earlier.requestsPerSecond = limit.requestsPerSecond ∧ earlier.burst = limit.burst then
    { code := .rateOverrideUnreachable
      severity := .low
      proofBasis := .proven
      element
      related := some (rateRef earlierPosition earlier)
      neverDecidesIn := [.rate]
      patch := patchOf .equivalent (deleteEdit .rateLimits element) }
  else
    let stricter := limitsWithin limit earlier
    let looser := limitsWithin earlier limit
    let finding : Finding :=
      { code := .rateOverrideShadowed
        severity := if stricter then .medium else .low
        proofBasis := .proven
        element
        related := some (rateRef earlierPosition earlier)
        neverDecidesIn := [.rate]
        patch := patchOf (if stricter then .narrowing else if looser then .expanding else .unknown)
          (some (moveEdit .rateLimits element position earlierPosition)) }
    finding.detail "limits"
      (.string (if stricter then "stricter" else if looser then "looser" else "mixed"))

def rateOverride (resources : AnalysisResources) (policy : Policy) (position : Nat)
    (limit : RateLimitRule) : Check Unit := do
  let covering ← search (Run.pay resources.expired) (fun _ => false)
    (fun earlier => rateCovers earlier (earlier.path.bind segments) limit
      (limit.path.bind segments)) (policy.rateLimits.take position)
  match covering with
  | none => pure ()
  | some (earlierPosition, earlier) => do
    let confirmed ← ofExcept (resources.witnesses.confirmRate position limit)
    Run.push (.unconfirmedUnless confirmed
      (rateCoveredFinding position limit earlierPosition earlier))

def rateOverrides (resources : AnalysisResources) (policy : Policy) : Check Unit :=
  each policy.rateLimits (rateOverride resources policy)

end RateOverrides

/-- Every check in order, the linear ones first. -/
def checks (policy : Policy) (resources : AnalysisResources) :
    List (Run → Except AnalysisError Run) :=
  [(riskyDefaults policy).finish,
    (wildcardGrants policy).finish,
    (broadRules resources policy).finish,
    resources.lints.issuerlessRoleGrants.run,
    (toolPolicyConflicts resources policy).finish,
    resources.lints.rateLaneLints.run,
    resources.lints.egressLints.run,
    resources.lints.crossResources.run,
    (directRules resources policy).finish,
    resources.lints.partialOverlaps.run,
    (toolRules resources policy).finish,
    resources.lints.mcpAliasLane.run,
    resources.lints.selectedUpstreams.run,
    (routes resources policy).finish,
    (rateOverrides resources policy).finish]

/-- Analyze `policy`: every check, within the comparison budget, the findings cap
and the deadline. -/
def analyze (policy : Policy) (resources : AnalysisResources) :
    Except AnalysisError AnalysisOutcome := do
  let run ← (checks policy resources).foldlM (fun run check => check run) {}
  .ok run.finish

end GreenGateway.Analysis
