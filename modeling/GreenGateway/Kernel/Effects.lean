import GreenGateway.Kernel.Comparison

/-! The effect of a decision, lane by lane, as a function of what the scans over
the authored rules settle and of what the routes and the default answer. -/

namespace GreenGateway.Kernel

open Foundation Rbac RuleScan

/-- The effect of a direct rule that decides. -/
def actionEffect : RuleAction → PolicyEffect
  | .allow => .allow
  | .deny => .block
  | .shadow => .observe

/-- The effect of a lane whose deciding scan settled `verdict`, with the effect of
the routes and the default when no rule decides. -/
def verdictEffect (routed : PolicyEffect) : Verdict RuleAction → PolicyEffect
  | .acts action => actionEffect action
  | .noMatch => routed
  | .undetermined => .block

/-- The effect of a tool operation once admission passed. -/
def toolEffect (operation : ToolOperation) : Verdict RuleAction → PolicyEffect
  | .acts .deny | .undetermined => .block
  | .acts .shadow => if operation.preview then .allow else .observe
  | .acts .allow | .noMatch => .allow

theorem actionEffect_forwards {action : RuleAction} (forwards : action ≠ .deny) :
    actionEffect action ≠ .block := by
  cases action with
  | deny => exact absurd rfl forwards
  | allow => simp [actionEffect]
  | shadow => simp [actionEffect]

theorem toolEffect_forwards {action : RuleAction} (forwards : action ≠ .deny)
    (operation : ToolOperation) : toolEffect operation (.acts action) ≠ .block := by
  cases action with
  | deny => exact absurd rfl forwards
  | allow => simp [toolEffect]
  | shadow =>
    simp only [toolEffect]
    split <;> simp

/-- A route's method and host binding admit a request of the lane. -/
def Lane.admissible (lane : Lane) (route : RouteRule) : Bool :=
  methodMatches route.methods lane.method &&
    routeHostMatches route.hosts lane.host lane.hostBindingRequired

/-- The route a lane selects. -/
def Lane.route (lane : Lane) (routes : List RouteRule) : Option RouteRule :=
  match lane.canonicalPath with
  | some canonical =>
    (routes.find? fun route => route.pathPrefix == lane.path && lane.admissible route).or
      (routes.find? fun route =>
        pathPrefixMatches canonical route.pathPrefix && lane.admissible route)
  | none =>
    routes.find? fun route => pathPrefixMatches lane.path route.pathPrefix && lane.admissible route

/-- The effect of a route that decides. -/
def routeEffect (policy : Policy) (principal : Option Principal) (route : RouteRule) :
    PolicyEffect :=
  effect (principal.any fun principal => policy.principalHasPermission principal route.permission)
    (route.enforcementMode.getD policy.enforcementMode)

/-- The effect once neither a rule nor a route decides. -/
def defaultEffect (policy : Policy) (hostBindingRequired : Bool) : PolicyEffect :=
  if hostBindingRequired then .block
  else effect (decide (policy.defaultAction = .allow)) policy.enforcementMode

/-- The effect of the route a lane selects, and of the default without one. -/
def Lane.selectedEffect (lane : Lane) (policy : Policy) : Option RouteRule → PolicyEffect
  | some route => routeEffect policy lane.principal route
  | none => defaultEffect policy lane.hostBindingRequired

/-- Only an allowed enum-source request is forwarded. -/
def SourceRequestDecision.effect : SourceRequestDecision → PolicyEffect
  | .allowed => .allow
  | .toolDisabled | .denied _ | .undetermined => .block

namespace CompiledPolicy

theorem directAnswer_effect (decision : RuleDecision) (observation : Option RuleReference) :
    (directAnswer decision observation).effect = actionEffect decision.action := by
  obtain ⟨index, action⟩ := decision
  cases action <;> rfl

/-- The effect of a tool answer on top of an admission that allows. -/
theorem toolRuleAnswer_effect {result : ToolEvaluation} (allows : result.effect = .allow)
    (scan : RuleScan) :
    (toolRuleAnswer result scan).effect = toolEffect result.operation scan.verdict := by
  cases scan with
  | noMatch => simpa [toolRuleAnswer, verdict, toolEffect] using allows
  | undetermined index => rfl
  | matched decision =>
    obtain ⟨index, action⟩ := decision
    cases preview : result.operation.preview <;> cases action <;>
      simp [toolRuleAnswer, verdict, toolEffect, preview, ToolEvaluation.deny, allows]

end CompiledPolicy

variable [Externals]

/-- Whether an authored rule matches the lane's request. -/
def Lane.ruleTruth (lane : Lane) (facts : PolicyFacts) (rule : Rule) : Truth :=
  lane.truth facts (CompiledRule.new 0 rule)

/-- What the authored rules settle for a lane. -/
def Lane.verdict (lane : Lane) (facts : PolicyFacts) (rules : List Rule) (deniesOnly : Bool) :
    Verdict RuleAction :=
  if deniesOnly then
    (Foundation.firstMatch (within Rule.action (lane.ruleTruth facts) .deny) rules).verdict
      Rule.action
  else match lane.canonicalPath with
    | none => (Foundation.firstMatch (lane.ruleTruth facts) rules).verdict Rule.action
    | some _ =>
      (firstMatchBy Rule.action (lane.ruleTruth facts) rules [.deny, .shadow, .allow]).verdict
        Rule.action

/-- Whether an authored tool-name rule matches a call. -/
def toolRuleTruth (name : String) (principal : Option Principal) (facts : PolicyFacts)
    (rule : Rule) : Truth :=
  (CompiledRule.new 0 rule).toolTruth name principal facts

/-- What the authored tool-name rules settle for a call. -/
def toolVerdict (name : String) (principal : Option Principal) (facts : PolicyFacts)
    (rules : List Rule) : Verdict RuleAction :=
  (Foundation.firstMatch (toolRuleTruth name principal facts) rules).verdict Rule.action

/-- The lane of a rendered tool request: first match, unknown dispatch. -/
def renderedLane (method path : String) (principal : Option Principal) : Lane :=
  { method
    path
    canonicalPath := none
    principal
    host := none
    hostBindingRequired := false
    dispatchContext := .unknown }

namespace CompiledPolicy

variable {compiled : CompiledPolicy} {lane : Lane} {facts : PolicyFacts}

theorem laneScan_verdict (deniesOnly : Bool) :
    (compiled.laneScan lane deniesOnly facts).verdict =
      lane.verdict facts compiled.policy.rules deniesOnly := by
  have rules : compiled.matcher.rules = (RuleMatcher.new compiled.policy.rules).rules := by
    rw [compiled.matcher_eq]
  cases deniesOnly with
  | true =>
    rw [laneScan_denies, verdict_ofScan, rules]
    exact verdict_firstMatch_authored (fun index rule => rfl) _
  | false =>
    unfold Lane.verdict
    cases canonical : lane.canonicalPath with
    | none =>
      rw [laneScan_single canonical, verdict_ofScan, rules]
      exact verdict_firstMatch_authored (fun index rule => rfl) _
    | some identity =>
      rw [laneScan_alias canonical, verdict_ofScan, rules]
      exact verdict_firstMatchBy_authored (fun index rule => rfl) _ _

theorem scanTool_verdict (name : String) (principal : Option Principal) :
    (compiled.matcher.scanTool name principal facts).verdict =
      toolVerdict name principal facts compiled.policy.rules := by
  rw [RuleMatcher.scanTool_eq, verdict_ofScan, compiled.matcher_eq]
  exact verdict_firstMatch_authored (fun index rule => rfl) _

theorem scanRendered_verdict (method path : String) (principal : Option Principal) :
    (compiled.matcher.scanWithDispatch method principal .unknown facts path).verdict =
      (renderedLane method path principal).verdict facts compiled.policy.rules false :=
  have scanned : (compiled.laneScan (renderedLane method path principal) false facts).verdict =
      (renderedLane method path principal).verdict facts compiled.policy.rules false :=
    laneScan_verdict false
  scanned

/-- The effect of the routes and the default. -/
def routedEffect (compiled : CompiledPolicy) (lane : Lane) : PolicyEffect :=
  (compiled.routedAnswer lane none).effect

/-- The routes answer by the one the lane selects. -/
theorem routedEffect_eq :
    compiled.routedEffect lane =
      lane.selectedEffect compiled.policy (lane.route compiled.policy.routes) := by
  have selected : (compiled.matchRoute lane.method lane.path lane.canonicalPath lane.host
      lane.hostBindingRequired).map Prod.snd = lane.route compiled.policy.routes := by
    unfold matchRoute Lane.route
    dsimp only
    cases lane.canonicalPath with
    | none => exact findIndexed_snd _ _
    | some canonical => rw [Option.map_or, findIndexed_snd, findIndexed_snd]; rfl
  unfold routedEffect routedAnswer
  rw [← selected]
  cases compiled.matchRoute lane.method lane.path lane.canonicalPath lane.host
      lane.hostBindingRequired with
  | some hit => rfl
  | none =>
    simp only [Option.map_none, Lane.selectedEffect, defaultAnswer, defaultEffect]
    split <;> rfl

theorem routedAnswer_effect (observation : Option RuleReference) :
    (compiled.routedAnswer lane observation).effect = compiled.routedEffect lane := by
  unfold routedEffect routedAnswer
  split
  · rfl
  · unfold defaultAnswer
    split <;> rfl

/-- Without a selected upstream the deciding scan is the only one. -/
theorem judge_effect_unbound (unbound : lane.hostBindingRequired = false) :
    (compiled.judge lane facts).effect =
      verdictEffect (compiled.routedEffect lane)
        (lane.verdict facts compiled.policy.rules false) := by
  rw [← laneScan_verdict]
  cases scanned : compiled.laneScan lane false facts with
  | undetermined index => rw [judge_undetermined scanned]; rfl
  | matched decision =>
    rw [judge_unbound_matched unbound scanned, directAnswer_effect]
    rfl
  | noMatch =>
    rw [judge_unbound_noMatch unbound scanned, routedAnswer_effect]
    rfl

/-- A lane whose first scan is not settled is not decided. -/
theorem judge_of_undetermined
    (open_ : lane.verdict facts compiled.policy.rules false = .undetermined) :
    compiled.judge lane facts = .indeterminate .missingMatcherFact := by
  rw [← laneScan_verdict] at open_
  cases scanned : compiled.laneScan lane false facts with
  | undetermined index => exact judge_undetermined scanned
  | matched decision => simp [scanned, verdict] at open_
  | noMatch => simp [scanned, verdict] at open_

/-- A selected upstream needs the first scan to be settled, and then reads denies. -/
theorem judge_effect_bound (bound : lane.hostBindingRequired = true) :
    (compiled.judge lane facts).effect =
      if lane.verdict facts compiled.policy.rules false = .undetermined then .block
      else verdictEffect (compiled.routedEffect lane)
        (lane.verdict facts compiled.policy.rules true) := by
  rw [← laneScan_verdict, ← laneScan_verdict]
  by_cases determined : ∀ ruleIndex, compiled.laneScan lane false facts ≠ .undetermined ruleIndex
  · have settled : (compiled.laneScan lane false facts).verdict ≠ .undetermined := by
      cases scanned : compiled.laneScan lane false facts with
      | undetermined index => exact absurd scanned (determined index)
      | matched decision => simp [verdict]
      | noMatch => simp [verdict]
    rw [if_neg settled]
    cases scanned : compiled.laneScan lane true facts with
    | undetermined index => rw [judge_bound_undetermined bound scanned]; rfl
    | matched decision =>
      rw [judge_bound_matched bound determined scanned, directAnswer_effect]
      rfl
    | noMatch =>
      rw [judge_bound_noMatch bound determined scanned, routedAnswer_effect]
      rfl
  · obtain ⟨ruleIndex, open_⟩ := not_forall.mp determined
    have stopped := not_not.mp open_
    rw [judge_undetermined stopped, stopped]
    rfl

/-- The admission of a tool operation: the effect it settles, or the scan it
leaves the answer to. -/
def admission (compiled : CompiledPolicy) (operation : ToolOperation) (name : String)
    (principal : Option Principal) : Option PolicyEffect :=
  match compiled.policy.tools[name]? with
  | none => some .block
  | some tool =>
    if !tool.enabled then some .block
    else if operation = .compositeLeaf then some .allow
    else if !toolPrincipalMatches tool principal then some .block
    else none

theorem toolAnswer_effect (operation : ToolOperation) (name : String)
    (principal : Option Principal) :
    (compiled.toolAnswer operation name principal facts).effect =
      (compiled.admission operation name principal).getD
        (toolEffect operation (toolVerdict name principal facts compiled.policy.rules)) := by
  unfold toolAnswer admission
  cases compiled.policy.tools[name]? with
  | none => rfl
  | some tool =>
    dsimp only
    cases tool.enabled with
    | false => rfl
    | true =>
      by_cases leaf : operation = .compositeLeaf
      · simp [leaf]
      · cases toolPrincipalMatches tool principal with
        | false => simp [leaf, ToolEvaluation.deny]
        | true =>
          simp only [leaf, Bool.not_true, Bool.false_eq_true, if_false, Option.getD_none,
            ← scanTool_verdict]
          rw [toolRuleAnswer_effect (by split <;> rfl)]
          split <;> rfl

/-- Whether an enum source's tool is usable. -/
def sourceUsable (compiled : CompiledPolicy) (toolName : Option String) : Bool :=
  toolName.all fun name => (compiled.policy.tools[name]?).any fun tool => tool.enabled

end CompiledPolicy

/-- The same question, pinned to a snapshot. -/
def SourceRequestContext.pinned (context : SourceRequestContext) (snapshot : ResourceSnapshot) :
    SourceRequestContext :=
  { context with snapshot }

namespace CompiledPolicy

theorem evaluateSource_effect (context : SourceRequestContext) (compiled : CompiledPolicy) :
    (compiled.evaluateSourceRequest context).map SourceRequestDecision.effect =
      (context.validate compiled.snapshot).map fun _ =>
        if compiled.sourceUsable context.toolName then
          verdictEffect .allow
            ((sourceLane context.path).verdict uncapturedFacts compiled.policy.rules true)
        else .block := by
  unfold evaluateSourceRequest
  cases context.validate compiled.snapshot with
  | error problem => rfl
  | ok =>
    rw [matchDirect_source, ← laneScan_verdict]
    change Except.map _ (if !compiled.sourceUsable context.toolName then _ else _) = _
    cases compiled.sourceUsable context.toolName with
    | false => rfl
    | true =>
      cases scanned : compiled.laneScan (sourceLane context.path) true uncapturedFacts with
      | noMatch => rfl
      | undetermined index => rfl
      | matched decision =>
        simp [verdict, verdictEffect, laneScan_denies_action scanned, actionEffect,
          SourceRequestDecision.effect, Except.map]

end CompiledPolicy

end GreenGateway.Kernel
