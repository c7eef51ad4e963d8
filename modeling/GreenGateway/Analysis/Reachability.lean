import GreenGateway.Analysis.Meaning
import GreenGateway.Kernel.HostBinding

/-! A finding's reachability claim holds: in every lane a proven finding lists, no
request is decided by the element it names. -/

namespace GreenGateway.Analysis

open Foundation Rbac Kernel CompiledPolicy RuleMatcher CompiledPolicy

/-- The reference an evaluation names a rule or a route by. -/
def ElementRef.reference? (element : ElementRef) : Option RuleReference :=
  match element.section_, element.position with
  | .rules, some position => some (.direct position)
  | .routes, some position => some (.route position)
  | _, _ => none

variable (position : Nat)

@[simp] theorem ruleRef_reference? (rule : Rule) :
    (ruleRef position rule).reference? = some (.direct position) := rfl

@[simp] theorem routeRef_reference? (route : RouteRule) :
    (routeRef position route).reference? = some (.route position) := rfl

@[simp] theorem rateRef_reference? (limit : RateLimitRule) :
    (rateRef position limit).reference? = none := rfl

/-- The evaluator decides some valid request of a lane by an element. -/
inductive Decides [Externals] (compiled : CompiledPolicy) (aliasPaths : List String)
    (element : ElementRef) : Lane → Prop where
  | http {context : PolicyEvaluationContext} {facts : PolicyFacts} {evaluation : Evaluation}
      {reference : RuleReference} (single : context.target.canonicalPath? = none)
      (unbound : context.routeHost? = none)
      (answered : compiled.decide context facts = .ok evaluation)
      (matched : evaluation.matched = some reference)
      (named : element.reference? = some reference) : Decides compiled aliasPaths element .http
  | mcpAlias {context : PolicyEvaluationContext} {facts : PolicyFacts} {evaluation : Evaluation}
      {reference : RuleReference} {canonical path : String}
      (target : context.target = .mcpAlias canonical) (requested : context.path = some path)
      (configured : path ∈ aliasPaths)
      (answered : compiled.decide context facts = .ok evaluation)
      (matched : evaluation.matched = some reference)
      (named : element.reference? = some reference) : Decides compiled aliasPaths element .mcpAlias
  | selectedUpstream {context : PolicyEvaluationContext} {facts : PolicyFacts}
      {evaluation : Evaluation} {reference : RuleReference} {host : String}
      (bound : context.routeHost? = some host)
      (answered : compiled.decide context facts = .ok evaluation)
      (matched : evaluation.matched = some reference)
      (named : element.reference? = some reference) :
      Decides compiled aliasPaths element .selectedUpstream
  | renderedToolHttp {context : ToolEvaluationContext} {facts : PolicyFacts}
      {evaluation : ToolEvaluation} {reference : RuleReference}
      (rendered : context.operation = .renderedHttp)
      (answered : compiled.evaluateToolWithFacts context facts = .ok evaluation)
      (matched : evaluation.matched = some reference)
      (named : element.reference? = some reference) :
      Decides compiled aliasPaths element .renderedToolHttp
  | sourceRequest {context : SourceRequestContext} {index : Nat}
      (answered : compiled.evaluateSourceRequest context = .ok (.denied index))
      (named : element.reference? = some (.direct index)) :
      Decides compiled aliasPaths element .sourceRequest
  | tool {context : ToolEvaluationContext} {facts : PolicyFacts} {evaluation : ToolEvaluation}
      {reference : RuleReference} (notRendered : context.operation ≠ .renderedHttp)
      (answered : compiled.evaluateToolWithFacts context facts = .ok evaluation)
      (matched : evaluation.matched = some reference)
      (named : element.reference? = some reference) : Decides compiled aliasPaths element .tool
  | rate {context : PolicyEvaluationContext} {facts : PolicyFacts} {index : Nat}
      {limit : RateLimit}
      (answered : compiled.selectRateLaneWithFacts context facts = .ok (.override index limit))
      (ordered : element.section_ = .rateLimits) (named : element.position = some index) :
      Decides compiled aliasPaths element .rate

section Lanes

variable {index : Nat} {lane : Kernel.Lane}

/-- The rule a tool answer names is the one its scan found. -/
theorem scan_of_toolRuleAnswer {result : ToolEvaluation} {scan : RuleScan}
    (unmatched : result.matched = none)
    (matched : (toolRuleAnswer result scan).matched = some (.direct index)) :
    ∃ decision, scan = .matched decision ∧ decision.ruleIndex = index := by
  cases scan with
  | noMatch => simp [toolRuleAnswer, unmatched] at matched
  | undetermined open_ =>
    simp [toolRuleAnswer, ToolEvaluation.incomplete, unmatched] at matched
  | matched decision =>
    refine ⟨decision, rfl, ?_⟩
    unfold toolRuleAnswer at matched
    dsimp only at matched
    split at matched
    · split at matched <;> simpa [ToolEvaluation.deny] using matched
    · split at matched <;> simpa [ToolEvaluation.deny] using matched

variable [Externals] {compiled : CompiledPolicy} {context : PolicyEvaluationContext}
  {facts : PolicyFacts} {evaluation : Evaluation} {reference : RuleReference}

/-- An HTTP answer that names an element judged a lane. -/
theorem lane_of_matched (answered : compiled.decide context facts = .ok evaluation)
    (matched : evaluation.matched = some reference) :
    ∃ lane, Resolves compiled context facts lane ∧
      (compiled.judge lane facts).matched = some reference := by
  obtain ⟨-, -, ⟨limitation, -, rfl⟩ | ⟨lane, resolved, rfl⟩⟩ :=
    decide_eq_ok.mp answered
  · cases matched
  · exact ⟨lane, resolved, matched⟩

/-- What an answer names decided it: the rule the deciding scan found, or the route the lane
selects once no rule decides. -/
theorem judge_matched (matched : (compiled.judge lane facts).matched = some reference) :
    (∃ decision, compiled.laneScan lane lane.hostBindingRequired facts = .matched decision ∧
      .direct decision.ruleIndex = reference) ∨
    compiled.laneScan lane lane.hostBindingRequired facts = .noMatch ∧
      ∃ index route, compiled.matchRoute lane.method lane.path lane.canonicalPath lane.host
        lane.hostBindingRequired = some (index, route) ∧ .route index = reference := by
  rcases compiled.judge_cases lane facts with open_ | ⟨decision, observation, found, same⟩ |
    ⟨observation, none, same⟩
  · rw [open_] at matched
    cases matched
  · rw [same] at matched
    exact .inl ⟨decision, found, Option.some.inj matched⟩
  · rw [same, routedAnswer] at matched
    split at matched
    · rename_i index route found
      exact .inr ⟨none, index, route, found, Option.some.inj matched⟩
    · unfold defaultAnswer at matched
      split at matched <;> cases matched

/-- An alias request has no selected upstream. -/
theorem alias_unbound {canonical : String} (valid : context.validate compiled.snapshot = .ok ())
    (target : context.target = .mcpAlias canonical) : context.routeHost? = none := by
  cases carried : context.dispatch with
  | none => simp [PolicyEvaluationContext.routeHost?, carried]
  | some dispatch =>
    have := target_of_dispatch valid carried
    rw [target] at this
    cases this

end Lanes

section Skips

/-- An action whose restrictiveness is at least another's is ahead of it, or is it. -/
theorem ahead_of_restrictive {action other : RuleAction}
    (restrictive : restrictiveness action ≤ restrictiveness other) :
    other = action ∨ [RuleAction.deny, .shadow, .allow].idxOf other <
      [RuleAction.deny, .shadow, .allow].idxOf action := by
  cases action <;> cases other <;> simp_all [restrictiveness]

variable [Externals] {policy : Policy} {compiled : CompiledPolicy} {lane : Kernel.Lane}
  {facts : PolicyFacts} {earlierPosition position : Nat} {earlier rule : Rule}
  {decision : RuleDecision}

theorem Precedes.firstMatch_skips {truth : CompiledRule → Truth} {hit : CompiledRule}
    (precedes : Precedes policy.rules earlierPosition earlier position rule)
    (shared : truth (CompiledRule.new position rule) = .true →
      truth (CompiledRule.new earlierPosition earlier) = .true)
    (found : Foundation.firstMatch truth (RuleMatcher.new policy.rules).rules = .matched hit) :
    hit.ruleIndex ≠ position := by
  rintro rfl
  obtain ⟨authored, listed, same, yes, none⟩ := firstMatch_authored found
  obtain rfl : rule = authored := Option.some.inj (precedes.listed.symm.trans listed)
  have fails := none earlierPosition precedes.before earlier precedes.listedEarlier
  rw [same] at yes
  rw [shared yes] at fails
  cases fails

theorem compiled_rules (same : compiled.policy = policy) :
    compiled.matcher.rules = (RuleMatcher.new policy.rules).rules := by
  rw [compiled.matcher_eq, same]

namespace CoveredRule

variable (covered : CoveredRule policy earlierPosition earlier position rule)

include covered

/-- Over one identity a covered rule is never the first match. -/
theorem laneScan_single_skips
    (same : compiled.policy = policy) (single : lane.canonicalPath = none)
    (found : compiled.laneScan lane false facts = .matched decision) :
    decision.ruleIndex ≠ position := by
  rw [laneScan_single single, RuleScan.ofScan_eq_matched, compiled_rules same]
    at found
  obtain ⟨hit, first, rfl⟩ := found
  exact covered.precedes.firstMatch_skips (fun yes => covered.truth (by simp [yes])) first

/-- A rule covered by one at least as restrictive decides under no precedence. -/
theorem laneScan_skips {deniesOnly : Bool}
    (restrictive : restrictiveness rule.action ≤ restrictiveness earlier.action)
    (same : compiled.policy = policy)
    (found : compiled.laneScan lane deniesOnly facts = .matched decision) :
    decision.ruleIndex ≠ position := by
  cases deniesOnly with
  | true =>
    rw [laneScan_denies, RuleScan.ofScan_eq_matched, compiled_rules same] at found
    obtain ⟨hit, first, rfl⟩ := found
    refine covered.precedes.firstMatch_skips (fun yes => ?_) first
    have denies : rule.action = .deny := by
      by_contra other
      simp [within, other] at yes
    have deniesEarlier : earlier.action = .deny := by
      cases action : earlier.action <;> simp_all [restrictiveness]
    have certain : lane.truth facts (CompiledRule.new position rule) = .true := by
      simpa [within, denies] using yes
    simpa [within, deniesEarlier] using covered.truth (by simp [certain])
  | false =>
    cases canonical : lane.canonicalPath with
    | none => exact covered.laneScan_single_skips same canonical found
    | some identity =>
      rw [laneScan_alias canonical, RuleScan.ofScan_eq_matched,
        compiled_rules same] at found
      obtain ⟨hit, first, rfl⟩ := found
      rintro rfl
      obtain ⟨authored, listed, own, yes, sameAction, ahead⟩ := firstMatchBy_authored first
      obtain rfl : rule = authored := Option.some.inj (covered.precedes.listed.symm.trans listed)
      rw [own] at yes
      have certain : lane.truth facts (CompiledRule.new earlierPosition earlier) = .true :=
        covered.truth (by simp [yes])
      have fails : lane.truth facts (CompiledRule.new earlierPosition earlier) = .false := by
        rcases ahead_of_restrictive restrictive with alike | before
        · exact sameAction _ covered.precedes.before earlier covered.precedes.listedEarlier alike
        · exact ahead _ earlier covered.precedes.listedEarlier before
      rw [certain] at fails
      cases fails

end CoveredRule

theorem CoveredRoute.matchRoute_skips {aliasPaths : List String} {earlier route : RouteRule}
    (covered : CoveredRoute policy aliasPaths earlierPosition earlier position route)
    (same : compiled.policy = policy)
    (configured : lane.canonicalPath.isSome = true → lane.path ∈ aliasPaths) {selected : RouteRule}
    (found : compiled.matchRoute lane.method lane.path lane.canonicalPath lane.host
      lane.hostBindingRequired = some (position, selected)) : False := by
  obtain ⟨byPrefix, asks, first⟩ := matchRoute_selected found
  obtain ⟨listed, admitted, none⟩ := findIndexed_eq_some.mp first
  rw [same] at listed none
  obtain rfl : route = selected := Option.some.inj (covered.precedes.listed.symm.trans listed)
  have fails := none _ covered.precedes.before earlier covered.precedes.listedEarlier
  rw [selects_of_covers covered.covers covered.selected configured asks admitted] at fails
  cases fails

end Skips

section Never

variable [Externals] {policy : Policy} {compiled : CompiledPolicy} {aliasPaths : List String}
  {earlierPosition position : Nat} {kind : Lane} {earlier rule : Rule} {toolName : String}
  {route : RouteRule}

theorem Decides.judged {element : ElementRef} (listed : kind ∈ routeLanes)
    (decides : Decides compiled aliasPaths element kind) :
    ∃ lane facts reference, (compiled.judge lane facts).matched = some reference ∧
      element.reference? = some reference ∧
      (lane.hostBindingRequired = true → kind = .selectedUpstream) ∧
      (kind = .http → lane.canonicalPath = none) ∧
      (lane.canonicalPath.isSome = true → lane.path ∈ aliasPaths) := by
  cases decides with
  | renderedToolHttp => simp [routeLanes] at listed
  | sourceRequest => simp [routeLanes] at listed
  | tool => simp [routeLanes] at listed
  | rate => simp [routeLanes] at listed
  | http single unbound answered matched named =>
    obtain ⟨lane, resolved, judged⟩ := lane_of_matched answered matched
    refine ⟨lane, _, _, judged, named, ?_, ?_, ?_⟩
    · simp [resolved.bound, unbound]
    · exact fun _ => resolved.canonical.trans single
    · simp [resolved.canonical, single]
  | mcpAlias target requested configured answered matched named =>
    obtain ⟨lane, resolved, judged⟩ := lane_of_matched answered matched
    have valid := (decide_eq_ok.mp answered).1
    have path := Option.some.inj (resolved.path.symm.trans requested)
    refine ⟨lane, _, _, judged, named, ?_, nofun, fun _ => path ▸ configured⟩
    simp [resolved.bound, alias_unbound valid target]
  | selectedUpstream bound answered matched named =>
    obtain ⟨lane, resolved, judged⟩ := lane_of_matched answered matched
    have valid := (decide_eq_ok.mp answered).1
    refine ⟨lane, _, _, judged, named, fun _ => rfl, nofun, ?_⟩
    rw [resolved.canonical]
    obtain ⟨dispatch, carried, -⟩ := Option.bind_eq_some_iff.mp bound
    simp [target_of_dispatch valid carried, HttpTarget.canonicalPath?]

namespace CoveredRule

variable (covered : CoveredRule policy earlierPosition earlier position rule)

include covered

theorem never_rendered (same : compiled.policy = policy) :
    ¬ Decides compiled aliasPaths (ruleRef position rule) .renderedToolHttp := by
  intro decides
  cases decides with | renderedToolHttp rendered answered matched named =>
  cases named
  rcases evaluateTool_answers answered with none | ⟨_, _, other, -⟩ |
    ⟨method, path, principal, -, rfl⟩
  · rw [none] at matched
    cases matched
  · exact other rendered
  · obtain ⟨decision, found, index⟩ := scan_of_toolRuleAnswer rfl matched
    rw [scanWithDispatch_eq, RuleScan.ofScan_eq_matched, compiled_rules same] at found
    obtain ⟨hit, first, rfl⟩ := found
    exact covered.precedes.firstMatch_skips (fun yes => covered.httpTruth (by simp [yes])) first
      index

theorem never
    (restrictive : restrictiveness rule.action ≤ restrictiveness earlier.action)
    (same : compiled.policy = policy) (listed : kind ∈ httpRuleLanes) :
    ¬ Decides compiled aliasPaths (ruleRef position rule) kind := by
  intro decides
  by_cases ordinary : kind ∈ routeLanes
  · obtain ⟨lane, facts, reference, judged, named, -⟩ := decides.judged ordinary
    obtain rfl : .direct position = reference := by simpa using named
    obtain ⟨decision, found, index⟩ | ⟨-, _, _, -, ⟨⟩⟩ := judge_matched judged
    exact covered.laneScan_skips restrictive same found (RuleReference.direct.inj index)
  · cases decides with
    | http => simp [routeLanes] at ordinary
    | mcpAlias => simp [routeLanes] at ordinary
    | selectedUpstream => simp [routeLanes] at ordinary
    | tool => simp [httpRuleLanes] at listed
    | rate => simp [httpRuleLanes] at listed
    | renderedToolHttp rendered answered matched named =>
      have decides : Decides compiled aliasPaths (ruleRef position rule) .renderedToolHttp :=
        .renderedToolHttp rendered answered matched named
      exact covered.never_rendered same decides
    | sourceRequest answered named =>
      obtain ⟨decision, found, index⟩ := evaluateSourceRequest_denied answered
      refine covered.laneScan_skips restrictive same found ?_
      simpa [index, eq_comm] using named

theorem never_firstMatch
    (same : compiled.policy = policy) (listed : kind ∈ firstMatchHttpLanes) :
    ¬ Decides compiled aliasPaths (ruleRef position rule) kind := by
  simp only [firstMatchHttpLanes, List.mem_cons, List.not_mem_nil, or_false] at listed
  rcases listed with rfl | rfl
  · intro decides
    obtain ⟨lane, facts, reference, judged, named, unbound, single, -⟩ :=
      decides.judged (by simp [routeLanes])
    obtain rfl : .direct position = reference := by simpa using named
    obtain ⟨decision, found, index⟩ | ⟨-, _, _, -, ⟨⟩⟩ := judge_matched judged
    have free : lane.hostBindingRequired = false := by
      by_contra bound
      cases unbound (by simpa using bound)
    rw [free] at found
    exact covered.laneScan_single_skips same (single rfl) found (RuleReference.direct.inj index)
  · exact covered.never_rendered same

end CoveredRule

theorem Decides.toolScan (decides : Decides compiled aliasPaths (ruleRef position rule) .tool) :
    ∃ name principal facts hit, hit.ruleIndex = position ∧
      Foundation.firstMatch (fun compiledRule => compiledRule.toolTruth name principal facts)
        compiled.matcher.rules = .matched hit ∧
      ∃ entry, compiled.policy.tools[name]? = some entry ∧ entry.enabled = true ∧
        toolPrincipalMatches entry principal = true := by
  cases decides with | @tool context facts _ _ notRendered answered matched named =>
  cases named
  rcases evaluateTool_answers answered with none | ⟨name, principal, -, rfl⟩ |
    ⟨_, _, _, rendered, -⟩
  · rw [none] at matched
    cases matched
  · cases held : compiled.policy.tools[name]? with
    | none => simp [toolAnswer, held, ToolEvaluation.deny] at matched
    | some entry =>
      simp only [toolAnswer, held] at matched
      cases enabled : entry.enabled with
      | false => simp [enabled, ToolEvaluation.deny] at matched
      | true =>
        by_cases leaf : context.operation = .compositeLeaf
        · simp [enabled, leaf] at matched
        · cases admitted : toolPrincipalMatches entry principal with
          | false => simp [enabled, leaf, admitted, ToolEvaluation.deny] at matched
          | true =>
            simp only [enabled, leaf, admitted, Bool.not_true, Bool.false_eq_true, if_false]
              at matched
            obtain ⟨decision, found, index⟩ := scan_of_toolRuleAnswer (by split <;> rfl) matched
            rw [scanTool_eq, RuleScan.ofScan_eq_matched] at found
            obtain ⟨hit, first, rfl⟩ := found
            exact ⟨name, principal, facts, hit, index, first, entry, held, enabled, admitted⟩
  · exact absurd rendered notRendered

theorem CoveredToolRule.never
    (covered : CoveredToolRule policy earlierPosition earlier position rule toolName)
    (same : compiled.policy = policy) :
    ¬ Decides compiled aliasPaths (ruleRef position rule) .tool := by
  intro decides
  obtain ⟨name, principal, facts, hit, index, found, -⟩ := decides.toolScan
  rw [compiled_rules same] at found
  exact covered.precedes.firstMatch_skips (fun yes => covered.toolTruth (by simp [yes])) found index

theorem toolConflict_never {reason : String}
    (listed : policy.rules[position]? = some rule) (named : rule.toolName = some toolName)
    (conflict : toolConflict policy rule toolName = some reason) (same : compiled.policy = policy) :
    ¬ Decides compiled aliasPaths (ruleRef position rule) .tool := by
  intro decides
  obtain ⟨name, principal, facts, hit, rfl, found, entry, held, enabled, admitted⟩ :=
    decides.toolScan
  rw [compiled_rules same] at found
  obtain ⟨authored, listed', own, yes, -⟩ := firstMatch_authored found
  obtain rfl : rule = authored := Option.some.inj (listed.symm.trans listed')
  rw [own] at yes
  rw [same] at held
  rw [toolConflict_refuses named conflict held enabled admitted] at yes
  cases yes

theorem RuledRoute.never {rulePosition : Nat}
    (ruled : RuledRoute policy rulePosition rule position route) (same : compiled.policy = policy)
    (listed : kind ∈ routeLanes) (read : kind = .selectedUpstream → rule.action = .deny) :
    ¬ Decides compiled aliasPaths (routeRef position route) kind := by
  intro decides
  obtain ⟨lane, facts, reference, judged, named, bound, -⟩ := decides.judged listed
  obtain rfl : .route position = reference := by simpa using named
  obtain ⟨_, -, ⟨⟩⟩ | ⟨none, _, selected, found, ⟨⟩⟩ := judge_matched judged
  obtain ⟨byPrefix, asks, first⟩ := matchRoute_selected found
  obtain ⟨held, selects, -⟩ := findIndexed_eq_some.mp first
  rw [same] at held
  obtain rfl : route = selected := Option.some.inj (ruled.listed.symm.trans held)
  have certain : lane.truth facts (CompiledRule.new rulePosition rule) = .true :=
    ruled.truth asks selects
  have member : CompiledRule.new rulePosition rule ∈ compiled.matcher.rules := by
    rw [compiled_rules same]
    exact RuleMatcher.mem_rules.mpr ⟨_, _, ruled.listedRule, rfl⟩
  have fails : lane.truth facts (CompiledRule.new rulePosition rule) = .false := by
    cases required : lane.hostBindingRequired with
    | false =>
      rw [required] at none
      exact laneScan_noMatch.mp none _ member
    | true =>
      rw [required] at none
      exact laneScan_denies_noMatch.mp none _ member (read (bound required))
  rw [certain] at fails
  cases fails

theorem CoveredRoute.never {earlier : RouteRule}
    (covered : CoveredRoute policy aliasPaths earlierPosition earlier position route)
    (same : compiled.policy = policy) (listed : kind ∈ routeLanes) :
    ¬ Decides compiled aliasPaths (routeRef position route) kind := by
  intro decides
  obtain ⟨lane, facts, reference, judged, named, -, -, configured⟩ := decides.judged listed
  obtain rfl : .route position = reference := by simpa using named
  obtain ⟨_, -, ⟨⟩⟩ | ⟨-, _, selected, found, ⟨⟩⟩ := judge_matched judged
  exact covered.matchRoute_skips same configured found

theorem CoveredRate.never {earlier limit : RateLimitRule}
    (covered : CoveredRate policy earlierPosition earlier position limit)
    (same : compiled.policy = policy) :
    ¬ Decides compiled aliasPaths (rateRef position limit) .rate := by
  intro decides
  cases decides with | rate answered ordered named =>
  obtain ⟨principal, method, path, rule, absolute, found⟩ := selectRate_override answered
  obtain ⟨listed, governed, none⟩ := findIndexed_eq_some.mp found
  obtain rfl := Option.some.inj named
  rw [same] at listed none
  obtain rfl : limit = rule := Option.some.inj (covered.precedes.listed.symm.trans listed)
  have fails := none earlierPosition covered.precedes.before earlier covered.precedes.listedEarlier
  rw [rateCovers_sound covered.covers absolute governed] at fails
  cases fails

theorem Justified.never {finding : Finding}
    (justified : Justified policy aliasPaths finding) (proven : finding.proofBasis = .proven)
    (claimed : kind ∈ finding.neverDecidesIn) (same : compiled.policy = policy) :
    ¬ Decides compiled aliasPaths finding.element kind := by
  cases justified with
  | claimless anywhere => simp [anywhere] at claimed
  | unproven basis => exact absurd proven basis
  | defaultAllow => simp [defaultAllowFinding, Finding.detail] at claimed
  | globalShadow => simp [globalShadowFinding, Finding.detail] at claimed
  | broadRule => simp [broadRuleFinding, Finding.detail] at claimed
  | toolRefused listed named conflict =>
    obtain rfl : kind = .tool := by simpa [toolRefusedFinding, Finding.detail] using claimed
    exact toolConflict_never listed named conflict same
  | coveredRule covered restrictive => exact covered.never restrictive same claimed
  | shadowedRule covered => exact covered.never_firstMatch same claimed
  | coveredToolRule covered =>
    obtain rfl : kind = .tool := by simpa using claimed
    simpa using covered.never same
  | @ruledRoute _ _ rule _ ruled =>
    simp only [routeDecidedByRule_claims] at claimed ⊢
    by_cases denies : rule.action = .deny
    · exact ruled.never same (by simpa [denies] using claimed) fun _ => denies
    · have listed : kind = .http ∨ kind = .mcpAlias := by simpa [denies] using claimed
      refine ruled.never same ?_ ?_
      · rcases listed with rfl | rfl <;> simp [routeLanes]
      · rintro rfl
        simp at listed
  | coveredRoute covered =>
    simp only [routeDecidedEarlier_claims] at claimed ⊢
    exact covered.never same claimed
  | coveredRate covered =>
    obtain rfl : kind = .rate := by simpa using claimed
    simpa using covered.never same

end Never

/-- In every lane a proven finding of an analysis lists, the analyzed policy
decides no request by the element the finding names. -/
theorem analyze_neverDecides [Externals] {policy : Policy} {resources : AnalysisResources}
    {outcome : AnalysisOutcome} {finding : Finding} {lane : Lane}
    (analyzed : analyze policy resources = .ok outcome) (reported : finding ∈ outcome.findings)
    (proven : finding.proofBasis = .proven) (claimed : lane ∈ finding.neverDecidesIn)
    (compiled : CompiledPolicy) (same : compiled.policy = policy) :
    ¬ Decides compiled resources.mcpAliasPaths finding.element lane :=
  (analyze_justified analyzed finding reported).never proven claimed same

section Sample

attribute [local instance] inertExternals

/-- Every witness confirms its claim. -/
def confirming : Witnesses where
  confirmRule _ _ := .ok true
  confirmToolRule _ _ _ := .ok true
  confirmToolRefusal _ _ := .ok true
  confirmRouteDecidedEarlier _ _ := .ok true
  confirmRouteDecidedByRule _ := .ok true
  confirmRate _ _ := .ok true
  confirmBroad _ := .ok true
  confirmAllMethods _ := .ok true

/-- A lint that reports nothing. -/
def silentLint : Lint where
  run := .ok
  appends := by
    intro before after ran
    obtain rfl := Except.ok.inj ran
    exact ⟨[], by simp, by simp⟩

def quietResources (mcpAliasPaths : List String) : AnalysisResources where
  mcpAliasPaths
  expired _ := false
  witnesses := confirming
  lints :=
    { issuerlessRoleGrants := silentLint
      rateLaneLints := silentLint
      egressLints := silentLint
      crossResources := silentLint
      partialOverlaps := silentLint
      mcpAliasLane := silentLint
      selectedUpstreams := silentLint }

/-- A deny under a broader deny. -/
def coveredDenyPolicy : Policy :=
  { schemaVersion := "0.1.0"
    rules := [{ path := "/a/**", action := .deny }, { path := "/a/b", action := .deny }] }

theorem analyze_neverDecides_sample :
    ∃ outcome finding, analyze coveredDenyPolicy (quietResources ["/a/b"]) = .ok outcome ∧
      finding ∈ outcome.findings ∧ finding.code = .ruleUnreachable ∧
      finding.element = ruleRef 1 { path := "/a/b", action := .deny } ∧
      finding.proofBasis = .proven ∧ Lane.mcpAlias ∈ finding.neverDecidesIn ∧
      ¬ Decides (.assemble coveredDenyPolicy boundSnapshot) ["/a/b"]
        finding.element .mcpAlias := by
  have reported : ∃ outcome finding,
      analyze coveredDenyPolicy (quietResources ["/a/b"]) = .ok outcome ∧
        finding ∈ outcome.findings ∧ finding.code = .ruleUnreachable ∧
        finding.element = ruleRef 1 { path := "/a/b", action := .deny } ∧
        finding.proofBasis = .proven ∧ Lane.mcpAlias ∈ finding.neverDecidesIn :=
    ⟨_, _, rfl, List.mem_cons_self .., rfl, rfl, rfl, by decide⟩
  obtain ⟨outcome, finding, analyzed, member, code, element, proven, claimed⟩ := reported
  exact ⟨outcome, finding, analyzed, member, code, element, proven, claimed,
    analyze_neverDecides analyzed member proven claimed _ rfl⟩

end Sample

end GreenGateway.Analysis
