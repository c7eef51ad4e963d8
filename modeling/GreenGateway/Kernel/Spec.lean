import GreenGateway.Kernel.Lanes
import GreenGateway.Rbac.Refinement

/-! What a decision rests on: the facts a context resolves to, and the two ways
an evaluation that is not an error comes about. -/

namespace GreenGateway.Kernel

open Foundation Rbac RuleMatcher

namespace PolicyEvaluationContext

/-- The bound host of a selected virtual upstream. -/
def routeHost? (context : PolicyEvaluationContext) : Option String :=
  context.dispatch.bind DispatchFacts.routeHost

end PolicyEvaluationContext

/-- A context whose facts are all there, and the lane they resolve to. -/
structure Resolves [Externals] (compiled : CompiledPolicy) (context : PolicyEvaluationContext)
    (facts : PolicyFacts) (lane : Lane) : Prop where
  supplied : missingFact context = none
  judged : compiled.judgedPrincipal context.principal facts = .ok lane.principal
  method : context.method = some lane.method
  path : context.path = some lane.path
  host : compiled.effectiveHost context.routeHost? context.requestHost = .ok lane.host
  dispatch :
    CompiledPolicy.dispatchContextOf context.target context.dispatch = .ok lane.dispatchContext
  canonical : lane.canonicalPath = context.target.canonicalPath?
  bound : lane.hostBindingRequired = context.routeHost?.isSome

variable (limitation : Limitation)

@[simp] theorem Evaluation.indeterminate_complete :
    (Evaluation.indeterminate limitation).complete = false := rfl

@[simp] theorem Evaluation.indeterminate_effect :
    (Evaluation.indeterminate limitation).effect = .block := rfl

namespace Lane

/-- The path identities direct rules are matched on. -/
def paths (lane : Lane) : List String :=
  match lane.canonicalPath with
  | some canonical => [canonical, lane.path]
  | none => [lane.path]

theorem path_mem_paths (lane : Lane) : lane.path ∈ lane.paths := by
  unfold paths
  cases lane.canonicalPath <;> simp

/-- Whether a direct rule matches the lane's request. -/
def truth [Externals] (lane : Lane) (facts : PolicyFacts) (rule : CompiledRule) : Truth :=
  RuleMatcher.pathsTruth lane.method lane.principal lane.dispatchContext facts lane.paths rule

theorem truth_single [Externals] {lane : Lane} (single : lane.canonicalPath = none)
    (facts : PolicyFacts) (rule : CompiledRule) :
    lane.truth facts rule =
      rule.httpTruth lane.method lane.path lane.principal lane.dispatchContext facts := by
  simp [truth, paths, single]

end Lane

namespace CompiledPolicy

variable [Externals] {compiled : CompiledPolicy} {context : PolicyEvaluationContext}
  {facts other : PolicyFacts} {lane : Lane} {evaluation : Evaluation} {decision : RuleDecision}

theorem resolve_eq_lane :
    compiled.resolve context facts = .ok (.ok lane) ↔ Resolves compiled context facts lane := by
  constructor
  · intro resolved
    simp only [resolve] at resolved
    cases supplied : missingFact context with
    | some limitation => simp [supplied] at resolved
    | none =>
      simp only [supplied] at resolved
      cases judged : compiled.judgedPrincipal context.principal facts with
      | error limitation => simp [judged] at resolved
      | ok principal =>
        simp only [judged] at resolved
        split at resolved
        · rename_i method path methodEq pathEq
          cases host : compiled.effectiveHost context.routeHost? context.requestHost with
          | error limitation =>
            simp only [PolicyEvaluationContext.routeHost?] at host
            simp [host] at resolved
          | ok laneHost =>
            have host' := host
            simp only [PolicyEvaluationContext.routeHost?] at host'
            simp only [host'] at resolved
            cases dispatch : dispatchContextOf context.target context.dispatch with
            | error problem => simp [dispatch] at resolved
            | ok dispatchContext =>
              simp only [dispatch] at resolved
              obtain rfl := Except.ok.inj (Except.ok.inj resolved)
              exact ⟨supplied, judged, methodEq, pathEq, host, dispatch, rfl, rfl⟩
        · cases resolved
  · intro resolved
    obtain ⟨supplied, judged, method, path, host, dispatch, canonical, bound⟩ := resolved
    obtain ⟨laneMethod, lanePath, canonicalPath, principal, laneHost, required, dispatchContext⟩ :=
      lane
    simp only [PolicyEvaluationContext.routeHost?] at *
    subst canonical bound
    simp only [resolve, supplied, judged, method, path, host, dispatch]

/-- An evaluation comes from a context and facts within their bounds, either as
the report of a missing fact or as the judgement of the lane they resolve to. -/
theorem decide_eq_ok :
    compiled.decide context facts = .ok evaluation ↔
      context.validate compiled.snapshot = .ok () ∧ validateFacts facts = .ok () ∧
        ((∃ limitation, compiled.resolve context facts = .ok (.error limitation) ∧
            evaluation = .indeterminate limitation) ∨
          ∃ lane, Resolves compiled context facts lane ∧
            evaluation = compiled.judge lane facts) := by
  simp only [decide, bind_eq_ok, unit_exists_ok, ← resolve_eq_lane]
  refine and_congr_right fun _ => and_congr_right fun _ => ?_
  constructor
  · rintro ⟨resolved, resolvedEq, answer⟩
    cases resolved with
    | error limitation => exact Or.inl ⟨limitation, resolvedEq, (Except.ok.inj answer).symm⟩
    | ok lane => exact Or.inr ⟨lane, resolvedEq, (Except.ok.inj answer).symm⟩
  · rintro (⟨limitation, resolvedEq, rfl⟩ | ⟨lane, resolvedEq, rfl⟩)
    · exact ⟨_, resolvedEq, rfl⟩
    · exact ⟨_, resolvedEq, rfl⟩

theorem lane_of_decide (answered : compiled.decide context facts = .ok evaluation)
    (settled : evaluation.complete = true ∨ evaluation.effect ≠ .block) :
    ∃ lane, Resolves compiled context facts lane ∧ evaluation = compiled.judge lane facts := by
  obtain ⟨-, -, ⟨limitation, -, rfl⟩ | judged⟩ := decide_eq_ok.mp answered
  · simp at settled
  · exact judged

/-- Over one identity the first match in source order decides. -/
theorem laneScan_single (single : lane.canonicalPath = none) :
    compiled.laneScan lane false facts =
      .ofScan (Foundation.firstMatch (lane.truth facts) compiled.matcher.rules) := by
  have truth : lane.truth facts = fun rule =>
      rule.httpTruth lane.method lane.path lane.principal lane.dispatchContext facts :=
    funext (Lane.truth_single single facts)
  rw [truth]
  simp [laneScan, matchDirect, single, scanWithDispatch_eq]

/-- Over an alias pair the most restrictive match decides. -/
theorem laneScan_alias {canonical : String} (alias_ : lane.canonicalPath = some canonical) :
    compiled.laneScan lane false facts =
      .ofScan (firstMatchBy CompiledRule.action (lane.truth facts) compiled.matcher.rules
        [.deny, .shadow, .allow]) := by
  have paths : lane.paths = [canonical, lane.path] := by simp [Lane.paths, alias_]
  have truth : lane.truth facts = RuleMatcher.pathsTruth lane.method lane.principal
      lane.dispatchContext facts [canonical, lane.path] := by
    funext rule
    simp [Lane.truth, paths]
  rw [truth]
  simp [laneScan, matchDirect, alias_, RuleMatcher.scanEquivalentPathsWithDispatch,
    scanMatchingPathsByAction_eq]

theorem laneScan_denies :
    compiled.laneScan lane true facts =
      .ofScan (Foundation.firstMatch (within CompiledRule.action (lane.truth facts) .deny)
        compiled.matcher.rules) := by
  have truth : lane.truth facts = RuleMatcher.pathsTruth lane.method lane.principal
      lane.dispatchContext facts lane.paths := rfl
  rw [truth]
  cases canonical : lane.canonicalPath with
  | none =>
    simp [laneScan, matchDirect, canonical, RuleMatcher.scanDeniesWithDispatch,
      scanMatchingPathsByAction_eq, firstMatchBy, Lane.paths]
  | some identity =>
    simp [laneScan, matchDirect, canonical, RuleMatcher.scanEquivalentPathsWithDispatch,
      scanMatchingPathsByAction_eq, firstMatchBy, Lane.paths]

theorem laneScan_denies_action
    (found : compiled.laneScan lane true facts = .matched decision) : decision.action = .deny := by
  rw [laneScan_denies, RuleScan.ofScan_eq_matched] at found
  obtain ⟨rule, hit, rfl⟩ := found
  obtain ⟨_, _, _, yes, _⟩ := firstMatch_eq_matched.mp hit
  by_contra other
  simp [within, other] at yes

theorem laneScan_matched {deniesOnly : Bool}
    (found : compiled.laneScan lane deniesOnly facts = .matched decision) :
    ∃ rule ∈ compiled.matcher.rules, decision = ⟨rule.ruleIndex, rule.action⟩ ∧
      lane.truth facts rule = .true := by
  have firstOf {truth : CompiledRule → Truth} {hit : CompiledRule}
      (first : Foundation.firstMatch truth compiled.matcher.rules = .matched hit) :
      hit ∈ compiled.matcher.rules ∧ truth hit = .true := by
    obtain ⟨front, back, same, yes, -⟩ := firstMatch_eq_matched.mp first
    exact ⟨by simp [same], yes⟩
  cases deniesOnly with
  | true =>
    have denies := laneScan_denies_action found
    rw [laneScan_denies, RuleScan.ofScan_eq_matched] at found
    obtain ⟨rule, hit, rfl⟩ := found
    obtain ⟨member, yes⟩ := firstOf hit
    have action : rule.action = .deny := denies
    exact ⟨rule, member, rfl, by simpa [within, action] using yes⟩
  | false =>
    cases canonical : lane.canonicalPath with
    | none =>
      rw [laneScan_single canonical, RuleScan.ofScan_eq_matched] at found
      obtain ⟨rule, hit, rfl⟩ := found
      obtain ⟨member, yes⟩ := firstOf hit
      exact ⟨rule, member, rfl, yes⟩
    | some identity =>
      rw [laneScan_alias canonical, RuleScan.ofScan_eq_matched] at found
      obtain ⟨rule, hit, rfl⟩ := found
      obtain ⟨member, yes, -⟩ := mem_of_firstMatchBy hit
      exact ⟨rule, member, rfl, yes⟩

theorem laneScan_noMatch :
    compiled.laneScan lane false facts = .noMatch ↔
      ∀ rule ∈ compiled.matcher.rules, lane.truth facts rule = .false := by
  cases canonical : lane.canonicalPath with
  | none =>
    simp only [laneScan_single canonical, RuleScan.ofScan_eq_noMatch, firstMatch_eq_noMatch]
  | some identity =>
    simp only [laneScan_alias canonical, RuleScan.ofScan_eq_noMatch, firstMatchBy_eq_noMatch,
      RuleAction.mem_restrictions, forall_true_left]

theorem laneScan_denies_noMatch :
    compiled.laneScan lane true facts = .noMatch ↔
      ∀ rule ∈ compiled.matcher.rules, rule.action = .deny → lane.truth facts rule = .false := by
  simp [laneScan_denies, RuleScan.ofScan_eq_noMatch, firstMatch_eq_noMatch, within]

/-- Facts under which every rule answers alike scan alike. -/
theorem laneScan_congr
    (same : ∀ rule ∈ compiled.matcher.rules, lane.truth other rule = lane.truth facts rule)
    (deniesOnly : Bool) :
    compiled.laneScan lane deniesOnly other = compiled.laneScan lane deniesOnly facts := by
  cases deniesOnly with
  | true =>
    rw [laneScan_denies, laneScan_denies]
    congr 1
    exact firstMatch_congr fun rule member => by simp only [within, same rule member]
  | false =>
    cases canonical : lane.canonicalPath with
    | none =>
      rw [laneScan_single canonical, laneScan_single canonical, firstMatch_congr same]
    | some identity =>
      rw [laneScan_alias canonical, laneScan_alias canonical, firstMatchBy_congr same]

section Judge

variable {ruleIndex : Nat} {decision : RuleDecision}

theorem judge_undetermined (open_ : compiled.laneScan lane false facts = .undetermined ruleIndex) :
    compiled.judge lane facts = .indeterminate .missingMatcherFact := by
  simp only [judge, open_]

/-- Without a selected upstream the first direct match decides, or the routes. -/
theorem judge_unbound_matched (unbound : lane.hostBindingRequired = false)
    (found : compiled.laneScan lane false facts = .matched decision) :
    compiled.judge lane facts = directAnswer decision none := by
  simp [judge, judge.afterFirst, found, unbound, observationOf, answerFrom]

theorem judge_unbound_noMatch (unbound : lane.hostBindingRequired = false)
    (none : compiled.laneScan lane false facts = .noMatch) :
    compiled.judge lane facts = compiled.routedAnswer lane .none := by
  simp [judge, judge.afterFirst, none, unbound, observationOf, answerFrom]

/-- The first match of a bound lane, decided or not. -/
def firstDirect (compiled : CompiledPolicy) (lane : Lane) (facts : PolicyFacts) :
    Option RuleDecision :=
  match compiled.laneScan lane false facts with
  | .matched decision => some decision
  | _ => none

section

variable (bound : lane.hostBindingRequired = true)

include bound

/-- A selected upstream narrows the direct rules to denies. -/
theorem judge_bound_denied (found : compiled.laneScan lane true facts = .matched decision) :
    (compiled.judge lane facts).effect = .block := by
  have action := laneScan_denies_action found
  cases scanned : compiled.laneScan lane false facts <;>
    simp [judge, judge.afterFirst, scanned, found, bound, answerFrom, directAnswer, action,
      Evaluation.completed]

theorem judge_bound_undetermined
    (open_ : compiled.laneScan lane true facts = .undetermined ruleIndex) :
    compiled.judge lane facts = .indeterminate .missingMatcherFact := by
  cases scanned : compiled.laneScan lane false facts <;>
    simp [judge, judge.afterFirst, scanned, open_, bound]

theorem judge_bound_noMatch
    (determined : ∀ ruleIndex, compiled.laneScan lane false facts ≠ .undetermined ruleIndex)
    (none : compiled.laneScan lane true facts = .noMatch) :
    compiled.judge lane facts =
      compiled.routedAnswer lane (observationOf true (compiled.firstDirect lane facts)) := by
  unfold firstDirect
  cases scanned : compiled.laneScan lane false facts with
  | undetermined index => exact absurd scanned (determined index)
  | noMatch => simp [judge, judge.afterFirst, scanned, none, bound, answerFrom]
  | matched decision => simp [judge, judge.afterFirst, scanned, none, bound, answerFrom]

theorem judge_bound_matched
    (determined : ∀ ruleIndex, compiled.laneScan lane false facts ≠ .undetermined ruleIndex)
    (found : compiled.laneScan lane true facts = .matched decision) :
    compiled.judge lane facts =
      directAnswer decision (observationOf true (compiled.firstDirect lane facts)) := by
  unfold firstDirect
  cases scanned : compiled.laneScan lane false facts with
  | undetermined index => exact absurd scanned (determined index)
  | noMatch => simp [judge, judge.afterFirst, scanned, found, bound, answerFrom]
  | matched decision => simp [judge, judge.afterFirst, scanned, found, bound, answerFrom]

end

/-- A lane is answered by the scan that decides it, which a selected upstream
narrows to denies, or by the routes, or not at all. -/
theorem judge_cases (compiled : CompiledPolicy) (lane : Lane) (facts : PolicyFacts) :
    compiled.judge lane facts = .indeterminate .missingMatcherFact ∨
      (∃ decision observation,
        compiled.laneScan lane lane.hostBindingRequired facts = .matched decision ∧
          compiled.judge lane facts = directAnswer decision observation) ∨
      ∃ observation, compiled.laneScan lane lane.hostBindingRequired facts = .noMatch ∧
        compiled.judge lane facts = compiled.routedAnswer lane observation := by
  by_cases determined : ∀ ruleIndex,
    compiled.laneScan lane false facts ≠ .undetermined ruleIndex
  · cases bound : lane.hostBindingRequired with
    | false =>
      cases scanned : compiled.laneScan lane false facts with
      | undetermined index => exact absurd scanned (determined index)
      | matched decision =>
        exact Or.inr (Or.inl ⟨decision, none, rfl, judge_unbound_matched bound scanned⟩)
      | noMatch => exact Or.inr (Or.inr ⟨none, rfl, judge_unbound_noMatch bound scanned⟩)
    | true =>
      cases scanned : compiled.laneScan lane true facts with
      | undetermined index => exact Or.inl (judge_bound_undetermined bound scanned)
      | matched decision =>
        exact Or.inr (Or.inl ⟨decision, _, rfl, judge_bound_matched bound determined scanned⟩)
      | noMatch => exact Or.inr (Or.inr ⟨_, rfl, judge_bound_noMatch bound determined scanned⟩)
  · obtain ⟨ruleIndex, open_⟩ := not_forall.mp determined
    exact Or.inl (judge_undetermined (not_not.mp open_))

end Judge

section OtherLanes

theorem evaluateTool_answers {context : ToolEvaluationContext} {evaluation : ToolEvaluation}
    (answered : compiled.evaluateToolWithFacts context facts = .ok evaluation) :
    evaluation.matched = none ∨
      (∃ name principal, context.operation ≠ .renderedHttp ∧
        evaluation = compiled.toolAnswer context.operation name principal facts) ∨
      ∃ method path principal, context.operation = .renderedHttp ∧
        evaluation = toolRuleAnswer { operation := context.operation, reason := .noHttpRule }
          (compiled.matcher.scanWithDispatch method principal .unknown facts path) := by
  simp only [evaluateToolWithFacts, bind_eq_ok, unit_exists_ok] at answered
  obtain ⟨-, -, answered⟩ := answered
  cases judged : compiled.toolPrincipal context facts with
  | error limitation =>
    rw [judged] at answered
    exact Or.inl (by cases answered; rfl)
  | ok principal =>
    simp only [judged] at answered
    cases missing : renderedMissing context with
    | some limitation =>
      rw [missing] at answered
      exact Or.inl (by cases answered; rfl)
    | none =>
      simp only [missing] at answered
      cases named : context.toolName with
      | none => simp [named] at answered
      | some name =>
        simp only [named] at answered
        by_cases rendered : context.operation = .renderedHttp
        · simp only [rendered, if_true] at answered
          split at answered
          · rename_i method path _ _
            exact Or.inr (Or.inr ⟨method, path, principal, rendered, by
              rw [rendered]
              exact (Except.ok.inj answered).symm⟩)
          · cases answered
        · simp only [rendered, if_false] at answered
          exact Or.inr (Or.inl ⟨name, principal, rendered, (Except.ok.inj answered).symm⟩)

/-- The lane an enum-source refresh request is judged in: an anonymous,
contextless `GET` that reads denies only. -/
def sourceLane (path : String) : Lane :=
  { method := "GET"
    path
    canonicalPath := none
    principal := none
    host := none
    hostBindingRequired := true
    dispatchContext := .contextless }

variable {index : Nat}

theorem matchDirect_source (path : String) :
    compiled.matchDirect "GET" path none none .contextless true uncapturedFacts =
      compiled.laneScan (sourceLane path) true uncapturedFacts :=
  rfl

theorem evaluateSourceRequest_denied {context : SourceRequestContext}
    (answered : compiled.evaluateSourceRequest context = .ok (.denied index)) :
    ∃ decision,
      compiled.laneScan (sourceLane context.path) true uncapturedFacts = .matched decision ∧
        decision.ruleIndex = index := by
  simp only [evaluateSourceRequest, bind_eq_ok, unit_exists_ok] at answered
  obtain ⟨-, answered⟩ := answered
  rw [matchDirect_source] at answered
  split at answered
  · cases answered
  · cases scanned : compiled.laneScan (sourceLane context.path) true uncapturedFacts with
    | noMatch => simp [scanned] at answered
    | undetermined open_ => simp [scanned] at answered
    | matched decision => exact ⟨decision, rfl, by simpa [scanned] using answered⟩

/-- A validated request path is absolute. -/
theorem path_absolute {path : String} {expected : ResourceSnapshot}
    (valid : context.validate expected = .ok ()) (requested : context.path = some path) :
    Text.startsWith path "/" = true := by
  simp only [PolicyEvaluationContext.validate, bind_eq_ok, unit_exists_ok, checkSome_eq_ok]
    at valid
  obtain ⟨-, -, checked, -⟩ := valid
  have separated := checked path requested
  simp only [validatePath, bind_eq_ok, unit_exists_ok, refuse_eq_ok, Bool.or_eq_false_iff,
    Bool.not_eq_false'] at separated
  exact separated.2.1.1.1

/-- The override a selection names is the first that governs the request. -/
theorem selectRate_override {limit : RateLimit}
    (answered : compiled.selectRateLaneWithFacts context facts = .ok (.override index limit)) :
    ∃ principal method path rule, Text.startsWith path "/" = true ∧
      findIndexed (rateRuleMatches principal method path) compiled.policy.rateLimits =
        some (index, rule) := by
  simp only [selectRateLaneWithFacts, bind_eq_ok, unit_exists_ok] at answered
  obtain ⟨valid, -, answered⟩ := answered
  split at answered
  · cases answered
  · split at answered
    · rename_i method path _ requested
      split at answered
      · cases answered
      · cases answered
      · cases answered
      · rename_i principal _
        split at answered
        · rename_i selected rule found
          obtain ⟨rfl, -⟩ : selected = index ∧ _ := by simpa using answered
          exact ⟨principal, method, path, rule, path_absolute valid requested, found⟩
        · cases answered
    · cases answered

end OtherLanes

end CompiledPolicy

end GreenGateway.Kernel
