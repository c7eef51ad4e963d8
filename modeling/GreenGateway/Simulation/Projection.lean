import GreenGateway.Kernel.Comparison

/-! The enforce-all-shadow projection: every shadow treated as enforcing. What it
allows the policy allows without an observation, and what the policy blocks it
blocks. -/

namespace GreenGateway.Simulation

open Foundation Rbac Kernel CompiledPolicy RuleMatcher CompiledPolicy RuleScan

/-- A rule with its shadow made a deny. -/
def enforceRule (rule : Rule) : Rule :=
  { rule with action := if rule.action = .shadow then .deny else rule.action }

/-- A route keeps its own override, now enforcing. -/
def enforceRoute (route : RouteRule) : RouteRule :=
  { route with
    enforcementMode := if route.enforcementMode.isSome then some .enforce else none }

/-- `policy` with every shadow made enforcing. -/
def enforceAllShadow (policy : Policy) : Policy :=
  { policy with
    enforcementMode := .enforce
    routes := policy.routes.map enforceRoute
    rules := policy.rules.map enforceRule }

inductive Projection where
  | asAuthored
  | enforceAllShadow
  deriving DecidableEq, Repr

def Projection.apply (projection : Projection) (policy : Policy) : Policy :=
  match projection with
  | .asAuthored => policy
  | .enforceAllShadow => Simulation.enforceAllShadow policy

/-- The same compiled rule, with its shadow made a deny. -/
def enforceCompiled (rule : CompiledRule) : CompiledRule :=
  { rule with action := if rule.action = .shadow then .deny else rule.action }

variable {rule : CompiledRule} {authored projected : Evaluation}

@[simp] theorem enforceCompiled_ruleIndex (rule : CompiledRule) :
    (enforceCompiled rule).ruleIndex = rule.ruleIndex := rfl

theorem enforceCompiled_action_eq_deny :
    (enforceCompiled rule).action = .deny ↔ rule.action ≠ .allow := by
  cases action : rule.action <;> simp [enforceCompiled, action]

theorem enforceCompiled_action_eq_allow :
    (enforceCompiled rule).action = .allow ↔ rule.action = .allow := by
  cases action : rule.action <;> simp [enforceCompiled, action]

theorem enforceCompiled_action_ne_shadow (rule : CompiledRule) :
    (enforceCompiled rule).action ≠ .shadow := by
  cases action : rule.action <;> simp [enforceCompiled, action]

/-- A scan that finds nothing but allow rules is the same scan once enforced. -/
theorem ofScan_map_enforceCompiled {scan : Scan CompiledRule}
    (allows : ∀ rule, scan = .matched rule → rule.action = .allow) :
    ofScan (scan.map enforceCompiled) = ofScan scan := by
  cases scan with
  | noMatch => rfl
  | undetermined rule => rfl
  | matched rule => simp [Scan.map, ofScan, enforceCompiled, allows rule rfl]

/-- One policy's answer and the projection's answer to the same question. -/
structure WorstCase (authored projected : Evaluation) : Prop where
  neverObserves : projected.effect ≠ .observe
  allowed : projected.effect = .allow → authored.effect = .allow ∧ authored.observation = none
  blocked : authored.effect = .block → projected.effect = .block

/-- What the projection blocks needs no proof of its own. -/
theorem WorstCase.of_allowed (neverObserves : projected.effect ≠ .observe)
    (allowed : projected.effect = .allow →
      authored.effect = .allow ∧ authored.observation = none) :
    WorstCase authored projected := by
  refine ⟨neverObserves, allowed, fun blocked => ?_⟩
  cases effect : projected.effect with
  | allow =>
    have passed := (allowed effect).1
    rw [blocked] at passed
    cases passed
  | observe => exact absurd effect neverObserves
  | block => rfl

theorem WorstCase.of_block (blocks : projected.effect = .block) : WorstCase authored projected :=
  .of_allowed (by simp [blocks]) (by simp [blocks])

/-- A tool answer and the projection's answer to the same question. -/
structure ToolWorstCase (authored projected : ToolEvaluation) : Prop where
  neverObserves : projected.effect ≠ .observe
  allowed : projected.effect = .allow → authored.effect = .allow
  blocked : authored.effect = .block → projected.effect = .block

/-- A first-match scan of tool or rendered rules, enforced, on top of an answer
that so far allows. -/
theorem toolRuleAnswer_worstCase {result : ToolEvaluation} (allows : result.effect = .allow)
    (scan : Scan CompiledRule) :
    ToolWorstCase (toolRuleAnswer result (.ofScan scan))
      (toolRuleAnswer result (.ofScan (scan.map enforceCompiled))) := by
  cases scan with
  | noMatch =>
    constructor <;> simp [toolRuleAnswer, Scan.map, ofScan, allows]
  | undetermined rule =>
    constructor <;> simp [toolRuleAnswer, Scan.map, ofScan,
      ToolEvaluation.incomplete]
  | matched rule =>
    cases preview : result.operation.preview <;> cases action : rule.action <;>
      constructor <;>
      simp [toolRuleAnswer, Scan.map, ofScan, enforceCompiled, action,
        preview, allows, ToolEvaluation.deny]

section Projected

variable [Externals] {base projected : CompiledPolicy} {lane : Lane} {facts : PolicyFacts}

theorem projected_rules (projection : projected.policy = enforceAllShadow base.policy) :
    projected.matcher.rules = base.matcher.rules.map enforceCompiled := by
  rw [projected.matcher_eq, base.matcher_eq, projection]
  apply List.ext_getElem?
  intro index
  simp only [rules_getElem?, enforceAllShadow, List.getElem?_map, Option.map_map]
  rfl

@[simp] theorem truth_enforceCompiled (rule : CompiledRule) :
    lane.truth facts (enforceCompiled rule) = lane.truth facts rule := rfl

variable (projection : projected.policy = enforceAllShadow base.policy)

include projection

theorem projected_denies_noMatch :
    projected.laneScan lane true facts = .noMatch ↔
      ∀ rule ∈ base.matcher.rules, rule.action ≠ .allow → lane.truth facts rule = .false := by
  rw [laneScan_denies_noMatch, projected_rules projection]
  simp [enforceCompiled_action_eq_deny]

/-- The projection finds nothing exactly when the policy finds nothing. -/
theorem projected_noMatch :
    projected.laneScan lane false facts = .noMatch ↔ base.laneScan lane false facts = .noMatch := by
  simp [laneScan_noMatch, projected_rules projection]

theorem projected_quiet
    (quiet : ∀ rule ∈ base.matcher.rules, rule.action ≠ .allow → lane.truth facts rule = .false) :
    projected.laneScan lane false facts = base.laneScan lane false facts := by
  have allows {rule : CompiledRule} (member : rule ∈ base.matcher.rules)
      (yes : lane.truth facts rule = .true) : rule.action = .allow := by
    by_contra other
    rw [quiet rule member other] at yes
    cases yes
  cases canonical : lane.canonicalPath with
  | none =>
    rw [laneScan_single canonical, laneScan_single canonical,
      projected_rules projection, firstMatch_map]
    refine ofScan_map_enforceCompiled fun rule found => ?_
    obtain ⟨front, back, same, yes, -⟩ := firstMatch_eq_matched.mp found
    exact allows (by simp [same]) yes
  | some identity =>
    rw [laneScan_alias canonical, laneScan_alias canonical, projected_rules projection]
    -- the denies and shadows of both rulebases fail, so only the allow class is left
    have none (kind : RuleAction) (other : kind ≠ .allow) :
        Foundation.firstMatch (within CompiledRule.action (lane.truth facts) kind)
          base.matcher.rules = .noMatch := by
      refine firstMatch_eq_noMatch.mpr fun rule member => ?_
      simp only [within, ite_eq_right_iff]
      exact fun own => quiet rule member (own ▸ other)
    have noneProjected (kind : RuleAction) (other : kind ≠ .allow) :
        Foundation.firstMatch (within CompiledRule.action (lane.truth facts) kind)
          (base.matcher.rules.map enforceCompiled) = .noMatch := by
      refine firstMatch_eq_noMatch.mpr fun rule member => ?_
      obtain ⟨original, listed, rfl⟩ := List.mem_map.mp member
      simp only [within, ite_eq_right_iff, truth_enforceCompiled]
      intro own
      refine quiet original listed fun allow => other ?_
      rw [← own, enforceCompiled_action_eq_allow]
      exact allow
    have within_enforced (rule : CompiledRule) :
        within CompiledRule.action (lane.truth facts) .allow (enforceCompiled rule) =
          within CompiledRule.action (lane.truth facts) .allow rule := by
      simp only [within, enforceCompiled_action_eq_allow, truth_enforceCompiled]
    simp only [firstMatchBy, none .deny (by simp), none .shadow (by simp),
      noneProjected .deny (by simp), noneProjected .shadow (by simp), Scan.noMatch_orElse,
      Scan.orElse_noMatch, firstMatch_map, within_enforced]
    refine ofScan_map_enforceCompiled fun rule found => ?_
    obtain ⟨_, _, _, yes, -⟩ := firstMatch_eq_matched.mp found
    by_contra other
    simp [within, other] at yes

theorem projected_allows {ruleIndex : Nat}
    (found : projected.laneScan lane false facts = .matched ⟨ruleIndex, .allow⟩) :
    base.laneScan lane false facts = .matched ⟨ruleIndex, .allow⟩ := by
  cases canonical : lane.canonicalPath with
  | none =>
    rw [laneScan_single canonical, projected_rules projection, firstMatch_map,
      ofScan_eq_matched] at found
    rw [laneScan_single canonical]
    obtain ⟨rule, hit, same⟩ := found
    simp only [truth_enforceCompiled] at hit
    cases scanned : Foundation.firstMatch (fun rule => lane.truth facts rule)
      base.matcher.rules with
    | noMatch => simp [scanned, Scan.map] at hit
    | undetermined other => simp [scanned, Scan.map] at hit
    | matched original =>
      obtain rfl : enforceCompiled original = rule := by simpa [scanned, Scan.map] using hit
      obtain ⟨rfl, allow⟩ := (RuleDecision.mk.injEq ..).mp same
      have action := enforceCompiled_action_eq_allow.mp allow.symm
      simp [ofScan, action]
  | some identity =>
    rw [← found]
    refine (projected_quiet projection ?_).symm
    -- an allow is only reached once no deny and no shadow matches
    rw [← projected_denies_noMatch projection]
    rw [laneScan_alias canonical] at found
    rw [laneScan_denies]
    simp only [firstMatchBy] at found
    cases scanned : Foundation.firstMatch (within CompiledRule.action (lane.truth facts) .deny)
      projected.matcher.rules with
    | noMatch => rfl
    | undetermined rule => simp [scanned, ofScan] at found
    | matched rule =>
      obtain ⟨_, _, _, yes, -⟩ := firstMatch_eq_matched.mp scanned
      simp only [scanned, Scan.matched_orElse, ofScan, matched.injEq,
        RuleDecision.mk.injEq] at found
      simp [within, found.2] at yes

theorem projected_matchRoute (method path : String) (canonicalPath host : Option String)
    (required : Bool) :
    projected.matchRoute method path canonicalPath host required =
      (base.matchRoute method path canonicalPath host required).map fun hit =>
        (hit.1, enforceRoute hit.2) := by
  have routes : projected.policy.routes = base.policy.routes.map enforceRoute := by
    rw [projection]
    rfl
  unfold matchRoute
  cases canonicalPath with
  | none =>
    simp only [routes, findIndexed_map]
    rfl
  | some canonical =>
    simp only [routes, findIndexed_map]
    rw [Option.map_or]
    rfl

/-- No shadow mode is left to soften a refusal, and an allow needs none. -/
theorem projected_routedAnswer (observation observation' : Option RuleReference) :
    (projected.routedAnswer lane observation).effect ≠ .observe ∧
      ((projected.routedAnswer lane observation).effect = .allow ↔
        (base.routedAnswer lane observation').effect = .allow) ∧
      (base.routedAnswer lane observation').observation = observation' := by
  simp only [routedAnswer, projected_matchRoute projection]
  cases base.matchRoute lane.method lane.path lane.canonicalPath lane.host
    lane.hostBindingRequired with
  | none =>
    simp only [Option.map_none, defaultAnswer, projection, enforceAllShadow]
    split
    · simp [Evaluation.completed]
    · cases base.policy.defaultAction <;> simp [Evaluation.completed, effect]
      split <;> simp
  | some hit =>
    obtain ⟨index, route⟩ := hit
    have permission (principal : Principal) :
        projected.policy.principalHasPermission principal route.permission =
          base.policy.principalHasPermission principal route.permission := by
      rw [projection]
      rfl
    have mode : (enforceRoute route).enforcementMode.getD projected.policy.enforcementMode =
        .enforce := by
      rw [projection]
      cases own : route.enforcementMode <;> simp [enforceRoute, enforceAllShadow, own]
    have same : (enforceRoute route).permission = route.permission := rfl
    simp only [Option.map_some, routeAnswer, Evaluation.completed, mode, same,
      permission]
    cases lane.principal.any fun principal =>
      base.policy.principalHasPermission principal route.permission
    · cases route.enforcementMode.getD base.policy.enforcementMode <;> simp [effect]
    · simp [effect]

/-- With an upstream selected, only a route lets a request through, and only
once no deny and no shadow matches. -/
theorem judge_worstCase_bound (bound : lane.hostBindingRequired = true) :
    WorstCase (base.judge lane facts) (projected.judge lane facts) := by
  cases scanned : projected.laneScan lane false facts with
  | undetermined index =>
    exact .of_block (by rw [judge_undetermined scanned]; rfl)
  | noMatch | matched decision =>
    cases denies : projected.laneScan lane true facts with
    | undetermined index =>
      exact .of_block (by rw [judge_bound_undetermined bound denies]; rfl)
    | matched deny => exact .of_block (judge_bound_denied bound denies)
    | noMatch =>
      have quiet := (projected_denies_noMatch projection).mp denies
      have same := projected_quiet projection quiet
      have baseDenies : base.laneScan lane true facts = .noMatch :=
        laneScan_denies_noMatch.mpr fun rule member denied =>
          quiet rule member (by simp [denied])
      have unobserved : observationOf true (base.firstDirect lane facts) = none := by
        unfold firstDirect
        cases found : base.laneScan lane false facts with
        | undetermined index => rfl
        | noMatch => rfl
        | matched first =>
          obtain ⟨rule, member, rfl, yes⟩ := laneScan_matched found
          have allow : rule.action = .allow := by
            by_contra other
            rw [quiet rule member other] at yes
            cases yes
          simp [observationOf, allow]
      have determined : ∀ index, projected.laneScan lane false facts ≠ .undetermined index := by
        simp [scanned]
      rw [judge_bound_noMatch bound determined denies,
        judge_bound_noMatch bound (same ▸ determined) baseDenies, unobserved]
      obtain ⟨never, allows, unobserved⟩ := projected_routedAnswer projection _ none
      exact .of_allowed never fun allowed => ⟨allows.mp allowed, unobserved⟩

theorem judge_worstCase_unbound (unbound : lane.hostBindingRequired = false) :
    WorstCase (base.judge lane facts) (projected.judge lane facts) := by
  cases scanned : projected.laneScan lane false facts with
  | undetermined index =>
    exact .of_block (by rw [judge_undetermined scanned]; rfl)
  | noMatch =>
    rw [judge_unbound_noMatch unbound scanned,
      judge_unbound_noMatch unbound ((projected_noMatch projection).mp scanned)]
    obtain ⟨never, allows, unobserved⟩ := projected_routedAnswer projection none none
    exact .of_allowed never fun allowed => ⟨allows.mp allowed, unobserved⟩
  | matched decision =>
    rw [judge_unbound_matched unbound scanned]
    obtain ⟨ruleIndex, action⟩ := decision
    cases action with
    | shadow =>
      obtain ⟨rule, member, same, -⟩ := laneScan_matched scanned
      rw [projected_rules projection] at member
      obtain ⟨original, -, rfl⟩ := List.mem_map.mp member
      exact absurd (congrArg RuleDecision.action same).symm (enforceCompiled_action_ne_shadow original)
    | deny => exact .of_block rfl
    | allow =>
      rw [judge_unbound_matched unbound (projected_allows projection scanned)]
      exact .of_allowed (by simp [directAnswer, Evaluation.completed])
        fun _ => ⟨rfl, rfl⟩

theorem judge_worstCase : WorstCase (base.judge lane facts) (projected.judge lane facts) := by
  cases bound : lane.hostBindingRequired with
  | true => exact judge_worstCase_bound projection bound
  | false => exact judge_worstCase_unbound projection bound

theorem toolAnswer_worstCase (operation : ToolOperation) (name : String)
    (principal : Option Principal) (facts : PolicyFacts) :
    ToolWorstCase (base.toolAnswer operation name principal facts)
      (projected.toolAnswer operation name principal facts) := by
  have tools : projected.policy.tools = base.policy.tools := by
    rw [projection]
    rfl
  have refused (reason : ToolReason) :
      ToolWorstCase (ToolEvaluation.deny { operation } reason)
        (ToolEvaluation.deny { operation } reason) := by
    constructor <;> simp [ToolEvaluation.deny]
  unfold toolAnswer
  rw [tools]
  cases base.policy.tools[name]? with
  | none => exact refused _
  | some tool =>
    dsimp only
    split
    · exact refused _
    · split
      · constructor <;> simp
      · split
        · exact refused _
        · rw [scanTool_eq, scanTool_eq, projected_rules projection, firstMatch_map]
          refine toolRuleAnswer_worstCase ?_ _
          split <;> rfl

end Projected

/-- The enforce-all-shadow projection is a true worst case: it never observes,
what it allows the policy allows without an observation, and what the policy
blocks it blocks. This holds for every HTTP question and every tool question. -/
theorem enforceAllShadow_worstCase [Externals] (policy : Policy)
    (snapshot projectedSnapshot : ResourceSnapshot) (facts : PolicyFacts) :
    (∀ context : PolicyEvaluationContext,
      (∃ problem,
        (assemble policy snapshot).decide (context.pinned snapshot) facts =
            .error problem ∧
          (assemble (enforceAllShadow policy) projectedSnapshot).decide
              (context.pinned projectedSnapshot) facts = .error problem) ∨
      ∃ authored projected,
        (assemble policy snapshot).decide (context.pinned snapshot) facts =
            .ok authored ∧
          (assemble (enforceAllShadow policy) projectedSnapshot).decide
              (context.pinned projectedSnapshot) facts = .ok projected ∧
          WorstCase authored projected) ∧
    ∀ context : ToolEvaluationContext,
      (∃ problem,
        (assemble policy snapshot).evaluateToolWithFacts
            (context.pinned snapshot) facts = .error problem ∧
          (assemble (enforceAllShadow policy)
            projectedSnapshot).evaluateToolWithFacts (context.pinned projectedSnapshot) facts =
              .error problem) ∨
      ∃ authored projected,
        (assemble policy snapshot).evaluateToolWithFacts
            (context.pinned snapshot) facts = .ok authored ∧
          (assemble (enforceAllShadow policy)
            projectedSnapshot).evaluateToolWithFacts (context.pinned projectedSnapshot) facts =
              .ok projected ∧
          ToolWorstCase authored projected := by
  let base := assemble policy snapshot
  let projected := assemble (enforceAllShadow policy) projectedSnapshot
  have projection : projected.policy = enforceAllShadow base.policy := rfl
  have identity : projected.identity = base.identity := rfl
  have hosts : projected.hostQualifiedRoutes = base.hostQualifiedRoutes := by
    simp [base, projected, assemble, enforceAllShadow, enforceRoute,
      Function.comp_def]
  constructor
  · intro context
    rcases decide_pinned_cases identity context facts (Or.inl hosts) with
        refused | ⟨limitation, own, other⟩ | ⟨lane, -, own, other⟩
    · exact Or.inl refused
    · exact Or.inr ⟨_, _, own, other, .of_block rfl⟩
    · exact Or.inr ⟨_, _, own, other, judge_worstCase projection⟩
  · intro context
    rcases evaluateTool_pinned_cases identity context facts with refused | ⟨evaluation, blocks, own, other⟩ | ⟨name, principal, own, other⟩ |
        ⟨method, path, principal, own, other⟩
    · exact Or.inl refused
    · exact Or.inr ⟨_, _, own, other, by constructor <;> simp [blocks]⟩
    · exact Or.inr ⟨_, _, own, other, toolAnswer_worstCase projection _ name principal facts⟩
    · rw [scanWithDispatch_eq] at own other
      rw [projected_rules projection, firstMatch_map] at other
      exact Or.inr ⟨_, _, own, other, toolRuleAnswer_worstCase rfl _⟩

end GreenGateway.Simulation
