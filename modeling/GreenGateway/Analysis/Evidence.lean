import GreenGateway.Analysis.Checks

/-! What stands behind a reported finding. Every finding of an analysis either
claims nothing about reachability or carries the comparison that established it. -/

namespace GreenGateway.Analysis

open Foundation Rbac Simulation List Stoppable

section Claims

/-! What the findings that differ by case claim. -/

variable (position : Nat)

@[simp] theorem coveredToolFinding_claims (rule : Rule) (earlierPosition : Nat) (earlier : Rule) :
    (coveredToolFinding position rule earlierPosition earlier).element = ruleRef position rule ∧
      (coveredToolFinding position rule earlierPosition earlier).neverDecidesIn = [.tool] := by
  unfold coveredToolFinding
  split <;> exact ⟨rfl, rfl⟩

@[simp] theorem routeDecidedByRule_claims (route : RouteRule) (rulePosition : Nat) (rule : Rule) :
    (routeDecidedByRule position route rulePosition rule).element = routeRef position route ∧
      (routeDecidedByRule position route rulePosition rule).neverDecidesIn =
        if rule.action = .deny then routeLanes else [.http, .mcpAlias] := by
  unfold routeDecidedByRule
  split <;> exact ⟨rfl, rfl⟩

@[simp] theorem routeDecidedEarlier_claims (policy : Policy) (position : Nat) (route : RouteRule)
    (earlierPosition : Nat) (earlier : RouteRule) :
    (routeDecidedEarlier policy position route earlierPosition earlier).element =
        routeRef position route ∧
      (routeDecidedEarlier policy position route earlierPosition earlier).neverDecidesIn =
        routeLanes := by
  unfold routeDecidedEarlier
  dsimp only
  split <;> exact ⟨rfl, rfl⟩

@[simp] theorem rateCoveredFinding_claims (limit : RateLimitRule) (earlierPosition : Nat)
    (earlier : RateLimitRule) :
    (rateCoveredFinding position limit earlierPosition earlier).element = rateRef position limit ∧
      (rateCoveredFinding position limit earlierPosition earlier).neverDecidesIn = [.rate] := by
  unfold rateCoveredFinding
  split <;> exact ⟨rfl, rfl⟩

end Claims

/-- An earlier element at its position in an ordered section. -/
structure Precedes {α : Type} (items : List α) (earlierPosition : Nat) (earlier : α)
    (position : Nat) (item : α) : Prop where
  listed : items[position]? = some item
  listedEarlier : items[earlierPosition]? = some earlier
  before : earlierPosition < position

theorem Precedes.of_take {α : Type} {items : List α} {position earlierPosition : Nat}
    {item earlier : α} (listed : items[position]? = some item)
    (found : (items.take position)[earlierPosition]? = some earlier) :
    Precedes items earlierPosition earlier position item := by
  rw [List.getElem?_take] at found
  split at found
  · exact ⟨listed, found, ‹_›⟩
  · cases found

/-- Two enabled HTTP rules, the earlier one covering the later. -/
structure CoveredRule (policy : Policy) (earlierPosition : Nat) (earlier : Rule) (position : Nat)
    (rule : Rule) : Prop where
  precedes : Precedes policy.rules earlierPosition earlier position rule
  http : isHttpRule rule = true
  httpEarlier : isHttpRule earlier = true
  covers : httpRuleCovers earlier (segments earlier.path) rule (segments rule.path) = true

/-- Two enabled rules for one tool, the earlier one covering the later. -/
structure CoveredToolRule (policy : Policy) (earlierPosition : Nat) (earlier : Rule)
    (position : Nat) (rule : Rule) (toolName : String) : Prop where
  precedes : Precedes policy.rules earlierPosition earlier position rule
  named : rule.toolName = some toolName
  namedEarlier : earlier.toolName = some toolName
  enabledEarlier : earlier.enabled = true
  unconditionalEarlier : unconditional earlier = true
  covers : principalCovers earlier.principal rule.principal = true

/-- A route whose requests a direct rule matches for every caller. -/
structure RuledRoute (policy : Policy) (rulePosition : Nat) (rule : Rule) (position : Nat)
    (route : RouteRule) : Prop where
  listed : policy.routes[position]? = some route
  listedRule : policy.rules[rulePosition]? = some rule
  everyCaller : bindsCaller rule = false
  methods : methodsCover rule.methods route.methods = true
  paths : patternCovers (segments rule.path) ((prefixPattern route.pathPrefix).bind segments) = true

/-- Two routes, the earlier one deciding what the later would. -/
structure CoveredRoute (policy : Policy) (aliasPaths : List String) (earlierPosition : Nat)
    (earlier : RouteRule) (position : Nat) (route : RouteRule) : Prop where
  precedes : Precedes policy.routes earlierPosition earlier position route
  covers : routeCovers earlier route = true
  selected : aliasCannotSelect aliasPaths earlier route = true

/-- Two rate overrides, the earlier one selected for what the later would be. -/
structure CoveredRate (policy : Policy) (earlierPosition : Nat) (earlier : RateLimitRule)
    (position : Nat) (limit : RateLimitRule) : Prop where
  precedes : Precedes policy.rateLimits earlierPosition earlier position limit
  covers :
    rateCovers earlier (earlier.path.bind segments) limit (limit.path.bind segments) = true

/-- Why a finding was reported. -/
inductive Justified (policy : Policy) (aliasPaths : List String) : Finding → Prop where
  | claimless {finding : Finding} (anywhere : finding.neverDecidesIn = [])
      (patchless : finding.patch = none) : Justified policy aliasPaths finding
  | unproven {finding : Finding} (basis : finding.proofBasis ≠ .proven) :
      Justified policy aliasPaths finding
  | defaultAllow (allows : policy.defaultAction = .allow) :
      Justified policy aliasPaths (defaultAllowFinding policy)
  | globalShadow (shadows : policy.enforcementMode = .shadow) :
      Justified policy aliasPaths (globalShadowFinding policy)
  | broadRule {index : Nat} {rule : Rule} (listed : policy.rules[index]? = some rule)
      (broad : couldBeBroad rule = true) :
      Justified policy aliasPaths (broadRuleFinding index rule)
  | toolRefused {position : Nat} {rule : Rule} {toolName reason : String}
      (listed : policy.rules[position]? = some rule) (named : rule.toolName = some toolName)
      (conflict : toolConflict policy rule toolName = some reason) :
      Justified policy aliasPaths (toolRefusedFinding position rule reason)
  | coveredRule {earlierPosition position : Nat} {earlier rule : Rule} {duplicate : Bool}
      (covered : CoveredRule policy earlierPosition earlier position rule)
      (restrictive : restrictiveness rule.action ≤ restrictiveness earlier.action) :
      Justified policy aliasPaths
        (unreachableRule position rule earlierPosition earlier duplicate httpRuleLanes)
  | shadowedRule {earlierPosition position : Nat} {earlier rule : Rule}
      (covered : CoveredRule policy earlierPosition earlier position rule)
      (looser : restrictiveness earlier.action < restrictiveness rule.action) :
      Justified policy aliasPaths
        (shadowedRule position rule earlierPosition earlier firstMatchHttpLanes
          (shadowedMayDecideIn rule.action))
  | coveredToolRule {earlierPosition position : Nat} {earlier rule : Rule} {toolName : String}
      (covered : CoveredToolRule policy earlierPosition earlier position rule toolName) :
      Justified policy aliasPaths (coveredToolFinding position rule earlierPosition earlier)
  | ruledRoute {rulePosition position : Nat} {rule : Rule} {route : RouteRule}
      (ruled : RuledRoute policy rulePosition rule position route) :
      Justified policy aliasPaths (routeDecidedByRule position route rulePosition rule)
  | coveredRoute {earlierPosition position : Nat} {earlier route : RouteRule}
      (covered : CoveredRoute policy aliasPaths earlierPosition earlier position route) :
      Justified policy aliasPaths
        (routeDecidedEarlier policy position route earlierPosition earlier)
  | coveredRate {earlierPosition position : Nat} {earlier limit : RateLimitRule}
      (covered : CoveredRate policy earlierPosition earlier position limit) :
      Justified policy aliasPaths (rateCoveredFinding position limit earlierPosition earlier)

namespace Justified

variable {policy : Policy} {resources : AnalysisResources} {finding : Finding} {position : Nat}
  {rule : Rule}

/-- A finding stays justified when its witness is not confirmed. -/
theorem unconfirmedUnless {aliasPaths : List String} (confirmed : Bool)
    (justified : Justified policy aliasPaths finding) :
    Justified policy aliasPaths (finding.unconfirmedUnless confirmed) := by
  cases confirmed with
  | true => exact justified
  | false => exact .unproven (by simp [Finding.unconfirmedUnless])

/-- Every finding reported so far is justified. -/
abbrev Held (policy : Policy) (resources : AnalysisResources) : Run → Prop :=
  Run.Reports (Justified policy resources.mcpAliasPaths)

/-- A finding that is reported once its witness has been asked about. -/
theorem confirm_keeps {answer : Except AnalysisError Bool}
    (justified : Justified policy resources.mcpAliasPaths finding) :
    Keeps (Held policy resources)
      (ofExcept answer >>= fun confirmed =>
        Run.push (finding.unconfirmedUnless confirmed)) fun _ => True :=
  .bind (.ofExcept fun _ _ => trivial) fun confirmed _ =>
    Run.push_keeps (justified.unconfirmedUnless confirmed)

theorem riskyDefaults_keeps :
    Keeps (Held policy resources) (riskyDefaults policy) fun _ => True := by
  refine .bind (.when fun allows => Run.push_keeps ?_) fun _ _ =>
    .when fun shadows => Run.push_keeps ?_
  · exact .defaultAllow (by simpa using allows)
  · exact .globalShadow (by simpa using shadows)

theorem wildcardGrants_keeps :
    Keeps (Held policy resources) (wildcardGrants policy) fun _ => True := by
  refine .each fun _ entry _ => ?_
  obtain ⟨name, role⟩ := entry
  dsimp only
  split
  · exact .pure trivial
  · exact Run.push_keeps (.unproven (by simp))

theorem narrowerBroadRule_keeps (index : Nat) (rule : Rule) (everyPath : Bool) :
    Keeps (Held policy resources)
      (narrowerBroadRule resources.witnesses index rule everyPath) fun _ => True := by
  unfold narrowerBroadRule
  dsimp only
  split
  · exact confirm_keeps (.claimless rfl rfl)
  · split
    · exact confirm_keeps (.claimless rfl rfl)
    · exact .pure trivial

theorem broadRules_keeps :
    Keeps (Held policy resources) (broadRules resources policy) fun _ => True := by
  refine .each fun index rule listed => .when fun broad =>
    .bind (Run.pay_keeps resources.expired) fun _ _ => ?_
  dsimp only
  split
  · exact narrowerBroadRule_keeps index rule _
  · exact confirm_keeps (.broadRule listed broad)

theorem toolPolicyConflict_keeps {toolName : String}
    (listed : policy.rules[position]? = some rule) (named : rule.toolName = some toolName) :
    Keeps (Held policy resources)
      (toolPolicyConflict resources policy position rule toolName) fun _ => True := by
  unfold toolPolicyConflict
  cases conflict : toolConflict policy rule toolName with
  | some reason =>
    refine .bind (.ofExcept fun _ _ => trivial) fun refused _ =>
      .bind (Run.cover_keeps position) fun _ _ => Run.push_keeps ?_
    exact unconfirmedUnless refused (.toolRefused listed named conflict)
  | none =>
    exact .when fun _ => .bind (.ofExcept fun _ _ => trivial) fun _ _ =>
      .when fun _ => Run.push_keeps (.claimless rfl rfl)

theorem toolPolicyConflicts_keeps :
    Keeps (Held policy resources) (toolPolicyConflicts resources policy)
      fun _ => True := by
  refine .each fun position rule listed => ?_
  cases named : rule.toolName with
  | none => exact .pure trivial
  | some toolName =>
    exact .when fun _ => .bind (Run.pay_keeps resources.expired) fun _ _ =>
      toolPolicyConflict_keeps listed named

/-- What the search for covering rules returns covers the rule. -/
structure Covering (policy : Policy) (position : Nat) (rule : Rule) (covering : CoveringRules) :
    Prop where
  atLeastAsRestrictive : ∀ earlierPosition earlier,
    covering.atLeastAsRestrictive = some (earlierPosition, earlier) →
      CoveredRule policy earlierPosition earlier position rule ∧
        restrictiveness rule.action ≤ restrictiveness earlier.action
  lessRestrictive : ∀ earlierPosition earlier,
    covering.lessRestrictive = some (earlierPosition, earlier) →
      CoveredRule policy earlierPosition earlier position rule ∧
        restrictiveness earlier.action < restrictiveness rule.action

theorem coveringRulesFrom_keeps
    (listed : policy.rules[position]? = some rule) (http : isHttpRule rule = true) :
    Keeps (Held policy resources)
      (coveringRulesFrom resources.expired rule 0 none (policy.rules.take position))
      (Covering policy position rule) := by
  -- the loop carries the less restrictive rule found so far, which covers the rule
  have loop : ∀ (rest : List Rule) (start : Nat) (lessRestrictive : Option (Nat × Rule)),
      (∀ offset earlier, rest[offset]? = some earlier →
        (policy.rules.take position)[start + offset]? = some earlier) →
      Covering policy position rule { lessRestrictive } →
      Keeps (Held policy resources)
        (coveringRulesFrom resources.expired rule start lessRestrictive rest)
        (Covering policy position rule) := by
    intro rest
    induction rest with
    | nil => exact fun _ _ _ soFar => .pure soFar
    | cons earlier rest ih =>
      intro start lessRestrictive placed soFar
      have placedRest : ∀ offset other, rest[offset]? = some other →
          (policy.rules.take position)[start + 1 + offset]? = some other := by
        intro offset other found
        have := placed (offset + 1) other (by simpa using found)
        rwa [Nat.add_comm offset 1, ← Nat.add_assoc] at this
      unfold coveringRulesFrom
      by_cases httpEarlier : isHttpRule earlier = true
      · simp only [httpEarlier, Bool.not_true, Bool.false_eq_true, if_false]
        refine .bind (Run.pay_keeps resources.expired) fun _ _ => ?_
        by_cases covers : httpRuleCovers earlier (segments earlier.path) rule
          (segments rule.path) = true
        · simp only [covers, Bool.not_true, Bool.false_eq_true, if_false]
          have covered : CoveredRule policy start earlier position rule :=
            ⟨.of_take listed (by simpa using placed 0 earlier rfl), http, httpEarlier, covers⟩
          by_cases restrictive : restrictiveness earlier.action ≥ restrictiveness rule.action
          · simp only [restrictive, if_true]
            refine .pure ⟨fun earlierPosition other same => ?_, soFar.lessRestrictive⟩
            obtain ⟨rfl, rfl⟩ : start = earlierPosition ∧ earlier = other := by simpa using same
            exact ⟨covered, restrictive⟩
          · simp only [restrictive, if_false]
            refine ih (start + 1) _ placedRest ⟨by simp, fun earlierPosition other same => ?_⟩
            cases held : lessRestrictive with
            | some known => exact soFar.lessRestrictive _ _ (by simpa [held] using same)
            | none =>
              obtain ⟨rfl, rfl⟩ : start = earlierPosition ∧ earlier = other := by
                simpa [held] using same
              exact ⟨covered, Nat.lt_of_not_ge restrictive⟩
        · simp only [covers, Bool.not_false, if_true]
          exact ih (start + 1) lessRestrictive placedRest soFar
      · simp only [httpEarlier, Bool.not_false, if_true]
        exact ih (start + 1) lessRestrictive placedRest soFar
  exact loop _ 0 none (fun offset earlier found => by simpa using found) ⟨by simp, by simp⟩

theorem reportCovered_keeps {covering : CoveringRules}
    (found : Covering policy position rule covering) :
    Keeps (Held policy resources) (reportCovered resources position rule covering)
      fun _ => True := by
  obtain ⟨atLeastAsRestrictive, lessRestrictive⟩ := covering
  unfold reportCovered
  cases atLeastAsRestrictive with
  | some hit =>
    obtain ⟨earlierPosition, earlier⟩ := hit
    obtain ⟨covered, restrictive⟩ := found.atLeastAsRestrictive earlierPosition earlier rfl
    have duplicates : Keeps (Held policy resources)
        (duplicateOf resources.expired rule earlier) fun _ => True := by
      unfold duplicateOf
      split
      · exact .bind (Run.spend_keeps resources.expired) fun _ _ => .pure trivial
      · exact .pure trivial
    exact .bind (Run.cover_keeps position) fun _ _ => .bind duplicates fun _ _ =>
      confirm_keeps (.coveredRule covered restrictive)
  | none =>
    cases lessRestrictive with
    | some hit =>
      obtain ⟨earlierPosition, earlier⟩ := hit
      obtain ⟨covered, looser⟩ := found.lessRestrictive earlierPosition earlier rfl
      exact .bind (Run.cover_keeps position) fun _ _ =>
        confirm_keeps (.shadowedRule covered looser)
    | none => exact .pure trivial

theorem directRules_keeps :
    Keeps (Held policy resources) (directRules resources policy) fun _ => True :=
  .each fun _ _ listed => .when fun http =>
    .bind (coveringRulesFrom_keeps listed http) fun _ found => reportCovered_keeps found

theorem toolRules_keeps :
    Keeps (Held policy resources) (toolRules resources policy) fun _ => True := by
  refine .each fun position rule listed => ?_
  cases named : rule.toolName with
  | none => exact .pure trivial
  | some toolName =>
    refine .bind .get fun _ _ => .when fun _ =>
      .bind (.search (Run.pay_keeps resources.expired)) fun covering found => ?_
    cases covering with
    | none => exact .pure trivial
    | some hit =>
      obtain ⟨earlierPosition, earlier⟩ := hit
      obtain ⟨placed, kept, covers⟩ := found earlierPosition earlier rfl
      simp only [Bool.or_eq_false_iff, Bool.not_eq_false', bne_eq_false_iff_eq,
        Bool.and_eq_true] at kept covers
      exact confirm_keeps (.coveredToolRule
        ⟨.of_take listed placed, named, kept.2, kept.1, covers.1, covers.2⟩)

theorem routes_keeps :
    Keeps (Held policy resources) (routes resources policy) fun _ => True := by
  refine .each fun position route listed => ?_
  have deciding : Keeps (Held policy resources) (decidingRule resources policy route)
      fun found => ∀ rulePosition rule, found = some (rulePosition, rule) →
        RuledRoute policy rulePosition rule position route := by
    unfold decidingRule
    dsimp only
    split
    · refine (Keeps.search (Run.pay_keeps resources.expired)).weaken
        fun found holds rulePosition rule same => ?_
      obtain ⟨placed, kept, covers⟩ := holds rulePosition rule same
      rw [Bool.and_eq_true] at covers
      exact ⟨listed, placed, kept, covers.1, covers.2⟩
    · exact .pure (by simp)
  have covering : Keeps (Held policy resources)
      (coveringRoute resources policy position route)
      fun found => ∀ earlierPosition earlier, found = some (earlierPosition, earlier) →
        CoveredRoute policy resources.mcpAliasPaths earlierPosition earlier position route := by
    refine (Keeps.search (Run.pay_keeps resources.expired)).weaken
      fun found holds earlierPosition earlier same => ?_
    obtain ⟨placed, -, covers⟩ := holds earlierPosition earlier same
    rw [Bool.and_eq_true] at covers
    exact ⟨.of_take listed placed, covers.1, covers.2⟩
  refine .bind deciding fun decided ruled => ?_
  cases decided with
  | some hit => exact confirm_keeps (.ruledRoute (ruled hit.1 hit.2 rfl))
  | none =>
    refine .bind covering fun found covered => ?_
    cases found with
    | some hit => exact confirm_keeps (.coveredRoute (covered hit.1 hit.2 rfl))
    | none => exact .pure trivial

theorem rateOverrides_keeps :
    Keeps (Held policy resources) (rateOverrides resources policy) fun _ => True := by
  refine .each fun position limit listed =>
    .bind (.search (Run.pay_keeps resources.expired)) fun covering found => ?_
  cases covering with
  | none => exact .pure trivial
  | some hit =>
    obtain ⟨placed, -, covers⟩ := found hit.1 hit.2 rfl
    exact confirm_keeps (.coveredRate ⟨.of_take listed placed, covers⟩)

end Justified

open Justified

variable {policy : Policy} {resources : AnalysisResources} {before after : Run}

/-- A lint adds findings that claim nothing. -/
theorem Lint.run_held (lint : Lint) (held : Held policy resources before)
    (ran : lint.run before = .ok after) : Held policy resources after := by
  obtain ⟨added, same, silent⟩ := lint.appends before after ran
  intro finding member
  rw [same, mem_append] at member
  rcases member with old | new
  · exact held finding old
  · exact .claimless (silent finding new).1 (silent finding new).2

/-- One check keeps every finding justified. -/
theorem checks_held
    {check : Run → Except AnalysisError Run} (listed : check ∈ checks policy resources)
    (held : Held policy resources before)
    (ran : check before = .ok after) : Held policy resources after := by
  simp only [checks, mem_cons, not_mem_nil, or_false] at listed
  rcases listed with rfl | rfl | rfl | rfl | rfl | rfl | rfl | rfl | rfl | rfl | rfl | rfl | rfl |
    rfl | rfl
  · exact riskyDefaults_keeps.finish held ran
  · exact wildcardGrants_keeps.finish held ran
  · exact broadRules_keeps.finish held ran
  · exact Lint.run_held _ held ran
  · exact toolPolicyConflicts_keeps.finish held ran
  · exact Lint.run_held _ held ran
  · exact Lint.run_held _ held ran
  · exact Lint.run_held _ held ran
  · exact directRules_keeps.finish held ran
  · exact Lint.run_held _ held ran
  · exact toolRules_keeps.finish held ran
  · exact Lint.run_held _ held ran
  · exact Lint.run_held _ held ran
  · exact routes_keeps.finish held ran
  · exact rateOverrides_keeps.finish held ran

theorem analyze_justified
    {outcome : AnalysisOutcome} (analyzed : analyze policy resources = .ok outcome) :
    ∀ finding ∈ outcome.findings, Justified policy resources.mcpAliasPaths finding := by
  simp only [analyze, bind_eq_ok, Except.ok.injEq] at analyzed
  obtain ⟨run, ran, rfl⟩ := analyzed
  refine Run.finish_reports ?_
  -- the checks run one after the other, each from the state the one before it left
  have held : ∀ (steps : List (Run → Except AnalysisError Run)) (before : Run),
      (∀ check ∈ steps, check ∈ checks policy resources) →
      Held policy resources before →
      steps.foldlM (fun run check => check run) before = .ok run →
      Held policy resources run := by
    intro steps
    induction steps with
    | nil =>
      intro before _ kept same
      obtain rfl : before = run := by simpa [pure, Except.pure] using same
      exact kept
    | cons check rest ih =>
      intro before listed kept same
      simp only [foldlM_cons, bind_eq_ok] at same
      obtain ⟨between, first, later⟩ := same
      exact ih between (fun other member => listed other (mem_cons_of_mem _ member))
        (checks_held (listed check (mem_cons_self ..)) kept first) later
  exact held _ {} (fun _ member => member) (by intro finding member; simp at member) ran

end GreenGateway.Analysis
