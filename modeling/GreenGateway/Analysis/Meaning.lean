import GreenGateway.Analysis.Evidence
import GreenGateway.Kernel.Effects

/-! What the analyzer's comparisons mean to the evaluator: whenever a covered
element might match a request, the covering one certainly does. -/

namespace GreenGateway.Analysis

open Foundation Rbac Kernel Option

section Rules

variable {entry : ToolPolicyEntry} {rule earlier : Rule} {method path toolName called : String}
  {principal : Option Principal} {dispatchContext : RuleDispatchContext} {facts : PolicyFacts}
  {index earlierPosition position : Nat} {policy : Policy} {lane : Kernel.Lane}
  {compiledRule : CompiledRule}

theorem identity_of_toolPrincipalMatches (admitted : toolPrincipalMatches entry principal = true)
    (constrained : entry.issuers ≠ [] ∨ entry.authMethods ≠ []) :
    ∃ caller, principal = some caller ∧
      principalIdentityMatches entry.issuers entry.authMethods caller = true := by
  have bound : (entry.allowedRoles.isEmpty && entry.issuers.isEmpty &&
      entry.authMethods.isEmpty) = false := by
    rcases constrained with issuers | methods
    · simp [issuers]
    · simp [methods]
  unfold toolPrincipalMatches at admitted
  rw [bound, if_neg Bool.false_ne_true] at admitted
  cases principal with
  | none => simp at admitted
  | some caller =>
    simp only [any_some, Bool.and_eq_true] at admitted
    exact ⟨caller, rfl, admitted.1⟩

/-- Constraints with no value in common hold of no value together. -/
theorem disjoint_constraints {left right : List String} {holds : String → Bool}
    (apart : disjoint left right = true)
    (unique : ∀ first second, holds first = true → holds second = true → first = second)
    (first : constraintMatches left holds = true) (second : constraintMatches right holds = true) :
    False := by
  simp only [disjoint, Bool.and_eq_true, Bool.not_eq_true'] at apart
  simp only [constraintMatches, Bool.or_eq_true, List.any_eq_true] at first second
  obtain ⟨value, member, yes⟩ := first.resolve_left (by simp [apart.1.1])
  obtain ⟨other, member', yes'⟩ := second.resolve_left (by simp [apart.1.2])
  obtain rfl := unique value other yes yes'
  have := List.any_eq_false.mp apart.2 value member
  simp [member'] at this

theorem disjoint_ne_nil {left right : List String} (apart : disjoint left right = true) :
    left ≠ [] ∧ right ≠ [] := by
  simp only [disjoint, Bool.and_eq_true, Bool.not_eq_true', List.isEmpty_eq_false_iff] at apart
  exact apart.1

variable [Externals]

/-- The predicates of an HTTP rule, other than its conditions, hold of a request. -/
structure Admits (rule : Rule) (method path : String) (principal : Option Principal)
    (dispatchContext : RuleDispatchContext) : Prop where
  http : isHttpRule rule = true
  method : methodMatches rule.methods method = true
  path : pathPatternMatches rule.path path = true
  dispatch : (rule.dispatch.map CompiledDispatchMatcher.new).all
    (fun dispatch => dispatch.matches dispatchContext) = true
  principal : rule.principal.matches principal = true

theorem admits_of_httpTruth
    (open_ : (CompiledRule.new index rule).httpTruth method path principal dispatchContext facts ≠
      .false) :
    Admits rule method path principal dispatchContext := by
  unfold CompiledRule.httpTruth at open_
  cases named : rule.toolName with
  | some toolName => simp [CompiledRule.new, named] at open_
  | none =>
    simp only [CompiledRule.new, named, CompiledRule.withConditions] at open_
    split at open_
    · exact absurd rfl open_
    · rename_i holds
      simp only [Bool.not_eq_true', Bool.not_eq_false, Bool.and_eq_true] at holds
      obtain ⟨⟨⟨⟨enabled, method⟩, path⟩, dispatch⟩, principal⟩ := holds
      exact ⟨by simp [isHttpRule, enabled, named], method, path, dispatch, principal⟩

/-- A rule without conditions matches what it admits. -/
theorem Admits.httpTruth (admits : Admits rule method path principal dispatchContext)
    (plain : unconditional rule = true) (index : Nat) (facts : PolicyFacts) :
    (CompiledRule.new index rule).httpTruth method path principal dispatchContext facts =
      .true := by
  obtain ⟨http, method, path, dispatch, principal⟩ := admits
  simp only [isHttpRule, Bool.and_eq_true, isNone_iff_eq_none] at http
  simp only [unconditional, isNone_iff_eq_none] at plain
  simp only [methodMatches] at method
  simp only [pathPatternMatches] at path
  simp [CompiledRule.httpTruth, CompiledRule.new, http.2, CompiledRule.withConditions, http.1,
    method, path, dispatch, principal, plain]

theorem Admits.of_covers (admits : Admits rule method path principal dispatchContext)
    (http : isHttpRule earlier = true)
    (covers : httpRuleCovers earlier (segments earlier.path) rule (segments rule.path) = true) :
    unconditional earlier = true ∧ Admits earlier method path principal dispatchContext := by
  simp only [httpRuleCovers, Bool.and_eq_true] at covers
  obtain ⟨⟨⟨⟨plain, methods⟩, principals⟩, dispatches⟩, paths⟩ := covers
  exact ⟨plain, http, methodsCover_sound methods admits.method,
    patternCovers_sound paths admits.path, dispatchCovers_sound dispatches admits.dispatch,
    principalCovers_sound principals admits.principal⟩

theorem CoveredRule.httpTruth (covered : CoveredRule policy earlierPosition earlier position rule)
    (open_ : (CompiledRule.new position rule).httpTruth method path principal dispatchContext
      facts ≠ .false) :
    (CompiledRule.new earlierPosition earlier).httpTruth method path principal dispatchContext
      facts = .true := by
  obtain ⟨plain, admits⟩ := (admits_of_httpTruth open_).of_covers covered.httpEarlier covered.covers
  exact admits.httpTruth plain earlierPosition facts

theorem lane_truth_eq_false :
    lane.truth facts compiledRule = .false ↔
      ∀ path ∈ lane.paths, compiledRule.httpTruth lane.method path lane.principal
        lane.dispatchContext facts = .false := by
  simp [Lane.truth, RuleMatcher.pathsTruth, Truth.foldl_orElse_eq_false]

theorem lane_truth_eq_true :
    lane.truth facts compiledRule = .true ↔
      ∃ path ∈ lane.paths, compiledRule.httpTruth lane.method path lane.principal
        lane.dispatchContext facts = .true := by
  simp [Lane.truth, RuleMatcher.pathsTruth, Truth.foldl_orElse_eq_true]

/-- The same over all of a lane's path identities. -/
theorem CoveredRule.truth (covered : CoveredRule policy earlierPosition earlier position rule)
    (open_ : lane.truth facts (CompiledRule.new position rule) ≠ .false) :
    lane.truth facts (CompiledRule.new earlierPosition earlier) = .true := by
  rw [Ne, lane_truth_eq_false] at open_
  push Not at open_
  obtain ⟨path, identity, matches_⟩ := open_
  exact lane_truth_eq_true.mpr ⟨path, identity, covered.httpTruth matches_⟩

/-- The predicates of a tool-name rule, other than its conditions, hold of a call. -/
theorem admits_of_toolTruth
    (open_ : (CompiledRule.new index rule).toolTruth toolName principal facts ≠ .false) :
    rule.toolName = some toolName ∧ rule.principal.matches principal = true := by
  unfold CompiledRule.toolTruth at open_
  cases named : rule.toolName with
  | none => simp [CompiledRule.new, named] at open_
  | some own =>
    simp only [CompiledRule.new, named, CompiledRule.withConditions] at open_
    split at open_
    · exact absurd rfl open_
    · rename_i holds
      simp only [Bool.not_eq_true', Bool.not_eq_false, Bool.and_eq_true, beq_iff_eq] at holds
      exact ⟨by rw [holds.1.2], holds.2⟩

theorem CoveredToolRule.toolTruth
    (covered : CoveredToolRule policy earlierPosition earlier position rule toolName)
    (open_ : (CompiledRule.new position rule).toolTruth called principal facts ≠ .false) :
    (CompiledRule.new earlierPosition earlier).toolTruth called principal facts = .true := by
  obtain ⟨named, matched⟩ := admits_of_toolTruth open_
  obtain rfl : toolName = called := Option.some.inj (covered.named.symm.trans named)
  have plain : earlier.conditions = none := by
    simpa [unconditional] using covered.unconditionalEarlier
  have accepted := principalCovers_sound covered.covers matched
  simp [CompiledRule.toolTruth, CompiledRule.new, covered.namedEarlier, CompiledRule.withConditions,
    covered.enabledEarlier, accepted, plain]

theorem toolConflict_refuses {reason : String} (named : rule.toolName = some toolName)
    (conflict : toolConflict policy rule toolName = some reason)
    (held : policy.tools[called]? = some entry) (enabled : entry.enabled = true)
    (admitted : toolPrincipalMatches entry principal = true) :
    (CompiledRule.new index rule).toolTruth called principal facts = .false := by
  by_contra open_
  obtain ⟨name, matched⟩ := admits_of_toolTruth open_
  obtain rfl : toolName = called := Option.some.inj (named.symm.trans name)
  simp only [toolConflict, held, enabled, Bool.not_true, Bool.false_eq_true, if_false] at conflict
  -- both the entry and the rule constrain the one issuer and the one method a caller has
  have both (constrained : entry.issuers ≠ [] ∧ rule.principal.issuers ≠ [] ∨
      entry.authMethods ≠ [] ∧ rule.principal.authMethods ≠ []) :
      ∃ caller, principalIdentityMatches entry.issuers entry.authMethods caller = true ∧
        principalIdentityMatches rule.principal.issuers rule.principal.authMethods caller =
          true := by
    obtain ⟨caller, rfl, accepted⟩ :=
      identity_of_toolPrincipalMatches admitted (constrained.imp And.left And.left)
    have bound : rule.principal.isUnconstrained = false := by
      rcases constrained with issuers | methods
      · simp [PrincipalMatcher.isUnconstrained, issuers.2]
      · simp [PrincipalMatcher.isUnconstrained, methods.2]
    simp only [PrincipalMatcher.matches, bound, Bool.false_eq_true, if_false,
      Bool.and_eq_true] at matched
    exact ⟨caller, accepted, matched.1.2⟩
  simp only [principalIdentityMatches, Bool.and_eq_true] at both
  split_ifs at conflict with issuers methods
  · obtain ⟨caller, entryOk, ruleOk⟩ := both (Or.inl (disjoint_ne_nil issuers))
    refine disjoint_constraints issuers (fun first second held other => ?_) entryOk.1 ruleOk.1
    exact Option.some.inj ((beq_iff_eq.mp held).symm.trans (beq_iff_eq.mp other))
  · obtain ⟨caller, entryOk, ruleOk⟩ := both (Or.inr (disjoint_ne_nil methods))
    refine disjoint_constraints methods (fun first second held other => ?_) entryOk.2 ruleOk.2
    exact (beq_iff_eq.mp held).trans (beq_iff_eq.mp other).symm

end Rules

section Routes

variable {route : RouteRule}

theorem routeCovers_sound {lane : Kernel.Lane} {earlier : RouteRule}
    (covers : routeCovers earlier route = true) (admitted : lane.admissible route = true) :
    lane.admissible earlier = true ∧ ∀ path, pathPrefixMatches path route.pathPrefix = true →
      pathPrefixMatches path earlier.pathPrefix = true := by
  simp only [routeCovers, Bool.and_eq_true] at covers
  simp only [Lane.admissible, Bool.and_eq_true] at admitted ⊢
  exact ⟨⟨methodsCover_sound covers.1.1 admitted.1, hostsCover_sound covers.1.2 admitted.2⟩,
    fun path selected => prefixCovers_sound covers.2 selected⟩

/-- Whether a route selects one of a lane's identities the way the lane asks. -/
def selectsBy (lane : Kernel.Lane) (byPrefix : Option String) (route : RouteRule) : Bool :=
  match byPrefix with
  | none => route.pathPrefix == lane.path && lane.admissible route
  | some path => pathPrefixMatches path route.pathPrefix && lane.admissible route

/-- The ways a lane asks: an alias for an exact prefix first, every lane for a
prefix of one of its identities. -/
def Asks (lane : Kernel.Lane) : Option String → Prop
  | none => lane.canonicalPath.isSome = true
  | some path => path ∈ lane.paths

/-- A covering route selects with the covered one, unless an alias asks for the
covered one's prefix alone. -/
theorem selects_of_covers {lane : Kernel.Lane} {earlier : RouteRule} {aliasPaths : List String}
    (covers : routeCovers earlier route = true)
    (selected : aliasCannotSelect aliasPaths earlier route = true)
    (configured : lane.canonicalPath.isSome = true → lane.path ∈ aliasPaths)
    {byPrefix : Option String} (asks : Asks lane byPrefix)
    (selects : selectsBy lane byPrefix route = true) : selectsBy lane byPrefix earlier = true := by
  cases byPrefix with
  | some path =>
    simp only [selectsBy, Bool.and_eq_true] at selects ⊢
    obtain ⟨admitted, prefixes⟩ := routeCovers_sound covers selects.2
    exact ⟨prefixes path selects.1, admitted⟩
  | none =>
    simp only [selectsBy, Bool.and_eq_true, beq_iff_eq] at selects ⊢
    obtain ⟨admitted, -⟩ := routeCovers_sound covers selects.2
    simp only [aliasCannotSelect, Bool.or_eq_true, beq_iff_eq, Bool.not_eq_true'] at selected
    rcases selected with alike | elsewhere
    · exact ⟨alike.trans selects.1, admitted⟩
    · rw [selects.1] at elsewhere
      have listed := configured asks
      simp [listed] at elsewhere

variable [Externals] {policy : Policy} {compiled : CompiledPolicy} {lane : Kernel.Lane}
  {facts : PolicyFacts}

/-- A rule that decides a route's requests matches, for every caller, wherever the route
is selected. -/
theorem RuledRoute.truth {rulePosition position : Nat} {rule : Rule}
    (ruled : RuledRoute policy rulePosition rule position route) {byPrefix : Option String}
    (asks : Asks lane byPrefix) (selects : selectsBy lane byPrefix route = true) {index : Nat} :
    lane.truth facts (CompiledRule.new index rule) = .true := by
  obtain ⟨path, identity, selected, method⟩ : ∃ path ∈ lane.paths,
      (path = route.pathPrefix ∨ pathPrefixMatches path route.pathPrefix = true) ∧
        methodMatches route.methods lane.method = true := by
    cases byPrefix with
    | none =>
      simp only [selectsBy, Bool.and_eq_true, beq_iff_eq, Lane.admissible] at selects
      exact ⟨_, lane.path_mem_paths, Or.inl selects.1.symm, selects.2.1⟩
    | some path =>
      simp only [selectsBy, Bool.and_eq_true, Lane.admissible] at selects
      exact ⟨path, asks, Or.inr selects.1, selects.2.1⟩
  have caller := ruled.everyCaller
  simp only [bindsCaller, Bool.or_eq_false_iff, Bool.not_eq_false', isSome_eq_false_iff,
    isNone_iff_eq_none] at caller
  obtain ⟨⟨⟨http, plain⟩, anyone⟩, unbound⟩ := caller
  have paths := ruled.paths
  cases pattern : prefixPattern route.pathPrefix with
  | none =>
    rw [pattern] at paths
    cases read : segments rule.path <;> simp [read, patternCovers] at paths
  | some text =>
    rw [pattern] at paths
    have below : pathPrefixMatches path route.pathPrefix = true := by
      rcases selected with rfl | below
      · refine pathPrefixMatches_iff.mpr ⟨?_, Or.inl rfl⟩
        by_contra relative
        simp [prefixPattern, relative] at pattern
      · exact below
    have admits : Admits rule lane.method path lane.principal lane.dispatchContext :=
      { http
        method := methodsCover_sound ruled.methods method
        path := patternCovers_sound paths (prefixPattern_sound pattern below)
        dispatch := by simp [unbound]
        principal := by simp [PrincipalMatcher.matches, anyone] }
    exact lane_truth_eq_true.mpr ⟨path, identity, admits.httpTruth plain index facts⟩

theorem matchRoute_selected {index : Nat}
    (found : compiled.matchRoute lane.method lane.path lane.canonicalPath lane.host
      lane.hostBindingRequired = some (index, route)) :
    ∃ byPrefix, Asks lane byPrefix ∧
      findIndexed (selectsBy lane byPrefix) compiled.policy.routes = some (index, route) := by
  unfold CompiledPolicy.matchRoute at found
  dsimp only at found
  cases canonical : lane.canonicalPath with
  | none =>
    rw [canonical] at found
    exact ⟨some lane.path, lane.path_mem_paths, found⟩
  | some identity =>
    rw [canonical] at found
    rcases Option.or_eq_some_iff.mp found with exactly | ⟨-, byCanonical⟩
    · exact ⟨none, by simp [Asks, canonical], exactly⟩
    · exact ⟨some identity, by simp [Asks, Lane.paths, canonical], byCanonical⟩

end Routes

theorem rateCovers_sound {earlier limit : RateLimitRule} {principal : Principal}
    {method path : String}
    (covers : rateCovers earlier (earlier.path.bind segments) limit (limit.path.bind segments) =
      true)
    (absolute : Text.startsWith path "/" = true)
    (governed : CompiledPolicy.rateRuleMatches principal method path limit = true) :
    CompiledPolicy.rateRuleMatches principal method path earlier = true := by
  simp only [rateCovers, Bool.and_eq_true] at covers
  simp only [CompiledPolicy.rateRuleMatches, Bool.and_eq_true] at governed ⊢
  obtain ⟨⟨principals, methods⟩, paths⟩ := covers
  obtain ⟨⟨accepted, method⟩, path⟩ := governed
  refine ⟨⟨principalCovers_sound principals accepted, methodsCover_sound methods method⟩, ?_⟩
  cases outer : earlier.path with
  | none => rfl
  | some pattern =>
    cases inner : limit.path with
    | none =>
      simp only [outer, inner] at paths
      exact matchesEveryPath_sound paths absolute
    | some covered =>
      simp only [outer, inner, bind_some] at paths
      rw [inner] at path
      exact patternCovers_sound paths path

end GreenGateway.Analysis
