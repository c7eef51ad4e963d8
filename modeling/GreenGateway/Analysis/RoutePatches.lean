import GreenGateway.Analysis.RulePatches

/-! What deleting or moving one route or one rate override, or setting a top-level
scalar, does to access in every lane. -/

namespace GreenGateway.Analysis

open Foundation Rbac Kernel List CompiledPolicy

/-- Both effects forward, or both block. -/
def SameAction (before after : PolicyEffect) : Prop := before = .block ↔ after = .block

/-- Two policies with the same rules, tools and identity mappings. -/
structure AgreeOnRules (before after : Policy) : Prop where
  rules : after.rules = before.rules
  tools : after.tools = before.tools
  identityMappings : after.identityMappings = before.identityMappings

theorem AgreeOnRules.of_edit {before after : Policy} {routes : List RouteRule}
    {defaultAction : DefaultAction} {enforcementMode : EnforcementMode}
    {rateLimits : List RateLimitRule}
    (edited : after = { before with routes, defaultAction, enforcementMode, rateLimits }) :
    AgreeOnRules before after := by
  subst edited
  exact ⟨rfl, rfl, rfl⟩

section Agreement

variable [Externals] {before after : CompiledPolicy} {facts : PolicyFacts}

/-- Answers are related once the routes and the default answer in a related way
wherever no direct rule decides. -/
theorem AgreeOnRules.related {relation : PolicyEffect → PolicyEffect → Prop}
    (agree : AgreeOnRules before.policy after.policy)
    (reflexive : ∀ effect, relation effect effect) (question : Question) (facts : PolicyFacts)
    (hosts : after.hostQualifiedRoutes = before.hostQualifiedRoutes ∨ question.HostCaptured)
    (routed : ∀ context lane, question = .http context → Served context lane →
      lane.verdict facts before.policy.rules lane.hostBindingRequired = .noMatch →
        relation (before.routedEffect lane) (after.routedEffect lane)) :
    Related relation (question.ask before facts) (question.ask after facts) := by
  refine Question.related reflexive (identity_congr agree.identityMappings) question facts hosts
    ?_ ?_ ?_ ?_
  · intro context lane asked _ served
    have settle : relation
        (verdictEffect (before.routedEffect lane)
          (lane.verdict facts before.policy.rules lane.hostBindingRequired))
        (verdictEffect (after.routedEffect lane)
          (lane.verdict facts before.policy.rules lane.hostBindingRequired)) := by
      cases scanned : lane.verdict facts before.policy.rules lane.hostBindingRequired with
      | acts action => exact reflexive _
      | undetermined => exact reflexive _
      | noMatch => exact routed context lane asked served scanned
    cases bound : lane.hostBindingRequired with
    | false =>
      rw [judge_effect_unbound bound, judge_effect_unbound bound, agree.rules]
      rwa [bound] at settle
    | true =>
      rw [judge_effect_bound bound, judge_effect_bound bound, agree.rules]
      rw [bound] at settle
      split
      · exact reflexive _
      · exact settle
  · intro operation name principal
    rw [toolAnswer_effect, toolAnswer_effect, agree.rules]
    simp only [CompiledPolicy.admission, agree.tools]
    exact reflexive _
  · intro operation method path principal
    rw [agree.rules]
    exact reflexive _
  · intro toolName path
    rw [agree.rules]
    simp only [CompiledPolicy.sourceUsable, agree.tools]
    exact reflexive _

end Agreement

section Selection

variable {front middle back : List RouteRule} {route earlier : RouteRule} {lane : Kernel.Lane}

theorem route_alias {canonical : String} (alias_ : lane.canonicalPath = some canonical)
    (routes : List RouteRule) :
    lane.route routes =
      (routes.find? (selectsBy lane none)).or (routes.find? (selectsBy lane (some canonical))) := by
  unfold Lane.route
  rw [alias_]
  rfl

theorem route_single (single : lane.canonicalPath = none) (routes : List RouteRule) :
    lane.route routes = routes.find? (selectsBy lane (some lane.path)) := by
  unfold Lane.route
  rw [single]
  rfl

theorem route_mem {routes : List RouteRule} (selected : lane.route routes = some route) :
    route ∈ routes := by
  cases canonical : lane.canonicalPath with
  | none =>
    rw [route_single canonical] at selected
    exact mem_of_find?_eq_some selected
  | some identity =>
    rw [route_alias canonical, Option.or_eq_some_iff] at selected
    rcases selected with first | ⟨-, second⟩
    · exact mem_of_find?_eq_some first
    · exact mem_of_find?_eq_some second

theorem route_delete
    (spared : ∀ byPrefix, Asks lane byPrefix → selectsBy lane byPrefix route = true →
      ∃ earlier ∈ front, selectsBy lane byPrefix earlier = true) :
    lane.route (front ++ back) = lane.route (front ++ route :: back) := by
  cases canonical : lane.canonicalPath with
  | none =>
    have asks : Asks lane (some lane.path) := by simp [Asks, Lane.paths, canonical]
    rw [route_single canonical, route_single canonical, find?_delete (spared _ asks)]
  | some identity =>
    have exactly : Asks lane none := by simp [Asks, canonical]
    have byPrefix : Asks lane (some identity) := by simp [Asks, Lane.paths, canonical]
    rw [route_alias canonical, route_alias canonical, find?_delete (spared _ exactly),
      find?_delete (spared _ byPrefix)]

theorem route_move
    (covers : ∀ byPrefix, Asks lane byPrefix → selectsBy lane byPrefix route = true →
      selectsBy lane byPrefix earlier = true) :
    lane.route (front ++ route :: earlier :: (middle ++ back)) =
        lane.route (front ++ earlier :: (middle ++ route :: back)) ∨
      (lane.route (front ++ route :: earlier :: (middle ++ back)) = some route ∧
        lane.route (front ++ earlier :: (middle ++ route :: back)) = some earlier) := by
  cases canonical : lane.canonicalPath with
  | none =>
    have asks : Asks lane (some lane.path) := by simp [Asks, Lane.paths, canonical]
    rw [route_single canonical, route_single canonical]
    exact find?_move (covers _ asks)
  | some identity =>
    have exactly : Asks lane none := by simp [Asks, canonical]
    have byPrefix : Asks lane (some identity) := by simp [Asks, Lane.paths, canonical]
    rw [route_alias canonical, route_alias canonical]
    have first : (front ++ route :: earlier :: (middle ++ back)).find? (selectsBy lane none) = _ ∨
        _ ∧ _ := find?_move (covers _ exactly)
    have second : (front ++ route :: earlier :: (middle ++ back)).find?
        (selectsBy lane (some identity)) = _ ∨ _ ∧ _ := find?_move (covers _ byPrefix)
    rcases first with same | ⟨moved, unmoved⟩
    · rw [same]
      cases (front ++ earlier :: (middle ++ route :: back)).find? (selectsBy lane none) with
      | some hit => exact Or.inl rfl
      | none => simpa using second
    · rw [moved, unmoved]
      exact Or.inr ⟨rfl, rfl⟩

end Selection

section Requirements

variable {policy : Policy} {principal : Option Principal}

/-- The callers a permission admits under a mode. -/
theorem effect_ne_block {allowed : Bool} {mode : EnforcementMode} :
    effect allowed mode ≠ .block ↔ allowed = true ∨ mode = .shadow := by
  cases allowed <;> cases mode <;> simp [effect]

theorem hasPermission_of_implies {stricter looser : String}
    (implies : policy.roles.toList.all (fun entry =>
      !grantsPermission entry.2.permissions stricter ||
        grantsPermission entry.2.permissions looser) = true)
    {caller : Principal} (holds : policy.principalHasPermission caller stricter = true) :
    policy.principalHasPermission caller looser = true := by
  simp only [Policy.principalHasPermission, any_eq_true, mem_filter,
    mem_filterMap] at holds ⊢
  obtain ⟨entry, ⟨⟨role, held, found⟩, active⟩, grants⟩ := holds
  refine ⟨entry, ⟨⟨role, held, found⟩, active⟩, ?_⟩
  have listed : (role, entry) ∈ policy.roles.toList :=
    Std.ExtTreeMap.mem_toList_iff_getElem?_eq_some.mpr found
  have own := List.all_eq_true.mp implies (role, entry) listed
  simpa [grants] using own

theorem routeEffect_of_implies {stricter looser : RouteRule}
    (implies : routeRequirementImplies policy stricter looser = true)
    (forwards : routeEffect policy principal stricter ≠ .block) :
    routeEffect policy principal looser ≠ .block := by
  simp only [routeEffect, effect_ne_block] at forwards ⊢
  unfold routeRequirementImplies routeMode at implies
  cases looserMode : looser.enforcementMode.getD policy.enforcementMode with
  | shadow => exact Or.inr rfl
  | enforce =>
    rw [looserMode] at implies
    cases stricterMode : stricter.enforcementMode.getD policy.enforcementMode with
    | shadow => simp [stricterMode] at implies
    | enforce =>
      simp only [stricterMode] at implies
      have allowed := forwards.resolve_right (by simp [stricterMode])
      cases principal with
      | none => simp at allowed
      | some caller => exact Or.inl (hasPermission_of_implies implies allowed)

/-- Routes in one mode that each forward what the other does forward alike, and
alike in every respect when they enforce. -/
theorem routeEffect_of_equivalent {earlier route : RouteRule}
    (equivalent : routeMoveEffect policy earlier route = .equivalent)
    (principal : Option Principal) :
    SameAction (routeEffect policy principal earlier) (routeEffect policy principal route) ∧
      (routeMode policy route = .enforce →
        routeEffect policy principal earlier = routeEffect policy principal route) := by
  have both : routeRequirementImplies policy route earlier = true ∧
      routeRequirementImplies policy earlier route = true := by
    unfold routeMoveEffect at equivalent
    split at equivalent <;> simp_all
  obtain ⟨narrows, widens⟩ := both
  have alike : SameAction (routeEffect policy principal earlier)
      (routeEffect policy principal route) :=
    not_iff_not.mp ⟨routeEffect_of_implies widens, routeEffect_of_implies narrows⟩
  refine ⟨alike, fun enforces => ?_⟩
  have enforcesEarlier : routeMode policy earlier = .enforce := by
    cases mode : routeMode policy earlier with
    | enforce => rfl
    | shadow => simp [routeRequirementImplies, mode, enforces] at widens
  unfold SameAction routeEffect at alike
  unfold routeEffect
  unfold routeMode at enforces enforcesEarlier
  rw [enforces, enforcesEarlier] at alike ⊢
  revert alike
  cases principal.any fun principal => policy.principalHasPermission principal earlier.permission <;>
    cases principal.any fun principal =>
      policy.principalHasPermission principal route.permission <;>
    simp [effect]

end Requirements

section Routes

variable {aliasPaths : List String}

theorem configured_lane {question : Question}
    {context : PolicyEvaluationContext} {lane : Kernel.Lane} (asked : question = .http context)
    (served : Served context lane) (configured : question.Configured aliasPaths) :
    lane.canonicalPath.isSome = true → lane.path ∈ aliasPaths := by
  subst asked
  intro alias_
  rw [served.canonical] at alias_
  exact configured alias_ lane.path served.requested

variable [Externals] {before after : CompiledPolicy} {facts : PolicyFacts}
  {front middle back : List RouteRule} {route earlier : RouteRule}

theorem routedEffect_of_routes {routes : List RouteRule}
    (edited : after.policy = { before.policy with routes }) (lane : Kernel.Lane) :
    after.routedEffect lane = lane.selectedEffect before.policy (lane.route routes) := by
  rw [routedEffect_eq, edited]
  cases lane.route routes <;> rfl

/-- Deleting a route no request can be decided by changes nothing. -/
theorem delete_route_same (listed : before.policy.routes = front ++ route :: back)
    (edited : after.policy = { before.policy with routes := front ++ back })
    (question : Question) (captured : question.HostCaptured)
    (spared : ∀ context lane, question = .http context → Served context lane →
      lane.verdict facts before.policy.rules lane.hostBindingRequired = .noMatch →
      ∀ byPrefix, Asks lane byPrefix → selectsBy lane byPrefix route = true →
        ∃ earlier ∈ front, selectsBy lane byPrefix earlier = true) :
    Related Eq (question.ask before facts) (question.ask after facts) := by
  refine (AgreeOnRules.of_edit edited).related (fun _ => rfl) question facts (Or.inr captured) ?_
  intro context lane asked served undecided
  have selected : lane.route (front ++ back) = lane.route (front ++ route :: back) :=
    route_delete (spared context lane asked served undecided)
  rw [routedEffect_of_routes edited, routedEffect_eq, listed, selected]

/-- Moving a route before one that covers it relates the two routes' effects on
the requests it selects, and changes nothing else. -/
theorem move_route_related {relation : PolicyEffect → PolicyEffect → Prop}
    (reflexive : ∀ effect, relation effect effect)
    (listed : before.policy.routes = front ++ earlier :: (middle ++ route :: back))
    (edited : after.policy =
      { before.policy with routes := front ++ route :: earlier :: (middle ++ back) }) (covers : routeCovers earlier route = true)
    (selected : aliasCannotSelect aliasPaths earlier route = true) (question : Question)
    (captured : question.HostCaptured) (configured : question.Configured aliasPaths)
    (effects : ∀ principal, relation (routeEffect before.policy principal earlier)
      (routeEffect before.policy principal route)) :
    Related relation (question.ask before facts) (question.ask after facts) := by
  refine (AgreeOnRules.of_edit edited).related reflexive question facts (Or.inr captured) ?_
  intro context lane asked served _
  have path := configured_lane asked served configured
  rw [routedEffect_of_routes edited, routedEffect_eq, listed]
  have moved : lane.route (front ++ route :: earlier :: (middle ++ back)) = _ ∨ _ ∧ _ :=
    route_move fun byPrefix asks => selects_of_covers covers selected path asks
  rcases moved with same | ⟨now, was⟩
  · rw [same]
    exact reflexive _
  · rw [now, was]
    exact effects lane.principal

end Routes

section Scalars

variable [Externals] {before after : CompiledPolicy} {facts : PolicyFacts} {lane : Kernel.Lane}

/-- Every rule certainly fails where no rule decides. -/
theorem ruleTruth_of_noMatch {rules : List Rule} {rule : Rule}
    {deniesOnly : Bool} (undecided : lane.verdict facts rules deniesOnly = .noMatch)
    (listed : rule ∈ rules) (read : deniesOnly = true → rule.action = .deny) :
    lane.ruleTruth facts rule = .false := by
  unfold Lane.verdict at undecided
  cases deniesOnly with
  | true =>
    rw [if_pos rfl, Scan.verdict_eq_noMatch, firstMatch_eq_noMatch] at undecided
    simpa [within, read rfl] using undecided rule listed
  | false =>
    rw [if_neg Bool.false_ne_true] at undecided
    cases canonical : lane.canonicalPath with
    | none =>
      rw [canonical] at undecided
      exact firstMatch_eq_noMatch.mp (Scan.verdict_eq_noMatch.mp undecided) rule listed
    | some identity =>
      rw [canonical] at undecided
      exact firstMatchBy_eq_noMatch.mp (Scan.verdict_eq_noMatch.mp undecided) rule listed
        (RuleAction.mem_restrictions _)

/-- A masked default decides nothing unless an upstream is selected. -/
theorem route_of_masked {policy : Policy} {context : PolicyEvaluationContext}
    (masked : (defaultMaskedBy policy).isSome = true) (served : Served context lane)
    (unbound : lane.hostBindingRequired = false)
    (undecided : lane.verdict facts policy.rules false = .noMatch) :
    lane.route policy.routes ≠ none := by
  unfold defaultMaskedBy at masked
  cases found : findIndexed routesEverything policy.routes with
  | some hit =>
    obtain ⟨index, route⟩ := hit
    obtain ⟨listed, everything, -⟩ := findIndexed_eq_some.mp found
    simp only [routesEverything, Bool.and_eq_true, beq_iff_eq] at everything
    obtain ⟨⟨root, methods⟩, hosts⟩ := everything
    have admitted : lane.admissible route = true := by
      simp [Lane.admissible, matchesEveryMethod_sound methods, routeHostMatches, hosts, unbound]
    have selects (path : String) (identity : path ∈ lane.paths) :
        selectsBy lane (some path) route = true := by
      simp only [selectsBy, Bool.and_eq_true]
      refine ⟨?_, admitted⟩
      rw [root]
      refine pathPrefixMatches_iff.mpr ⟨by decide, Or.inr (Or.inl ⟨by decide, ?_⟩)⟩
      exact Text.startsWith_iff.mp (served.absolute path identity)
    have member := mem_of_getElem? listed
    cases canonical : lane.canonicalPath with
    | none =>
      rw [route_single canonical, Ne, List.find?_eq_none]
      push Not
      exact ⟨route, member, selects _ (by simp [Lane.paths, canonical])⟩
    | some identity =>
      rw [route_alias canonical, Ne, Option.or_eq_none_iff, List.find?_eq_none, List.find?_eq_none]
      push Not
      exact fun _ => ⟨route, member, selects _ (by simp [Lane.paths, canonical])⟩
  | none =>
    rw [found] at masked
    simp only [Option.isSome_map] at masked
    obtain ⟨⟨index, rule⟩, first⟩ := Option.isSome_iff_exists.mp masked
    obtain ⟨listed, everything, -⟩ := findIndexed_eq_some.mp first
    simp only [decidesEverything, Bool.and_eq_true, Option.isNone_iff_eq_none] at everything
    obtain ⟨⟨⟨⟨⟨http, plain⟩, anyone⟩, anywhere⟩, methods⟩, paths⟩ := everything
    have admits : Admits rule lane.method lane.path lane.principal lane.dispatchContext :=
      { http
        method := matchesEveryMethod_sound methods lane.method
        path := matchesEveryPath_sound paths (served.absolute _ lane.path_mem_paths)
        dispatch := by simp [anywhere]
        principal := by simp [PrincipalMatcher.matches, anyone] }
    have certain : lane.ruleTruth facts rule = .true :=
      lane_truth_eq_true.mpr ⟨lane.path, lane.path_mem_paths, admits.httpTruth plain 0 facts⟩
    have fails := ruleTruth_of_noMatch undecided (mem_of_getElem? listed) (by simp)
    rw [certain] at fails
    cases fails

/-- Setting a top-level scalar relates the routes' and the default's effects, and
changes nothing else. -/
theorem set_scalar_related {relation : PolicyEffect → PolicyEffect → Prop}
    (reflexive : ∀ effect, relation effect effect) {defaultAction : DefaultAction}
    {enforcementMode : EnforcementMode}
    (edited : after.policy = { before.policy with defaultAction, enforcementMode })
    (question : Question)
    (routes : ∀ route ∈ before.policy.routes, ∀ principal,
      relation (routeEffect before.policy principal route)
        (routeEffect { before.policy with defaultAction, enforcementMode } principal route))
    (unrouted : (∀ context (lane : Kernel.Lane), Served context lane →
        lane.hostBindingRequired = false →
        lane.verdict facts before.policy.rules false = .noMatch →
        lane.route before.policy.routes ≠ none) ∨
      relation (defaultEffect before.policy false)
        (defaultEffect { before.policy with defaultAction, enforcementMode } false)) :
    Related relation (question.ask before facts) (question.ask after facts) := by
  refine (AgreeOnRules.of_edit edited).related reflexive question facts
    (Or.inl (hostQualifiedRoutes_congr (by rw [edited]))) ?_
  intro context lane _ served undecided
  rw [routedEffect_eq, routedEffect_eq, edited]
  cases selected : lane.route before.policy.routes with
  | some route => exact routes route (route_mem selected) lane.principal
  | none =>
    simp only [Lane.selectedEffect]
    cases bound : lane.hostBindingRequired with
    | true => exact reflexive .block
    | false =>
      rw [bound] at undecided
      rcases unrouted with never | related
      · exact absurd selected (never context lane served bound undecided)
      · exact related

section

variable (edited : after.policy = { before.policy with defaultAction := .deny })

include edited

/-- Denying by default forwards nothing new. -/
theorem deny_default_narrows (allows : before.policy.defaultAction = .allow) (question : Question) :
    Related Narrows (question.ask before facts) (question.ask after facts) := by
  refine set_scalar_related Narrows.refl edited question (fun _ _ _ => Narrows.refl _) (Or.inr ?_)
  intro _
  simp [defaultEffect, allows, effect]

theorem deny_default_same
    (masked : (defaultMaskedBy before.policy).isSome = true) (question : Question) :
    Related Eq (question.ask before facts) (question.ask after facts) :=
  set_scalar_related (fun _ => rfl) edited question (fun _ _ _ => rfl)
    (Or.inl fun _ _ served unbound undecided => route_of_masked masked served unbound undecided)

end

section

variable (edited : after.policy = { before.policy with enforcementMode := .enforce })

include edited

/-- Shadow mode forwards whatever a denial would block. -/
theorem enforce_narrows (shadows : before.policy.enforcementMode = .shadow) (question : Question) :
    Related Narrows (question.ask before facts) (question.ask after facts) := by
  refine set_scalar_related Narrows.refl edited question (fun route _ principal => ?_)
    (Or.inr fun _ => ?_)
  · simp only [Narrows, routeEffect, effect_ne_block]
    intro forwarded
    cases own : route.enforcementMode with
    | none => exact Or.inr shadows
    | some mode =>
      rw [own] at forwarded
      exact forwarded
  · simp [defaultEffect, effect_ne_block, shadows]

theorem enforce_same (inert : shadowInert before.policy = true) (question : Question) :
    Related Eq (question.ask before facts) (question.ask after facts) := by
  simp only [shadowInert, Bool.and_eq_true, beq_iff_eq, Bool.not_eq_true',
    length_eq_zero_iff] at inert
  obtain ⟨settled, unsoftened⟩ := inert
  refine set_scalar_related (fun _ => rfl) edited question (fun route listed principal => ?_) ?_
  · have own : route.enforcementMode ≠ none := by
      simpa using List.filter_eq_nil_iff.mp settled route listed
    obtain ⟨mode, moded⟩ := Option.ne_none_iff_exists'.mp own
    simp [routeEffect, moded, Policy.principalHasPermission]
  · cases masked : (defaultMaskedBy before.policy).isSome with
    | true =>
      exact Or.inl fun _ _ served unbound undecided =>
        route_of_masked masked served unbound undecided
    | false =>
      right
      have allows : before.policy.defaultAction = .allow := by
        have denies : before.policy.defaultAction ≠ .deny := by
          simpa [defaultSoftened, Option.isSome_eq_false_iff.mp masked] using unsoftened
        cases action : before.policy.defaultAction with
        | allow => rfl
        | deny => exact absurd action denies
      simp [defaultEffect, allows, effect]

end

end Scalars

section Rates

variable [Externals] {before after : CompiledPolicy} {facts : PolicyFacts}
  {front middle back rateLimits : List RateLimitRule} {limit earlier : RateLimitRule}

/-- The limits stay the same, or none of them is raised. -/
def LimitsNarrow (before after : Option RateLimit) : Prop :=
  after = before ∨ ∃ was now, before = some was ∧ after = some now ∧
    now.requestsPerSecond ≤ was.requestsPerSecond ∧ now.burst ≤ was.burst

/-- No lane but the rate lane reads the overrides. -/
theorem overrides_unread
    (edited : after.policy = { before.policy with rateLimits }) (question : Question) :
    Related Eq (question.ask before facts) (question.ask after facts) := by
  refine (AgreeOnRules.of_edit edited).related (fun _ => rfl) question facts
    (Or.inl (hostQualifiedRoutes_congr (by rw [edited]))) ?_
  intro context lane _ _ _
  rw [routedEffect_eq, routedEffect_eq, edited]
  cases lane.route before.policy.routes <;> rfl

theorem delete_override_same (listed : before.policy.rateLimits = front ++ limit :: back)
    (ahead : earlier ∈ front)
    (edited : after.policy = { before.policy with rateLimits := front ++ back })
    (covers : rateCovers earlier (earlier.path.bind segments) limit (limit.path.bind segments) =
      true) (context : PolicyEvaluationContext) (facts : PolicyFacts) :
    Related (Related Eq) (selectLimits context before facts)
      (selectLimits context after facts) := by
  refine selectLimits_related (fun _ => rfl) (identity_congr (by rw [edited])) context facts ?_
  intro principal method path absolute
  have kept : (front ++ limit :: back).find? (CompiledPolicy.rateRuleMatches principal method path) =
      (front ++ back).find? (CompiledPolicy.rateRuleMatches principal method path) :=
    find?_delete fun governed => ⟨earlier, ahead, rateCovers_sound covers absolute governed⟩
  rw [governing, governing, listed, edited, kept]

/-- Moving a covered override that is no looser before its covering one raises no
selected limit. -/
theorem move_override_narrows
    (listed : before.policy.rateLimits = front ++ earlier :: (middle ++ limit :: back))
    (edited : after.policy =
      { before.policy with rateLimits := front ++ limit :: earlier :: (middle ++ back) })
    (covers : rateCovers earlier (earlier.path.bind segments) limit (limit.path.bind segments) =
      true) (stricter : limitsWithin limit earlier = true) (context : PolicyEvaluationContext)
    (facts : PolicyFacts) :
    Related (Related LimitsNarrow) (selectLimits context before facts)
      (selectLimits context after facts) := by
  refine selectLimits_related (fun _ => Or.inl rfl) (identity_congr (by rw [edited])) context facts ?_
  intro principal method path absolute
  have moved : (front ++ limit :: earlier :: (middle ++ back)).find?
      (CompiledPolicy.rateRuleMatches principal method path) = _ ∨ _ ∧ _ :=
    find?_move fun governed => rateCovers_sound covers absolute governed
  rw [governing, governing, listed, edited]
  rcases moved with same | ⟨now, was⟩
  · rw [same]
    exact Or.inl rfl
  · rw [now, was]
    simp only [limitsWithin, Bool.and_eq_true, decide_eq_true_eq] at stricter
    exact Or.inr ⟨limitOf earlier, limitOf limit, rfl, rfl, stricter⟩

end Rates

end GreenGateway.Analysis
