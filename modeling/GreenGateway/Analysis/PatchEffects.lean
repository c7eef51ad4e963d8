import GreenGateway.Analysis.Reachability
import GreenGateway.Analysis.RoutePatches

/-! The access effect a candidate patch states is true of the policy its edits
leave. -/

namespace GreenGateway.Analysis

open Foundation Rbac Kernel Simulation CompiledPolicy Question

/-- A shadowed route that would observe rather than block once moved. -/
def Finding.MovesShadowRoute (policy : Policy) (finding : Finding) : Prop :=
  finding.code = .routeShadowed ∧ ∃ position route, policy.routes[position]? = some route ∧
    finding.element = routeRef position route ∧ routeMode policy route = .shadow

/-- A shadowed rule whose own action is to observe. -/
def Finding.MovesShadowRule (policy : Policy) (finding : Finding) : Prop :=
  finding.code = .ruleShadowed ∧ ∃ position rule, policy.rules[position]? = some rule ∧
    finding.element = ruleRef position rule ∧ rule.action = .shadow

/-- An edit expects the id its element carries. -/
theorem expected_of_elementId {id : Option String} (own : String)
    (named : Analysis.elementId id = some own) : id = some own :=
  (Option.filter_eq_some_iff.mp named).1

/-- What precedes an element stands in the part before it. -/
theorem Precedes.mem_front {α : Type} {earlierPosition position : Nat}
    {items front back : List α} {item earlier : α}
    (precedes : Precedes items earlierPosition earlier position item)
    (split : items = front ++ item :: back) (size : front.length = position) : earlier ∈ front := by
  have found := precedes.listedEarlier
  rw [split, List.getElem?_append_left (by have := precedes.before; omega)] at found
  exact List.mem_of_getElem? found

section Effects

variable [Externals]

/-- What an access effect states of the policies before and after a patch. Two
routes in shadow mode forward alike and may observe differently; an alias request
that a missing fact left undecided may be settled by a shadow rule. -/
def AccessEffect.Holds (aliasPaths : List String) (finding : Finding)
    (before after : CompiledPolicy) : AccessEffect → Prop
  | .equivalent =>
    (∀ (question : Question) (facts : PolicyFacts), question.HostCaptured →
      question.Configured aliasPaths →
        Related Eq (question.ask before facts) (question.ask after facts) ∨
          finding.MovesShadowRoute before.policy ∧
            Related SameAction (question.ask before facts) (question.ask after facts)) ∧
      ∀ context facts, Related (Related Eq) (selectLimits context before facts)
        (selectLimits context after facts)
  | .narrowing =>
    (∀ (question : Question) (facts : PolicyFacts), question.HostCaptured →
      question.Configured aliasPaths →
        Related Narrows (question.ask before facts) (question.ask after facts) ∨
          finding.MovesShadowRule before.policy ∧
            AliasUndecided question before facts) ∧
      ∀ context facts, Related (Related LimitsNarrow) (selectLimits context before facts)
        (selectLimits context after facts)
  | .expanding | .unknown => True

/-- The patch's edits apply, and what they leave is what its access effect states. -/
def CandidatePatch.Delivers (policy : Policy) (aliasPaths : List String) (finding : Finding)
    (patch : CandidatePatch) : Prop :=
  ∀ pointer, ∃ edited, applyEdits policy patch.edits pointer = .ok edited ∧
    ∀ before after : CompiledPolicy, before.policy = policy → after.policy = edited →
      patch.accessEffect.Holds aliasPaths finding before after

section Delivery

variable {policy : Policy} {aliasPaths : List String} {finding : Finding}
  {accessEffect : AccessEffect} {position earlierPosition : Nat} {before after : CompiledPolicy}

theorem CandidatePatch.Delivers.set {scalar : ScalarEdit} {edited : Policy}
    (applied : applyEdit policy (.set scalar) = .ok edited)
    (holds : ∀ before after : CompiledPolicy, before.policy = policy → after.policy = edited →
      accessEffect.Holds aliasPaths finding before after) :
    CandidatePatch.Delivers policy aliasPaths finding
      { accessEffect, edits := [.set scalar] } := fun pointer =>
  ⟨edited, applyEdits_single applied pointer, holds⟩

variable (section_ : EditSection)

theorem CandidatePatch.Delivers.delete {item : section_.Element}
    (listed : (section_.items policy)[position]? = some item)
    (holds : ∀ front back, section_.items policy = front ++ item :: back →
      front.length = position → ∀ before after : CompiledPolicy, before.policy = policy →
        after.policy = section_.setItems policy (front ++ back) →
        accessEffect.Holds aliasPaths finding before after) :
    CandidatePatch.Delivers policy aliasPaths finding
      { accessEffect
        edits := [.delete section_ position (elementId (section_.elementId item))] } := by
  intro pointer
  obtain ⟨front, back, split, size, applied⟩ :=
    applyEdits_delete listed expected_of_elementId pointer
  exact ⟨_, applied, holds front back split size⟩

theorem CandidatePatch.Delivers.move {item earlier : section_.Element}
    (precedes : Precedes (section_.items policy) earlierPosition earlier position item)
    (holds : ∀ front middle back,
      section_.items policy = front ++ earlier :: (middle ++ item :: back) →
      ∀ before after : CompiledPolicy, before.policy = policy →
        after.policy = section_.setItems policy (front ++ item :: earlier :: (middle ++ back)) →
        accessEffect.Holds aliasPaths finding before after) :
    CandidatePatch.Delivers policy aliasPaths finding
      { accessEffect
        edits := [.move section_ position earlierPosition
          (elementId (section_.elementId item))] } := by
  intro pointer
  obtain ⟨front, middle, back, split, applied⟩ :=
    applyEdits_move precedes.listed precedes.listedEarlier precedes.before expected_of_elementId
      pointer
  exact ⟨_, applied, holds front middle back split⟩

section

variable {rules : List Rule} {routes : List RouteRule} {defaultAction : DefaultAction}
  {enforcementMode : EnforcementMode} (edited : after.policy =
    { before.policy with rules, routes, defaultAction, enforcementMode })

include edited

theorem AccessEffect.Holds.of_same
    (same : ∀ (question : Question) facts, question.HostCaptured → question.Configured aliasPaths →
      Related Eq (question.ask before facts) (question.ask after facts)) :
    AccessEffect.equivalent.Holds aliasPaths finding before after :=
  ⟨fun question facts captured configured => Or.inl (same question facts captured configured),
    limits_unchanged (fun _ => rfl) edited⟩

theorem AccessEffect.Holds.of_narrows
    (narrows : ∀ (question : Question) facts, question.HostCaptured →
      question.Configured aliasPaths →
        Related Narrows (question.ask before facts) (question.ask after facts)) :
    AccessEffect.narrowing.Holds aliasPaths finding before after :=
  ⟨fun question facts captured configured => Or.inl (narrows question facts captured configured),
    limits_unchanged (fun _ => Or.inl rfl) edited⟩

end

end Delivery

section Rules

variable {policy : Policy} {aliasPaths : List String} {finding : Finding}
  {position earlierPosition : Nat} {rule earlier : Rule} {toolName : String}

/-- Deleting an unconditional rule that forwards narrows. -/
theorem delete_forwarding_delivers (listed : policy.rules[position]? = some rule)
    (http : isHttpRule rule = true) (plain : unconditional rule = true)
    (forwards : rule.action ≠ .deny) :
    CandidatePatch.Delivers policy aliasPaths finding
      { accessEffect := .narrowing, edits := [.delete .rules position (elementId rule.id)] } := by
  refine .delete .rules listed ?_
  rintro front back split - before after rfl edited
  refine .of_narrows edited fun question facts _ _ => ?_
  exact delete_forwarding_narrows split edited http plain forwards question

section

variable (precedes : Precedes policy.rules earlierPosition earlier position rule)

include precedes

theorem delete_covered_delivers
    (outmatched : Outmatches earlier rule)
    (restrictive : restrictiveness rule.action ≤ restrictiveness earlier.action) :
    CandidatePatch.Delivers policy aliasPaths finding
      { accessEffect := .equivalent, edits := [.delete .rules position (elementId rule.id)] } := by
  refine .delete .rules precedes.listed ?_
  rintro front back split size before after rfl edited
  refine .of_same edited fun question facts _ _ => ?_
  exact delete_covered_same split (precedes.mem_front split size) edited outmatched restrictive
    question

/-- Moving a rule before a less restrictive one that covers it narrows. -/
theorem move_restrictive_delivers
    (code : finding.code = .ruleShadowed) (element : finding.element = ruleRef position rule)
    (outmatched : Outmatches earlier rule)
    (looser : restrictiveness earlier.action < restrictiveness rule.action) :
    CandidatePatch.Delivers policy aliasPaths finding
      { accessEffect := .narrowing
        edits := [.move .rules position earlierPosition (elementId rule.id)] } := by
  refine .move .rules precedes ?_
  rintro front middle back split before after rfl edited
  refine ⟨fun question facts _ _ => ?_, limits_unchanged (fun _ => Or.inl rfl) edited⟩
  refine (move_restrictive_narrows split edited outmatched looser question).imp_right ?_
  rintro ⟨observes, undecided⟩
  exact ⟨⟨code, position, rule, precedes.listed, element, observes⟩, undecided⟩

end

theorem delete_refused_delivers {reason : String}
    (listed : policy.rules[position]? = some rule) (named : rule.toolName = some toolName)
    (conflict : toolConflict policy rule toolName = some reason) :
    CandidatePatch.Delivers policy aliasPaths finding
      { accessEffect := .equivalent, edits := [.delete .rules position (elementId rule.id)] } := by
  refine .delete .rules listed ?_
  rintro (front : List Rule) (back : List Rule) split - before after rfl edited
  have agree := AgreeBesidesRules.of_edit edited
  have rules : after.policy.rules = front ++ back := by rw [edited]; rfl
  have authored : before.policy.rules = front ++ rule :: back := split
  refine .of_same edited fun question facts _ _ => agree.same question facts ?_ ?_
  · intro lane facts deniesOnly
    rw [authored, rules]
    exact verdict_delete (fun open_ => absurd (ruleTruth_tool named lane facts) open_) deniesOnly
  · intro operation name principal unsettled
    obtain ⟨entry, held, enabled, admitted⟩ := entry_of_admission unsettled
    rw [authored, rules]
    exact toolVerdict_delete fun open_ =>
      absurd (toolConflict_refuses named conflict held enabled admitted) open_

theorem CoveredRule.outmatches (covered : CoveredRule policy earlierPosition earlier position rule) :
    Outmatches earlier rule where
  lanes _ _ := covered.truth
  tools name principal facts := absurd (toolRuleTruth_http covered.http name principal facts)

namespace CoveredToolRule

variable (covered : CoveredToolRule policy earlierPosition earlier position rule toolName)

include covered

theorem outmatches : Outmatches earlier rule where
  lanes lane facts := absurd (ruleTruth_tool covered.named lane facts)
  tools _ _ _ := covered.toolTruth

theorem delivers {patch : CandidatePatch}
    (patched : (coveredToolFinding position rule earlierPosition earlier).patch = some patch) :
    patch.Delivers policy aliasPaths (coveredToolFinding position rule earlierPosition earlier) := by
  unfold coveredToolFinding at patched ⊢
  by_cases restrictive : restrictiveness earlier.action ≥ restrictiveness rule.action
  · rw [if_pos restrictive] at patched ⊢
    obtain rfl := Option.some.inj patched
    exact delete_covered_delivers covered.precedes covered.outmatches restrictive
  · rw [if_neg restrictive] at patched ⊢
    obtain rfl := Option.some.inj patched
    exact move_restrictive_delivers covered.precedes rfl rfl covered.outmatches (by omega)

end CoveredToolRule

end Rules

section Scalars

variable {policy : Policy} {aliasPaths : List String} {patch : CandidatePatch}

theorem defaultAllow_delivers (allows : policy.defaultAction = .allow)
    (patched : (defaultAllowFinding policy).patch = some patch) :
    patch.Delivers policy aliasPaths (defaultAllowFinding policy) := by
  obtain rfl := Option.some.inj patched
  refine .set rfl ?_
  rintro before after rfl edited
  by_cases masked : (defaultMaskedBy before.policy).isSome = true
  · rw [if_pos masked]
    exact .of_same edited fun question facts _ _ => deny_default_same edited masked question
  · rw [if_neg masked]
    exact .of_narrows edited fun question facts _ _ => deny_default_narrows edited allows question

theorem globalShadow_delivers (shadows : policy.enforcementMode = .shadow)
    (patched : (globalShadowFinding policy).patch = some patch) :
    patch.Delivers policy aliasPaths (globalShadowFinding policy) := by
  obtain rfl := Option.some.inj patched
  refine .set rfl ?_
  rintro before after rfl edited
  by_cases inert : shadowInert before.policy = true
  · rw [if_pos inert]
    exact .of_same edited fun question facts _ _ => enforce_same edited inert question
  · rw [if_neg inert]
    exact .of_narrows edited fun question facts _ _ => enforce_narrows edited shadows question

end Scalars

section Routes

variable {policy : Policy} {aliasPaths : List String} {position earlierPosition rulePosition : Nat}
  {route earlier : RouteRule} {rule : Rule} {patch : CandidatePatch}

theorem RuledRoute.unselected (ruled : RuledRoute policy rulePosition rule position route)
    (denies : rule.action = .deny) {lane : Kernel.Lane} {facts : PolicyFacts} {deniesOnly : Bool}
    (undecided : lane.verdict facts policy.rules deniesOnly = .noMatch) {byPrefix : Option String}
    (asks : Asks lane byPrefix) : selectsBy lane byPrefix route = false := by
  by_contra selects
  rw [Bool.not_eq_false] at selects
  have fails : lane.ruleTruth facts rule = .false :=
    ruleTruth_of_noMatch undecided (List.mem_of_getElem? ruled.listedRule) fun _ => denies
  rw [Lane.ruleTruth, ruled.truth asks selects] at fails
  cases fails

theorem RuledRoute.delivers (ruled : RuledRoute policy rulePosition rule position route)
    (patched : (routeDecidedByRule position route rulePosition rule).patch = some patch) :
    patch.Delivers policy aliasPaths (routeDecidedByRule position route rulePosition rule) := by
  unfold routeDecidedByRule at patched ⊢
  by_cases denies : rule.action = .deny
  · rw [if_pos denies] at patched ⊢
    obtain rfl := Option.some.inj patched
    refine .delete .routes ruled.listed ?_
    rintro front back split - before after rfl edited
    refine .of_same edited fun question facts captured _ => ?_
    refine delete_route_same split edited question captured ?_
    intro context lane _ _ undecided byPrefix asks selects
    rw [ruled.unselected denies undecided asks] at selects
    cases selects
  · rw [if_neg denies] at patched ⊢
    obtain rfl := Option.some.inj patched
    have caller := ruled.everyCaller
    simp only [bindsCaller, Bool.or_eq_false_iff, Bool.not_eq_false'] at caller
    exact delete_forwarding_delivers ruled.listedRule caller.1.1.1 caller.1.1.2 denies

theorem CoveredRoute.delivers
    (covered : CoveredRoute policy aliasPaths earlierPosition earlier position route)
    (patched :
      (routeDecidedEarlier policy position route earlierPosition earlier).patch = some patch) :
    patch.Delivers policy aliasPaths
      (routeDecidedEarlier policy position route earlierPosition earlier) := by
  unfold routeDecidedEarlier at patched ⊢
  dsimp only at patched ⊢
  by_cases differs : (earlier.permission != route.permission ||
      routeMode policy earlier != routeMode policy route) = true
  · rw [if_pos differs] at patched ⊢
    obtain rfl := Option.some.inj patched
    refine .move .routes covered.precedes ?_
    rintro front middle back split before after rfl edited
    cases moves : routeMoveEffect before.policy earlier route with
    | expanding => trivial
    | unknown => trivial
    | narrowing =>
      have implies : routeRequirementImplies before.policy route earlier = true := by
        unfold routeMoveEffect at moves
        split at moves <;> simp_all
      refine .of_narrows edited fun question facts captured configured => ?_
      exact move_route_related Narrows.refl split edited covered.covers covered.selected question
        captured configured fun principal => routeEffect_of_implies implies
    | equivalent =>
      refine ⟨fun question facts captured configured => ?_, limits_unchanged (fun _ => rfl) edited⟩
      cases mode : routeMode before.policy route with
      | enforce =>
        exact Or.inl <| move_route_related (fun _ => rfl) split edited covered.covers
          covered.selected question captured configured fun principal =>
            (routeEffect_of_equivalent moves principal).2 mode
      | shadow =>
        refine Or.inr ⟨⟨rfl, position, route, covered.precedes.listed, rfl, mode⟩, ?_⟩
        exact move_route_related (fun _ => Iff.rfl) split edited covered.covers covered.selected
          question captured configured fun principal =>
            (routeEffect_of_equivalent moves principal).1
  · rw [if_neg differs] at patched ⊢
    obtain rfl := Option.some.inj patched
    refine .delete .routes covered.precedes.listed ?_
    rintro front back split size before after rfl edited
    refine .of_same edited fun question facts captured configured => ?_
    refine delete_route_same split edited question captured ?_
    intro context lane asked served _ byPrefix asks selects
    exact ⟨earlier, covered.precedes.mem_front split size,
      selects_of_covers covered.covers covered.selected (configured_lane asked served configured)
        asks selects⟩

end Routes

section Rates

variable {policy : Policy} {aliasPaths : List String} {position earlierPosition : Nat}
  {limit earlier : RateLimitRule}

theorem CoveredRate.delivers {patch : CandidatePatch}
    (covered : CoveredRate policy earlierPosition earlier position limit)
    (patched : (rateCoveredFinding position limit earlierPosition earlier).patch = some patch) :
    patch.Delivers policy aliasPaths
      (rateCoveredFinding position limit earlierPosition earlier) := by
  unfold rateCoveredFinding at patched ⊢
  dsimp only at patched ⊢
  by_cases same : earlier.requestsPerSecond = limit.requestsPerSecond ∧ earlier.burst = limit.burst
  · rw [if_pos same] at patched ⊢
    obtain rfl := Option.some.inj patched
    refine .delete .rateLimits covered.precedes.listed ?_
    rintro front back split size before after rfl edited
    refine ⟨fun question facts _ _ => Or.inl (overrides_unread edited question), fun context facts =>
      delete_override_same split (covered.precedes.mem_front split size) edited covered.covers
        context facts⟩
  · rw [if_neg same] at patched ⊢
    obtain rfl := Option.some.inj patched
    refine .move .rateLimits covered.precedes ?_
    rintro front middle back split before after rfl edited
    by_cases stricter : limitsWithin limit earlier = true
    · simp only [if_pos stricter]
      refine ⟨fun question facts _ _ => Or.inl ?_, fun context facts =>
        move_override_narrows split edited covered.covers stricter context facts⟩
      exact (overrides_unread edited question).mono fun before after alike => by
        rw [alike]
        exact Narrows.refl after
    · simp only [if_neg stricter]
      split_ifs <;> trivial

end Rates

theorem Justified.delivers {policy : Policy} {aliasPaths : List String} {finding : Finding}
    {patch : CandidatePatch} (justified : Justified policy aliasPaths finding)
    (proven : finding.proofBasis = .proven) (patched : finding.patch = some patch) :
    patch.Delivers policy aliasPaths finding := by
  cases justified with
  | claimless _ patchless => simp [patchless] at patched
  | unproven basis => exact absurd proven basis
  | defaultAllow allows => exact defaultAllow_delivers allows patched
  | globalShadow shadows => exact globalShadow_delivers shadows patched
  | broadRule listed broad =>
    obtain rfl := Option.some.inj patched
    simp only [couldBeBroad, Bool.and_eq_true, bne_iff_ne] at broad
    exact delete_forwarding_delivers listed broad.1.1.2 broad.1.2 broad.1.1.1
  | toolRefused listed named conflict =>
    obtain rfl := Option.some.inj patched
    exact delete_refused_delivers listed named conflict
  | coveredRule covered restrictive =>
    obtain rfl := Option.some.inj patched
    exact delete_covered_delivers covered.precedes covered.outmatches restrictive
  | shadowedRule covered looser =>
    obtain rfl := Option.some.inj patched
    exact move_restrictive_delivers covered.precedes rfl rfl covered.outmatches looser
  | coveredToolRule covered => exact covered.delivers patched
  | ruledRoute ruled => exact ruled.delivers patched
  | coveredRoute covered => exact covered.delivers patched
  | coveredRate covered => exact covered.delivers patched

/-- The edits of every patch a proven finding carries apply to the analyzed policy,
and the access effect the patch states is true of the policy they leave. -/
theorem analyze_patch_delivers {policy : Policy} {resources : AnalysisResources}
    {outcome : AnalysisOutcome} {finding : Finding} {patch : CandidatePatch}
    (analyzed : analyze policy resources = .ok outcome) (reported : finding ∈ outcome.findings)
    (proven : finding.proofBasis = .proven) (patched : finding.patch = some patch) :
    patch.Delivers policy resources.mcpAliasPaths finding :=
  (analyze_justified analyzed finding reported).delivers proven patched

end Effects

section Sample

attribute [local instance] inertExternals

theorem analyze_patch_delivers_sample :
    ∃ outcome finding patch, analyze coveredDenyPolicy (quietResources ["/a/b"]) = .ok outcome ∧
      finding ∈ outcome.findings ∧ finding.proofBasis = .proven ∧ finding.patch = some patch ∧
      patch.accessEffect = .equivalent ∧ patch.Delivers coveredDenyPolicy ["/a/b"] finding := by
  have reported : ∃ outcome finding patch,
      analyze coveredDenyPolicy (quietResources ["/a/b"]) = .ok outcome ∧
        finding ∈ outcome.findings ∧ finding.proofBasis = .proven ∧
        finding.patch = some patch ∧ patch.accessEffect = .equivalent :=
    ⟨_, _, _, rfl, List.mem_cons_self .., rfl, rfl, rfl⟩
  obtain ⟨outcome, finding, patch, analyzed, member, proven, patched, same⟩ := reported
  exact ⟨outcome, finding, patch, analyzed, member, proven, patched, same,
    analyze_patch_delivers analyzed member proven patched⟩

/-- Two routes over one prefix, both in shadow mode, with different permissions. -/
def shadowRoutesPolicy : Policy :=
  { schemaVersion := "0.1.0"
    roles := (∅ : NameMap RoleEntry).insert "reader" { permissions := ["read"] }
    routes :=
      [{ pathPrefix := "/api", permission := "read", enforcementMode := some .shadow },
       { pathPrefix := "/api", permission := "audit", enforcementMode := some .shadow }] }

/-- A shadow rule behind an allow that covers it and a shadow rule that reads a
header. -/
def aliasShadowPolicy : Policy :=
  { schemaVersion := "0.1.0"
    rules :=
      [{ path := "/mcp", methods := ["POST"], action := .allow },
       { path := "/tools/mcp", action := .shadow
         conditions := some (.header { name := "x-env", values := ["prod"] }) },
       { path := "/mcp", methods := ["POST"], action := .shadow }] }

def readerCall : PolicyEvaluationContext :=
  { boundContext ["reader"] with target := .contextless, dispatch := none }

def aliasCall : PolicyEvaluationContext :=
  { snapshot := boundSnapshot
    method := some "POST"
    path := some "/tools/mcp"
    principal := .anonymous
    target := .mcpAlias "/mcp"
    requestHost := .absent }

/-- Swapping two shadow routes keeps a request forwarded and changes whether it is
observed; moving a shadow rule forwards an alias request that a missing header
left undecided. -/
theorem analyze_patch_exceptions :
    (∃ outcome finding patch edited,
      analyze shadowRoutesPolicy (quietResources []) = .ok outcome ∧
        finding ∈ outcome.findings ∧ finding.proofBasis = .proven ∧
        finding.patch = some patch ∧ patch.accessEffect = .equivalent ∧
        applyEdits shadowRoutesPolicy patch.edits "/edits" = .ok edited ∧
        (http readerCall).HostCaptured ∧
        (http readerCall).Configured [] ∧
        (http readerCall).ask
          (.assemble shadowRoutesPolicy boundSnapshot) {} = .ok .allow ∧
        (http readerCall).ask
          (.assemble edited boundSnapshot) {} = .ok .observe) ∧
      ∃ outcome finding patch edited,
        analyze aliasShadowPolicy (quietResources ["/tools/mcp"]) = .ok outcome ∧
          finding ∈ outcome.findings ∧ finding.proofBasis = .proven ∧
          finding.patch = some patch ∧ patch.accessEffect = .narrowing ∧
          applyEdits aliasShadowPolicy patch.edits "/edits" = .ok edited ∧
          (http aliasCall).HostCaptured ∧
          (http aliasCall).Configured ["/tools/mcp"] ∧
          (http aliasCall).ask
            (.assemble aliasShadowPolicy boundSnapshot) {} = .ok .block ∧
          (http aliasCall).ask
            (.assemble edited boundSnapshot) {} = .ok .observe := by
  refine ⟨⟨_, _, _, _, rfl, List.mem_cons_self .., rfl, rfl, rfl, rfl, ?_, ?_, rfl, rfl⟩,
    ⟨_, _, _, _, rfl, List.mem_cons_self .., rfl, rfl, rfl, rfl, ?_, ?_, rfl, rfl⟩⟩
  · exact Or.inl (by decide)
  · intro alias_
    cases alias_
  · exact Or.inl (by decide)
  · rintro - path requested
    obtain rfl := Option.some.inj requested
    exact List.mem_singleton.mpr rfl

end Sample

end GreenGateway.Analysis
