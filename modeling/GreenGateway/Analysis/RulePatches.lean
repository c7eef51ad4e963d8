import GreenGateway.Analysis.Meaning
import GreenGateway.Kernel.Questions

/-! What deleting or moving one direct rule does to access in every lane, given
what is known of the rules ahead of it. -/

namespace GreenGateway.Analysis

open Foundation Rbac Kernel CompiledPolicy

/-- A request forwarded after was forwarded before. -/
def Narrows (before after : PolicyEffect) : Prop := after ≠ .block → before ≠ .block

theorem Narrows.refl (effect : PolicyEffect) : Narrows effect effect := id

/-- Two policies that differ in their direct rules alone. -/
structure AgreeBesidesRules (before after : Policy) : Prop where
  routes : after.routes = before.routes
  roles : after.roles = before.roles
  enforcementMode : after.enforcementMode = before.enforcementMode
  defaultAction : after.defaultAction = before.defaultAction
  tools : after.tools = before.tools
  identityMappings : after.identityMappings = before.identityMappings

theorem AgreeBesidesRules.of_edit {before after : Policy} {rules : List Rule}
    (edited : after = { before with rules }) : AgreeBesidesRules before after := by
  subst edited
  exact ⟨rfl, rfl, rfl, rfl, rfl, rfl⟩

section Agreement

variable [Externals] {before after : CompiledPolicy} {facts : PolicyFacts}

theorem identity_congr
    (mappings : after.policy.identityMappings = before.policy.identityMappings) :
    after.identity = before.identity := by
  rw [after.identity_eq, before.identity_eq, mappings]

theorem hostQualifiedRoutes_congr (routes : after.policy.routes = before.policy.routes) :
    after.hostQualifiedRoutes = before.hostQualifiedRoutes := by
  rw [after.hostQualifiedRoutes_eq, before.hostQualifiedRoutes_eq, routes]

theorem AgreeBesidesRules.routedEffect (agree : AgreeBesidesRules before.policy after.policy)
    (lane : Kernel.Lane) : after.routedEffect lane = before.routedEffect lane := by
  rw [routedEffect_eq, routedEffect_eq, agree.routes]
  cases lane.route before.policy.routes <;>
    simp only [Lane.selectedEffect, routeEffect, defaultEffect, Policy.principalHasPermission,
      agree.roles, agree.enforcementMode, agree.defaultAction]

/-- An edit that leaves the overrides alone selects the same limits. -/
theorem limits_unchanged {relation : Option RateLimit → Option RateLimit → Prop}
    (reflexive : ∀ limit, relation limit limit) {rules : List Rule} {routes : List RouteRule}
    {defaultAction : DefaultAction} {enforcementMode : EnforcementMode}
    (edited : after.policy =
      { before.policy with rules, routes, defaultAction, enforcementMode })
    (context : PolicyEvaluationContext) (facts : PolicyFacts) :
    Related (Related relation) (selectLimits context before facts)
      (selectLimits context after facts) := by
  refine selectLimits_related reflexive (identity_congr (by rw [edited])) context facts
    fun _ _ _ _ => ?_
  rw [edited]
  exact reflexive _

/-- Where admission leaves the answer to the rules, an enabled entry admits the
caller. -/
theorem entry_of_admission {compiled : CompiledPolicy} {operation : ToolOperation} {name : String}
    {principal : Option Principal}
    (unsettled : compiled.admission operation name principal = none) :
    ∃ entry, compiled.policy.tools[name]? = some entry ∧ entry.enabled = true ∧
      toolPrincipalMatches entry principal = true := by
  unfold CompiledPolicy.admission at unsettled
  cases held : compiled.policy.tools[name]? with
  | none => simp [held] at unsettled
  | some entry =>
    rw [held] at unsettled
    dsimp only at unsettled
    split_ifs at unsettled with disabled leaf refused
    exact ⟨entry, rfl, by simpa using disabled, by simpa using refused⟩

theorem AgreeBesidesRules.related {relation : PolicyEffect → PolicyEffect → Prop}
    (agree : AgreeBesidesRules before.policy after.policy)
    (reflexive : ∀ effect, relation effect effect) (question : Question) (facts : PolicyFacts)
    (http : ∀ context lane, question = .http context →
      before.decide (context.pinned before.snapshot) facts = .ok (before.judge lane facts) →
      Served context lane → relation (before.judge lane facts).effect (after.judge lane facts).effect)
    (rendered : ∀ operation method path principal,
      relation
        (toolEffect operation
          ((renderedLane method path principal).verdict facts before.policy.rules false))
        (toolEffect operation
          ((renderedLane method path principal).verdict facts after.policy.rules false)))
    (tool : ∀ operation name principal, before.admission operation name principal = none →
      relation (toolEffect operation (toolVerdict name principal facts before.policy.rules))
        (toolEffect operation (toolVerdict name principal facts after.policy.rules)))
    (source : ∀ path,
      relation
        (verdictEffect .allow
          ((CompiledPolicy.sourceLane path).verdict uncapturedFacts before.policy.rules true))
        (verdictEffect .allow
          ((CompiledPolicy.sourceLane path).verdict uncapturedFacts after.policy.rules true))) :
    Related relation (question.ask before facts) (question.ask after facts) := by
  refine Question.related reflexive (identity_congr agree.identityMappings) question facts
    (Or.inl (hostQualifiedRoutes_congr agree.routes)) http ?_ rendered ?_
  · intro operation name principal
    have admitted : after.admission operation name principal =
        before.admission operation name principal := by
      simp only [CompiledPolicy.admission, agree.tools]
    rw [toolAnswer_effect, toolAnswer_effect, admitted]
    cases settled : before.admission operation name principal with
    | some effect => exact reflexive effect
    | none => exact tool operation name principal settled
  · intro toolName path
    have usable : after.sourceUsable toolName = before.sourceUsable toolName := by
      simp only [CompiledPolicy.sourceUsable, agree.tools]
    rw [usable]
    split
    · exact source path
    · exact reflexive _

/-- Rules that settle every lane alike answer alike. -/
theorem AgreeBesidesRules.same (agree : AgreeBesidesRules before.policy after.policy)
    (question : Question) (facts : PolicyFacts)
    (lanes : ∀ (lane : Kernel.Lane) facts deniesOnly,
      lane.verdict facts after.policy.rules deniesOnly =
        lane.verdict facts before.policy.rules deniesOnly)
    (tool : ∀ operation name principal, before.admission operation name principal = none →
      toolVerdict name principal facts after.policy.rules =
        toolVerdict name principal facts before.policy.rules) :
    Related Eq (question.ask before facts) (question.ask after facts) := by
  refine agree.related (fun _ => rfl) question facts ?_ ?_ ?_ ?_
  · intro context lane _ _ _
    cases bound : lane.hostBindingRequired with
    | false =>
      rw [judge_effect_unbound bound, judge_effect_unbound bound, agree.routedEffect, lanes]
    | true =>
      rw [judge_effect_bound bound, judge_effect_bound bound, agree.routedEffect, lanes, lanes]
  · intro operation method path principal
    rw [lanes]
  · intro operation name principal admitted
    rw [tool operation name principal admitted]
  · intro path
    rw [lanes]

/-- A deny scan forwards nothing but what no deny matches. -/
theorem denies_effect {lane : Kernel.Lane} {rules : List Rule} {routed : PolicyEffect}
    (passes : verdictEffect routed (lane.verdict facts rules true) ≠ .block) :
    lane.verdict facts rules true = .noMatch := by
  simp only [Lane.verdict, if_true] at passes ⊢
  cases scanned : Foundation.firstMatch (within Rule.action (lane.ruleTruth facts) .deny) rules with
  | noMatch => rfl
  | undetermined hit => simp [scanned, Scan.verdict, verdictEffect] at passes
  | matched hit =>
    obtain ⟨_, _, _, yes, _⟩ := firstMatch_eq_matched.mp scanned
    have own : hit.action = .deny := by
      by_contra other
      simp [within, other] at yes
    simp [scanned, Scan.verdict, verdictEffect, own, actionEffect] at passes

/-- A scan that settles the same, nothing, or what a rule that forwards decided. -/
def Shrinks (before after : Verdict RuleAction) : Prop :=
  after = before ∨ after = .undetermined ∨ ∃ action, action ≠ .deny ∧ before = .acts action

namespace Shrinks

omit [Externals]

variable {before after : Verdict RuleAction} {old new : Scan Rule} {rule : Rule}

theorem of_scan (forwards : rule.action ≠ .deny)
    (scans : new = old ∨ (∃ hit, new = .undetermined hit) ∨ old = .matched rule) :
    Shrinks (old.verdict Rule.action) (new.verdict Rule.action) := by
  rcases scans with rfl | ⟨hit, rfl⟩ | rfl
  · exact .inl rfl
  · exact .inr (.inl rfl)
  · exact .inr (.inr ⟨rule.action, forwards, rfl⟩)

variable (shrinks : Shrinks before after)

include shrinks

theorem narrows (routed : PolicyEffect) :
    Narrows (verdictEffect routed before) (verdictEffect routed after) := by
  rcases shrinks with rfl | rfl | ⟨action, forwards, rfl⟩
  · exact Narrows.refl _
  · exact absurd rfl
  · exact fun _ => actionEffect_forwards forwards

theorem tool_narrows (operation : ToolOperation) :
    Narrows (toolEffect operation before) (toolEffect operation after) := by
  rcases shrinks with rfl | rfl | ⟨action, forwards, rfl⟩
  · exact Narrows.refl _
  · exact absurd rfl
  · exact fun _ => toolEffect_forwards forwards operation

end Shrinks

/-- Rules narrow access once their scans shrink, whatever the lane. -/
theorem AgreeBesidesRules.narrows (agree : AgreeBesidesRules before.policy after.policy)
    (question : Question)
    (denies : ∀ (lane : Kernel.Lane) facts, lane.verdict facts after.policy.rules true = .noMatch →
      lane.verdict facts before.policy.rules true = .noMatch)
    (single : ∀ lane : Kernel.Lane, lane.canonicalPath = none →
      Shrinks (lane.verdict facts before.policy.rules false)
        (lane.verdict facts after.policy.rules false))
    (alias_ : ∀ context lane canonical, question = .http context →
      before.decide (context.pinned before.snapshot) facts = .ok (before.judge lane facts) →
      Served context lane → lane.canonicalPath = some canonical → ∀ routed,
      Narrows (verdictEffect routed (lane.verdict facts before.policy.rules false))
        (verdictEffect routed (lane.verdict facts after.policy.rules false)))
    (tool : ∀ name principal, Shrinks (toolVerdict name principal facts before.policy.rules)
      (toolVerdict name principal facts after.policy.rules)) :
    Related Narrows (question.ask before facts) (question.ask after facts) := by
  refine agree.related Narrows.refl question facts ?_ ?_ ?_ ?_
  · intro context lane asked answered served
    cases bound : lane.hostBindingRequired with
    | true =>
      rw [judge_effect_bound bound, judge_effect_bound bound, agree.routedEffect]
      intro forwarded
      have settled : lane.verdict facts after.policy.rules false ≠ .undetermined := by
        intro open_
        simp [open_] at forwarded
      rw [if_neg settled] at forwarded
      have none := denies_effect forwarded
      rw [none] at forwarded
      rw [denies lane facts none, if_neg]
      · exact forwarded
      · rcases single lane (served.single bound) with same | open_ | ⟨action, -, decided⟩
        · rw [← same]
          exact settled
        · exact absurd open_ settled
        · simp [decided]
    | false =>
      rw [judge_effect_unbound bound, judge_effect_unbound bound, agree.routedEffect]
      cases canonical : lane.canonicalPath with
      | none => exact (single lane canonical).narrows _
      | some identity => exact alias_ context lane identity asked answered served canonical _
  · exact fun operation method path principal =>
      (single (renderedLane method path principal) rfl).tool_narrows operation
  · exact fun operation name principal _ => (tool name principal).tool_narrows operation
  · intro path forwarded
    rw [denies _ _ (denies_effect forwarded)]
    simp [verdictEffect]

end Agreement

section Delete

variable [Externals] {front back : List Rule} {rule : Rule} {lane : Kernel.Lane}
  {facts : PolicyFacts} {before after : CompiledPolicy}

/-- A rule is not missed where a rule ahead of it, at least as restrictive, always
matches with it. -/
theorem verdict_delete
    (spared : lane.ruleTruth facts rule ≠ .false → ∃ earlier ∈ front,
      lane.ruleTruth facts earlier = .true ∧
        restrictiveness rule.action ≤ restrictiveness earlier.action)
    (deniesOnly : Bool) :
    lane.verdict facts (front ++ back) deniesOnly =
      lane.verdict facts (front ++ rule :: back) deniesOnly := by
  unfold Lane.verdict
  cases deniesOnly with
  | true =>
    rw [if_pos rfl, if_pos rfl]
    congr 1
    refine (firstMatch_delete fun open_ => ?_).symm
    have denies : rule.action = .deny := by
      by_contra other
      simp [within, other] at open_
    obtain ⟨earlier, member, yes, restrictive⟩ := spared (by simpa [within, denies] using open_)
    have deniesEarlier : earlier.action = .deny := by
      rw [denies] at restrictive
      cases action : earlier.action <;> simp [action, restrictiveness] at restrictive ⊢
    exact ⟨earlier, member, by simp [within, deniesEarlier, yes]⟩
  | false =>
    rw [if_neg Bool.false_ne_true, if_neg Bool.false_ne_true]
    cases lane.canonicalPath with
    | none =>
      dsimp only
      rw [firstMatch_delete fun open_ => ?_]
      obtain ⟨earlier, member, yes, -⟩ := spared open_
      exact ⟨earlier, member, yes⟩
    | some identity =>
      dsimp only
      rw [firstMatchBy_delete fun open_ => ?_]
      obtain ⟨earlier, member, yes, restrictive⟩ := spared open_
      refine ⟨earlier, member, yes, ?_⟩
      cases own : rule.action <;> cases other : earlier.action <;>
        simp [own, other, restrictiveness] at restrictive ⊢

theorem toolVerdict_delete {name : String} {principal : Option Principal}
    (spared : toolRuleTruth name principal facts rule ≠ .false →
      ∃ earlier ∈ front, toolRuleTruth name principal facts earlier = .true) :
    toolVerdict name principal facts (front ++ back) =
      toolVerdict name principal facts (front ++ rule :: back) := by
  unfold toolVerdict
  rw [firstMatch_delete spared]

theorem ruleTruth_tool {toolName : String} (named : rule.toolName = some toolName)
    (lane : Kernel.Lane) (facts : PolicyFacts) : lane.ruleTruth facts rule = .false := by
  refine lane_truth_eq_false.mpr fun path _ => ?_
  simp [CompiledRule.httpTruth, CompiledRule.new, named]

theorem toolRuleTruth_http (http : isHttpRule rule = true) (name : String)
    (principal : Option Principal) (facts : PolicyFacts) :
    toolRuleTruth name principal facts rule = .false := by
  simp only [isHttpRule, Bool.and_eq_true, Option.isNone_iff_eq_none] at http
  simp [toolRuleTruth, CompiledRule.toolTruth, CompiledRule.new, http.2]

theorem ruleTruth_unconditional (plain : unconditional rule = true) (lane : Kernel.Lane)
    (facts : PolicyFacts) : lane.ruleTruth facts rule ≠ .unknown := by
  by_cases open_ : lane.ruleTruth facts rule = .false
  · simp [open_]
  · have certain : lane.ruleTruth facts rule = .true := by
      rw [Lane.ruleTruth, lane_truth_eq_false] at open_
      push Not at open_
      obtain ⟨path, identity, matches_⟩ := open_
      exact lane_truth_eq_true.mpr
        ⟨path, identity, (admits_of_httpTruth matches_).httpTruth plain 0 facts⟩
    simp [certain]

/-- Deleting an unconditional allow or shadow only narrows access: what it decided
it forwarded. -/
theorem delete_forwarding_narrows (listed : before.policy.rules = front ++ rule :: back)
    (edited : after.policy = { before.policy with rules := front ++ back })
    (http : isHttpRule rule = true) (plain : unconditional rule = true)
    (forwards : rule.action ≠ .deny) (question : Question) :
    Related Narrows (question.ask before facts) (question.ask after facts) := by
  have agree := AgreeBesidesRules.of_edit edited
  have rules : after.policy.rules = front ++ back := by rw [edited]
  -- over the full rulebase the rule decided, or nothing changed
  have first (lane : Kernel.Lane) :
      Shrinks (lane.verdict facts before.policy.rules false)
        (lane.verdict facts after.policy.rules false) := by
    have known := ruleTruth_unconditional plain lane facts
    rw [listed, rules]
    simp only [Lane.verdict, Bool.false_eq_true, if_false]
    cases lane.canonicalPath with
    | none => exact .of_scan forwards ((firstMatch_delete_known known).imp_right .inr)
    | some identity => exact .of_scan forwards ((firstMatchBy_delete_known known).imp_right .inr)
  refine agree.narrows question ?_ (fun lane _ => first lane)
    (fun _ lane _ _ _ _ _ => (first lane).narrows) ?_
  · intro lane facts none
    rw [rules] at none
    rw [listed]
    simp only [Lane.verdict, if_true] at none ⊢
    rwa [firstMatch_delete_false (within_other forwards)]
  · intro name principal
    rw [listed, rules]
    exact .inl (toolVerdict_delete fun open_ =>
      absurd (toolRuleTruth_http http name principal facts) open_)

/-- Wherever a rule may match, the other one certainly does. -/
structure Outmatches (earlier rule : Rule) : Prop where
  lanes (lane : Kernel.Lane) facts : lane.ruleTruth facts rule ≠ .false →
    lane.ruleTruth facts earlier = .true
  tools name principal facts : toolRuleTruth name principal facts rule ≠ .false →
    toolRuleTruth name principal facts earlier = .true

/-- Deleting a rule that a rule ahead of it, at least as restrictive, covers in
every lane changes nothing. -/
theorem delete_covered_same {earlier : Rule}
    (listed : before.policy.rules = front ++ rule :: back) (ahead : earlier ∈ front)
    (edited : after.policy = { before.policy with rules := front ++ back })
    (outmatched : Outmatches earlier rule)
    (restrictive : restrictiveness rule.action ≤ restrictiveness earlier.action)
    (question : Question) : Related Eq (question.ask before facts) (question.ask after facts) := by
  have agree := AgreeBesidesRules.of_edit edited
  have rules : after.policy.rules = front ++ back := by rw [edited]
  refine agree.same question facts ?_ ?_
  · intro lane facts deniesOnly
    rw [listed, rules]
    exact verdict_delete (fun open_ => ⟨earlier, ahead, outmatched.lanes lane facts open_, restrictive⟩)
      deniesOnly
  · intro operation name principal _
    rw [listed, rules]
    exact toolVerdict_delete fun open_ => ⟨earlier, ahead, outmatched.tools name principal facts open_⟩

end Delete

section Move

variable [Externals] {front middle back : List Rule} {rule earlier : Rule} {facts : PolicyFacts}
  {before after : CompiledPolicy} {lane : Kernel.Lane}

/-- An alias request the policy could not decide for want of a fact. -/
def Question.AliasUndecided (question : Question) (compiled : CompiledPolicy)
    (facts : PolicyFacts) : Prop :=
  ∃ context evaluation, question = .http context ∧
    context.target.canonicalPath?.isSome = true ∧
    compiled.decide (context.pinned compiled.snapshot) facts = .ok evaluation ∧
    evaluation.complete = false

section Verdicts

variable {old new : List Rule} (kept : old = front ++ earlier :: (middle ++ rule :: back))
  (moved : new = front ++ rule :: earlier :: (middle ++ back))

include kept moved

theorem verdict_move_single (forwards : earlier.action ≠ .deny)
    (single : lane.canonicalPath = none)
    (covers : lane.ruleTruth facts rule ≠ .false → lane.ruleTruth facts earlier = .true) :
    Shrinks (lane.verdict facts old false) (lane.verdict facts new false) := by
  subst kept moved
  simp only [Lane.verdict, Bool.false_eq_true, if_false, single]
  exact .of_scan forwards (firstMatch_move covers)

/-- Narrowed to denies, a move decides no request it did not decide. -/
theorem verdict_move_denies (lane : Kernel.Lane) (facts : PolicyFacts) :
    lane.verdict facts new true = .noMatch ↔ lane.verdict facts old true = .noMatch := by
  subst kept moved
  simp only [Lane.verdict, if_true, Scan.verdict_eq_noMatch]
  exact firstMatch_noMatch_perm (move_perm front middle back rule earlier)

theorem verdict_move_alias {canonical : String} (alias_ : lane.canonicalPath = some canonical) :
    lane.verdict facts new false = lane.verdict facts old false ∨
      (lane.verdict facts new false = .acts rule.action ∨
        lane.verdict facts new false = .undetermined) ∧
      (lane.verdict facts old false = .acts rule.action ∨
        lane.verdict facts old false = .undetermined) := by
  subst kept moved
  simp only [Lane.verdict, Bool.false_eq_true, if_false, alias_]
  have moved : firstMatchBy Rule.action (lane.ruleTruth facts)
      (front ++ rule :: earlier :: (middle ++ back)) [.deny, .shadow, .allow] = _ ∨ _ ∧ _ :=
    firstMatchBy_move
  exact moved.imp_left fun same => by rw [same]

end Verdicts

/-- Moving a rule before a less restrictive one that covers it only narrows
access; a shadow rule may settle an alias request that was undecided. -/
theorem move_restrictive_narrows
    (listed : before.policy.rules = front ++ earlier :: (middle ++ rule :: back))
    (edited : after.policy =
      { before.policy with rules := front ++ rule :: earlier :: (middle ++ back) })
    (outmatched : Outmatches earlier rule)
    (looser : restrictiveness earlier.action < restrictiveness rule.action) (question : Question) :
    Related Narrows (question.ask before facts) (question.ask after facts) ∨
      rule.action = .shadow ∧ Question.AliasUndecided question before facts := by
  have agree := AgreeBesidesRules.of_edit edited
  have rules : after.policy.rules = front ++ rule :: earlier :: (middle ++ back) := by rw [edited]
  have forwards : earlier.action ≠ .deny := by
    intro denies
    cases action : rule.action <;> simp [denies, action, restrictiveness] at looser
  by_cases undecided : rule.action = .shadow ∧ Question.AliasUndecided question before facts
  · exact Or.inr undecided
  left
  refine agree.narrows question (fun lane facts => (verdict_move_denies listed rules lane facts).mp)
    (fun lane single => verdict_move_single listed rules forwards single
      (outmatched.lanes lane facts)) ?_ ?_
  · intro context lane identity asked answered served canonical routed
    rcases verdict_move_alias listed rules canonical with same | ⟨moved, unmoved⟩
    · rw [same]
      exact Narrows.refl _
    · intro forwarded
      -- the moved rule's own class decides: a deny blocks, so the rule is a shadow
      have shadow : rule.action = .shadow := by
        cases action : rule.action with
        | shadow => rfl
        | allow => simp [action, restrictiveness] at looser
        | deny =>
          rcases moved with acts | open_
          · simp [acts, action, verdictEffect, actionEffect] at forwarded
          · simp [open_, verdictEffect] at forwarded
      rcases unmoved with acts | open_
      · simp [acts, shadow, verdictEffect, actionEffect]
      · refine absurd ⟨shadow, context, _, asked, ?_, answered, ?_⟩ undecided
        · rw [← served.canonical, canonical]
          rfl
        · rw [judge_of_undetermined open_]
          rfl
  · intro name principal
    rw [listed, rules]
    exact .of_scan forwards (firstMatch_move (outmatched.tools name principal facts))

end Move

end GreenGateway.Analysis
