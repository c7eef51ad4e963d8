import GreenGateway.Kernel.HostBinding
import GreenGateway.Simulation.Projection

/-! What an allow without a shadow observation promises about enforcement: the request
stays allowed, except that over a selected upstream a shadow behind an allow is not
observed, and enforced it denies. -/

namespace GreenGateway.Simulation

open Foundation Rbac Kernel CompiledPolicy

section Unobserved

variable [Externals]

/-- No shadow rule can match a request bound to a selected upstream over one path
identity. -/
def ShadowsSilent (compiled : CompiledPolicy) (lane : Lane) (facts : PolicyFacts) : Prop :=
  lane.hostBindingRequired = true → lane.canonicalPath = none →
    ∀ rule ∈ compiled.matcher.rules, rule.action = .shadow → lane.truth facts rule = .false

section Lanes

variable {base projected : CompiledPolicy} {lane : Lane} {facts : PolicyFacts}

/-- Over an alias pair an allow is found last: whatever else could match would have been
found before it. -/
theorem alias_quiet {canonical : String} (alias_ : lane.canonicalPath = some canonical)
    (determined : ∀ index, base.laneScan lane false facts ≠ .undetermined index)
    (calm : ∀ decision, base.laneScan lane false facts = .matched decision →
      decision.action = .allow) :
    ∀ rule ∈ base.matcher.rules, rule.action ≠ .allow → lane.truth facts rule = .false := by
  intro rule member other
  cases scanned : base.laneScan lane false facts with
  | undetermined index => exact absurd scanned (determined index)
  | noMatch => exact laneScan_noMatch.mp scanned rule member
  | matched decision =>
    have allows := calm decision scanned
    rw [laneScan_alias alias_, RuleScan.ofScan_eq_matched] at scanned
    obtain ⟨hit, found, rfl⟩ := scanned
    obtain ⟨index, -, -, ahead⟩ := firstMatchBy_ahead found
    have last : hit.action = .allow := allows
    refine ahead rule member ?_
    rw [last]
    cases kind : rule.action with
    | allow => exact absurd kind other
    | deny => decide
    | shadow => decide

/-- A request that was let through under a selected upstream met no deny, and its first
match decided nothing. -/
theorem judge_bound_allow (bound : lane.hostBindingRequired = true)
    (allowed : (base.judge lane facts).effect = .allow) :
    (∀ index, base.laneScan lane false facts ≠ .undetermined index) ∧
      base.laneScan lane true facts = .noMatch := by
  have determined : ∀ index, base.laneScan lane false facts ≠ .undetermined index := by
    intro index open_
    rw [judge_undetermined open_] at allowed
    cases allowed
  refine ⟨determined, ?_⟩
  cases denies : base.laneScan lane true facts with
  | noMatch => rfl
  | undetermined index =>
    rw [judge_bound_undetermined bound denies] at allowed
    cases allowed
  | matched decision =>
    rw [judge_bound_denied bound denies] at allowed
    cases allowed

variable (projection : projected.policy = enforceAllShadow base.policy)

include projection

theorem projected_keeps_allow {decision : RuleDecision}
    (found : base.laneScan lane false facts = .matched decision)
    (allows : decision.action = .allow) :
    projected.laneScan lane false facts = .matched decision := by
  cases canonical : lane.canonicalPath with
  | none =>
    rw [← found, laneScan_single canonical, laneScan_single canonical,
      projected_rules projection, firstMatch_map]
    refine ofScan_map_enforceCompiled fun rule hit => ?_
    rw [laneScan_single canonical] at found
    have scanned : Foundation.firstMatch (lane.truth facts) base.matcher.rules = .matched rule := hit
    rw [scanned] at found
    have same : RuleDecision.mk rule.ruleIndex rule.action = decision := RuleScan.matched.inj found
    rw [← same] at allows
    exact allows
  | some identity =>
    rw [← found]
    refine projected_quiet projection (alias_quiet canonical (by simp [found]) ?_)
    intro other held
    rw [found, RuleScan.matched.injEq] at held
    exact held ▸ allows

theorem judge_unobserved_unbound (unbound : lane.hostBindingRequired = false)
    (allowed : (base.judge lane facts).effect = .allow) :
    (projected.judge lane facts).effect = .allow := by
  cases scanned : base.laneScan lane false facts with
  | undetermined index =>
    rw [judge_undetermined scanned] at allowed
    cases allowed
  | noMatch =>
    rw [judge_unbound_noMatch unbound scanned] at allowed
    rw [judge_unbound_noMatch unbound ((projected_noMatch projection).mpr scanned)]
    exact (projected_routedAnswer projection _ _).2.1.mpr allowed
  | matched decision =>
    rw [judge_unbound_matched unbound scanned] at allowed
    have allows : decision.action = .allow := by
      cases action : decision.action with
      | allow => rfl
      | deny | shadow => simp [directAnswer, action, Evaluation.completed] at allowed
    rw [judge_unbound_matched unbound
      (projected_keeps_allow projection scanned allows)]
    exact allowed

/-- Under a selected upstream the projection allows exactly when no shadow can match. -/
theorem judge_bound_iff (bound : lane.hostBindingRequired = true)
    (allowed : (base.judge lane facts).effect = .allow) :
    (projected.judge lane facts).effect = .allow ↔
      ∀ rule ∈ base.matcher.rules, rule.action ≠ .allow → lane.truth facts rule = .false := by
  obtain ⟨determined, denies⟩ := judge_bound_allow bound allowed
  rw [← projected_denies_noMatch projection]
  constructor
  · intro passed
    exact (judge_bound_allow bound passed).2
  · intro quiet
    have same := projected_quiet projection ((projected_denies_noMatch projection).mp quiet)
    rw [judge_bound_noMatch bound determined denies] at allowed
    rw [judge_bound_noMatch bound (same ▸ determined) quiet]
    exact (projected_routedAnswer projection _ _).2.1.mpr allowed

theorem judge_unobserved (allowed : (base.judge lane facts).effect = .allow)
    (unobserved : (base.judge lane facts).observation = none) :
    (projected.judge lane facts).effect = .allow ↔ ShadowsSilent base lane facts := by
  cases bound : lane.hostBindingRequired with
  | false =>
    refine iff_of_true (judge_unobserved_unbound projection bound allowed) fun required => ?_
    rw [bound] at required
    cases required
  | true =>
    obtain ⟨determined, denies⟩ := judge_bound_allow bound allowed
    rw [judge_bound_iff projection bound allowed]
    cases canonical : lane.canonicalPath with
    | none =>
      constructor
      · intro quiet _ _ rule member shadow
        exact quiet rule member (by simp [shadow])
      · intro silent rule member other
        cases kind : rule.action with
        | allow => exact absurd kind other
        | deny => exact laneScan_denies_noMatch.mp denies rule member kind
        | shadow => exact silent bound canonical rule member kind
    | some identity =>
      refine iff_of_true (alias_quiet canonical determined fun decision found => ?_) fun _ single => ?_
      · -- a first match that denies was ruled out, and one that shadows would be observed
        rw [judge_bound_noMatch bound determined denies,
          (projected_routedAnswer projection none _).2.2, firstDirect, found] at unobserved
        obtain ⟨rule, member, rfl, yes⟩ := laneScan_matched found
        cases kind : rule.action with
        | allow => rfl
        | shadow => simp [observationOf, kind] at unobserved
        | deny =>
          rw [laneScan_denies_noMatch.mp denies rule member kind] at yes
          cases yes
      · rw [canonical] at single
        cases single

end Lanes

/-- What the policy allows without a shadow observation, it allows with every shadow
enforced exactly when no shadow rule can match: always over an alias pair and without a
selected upstream, and over a selected upstream unless a shadow stands behind an allow. -/
theorem enforceAllShadow_unobserved (policy : Policy)
    (snapshot projectedSnapshot : ResourceSnapshot) (context : PolicyEvaluationContext)
    (facts : PolicyFacts) {authored : Evaluation}
    (decided : (assemble policy snapshot).decide (context.pinned snapshot) facts =
      .ok authored)
    (allowed : authored.effect = .allow) (unobserved : authored.observation = none) :
    ∃ lane projected,
      (assemble policy snapshot).resolve (context.pinned snapshot) facts =
        .ok (.ok lane) ∧
      (assemble (enforceAllShadow policy) projectedSnapshot).decide
        (context.pinned projectedSnapshot) facts = .ok projected ∧
      (projected.effect = .allow ↔
        ShadowsSilent (assemble policy snapshot) lane facts) := by
  let base := assemble policy snapshot
  let projected := assemble (enforceAllShadow policy) projectedSnapshot
  have projection : projected.policy = enforceAllShadow base.policy := rfl
  have identity : projected.identity = base.identity := rfl
  have hosts : projected.hostQualifiedRoutes = base.hostQualifiedRoutes := by
    simp [base, projected, assemble, enforceAllShadow, enforceRoute,
      Function.comp_def]
  rcases decide_pinned_cases identity context facts (Or.inl hosts) with
      ⟨problem, own, -⟩ | ⟨limitation, own, -⟩ | ⟨lane, resolved, own, other⟩
  · have same := decided.symm.trans own
    cases same
  · obtain rfl := Except.ok.inj (decided.symm.trans own)
    cases allowed
  · obtain rfl := Except.ok.inj (decided.symm.trans own)
    exact ⟨lane, _, resolve_eq_lane.mpr resolved, other,
      judge_unobserved projection allowed unobserved⟩

end Unobserved

section Sample

open CompiledPolicy

attribute [local instance] inertExternals

/-- A host-bound route, with a shadow on its path behind an allow of the same path. -/
def hiddenPolicy : Policy :=
  { boundPolicy .enforce with
    rules := [{ path := "/api/**", action := .allow }, { path := "/api/**", action := .shadow }] }

/-- The first match is the allow, so nothing is observed and the route lets the request
through; enforced, the shadow is the first deny. -/
theorem hidden_shadow_denies :
    (assemble hiddenPolicy boundSnapshot).decide (boundContext ["reader"]) {} =
        .ok (.completed .allow .allow .matchedRule (some (.route 0)) none) ∧
      (assemble (enforceAllShadow hiddenPolicy) boundSnapshot).decide (boundContext ["reader"]) {} =
        .ok (.completed .deny .block .matchedRule (some (.direct 1)) none) := by
  decide

/-- The same route, with a shadow on another path. -/
def apartPolicy : Policy :=
  { boundPolicy .shadow with
    rules := [{ path := "/api/**", action := .allow }, { path := "/x", action := .shadow }] }

theorem enforceAllShadow_unobserved_sample :
    (assemble (enforceAllShadow apartPolicy) boundSnapshot).decide (boundContext ["reader"]) {} =
        .ok (.completed .allow .allow .matchedRule (some (.route 0)) none) ∧
      ∃ lane, (assemble apartPolicy boundSnapshot).resolve (boundContext ["reader"]) {} =
        .ok (.ok lane) ∧ ShadowsSilent (assemble apartPolicy boundSnapshot) lane {} := by
  have decided : (assemble apartPolicy boundSnapshot).decide (boundContext ["reader"]) {} =
      .ok (.completed .allow .allow .matchedRule (some (.route 0)) none) := by decide
  have enforced : (assemble (enforceAllShadow apartPolicy) boundSnapshot).decide
      (boundContext ["reader"]) {} =
        .ok (.completed .allow .allow .matchedRule (some (.route 0)) none) := by decide
  obtain ⟨lane, projected, resolved, other, exactly_⟩ := enforceAllShadow_unobserved apartPolicy
    boundSnapshot boundSnapshot (boundContext ["reader"]) {} decided rfl rfl
  obtain rfl := Except.ok.inj (enforced.symm.trans other)
  exact ⟨enforced, lane, resolved, exactly_.mp rfl⟩

end Sample

end GreenGateway.Simulation
