import GreenGateway.Kernel.Effects
import GreenGateway.Kernel.HostBinding

/-! One question of any lane that forwards or blocks, and its effect under two
policies: they refuse it alike, or their answers are related whenever their lanes
are. -/

namespace GreenGateway.Kernel

open Foundation Rbac CompiledPolicy CompiledPolicy

/-- A request one of the forwarding lanes answers. -/
inductive Question where
  | http (context : PolicyEvaluationContext)
  | tool (context : ToolEvaluationContext)
  | source (context : SourceRequestContext)

/-- Both answers are refusals for the same reason, or related. -/
def Related {ε α : Type} (relation : α → α → Prop) : Except ε α → Except ε α → Prop
  | .ok first, .ok second => relation first second
  | .error first, .error second => first = second
  | _, _ => False

theorem Related.refl {ε α : Type} {relation : α → α → Prop}
    (reflexive : ∀ value, relation value value) (answer : Except ε α) :
    Related relation answer answer := by
  cases answer with
  | error problem => rfl
  | ok value => exact reflexive value

theorem Related.mono {ε α : Type} {relation weaker : α → α → Prop} {first second : Except ε α}
    (related : Related relation first second)
    (weakens : ∀ before after, relation before after → weaker before after) :
    Related weaker first second := by
  cases first with
  | error problem => cases second <;> exact related
  | ok before =>
    cases second with
    | error problem => exact related
    | ok after => exact weakens before after related

/-- What a served HTTP request's lane is like. -/
structure Served (context : PolicyEvaluationContext) (lane : Lane) : Prop where
  absolute : ∀ path ∈ lane.paths, Text.startsWith path "/" = true
  single : lane.hostBindingRequired = true → lane.canonicalPath = none
  requested : context.path = some lane.path
  canonical : lane.canonicalPath = context.target.canonicalPath?

namespace Question

variable [Externals]

/-- The effect of the answer `compiled` gives, the question being pinned to it. -/
def ask (question : Question) (compiled : CompiledPolicy) (facts : PolicyFacts) :
    Except EvaluationError PolicyEffect :=
  match question with
  | .http context =>
    (compiled.decide (context.pinned compiled.snapshot) facts).map Evaluation.effect
  | .tool context =>
    (compiled.evaluateToolWithFacts (context.pinned compiled.snapshot) facts).map
      ToolEvaluation.effect
  | .source context =>
    (compiled.evaluateSourceRequest (context.pinned compiled.snapshot)).map
      SourceRequestDecision.effect

/-- An HTTP question's host was captured. -/
def HostCaptured : Question → Prop
  | .http context => context.HostCaptured
  | .tool _ | .source _ => True

/-- An alias question's path is one of the configured ones. -/
def Configured (aliasPaths : List String) : Question → Prop
  | .http context =>
    context.target.canonicalPath?.isSome = true → ∀ path, context.path = some path →
      path ∈ aliasPaths
  | .tool _ | .source _ => True

end Question

variable [Externals] {base other : CompiledPolicy} {facts : PolicyFacts}

/-- A lane some request resolved to is served. -/
theorem Resolves.served {context : PolicyEvaluationContext} {compiled : CompiledPolicy}
    {lane : Lane} {expected : ResourceSnapshot} (resolved : Resolves compiled context facts lane)
    (valid : context.validate expected = .ok ()) : Served context lane := by
  refine ⟨?_, ?_, resolved.path, resolved.canonical⟩
  · have identities := valid
    simp only [PolicyEvaluationContext.validate, bind_eq_ok, unit_exists_ok, checkSome_eq_ok]
      at identities
    obtain ⟨-, -, requested, canonical, -⟩ := identities
    have separated {path : String} (checked : validatePath path = .ok ()) :
        Text.startsWith path "/" = true := by
      simp only [validatePath, bind_eq_ok, unit_exists_ok, refuse_eq_ok, Bool.or_eq_false_iff,
        Bool.not_eq_false'] at checked
      exact checked.2.1.1.1
    intro path member
    unfold Lane.paths at member
    cases identity : lane.canonicalPath with
    | none =>
      simp only [identity, List.mem_singleton] at member
      exact separated (requested path (by rw [resolved.path, member]))
    | some canonicalPath =>
      simp only [identity, List.mem_cons, List.not_mem_nil, or_false] at member
      rcases member with rfl | rfl
      · exact separated (canonical path (by rw [← resolved.canonical, identity]))
      · exact separated (requested lane.path resolved.path)
  · intro bound
    rw [resolved.bound] at bound
    obtain ⟨host, selected⟩ := Option.isSome_iff_exists.mp bound
    obtain ⟨dispatch, carried, -⟩ := Option.bind_eq_some_iff.mp selected
    rw [resolved.canonical, target_of_dispatch valid carried]
    rfl

theorem Question.related {relation : PolicyEffect → PolicyEffect → Prop}
    (reflexive : ∀ effect, relation effect effect) (identity : other.identity = base.identity)
    (question : Question) (facts : PolicyFacts)
    (hosts : other.hostQualifiedRoutes = base.hostQualifiedRoutes ∨ question.HostCaptured)
    (http : ∀ context lane, question = .http context →
      base.decide (context.pinned base.snapshot) facts = .ok (base.judge lane facts) →
      Served context lane → relation (base.judge lane facts).effect (other.judge lane facts).effect)
    (tool : ∀ operation name principal,
      relation (base.toolAnswer operation name principal facts).effect
        (other.toolAnswer operation name principal facts).effect)
    (rendered : ∀ operation method path principal,
      relation
        (toolEffect operation
          ((renderedLane method path principal).verdict facts base.policy.rules false))
        (toolEffect operation
          ((renderedLane method path principal).verdict facts other.policy.rules false)))
    (source : ∀ toolName path,
      relation
        (if base.sourceUsable toolName then
          verdictEffect .allow
            ((sourceLane path).verdict uncapturedFacts base.policy.rules true)
        else .block)
        (if other.sourceUsable toolName then
          verdictEffect .allow
            ((sourceLane path).verdict uncapturedFacts other.policy.rules true)
        else .block)) :
    Related relation (question.ask base facts) (question.ask other facts) := by
  cases question with
  | http context =>
    simp only [ask]
    rcases decide_pinned_cases identity context facts hosts with
      ⟨problem, first, second⟩ | ⟨limitation, first, second⟩ | ⟨lane, resolved, first, second⟩
    · rw [first, second]
      rfl
    · rw [first, second]
      exact reflexive _
    · have served := resolved.served (decide_eq_ok.mp first).1
      rw [first, second]
      exact http context lane rfl first
        ⟨served.absolute, served.single, served.requested, served.canonical⟩
  | tool context =>
    simp only [ask]
    rcases evaluateTool_pinned_cases identity context facts with
      ⟨problem, first, second⟩ | ⟨evaluation, -, first, second⟩ |
      ⟨name, principal, first, second⟩ | ⟨method, path, principal, first, second⟩
    · rw [first, second]
      rfl
    · rw [first, second]
      exact reflexive _
    · rw [first, second]
      exact tool context.operation name principal
    · rw [first, second]
      have related := rendered context.operation method path principal
      rw [← scanRendered_verdict, ← scanRendered_verdict] at related
      simp only [Except.map, Related]
      rw [toolRuleAnswer_effect rfl, toolRuleAnswer_effect rfl]
      exact related
  | source context =>
    simp only [ask]
    rw [evaluateSource_effect, evaluateSource_effect]
    have same : (context.pinned other.snapshot).validate other.snapshot =
        (context.pinned base.snapshot).validate base.snapshot := by
      have current (snapshot : ResourceSnapshot) :
          decide ((context.pinned snapshot).snapshot ≠ snapshot) = false := by
        simp [SourceRequestContext.pinned]
      unfold SourceRequestContext.validate
      rw [current, current]
      rfl
    rw [same]
    cases (context.pinned base.snapshot).validate base.snapshot with
    | error problem => rfl
    | ok => exact source context.toolName context.path

/-- The limits an override sets. -/
def limitOf (rule : RateLimitRule) : RateLimit :=
  { requestsPerSecond := rule.requestsPerSecond, burst := rule.burst }

/-- The limits a selection puts a request under, if any. -/
def RateLaneOutcome.limits : RateLaneOutcome → Except Limitation (Option RateLimit)
  | .override _ limit => .ok (some limit)
  | .noOverride => .ok none
  | .indeterminate limitation => .error limitation

/-- The limits the first override that governs a request sets. -/
def governing (overrides : List RateLimitRule) (principal : Principal) (method path : String) :
    Option RateLimit :=
  (overrides.find? (rateRuleMatches principal method path)).map limitOf

/-- The limits `compiled` selects, the question being pinned to it. -/
def selectLimits (context : PolicyEvaluationContext) (compiled : CompiledPolicy)
    (facts : PolicyFacts) : Except EvaluationError (Except Limitation (Option RateLimit)) :=
  (compiled.selectRateLaneWithFacts (context.pinned compiled.snapshot) facts).map
    RateLaneOutcome.limits

/-- Selected limits are related once the governing overrides are. -/
theorem selectLimits_related {relation : Option RateLimit → Option RateLimit → Prop}
    (reflexive : ∀ limit, relation limit limit) (identity : other.identity = base.identity)
    (context : PolicyEvaluationContext) (facts : PolicyFacts)
    (governed : ∀ principal method path, Text.startsWith path "/" = true →
      relation (governing base.policy.rateLimits principal method path)
        (governing other.policy.rateLimits principal method path)) :
    Related (Related relation) (selectLimits context base facts)
      (selectLimits context other facts) := by
  have judged := judgedPrincipal_congr identity context.principal facts
  have valid := context.validate_pinned other.snapshot base.snapshot
  unfold selectLimits selectRateLaneWithFacts
  rw [valid]
  cases checked : (context.pinned base.snapshot).validate base.snapshot with
  | error problem => rfl
  | ok =>
    cases validateFacts facts with
    | error problem => rfl
    | ok =>
      have missing (snapshot : ResourceSnapshot) :
          missingRateFact (context.pinned snapshot) = missingRateFact context := rfl
      simp only [missing]
      simp only [PolicyEvaluationContext.pinned, judged]
      cases missingRateFact context with
      | some limitation => exact Related.refl (Related.refl reflexive) _
      | none =>
        dsimp only
        cases requested : context.path with
        | none =>
          cases context.method <;> exact Related.refl (Related.refl reflexive) _
        | some path =>
          cases context.method with
          | none => exact Related.refl (Related.refl reflexive) _
          | some method =>
            dsimp only
            split
            · exact Related.refl (Related.refl reflexive) _
            · exact Related.refl (Related.refl reflexive) _
            · exact Related.refl (Related.refl reflexive) _
            · rename_i principal _
              have related := governed principal method path
                (path_absolute checked requested)
              rw [governing, governing, ← findIndexed_snd, ← findIndexed_snd] at related
              revert related
              cases findIndexed (rateRuleMatches principal method path)
                  base.policy.rateLimits <;>
                cases findIndexed (rateRuleMatches principal method path)
                  other.policy.rateLimits <;>
                exact id

end GreenGateway.Kernel
