import GreenGateway.Kernel.Spec

/-! Asking two policies one question. The context differs only in the snapshot it
is pinned to; when the policies resolve principals and hosts alike, they refuse
alike, miss the same fact, or judge one lane. -/

namespace GreenGateway.Kernel

open Foundation Rbac

/-- The same question, pinned to a snapshot. -/
def PolicyEvaluationContext.pinned (context : PolicyEvaluationContext)
    (snapshot : ResourceSnapshot) : PolicyEvaluationContext :=
  { context with snapshot }

/-- The same question, pinned to a snapshot. -/
def ToolEvaluationContext.pinned (context : ToolEvaluationContext)
    (snapshot : ResourceSnapshot) : ToolEvaluationContext :=
  { context with snapshot }

/-- The host routes are matched against was captured: the request's own, or the one
a selected upstream is bound to. -/
def PolicyEvaluationContext.HostCaptured (context : PolicyEvaluationContext) : Prop :=
  context.requestHost ≠ .missing ∨ context.routeHost?.isSome = true

variable (context : PolicyEvaluationContext)

theorem PolicyEvaluationContext.validate_pinned [Externals] (first second : ResourceSnapshot) :
    (context.pinned first).validate first = (context.pinned second).validate second := by
  simp [validate, pinned]

theorem ToolEvaluationContext.validate_pinned (context : ToolEvaluationContext)
    (first second : ResourceSnapshot) :
    (context.pinned first).validate first = (context.pinned second).validate second := by
  have current (snapshot : ResourceSnapshot) :
      decide ((context.pinned snapshot).snapshot ≠ snapshot) = false := by
    simp [pinned]
  unfold validate
  rw [current, current]
  rfl

@[simp] theorem missingFact_pinned
    (snapshot : ResourceSnapshot) : missingFact (context.pinned snapshot) = missingFact context :=
  rfl

namespace CompiledPolicy

@[simp] theorem renderedMissing_pinned (context : ToolEvaluationContext)
    (snapshot : ResourceSnapshot) :
    renderedMissing (context.pinned snapshot) = renderedMissing context :=
  rfl

variable [Externals] {base other : CompiledPolicy} {context : PolicyEvaluationContext}
  {facts : PolicyFacts}

theorem effectivePrincipal_congr (identity : other.identity = base.identity)
    (principal : Principal) (facts : PolicyFacts) :
    other.effectivePrincipal principal facts = base.effectivePrincipal principal facts := by
  simp only [effectivePrincipal, identity]

theorem judgedPrincipal_congr (identity : other.identity = base.identity) (fact : PrincipalFact)
    (facts : PolicyFacts) : other.judgedPrincipal fact facts = base.judgedPrincipal fact facts := by
  cases fact <;> simp only [judgedPrincipal, effectivePrincipal_congr identity]

theorem effectiveHost_congr
    (hosts : other.hostQualifiedRoutes = base.hostQualifiedRoutes ∨ context.HostCaptured) :
    other.effectiveHost context.routeHost? context.requestHost =
      base.effectiveHost context.routeHost? context.requestHost := by
  cases bound : context.routeHost? with
  | some host => rfl
  | none =>
    cases requested : context.requestHost with
    | absent => rfl
    | present host => rfl
    | missing =>
      rcases hosts with same | captured
      · simp only [effectiveHost, same]
      · simp [PolicyEvaluationContext.HostCaptured, bound, requested] at captured

section

variable (identity : other.identity = base.identity)

include identity

theorem resolve_congr
    (hosts : other.hostQualifiedRoutes = base.hostQualifiedRoutes ∨ context.HostCaptured) :
    other.resolve (context.pinned other.snapshot) facts =
      base.resolve (context.pinned base.snapshot) facts := by
  have host := effectiveHost_congr hosts
  simp only [PolicyEvaluationContext.routeHost?] at host
  unfold resolve
  simp only [missingFact_pinned]
  simp only [PolicyEvaluationContext.pinned, judgedPrincipal_congr identity, host]

/-- Two policies that resolve alike answer alike up to the judgement of a lane. -/
theorem decide_pinned_cases (context : PolicyEvaluationContext) (facts : PolicyFacts)
    (hosts : other.hostQualifiedRoutes = base.hostQualifiedRoutes ∨ context.HostCaptured) :
    (∃ problem, base.decide (context.pinned base.snapshot) facts = .error problem ∧
        other.decide (context.pinned other.snapshot) facts = .error problem) ∨
      (∃ limitation,
        base.decide (context.pinned base.snapshot) facts = .ok (.indeterminate limitation) ∧
          other.decide (context.pinned other.snapshot) facts =
            .ok (.indeterminate limitation)) ∨
      ∃ lane, Resolves base (context.pinned base.snapshot) facts lane ∧
        base.decide (context.pinned base.snapshot) facts = .ok (base.judge lane facts) ∧
          other.decide (context.pinned other.snapshot) facts = .ok (other.judge lane facts) := by
  simp only [← resolve_eq_lane]
  unfold decide
  rw [context.validate_pinned other.snapshot base.snapshot, resolve_congr identity hosts]
  cases (context.pinned base.snapshot).validate base.snapshot with
  | error problem => exact Or.inl ⟨problem, rfl, rfl⟩
  | ok =>
    cases validateFacts facts with
    | error problem => exact Or.inl ⟨problem, rfl, rfl⟩
    | ok =>
      cases base.resolve (context.pinned base.snapshot) facts with
      | error problem => exact Or.inl ⟨problem, rfl, rfl⟩
      | ok resolved =>
        cases resolved with
        | error limitation => exact Or.inr (Or.inl ⟨limitation, rfl, rfl⟩)
        | ok lane => exact Or.inr (Or.inr ⟨lane, rfl, rfl, rfl⟩)

/-- The same for a tool question: alike up to the tool answer, or to the scan a
rendered request makes. -/
theorem evaluateTool_pinned_cases (context : ToolEvaluationContext) (facts : PolicyFacts) :
    (∃ problem,
        base.evaluateToolWithFacts (context.pinned base.snapshot) facts = .error problem ∧
          other.evaluateToolWithFacts (context.pinned other.snapshot) facts = .error problem) ∨
      (∃ evaluation : ToolEvaluation, evaluation.effect = .block ∧
        base.evaluateToolWithFacts (context.pinned base.snapshot) facts = .ok evaluation ∧
          other.evaluateToolWithFacts (context.pinned other.snapshot) facts = .ok evaluation) ∨
      (∃ name principal,
        base.evaluateToolWithFacts (context.pinned base.snapshot) facts =
            .ok (base.toolAnswer context.operation name principal facts) ∧
          other.evaluateToolWithFacts (context.pinned other.snapshot) facts =
            .ok (other.toolAnswer context.operation name principal facts)) ∨
      ∃ method path principal,
        base.evaluateToolWithFacts (context.pinned base.snapshot) facts =
            .ok (toolRuleAnswer { operation := context.operation, reason := .noHttpRule }
              (base.matcher.scanWithDispatch method principal .unknown facts path)) ∧
          other.evaluateToolWithFacts (context.pinned other.snapshot) facts =
            .ok (toolRuleAnswer { operation := context.operation, reason := .noHttpRule }
              (other.matcher.scanWithDispatch method principal .unknown facts path)) := by
  have principals : other.toolPrincipal (context.pinned other.snapshot) facts =
      base.toolPrincipal (context.pinned base.snapshot) facts := by
    unfold toolPrincipal
    simp only [effectivePrincipal_congr identity]
    rfl
  unfold evaluateToolWithFacts
  rw [context.validate_pinned other.snapshot base.snapshot, principals]
  cases (context.pinned base.snapshot).validate base.snapshot with
  | error problem => exact Or.inl ⟨problem, rfl, rfl⟩
  | ok =>
    cases validateFacts facts with
    | error problem => exact Or.inl ⟨problem, rfl, rfl⟩
    | ok =>
      cases base.toolPrincipal (context.pinned base.snapshot) facts with
      | error limitation => exact Or.inr (Or.inl ⟨_, rfl, rfl, rfl⟩)
      | ok principal =>
        simp only [renderedMissing_pinned]
        simp only [ToolEvaluationContext.pinned]
        cases renderedMissing context with
        | some limitation => exact Or.inr (Or.inl ⟨_, rfl, rfl, rfl⟩)
        | none =>
          cases context.toolName with
          | none => exact Or.inl ⟨_, rfl, rfl⟩
          | some name =>
            by_cases http : context.operation = .renderedHttp
            · simp only [http, if_true]
              cases context.method with
              | none => exact Or.inl ⟨_, rfl, rfl⟩
              | some method =>
                cases context.path with
                | none => exact Or.inl ⟨_, rfl, rfl⟩
                | some path =>
                  exact Or.inr (Or.inr (Or.inr ⟨method, path, principal, rfl, rfl⟩))
            · simp only [http, if_false]
              exact Or.inr (Or.inr (Or.inl ⟨name, principal, rfl, rfl⟩))

end

end CompiledPolicy

end GreenGateway.Kernel
