import GreenGateway.Kernel.Questions

/-! A tool that is listed can be called, and one that is hidden cannot. -/

namespace GreenGateway.Kernel

open Foundation Rbac ToolEvaluation

theorem Related.bind {ε α β : Type} {relation : α → α → Prop} {first second : β → Except ε α}
    (check : Except ε β) (each : ∀ value, Related relation (first value) (second value)) :
    Related relation (check >>= first) (check >>= second) := by
  cases check with
  | error problem => rfl
  | ok value => exact each value

namespace CompiledPolicy

/-- What a preview shows of the answer an invocation gets. -/
structure Previews (shown run : ToolEvaluation) : Prop where
  complete : shown.complete = run.complete
  effect : shown.effect = .allow ↔ run.effect = .allow ∨ run.effect = .observe
  matched : shown.matched = run.matched

variable [Externals] (compiled : CompiledPolicy)

theorem toolAnswer_previews {operation : ToolOperation} (preview : operation.preview = true)
    (name : String) (principal : Option Principal) (facts : PolicyFacts) :
    Previews (compiled.toolAnswer operation name principal facts)
      (compiled.toolAnswer .invocation name principal facts) := by
  have apart : operation ≠ .compositeLeaf := by
    rintro rfl
    cases preview
  have runs : ToolOperation.invocation.preview = false := rfl
  simp only [toolAnswer, preview, runs, apart, reduceCtorEq, if_true, if_false, Bool.false_eq_true]
  split
  · constructor <;> simp [deny]
  split
  · constructor <;> simp [deny]
  split
  · constructor <;> simp [deny]
  cases compiled.matcher.scanTool name principal facts with
  | undetermined | noMatch => constructor <;> simp [toolRuleAnswer, incomplete]
  | matched decision =>
    -- Only a shadow rule tells the two apart: it is observed, and hides nothing.
    cases action : decision.action <;> constructor <;>
      simp [toolRuleAnswer, preview, runs, action, deny]

/-- The previews of a tool agree with its invocation by the same caller. -/
theorem evaluateTool_previews (context : ToolEvaluationContext) (identity : Principal)
    (facts : PolicyFacts) :
    let ask operation := compiled.evaluateToolWithFacts
      { context with operation, principal := .authenticated identity } facts
    Related Previews (ask .visibility) (ask .invocation) ∧
      Related Previews (ask .policyEligibility) (ask .invocation) := by
  intro ask
  have related {operation : ToolOperation} (preview : operation.preview = true) :
      Related Previews (ask operation) (ask .invocation) := by
    have plain : operation ≠ .renderedHttp := by
      rintro rfl
      cases preview
    have checks : ToolEvaluationContext.validate
        { context with operation, principal := .authenticated identity } compiled.snapshot =
        ToolEvaluationContext.validate { context with
          operation := .invocation, principal := .authenticated identity } compiled.snapshot := by
      simp [ToolEvaluationContext.validate, plain]
    simp only [ask, evaluateToolWithFacts, checks]
    refine .bind _ fun _ => .bind _ fun _ => ?_
    simp only [toolPrincipal, renderedMissing, plain, reduceCtorEq, if_false]
    cases context.toolName with
    | none => constructor <;> simp [incomplete]
    | some name =>
      dsimp only
      cases compiled.effectivePrincipal identity facts with
      | none => constructor <;> simp [incomplete]
      | some principal => exact compiled.toolAnswer_previews preview name principal facts
  exact ⟨related rfl, related rfl⟩

end CompiledPolicy

end GreenGateway.Kernel
