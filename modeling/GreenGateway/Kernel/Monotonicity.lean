import GreenGateway.Kernel.Spec

/-! Information monotonicity of the HTTP decision: a complete answer is never
changed by learning more facts, or the host of a request whose host was never
captured. -/

namespace GreenGateway.Kernel

open Foundation Rbac RuleMatcher

/-- The same context, except that a host never captured may become known. -/
structure PolicyEvaluationContext.Refines (coarse fine : PolicyEvaluationContext) : Prop where
  host : coarse.requestHost = .missing ∨ coarse.requestHost = fine.requestHost
  rest : fine = { coarse with requestHost := fine.requestHost }

namespace CompiledPolicy

variable [Externals] {compiled : CompiledPolicy} {coarse fine : PolicyFacts}

theorem effectivePrincipal_refines (more : coarse.Refines fine) {principal judged : Principal}
    (told : compiled.effectivePrincipal principal coarse = some judged) :
    compiled.effectivePrincipal principal fine = some judged := by
  unfold effectivePrincipal at told ⊢
  cases mapped : compiled.identity with
  | none => simpa [mapped] using told
  | some mappings =>
    simp only [mapped, Option.map_eq_some_iff] at told ⊢
    obtain ⟨roles, toldRoles, same⟩ := told
    exact ⟨roles, effectiveRoles_refines more toldRoles, same⟩

theorem judgedPrincipal_refines (more : coarse.Refines fine) {fact : PrincipalFact}
    {judged : Option Principal} (told : compiled.judgedPrincipal fact coarse = .ok judged) :
    compiled.judgedPrincipal fact fine = .ok judged := by
  cases fact with
  | missing => exact told
  | anonymous => exact told
  | authenticated identity =>
    simp only [judgedPrincipal] at told ⊢
    cases known : compiled.effectivePrincipal identity coarse with
    | none => simp [known] at told
    | some principal =>
      rw [effectivePrincipal_refines more known]
      simpa [known] using told

theorem laneScan_refines (compiled : CompiledPolicy) (more : coarse.Refines fine) (lane : Lane)
    (deniesOnly : Bool) :
    RuleScan.Refines (compiled.laneScan lane deniesOnly coarse)
      (compiled.laneScan lane deniesOnly fine) := by
  unfold laneScan matchDirect
  split
  · exact scanMatchingPathsByAction_refines more _ _
  · split
    · exact scanMatchingPathsByAction_refines more _ _
    · exact scanWithDispatch_refines more _

theorem afterFirst_refines (more : coarse.Refines fine) {lane : Lane}
    {firstDirect : Option RuleDecision}
    (complete : (judge.afterFirst compiled lane coarse firstDirect).complete = true) :
    judge.afterFirst compiled lane fine firstDirect =
      judge.afterFirst compiled lane coarse firstDirect := by
  simp only [judge.afterFirst] at complete ⊢
  split
  · rename_i required
    simp only [required, if_true] at complete
    rcases laneScan_refines compiled more lane true with ⟨index, open_⟩ | same
    · simp [open_] at complete
    · rw [same]
  · rfl

/-- The judgement of a lane, once complete, stands under more facts. -/
theorem judge_refines (more : coarse.Refines fine) {lane : Lane}
    (complete : (compiled.judge lane coarse).complete = true) :
    compiled.judge lane fine = compiled.judge lane coarse := by
  simp only [judge] at complete ⊢
  rcases laneScan_refines compiled more lane false with ⟨index, open_⟩ | same
  · simp [open_] at complete
  · rw [← same]
    cases scanned : compiled.laneScan lane false coarse with
    | undetermined index => rfl
    | noMatch =>
      rw [scanned] at complete
      exact afterFirst_refines more complete
    | matched decision =>
      rw [scanned] at complete
      exact afterFirst_refines more complete

section Host

variable {lane : Lane} {host : Option String}

theorem matchRoute_host (unqualified : compiled.hostQualifiedRoutes = false)
    (method path : String) (canonicalPath host host' : Option String) (required : Bool) :
    compiled.matchRoute method path canonicalPath host required =
      compiled.matchRoute method path canonicalPath host' required := by
  have unbound : ∀ route ∈ compiled.policy.routes, route.hosts = [] := by
    simpa [compiled.hostQualifiedRoutes_eq] using unqualified
  have hostless (route : RouteRule) (member : route ∈ compiled.policy.routes) :
      routeHostMatches route.hosts host required = routeHostMatches route.hosts host' required := by
    simp [routeHostMatches, unbound route member]
  unfold matchRoute
  cases canonicalPath with
  | none => exact findIndexed_congr fun route member => by simp only [hostless route member]
  | some canonical =>
    dsimp only
    congr 1
    · exact findIndexed_congr fun route member => by simp only [hostless route member]
    · exact findIndexed_congr fun route member => by simp only [hostless route member]

theorem judge_host (unqualified : compiled.hostQualifiedRoutes = false) (facts : PolicyFacts) :
    compiled.judge { lane with host } facts = compiled.judge lane facts := by
  have routed (observation : Option RuleReference) :
      compiled.routedAnswer { lane with host } observation =
        compiled.routedAnswer lane observation := by
    simp only [routedAnswer]
    rw [matchRoute_host unqualified _ _ _ host lane.host]
  have answer (deciding : Option RuleDecision) (observation : Option RuleReference) :
      compiled.answerFrom { lane with host } deciding observation =
        compiled.answerFrom lane deciding observation := by
    cases deciding with
    | none => exact routed observation
    | some decision => rfl
  simp only [judge, judge.afterFirst, answer]
  rfl

theorem effectiveHost_refines {routeHost : Option String} {known learned : HostFact}
    (told : compiled.effectiveHost routeHost known = .ok host)
    (more : known = .missing ∨ known = learned) :
    ∃ host', compiled.effectiveHost routeHost learned = .ok host' ∧
      (host' = host ∨ compiled.hostQualifiedRoutes = false) := by
  rcases more with rfl | rfl
  · cases routeHost with
    | some selected => exact ⟨host, told, Or.inl rfl⟩
    | none =>
      have unqualified : compiled.hostQualifiedRoutes = false := by
        cases qualified : compiled.hostQualifiedRoutes with
        | false => rfl
        | true => simp [effectiveHost, qualified] at told
      cases learned with
      | missing => exact ⟨host, told, Or.inl rfl⟩
      | absent => exact ⟨none, rfl, Or.inr unqualified⟩
      | present sent => exact ⟨some sent, rfl, Or.inr unqualified⟩
  · exact ⟨host, told, Or.inl rfl⟩

end Host

/-- A complete answer is the answer under every refinement of the facts and of
an uncaptured host that the kernel accepts at all. -/
theorem decide_monotone (compiled : CompiledPolicy) {context learned : PolicyEvaluationContext}
    {facts more : PolicyFacts} {evaluation : Evaluation}
    (answered : compiled.decide context facts = .ok evaluation)
    (complete : evaluation.complete = true) (contextRefined : context.Refines learned)
    (factsRefined : facts.Refines more)
    (valid : learned.validate compiled.snapshot = .ok ()) (bounded : validateFacts more = .ok ()) :
    compiled.decide learned more = .ok evaluation := by
  obtain ⟨lane, resolved, rfl⟩ := lane_of_decide answered (Or.inl complete)
  obtain ⟨host', hostKnown, hostSame⟩ := effectiveHost_refines resolved.host contextRefined.host
  have relearned : Resolves compiled learned more { lane with host := host' } := by
    obtain ⟨-, rest⟩ := contextRefined
    rw [rest]
    exact ⟨resolved.supplied, judgedPrincipal_refines factsRefined resolved.judged,
      resolved.method, resolved.path, hostKnown, resolved.dispatch, resolved.canonical,
      resolved.bound⟩
  refine decide_eq_ok.mpr ⟨valid, bounded, Or.inr ⟨_, relearned, ?_⟩⟩
  have hostless : compiled.judge { lane with host := host' } more = compiled.judge lane more := by
    rcases hostSame with same | unqualified
    · rw [same]
    · exact judge_host unqualified more
  rw [hostless, judge_refines factsRefined complete]

end CompiledPolicy

namespace CompiledPolicy

section Sample

attribute [local instance] inertExternals

def samplePolicy : Policy :=
  { schemaVersion := "1.0.0"
    rules :=
      [{ path := "/admin/**", action := .deny
         conditions := some (.header { name := "x-env", values := ["prod"] }) },
       { path := "/public/**", action := .allow }] }

def sampleSnapshot : ResourceSnapshot :=
  { digest := .validatedPolicy [], authority := .standalone }

def sampleContext : PolicyEvaluationContext :=
  { snapshot := sampleSnapshot
    method := some "GET"
    path := some "/public/index"
    principal := .anonymous
    target := .contextless
    requestHost := .missing }

theorem decide_monotone_sample :
    (assemble samplePolicy sampleSnapshot).decide sampleContext {} =
        .ok (.completed .allow .allow .matchedRule (some (.direct 1)) none) ∧
      (assemble samplePolicy sampleSnapshot).decide
          { sampleContext with requestHost := .present "a.example" }
          { headers := .captured [("x-env", "prod")] } =
        .ok (.completed .allow .allow .matchedRule (some (.direct 1)) none) := by
  have answered : (assemble samplePolicy sampleSnapshot).decide sampleContext {} =
      .ok (.completed .allow .allow .matchedRule (some (.direct 1)) none) := by decide
  have context : sampleContext.Refines { sampleContext with requestHost := .present "a.example" } :=
    ⟨Or.inl rfl, rfl⟩
  have facts : PolicyFacts.Refines {} { headers := .captured [("x-env", "prod")] } :=
    ⟨Or.inl rfl, Or.inl rfl, trivial, Or.inl rfl, Or.inl rfl, Or.inl rfl, Or.inl rfl, Or.inl rfl⟩
  exact ⟨answered, decide_monotone _ answered rfl context facts (by decide) (by decide)⟩

end Sample

end CompiledPolicy

end GreenGateway.Kernel
