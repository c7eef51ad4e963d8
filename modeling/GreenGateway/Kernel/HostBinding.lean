import GreenGateway.Kernel.Spec

/-! A selected virtual upstream is authorized by a route bound to its host, and
by nothing else. -/

namespace GreenGateway.Kernel

open Foundation Rbac

variable {allowed : Bool} {mode : EnforcementMode}

theorem effect_eq_allow : effect allowed mode = .allow ↔ allowed = true := by
  cases allowed <;> cases mode <;> simp [effect]

theorem effect_eq_observe : effect allowed mode = .observe ↔ allowed = false ∧ mode = .shadow := by
  cases allowed <;> cases mode <;> simp [effect]

theorem routeHostMatches_required {hosts : List String} {host : String}
    (admitted : routeHostMatches hosts (some host) true = true) :
    hosts ≠ [] ∧ ∃ listed ∈ hosts, Text.eqIgnoreAsciiCase listed host = true := by
  unfold routeHostMatches at admitted
  cases hosts with
  | nil => simp at admitted
  | cons first rest => exact ⟨List.cons_ne_nil first rest, by simpa using admitted⟩

namespace CompiledPolicy

variable [Externals] {compiled : CompiledPolicy} {context : PolicyEvaluationContext}
  {facts : PolicyFacts} {lane : Lane} {evaluation : Evaluation} {index : Nat} {route : RouteRule}

theorem judge_bound (bound : lane.hostBindingRequired = true)
    (passed : (compiled.judge lane facts).effect ≠ .block) :
    compiled.laneScan lane true facts = .noMatch ∧
      ∃ observation, compiled.judge lane facts = compiled.routedAnswer lane observation := by
  have after (first : Option RuleDecision)
      (passes : (judge.afterFirst compiled lane facts first).effect ≠ .block) :
      compiled.laneScan lane true facts = .noMatch ∧
        ∃ observation,
          judge.afterFirst compiled lane facts first = compiled.routedAnswer lane observation := by
    simp only [judge.afterFirst, bound, if_true] at passes ⊢
    cases scanned : compiled.laneScan lane true facts with
    | undetermined index => simp [scanned] at passes
    | noMatch => exact ⟨rfl, _, rfl⟩
    | matched decision =>
      simp [scanned, answerFrom, directAnswer, laneScan_denies_action scanned, Evaluation.completed]
        at passes
  simp only [judge] at passed ⊢
  cases scanned : compiled.laneScan lane false facts with
  | undetermined index => simp [scanned] at passed
  | noMatch => exact after none (by simpa [scanned] using passed)
  | matched decision => exact after (some decision) (by simpa [scanned] using passed)

theorem target_of_dispatch {expected : ResourceSnapshot} {dispatch : DispatchFacts}
    (valid : context.validate expected = .ok ()) (carried : context.dispatch = some dispatch) :
    context.target = .proxyDispatch := by
  simp only [PolicyEvaluationContext.validate, bind_eq_ok, unit_exists_ok, checkSome_eq_ok]
    at valid
  obtain ⟨-, -, -, -, -, -, -, checked⟩ := valid
  have admitted := checked dispatch carried
  simp only [DispatchFacts.validate, bind_eq_ok, unit_exists_ok, refuse_eq_ok] at admitted
  simpa using admitted.1

theorem routeAnswer_effect {principal : Option Principal} {observation : Option RuleReference} :
    ((compiled.routeAnswer index route principal observation).effect = .allow →
        ∃ identity, principal = some identity ∧
          compiled.policy.principalHasPermission identity route.permission = true) ∧
      ((compiled.routeAnswer index route principal observation).effect = .observe →
        route.enforcementMode = some .shadow ∨
          route.enforcementMode = none ∧ compiled.policy.enforcementMode = .shadow) := by
  simp only [routeAnswer, Evaluation.completed, effect_eq_allow, effect_eq_observe]
  refine ⟨fun granted => ?_, fun observed => ?_⟩
  · cases principal with
    | none => simp at granted
    | some identity => exact ⟨identity, rfl, by simpa using granted⟩
  · cases own : route.enforcementMode with
    | none => exact Or.inr ⟨rfl, by simpa [own] using observed.2⟩
    | some set_ => exact Or.inl (by simpa [own] using observed.2)

/-- With a virtual upstream selected, only a route bound to its host lets a
request through, and a deny that certainly matches blocks it. Shadow enforcement
softens nothing but the refusal of such a route, by the route's own mode or the
policy mode it inherits. -/
theorem decide_selectedUpstream (compiled : CompiledPolicy) {context : PolicyEvaluationContext}
    {facts : PolicyFacts} {evaluation : Evaluation} {dispatch : DispatchFacts} {host : String}
    (answered : compiled.decide context facts = .ok evaluation)
    (carried : context.dispatch = some dispatch) (selected : dispatch.routeHost = some host) :
    (evaluation.effect ≠ .block →
      ∃ index route method path principal,
        evaluation.matched = some (.route index) ∧
        compiled.policy.routes[index]? = some route ∧
        context.method = some method ∧ context.path = some path ∧
        compiled.judgedPrincipal context.principal facts = .ok principal ∧
        route.hosts ≠ [] ∧
        (∃ listed ∈ route.hosts, Text.eqIgnoreAsciiCase listed host = true) ∧
        methodMatches route.methods method = true ∧
        pathPrefixMatches path route.pathPrefix = true ∧
        (evaluation.effect = .allow →
          ∃ identity, principal = some identity ∧
            compiled.policy.principalHasPermission identity route.permission = true) ∧
        (evaluation.effect = .observe →
          route.enforcementMode = some .shadow ∨
            route.enforcementMode = none ∧ compiled.policy.enforcementMode = .shadow)) ∧
    ∀ lane rule, Resolves compiled context facts lane → rule ∈ compiled.matcher.rules →
      rule.action = .deny →
      rule.httpTruth lane.method lane.path lane.principal lane.dispatchContext facts = .true →
        evaluation.effect = .block := by
  have valid := (decide_eq_ok.mp answered).1
  have target := target_of_dispatch valid carried
  have routeHost : context.routeHost? = some host := by
    simp [PolicyEvaluationContext.routeHost?, carried, selected]
  have single {lane : Lane} (resolved : Resolves compiled context facts lane) :
      lane.canonicalPath = none := by
    rw [resolved.canonical, target]
    rfl
  have bound {lane : Lane} (resolved : Resolves compiled context facts lane) :
      lane.hostBindingRequired = true := by
    rw [resolved.bound, routeHost]
    rfl
  constructor
  · intro passed
    obtain ⟨lane, resolved, rfl⟩ := lane_of_decide answered (Or.inr passed)
    obtain ⟨-, observation, routed⟩ := judge_bound (bound resolved) passed
    have laneHost : lane.host = some host := by
      have := resolved.host
      rw [routeHost] at this
      exact (Except.ok.inj this).symm
    rw [routed] at passed ⊢
    simp only [routedAnswer, bound resolved, single resolved, laneHost] at passed ⊢
    cases found : compiled.matchRoute lane.method lane.path none (some host) true with
    | none => simp [found, defaultAnswer, Evaluation.completed] at passed
    | some hit =>
      obtain ⟨index, route⟩ := hit
      obtain ⟨listed, admits, -⟩ := findIndexed_eq_some.mp found
      simp only [Bool.and_eq_true] at admits
      obtain ⟨path, method, admitted⟩ := admits
      obtain ⟨nonempty, host⟩ := routeHostMatches_required admitted
      exact ⟨index, route, lane.method, lane.path, lane.principal, rfl, listed, resolved.method,
        resolved.path, resolved.judged, nonempty, host, method, path, routeAnswer_effect⟩
  · intro lane rule resolved member action certain
    by_contra passed
    obtain ⟨judged, resolved', rfl⟩ := lane_of_decide answered (Or.inr passed)
    obtain ⟨none, -⟩ := judge_bound (bound resolved') passed
    have same : judged = lane := by
      have first := resolve_eq_lane.mpr resolved'
      rw [resolve_eq_lane.mpr resolved] at first
      exact (Except.ok.inj (Except.ok.inj first)).symm
    subst same
    have fails := laneScan_denies_noMatch.mp none rule member action
    rw [Lane.truth_single (single resolved), certain] at fails
    cases fails

end CompiledPolicy

namespace CompiledPolicy

section Sample

attribute [local instance] inertExternals

/-- A route bound to one host, without a mode of its own. -/
def boundPolicy (mode : EnforcementMode) : Policy :=
  { schemaVersion := "0.1.0"
    enforcementMode := mode
    roles := (∅ : NameMap RoleEntry).insert "reader" { permissions := ["read"] }
    routes := [{ pathPrefix := "/api", permission := "read", hosts := ["Api.example"] }] }

def boundSnapshot : ResourceSnapshot :=
  { digest := .validatedPolicy [], authority := .standalone }

def boundContext (roles : List String) : PolicyEvaluationContext :=
  { snapshot := boundSnapshot
    method := some "GET"
    path := some "/api/items"
    principal := .authenticated
      { userId := "u", issuer := none, orgId := none, roles, authMethod := .bearer
        scopes := none, verifiedClaims := [] }
    target := .proxyDispatch
    requestHost := .absent
    dispatch := some { routeHost := some "api.example", upstreamOrigin := "http://upstream" } }

/-- The global shadow mode lets a request of a principal without the permission
through to the selected upstream, where the global enforce mode blocks it. -/
theorem selectedUpstream_inherits_shadow :
    (assemble (boundPolicy .shadow) boundSnapshot).decide (boundContext []) {} =
        .ok (.completed .deny .observe .missingPermission (some (.route 0)) none) ∧
      (assemble (boundPolicy .enforce) boundSnapshot).decide (boundContext []) {} =
        .ok (.completed .deny .block .missingPermission (some (.route 0)) none) := by
  decide

theorem decide_selectedUpstream_sample :
    (assemble (boundPolicy .enforce) boundSnapshot).decide (boundContext ["reader"]) {} =
        .ok (.completed .allow .allow .matchedRule (some (.route 0)) none) ∧
      ∃ listed ∈ ["Api.example"], Text.eqIgnoreAsciiCase listed "api.example" = true := by
  have answered : (assemble (boundPolicy .enforce) boundSnapshot).decide
      (boundContext ["reader"]) {} =
        .ok (.completed .allow .allow .matchedRule (some (.route 0)) none) := by decide
  obtain ⟨index, route, _, _, _, matched, listed, _, _, _, _, host, _⟩ :=
    (decide_selectedUpstream _ answered rfl rfl).1 (by decide)
  obtain rfl : index = 0 := by simpa [Evaluation.completed] using matched.symm
  obtain rfl : route = { pathPrefix := "/api", permission := "read", hosts := ["Api.example"] } :=
    (Option.some.inj listed).symm
  exact ⟨answered, host⟩

end Sample

end CompiledPolicy

end GreenGateway.Kernel
