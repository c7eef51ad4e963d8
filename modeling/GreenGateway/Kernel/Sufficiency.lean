import GreenGateway.Kernel.Spec
import GreenGateway.Rbac.Needs

/-! A lane that captures exactly the facts a policy names decides as one that
captured every fact: the HTTP decision, the tool decision and the rate lane. -/

namespace GreenGateway.Rbac

open Foundation List

variable {needs : FactNeeds} {mappings : List IdentityMapping} {principal : Principal}
  {facts : PolicyFacts}

theorem mappingApplies_restrict (within : (FactNeeds.ofMappings (some mappings)).Within needs)
    {mapping : IdentityMapping} (member : mapping ∈ mappings) :
    mappingApplies mapping principal (needs.restrict facts) =
      mappingApplies mapping principal facts := by
  have organization : needs.organization = true := within.organization rfl
  have scopes (listed : mapping.scopes.isEmpty = false) : needs.scopes = true :=
    within.scopes (List.any_eq_true.mpr ⟨mapping, member, by simp [listed]⟩)
  cases listed : mapping.scopes.isEmpty with
  | true => simp [mappingApplies, FactNeeds.restrict, organization, listed]
  | false => simp [mappingApplies, FactNeeds.restrict, organization, scopes listed]

theorem effectiveRoles_restrict (within : (FactNeeds.ofMappings (some mappings)).Within needs) :
    effectiveRoles mappings principal (needs.restrict facts) =
      effectiveRoles mappings principal facts := by
  -- the walk stops at any prefix of the mappings, all of which are named
  have granted : ∀ rest, rest ⊆ mappings →
      grantedRoles principal (needs.restrict facts) rest = grantedRoles principal facts rest := by
    intro rest
    induction rest with
    | nil => intro _; rfl
    | cons mapping rest ih =>
      intro listed
      simp only [grantedRoles, mappingApplies_restrict within (listed (mem_cons_self ..)),
        ih fun _ member => listed (mem_cons_of_mem mapping member)]
  simp only [effectiveRoles, granted mappings (List.Subset.refl mappings)]

end GreenGateway.Rbac

namespace GreenGateway.Kernel

open Foundation Rbac

section Bounds

variable {needs : FactNeeds} {facts : PolicyFacts} {α : Type}

theorem check_keepIf {keep : Bool} {fact : Fact α}
    {validate : α → Except EvaluationError Unit} (passed : Fact.check fact validate = .ok ()) :
    Fact.check (fact.keepIf keep) validate = .ok () := by
  cases keep with
  | true => exact passed
  | false => rfl

theorem check_filter {fact : Fact (List α)} {keep : α → Bool}
    {validate : List α → Except EvaluationError Unit}
    (filtered : ∀ items, validate items = .ok () → validate (items.filter keep) = .ok ())
    (passed : Fact.check fact validate = .ok ()) :
    Fact.check (fact.map fun items => items.filter keep) validate = .ok () := by
  cases fact with
  | uncaptured => rfl
  | captured items => exact filtered items passed

theorem validateEntries_filter {keep : String × String → Bool} (entries : List (String × String))
    (passed : validateEntries entries = .ok ()) :
    validateEntries (entries.filter keep) = .ok () := by
  simp only [validateEntries, refuse_eq_ok, Bool.or_eq_false_iff, decide_eq_false_iff_not,
    List.any_eq_false] at passed ⊢
  refine ⟨?_, fun entry member => passed.2 entry (List.mem_filter.mp member).1⟩
  have := List.length_filter_le keep entries
  omega

theorem validateClaims_filter {keep : VerifiedClaim → Bool} (claims : List VerifiedClaim)
    (passed : validateClaims claims = .ok ()) : validateClaims (claims.filter keep) = .ok () := by
  simp only [validateClaims, bind_eq_ok, unit_exists_ok, refuse_eq_ok, Bool.or_eq_false_iff,
    decide_eq_false_iff_not, List.any_eq_false] at passed ⊢
  obtain ⟨⟨count, sizes⟩, scalars⟩ := passed
  refine ⟨⟨?_, fun claim member => sizes claim (List.mem_filter.mp member).1⟩,
    fun claim member => scalars claim (List.mem_filter.mp member).1⟩
  have := List.length_filter_le keep claims
  omega

/-- Keeping fewer facts stays within the bounds. -/
theorem validateFacts_restrict (passed : validateFacts facts = .ok ()) :
    validateFacts (needs.restrict facts) = .ok () := by
  simp only [validateFacts, bind_eq_ok, unit_exists_ok] at passed ⊢
  obtain ⟨organization, scopes, claims, headers, query, toolArguments⟩ := passed
  exact ⟨check_keepIf organization, check_keepIf scopes,
    check_filter validateClaims_filter (check_keepIf claims),
    check_filter validateEntries_filter (check_keepIf headers),
    check_filter validateEntries_filter (check_keepIf query), check_keepIf toolArguments⟩

end Bounds

namespace CompiledPolicy

variable [Externals] {compiled : CompiledPolicy} {facts : PolicyFacts}

theorem effectivePrincipal_restrict (principal : Principal) :
    compiled.effectivePrincipal principal (compiled.factNeeds.restrict facts) =
      compiled.effectivePrincipal principal facts := by
  unfold effectivePrincipal
  cases mapped : compiled.identity with
  | none => rfl
  | some mappings =>
    have within : (FactNeeds.ofMappings (some mappings)).Within compiled.factNeeds := by
      rw [compiled.factNeeds_eq, ← mapped, compiled.identity_eq, FactNeeds.of_eq]
      exact (FactNeeds.foldl_addRule_within _ _).trans (FactNeeds.sorted_within _)
    simp only [effectiveRoles_restrict within]

theorem judgedPrincipal_restrict (fact : PrincipalFact) :
    compiled.judgedPrincipal fact (compiled.factNeeds.restrict facts) =
      compiled.judgedPrincipal fact facts := by
  cases fact <;> simp only [judgedPrincipal, effectivePrincipal_restrict]

section Validated

variable (validated : compiled.policy.Validated) {rule : CompiledRule}

include validated

theorem withConditions_restrict (member : rule ∈ compiled.matcher.rules)
    (predicatesHold : Bool) (principal : Option Principal) :
    rule.withConditions predicatesHold principal (compiled.factNeeds.restrict facts) =
      rule.withConditions predicatesHold principal facts := by
  rw [compiled.matcher_eq, RuleMatcher.mem_rules] at member
  obtain ⟨index, authored, found, rfl⟩ := member
  unfold CompiledRule.withConditions
  cases carried : authored.conditions with
  | none => simp [CompiledRule.new, carried]
  | some conditions =>
    have covered := FactNeeds.of_covers validated (List.mem_of_getElem? found) carried
    rw [← compiled.factNeeds_eq] at covered
    simp [CompiledRule.new, carried, CompiledCondition.evaluate_restrict conditions covered]

theorem judge_restrict (lane : Lane) :
    compiled.judge lane (compiled.factNeeds.restrict facts) = compiled.judge lane facts := by
  have same : ∀ rule ∈ compiled.matcher.rules,
      lane.truth (compiled.factNeeds.restrict facts) rule = lane.truth facts rule := by
    intro rule member
    simp only [Lane.truth, RuleMatcher.pathsTruth, CompiledRule.httpTruth,
      withConditions_restrict validated member]
  simp only [judge, judge.afterFirst, laneScan_congr same]

theorem toolAnswer_restrict (operation : ToolOperation) (name : String)
    (principal : Option Principal) :
    compiled.toolAnswer operation name principal (compiled.factNeeds.restrict facts) =
      compiled.toolAnswer operation name principal facts := by
  have scanned : compiled.matcher.scanTool name principal (compiled.factNeeds.restrict facts) =
      compiled.matcher.scanTool name principal facts := by
    rw [RuleMatcher.scanTool_eq, RuleMatcher.scanTool_eq]
    congr 1
    refine firstMatch_congr fun rule member => ?_
    simp only [CompiledRule.toolTruth, withConditions_restrict validated member]
  simp only [toolAnswer, scanned]

/-- The facts a validated policy names decide as all facts do, in the HTTP lane,
the tool lane and the rate lane. -/
theorem decide_restrict (bounded : validateFacts facts = .ok ()) :
    (∀ context, compiled.decide context (compiled.factNeeds.restrict facts) =
      compiled.decide context facts) ∧
    (∀ context, context.operation ≠ .renderedHttp →
      compiled.evaluateToolWithFacts context (compiled.factNeeds.restrict facts) =
        compiled.evaluateToolWithFacts context facts) ∧
    ∀ context, compiled.selectRateLaneWithFacts context (compiled.factNeeds.restrict facts) =
      compiled.selectRateLaneWithFacts context facts := by
  have restricted : validateFacts (compiled.factNeeds.restrict facts) = .ok () :=
    validateFacts_restrict bounded
  refine ⟨fun context => ?_, fun context plain => ?_, fun context => ?_⟩
  · simp only [decide, bounded, restricted, resolve, judgedPrincipal_restrict,
      judge_restrict validated]
  · have principals : compiled.toolPrincipal context (compiled.factNeeds.restrict facts) =
        compiled.toolPrincipal context facts := by
      simp only [toolPrincipal, effectivePrincipal_restrict]
    simp [evaluateToolWithFacts, bounded, restricted, principals, plain,
      toolAnswer_restrict validated]
  · simp only [selectRateLaneWithFacts, bounded, restricted, judgedPrincipal_restrict]

end Validated

end CompiledPolicy

namespace CompiledPolicy

section Sample

attribute [local instance] inertExternals

/-- One rule that reads one header; nothing else is named. -/
def headerPolicy : Policy :=
  { schemaVersion := "1.0.0"
    rules := [{ id := some "r1", path := "/api/*", action := .allow
                conditions := some (.header { name := "x-env", values := ["prod"] }) }] }

def headerSnapshot : ResourceSnapshot :=
  { digest := .validatedPolicy [], authority := .standalone }

def headerFacts : PolicyFacts :=
  { headers := .captured [("Accept", "*/*"), ("X-Env", "prod")]
    query := .captured [("page", "2")]
    now := .captured 0 }

def headerContext : PolicyEvaluationContext :=
  { snapshot := headerSnapshot
    method := some "GET"
    path := some "/api/items"
    principal := .anonymous
    target := .contextless
    requestHost := .absent
    dispatch := none }

theorem decide_restrict_sample :
    (FactNeeds.of headerPolicy.rules none).restrict headerFacts =
        { headers := .captured [("X-Env", "prod")] } ∧
      (assemble headerPolicy headerSnapshot).decide headerContext
          { headers := .captured [("X-Env", "prod")] } =
        .ok (.completed .allow .allow .matchedRule (some (.direct 0)) none) := by
  have kept : (FactNeeds.of headerPolicy.rules none).restrict headerFacts =
      { headers := .captured [("X-Env", "prod")] } := by decide
  have validated : (assemble headerPolicy headerSnapshot).policy.Validated := by decide
  have bounded : validateFacts headerFacts = .ok () := by decide
  refine ⟨kept, ?_⟩
  have same := (decide_restrict validated bounded).1 headerContext
  have all : (assemble headerPolicy headerSnapshot).decide headerContext headerFacts =
      .ok (.completed .allow .allow .matchedRule (some (.direct 0)) none) := by decide
  rw [← kept]
  exact same.trans all

end Sample

end CompiledPolicy

end GreenGateway.Kernel
