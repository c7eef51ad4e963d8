import GreenGateway.Rbac.Identity
import GreenGateway.Rbac.Scans

/-! Learning more facts. A condition, an identity mapping and a rule scan that
gave an answer under some captured facts give the same one under facts that
capture more. -/

namespace GreenGateway.Rbac

open Foundation

/-- A fact that was never captured may become captured; a captured one stays. -/
def Fact.Refines {α : Type} (coarse fine : Fact α) : Prop := coarse = .uncaptured ∨ coarse = fine

/-- A captured claim list may gain entries, only for names it lacked. -/
def Fact.ClaimsRefine : Fact (List VerifiedClaim) → Fact (List VerifiedClaim) → Prop
  | .uncaptured, _ => True
  | .captured held, .captured gained =>
    gained.filter (fun claim => held.any fun entry => entry.name == claim.name) = held
  | .captured _, .uncaptured => False

/-- `fine` captures everything `coarse` does, and possibly more. -/
structure PolicyFacts.Refines (coarse fine : PolicyFacts) : Prop where
  organization : coarse.organization.Refines fine.organization
  scopes : coarse.scopes.Refines fine.scopes
  claims : coarse.claims.ClaimsRefine fine.claims
  sourceIp : coarse.sourceIp.Refines fine.sourceIp
  headers : coarse.headers.Refines fine.headers
  query : coarse.query.Refines fine.query
  toolArguments : coarse.toolArguments.Refines fine.toolArguments
  now : coarse.now.Refines fine.now

/-- A name the held list has an entry for keeps that entry. -/
theorem find?_of_gained {held gained : List VerifiedClaim} {name : String} {claim : VerifiedClaim}
    (kept : gained.filter (fun claim => held.any fun entry => entry.name == claim.name) = held)
    (found : held.find? (fun entry => entry.name == name) = some claim) :
    gained.find? (fun entry => entry.name == name) = some claim := by
  have named : (claim.name == name) = true := by simpa using List.find?_some found
  have holder : (held.any fun entry => entry.name == name) = true :=
    List.any_eq_true.mpr ⟨claim, List.mem_of_find?_eq_some found, named⟩
  rw [← kept, List.find?_filter] at found
  rw [← found]
  congr 1
  funext entry
  -- an entry of that name passes the filter, since the held list has the name
  by_cases named : entry.name = name <;> simp [named, holder]

namespace CompiledCondition

theorem leafTruth_refines {α : Type} {coarse fine : Fact α} (answer : α → Truth)
    (refined : coarse.Refines fine) :
    Truth.Refines (leafTruth coarse answer) (leafTruth fine answer) := by
  rcases refined with rfl | rfl
  · exact Truth.unknown_refines _
  · exact .refl _

variable [Externals] {principal : Option Principal} {coarse fine : PolicyFacts}

mutual

/-- Kleene monotonicity of the condition tree. -/
theorem evaluate_refines (more : coarse.Refines fine) :
    ∀ condition, Truth.Refines (evaluate principal coarse condition)
      (evaluate principal fine condition)
  | .all operands => foldAll_refines more operands (.refl _)
  | .any operands => foldAny_refines more operands (.refl _)
  | .not operand => (evaluate_refines more operand).not
  | .organization issuer values => by
    simp only [evaluate]
    split
    · exact .refl _
    · exact leafTruth_refines _ more.organization
  | .scope issuer values => by
    simp only [evaluate]
    split
    · exact .refl _
    · exact leafTruth_refines _ more.scopes
  | .claim issuer name values => by
    simp only [evaluate]
    split
    · exact .refl _
    · -- only a name the coarse list has an entry for is answered
      have claims := more.claims
      cases held : coarse.claims with
      | uncaptured => exact Truth.unknown_refines _
      | captured held' =>
        cases gained : fine.claims with
        | uncaptured => simp [held, gained, Fact.ClaimsRefine] at claims
        | captured gained' =>
          rw [held, gained] at claims
          simp only [leafTruth]
          cases found : held'.find? fun entry => entry.name == name with
          | none => exact Truth.unknown_refines _
          | some claim =>
            rw [find?_of_gained claims found]
            exact .refl _
  | .sourceNetwork networks => leafTruth_refines _ more.sourceIp
  | .header name values => leafTruth_refines _ more.headers
  | .query name values => leafTruth_refines _ more.query
  | .toolArgument pointer values => leafTruth_refines _ more.toolArguments
  | .timeWindow start stop => leafTruth_refines _ more.now
  | .unusable => .refl _

theorem foldAll_refines (more : coarse.Refines fine) :
    ∀ operands {truth truth' : Truth}, Truth.Refines truth truth' →
      Truth.Refines (foldAll principal coarse truth operands)
        (foldAll principal fine truth' operands)
  | [], _, _, start => start
  | operand :: rest, _, _, start =>
    foldAll_refines more rest (start.andThen (evaluate_refines more operand))

theorem foldAny_refines (more : coarse.Refines fine) :
    ∀ operands {truth truth' : Truth}, Truth.Refines truth truth' →
      Truth.Refines (foldAny principal coarse truth operands)
        (foldAny principal fine truth' operands)
  | [], _, _, start => start
  | operand :: rest, _, _, start =>
    foldAny_refines more rest (start.orElse (evaluate_refines more operand))

end

end CompiledCondition

section Rules

variable [Externals] {coarse fine : PolicyFacts} {principal : Option Principal}
  {matcher : RuleMatcher} {method : String} {dispatchContext : RuleDispatchContext}
  (more : coarse.Refines fine)

include more

theorem CompiledRule.withConditions_refines (rule : CompiledRule) (predicatesHold : Bool) :
    Truth.Refines (rule.withConditions predicatesHold principal coarse)
      (rule.withConditions predicatesHold principal fine) := by
  unfold CompiledRule.withConditions
  split
  · exact .refl _
  · split
    · exact .refl _
    · exact CompiledCondition.evaluate_refines more _

theorem CompiledRule.httpTruth_refines (rule : CompiledRule) (method path : String)
    (dispatchContext : RuleDispatchContext) :
    Truth.Refines (rule.httpTruth method path principal dispatchContext coarse)
      (rule.httpTruth method path principal dispatchContext fine) := by
  unfold CompiledRule.httpTruth
  split
  · exact .refl _
  · exact rule.withConditions_refines more _

theorem RuleMatcher.pathsTruth_refines (rule : CompiledRule) (paths : List String) :
    Truth.Refines (RuleMatcher.pathsTruth method principal dispatchContext coarse paths rule)
      (RuleMatcher.pathsTruth method principal dispatchContext fine paths rule) := by
  unfold RuleMatcher.pathsTruth
  suffices ∀ {truth truth' : Truth}, Truth.Refines truth truth' →
      Truth.Refines (paths.foldl _ truth) (paths.foldl _ truth') from this (.refl _)
  induction paths with
  | nil => exact fun start => start
  | cons path rest ih =>
    exact fun start => ih (start.orElse (rule.httpTruth_refines more method path dispatchContext))

theorem RuleMatcher.scanWithDispatch_refines (path : String) :
    RuleScan.Refines (matcher.scanWithDispatch method principal dispatchContext coarse path)
      (matcher.scanWithDispatch method principal dispatchContext fine path) := by
  rw [scanWithDispatch_eq, scanWithDispatch_eq]
  exact RuleScan.ofScan_refines (firstMatch_refines fun rule _ =>
    rule.httpTruth_refines more method path dispatchContext)

theorem RuleMatcher.scanMatchingPathsByAction_refines (paths : List String) (actions : List RuleAction) :
    RuleScan.Refines
      (matcher.scanMatchingPathsByAction method principal dispatchContext coarse paths actions)
      (matcher.scanMatchingPathsByAction method principal dispatchContext fine paths actions) := by
  rw [scanMatchingPathsByAction_eq, scanMatchingPathsByAction_eq]
  exact RuleScan.ofScan_refines (firstMatchBy_refines actions fun rule _ =>
    pathsTruth_refines more rule paths)

end Rules

section Roles

variable {coarse fine : PolicyFacts} {principal : Principal} {mappings : List IdentityMapping}
  {roles : List String} (more : coarse.Refines fine)

include more

theorem mappingApplies_refines (mapping : IdentityMapping) (principal : Principal) :
    Truth.Refines (mappingApplies mapping principal coarse)
      (mappingApplies mapping principal fine) := by
  unfold mappingApplies
  dsimp only
  split
  · exact .refl _
  · refine Truth.Refines.andThen ?_ ?_
    · split
      · exact .refl _
      · rcases more.organization with open_ | same
        · rw [open_]
          exact Truth.unknown_refines _
        · rw [same]
          exact .refl _
    · split
      · exact .refl _
      · rcases more.scopes with open_ | same
        · rw [open_]
          exact Truth.unknown_refines _
        · rw [same]
          exact .refl _

theorem grantedRoles_refines
    (told : grantedRoles principal coarse mappings = some roles) :
    grantedRoles principal fine mappings = some roles := by
  induction mappings generalizing roles with
  | nil => exact told
  | cons mapping rest ih =>
    simp only [grantedRoles] at told ⊢
    rcases mappingApplies_refines more mapping principal with open_ | same
    · simp [open_] at told
    · rw [← same]
      cases applied : mappingApplies mapping principal coarse with
      | true =>
        simp only [applied, Option.map_eq_some_iff] at told ⊢
        obtain ⟨others, toldRest, split⟩ := told
        exact ⟨others, ih toldRest, split⟩
      | false => exact ih (by simpa [applied] using told)
      | unknown => simp [applied] at told

theorem effectiveRoles_refines
    (told : effectiveRoles mappings principal coarse = some roles) :
    effectiveRoles mappings principal fine = some roles := by
  simp only [effectiveRoles, Option.map_eq_some_iff] at told ⊢
  obtain ⟨granted, toldGranted, sorted⟩ := told
  exact ⟨granted, grantedRoles_refines more toldGranted, sorted⟩

end Roles

end GreenGateway.Rbac
