import GreenGateway.Analysis.Coverage
import GreenGateway.Foundation.Stoppable
import GreenGateway.Rbac.Validation
import GreenGateway.Simulation.Edits
import Mathlib.Data.List.Sort

/-! What an analysis reports: findings about policy elements, the lanes they hold
in, the candidate patches they carry, and the run that collects them within its
comparison budget, its deadline and its findings cap. -/

namespace GreenGateway.Analysis

open Foundation Rbac Simulation

/-- A stable finding code, in the order findings are sorted by. -/
inductive FindingCode where
  | defaultAllow
  | globalShadowEnforcement
  | broadUnconstrainedAllow
  | broadUnconstrainedShadow
  | wildcardGrantWithoutIssuer
  | ruleUnreachable
  | ruleShadowed
  | routeUnreachable
  | routeShadowed
  | routeBypassed
  | rateOverrideUnreachable
  | rateOverrideShadowed
  | rulePartiallyShadowed
  | mcpAliasRuleOverridden
  | mcpAliasRoutePrecedence
  | selectedUpstreamAllowIgnored
  | toolRuleNeverDecides
  | toolRuleGrantNarrowed
  | issuerlessRoleGrant
  | wildcardPermission
  | broadPathGrant
  | allMethodsGrant
  | rateOverrideLooserThanGlobal
  | egressBroadWildcardHost
  | egressNonPublicCidr
  | egressUnusualPort
  | egressChangeRequiresRestart
  | roleNotDefined
  | routePermissionUngranted
  | toolNotRegistered
  | connectionEndpointEgressDenied
  | nameCaseCollision
  | policyWriteUnreachable
  deriving DecidableEq, Ord, Repr

inductive Severity where
  | high
  | medium
  | low
  deriving DecidableEq, Ord, Repr

inductive ProofBasis where
  | proven
  | heuristic
  | inconclusive
  deriving DecidableEq, Repr

/-- What a candidate patch can do to access, judged on the effective action and,
for a rate override, the configured limits. -/
inductive AccessEffect where
  /-- No request's decision changes. -/
  | equivalent
  /-- No request forwarded after the patch was blocked before it, and no request
  is admitted under a looser rate limit. -/
  | narrowing
  | expanding
  | unknown
  deriving DecidableEq, Repr

/-- One way the evaluator reads the same policy elements. -/
inductive Lane where
  /-- One path identity, no selected virtual upstream: first match. -/
  | http
  /-- An MCP endpoint reached by an alias: both identities, most restrictive
  action first, and routes by exact prefix first. -/
  | mcpAlias
  /-- A selected host-qualified virtual upstream: direct denies only, then
  host-bound routes. -/
  | selectedUpstream
  /-- A rendered local tool HTTP operation: first match, unknown dispatch. -/
  | renderedToolHttp
  /-- An enum-source refresh request: direct denies only. -/
  | sourceRequest
  /-- MCP tool-name rules: first match per tool name. -/
  | tool
  /-- Rate-limit override selection: first match. -/
  | rate
  deriving DecidableEq, Repr

/-- The policy section an element lives in. -/
inductive Section where
  | defaultAction
  | enforcementMode
  | roles
  | rules
  | routes
  | rateLimits
  | tools
  | egress
  | identityMappings
  deriving DecidableEq, Ord, Repr

def Section.asStr : Section → String
  | .defaultAction => "default_action"
  | .enforcementMode => "enforcement_mode"
  | .roles => "roles"
  | .rules => "rules"
  | .routes => "routes"
  | .rateLimits => "rate_limits"
  | .tools => "tools"
  | .egress => "egress"
  | .identityMappings => "identity_mappings"

/-- A policy element a finding names. -/
structure ElementRef where
  section_ : Section
  /-- A pointer into the analyzed document. -/
  pointer : String
  /-- Position in an ordered section. -/
  position : Option Nat := none
  /-- The element's stable id, when it has one. -/
  id : Option String := none
  /-- A role's or a tool's name. -/
  name : Option String := none
  /-- The member of the element a finding is about, relative to it. -/
  member : Option String := none
  deriving DecidableEq, Repr

/-- A candidate patch: edits over the analyzed document. -/
structure CandidatePatch where
  accessEffect : AccessEffect
  edits : List PolicyEdit

structure Finding where
  code : FindingCode
  severity : Severity
  proofBasis : ProofBasis
  element : ElementRef
  /-- The element that establishes the finding. -/
  related : Option ElementRef := none
  /-- Lanes in which the element provably never decides a request. -/
  neverDecidesIn : List Lane := []
  /-- Lanes in which the element may still decide. -/
  mayDecideIn : List Lane := []
  /-- Value-free facts specific to the finding. -/
  details : List (String × Json) := []
  patch : Option CandidatePatch := none
  /-- Codes for what the analyzer could not establish. -/
  limitations : List String := []

inductive AnalysisLimitation where
  | comparisonBudgetExhausted
  | deadlineExceeded
  | findingsTruncated
  /-- A resource a check needs could not be read. -/
  | resourcesUnavailable
  deriving DecidableEq, Repr

structure AnalysisOutcome where
  findings : List Finding
  /-- Every check ran over every element. -/
  complete : Bool
  limitations : List AnalysisLimitation
  comparisons : Nat

/-- An analysis that failed, with no partial result. -/
inductive AnalysisError where
  | internal (code : String)
  deriving DecidableEq, Repr

section References

def elementId (id : Option String) : Option String := id.filter isValidStableRouteId

def ruleRef (position : Nat) (rule : Rule) : ElementRef :=
  { section_ := .rules
    pointer := s!"/rules/{position}"
    position := some position
    id := elementId rule.id }

def routeRef (position : Nat) (route : RouteRule) : ElementRef :=
  { section_ := .routes
    pointer := s!"/routes/{position}"
    position := some position
    id := elementId route.id }

def rateRef (position : Nat) (limit : RateLimitRule) : ElementRef :=
  { section_ := .rateLimits
    pointer := s!"/rate_limits/{position}"
    position := some position
    id := elementId limit.id }

def scalarRef (section_ : Section) : ElementRef :=
  { section_, pointer := "/" ++ section_.asStr }

/-- Delete the element at its position, naming its id when it has one. -/
def deleteEdit (section_ : EditSection) (element : ElementRef) : Option PolicyEdit :=
  element.position.map fun position => .delete section_ position element.id

/-- Move the element, naming its id when it has one. -/
def moveEdit (section_ : EditSection) (element : ElementRef) («from» «to» : Nat) : PolicyEdit :=
  .move section_ «from» «to» element.id

end References

namespace Finding

/-- A finding with one more detail. -/
def detail (finding : Finding) (name : String) (value : Json) : Finding :=
  { finding with details := Json.insertMember name value finding.details }

/-- A finding as reported: unchanged when its witness confirmed it, and otherwise
inconclusive, without a patch, saying why. -/
def unconfirmedUnless (confirmed : Bool) (finding : Finding) : Finding :=
  if confirmed then finding
  else
    { finding with
      proofBasis := .inconclusive
      patch := none
      limitations := finding.limitations ++ ["witness_unconfirmed"] }

/-- Severity, then section, position and name, then code and pointer. -/
def order (left right : Finding) : Ordering :=
  (compare left.severity right.severity).then <|
    (compare left.element.section_ right.element.section_).then <|
      (compare left.element.position right.element.position).then <|
        (compare left.element.name right.element.name).then <|
          (compare left.code right.code).then <|
            compare left.element.pointer right.element.pointer

end Finding

def maxComparisons : Nat := 2000000
def maxFindings : Nat := 1000

/-- How often, in comparisons, the deadline is read. -/
def deadlineCheckInterval : Nat := 1024

/-- What a run has done so far. -/
structure Run where
  comparisons : Nat := 0
  stopped : Option AnalysisLimitation := none
  /-- A check did not run because a resource it needs was not read. -/
  resourcesUnavailable : Bool := false
  /-- Rules already reported as never deciding where they would be compared. -/
  coveredRules : List Nat := []
  findings : List Finding := []

/-- A check: it may stop early, and a refused question fails the analysis. -/
abbrev Check (α : Type) := Stoppable Run AnalysisError α

namespace Run

/-- Spend one comparison. `false` once the budget, the deadline or the findings
cap has stopped the analysis. `expired n` is what the clock says when it is read
at the `n`th comparison. -/
def spend (expired : Nat → Bool) : Check Bool := fun run =>
  if run.stopped.isSome then .ok (some false, run)
  else if run.comparisons ≥ maxComparisons then
    .ok (some false, { run with stopped := some .comparisonBudgetExhausted })
  else if run.comparisons % deadlineCheckInterval = 0 ∧ expired run.comparisons then
    .ok (some false, { run with stopped := some .deadlineExceeded })
  else .ok (some true, { run with comparisons := run.comparisons + 1 })

/-- Spend one comparison, or end the check. -/
def pay (expired : Nat → Bool) : Check Unit := do
  if ← spend expired then pure () else Stoppable.stop

/-- Reports a finding, up to the cap. -/
def push (finding : Finding) : Check Unit :=
  Stoppable.modify fun run =>
    if run.findings.length ≥ maxFindings then
      { run with stopped := run.stopped.or (some .findingsTruncated) }
    else { run with findings := run.findings ++ [finding] }

/-- A rule other checks need not report on. -/
def cover (position : Nat) : Check Unit :=
  Stoppable.modify fun run => { run with coveredRules := position :: run.coveredRules }

def finish (run : Run) : AnalysisOutcome :=
  let limitations := run.stopped.toList ++
    (if run.resourcesUnavailable then [.resourcesUnavailable] else [])
  { findings := run.findings.insertionSort fun left right => (left.order right).isLE
    complete := limitations.isEmpty
    limitations
    comparisons := run.comparisons }

/-- Every finding reported so far satisfies `good`. -/
def Reports (good : Finding → Prop) (run : Run) : Prop := ∀ finding ∈ run.findings, good finding

variable {good : Finding → Prop} (expired : Nat → Bool)

theorem spend_keeps : Stoppable.Keeps (Reports good) (spend expired) fun _ => True := by
  intro run kept answer run' ran
  refine ⟨?_, fun _ _ => trivial⟩
  have same : run'.findings = run.findings := by
    unfold spend at ran
    split_ifs at ran <;> cases ran <;> rfl
  simpa only [Reports, same] using kept

theorem pay_keeps : Stoppable.Keeps (Reports good) (pay expired) fun _ => True := by
  refine .bind (spend_keeps expired) fun paid _ => ?_
  cases paid with
  | true => exact .pure trivial
  | false => exact .stop

theorem push_keeps {finding : Finding} (holds : good finding) :
    Stoppable.Keeps (Reports good) (push finding) fun _ => True := by
  refine .modify (fun run kept => ?_) trivial
  split
  · exact kept
  · intro other member
    rcases List.mem_append.mp member with held | added
    · exact kept other held
    · obtain rfl := List.mem_singleton.mp added
      exact holds

theorem cover_keeps (position : Nat) :
    Stoppable.Keeps (Reports good) (cover position) fun _ => True :=
  .modify (fun _ kept => kept) trivial

theorem finish_reports {run : Run} (kept : Reports good run) :
    ∀ finding ∈ run.finish.findings, good finding := by
  intro finding member
  exact kept finding ((List.mem_insertionSort _).mp member)

end Run

end GreenGateway.Analysis
