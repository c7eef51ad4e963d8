import GreenGateway.Foundation.ScanEdits
import GreenGateway.Rbac.Matcher

/-! The matcher's scans as instances of the ordered scans over three-valued
predicates, and where a compiled rule stands in the rulebase. -/

namespace GreenGateway.Rbac

open Foundation

@[simp] theorem CompiledRule.new_ruleIndex [Externals] (index : Nat) (rule : Rule) :
    (CompiledRule.new index rule).ruleIndex = index := rfl

@[simp] theorem CompiledRule.new_action [Externals] (index : Nat) (rule : Rule) :
    (CompiledRule.new index rule).action = rule.action := rfl

theorem RuleAction.mem_restrictions (action : RuleAction) :
    action ∈ [RuleAction.deny, .shadow, .allow] := by
  cases action <;> simp

namespace RuleScan

/-- A scan over compiled rules, reported by source index. -/
def ofScan : Scan CompiledRule → RuleScan
  | .matched rule => .matched { ruleIndex := rule.ruleIndex, action := rule.action }
  | .noMatch => .noMatch
  | .undetermined rule => .undetermined rule.ruleIndex

/-- `fine` agrees with `coarse` wherever `coarse` gives an answer. -/
def Refines (coarse fine : RuleScan) : Prop :=
  (∃ ruleIndex, coarse = .undetermined ruleIndex) ∨ coarse = fine

theorem ofScan_refines {coarse fine : Scan CompiledRule} (refined : Scan.Refines coarse fine) :
    Refines (ofScan coarse) (ofScan fine) := by
  rcases refined with ⟨rule, rfl⟩ | rfl
  · exact Or.inl ⟨rule.ruleIndex, rfl⟩
  · exact Or.inr rfl

variable {scan : Scan CompiledRule}

@[simp] theorem ofScan_eq_noMatch : ofScan scan = .noMatch ↔ scan = .noMatch := by
  cases scan <;> simp [ofScan]

theorem ofScan_eq_matched {decision : RuleDecision} :
    ofScan scan = .matched decision ↔
      ∃ rule, scan = .matched rule ∧ decision = ⟨rule.ruleIndex, rule.action⟩ := by
  cases scan <;> simp [ofScan, eq_comm]

end RuleScan

theorem firstMatch_map_eq (truth : CompiledRule → Truth) (rules : List CompiledRule) :
    firstMatch (rules.map fun rule => (rule, truth rule)) =
      RuleScan.ofScan (Foundation.firstMatch truth rules) := by
  induction rules with
  | nil => rfl
  | cons rule rest ih =>
    cases judged : truth rule with
    | false => simpa [firstMatch, judged, firstMatch_cons_false rest judged] using ih
    | true => simp [firstMatch, judged, firstMatch_cons_true rest judged, RuleScan.ofScan]
    | unknown => simp [firstMatch, judged, firstMatch_cons_unknown rest judged, RuleScan.ofScan]

namespace RuleMatcher

variable [Externals] {matcher : RuleMatcher} {method : String} {principal : Option Principal}
  {dispatchContext : RuleDispatchContext} {facts : PolicyFacts} {rules : List Rule}
  {truth : CompiledRule → Truth} {hit : CompiledRule}

theorem scanWithDispatch_eq (path : String) :
    matcher.scanWithDispatch method principal dispatchContext facts path =
      .ofScan (Foundation.firstMatch
        (fun rule => rule.httpTruth method path principal dispatchContext facts) matcher.rules) :=
  firstMatch_map_eq _ _

theorem scanTool_eq (toolName : String) :
    matcher.scanTool toolName principal facts =
      .ofScan (Foundation.firstMatch
        (fun rule => rule.toolTruth toolName principal facts) matcher.rules) :=
  firstMatch_map_eq _ _

theorem scanMatchingPathsByAction_eq (paths : List String) (actions : List RuleAction) :
    matcher.scanMatchingPathsByAction method principal dispatchContext facts paths actions =
      .ofScan (firstMatchBy CompiledRule.action
        (pathsTruth method principal dispatchContext facts paths) matcher.rules actions) := by
  induction actions with
  | nil => rfl
  | cons action actions ih =>
    simp only [scanMatchingPathsByAction, firstMatchBy, firstMatch_map_eq, ih]
    have own : (fun rule : CompiledRule => if rule.action = action then
        pathsTruth method principal dispatchContext facts paths rule else .false) =
      within CompiledRule.action (pathsTruth method principal dispatchContext facts paths)
        action := rfl
    rw [own]
    cases Foundation.firstMatch (within CompiledRule.action
      (pathsTruth method principal dispatchContext facts paths) action) matcher.rules <;> rfl

@[simp] theorem pathsTruth_single (path : String) (rule : CompiledRule) :
    pathsTruth method principal dispatchContext facts [path] rule =
      rule.httpTruth method path principal dispatchContext facts := by
  simp [pathsTruth]

@[simp] theorem pathsTruth_pair (first second : String) (rule : CompiledRule) :
    pathsTruth method principal dispatchContext facts [first, second] rule =
      (rule.httpTruth method first principal dispatchContext facts).orElse
        (rule.httpTruth method second principal dispatchContext facts) := by
  simp [pathsTruth]

theorem rules_getElem? (rules : List Rule) (index : Nat) :
    (new rules).rules[index]? = (rules[index]?).map (CompiledRule.new index) := by
  simp [new]

/-- A compiled rule stands at its own index. -/
theorem mem_rules {rule : CompiledRule} :
    rule ∈ (new rules).rules ↔
      ∃ index authored, rules[index]? = some authored ∧ rule = CompiledRule.new index authored := by
  rw [List.mem_iff_getElem?]
  simp [rules_getElem?, eq_comm (a := rule)]

theorem firstMatch_authored (found : Foundation.firstMatch truth (new rules).rules = .matched hit) :
    ∃ authored, rules[hit.ruleIndex]? = some authored ∧
      hit = CompiledRule.new hit.ruleIndex authored ∧ truth hit = .true ∧
      ∀ earlier < hit.ruleIndex, ∀ other, rules[earlier]? = some other →
        truth (CompiledRule.new earlier other) = .false := by
  obtain ⟨index, held, yes, none⟩ := firstMatch_eq_matched_at.mp found
  rw [rules_getElem?, Option.map_eq_some_iff] at held
  obtain ⟨authored, listed, rfl⟩ := held
  refine ⟨authored, listed, rfl, yes, fun earlier before other present => ?_⟩
  exact none earlier before _ (by simp [rules_getElem?, present])

/-- The same for the rule the most restrictive match finds. -/
theorem firstMatchBy_authored {actions : List RuleAction}
    (found : firstMatchBy CompiledRule.action truth (new rules).rules actions = .matched hit) :
    ∃ authored, rules[hit.ruleIndex]? = some authored ∧
      hit = CompiledRule.new hit.ruleIndex authored ∧ truth hit = .true ∧
      (∀ earlier < hit.ruleIndex, ∀ other, rules[earlier]? = some other →
        other.action = authored.action → truth (CompiledRule.new earlier other) = .false) ∧
      ∀ position other, rules[position]? = some other →
        actions.idxOf other.action < actions.idxOf authored.action →
          truth (CompiledRule.new position other) = .false := by
  obtain ⟨index, held, sameAction, ahead⟩ := firstMatchBy_ahead found
  obtain ⟨-, yes, -⟩ := mem_of_firstMatchBy found
  rw [rules_getElem?, Option.map_eq_some_iff] at held
  obtain ⟨authored, listed, rfl⟩ := held
  refine ⟨authored, listed, rfl, yes, fun earlier before other present same => ?_,
    fun position other present before => ?_⟩
  · exact sameAction earlier before _ (by simp [rules_getElem?, present]) same
  · exact ahead _ (mem_rules.mpr ⟨position, other, present, rfl⟩) before

end RuleMatcher

/-- The action a scan found. -/
def RuleScan.verdict : RuleScan → Verdict RuleAction
  | .matched decision => .acts decision.action
  | .noMatch => .noMatch
  | .undetermined _ => .undetermined

@[simp] theorem RuleScan.verdict_ofScan (scan : Scan CompiledRule) :
    (RuleScan.ofScan scan).verdict = scan.verdict CompiledRule.action := by
  cases scan <;> rfl

section Authored

variable [Externals] {truth : CompiledRule → Truth}

section

variable (placeless : ∀ index rule, truth (CompiledRule.new index rule) = truth (CompiledRule.new 0 rule))

include placeless

/-- A predicate that does not read where a rule stands settles the compiled rules
as it settles the authored ones. -/
theorem verdict_firstMatch_authored (rules : List Rule) :
    (Foundation.firstMatch truth (RuleMatcher.new rules).rules).verdict CompiledRule.action =
      (Foundation.firstMatch (fun rule => truth (CompiledRule.new 0 rule)) rules).verdict
        Rule.action := by
  have placed : ∀ place : Nat → Nat,
      (Foundation.firstMatch truth (rules.mapIdx fun index => CompiledRule.new (place index))).verdict
          CompiledRule.action =
        (Foundation.firstMatch (fun rule => truth (CompiledRule.new 0 rule)) rules).verdict
          Rule.action := by
    induction rules with
    | nil => exact fun _ => rfl
    | cons rule rest ih =>
      intro place
      have here := placeless (place 0) rule
      simp only [List.mapIdx_cons, Foundation.firstMatch, here]
      cases truth (CompiledRule.new 0 rule) with
      | false => exact ih fun index => place (index + 1)
      | true => rfl
      | unknown => rfl
  exact placed id

theorem verdict_firstMatchBy_authored (rules : List Rule) (actions : List RuleAction) :
    (firstMatchBy CompiledRule.action truth (RuleMatcher.new rules).rules actions).verdict
        CompiledRule.action =
      (firstMatchBy Rule.action (fun rule => truth (CompiledRule.new 0 rule)) rules
        actions).verdict Rule.action := by
  induction actions with
  | nil => rfl
  | cons action rest ih =>
    have own : (Foundation.firstMatch (within CompiledRule.action truth action)
          (RuleMatcher.new rules).rules).verdict CompiledRule.action =
        (Foundation.firstMatch (within Rule.action (fun rule => truth (CompiledRule.new 0 rule))
          action) rules).verdict Rule.action :=
      verdict_firstMatch_authored (fun index rule => by
        unfold within
        rw [placeless]
        rfl) rules
    simp only [firstMatchBy, Scan.verdict_orElse, own, ih]

end

end Authored

end GreenGateway.Rbac
