import GreenGateway.Rbac.Refinement

/-! An MCP alias decides by its two path identities together. The pair's scan
finds the most restrictive match of either identity, so it is never weaker than
the scan of one of them alone. -/

namespace GreenGateway.Rbac

open Foundation RuleMatcher RuleMatcher CompiledRule

/-- The most restrictive action comes first: deny, then shadow, then allow. -/
def RuleAction.rank : RuleAction → Nat
  | .deny => 0
  | .shadow => 1
  | .allow => 2

theorem RuleAction.idxOf_eq_rank (action : RuleAction) :
    [RuleAction.deny, .shadow, .allow].idxOf action = action.rank := by
  cases action <;> rfl

section Rule

variable [Externals] {principal : Option Principal} {dispatchContext : RuleDispatchContext}
  {facts : PolicyFacts} {method path : String}

/-- Only an enabled HTTP rule matches a request. -/
theorem CompiledRule.httpTruth_eq_true {index : Nat} {rule : Rule}
    (yes : (CompiledRule.new index rule).httpTruth method path principal dispatchContext facts =
      .true) :
    rule.enabled = true ∧ rule.toolName = none := by
  unfold httpTruth at yes
  cases named : rule.toolName with
  | some toolName => simp [CompiledRule.new, named] at yes
  | none =>
    simp only [CompiledRule.new, named, withConditions] at yes
    split at yes
    · cases yes
    · simp_all

end Rule

section Pair

variable [Externals] (rules : List Rule) (method : String) (principal : Option Principal)
  (dispatchContext : RuleDispatchContext) (facts : PolicyFacts) (canonical alias_ : String)
  {index : Nat} {rule : Rule} {decision : RuleDecision}

/-- An enabled HTTP rule that matches at least one of the two identities. -/
structure PairCandidate (index : Nat) (rule : Rule) : Prop where
  listed : rules[index]? = some rule
  enabled : rule.enabled = true
  http : rule.toolName = none
  either :
    (CompiledRule.new index rule).httpTruth method canonical principal dispatchContext facts =
        .true ∨
      (CompiledRule.new index rule).httpTruth method alias_ principal dispatchContext facts = .true

/-- The candidate that is first by restrictiveness, then by source index. -/
def FirstCandidate (decision : RuleDecision) : Prop :=
  ∃ rule,
    PairCandidate rules method principal dispatchContext facts canonical alias_
        decision.ruleIndex rule ∧
      rule.action = decision.action ∧
      ∀ index other,
        PairCandidate rules method principal dispatchContext facts canonical alias_ index other →
          decision.action.rank < other.action.rank ∨
            (decision.action = other.action ∧ decision.ruleIndex ≤ index)

/-- No rule is undetermined on either identity. -/
def PairDetermined : Prop :=
  ∀ rule ∈ (RuleMatcher.new rules).rules,
    rule.httpTruth method canonical principal dispatchContext facts ≠ .unknown ∧
      rule.httpTruth method alias_ principal dispatchContext facts ≠ .unknown

/-- The pair's scan. -/
def pairScan : RuleScan :=
  (RuleMatcher.new rules).scanEquivalentPathsWithDispatch method principal dispatchContext facts
    [canonical, alias_] false

variable {rules method principal dispatchContext facts canonical alias_}

theorem pairScan_eq :
    pairScan rules method principal dispatchContext facts canonical alias_ =
      .ofScan (firstMatchBy action
        (pathsTruth method principal dispatchContext facts [canonical, alias_])
        (RuleMatcher.new rules).rules [.deny, .shadow, .allow]) := by
  simp [pairScan, scanEquivalentPathsWithDispatch, scanMatchingPathsByAction_eq]

theorem PairDetermined.known
    (determined : PairDetermined rules method principal dispatchContext facts canonical alias_) :
    ∀ rule ∈ (RuleMatcher.new rules).rules,
      pathsTruth method principal dispatchContext facts [canonical, alias_] rule ≠
        .unknown := by
  intro rule member open_
  rw [pathsTruth_pair] at open_
  obtain ⟨first, second⟩ := determined rule member
  exact (Truth.orElse_eq_unknown open_).elim first second

/-- A rule of the compiled rulebase is a candidate exactly when it matches the
pair. -/
theorem pairCandidate_iff (listed : rules[index]? = some rule) :
    PairCandidate rules method principal dispatchContext facts canonical alias_ index rule ↔
      pathsTruth method principal dispatchContext facts [canonical, alias_]
        (CompiledRule.new index rule) = .true := by
  rw [pathsTruth_pair, Truth.orElse_eq_true]
  constructor
  · exact fun candidate => candidate.either
  · intro either
    obtain ⟨enabled, http⟩ := either.elim httpTruth_eq_true
      httpTruth_eq_true
    exact ⟨listed, enabled, http, either⟩

theorem pairScan_eq_matched
    (determined : PairDetermined rules method principal dispatchContext facts canonical alias_) :
    pairScan rules method principal dispatchContext facts canonical alias_ = .matched decision ↔
      FirstCandidate rules method principal dispatchContext facts canonical alias_ decision := by
  rw [pairScan_eq, RuleScan.ofScan_eq_matched]
  simp only [firstMatchBy_eq_matched determined.known, rules_getElem?,
    RuleAction.idxOf_eq_rank, RuleAction.mem_restrictions, true_and, forall_true_left,
    Option.map_eq_some_iff]
  constructor
  · rintro ⟨_, ⟨index, ⟨rule, listed, rfl⟩, yes, first⟩, rfl⟩
    refine ⟨rule, (pairCandidate_iff listed).mpr yes, rfl, fun position other candidate => ?_⟩
    exact first position _ ⟨other, candidate.listed, rfl⟩
      ((pairCandidate_iff candidate.listed).mp candidate)
  · rintro ⟨rule, candidate, action, first⟩
    obtain ⟨ruleIndex, _⟩ := decision
    dsimp only at candidate action first
    subst action
    refine ⟨_, ⟨ruleIndex, ⟨rule, candidate.listed, rfl⟩,
      (pairCandidate_iff candidate.listed).mp candidate, ?_⟩, rfl⟩
    rintro position _ ⟨other, listed, rfl⟩ yes
    exact first position other ((pairCandidate_iff listed).mpr yes)

theorem pairScan_eq_noMatch :
    pairScan rules method principal dispatchContext facts canonical alias_ = .noMatch ↔
      ∀ rule ∈ (RuleMatcher.new rules).rules,
        pathsTruth method principal dispatchContext facts [canonical, alias_] rule =
          .false := by
  simp only [pairScan_eq, RuleScan.ofScan_eq_noMatch, firstMatchBy_eq_noMatch,
    RuleAction.mem_restrictions, forall_true_left]

theorem candidate_of_single {path : String} (identity : path = canonical ∨ path = alias_)
    (single : (RuleMatcher.new rules).scanWithDispatch method principal dispatchContext facts path =
      .matched decision) :
    ∃ rule, rule.action = decision.action ∧
      PairCandidate rules method principal dispatchContext facts canonical alias_
        decision.ruleIndex rule := by
  rw [scanWithDispatch_eq, RuleScan.ofScan_eq_matched] at single
  obtain ⟨_, found, rfl⟩ := single
  obtain ⟨index, held, yes, -⟩ := firstMatch_eq_matched_at.mp found
  rw [rules_getElem?, Option.map_eq_some_iff] at held
  obtain ⟨rule, listed, rfl⟩ := held
  refine ⟨rule, rfl, (pairCandidate_iff listed).mpr ?_⟩
  rw [pathsTruth_pair, Truth.orElse_eq_true]
  rcases identity with rfl | rfl
  · exact Or.inl yes
  · exact Or.inr yes

theorem pairScan_of_candidate
    (determined : PairDetermined rules method principal dispatchContext facts canonical alias_)
    (candidate : PairCandidate rules method principal dispatchContext facts canonical alias_
      index rule) :
    ∃ decision, pairScan rules method principal dispatchContext facts canonical alias_ =
        .matched decision ∧ decision.action.rank ≤ rule.action.rank := by
  have yes := (pairCandidate_iff candidate.listed).mp candidate
  have member : CompiledRule.new index rule ∈ (RuleMatcher.new rules).rules :=
    mem_rules.mpr ⟨index, rule, candidate.listed, rfl⟩
  cases found : pairScan rules method principal dispatchContext facts canonical alias_ with
  | noMatch =>
    rw [pairScan_eq_noMatch.mp found _ member] at yes
    cases yes
  | undetermined open_ =>
    rw [pairScan_eq] at found
    obtain ⟨item, stopped⟩ | none :=
      firstMatchBy_determined action [.deny, .shadow, .allow] determined.known
    · simp [stopped, RuleScan.ofScan] at found
    · simp [none, RuleScan.ofScan] at found
  | matched decision =>
    obtain ⟨_, _, _, first⟩ := (pairScan_eq_matched determined).mp found
    refine ⟨decision, rfl, ?_⟩
    rcases first index rule candidate with before | ⟨same, _⟩
    · exact Nat.le_of_lt before
    · exact Nat.le_of_eq (congrArg RuleAction.rank same)

theorem pairScan_comm :
    pairScan rules method principal dispatchContext facts canonical alias_ =
      pairScan rules method principal dispatchContext facts alias_ canonical := by
  have same : pathsTruth method principal dispatchContext facts [canonical, alias_] =
      pathsTruth method principal dispatchContext facts [alias_, canonical] := by
    funext rule
    simp only [pathsTruth_pair, Truth.orElse_comm]
  rw [pairScan_eq, pairScan_eq, same]

end Pair

/-- An MCP alias is never weaker than either of its identities. -/
theorem pairScan_mostRestrictive [Externals] (rules : List Rule) (method : String)
    (principal : Option Principal) (dispatchContext : RuleDispatchContext) (facts : PolicyFacts)
    (canonical alias_ : String) :
    (PairDetermined rules method principal dispatchContext facts canonical alias_ →
      (∀ decision,
        pairScan rules method principal dispatchContext facts canonical alias_ =
            .matched decision ↔
          FirstCandidate rules method principal dispatchContext facts canonical alias_ decision) ∧
      (pairScan rules method principal dispatchContext facts canonical alias_ = .noMatch ↔
        ∀ index rule,
          ¬ PairCandidate rules method principal dispatchContext facts canonical alias_ index
            rule) ∧
      ∀ path, path = canonical ∨ path = alias_ → ∀ decision,
        (RuleMatcher.new rules).scanWithDispatch method principal dispatchContext facts path =
            .matched decision →
          ∃ pairDecision,
            pairScan rules method principal dispatchContext facts canonical alias_ =
                .matched pairDecision ∧
              pairDecision.action.rank ≤ decision.action.rank) ∧
    pairScan rules method principal dispatchContext facts canonical alias_ =
      pairScan rules method principal dispatchContext facts alias_ canonical ∧
    ∀ more decision, facts.Refines more →
      pairScan rules method principal dispatchContext facts canonical alias_ =
          .matched decision →
        pairScan rules method principal dispatchContext more canonical alias_ =
          .matched decision := by
  refine ⟨fun determined => ⟨fun decision => pairScan_eq_matched determined, ?_, ?_⟩,
    pairScan_comm, fun more decision refined found => ?_⟩
  · constructor
    · intro none index rule candidate
      obtain ⟨decision, found, -⟩ := pairScan_of_candidate determined candidate
      cases none.symm.trans found
    · intro none
      refine pairScan_eq_noMatch.mpr fun rule member => ?_
      obtain ⟨index, authored, listed, rfl⟩ := mem_rules.mp member
      have no := (pairCandidate_iff listed).not.mp (none index authored)
      have known := determined.known _ member
      cases judged : pathsTruth method principal dispatchContext facts
        [canonical, alias_] (CompiledRule.new index authored) with
      | false => rfl
      | true => exact absurd judged no
      | unknown => exact absurd judged known
  · intro path identity decision single
    obtain ⟨rule, action, candidate⟩ := candidate_of_single identity single
    rw [← action]
    exact pairScan_of_candidate determined candidate
  · -- more facts leave a match as it is
    rcases scanMatchingPathsByAction_refines refined [canonical, alias_] _ with
      ⟨index, open_⟩ | same
    · cases found.symm.trans open_
    · exact same.symm.trans found

section Sample

attribute [local instance] inertExternals

/-- An allow on the canonical identity ahead of a deny on the alias. -/
def sampleAliasRules : List Rule :=
  [{ path := "/mcp", action := .allow }, { path := "/tools/mcp", action := .deny }]

theorem pairScan_mostRestrictive_sample :
    (RuleMatcher.new sampleAliasRules).scanWithDispatch "POST" none .contextless {} "/mcp" =
        .matched ⟨0, .allow⟩ ∧
      pairScan sampleAliasRules "POST" none .contextless {} "/mcp" "/tools/mcp" =
        .matched ⟨1, .deny⟩ ∧
      ∃ pairDecision,
        pairScan sampleAliasRules "POST" none .contextless {} "/mcp" "/tools/mcp" =
            .matched pairDecision ∧
          pairDecision.action.rank ≤ RuleAction.allow.rank := by
  have determined : PairDetermined sampleAliasRules "POST" none .contextless {} "/mcp"
      "/tools/mcp" := by
    unfold PairDetermined
    decide
  have single : (RuleMatcher.new sampleAliasRules).scanWithDispatch "POST" none .contextless {}
      "/mcp" = .matched ⟨0, .allow⟩ := by decide
  obtain ⟨-, -, weaker⟩ := (pairScan_mostRestrictive sampleAliasRules "POST" none .contextless {}
    "/mcp" "/tools/mcp").1 determined
  exact ⟨single, by decide, weaker "/mcp" (Or.inl rfl) _ single⟩

end Sample

end GreenGateway.Rbac
