import GreenGateway.Rbac.Validation

/-! The facts a policy's needs name suffice: a condition tree and an identity
mapping answer alike on all captured facts and on those the needs keep. -/

namespace GreenGateway.Rbac

open Foundation FactNeeds

namespace Fact

variable {α β : Type}

/-- The fact, or nothing captured when it is not asked for. -/
def keepIf (keep : Bool) (fact : Fact α) : Fact α :=
  if keep then fact else .uncaptured

def map (change : α → β) : Fact α → Fact β
  | .uncaptured => .uncaptured
  | .captured value => .captured (change value)

@[simp] theorem keepIf_true (fact : Fact α) : fact.keepIf true = fact := rfl

end Fact

namespace FactNeeds

/-- What a lane that captures exactly the named facts holds of `facts`. -/
def restrict (needs : FactNeeds) (facts : PolicyFacts) : PolicyFacts where
  organization := facts.organization.keepIf needs.organization
  scopes := facts.scopes.keepIf needs.scopes
  claims := (facts.claims.keepIf (!needs.claims.isEmpty)).map fun claims =>
    claims.filter fun claim => needs.claims.contains claim.name
  sourceIp := facts.sourceIp.keepIf needs.sourceIp
  headers := (facts.headers.keepIf (!needs.headers.isEmpty)).map fun headers =>
    headers.filter fun header => needs.headers.any (Text.eqIgnoreAsciiCase header.1)
  query := (facts.query.keepIf (!needs.query.isEmpty)).map fun pairs =>
    pairs.filter fun pair => needs.query.contains pair.1
  toolArguments := facts.toolArguments.keepIf (!needs.toolArguments.isEmpty)
  now := facts.now.keepIf needs.now

mutual

/-- Whether the needs name everything a condition reads. -/
def Covers (needs : FactNeeds) : Condition → Prop
  | .all operands | .any operands => CoversAll needs operands
  | .not operand => Covers needs operand
  | .organization _ => needs.organization = true
  | .scope _ => needs.scopes = true
  | .claim leaf => leaf.name ∈ needs.claims
  | .sourceNetwork _ => needs.sourceIp = true
  | .header leaf => Text.toAsciiLowercase leaf.name ∈ needs.headers
  | .query leaf => leaf.name ∈ needs.query
  | .toolArgument _ => needs.toolArguments ≠ ∅
  | .timeWindow _ => needs.now = true

def CoversAll (needs : FactNeeds) : List Condition → Prop
  | [] => True
  | operand :: rest => Covers needs operand ∧ CoversAll needs rest

end

/-- `wide` names whatever `narrow` names. -/
structure Within (narrow wide : FactNeeds) : Prop where
  organization : narrow.organization = true → wide.organization = true
  scopes : narrow.scopes = true → wide.scopes = true
  claims : narrow.claims ⊆ wide.claims
  sourceIp : narrow.sourceIp = true → wide.sourceIp = true
  headers : narrow.headers ⊆ wide.headers
  query : narrow.query ⊆ wide.query
  toolArguments : narrow.toolArguments ≠ ∅ → wide.toolArguments ≠ ∅
  now : narrow.now = true → wide.now = true

namespace Within

theorem refl (needs : FactNeeds) : Within needs needs := by
  constructor <;> simp

theorem trans {first second third : FactNeeds} (lower : Within first second)
    (upper : Within second third) : Within first third where
  organization named := upper.organization (lower.organization named)
  scopes named := upper.scopes (lower.scopes named)
  claims := List.Subset.trans lower.claims upper.claims
  sourceIp named := upper.sourceIp (lower.sourceIp named)
  headers := List.Subset.trans lower.headers upper.headers
  query := List.Subset.trans lower.query upper.query
  toolArguments named := upper.toolArguments (lower.toolArguments named)
  now named := upper.now (lower.now named)

end Within

mutual

theorem Covers.mono {narrow wide : FactNeeds} (within : Within narrow wide) :
    ∀ condition, Covers narrow condition → Covers wide condition
  | .all operands, covered | .any operands, covered => CoversAll.mono within operands covered
  | .not operand, covered => Covers.mono within operand covered
  | .organization _, covered => within.organization covered
  | .scope _, covered => within.scopes covered
  | .claim _, covered => within.claims covered
  | .sourceNetwork _, covered => within.sourceIp covered
  | .header _, covered => within.headers covered
  | .query _, covered => within.query covered
  | .toolArgument _, covered => within.toolArguments covered
  | .timeWindow _, covered => within.now covered

theorem CoversAll.mono {narrow wide : FactNeeds} (within : Within narrow wide) :
    ∀ operands, CoversAll narrow operands → CoversAll wide operands
  | [], _ => trivial
  | operand :: rest, covered =>
    ⟨Covers.mono within operand covered.1, CoversAll.mono within rest covered.2⟩

end

mutual

theorem add_within (needs : FactNeeds) (toolName : Option String) :
    ∀ condition, Within needs (needs.add toolName condition)
  | .all operands | .any operands => addList_within needs toolName operands
  | .not operand => add_within needs toolName operand
  | .toolArgument leaf => by
    cases toolName with
    | none => exact .refl needs
    | some toolName => constructor <;> simp [add]
  | .organization _ | .scope _ | .claim _ | .sourceNetwork _ | .header _ | .query _
  | .timeWindow _ => by constructor <;> simp [add]

theorem addList_within (needs : FactNeeds) (toolName : Option String) :
    ∀ operands, Within needs (needs.addList toolName operands)
  | [] => .refl needs
  | operand :: rest =>
    (add_within needs toolName operand).trans (addList_within _ toolName rest)

end

/-- The kind of rule a condition stands in, by the tool the rule names. -/
def targetOf (toolName : Option String) : ConditionTarget :=
  if toolName.isSome then .toolName else .httpPath

mutual

/-- One recursion names what the other reads, leaf by leaf. -/
theorem add_covers (needs : FactNeeds) (toolName : Option String) :
    ∀ condition : Condition, condition.Fits (targetOf toolName) →
      Covers (needs.add toolName condition) condition
  | .all operands, fits | .any operands, fits => addList_covers needs toolName operands fits
  | .not operand, fits => add_covers needs toolName operand fits
  | .toolArgument leaf, fits => by
    cases toolName with
    | none => simp [Condition.Fits, targetOf] at fits
    | some toolName => simp [Covers, add]
  | .organization _, _ | .scope _, _ | .claim _, _ | .sourceNetwork _, _ | .header _, _
  | .query _, _ | .timeWindow _, _ => by simp [Covers, add]

theorem addList_covers (needs : FactNeeds) (toolName : Option String) :
    ∀ operands, Condition.AllFit (targetOf toolName) operands →
      CoversAll (needs.addList toolName operands) operands
  | [], _ => trivial
  | operand :: rest, fits =>
    ⟨.mono (addList_within _ toolName rest) operand (add_covers needs toolName operand fits.1),
      addList_covers _ toolName rest fits.2⟩

end

/-- One rule of the walk over the rules. -/
def addRule (needs : FactNeeds) (rule : Rule) : FactNeeds :=
  match rule.conditions with
  | some conditions => needs.add rule.toolName conditions
  | none => needs

variable (needs : FactNeeds)

theorem addRule_within (rule : Rule) : Within needs (needs.addRule rule) := by
  unfold addRule
  split
  · exact add_within ..
  · exact .refl needs

theorem foldl_addRule_within (rules : List Rule) : Within needs (rules.foldl addRule needs) := by
  induction rules generalizing needs with
  | nil => exact .refl needs
  | cons rule rest ih => exact (addRule_within needs rule).trans (ih _)

variable {rule : Rule} {conditions : Condition}

theorem foldl_addRule_covers {rules : List Rule}
    (member : rule ∈ rules) (carried : rule.conditions = some conditions)
    (fits : conditions.Fits (targetOf rule.toolName)) :
    Covers (rules.foldl addRule needs) conditions := by
  induction rules generalizing needs with
  | nil => cases member
  | cons head rest ih =>
    rcases List.mem_cons.mp member with rfl | member
    · refine .mono (foldl_addRule_within _ rest) conditions ?_
      simp only [addRule, carried]
      exact add_covers needs rule.toolName conditions fits
    · exact ih _ member

/-- Sorting and de-duplicating the names loses none. -/
def sorted (needs : FactNeeds) : FactNeeds :=
  { needs with
    headers := Text.sortDedup needs.headers
    query := Text.sortDedup needs.query
    claims := Text.sortDedup needs.claims
    toolArguments := needs.toolArguments.map fun _ pointers => Text.sortDedup pointers }

theorem sorted_within : Within needs needs.sorted := by
  constructor <;> simp [sorted, List.subset_def, Std.ExtTreeMap.map_eq_empty_iff]

/-- What a policy's identity mappings read. -/
def ofMappings (identityMappings : Option (List IdentityMapping)) : FactNeeds :=
  { organization := identityMappings.isSome
    scopes := identityMappings.any fun mappings =>
      mappings.any fun mapping => !mapping.scopes.isEmpty }

theorem of_eq (rules : List Rule) (identityMappings : Option (List IdentityMapping)) :
    of rules identityMappings = (rules.foldl addRule (ofMappings identityMappings)).sorted := rfl

theorem of_covers {policy : Policy} [Externals] (validated : policy.Validated)
    (member : rule ∈ policy.rules) (carried : rule.conditions = some conditions) :
    Covers (of policy.rules policy.identityMappings) conditions := by
  rw [of_eq]
  exact .mono (sorted_within _) conditions <|
    foldl_addRule_covers _ member carried (validated.conditions_fit member carried)

end FactNeeds

namespace CompiledCondition

theorem leafTruth_map {α β : Type} (change : α → β) (fact : Fact α) (answer : β → Truth) :
    leafTruth (fact.map change) answer = leafTruth fact fun value => answer (change value) := by
  cases fact <;> rfl

private theorem not_isEmpty_of_mem {name : String} {names : List String} (member : name ∈ names) :
    (!names.isEmpty) = true := by
  cases names with
  | nil => cases member
  | cons => rfl

variable [Externals] {needs : FactNeeds} {principal : Option Principal} {facts : PolicyFacts}

theorem new_timeWindow (leaf : TimeWindowCondition) :
    new (.timeWindow leaf) = .unusable ∨
      ∃ «from» «until», new (.timeWindow leaf) = .timeWindow «from» «until» := by
  simp only [new]
  split
  · exact Or.inl rfl
  · exact Or.inl rfl
  · exact Or.inl rfl
  · exact Or.inr ⟨_, _, rfl⟩

mutual

/-- A condition whose reads are named answers the same on the named facts. -/
theorem evaluate_restrict : ∀ condition, needs.Covers condition →
    evaluate principal (needs.restrict facts) (new condition) =
      evaluate principal facts (new condition)
  | .all operands, covered => foldAll_restrict .true operands covered
  | .any operands, covered => foldAny_restrict .false operands covered
  | .not operand, covered => by
    simp only [new, evaluate, evaluate_restrict operand covered]
  | .organization leaf, covered => by
    simp only [Covers] at covered
    cases issuer : canonicalIssuer leaf.issuer <;>
      simp [new, issuerBound, issuer, evaluate, restrict, covered]
  | .scope leaf, covered => by
    simp only [Covers] at covered
    cases issuer : canonicalIssuer leaf.issuer <;>
      simp [new, issuerBound, issuer, evaluate, restrict, covered]
  | .claim leaf, covered => by
    simp only [Covers] at covered
    have kept (claim : VerifiedClaim) (named : (claim.name == leaf.name) = true) :
        needs.claims.contains claim.name = true := by
      simpa [beq_iff_eq.mp named] using covered
    cases issuer : canonicalIssuer leaf.issuer with
    | none => simp [new, issuerBound, issuer, evaluate]
    | some issuer_ =>
      simp only [new, issuerBound, issuer, evaluate, restrict,
        not_isEmpty_of_mem covered, Fact.keepIf_true, leafTruth_map, find?_filter_of_imp kept]
  | .sourceNetwork leaf, covered => by
    simp only [Covers] at covered
    cases networks : leaf.cidrs.mapM Externals.parseIpNet <;>
      simp [new, networks, evaluate, restrict, covered]
  | .header leaf, covered => by
    simp only [Covers] at covered
    have kept (header : String × String)
        (named : (Text.eqIgnoreAsciiCase header.1 (Text.toAsciiLowercase leaf.name) &&
          leaf.values.contains header.2) = true) :
        needs.headers.any (Text.eqIgnoreAsciiCase header.1) = true :=
      List.any_eq_true.mpr ⟨_, covered, (Bool.and_eq_true_iff.mp named).1⟩
    simp only [new, evaluate, restrict, not_isEmpty_of_mem covered, Fact.keepIf_true,
      leafTruth_map, any_filter_of_imp kept]
  | .query leaf, covered => by
    simp only [Covers] at covered
    have kept (pair : String × String)
        (named : (pair.1 == leaf.name && leaf.values.contains pair.2) = true) :
        needs.query.contains pair.1 = true := by
      have same := beq_iff_eq.mp (Bool.and_eq_true_iff.mp named).1
      simpa [same] using covered
    simp only [new, evaluate, restrict, not_isEmpty_of_mem covered, Fact.keepIf_true,
      leafTruth_map, any_filter_of_imp kept]
  | .toolArgument leaf, covered => by
    simp only [Covers] at covered
    have kept : (!needs.toolArguments.isEmpty) = true := by
      simpa [Std.ExtTreeMap.isEmpty_iff] using covered
    simp only [new, evaluate, restrict, kept, Fact.keepIf_true]
  | .timeWindow leaf, covered => by
    simp only [Covers] at covered
    rcases new_timeWindow leaf with compiled | ⟨«from», «until», compiled⟩
    · simp only [compiled, evaluate]
    · simp only [compiled, evaluate, restrict, covered, Fact.keepIf_true]

theorem foldAll_restrict (truth : Truth) : ∀ operands, needs.CoversAll operands →
    foldAll principal (needs.restrict facts) truth (newList operands) =
      foldAll principal facts truth (newList operands)
  | [], _ => rfl
  | operand :: rest, covered => by
    simp only [newList, foldAll, evaluate_restrict operand covered.1,
      foldAll_restrict _ rest covered.2]

theorem foldAny_restrict (truth : Truth) : ∀ operands, needs.CoversAll operands →
    foldAny principal (needs.restrict facts) truth (newList operands) =
      foldAny principal facts truth (newList operands)
  | [], _ => rfl
  | operand :: rest, covered => by
    simp only [newList, foldAny, evaluate_restrict operand covered.1,
      foldAny_restrict _ rest covered.2]

end

end CompiledCondition

end GreenGateway.Rbac
