import Mathlib.Data.Prod.Lex
import Mathlib.Order.OrderDual
import GreenGateway.Discovery.Suggestions
import GreenGateway.Foundation.BestMatch
import GreenGateway.Foundation.Words

/-! The learner of path templates: groups of same-shaped paths whose varying positions become
parameters once they have shown enough distinct values. -/

namespace GreenGateway.Discovery

open Foundation List Option

section Model

def paramPlaceholder : String := "\x7bparam\x7d"

inductive LearnedReason where
  | cardinality
  | overflow
  deriving DecidableEq, Repr

structure PathTemplateConfig where
  distinctValueCap : Nat := 64
  learnedTemplateThreshold : Nat := 4
  /-- Zero leaves the learner unbounded. -/
  maxGroups : Nat := 0
  deriving DecidableEq, Repr

def PathTemplateConfig.learnedReason (config : PathTemplateConfig) (distinctCount : Nat) :
    Option LearnedReason :=
  if config.distinctValueCap < distinctCount then some .overflow
  else if 0 < config.learnedTemplateThreshold ∧ config.learnedTemplateThreshold ≤ distinctCount then
    some .cardinality
  else none

/-- A set of values, in the order its iterator gives them. -/
structure ValueSet where
  items : List String
  distinct : items.Nodup
  deriving DecidableEq

def ValueSet.empty : ValueSet := ⟨[], List.nodup_nil⟩

def ValueSet.len (values : ValueSet) : Nat := values.items.length

def ValueSet.insert (values : ValueSet) (value : String) : ValueSet :=
  if held : value ∈ values.items then values
  else ⟨value :: values.items, List.nodup_cons.mpr ⟨held, values.distinct⟩⟩

inductive SegmentPosition where
  | literal (value : String)
  | varying (values : ValueSet)
  | learned (reason : LearnedReason)
  | immediateId
  deriving DecidableEq

structure MatchScore where
  exactMatches : Nat := 0
  literalMatches : Nat := 0
  newVariations : Nat := 0
  deriving DecidableEq, Repr

def MatchScore.isBetterThan (own other : MatchScore) : Bool :=
  decide (other.exactMatches < own.exactMatches) ||
    (own.exactMatches == other.exactMatches && decide (other.literalMatches < own.literalMatches)) ||
    (own.exactMatches == other.exactMatches && own.literalMatches == other.literalMatches &&
      decide (own.newVariations < other.newVariations))

namespace SegmentPosition

def fromSegment (segment : String) : SegmentPosition :=
  if isWellKnownIdentifier segment then .immediateId else .literal segment

def scoreMatch (position : SegmentPosition) (segment : String) (score : MatchScore) :
    Option MatchScore :=
  match position with
  | .literal value =>
    if value = segment then
      some { score with
        exactMatches := score.exactMatches + 1, literalMatches := score.literalMatches + 1 }
    else if !isWellKnownIdentifier segment then
      some { score with newVariations := score.newVariations + 1 }
    else none
  | .varying _ => if !isWellKnownIdentifier segment then some score else none
  | .learned _ => some score
  | .immediateId =>
    if isWellKnownIdentifier segment then
      some { score with exactMatches := score.exactMatches + 1 }
    else none

def fromValues (values : ValueSet) (config : PathTemplateConfig) : SegmentPosition :=
  match config.learnedReason values.len with
  | some reason => .learned reason
  | none => .varying values

def observe (position : SegmentPosition) (segment : String) (config : PathTemplateConfig) :
    SegmentPosition :=
  match position with
  | .literal value =>
    if value = segment then position
    else fromValues ((ValueSet.empty.insert value).insert segment) config
  | .varying values =>
    if segment ∈ values.items then position
    else
      match config.learnedReason (values.insert segment).len with
      | some reason => .learned reason
      | none => .varying (values.insert segment)
  | .learned _ => position
  | .immediateId => position

def templateSegment (position : SegmentPosition) (segment : String) : String :=
  match position with
  | .learned _ => paramPlaceholder
  | _ => if isWellKnownIdentifier segment then idPlaceholder else segment

end SegmentPosition

structure ShapeGroup where
  positions : List SegmentPosition
  lastUsed : UInt64
  deriving DecidableEq

namespace ShapeGroup

def fromSegments (segments : List String) : ShapeGroup :=
  { positions := segments.map SegmentPosition.fromSegment, lastUsed := 0 }

def scoreAll (pairs : List (SegmentPosition × String)) (score : MatchScore) : Option MatchScore :=
  pairs.foldlM (fun score pair => pair.1.scoreMatch pair.2 score) score

def matchScore (group : ShapeGroup) (segments : List String) : Option MatchScore :=
  if segments.length ≠ group.positions.length then none
  else
    (scoreAll (group.positions.zip segments) {}).bind fun score =>
      if score.exactMatches = 0 ∨ score.literalMatches = 0 ∧ 0 < score.newVariations then none
      else some score

def observePositions (config : PathTemplateConfig) :
    List SegmentPosition → List String → List SegmentPosition
  | position :: positions, segment :: segments =>
    position.observe segment config :: observePositions config positions segments
  | positions, _ => positions

def observe (group : ShapeGroup) (segments : List String) (config : PathTemplateConfig) :
    ShapeGroup :=
  { group with positions := observePositions config group.positions segments }

def template (group : ShapeGroup) (segments : List String) : String :=
  joinTemplateSegments ((group.positions.zip segments).map fun pair =>
    pair.1.templateSegment pair.2)

end ShapeGroup

structure PathTemplateLearner where
  config : PathTemplateConfig
  groups : List ShapeGroup
  /-- Counts the observations that a group took. -/
  useSeq : UInt64
  deriving DecidableEq

namespace PathTemplateLearner

def withConfig (config : PathTemplateConfig) : PathTemplateLearner :=
  { config, groups := [], useSeq := 0 }

/-- The first of the groups that match best. -/
def findGroupIndex (learner : PathTemplateLearner) (segments : List String) : Option Nat :=
  (BestMatch.best (fun index => learner.groups[index]?.bind fun group => group.matchScore segments)
    MatchScore.isBetterThan (List.range learner.groups.length)).map Prod.fst

/-- Gives a path to the group it belongs to. -/
def record (learner : PathTemplateLearner) (index : Nat) (segments : List String) :
    PathTemplateLearner × String :=
  match learner.groups[index]? with
  | none => (learner, "")
  | some group =>
    let useSeq := saturatingAdd learner.useSeq 1
    let group := { group with lastUsed := useSeq }.observe segments learner.config
    ({ learner with groups := learner.groups.set index group, useSeq }, group.template segments)

def observe (learner : PathTemplateLearner) (path : String) : PathTemplateLearner × String :=
  let segments := splitPath path
  if segments.isEmpty then (learner, "/")
  else
    match learner.findGroupIndex segments with
    | some index => learner.record index segments
    | none =>
      if learner.config.maxGroups ≠ 0 ∧ learner.config.maxGroups ≤ learner.groups.length then
        (learner, templateStatelessSegments segments)
      else
        { learner with groups := learner.groups ++ [ShapeGroup.fromSegments segments] }.record
          learner.groups.length segments

def template (learner : PathTemplateLearner) (path : String) : String :=
  let segments := splitPath path
  if segments.isEmpty then "/"
  else
    match (learner.findGroupIndex segments).bind fun index => learner.groups[index]? with
    | none => templateStatelessSegments segments
    | some group => group.template segments

end PathTemplateLearner

end Model

section Positions

theorem ValueSet.mem_insert {values : ValueSet} {value other : String} :
    other ∈ (values.insert value).items ↔ other = value ∨ other ∈ values.items := by
  rw [insert]
  split
  · case _ held =>
    constructor
    · exact .inr
    · rintro (rfl | listed)
      · exact held
      · exact listed
  · exact mem_cons

namespace SegmentPosition

variable {config : PathTemplateConfig} {position : SegmentPosition} {segment : String}
  {values : ValueSet} {score next : MatchScore}

/-- What one more sight of a segment leaves: the values held, or nothing to hold. -/
theorem observe_fromValues (held : segment ∈ values.items) :
    (fromValues values config).observe segment config = fromValues values config := by
  rw [fromValues]
  split
  · rfl
  · rw [observe, if_pos held]

theorem observe_varying (new : segment ∉ values.items) :
    (varying values).observe segment config = fromValues (values.insert segment) config := by
  rw [observe, if_neg new, fromValues]

/-- A segment already observed changes nothing. -/
theorem observe_observe (position : SegmentPosition) (segment : String)
    (config : PathTemplateConfig) :
    (position.observe segment config).observe segment config = position.observe segment config := by
  cases position with
  | literal value =>
    by_cases same : value = segment
    · simp [observe, same]
    · rw [observe, if_neg same]
      exact observe_fromValues (ValueSet.mem_insert.mpr (.inl rfl))
  | varying values =>
    by_cases held : segment ∈ values.items
    · simp [observe, held]
    · rw [observe_varying held]
      exact observe_fromValues (ValueSet.mem_insert.mpr (.inl rfl))
  | learned reason => rfl
  | immediateId => rfl

theorem scoreMatch_observe (config : PathTemplateConfig) {other : MatchScore}
    (matched : position.scoreMatch segment score = some next)
    (exact_ : other.exactMatches = score.exactMatches)
    (literal_ : other.literalMatches = score.literalMatches) :
    ∃ after, (position.observe segment config).scoreMatch segment other = some after ∧
      after.exactMatches = next.exactMatches ∧ after.literalMatches = next.literalMatches ∧
      after.newVariations = other.newVariations := by
  have ofValues : ∀ values, (!isWellKnownIdentifier segment) = true →
      (fromValues values config).scoreMatch segment other = some other := by
    intro values plain
    rw [fromValues]
    split
    · rfl
    · rw [scoreMatch, if_pos plain]
  cases position with
  | literal value =>
    by_cases same : value = segment
    · rw [scoreMatch, if_pos same, Option.some.injEq] at matched
      subst matched
      refine ⟨⟨other.exactMatches + 1, other.literalMatches + 1, other.newVariations⟩, ?_, ?_, ?_,
        rfl⟩
      · rw [observe, if_pos same, scoreMatch, if_pos same]
      · simp [exact_]
      · simp [literal_]
    · rw [scoreMatch, if_neg same, ite_none_right_eq_some] at matched
      obtain ⟨plain, ⟨⟩⟩ := matched
      exact ⟨other, by rw [observe, if_neg same, ofValues _ plain], exact_, literal_, rfl⟩
  | varying values =>
    rw [scoreMatch, ite_none_right_eq_some] at matched
    obtain ⟨plain, ⟨⟩⟩ := matched
    by_cases held : segment ∈ values.items
    · exact ⟨other, by rw [observe, if_pos held, scoreMatch, if_pos plain], exact_, literal_, rfl⟩
    · exact ⟨other, by rw [observe_varying held, ofValues _ plain], exact_, literal_, rfl⟩
  | learned reason =>
    cases matched
    exact ⟨other, rfl, exact_, literal_, rfl⟩
  | immediateId =>
    rw [scoreMatch, ite_none_right_eq_some] at matched
    obtain ⟨known, ⟨⟩⟩ := matched
    refine ⟨{ other with exactMatches := other.exactMatches + 1 }, ?_, ?_, literal_, rfl⟩
    · rw [observe, scoreMatch, if_pos known]
    · simp [exact_]

theorem scoreMatch_fromSegment (segment : String) (score : MatchScore) :
    ∃ after, (fromSegment segment).scoreMatch segment score = some after ∧
      after.exactMatches = score.exactMatches + 1 ∧ after.newVariations = score.newVariations := by
  rw [fromSegment]
  split
  · case _ known =>
    refine ⟨{ score with exactMatches := score.exactMatches + 1 }, ?_, rfl, rfl⟩
    rw [scoreMatch, if_pos known]
  · refine ⟨⟨score.exactMatches + 1, score.literalMatches + 1, score.newVariations⟩, ?_, rfl, rfl⟩
    rw [scoreMatch, if_pos rfl]

/-- Literals and tracked values are no identifiers, and few enough to be tracked. -/
def Sound (config : PathTemplateConfig) : SegmentPosition → Prop
  | .literal value => isWellKnownIdentifier value = false
  | .varying values => config.learnedReason values.len = none ∧
    ∀ value ∈ values.items, isWellKnownIdentifier value = false
  | .learned _ | .immediateId => True

theorem sound_fromValues (plain : ∀ value ∈ values.items, isWellKnownIdentifier value = false) :
    (fromValues values config).Sound config := by
  rw [fromValues]
  split
  · trivial
  · case _ few => exact ⟨few, plain⟩

theorem sound_fromSegment (segment : String) : (fromSegment segment).Sound config := by
  rw [fromSegment]
  split
  · trivial
  · case _ plain => exact Bool.eq_false_iff.mpr plain

theorem Sound.observe (sound : position.Sound config)
    (matched : position.scoreMatch segment score = some next) :
    (position.observe segment config).Sound config := by
  cases position with
  | literal value =>
    by_cases same : value = segment
    · rwa [SegmentPosition.observe, if_pos same]
    · rw [SegmentPosition.observe, if_neg same]
      apply sound_fromValues
      intro other listed
      rw [scoreMatch, if_neg same, ite_none_right_eq_some, Bool.not_eq_true'] at matched
      rw [ValueSet.mem_insert, ValueSet.mem_insert] at listed
      rcases listed with rfl | rfl | none_
      · exact matched.1
      · exact sound
      · cases none_
  | varying values =>
    by_cases held : segment ∈ values.items
    · rwa [SegmentPosition.observe, if_pos held]
    · rw [observe_varying held]
      apply sound_fromValues
      intro other listed
      rw [scoreMatch, ite_none_right_eq_some, Bool.not_eq_true'] at matched
      rcases ValueSet.mem_insert.mp listed with rfl | earlier
      · exact matched.1
      · exact sound.2 other earlier
  | learned reason => trivial
  | immediateId => trivial

end SegmentPosition

end Positions

section Groups

namespace ShapeGroup

variable {config : PathTemplateConfig} {positions : List SegmentPosition} {segments : List String}
  {score next : MatchScore} {group : ShapeGroup}

theorem scoreAll_cons (position : SegmentPosition) (segment : String)
    (pairs : List (SegmentPosition × String)) (score : MatchScore) :
    scoreAll ((position, segment) :: pairs) score =
      (position.scoreMatch segment score).bind (scoreAll pairs) := rfl

theorem observePositions_length (config : PathTemplateConfig) (positions : List SegmentPosition)
    (segments : List String) :
    (observePositions config positions segments).length = positions.length := by
  fun_induction observePositions config positions segments with
  | case1 position positions segment segments ih => simp [ih]
  | case2 => rfl

theorem observePositions_again (config : PathTemplateConfig) (positions : List SegmentPosition)
    (segments : List String) :
    observePositions config (observePositions config positions segments) segments =
      observePositions config positions segments := by
  induction positions generalizing segments with
  | nil => cases segments <;> rfl
  | cons position positions ih =>
    cases segments with
    | nil => rfl
    | cons segment segments =>
      rw [observePositions, observePositions, SegmentPosition.observe_observe, ih]

theorem scoreAll_observePositions (config : PathTemplateConfig) {other : MatchScore}
    (matched : scoreAll (positions.zip segments) score = some next)
    (exact_ : other.exactMatches = score.exactMatches)
    (literal_ : other.literalMatches = score.literalMatches) :
    ∃ after, scoreAll ((observePositions config positions segments).zip segments) other =
        some after ∧
      after.exactMatches = next.exactMatches ∧ after.literalMatches = next.literalMatches ∧
      after.newVariations = other.newVariations := by
  induction positions generalizing segments score other with
  | nil =>
    cases matched
    cases segments <;> exact ⟨other, rfl, exact_, literal_, rfl⟩
  | cons position positions ih =>
    cases segments with
    | nil =>
      cases matched
      exact ⟨other, rfl, exact_, literal_, rfl⟩
    | cons segment segments =>
      rw [zip_cons_cons, scoreAll_cons, bind_eq_some_iff] at matched
      obtain ⟨middle, first, rest⟩ := matched
      obtain ⟨after, firstAfter, sameExact, sameLiteral, sameNew⟩ :=
        SegmentPosition.scoreMatch_observe config first exact_ literal_
      obtain ⟨last, restAfter, lastExact, lastLiteral, lastNew⟩ := ih rest sameExact sameLiteral
      refine ⟨last, ?_, lastExact, lastLiteral, lastNew.trans sameNew⟩
      rw [observePositions, zip_cons_cons, scoreAll_cons, firstAfter]
      exact restAfter

theorem scoreAll_fromSegments (segments : List String) (score : MatchScore) :
    ∃ after, scoreAll ((segments.map SegmentPosition.fromSegment).zip segments) score =
        some after ∧
      after.exactMatches = score.exactMatches + segments.length ∧
      after.newVariations = score.newVariations := by
  induction segments generalizing score with
  | nil => exact ⟨score, rfl, rfl, rfl⟩
  | cons segment segments ih =>
    obtain ⟨middle, first, oneMore, sameNew⟩ := SegmentPosition.scoreMatch_fromSegment segment score
    obtain ⟨after, rest, more, stillNew⟩ := ih middle
    refine ⟨after, ?_, ?_, stillNew.trans sameNew⟩
    · rw [map_cons, zip_cons_cons, scoreAll_cons, first]
      exact rest
    · rw [more, oneMore, length_cons]
      omega

theorem matchScore_eq_some :
    group.matchScore segments = some score ↔ segments.length = group.positions.length ∧
      scoreAll (group.positions.zip segments) {} = some score ∧ score.exactMatches ≠ 0 ∧
      (score.literalMatches = 0 → score.newVariations = 0) := by
  simp only [matchScore, ite_not, ite_none_right_eq_some, bind_eq_some_iff, ite_none_left_eq_some,
    not_or, not_and, Nat.not_lt, Nat.le_zero, Option.some.injEq]
  refine and_congr_right fun _ => ?_
  constructor
  · rintro ⟨found, scored, counts, rfl⟩
    exact ⟨scored, counts⟩
  · rintro ⟨scored, counts⟩
    exact ⟨score, scored, counts, rfl⟩

/-- The group that took a path matches it as well as before, and without news. -/
theorem matchScore_observe (config : PathTemplateConfig)
    (matched : group.matchScore segments = some score) :
    ∃ after, (group.observe segments config).matchScore segments = some after ∧
      after.exactMatches = score.exactMatches ∧ after.literalMatches = score.literalMatches ∧
      after.newVariations = 0 := by
  obtain ⟨level, scored, some_, -⟩ := matchScore_eq_some.mp matched
  obtain ⟨after, observed, sameExact, sameLiteral, noNews⟩ :=
    scoreAll_observePositions config scored rfl rfl
  refine ⟨after, matchScore_eq_some.mpr ⟨?_, observed, ?_, fun _ => noNews⟩, sameExact,
    sameLiteral, noNews⟩
  · exact level.trans (observePositions_length config group.positions segments).symm
  · rwa [sameExact]

theorem matchScore_fromSegments (nonempty : segments ≠ []) :
    ∃ score, (fromSegments segments).matchScore segments = some score := by
  obtain ⟨score, scored, exact_, noNews⟩ := scoreAll_fromSegments segments {}
  refine ⟨score, matchScore_eq_some.mpr ⟨by simp [fromSegments], scored, ?_, fun _ => noNews⟩⟩
  have positive := length_pos_of_ne_nil nonempty
  rw [exact_]
  omega

theorem sound_observePositions (sound : ∀ position ∈ positions, position.Sound config)
    (matched : scoreAll (positions.zip segments) score = some next) :
    ∀ position ∈ observePositions config positions segments, position.Sound config := by
  induction positions generalizing segments score with
  | nil =>
    cases segments <;> exact sound
  | cons position positions ih =>
    cases segments with
    | nil => exact sound
    | cons segment segments =>
      rw [zip_cons_cons, scoreAll_cons, bind_eq_some_iff] at matched
      obtain ⟨middle, first, rest⟩ := matched
      intro other listed
      rcases List.mem_cons.mp listed with rfl | later
      · exact (sound position mem_cons_self).observe first
      · exact ih (fun other listed => sound other (mem_cons_of_mem _ listed)) rest other later

theorem observePositions_learned {index : Nat} {reason : LearnedReason}
    (learned : positions[index]? = some (.learned reason)) :
    (observePositions config positions segments)[index]? = some (.learned reason) := by
  induction positions generalizing segments index with
  | nil => cases learned
  | cons position positions ih =>
    cases segments with
    | nil => exact learned
    | cons segment segments =>
      rw [observePositions]
      cases index with
      | zero =>
        rw [List.getElem?_cons_zero, Option.some.injEq] at learned ⊢
        subst learned
        rfl
      | succ index =>
        rw [List.getElem?_cons_succ] at learned ⊢
        exact ih learned

end ShapeGroup

end Groups

section Learner

/-- More exact matches first, then more literal ones, then fewer novelties. -/
def MatchScore.rank (score : MatchScore) : Nat ×ₗ Nat ×ₗ Natᵒᵈ :=
  toLex (score.exactMatches, toLex (score.literalMatches, OrderDual.toDual score.newVariations))

theorem MatchScore.isBetterThan_iff (own other : MatchScore) :
    own.isBetterThan other = true ↔ other.rank < own.rank := by
  simp only [isBetterThan, rank, Prod.Lex.toLex_lt_toLex, OrderDual.toDual_lt_toDual,
    Bool.or_eq_true, Bool.and_eq_true, decide_eq_true_eq, beq_iff_eq]
  constructor
  · rintro ((more | ⟨same, more⟩) | ⟨⟨same, level⟩, fewer⟩)
    · exact .inl more
    · exact .inr ⟨same.symm, .inl more⟩
    · exact .inr ⟨same.symm, .inr ⟨level.symm, fewer⟩⟩
  · rintro (more | ⟨same, more | ⟨level, fewer⟩⟩)
    · exact .inl (.inl more)
    · exact .inl (.inr ⟨same.symm, more⟩)
    · exact .inr ⟨⟨same.symm, level.symm⟩, fewer⟩

namespace PathTemplateLearner

variable {learner : PathTemplateLearner} {segments : List String} {path : String}
  {index place : Nat} {group : ShapeGroup} {reason : LearnedReason} {config : PathTemplateConfig}

/-- How well the group at an index matches. -/
def scoreAt (learner : PathTemplateLearner) (segments : List String) (index : Nat) :
    Option MatchScore :=
  learner.groups[index]?.bind fun group => group.matchScore segments

theorem findGroupIndex_eq (learner : PathTemplateLearner) (segments : List String) :
    learner.findGroupIndex segments =
      (BestMatch.best (learner.scoreAt segments) MatchScore.isBetterThan
        (List.range learner.groups.length)).map Prod.fst := rfl

theorem findGroupIndex_eq_some :
    learner.findGroupIndex segments = some index ↔
      ∃ score front back, List.range learner.groups.length = front ++ index :: back ∧
        BestMatch.First (learner.scoreAt segments) MatchScore.rank front index score back := by
  rw [findGroupIndex_eq, map_eq_some_iff]
  constructor
  · rintro ⟨⟨found, score⟩, best, rfl⟩
    obtain ⟨front, back, split, first⟩ := BestMatch.first_of_best MatchScore.isBetterThan_iff best
    exact ⟨score, front, back, split, first⟩
  · rintro ⟨score, front, back, split, first⟩
    rw [split]
    exact ⟨(index, score), BestMatch.best_of_first MatchScore.isBetterThan_iff first, rfl⟩

/-- The group found matches. -/
theorem matched_of_findGroupIndex (found : learner.findGroupIndex segments = some index) :
    ∃ group score, learner.groups[index]? = some group ∧
      group.matchScore segments = some score := by
  obtain ⟨score, front, back, -, first⟩ := findGroupIndex_eq_some.mp found
  obtain ⟨group, held, matched⟩ := Option.bind_eq_some_iff.mp first.scored
  exact ⟨group, score, held, matched⟩

/-- A best group that matches no worse than before is still the first of the best. -/
theorem findGroupIndex_set {after : MatchScore} {useSeq : UInt64}
    (found : learner.findGroupIndex segments = some index)
    (matched : group.matchScore segments = some after)
    (noWorse : ∀ score, learner.scoreAt segments index = some score → score.rank ≤ after.rank) :
    { learner with groups := learner.groups.set index group, useSeq }.findGroupIndex segments =
      some index := by
  obtain ⟨score, front, back, split, first⟩ := findGroupIndex_eq_some.mp found
  have distinct : (front ++ index :: back).Nodup := split ▸ nodup_range
  have inside : index < learner.groups.length := by
    rw [← mem_range, split]
    simp
  have higher := noWorse score first.scored
  -- the scores of the other groups are what they were
  have same : ∀ other ≠ index,
      { learner with groups := learner.groups.set index group, useSeq }.scoreAt segments other =
        learner.scoreAt segments other := by
    intro other differs
    rw [scoreAt, scoreAt, List.getElem?_set_ne (Ne.symm differs)]
  refine findGroupIndex_eq_some.mpr ⟨after, front, back, by simpa using split, ?_, ?_, ?_⟩
  · rw [scoreAt, List.getElem?_set_self inside]
    exact matched
  · intro other listed rival scored
    have differs : other ≠ index := by
      rintro rfl
      exact (List.nodup_append.mp distinct).2.2 other listed other mem_cons_self rfl
    rw [same other differs] at scored
    exact lt_of_lt_of_le (first.before other listed rival scored) higher
  · intro other listed rival scored
    have differs : other ≠ index := by
      rintro rfl
      exact (List.nodup_cons.mp (List.nodup_append.mp distinct).2.1).1 listed
    rw [same other differs] at scored
    exact le_trans (first.after other listed rival scored) higher

/-- A fresh group is found where nothing was. -/
theorem findGroupIndex_push (none_ : learner.findGroupIndex segments = none)
    (nonempty : segments ≠ []) :
    { learner with groups := learner.groups ++ [ShapeGroup.fromSegments segments] }.findGroupIndex
      segments = some learner.groups.length := by
  rw [findGroupIndex_eq, map_eq_none_iff, BestMatch.best_eq_none] at none_
  obtain ⟨score, matched⟩ := ShapeGroup.matchScore_fromSegments nonempty
  refine findGroupIndex_eq_some.mpr ⟨score, List.range learner.groups.length, [], ?_, ?_, ?_, nofun⟩
  · rw [length_append, length_singleton, range_succ]
  · rw [scoreAt, List.getElem?_concat_length]
    exact matched
  · intro other listed rival scored
    have inside := List.mem_range.mp listed
    rw [scoreAt, List.getElem?_append_left inside, ← scoreAt, none_ other listed] at scored
    cases scored

/-- A path has found its group, and observing it again teaches the group nothing. -/
structure Settled (learner : PathTemplateLearner) (segments : List String) (index : Nat)
    (group : ShapeGroup) : Prop where
  found : learner.findGroupIndex segments = some index
  held : learner.groups[index]? = some group
  still : ShapeGroup.observePositions learner.config group.positions segments = group.positions

/-- The group at the index takes the path; when it was last used is of no account here. -/
theorem record_eq (held : learner.groups[index]? = some group) (segments : List String) :
    ∃ useSeq target, target.positions =
        ShapeGroup.observePositions learner.config group.positions segments ∧
      learner.record index segments =
        ({ learner with groups := learner.groups.set index target, useSeq },
          target.template segments) :=
  ⟨saturatingAdd learner.useSeq 1, _, rfl, by rw [record, held]⟩

theorem settled_of_record (found : learner.findGroupIndex segments = some index) :
    ∃ group, Settled (learner.record index segments).1 segments index group ∧
      (learner.record index segments).2 = group.template segments := by
  obtain ⟨group, score, held, matched⟩ := matched_of_findGroupIndex found
  obtain ⟨after, observed, sameExact, sameLiteral, noNews⟩ :=
    ShapeGroup.matchScore_observe learner.config matched
  have inside : index < learner.groups.length := (List.getElem?_eq_some_iff.mp held).1
  obtain ⟨useSeq, target, took, same⟩ := record_eq held segments
  have observedTarget : target.matchScore segments = some after := by
    rw [← observed, ShapeGroup.matchScore, ShapeGroup.matchScore, ShapeGroup.observe, took]
  rw [same]
  refine ⟨target, ⟨?_, List.getElem?_set_self inside, ?_⟩, rfl⟩
  · refine findGroupIndex_set found observedTarget ?_
    intro before scored
    rw [scoreAt, held, bind_some, matched, Option.some.injEq] at scored
    subst scored
    rw [← not_lt, ← MatchScore.isBetterThan_iff]
    simp [MatchScore.isBetterThan, sameExact, sameLiteral, noNews]
  · dsimp only
    rw [took]
    exact ShapeGroup.observePositions_again learner.config group.positions segments

/-- How an observation ends: at the root, at a full learner, or with the path settled. -/
theorem observe_cases (learner : PathTemplateLearner) (path : String) :
    (splitPath path = [] ∧ learner.observe path = (learner, "/")) ∨
    (splitPath path ≠ [] ∧ learner.findGroupIndex (splitPath path) = none ∧
      learner.observe path = (learner, templateStatelessSegments (splitPath path))) ∨
    (splitPath path ≠ [] ∧ ∃ start index, start.findGroupIndex (splitPath path) = some index ∧
      learner.observe path = start.record index (splitPath path) ∧
      (start = learner ∨
        start = { learner with
          groups := learner.groups ++ [ShapeGroup.fromSegments (splitPath path)] } ∧
        ¬ (learner.config.maxGroups ≠ 0 ∧ learner.config.maxGroups ≤ learner.groups.length))) := by
  by_cases root : splitPath path = []
  · exact .inl ⟨root, by simp [observe, root]⟩
  · have some_ : (splitPath path).isEmpty = false := by simpa using root
    right
    cases found : learner.findGroupIndex (splitPath path) with
    | some index =>
      refine .inr ⟨root, learner, index, found, ?_, .inl rfl⟩
      simp [observe, some_, found]
    | none =>
      by_cases full : learner.config.maxGroups ≠ 0 ∧
          learner.config.maxGroups ≤ learner.groups.length
      · refine .inl ⟨root, rfl, ?_⟩
        rw [observe, if_neg (by simpa using root), found]
        exact if_pos full
      · refine .inr ⟨root, _, learner.groups.length, findGroupIndex_push found root, ?_,
          .inr ⟨rfl, full⟩⟩
        rw [observe, if_neg (by simpa using root), found]
        exact if_neg full

theorem Settled.observe_eq (nonempty : splitPath path ≠ [])
    (settled : Settled learner (splitPath path) index group) :
    ∃ useSeq lastUsed, learner.observe path =
      ({ learner with groups := learner.groups.set index { group with lastUsed }, useSeq },
        group.template (splitPath path)) := by
  obtain ⟨useSeq, ⟨positions, lastUsed⟩, took, same⟩ := record_eq settled.held (splitPath path)
  obtain rfl : positions = group.positions := took.trans settled.still
  refine ⟨useSeq, lastUsed, ?_⟩
  rw [observe, if_neg (by simpa using nonempty), settled.found]
  exact same

/-- Two learners hold the same groups but for when each was last used. -/
def SameGroups (learner other : PathTemplateLearner) : Prop :=
  other.config = learner.config ∧
    other.groups.map ShapeGroup.positions = learner.groups.map ShapeGroup.positions

theorem Settled.sameGroups (settled : Settled learner segments index group)
    (useSeq lastUsed : UInt64) :
    SameGroups learner
      { learner with groups := learner.groups.set index { group with lastUsed }, useSeq } := by
  refine ⟨rfl, ?_⟩
  dsimp only
  rw [map_set]
  apply ext_getElem?
  intro other
  by_cases here : index = other
  · subst here
    have inside : index < (learner.groups.map ShapeGroup.positions).length := by
      rw [length_map]
      exact (List.getElem?_eq_some_iff.mp settled.held).1
    rw [List.getElem?_set_self inside, List.getElem?_map, settled.held]
    rfl
  · rw [List.getElem?_set_ne here]

/-- What was observed stays so: the template is the one returned, and observing the path again
returns it and changes nothing but when its group was last used. -/
theorem observe_stable (learner : PathTemplateLearner) (path : String) :
    (learner.observe path).1.template path = (learner.observe path).2 ∧
      ((learner.observe path).1.observe path).2 = (learner.observe path).2 ∧
      SameGroups (learner.observe path).1 ((learner.observe path).1.observe path).1 := by
  rcases learner.observe_cases path with ⟨root, same⟩ | ⟨some_, none_, same⟩ |
    ⟨some_, start, index, found, same, -⟩
  · rw [same]
    exact ⟨by simp [template, root], by rw [same], by rw [same]; exact ⟨rfl, rfl⟩⟩
  · rw [same]
    refine ⟨?_, by rw [same], by rw [same]; exact ⟨rfl, rfl⟩⟩
    rw [template, if_neg (by simpa using some_), none_, bind_none]
  · obtain ⟨group, settled, returned⟩ := settled_of_record found
    obtain ⟨useSeq, lastUsed, again⟩ := settled.observe_eq some_
    rw [same, returned, again, template, if_neg (by simpa using some_), settled.found, bind_some,
      settled.held]
    exact ⟨rfl, rfl, settled.sameGroups useSeq lastUsed⟩

/-- The position of a group that has become a parameter. -/
def Learned (learner : PathTemplateLearner) (index place : Nat) (reason : LearnedReason) : Prop :=
  ∃ group, learner.groups[index]? = some group ∧ group.positions[place]? = some (.learned reason)

def observeAll (learner : PathTemplateLearner) (paths : List String) : PathTemplateLearner :=
  paths.foldl (fun learner path => (learner.observe path).1) learner

namespace Learned

variable (learned : learner.Learned index place reason)

include learned

theorem record (other : Nat)
    (segments : List String) : (learner.record other segments).1.Learned index place reason := by
  obtain ⟨group, held, parameter⟩ := learned
  cases chosen : learner.groups[other]? with
  | none =>
    rw [PathTemplateLearner.record, chosen]
    exact ⟨group, held, parameter⟩
  | some target =>
    obtain ⟨useSeq, updated, took, same⟩ := record_eq chosen segments
    rw [same]
    by_cases here : other = index
    · subst here
      have inside : other < learner.groups.length := (List.getElem?_eq_some_iff.mp held).1
      obtain rfl : target = group := Option.some.inj (chosen.symm.trans held)
      refine ⟨updated, List.getElem?_set_self inside, ?_⟩
      rw [took]
      exact ShapeGroup.observePositions_learned parameter
    · refine ⟨group, ?_, parameter⟩
      rw [List.getElem?_set_ne here]
      exact held

theorem observe (path : String) : (learner.observe path).1.Learned index place reason := by
  rcases learner.observe_cases path with ⟨-, same⟩ | ⟨-, -, same⟩ |
    ⟨-, start, other, -, same, rfl | ⟨rfl, -⟩⟩
  · rwa [same]
  · rwa [same]
  · rw [same]
    exact learned.record other _
  · rw [same]
    obtain ⟨group, held, parameter⟩ := learned
    have inside : index < learner.groups.length := (List.getElem?_eq_some_iff.mp held).1
    refine Learned.record ⟨group, ?_, parameter⟩ other _
    rw [List.getElem?_append_left inside, held]

theorem observeAll (paths : List String) :
    (learner.observeAll paths).Learned index place reason := by
  induction paths generalizing learner with
  | nil => exact learned
  | cons path paths ih =>
    rw [PathTemplateLearner.observeAll, foldl_cons]
    exact ih (learned.observe path)

end Learned

/-- The learner keeps its configuration and stays within its bound. -/
structure Capped (config : PathTemplateConfig) (learner : PathTemplateLearner) : Prop where
  configured : learner.config = config
  capped : config.maxGroups ≠ 0 → learner.groups.length ≤ config.maxGroups

/-- What holds of every learner that has only observed. -/
structure Sound (config : PathTemplateConfig) (learner : PathTemplateLearner) : Prop
    extends Capped config learner where
  positions : ∀ group ∈ learner.groups, ∀ position ∈ group.positions, position.Sound config

theorem capped_withConfig (config : PathTemplateConfig) : Capped config (withConfig config) :=
  ⟨rfl, fun _ => Nat.zero_le _⟩

namespace Capped

variable (capped : Capped config learner)

include capped

theorem record (index : Nat) (segments : List String) :
    Capped config (learner.record index segments).1 := by
  cases held : learner.groups[index]? with
  | none => rwa [PathTemplateLearner.record, held]
  | some group =>
    obtain ⟨useSeq, target, -, same⟩ := record_eq held segments
    rw [same]
    exact ⟨capped.configured, by simpa using capped.capped⟩

theorem push (segments : List String)
    (room : ¬ (learner.config.maxGroups ≠ 0 ∧ learner.config.maxGroups ≤ learner.groups.length)) :
    Capped config
      { learner with groups := learner.groups ++ [ShapeGroup.fromSegments segments] } where
  configured := capped.configured
  capped bounded := by
    rw [capped.configured] at room
    rw [length_append, length_singleton]
    have := not_and.mp room bounded
    omega

theorem observe (path : String) : Capped config (learner.observe path).1 := by
  rcases learner.observe_cases path with ⟨-, same⟩ | ⟨-, -, same⟩ |
    ⟨-, start, index, found, same, rfl | ⟨rfl, room⟩⟩
  · rwa [same]
  · rwa [same]
  · rw [same]
    exact capped.record index _
  · rw [same]
    exact (capped.push _ room).record index _

end Capped

theorem sound_withConfig (config : PathTemplateConfig) : Sound config (withConfig config) :=
  ⟨capped_withConfig config, nofun⟩

namespace Sound

variable (sound : Sound config learner)

include sound

theorem record (found : learner.findGroupIndex segments = some index) :
    Sound config (learner.record index segments).1 := by
  refine ⟨sound.toCapped.record index segments, ?_⟩
  obtain ⟨group, score, held, matched⟩ := matched_of_findGroupIndex found
  obtain ⟨useSeq, target, took, same⟩ := record_eq held segments
  rw [same]
  intro other listed
  rcases mem_or_eq_of_mem_set listed with earlier | rfl
  · exact sound.positions other earlier
  · have scored := (ShapeGroup.matchScore_eq_some.mp matched).2.1
    rw [took, sound.configured]
    exact ShapeGroup.sound_observePositions
      (sound.positions group (mem_of_getElem? held)) scored

theorem push (segments : List String)
    (room : ¬ (learner.config.maxGroups ≠ 0 ∧ learner.config.maxGroups ≤ learner.groups.length)) :
    Sound config
      { learner with groups := learner.groups ++ [ShapeGroup.fromSegments segments] } := by
  refine ⟨sound.toCapped.push segments room, ?_⟩
  intro group listed
  rcases List.mem_append.mp listed with earlier | fresh
  · exact sound.positions group earlier
  · rw [List.mem_singleton.mp fresh]
    intro position shown
    obtain ⟨segment, -, rfl⟩ := List.mem_map.mp shown
    exact SegmentPosition.sound_fromSegment segment

theorem observe (path : String) : Sound config (learner.observe path).1 := by
  rcases learner.observe_cases path with ⟨-, same⟩ | ⟨-, -, same⟩ |
    ⟨-, start, index, found, same, rfl | ⟨rfl, room⟩⟩
  · rwa [same]
  · rwa [same]
  · rw [same]
    exact sound.record found
  · rw [same]
    exact (sound.push _ room).record found

end Sound

end PathTemplateLearner

end Learner

section Reachable

/-- The iterator of a hash set may give its values in any order. -/
inductive SegmentPosition.Rearranged : SegmentPosition → SegmentPosition → Prop where
  | same (position : SegmentPosition) : Rearranged position position
  | values {before after : ValueSet} (perm : after.items.Perm before.items) :
    Rearranged (.varying before) (.varying after)

structure ShapeGroup.Rearranged (before after : ShapeGroup) : Prop where
  lastUsed : after.lastUsed = before.lastUsed
  positions : List.Forall₂ SegmentPosition.Rearranged before.positions after.positions

namespace PathTemplateLearner

structure Rearranged (before after : PathTemplateLearner) : Prop where
  config : after.config = before.config
  useSeq : after.useSeq = before.useSeq
  groups : List.Forall₂ ShapeGroup.Rearranged before.groups after.groups

/-- The learners that observations lead to. -/
inductive Reachable (config : PathTemplateConfig) : PathTemplateLearner → Prop where
  | start : Reachable config (withConfig config)
  | observed {learner : PathTemplateLearner} (reachable : Reachable config learner)
    (path : String) : Reachable config (learner.observe path).1
  | rearranged {before after : PathTemplateLearner} (reachable : Reachable config before)
    (same : Rearranged before after) : Reachable config after

end PathTemplateLearner

theorem SegmentPosition.Sound.rearranged {config : PathTemplateConfig}
    {before after : SegmentPosition} (sound : before.Sound config)
    (same : before.Rearranged after) : after.Sound config := by
  cases same with
  | same => exact sound
  | values perm =>
    obtain ⟨few, plain⟩ := sound
    refine ⟨?_, fun value listed => plain value (perm.mem_iff.mp listed)⟩
    rw [ValueSet.len, perm.length_eq]
    exact few

/-- Every item of the second list has its counterpart in the first. -/
theorem exists_left_of_forall₂ {α : Type*} {relates : α → α → Prop} {left right : List α}
    (both : List.Forall₂ relates left right) {item : α} (listed : item ∈ right) :
    ∃ other ∈ left, relates other item := by
  induction both with
  | nil => cases listed
  | @cons first second lefts rights related _ ih =>
    rcases List.mem_cons.mp listed with rfl | later
    · exact ⟨first, mem_cons_self, related⟩
    · obtain ⟨other, within, related⟩ := ih later
      exact ⟨other, mem_cons_of_mem _ within, related⟩

namespace PathTemplateLearner

variable {config : PathTemplateConfig} {learner before after : PathTemplateLearner}

theorem Capped.rearranged (capped : Capped config before)
    (same : Rearranged before after) : Capped config after where
  configured := same.config.trans capped.configured
  capped bounded := by
    rw [← same.groups.length_eq]
    exact capped.capped bounded

theorem Sound.rearranged (sound : Sound config before)
    (same : Rearranged before after) : Sound config after where
  toCapped := sound.toCapped.rearranged same
  positions group listed position shown := by
    obtain ⟨source, held, groups⟩ := exists_left_of_forall₂ same.groups listed
    obtain ⟨origin, within, positions⟩ := exists_left_of_forall₂ groups.positions shown
    exact (sound.positions source held origin within).rearranged positions

theorem Reachable.sound (reachable : Reachable config learner) : Sound config learner := by
  induction reachable with
  | start => exact sound_withConfig config
  | observed _ path ih => exact ih.observe path
  | rearranged _ same ih => exact ih.rearranged same

/-- The number of values that stays below both limits. -/
theorem learnedReason_eq_none {count : Nat} (none_ : config.learnedReason count = none) :
    count ≤ config.distinctValueCap ∧ (0 < config.learnedTemplateThreshold →
      count ≤ min config.distinctValueCap (config.learnedTemplateThreshold - 1)) := by
  rw [PathTemplateConfig.learnedReason] at none_
  split at none_
  · cases none_
  · case _ under =>
    split at none_
    · cases none_
    · case _ few =>
      refine ⟨Nat.not_lt.mp under, fun positive => ?_⟩
      have below := not_and.mp few positive
      omega

/-- Learning is stable and bounded. -/
theorem learning_stable_bounded (reachable : Reachable config learner) :
    (∀ path, (learner.observe path).1.template path = (learner.observe path).2 ∧
      ((learner.observe path).1.observe path).2 = (learner.observe path).2 ∧
      SameGroups (learner.observe path).1 ((learner.observe path).1.observe path).1) ∧
    (∀ index place reason, learner.Learned index place reason →
      ∀ paths, (learner.observeAll paths).Learned index place reason) ∧
    (0 < config.maxGroups → learner.groups.length ≤ config.maxGroups) ∧
    (∀ group ∈ learner.groups, ∀ values, .varying values ∈ group.positions →
      values.len ≤ config.distinctValueCap ∧
      (0 < config.learnedTemplateThreshold →
        values.len ≤ min config.distinctValueCap (config.learnedTemplateThreshold - 1)) ∧
      ∀ value ∈ values.items, isWellKnownIdentifier value = false) := by
  have sound := reachable.sound
  refine ⟨learner.observe_stable, fun index place reason learned => learned.observeAll, ?_, ?_⟩
  · intro bounded
    exact sound.capped bounded.ne'
  · intro group listed values shown
    obtain ⟨few, plain⟩ := sound.positions group listed _ shown
    obtain ⟨capped, below⟩ := learnedReason_eq_none few
    exact ⟨capped, below, plain⟩

/-- A learner that has seen two users. -/
def sampleLearner : PathTemplateLearner :=
  (withConfig { maxGroups := 1 }).observeAll ["/users/ann", "/users/bob"]

theorem learning_stable_bounded_sample :
    Reachable { maxGroups := 1 } sampleLearner ∧
      (sampleLearner.observe "/users/cat").1.template "/users/cat" =
        (sampleLearner.observe "/users/cat").2 ∧
      sampleLearner.groups.length ≤ 1 := by
  have reachable : Reachable { maxGroups := 1 } sampleLearner := .observed (.observed .start _) _
  obtain ⟨stable, -, capped, -⟩ := learning_stable_bounded reachable
  exact ⟨reachable, (stable "/users/cat").1, capped (by decide)⟩

end PathTemplateLearner

end Reachable

end GreenGateway.Discovery
