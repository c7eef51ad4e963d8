import Mathlib.Data.List.Dedup
import Mathlib.Data.List.Induction
import GreenGateway.Config.CanonicalJson
import GreenGateway.Discovery.PathTemplate
import GreenGateway.Foundation.JsonSize

/-! Writing the learned groups within a byte budget, and reading them back. -/

namespace GreenGateway.Discovery

open Foundation Config List ShapeGroup

section Codec

def LearnedReason.json : LearnedReason → Json
  | .cardinality => .string "cardinality"
  | .overflow => .string "overflow"

def SegmentPosition.json : SegmentPosition → Json
  | .literal value => .object [("literal", .string value)]
  | .varying values =>
    .object [("varying", .object [("values", .array (values.items.map Json.string))])]
  | .learned reason => .object [("learned", .object [("reason", reason.json)])]
  | .immediateId => .string "immediate_id"

def ShapeGroup.json (group : ShapeGroup) : Json :=
  .object [("positions", .array (group.positions.map SegmentPosition.json)),
    ("last_used", .number (toString group.lastUsed.toNat))]

def groupsJson (groups : List ShapeGroup) : Json := .array (groups.map json)

/-- The value of a field that is given once. -/
def field (name : String) (members : List (String × Json)) : Option Json :=
  match members.filter fun member => member.1 == name with
  | [(_, value)] => some value
  | _ => none

def LearnedReason.ofJson : Json → Option LearnedReason
  | .string "cardinality" => some .cardinality
  | .string "overflow" => some .overflow
  | _ => none

def ValueSet.ofList (items : List String) : ValueSet := ⟨items.dedup, List.nodup_dedup items⟩

def SegmentPosition.ofJson : Json → Option SegmentPosition
  | .string "immediate_id" => some .immediateId
  | .object [("literal", .string value)] => some (.literal value)
  | .object [("varying", .object members)] =>
    (((field "values" members).bind Json.asArray).bind fun items => items.mapM Json.asStr).map
      fun items => .varying (ValueSet.ofList items)
  | .object [("learned", .object members)] =>
    ((field "reason" members).bind LearnedReason.ofJson).map .learned
  | _ => none

/-- A group exported without its last use counts as never used. -/
def lastUsedField (members : List (String × Json)) : Option UInt64 :=
  match members.filter fun member => member.1 == "last_used" with
  | [] => some 0
  | [(_, .number text)] => (asU64 text).map UInt64.ofNat
  | _ => none

def ShapeGroup.ofJson : Json → Option ShapeGroup
  | .object members => do
    let items ← (field "positions" members).bind Json.asArray
    let positions ← items.mapM SegmentPosition.ofJson
    let lastUsed ← lastUsedField members
    some { positions, lastUsed }
  | _ => none

end Codec

section Model

namespace PathTemplateLearner

def exportGroupsJson (learner : PathTemplateLearner) : String :=
  String.ofList (groupsJson learner.groups).text

/-- The array is the elements, one separator between each pair, and the brackets. -/
def arraySize (remaining elementBytes : Nat) : Nat := 2 + elementBytes + (remaining - 1)

def groupSize (group : ShapeGroup) : Nat := Text.len (String.ofList group.json.text)

/-- The entry of a list of numbers at an index. -/
def sizeAt (sizes : List Nat) (index : Nat) : Nat := sizes[index]?.getD 0

def lastUsedAt (groups : List ShapeGroup) (index : Nat) : Nat :=
  (groups[index]?.map fun group => group.lastUsed.toNat).getD 0

/-- Used earlier, or as early and learned earlier. -/
def UsedBefore (groups : List ShapeGroup) (first second : Nat) : Prop :=
  lastUsedAt groups first < lastUsedAt groups second ∨
    lastUsedAt groups first = lastUsedAt groups second ∧ first ≤ second

instance (groups : List ShapeGroup) : DecidableRel (UsedBefore groups) :=
  fun _ _ => inferInstanceAs (Decidable (_ ∨ _))

def byUse (groups : List ShapeGroup) : List Nat :=
  (List.range groups.length).insertionSort (UsedBefore groups)

/-- The groups to drop, in the order given, until the rest fits. -/
def dropUntilFits (maxBytes : Nat) (sizes : List Nat) : List Nat → Nat → Nat → List Nat
  | [], _, _ => []
  | index :: order, remaining, elementBytes =>
    if arraySize remaining elementBytes ≤ maxBytes then []
    else index :: dropUntilFits maxBytes sizes order (remaining - 1)
      (elementBytes - sizeAt sizes index)

def retain (dropped : List Nat) (groups : List ShapeGroup) : List ShapeGroup :=
  (groups.zipIdx.filter fun entry => !dropped.contains entry.2).map Prod.fst

def exportGroupsJsonWithin (learner : PathTemplateLearner) (maxBytes : Nat) :
    PathTemplateLearner × String :=
  let sizes := learner.groups.map groupSize
  let learner :=
    if maxBytes < arraySize learner.groups.length sizes.sum then
      let dropped := dropUntilFits maxBytes sizes (byUse learner.groups) learner.groups.length
        sizes.sum
      { learner with groups := retain dropped learner.groups }
    else learner
  (learner, learner.exportGroupsJson)

/-- Takes over exported groups; a text that is not one leaves the learner as it was. -/
def importGroupsJson [Codecs] (learner : PathTemplateLearner) (text : String) :
    Option PathTemplateLearner := do
  let value ← Codecs.parseJson text
  let items ← value.asArray
  let groups ← items.mapM ofJson
  let groups :=
    if learner.config.maxGroups ≠ 0 then groups.take learner.config.maxGroups else groups
  some { learner with
    groups, useSeq := UInt64.ofNat ((groups.map fun group => group.lastUsed.toNat).foldl max 0) }

end PathTemplateLearner

end Model

section Shedding

namespace PathTemplateLearner

variable (groups : List ShapeGroup)

variable (learner : PathTemplateLearner)

theorem retain_sublist (dropped : List Nat) (groups : List ShapeGroup) :
    (retain dropped groups).Sublist groups := by
  have entries : (groups.zipIdx.filter fun entry => !dropped.contains entry.2).Sublist
      groups.zipIdx := filter_sublist
  have names := entries.map Prod.fst
  rwa [zipIdx_map_fst] at names

end PathTemplateLearner

end Shedding

section Behaviour

namespace PathTemplateLearner

variable {learner other : PathTemplateLearner} {segments : List String}

theorem SameGroups.positionsAt (same : SameGroups learner other) (index : Nat) :
    other.groups[index]?.map ShapeGroup.positions =
      learner.groups[index]?.map ShapeGroup.positions := by
  rw [← List.getElem?_map, ← List.getElem?_map, same.2]

theorem matchScore_congr {group target : ShapeGroup} (same : target.positions = group.positions) :
    target.matchScore segments = group.matchScore segments := by
  rw [matchScore, matchScore, same]

namespace SameGroups

variable (same : SameGroups learner other)

include same

/-- Which group a path belongs to does not depend on when the groups were used. -/
theorem sameIndex (segments : List String) :
    other.findGroupIndex segments = learner.findGroupIndex segments := by
  have length_ : other.groups.length = learner.groups.length := by
    rw [← length_map ShapeGroup.positions, same.2, length_map]
  have scores : other.scoreAt segments = learner.scoreAt segments := by
    funext index
    rw [scoreAt, scoreAt]
    have positions := same.positionsAt index
    cases own : learner.groups[index]? with
    | none =>
      rw [own, Option.map_none, Option.map_eq_none_iff] at positions
      rw [positions]
    | some group =>
      rw [own, Option.map_some, Option.map_eq_some_iff] at positions
      obtain ⟨target, held, equal⟩ := positions
      rw [held, Option.bind_some, Option.bind_some, matchScore_congr equal]
  rw [findGroupIndex_eq, findGroupIndex_eq, length_, scores]

theorem record (index : Nat) (segments : List String) :
    (other.record index segments).2 = (learner.record index segments).2 ∧
      SameGroups (learner.record index segments).1 (other.record index segments).1 := by
  have positions := same.positionsAt index
  cases own : learner.groups[index]? with
  | none =>
    rw [own, Option.map_none, Option.map_eq_none_iff] at positions
    rw [PathTemplateLearner.record, PathTemplateLearner.record, own, positions]
    exact ⟨rfl, same⟩
  | some group =>
    rw [own, Option.map_some, Option.map_eq_some_iff] at positions
    obtain ⟨target, held, equal⟩ := positions
    obtain ⟨useSeq, after, took, recorded⟩ := record_eq own segments
    obtain ⟨otherSeq, otherAfter, otherTook, otherRecorded⟩ := record_eq held segments
    have level : otherAfter.positions = after.positions := by
      rw [took, otherTook, same.1, equal]
    rw [recorded, otherRecorded]
    refine ⟨?_, same.1, ?_⟩
    · dsimp only
      rw [ShapeGroup.template, ShapeGroup.template, level]
    · dsimp only
      rw [map_set, map_set, same.2, level]

theorem observe (path : String) : (other.observe path).2 = (learner.observe path).2 ∧
      SameGroups (learner.observe path).1 (other.observe path).1 := by
  have length_ : other.groups.length = learner.groups.length := by
    rw [← length_map ShapeGroup.positions, same.2, length_map]
  rw [PathTemplateLearner.observe, PathTemplateLearner.observe, same.sameIndex, same.1, length_]
  by_cases root : (splitPath path).isEmpty
  · rw [if_pos root, if_pos root]
    exact ⟨rfl, same⟩
  · rw [if_neg root, if_neg root]
    cases learner.findGroupIndex (splitPath path) with
    | some index => exact same.record index _
    | none =>
      dsimp only
      split
      · exact ⟨rfl, same⟩
      · have pushed : SameGroups
            { learner with groups := learner.groups ++ [fromSegments (splitPath path)] }
            { other with
              groups := other.groups ++ [fromSegments (splitPath path)] } := by
          refine ⟨same.1, ?_⟩
          dsimp only
          rw [map_append, map_append, same.2]
        have recorded := pushed.record learner.groups.length (splitPath path)
        rw [same.1] at recorded
        exact recorded

theorem template (path : String) : other.template path = learner.template path := by
  rw [PathTemplateLearner.template, PathTemplateLearner.template, same.sameIndex]
  cases learner.findGroupIndex (splitPath path) with
  | none => rfl
  | some index =>
    have positions := same.positionsAt index
    rw [Option.bind_some, Option.bind_some]
    cases own : learner.groups[index]? with
    | none =>
      rw [own, Option.map_none, Option.map_eq_none_iff] at positions
      rw [positions]
    | some group =>
      rw [own, Option.map_some, Option.map_eq_some_iff] at positions
      obtain ⟨target, held, equal⟩ := positions
      rw [held]
      dsimp only
      rw [ShapeGroup.template, ShapeGroup.template, equal]

end SameGroups

/-- What may be asked of a learner. -/
inductive Query where
  | observe (path : String)
  | template (path : String)

def answer (learner : PathTemplateLearner) : Query → PathTemplateLearner × String
  | .observe path => learner.observe path
  | .template path => (learner, learner.template path)

theorem answer_observe (learner : PathTemplateLearner) (path : String) :
    learner.answer (.observe path) = learner.observe path := rfl

theorem answer_template (learner : PathTemplateLearner) (path : String) :
    learner.answer (.template path) = (learner, learner.template path) := rfl

def answers (learner : PathTemplateLearner) : List Query → List String
  | [] => []
  | query :: queries => (learner.answer query).2 :: (learner.answer query).1.answers queries

theorem SameGroups.answer (same : SameGroups learner other) (query : Query) :
    (other.answer query).2 = (learner.answer query).2 ∧
      SameGroups (learner.answer query).1 (other.answer query).1 := by
  cases query with
  | observe path =>
    rw [answer_observe, answer_observe]
    exact same.observe path
  | template path =>
    rw [answer_template, answer_template]
    dsimp only
    exact ⟨same.template path, same⟩

/-- Learners with the same groups answer alike for ever. -/
theorem SameGroups.answers (same : SameGroups learner other) (queries : List Query) :
    other.answers queries = learner.answers queries := by
  induction queries generalizing learner other with
  | nil => rfl
  | cons query queries ih =>
    obtain ⟨now, later⟩ := same.answer query
    rw [PathTemplateLearner.answers, PathTemplateLearner.answers, now, ih later]

end PathTemplateLearner

end Behaviour

section Guarantee

namespace PathTemplateLearner

variable [Codecs] {config : PathTemplateConfig} {learner importer : PathTemplateLearner}

/-- The learners that a process can come to hold. -/
inductive Live (config : PathTemplateConfig) : PathTemplateLearner → Prop where
  | start : Live config (withConfig config)
  | observed {learner : PathTemplateLearner} (live : Live config learner) (path : String) :
    Live config (learner.observe path).1
  | rearranged {before after : PathTemplateLearner} (live : Live config before)
    (same : Rearranged before after) : Live config after
  | exported {learner : PathTemplateLearner} (live : Live config learner) (maxBytes : Nat) :
    Live config (learner.exportGroupsJsonWithin maxBytes).1
  | imported {learner next : PathTemplateLearner} (live : Live config learner) {text : String}
    (taken : learner.importGroupsJson text = some next) : Live config next

omit [Codecs] in
theorem Capped.exported (capped : Capped config learner) (maxBytes : Nat) :
    Capped config (learner.exportGroupsJsonWithin maxBytes).1 := by
  rw [exportGroupsJsonWithin]
  dsimp only
  split
  · refine ⟨capped.configured, fun bounded => ?_⟩
    exact (retain_sublist _ learner.groups).length_le.trans (capped.capped bounded)
  · exact capped

theorem Capped.imported {next : PathTemplateLearner} (capped : Capped config learner)
    {text : String} (taken : learner.importGroupsJson text = some next) : Capped config next := by
  simp only [importGroupsJson, Option.bind_eq_bind, Option.bind_eq_some_iff,
    Option.some.injEq] at taken
  obtain ⟨value, -, items, -, groups, -, rfl⟩ := taken
  refine ⟨capped.configured, fun bounded => ?_⟩
  dsimp only
  rw [capped.configured, if_pos bounded]
  exact length_take_le _ _

theorem Live.capped (live : Live config learner) : Capped config learner := by
  induction live with
  | start => exact capped_withConfig config
  | observed _ path ih => exact ih.observe path
  | rearranged _ same ih => exact ih.rearranged same
  | exported _ maxBytes ih => exact ih.exported maxBytes
  | imported _ taken ih => exact ih.imported taken

end PathTemplateLearner

end Guarantee

section Sample

/-- A reader of compact texts. -/
@[reducible] def compactCodecs : Codecs where
  sha256 _ := []
  parseJson text := Json.read text.toList
  doubleText _ := none

attribute [local instance] compactCodecs

namespace PathTemplateLearner

end PathTemplateLearner

end Sample

end GreenGateway.Discovery
