import GreenGateway.Rbac.Matcher

/-! What the segments of a path pattern stand for, without the matcher's table, and that the
matcher accepts exactly that. -/

namespace GreenGateway.Rbac

open Foundation

/-- The path segments that a pattern's segments stand for. A segment with a brace that is no
capture stands for nothing. -/
inductive Stands : List String → List String → Prop where
  | nil : Stands [] []
  | literal {text : String} {rest items : List String} (single : text ≠ "*") (plain : text ≠ "**")
      (unbraced : hasCaptureDelimiter text = false) (below : Stands rest items) :
      Stands (text :: rest) (text :: items)
  | one {segment item : String} {rest items : List String}
      (wild : segment = "*" ∨ isCaptureSegment segment = true) (nonempty : item ≠ "")
      (below : Stands rest items) : Stands (segment :: rest) (item :: items)
  | skip {rest items : List String} (below : Stands rest items) : Stands ("**" :: rest) items
  | absorb {item : String} {rest items : List String} (below : Stands ("**" :: rest) items) :
      Stands ("**" :: rest) (item :: items)

variable {segment item : String} {segments items : List String}

theorem hasCaptureDelimiter_of_capture
    (capture : isCaptureSegment segment = true) : hasCaptureDelimiter segment = true := by
  rw [isCaptureSegment] at capture
  split at capture
  · rename_i name stripped
    obtain ⟨rest, front, -⟩ := Option.bind_eq_some_iff.mp stripped
    rw [Text.stripFront?_eq_some.mp front, hasCaptureDelimiter, String.toList_append,
      List.any_append]
    rfl
  · cases capture

theorem isDeep_new (plain : segment ≠ "**") : (PathSegment.new segment).isDeep = false := by
  unfold PathSegment.new
  split_ifs <;> rfl

theorem matches_new (plain : segment ≠ "**") : (PathSegment.new segment).matches item = true ↔
    (segment ≠ "*" ∧ hasCaptureDelimiter segment = false) ∧ segment = item ∨
      (segment = "*" ∨ isCaptureSegment segment = true) ∧ item ≠ "" := by
  unfold PathSegment.new
  split_ifs with single capture braced
  · simp [PathSegment.matches, single]
  · simp [PathSegment.matches, capture, hasCaptureDelimiter_of_capture capture]
  · simp [PathSegment.matches, single, capture, braced]
  · simp [PathSegment.matches, single, capture, braced]

/-- The matcher's table and the segments' meaning agree. -/
theorem matches_iff_stands :
    Glob.Matches PathSegment.isDeep PathSegment.matches (segments.map .new) items ↔
      Stands segments items := by
  constructor
  · intro matched
    induction segments generalizing items with
    | nil =>
      rw [Glob.matches_nil.mp matched]
      exact .nil
    | cons segment rest ih =>
      by_cases deep : segment = "**"
      · subst deep
        obtain ⟨front, tail, rfl, below⟩ := (Glob.matches_deep rfl).mp matched
        induction front with
        | nil => exact .skip (ih below)
        | cons item front more => exact .absorb (more ((Glob.matches_deep rfl).mpr ⟨_, _, rfl, below⟩))
      · obtain ⟨item, tail, rfl, own, below⟩ := (Glob.matches_one (isDeep_new deep)).mp matched
        rcases (matches_new deep).mp own with ⟨⟨single, unbraced⟩, rfl⟩ | ⟨wild, nonempty⟩
        · exact .literal single deep unbraced (ih below)
        · exact .one wild nonempty (ih below)
  · intro stands
    induction stands with
    | nil => exact .nil
    | literal single plain unbraced _ ih =>
      exact .one (isDeep_new plain) ((matches_new plain).mpr (.inl ⟨⟨single, unbraced⟩, rfl⟩)) ih
    | @one segment _ _ _ wild nonempty _ ih =>
      have plain : segment ≠ "**" := by
        rintro rfl
        revert wild
        decide
      exact .one (isDeep_new plain) ((matches_new plain).mpr (.inr ⟨wild, nonempty⟩)) ih
    | skip _ ih => exact .skip rfl ih
    | absorb _ ih => exact .absorb rfl ih

/-- A pattern matches a path exactly when both are absolute and the pattern's segments stand for
the path's. -/
theorem pathPattern_matches_iff (pattern path : String) :
    (PathPattern.new pattern).matches path = true ↔
      ∃ segments items, absolutePathSegments pattern = some segments ∧
        absolutePathSegments path = some items ∧ Stands segments items := by
  simp only [PathPattern.matches, PathPattern.new]
  cases absolutePathSegments pattern with
  | none => simp
  | some segments =>
    cases absolutePathSegments path with
    | none => simp
    | some items =>
      simp only [Option.map_some, pathSegmentsMatch, Glob.tableMatch_iff, matches_iff_stands,
        Option.some.injEq, ↓existsAndEq, true_and]

end GreenGateway.Rbac
