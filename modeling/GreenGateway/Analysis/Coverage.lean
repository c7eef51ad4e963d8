import Mathlib.Data.Fintype.EquivFin
import GreenGateway.Kernel.Decide
import GreenGateway.Rbac.PathLanguage

/-! Sound inclusion between policy element predicates: a positive answer proves
that every request the covered predicate accepts satisfies the covering one. -/

namespace GreenGateway.Analysis

open Foundation Rbac Kernel List

/-- One segment of a pattern, for reasoning about the pattern. -/
inductive PatternSegment where
  | literal (text : String)
  | one
  | any
  | never
  deriving DecidableEq, Repr

namespace PatternSegment

/-- A segment as the matcher compiles it. -/
def of : PathSegment → PatternSegment
  | .literal text => .literal text
  | .singleWildcard | .capture => .one
  | .deepWildcard => .any
  | .never => .never

def isDeep (segment : PatternSegment) : Bool := segment == .any

def accepts : PatternSegment → String → Bool
  | .literal text, item => text == item
  | .one, item => !item.isEmpty
  | .any, _ | .never, _ => false

/-- Whether a segment that is not deep accepts everything the faced one does. -/
def faces : PatternSegment → PatternSegment → Bool
  | .literal left, .literal right => left == right
  | .one, .one => true
  | .one, .literal text => !text.isEmpty
  | _, _ => false

theorem isDeep_of (segment : PathSegment) : (of segment).isDeep = segment.isDeep := by
  cases segment <;> rfl

theorem accepts_of (segment : PathSegment) (item : String) :
    (of segment).accepts item = segment.matches item := by
  cases segment <;> rfl

theorem accepts_of_faces (segment faced : PatternSegment) (item : String)
    (face : faces segment faced = true) (accepted : accepts faced item = true) :
    accepts segment item = true := by
  cases segment <;> cases faced <;> simp_all [faces, accepts]

end PatternSegment

open PatternSegment

/-- The segments of a pattern, read once, for repeated inclusion checks. -/
abbrev Segments := Option (List PatternSegment)

/-- The segments of `pattern` as the matcher compiles them. -/
def segments (pattern : String) : Segments :=
  (absolutePathSegments pattern).map fun segments =>
    segments.map fun segment => PatternSegment.of (PathSegment.new segment)

/-- The pattern that matches every absolute path. -/
def everyPath : String := "/**"

/-- Whether every path `covered` matches is a path `covering` matches. -/
def patternCovers (covering covered : Segments) : Bool :=
  match covering, covered with
  | some covering, some covered =>
    !(covering.contains .never || covered.contains .never) &&
      Glob.covers isDeep faces covering covered
  | _, _ => false

def matchesEveryPath (pattern : Segments) : Bool := patternCovers pattern (segments everyPath)

/-- A path that matches everything the prefix selects, when the prefix reads
literally as a pattern. -/
def prefixPattern (pathPrefix : String) : Option String :=
  let trimmed := (Text.stripBack? pathPrefix "/").getD pathPrefix
  if !Text.startsWith pathPrefix "/" then none
  else
    let literalOnly := ((Text.split '/' trimmed).drop 1).all fun segment =>
      segment != "*" && segment != "**" && !hasCaptureDelimiter segment
    if literalOnly then some (trimmed ++ everyPath) else none

/-- Whether every path the `covered` prefix selects the `covering` one selects. -/
def prefixCovers (covering covered : String) : Bool :=
  Text.startsWith covered "/" && pathPrefixMatches covered covering

def matchesEveryMethod (methods : List String) : Bool :=
  match MethodMatcher.new methods with
  | .any => true
  | .exact _ => false

/-- Whether every method `covered` matches is one `covering` matches. -/
def methodsCover (covering covered : List String) : Bool :=
  match MethodMatcher.new covering, MethodMatcher.new covered with
  | .any, _ => true
  | .exact _, .any => false
  | .exact covering, .exact covered =>
    covered.all fun method => covering.any fun candidate => Text.eqIgnoreAsciiCase candidate method

def hostsCover (covering covered : List String) : Bool :=
  match covering.isEmpty, covered.isEmpty with
  | true, true => true
  | false, false =>
    covered.all fun host => covering.any fun candidate => Text.eqIgnoreAsciiCase candidate host
  | _, _ => false

/-- Whether every caller the `covered` matcher accepts `covering` accepts. -/
def principalCovers (covering covered : PrincipalMatcher) : Bool :=
  if covering.isUnconstrained then true
  else if covered.isUnconstrained then false
  else
    let field (covering covered : List String) :=
      covering.isEmpty || (!covered.isEmpty && covered.all covering.contains)
    field covering.roles covered.roles && field covering.issuers covered.issuers &&
      field covering.authMethods covered.authMethods &&
      field covering.principalIds covered.principalIds

/-- Whether a rule bound to `covering` matches in every dispatch context a rule
bound to `covered` does. -/
def dispatchCovers (covering covered : Option RuleDispatchMatcher) : Bool :=
  match covering, covered with
  | none, _ => true
  | some covering, some covered => covering == covered
  | some _, none => false

section Paths

variable {pattern path covering covered pathPrefix : String}

theorem pathPatternMatches_iff :
    pathPatternMatches pattern path = true ↔
      ∃ read items, segments pattern = some read ∧ absolutePathSegments path = some items ∧
        Glob.Matches isDeep accepts read items := by
  have renamed (parts : List String) (items : List String) :
      Glob.Matches isDeep accepts
          (parts.map fun segment => PatternSegment.of (PathSegment.new segment)) items ↔
        pathSegmentsMatch (parts.map PathSegment.new) items = true := by
    rw [pathSegmentsMatch, Glob.tableMatch_iff,
      ← Glob.matches_rename isDeep_of accepts_of]
    simp [Function.comp_def]
  simp only [pathPatternMatches, PathPattern.matches, PathPattern.new, segments]
  cases absolutePathSegments pattern with
  | none => simp
  | some parts =>
    cases absolutePathSegments path with
    | none => simp
    | some items => simp [renamed]

theorem patternCovers_sound (covers : patternCovers (segments covering) (segments covered) = true)
    (matched : pathPatternMatches covered path = true) :
    pathPatternMatches covering path = true := by
  obtain ⟨coveredRead, items, readCovered, readPath, accepted⟩ := pathPatternMatches_iff.mp matched
  rw [readCovered] at covers
  cases readCovering : segments covering with
  | none => simp [readCovering, patternCovers] at covers
  | some coveringRead =>
    simp only [readCovering, patternCovers, Bool.and_eq_true] at covers
    exact pathPatternMatches_iff.mpr ⟨coveringRead, items, readCovering, readPath,
      Glob.covers_sound accepts_of_faces covers.2 accepted⟩

theorem absolutePathSegments_of_startsWith (absolute : Text.startsWith path "/" = true) :
    ∃ items, absolutePathSegments path = some items := by
  obtain ⟨rest, rfl⟩ := Text.startsWith_iff.mp absolute
  have stripped := Text.stripFront?_eq_some.mpr (rfl : "/" ++ rest = "/" ++ rest)
  simp [absolutePathSegments, stripped]

theorem everyPath_matches (absolute : Text.startsWith path "/" = true) :
    pathPatternMatches everyPath path = true := by
  obtain ⟨items, read⟩ := absolutePathSegments_of_startsWith absolute
  have whole : segments everyPath = some [.any] := by decide
  exact pathPatternMatches_iff.mpr ⟨_, items, whole, read, Glob.matches_deep_single rfl items⟩

theorem matchesEveryPath_sound (every : matchesEveryPath (segments pattern) = true)
    (absolute : Text.startsWith path "/" = true) : pathPatternMatches pattern path = true :=
  patternCovers_sound every (everyPath_matches absolute)

/-- A selected path is absolute. -/
theorem startsWith_of_pathPrefixMatches
    (selected : pathPrefixMatches path pathPrefix = true) : Text.startsWith path "/" = true := by
  obtain ⟨absolute, below⟩ := pathPrefixMatches_iff.mp selected
  obtain ⟨tail, rfl⟩ := Text.startsWith_iff.mp absolute
  rw [Text.startsWith_iff]
  rcases below with rfl | ⟨-, rest, rfl⟩ | ⟨-, rest, rfl⟩
  · exact ⟨tail, rfl⟩
  · exact ⟨tail ++ rest, String.append_assoc ..⟩
  · exact ⟨tail ++ ("/" ++ rest), String.append_assoc ..⟩

/-- A segment without wildcard or capture characters stands for itself. -/
theorem new_literal {segment : String}
    (literal : (segment != "*" && segment != "**" && !hasCaptureDelimiter segment) = true) :
    PathSegment.new segment = .literal segment := by
  simp only [Bool.and_eq_true, bne_iff_ne, Bool.not_eq_true'] at literal
  obtain ⟨⟨notOne, notDeep⟩, noDelimiter⟩ := literal
  have notCapture : isCaptureSegment segment = false := by
    by_contra capture
    rw [hasCaptureDelimiter_of_capture (Bool.not_eq_false _ ▸ capture)] at noDelimiter
    cases noDelimiter
  simp [PathSegment.new, notOne, notDeep, notCapture, noDelimiter]

theorem literals_match {parts : List String}
    (literal : parts.all (fun segment =>
      segment != "*" && segment != "**" && !hasCaptureDelimiter segment) = true) :
    Glob.Matches isDeep accepts
      (parts.map fun segment => PatternSegment.of (PathSegment.new segment)) parts := by
  have read (part : String) (member : part ∈ parts) :=
    new_literal (List.all_eq_true.mp literal part member)
  have matched : Glob.Matches isDeep accepts
      (parts.map fun part => PatternSegment.of (PathSegment.new part)) (parts.map id) :=
    Glob.matches_map (fun part member => by rw [read part member]; rfl)
      fun part member => by simp [read part member, PatternSegment.of, accepts]
  simpa using matched

theorem absolutePathSegments_append {tail : String} (nonempty : tail ≠ "") :
    absolutePathSegments ("/" ++ tail) = some (Text.split '/' tail) := by
  have stripped := Text.stripFront?_eq_some.mpr (rfl : "/" ++ tail = "/" ++ tail)
  simp [absolutePathSegments, stripped, nonempty]

theorem append_ne_empty (front back : String) : front ++ ("/" ++ back) ≠ "" := by
  intro empty
  have := congrArg String.toList empty
  simp at this

theorem below_trimmed (selected : pathPrefixMatches path pathPrefix = true) :
    let trimmed := (Text.stripBack? pathPrefix "/").getD pathPrefix
    (path = trimmed ∧ Text.endsWith trimmed "/" = false) ∨
      ∃ rest, path = trimmed ++ ("/" ++ rest) := by
  obtain ⟨-, below⟩ := pathPrefixMatches_iff.mp selected
  cases ending : Text.endsWith pathPrefix "/" with
  | true =>
    obtain ⟨front, rfl⟩ := Text.endsWith_iff.mp ending
    have stripped : Text.stripBack? (front ++ "/") "/" = some front :=
      Text.stripBack?_eq_some.mpr rfl
    simp only [stripped, Option.getD_some]
    right
    rcases below with rfl | ⟨-, rest, rfl⟩ | ⟨other, -⟩
    · exact ⟨"", rfl⟩
    · exact ⟨rest, String.append_assoc ..⟩
    · simp [ending] at other
  | false =>
    have stripped : Text.stripBack? pathPrefix "/" = none := by
      rw [Option.eq_none_iff_forall_ne_some]
      intro front found
      have := Text.endsWith_iff.mpr ⟨front, Text.stripBack?_eq_some.mp found⟩
      simp [ending] at this
    simp only [stripped, Option.getD_none]
    rcases below with rfl | ⟨other, -⟩ | ⟨-, rest, rfl⟩
    · exact Or.inl ⟨rfl, ending⟩
    · simp [ending] at other
    · exact Or.inr ⟨rest, rfl⟩

theorem prefixPattern_sound (read : prefixPattern pathPrefix = some pattern)
    (selected : pathPrefixMatches path pathPrefix = true) :
    pathPatternMatches pattern path = true := by
  have absolute := (pathPrefixMatches_iff.mp selected).1
  have below := below_trimmed selected
  simp only [prefixPattern, absolute, Bool.not_true, Bool.false_eq_true, if_false,
    Option.ite_none_right_eq_some, Option.some.injEq] at read
  revert read below
  generalize kept : (Text.stripBack? pathPrefix "/").getD pathPrefix = trimmed
  rintro below ⟨literal, rfl⟩
  -- the prefix is absolute, so what is left of it is empty or absolute
  have front : trimmed = "" ∨ ∃ inner, trimmed = "/" ++ inner := by
    obtain ⟨tail, rfl⟩ := Text.startsWith_iff.mp absolute
    cases stripped : Text.stripBack? ("/" ++ tail) "/" with
    | none => exact Or.inr ⟨tail, by simp [stripped] at kept; exact kept.symm⟩
    | some front =>
      have split := Text.stripBack?_eq_some.mp stripped
      have same : trimmed = front := by simpa [stripped] using kept.symm
      cases chars : front.toList with
      | nil => exact Or.inl (same.trans (String.toList_inj.mp (by simpa using chars)))
      | cons char rest =>
        have lists := congrArg String.toList split
        simp only [String.toList_append, chars] at lists
        have first : char = '/' := (List.cons.inj lists).1.symm
        refine Or.inr ⟨String.ofList rest, same.trans (String.toList_inj.mp ?_)⟩
        simp [chars, first]
  rcases front with rfl | ⟨inner, rfl⟩
  · have whole : "" ++ everyPath = everyPath := by decide
    rw [whole]
    exact everyPath_matches (startsWith_of_pathPrefixMatches selected)
  · have slash : ("/" : String) = String.singleton '/' := by decide
    have parts : (Text.split '/' ("/" ++ inner)).drop 1 = Text.split '/' inner := by
      have := Text.split_append '/' "" inner
      rw [String.empty_append] at this
      rw [slash, this]
      rfl
    rw [parts] at literal
    have own := literals_match literal
    have patternRead : segments ("/" ++ inner ++ everyPath) =
        some ((Text.split '/' inner).map
          (fun segment => PatternSegment.of (PathSegment.new segment)) ++ [.any]) := by
      have shape : "/" ++ inner ++ everyPath = "/" ++ (inner ++ ("/" ++ "**")) := by
        rw [String.append_assoc]
        rfl
      rw [segments, shape, absolutePathSegments_append (append_ne_empty _ _)]
      rw [slash, Text.split_append]
      simp only [Option.map_some, map_append]
      rfl
    rcases below with ⟨rfl, ending⟩ | ⟨rest, rfl⟩
    · have nonempty : inner ≠ "" := by
        rintro rfl
        exact absurd ending (by decide)
      refine pathPatternMatches_iff.mpr ⟨_, _, patternRead, absolutePathSegments_append nonempty, ?_⟩
      exact Glob.matches_append.mpr ⟨_, [], by simp, own, Glob.matches_deep_single rfl []⟩
    · have pathRead : absolutePathSegments ("/" ++ inner ++ ("/" ++ rest)) =
          some (Text.split '/' inner ++ Text.split '/' rest) := by
        rw [String.append_assoc, absolutePathSegments_append (append_ne_empty _ _)]
        rw [slash, Text.split_append]
      refine pathPatternMatches_iff.mpr ⟨_, _, patternRead, pathRead, ?_⟩
      exact Glob.matches_append.mpr ⟨_, _, rfl, own, Glob.matches_deep_single rfl _⟩

/-- A pattern that covers another matches whatever the other matches, and the pattern of a prefix
whatever the prefix selects. -/
theorem inclusion_sound (covering covered pathPrefix pattern path : String) :
    (patternCovers (segments covering) (segments covered) = true →
      (PathPattern.new covered).matches path = true →
        (PathPattern.new covering).matches path = true) ∧
    (prefixPattern pathPrefix = some pattern → pathPrefixMatches path pathPrefix = true →
      (PathPattern.new pattern).matches path = true) :=
  ⟨patternCovers_sound, prefixPattern_sound⟩

theorem inclusion_sound_nested :
    (PathPattern.new "/a/**").matches "/a/7/b" = true ∧
      (PathPattern.new "/api/**").matches "/api/x" = true :=
  ⟨(inclusion_sound "/a/**" "/a/\x7bid\x7d/b" "/" "/**" "/a/7/b").1 (by decide)
      (by decide),
    (inclusion_sound "/**" "/**" "/api/" "/api/**" "/api/x").2 (by decide)
      (by decide)⟩

theorem prefixCovers_sound (covers : prefixCovers covering covered = true)
    (selected : pathPrefixMatches path covered = true) :
    pathPrefixMatches path covering = true := by
  simp only [prefixCovers, Bool.and_eq_true] at covers
  obtain ⟨absolute, outer⟩ := pathPrefixMatches_iff.mp covers.2
  obtain ⟨-, inner⟩ := pathPrefixMatches_iff.mp selected
  refine pathPrefixMatches_iff.mpr ⟨absolute, ?_⟩
  -- the path extends the covered prefix, which extends the covering one
  have extends_ : ∃ rest, path = covered ++ rest := by
    rcases inner with rfl | ⟨-, rest, rfl⟩ | ⟨-, rest, rfl⟩
    · exact ⟨"", by simp⟩
    · exact ⟨rest, rfl⟩
    · exact ⟨"/" ++ rest, rfl⟩
  rcases outer with rfl | ⟨ending, middle, rfl⟩ | ⟨ending, middle, rfl⟩
  · exact inner
  · obtain ⟨rest, rfl⟩ := extends_
    exact Or.inr (Or.inl ⟨ending, middle ++ rest, String.append_assoc ..⟩)
  · obtain ⟨rest, rfl⟩ := extends_
    refine Or.inr (Or.inr ⟨ending, middle ++ rest, ?_⟩)
    simp only [String.append_assoc]

end Paths

theorem matchesEveryMethod_sound {methods : List String}
    (every : matchesEveryMethod methods = true) (method : String) :
    methodMatches methods method = true := by
  unfold matchesEveryMethod at every
  unfold methodMatches
  cases read : MethodMatcher.new methods with
  | any => rfl
  | exact named => simp [read] at every

variable {covering covered : List String}

theorem methodsCover_sound {method : String} (covers : methodsCover covering covered = true)
    (matched : methodMatches covered method = true) : methodMatches covering method = true := by
  unfold methodsCover at covers
  unfold methodMatches at matched ⊢
  cases outer : MethodMatcher.new covering with
  | any => rfl
  | exact coveringNames =>
    cases inner : MethodMatcher.new covered with
    | any => simp [outer, inner] at covers
    | exact coveredNames =>
      simp only [outer, inner, all_eq_true, any_eq_true] at covers
      simp only [inner, MethodMatcher.matches, any_eq_true] at matched
      obtain ⟨named, member, same⟩ := matched
      obtain ⟨candidate, listed, alike⟩ := covers named member
      exact List.any_eq_true.mpr ⟨candidate, listed, Text.eqIgnoreAsciiCase_trans alike same⟩

theorem hostsCover_sound {host : Option String}
    {bindingRequired : Bool} (covers : hostsCover covering covered = true)
    (matched : routeHostMatches covered host bindingRequired = true) :
    routeHostMatches covering host bindingRequired = true := by
  unfold hostsCover at covers
  unfold routeHostMatches at matched ⊢
  cases outer : covering.isEmpty <;> cases inner : covered.isEmpty <;>
    simp only [outer, inner, Bool.false_eq_true, if_false, if_true] at covers matched ⊢
  · simp only [all_eq_true, any_eq_true] at covers
    simp only [Option.any_eq_true, any_eq_true] at matched ⊢
    obtain ⟨requested, found, named, member, same⟩ := matched
    obtain ⟨candidate, listed, alike⟩ := covers named member
    exact ⟨requested, found, candidate, listed, Text.eqIgnoreAsciiCase_trans alike same⟩
  · exact matched

theorem constraintMatches_covers {holds : String → Bool}
    (covers : (covering.isEmpty || (!covered.isEmpty && covered.all covering.contains)) = true)
    (matched : constraintMatches covered holds = true) :
    constraintMatches covering holds = true := by
  simp only [constraintMatches, Bool.or_eq_true, Bool.and_eq_true, Bool.not_eq_true'] at *
  rcases covers with free | ⟨constrained, listed⟩
  · exact Or.inl free
  · right
    rcases matched with free | found
    · simp [constrained] at free
    · obtain ⟨value, member, yes⟩ := List.any_eq_true.mp found
      have named := List.all_eq_true.mp listed value member
      exact List.any_eq_true.mpr ⟨value, by simpa using named, yes⟩

theorem principalCovers_sound {covering covered : PrincipalMatcher} {principal : Option Principal}
    (covers : principalCovers covering covered = true)
    (matched : covered.matches principal = true) : covering.matches principal = true := by
  unfold principalCovers at covers
  unfold PrincipalMatcher.matches at matched ⊢
  cases outer : covering.isUnconstrained with
  | true => simp
  | false =>
    cases inner : covered.isUnconstrained with
    | true => simp [outer, inner] at covers
    | false =>
      simp only [outer, inner, Bool.false_eq_true, if_false, Bool.and_eq_true] at covers matched ⊢
      obtain ⟨⟨⟨roles, issuers⟩, methods⟩, ids⟩ := covers
      cases principal with
      | none => simp at matched
      | some identity =>
        simp only [principalIdentityMatches, Bool.and_eq_true] at matched ⊢
        exact ⟨⟨constraintMatches_covers roles matched.1.1,
          constraintMatches_covers issuers matched.1.2.1,
          constraintMatches_covers methods matched.1.2.2⟩,
          constraintMatches_covers ids matched.2⟩

theorem dispatchCovers_sound [Externals] {covering covered : Option RuleDispatchMatcher}
    {context : RuleDispatchContext} (covers : dispatchCovers covering covered = true)
    (matched : (covered.map CompiledDispatchMatcher.new).all
      (fun dispatch => dispatch.matches context) = true) :
    (covering.map CompiledDispatchMatcher.new).all
      (fun dispatch => dispatch.matches context) = true := by
  cases covering with
  | none => rfl
  | some outer =>
    cases covered with
    | none => simp [dispatchCovers] at covers
    | some inner =>
      obtain rfl : outer = inner := by simpa [dispatchCovers] using covers
      exact matched

section Exactness

variable {covering covered : List String}

/-- Whether one field of a principal matcher is at least as permissive as another's. -/
def fieldCovers (covering covered : List String) : Bool :=
  covering.isEmpty || (!covered.isEmpty && covered.all covering.contains)

section Callers

variable {covering covered : PrincipalMatcher}

/-- The covering matcher names every authentication method where the other names none, and
covers the rest of it. -/
structure Overlisted (covering covered : PrincipalMatcher) : Prop where
  constrained : covered.isUnconstrained = false
  roles : fieldCovers covering.roles covered.roles = true
  issuers : fieldCovers covering.issuers covered.issuers = true
  ids : fieldCovers covering.principalIds covered.principalIds = true
  listed : ∀ method, authMethodPolicyValue method ∈ covering.authMethods
  free : covered.authMethods = []

theorem matches_some_iff (constrained : covered.isUnconstrained = false) (caller : Principal) :
    covered.matches (some caller) = true ↔
      constraintMatches covered.roles (fun role => caller.roles.contains role) = true ∧
      constraintMatches covered.issuers (fun issuer => caller.issuer == some issuer) = true ∧
      constraintMatches covered.authMethods
        (fun method => method == authMethodPolicyValue caller.authMethod) = true ∧
      constraintMatches covered.principalIds (fun id => caller.userId == id) = true := by
  simp [PrincipalMatcher.matches, constrained, principalIdentityMatches, and_assoc]

theorem Overlisted.included (wide : Overlisted covering covered) :
    principalCovers covering covered = false ∧ ∀ caller, covered.matches caller = true →
      covering.matches caller = true := by
  have named := wide.listed .bearer
  have outer : covering.isUnconstrained = false := by
    simp [PrincipalMatcher.isUnconstrained, ne_nil_of_mem named]
  constructor
  · simp [principalCovers, outer, wide.constrained, wide.free, ne_nil_of_mem named]
  · intro caller accepted
    cases caller with
    | none => simp [PrincipalMatcher.matches, wide.constrained] at accepted
    | some caller =>
      rw [matches_some_iff wide.constrained] at accepted
      rw [matches_some_iff outer]
      refine ⟨constraintMatches_covers wide.roles accepted.1,
        constraintMatches_covers wide.issuers accepted.2.1, ?_,
        constraintMatches_covers wide.ids accepted.2.2.2⟩
      rw [constraintMatches, Bool.or_eq_true, any_eq_true]
      exact .inr ⟨_, wide.listed caller.authMethod, beq_self_eq_true _⟩

end Callers

end Exactness

end GreenGateway.Analysis
