import GreenGateway.Rbac.PathLanguage

/-! Baseline suggestions: the template of an observed path, the rule proposed for it and
what that rule's pattern matches. -/

namespace GreenGateway.Discovery

open Foundation Rbac List

section Templates

def idPlaceholder : String := "\x7bid\x7d"

def splitPath (path : String) : List String :=
  let path := String.ofList (path.toList.takeWhile (· != '?'))
  let path := (Text.stripFront? path "/").getD path
  if path.isEmpty then [] else Text.split '/' path

def joinTemplateSegments (segments : List String) : String :=
  if segments.isEmpty then "/"
  else String.ofList ('/' :: ['/'].intercalate (segments.map String.toList))

def isDecimalNumber (segment : String) : Bool := !segment.isEmpty && segment.toList.all Char.isDigit

def isHyphenatedUuid (segment : String) : Bool :=
  Text.len segment == 36 && segment.toList.zipIdx.all fun (char, index) =>
    if [8, 13, 18, 23].contains index then char == '-' else Text.isHexDigit char

def isLongHexIdentifier (segment : String) : Bool :=
  [32, 40, 64].contains (Text.len segment) && segment.toList.all Text.isHexDigit

def isCrockfordBase32 (char : Char) : Bool :=
  char.isAlphanum && !(['I', 'L', 'O', 'U'].contains char.toUpper)

def isUlid (segment : String) : Bool :=
  Text.len segment == 26 && segment.toList.head?.any (fun char => '0' ≤ char && char ≤ '7') &&
    segment.toList.all isCrockfordBase32

def isWellKnownIdentifier (segment : String) : Bool :=
  isDecimalNumber segment || isHyphenatedUuid segment || isLongHexIdentifier segment ||
    isUlid segment

def templateSegment (segment : String) : String :=
  if isWellKnownIdentifier segment then idPlaceholder else segment

def templateStatelessSegments (segments : List String) : String :=
  joinTemplateSegments (segments.map templateSegment)

def templateStateless (path : String) : String := templateStatelessSegments (splitPath path)

end Templates

section Rules

def mcpToolObservationMethod : String := "MCP"

def mcpToolObservationPathPrefix : String := "/mcp/tools/"

def toolNameFromMcpEndpoint (method pathPattern : String) : Option String :=
  if !Text.eqIgnoreAsciiCase method mcpToolObservationMethod then none
  else match Text.stripFront? pathPattern mcpToolObservationPathPrefix with
    | none => none
    | some toolName => if toolName.isEmpty || toolName.toList.contains '/' then none else some toolName

def ruleSuggestionForEndpoint (method endpointTemplate : String) (principal : PrincipalMatcher)
    (action : RuleAction) (dispatch : RuleDispatchMatcher) : Rule :=
  match toolNameFromMcpEndpoint method endpointTemplate with
  | some toolName => { toolName := some toolName, principal, action }
  | none =>
    { methods := [method], path := endpointTemplate, dispatch := some dispatch, principal, action }

end Rules

section Segments

/-- Joined segments are read back by the matcher. -/
theorem absolutePathSegments_join {segments : List String}
    (free : ∀ segment ∈ segments, '/' ∉ segment.toList) (proper : segments ≠ [""]) :
    absolutePathSegments (joinTemplateSegments segments) = some segments := by
  cases segments with
  | nil => rfl
  | cons first rest =>
    have joined : joinTemplateSegments (first :: rest) =
        "/" ++ String.ofList (['/'].intercalate ((first :: rest).map String.toList)) := by
      apply String.toList_inj.mp
      rw [joinTemplateSegments, String.toList_append, String.toList_ofList]
      simp
    have stripped := Text.stripFront?_eq_some.mpr joined
    have parts : (['/'].intercalate ((first :: rest).map String.toList)).splitOn '/' =
        (first :: rest).map String.toList := by
      refine splitOn_intercalate '/' ?_ (by simp)
      rw [forall_mem_map]
      exact free
    have some_ : ¬ (String.ofList (['/'].intercalate ((first :: rest).map String.toList))).isEmpty =
        true := by
      intro empty
      rw [String.isEmpty_iff, ← String.toList_inj, String.toList_ofList, String.toList_empty]
        at empty
      rw [empty, splitOn_nil, map_cons, List.cons.injEq] at parts
      have alone : rest = [] := List.map_eq_nil_iff.mp parts.2.symm
      have blank : first = "" := String.toList_eq_nil_iff.mp parts.1.symm
      exact proper (by rw [alone, blank])
    rw [absolutePathSegments, stripped, Option.map_some, if_neg some_, Text.split,
      String.toList_ofList, parts]
    simp

/-- Where the segments of a path come from. -/
theorem splitPath_eq (path : String) : ∃ tail : String,
    splitPath path = if tail.isEmpty then [] else Text.split '/' tail := by
  unfold splitPath
  exact ⟨_, rfl⟩

variable {path : String}

theorem splitPath_free {segment : String} (listed : segment ∈ splitPath path) :
    '/' ∉ segment.toList := by
  obtain ⟨tail, segments⟩ := splitPath_eq path
  rw [segments] at listed
  split at listed
  · cases listed
  · obtain ⟨piece, member, rfl⟩ := List.mem_map.mp listed
    rw [String.toList_ofList]
    exact Text.not_mem_of_mem_splitOn member

theorem splitPath_proper (path : String) : splitPath path ≠ [""] := by
  obtain ⟨tail, segments⟩ := splitPath_eq path
  rw [segments]
  split
  · simp
  · rename_i some_
    intro single
    obtain ⟨piece, split, empty⟩ := List.map_eq_singleton_iff.mp single
    have blank : piece = [] := by
      rw [← String.toList_ofList (l := piece), empty, String.toList_empty]
    have whole : ['/'].intercalate (tail.toList.splitOn '/') = tail.toList :=
      intercalate_splitOn '/'
    rw [split, blank] at whole
    exact some_ (String.isEmpty_iff.mpr (String.toList_eq_nil_iff.mp whole.symm))

/-- The segments a template is made of are those the matcher reads in the path. -/
theorem absolutePathSegments_eq (absolute : Text.startsWith path "/" = true)
    (plain : '?' ∉ path.toList) : absolutePathSegments path = some (splitPath path) := by
  obtain ⟨tail, whole⟩ := Text.startsWith_iff.mp absolute
  have stripped := Text.stripFront?_eq_some.mpr whole
  have kept : path.toList.takeWhile (· != '?') = path.toList := by
    rw [takeWhile_eq_self_iff]
    intro char member
    rw [bne_iff_ne]
    rintro rfl
    exact plain member
  rw [absolutePathSegments, splitPath, kept, String.ofList_toList, stripped, Option.map_some,
    Option.getD_some]

end Segments

section Identifiers

theorem isHexDigit_alphanum {char : Char} (hex : Text.isHexDigit char = true) :
    char.isAlphanum = true := by
  simp only [Text.isHexDigit, Bool.or_eq_true, decide_eq_true_eq] at hex
  rw [Char.isAlphanum, Bool.or_eq_true]
  rcases hex with (digit | lower) | upper
  · exact .inr digit
  · have small : char.isLower = true := Bool.and_eq_true_iff.mpr
      ⟨decide_eq_true lower.1, decide_eq_true (lower.2.trans (by decide))⟩
    exact .inl (by rw [Char.isAlpha, small, Bool.or_true])
  · have capital : char.isUpper = true := decide_eq_true ⟨upper.1, upper.2.trans (by decide)⟩
    exact .inl (by rw [Char.isAlpha, capital, Bool.true_or])

variable {segment : String}

theorem ne_empty_of_len {size : Nat} (sized : Text.len segment = size)
    (some_ : size ≠ 0) : segment ≠ "" := by
  rintro rfl
  exact some_ (sized.symm.trans rfl)

/-- An identifier is not empty and holds only letters, digits and hyphens. -/
theorem isWellKnownIdentifier_chars (known : isWellKnownIdentifier segment = true) :
    segment ≠ "" ∧ ∀ char ∈ segment.toList, char.isAlphanum = true ∨ char = '-' := by
  rw [isWellKnownIdentifier, Bool.or_eq_true, Bool.or_eq_true, Bool.or_eq_true] at known
  rcases known with ((decimal | uuid) | hex) | ulid
  · rw [isDecimalNumber, Bool.and_eq_true, all_eq_true] at decimal
    refine ⟨fun empty => ?_, fun char member => .inl ?_⟩
    · rw [empty] at decimal
      exact absurd decimal.1 (by decide)
    · rw [Char.isAlphanum, decimal.2 char member, Bool.or_true]
  · rw [isHyphenatedUuid, Bool.and_eq_true, beq_iff_eq, all_eq_true] at uuid
    refine ⟨ne_empty_of_len uuid.1 (by decide), fun char member => ?_⟩
    obtain ⟨index, listed⟩ := mem_iff_getElem?.mp member
    have held := uuid.2 (char, index) (mk_mem_zipIdx_iff_getElem?.mpr listed)
    dsimp only at held
    split at held
    · exact .inr (beq_iff_eq.mp held)
    · exact .inl (isHexDigit_alphanum held)
  · rw [isLongHexIdentifier, Bool.and_eq_true, all_eq_true, contains_iff_mem] at hex
    have lengths : ∀ size ∈ [32, 40, 64], size ≠ 0 := by decide
    refine ⟨ne_empty_of_len rfl (lengths _ hex.1), fun char member => ?_⟩
    exact .inl (isHexDigit_alphanum (hex.2 char member))
  · rw [isUlid, Bool.and_eq_true, Bool.and_eq_true, beq_iff_eq, all_eq_true] at ulid
    refine ⟨ne_empty_of_len ulid.1.1 (by decide), fun char member => .inl ?_⟩
    have crockford := ulid.2 char member
    rw [isCrockfordBase32, Bool.and_eq_true] at crockford
    exact crockford.1

/-- An identifier is no pattern syntax. -/
theorem isWellKnownIdentifier_literal (known : isWellKnownIdentifier segment = true) :
    PathSegment.new segment = .literal segment := by
  obtain ⟨-, chars⟩ := isWellKnownIdentifier_chars known
  have absent : ∀ char ∈ ['*', '\x7b', '\x7d'], char ∉ segment.toList := by
    intro char listed member
    have marks : ∀ char ∈ ['*', '\x7b', '\x7d'], ¬ (char.isAlphanum = true ∨ char = '-') := by
      simp
    exact marks char listed (chars char member)
  have plain : ¬ hasCaptureDelimiter segment = true := by
    rw [hasCaptureDelimiter, any_eq_true]
    rintro ⟨char, member, brace⟩
    rw [Bool.or_eq_true, beq_iff_eq, beq_iff_eq] at brace
    rcases brace with rfl | rfl <;> exact absent _ (by decide) member
  have single : segment ≠ "*" := by
    rintro rfl
    exact absent '*' (by decide) (by decide)
  have deep : segment ≠ "**" := by
    rintro rfl
    exact absent '*' (by decide) (by decide)
  rw [PathSegment.new, if_neg single, if_neg deep,
    if_neg (plain ∘ hasCaptureDelimiter_of_capture), if_neg plain]

end Identifiers

section Reading

variable {segment : String}

theorem new_eq_literal {text : String} (read : PathSegment.new segment = .literal text) :
    text = segment := by
  unfold PathSegment.new at read
  split_ifs at read
  rw [PathSegment.literal.injEq] at read
  exact read.symm

theorem matches_item {kind : PathSegment} {item : String} (alive : kind ≠ .never)
    (faces : ∀ text, kind = .literal text → text = item)
    (some_ : (∀ text, kind ≠ .literal text) → item ≠ "") :
    Glob.Matches PathSegment.isDeep PathSegment.matches [kind] [item] := by
  cases kind with
  | literal text =>
    rw [faces text rfl]
    exact .one rfl (beq_self_eq_true item) .nil
  | deepWildcard => exact Glob.matches_deep_single rfl _
  | never => exact absurd rfl alive
  | singleWildcard | capture =>
    have held : item ≠ "" := some_ fun text same => by cases same
    refine .one rfl ?_ .nil
    simpa [PathSegment.matches] using held

theorem new_idPlaceholder : PathSegment.new idPlaceholder = .capture := by decide

theorem matches_own (alive : PathSegment.new segment ≠ .never) :
    Glob.Matches PathSegment.isDeep PathSegment.matches
      [PathSegment.new (templateSegment segment)] [segment] := by
  rw [templateSegment]
  split
  · rename_i known
    rw [new_idPlaceholder]
    exact matches_item nofun nofun fun _ => (isWellKnownIdentifier_chars known).1
  · refine matches_item alive (fun text read => new_eq_literal read) fun pattern => ?_
    rintro rfl
    exact pattern "" (by decide)

end Reading

section Grants

/-- A rule's pattern matches only paths with the observed path's segments, each the same
unless it is an identifier. -/
def GrantsObserved (path : String) (rule : Rule) : Prop :=
  ∀ granted, pathPatternMatches rule.path granted = true →
    ∃ observed segments, absolutePathSegments path = some observed ∧
      absolutePathSegments granted = some segments ∧
      List.Forall₂ (fun own segment => isWellKnownIdentifier own = true ∨ segment = own)
        observed segments

/-- Whether the matcher reads a segment as itself. -/
def ReadAsLiteral (segment : String) : Prop := PathSegment.new segment = .literal segment

instance : DecidablePred ReadAsLiteral := fun segment =>
  inferInstanceAs (Decidable (PathSegment.new segment = .literal segment))

/-- A template is read back as the segments it was made of. -/
theorem absolutePathSegments_template (path : String) :
    absolutePathSegments (templateStateless path) =
      some ((splitPath path).map templateSegment) := by
  rw [templateStateless, templateStatelessSegments]
  refine absolutePathSegments_join ?_ fun single => ?_
  · rw [forall_mem_map]
    intro segment listed
    rw [templateSegment]
    split
    · decide
    · exact splitPath_free listed
  · obtain ⟨segment, alone, empty⟩ := List.map_eq_singleton_iff.mp single
    rw [templateSegment] at empty
    split at empty
    · exact absurd empty (by decide)
    · exact splitPath_proper path (empty ▸ alone)

theorem pathPatternMatches_template {path granted : String} :
    pathPatternMatches (templateStateless path) granted = true ↔
      ∃ segments, absolutePathSegments granted = some segments ∧
        Glob.Matches PathSegment.isDeep PathSegment.matches
          ((splitPath path).map fun segment => PathSegment.new (templateSegment segment))
          segments := by
  have read : (PathPattern.new (templateStateless path)).segments =
      some ((splitPath path).map fun segment => PathSegment.new (templateSegment segment)) := by
    rw [PathPattern.new, absolutePathSegments_template, Option.map_some, map_map]
    rfl
  rw [pathPatternMatches, PathPattern.matches, read]
  cases absolutePathSegments granted with
  | none => simp
  | some segments => simp [pathSegmentsMatch, Glob.tableMatch_iff]

variable {method path : String} {principal : PrincipalMatcher} {action : RuleAction}
  {dispatch : RuleDispatchMatcher} {rule : Rule}

theorem grantsObserved_of_literals (read : absolutePathSegments path = some (splitPath path))
    (literal : ∀ segment ∈ splitPath path, ReadAsLiteral segment)
    (pattern : rule.path = templateStateless path) : GrantsObserved path rule := by
  intro granted matched
  rw [pattern, pathPatternMatches_template] at matched
  obtain ⟨segments, readGranted, accepted⟩ := matched
  have kinds : ∀ segment ∈ splitPath path,
      PathSegment.new (templateSegment segment) = .capture ∧
          isWellKnownIdentifier segment = true ∨
        PathSegment.new (templateSegment segment) = .literal segment := by
    intro segment listed
    rw [templateSegment]
    split
    · rename_i known
      exact .inl ⟨new_idPlaceholder, known⟩
    · exact .inr (literal segment listed)
  refine ⟨splitPath path, segments, read, readGranted, ?_⟩
  have faced := Glob.forall₂_of_matches (fun kind listed => ?_) accepted
  · rw [forall₂_map_left_iff] at faced
    refine (forall₂_and_left _ _).mpr ⟨kinds, faced⟩ |>.imp fun own segment held => ?_
    rcases held.1 with ⟨-, known⟩ | same
    · exact .inl known
    · have equal := held.2
      rw [same] at equal
      exact .inr (beq_iff_eq.mp equal).symm
  · obtain ⟨segment, member, rfl⟩ := List.mem_map.mp listed
    rcases kinds segment member with ⟨capture, -⟩ | same
    · rw [capture]
      rfl
    · rw [same]
      rfl

/-- A segment that is pattern syntax lets another text through in its place. -/
theorem not_grantsObserved (read : absolutePathSegments path = some (splitPath path))
    {segment : String} (listed : segment ∈ splitPath path) (pattern : ¬ ReadAsLiteral segment)
    (alive : ∀ other ∈ splitPath path, PathSegment.new other ≠ .never)
    (template : rule.path = templateStateless path) : ¬ GrantsObserved path rule := by
  intro grants
  obtain ⟨before, after, whole⟩ := append_of_mem listed
  have other : segment ≠ "x" := by
    rintro rfl
    exact pattern (by decide)
  have unknown : ¬ isWellKnownIdentifier segment = true := fun known =>
    pattern (isWellKnownIdentifier_literal known)
  have free : ∀ part ∈ before ++ "x" :: after, '/' ∉ part.toList := by
    intro part member
    rcases List.mem_append.mp member with inside | member
    · exact splitPath_free (whole ▸ mem_append_left _ inside)
    · rcases List.mem_cons.mp member with rfl | inside
      · decide
      · exact splitPath_free (whole ▸ mem_append_right _ (mem_cons_of_mem _ inside))
  have proper : before ++ "x" :: after ≠ [""] := by
    intro single
    have member : "x" ∈ before ++ "x" :: after := by simp
    rw [single] at member
    exact absurd member (by decide)
  have readGranted := absolutePathSegments_join free proper
  have accepted : pathPatternMatches rule.path (joinTemplateSegments (before ++ "x" :: after)) =
      true := by
    rw [template, pathPatternMatches_template]
    refine ⟨_, readGranted, ?_⟩
    rw [whole] at alive ⊢
    simp only [forall_mem_append, forall_mem_cons] at alive
    rw [map_append, map_cons, Glob.matches_append]
    refine ⟨before, "x" :: after, rfl, ?_, ?_⟩
    · have own := Glob.matches_of_parts fun part member => matches_own (alive.1 part member)
      rwa [map_id'] at own
    · rw [← singleton_append, Glob.matches_append]
      refine ⟨["x"], after, rfl, ?_, ?_⟩
      · rw [templateSegment, if_neg unknown]
        refine matches_item alive.2.1 (fun text same => ?_) fun _ => by decide
        exact absurd (new_eq_literal same ▸ same) pattern
      · have own := Glob.matches_of_parts fun part member => matches_own (alive.2.2 part member)
        rwa [map_id'] at own
  obtain ⟨observed, segments, readPath, readSegments, agree⟩ := grants _ accepted
  rw [read, Option.some.injEq] at readPath
  rw [readGranted, Option.some.injEq] at readSegments
  subst readPath readSegments
  rw [whole] at agree
  have later := forall₂_drop_append _ _ _ agree
  rw [drop_left, forall₂_cons] at later
  rcases later.1 with known | same
  · exact unknown known
  · exact other same.symm

/-- A baseline rule grants no more than was observed exactly when it is a tool's rule, when
a brace makes its pattern match nothing, or when the matcher reads every observed segment
as itself. -/
theorem ruleSuggestionForEndpoint_grants (absolute : Text.startsWith path "/" = true)
    (plain : '?' ∉ path.toList) :
    GrantsObserved path
        (ruleSuggestionForEndpoint method (templateStateless path) principal action dispatch) ↔
      (toolNameFromMcpEndpoint method (templateStateless path)).isSome = true ∨
        (∃ segment ∈ splitPath path, PathSegment.new segment = .never) ∨
        ∀ segment ∈ splitPath path, ReadAsLiteral segment := by
  have read := absolutePathSegments_eq absolute plain
  cases tool : toolNameFromMcpEndpoint method (templateStateless path) with
  | some toolName =>
    refine ⟨fun _ => .inl rfl, fun _ granted matched => ?_⟩
    rw [ruleSuggestionForEndpoint, tool] at matched
    cases matched
  | none =>
    have pattern : (ruleSuggestionForEndpoint method (templateStateless path) principal action
        dispatch).path = templateStateless path := by
      rw [ruleSuggestionForEndpoint, tool]
    constructor
    · intro grants
      by_contra broad
      simp only [Option.isSome_none, Bool.false_eq_true, false_or, not_or, not_exists, not_and,
        not_forall] at broad
      obtain ⟨alive, segment, listed, syntax_⟩ := broad
      exact not_grantsObserved read listed syntax_ alive pattern grants
    · rintro (impossible | ⟨segment, listed, never⟩ | literal)
      · cases impossible
      · intro granted matched
        rw [pattern, pathPatternMatches_template] at matched
        obtain ⟨segments, -, accepted⟩ := matched
        have own : templateSegment segment = segment := by
          rw [templateSegment, if_neg]
          intro known
          rw [isWellKnownIdentifier_literal known] at never
          cases never
        have dead : PathSegment.never ∈ (splitPath path).map fun segment =>
            PathSegment.new (templateSegment segment) :=
          List.mem_map.mpr ⟨segment, listed, by rw [own, never]⟩
        exact absurd accepted (Glob.not_matches_of_mem dead rfl fun _ => rfl)
      · exact grantsObserved_of_literals read literal pattern

/-- The observed path `/reports/*` is proposed as a pattern that matches every report. -/
theorem ruleSuggestionForEndpoint_wildcard :
    Text.startsWith "/reports/*" "/" = true ∧ '?' ∉ "/reports/*".toList ∧
      ¬ GrantsObserved "/reports/*" (ruleSuggestionForEndpoint "GET"
        (templateStateless "/reports/*") {} .allow { kind := .contextless }) := by
  refine ⟨by decide, by decide, fun grants => ?_⟩
  obtain ⟨observed, segments, readPath, readGranted, agree⟩ :=
    grants "/reports/salaries" (by decide)
  have own : absolutePathSegments "/reports/*" = some ["reports", "*"] := by decide
  have other : absolutePathSegments "/reports/salaries" = some ["reports", "salaries"] := by
    decide
  rw [own, Option.some.injEq] at readPath
  rw [other, Option.some.injEq] at readGranted
  subst readPath readGranted
  rw [forall₂_cons, forall₂_cons] at agree
  exact absurd agree.2.1 (by decide)

theorem ruleSuggestionForEndpoint_grants_sample :
    GrantsObserved "/users/42/orders" (ruleSuggestionForEndpoint "GET"
      (templateStateless "/users/42/orders") {} .allow { kind := .contextless }) :=
  (ruleSuggestionForEndpoint_grants (by decide) (by decide)).mpr
    (.inr (.inr (by decide)))

end Grants

end GreenGateway.Discovery
