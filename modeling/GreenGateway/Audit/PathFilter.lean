import GreenGateway.Archive.Portable
import GreenGateway.Discovery.Suggestions

/-! The condition on an endpoint's audit rows that SQL tests before the scan cap: every
path of the endpoint satisfies it. -/

namespace GreenGateway.Audit

open Foundation Config Discovery Rbac List

/-- The last byte that can be incremented is, and those after it are cut off; the bytes
come in reverse. -/
def incremented : List UInt8 → Option (List UInt8)
  | [] => none
  | byte :: earlier =>
    if byte < 255 then some (earlier.reverse ++ [byte + 1]) else incremented earlier

def stringPrefixUpperBound (front : String) : Option String :=
  (incremented (utf8 front).reverse).bind Archive.fromUtf8?

structure EndpointAuditPathFilter where
  exact : Option String := none
  front : Option String := none

def isDynamicSegment (segment : String) : Bool :=
  segment == "*" || segment == "**" || hasCaptureDelimiter segment

def endpointAuditPathFilter (template : String) : EndpointAuditPathFilter :=
  match Text.stripFront? template "/" with
  | none => {}
  | some tail =>
    if tail.isEmpty then { exact := some "/" }
    else
      let segments := Text.split '/' tail
      let literalSegments := segments.takeWhile (!isDynamicSegment ·)
      match segments.find? isDynamicSegment with
      | none => { exact := some template }
      | some firstDynamicSegment =>
        if literalSegments.isEmpty then {}
        else
          let literalPrefix := joinTemplateSegments literalSegments
          { front := some
              (if firstDynamicSegment == "**" then literalPrefix else literalPrefix ++ "/") }

/-- The clause of `build_request_observation_query` on `payload_path`, which SQLite compares
byte by byte. -/
def EndpointAuditPathFilter.selects (filter : EndpointAuditPathFilter) (path : String) : Bool :=
  match filter.exact, filter.front.filter (!·.isEmpty) with
  | some exact, _ => path == exact
  | none, none => true
  | none, some front => (stringPrefixUpperBound front).all fun upper =>
      decide (utf8 front ≤ utf8 path) && decide (utf8 path < utf8 upper)

theorem append_lt_incremented {bytes upper : List UInt8} (bound : incremented bytes = some upper)
    (rest : List UInt8) : bytes.reverse ++ rest < upper := by
  induction bytes generalizing rest with
  | nil => cases bound
  | cons byte earlier ih =>
    rw [incremented] at bound
    rw [reverse_cons, append_assoc]
    split at bound
    · rename_i small
      obtain rfl := Option.some.inj bound
      have last : byte ≠ -1 := by
        rintro rfl
        exact absurd small (by decide)
      exact append_left_lt (.rel (UInt8.lt_add_one last))
    · exact ih bound _

/-- A filter's text is all of the path, or begins it. -/
structure EndpointAuditPathFilter.Fits (filter : EndpointAuditPathFilter) (path : String) : Prop where
  exact : ∀ exact, filter.exact = some exact → path = exact
  front : ∀ front, filter.front = some front → ∃ rest, path = front ++ rest

theorem EndpointAuditPathFilter.Fits.selects {filter : EndpointAuditPathFilter} {path : String}
    (fits : filter.Fits path) : filter.selects path = true ∧
      ∀ front, filter.front = some front → utf8 front ≤ utf8 path := by
  have split (front rest : String) : utf8 (front ++ rest) = utf8 front ++ utf8 rest := by
    simp [utf8]
  have above : ∀ front, filter.front = some front → utf8 front ≤ utf8 path := by
    intro front held
    obtain ⟨rest, rfl⟩ := fits.front front held
    exact split front rest ▸ le_append_left
  refine ⟨?_, above⟩
  rw [EndpointAuditPathFilter.selects]
  split
  · exact beq_iff_eq.mpr (fits.exact _ ‹_›)
  · rfl
  · rename_i front _ kept
    obtain ⟨held, -⟩ := Option.filter_eq_some_iff.mp kept
    rw [Option.all_eq_true]
    intro upper bound
    obtain ⟨bytes, found, decoded⟩ := Option.bind_eq_some_iff.mp bound
    obtain rfl := Archive.fromUtf8?_eq_some.mp decoded
    obtain ⟨rest, rfl⟩ := fits.front front held
    have below := append_lt_incremented found (utf8 rest)
    rw [reverse_reverse, ← split] at below
    rw [decide_eq_true (above front held), decide_eq_true below]
    rfl

theorem joinTemplateSegments_absolute {path : String} {segments : List String}
    (read : absolutePathSegments path = some segments) : joinTemplateSegments segments = path := by
  obtain ⟨tail, stripped, rfl⟩ := Option.map_eq_some_iff.mp read
  rw [Text.stripFront?_eq_some.mp stripped]
  split
  · rename_i empty
    rw [String.isEmpty_iff.mp empty]
    rfl
  · have whole : ['/'].intercalate (tail.toList.splitOn '/') = tail.toList := intercalate_splitOn '/'
    apply String.toList_inj.mp
    rw [joinTemplateSegments, Text.split, if_neg (by simp)]
    simp [whole]

theorem joinTemplateSegments_append {front back : List String} (some_ : front ≠ [])
    (more : back ≠ []) :
    ∃ rest, joinTemplateSegments (front ++ back) = joinTemplateSegments front ++ "/" ++ rest := by
  refine ⟨String.ofList (['/'].intercalate (back.map String.toList)), String.toList_inj.mp ?_⟩
  have joined : ['/'].intercalate (front.map String.toList ++ back.map String.toList) = _ :=
    Text.intercalate_append (by simpa using some_) (by simpa using more)
  simp [joinTemplateSegments, some_, joined]

theorem templateSegment_literal {segment : String}
    (literal : isDynamicSegment (templateSegment segment) = false) :
    templateSegment segment = segment := by
  have placeholder : isDynamicSegment idPlaceholder = true := by decide
  rw [templateSegment] at literal ⊢
  split
  · rw [if_pos ‹_›, placeholder] at literal
    cases literal
  · rfl

/-- The segments a template shares with its paths, up to the first that stands for others. -/
theorem literalSegments_split {segments : List String} {first : String}
    (found : (segments.map templateSegment).find? isDynamicSegment = some first) :
    ∃ rest ≠ [],
      segments = (segments.map templateSegment).takeWhile (!isDynamicSegment ·) ++ rest := by
  induction segments with
  | nil => cases found
  | cons segment segments ih =>
    rw [map_cons] at found ⊢
    cases dynamic : isDynamicSegment (templateSegment segment) with
    | true => exact ⟨segment :: segments, by simp, by simp [dynamic]⟩
    | false =>
      rw [find?_cons_of_neg (by simp [dynamic])] at found
      obtain ⟨rest, some_, split⟩ := ih found
      refine ⟨rest, some_, ?_⟩
      rw [takeWhile_cons_of_pos (by simp [dynamic]), templateSegment_literal dynamic, cons_append,
        ← split]

/-- No row of an endpoint is left out by the condition made of its template; its lower half
holds even where the prefix has no upper bound. -/
theorem endpointAuditPathFilter_selects {template path : String}
    (absolute : Text.startsWith path "/" = true) (plain : '?' ∉ path.toList)
    (observed : templateStateless path = template) :
    (endpointAuditPathFilter template).selects path = true ∧
      ∀ front, (endpointAuditPathFilter template).front = some front → utf8 front ≤ utf8 path := by
  subst observed
  have joined := joinTemplateSegments_absolute (absolutePathSegments_eq absolute plain)
  obtain ⟨tail, stripped, segments⟩ :=
    Option.map_eq_some_iff.mp (absolutePathSegments_template path)
  apply EndpointAuditPathFilter.Fits.selects
  rw [endpointAuditPathFilter, stripped]
  dsimp only
  split
  · rw [if_pos ‹_›, eq_comm, map_eq_nil_iff] at segments
    rw [segments] at joined
    exact ⟨fun _ held => joined.symm.trans (Option.some.inj held), by simp⟩
  · rw [if_neg ‹_›] at segments
    rw [segments]
    split
    · rename_i none
      have same : (splitPath path).map templateSegment = splitPath path := by
        refine (map_congr_left fun segment listed => ?_).trans (map_id _)
        have literal := find?_eq_none.mp none _ (mem_map_of_mem listed)
        exact templateSegment_literal (by simpa using literal)
      rw [templateStateless, templateStatelessSegments, same, joined]
      exact ⟨fun _ held => Option.some.inj held, by simp⟩
    · rename_i first found
      obtain ⟨rest, more, split⟩ := literalSegments_split found
      split_ifs with empty deep
      · exact ⟨by simp, by simp⟩
      all_goals
        obtain ⟨back, whole⟩ := joinTemplateSegments_append (mt isEmpty_iff.mpr empty) more
        rw [← split, joined] at whole
        refine ⟨by simp, fun _ held => ?_⟩
        obtain rfl := Option.some.inj held
      · exact ⟨"/" ++ back, whole.trans String.append_assoc⟩
      · exact ⟨back, whole⟩

theorem endpointAuditPathFilter_selects_user :
    (endpointAuditPathFilter (templateStateless "/users/42")).selects "/users/42" = true ∧
      stringPrefixUpperBound "/users/" = some "/users0" :=
  ⟨(endpointAuditPathFilter_selects (by decide) (by decide) rfl).1, by decide⟩

end GreenGateway.Audit
