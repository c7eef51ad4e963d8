import GreenGateway.Archive.Guard
import GreenGateway.Config.Digests
import Mathlib.Algebra.BigOperators.Group.List.Basic
import Mathlib.Tactic.FinCases
import Mathlib.Tactic.IntervalCases

/-! What a portable set of entries is, without an order, and what a portable name is. -/

namespace GreenGateway.Archive

open Foundation Config List

section Sets

/-- The names Windows keeps for devices. -/
def deviceStems : List (List Char) :=
  [['c', 'o', 'n'], ['p', 'r', 'n'], ['a', 'u', 'x'], ['n', 'u', 'l']] ++
    ['0', '1', '2', '3', '4', '5', '6', '7', '8', '9'].flatMap fun digit =>
      [['c', 'o', 'm', digit], ['l', 'p', 't', digit]]

structure PortableSegment (segment : String) : Prop where
  starts : ∃ first rest, segment.toList = first :: rest ∧ first.isAlphanum = true
  spelled : ∀ char ∈ segment.toList, char.isAlphanum = true ∨ char = '.' ∨ char = '_' ∨ char = '-'
  ends : segment.toList.getLast? ≠ some '.'
  device : (segment.toList.takeWhile (· != '.')).map Char.toLower ∉ deviceStems

structure PortablePath (limits : ArchiveLimits) (path : String) : Prop where
  depth : (Text.split '/' path).length ≤ limits.maxDepth.toNat
  segments : ∀ segment ∈ Text.split '/' path, PortableSegment segment
  short : ∀ segment ∈ Text.split '/' path, Text.len segment ≤ limits.maxSegmentBytes.toNat

/-- A header's name spells a portable path; a directory's may end in one `/`. -/
structure Names (limits : ArchiveLimits) (header : EntryHeader) (path : String) : Prop where
  short : header.name.length ≤ limits.maxPathBytes.toNat
  portable : PortablePath limits path
  spells : header.name = utf8 path ∨ header.kind = .directory ∧ header.name = utf8 (path ++ "/")

/-- `directory` is above `path`. -/
def Above (directory path : String) : Prop := ∃ rest, path = directory ++ ("/" ++ rest)

/-- A path is one of the entries', or a directory above one of them. -/
def Uses (entries : List (EntryHeader × String)) (path : String) : Prop :=
  ∃ entry ∈ entries, path = entry.2 ∨ Above path entry.2

/-- No two paths that some filesystem would confuse: no path twice, none that differ in
case alone, and no file that is also a directory. -/
structure Compatible (entries : List (EntryHeader × String)) : Prop where
  distinct : (entries.map Prod.snd).Nodup
  folded : ∀ left right, Uses entries left → Uses entries right →
    Text.toAsciiLowercase left = Text.toAsciiLowercase right → left = right
  files : ∀ entry ∈ entries, entry.1.kind = .file → ∀ other ∈ entries, ¬ Above entry.2 other.2

/-- A set of entries with their paths that can be extracted anywhere. -/
structure PortableSet (limits : ArchiveLimits) (entries : List (EntryHeader × String)) : Prop
    extends Compatible entries where
  count : min entries.length u64Max ≤ limits.maxEntries.toNat
  names : ∀ entry ∈ entries, Names limits entry.1 entry.2
  kinds : ∀ entry ∈ entries,
    entry.1.kind = .file ∨ entry.1.kind = .directory ∧ entry.1.hasData = false
  sizes : ∀ entry ∈ entries, entry.1.size ≤ limits.maxEntryBytes
  ratio : ∀ entry ∈ entries, ∀ stored, entry.1.storedSize = some stored →
    entry.1.size ≤ limits.ratioFloorBytes ∨
      entry.1.size.toNat ≤ stored.toNat * limits.maxExpansionRatio.toNat
  total : min (entries.map fun entry => entry.1.size.toNat).sum u64Max ≤ limits.maxTotalBytes.toNat

/-- The order of the entries says nothing about the set. -/
theorem PortableSet.perm {limits : ArchiveLimits} {entries others : List (EntryHeader × String)}
    (same : entries.Perm others) (portable : PortableSet limits entries) :
    PortableSet limits others := by
  have members : ∀ {entry}, entry ∈ others → entry ∈ entries := fun member => same.mem_iff.mpr member
  have uses : ∀ {path}, Uses others path → Uses entries path :=
    fun ⟨entry, member, used⟩ => ⟨entry, members member, used⟩
  exact
    { count := same.length_eq ▸ portable.count
      names := fun entry member => portable.names entry (members member)
      kinds := fun entry member => portable.kinds entry (members member)
      distinct := (same.map _).nodup_iff.mp portable.distinct
      folded := fun left right used used' => portable.folded left right (uses used) (uses used')
      files := fun entry member file other listed =>
        portable.files entry (members member) file other (members listed)
      sizes := fun entry member => portable.sizes entry (members member)
      ratio := fun entry member => portable.ratio entry (members member)
      total := (same.map fun entry => entry.1.size.toNat).sum_eq ▸ portable.total }

end Sets

section Segments

theorem isDigit_iff {char : Char} :
    char.isDigit = true ↔ char ∈ ['0', '1', '2', '3', '4', '5', '6', '7', '8', '9'] := by
  constructor
  · intro digit
    simp only [Char.isDigit, Bool.and_eq_true, decide_eq_true_eq, ge_iff_le] at digit
    obtain ⟨low, high⟩ := digit
    have low : 48 ≤ char.toNat := low
    have high : char.toNat ≤ 57 := high
    rw [← Char.ofNat_toNat char]
    generalize char.toNat = code at low high
    interval_cases code <;> decide
  · intro listed
    fin_cases listed <;> decide

variable {segment : String}

theorem isWindowsDeviceName_iff :
    isWindowsDeviceName segment = true ↔
      (segment.toList.takeWhile (· != '.')).map Char.toLower ∈ deviceStems := by
  have stems : ∀ stem, stem ∈ deviceStems ↔
      stem = ['c', 'o', 'n'] ∨ stem = ['p', 'r', 'n'] ∨ stem = ['a', 'u', 'x'] ∨
        stem = ['n', 'u', 'l'] ∨
        ∃ digit, digit.isDigit = true ∧ (stem = ['c', 'o', 'm', digit] ∨ stem = ['l', 'p', 't', digit]) := by
    intro stem
    simp only [deviceStems, mem_append, mem_flatMap, isDigit_iff, mem_cons,
      not_mem_nil, or_false, or_assoc]
  rw [stems, isWindowsDeviceName]
  generalize (segment.toList.takeWhile (· != '.')).map Char.toLower = stem
  split <;> simp_all

theorem isPortableSegment_iff :
    isPortableSegment segment = true ↔
      (∃ first rest, segment.toList = first :: rest ∧ first.isAlphanum = true) ∧
      (∀ char ∈ segment.toList, char.isAlphanum = true ∨ char = '.' ∨ char = '_' ∨ char = '-') ∧
      segment.toList.getLast? ≠ some '.' := by
  have starts : segment.toList.head?.any Char.isAlphanum = true ↔
      ∃ first rest, segment.toList = first :: rest ∧ first.isAlphanum = true := by
    cases segment.toList <;> simp
  have ends : Text.endsWith segment "." = true ↔ segment.toList.getLast? = some '.' := by
    rw [Text.endsWith, isSuffixOf_iff_suffix]
    exact singleton_suffix_iff_getLast?_eq_some
  simp only [isPortableSegment, Bool.and_eq_true, starts, all_eq_true, Bool.or_eq_true,
    Bool.not_eq_true', contains_iff_mem, mem_cons, not_mem_nil, or_false,
    ← Bool.not_eq_true, ends, and_assoc]

theorem admitSegment_eq_ok {limits : ArchiveLimits} :
    admitSegment limits segment = .ok () ↔
      PortableSegment segment ∧ Text.len segment ≤ limits.maxSegmentBytes.toNat := by
  simp only [admitSegment, bind_eq_ok, unit_exists_ok, refuse_eq_ok, ← Bool.not_eq_true,
    decide_eq_true_eq, not_lt, isWindowsDeviceName_iff, Bool.not_eq_true', not_not,
    isPortableSegment_iff]
  constructor
  · rintro ⟨short, device, starts, spelled, ends⟩
    exact ⟨⟨starts, spelled, ends, device⟩, short⟩
  · rintro ⟨⟨starts, spelled, ends, device⟩, short⟩
    exact ⟨short, device, starts, spelled, ends⟩

end Segments

section Names

variable {limits : ArchiveLimits} {path : String} {char : Char} {header : EntryHeader}

theorem fromUtf8?_eq_some {bytes : List UInt8} {text : String} :
    fromUtf8? bytes = some text ↔ bytes = utf8 text := by
  rw [fromUtf8?, String.fromUTF8?]
  constructor
  · intro decoded
    split at decoded
    · obtain rfl := Option.some.inj decoded
      rw [← toByteArray_inj, utf8_toByteArray]
      rfl
    · cases decoded
  · rintro rfl
    rw [dif_pos (utf8_toByteArray text ▸ text.isValidUTF8)]
    exact congrArg some (String.toByteArray_inj.mp (utf8_toByteArray text))

namespace PortablePath

variable (portable : PortablePath limits path)

include portable

/-- No separator or colon is in a portable path but the ones between its segments. -/
theorem chars (member : char ∈ path.toList) :
    char = '/' ∨ char.isAlphanum = true ∨ char = '.' ∨ char = '_' ∨ char = '-' := by
  rcases Text.mem_splitOn '/' member with rfl | ⟨piece, listed, held⟩
  · exact .inl rfl
  · refine .inr ((portable.segments (String.ofList piece) ?_).spelled char (by simpa using held))
    exact mem_map_of_mem listed

theorem nonempty_segment : [] ∉ path.toList.splitOn '/' := by
  intro listed
  obtain ⟨first, rest, spelled, -⟩ :=
    (portable.segments (String.ofList []) (mem_map_of_mem listed)).starts
  simp at spelled

theorem not_mem
    (other : ¬ (char = '/' ∨ char.isAlphanum = true ∨ char = '.' ∨ char = '_' ∨ char = '-')) :
    char ∉ path.toList :=
  fun member => other (portable.chars member)

theorem nonempty : path.toList ≠ [] := by
  intro empty
  exact portable.nonempty_segment (by simp [empty])

/-- A portable path neither starts nor ends with a separator. -/
theorem bounded (rest : List Char) :
    path.toList ≠ '/' :: rest ∧ path.toList ≠ rest ++ ['/'] := by
  constructor
  · intro starts
    refine portable.nonempty_segment ?_
    simp [starts, splitOn_cons_eq_if_modifyHead]
  · intro ends
    refine portable.nonempty_segment ?_
    simp [ends, splitOn_append_cons_self]

/-- None of the specific refusals meets a portable path. -/
theorem admitted : path.isEmpty = false ∧
      (Text.startsWith path "/" || Text.startsWith path "\\" || hasDrivePrefix path) = false ∧
      (path.toList.splitOnP fun char => char == '/' || char == '\\').any (· == ['.', '.']) = false ∧
      path.toList.contains ':' = false := by
  have colon : ':' ∉ path.toList := portable.not_mem (by decide)
  have backslash : '\\' ∉ path.toList := portable.not_mem (by decide)
  refine ⟨?_, ?_, ?_, by simpa using colon⟩
  · rw [Bool.eq_false_iff, ne_eq, String.isEmpty_iff, ← String.toList_eq_nil_iff]
    exact portable.nonempty
  · have slash : Text.startsWith path "/" = false := by
      rw [Bool.eq_false_iff, ne_eq, Text.startsWith, isPrefixOf_iff_prefix]
      rintro ⟨rest, starts⟩
      exact (portable.bounded rest).1 starts.symm
    have back : Text.startsWith path "\\" = false := by
      rw [Bool.eq_false_iff, ne_eq, Text.startsWith, isPrefixOf_iff_prefix]
      rintro ⟨rest, starts⟩
      exact backslash (by rw [← starts]; simp)
    have drive : hasDrivePrefix path = false := by
      unfold hasDrivePrefix
      split
      · next letter rest spelled => exact absurd (by simp [spelled]) colon
      · rfl
    rw [slash, back, drive]
    rfl
  · have separators : (path.toList.splitOnP fun char => char == '/' || char == '\\') =
        path.toList.splitOn '/' := by
      rw [splitOn_eq_splitOnP]
      refine Text.splitOnP_congr fun char member => ?_
      have : char ≠ '\\' := fun same => backslash (same ▸ member)
      simp [this]
    rw [separators, any_eq_false]
    intro piece listed climbs
    obtain ⟨first, rest, spelled, alphanumeric⟩ :=
      (portable.segments (String.ofList piece) (mem_map_of_mem listed)).starts
    rw [String.toList_ofList, beq_iff_eq.mp climbs] at spelled
    rw [← (List.cons.inj spelled).1] at alphanumeric
    exact absurd alphanumeric (by decide)

end PortablePath

theorem forM_eq_ok {α ε : Type} {check : α → Except ε Unit} {items : List α} :
    items.forM check = .ok () ↔ ∀ item ∈ items, check item = .ok () := by
  induction items with
  | nil => simp [List.forM, pure, Except.pure]
  | cons item items ih =>
    change (check item >>= fun _ => items.forM check) = _ ↔ _
    rw [bind_eq_ok, unit_exists_ok, ih, forall_mem_cons]

theorem admitName_eq_ok :
    admitName header.name (header.kind == .directory) limits = .ok ⟨path⟩ ↔
      Names limits header path := by
  simp only [admitName, bind_eq_ok, unit_exists_ok, refuse_eq_ok, okOr_eq_ok, Except.ok.injEq,
    EntryPath.mk.injEq, decide_eq_false_iff_not, not_lt, fromUtf8?_eq_some, forM_eq_ok,
    admitSegment_eq_ok]
  constructor
  · rintro ⟨short, text, spelled, -, -, -, -, depth, segments, same⟩
    rw [same] at depth segments
    refine ⟨short, ⟨depth, fun segment listed => (segments segment listed).1,
      fun segment listed => (segments segment listed).2⟩, ?_⟩
    by_cases directory : header.kind = .directory
    · rw [if_pos (by simpa using directory)] at same
      cases stripped : Text.stripBack? text "/" with
      | none => exact .inl (by rw [spelled, ← same, stripped, Option.getD_none])
      | some front =>
        rw [stripped, Option.getD_some] at same
        exact .inr ⟨directory, by rw [spelled, Text.stripBack?_eq_some.mp stripped, same]⟩
    · rw [if_neg (by simpa using directory)] at same
      exact .inl (by rw [spelled, same])
  · rintro ⟨short, portable, spells⟩
    obtain ⟨nonempty, relative, inside, colon⟩ := portable.admitted
    obtain ⟨text, spelled, same⟩ : ∃ text, header.name = utf8 text ∧
        (if (header.kind == .directory) = true then (Text.stripBack? text "/").getD text else text) =
          path := by
      rcases spells with spelled | ⟨directory, spelled⟩
      · refine ⟨path, spelled, ?_⟩
        have whole : Text.stripBack? path "/" = none := by
          rw [Option.eq_none_iff_forall_not_mem]
          intro front stripped
          have ends := congrArg String.toList (Text.stripBack?_eq_some.mp stripped)
          rw [String.toList_append] at ends
          exact (portable.bounded front.toList).2 ends
        split <;> simp [whole]
      · refine ⟨path ++ "/", spelled, ?_⟩
        rw [if_pos (by simpa using directory), Text.stripBack?_eq_some.mpr rfl, Option.getD_some]
    refine ⟨short, text, spelled, ?_⟩
    rw [same]
    exact ⟨nonempty, relative, inside, colon, portable.depth,
      fun segment listed => ⟨portable.segments segment listed, portable.short segment listed⟩, rfl⟩

theorem Names.unique {other : String} (names : Names limits header path)
    (names' : Names limits header other) : path = other := by
  have same := (admitName_eq_ok.mpr names).symm.trans (admitName_eq_ok.mpr names')
  exact EntryPath.mk.inj (Except.ok.inj same)

end Names

end GreenGateway.Archive
