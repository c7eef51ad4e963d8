import GreenGateway.Archive.Claims
import GreenGateway.Foundation.History

/-! The guard admits a sequence of headers exactly when they are a portable set. -/

namespace GreenGateway.Archive

open Foundation Config List ArchiveGuard

section Registry

variable {limits : ArchiveLimits} {claims after : Claims} {entries : List (EntryHeader × String)}
  {entry : EntryHeader × String} {kind : ClaimKind} {position : UInt64}

/-- The claims are the paths the entries use, each as what it is used for. -/
structure Registers (claims : Claims) (entries : List (EntryHeader × String)) : Prop where
  used : ∀ path, Uses entries path →
    ∃ claim, claims.lookup (Text.toAsciiLowercase path) = some claim ∧ claim.exact = path
  spelled : ∀ key claim, claims.lookup key = some claim →
    key = Text.toAsciiLowercase claim.exact ∧ Uses entries claim.exact
  kind : ∀ key claim, claims.lookup key = some claim →
    (claim.kind = .parent ∧ claim.exact ∉ entries.map Prod.snd) ∨
      ∃ entry ∈ entries, entry.2 = claim.exact ∧ entry.1.kind.claim = .ok claim.kind

theorem claim_listed {header : EntryHeader} (claimed : header.kind.claim = .ok kind) :
    kind ≠ .parent ∧ (kind = .file ↔ header.kind = .file) ∧
      (kind = .directory ↔ header.kind = .directory) := by
  cases same : header.kind <;> simp_all [EntryKind.claim] <;> subst claimed <;> simp

theorem uses_snoc {path : String} :
    Uses (entries ++ [entry]) path ↔ Uses entries path ∨ path = entry.2 ∨ Above path entry.2 := by
  simp [Uses, or_and_right, exists_or]

theorem Compatible.init (compatible : Compatible (entries ++ [entry])) : Compatible entries where
  distinct := by
    have distinct := compatible.distinct
    rw [map_append] at distinct
    exact (List.nodup_append.mp distinct).1
  folded left right used used' :=
    compatible.folded left right (uses_snoc.mpr (.inl used)) (uses_snoc.mpr (.inl used'))
  files one member file other listed :=
    compatible.files one (mem_append_left _ member) file other (mem_append_left _ listed)

theorem compatible_snoc (claimed : entry.1.kind.claim = .ok kind)
    (registers : Registers claims entries) (compatible : Compatible entries)
    (claimable : Claimable claims entry.2 kind) : Compatible (entries ++ [entry]) := by
  obtain ⟨parents, own⟩ := claimable
  obtain ⟨listed, file, -⟩ := claim_listed claimed
  -- an earlier use of the path makes it a parent, and the entry a directory
  have reused : Uses entries entry.2 → kind = .directory ∧ entry.2 ∉ entries.map Prod.snd := by
    intro used
    obtain ⟨earlier, found, -⟩ := registers.used _ used
    obtain ⟨same, parent, directory⟩ := own earlier found
    refine ⟨directory, ?_⟩
    rcases registers.kind _ _ found with ⟨-, absent⟩ | ⟨other, -, -, kinds⟩
    · rwa [same] at absent
    · exact absurd (parent ▸ kinds) (fun kinds => (claim_listed kinds).1 rfl)
  have fresh : entry.2 ∉ entries.map Prod.snd := by
    intro repeated
    obtain ⟨other, member, same⟩ := List.mem_map.mp repeated
    exact (reused ⟨other, member, .inl same.symm⟩).2 repeated
  have matches_ : ∀ old, Uses entries old → ∀ new, new = entry.2 ∨ Above new entry.2 →
      Text.toAsciiLowercase old = Text.toAsciiLowercase new → old = new := by
    intro old used new use same
    obtain ⟨earlier, found, rfl⟩ := registers.used old used
    rw [same] at found
    rcases use with rfl | above
    · exact (own earlier found).1
    · exact (parents new above earlier found).1
  refine ⟨?_, ?_, ?_⟩
  · rw [map_append, nodup_append]
    refine ⟨compatible.distinct, by simp, ?_⟩
    rintro path old _ new rfl
    simp only [map_cons, map_nil, mem_singleton] at new
    exact fresh (new ▸ old)
  · intro left right used used' same
    rcases uses_snoc.mp used with old | new
    · rcases uses_snoc.mp used' with old' | new'
      · exact compatible.folded left right old old' same
      · exact matches_ left old right new' same
    · rcases uses_snoc.mp used' with old' | new'
      · exact (matches_ right old' left new same.symm).symm
      · rcases new with rfl | above <;> rcases new' with rfl | above'
        · rfl
        · exact absurd same.symm above'.not_folded
        · exact absurd same above.not_folded
        · exact above.folded above' same
  · intro one member isFile other listedOther above
    rcases List.mem_append.mp member with old | new
    · rcases List.mem_append.mp listedOther with old' | new'
      · exact compatible.files one old isFile other old' above
      · obtain rfl := List.mem_singleton.mp new'
        obtain ⟨earlier, found, same⟩ := registers.used one.2 ⟨one, old, .inl rfl⟩
        refine (parents one.2 above earlier found).2 ?_
        rcases registers.kind _ _ found with ⟨-, absent⟩ | ⟨twin, twinListed, twinPath, kinds⟩
        · exact absurd (same ▸ mem_map_of_mem old) absent
        · obtain rfl : twin = one :=
            inj_on_of_nodup_map compatible.distinct twinListed old (twinPath.trans same)
          exact (claim_listed kinds).2.1.mpr isFile
    · obtain rfl := List.mem_singleton.mp new
      rcases List.mem_append.mp listedOther with old' | new'
      · have directory := (reused ⟨other, old', .inr above⟩).1
        rw [file.mpr isFile] at directory
        cases directory
      · rw [List.mem_singleton.mp new'] at above
        exact absurd above.shorter (lt_irrefl _)

theorem claimable_of_compatible (claimed : entry.1.kind.claim = .ok kind)
    (registers : Registers claims entries) (whole : Compatible (entries ++ [entry])) :
    Claimable claims entry.2 kind := by
  obtain ⟨listed, file, -⟩ := claim_listed claimed
  have spelled : ∀ path, path = entry.2 ∨ Above path entry.2 → ∀ earlier,
      claims.lookup (Text.toAsciiLowercase path) = some earlier → earlier.exact = path := by
    intro path use earlier found
    obtain ⟨key, used⟩ := registers.spelled _ _ found
    exact whole.folded _ _ (uses_snoc.mpr (.inl used)) (uses_snoc.mpr (.inr use)) key.symm
  refine ⟨?_, ?_⟩
  · intro parent above earlier found
    have same := spelled parent (.inr above) earlier found
    refine ⟨same, fun isFile => ?_⟩
    rcases registers.kind _ _ found with ⟨parentKind, -⟩ | ⟨other, member, path, kinds⟩
    · rw [isFile] at parentKind
      cases parentKind
    · refine whole.files other (mem_append_left _ member)
        ((claim_listed kinds).2.1.mp isFile) entry (by simp) ?_
      rwa [path, same]
  · intro earlier found
    have same := spelled entry.2 (.inl rfl) earlier found
    have fresh : entry.2 ∉ entries.map Prod.snd := by
      have distinct := whole.distinct
      rw [map_append, nodup_append] at distinct
      exact fun repeated => distinct.2.2 _ repeated _ (by simp) rfl
    rcases registers.kind _ _ found with ⟨parent, -⟩ | ⟨other, member, path, -⟩
    · refine ⟨same, parent, ?_⟩
      obtain ⟨other, member, use⟩ := (registers.spelled _ _ found).2
      rw [same] at use
      rcases use with repeated | above
      · exact absurd (repeated ▸ mem_map_of_mem member) fresh
      · by_contra notDirectory
        have isFile : kind = .file := by
          cases kind with
          | file => rfl
          | directory => exact absurd rfl notDirectory
          | parent => exact absurd rfl listed
        exact whole.files entry (by simp) (file.mp isFile) other (mem_append_left _ member)
          above
    · exact absurd (List.mem_map.mpr ⟨other, member, path.trans same⟩) fresh

/-- A claim that succeeded leaves the claims saying what the longer list uses. -/
theorem registers_snoc (portable : PortablePath limits entry.2)
    (claimed : entry.1.kind.claim = .ok kind) (registers : Registers claims entries)
    (taken : claim claims ⟨entry.2⟩ kind position = .ok after) :
    Registers after (entries ++ [entry]) := by
  obtain ⟨listed, -, -⟩ := claim_listed claimed
  obtain ⟨parents, own⟩ := (claim_eq_ok portable listed).mp ⟨after, taken⟩
  have lookup := claim_lookup portable listed taken
  refine ⟨?_, ?_, ?_⟩
  · intro path used
    rcases uses_snoc.mp used with old | rfl | above
    · obtain ⟨earlier, found, rfl⟩ := registers.used path old
      rcases lookup (Text.toAsciiLowercase earlier.exact) with ⟨_, -, -, fresh, -⟩ | ⟨same, now⟩ |
        ⟨-, -, now⟩
      · rw [fresh] at found
        cases found
      · rw [same] at found
        exact ⟨_, now, (own earlier found).1.symm⟩
      · exact ⟨earlier, now.trans found, rfl⟩
    · rcases lookup (Text.toAsciiLowercase entry.2) with ⟨_, above, same, -, -⟩ | ⟨-, now⟩ |
        ⟨differs, -, -⟩
      · exact absurd same.symm above.not_folded
      · exact ⟨_, now, rfl⟩
      · exact absurd rfl differs
    · rcases lookup (Text.toAsciiLowercase path) with ⟨parent, other, same, -, now⟩ | ⟨same, -⟩ |
        ⟨-, taken, now⟩
      · exact ⟨_, now, (above.folded other same).symm⟩
      · exact absurd same above.not_folded
      · obtain ⟨earlier, found⟩ := Option.ne_none_iff_exists'.mp (taken path above rfl)
        exact ⟨earlier, now.trans found, (parents path above earlier found).1⟩
  · intro key claim found
    rcases lookup key with ⟨parent, above, same, -, now⟩ | ⟨same, now⟩ | ⟨-, -, now⟩
    · obtain rfl := Option.some.inj (now.symm.trans found)
      exact ⟨same, uses_snoc.mpr (.inr (.inr above))⟩
    · obtain rfl := Option.some.inj (now.symm.trans found)
      exact ⟨same, uses_snoc.mpr (.inr (.inl rfl))⟩
    · obtain ⟨same, used⟩ := registers.spelled key claim (now.symm.trans found)
      exact ⟨same, uses_snoc.mpr (.inl used)⟩
  · intro key claim found
    rw [map_append, mem_append, map_singleton, mem_singleton]
    rcases lookup key with ⟨parent, above, same, fresh, now⟩ | ⟨-, now⟩ | ⟨differs, -, now⟩
    · obtain rfl := Option.some.inj (now.symm.trans found)
      refine .inl ⟨rfl, ?_⟩
      rintro (repeated | equal)
      · obtain ⟨other, member, path⟩ := List.mem_map.mp repeated
        obtain ⟨earlier, known, -⟩ := registers.used parent ⟨other, member, .inl path.symm⟩
        rw [← same, fresh] at known
        cases known
      · have shorter := above.shorter
        rw [show parent = entry.2 from equal] at shorter
        exact absurd shorter (lt_irrefl _)
    · obtain rfl := Option.some.inj (now.symm.trans found)
      exact .inr ⟨entry, by simp, rfl, claimed⟩
    · have known := now.symm.trans found
      rcases registers.kind key claim known with ⟨parent, absent⟩ | ⟨other, member, path, kinds⟩
      · refine .inl ⟨parent, ?_⟩
        rintro (repeated | equal)
        · exact absent repeated
        · exact differs (equal ▸ (registers.spelled key claim known).1)
      · exact .inr ⟨other, mem_append_left _ member, path, kinds⟩

end Registry

section Steps

variable {limits : ArchiveLimits} {guard next : ArchiveGuard} {header : EntryHeader}
  {entries : List (EntryHeader × String)} {admitted : AdmittedEntry}

@[simp] theorem mapError_eq_ok {ε ε' α : Type} {outcome : Except ε α} {convert : ε → ε'}
    {value : α} : outcome.mapError convert = .ok value ↔ outcome = .ok value := by
  cases outcome <;> simp [Except.mapError]

theorem exceedsRatio_eq_false {size stored : UInt64} :
    exceedsRatio size stored limits = false ↔
      size ≤ limits.ratioFloorBytes ∨ size.toNat ≤ stored.toNat * limits.maxExpansionRatio.toNat := by
  have word := toNat_le_u64Max size
  rw [exceedsRatio, Bool.and_eq_false_iff, decide_eq_false_iff_not, decide_eq_false_iff_not,
    gt_iff_lt,
    gt_iff_lt, UInt64.not_lt, UInt64.not_lt]
  refine or_congr Iff.rfl ?_
  rw [UInt64.le_iff_toNat_le, saturatingMul_toNat]
  omega

theorem chargeDeclared_eq_ok {declared total : UInt64} :
    chargeDeclared limits declared header = .ok total ↔
      header.size ≤ limits.maxEntryBytes ∧
      (∀ stored, header.storedSize = some stored → header.size ≤ limits.ratioFloorBytes ∨
        header.size.toNat ≤ stored.toNat * limits.maxExpansionRatio.toNat) ∧
      saturatingAdd declared header.size ≤ limits.maxTotalBytes ∧
      saturatingAdd declared header.size = total := by
  have stored : (header.storedSize.any fun stored => exceedsRatio header.size stored limits) = false ↔
      ∀ stored, header.storedSize = some stored → header.size ≤ limits.ratioFloorBytes ∨
        header.size.toNat ≤ stored.toNat * limits.maxExpansionRatio.toNat := by
    cases header.storedSize <;> simp [exceedsRatio_eq_false]
  simp only [chargeDeclared, bind_eq_ok, unit_exists_ok, refuse_eq_ok, decide_eq_false_iff_not,
    gt_iff_lt, UInt64.not_lt, stored, Except.ok.injEq]

/-- The bytes declared once `header` is charged; a directory declares none. -/
def declaredAfter (declared : UInt64) (header : EntryHeader) : UInt64 :=
  if header.kind = .directory then declared else saturatingAdd declared header.size

/-- The guard after an entry of kind `kind` at `path` was admitted. -/
def ArchiveGuard.after (guard : ArchiveGuard) (header : EntryHeader) (claims : Claims) :
    ArchiveGuard :=
  { guard with
    claims
    summary :=
      { guard.summary with
        entries := saturatingAdd guard.summary.entries 1
        declaredBytes := declaredAfter guard.summary.declaredBytes header
        files := guard.summary.files + if header.kind = .directory then 0 else 1
        directories := guard.summary.directories + if header.kind = .directory then 1 else 0 } }

/-- What an admitted header is handed out as. -/
def admittedAs (position : UInt64) (header : EntryHeader) (path : String) : AdmittedEntry :=
  if header.kind = .directory then .directory { position, path := ⟨path⟩ }
  else .file { position, path := ⟨path⟩, size := header.size }

/-- Everything an admitted header passed, and what admitting it did. -/
theorem admitEntry_eq_ok :
    guard.admitEntry header = .ok (admitted, next) ↔
      saturatingAdd guard.summary.entries 1 ≤ guard.limits.maxEntries ∧
      ∃ path kind claims, Names guard.limits header path ∧ header.kind.claim = .ok kind ∧
        (header.kind = .directory → header.hasData = false) ∧
        (header.kind ≠ .directory →
          ∃ total, chargeDeclared guard.limits guard.summary.declaredBytes header = .ok total) ∧
        claim guard.claims ⟨path⟩ kind (saturatingAdd guard.summary.entries 1) = .ok claims ∧
        admitted = admittedAs (saturatingAdd guard.summary.entries 1) header path ∧
        next = guard.after header claims := by
  simp only [admitEntry, bind_eq_ok, unit_exists_ok, refuse_eq_ok, mapError_eq_ok,
    decide_eq_false_iff_not, gt_iff_lt, UInt64.not_lt]
  refine and_congr Iff.rfl ?_
  by_cases directory : header.kind = .directory
  · have isDirectory : (header.kind == .directory) = true := beq_iff_eq.mpr directory
    simp only [isDirectory, if_true, bind_eq_ok, unit_exists_ok, refuse_eq_ok, Except.ok.injEq,
      Prod.mk.injEq]
    constructor
    · rintro ⟨⟨path⟩, named, kind, kinds, empty, claims, claimed, rfl, rfl⟩
      refine ⟨path, kind, claims, admitName_eq_ok.mp (isDirectory ▸ named), kinds, fun _ => empty,
        fun other => absurd directory other, claimed, ?_, ?_⟩
      · simp [admittedAs, directory]
      · simp [ArchiveGuard.after, declaredAfter, directory]
    · rintro ⟨path, kind, claims, named, kinds, empty, -, claimed, rfl, rfl⟩
      refine ⟨⟨path⟩, isDirectory ▸ admitName_eq_ok.mpr named, kind, kinds, empty directory, claims,
        claimed, ?_, ?_⟩
      · simp [admittedAs, directory]
      · simp [ArchiveGuard.after, declaredAfter, directory]
  · have isFile : (header.kind == .directory) = false := beq_eq_false_iff_ne.mpr directory
    simp only [isFile, Bool.false_eq_true, if_false, bind_eq_ok, mapError_eq_ok, Except.ok.injEq,
      Prod.mk.injEq]
    constructor
    · rintro ⟨⟨path⟩, named, kind, kinds, total, charged, claims, claimed, rfl, rfl⟩
      refine ⟨path, kind, claims, admitName_eq_ok.mp (isFile ▸ named), kinds,
        fun other => absurd other directory, fun _ => ⟨total, charged⟩, claimed, ?_, ?_⟩
      · simp [admittedAs, directory]
      · simp [ArchiveGuard.after, declaredAfter, directory, (chargeDeclared_eq_ok.mp charged).2.2.2]
    · rintro ⟨path, kind, claims, named, kinds, -, charges, claimed, rfl, rfl⟩
      obtain ⟨total, charged⟩ := charges directory
      refine ⟨⟨path⟩, isFile ▸ admitName_eq_ok.mpr named, kind, kinds, total, charged, claims,
        claimed, ?_, ?_⟩
      · simp [admittedAs, directory]
      · simp [ArchiveGuard.after, declaredAfter, directory, (chargeDeclared_eq_ok.mp charged).2.2.2]

/-- The guard has admitted exactly `entries`. -/
structure Tracks (limits : ArchiveLimits) (entries : List (EntryHeader × String))
    (guard : ArchiveGuard) : Prop where
  portable : PortableSet limits entries
  limited : guard.limits = limits
  unrefused : guard.refused = none
  counted : guard.summary.entries.toNat = min entries.length u64Max
  declared : guard.summary.declaredBytes.toNat =
    min (entries.map fun entry => entry.1.size.toNat).sum u64Max
  registers : Registers guard.claims entries

theorem Tracks.new (limits : ArchiveLimits) (compression : Compression) :
    Tracks limits [] (.new limits compression) where
  portable :=
    { distinct := nodup_nil
      folded := fun _ _ used => by simp [Uses] at used
      files := by simp
      count := by simp
      names := by simp
      kinds := by simp
      sizes := by simp
      ratio := by simp
      total := by simp }
  limited := rfl
  unrefused := rfl
  counted := rfl
  declared := rfl
  registers := ⟨by simp [Uses], nofun, nofun⟩

theorem hasData_eq_false (empty : header.hasData = false) : header.size = 0 := by
  simp only [EntryHeader.hasData, Bool.or_eq_false_iff, bne_eq_false_iff_eq] at empty
  exact empty.1

/-- What one more entry adds to a portable set. -/
structure Fits (limits : ArchiveLimits) (entries : List (EntryHeader × String))
    (entry : EntryHeader × String) : Prop where
  compatible : Compatible (entries ++ [entry])
  count : min (entries.length + 1) u64Max ≤ limits.maxEntries.toNat
  names : Names limits entry.1 entry.2
  kind : entry.1.kind = .file ∨ entry.1.kind = .directory ∧ entry.1.hasData = false
  size : entry.1.size ≤ limits.maxEntryBytes
  ratio : ∀ stored, entry.1.storedSize = some stored → entry.1.size ≤ limits.ratioFloorBytes ∨
    entry.1.size.toNat ≤ stored.toNat * limits.maxExpansionRatio.toNat
  total : min ((entries.map fun entry => entry.1.size.toNat).sum + entry.1.size.toNat) u64Max ≤
    limits.maxTotalBytes.toNat

theorem portableSet_snoc {entry : EntryHeader × String} :
    PortableSet limits (entries ++ [entry]) ↔
      PortableSet limits entries ∧ Fits limits entries entry := by
  constructor
  · rintro ⟨compatible, count, names, kinds, sizes, ratio, total⟩
    simp only [forall_mem_append, forall_mem_singleton, map_append, sum_append,
      map_singleton, sum_singleton, length_append, length_singleton] at *
    refine ⟨⟨compatible.init, by omega, names.1, kinds.1, sizes.1, ratio.1, by omega⟩,
      ⟨compatible, count, names.2, kinds.2, sizes.2, ratio.2, total⟩⟩
  · rintro ⟨⟨-, -, names, kinds, sizes, ratio, -⟩, fits⟩
    refine ⟨fits.compatible, ?_, ?_, ?_, ?_, ?_, ?_⟩
    · simpa using fits.count
    · exact List.forall_mem_append.mpr ⟨names, by simpa using fits.names⟩
    · exact List.forall_mem_append.mpr ⟨kinds, by simpa using fits.kind⟩
    · exact List.forall_mem_append.mpr ⟨sizes, by simpa using fits.size⟩
    · exact List.forall_mem_append.mpr ⟨ratio, by simpa using fits.ratio⟩
    · simpa using fits.total

namespace Tracks

variable (tracks : Tracks limits entries guard)

include tracks

theorem position : saturatingAdd guard.summary.entries 1 ≤ limits.maxEntries ↔
      min (entries.length + 1) u64Max ≤ limits.maxEntries.toNat := by
  rw [UInt64.le_iff_toNat_le, saturatingAdd_toNat, tracks.counted]
  have : (1 : UInt64).toNat = 1 := rfl
  omega

theorem charge : (saturatingAdd guard.summary.declaredBytes header.size).toNat =
      min ((entries.map fun entry => entry.1.size.toNat).sum + header.size.toNat) u64Max := by
  rw [saturatingAdd_toNat, tracks.declared]
  omega

/-- A header the guard admits fits, and the guard goes on tracking. -/
theorem admits (taken : guard.admitEntry header = .ok (admitted, next)) :
    ∃ path, Tracks limits (entries ++ [(header, path)]) next := by
  obtain ⟨within, path, kind, claims, names, kinds, empty, charges, claimed, -, rfl⟩ :=
    admitEntry_eq_ok.mp taken
  rw [tracks.limited] at within names charges
  obtain ⟨listed, file, directory⟩ := claim_listed kinds
  have isKind : header.kind = .file ∨ header.kind = .directory := by
    cases kind with
    | file => exact .inl (file.mp rfl)
    | directory => exact .inr (directory.mp rfl)
    | parent => exact absurd rfl listed
  have claimable := (claim_eq_ok names.portable listed).mp ⟨claims, claimed⟩
  have compatible : Compatible (entries ++ [(header, path)]) :=
    compatible_snoc kinds tracks.registers tracks.portable.toCompatible claimable
  have registers : Registers claims (entries ++ [(header, path)]) :=
    registers_snoc names.portable kinds tracks.registers claimed
  have sized : header.size ≤ limits.maxEntryBytes ∧
      (∀ stored, header.storedSize = some stored → header.size ≤ limits.ratioFloorBytes ∨
        header.size.toNat ≤ stored.toNat * limits.maxExpansionRatio.toNat) ∧
      (declaredAfter guard.summary.declaredBytes header).toNat =
        min ((entries.map fun entry => entry.1.size.toNat).sum + header.size.toNat) u64Max ∧
      declaredAfter guard.summary.declaredBytes header ≤ limits.maxTotalBytes := by
    by_cases isDirectory : header.kind = .directory
    · have zero := hasData_eq_false (empty isDirectory)
      rw [declaredAfter, if_pos isDirectory, zero, tracks.declared]
      refine ⟨UInt64.zero_le, fun _ _ => .inl UInt64.zero_le, by simp, ?_⟩
      rw [UInt64.le_iff_toNat_le, tracks.declared]
      exact tracks.portable.total
    · obtain ⟨total, charged⟩ := charges isDirectory
      obtain ⟨size, ratio, bounded, -⟩ := chargeDeclared_eq_ok.mp charged
      rw [declaredAfter, if_neg isDirectory]
      exact ⟨size, ratio, tracks.charge, bounded⟩
  obtain ⟨size, ratio, declared, total⟩ := sized
  refine ⟨path, ?_⟩
  exact
    { portable := portableSet_snoc.mpr ⟨tracks.portable, compatible, tracks.position.mp within, names,
        isKind.imp_right fun isDirectory => ⟨isDirectory, empty isDirectory⟩, size, ratio,
        declared ▸ UInt64.le_iff_toNat_le.mp total⟩
      limited := tracks.limited
      unrefused := tracks.unrefused
      counted := by
        have one : (1 : UInt64).toNat = 1 := rfl
        rw [ArchiveGuard.after, saturatingAdd_toNat, tracks.counted, length_append,
          length_singleton]
        omega
      declared := by
        rw [ArchiveGuard.after, declared]
        simp
      registers := registers }

theorem admits_of_fits {path : String} (fits : Fits limits entries (header, path)) :
    ∃ admitted next, guard.admitEntry header = .ok (admitted, next) := by
  obtain ⟨kind, kinds⟩ : ∃ kind, header.kind.claim = .ok kind := by
    rcases fits.kind with file | ⟨directory, -⟩
    · exact ⟨.file, by rw [show header.kind = .file from file]; rfl⟩
    · exact ⟨.directory, by rw [show header.kind = .directory from directory]; rfl⟩
  have claimable : Claimable guard.claims path kind :=
    claimable_of_compatible kinds tracks.registers fits.compatible
  obtain ⟨claims, claimed⟩ := (claim_eq_ok fits.names.portable (claim_listed kinds).1).mpr claimable
  refine ⟨_, _, admitEntry_eq_ok.mpr ⟨?_, path, kind, claims, ?_, kinds, ?_, ?_, claimed, rfl, rfl⟩⟩
  · rw [tracks.limited]
    exact tracks.position.mpr fits.count
  · rw [tracks.limited]
    exact fits.names
  · intro directory
    rcases fits.kind with file | ⟨-, empty⟩
    · exact absurd (directory.symm.trans file) (by simp)
    · exact empty
  · intro _
    rw [tracks.limited]
    refine ⟨_, chargeDeclared_eq_ok.mpr ⟨fits.size, fits.ratio, ?_, rfl⟩⟩
    rw [UInt64.le_iff_toNat_le, tracks.charge]
    exact fits.total

end Tracks

end Steps

section Sequences

variable {limits : ArchiveLimits} {compression : Compression} {guard : ArchiveGuard}
  {header : EntryHeader} {headers : List EntryHeader}

/-- The guard after it admitted one more header. -/
def ArchiveGuard.admitNext (guard : ArchiveGuard) (header : EntryHeader) :
    Except ArchiveRefusal ArchiveGuard :=
  match guard.admit_ header with
  | (.ok _, next) => .ok next
  | (.error refusal, _) => .error refusal

/-- Admits headers one after another, until one is refused. -/
def ArchiveGuard.admitAll (guard : ArchiveGuard) (headers : List EntryHeader) :
    Except ArchiveRefusal ArchiveGuard :=
  headers.foldlM admitNext guard

/-- The guard admits the whole sequence. -/
def Admits (limits : ArchiveLimits) (compression : Compression)
    (headers : List EntryHeader) : Prop :=
  ∃ guard, (ArchiveGuard.new limits compression).admitAll headers = .ok guard

theorem admitNext_eq_ok {next : ArchiveGuard} (unrefused : guard.refused = none) :
    guard.admitNext header = .ok next ↔ ∃ admitted, guard.admitEntry header = .ok (admitted, next) := by
  rw [admitNext, admit_, unrefused]
  cases guard.admitEntry header with
  | error refusal => simp [record]
  | ok taken =>
    rcases taken with ⟨admitted, reached⟩
    simp [record]

theorem admitAll_snoc {final : ArchiveGuard} :
    guard.admitAll (headers ++ [header]) = .ok final ↔
      ∃ reached, guard.admitAll headers = .ok reached ∧ reached.admitNext header = .ok final := by
  simp [admitAll]

theorem admitAll_tracks
    (admitted : (ArchiveGuard.new limits compression).admitAll headers = .ok guard) :
    ∃ entries, entries.map Prod.fst = headers ∧ Tracks limits entries guard := by
  induction headers using List.reverseRecOn generalizing guard with
  | nil =>
    obtain rfl : ArchiveGuard.new limits compression = guard := Except.ok.inj admitted
    exact ⟨[], rfl, .new limits compression⟩
  | append_singleton headers header ih =>
    obtain ⟨reached, before, taken⟩ := admitAll_snoc.mp admitted
    obtain ⟨entries, rfl, tracks⟩ := ih before
    obtain ⟨entry, taken⟩ := (admitNext_eq_ok tracks.unrefused).mp taken
    obtain ⟨path, tracks⟩ := tracks.admits taken
    exact ⟨entries ++ [(header, path)], by simp, tracks⟩

theorem admitAll_of_portable {entries : List (EntryHeader × String)}
    (portable : PortableSet limits entries) :
    ∃ guard, (ArchiveGuard.new limits compression).admitAll (entries.map Prod.fst) = .ok guard ∧
      Tracks limits entries guard := by
  induction entries using List.reverseRecOn with
  | nil => exact ⟨_, rfl, .new limits compression⟩
  | append_singleton entries entry ih =>
    obtain ⟨earlier, fits⟩ := portableSet_snoc.mp portable
    obtain ⟨reached, before, tracks⟩ := ih earlier
    obtain ⟨admitted, next, taken⟩ := tracks.admits_of_fits fits
    obtain ⟨path, following⟩ := tracks.admits taken
    refine ⟨next, ?_, ?_⟩
    · rw [map_append]
      exact admitAll_snoc.mpr ⟨reached, before, (admitNext_eq_ok tracks.unrefused).mpr ⟨_, taken⟩⟩
    · have names := following.portable.names _ (mem_append_right _ (mem_singleton_self _))
      obtain rfl : path = entry.2 := names.unique fits.names
      exact following

theorem admits_iff_portable :
    Admits limits compression headers ↔
      ∃ entries, entries.map Prod.fst = headers ∧ PortableSet limits entries := by
  constructor
  · rintro ⟨guard, admitted⟩
    obtain ⟨entries, same, tracks⟩ := admitAll_tracks admitted
    exact ⟨entries, same, tracks.portable⟩
  · rintro ⟨entries, rfl, portable⟩
    obtain ⟨guard, admitted, -⟩ := admitAll_of_portable portable
    exact ⟨guard, admitted⟩

/-- A call on a guard. -/
inductive Call where
  | admit_ (header : EntryHeader)
  | copy (entry : FileEntry) (data : Arrivals) (sink : Sink)

def refusal {α : Type} : Except ArchiveRefusal α → Option ArchiveRefusal
  | .ok _ => none
  | .error refusal => some refusal

namespace ArchiveGuard

/-- The refusal a call is answered with, if any. -/
def answer (guard : ArchiveGuard) : Call → Option ArchiveRefusal
  | .admit_ header => refusal (guard.admit_ header).1
  | .copy entry data sink => refusal (guard.copy entry data sink).1

/-- The guard after a call. -/
def call (guard : ArchiveGuard) : Call → ArchiveGuard
  | .admit_ header => (guard.admit_ header).2
  | .copy entry data sink => (guard.copy entry data sink).2

variable {guard : ArchiveGuard} {problem : ArchiveRefusal}

theorem record_refused {α : Type} {result : Except ArchiveRefusal (α × ArchiveGuard)}
    (refused : refusal (guard.record result).1 = some problem) :
    (guard.record result).2.refused = some problem := by
  cases result with
  | ok taken => cases refused
  | error found => exact refused

theorem call_of_refused (refused : guard.refused = some problem) (call : Call) :
    guard.answer call = some problem ∧ guard.call call = guard := by
  cases call <;> simp [answer, ArchiveGuard.call, admit_, copy, refused, refusal]

/-- A call that is refused leaves its refusal behind. -/
theorem refused_of_answer {call : Call} (answered : guard.answer call = some problem) :
    (guard.call call).refused = some problem := by
  cases earlier : guard.refused with
  | some found =>
    obtain ⟨answer, same⟩ := call_of_refused earlier call
    rw [same, earlier, ← answer, answered]
  | none =>
    cases call with
    | admit_ header =>
      simp only [answer, ArchiveGuard.call, admit_, earlier] at answered ⊢
      exact record_refused answered
    | copy entry data sink =>
      simp only [answer, ArchiveGuard.call, copy, earlier] at answered ⊢
      exact record_refused answered

theorem play_refused (refused : guard.refused = some problem) (calls : List Call) :
    play ArchiveGuard.call guard calls = guard := by
  induction calls with
  | nil => rfl
  | cons call calls ih =>
    rw [play_cons, (call_of_refused refused call).2, ih]

end ArchiveGuard

/-- Admission is the portable-set rule: the guard admits a sequence exactly when it is a
portable set, with counts and sums held at the largest word; so the order does not
matter. The first refusal is the answer to every later call. -/
theorem admission_portable (limits : ArchiveLimits) (compression : Compression) :
    (∀ headers, Admits limits compression headers ↔
      ∃ entries, entries.map Prod.fst = headers ∧ PortableSet limits entries) ∧
    (∀ headers reordered, headers.Perm reordered →
      (Admits limits compression headers ↔ Admits limits compression reordered)) ∧
    ∀ (guard : ArchiveGuard) (call : Call) (problem : ArchiveRefusal),
      guard.answer call = some problem → ∀ (later : List Call) (last : Call),
        (play ArchiveGuard.call (guard.call call) later).answer last = some problem ∧
        (play ArchiveGuard.call (guard.call call) later).finish = .error problem := by
  refine ⟨fun _ => admits_iff_portable, ?_, ?_⟩
  · have reorder : ∀ headers reordered : List EntryHeader, headers.Perm reordered →
        Admits limits compression headers → Admits limits compression reordered := by
      intro headers reordered same admitted
      obtain ⟨entries, rfl, portable⟩ := admits_iff_portable.mp admitted
      obtain ⟨others, spelled, permuted⟩ :
          Relation.Comp (fun left right => left = right.map Prod.fst) List.Perm reordered entries := by
        rw [eq_map_comp_perm]
        exact same.symm
      exact admits_iff_portable.mpr ⟨others, spelled.symm, portable.perm permuted.symm⟩
    exact fun headers reordered same =>
      ⟨reorder headers reordered same, reorder reordered headers same.symm⟩
  · intro guard call problem answered later last
    have refused := refused_of_answer answered
    rw [play_refused refused]
    refine ⟨(call_of_refused refused last).1, ?_⟩
    rw [finish, refused]

/-- Two files that each declare the largest word pass a total bound of the largest word. -/
theorem admission_saturates :
    ∃ (limits : ArchiveLimits) (headers : List EntryHeader), Admits limits .none headers ∧
      limits.maxTotalBytes.toNat < (headers.map fun header => header.size.toNat).sum :=
  ⟨{ maxEntryBytes := saturated u64Max, maxTotalBytes := saturated u64Max },
    [{ name := [97], kind := .file, size := saturated u64Max, storedSize := none },
      { name := [98], kind := .file, size := saturated u64Max, storedSize := none }],
    ⟨_, rfl⟩, by decide⟩

theorem admission_portable_sample :
    Admits {} .none
      [{ name := [97, 47, 98], kind := .file, size := 3, storedSize := none },
        { name := [97, 47], kind := .directory, size := 0, storedSize := none }] :=
  ((admission_portable {} .none).2.1 _ _ (List.Perm.swap _ _ [])).mp ⟨_, rfl⟩

end Sequences

end GreenGateway.Archive
