import GreenGateway.Config.CanonicalJson
import GreenGateway.Foundation.Streams
import GreenGateway.Foundation.Words

/-! Admission of archive entries: names against the portable grammar, paths against the
paths earlier entries use, sizes against their bounds, and data against its declared
size. The first refusal is final. -/

namespace GreenGateway.Archive

open Foundation

/-- Bytes copied per read. -/
def copyChunkBytes : Nat := 16 * 1024

/-- The bounds one archive is read under. -/
structure ArchiveLimits where
  maxEntries : UInt64 := 1024
  maxPathBytes : UInt64 := 255
  maxSegmentBytes : UInt64 := 63
  maxDepth : UInt64 := 8
  maxEntryBytes : UInt64 := 1024 * 1024 * 1024
  maxTotalBytes : UInt64 := 4 * 1024 * 1024 * 1024
  maxExpansionRatio : UInt64 := 100
  ratioFloorBytes : UInt64 := 1024 * 1024
  deriving DecidableEq, Repr

inductive EntryKind where
  | file
  | directory
  | symlink
  | hardLink
  | characterDevice
  | blockDevice
  | fifo
  | socket
  | other
  deriving DecidableEq, Repr

/-- One entry header, as the container records it. -/
structure EntryHeader where
  name : List UInt8
  kind : EntryKind
  size : UInt64
  /-- The compressed size, when the container records one per entry. -/
  storedSize : Option UInt64
  deriving DecidableEq, Repr

inductive ArchiveCode where
  | tooManyEntries
  | nameTooLong
  | pathTooDeep
  | invalidName
  | absolutePath
  | entryOutsideRoot
  | alternateDataStream
  | reservedName
  | duplicateEntry
  | caseFoldCollision
  | pathConflict
  | symlinkEntry
  | hardLinkEntry
  | specialEntry
  | unsupportedEntry
  | directoryHasData
  | entryTooLarge
  | totalTooLarge
  | expansionRatioExceeded
  | declaredSizeExceeded
  | truncated
  | malformed
  | readFailed
  | writeFailed
  deriving DecidableEq, Repr

/-- Why an archive was refused, with the positions of the refused entry and of the
earlier entry it clashes with. -/
structure ArchiveRefusal where
  code : ArchiveCode
  entry : Option UInt64 := none
  conflictsWith : Option UInt64 := none
  deriving DecidableEq, Repr

namespace ArchiveRefusal

/-- A refusal of the archive as a whole. -/
def ofArchive (code : ArchiveCode) : ArchiveRefusal := { code }

/-- A refusal of the entry at `position`. -/
def ofEntry (position : UInt64) (code : ArchiveCode) : ArchiveRefusal :=
  { code, entry := some position }

def conflict (code : ArchiveCode) (position earlier : UInt64) : ArchiveRefusal :=
  { code, entry := some position, conflictsWith := some earlier }

end ArchiveRefusal

/-- An admitted entry name. -/
structure EntryPath where
  text : String
  deriving DecidableEq, Repr

def EntryPath.segments (path : EntryPath) : List String := Text.split '/' path.text

/-- An admitted regular file. -/
structure FileEntry where
  position : UInt64
  path : EntryPath
  size : UInt64
  deriving DecidableEq, Repr

structure DirectoryEntry where
  position : UInt64
  path : EntryPath
  deriving DecidableEq, Repr

inductive AdmittedEntry where
  | file (entry : FileEntry)
  | directory (entry : DirectoryEntry)
  deriving DecidableEq, Repr

structure ArchiveSummary where
  entries : UInt64 := 0
  files : Nat := 0
  directories : Nat := 0
  declaredBytes : UInt64 := 0
  copiedBytes : UInt64 := 0
  deriving DecidableEq, Repr

section Names

/-- `str::from_utf8`. -/
def fromUtf8? (bytes : List UInt8) : Option String := String.fromUTF8? bytes.toByteArray

/-- `C:`, `c:x`, `C:\x`: a drive-absolute or drive-relative Windows path. -/
def hasDrivePrefix (name : String) : Bool :=
  match name.toList with
  | letter :: ':' :: _ => letter.isAlpha
  | _ => false

/-- `^[A-Za-z0-9][A-Za-z0-9._-]*$`, not ending in `.`. -/
def isPortableSegment (segment : String) : Bool :=
  segment.toList.head?.any Char.isAlphanum &&
    segment.toList.all (fun char => char.isAlphanum || ['.', '_', '-'].contains char) &&
    !Text.endsWith segment "."

/-- Windows resolves these names to devices in any case and with any extension. -/
def isWindowsDeviceName (segment : String) : Bool :=
  let stem := segment.toList.takeWhile (· != '.')
  match stem.map Char.toLower with
  | ['c', 'o', 'n'] | ['p', 'r', 'n'] | ['a', 'u', 'x'] | ['n', 'u', 'l'] => true
  | ['c', 'o', 'm', digit] | ['l', 'p', 't', digit] => digit.isDigit
  | _ => false

def admitSegment (limits : ArchiveLimits) (segment : String) : Except ArchiveCode Unit := do
  refuse (decide (Text.len segment > limits.maxSegmentBytes.toNat)) .nameTooLong
  refuse (isWindowsDeviceName segment) .reservedName
  refuse (!isPortableSegment segment) .invalidName

/-- An entry name against the portable grammar, the most specific reason first. -/
def admitName (name : List UInt8) (directory : Bool) (limits : ArchiveLimits) :
    Except ArchiveCode EntryPath := do
  refuse (decide (name.length > limits.maxPathBytes.toNat)) .nameTooLong
  let name ← okOr (fromUtf8? name) .invalidName
  -- tar and zip both write a directory's name with one trailing `/`
  let name := if directory then (Text.stripBack? name "/").getD name else name
  refuse name.isEmpty .invalidName
  refuse (Text.startsWith name "/" || Text.startsWith name "\\" || hasDrivePrefix name) .absolutePath
  -- both separators, because Windows honours both
  refuse ((name.toList.splitOnP fun char => char == '/' || char == '\\').any (· == ['.', '.']))
    .entryOutsideRoot
  refuse (name.toList.contains ':') .alternateDataStream
  refuse (decide ((Text.split '/' name).length > limits.maxDepth.toNat)) .pathTooDeep
  (Text.split '/' name).forM (admitSegment limits)
  .ok ⟨name⟩

end Names

section Claims

inductive ClaimKind where
  | file
  | directory
  /-- A directory only named as the parent of another entry. -/
  | parent
  deriving DecidableEq, Repr

/-- A path some entry already uses. -/
structure Claim where
  exact : String
  kind : ClaimKind
  position : UInt64
  deriving DecidableEq, Repr

/-- The claims, by the case fold of their paths; the first one found under a key holds. -/
abbrev Claims := List (String × Claim)

/-- The paths `&path[..end]` that the loop over the segments from `stop` on visits. A
path is ASCII, so its bytes are its characters. -/
def parentsFrom (path : List Char) (stop : Nat) : List (List Char) → List String
  | [] => []
  | segment :: rest =>
    if stop > 0 then
      String.ofList (path.take stop) :: parentsFrom path (stop + 1 + segment.length) rest
    else parentsFrom path segment.length rest

def EntryPath.parents (path : EntryPath) : List String :=
  parentsFrom path.text.toList 0 (path.segments.map String.toList)

/-- Takes in one parent: it is new, or an earlier entry uses it as a directory. -/
def claimParent (claims : Claims) (position : UInt64) (parents : List (String × String))
    (parent : String) : Except ArchiveRefusal (List (String × String)) :=
  let key := Text.toAsciiLowercase parent
  match claims.lookup key with
  | none => .ok (parents ++ [(key, parent)])
  | some earlier => do
    refuse (earlier.exact != parent)
      (.conflict .caseFoldCollision position earlier.position)
    refuse (earlier.kind == .file) (.conflict .pathConflict position earlier.position)
    .ok parents

/-- Takes in the path itself: it is new, or a directory listed after the entries inside
it. -/
def claimOwn (claims : Claims) (path : String) (kind : ClaimKind) (position : UInt64) :
    Except ArchiveRefusal Claims :=
  let key := Text.toAsciiLowercase path
  match claims.lookup key with
  | none => .ok ((key, { exact := path, kind, position }) :: claims)
  | some earlier => do
    refuse (earlier.exact != path) (.conflict .caseFoldCollision position earlier.position)
    if earlier.kind == .parent && kind == .directory then
      .ok ((key, { earlier with kind := .directory, position }) :: claims)
    else do
      refuse (earlier.kind == kind) (.conflict .duplicateEntry position earlier.position)
      .error (.conflict .pathConflict position earlier.position)

/-- Claims `path` and its parents, refusing any path an earlier entry already uses
differently. -/
def claim (claims : Claims) (path : EntryPath) (kind : ClaimKind) (position : UInt64) :
    Except ArchiveRefusal Claims := do
  let parents ← path.parents.foldlM (claimParent claims position) []
  let claims ← claimOwn claims path.text kind position
  .ok (parents.foldl (fun claims entry =>
    (entry.1, { exact := entry.2, kind := .parent, position }) :: claims) claims)

end Claims

section Guard

/-- Whether, and how, the data is compressed. A metered container counts the compressed
bytes read by the time a number of decompressed ones has been copied. -/
inductive Compression where
  | none
  | metered (counter : UInt64 → UInt64)

/-- The guard of one archive. -/
structure ArchiveGuard where
  limits : ArchiveLimits
  compression : Compression
  claims : Claims := []
  summary : ArchiveSummary := {}
  refused : Option ArchiveRefusal := none

def ArchiveGuard.new (limits : ArchiveLimits) (compression : Compression) : ArchiveGuard :=
  { limits, compression }

def exceedsRatio (decompressed compressed : UInt64) (limits : ArchiveLimits) : Bool :=
  decide (decompressed > limits.ratioFloorBytes) &&
    decide (decompressed > saturatingMul compressed limits.maxExpansionRatio)

/-- The total declared once `header` is charged. -/
def chargeDeclared (limits : ArchiveLimits) (declared : UInt64) (header : EntryHeader) :
    Except ArchiveCode UInt64 := do
  refuse (decide (header.size > limits.maxEntryBytes)) .entryTooLarge
  refuse (header.storedSize.any fun stored => exceedsRatio header.size stored limits)
    .expansionRatioExceeded
  let total := saturatingAdd declared header.size
  refuse (decide (total > limits.maxTotalBytes)) .totalTooLarge
  .ok total

/-- The claim an entry of a kind makes; any other kind is refused. -/
def EntryKind.claim : EntryKind → Except ArchiveCode ClaimKind
  | .file => .ok .file
  | .directory => .ok .directory
  | .symlink => .error .symlinkEntry
  | .hardLink => .error .hardLinkEntry
  | .characterDevice | .blockDevice | .fifo | .socket => .error .specialEntry
  | .other => .error .unsupportedEntry

/-- Whether a header declares data, as a directory's may not. -/
def EntryHeader.hasData (header : EntryHeader) : Bool :=
  header.size != 0 || header.storedSize.any (· != 0)

namespace ArchiveGuard

def admitEntry (guard : ArchiveGuard) (header : EntryHeader) :
    Except ArchiveRefusal (AdmittedEntry × ArchiveGuard) := do
  let position := saturatingAdd guard.summary.entries 1
  refuse (decide (position > guard.limits.maxEntries)) (.ofEntry position .tooManyEntries)
  let directory := header.kind == .directory
  let path ← (admitName header.name directory guard.limits).mapError (.ofEntry position)
  let kind ← header.kind.claim.mapError (.ofEntry position)
  if directory then do
    refuse header.hasData (.ofEntry position .directoryHasData)
    let claims ← claim guard.claims path kind position
    let summary := { guard.summary with
      entries := position, directories := guard.summary.directories + 1 }
    .ok (.directory { position, path }, { guard with claims, summary })
  else do
    let declaredBytes ← (chargeDeclared guard.limits guard.summary.declaredBytes header).mapError
      (.ofEntry position)
    let claims ← claim guard.claims path kind position
    let summary := { guard.summary with
      entries := position, declaredBytes, files := guard.summary.files + 1 }
    .ok (.file { position, path, size := header.size }, { guard with claims, summary })

/-- Keeps a refusal for every later call. -/
def record {α : Type} (guard : ArchiveGuard) (result : Except ArchiveRefusal (α × ArchiveGuard)) :
    Except ArchiveRefusal α × ArchiveGuard :=
  match result with
  | .ok (value, next) => (.ok value, next)
  | .error refusal => (.error refusal, { guard with refused := some refusal })

/-- Admits the next entry, before any of its data is read. -/
def admit_ (guard : ArchiveGuard) (header : EntryHeader) :
    Except ArchiveRefusal AdmittedEntry × ArchiveGuard :=
  match guard.refused with
  | some refusal => (.error refusal, guard)
  | none => guard.record (guard.admitEntry header)

/-- How far a copy has come. -/
structure Copying where
  copied : UInt64 := 0
  /-- The archive's copied bytes. -/
  total : UInt64
  sink : Sink

/-- The bytes wanted next: at most one past the declared size, which is enough to see an
overrun without reading any further. -/
def Copying.wanted (entry : FileEntry) (copying : Copying) : Nat :=
  min (saturatingAdd (saturatingSub entry.size copying.copied) 1).toNat copyChunkBytes

/-- Whether copied bytes exceed the expansion ratio. -/
def overexpands (guard : ArchiveGuard) (total : UInt64) : Bool :=
  match guard.compression with
  | .none => false
  | .metered counter => exceedsRatio total (counter total) guard.limits

/-- Takes in one piece of data. -/
def Copying.step (guard : ArchiveGuard) (entry : FileEntry) (copying : Copying)
    (bytes : List UInt8) : Except ArchiveCode Copying := do
  let copied := saturatingAdd copying.copied (saturated bytes.length)
  refuse (decide (copied > entry.size)) .declaredSizeExceeded
  let total := saturatingAdd copying.total (saturated bytes.length)
  refuse (guard.overexpands total) .expansionRatioExceeded
  let sink ← okOr (copying.sink.writeAll bytes) .writeFailed
  .ok { copied, total, sink }

/-- The refusal a failed read gives. -/
def readCode : ErrorKind → ArchiveCode
  | .unexpectedEof => .truncated
  | _ => .readFailed

/-- Copies an admitted file's data from `data` to `sink`: exactly the declared length,
and within the expansion ratio. -/
def copyData {ρ : Type} [Reader ρ] (guard : ArchiveGuard) (entry : FileEntry) (data : ρ)
    (sink : Sink) : Except ArchiveCode ((UInt64 × ρ × Sink) × ArchiveGuard) := do
  let (copying, data) ← consume (Copying.wanted entry) (Copying.step guard entry) readCode
    { total := guard.summary.copiedBytes, sink } data
  refuse (decide (copying.copied < entry.size)) .truncated
  let sink ← okOr copying.sink.flush .writeFailed
  .ok ((copying.copied, data, sink),
    { guard with summary := { guard.summary with copiedBytes := copying.total } })

def copy {ρ : Type} [Reader ρ] (guard : ArchiveGuard) (entry : FileEntry) (data : ρ)
    (sink : Sink) : Except ArchiveRefusal (UInt64 × ρ × Sink) × ArchiveGuard :=
  match guard.refused with
  | some refusal => (.error refusal, guard)
  | none =>
    guard.record ((guard.copyData entry data sink).mapError (.ofEntry entry.position))

/-- The summary, or the refusal that ended the archive early. -/
def finish (guard : ArchiveGuard) : Except ArchiveRefusal ArchiveSummary :=
  match guard.refused with
  | some refusal => .error refusal
  | none => .ok guard.summary

end ArchiveGuard

end Guard

end GreenGateway.Archive
