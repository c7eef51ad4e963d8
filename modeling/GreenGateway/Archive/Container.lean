import GreenGateway.Archive.Guard

/-! The backup archive's container, written and read as a stream: a preamble, framed
records, and an end record with the digest of every byte before it. -/

namespace GreenGateway.Archive

open Foundation Config

/-- `GGBACKUP`. -/
def magic : List UInt8 := [71, 71, 66, 65, 67, 75, 85, 80]
/-- `PGDMP`. -/
def postgresDumpMagic : List UInt8 := [80, 71, 68, 77, 80]
def formatVersion : Nat := 1
def flags : Nat := 0
def endKind : UInt8 := 0
def fileKind : UInt8 := 1
def endBytes : UInt64 := 1 + 4 + 32
def chunkBytes : Nat := 64 * 1024

/-- The guard's entry kind for a record's kind byte. -/
def entryKind (byte : UInt8) : EntryKind :=
  if byte = fileKind then .file
  else if byte = 2 then .directory
  else if byte = 3 then .symlink
  else if byte = 4 then .hardLink
  else if byte = 5 then .characterDevice
  else if byte = 6 then .blockDevice
  else if byte = 7 then .fifo
  else if byte = 8 then .socket
  else .other

section Writing

/-- A writer, with every byte hashed on its way to the sink. -/
structure ContainerWriter where
  sink : Sink
  hashed : List UInt8 := []
  records : Nat := 0
  deriving DecidableEq, Repr

namespace ContainerWriter

def writeAll (writer : ContainerWriter)
    (bytes : List UInt8) : Except ErrorKind ContainerWriter := do
  let sink ← okOr (writer.sink.writeAll bytes) .other
  .ok { writer with sink, hashed := writer.hashed ++ bytes }

/-- Starts an archive by writing its preamble. -/
def new (sink : Sink) : Except ErrorKind ContainerWriter := do
  let writer ← writeAll { sink } magic
  let writer ← writer.writeAll (bigEndian 2 formatVersion)
  writer.writeAll (bigEndian 2 flags)

/-- How far a file's data has been written. -/
structure Writing where
  writer : ContainerWriter
  remaining : Nat
  content : List UInt8 := []

def Writing.step (writing : Writing) (bytes : List UInt8) : Except ErrorKind Writing := do
  let writer ← writing.writer.writeAll bytes
  .ok { writer, remaining := writing.remaining - bytes.length, content := writing.content ++ bytes }

variable [Codecs] {ρ : Type} [Reader ρ]

/-- Appends a regular file of exactly `size` bytes read from `data`, and returns the
digest of those bytes. -/
def file (writer : ContainerWriter) (name : String) (size : UInt64) (data : ρ) :
    Except ErrorKind (List UInt8 × ContainerWriter) := do
  refuse (decide (Text.len name ≥ 2 ^ 16)) .invalidInput
  refuse (decide (writer.records + 1 ≥ 2 ^ 32)) .invalidInput
  let writer := { writer with records := writer.records + 1 }
  let writer ← writer.writeAll [fileKind]
  let writer ← writer.writeAll (bigEndian 2 (Text.len name))
  let writer ← writer.writeAll (utf8 name)
  let writer ← writer.writeAll (bigEndian 8 size.toNat)
  let (writing, data) ← consume (fun writing : Writing => min writing.remaining chunkBytes)
    Writing.step id { writer, remaining := size.toNat } data
  refuse (decide (writing.remaining > 0)) .unexpectedEof
  -- the source must end where its size said it would
  let _ ← consume (fun _ : Unit => 1) (fun _ _ => .error .invalidData) id () data
  .ok (Codecs.sha256 writing.content, writing.writer)

/-- Ends the archive with its end record and returns the sink, flushed. -/
def finish (writer : ContainerWriter) : Except ErrorKind Sink := do
  let writer ← writer.writeAll [endKind]
  let writer ← writer.writeAll (bigEndian 4 writer.records)
  let sink ← okOr (writer.sink.writeAll (Codecs.sha256 writer.hashed)) .other
  okOr sink.flush .other

end ContainerWriter

end Writing

section Reading

inductive ContainerError where
  | refused (refusal : ArchiveRefusal)
  | notABackup
  | postgresDump
  | unsupportedVersion
  | digestMismatch
  deriving DecidableEq, Repr

/-- A source whose every byte is hashed and counted as it is read. -/
structure HashingReader (ρ : Type) where
  inner : ρ
  hashed : List UInt8
  consumed : UInt64
  counted : consumed = saturated hashed.length

namespace HashingReader

variable {ρ : Type} [Reader ρ]

omit [Reader ρ] in
def new (inner : ρ) : HashingReader ρ :=
  { inner, hashed := [], consumed := 0, counted := rfl }

/-- The reader after a piece was read. -/
def log (source : HashingReader ρ) (inner : ρ) (bytes : List UInt8) : HashingReader ρ where
  inner
  hashed := source.hashed ++ bytes
  consumed := saturatingAdd source.consumed (saturated bytes.length)
  counted := by
    apply UInt64.toNat_inj.mp
    simp only [source.counted, saturatingAdd_toNat, saturated_toNat, List.length_append]
    omega

def read (wanted : Nat) (source : HashingReader ρ) :
    Except ErrorKind (List UInt8) × HashingReader ρ :=
  match Reader.read wanted source.inner with
  | (.ok bytes, inner) => (.ok bytes, source.log inner bytes)
  | (.error kind, inner) => (.error kind, { source with inner })

theorem read_cases {wanted : Nat} {source next : HashingReader ρ}
    {outcome : Except ErrorKind (List UInt8)} (taken : source.read wanted = (outcome, next)) :
    ∃ inner, Reader.read wanted source.inner = (outcome, inner) ∧ next.inner = inner ∧
      next.hashed = source.hashed ++ piece outcome := by
  unfold read at taken
  split at taken
  · next bytes inner got =>
    obtain ⟨rfl, rfl⟩ := Prod.mk.inj taken
    exact ⟨inner, got, rfl, rfl⟩
  · next kind inner failed =>
    obtain ⟨rfl, rfl⟩ := Prod.mk.inj taken
    exact ⟨inner, failed, rfl, by simp [piece]⟩

instance : Reader (HashingReader ρ) where
  read wanted source := source.read wanted
  contents source := Reader.contents source.inner
  Steady source := Reader.Steady source.inner
  weight source := Reader.weight source.inner
  piece taken := by
    obtain ⟨_, got, rfl, -⟩ := read_cases taken
    exact Reader.piece got
  ended positive taken := by
    obtain ⟨_, got, -, -⟩ := read_cases taken
    exact Reader.ended positive got
  unread taken := by
    obtain ⟨_, failed, rfl, -⟩ := read_cases taken
    exact Reader.unread failed
  lighter taken nonempty := by
    obtain ⟨_, got, rfl, -⟩ := read_cases taken
    exact Reader.lighter got nonempty
  steady calm taken := by
    obtain ⟨_, got, rfl, -⟩ := read_cases taken
    exact Reader.steady calm got

end HashingReader

/-- Fills a buffer of `count` bytes as far as the source holds them. -/
def readUpTo {ρ : Type} [Reader ρ] (count : Nat) (source : ρ) :
    Except ArchiveRefusal (List UInt8 × ρ) :=
  consume (fun filled => count - filled.length) (fun filled bytes => .ok (filled ++ bytes))
    (fun _ => .ofArchive .readFailed) [] source

/-- Reads one archive, entry by entry, through the guard. -/
structure ContainerReader (ρ : Type) where
  source : HashingReader ρ
  guard : ArchiveGuard
  /-- The archive's length as the caller found it on disk. -/
  length : UInt64
  records : Nat := 0
  /-- A file whose data has not been read yet. -/
  unread : Bool := false
  ended : Bool := false

namespace ContainerReader

variable {ρ : Type} [Reader ρ]

def readExact (count : Nat) (reader : ContainerReader ρ) :
    Except ContainerError (List UInt8 × ContainerReader ρ) := do
  let (bytes, source) ← (readUpTo count reader.source).mapError .refused
  refuse (decide (bytes.length < count)) (.refused (.ofArchive .truncated))
  .ok (bytes, { reader with source })

/-- `read_u8`, `read_u16`, `read_u32` and `read_u64`, by their width. -/
def readNumber (width : Nat) (reader : ContainerReader ρ) :
    Except ContainerError (Nat × ContainerReader ρ) := do
  let (bytes, reader) ← reader.readExact width
  .ok (fromBigEndian bytes, reader)

/-- Reads and checks the preamble of the `length`-byte archive in `source`. -/
def openArchive (source : ρ) (length : UInt64) (limits : ArchiveLimits) :
    Except ContainerError (ContainerReader ρ) := do
  let (start, source) ← (readUpTo magic.length (HashingReader.new source)).mapError .refused
  refuse (start != magic.take start.length)
    (if postgresDumpMagic.isPrefixOf start then .postgresDump else .notABackup)
  refuse (decide (start.length < magic.length)) (.refused (.ofArchive .truncated))
  let reader : ContainerReader ρ := { source, guard := .new limits .none, length }
  let (version, reader) ← reader.readNumber 2
  refuse (version != formatVersion) .unsupportedVersion
  let (flagBits, reader) ← reader.readNumber 2
  refuse (flagBits != flags) (.refused (.ofArchive .malformed))
  .ok reader

variable [Codecs]

/-- Checks the end record, and that nothing follows it. -/
def end_ (reader : ContainerReader ρ) : Except ContainerError (ContainerReader ρ) := do
  let (records, reader) ← reader.readNumber 4
  refuse (records != reader.records) (.refused (.ofArchive .malformed))
  let expected := Codecs.sha256 reader.source.hashed
  let (digest, reader) ← reader.readExact 32
  refuse (digest != expected) .digestMismatch
  let (extra, source) ← (readUpTo 1 reader.source).mapError .refused
  refuse (extra.length != 0) (.refused (.ofArchive .malformed))
  .ok { reader with source, ended := true }

/-- Whether a file's data fits before the end record. -/
def fits (reader : ContainerReader ρ) (entry : FileEntry) : Bool :=
  decide (entry.size ≤
    saturatingSub (saturatingSub reader.length reader.source.consumed) endBytes)

/-- Hands a record's header to the guard. -/
def admit_ (reader : ContainerReader ρ) (header : EntryHeader) :
    Except ContainerError (AdmittedEntry × ContainerReader ρ) := do
  let (admitted, guard) := reader.guard.admit_ header
  let admitted ← admitted.mapError .refused
  match admitted with
  | .file entry => do
    refuse (!reader.fits entry) (.refused (.ofEntry entry.position .truncated))
    .ok (.file entry, { reader with guard, unread := true })
  | .directory entry => .ok (.directory entry, { reader with guard })

/-- The next entry the guard admitted, or `none` once the end record is read and
checked. -/
def next (reader : ContainerReader ρ) :
    Except ContainerError (Option AdmittedEntry × ContainerReader ρ) := do
  refuse (reader.unread || reader.ended) (.refused (.ofArchive .malformed))
  let (kind, reader) ← reader.readNumber 1
  if UInt8.ofNat kind = endKind then do
    let reader ← reader.end_
    .ok (none, reader)
  else do
    let (nameLength, reader) ← reader.readNumber 2
    let (name, reader) ← reader.readExact nameLength
    let (size, reader) ← reader.readNumber 8
    refuse (decide (reader.records + 1 ≥ 2 ^ 32)) (.refused (.ofArchive .tooManyEntries))
    let (admitted, reader) ← { reader with records := reader.records + 1 }.admit_
      { name, kind := entryKind (UInt8.ofNat kind), size := UInt64.ofNat size, storedSize := none }
    .ok (some admitted, reader)

omit [Codecs] in
/-- Copies an admitted file's data to `sink` through the guard. -/
def copy (reader : ContainerReader ρ) (entry : FileEntry) (sink : Sink) :
    Except ContainerError ((UInt64 × Sink) × ContainerReader ρ) := do
  let (copied, guard) :=
    reader.guard.copy entry ({ inner := reader.source, limit := entry.size.toNat } : Take _) sink
  let (copied, data, sink) ← copied.mapError .refused
  .ok ((copied, sink), { reader with source := data.inner, guard, unread := false })

omit [Codecs] in
/-- The guard's summary, once the end record was read. -/
def finish (reader : ContainerReader ρ) : Except ContainerError ArchiveSummary := do
  refuse (!reader.ended) (.refused (.ofArchive .malformed))
  reader.guard.finish.mapError .refused

end ContainerReader

end Reading

end GreenGateway.Archive
