import GreenGateway.Archive.Admission
import GreenGateway.Archive.Format

/-! Reading an archive to its end: what is read is an archive of the entries handed out. -/

namespace GreenGateway.Archive

open Foundation Config List ContainerReader

section Moves

variable {ρ : Type} [Reader ρ] {before after : ContainerReader ρ} {bytes more : List UInt8}
  {source : HashingReader ρ} {count width value : Nat}

theorem readUpTo_took {rest : HashingReader ρ} (read : readUpTo count source = .ok (bytes, rest)) :
    Reader.contents source = bytes ++ Reader.contents rest ∧ bytes.length ≤ count ∧
      rest.hashed = source.hashed ++ bytes ∧
      (bytes.length = count ∨ Reader.contents rest = []) := by
  obtain ⟨got, split, ⟨rfl, short⟩, logged, stopped⟩ := consume_took
    (fun got filled => got = filled ∧ filled.length ≤ count)
    (fun got rest => rest.hashed = source.hashed ++ got) ⟨rfl, by simp⟩ (by simp)
    (by
      rintro _ filled piece next ⟨rfl, short⟩ within taken
      obtain rfl := Except.ok.inj taken
      exact ⟨rfl, by rw [length_append]; omega⟩)
    (by
      intro got wanted middle outcome next logged taken
      obtain ⟨-, -, -, hashed⟩ := HashingReader.read_cases taken
      rw [hashed, logged, append_assoc])
    read
  refine ⟨split, short, logged, stopped.imp_left fun full => ?_⟩
  omega

/-- Bytes that a steady source holds are read, whatever pieces they come in. -/
theorem readUpTo_complete
    (steady : Reader.Steady source) (held : Reader.contents source = bytes ++ more) :
    ∃ rest, readUpTo bytes.length source = .ok (bytes, rest) ∧ Reader.Steady rest := by
  obtain ⟨got, rest, read, calm⟩ : ∃ got rest, readUpTo bytes.length source = .ok (got, rest) ∧
      Reader.Steady rest :=
    consume_steady (fun _ _ => True) trivial (fun _ _ _ _ _ _ _ => ⟨_, rfl, trivial⟩) steady
  obtain ⟨split, short, -, stopped⟩ := readUpTo_took read
  have full : got.length = bytes.length := by
    rcases stopped with full | empty
    · exact full
    · have lengths := congrArg List.length (held.symm.trans split)
      rw [empty, length_append, append_nil] at lengths
      omega
  obtain rfl : got = bytes := (append_inj (split.symm.trans held) full).1
  exact ⟨rest, read, calm⟩

/-- `after` is `before` once `bytes` are read. -/
structure Moves (before after : ContainerReader ρ) (bytes : List UInt8) : Prop where
  contents : Reader.contents before.source = bytes ++ Reader.contents after.source
  hashed : after.source.hashed = before.source.hashed ++ bytes
  rest : after = { before with source := after.source }

theorem Moves.trans {last : ContainerReader ρ} (first : Moves before after bytes)
    (second : Moves after last more) : Moves before last (bytes ++ more) where
  contents := by rw [first.contents, second.contents, append_assoc]
  hashed := by rw [second.hashed, first.hashed, append_assoc]
  rest := by rw [second.rest, first.rest]

theorem readExact_eq_ok (read : before.readExact count = .ok (bytes, after)) :
    bytes.length = count ∧ Moves before after bytes := by
  simp only [readExact, bind_eq_ok, unit_exists_ok, mapError_eq_ok, refuse_eq_ok,
    Prod.exists, decide_eq_false_iff_not, not_lt, Except.ok.injEq, Prod.mk.injEq] at read
  obtain ⟨_, source, read, enough, rfl, rfl⟩ := read
  obtain ⟨split, short, logged, -⟩ := readUpTo_took read
  exact ⟨by omega, split, logged, rfl⟩

theorem readExact_complete (steady : Reader.Steady before.source)
    (held : Reader.contents before.source = bytes ++ more) :
    ∃ after, before.readExact bytes.length = .ok (bytes, after) ∧ Reader.Steady after.source := by
  obtain ⟨rest, read, calm⟩ := readUpTo_complete steady held
  refine ⟨{ before with source := rest }, ?_, calm⟩
  simp [readExact, read, Except.mapError, refuse, bind, Except.bind]

theorem readNumber_eq_ok (read : before.readNumber width = .ok (value, after)) :
    value < 256 ^ width ∧ Moves before after (bigEndian width value) := by
  simp only [readNumber, bind_eq_ok, Prod.exists, Except.ok.injEq,
    Prod.mk.injEq] at read
  obtain ⟨bytes, _, read, rfl, rfl⟩ := read
  obtain ⟨rfl, moves⟩ := readExact_eq_ok read
  rw [bigEndian_fromBigEndian]
  exact ⟨fromBigEndian_lt bytes, moves⟩

theorem readNumber_complete (small : value < 256 ^ width) (steady : Reader.Steady before.source)
    (held : Reader.contents before.source = bigEndian width value ++ more) :
    ∃ after, before.readNumber width = .ok (value, after) ∧ Reader.Steady after.source := by
  obtain ⟨after, read, calm⟩ := readExact_complete steady held
  rw [bigEndian_length] at read
  refine ⟨after, ?_, calm⟩
  rw [readNumber, read]
  simp [bind, Except.bind, fromBigEndian_bigEndian, Nat.mod_eq_of_lt small]

end Moves

section Preamble

variable {ρ : Type} [Reader ρ] {source : ρ} {length : UInt64} {limits : ArchiveLimits}
  {reader : ContainerReader ρ}

/-- A reader that has read `start` and nothing else. -/
structure Opened (source : ρ) (length : UInt64) (limits : ArchiveLimits)
    (reader : ContainerReader ρ) : Prop where
  contents : Reader.contents source = preamble ++ Reader.contents reader.source
  hashed : reader.source.hashed = preamble
  guard : reader.guard = .new limits .none
  length : reader.length = length
  records : reader.records = 0
  unread : reader.unread = false
  ended : reader.ended = false

theorem openArchive_eq_ok (opened : openArchive source length limits = .ok reader) :
    Opened source length limits reader := by
  simp only [openArchive, bind_eq_ok, unit_exists_ok, mapError_eq_ok, refuse_eq_ok,
    Prod.exists, decide_eq_false_iff_not, not_lt, Except.ok.injEq, bne_eq_false_iff_eq] at opened
  obtain ⟨start, rest, read, spelled, enough, version, second, readVersion, rfl, flagBits, third,
    readFlags, rfl, rfl⟩ := opened
  obtain ⟨split, -, logged, -⟩ := readUpTo_took read
  obtain ⟨-, first⟩ := readNumber_eq_ok readVersion
  obtain ⟨-, last⟩ := readNumber_eq_ok readFlags
  rw [take_of_length_le enough] at spelled
  subst spelled
  have moves := first.trans last
  refine ⟨?_, ?_, ?_, ?_, ?_, ?_, ?_⟩
  · change Reader.contents source = magic ++ Reader.contents rest at split
    rw [split, preamble, append_assoc]
    exact congrArg (magic ++ ·) moves.contents
  · rw [moves.hashed]
    change rest.hashed ++ _ = _
    rw [logged]
    rfl
  all_goals rw [moves.rest]

theorem openArchive_complete {rest : List UInt8} (steady : Reader.Steady source)
    (held : Reader.contents source = preamble ++ rest) :
    ∃ reader, openArchive source length limits = .ok reader ∧
      Reader.Steady reader.source := by
  have whole : Reader.contents source =
      magic ++ (bigEndian 2 formatVersion ++ (bigEndian 2 flags ++ rest)) := by
    rw [held, preamble]
    simp
  obtain ⟨first, read, calm⟩ : ∃ first : HashingReader ρ,
      readUpTo magic.length (HashingReader.new source) = .ok (magic, first) ∧ Reader.Steady first :=
    readUpTo_complete steady whole
  obtain ⟨split, -, -, -⟩ := readUpTo_took read
  have rest₁ := append_cancel_left (split.symm.trans whole)
  obtain ⟨second, readVersion, calm⟩ : ∃ second : ContainerReader ρ, readNumber 2
      { source := first, guard := .new limits .none, length } = .ok (formatVersion, second) ∧
        Reader.Steady second.source :=
    readNumber_complete (by decide) calm rest₁
  obtain ⟨-, moves⟩ := readNumber_eq_ok readVersion
  have rest₂ := append_cancel_left (moves.contents.symm.trans rest₁)
  obtain ⟨third, readFlags, calm⟩ := readNumber_complete (by decide : flags < 256 ^ 2) calm rest₂
  refine ⟨third, ?_, calm⟩
  simp only [openArchive, bind_eq_ok, unit_exists_ok, mapError_eq_ok, refuse_eq_ok,
    Prod.exists]
  exact ⟨_, _, read, by simp, by simp, _, _, readVersion, by simp, _, _, readFlags, by simp, rfl⟩

end Preamble

section Entries

variable {ρ : Type} [Reader ρ] {reader after : ContainerReader ρ} {admitted : AdmittedEntry}
  {got : List UInt8} {entry : FileEntry}

/-- A record's header, read and admitted. -/
structure Entered (reader after : ContainerReader ρ) (admitted : AdmittedEntry) (kind : UInt8)
    (name : List UInt8) (size : UInt64) : Prop where
  other : kind ≠ endKind
  short : name.length < 2 ^ 16
  unread : reader.unread = false
  contents : Reader.contents reader.source =
    headerBytes kind name size.toNat ++ Reader.contents after.source
  hashed : after.source.hashed = reader.source.hashed ++ headerBytes kind name size.toNat
  taken : reader.guard.admit_ { name, kind := entryKind kind, size, storedSize := none } =
    (.ok admitted, after.guard)
  records : after.records = reader.records + 1
  few : after.records < 2 ^ 32
  length : after.length = reader.length
  open_ : after.ended = false

theorem byte_bigEndian {value : Nat} : bigEndian 1 value = [UInt8.ofNat value] := by
  simp [bigEndian]

omit [Reader ρ] in
/-- What handing a header to the guard changes. -/
theorem admit_eq_ok {header : EntryHeader}
    (entered : reader.admit_ header = .ok (admitted, after)) :
    reader.guard.admit_ header = (.ok admitted, after.guard) ∧ after.source = reader.source ∧
      after.records = reader.records ∧ after.length = reader.length ∧ after.ended = reader.ended := by
  unfold admit_ at entered
  rcases answered : reader.guard.admit_ header with ⟨answer, guard⟩
  simp only [answered, bind_eq_ok, mapError_eq_ok] at entered
  obtain ⟨found, rfl, entered⟩ := entered
  cases found with
  | file entry =>
    simp only [bind_eq_ok, unit_exists_ok, refuse_eq_ok, Except.ok.injEq, Prod.mk.injEq] at entered
    obtain ⟨-, rfl, rfl⟩ := entered
    exact ⟨rfl, rfl, rfl, rfl, rfl⟩
  | directory entry =>
    simp only [Except.ok.injEq, Prod.mk.injEq] at entered
    obtain ⟨rfl, rfl⟩ := entered
    exact ⟨rfl, rfl, rfl, rfl, rfl⟩

variable [Codecs]

theorem next_some (read : reader.next = .ok (some admitted, after)) :
    ∃ kind name size, Entered reader after admitted kind name size := by
  simp only [ContainerReader.next, bind_eq_ok, unit_exists_ok, refuse_eq_ok, Prod.exists,
    Bool.or_eq_false_iff] at read
  obtain ⟨⟨unread, ended⟩, kind, first, readKind, read⟩ := read
  split at read
  · simp at read
  · next other =>
    simp only [bind_eq_ok, unit_exists_ok, refuse_eq_ok, Prod.exists, Except.ok.injEq,
      Prod.mk.injEq, Option.some.injEq, decide_eq_false_iff_not, not_le] at read
    obtain ⟨nameLength, second, readLength, name, third, readName, size, fourth, readSize, few, _,
      _, entered, rfl, rfl⟩ := read
    obtain ⟨taken, source, records, length, open_⟩ := admit_eq_ok entered
    obtain ⟨-, kinds⟩ := readNumber_eq_ok readKind
    obtain ⟨short, lengths⟩ := readNumber_eq_ok readLength
    obtain ⟨rfl, names⟩ := readExact_eq_ok readName
    obtain ⟨small, sizes⟩ := readNumber_eq_ok readSize
    have moves := kinds.trans (lengths.trans (names.trans sizes))
    have word : (UInt64.ofNat size).toNat = size := by
      rw [UInt64.toNat_ofNat']
      exact Nat.mod_eq_of_lt small
    have spelled : bigEndian 1 kind ++ (bigEndian 2 name.length ++ (name ++ bigEndian 8 size)) =
        headerBytes (UInt8.ofNat kind) name (UInt64.ofNat size).toNat := by
      rw [byte_bigEndian, word]
      rfl
    rw [spelled] at moves
    refine ⟨UInt8.ofNat kind, name, UInt64.ofNat size, other, short, unread, ?_, ?_, ?_, ?_, ?_, ?_, ?_⟩
    · rw [moves.contents, source]
    · rw [source]
      exact moves.hashed
    · rw [← taken, moves.rest]
    · rw [records, moves.rest]
    · rw [records]
      exact few
    · rw [length, moves.rest]
    · rw [open_, moves.rest]
      exact ended

/-- The end record holds the digest of all before it, and nothing follows it. -/
theorem next_none (read : reader.next = .ok (none, after)) :
    Reader.contents reader.source = endRecord reader.records ++
      Codecs.sha256 (reader.source.hashed ++ endRecord reader.records) ∧
      after.guard = reader.guard := by
  simp only [ContainerReader.next, bind_eq_ok, unit_exists_ok, refuse_eq_ok, Prod.exists,
    Bool.or_eq_false_iff] at read
  obtain ⟨-, kind, first, readKind, read⟩ := read
  split at read
  · next ends =>
    simp only [end_, bind_eq_ok, unit_exists_ok, refuse_eq_ok, Prod.exists,
      Except.ok.injEq, Prod.mk.injEq, bne_eq_false_iff_eq, mapError_eq_ok, true_and] at read
    obtain ⟨last, ⟨records, second, readRecords, counted, digest, third, readDigest, matched, extra, rest,
      readExtra, none, rfl⟩, rfl⟩ := read
    obtain ⟨-, kinds⟩ := readNumber_eq_ok readKind
    obtain ⟨-, numbers⟩ := readNumber_eq_ok readRecords
    obtain ⟨-, digests⟩ := readExact_eq_ok readDigest
    obtain ⟨split, -, -, stopped⟩ := readUpTo_took readExtra
    have empty : Reader.contents third.source = [] := by
      rw [split, eq_nil_of_length_eq_zero none]
      rcases stopped with full | empty
      · omega
      · exact empty
    have moves := kinds.trans numbers
    have spelled : bigEndian 1 kind ++ bigEndian 4 records = endRecord reader.records := by
      rw [byte_bigEndian, ends, counted, moves.rest]
      rfl
    rw [spelled] at moves
    refine ⟨?_, ?_⟩
    · rw [moves.contents, digests.contents, empty, append_nil, matched, moves.hashed]
    · change third.guard = _
      rw [digests.rest, moves.rest]
  · simp at read

omit [Codecs] in
theorem take_read {start : HashingReader ρ} {wanted : Nat}
    {source next : Take (HashingReader ρ)} {outcome : Except ErrorKind (List UInt8)}
    (before : source.inner.hashed = start.hashed ++ got ∧
      Reader.contents start = got ++ Reader.contents source.inner)
    (taken : Reader.read wanted source = (outcome, next)) :
    next.inner.hashed = start.hashed ++ (got ++ piece outcome) ∧
      Reader.contents start = got ++ piece outcome ++ Reader.contents next.inner := by
  obtain ⟨hashed, split⟩ := before
  rcases Take.read_cases taken with ⟨-, rfl, rfl⟩ | ⟨bytes, inner, -, read, rfl, rfl⟩ |
    ⟨kind, inner, read, rfl, rfl⟩
  · simpa [piece] using ⟨hashed, split⟩
  · obtain ⟨-, -, -, logged⟩ := HashingReader.read_cases read
    rw [split, (Reader.piece read).1, logged, hashed]
    simp [piece]
  · obtain ⟨-, -, -, logged⟩ := HashingReader.read_cases read
    rw [split, Reader.unread read, logged, hashed]
    simp [piece]

/-- What a copy has done once `got` is through. -/
structure Copied (entry : FileEntry) (got : List UInt8)
    (copying : ArchiveGuard.Copying) : Prop where
  copied : copying.copied = saturated got.length
  within : copying.copied ≤ entry.size
  sink : copying.sink = { written := got }

omit [Codecs] [Reader ρ] in
theorem Copied.step {guard : ArchiveGuard} {bytes : List UInt8}
    {copying next : ArchiveGuard.Copying} (copied : Copied entry got copying)
    (stepped : copying.step guard entry bytes = .ok next) : Copied entry (got ++ bytes) next := by
  simp only [ArchiveGuard.Copying.step, bind_eq_ok, unit_exists_ok, refuse_eq_ok, okOr_eq_ok,
    decide_eq_false_iff_not, gt_iff_lt, UInt64.not_lt, Except.ok.injEq] at stepped
  obtain ⟨within, -, sink, wrote, rfl⟩ := stepped
  refine ⟨?_, within, ?_⟩
  · apply UInt64.toNat_inj.mp
    simp only [copied.copied, saturatingAdd_toNat, saturated_toNat, length_append]
    omega
  · rw [copied.sink] at wrote
    exact (Option.some.inj wrote).symm

omit [Codecs] in
/-- A copied file's data is exactly its declared bytes. -/
theorem copy_eq_ok {copied : UInt64} {sink : Sink}
    (read : reader.copy entry {} = .ok ((copied, sink), after)) :
    Moves { reader with guard := after.guard, unread := false } after sink.written ∧
      sink.written.length = entry.size.toNat ∧
      ∃ total, after.guard =
        { reader.guard with summary := { reader.guard.summary with copiedBytes := total } } := by
  unfold copy ArchiveGuard.copy at read
  cases refused : reader.guard.refused with
  | some refusal => simp [refused, Except.mapError, bind, Except.bind] at read
  | none =>
    simp only [refused] at read
    cases data : reader.guard.copyData entry
      ({ inner := reader.source, limit := entry.size.toNat } : Take _) {} with
    | error code => simp [data, ArchiveGuard.record, Except.mapError, bind, Except.bind] at read
    | ok result =>
      rcases result with ⟨⟨done, rest, out⟩, guard⟩
      simp only [data, ArchiveGuard.record, Except.mapError, bind, Except.bind, Except.ok.injEq,
        Prod.mk.injEq] at read
      obtain ⟨⟨rfl, rfl⟩, rfl⟩ := read
      simp only [ArchiveGuard.copyData, bind_eq_ok, unit_exists_ok, refuse_eq_ok, okOr_eq_ok,
        Prod.exists, Except.ok.injEq, Prod.mk.injEq, decide_eq_false_iff_not, UInt64.not_lt,
        Sink.flush_eq_some] at data
      obtain ⟨copying, left, consumed, enough, _, ⟨-, rfl⟩, ⟨rfl, rfl, rfl⟩, rfl⟩ := data
      obtain ⟨got, split, took, ⟨hashed, contents⟩, -⟩ := consume_took (Copied entry)
        (fun got (source : Take (HashingReader ρ)) =>
          source.inner.hashed = reader.source.hashed ++ got ∧
            Reader.contents reader.source = got ++ Reader.contents source.inner)
        ⟨rfl, UInt64.zero_le, rfl⟩ ⟨by simp, by simp⟩
        (fun _ _ _ _ copied _ stepped => copied.step stepped)
        (fun _ _ _ _ _ before taken => take_read before taken) consumed
      simp only [took.sink]
      refine ⟨⟨contents, hashed, rfl⟩, ?_, _, rfl⟩
      have limited : got.length ≤ entry.size.toNat := by
        have lengths := congrArg List.length split
        change ((Reader.contents reader.source).take entry.size.toNat).length = _ at lengths
        rw [length_take, length_append] at lengths
        omega
      have word := toNat_le_u64Max entry.size
      have size := congrArg UInt64.toNat (UInt64.le_antisymm took.within enough)
      rw [took.copied, saturated_toNat] at size
      omega

end Entries

section Admitted

variable {guard next : ArchiveGuard} {admitted : AdmittedEntry}

theorem admit_eq {header : EntryHeader} (taken : guard.admit_ header = (.ok admitted, next)) :
    guard.admitEntry header = .ok (admitted, next) := by
  unfold ArchiveGuard.admit_ at taken
  cases refused : guard.refused with
  | some refusal => simp [refused] at taken
  | none =>
    rw [refused] at taken
    cases entered : guard.admitEntry header with
    | error refusal => simp [entered, ArchiveGuard.record] at taken
    | ok found =>
      rcases found with ⟨entry, guard⟩
      simpa [entered, ArchiveGuard.record] using taken

theorem entryKind_claim {byte : UInt8} {kind : ClaimKind}
    (claimed : (entryKind byte).claim = .ok kind) :
    (byte = fileKind ∧ entryKind byte = .file) ∨ byte = 2 ∧ entryKind byte = .directory := by
  unfold entryKind at *
  split_ifs at * <;> simp_all [EntryKind.claim]

theorem admitted_record {kind : UInt8} {name : List UInt8} {size : UInt64}
    (taken : guard.admit_ { name, kind := entryKind kind, size, storedSize := none } =
      (.ok admitted, next)) :
    match admitted with
    | .file entry => kind = fileKind ∧ name = utf8 entry.path.text ∧ entry.size = size
    | .directory _ => kind = 2 ∧ size = 0 := by
  obtain ⟨-, path, claimKind, claims, names, kinds, empty, -, -, rfl, -⟩ :=
    admitEntry_eq_ok.mp (admit_eq taken)
  rcases entryKind_claim kinds with ⟨rfl, file⟩ | ⟨rfl, directory⟩
  · have spelled : name = utf8 path := by
      rcases names.spells with spelled | ⟨other, -⟩
      · exact spelled
      · exact absurd (file.symm.trans other) (by simp)
    simp [admittedAs, file, spelled]
  · have zero := hasData_eq_false (empty directory)
    simp only at zero
    simp [admittedAs, directory, zero]

end Admitted

section Extraction

variable [Codecs] {ρ : Type} [Reader ρ] {entries : List (AdmittedEntry × List UInt8)}

/-- Reading entry after entry, each file's data with it, until the end record. -/
inductive Extracts : ContainerReader ρ → List
    (AdmittedEntry × List UInt8) → ContainerReader ρ → Prop where
  | ended {reader final : ContainerReader ρ} : reader.next = .ok (none, final) →
      Extracts reader [] final
  | file {reader opened rest final : ContainerReader ρ} {entry : FileEntry} {copied : UInt64}
      {sink : Sink} {entries : List (AdmittedEntry × List UInt8)} :
      reader.next = .ok (some (.file entry), opened) →
      opened.copy entry {} = .ok ((copied, sink), rest) → Extracts rest entries final →
      Extracts reader ((.file entry, sink.written) :: entries) final
  | directory {reader opened final : ContainerReader ρ} {entry : DirectoryEntry}
      {entries : List (AdmittedEntry × List UInt8)} :
      reader.next = .ok (some (.directory entry), opened) → Extracts opened entries final →
      Extracts reader ((.directory entry, []) :: entries) final

/-- An archive read to a successful finish. -/
def ReadsArchive (source : ρ) (length : UInt64) (limits : ArchiveLimits)
    (entries : List (AdmittedEntry × List UInt8)) (summary : ArchiveSummary) : Prop :=
  ∃ reader final, openArchive source length limits = .ok reader ∧
    Extracts reader entries final ∧ final.finish = .ok summary

/-- The record an entry was read from. -/
def Spells (record : Record) : AdmittedEntry × List UInt8 → Prop
  | (.file entry, content) => record = .file entry.path.text content
  | (.directory _, _) => record.kind = 2

/-- What was read is records of the entries handed out, then the end record with the
digest of everything before it. -/
theorem extracts_sound {reader final : ContainerReader ρ} (few : reader.records < 2 ^ 32)
    (extracts : Extracts reader entries final) :
    ∃ records, List.Forall₂ Spells records entries ∧ (∀ record ∈ records, record.Framed) ∧
      reader.records + records.length < 2 ^ 32 ∧
      Reader.contents reader.source = records.flatMap Record.bytes ++
        (endRecord (reader.records + records.length) ++ Codecs.sha256 (reader.source.hashed ++
          (records.flatMap Record.bytes ++ endRecord (reader.records + records.length)))) := by
  induction extracts with
  | ended read => exact ⟨[], .nil, by simp, few, by simpa using (next_none read).1⟩
  | @file reader opened rest final entry copied sink entries read copy extracts ih =>
    obtain ⟨kind, name, size, entered⟩ := next_some read
    obtain ⟨moves, sized, -⟩ := copy_eq_ok copy
    obtain ⟨rfl, rfl, rfl⟩ := admitted_record entered.taken
    have count : rest.records = reader.records + 1 := by
      rw [moves.rest, ← entered.records]
    obtain ⟨records, spells, framed, bounded, contents⟩ :=
      ih (by rw [moves.rest]; exact entered.few)
    have record : headerBytes fileKind (utf8 entry.path.text) entry.size.toNat ++ sink.written =
        (Record.file entry.path.text sink.written).bytes := by
      rw [Record.bytes, ← sized]
      rfl
    have hashed : rest.source.hashed =
        reader.source.hashed ++ (Record.file entry.path.text sink.written).bytes := by
      rw [moves.hashed, ← record, ← append_assoc, ← entered.hashed]
    refine ⟨.file entry.path.text sink.written :: records, .cons rfl spells,
      List.forall_mem_cons.mpr ⟨⟨entered.other, entered.short, ?_⟩, framed⟩, ?_, ?_⟩
    · rw [Record.file, sized]
      exact entry.size.toNat_lt
    · rw [length_cons]
      omega
    · have whole := entered.contents
      rw [show Reader.contents opened.source = _ from moves.contents, contents, hashed, count,
        ← append_assoc, record] at whole
      rw [whole, flatMap_cons, length_cons, Nat.add_right_comm, Nat.add_assoc]
      simp
  | @directory reader opened final entry entries read extracts ih =>
    obtain ⟨kind, name, size, entered⟩ := next_some read
    obtain ⟨rfl, rfl⟩ := admitted_record entered.taken
    have count := entered.records
    obtain ⟨records, spells, framed, bounded, contents⟩ := ih entered.few
    refine ⟨{ kind := 2, name, content := [] } :: records, .cons rfl spells,
      List.forall_mem_cons.mpr ⟨⟨entered.other, entered.short, by simp⟩, framed⟩,
      by rw [length_cons]; omega, ?_⟩
    have record : headerBytes 2 name (0 : UInt64).toNat =
        ({ kind := 2, name, content := [] } : Record).bytes := by
      simp [Record.bytes]
    have whole := entered.contents
    rw [contents, entered.hashed, count, record] at whole
    rw [whole, flatMap_cons, length_cons, Nat.add_right_comm, Nat.add_assoc]
    simp

theorem readsArchive_sound {source : ρ} {length : UInt64} {limits : ArchiveLimits}
    {summary : ArchiveSummary} (reads : ReadsArchive source length limits entries summary) :
    ∃ records, List.Forall₂ Spells records entries ∧ (∀ record ∈ records, record.Framed) ∧
      records.length < 2 ^ 32 ∧ Reader.contents source = archive records := by
  obtain ⟨reader, final, opened, extracts, -⟩ := reads
  have start := openArchive_eq_ok opened
  obtain ⟨records, spells, framed, few, contents⟩ :=
    extracts_sound (by rw [start.records]; decide) extracts
  rw [start.records, Nat.zero_add] at few
  refine ⟨records, spells, framed, few, ?_⟩
  rw [start.contents, contents, start.hashed, start.records, Nat.zero_add, archive_eq]
  rfl

end Extraction

end GreenGateway.Archive
