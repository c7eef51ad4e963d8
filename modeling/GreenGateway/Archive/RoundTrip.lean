import GreenGateway.Archive.Extraction

/-! One archive, one content: an archive of files the guard admits is read back whole,
whatever pieces it comes in, and nothing else is read as it. -/

namespace GreenGateway.Archive

open Foundation Config List Reader ArchiveGuard

section Room

variable {ρ : Type} [Reader ρ] {reader after : ContainerReader ρ} {bytes : List UInt8}

/-- The length the caller found on disk is the bytes read and the bytes left. -/
def Whole (reader : ContainerReader ρ) : Prop :=
  reader.length.toNat = reader.source.hashed.length + (contents reader.source).length

theorem Moves.whole (moves : Moves reader after bytes) (whole : Whole reader) : Whole after := by
  have lengths := congrArg List.length moves.contents
  rw [Whole] at *
  rw [moves.rest, moves.hashed, length_append]
  rw [length_append] at lengths
  dsimp only
  omega

theorem fits_of_whole {entry : FileEntry} (whole : Whole reader)
    (room : entry.size.toNat + 37 ≤ (contents reader.source).length) :
    reader.fits entry = true := by
  have word := toNat_le_u64Max reader.length
  have ends : endBytes.toNat = 37 := rfl
  rw [Whole] at whole
  rw [ContainerReader.fits, decide_eq_true_iff, UInt64.le_iff_toNat_le, reader.source.counted]
  simp only [saturatingSub_toNat, saturated_toNat, ends]
  omega

end Room

section Guards

variable {guard next : ArchiveGuard} {header : EntryHeader} {total : UInt64}
  {admitted : AdmittedEntry}

/-- The guard with another count of copied bytes, which admits the same. -/
def ArchiveGuard.counting (guard : ArchiveGuard) (total : UInt64) : ArchiveGuard :=
  { guard with summary := { guard.summary with copiedBytes := total } }

theorem admitEntry_counting (taken : guard.admitEntry header = .ok (admitted, next)) :
    (guard.counting total).admitEntry header = .ok (admitted, next.counting total) := by
  obtain ⟨within, path, kind, claims, names, kinds, empty, charges, claimed, same, rfl⟩ :=
    admitEntry_eq_ok.mp taken
  exact admitEntry_eq_ok.mpr
    ⟨within, path, kind, claims, names, kinds, empty, charges, claimed, same, rfl⟩

/-- A file's header is handed out under the name it gives. -/
theorem admitEntry_file {name : String} {size : UInt64}
    (taken : guard.admitEntry { name := utf8 name, kind := .file, size, storedSize := none } =
      .ok (admitted, next)) :
    ∃ position, admitted = .file { position, path := ⟨name⟩, size } := by
  obtain ⟨-, path, kind, claims, names, -, -, -, -, rfl, -⟩ := admitEntry_eq_ok.mp taken
  rcases names.spells with spelled | ⟨directory, -⟩
  · rw [utf8_inj spelled]
    exact ⟨_, rfl⟩
  · cases directory

theorem admitEntry_settings (taken : guard.admitEntry header = .ok (admitted, next)) :
    next.refused = guard.refused ∧ next.compression = guard.compression := by
  obtain ⟨-, _, _, _, -, -, -, -, -, -, rfl⟩ := admitEntry_eq_ok.mp taken
  exact ⟨rfl, rfl⟩

end Guards

section Complete

variable {ρ : Type} [Reader ρ] {reader : ContainerReader ρ} {rest : List UInt8} {entry : FileEntry}
  {guard : ArchiveGuard}

theorem Copied.complete {got bytes : List UInt8}
    {copying : Copying} (uncompressed : guard.compression = .none)
    (copied : Copied entry got copying) (short : (got ++ bytes).length ≤ entry.size.toNat) :
    ∃ next, copying.step guard entry bytes = .ok next := by
  have within : saturatingAdd copying.copied (saturated bytes.length) ≤ entry.size := by
    rw [length_append] at short
    rw [UInt64.le_iff_toNat_le, copied.copied]
    simp only [saturatingAdd_toNat, saturated_toNat]
    omega
  simp only [Copying.step, bind_eq_ok, unit_exists_ok, refuse_eq_ok, okOr_eq_ok,
    decide_eq_false_iff_not, gt_iff_lt, UInt64.not_lt]
  exact ⟨_, within, by rw [overexpands, uncompressed], _, by rw [copied.sink]; rfl,
    rfl⟩

/-- A file's data is copied, whatever pieces it comes in. -/
theorem copy_complete (reader : ContainerReader ρ) (entry : FileEntry) {content : List UInt8}
    (steady : Steady reader.source) (unrefused : reader.guard.refused = none)
    (uncompressed : reader.guard.compression = .none)
    (held : contents reader.source = content ++ rest)
    (sized : content.length = entry.size.toNat) :
    ∃ copied sink after, reader.copy entry {} = .ok ((copied, sink), after) ∧
      sink.written = content ∧ Steady after.source := by
  have bounded : contents ({ inner := reader.source, limit := entry.size.toNat } : Take _) =
      content := by
    change (contents reader.source).take entry.size.toNat = content
    rw [held, ← sized, take_left]
  obtain ⟨copying, left, consumed, calm⟩ : ∃ copying left,
      consume (Copying.wanted entry) (Copying.step reader.guard entry)
        readCode { total := reader.guard.summary.copiedBytes, sink := {} }
        ({ inner := reader.source, limit := entry.size.toNat } : Take _) = .ok (copying, left) ∧
      Steady left := by
    refine consume_steady (Copied entry) ⟨rfl, UInt64.zero_le, rfl⟩ ?_ steady
    rintro got state bytes copied - - inside
    rw [bounded] at inside
    obtain ⟨next, stepped⟩ := copied.complete uncompressed (sized ▸ inside.length_le)
    exact ⟨next, stepped, copied.step stepped⟩
  obtain ⟨got, split, took, -, stopped⟩ := consume_took (Copied entry) (fun _ _ => True)
    ⟨rfl, UInt64.zero_le, rfl⟩ trivial (fun _ _ _ _ copied _ stepped => copied.step stepped)
    (fun _ _ _ _ _ _ _ => trivial) consumed
  have wants : Copying.wanted entry copying ≠ 0 := by
    have one : (1 : UInt64).toNat = 1 := rfl
    rw [Copying.wanted, saturatingAdd_toNat, one, u64Max, copyChunkBytes]
    omega
  obtain rfl : content = got := by
    rw [bounded, stopped.resolve_left wants, append_nil] at split
    exact split
  have enough : entry.size ≤ copying.copied := by
    have word := toNat_le_u64Max entry.size
    rw [UInt64.le_iff_toNat_le, took.copied, saturated_toNat]
    omega
  have data : reader.guard.copyData entry
      ({ inner := reader.source, limit := entry.size.toNat } : Take _) {} =
        .ok ((copying.copied, left, copying.sink), reader.guard.counting copying.total) := by
    simp only [copyData, bind_eq_ok, unit_exists_ok, refuse_eq_ok, okOr_eq_ok,
      Prod.exists, decide_eq_false_iff_not, UInt64.not_lt]
    exact ⟨copying, left, consumed, enough, copying.sink, by rw [took.sink]; rfl, rfl⟩
  refine ⟨copying.copied, copying.sink,
    { reader with
      source := left.inner, guard := reader.guard.counting copying.total, unread := false },
    ?_, by rw [took.sink], calm⟩
  simp [ContainerReader.copy, copy, unrefused, data, record,
    Except.mapError, bind, Except.bind]

omit [Reader ρ] in
theorem admit_complete {header : EntryHeader} (unrefused : reader.guard.refused = none)
    (taken : reader.guard.admitEntry header = .ok (.file entry, guard))
    (fits : reader.fits entry = true) :
    reader.admit_ header = .ok (.file entry, { reader with guard, unread := true }) := by
  simp [ContainerReader.admit_, admit_, unrefused, taken, record,
    Except.mapError, fits, refuse, bind, Except.bind]

variable [Codecs]

/-- A file's record is handed out when the guard admits it and its data is still there. -/
theorem next_complete {name : String} {size : UInt64}
    (steady : Steady reader.source) (unread : reader.unread = false)
    (open_ : reader.ended = false) (whole : Whole reader) (unrefused : reader.guard.refused = none)
    (short : (utf8 name).length < 2 ^ 16) (few : reader.records + 1 < 2 ^ 32)
    (held : contents reader.source = headerBytes fileKind (utf8 name) size.toNat ++ rest)
    (taken : reader.guard.admitEntry { name := utf8 name, kind := .file, size, storedSize := none } =
      .ok (.file entry, guard))
    (room : entry.size.toNat + 37 ≤ rest.length) :
    ∃ moved, Moves reader moved (headerBytes fileKind (utf8 name) size.toNat) ∧
      Steady moved.source ∧
      reader.next = .ok (some (.file entry),
        { moved with records := moved.records + 1, guard, unread := true }) := by
  have spelled : headerBytes fileKind (utf8 name) size.toNat ++ rest =
      bigEndian 1 1 ++ (bigEndian 2 (utf8 name).length ++
        (utf8 name ++ (bigEndian 8 size.toNat ++ rest))) := by
    rw [byte_bigEndian, headerBytes]
    simp only [cons_append, nil_append, append_assoc]
    rfl
  rw [spelled] at held
  obtain ⟨first, readKind, calm⟩ := readNumber_complete (by decide : 1 < 256 ^ 1) steady held
  obtain ⟨-, kinds⟩ := readNumber_eq_ok readKind
  have held := append_cancel_left (kinds.contents.symm.trans held)
  obtain ⟨second, readLength, calm⟩ := readNumber_complete short calm held
  obtain ⟨-, lengths⟩ := readNumber_eq_ok readLength
  have held := append_cancel_left (lengths.contents.symm.trans held)
  obtain ⟨third, readName, calm⟩ := readExact_complete calm held
  obtain ⟨-, names⟩ := readExact_eq_ok readName
  have held := append_cancel_left (names.contents.symm.trans held)
  obtain ⟨fourth, readSize, calm⟩ := readNumber_complete size.toNat_lt calm held
  obtain ⟨-, sizes⟩ := readNumber_eq_ok readSize
  have held := append_cancel_left (sizes.contents.symm.trans held)
  have moves := kinds.trans (lengths.trans (names.trans sizes))
  have header : bigEndian 1 1 ++ (bigEndian 2 (utf8 name).length ++
      (utf8 name ++ bigEndian 8 size.toNat)) = headerBytes fileKind (utf8 name) size.toNat := by
    rw [byte_bigEndian]
    rfl
  rw [header] at moves
  have guards : fourth.guard = reader.guard := by rw [moves.rest]
  have records : fourth.records = reader.records := by rw [moves.rest]
  have admitted : ContainerReader.admit_ { fourth with records := fourth.records + 1 }
      { name := utf8 name, kind := .file, size, storedSize := none } =
      .ok (.file entry, { fourth with records := fourth.records + 1, guard, unread := true }) := by
    refine admit_complete (by exact guards ▸ unrefused) (by exact guards ▸ taken) ?_
    exact fits_of_whole (moves.whole whole) (held ▸ room)
  refine ⟨fourth, moves, calm, ?_⟩
  simp only [ContainerReader.next, bind_eq_ok, unit_exists_ok, refuse_eq_ok, Prod.exists]
  refine ⟨by rw [unread, open_]; rfl, 1, first, readKind, ?_⟩
  rw [if_neg (by decide)]
  simp only [bind_eq_ok, unit_exists_ok, refuse_eq_ok, Prod.exists, decide_eq_false_iff_not, not_le]
  refine ⟨_, second, readLength, _, third, readName, _, fourth, readSize, records ▸ few, _, _, ?_, rfl⟩
  rw [UInt64.ofNat_toNat]
  exact admitted

/-- The end record is accepted when its count and its digest are right and nothing follows. -/
theorem end_complete (sized : DigestsSized) (steady : Steady reader.source)
    (unread : reader.unread = false) (open_ : reader.ended = false) (few : reader.records < 2 ^ 32)
    (held : contents reader.source = endRecord reader.records ++
      Codecs.sha256 (reader.source.hashed ++ endRecord reader.records)) :
    ∃ final, reader.next = .ok (none, final) ∧ final.ended = true := by
  have spelled : endRecord reader.records = bigEndian 1 0 ++ bigEndian 4 reader.records := by
    rw [byte_bigEndian]
    rfl
  have start := held
  rw [spelled, append_assoc] at start
  obtain ⟨first, readKind, calm⟩ := readNumber_complete (by decide : 0 < 256 ^ 1) steady start
  obtain ⟨-, kinds⟩ := readNumber_eq_ok readKind
  have start := append_cancel_left (kinds.contents.symm.trans start)
  obtain ⟨second, readRecords, calm⟩ := readNumber_complete few calm start
  obtain ⟨-, numbers⟩ := readNumber_eq_ok readRecords
  have digest := append_cancel_left (numbers.contents.symm.trans start)
  have moves := kinds.trans numbers
  have records : second.records = reader.records := by rw [moves.rest]
  rw [← moves.hashed, ← append_nil (Codecs.sha256 _)] at digest
  obtain ⟨third, readDigest, calm⟩ := readExact_complete calm digest
  obtain ⟨-, digests⟩ := readExact_eq_ok readDigest
  have empty := append_cancel_left (digests.contents.symm.trans digest)
  obtain ⟨extra, fourth, readExtra, -⟩ : ∃ extra fourth,
      readUpTo 1 third.source = .ok (extra, fourth) ∧ Steady fourth :=
    consume_steady (fun _ _ => True) trivial (fun _ _ _ _ _ _ _ => ⟨_, rfl, trivial⟩) calm
  have nothing : extra = [] := by
    have split := (readUpTo_took readExtra).1
    rw [empty] at split
    exact (List.append_eq_nil_iff.mp split.symm).1
  rw [sized] at readDigest
  refine ⟨{ third with source := fourth, ended := true }, ?_, rfl⟩
  simp only [ContainerReader.next, bind_eq_ok, unit_exists_ok, refuse_eq_ok, Prod.exists]
  refine ⟨by rw [unread, open_]; rfl, 0, first, readKind, ?_⟩
  rw [if_pos (by decide)]
  simp only [ContainerReader.end_, bind_eq_ok, unit_exists_ok, refuse_eq_ok, Prod.exists,
    mapError_eq_ok]
  exact ⟨_, ⟨_, second, readRecords, by simp [records], _, third, readDigest, by simp, _, fourth,
    readExtra, by simp [nothing], rfl⟩, rfl⟩

end Complete

section Whole

variable [Codecs] {ρ : Type} [Reader ρ] {files : List (String × List UInt8)} {records : List Record}

/-- A file's header as the guard sees it. -/
def fileHeader (file : String × List UInt8) : EntryHeader :=
  { name := utf8 file.1, kind := .file, size := UInt64.ofNat file.2.length, storedSize := none }

def fileRecord (file : String × List UInt8) : Record := .file file.1 file.2

/-- The file an entry is, if it is one. -/
def yielded : AdmittedEntry × List UInt8 → Option (String × List UInt8)
  | (.file entry, content) => some (entry.path.text, content)
  | (.directory _, _) => none

/-- Records of files the guard admits are read to the end record, in order. -/
theorem extracts_complete (sized : DigestsSized)
    {reader : ContainerReader ρ} {guard final : ArchiveGuard} {total : UInt64}
    (steady : Steady reader.source) (unread : reader.unread = false)
    (open_ : reader.ended = false) (whole : Whole reader)
    (guards : reader.guard = guard.counting total) (unrefused : guard.refused = none)
    (uncompressed : guard.compression = .none)
    (admitted : guard.admitAll (files.map fileHeader) = .ok final)
    (framed : ∀ file ∈ files, (fileRecord file).Framed)
    (few : reader.records + files.length < 2 ^ 32)
    (held : contents reader.source = (files.map fileRecord).flatMap Record.bytes ++
      (endRecord (reader.records + files.length) ++ Codecs.sha256 (reader.source.hashed ++
        ((files.map fileRecord).flatMap Record.bytes ++ endRecord (reader.records + files.length))))) :
    ∃ entries last, Extracts reader entries last ∧ last.ended = true ∧
      last.guard.refused = none ∧ entries.map yielded = files.map some := by
  induction files generalizing reader guard total with
  | nil =>
    simp only [map_nil, flatMap_nil, nil_append, length_nil, Nat.add_zero] at held few
    obtain ⟨last, read, ended⟩ := end_complete sized steady unread open_ few held
    refine ⟨[], last, .ended read, ended, ?_, rfl⟩
    rw [(next_none read).2, guards]
    exact unrefused
  | cons file files ih =>
    obtain ⟨own, others⟩ := List.forall_mem_cons.mp framed
    rw [map_cons, admitAll, foldlM_cons, bind_eq_ok] at admitted
    obtain ⟨next, taken, admitted⟩ := admitted
    obtain ⟨entry, taken⟩ := (admitNext_eq_ok unrefused).mp taken
    obtain ⟨position, rfl⟩ := admitEntry_file taken
    obtain ⟨unrefused', uncompressed'⟩ := admitEntry_settings taken
    have word : (UInt64.ofNat file.2.length).toNat = file.2.length := by
      rw [UInt64.toNat_ofNat']
      exact Nat.mod_eq_of_lt own.content
    have record : (fileRecord file).bytes =
        headerBytes fileKind (utf8 file.1) (UInt64.ofNat file.2.length).toNat ++ file.2 := by
      rw [word]
      rfl
    have count : reader.records + (file :: files).length = reader.records + 1 + files.length := by
      rw [length_cons]
      omega
    rw [count] at few held
    rw [map_cons, flatMap_cons, record] at held
    simp only [append_assoc] at held
    have digest : ∀ bytes, (Codecs.sha256 bytes).length = 32 := sized
    obtain ⟨moved, moves, calm, read⟩ := next_complete steady unread open_ whole
      (by rw [guards]; exact unrefused) own.name (by omega) held
      (by rw [guards]; exact admitEntry_counting taken)
      (by
        simp only [length_append, word, endRecord, length_cons, bigEndian_length, digest]
        omega)
    have held := append_cancel_left (moves.contents.symm.trans held)
    obtain ⟨copied, sink, after, copy, written, calm⟩ := copy_complete
      { moved with records := moved.records + 1, guard := next.counting total, unread := true }
      { position, path := ⟨file.1⟩, size := UInt64.ofNat file.2.length } calm
      (unrefused'.trans unrefused) (uncompressed'.trans uncompressed) held word.symm
    obtain ⟨copies, -, total', recount⟩ := copy_eq_ok copy
    have guards' : after.guard = next.counting total' := recount
    rw [written] at copies
    have records : after.records = reader.records + 1 := by rw [copies.rest, moves.rest]
    have held := append_cancel_left (copies.contents.symm.trans held)
    have hashed : after.source.hashed = reader.source.hashed ++ (fileRecord file).bytes := by
      rw [copies.hashed, record, ← append_assoc, ← moves.hashed]
    obtain ⟨entries, last, extracts, ended, unrefused, same⟩ := ih calm
      (by rw [copies.rest]) (by rw [copies.rest, moves.rest]; exact open_)
      (copies.whole (by exact moves.whole whole)) guards' (unrefused'.trans unrefused)
      (uncompressed'.trans uncompressed) admitted others (by rw [records]; exact few)
      (by rw [held, records, hashed, record]; simp)
    refine ⟨_, last, .file read copy extracts, ended, unrefused, ?_⟩
    rw [map_cons, map_cons, same, written]
    rfl

theorem readsArchive_complete (sized : DigestsSized) {source : ρ}
    {length : UInt64} {limits : ArchiveLimits} (steady : Steady source)
    (held : contents source = archive (files.map fileRecord))
    (measured : length.toNat = (contents source).length)
    (framed : ∀ file ∈ files, (fileRecord file).Framed) (few : files.length < 2 ^ 32)
    (admits : Admits limits .none (files.map fileHeader)) :
    ∃ entries summary, ReadsArchive source length limits entries summary ∧
      entries.map yielded = files.map some := by
  obtain ⟨guard, admitted⟩ := admits
  rw [archive_eq, length_map] at held
  obtain ⟨reader, opened, calm⟩ : ∃ reader, ContainerReader.openArchive source length limits =
      .ok reader ∧ Steady reader.source := openArchive_complete steady held
  have start := openArchive_eq_ok opened
  have rest := append_cancel_left (start.contents.symm.trans held)
  have whole : Whole reader := by
    rw [Whole, start.length, measured, start.contents, start.hashed, length_append]
  have guards : reader.guard = (ArchiveGuard.new limits .none).counting 0 := start.guard
  obtain ⟨entries, last, extracts, ended, unrefused, same⟩ := extracts_complete sized calm
    start.unread start.ended whole guards rfl rfl admitted framed
    (by rw [start.records]; omega)
    (by rw [rest, start.records, start.hashed, Nat.zero_add, body, length_map])
  refine ⟨entries, last.guard.summary, ⟨reader, last, opened, extracts, ?_⟩, same⟩
  simp [ContainerReader.finish, ended, refuse, bind, Except.bind, finish, unrefused,
    Except.mapError]

omit [Codecs] in
theorem spells_files {entries : List (AdmittedEntry × List UInt8)}
    (spells : List.Forall₂ Spells records entries)
    (same : entries.map yielded = files.map some) : records = files.map fileRecord := by
  induction spells generalizing files with
  | nil =>
    rw [map_nil] at same
    rw [List.map_eq_nil_iff.mp same.symm]
    rfl
  | @cons record entry records entries spelled _ ih =>
    cases files with
    | nil => cases same
    | cons file files =>
      rw [map_cons, map_cons] at same
      obtain ⟨first, others⟩ := List.cons.inj same
      rw [ih others, map_cons]
      rcases entry with ⟨entry | entry, content⟩
      · rw [← Option.some.inj first, show record = .file entry.path.text content from spelled]
        rfl
      · cases first

/-- The part of an archive that its digest is taken of. -/
def digested (bytes : List UInt8) : List UInt8 := bytes.take (bytes.length - 32)

theorem digested_archive (sized : DigestsSized) (records : List Record) :
    digested (archive records) = body records := by
  rw [digested, archive, length_append, sized, Nat.add_sub_cancel, take_left]

/-- No archive is another with one byte changed. -/
theorem archive_altered (sized : DigestsSized) {others : List Record} {index : Nat}
    {value : UInt8} (inside : index < (archive records).length)
    (altered : archive others = (archive records).set index value)
    (collisionFree : Set.InjOn Codecs.sha256
      {digested (archive records), digested ((archive records).set index value)}) :
    (archive records)[index]? = some value := by
  rw [← altered, digested_archive sized, digested_archive sized] at collisionFree
  have bodies : (body others).length = (body records).length := by
    have lengths := congrArg List.length altered
    simp only [archive, length_set, length_append] at lengths
    rwa [sized, sized, Nat.add_right_cancel_iff] at lengths
  have same : body others = body records := by
    have split := altered
    rw [archive, archive, set_append] at split
    split_ifs at split with early
    · obtain ⟨-, digests⟩ := append_inj split (by rw [bodies, length_set])
      exact collisionFree (by simp) (by simp) digests
    · exact (append_inj split bodies).1
  rw [archive, same, ← archive] at altered
  have read := congrArg (fun bytes => bytes[index]?) altered
  simpa [inside] using read

/-- No source that holds `bytes` is read to a successful finish. -/
def Refused (bytes : List UInt8) : Prop :=
  ∀ (ρ : Type) [Reader ρ] (source : ρ) (length : UInt64) (limits : ArchiveLimits)
    (entries : List (AdmittedEntry × List UInt8)) (summary : ArchiveSummary),
    contents source = bytes → ¬ ReadsArchive source length limits entries summary

omit [Codecs] in
def Input.file (input : Input ρ) : String × List UInt8 := (input.name, contents input.data)

/-- A file whose data is read without failure and is as long as it says. -/
structure Sized (input : Input ρ) : Prop where
  steady : Steady input.data
  size : input.size.toNat = (contents input.data).length

variable {σ : Type} [Reader σ]

/-- One archive, one content. The writer writes an archive of any files that fit their
frames; under limits that admit them, reading it back in any pieces gives the same files.
Whatever is read to the end as files is what the writer writes for them. No other start
or extension of an archive is read, and none with one byte changed, as long as the digest
tells the two apart. -/
theorem archive_oneContent (sized : DigestsSized) :
    (∀ inputs : List (Input σ), (∀ input ∈ inputs, Sized input) →
      ((∃ sink, writeArchive inputs {} = .ok sink) ↔
        (∀ input ∈ inputs, Text.len input.name < 2 ^ 16) ∧ inputs.length < 2 ^ 32)) ∧
    (∀ (inputs : List (Input σ)) (sink : Sink) (limits : ArchiveLimits) (source : ρ)
      (length : UInt64), writeArchive inputs {} = .ok sink →
      Admits limits .none (inputs.map fun input => fileHeader input.file) →
      Steady source → contents source = sink.written →
      length.toNat = sink.written.length →
      ∃ entries summary, ReadsArchive source length limits entries summary ∧
        entries.map yielded = inputs.map fun input => some input.file) ∧
    (∀ (source : ρ) (length : UInt64) (limits : ArchiveLimits)
      (entries : List (AdmittedEntry × List UInt8)) (summary : ArchiveSummary)
      (inputs : List (Input σ)), ReadsArchive source length limits entries summary →
      (∀ input ∈ inputs, Sized input) →
      entries.map yielded = (inputs.map fun input => some input.file) →
      ∃ sink, writeArchive inputs {} = .ok sink ∧ sink.written = contents source) ∧
    ∀ (inputs : List (Input σ)) (sink : Sink), writeArchive inputs {} = .ok sink →
      (∀ bytes, bytes <+: sink.written ∨ sink.written <+: bytes → bytes ≠ sink.written →
        Refused bytes) ∧
      ∀ (index : Nat) (value : UInt8), index < sink.written.length →
        sink.written[index]? ≠ some value →
        Set.InjOn Codecs.sha256 {digested sink.written, digested (sink.written.set index value)} →
        Refused (sink.written.set index value) := by
  have records : ∀ inputs : List (Input σ),
      (inputs.map Input.file).map fileRecord = inputs.map Input.record := by
    intro inputs
    rw [map_map]
    rfl
  refine ⟨?_, ?_, ?_, ?_⟩
  · intro inputs told
    constructor
    · rintro ⟨sink, wrote⟩
      obtain ⟨writable, few, -⟩ := writeArchive_eq_ok wrote
      exact ⟨fun input member => (writable input member).short, few⟩
    · rintro ⟨short, few⟩
      exact writeArchive_complete (fun input member =>
        ⟨⟨short input member, (told input member).size⟩, (told input member).steady⟩) few
  · intro inputs sink limits source length wrote admits steady held measured
    obtain ⟨writable, few, written⟩ := writeArchive_eq_ok wrote
    rw [written, ← records] at held
    have framed : ∀ file ∈ inputs.map Input.file, (fileRecord file).Framed := by
      intro file member
      obtain ⟨input, listed, rfl⟩ := List.mem_map.mp member
      exact (writable input listed).framed
    obtain ⟨entries, summary, reads, same⟩ := readsArchive_complete sized steady held
      (by rw [measured, held, written, ← records]) framed (by simpa using few)
      (by rw [map_map]; exact admits)
    exact ⟨entries, summary, reads, by rw [same, map_map]; rfl⟩
  · intro source length limits entries summary inputs reads told same
    obtain ⟨records', spells, framed, few, contents⟩ := readsArchive_sound reads
    have yields : entries.map yielded = (inputs.map Input.file).map some := by
      rw [same, map_map]
      rfl
    obtain rfl := spells_files spells yields
    rw [records] at framed contents
    rw [length_map, length_map] at few
    have writable : ∀ input ∈ inputs, Writable input ∧ Steady input.data := by
      intro input member
      refine ⟨⟨?_, (told input member).size⟩, (told input member).steady⟩
      rw [Text.len, ← utf8_length]
      exact (framed _ (mem_map_of_mem member)).name
    obtain ⟨sink, wrote⟩ := writeArchive_complete writable few
    exact ⟨sink, wrote, by rw [(writeArchive_eq_ok wrote).2.2, contents]⟩
  · intro inputs sink wrote
    obtain ⟨writable, -, written⟩ := writeArchive_eq_ok wrote
    have framed : ∀ record ∈ inputs.map Input.record, record.Framed := by
      intro record member
      obtain ⟨input, listed, rfl⟩ := List.mem_map.mp member
      exact (writable input listed).framed
    rw [written]
    refine ⟨?_, ?_⟩
    · intro bytes related other τ _ source length limits entries summary contents reads
      obtain ⟨others, -, framed', -, held⟩ := readsArchive_sound reads
      rw [← contents, held] at related other
      refine other (congrArg archive ?_)
      rcases related with starts | extends_
      · exact archive_cancel sized framed' framed starts
      · exact (archive_cancel sized framed framed' extends_).symm
    · intro index value inside other collisionFree τ _ source length limits entries summary contents
        reads
      obtain ⟨others, -, -, -, held⟩ := readsArchive_sound reads
      exact other (archive_altered sized inside (held.symm.trans contents) collisionFree)

end Whole

section Sample

@[reducible] def summingCodecs : Codecs where
  sha256 bytes := List.replicate 32 bytes.sum
  parseJson _ := none
  doubleText _ := none

attribute [local instance] summingCodecs

/-- A file that arrives in two pieces. -/
def sampleInput : Input Arrivals :=
  { name := "a", size := 2, data := ⟨[.data 7 [], .failure .interrupted, .data 9 []]⟩ }

theorem archive_oneContent_sample :
    ∃ (sink : Sink) (entries : List (AdmittedEntry × List UInt8)) (summary : ArchiveSummary),
      writeArchive [sampleInput] {} = .ok sink ∧
      ReadsArchive (Arrivals.push sink.written []) 63 {} entries summary ∧
      entries.map yielded = [some ("a", [7, 9])] ∧
      (∃ again, writeArchive [sampleInput] {} = .ok again ∧ again.written = sink.written) ∧
      Refused sink.written.dropLast ∧ Refused (sink.written.set 30 8) := by
  have sized : DigestsSized := fun bytes => length_replicate
  obtain ⟨writes, reads, written, refuses⟩ := archive_oneContent (ρ := Arrivals) (σ := Arrivals) sized
  have told : ∀ input ∈ [sampleInput], Sized input := by
    simp only [forall_mem_singleton]
    exact ⟨by simp [sampleInput, Steady, Arrivals.Steady, Event.Steady], rfl⟩
  obtain ⟨sink, wrote⟩ := (writes [sampleInput] told).mpr ⟨by decide, by decide⟩
  have spelled : sink.written = archive [sampleInput.record] := (writeArchive_eq_ok wrote).2.2
  have bytes : archive [sampleInput.record] = magic ++ ([0, 1, 0, 0] ++
      ([1, 0, 1, 97, 0, 0, 0, 0, 0, 0, 0, 2, 7, 9] ++ ([0, 0, 0, 0, 1] ++ List.replicate 32 187))) := by
    decide
  have whole : ∀ piece, contents (Arrivals.push piece []) = piece := by
    intro piece
    exact (Arrivals.contents_push piece []).trans (by simp)
  obtain ⟨entries, summary, read, same⟩ := reads [sampleInput] sink {} (Arrivals.push sink.written []) 63
    wrote ⟨_, rfl⟩ (Arrivals.steady_push (by simp)) (whole _) (by rw [spelled, bytes]; rfl)
  refine ⟨sink, entries, summary, wrote, read, same, ?_, ?_, ?_⟩
  · have again := written _ _ _ _ _ [sampleInput] read told same
    rwa [whole] at again
  · refine (refuses [sampleInput] sink wrote).1 _ (.inl ( dropLast_prefix _)) ?_
    rw [spelled, bytes]
    decide
  · refine (refuses [sampleInput] sink wrote).2 30 8 ?_ ?_ ?_
    · rw [spelled, bytes]
      decide
    · rw [spelled, bytes]
      decide
    · rw [spelled, bytes, Set.injOn_pair]
      intro collision
      exact absurd collision (by decide)

end Sample

end GreenGateway.Archive
