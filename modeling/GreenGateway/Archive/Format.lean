import GreenGateway.Archive.Container
import GreenGateway.Config.Digests

/-! The container's byte grammar: what the writer writes, and that no archive is a proper
start of another. -/

namespace GreenGateway.Archive

open Foundation Config List ContainerWriter Reader

section Grammar

/-- What stands before a record's data. -/
def headerBytes (kind : UInt8) (name : List UInt8) (size : Nat) : List UInt8 :=
  kind :: (bigEndian 2 name.length ++ (name ++ bigEndian 8 size))

/-- One record of the container. -/
structure Record where
  kind : UInt8
  name : List UInt8
  content : List UInt8
  deriving DecidableEq, Repr

namespace Record

def bytes (record : Record) : List UInt8 :=
  headerBytes record.kind record.name record.content.length ++ record.content

/-- A record whose parts fit their frames. -/
structure Framed (record : Record) : Prop where
  kind : record.kind ≠ endKind
  name : record.name.length < 2 ^ 16
  content : record.content.length < 2 ^ 64

def file (name : String) (content : List UInt8) : Record :=
  { kind := fileKind, name := utf8 name, content }

end Record

def preamble : List UInt8 := magic ++ (bigEndian 2 formatVersion ++ bigEndian 2 flags)

def endRecord (count : Nat) : List UInt8 := endKind :: bigEndian 4 count

/-- Everything the digest is taken of. -/
def body (records : List Record) : List UInt8 :=
  preamble ++ (records.flatMap Record.bytes ++ endRecord records.length)

def archive [Codecs] (records : List Record) : List UInt8 :=
  body records ++ Codecs.sha256 (body records)

theorem bigEndian_inj {width left right : Nat} (small : left < 256 ^ width)
    (small' : right < 256 ^ width) (same : bigEndian width left = bigEndian width right) :
    left = right := by
  have values := congrArg fromBigEndian same
  rwa [fromBigEndian_bigEndian, fromBigEndian_bigEndian, Nat.mod_eq_of_lt small,
    Nat.mod_eq_of_lt small'] at values

/-- A record says where it ends. -/
theorem Record.bytes_cancel {left right : Record} {rest rest' : List UInt8} (framed : left.Framed)
    (framed' : right.Framed) (starts : left.bytes ++ rest <+: right.bytes ++ rest') :
    left = right ∧ rest <+: rest' := by
  obtain ⟨more, same⟩ := starts
  simp only [Record.bytes, headerBytes, cons_append, append_assoc] at same
  obtain ⟨kinds, afterKind⟩ := List.cons.inj same
  obtain ⟨lengths, afterLength⟩ := append_inj afterKind (by simp)
  have named := bigEndian_inj framed.name framed'.name lengths
  obtain ⟨names, afterName⟩ := append_inj afterLength named
  obtain ⟨sizes, afterSize⟩ := append_inj afterName (by simp)
  have sized := bigEndian_inj framed.content framed'.content sizes
  obtain ⟨contents, tails⟩ := append_inj afterSize sized
  refine ⟨?_, more, tails⟩
  exact Record.mk.injEq .. ▸ ⟨kinds, names, contents⟩

variable {left right : List Record}

theorem records_cancel {count count' : Nat} {digest digest' : List UInt8}
    (framed : ∀ record ∈ left, record.Framed) (framed' : ∀ record ∈ right, record.Framed)
    (sized : digest.length = digest'.length)
    (starts : left.flatMap Record.bytes ++ (endRecord count ++ digest) <+:
      right.flatMap Record.bytes ++ (endRecord count' ++ digest')) :
    left = right ∧ endRecord count ++ digest = endRecord count' ++ digest' := by
  induction left generalizing right with
  | nil =>
    cases right with
    | nil =>
      obtain ⟨more, same⟩ := starts
      have lengths := congrArg List.length same
      simp only [endRecord, length_append, length_cons, bigEndian_length] at lengths
      obtain rfl : more = [] := eq_nil_of_length_eq_zero (by omega)
      exact ⟨rfl, by simpa using same⟩
    | cons record right =>
      obtain ⟨more, same⟩ := starts
      exact absurd (List.cons.inj same).1.symm (framed' record (by simp)).kind
  | cons record left ih =>
    cases right with
    | nil =>
      obtain ⟨more, same⟩ := starts
      simp only [flatMap_nil, nil_append, flatMap_cons, endRecord, Record.bytes,
        headerBytes, cons_append] at same
      exact absurd (List.cons.inj same).1 (framed record (by simp)).kind
    | cons record' right =>
      rw [flatMap_cons, flatMap_cons, append_assoc, append_assoc] at starts
      obtain ⟨rfl, others⟩ := Record.bytes_cancel (framed record (by simp))
        (framed' record' (by simp)) starts
      obtain ⟨rfl, ends⟩ := ih (List.forall_mem_cons.mp framed).2
        (List.forall_mem_cons.mp framed').2 others
      exact ⟨rfl, ends⟩

variable [Codecs]

theorem archive_eq (records : List Record) :
    archive records = preamble ++ (records.flatMap Record.bytes ++
      (endRecord records.length ++ Codecs.sha256 (body records))) := by
  simp [archive, body]

theorem archive_cancel (sized : DigestsSized)
    (framed : ∀ record ∈ left, record.Framed) (framed' : ∀ record ∈ right, record.Framed)
    (starts : archive left <+: archive right) : left = right := by
  rw [archive_eq, archive_eq, prefix_append_right_inj] at starts
  exact (records_cancel framed framed' ((sized _).trans (sized _).symm) starts).1

end Grammar

section Written

/-- The writer once `bytes` are through a sink that takes everything. -/
def ContainerWriter.wrote (writer : ContainerWriter) (bytes : List UInt8) : ContainerWriter :=
  { writer with
    sink := { writer.sink with written := writer.sink.written ++ bytes }
    hashed := writer.hashed ++ bytes }

variable {writer : ContainerWriter}

theorem writeAll_unbounded (unbounded : writer.sink.room = none) (bytes : List UInt8) :
    writer.writeAll bytes = .ok (writer.wrote bytes) := by
  simp [writeAll, Sink.writeAll, unbounded, okOr, bind, Except.bind,
    ContainerWriter.wrote]

@[simp] theorem wrote_room (bytes : List UInt8) :
    (writer.wrote bytes).sink.room = writer.sink.room :=
  rfl

@[simp] theorem wrote_wrote (first second : List UInt8) :
    (writer.wrote first).wrote second = writer.wrote (first ++ second) := by
  simp [ContainerWriter.wrote]

variable {ρ : Type} [Reader ρ] {name : String} {size : UInt64} {data rest : ρ}

/-- What the copy loop has done once `got` is through. -/
structure Wrote (writer : ContainerWriter) (size : Nat) (got : List UInt8)
    (writing : Writing) : Prop where
  writer : writing.writer = writer.wrote got
  remaining : writing.remaining + got.length = size
  content : writing.content = got

theorem Wrote.start (writer : ContainerWriter) (size : Nat) :
    Wrote writer size [] { writer, remaining := size } :=
  ⟨by simp [ContainerWriter.wrote], by simp, rfl⟩

variable {count : Nat} {writing : Writing}

theorem Wrote.step {got bytes : List UInt8}
    (unbounded : writer.sink.room = none) (wrote : Wrote writer count got writing)
    (short : bytes.length ≤ writing.remaining) :
    ∃ next, writing.step bytes = .ok next ∧ Wrote writer count (got ++ bytes) next := by
  have room : writing.writer.sink.room = none := by rw [wrote.writer, wrote_room, unbounded]
  refine ⟨_, by rw [Writing.step, writeAll_unbounded room]; rfl, ?_, ?_, ?_⟩
  · rw [wrote.writer, wrote_wrote]
  · have := wrote.remaining
    rw [length_append]
    dsimp only
    omega
  · dsimp only
    rw [wrote.content]

/-- What the copy loop did, whatever pieces the data came in. -/
theorem copy_took (unbounded : writer.sink.room = none)
    (copied : consume (fun writing : Writing => min writing.remaining chunkBytes)
      Writing.step id { writer, remaining := count } data = .ok (writing, rest)) :
    ∃ got, contents data = got ++ contents rest ∧ Wrote writer count got writing ∧
      (writing.remaining = 0 ∨ contents rest = []) := by
  have steps : ∀ got (writing : Writing) bytes next, Wrote writer count got writing →
      bytes.length ≤ min writing.remaining chunkBytes → writing.step bytes = .ok next →
      Wrote writer count (got ++ bytes) next := by
    intro got writing bytes next took within taken
    obtain ⟨_, stepped, wrote⟩ := took.step unbounded (within.trans (Nat.min_le_left _ _))
    exact Except.ok.inj (stepped.symm.trans taken) ▸ wrote
  obtain ⟨got, split, took, -, stopped⟩ := consume_took (Wrote writer count) (fun _ _ => True)
    (.start writer count) trivial steps (fun _ _ _ _ _ _ _ => trivial) copied
  refine ⟨got, split, took, stopped.imp_left fun none => ?_⟩
  have chunk : chunkBytes ≠ 0 := by decide
  omega

theorem copy_steady (count : Nat) (unbounded : writer.sink.room = none)
    (steady : Steady data) :
    ∃ writing rest, consume
      (fun writing : Writing => min writing.remaining chunkBytes)
      Writing.step id { writer, remaining := count } data = .ok (writing, rest) ∧
        Steady rest :=
  consume_steady (Wrote writer count) (.start writer count)
    (fun _ _ _ took _ within _ => took.step unbounded (within.trans (Nat.min_le_left _ _))) steady

/-- A source read to its end without a byte left over. -/
theorem ended_contents {ended : Unit × ρ}
    (read : consume (fun _ : Unit => 1) (fun _ _ => .error .invalidData) (id : ErrorKind → ErrorKind)
      () data = .ok ended) : contents data = [] := by
  obtain ⟨got, split, rfl, -, full | empty⟩ := consume_took (fun got _ => got = [])
    (fun _ _ => True) rfl trivial (fun _ _ _ _ _ _ taken => by cases taken)
    (fun _ _ _ _ _ _ _ => trivial) read
  · cases full
  · rw [split, empty]
    rfl

theorem ended_steady (steady : Steady data) (empty : contents data = []) :
    ∃ ended, consume (fun _ : Unit => 1) (fun _ _ => .error .invalidData)
      (id : ErrorKind → ErrorKind) () data = .ok ended := by
  have nothing : ∀ (got : List UInt8) (state : Unit) bytes, got = [] → bytes ≠ [] →
      bytes.length ≤ 1 → got ++ bytes <+: contents data →
      ∃ next, (.error .invalidData : Except ErrorKind Unit) = .ok next ∧ got ++ bytes = [] := by
    rintro _ _ bytes rfl nonempty - inside
    rw [empty, nil_append, prefix_nil] at inside
    exact absurd inside nonempty
  obtain ⟨final, rest, read, -⟩ := consume_steady (fun got _ => got = []) rfl nothing steady
  exact ⟨_, read⟩

variable [Codecs]

section

variable (unbounded : writer.sink.room = none)

include unbounded

/-- Into a sink that takes everything, a file is its header, its data and nothing after. -/
theorem file_unbounded {result : List UInt8 × ContainerWriter} :
    writer.file name size data = .ok result ↔
      Text.len name < 2 ^ 16 ∧ writer.records + 1 < 2 ^ 32 ∧ ∃ writing rest,
        consume (fun writing : Writing => min writing.remaining chunkBytes)
          Writing.step id
          { writer := { writer with records := writer.records + 1 }.wrote (headerBytes fileKind (utf8 name) size.toNat)
            remaining := size.toNat } data = .ok (writing, rest) ∧
        writing.remaining = 0 ∧
        (∃ ended, consume (fun _ : Unit => 1) (fun _ _ => .error .invalidData) id () rest = .ok ended) ∧
        (Codecs.sha256 writing.content, writing.writer) = result := by
  have header : [fileKind] ++ bigEndian 2 (Text.len name) ++ utf8 name ++ bigEndian 8 size.toNat =
      headerBytes fileKind (utf8 name) size.toNat := by
    simp [headerBytes, utf8_length, Text.len]
  simp only [file, bind_eq_ok, unit_exists_ok, refuse_eq_ok, Prod.exists,
    decide_eq_false_iff_not, not_le, writeAll_unbounded, unbounded, wrote_room, Except.ok.injEq,
    exists_eq_left', wrote_wrote, gt_iff_lt, Nat.pos_iff_ne_zero, not_not, header]
  simp

theorem file_eq_ok {digest : List UInt8}
    {next : ContainerWriter} (wrote : writer.file name size data = .ok (digest, next)) :
    Text.len name < 2 ^ 16 ∧ writer.records + 1 < 2 ^ 32 ∧
      size.toNat = (contents data).length ∧
      next = { writer with records := writer.records + 1 }.wrote
        (Record.file name (contents data)).bytes := by
  obtain ⟨short, few, writing, rest, copied, done, ⟨ended, read⟩, same⟩ :=
    (file_unbounded unbounded).mp wrote
  obtain ⟨got, split, took, -⟩ := copy_took (by simpa using unbounded) copied
  rw [ended_contents read, append_nil] at split
  have size : size.toNat = got.length := by
    have := took.remaining
    omega
  refine ⟨short, few, by rw [split, size], ?_⟩
  rw [← (Prod.mk.inj same).2, took.writer, wrote_wrote, split, size]
  rfl

/-- Data that is as long as it should be is written, whatever pieces it comes in. -/
theorem file_complete (steady : Steady data)
    (short : Text.len name < 2 ^ 16) (few : writer.records + 1 < 2 ^ 32)
    (sized : size.toNat = (contents data).length) :
    ∃ digest next, writer.file name size data = .ok (digest, next) := by
  have base : ({ writer with records := writer.records + 1 }.wrote (headerBytes fileKind (utf8 name) size.toNat)).sink.room =
      none := unbounded
  obtain ⟨writing, rest, copied, calm⟩ := copy_steady size.toNat base steady
  obtain ⟨got, split, took, stopped⟩ := copy_took base copied
  have lengths := congrArg List.length split
  have remaining := took.remaining
  rw [length_append] at lengths
  have done : writing.remaining = 0 := by
    rcases stopped with done | empty
    · exact done
    · rw [empty, length_nil] at lengths
      omega
  have empty : contents rest = [] := eq_nil_of_length_eq_zero (by omega)
  obtain ⟨ended, read⟩ := ended_steady calm empty
  exact ⟨_, _, (file_unbounded unbounded).mpr ⟨short, few, writing, rest, copied, done,
    ⟨_, read⟩, rfl⟩⟩

end

/-- A file handed to the writer: its name, its size and the source of its data. -/
structure Input (ρ : Type) where
  name : String
  size : UInt64
  data : ρ

def Input.record (input : Input ρ) : Record := .file input.name (contents input.data)

def ContainerWriter.add (writer : ContainerWriter) (input : Input ρ) :
    Except ErrorKind ContainerWriter := do
  let (_, writer) ← writer.file input.name input.size input.data
  .ok writer

/-- Writes an archive of `inputs`: the preamble, each file, and the end record. -/
def writeArchive (inputs : List (Input ρ)) (sink : Sink) : Except ErrorKind Sink := do
  let writer ← ContainerWriter.new sink
  let writer ← inputs.foldlM ContainerWriter.add writer
  writer.finish

/-- A file whose record fits its frame. -/
structure Writable (input : Input ρ) : Prop where
  short : Text.len input.name < 2 ^ 16
  sized : input.size.toNat = (contents input.data).length

omit [Codecs] in
theorem Writable.framed {input : Input ρ} (writable : Writable input) : input.record.Framed where
  kind := show fileKind ≠ endKind by decide
  name := by
    have := writable.short
    rwa [Text.len, ← utf8_length] at this
  content := by
    rw [Input.record, Record.file, ← writable.sized]
    exact input.size.toNat_lt

/-- The writer once the records of `inputs` are through. -/
def ContainerWriter.added (writer : ContainerWriter) (inputs : List (Input ρ)) : ContainerWriter :=
  { writer with records := writer.records + inputs.length }.wrote
    ((inputs.map Input.record).flatMap Record.bytes)

variable {inputs : List (Input ρ)}

theorem addAll_eq_ok {final : ContainerWriter} (writer : ContainerWriter)
    (unbounded : writer.sink.room = none) (counted : writer.records < 2 ^ 32)
    (wrote : inputs.foldlM ContainerWriter.add writer = .ok final) :
    (∀ input ∈ inputs, Writable input) ∧ writer.records + inputs.length < 2 ^ 32 ∧
      final = writer.added inputs := by
  induction inputs generalizing writer with
  | nil =>
    obtain rfl : writer = final := Except.ok.inj wrote
    exact ⟨by simp, counted, by simp [ContainerWriter.added, ContainerWriter.wrote]⟩
  | cons input inputs ih =>
    simp only [foldlM_cons, ContainerWriter.add, bind_eq_ok, Prod.exists, Except.ok.injEq] at wrote
    obtain ⟨_, ⟨digest, _, filed, rfl⟩, others⟩ := wrote
    obtain ⟨short, few, sized, rfl⟩ := file_eq_ok unbounded filed
    obtain ⟨writable, bounded, rfl⟩ := ih _ (by exact unbounded) few others
    refine ⟨List.forall_mem_cons.mpr ⟨⟨short, sized⟩, writable⟩, ?_, ?_⟩
    · rw [length_cons]
      change writer.records + 1 + inputs.length < 2 ^ 32 at bounded
      omega
    · simp only [ContainerWriter.added, ContainerWriter.wrote, length_cons, map_cons,
        flatMap_cons, Input.record, append_assoc]
      congr 1
      omega

theorem addAll_complete (writer : ContainerWriter) (unbounded : writer.sink.room = none)
    (writable : ∀ input ∈ inputs, Writable input ∧ Steady input.data)
    (few : writer.records + inputs.length < 2 ^ 32) :
    ∃ final, inputs.foldlM ContainerWriter.add writer = .ok final := by
  induction inputs generalizing writer with
  | nil => exact ⟨writer, rfl⟩
  | cons input inputs ih =>
    obtain ⟨⟨own, steady⟩, others⟩ := List.forall_mem_cons.mp writable
    rw [length_cons] at few
    obtain ⟨digest, next, filed⟩ := file_complete unbounded steady own.short (by omega) own.sized
    obtain ⟨-, -, -, rfl⟩ := file_eq_ok unbounded filed
    obtain ⟨final, wrote⟩ := ih
      ({ writer with records := writer.records + 1 }.wrote input.record.bytes) unbounded others
      (by change writer.records + 1 + inputs.length < 2 ^ 32; omega)
    refine ⟨final, ?_⟩
    rw [foldlM_cons, ContainerWriter.add, filed]
    exact wrote

omit [Codecs] in
theorem new_unbounded :
    ContainerWriter.new {} = .ok (({ sink := {} } : ContainerWriter).wrote preamble) := by
  rfl

theorem finish_unbounded (unbounded : writer.sink.room = none) :
    writer.finish = okOr (Sink.flush { writer.sink with
      written := writer.sink.written ++ endRecord writer.records ++
        Codecs.sha256 (writer.hashed ++ endRecord writer.records) }) .other := by
  simp [finish, writeAll_unbounded, unbounded, bind, Except.bind,
    ContainerWriter.wrote, Sink.writeAll, okOr, endRecord]

variable {sink : Sink}

theorem writeArchive_unbounded :
    writeArchive inputs {} = .ok sink ↔
      ∃ final, inputs.foldlM ContainerWriter.add
        (({ sink := {} } : ContainerWriter).wrote preamble) = .ok final ∧ final.finish = .ok sink := by
  simp [writeArchive, new_unbounded, bind_eq_ok]

/-- What the writer writes is the archive of its inputs. -/
theorem writeArchive_eq_ok (wrote : writeArchive inputs {} = .ok sink) :
    (∀ input ∈ inputs, Writable input) ∧ inputs.length < 2 ^ 32 ∧
      sink.written = archive (inputs.map Input.record) := by
  obtain ⟨final, added, finished⟩ := writeArchive_unbounded.mp wrote
  obtain ⟨writable, few, rfl⟩ := addAll_eq_ok _ rfl (by decide) added
  refine ⟨writable, by simpa [ContainerWriter.wrote] using few, ?_⟩
  rw [finish_unbounded rfl, okOr_eq_ok, Sink.flush_eq_some] at finished
  rw [← finished.2]
  simp [ContainerWriter.added, ContainerWriter.wrote, archive, body]

theorem writeArchive_complete
    (writable : ∀ input ∈ inputs, Writable input ∧ Steady input.data)
    (few : inputs.length < 2 ^ 32) : ∃ sink, writeArchive inputs {} = .ok sink := by
  obtain ⟨final, added⟩ := addAll_complete (({ sink := {} } : ContainerWriter).wrote preamble) rfl
    writable (by simpa [ContainerWriter.wrote] using few)
  obtain ⟨-, -, rfl⟩ := addAll_eq_ok _ rfl (by decide) added
  obtain ⟨sink, finished⟩ : ∃ sink,
      (ContainerWriter.added (({ sink := {} } : ContainerWriter).wrote preamble) inputs).finish =
        .ok sink := by
    exact ⟨_, rfl⟩
  exact ⟨sink, writeArchive_unbounded.mpr ⟨_, added, finished⟩⟩

end Written

end GreenGateway.Archive
