import GreenGateway.Ledger.Invariant

/-! Every write that succeeds keeps the tables sound: a seed starts a chain, an append
puts one entry on top of the head it names, an activation only moves the pointer. -/

namespace GreenGateway.Ledger

open Foundation Config List

section Rows

variable {database after : Database} {documents : List (String × List UInt8)} {pin : String}
  {old new : Pointer}

theorem lookup_none_iff :
    documents.lookup pin = none ↔ pin ∉ documents.map Prod.fst := by
  rw [lookup_eq_none_iff]
  aesop

theorem mem_of_lookup {bytes : List UInt8}
    (found : documents.lookup pin = some bytes) : pin ∈ documents.map Prod.fst := by
  by_contra absent
  rw [lookup_none_iff.mpr absent] at found
  cases found

/-- The row `insertRevision` writes. -/
def Encoded.row (encoded : Encoded) : RevisionRow :=
  { sequence := encoded.summary.sequence
    revisionId := encoded.summary.revision.text
    recordHash := encoded.summary.recordHash
    record := encoded.text }

theorem insertRevision_eq_ok {encoded : Encoded}
    (inserted : insertRevision database encoded = .ok after) :
    after = { database with revisions := database.revisions ++ [encoded.row] } ∧
      ∀ other ∈ database.revisions, other.revisionId ≠ encoded.summary.revision.text := by
  simp only [insertRevision, sqlSequence, Database.insertRevisionRow, bind_eq_ok, unit_exists_ok,
    refuse_eq_ok, Except.ok.injEq, any_eq_false, Bool.or_eq_true, beq_iff_eq, not_or] at inserted
  obtain ⟨_, ⟨-, rfl⟩, -, unique, rfl⟩ := inserted
  exact ⟨rfl, fun other member => (unique other member).1⟩

theorem insertRequest_eq_ok {request : Option RevisionRequest} {sequence : Nat}
    (inserted : insertRequest database request sequence = .ok after) :
    after = { database with requests := database.requests ++
      (request.map fun request => (request.idempotencyKey, sequence)).toList } := by
  cases request with
  | none =>
    obtain rfl := Except.ok.inj inserted
    simp
  | some request =>
    simp only [insertRequest, sqlSequence, Database.insertRequestRow, bind_eq_ok, unit_exists_ok,
      Except.ok.injEq] at inserted
    obtain ⟨_, ⟨-, rfl⟩, -, rfl⟩ := inserted
    rfl

theorem updatePointerRow_eq_ok (updated : database.updatePointerRow old new = .ok after) :
    after = { database with pointer := some new } ∧ old.movesForward new = true := by
  simp only [Database.updatePointerRow, bind_eq_ok, unit_exists_ok, refuse_eq_ok,
    Bool.or_eq_false_iff, Bool.not_eq_false', Except.ok.injEq] at updated
  obtain ⟨⟨forward, -⟩, rfl⟩ := updated
  exact ⟨rfl, forward⟩

theorem mapM_sqlSequence {sequence result : Option Nat}
    (stored : sequence.mapM sqlSequence = .ok result) : result = sequence := by
  cases sequence with
  | none => exact (Except.ok.inj stored).symm
  | some sequence =>
    simp only [Option.mapM_some, sqlSequence, bind_eq_ok, unit_exists_ok, Except.ok.injEq,
      map_eq_pure_bind] at stored
    obtain ⟨_, ⟨-, rfl⟩, same⟩ := stored
    exact (Except.ok.inj same).symm

theorem movesForward_iff : old.movesForward new = true ↔
    old.desiredSequence ≤ new.desiredSequence ∧ ∀ was, old.activeSequence = some was →
      ∃ becomes, new.activeSequence = some becomes ∧ was ≤ becomes := by
  simp [Pointer.movesForward, Option.all_eq_true, Option.any_eq_true]

theorem movesForward_trans {first second third : Pointer}
    (one : first.movesForward second = true) (two : second.movesForward third = true) :
    first.movesForward third = true := by
  rw [movesForward_iff] at one two ⊢
  refine ⟨one.1.trans two.1, fun was held => ?_⟩
  obtain ⟨between, middle, later⟩ := one.2 was held
  obtain ⟨becomes, final, last⟩ := two.2 between middle
  exact ⟨becomes, final, later.trans last⟩

theorem movesForward_refl (pointer : Pointer) : pointer.movesForward pointer = true := by
  cases active : pointer.activeSequence <;> simp [Pointer.movesForward, active]

end Rows

variable [Codecs] {chain : List Entry} {database after : Database} {maxRevisions : Nat}

section Reading

theorem newest_sound (history : History Linked chain)
    (rows : database.revisions = chain.map Entry.row)
    (nonempty : chain ≠ []) : database.newest = some chain.length := by
  have length : 0 < chain.length := List.length_pos_iff.mpr nonempty
  rw [Database.newest, rows, row_sequences history, List.max?_eq_some_iff]
  simp only [mem_range'_1]
  exact ⟨by omega, fun sequence inside => by omega⟩

theorem hasRevision_iff (rows : database.revisions = chain.map Entry.row) {sequence : Nat} :
    database.hasRevision sequence = true ↔ ∃ entry ∈ chain, entry.summary.sequence = sequence := by
  simp [Database.hasRevision, rows, fun entry : Entry => entry.row_fields.1]

theorem revisionAt_sound (history : History Linked chain)
    (rows : database.revisions = chain.map Entry.row) {entry : Entry} (member : entry ∈ chain)
    (small : chain.length < 2 ^ 63) :
    revisionAt database entry.summary.sequence = .ok (some entry.summary) := by
  have bound := (sequence_mem history member).2
  have stored : sqlSequence entry.summary.sequence = .ok entry.summary.sequence := by
    have inside : ¬ entry.summary.sequence ≥ 2 ^ 63 := by omega
    simp only [sqlSequence, refuse, inside, decide_false, bind, Except.bind]
    rfl
  have distinct : ((chain.map Entry.row).map RevisionRow.sequence).Nodup := by
    rw [row_sequences history]
    exact nodup_range'
  have found := find?_key distinct (mem_map_of_mem member)
  rw [entry.row_fields.1] at found
  rw [revisionAt, stored, rows]
  change summaryOfRow? (List.find? _ _) = _
  rw [found, summaryOfRow?, entry.reads]
  rfl

theorem revisionById_sound (rows : database.revisions = chain.map Entry.row) {id : RevisionId}
    {summary : RevisionSummary} (found : revisionById database id = .ok (some summary)) :
    ∃ entry ∈ chain, entry.summary = summary ∧ summary.revision = id := by
  rw [revisionById, rows] at found
  cases listed : (chain.map Entry.row).find? fun row => row.revisionId == id.text with
  | none => simp [listed, summaryOfRow?] at found
  | some row =>
    obtain ⟨entry, member, rfl⟩ := List.mem_map.mp (mem_of_find?_eq_some listed)
    have named : entry.row.revisionId = id.text := by simpa using List.find?_some listed
    rw [listed, summaryOfRow?, entry.reads] at found
    obtain rfl : entry.summary = summary := Option.some.inj (Except.ok.inj found)
    refine ⟨entry, member, rfl, ?_⟩
    rw [entry.row_fields.2.1] at named
    exact congrArg RevisionId.mk named

/-- The pointer and the head of sound tables. -/
theorem pointerAndHead_sound (sound : Sound maxRevisions database chain)
    (small : maxRevisions ≤ maxSafeInteger) :
    ∃ pointer head, database.pointer = some pointer ∧ Pointed pointer chain ∧
      chain.getLast? = some head ∧ pointerAndHead database = .ok (pointer, head.summary) := by
  obtain ⟨pointer, pointed, atHead⟩ := sound.pointer
  obtain ⟨head, last, hash⟩ := Option.map_eq_some_iff.mp atHead.hash
  refine ⟨pointer, head, pointed, atHead, last, ?_⟩
  have history := linked_history sound.history
  have member : head ∈ chain := mem_of_getLast? last
  have bounded : chain.length < 2 ^ 63 := (sound.bounded.trans small).trans_lt (by decide)
  have desired : pointer.desiredSequence = head.summary.sequence := by
    rw [atHead.desired, head_sequence history last]
  simp only [pointerAndHead, bind_eq_ok, unit_exists_ok, refuse_eq_ok, okOr_eq_ok, readPointer,
    bne_eq_false_iff_eq]
  refine ⟨pointer, pointed, ?_, some head.summary, ?_, head.summary, rfl, hash, rfl⟩
  · rw [newest_sound history sound.rows (ne_nil_of_mem member), atHead.desired]
  · rw [desired, revisionAt_sound history sound.rows member bounded]

end Reading

section Documents

/-- The documents after storing `files`. -/
structure Stored (before after : List (String × List UInt8)) (files : List SourceFile) : Prop where
  keyed : (before.map Prod.fst).Nodup → (after.map Prod.fst).Nodup
  pinned : (∀ row ∈ before, sha256Pin row.2 = row.1) → ∀ row ∈ after, sha256Pin row.2 = row.1
  keys : ∀ pin, pin ∈ after.map Prod.fst ↔
    pin ∈ before.map Prod.fst ∨ ∃ file ∈ files, sha256Pin file.bytes = pin
  kept : ∀ pin bytes, before.lookup pin = some bytes → after.lookup pin = some bytes
  held : ∀ file ∈ files, after.lookup (sha256Pin file.bytes) = some file.bytes

theorem insertDocument_stored {file : SourceFile}
    (inserted : insertDocument database file = .ok after) :
    Stored database.documents after.documents [file] ∧
      after = { database with documents := after.documents } := by
  unfold insertDocument at inserted
  cases found : database.documents.lookup (sha256Pin file.bytes) with
  | some stored =>
    simp only [found, bind_eq_ok, unit_exists_ok, refuse_eq_ok, bne_eq_false_iff_eq,
      Except.ok.injEq] at inserted
    obtain ⟨rfl, rfl⟩ := inserted
    refine ⟨⟨id, id, fun pin => ?_, fun _ _ => id, by simpa using found⟩, rfl⟩
    have present := mem_of_lookup found
    constructor
    · exact Or.inl
    · rintro (listed | ⟨other, single, rfl⟩)
      · exact listed
      · rwa [List.mem_singleton.mp single]
  | none =>
    simp only [found, bind_eq_ok, unit_exists_ok, Except.ok.injEq] at inserted
    obtain ⟨-, rfl⟩ := inserted
    have absent := lookup_none_iff.mp found
    refine ⟨⟨fun distinct => ?_, fun pinned row listed => ?_, fun pin => ?_, fun pin bytes kept => ?_,
      ?_⟩, rfl⟩
    · rw [map_append, map_singleton, nodup_append]
      refine ⟨distinct, nodup_singleton _, fun pin listed other single => ?_⟩
      rw [List.mem_singleton.mp single]
      rintro rfl
      exact absent listed
    · rcases List.mem_append.mp listed with earlier | last
      · exact pinned row earlier
      · rw [List.mem_singleton.mp last]
    · simp [eq_comm]
    · rw [lookup_append, kept]
      rfl
    · intro other single
      rw [List.mem_singleton.mp single, lookup_append, found]
      simp

variable {files : List SourceFile} {bundle : RecordedBundle}
  {before later : List (String × List UInt8)}

theorem Stored.trans {first second third : List (String × List UInt8)} {more : List SourceFile}
    (one : Stored first second files) (two : Stored second third more) :
    Stored first third (files ++ more) where
  keyed := fun distinct => two.keyed (one.keyed distinct)
  pinned := fun pinned => two.pinned (one.pinned pinned)
  keys := fun pin => by
    rw [two.keys, one.keys]
    simp [or_assoc, or_and_right, exists_or]
  kept := fun pin bytes found => two.kept pin bytes (one.kept pin bytes found)
  held := fun file member => by
    rcases List.mem_append.mp member with earlier | later
    · exact two.kept _ _ (one.held file earlier)
    · exact two.held file later

theorem insertDocuments_stored (inserted : insertDocuments database files = .ok after) :
    Stored database.documents after.documents files ∧
      after = { database with documents := after.documents } := by
  induction files generalizing database with
  | nil =>
    obtain rfl : database = after := Except.ok.inj inserted
    exact ⟨⟨id, id, by simp, fun _ _ => id, by simp⟩, rfl⟩
  | cons file files ih =>
    rw [insertDocuments, foldlM_cons, bind_eq_ok] at inserted
    obtain ⟨middle, first, rest⟩ := inserted
    obtain ⟨one, unchanged⟩ := insertDocument_stored first
    obtain ⟨two, kept⟩ := ih rest
    refine ⟨one.trans two, ?_⟩
    rw [kept, unchanged]

/-- The pins a checked bundle records are those of its files. -/
theorem checkDocuments_pins (checked : checkDocuments bundle files = .ok ()) :
    bundle.files.map RecordedFile.sha256 = files.map fun file => sha256Pin file.bytes := by
  have paired := (checkDocuments_eq_ok.mp checked).1
  clear checked
  generalize bundle.files = recorded at paired ⊢
  induction paired with
  | nil => rfl
  | cons pair _ ih => rw [map_cons, map_cons, ih, pair.2.2]

theorem ManifestStored.kept (stored : Stored before later files)
    (manifest : ManifestStored before bundle) : ManifestStored later bundle := by
  obtain ⟨file, bytes, first, found, pinned, digest⟩ := manifest
  exact ⟨file, bytes, first, stored.kept _ _ found, pinned, digest⟩

theorem ManifestStored.held (stored : Stored before later files)
    (checked : checkDocuments bundle files = .ok ()) : ManifestStored later bundle := by
  obtain ⟨paired, manifest, first, digest⟩ := checkDocuments_eq_ok.mp checked
  obtain ⟨others, rfl⟩ : ∃ others, files = manifest :: others := List.head?_eq_some_iff.mp first
  obtain ⟨file, rest, matching, -, recorded⟩ := List.forall₂_cons_right_iff.mp paired
  have found := stored.held manifest mem_cons_self
  rw [matching.2.2] at found
  exact ⟨file, manifest.bytes, by rw [recorded]; rfl, found, matching.2.2, digest⟩

theorem Documented.append
    (documented : Documented before chain) (stored : Stored before later files) {entry : Entry}
    (checked : checkDocuments entry.summary.bundle files = .ok ()) :
    Documented later (chain ++ [entry]) where
  keyed := stored.keyed documented.keyed
  pinned := stored.pinned documented.pinned
  referenced := by
    intro pin
    have own : pin ∈ entry.pins ↔ ∃ file ∈ files, sha256Pin file.bytes = pin := by
      rw [Entry.pins, checkDocuments_pins checked, mem_map]
    rw [stored.keys, documented.referenced]
    simp [own, or_and_right, exists_or]
  manifest := by
    intro member listed
    rcases List.mem_append.mp listed with earlier | last
    · exact (documented.manifest member earlier).kept stored
    · rw [List.mem_singleton.mp last]
      exact .held stored checked

end Documents

section Appending

theorem checkKeyUnused_eq_ok {request : Option RevisionRequest}
    (unused : checkKeyUnused database request = .ok ()) :
    ∀ held, request = some held → database.requests.lookup held.idempotencyKey = none := by
  intro held present
  subst present
  cases found : database.requests.lookup held.idempotencyKey with
  | none => rfl
  | some earlier =>
    have refused := checkSome_eq_ok.mp unused earlier found
    simp at refused

variable {head : RevisionSummary} {pending : Pending}

theorem checkRollback_eq_ok (rows : database.revisions = chain.map Entry.row)
    (allowed : checkRollback database head pending = .ok ()) :
    ∀ target, pending.operation.target? = some target → target ≠ head.revision ∧
      ∃ restored ∈ chain, restored.summary.revision = target ∧
        restored.summary.bundle.sourceDigest = pending.bundle.sourceDigest := by
  intro target rolled
  have checks := checkSome_eq_ok.mp allowed target rolled
  simp only [bind_eq_ok, unit_exists_ok, refuse_eq_ok, okOr_eq_ok, beq_eq_false_iff_ne,
    bne_eq_false_iff_eq] at checks
  obtain ⟨notHead, found, read, restored, rfl, digest⟩ := checks
  obtain ⟨entry, member, rfl, named⟩ := revisionById_sound rows read
  exact ⟨notHead, entry, member, named, digest⟩

/-- An encoded record is an entry of the ledger once its row is stored. -/
def Encoded.entry (encoded : Encoded)
    (decoded : decode encoded.text encoded.summary.recordHash encoded.summary.revision.text =
      .ok encoded.summary) : Entry where
  row := encoded.row
  summary := encoded.summary
  reads := by
    simp [summaryOfRow, Encoded.row, decoded, refuse, bind, Except.bind]

/-- Everything an append that succeeds has done to sound tables. -/
structure Appends (database after : Database) (chain : List Entry) (expectedHead : RevisionId)
    (pending : Pending) (head entry : Entry) (old new : Pointer) : Prop where
  last : chain.getLast? = some head
  expected : head.summary.revision = expectedHead
  records : Records pending (chain.length + 1) (some head.summary.link) entry.summary
  keyUnused : ∀ request, pending.request = some request →
    database.requests.lookup request.idempotencyKey = none
  before : database.pointer = some old
  moved : after.pointer = some new
  forward : old.movesForward new = true
  active : new.activeSequence = nextActive old head.summary pending (chain.length + 1)

/-- An entry recorded on top of the head, under the checks of an append, continues the
chain. -/
theorem append_follows (sound : Sound maxRevisions database chain) {head entry : Entry}
    (last : chain.getLast? = some head)
    (records : Records pending (chain.length + 1) (some head.summary.link) entry.summary)
    (notSeed : pending.operation ≠ .seed)
    (rollback : ∀ target, pending.operation.target? = some target →
      target ≠ head.summary.revision ∧ ∃ restored ∈ chain, restored.summary.revision = target ∧
        restored.summary.bundle.sourceDigest = pending.bundle.sourceDigest)
    (unique : ∀ other ∈ database.revisions, other.revisionId ≠ entry.summary.revision.text) :
    Follows chain entry where
  sequence := records.sequence
  parent := by rw [records.parent, last, Option.map_some]
  seed := by
    rw [records.operation]
    exact iff_of_false notSeed (ne_nil_of_mem (mem_of_getLast? last))
  target := by
    intro target rolled
    rw [records.operation] at rolled
    obtain ⟨notHead, restored, member, named, digest⟩ := rollback target rolled
    rw [last, records.bundle]
    exact ⟨fun same => notHead (Option.some.inj same).symm, restored, member, named, digest⟩
  fresh := by
    intro other member same
    have listed : other.row ∈ database.revisions := sound.rows ▸ mem_map_of_mem member
    exact unique other.row listed (by rw [other.row_fields.2.1, same])

theorem nextActive_bound {pointer : Pointer} (pointed : Pointed pointer chain) {sequence : Nat}
    (held : nextActive pointer head pending (chain.length + 1) = some sequence) :
    1 ≤ sequence ∧ sequence ≤ chain.length + 1 := by
  unfold nextActive at held
  cases active : pointer.activeSequence with
  | none => simp [active] at held
  | some was =>
    have bound := pointed.active was active
    simp only [active] at held
    split at held
    · have := Option.some.inj held
      omega
    · have := Option.some.inj held
      omega

theorem append_sound (parses : ParsesRecords) (sound : Sound maxRevisions database chain)
    (small : maxRevisions ≤ maxSafeInteger) {expectedHead : RevisionId}
    {files : List SourceFile} {summary : RevisionSummary}
    (checked : checkDocuments pending.bundle files = .ok ()) (notSeed : pending.operation ≠ .seed)
    (appended : append database maxRevisions expectedHead pending files = .ok (after, summary)) :
    ∃ head entry old new, Appends database after chain expectedHead pending head entry old new ∧
      entry.summary = summary ∧ Sound maxRevisions after (chain ++ [entry]) := by
  obtain ⟨old, head, before, pointed, last, read⟩ := pointerAndHead_sound sound small
  have history := linked_history sound.history
  have position := head_sequence history last
  simp only [append, read, bind_eq_ok, unit_exists_ok, Except.ok.injEq, Prod.mk.injEq,
    exists_eq_left'] at appended
  obtain ⟨unused, expected, room, rollback, encoded, encoding, stored, documents, listed, revision,
    indexed, request, desired, desiredStored, active, activeStored, updated, pointer, rfl, rfl⟩ :=
    appended
  simp only [refuse_eq_ok, bne_eq_false_iff_eq, decide_eq_false_iff_not, not_le, ge_iff_le]
    at expected room
  rw [position] at room encoding
  have sequenced : chain.length + 1 ≤ maxSafeInteger := by omega
  obtain ⟨decoded, records⟩ := encode_records parses sequenced encoding
  obtain ⟨documented, documentsOnly⟩ := insertDocuments_stored documents
  obtain ⟨rfl, unique⟩ := insertRevision_eq_ok revision
  obtain rfl := insertRequest_eq_ok request
  obtain ⟨rfl, forward⟩ := updatePointerRow_eq_ok pointer
  simp only [sqlSequence, bind_eq_ok, unit_exists_ok, Except.ok.injEq] at desiredStored
  obtain ⟨-, rfl⟩ := desiredStored
  have activeSame := mapM_sqlSequence activeStored
  have unchanged : stored.revisions = database.revisions := by rw [documentsOnly]
  have follows : Follows chain (encoded.entry decoded) :=
    append_follows sound last records notSeed
      (checkRollback_eq_ok sound.rows rollback) (unchanged ▸ unique)
  refine ⟨head, encoded.entry decoded, old, _,
    ⟨last, expected, records, checkKeyUnused_eq_ok unused, before, rfl, forward, ?_⟩, rfl, ?_⟩
  · rw [activeSame, position]
  exact
    { applicationId := (congrArg Database.applicationId documentsOnly).trans sound.applicationId
      userVersion := (congrArg Database.userVersion documentsOnly).trans sound.userVersion
      schema := (congrArg Database.schema documentsOnly).trans sound.schema
      rows := by
        change stored.revisions ++ [encoded.row] = _
        rw [unchanged, sound.rows, map_append]
        rfl
      history := sound.history.snoc follows
      documents := sound.documents.append documented (records.bundle ▸ checked)
      requests := by
        change stored.requests ++ _ = _
        rw [congrArg Database.requests documentsOnly, sound.requests, filterMap_append,
          ← records.request, position, ← records.sequence]
        rfl
      pointer := by
        refine ⟨_, rfl, ?_, ?_, ?_⟩
        · rw [position, length_append, length_singleton]
        · simp [Encoded.entry]
        · intro sequence held
          rw [activeSame, position] at held
          rw [length_append, length_singleton]
          exact nextActive_bound pointed held
      bounded := by
        rw [length_append, length_singleton]
        omega }

end Appending

section Activating

/-- Everything an activation that succeeds has done to sound tables. -/
structure Activates (database after : Database) (chain : List Entry) (desired : RevisionId)
    (head : Entry) (old : Pointer) : Prop where
  last : chain.getLast? = some head
  expected : head.summary.revision = desired
  before : database.pointer = some old
  moved : after = { database with
    pointer := some { old with activeSequence := some chain.length } }
  forward : old.movesForward { old with activeSequence := some chain.length } = true

theorem activate_sound (sound : Sound maxRevisions database chain)
    (small : maxRevisions ≤ maxSafeInteger) {desired : RevisionId}
    (activated : activate database desired = .ok after) :
    ∃ head old, Activates database after chain desired head old ∧
      Sound maxRevisions after chain := by
  obtain ⟨old, head, before, pointed, last, read⟩ := pointerAndHead_sound sound small
  have position := head_sequence (linked_history sound.history) last
  simp only [activate, read, bind_eq_ok, unit_exists_ok, Except.ok.injEq, exists_eq_left',
    refuse_eq_ok, bne_eq_false_iff_eq, position] at activated
  obtain ⟨expected, moved⟩ := activated
  have done : Activates database after chain desired head old := by
    split at moved
    · obtain ⟨rfl, forward⟩ := updatePointerRow_eq_ok moved
      have same := congrArg (fun active => { old with activeSequence := some active })
        pointed.desired
      exact ⟨last, expected, before, by rw [← same], by rwa [← same]⟩
    next already =>
      obtain rfl := Except.ok.inj moved
      have same : { old with activeSequence := some chain.length } = old := by
        have held : old.activeSequence = some chain.length := by simpa using already
        rw [← held]
      refine ⟨last, expected, before, ?_, ?_⟩
      · rw [same, ← before]
      · rw [same]
        exact movesForward_refl old
  refine ⟨head, old, done, ?_⟩
  rw [done.moved]
  exact
    { sound with
      pointer := ⟨_, rfl, pointed.desired, pointed.hash, by
        intro sequence held
        obtain rfl : chain.length = sequence := Option.some.inj held
        exact ⟨length_pos_of_mem (mem_of_getLast? last), le_rfl⟩⟩ }

end Activating

section Seeding

/-- A seeded ledger holds the chain of its seed, not yet active. -/
theorem initializeLedger_sound (parses : ParsesRecords) (limit : 1 ≤ maxRevisions)
    {pending : Pending} {files : List SourceFile}
    (checked : checkDocuments pending.bundle files = .ok ()) (seed : pending.operation = .seed)
    (initialized : initializeLedger pending files = .ok database) :
    ∃ entry, Records pending 1 none entry.summary ∧ Sound maxRevisions database [entry] ∧
      database.pointer =
        some { desiredSequence := 1
               desiredRecordHash := entry.summary.recordHash
               activeSequence := none } := by
  simp only [initializeLedger, Database.insertPointerRow, bind_eq_ok, unit_exists_ok, refuse_eq_ok,
    Except.ok.injEq] at initialized
  obtain ⟨unrequested, encoded, encoding, -, stored, documents, listed, revision, -, rfl⟩ :=
    initialized
  obtain ⟨decoded, records⟩ := encode_records parses (by decide) encoding
  obtain ⟨documented, documentsOnly⟩ := insertDocuments_stored documents
  obtain ⟨rfl, -⟩ := insertRevision_eq_ok revision
  have unrequested : encoded.summary.request = none := by
    rw [records.request]
    simpa using unrequested
  have empty : Documented [] [] := ⟨nodup_nil, by simp, by simp, by simp⟩
  have follows : Follows [] (encoded.entry decoded) :=
    { sequence := records.sequence
      parent := records.parent
      seed := iff_of_true (records.operation.trans seed) rfl
      target := by
        intro target rolled
        rw [Encoded.entry, records.operation, seed] at rolled
        cases rolled
      fresh := by simp }
  refine ⟨encoded.entry decoded, records, ?_, rfl⟩
  exact
    { applicationId := by rw [documentsOnly]
      userVersion := by rw [documentsOnly]
      schema := by rw [documentsOnly]
      rows := by
        change stored.revisions ++ [encoded.row] = _
        rw [documentsOnly]
        rfl
      history := History.nil.snoc follows
      documents := empty.append documented (records.bundle ▸ checked)
      requests := by
        change stored.requests = _
        rw [documentsOnly]
        simp [Entry.requestRow, Encoded.entry, unrequested]
      pointer := ⟨_, rfl, rfl, rfl, by simp⟩
      bounded := limit }

end Seeding

end GreenGateway.Ledger
