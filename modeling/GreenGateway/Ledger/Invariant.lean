import GreenGateway.Foundation.History
import GreenGateway.Ledger.Store

/-! What every reachable set of tables satisfies: a chain of readable records, documents
and request rows that are exactly the ones the records name, and a pointer at the head.
Tables like these verify. -/

namespace GreenGateway.Ledger

open Foundation Config List

variable [Codecs]

/-- A stored row with the record it reads as. -/
structure Entry where
  row : RevisionRow
  summary : RevisionSummary
  reads : summaryOfRow row = .ok summary

namespace Entry

def pins (entry : Entry) : List String := entry.summary.bundle.files.map RecordedFile.sha256

/-- The index row of the request the entry records. -/
def requestRow (entry : Entry) : Option (String × Nat) :=
  entry.summary.request.map fun request => (request.idempotencyKey, entry.summary.sequence)

theorem row_fields (entry : Entry) :
    entry.row.sequence = entry.summary.sequence ∧
      entry.row.revisionId = entry.summary.revision.text ∧
      entry.row.recordHash = entry.summary.recordHash ∧ entry.pins.length ≤ 4 := by
  have reads := entry.reads
  simp only [summaryOfRow, bind_eq_ok, unit_exists_ok, refuse_eq_ok, bne_eq_false_iff_eq,
    Except.ok.injEq] at reads
  obtain ⟨summary, decoded, sequence, rfl⟩ := reads
  obtain ⟨revision, recordHash, formed⟩ := decode_identity decoded
  refine ⟨sequence, revision.symm, recordHash.symm, ?_⟩
  simpa [pins] using isWellFormed_files formed

end Entry

open Entry

/-- The link a child records to its parent. -/
def RevisionSummary.link (summary : RevisionSummary) : ParentLink :=
  { revision := summary.revision, recordHash := summary.recordHash }

/-- An entry's place in the chain: the next sequence, on top of the last entry. -/
structure Linked (earlier : List Entry) (entry : Entry) : Prop where
  sequence : entry.summary.sequence = earlier.length + 1
  parent : entry.summary.parent = earlier.getLast?.map fun previous => previous.summary.link
  seed : entry.summary.operation = .seed ↔ earlier = []

/-- An entry continues the chain `earlier`: in its place, under a new ID, and restoring
only what an earlier revision held. -/
structure Follows (earlier : List Entry) (entry : Entry) : Prop extends Linked earlier entry where
  target : ∀ target, entry.summary.operation.target? = some target →
    (earlier.getLast?.map fun previous => previous.summary.revision) ≠ some target ∧
      ∃ restored ∈ earlier, restored.summary.revision = target ∧
        restored.summary.bundle.sourceDigest = entry.summary.bundle.sourceDigest
  fresh : ∀ other ∈ earlier, other.summary.revision ≠ entry.summary.revision

/-- A bundle's manifest is stored, with bytes of its source digest. -/
def ManifestStored (documents : List (String × List UInt8)) (bundle : RecordedBundle) : Prop :=
  ∃ manifest bytes, bundle.files.head? = some manifest ∧
    documents.lookup manifest.sha256 = some bytes ∧ sha256Pin bytes = manifest.sha256 ∧
    sourceDigest manifestMediaType bundle.apiVersion.asStr bytes = bundle.sourceDigest

/-- The documents are exactly the ones the chain records, each under its pin. -/
structure Documented (documents : List (String × List UInt8)) (chain : List Entry) : Prop where
  keyed : (documents.map Prod.fst).Nodup
  pinned : ∀ row ∈ documents, sha256Pin row.2 = row.1
  referenced : ∀ pin, pin ∈ documents.map Prod.fst ↔ ∃ entry ∈ chain, pin ∈ entry.pins
  manifest : ∀ entry ∈ chain, ManifestStored documents entry.summary.bundle

/-- The pointer's row for a chain: at the head, with an active revision of the chain. -/
structure Pointed (pointer : Pointer) (chain : List Entry) : Prop where
  desired : pointer.desiredSequence = chain.length
  hash : (chain.getLast?.map fun head => head.summary.recordHash) = some pointer.desiredRecordHash
  active : ∀ sequence, pointer.activeSequence = some sequence →
    1 ≤ sequence ∧ sequence ≤ chain.length

/-- The tables hold the chain `chain`. -/
structure Sound (maxRevisions : Nat) (database : Database) (chain : List Entry) : Prop where
  applicationId : database.applicationId = applicationId
  userVersion : database.userVersion = formatVersion
  schema : database.schema = schema
  rows : database.revisions = chain.map row
  history : History Follows chain
  documents : Documented database.documents chain
  requests : database.requests = chain.filterMap requestRow
  pointer : ∃ pointer, database.pointer = some pointer ∧ Pointed pointer chain
  bounded : chain.length ≤ maxRevisions

section Chains

variable {chain : List Entry}

theorem linked_history (history : History Follows chain) : History Linked chain :=
  history.mono fun _ _ follows => follows.toLinked

section

variable (history : History Linked chain)

include history

theorem sequences :
    (chain.map fun entry => entry.summary.sequence) = List.range' 1 chain.length := by
  induction history with
  | nil => rfl
  | @snoc earlier entry _ linked ih =>
    rw [map_append, ih, length_append, length_singleton,
      range'_1_concat, map_singleton, linked.sequence, Nat.add_comm]

theorem row_sequences :
    (chain.map row).map RevisionRow.sequence = List.range' 1 chain.length := by
  rw [map_map, ← sequences history]
  exact map_congr_left fun entry _ => entry.row_fields.1

theorem sequence_mem {entry : Entry} (member : entry ∈ chain) :
    1 ≤ entry.summary.sequence ∧ entry.summary.sequence ≤ chain.length := by
  have listed := mem_map_of_mem (f := fun entry : Entry => entry.summary.sequence) member
  rw [sequences history, mem_range'_1] at listed
  omega

end

theorem revisions_nodup (history : History Follows chain) :
    (chain.map fun entry => entry.summary.revision).Nodup := by
  induction history with
  | nil => exact nodup_nil
  | @snoc earlier entry _ follows ih =>
    rw [map_append, map_singleton, nodup_append]
    refine ⟨ih, nodup_singleton _, ?_⟩
    intro revision listed other single
    obtain ⟨member, owned, rfl⟩ := List.mem_map.mp listed
    rw [List.mem_singleton.mp single]
    exact follows.fresh member owned

/-- The head of a chain is its entry at the last sequence. -/
theorem head_sequence (history : History Linked chain) {head : Entry}
    (last : chain.getLast? = some head) : head.summary.sequence = chain.length := by
  cases history with
  | nil => simp at last
  | @snoc earlier entry _ linked =>
    obtain rfl : entry = head := by simpa using last
    simpa using linked.sequence

end Chains

section Passes

variable {chain : List Entry} {walk : Walk} {database : Database} {maxRevisions : Nat}
  {entry : Entry}

/-- What the pass over the revisions `chain` has collected. -/
structure Covers (chain : List Entry) (walk : Walk) : Prop where
  referenced : ∀ pin, pin ∈ walk.referenced ↔ ∃ entry ∈ chain, pin ∈ entry.pins
  ids : walk.ids = chain.map fun entry => entry.summary.revision
  requests : ∀ key sequence, walk.requests[sequence]? = some key ↔
    (key, sequence) ∈ chain.filterMap requestRow
  requestCount : walk.requests.size = (chain.filterMap requestRow).length
  head : walk.head = chain.getLast?.map summary

theorem Covers.start : Covers [] {} where
  referenced := by simp
  ids := rfl
  requests := by simp
  requestCount := rfl
  head := rfl

theorem Covers.collect (covers : Covers chain walk) (history : History Linked chain)
    (linked : Linked chain entry) : Covers (chain ++ [entry]) (walk.collect entry.summary) := by
  -- the entry's sequence is new to the request map, because earlier ones are smaller
  have unused : ∀ key, (key, entry.summary.sequence) ∉ chain.filterMap requestRow := by
    intro key listed
    obtain ⟨other, member, row⟩ := List.mem_filterMap.mp listed
    obtain ⟨request, -, same⟩ := Option.map_eq_some_iff.mp row
    have bound := (sequence_mem history member).2
    have := linked.sequence
    simp only [Prod.mk.injEq] at same
    omega
  constructor
  case referenced =>
    intro pin
    simp [Walk.collect, covers.referenced, pins, or_and_right, exists_or]
  case ids => simp [Walk.collect, covers.ids]
  case head => simp [Walk.collect]
  all_goals rw [filterMap_append]
  case requests =>
    intro key sequence
    cases requested : entry.summary.request with
    | none => simp [Walk.collect, requested, requestRow, covers.requests]
    | some request =>
      simp only [Walk.collect, requested, Std.HashMap.getElem?_insert]
      by_cases same : entry.summary.sequence = sequence
      · subst same
        simp [requestRow, requested, unused, eq_comm]
      · simp [requestRow, requested, same, covers.requests, Ne.symm same]
  case requestCount =>
    cases requested : entry.summary.request with
    | none => simp [Walk.collect, requested, requestRow, covers.requestCount]
    | some request =>
      have absent : entry.summary.sequence ∉ walk.requests := by
        intro held
        rw [← Std.HashMap.isSome_getElem?_iff_mem, Option.isSome_iff_exists] at held
        obtain ⟨key, found⟩ := held
        exact unused key ((covers.requests key _).mp found)
      simp [Walk.collect, requested, requestRow, Std.HashMap.size_insert, absent,
        covers.requestCount]

/-- The linking test accepts exactly an entry in its place. -/
theorem linked_iff (history : History Linked chain) :
    (entry.summary.sequence = (chain.getLast?.map summary).elim 1 (·.sequence + 1) ∧
      linked (chain.getLast?.map summary) entry.summary = true) ↔ Linked chain entry := by
  rcases eq_nil_or_concat chain with rfl | ⟨earlier, previous, rfl⟩
  · constructor
    · rintro ⟨sequence, accepted⟩
      cases parent : entry.summary.parent with
      | some link => simp [linked, parent] at accepted
      | none =>
        simp only [List.getLast?_nil, Option.map_none, linked, parent, beq_iff_eq] at accepted
        exact ⟨by simpa using sequence, by simp [parent], by simp [accepted]⟩
    · intro own
      have parent : entry.summary.parent = none := by simpa using own.parent
      exact ⟨by simpa using own.sequence, by simp [linked, parent, own.seed]⟩
  · have last : (earlier.concat previous).getLast? = some previous := by simp
    have position := head_sequence history last
    rw [last]
    constructor
    · rintro ⟨sequence, accepted⟩
      cases parent : entry.summary.parent with
      | none => simp [linked, parent] at accepted
      | some link =>
        simp only [Option.map_some, linked, parent, Bool.and_eq_true, beq_iff_eq, bne_iff_ne]
          at accepted
        refine ⟨by simpa [position] using sequence, ?_, by simp [accepted.2]⟩
        rw [last, parent, Option.map_some, Option.some.injEq]
        exact congrArg₂ ParentLink.mk accepted.1.1 accepted.1.2
    · intro own
      have parent : entry.summary.parent = some previous.summary.link := by
        simpa using own.parent
      have later : entry.summary.operation ≠ .seed := fun seed => by simpa using own.seed.mp seed
      refine ⟨by simpa [position] using own.sequence, ?_⟩
      simp [linked, parent, RevisionSummary.link, later]

theorem manifest_iff {bundle : RecordedBundle} :
    (∃ manifest, readDocuments database bundle 1 = .ok manifest ∧
      checkManifest bundle manifest = .ok ()) ↔ ManifestStored database.documents bundle := by
  cases files : bundle.files with
  | nil =>
    constructor
    · rintro ⟨manifest, read, checked⟩
      rw [readDocuments, files] at read
      obtain rfl : [] = manifest := Except.ok.inj read
      simp [checkManifest, checkDocuments_eq_ok] at checked
    · rintro ⟨manifest, bytes, first, -⟩
      simp [files] at first
  | cons file rest =>
    have read_iff : ∀ manifest, readDocuments database bundle 1 = .ok manifest ↔
        ∃ bytes, database.documents.lookup file.sha256 = some bytes ∧
          manifest = [{ role := file.role, name := file.name, bytes }] := by
      intro manifest
      simp only [readDocuments, files, take_succ_cons, take_zero, mapM_cons,
        mapM_nil, readDocument, bind_eq_ok, okOr_eq_ok, pure, Except.pure, Except.ok.injEq]
      aesop
    simp only [read_iff, checkManifest, checkDocuments_eq_ok, ManifestStored, files]
    constructor
    · rintro ⟨manifest, ⟨bytes, stored, rfl⟩, matching, held, first, digest⟩
      obtain rfl : _ = held := Option.some.inj first
      have pinned : FileMatches file _ := (List.forall₂_cons.mp matching).1
      exact ⟨file, bytes, rfl, stored, pinned.2.2, digest⟩
    · rintro ⟨manifest, bytes, first, stored, pinned, digest⟩
      obtain rfl : file = manifest := Option.some.inj first
      exact ⟨_, ⟨bytes, stored, rfl⟩, .cons ⟨rfl, rfl, pinned⟩ .nil, _, rfl, digest⟩

/-- What the pass requires of a row, and what it is after it. -/
theorem verifyRow_eq_ok {documents : Finset String} {next : Walk} :
    verifyRow database maxRevisions documents walk entry.row = .ok next ↔
      walk.ids.length < maxRevisions ∧
      (entry.summary.sequence = walk.head.elim 1 (·.sequence + 1) ∧
        linked walk.head entry.summary = true) ∧
      (∀ target, entry.summary.operation.target? = some target →
        walk.head.map RevisionSummary.revision ≠ some target ∧
          walk.digests[target]? = some entry.summary.bundle.sourceDigest) ∧
      (∀ pin ∈ entry.pins, pin ∈ documents) ∧
      ManifestStored database.documents entry.summary.bundle ∧
      next = walk.collect entry.summary := by
  have read_iff : ∀ summary, summaryOfRow entry.row = .ok summary ↔ summary = entry.summary := by
    simp [entry.reads, eq_comm]
  rw [← manifest_iff]
  simp only [verifyRow, bind_eq_ok, unit_exists_ok, refuse_eq_ok, checkSome_eq_ok, read_iff,
    exists_eq_left, decide_eq_false_iff_not, bne_eq_false_iff_eq, Bool.not_eq_false',
    Bool.or_eq_false_iff, beq_eq_false_iff_ne, any_eq_false, decide_eq_true_eq, not_not,
    pins, forall_mem_map, Except.ok.injEq, not_le, ge_iff_le, eq_comm (a := next)]
  simp only [← exists_and_right, and_assoc]

end Passes

section Verified

variable {chain : List Entry} {database : Database} {maxRevisions : Nat}
  {documents : List (String × List UInt8)} {walk : Walk} {entry : Entry}

theorem verifyDocuments_ok {seen : Finset String}
    (pinned : ∀ row ∈ documents, sha256Pin row.2 = row.1)
    (room : seen.card + documents.length ≤ maxRevisions * filesPerRevision) :
    documents.foldlM (verifyDocument maxRevisions) seen =
      .ok (seen ∪ (documents.map Prod.fst).toFinset) := by
  induction documents generalizing seen with
  | nil => simp [pure, Except.pure]
  | cons row rest ih =>
    have more : (insert row.1 seen).card ≤ seen.card + 1 := Finset.card_insert_le _ _
    rw [length_cons] at room
    have taken : verifyDocument maxRevisions seen row = .ok (insert row.1 seen) := by
      have below : ¬ maxRevisions * filesPerRevision ≤ seen.card := by omega
      simp [verifyDocument, refuse, pinned row mem_cons_self, below, bind, Except.bind]
    rw [foldlM_cons, taken]
    refine (ih (fun other member => pinned other (mem_cons_of_mem _ member))
      (by omega)).trans ?_
    simp [Finset.insert_union]

/-- A chain's records name at most four documents each. -/
theorem Documented.length_le (documented : Documented documents chain) :
    documents.length ≤ chain.length * filesPerRevision := by
  have named : documents.map Prod.fst ⊆ chain.flatMap pins := by
    intro pin listed
    exact List.mem_flatMap.mpr ((documented.referenced pin).mp listed)
  have counted : ∀ entries : List Entry,
      (entries.flatMap pins).length ≤ entries.length * filesPerRevision := by
    intro entries
    induction entries with
    | nil => simp
    | cons entry rest ih =>
      have own := entry.row_fields.2.2.2
      simp only [flatMap_cons, length_append, length_cons, filesPerRevision] at *
      omega
  calc documents.length = (documents.map Prod.fst).length := (length_map _).symm
    _ ≤ (chain.flatMap pins).length := (documented.keyed.subperm named).length_le
    _ ≤ chain.length * filesPerRevision := counted chain

/-- The pass knows the source digest of every revision it has taken in. -/
def Digested (chain : List Entry) (walk : Walk) : Prop :=
  ∀ entry ∈ chain, walk.digests[entry.summary.revision]? = some entry.summary.bundle.sourceDigest

theorem Digested.collect (digested : Digested chain walk)
    (fresh : ∀ other ∈ chain, other.summary.revision ≠ entry.summary.revision) :
    Digested (chain ++ [entry]) (walk.collect entry.summary) := by
  intro member listed
  rw [Walk.collect, Std.HashMap.getElem?_insert]
  rcases List.mem_append.mp listed with earlier | last
  · simpa [(fresh member earlier).symm] using digested member earlier
  · rw [List.mem_singleton.mp last]
    simp

/-- The state of a pass over a chain that passes. -/
structure Walked (chain : List Entry) (walk : Walk) : Prop where
  history : History Linked chain
  covers : Covers chain walk
  digested : Digested chain walk

theorem walk_step (sound : Sound maxRevisions database chain) {documents : Finset String}
    (all : ∀ pin, pin ∈ documents ↔ pin ∈ database.documents.map Prod.fst)
    {earlier : List Entry} (inside : earlier ++ [entry] <+: chain)
    (follows : Follows earlier entry) (walked : Walked earlier walk) :
    ∃ next, verifyRow database maxRevisions documents walk entry.row = .ok next ∧
      Walked (earlier ++ [entry]) next := by
  have member : entry ∈ chain := inside.subset (mem_append_right _ mem_cons_self)
  refine ⟨walk.collect entry.summary, verifyRow_eq_ok.mpr ⟨?_, ?_, ?_, ?_, ?_, rfl⟩,
    walked.history.snoc follows.toLinked,
    walked.covers.collect walked.history follows.toLinked,
    walked.digested.collect follows.fresh⟩
  · have longer := inside.length_le
    have bounded := sound.bounded
    rw [length_append, length_singleton] at longer
    rw [walked.covers.ids, length_map]
    omega
  · rw [walked.covers.head]
    exact (linked_iff walked.history).mpr follows.toLinked
  · intro target rolled
    obtain ⟨notHead, restored, owned, same, digest⟩ := follows.target target rolled
    rw [walked.covers.head, Option.map_map, ← digest, ← same]
    exact ⟨same ▸ notHead, walked.digested restored owned⟩
  · intro pin owned
    exact (all pin).mpr ((sound.documents.referenced pin).mpr ⟨entry, member, owned⟩)
  · exact sound.documents.manifest entry member

theorem walk_sound (sound : Sound maxRevisions database chain) {documents : Finset String}
    (all : ∀ pin, pin ∈ documents ↔ pin ∈ database.documents.map Prod.fst) :
    ∃ walk, database.revisions.foldlM (verifyRow database maxRevisions documents) {} = .ok walk ∧
      Covers chain walk := by
  have passed : ∃ walk, chain.foldlM (fun walk entry =>
      verifyRow database maxRevisions documents walk entry.row) {} = .ok walk ∧
      Walked chain walk :=
    sound.history.pass ⟨.nil, .start, fun _ member => nomatch member⟩
      fun _ _ _ => walk_step sound all
  obtain ⟨walk, run, walked⟩ := passed
  refine ⟨walk, ?_, walked.covers⟩
  rw [sound.rows, foldlM_map]
  exact run

/-- The rows of a chain are stored in the order the pass reads them. -/
theorem rows_sorted (history : History Linked chain) :
    (chain.map row).insertionSort (fun left right => left.sequence ≤ right.sequence) =
      chain.map row := by
  apply List.Pairwise.insertionSort_eq
  have ordered : ((chain.map row).map RevisionRow.sequence).Pairwise (· ≤ ·) := by
    rw [row_sequences history]
    exact pairwise_le_range'
  exact List.pairwise_map.mp ordered

omit [Codecs] in
theorem activeId_ok {ids : List RevisionId} {active : Option Nat}
    (inside : ∀ sequence, active = some sequence → 1 ≤ sequence ∧ sequence ≤ ids.length) :
    ∃ id, activeId ids active = .ok id := by
  cases active with
  | none => exact ⟨none, rfl⟩
  | some sequence =>
    obtain ⟨positive, bound⟩ := inside sequence rfl
    have nonzero : sequence ≠ 0 := by omega
    have found : ids[sequence - 1]? = some ids[sequence - 1] := List.getElem?_eq_getElem (by omega)
    exact ⟨some ids[sequence - 1], by simp [activeId, nonzero, found, okOr, bind, Except.bind]⟩

/-- Everything a verification that passes has read and compared. -/
theorem verify_eq_ok {state : LedgerState} :
    verify database maxRevisions = .ok state ↔
      ∃ documents walk head pointer active,
        checkHeader database = .ok () ∧ checkSchema database = .ok () ∧
        database.documents.foldlM (verifyDocument maxRevisions) ∅ = .ok documents ∧
        (database.revisions.insertionSort fun left right => left.sequence ≤ right.sequence).foldlM
          (verifyRow database maxRevisions documents) {} = .ok walk ∧
        walk.referenced.card = documents.card ∧ checkRequests database walk.requests = .ok () ∧
        walk.head = some head ∧ database.pointer = some pointer ∧
        pointer.desiredSequence = head.sequence ∧ pointer.desiredRecordHash = head.recordHash ∧
        activeId walk.ids pointer.activeSequence = .ok active ∧
        state = { revisions := head.sequence, desired := head, active } := by
  simp only [verify, readPointer, bind_eq_ok, unit_exists_ok, okOr_eq_ok]
  constructor
  · rintro ⟨header, schema, documents, stored, walk, walked, count, requests, head, last,
      pointer, pointed, compared, active, activated, same⟩
    simp only [refuse_eq_ok, bne_eq_false_iff_eq, Bool.or_eq_false_iff] at count compared
    exact ⟨documents, walk, head, pointer, active, header, schema, stored, walked, count, requests,
      last, pointed, compared.1, compared.2, activated, (Except.ok.inj same).symm⟩
  · rintro ⟨documents, walk, head, pointer, active, header, schema, stored, walked, count, requests,
      last, pointed, desired, hash, activated, rfl⟩
    refine ⟨header, schema, documents, stored, walk, walked, ?_, requests, head, last,
      pointer, pointed, ?_, active, activated, rfl⟩
    · simp [refuse, count]
    · simp [refuse, desired, hash]

theorem verify_sound (sound : Sound maxRevisions database chain) :
    ∃ state, verify database maxRevisions = .ok state ∧ state.revisions = chain.length ∧
      chain.getLast?.map summary = some state.desired := by
  obtain ⟨pointer, pointed, atHead⟩ := sound.pointer
  have linkedHistory := linked_history sound.history
  have room : (∅ : Finset String).card + database.documents.length ≤
      maxRevisions * filesPerRevision := by
    have stored := sound.documents.length_le
    have bounded := Nat.mul_le_mul_right filesPerRevision sound.bounded
    simp only [Finset.card_empty]
    omega
  have documents := verifyDocuments_ok sound.documents.pinned room
  rw [Finset.empty_union] at documents
  have all : ∀ pin, pin ∈ (database.documents.map Prod.fst).toFinset ↔
      pin ∈ database.documents.map Prod.fst := fun pin => mem_toFinset
  obtain ⟨walk, walked, covers⟩ := walk_sound sound all
  have referenced : walk.referenced = (database.documents.map Prod.fst).toFinset := by
    ext pin
    rw [covers.referenced, all, sound.documents.referenced]
  have requests : checkRequests database walk.requests = .ok () := by
    simp only [checkRequests, bind_eq_ok, unit_exists_ok, refuse_eq_ok, any_eq_false,
      bne_iff_ne, not_not, bne_eq_false_iff_eq]
    refine ⟨fun row listed => ?_, ?_⟩
    · exact (covers.requests row.1 row.2).mpr (sound.requests ▸ listed)
    · rw [covers.requestCount, sound.requests]
  obtain ⟨head, last, hash⟩ := Option.map_eq_some_iff.mp atHead.hash
  have inside : ∀ sequence, pointer.activeSequence = some sequence →
      1 ≤ sequence ∧ sequence ≤ walk.ids.length := by
    simpa [covers.ids] using atHead.active
  obtain ⟨active, activated⟩ := activeId_ok inside
  refine ⟨{ revisions := head.summary.sequence, desired := head.summary, active }, ?_,
    head_sequence linkedHistory last, by rw [last]; rfl⟩
  have header : checkHeader database = .ok () := by
    simp [checkHeader, refuse, sound.applicationId, sound.userVersion, bind, Except.bind]
  have schema : checkSchema database = .ok () := by
    simp [checkSchema, refuse, sound.schema]
  refine verify_eq_ok.mpr ⟨_, walk, head.summary, pointer, active, header, schema, documents, ?_,
    congrArg Finset.card referenced, requests, ?_, pointed, ?_, hash.symm, activated, rfl⟩
  · rw [sound.rows, rows_sorted linkedHistory, ← sound.rows]
    exact walked
  · rw [covers.head, last]
    rfl
  · rw [atHead.desired, head_sequence linkedHistory last]

end Verified

end GreenGateway.Ledger
