import GreenGateway.Ledger.Progress

/-! Every reachable ledger verifies: over every list of calls by any number of handles,
with any refusals and failures between them. -/

namespace GreenGateway.Ledger

open Foundation Config List

section Reachable

variable [Codecs] {database : Database}

/-- Every reachable ledger verifies: whatever calls its handles make, in whatever order,
its records form one chain with the pointer at the end, the pointer only moves forward,
and each append replaced the head it named. -/
theorem run_verifies (parses : ParsesRecords) {bundle : Bundle} {actor : LedgerActor}
    {recordedAt : Int} (seeded : seed bundle actor recordedAt = .ok database) (calls : List Call) :
    (∃ state, verify (run database calls).database maxRetainedRevisions = .ok state) ∧
    (∃ summaries pointer,
      (run database calls).database.revisions.mapM summaryOfRow = .ok summaries ∧
      summaries.map RevisionSummary.sequence = List.range' 1 summaries.length ∧
      (∀ index summary, summaries[index]? = some summary →
        summary.parent = (summaries.take index).getLast?.map RevisionSummary.link) ∧
      (run database calls).database.pointer = some pointer ∧
      pointer.desiredSequence = summaries.length) ∧
    (∀ before after, calls = before ++ after →
      ∃ old new, (run database before).database.pointer = some old ∧
        (run database calls).database.pointer = some new ∧
        old.desiredSequence ≤ new.desiredSequence ∧
        ∀ was, old.activeSequence = some was →
          ∃ becomes, new.activeSequence = some becomes ∧ was ≤ becomes) ∧
    (∀ before call after expectedHead summary, calls = before ++ call :: after →
      AppendSucceeds (run database before) call expectedHead summary →
      headRevision (run database before).database = some expectedHead ∧
        headRevision (advance (run database before) call).database = some summary.revision) ∧
    (∀ before first between second after expectedHead one two,
      calls = before ++ first :: (between ++ second :: after) →
      AppendSucceeds (run database before) first expectedHead one →
      ¬ AppendSucceeds (run database (before ++ first :: between)) second expectedHead two) := by
  obtain ⟨entry, -, start, -, -⟩ := seed_sound parses seeded
  have reached : ∀ calls, ∃ chain, Sound maxRetainedRevisions (run database calls).database chain :=
    fun calls =>
      let ⟨more, sound⟩ := run_sound parses start calls
      ⟨[entry] ++ more, sound⟩
  obtain ⟨chain, sound⟩ := reached calls
  have history := linked_history sound.history
  refine ⟨?_, ?_, ?_, ?_, ?_⟩
  · obtain ⟨state, verified, -⟩ := verify_sound sound
    exact ⟨state, verified⟩
  · obtain ⟨pointer, pointed, atHead⟩ := sound.pointer
    refine ⟨chain.map Entry.summary, pointer, summaries_sound sound.rows, ?_, ?_, pointed, ?_⟩
    · rw [map_map, length_map]
      exact sequences history
    · intro index summary found
      rw [List.getElem?_map, Option.map_eq_some_iff] at found
      obtain ⟨entry, found, rfl⟩ := found
      rw [(history.entry_at found).parent, ← map_take, List.getLast?_map, Option.map_map]
      rfl
    · rw [length_map, atHead.desired]
  · rintro before after rfl
    obtain ⟨earlier, held⟩ := reached before
    obtain ⟨_, -, old, new, was, becomes, forward⟩ :=
      play_extends parses (run database before) after earlier held
    rw [run_append]
    exact ⟨old, new, was, becomes, movesForward_iff.mp forward⟩
  · rintro before call after expectedHead summary rfl succeeds
    obtain ⟨earlier, held⟩ := reached before
    obtain ⟨head, entry, last, expected, rfl, extended⟩ := succeeds.entry parses held
    rw [headRevision_sound held, headRevision_sound extended, last, Option.map_some, expected]
    simp
  · rintro before first between second after expectedHead one two rfl won again
    obtain ⟨earlier, held⟩ := reached before
    obtain ⟨head, entry, last, expected, -, extended⟩ := won.entry parses held
    obtain ⟨more, later, -⟩ := play_extends parses _ between _ extended
    rw [run_append, play_cons] at again
    obtain ⟨stale, _, atEnd, named, -, -⟩ := again.entry parses later
    rw [append_assoc] at later atEnd
    -- the head is among the earlier revisions, and no two of a chain are alike
    have distinct := revisions_nodup later.history
    rw [map_append, nodup_append] at distinct
    rw [List.getLast?_append_of_ne_nil _ (by simp)] at atEnd
    exact distinct.2.2 _ (mem_map_of_mem (mem_of_getLast? last)) _
      (mem_map_of_mem (mem_of_getLast? atEnd)) (expected.trans named.symm)

variable {bundle : Bundle} {actor : LedgerActor} {recordedAt : Int}

theorem advance_keyed (parses : ParsesRecords) {system : System} {chain : List Entry}
    (sound : Sound maxRetainedRevisions system.database chain)
    (keyed : (system.database.requests.map Prod.fst).Nodup) (call : Call) :
    ((advance system call).database.requests.map Prod.fst).Nodup := by
  cases perform_effect parses sound call with
  | unchanged same => rwa [same]
  | activated _ _ _ _ _ _ _ activates => rwa [activates.moved]
  | appended _ _ _ _ pending _ entry _ _ _ _ _ appends extended =>
    rw [extended.requests, filterMap_append, ← sound.requests, map_append, nodup_append]
    cases asked : pending.request with
    | none => simp [Entry.requestRow, appends.records.request, asked, keyed]
    | some request =>
      have unused := lookup_eq_none_iff.mp (appends.keyUnused request asked)
      simp [Entry.requestRow, appends.records.request, asked, keyed]
      grind

/-- A ledger keeps what it recorded, whatever calls follow: the revisions and requests where they
are and every document. No idempotency key is recorded twice. -/
theorem run_keeps (parses : ParsesRecords) (seeded : seed bundle actor recordedAt = .ok database)
    (before after : List Call) :
    let early := (run database before).database
    let late := (run database (before ++ after)).database
    early.revisions <+: late.revisions ∧ early.requests <+: late.requests ∧
    (∀ pin ∈ early.documents.map Prod.fst, pin ∈ late.documents.map Prod.fst) ∧
    (early.requests.map Prod.fst).Nodup := by
  dsimp only
  obtain ⟨entry, -, start, -, -⟩ := seed_sound parses seeded
  obtain ⟨more, held⟩ := run_sound parses start before
  obtain ⟨later, kept, -⟩ := play_extends parses _ after _ held
  rw [run_append]
  refine ⟨?_, ?_, fun pin listed => ?_, ?_⟩
  · rw [held.rows, kept.rows]
    exact (prefix_append _ later).map _
  · rw [held.requests, kept.requests]
    exact (prefix_append _ later).filterMap _
  · obtain ⟨entry, member, pinned⟩ := (held.documents.referenced pin).mp listed
    exact (kept.documents.referenced pin).mpr ⟨entry, mem_append_left _ member, pinned⟩
  · clear held kept
    induction before using reverseRecOn with
    | nil =>
      rw [run, play, foldl_nil, start.requests]
      cases asked : entry.requestRow <;> simp [asked]
    | append_singleton calls call ih =>
      obtain ⟨more, held⟩ := run_sound parses start calls
      rw [run_append]
      exact advance_keyed parses held ih call

end Reachable

section Sample

/-! A seed over a digest that repeats one byte of what it is taken of. -/

@[reducible] def sampleCodecs : Codecs where
  sha256 bytes := List.replicate 32 (bytes.getD (bytes.length - 2) 0)
  parseJson text := Json.read text.toList
  doubleText _ := none

attribute [local instance] sampleCodecs

theorem sample_parses : ParsesRecords := by
  intro record sequenced recorded
  have settled := RecordV1.settled record sequenced recorded
  change Json.read (String.ofList record.toValue.text).toList = _
  rw [String.toList_ofList, Json.read_text _ settled.plain]

theorem sample_sized : DigestsSized := fun _ => length_replicate

def sampleBundle : Bundle :=
  { apiVersion := .v1Alpha1
    name := "edge"
    sourceDigest := sourceDigest manifestMediaType ApiVersion.v1Alpha1.asStr [1, 9]
    deploymentSha256 := sha256Pin [2, 9]
    profile := .production
    policy := none
    tools := none
    sourceFiles :=
      [{ role := .manifest, name := ⟨manifestFileName⟩, bytes := [1, 9] },
        { role := .deployment, name := ⟨"deployment.yaml"⟩, bytes := [2, 9] }] }

def sampleActor : LedgerActor :=
  { kind := .system, subject := "ggctl", issuer := none, authMode := .system }

def sampleRecorded : RecordedBundle :=
  { apiVersion := .v1Alpha1
    name := "edge"
    profile := .production
    sourceDigest := sampleBundle.sourceDigest
    policy := .absent
    tools := .absent
    files :=
      [{ role := .manifest, name := ⟨manifestFileName⟩, sha256 := sha256Pin [1, 9], schemaVersion := none },
        { role := .deployment, name := ⟨"deployment.yaml"⟩, sha256 := sha256Pin [2, 9], schemaVersion := none }] }

theorem sampleRecorded_wellFormed : isWellFormed sampleRecorded = true := by
  obtain ⟨len, hex⟩ := sha256Pin_spelling sample_sized [1, 9]
  obtain ⟨len', hex'⟩ := sha256Pin_spelling sample_sized [2, 9]
  have digest : isFramedDigest sampleBundle.sourceDigest = true :=
    framedDigest_framed sample_sized _ _ _ _
  have label : isDnsLabel "edge" = true := by decide
  simp [isWellFormed, sampleRecorded, digest, label, len, hex, len', hex']

theorem sampleBundle_documents : checkDocuments sampleRecorded sampleBundle.sourceFiles = .ok () :=
  checkDocuments_eq_ok.mpr
    ⟨.cons ⟨rfl, rfl, rfl⟩ (.cons ⟨rfl, rfl, rfl⟩ .nil), _, rfl, rfl⟩

theorem sampleBundle_recorded : recordedBundle sampleBundle = .ok sampleRecorded := by
  have files : sampleBundle.sourceFiles.mapM (recordedFile sampleBundle) =
      .ok sampleRecorded.files := by
    simp [sampleBundle, sampleRecorded, recordedFile, refuse, bind, Except.bind, pure, Except.pure]
  simp only [recordedBundle, bind_eq_ok, unit_exists_ok, refuse_eq_ok, okOr_eq_ok]
  refine ⟨_, files, ?_, (), ?_, rfl⟩
  · rw [Bool.not_eq_false']
    exact sampleRecorded_wellFormed
  · have checked := sampleBundle_documents
    exact congrArg Except.toOption checked

def sampleStored : Database :=
  { applicationId
    userVersion := formatVersion
    schema
    documents := [(sha256Pin [1, 9], [1, 9]), (sha256Pin [2, 9], [2, 9])] }

theorem sampleBundle_stored :
    insertDocuments { applicationId, userVersion := formatVersion, schema }
      sampleBundle.sourceFiles = .ok sampleStored := by
  have length : (sha256Pin [1, 9]).length = 64 := by
    rw [← String.length_toList, sha256Pin, hexEncode_length, sample_sized]
  have length' : (sha256Pin [2, 9]).length = 64 := by
    rw [← String.length_toList, sha256Pin, hexEncode_length, sample_sized]
  have differ : (sha256Pin [2, 9] == sha256Pin [1, 9]) = false := by
    rw [beq_eq_false_iff_ne]
    exact fun same => absurd (hexEncode_inj same) (by decide)
  simp [insertDocuments, sampleBundle, sampleStored, insertDocument, length, length', differ,
    refuse,
    bind, Except.bind, List.lookup, pure, Except.pure]

theorem sampleRecorded_read : readBundleRecord sampleRecorded.record = .ok sampleRecorded := by
  simp only [readBundleRecord, bind_eq_ok, unit_exists_ok, refuse_eq_ok, okOr_eq_ok]
  refine ⟨.v1Alpha1, rfl, .production, rfl, sampleRecorded.files, rfl, .absent, rfl, .absent, rfl,
    ?_, rfl⟩
  rw [Bool.not_eq_false']
  exact sampleRecorded_wellFormed

def samplePending : Pending :=
  { recordedAtMs := 1
    operation := .seed
    actor := sampleActor
    activation := .restart
    codes := {}
    request := none
    bundle := sampleRecorded
    recordable := by decide }

theorem samplePending_drafted :
    Pending.new sampleBundle sampleActor .seed .restart {} 1000000 = .ok samplePending := by
  simp only [Pending.new, bind_eq_ok]
  exact ⟨⟨1, by decide⟩, rfl, sampleRecorded, sampleBundle_recorded, rfl⟩

theorem samplePending_fits :
    Text.len (String.ofList (samplePending.record 1 none).toValue.text) ≤ maxRecordBytes := by
  rw [len_ofList]
  decide +kernel

theorem samplePending_recordable : Recordable samplePending 1 none where
  sequenced := by decide
  parentRead := rfl
  operation := rfl
  actor := rfl
  codes := rfl
  request := rfl
  bundle := sampleRecorded_read
  fits := samplePending_fits

theorem sample_seeded :
    ∃ encoded : Encoded,
      encoded.text = String.ofList (samplePending.record 1 none).toValue.text ∧
      seed sampleBundle sampleActor 1000000 = .ok
        { sampleStored with
          revisions := [encoded.row]
          pointer := some
            { desiredSequence := 1
              desiredRecordHash := encoded.summary.recordHash
              activeSequence := none } } :=
  seed_complete sample_parses sample_sized samplePending_drafted samplePending_recordable
    sampleBundle_stored

theorem run_verifies_sample :
    ∃ database, seed sampleBundle sampleActor 1000000 = .ok database ∧
      ∃ state, verify (run database [.opens none, .on 0 .state none]).database
        maxRetainedRevisions = .ok state := by
  obtain ⟨encoded, -, seeded⟩ := sample_seeded
  exact ⟨_, seeded, (run_verifies sample_parses seeded _).1⟩

theorem run_keeps_sample :
    ∃ database, seed sampleBundle sampleActor 1000000 = .ok database ∧
      database.revisions <+: (run database [.opens none]).database.revisions := by
  obtain ⟨encoded, -, seeded⟩ := sample_seeded
  exact ⟨_, seeded, (run_keeps sample_parses seeded [] _).1⟩

end Sample

end GreenGateway.Ledger
