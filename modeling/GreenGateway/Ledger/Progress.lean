import GreenGateway.Config.Digests
import GreenGateway.Ledger.Runs

/-! What is enough for the ledger to record something: a record whose parts read back
is written, and a seed of a consistent bundle starts a ledger. -/

namespace GreenGateway.Ledger

open Foundation Config List

section Spelling

theorem hexEncode_lowercase (bytes : List UInt8) : isLowercaseHex (hexEncode bytes) = true := by
  rw [isLowercaseHex, all_eq_true]
  intro char member
  obtain ⟨value, bound, rfl⟩ := hexEncode_mem member
  exact (hexDigit_lower value bound).2

theorem stripFront?_append (start rest : String) :
    Text.stripFront? (start ++ rest) start = some rest :=
  Text.stripFront?_eq_some.mpr rfl

variable [Codecs]

theorem sha256Pin_spelling (sized : DigestsSized) (bytes : List UInt8) :
    Text.len (sha256Pin bytes) = 64 ∧ isLowercaseHex (sha256Pin bytes) = true := by
  refine ⟨?_, hexEncode_lowercase _⟩
  rw [sha256Pin, hexEncode_len, sized]

theorem framedDigest_framed (sized : DigestsSized) (kind mediaType schemaVersion : String)
    (payload : List UInt8) :
    isFramedDigest (framedDigest kind mediaType schemaVersion payload) = true := by
  rw [isFramedDigest, framedDigest, stripFront?_append, Option.any_some, hexEncode_len, sized,
    hexEncode_lowercase]
  rfl

theorem ofRecordHash_framedDigest (sized : DigestsSized) (kind mediaType schemaVersion : String)
    (payload : List UInt8) :
    ∃ revision, RevisionId.ofRecordHash (framedDigest kind mediaType schemaVersion payload) =
      some revision ∧ RevisionId.parse revision.text = some revision := by
  have size := hexEncode_length (Codecs.sha256 (framed kind mediaType schemaVersion payload))
  have len := hexEncode_len (Codecs.sha256 (framed kind mediaType schemaVersion payload))
  have hex := hexEncode_lowercase (Codecs.sha256 (framed kind mediaType schemaVersion payload))
  have digits : ∀ char ∈ (hexEncode
      (Codecs.sha256 (framed kind mediaType schemaVersion payload))).toList,
      char.utf8Size = 1 := by
    intro char member
    obtain ⟨value, bound, rfl⟩ := hexEncode_mem member
    exact (hexDigit_lower value bound).1
  rw [sized] at size len
  rw [framedDigest]
  generalize hexEncode (Codecs.sha256 (framed kind mediaType schemaVersion payload)) = text at *
  have short : Text.len (String.ofList (text.toList.take 32)) = 32 := by
    rw [len_of_ascii, String.toList_ofList, length_take, size]
    · rfl
    · rw [String.toList_ofList]
      exact fun char member => digits char (mem_of_mem_take member)
  have lowercase : isLowercaseHex (String.ofList (text.toList.take 32)) = true := by
    rw [isLowercaseHex, all_eq_true] at hex ⊢
    rw [String.toList_ofList]
    exact fun char member => hex char (mem_of_mem_take member)
  refine ⟨⟨"rev-" ++ String.ofList (text.toList.take 32)⟩, ?_, ?_⟩
  · simp [RevisionId.ofRecordHash, stripFront?_append, len, hex]
  · simp [RevisionId.parse, stripFront?_append, short, lowercase]

end Spelling

section Recording

/-- Every part of a pending revision reads back, and its record fits its bound. -/
structure Recordable (pending : Pending) (sequence : Nat) (parent : Option ParentLink) : Prop where
  sequenced : 1 ≤ sequence ∧ sequence ≤ maxSafeInteger
  parentRead : readParent (parent.map ParentLink.record) = .ok parent
  operation : readOperation pending.operation.asStr
    (pending.operation.target?.map RevisionId.text) = .ok pending.operation
  actor : readActor pending.actor.record = .ok pending.actor
  codes : RevisionCodes.new pending.codes.changedSections pending.codes.riskCodes
    pending.codes.requiredPermissions = .ok pending.codes
  request : readRequest? (pending.request.map RevisionRequest.record) pending.operation
    pending.codes = .ok pending.request
  bundle : readBundleRecord pending.bundle.record = .ok pending.bundle
  fits : Text.len (String.ofList (pending.record sequence parent).toValue.text) ≤ maxRecordBytes

theorem named_asStr {α : Type} [DecidableEq α] {all : List α} {name : α → String} {value : α}
    (distinct : ∀ left right, name left = name right → left = right) (listed : value ∈ all) :
    named all name (name value) = some value := by
  obtain ⟨found, first⟩ : ∃ found, named all name (name value) = some found :=
    Option.isSome_iff_exists.mp (List.find?_isSome.mpr ⟨value, listed, by simp⟩)
  rw [first, named_inj distinct first]

variable {pending : Pending} {sequence : Nat} {parent : Option ParentLink}

theorem Recordable.readRecord
    (recordable : Recordable pending sequence parent) (revision : RevisionId) (hash : String) :
    ∃ summary, readRecord (pending.record sequence parent) revision hash = .ok summary := by
  have positive : ¬ (sequence = 0 ∨ pending.recordedAtMs > maxSafeInteger) := by
    have := recordable.sequenced.1
    have := pending.recordable
    omega
  have activation : named ActivationClass.all ActivationClass.asStr pending.activation.asStr =
      some pending.activation :=
    named_asStr ActivationClass.asStr_inj (by cases pending.activation <;> decide)
  have codes : readCodes (pending.record sequence parent) = .ok pending.codes := by
    simp only [readCodes, bind_eq_ok, okOr_eq_ok, unit_exists_ok, refuse_eq_ok, Except.ok.injEq]
    refine ⟨pending.codes, ?_, by simp [Pending.record], rfl⟩
    change (RevisionCodes.new pending.codes.changedSections pending.codes.riskCodes
      pending.codes.requiredPermissions).toOption = _
    rw [recordable.codes]
    rfl
  refine ⟨{ sequence
            revision
            recordHash := hash
            parent
            recordedAtMs := pending.recordedAtMs
            operation := pending.operation
            actor := pending.actor
            activation := pending.activation
            codes := pending.codes
            request := pending.request
            bundle := pending.bundle }, ?_⟩
  simp only [Ledger.readRecord, bind_eq_ok, okOr_eq_ok, unit_exists_ok, refuse_eq_ok]
  refine ⟨?_, _, recordable.parentRead, _, recordable.operation, _, recordable.actor, _, activation, _,
    codes, _, recordable.request, _, recordable.bundle, rfl⟩
  simpa [Pending.record] using positive

variable [Codecs]

/-- A recordable revision is encoded, under the digest of its text. -/
theorem encode_complete (parses : ParsesRecords) (sized : DigestsSized)
    (recordable : Recordable pending sequence parent) :
    ∃ encoded, encode pending sequence parent = .ok encoded ∧
      encoded.text = String.ofList (pending.record sequence parent).toValue.text ∧
      encoded.summary.recordHash =
        framedDigest "semantic" recordMediaType recordSchemaVersion (utf8 encoded.text) := by
  have canonical := canonicalJson_settled
    (RecordV1.settled (pending.record sequence parent) recordable.sequenced.2 pending.recordable)
  have parsed := parses (pending.record sequence parent) recordable.sequenced.2 pending.recordable
  have small : maxSafeInteger < 2 ^ 64 := by decide
  have typed := RecordV1.fromValue_toValue (pending.record sequence parent)
    (recordable.sequenced.2.trans_lt small) (pending.recordable.trans_lt small)
  have fits := recordable.fits
  generalize texted : String.ofList (pending.record sequence parent).toValue.text = text at *
  have hashed : recordHash (pending.record sequence parent).toValue =
      some (framedDigest "semantic" recordMediaType recordSchemaVersion (utf8 text)) := by
    rw [recordHash, semanticDigest, canonical]
    rfl
  obtain ⟨revision, named, -⟩ := ofRecordHash_framedDigest sized "semantic" recordMediaType
    recordSchemaVersion (utf8 text)
  obtain ⟨summary, read⟩ := recordable.readRecord revision
    (framedDigest "semantic" recordMediaType recordSchemaVersion (utf8 text))
  have within : ¬ Text.len text > maxRecordBytes := not_lt.mpr fits
  have decoded : decode text (framedDigest "semantic" recordMediaType recordSchemaVersion (utf8 text))
      revision.text = .ok summary := by
    simp only [decode, bind_eq_ok, okOr_eq_ok, unit_exists_ok, refuse_eq_ok]
    refine ⟨decide_eq_false within, _, parsed, _, hashed, _, named, by simp, text, ?_, ?_, _, typed,
      read⟩
    · rw [canonical]
      rfl
    · simp
  refine ⟨⟨text, summary⟩, ?_, rfl, (readRecord_identity read).2.1⟩
  simp only [encode, bind_eq_ok, okOr_eq_ok, unit_exists_ok, refuse_eq_ok]
  refine ⟨text, ?_, decide_eq_false within, _, hashed, _, named, summary, ?_, rfl⟩
  · rw [canonical]
    rfl
  · rw [decoded]
    rfl

theorem seed_complete (parses : ParsesRecords) (sized : DigestsSized) {bundle : Bundle}
    {actor : LedgerActor} {recordedAt : Int} {stored : Database}
    (drafted : Pending.new bundle actor .seed .restart {} recordedAt = .ok pending)
    (recordable : Recordable pending 1 none)
    (documents : insertDocuments { applicationId, userVersion := formatVersion, schema }
      bundle.sourceFiles = .ok stored) :
    ∃ encoded : Encoded, encoded.text = String.ofList (pending.record 1 none).toValue.text ∧
      seed bundle actor recordedAt = .ok
        { stored with
          revisions := [encoded.row]
          pointer := some
            { desiredSequence := 1
              desiredRecordHash := encoded.summary.recordHash
              activeSequence := none } } := by
  obtain ⟨encoded, encoding, texted, -⟩ := encode_complete parses sized recordable
  obtain ⟨-, records⟩ := encode_records parses recordable.sequenced.2 encoding
  obtain ⟨-, -, unrequested, -⟩ := Pending.new_fields drafted
  obtain ⟨-, documentsOnly⟩ := insertDocuments_stored documents
  have empty : stored.revisions = [] ∧ stored.pointer = none := by
    rw [documentsOnly]
    exact ⟨rfl, rfl⟩
  have first : encoded.summary.sequence = 1 := records.sequence
  have listed : insertRevision stored encoded = .ok { stored with revisions := [encoded.row] } := by
    simp [insertRevision, Encoded.row, first, empty.1, sqlSequence, Database.insertRevisionRow,
      Database.newest, refuse, bind, Except.bind]
  refine ⟨encoded, texted, ?_⟩
  simp only [seed, bind_eq_ok, initializeLedger, Database.insertPointerRow, unit_exists_ok,
    refuse_eq_ok]
  refine ⟨pending, drafted, by simp [unrequested], encoded, encoding, by simp [checkSchema, refuse],
    stored, documents, _, listed, ?_, rfl⟩
  simp [empty.2, Database.admitsPointer, Database.hasRevision, Encoded.row, first]

end Recording

section Activating

variable [Codecs] {chain : List Entry} {database : Database} {maxRevisions : Nat}

theorem activate_complete (sound : Sound maxRevisions database chain)
    (small : maxRevisions ≤ maxSafeInteger) {head : Entry} (last : chain.getLast? = some head) :
    ∃ after, activate database head.summary.revision = .ok after := by
  obtain ⟨old, found, before, pointed, last', read⟩ := pointerAndHead_sound sound small
  obtain rfl : head = found := Option.some.inj (last.symm.trans last')
  have history := linked_history sound.history
  have position := head_sequence history last
  have present : database.hasRevision old.desiredSequence = true :=
    (hasRevision_iff sound.rows).mpr
      ⟨head, mem_of_getLast? last, by rw [position, pointed.desired]⟩
  have forward : old.movesForward { old with activeSequence := some old.desiredSequence } = true := by
    rw [movesForward_iff]
    refine ⟨le_rfl, fun was held => ⟨_, rfl, ?_⟩⟩
    rw [pointed.desired]
    exact (pointed.active was held).2
  simp only [activate, read, bind_eq_ok, unit_exists_ok, Except.ok.injEq, exists_eq_left',
    refuse_eq_ok, bne_self_eq_false, true_and]
  split
  · refine ⟨{ database with
      pointer := some { old with activeSequence := some old.desiredSequence } }, ?_⟩
    simp [Database.updatePointerRow, refuse, forward, Database.admitsPointer, present, bind,
      Except.bind]
  · exact ⟨database, rfl⟩

end Activating

end GreenGateway.Ledger
