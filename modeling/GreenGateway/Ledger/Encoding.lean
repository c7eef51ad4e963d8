import GreenGateway.Ledger.Record

/-! Recording a proposal and reading a record. A record is read back before it is
accepted, so the ledger never writes one it would refuse to read. -/

namespace GreenGateway.Ledger

open Foundation Config

section Bundles

/-- The shape every recorded bundle has. -/
def isWellFormed (bundle : RecordedBundle) : Bool :=
  let roles := [FileRole.manifest, .deployment] ++
    (if bundle.policy = .bundle then [.policy] else []) ++
    (if bundle.tools = .bundle then [.tools] else [])
  isDnsLabel bundle.name && isFramedDigest bundle.sourceDigest &&
    bundle.files.length == roles.length &&
    (bundle.files.zip roles).all fun (file, role) =>
      let versioned := role == .policy || role == .tools
      file.role == role && (file.role != .manifest || file.name.text == manifestFileName) &&
        Text.len file.sha256 == 64 && isLowercaseHex file.sha256 &&
        file.schemaVersion.isSome == versioned

variable [Codecs]

/-- Checks stored files, in recorded order, against the record: each file's pin, and
the manifest's bytes against the source digest. -/
def checkDocuments (bundle : RecordedBundle) (files : List SourceFile) :
    Except LedgerError Unit := do
  refuse (files.length != bundle.files.length) (.corrupt .document)
  refuse ((bundle.files.zip files).any fun (recorded, stored) =>
    recorded.role != stored.role || recorded.name != stored.name ||
      sha256Pin stored.bytes != recorded.sha256) (.corrupt .document)
  let manifest ← okOr files.head? (.corrupt .document)
  refuse (sourceDigest manifestMediaType bundle.apiVersion.asStr manifest.bytes !=
    bundle.sourceDigest) (.corrupt .document)

/-- A resource's origin and, for a bundled one, its pin and document version. -/
def resourceOrigin : Option BundledResource → ResourceOrigin × Option (String × String)
  | some (.bundle sha256 schemaVersion) => (.bundle, some (sha256, schemaVersion))
  | some .server => (.server, none)
  | none => (.absent, none)

/-- What is recorded of one bundle file, whose pin must be the bundle's. -/
def recordedFile (bundle : Bundle) (file : SourceFile) : Except LedgerError RecordedFile := do
  let sha256 := sha256Pin file.bytes
  let (expected, schemaVersion) : Option String × Option String :=
    match file.role with
    | .manifest => (none, none)
    | .deployment => (some bundle.deploymentSha256, none)
    | .policy =>
      let pin := (resourceOrigin bundle.policy).2
      (pin.map Prod.fst, pin.map Prod.snd)
    | .tools =>
      let pin := (resourceOrigin bundle.tools).2
      (pin.map Prod.fst, pin.map Prod.snd)
  refuse (file.role != .manifest && expected != some sha256) (.refused .bundleInconsistent)
  .ok { role := file.role, name := file.name, sha256, schemaVersion }

/-- What the ledger records about an accepted bundle, once its files reproduce its own
pins and source digest. -/
def recordedBundle (bundle : Bundle) : Except LedgerError RecordedBundle := do
  let files ← bundle.sourceFiles.mapM (recordedFile bundle)
  let recorded : RecordedBundle :=
    { apiVersion := bundle.apiVersion
      name := bundle.name
      profile := bundle.profile
      sourceDigest := bundle.sourceDigest
      policy := (resourceOrigin bundle.policy).1
      tools := (resourceOrigin bundle.tools).1
      files }
  refuse (!isWellFormed recorded) (.refused .bundleInconsistent)
  okOr (checkDocuments recorded bundle.sourceFiles).toOption (.refused .bundleInconsistent)
  .ok recorded

end Bundles

section Pending

def ParentLink.record (parent : ParentLink) : ParentV1 :=
  { revision := parent.revision.text, recordHash := parent.recordHash }

def LedgerActor.record (actor : LedgerActor) : ActorV1 :=
  { kind := actor.kind.asStr
    subject := actor.subject
    issuer := actor.issuer
    authMode := actor.authMode.asStr }

def RevisionRequest.record (request : RevisionRequest) : RequestV1 :=
  { plan := request.plan.text
    idempotencyKey := request.idempotencyKey
    binding := request.binding
    acknowledgedRisks := request.acknowledgedRisks
    stageOnly := request.stageOnly }

def RecordedFile.record (file : RecordedFile) : FileV1 :=
  { role := file.role.asStr
    name := file.name.text
    sha256 := file.sha256
    schemaVersion := file.schemaVersion }

def RecordedBundle.record (bundle : RecordedBundle) : BundleV1 :=
  { apiVersion := bundle.apiVersion.asStr
    name := bundle.name
    profile := bundle.profile.asStr
    sourceDigest := bundle.sourceDigest
    policy := bundle.policy.asStr
    tools := bundle.tools.asStr
    files := bundle.files.map RecordedFile.record }

/-- What a revision records, before the ledger gives it a place in the chain. -/
structure Pending where
  recordedAtMs : Nat
  operation : Operation
  actor : LedgerActor
  activation : ActivationClass
  codes : RevisionCodes
  request : Option RevisionRequest
  bundle : RecordedBundle
  recordable : recordedAtMs ≤ maxSafeInteger

/-- The milliseconds since the epoch of a time in nanoseconds. -/
def unixMillis (time : Int) : Except LedgerError { millis : Nat // millis ≤ maxSafeInteger } :=
  let millis := time.toNat / 1000000
  if bound : 0 ≤ time ∧ millis ≤ maxSafeInteger then .ok ⟨millis, bound.2⟩
  else .error (.refused .timeNotRecordable)

namespace Pending

def new [Codecs] (bundle : Bundle) (actor : LedgerActor) (operation : Operation)
    (activation : ActivationClass) (codes : RevisionCodes) (recordedAt : Int) :
    Except LedgerError Pending := do
  let ⟨recordedAtMs, recordable⟩ ← unixMillis recordedAt
  let bundle ← recordedBundle bundle
  .ok { recordedAtMs, operation, actor, activation, codes, request := none, bundle, recordable }

/-- The same revision applied under `request`, whose acknowledged risk codes must be
exactly the revision's. -/
def withRequest (pending : Pending) (request : Option RevisionRequest) :
    Except LedgerError Pending := do
  refuse (request.any fun request => request.acknowledgedRisks != pending.codes.riskCodes)
    (.refused .acknowledgementMismatch)
  .ok { pending with request }

/-- Whether the active pointer may move with this revision. -/
def activates (pending : Pending) : Bool :=
  pending.activation == .live && !pending.request.any RevisionRequest.stageOnly

/-- The record of a pending revision at `sequence` on top of `parent`. -/
def record (pending : Pending) (sequence : Nat) (parent : Option ParentLink) : RecordV1 :=
  { sequence
    parent := parent.map ParentLink.record
    recordedAtMs := pending.recordedAtMs
    operation := pending.operation.asStr
    rollbackOf := pending.operation.target?.map RevisionId.text
    actor := pending.actor.record
    activation := pending.activation.asStr
    changedSections := pending.codes.changedSections
    riskCodes := pending.codes.riskCodes
    requiredPermissions := pending.codes.requiredPermissions
    request := pending.request.map RevisionRequest.record
    bundle := pending.bundle.record }

end Pending

end Pending

section Reading

def readParent (parent : Option ParentV1) : Except LedgerError (Option ParentLink) :=
  match parent with
  | none => .ok none
  | some parent => do
    let revision ← okOr (RevisionId.parse parent.revision) (.corrupt .record)
    refuse (RevisionId.ofRecordHash parent.recordHash != some revision) (.corrupt .record)
    .ok (some { revision, recordHash := parent.recordHash })

def readOperation (operation : String) (rollbackOf : Option String) :
    Except LedgerError Operation :=
  match operation, rollbackOf with
  | "seed", none => .ok .seed
  | "apply", none => .ok .apply
  | "rollback", some target => do
    let target ← okOr (RevisionId.parse target) (.corrupt .record)
    .ok (.rollback target)
  | _, _ => .error (.corrupt .record)

def readActor (actor : ActorV1) : Except LedgerError LedgerActor := do
  let kind ← okOr (named ActorKind.all ActorKind.asStr actor.kind) (.corrupt .record)
  let authMode ← okOr (named AuthMode.all AuthMode.asStr actor.authMode) (.corrupt .record)
  okOr (LedgerActor.checked kind actor.subject actor.issuer authMode) (.corrupt .record)

/-- A recorded request: never on a seed, its digests and plan ID in their grammar,
and its acknowledged codes exactly the revision's risk codes. -/
def readRequest (request : RequestV1) (operation : Operation) (codes : RevisionCodes) :
    Except LedgerError RevisionRequest := do
  let plan ← okOr (PlanId.parse request.plan) (.corrupt .record)
  refuse (operation == .seed || !isFramedDigest request.idempotencyKey ||
    !isFramedDigest request.binding ||
    sortedCodes request.acknowledgedRisks != some request.acknowledgedRisks ||
    request.acknowledgedRisks != codes.riskCodes) (.corrupt .record)
  .ok
    { plan
      idempotencyKey := request.idempotencyKey
      binding := request.binding
      acknowledgedRisks := request.acknowledgedRisks
      stageOnly := request.stageOnly }

def readFile (file : FileV1) : Except LedgerError RecordedFile := do
  let role ← okOr (named FileRole.all FileRole.asStr file.role) (.corrupt .record)
  let versions :=
    match role with
    | .policy => policySchemaVersions
    | .tools => toolsSchemaVersions
    | .manifest | .deployment => []
  checkSome file.schemaVersion fun version =>
    refuse (!versions.contains version) .unsupported
  let name ← okOr (FileName.parse file.name) (.corrupt .record)
  .ok { role, name, sha256 := file.sha256, schemaVersion := file.schemaVersion }

def readBundleRecord (bundle : BundleV1) : Except LedgerError RecordedBundle := do
  let apiVersion ← okOr (named ApiVersion.all ApiVersion.asStr bundle.apiVersion) .unsupported
  let profile ← okOr (named Profile.all Profile.asStr bundle.profile) .unsupported
  let files ← bundle.files.mapM readFile
  let policy ← okOr (named ResourceOrigin.all ResourceOrigin.asStr bundle.policy)
    (.corrupt .record)
  let tools ← okOr (named ResourceOrigin.all ResourceOrigin.asStr bundle.tools) (.corrupt .record)
  let recorded : RecordedBundle :=
    { apiVersion, name := bundle.name, profile, sourceDigest := bundle.sourceDigest, policy, tools,
      files }
  refuse (!isWellFormed recorded) (.corrupt .record)
  .ok recorded

/-- The codes of a record, which must be spelled sorted and unique already. -/
def readCodes (record : RecordV1) : Except LedgerError RevisionCodes := do
  let codes ← okOr (RevisionCodes.new record.changedSections record.riskCodes
    record.requiredPermissions).toOption (.corrupt .record)
  refuse (codes.changedSections != record.changedSections || codes.riskCodes != record.riskCodes ||
    codes.requiredPermissions != record.requiredPermissions) (.corrupt .record)
  .ok codes

/-- The request of a record, if it has one. -/
def readRequest? (request : Option RequestV1) (operation : Operation) (codes : RevisionCodes) :
    Except LedgerError (Option RevisionRequest) :=
  match request with
  | none => .ok none
  | some request => do
    let request ← readRequest request operation codes
    .ok (some request)

/-- The typed record, or why it is not one. -/
def readRecord (record : RecordV1) (revision : RevisionId) (recordHash : String) :
    Except LedgerError RevisionSummary := do
  refuse (record.sequence == 0 || decide (record.recordedAtMs > maxSafeInteger))
    (.corrupt .record)
  let parent ← readParent record.parent
  let operation ← readOperation record.operation record.rollbackOf
  let actor ← readActor record.actor
  let activation ← okOr (named ActivationClass.all ActivationClass.asStr record.activation)
    (.corrupt .record)
  let codes ← readCodes record
  let request ← readRequest? record.request operation codes
  let bundle ← readBundleRecord record.bundle
  .ok
    { sequence := record.sequence
      revision
      recordHash
      parent
      recordedAtMs := record.recordedAtMs
      operation
      actor
      activation
      codes
      request
      bundle }

variable [Codecs]

/-- The frame digest of a record's canonical text. -/
def recordHash (value : Json) : Option String :=
  (semanticDigest recordMediaType recordSchemaVersion value).toOption

/-- Reads stored record text, which must be canonical, hash to `storedHash`, yield the
ID `storedId`, and hold a valid record. -/
def decode (text storedHash storedId : String) : Except LedgerError RevisionSummary := do
  refuse (decide (Text.len text > maxRecordBytes)) (.corrupt .record)
  let value ← okOr (Codecs.parseJson text) (.corrupt .record)
  let hash ← okOr (recordHash value) (.corrupt .record)
  let revision ← okOr (RevisionId.ofRecordHash hash) (.corrupt .record)
  refuse (hash != storedHash || revision.text != storedId) (.corrupt .recordHash)
  let canonical ← okOr (canonicalJson value).toOption (.corrupt .record)
  refuse (canonical != text) (.corrupt .record)
  let record ← okOr (RecordV1.fromValue value) (.corrupt .record)
  readRecord record revision hash

/-- A record ready to insert. -/
structure Encoded where
  text : String
  summary : RevisionSummary

/-- The record of `pending` at `sequence` on top of `parent`, read back by the rules
every later read applies. -/
def encode (pending : Pending) (sequence : Nat) (parent : Option ParentLink) :
    Except LedgerError Encoded := do
  let encoding : LedgerError := .unavailable "record encoding"
  let value := (pending.record sequence parent).toValue
  let text ← okOr (canonicalJson value).toOption encoding
  refuse (decide (Text.len text > maxRecordBytes)) (.refused .recordTooLarge)
  let hash ← okOr (recordHash value) encoding
  let revision ← okOr (RevisionId.ofRecordHash hash) encoding
  let summary ← okOr (decode text hash revision.text).toOption encoding
  .ok { text, summary }

end Reading

section Faithful

variable {parent : Option ParentLink} {operation : Operation} {record : RecordV1}
  {codes : RevisionCodes} {result : RecordedBundle} {revision : RevisionId} {hash : String}
  {summary : RevisionSummary} {pending : Pending} {sequence : Nat}

theorem readParent_record {result : Option ParentLink}
    (read : readParent (parent.map ParentLink.record) = .ok result) : result = parent := by
  cases parent with
  | none => exact (Except.ok.inj read).symm
  | some parent =>
    simp only [Option.map_some, readParent, bind_eq_ok, okOr_eq_ok, unit_exists_ok,
      Except.ok.injEq] at read
    obtain ⟨revision, parsed, -, same⟩ := read
    rw [← same, RevisionId.parse_eq_some parsed]
    rfl

theorem readOperation_record {result : Operation}
    (read : readOperation operation.asStr (operation.target?.map RevisionId.text) = .ok result) :
    result = operation := by
  cases operation with
  | seed => exact (Except.ok.inj read).symm
  | apply => exact (Except.ok.inj read).symm
  | rollback target =>
    have parsing : ∃ parsed, okOr (RevisionId.parse target.text) (LedgerError.corrupt .record) =
        .ok parsed ∧ Except.ok (.rollback parsed) = (Except.ok result : Except LedgerError _) :=
      bind_eq_ok.mp read
    obtain ⟨parsed, found, same⟩ := parsing
    rw [← Except.ok.inj same, RevisionId.parse_eq_some (okOr_eq_ok.mp found)]

theorem readActor_record {actor result : LedgerActor}
    (read : readActor actor.record = .ok result) : result = actor := by
  simp only [readActor, bind_eq_ok, okOr_eq_ok] at read
  obtain ⟨_, kind, _, authMode, accepted⟩ := read
  rw [LedgerActor.checked_eq_some accepted, named_inj ActorKind.asStr_inj kind,
    named_inj AuthMode.asStr_inj authMode]
  rfl

theorem readCodes_fields (read : readCodes record = .ok codes) :
    codes = { changedSections := record.changedSections
              riskCodes := record.riskCodes
              requiredPermissions := record.requiredPermissions } := by
  simp only [readCodes, bind_eq_ok, unit_exists_ok, refuse_eq_ok, Bool.or_eq_false_iff,
    bne_eq_false_iff_eq, Except.ok.injEq] at read
  obtain ⟨_, -, ⟨⟨sections, risks⟩, permissions⟩, rfl⟩ := read
  rw [← sections, ← risks, ← permissions]

theorem readRequest?_record {request result : Option RevisionRequest}
    (read : readRequest? (request.map RevisionRequest.record) operation codes = .ok result) :
    result = request := by
  cases request with
  | none => exact (Except.ok.inj read).symm
  | some request =>
    simp only [Option.map_some, readRequest?, bind_eq_ok, Except.ok.injEq] at read
    obtain ⟨held, readHeld, same⟩ := read
    simp only [readRequest, bind_eq_ok, okOr_eq_ok, unit_exists_ok, Except.ok.injEq] at readHeld
    obtain ⟨plan, parsed, -, rfl⟩ := readHeld
    rw [← same, PlanId.parse_eq_some parsed]
    rfl

theorem readFile_record {file result : RecordedFile}
    (read : readFile file.record = .ok result) : result = file := by
  simp only [readFile, bind_eq_ok, okOr_eq_ok, unit_exists_ok, Except.ok.injEq] at read
  obtain ⟨role, named, -, name, parsed, same⟩ := read
  rw [← same, named_inj FileRole.asStr_inj named, FileName.parse_eq_some parsed]
  rfl

theorem readFiles_record {files result : List RecordedFile}
    (read : (files.map RecordedFile.record).mapM readFile = .ok result) : result = files := by
  induction files generalizing result with
  | nil => exact (Except.ok.inj read).symm
  | cons file files ih =>
    simp only [List.map_cons, List.mapM_cons, bind_eq_ok] at read
    obtain ⟨first, readFirst, rest, readRest, same⟩ := read
    rw [← Except.ok.inj same, readFile_record readFirst, ih readRest]

theorem readBundleRecord_wellFormed {bundle : BundleV1}
    (read : readBundleRecord bundle = .ok result) : isWellFormed result = true := by
  simp only [readBundleRecord, bind_eq_ok, unit_exists_ok, refuse_eq_ok, Except.ok.injEq] at read
  obtain ⟨_, -, _, -, _, -, _, -, _, -, formed, same⟩ := read
  rw [← same]
  simpa using formed

theorem readBundleRecord_record {bundle : RecordedBundle}
    (read : readBundleRecord bundle.record = .ok result) : result = bundle := by
  simp only [readBundleRecord, bind_eq_ok, okOr_eq_ok, unit_exists_ok, Except.ok.injEq] at read
  obtain ⟨_, -, _, profile, _, files, _, policy, _, tools, -, same⟩ := read
  rw [← same, named_inj Profile.asStr_inj profile, readFiles_record files,
    named_inj ResourceOrigin.asStr_inj policy, named_inj ResourceOrigin.asStr_inj tools]
  rfl

/-- What the summary of a recorded proposal says. -/
structure Records (pending : Pending) (sequence : Nat) (parent : Option ParentLink)
    (summary : RevisionSummary) : Prop where
  sequence : summary.sequence = sequence
  parent : summary.parent = parent
  recordedAtMs : summary.recordedAtMs = pending.recordedAtMs
  operation : summary.operation = pending.operation
  actor : summary.actor = pending.actor
  activation : summary.activation = pending.activation
  codes : summary.codes = pending.codes
  request : summary.request = pending.request
  bundle : summary.bundle = pending.bundle

/-- Every typed record has the ID and hash it was read under and a well-formed bundle. -/
theorem readRecord_identity (read : readRecord record revision hash = .ok summary) :
    summary.revision = revision ∧ summary.recordHash = hash ∧
      isWellFormed summary.bundle = true := by
  simp only [readRecord, bind_eq_ok, unit_exists_ok, Except.ok.injEq] at read
  obtain ⟨-, _, -, _, -, _, -, _, -, _, -, _, -, _, bundle, rfl⟩ := read
  exact ⟨rfl, rfl, readBundleRecord_wellFormed bundle⟩

theorem readRecord_record
    (read : readRecord (pending.record sequence parent) revision hash = .ok summary) :
    Records pending sequence parent summary := by
  simp only [readRecord, bind_eq_ok, unit_exists_ok, Except.ok.injEq] at read
  obtain ⟨-, _, parent, _, operation, _, actor, _, activation, _, codes, _, request, _, bundle,
    rfl⟩ := read
  exact
    { sequence := rfl
      parent := readParent_record parent
      recordedAtMs := rfl
      operation := readOperation_record operation
      actor := readActor_record actor
      activation := named_inj ActivationClass.asStr_inj (okOr_eq_ok.mp activation)
      codes := readCodes_fields codes
      request := readRequest?_record request
      bundle := readBundleRecord_record bundle }

variable [Codecs]

theorem decode_identity {text identifier : String}
    (decoded : decode text hash identifier = .ok summary) :
    summary.revision.text = identifier ∧ summary.recordHash = hash ∧
      isWellFormed summary.bundle = true := by
  simp only [decode, bind_eq_ok, unit_exists_ok, refuse_eq_ok] at decoded
  obtain ⟨-, _, -, found, -, _, -, same, _, -, -, _, -, read⟩ := decoded
  obtain ⟨revision, recordHash, formed⟩ := readRecord_identity read
  simp only [Bool.or_eq_false_iff, bne_eq_false_iff_eq] at same
  exact ⟨revision ▸ same.2, recordHash.trans same.1, formed⟩

/-- The JSON parser reads the compact text of a record back as the record's value. -/
def ParsesRecords : Prop :=
  ∀ record : RecordV1, record.sequence ≤ maxSafeInteger → record.recordedAtMs ≤ maxSafeInteger →
    Codecs.parseJson (String.ofList record.toValue.text) = some record.toValue

/-- A record that was encoded reads back, and says what was proposed. -/
theorem encode_records (parses : ParsesRecords) {result : Encoded}
    (sequenced : sequence ≤ maxSafeInteger)
    (encoded : encode pending sequence parent = .ok result) :
    decode result.text result.summary.recordHash result.summary.revision.text =
        .ok result.summary ∧ Records pending sequence parent result.summary := by
  simp only [encode, bind_eq_ok, okOr_eq_ok, unit_exists_ok, Except.ok.injEq] at encoded
  obtain ⟨text, canonical, -, hash, -, revision, -, summary, decoded, rfl⟩ := encoded
  have decoded : decode text hash revision.text = .ok summary := by
    cases outcome : decode text hash revision.text <;> simp_all [Except.toOption]
  obtain ⟨identifier, recordHash, -⟩ := decode_identity decoded
  refine ⟨by simpa only [identifier, recordHash] using decoded, ?_⟩
  rw [canonicalJson_settled (RecordV1.settled _ sequenced pending.recordable)] at canonical
  obtain rfl : String.ofList (pending.record sequence parent).toValue.text = text :=
    Option.some.inj canonical
  simp only [decode, bind_eq_ok, okOr_eq_ok, unit_exists_ok] at decoded
  obtain ⟨-, value, parsed, _, -, _, -, -, _, -, -, record, read, typed⟩ := decoded
  obtain rfl : (pending.record sequence parent).toValue = value :=
    Option.some.inj ((parses _ sequenced pending.recordable).symm.trans parsed)
  have small : maxSafeInteger < 2 ^ 64 := by decide
  rw [RecordV1.fromValue_toValue _ (sequenced.trans_lt small)
    (pending.recordable.trans_lt small)] at read
  obtain rfl := Option.some.inj read
  exact readRecord_record typed

end Faithful

section Documents

variable {bundle : RecordedBundle}

theorem isWellFormed_files (formed : isWellFormed bundle = true) : bundle.files.length ≤ 4 := by
  simp only [isWellFormed, Bool.and_eq_true, beq_iff_eq] at formed
  rw [formed.1.2]
  split_ifs <;> simp

variable [Codecs]

/-- A stored file is the recorded one: its role and name, with bytes under its pin. -/
def FileMatches (recorded : RecordedFile) (stored : SourceFile) : Prop :=
  recorded.role = stored.role ∧ recorded.name = stored.name ∧
    sha256Pin stored.bytes = recorded.sha256

theorem checkDocuments_eq_ok {files : List SourceFile} :
    checkDocuments bundle files = .ok () ↔
      List.Forall₂ FileMatches bundle.files files ∧ ∃ manifest, files.head? = some manifest ∧
        sourceDigest manifestMediaType bundle.apiVersion.asStr manifest.bytes =
          bundle.sourceDigest := by
  simp only [checkDocuments, bind_eq_ok, unit_exists_ok, refuse_eq_ok, okOr_eq_ok,
    List.forall₂_iff_zip, bne_eq_false_iff_eq]
  rw [← and_assoc]
  refine and_congr_left fun _ => and_congr eq_comm ?_
  simp only [List.any_eq_false, Prod.forall, FileMatches]
  refine forall₂_congr fun recorded stored => imp_congr_right fun _ => ?_
  simp [and_assoc]

/-- The files of a bundle that can be recorded reproduce its pins and source digest. -/
theorem recordedBundle_documents {bundle : Bundle} {recorded : RecordedBundle}
    (accepted : recordedBundle bundle = .ok recorded) :
    checkDocuments recorded bundle.sourceFiles = .ok () := by
  simp only [recordedBundle, bind_eq_ok, unit_exists_ok, okOr_eq_ok, Except.ok.injEq] at accepted
  obtain ⟨files, -, -, _, checked, rfl⟩ := accepted
  cases outcome : checkDocuments _ bundle.sourceFiles with
  | ok => rfl
  | error problem => simp [outcome, Except.toOption] at checked

theorem Pending.new_fields {bundle : Bundle} {actor : LedgerActor} {operation : Operation}
    {activation : ActivationClass} {codes : RevisionCodes} {recordedAt : Int} {pending : Pending}
    (accepted : Pending.new bundle actor operation activation codes recordedAt = .ok pending) :
    checkDocuments pending.bundle bundle.sourceFiles = .ok () ∧ pending.operation = operation ∧
      pending.request = none ∧ pending.activation = activation := by
  simp only [Pending.new, bind_eq_ok, Except.ok.injEq] at accepted
  obtain ⟨⟨_, _⟩, -, recorded, accepted, rfl⟩ := accepted
  exact ⟨recordedBundle_documents accepted, rfl, rfl, rfl⟩

end Documents

end GreenGateway.Ledger
