import Mathlib.Data.List.Destutter
import GreenGateway.Config.CanonicalForm
import GreenGateway.Foundation.JsonSize
import GreenGateway.Ledger.Reachable

/-! Which revisions built by the ledger's own constructors are recorded: all whose record
fits its byte bound, and how many bytes a record takes. -/

namespace GreenGateway.Ledger

open Foundation Config List

section Constructors

def maxIdempotencyKeyBytes : Nat := 128
def idempotencyKeyMediaType : String := "application/vnd.greengateway.idempotency-key"

namespace LedgerActor

/-- An authenticated principal. -/
def principal (subject : String) (issuer : Option String) (authMode : AuthMode) :
    Except LedgerError LedgerActor :=
  okOr (checked .principal subject issuer authMode) (.refused .actorNotRecordable)

/-- A gateway-issued service token. -/
def serviceToken (subject : String) : Except LedgerError LedgerActor :=
  okOr (checked .serviceToken subject none .serviceToken) (.refused .actorNotRecordable)

/-- An operator command's fixed label. -/
def system (label : String) : Except LedgerError LedgerActor :=
  okOr (checked .system label none .system) (.refused .actorNotRecordable)

/-- An actor that one of the constructors returned. -/
inductive Built : LedgerActor → Prop where
  | principal {subject : String} {issuer : Option String} {authMode : AuthMode} {actor : LedgerActor}
      (built : principal subject issuer authMode = .ok actor) : Built actor
  | serviceToken {subject : String} {actor : LedgerActor} (built : serviceToken subject = .ok actor) :
      Built actor
  | system {label : String} {actor : LedgerActor} (built : system label = .ok actor) : Built actor

end LedgerActor

/-- Whether `key` is an idempotency key a request may carry. -/
def isIdempotencyKey (key : String) : Bool :=
  !key.isEmpty && decide (Text.len key ≤ maxIdempotencyKeyBytes) &&
    key.toList.all fun char => char.isAlphanum || ['.', '_', ':', '-'].contains char

/-- The codes one of the lists given to `RevisionCodes::new` ended as. -/
def RevisionCodes.Built (codes : RevisionCodes) : Prop :=
  ∃ changedSections riskCodes requiredPermissions,
    RevisionCodes.new changedSections riskCodes requiredPermissions = .ok codes

/-- An operation on top of a revision; an ID is one that parses. -/
def Operation.Follows : Operation → Prop
  | .seed => False
  | .apply => True
  | .rollback target => RevisionId.parse target.text = some target

/-- The versions a document of this role can have. -/
def FileRole.schemaVersions : FileRole → List String
  | .policy => policySchemaVersions
  | .tools => toolsSchemaVersions
  | .manifest | .deployment => []

/-- A recorded file has a name that parses and, if any, a version of its role. -/
structure RecordedFile.Typed (file : RecordedFile) : Prop where
  name : FileName.parse file.name.text = some file.name
  version : ∀ version, file.schemaVersion = some version → version ∈ file.role.schemaVersions

/-- A valid link: the parent's ID is the one its record hash yields. -/
def ParentLink.Valid (parent : ParentLink) : Prop :=
  RevisionId.ofRecordHash parent.recordHash = some parent.revision

variable [Codecs] {bundle : Bundle}

/-- What the ledger stores for an idempotency key. -/
def idempotencyKeyDigest (key : String) : String :=
  sourceDigest idempotencyKeyMediaType "v1" (utf8 key)

/-- `RevisionRequest::new`. -/
def RevisionRequest.new (plan : PlanId) (key binding : String) (acknowledgedRisks : List String)
    (stageOnly : Bool) : Except LedgerError RevisionRequest := do
  refuse (!isIdempotencyKey key || !isFramedDigest binding) (.refused .requestNotRecordable)
  let acknowledgedRisks ← okOr (sortedCodes acknowledgedRisks) (.refused .requestNotRecordable)
  .ok { plan, idempotencyKey := idempotencyKeyDigest key, binding, acknowledgedRisks, stageOnly }

/-- A request that the constructor returned for a plan ID that parses. -/
def RevisionRequest.Built (request : RevisionRequest) : Prop :=
  ∃ plan key binding acknowledgedRisks stageOnly, PlanId.parse plan.text = some plan ∧
    RevisionRequest.new plan key binding acknowledgedRisks stageOnly = .ok request

/-- A pending revision made of parts their constructors returned. -/
structure Pending.Built (pending : Pending) : Prop where
  operation : pending.operation.Follows
  actor : pending.actor.Built
  codes : pending.codes.Built
  request : ∀ request, pending.request = some request → request.Built
  acknowledged : ∀ request, pending.request = some request →
    request.acknowledgedRisks = pending.codes.riskCodes
  bundle : isWellFormed pending.bundle = true
  files : ∀ file ∈ pending.bundle.files, file.Typed

theorem recordedBundle_wellFormed {recorded : RecordedBundle}
    (accepted : recordedBundle bundle = .ok recorded) : isWellFormed recorded = true := by
  simp only [recordedBundle, bind_eq_ok, unit_exists_ok, refuse_eq_ok, Except.ok.injEq] at accepted
  obtain ⟨files, -, formed, -, -, rfl⟩ := accepted
  simpa using formed

/-- What `Pending::new` and `Pending::with_request` make of such parts. -/
theorem Pending.built_of_new {actor : LedgerActor} {operation : Operation}
    {activation : ActivationClass} {codes : RevisionCodes} {recordedAt : Int}
    {request : Option RevisionRequest} {drafted pending : Pending}
    (drafts : Pending.new bundle actor operation activation codes recordedAt = .ok drafted)
    (requests : drafted.withRequest request = .ok pending) (follows : operation.Follows)
    (isActor : actor.Built) (isCodes : codes.Built)
    (isRequest : ∀ held, request = some held → held.Built)
    (files : ∀ file ∈ drafted.bundle.files, file.Typed) : pending.Built := by
  simp only [Pending.new, bind_eq_ok, Except.ok.injEq] at drafts
  obtain ⟨⟨_, _⟩, -, recorded, accepted, rfl⟩ := drafts
  simp only [Pending.withRequest, bind_eq_ok, unit_exists_ok, refuse_eq_ok,
    Except.ok.injEq] at requests
  obtain ⟨acknowledged, rfl⟩ := requests
  refine
    { operation := follows
      actor := isActor
      codes := isCodes
      request := isRequest
      acknowledged := ?_
      bundle := recordedBundle_wellFormed accepted
      files := files }
  intro held same
  obtain rfl : request = some held := same
  simpa using acknowledged

end Constructors

section ReadBack

theorem sortedCodes_idem {codes list : List String} (sorted : sortedCodes codes = some list) :
    sortedCodes list = some list := by
  simp only [sortedCodes, Option.ite_none_right_eq_some, Option.some.injEq] at sorted ⊢
  obtain ⟨bounds, rfl⟩ := sorted
  have ordered : ((codes.insertionSort (· ≤ ·)).destutter (· ≠ ·)).Pairwise (· ≤ ·) :=
    (pairwise_insertionSort _ _).sublist (destutter_sublist _ _)
  have same : (((codes.insertionSort (· ≤ ·)).destutter (· ≠ ·)).insertionSort (· ≤ ·)).destutter
      (· ≠ ·) = (codes.insertionSort (· ≤ ·)).destutter (· ≠ ·) := by
    rw [ordered.insertionSort_eq, destutter_idem]
  exact ⟨by rwa [same], same⟩

variable {codes : RevisionCodes} {actor : LedgerActor} {operation : Operation} {parent : ParentLink}

theorem RevisionCodes.new_eq_ok {changedSections riskCodes requiredPermissions : List String} :
    RevisionCodes.new changedSections riskCodes requiredPermissions = .ok codes ↔
      sortedCodes changedSections = some codes.changedSections ∧
      sortedCodes riskCodes = some codes.riskCodes ∧
      sortedCodes requiredPermissions = some codes.requiredPermissions := by
  obtain ⟨sections, risks, permissions⟩ := codes
  simp only [RevisionCodes.new]
  cases sortedCodes changedSections with
  | none => simp [bind, Except.bind]
  | some first =>
    cases sortedCodes riskCodes with
    | none => simp [bind, Except.bind]
    | some second => cases sortedCodes requiredPermissions <;> simp [bind, Except.bind]

theorem RevisionCodes.Built.sorted (built : codes.Built) :
    sortedCodes codes.changedSections = some codes.changedSections ∧
      sortedCodes codes.riskCodes = some codes.riskCodes ∧
      sortedCodes codes.requiredPermissions = some codes.requiredPermissions := by
  obtain ⟨_, _, _, made⟩ := built
  obtain ⟨sections, risks, permissions⟩ := new_eq_ok.mp made
  exact ⟨sortedCodes_idem sections, sortedCodes_idem risks, sortedCodes_idem permissions⟩

theorem LedgerActor.Built.checked (built : actor.Built) :
    LedgerActor.checked actor.kind actor.subject actor.issuer actor.authMode = some actor := by
  have self {kind : ActorKind} {subject : String} {issuer : Option String} {authMode : AuthMode}
      (accepted : LedgerActor.checked kind subject issuer authMode = some actor) :
      LedgerActor.checked actor.kind actor.subject actor.issuer actor.authMode = some actor := by
    have fields := LedgerActor.checked_eq_some accepted
    rw [fields] at accepted ⊢
    exact accepted
  cases built with
  | principal built => exact self (okOr_eq_ok.mp built)
  | serviceToken built => exact self (okOr_eq_ok.mp built)
  | system built => exact self (okOr_eq_ok.mp built)

theorem LedgerActor.Built.readActor (built : actor.Built) : readActor actor.record = .ok actor := by
  have kind : named ActorKind.all ActorKind.asStr actor.kind.asStr = some actor.kind :=
    named_asStr ActorKind.asStr_inj (by cases actor.kind <;> decide)
  have mode : named AuthMode.all AuthMode.asStr actor.authMode.asStr = some actor.authMode :=
    named_asStr AuthMode.asStr_inj (by cases actor.authMode <;> decide)
  simp only [Ledger.readActor, bind_eq_ok, okOr_eq_ok]
  exact ⟨actor.kind, kind, actor.authMode, mode, built.checked⟩

theorem Operation.Follows.readOperation (follows : operation.Follows) :
    readOperation operation.asStr (operation.target?.map RevisionId.text) = .ok operation := by
  cases operation with
  | seed => cases follows
  | apply => rfl
  | rollback target =>
    have parsed : okOr (RevisionId.parse target.text) (LedgerError.corrupt .record) = .ok target :=
      okOr_eq_ok.mpr follows
    exact bind_eq_ok.mpr ⟨target, parsed, rfl⟩

theorem isLowercaseHex_ascii {text : String} (hex : isLowercaseHex text = true) :
    ∀ char ∈ text.toList, char.utf8Size = 1 := by
  rw [isLowercaseHex, all_eq_true] at hex
  intro char member
  have small : char.toNat < 128 := by
    rcases Bool.or_eq_true_iff.mp (hex char member) with digit | letter
    · exact Nat.lt_of_le_of_lt (of_decide_eq_true (Bool.and_eq_true_iff.mp digit).2) (by decide)
    · exact Nat.lt_of_le_of_lt (of_decide_eq_true letter).2 (by decide)
  exact utf8Size_of_ascii small

theorem parse_of_ofRecordHash {recordHash : String} {revision : RevisionId}
    (yields : RevisionId.ofRecordHash recordHash = some revision) :
    RevisionId.parse revision.text = some revision := by
  obtain ⟨digits, -, checked⟩ := Option.bind_eq_some_iff.mp yields
  split at checked
  · cases checked
  · rename_i sized
    obtain rfl := Option.some.inj checked
    rw [Bool.or_eq_true, not_or, Bool.not_eq_true, Bool.not_eq_true, Bool.not_eq_false',
      bne_eq_false_iff_eq] at sized
    obtain ⟨length, hex⟩ := sized
    have ascii := isLowercaseHex_ascii hex
    have short : Text.len (String.ofList (digits.toList.take 32)) = 32 := by
      rw [len_of_ascii, String.toList_ofList, length_take, ← len_of_ascii ascii, length]
      · rfl
      · rw [String.toList_ofList]
        exact fun char member => ascii char (mem_of_mem_take member)
    have lowercase : isLowercaseHex (String.ofList (digits.toList.take 32)) = true := by
      rw [isLowercaseHex, all_eq_true] at hex ⊢
      rw [String.toList_ofList]
      exact fun char member => hex char (mem_of_mem_take member)
    simp [RevisionId.parse, stripFront?_append, short, lowercase]

theorem ParentLink.Valid.readParent (valid : parent.Valid) :
    readParent ((some parent).map ParentLink.record) = .ok (some parent) := by
  simp only [Option.map_some, Ledger.readParent, bind_eq_ok, okOr_eq_ok, unit_exists_ok,
    refuse_eq_ok, bne_eq_false_iff_eq]
  exact ⟨parent.revision, parse_of_ofRecordHash valid, valid, rfl⟩

theorem RecordedFile.Typed.readFile {file : RecordedFile} (typed : file.Typed) :
    readFile file.record = .ok file := by
  have role : named FileRole.all FileRole.asStr file.role.asStr = some file.role :=
    named_asStr FileRole.asStr_inj (by cases file.role <;> decide)
  simp only [Ledger.readFile, bind_eq_ok, okOr_eq_ok, unit_exists_ok, checkSome_eq_ok, refuse_eq_ok,
    Bool.not_eq_false', contains_iff_mem]
  refine ⟨file.role, role, ?_, file.name, typed.name, rfl⟩
  intro version held
  have known := typed.version version held
  cases same : file.role <;> rw [same] at known <;> exact known

theorem readBundleRecord_of_typed {bundle : RecordedBundle} (formed : isWellFormed bundle = true)
    (typed : ∀ file ∈ bundle.files, file.Typed) : readBundleRecord bundle.record = .ok bundle := by
  have version : named ApiVersion.all ApiVersion.asStr bundle.apiVersion.asStr =
      some bundle.apiVersion := by cases bundle.apiVersion; rfl
  have profile : named Profile.all Profile.asStr bundle.profile.asStr = some bundle.profile :=
    named_asStr Profile.asStr_inj (by cases bundle.profile <;> decide)
  have origin (origin : ResourceOrigin) :
      named ResourceOrigin.all ResourceOrigin.asStr origin.asStr = some origin :=
    named_asStr ResourceOrigin.asStr_inj (by cases origin <;> decide)
  have files : ∀ files : List RecordedFile, (∀ file ∈ files, file.Typed) →
      (files.map RecordedFile.record).mapM readFile = .ok files := by
    intro files typed
    induction files with
    | nil => rfl
    | cons file files ih =>
      rw [forall_mem_cons] at typed
      simp only [map_cons, mapM_cons, bind_eq_ok]
      exact ⟨file, typed.1.readFile, files, ih typed.2, rfl⟩
  simp only [readBundleRecord, bind_eq_ok, okOr_eq_ok, unit_exists_ok, refuse_eq_ok,
    Bool.not_eq_false']
  exact ⟨bundle.apiVersion, version, bundle.profile, profile, bundle.files, files _ typed,
    bundle.policy, origin _, bundle.tools, origin _, formed, rfl⟩

variable [Codecs]

theorem RevisionRequest.Built.fields (sized : DigestsSized) {request : RevisionRequest}
    (built : request.Built) : PlanId.parse request.plan.text = some request.plan ∧
      isFramedDigest request.binding = true ∧ isFramedDigest request.idempotencyKey = true ∧
      ∃ risks, sortedCodes risks = some request.acknowledgedRisks := by
  obtain ⟨plan, key, binding, risks, stageOnly, parsed, made⟩ := built
  simp only [RevisionRequest.new, bind_eq_ok, unit_exists_ok, refuse_eq_ok, okOr_eq_ok,
    Bool.or_eq_false_iff, Bool.not_eq_false', Except.ok.injEq] at made
  obtain ⟨⟨-, framed⟩, sorted, ordered, rfl⟩ := made
  exact ⟨parsed, framed, framedDigest_framed sized _ _ _ _, risks, ordered⟩

theorem RevisionRequest.Built.readRequest (sized : DigestsSized) {request : RevisionRequest}
    (built : request.Built) (follows : operation.Follows)
    (acknowledged : request.acknowledgedRisks = codes.riskCodes) :
    readRequest request.record operation codes = .ok request := by
  obtain ⟨parsed, framed, digest, risks, ordered⟩ := built.fields sized
  have notSeed : (operation == .seed) = false := by
    cases operation with
    | seed => cases follows
    | apply => rfl
    | rollback target => rfl
  have again := sortedCodes_idem ordered
  simp only [Ledger.readRequest, bind_eq_ok, okOr_eq_ok, unit_exists_ok, refuse_eq_ok]
  refine ⟨request.plan, parsed, ?_, rfl⟩
  simp [RevisionRequest.record, notSeed, digest, framed, again, ← acknowledged, bne_self_eq_false]

theorem Pending.Built.recordable (sized : DigestsSized) {pending : Pending} (built : pending.Built)
    {sequence : Nat} (sequenced : 1 ≤ sequence ∧ sequence ≤ maxSafeInteger) (valid : parent.Valid)
    (fits : Text.len (String.ofList (pending.record sequence (some parent)).toValue.text) ≤
      maxRecordBytes) : Recordable pending sequence (some parent) where
  sequenced := sequenced
  parentRead := valid.readParent
  operation := built.operation.readOperation
  actor := built.actor.readActor
  codes := RevisionCodes.new_eq_ok.mpr built.codes.sorted
  request := by
    cases held : pending.request with
    | none => rfl
    | some request =>
      exact bind_eq_ok.mpr ⟨request, (built.request request held).readRequest sized built.operation
        (built.acknowledged request held), rfl⟩
  bundle := readBundleRecord_of_typed built.bundle built.files
  fits := fits

end ReadBack

section Sizes

/-! The bytes of a record, from its fields. Only an actor's subject and issuer can hold
characters that JSON escapes. -/

def quotedBytes (text : String) : Nat := Text.len text + 2

/-- An optional member's value: `null` takes four bytes. -/
def orNullBytes {α : Type} (bytes : α → Nat) : Option α → Nat
  | none => 4
  | some value => bytes value

def codesBytes (codes : List String) : Nat := Json.arrayBytes (codes.map quotedBytes)

def LedgerActor.bytes (actor : LedgerActor) : Nat :=
  Json.objectBytes
    [("auth_mode", quotedBytes actor.authMode.asStr),
      ("issuer", orNullBytes (fun issuer => Json.escapedBytes issuer + 2) actor.issuer),
      ("kind", quotedBytes actor.kind.asStr), ("subject", Json.escapedBytes actor.subject + 2)]

def ParentLink.bytes (parent : ParentLink) : Nat :=
  Json.objectBytes
    [("record_hash", quotedBytes parent.recordHash), ("revision", quotedBytes parent.revision.text)]

def RevisionRequest.bytes (request : RevisionRequest) : Nat :=
  Json.objectBytes
    [("acknowledged_risks", codesBytes request.acknowledgedRisks),
      ("binding", quotedBytes request.binding),
      ("idempotency_key", quotedBytes request.idempotencyKey),
      ("plan", quotedBytes request.plan.text), ("stage_only", if request.stageOnly then 4 else 5)]

def RecordedFile.bytes (file : RecordedFile) : Nat :=
  Json.objectBytes
    [("name", quotedBytes file.name.text), ("role", quotedBytes file.role.asStr),
      ("schema_version", orNullBytes quotedBytes file.schemaVersion),
      ("sha256", quotedBytes file.sha256)]

def RecordedBundle.bytes (bundle : RecordedBundle) : Nat :=
  Json.objectBytes
    [("api_version", quotedBytes bundle.apiVersion.asStr),
      ("files", Json.arrayBytes (bundle.files.map RecordedFile.bytes)),
      ("name", quotedBytes bundle.name), ("policy", quotedBytes bundle.policy.asStr),
      ("profile", quotedBytes bundle.profile.asStr),
      ("source_digest", quotedBytes bundle.sourceDigest), ("tools", quotedBytes bundle.tools.asStr)]

/-- The bytes of a pending revision's record at `sequence` on top of `parent`. -/
def Pending.bytes (pending : Pending) (sequence : Nat) (parent : ParentLink) : Nat :=
  Json.objectBytes
    [("activation", quotedBytes pending.activation.asStr), ("actor", pending.actor.bytes),
      ("bundle", pending.bundle.bytes), ("changed_sections", codesBytes pending.codes.changedSections),
      ("operation", quotedBytes pending.operation.asStr), ("parent", parent.bytes),
      ("recorded_at_ms", Text.len (toString pending.recordedAtMs)),
      ("request", orNullBytes RevisionRequest.bytes pending.request),
      ("required_permissions", codesBytes pending.codes.requiredPermissions),
      ("risk_codes", codesBytes pending.codes.riskCodes),
      ("rollback_of", orNullBytes (fun target => quotedBytes target.text) pending.operation.target?),
      ("sequence", Text.len (toString sequence))]

end Sizes

section Plain

/-- A text that holds nothing to escape. -/
def IsPlainText (text : String) : Prop := ∀ char ∈ text.toList, Json.IsPlain char

instance (text : String) : Decidable (IsPlainText text) :=
  inferInstanceAs (Decidable (∀ char ∈ text.toList, 0x20 ≤ char.toNat ∧ char ≠ '"' ∧ char ≠ '\\'))

variable {char : Char} {text : String}

theorem isPlain_of_code (visible : 0x20 ≤ char.toNat) (quote : char.toNat ≠ 34)
    (slash : char.toNat ≠ 92) : Json.IsPlain char :=
  ⟨visible, fun same => quote (same ▸ rfl), fun same => slash (same ▸ rfl)⟩

theorem isPlain_of_lower (lower : char.isLower = true) : Json.IsPlain char := by
  have from_ : 97 ≤ char.toNat := of_decide_eq_true (Bool.and_eq_true_iff.mp lower).1
  exact isPlain_of_code (by omega) (by omega) (by omega)

theorem isPlain_of_digit (digit : char.isDigit = true) : Json.IsPlain char := by
  obtain ⟨from_, to_⟩ := Bool.and_eq_true_iff.mp digit
  have first : 48 ≤ char.toNat := of_decide_eq_true from_
  have last : char.toNat ≤ 57 := of_decide_eq_true to_
  exact isPlain_of_code (by omega) (by omega) (by omega)

/-- The punctuation of codes, file names and labels. -/
theorem isPlain_of_mark (mark : char ∈ ['_', '.', ':', '-']) : Json.IsPlain char := by
  simp only [mem_cons, not_mem_nil, or_false] at mark
  rcases mark with rfl | rfl | rfl | rfl <;> exact isPlain_of_code (by decide) (by decide) (by decide)

theorem isPlainText_hex (hex : isLowercaseHex text = true) : IsPlainText text := by
  intro char member
  rw [isLowercaseHex, all_eq_true] at hex
  rcases Bool.or_eq_true_iff.mp (hex char member) with digit | letter
  · exact isPlain_of_digit digit
  · have from_ : 97 ≤ char.toNat := (of_decide_eq_true letter).1
    exact isPlain_of_code (by omega) (by omega) (by omega)

theorem isPlainText_append {left right : String} (first : IsPlainText left)
    (second : IsPlainText right) : IsPlainText (left ++ right) := by
  intro char member
  rw [String.toList_append, mem_append] at member
  exact member.elim (first char) (second char)

section Vocabulary

attribute [local simp] IsPlainText Json.IsPlain

theorem AuthMode.plain (mode : AuthMode) : IsPlainText mode.asStr := by
  cases mode <;> simp [asStr]

theorem ActorKind.plain (kind : ActorKind) : IsPlainText kind.asStr := by
  cases kind <;> simp [asStr]

theorem FileRole.plain (role : FileRole) : IsPlainText role.asStr := by
  cases role <;> simp [asStr]

theorem FileRole.plain_version (role : FileRole) {version : String}
    (listed : version ∈ role.schemaVersions) : IsPlainText version := by
  revert version
  cases role <;> simp [schemaVersions, policySchemaVersions, toolsSchemaVersions]

theorem ApiVersion.plain (version : ApiVersion) : IsPlainText version.asStr := by
  cases version
  simp [asStr]

theorem Profile.plain (profile : Profile) : IsPlainText profile.asStr := by
  cases profile <;> simp [asStr]

theorem ResourceOrigin.plain (origin : ResourceOrigin) : IsPlainText origin.asStr := by
  cases origin <;> simp [asStr]

theorem ActivationClass.plain (activation : ActivationClass) : IsPlainText activation.asStr := by
  cases activation <;> simp [asStr]

theorem Operation.plain (operation : Operation) : IsPlainText operation.asStr := by
  cases operation <;> simp [asStr]

end Vocabulary

/-- A fixed head before a number of hexadecimal digits. -/
theorem headed_text {head digits : String} {count : Nat} (plain : IsPlainText head)
    (stripped : Text.stripFront? text head = some digits)
    (hex : (Text.len digits == count && isLowercaseHex digits) = true) :
    IsPlainText text ∧ Text.len text = Text.len head + count := by
  rw [Bool.and_eq_true, beq_iff_eq] at hex
  rw [Text.stripFront?_eq_some.mp stripped]
  refine ⟨isPlainText_append plain (isPlainText_hex hex.2), ?_⟩
  rw [Text.len, String.utf8ByteSize_append, ← Text.len, ← Text.len, hex.1]

theorem framed_text {digest : String} (framed : isFramedDigest digest = true) :
    IsPlainText digest ∧ Text.len digest = 71 := by
  obtain ⟨digits, stripped, checked⟩ := (Option.any_eq_true _ _).mp framed
  exact headed_text (by simp [IsPlainText, Json.IsPlain]) stripped checked

theorem revision_text {revision : RevisionId}
    (parsed : RevisionId.parse revision.text = some revision) :
    IsPlainText revision.text ∧ Text.len revision.text = 36 := by
  obtain ⟨digits, stripped, checked⟩ := Option.bind_eq_some_iff.mp parsed
  rw [Option.ite_none_right_eq_some] at checked
  exact headed_text (by simp [IsPlainText, Json.IsPlain]) stripped checked.1

theorem plan_text {plan : PlanId} (parsed : PlanId.parse plan.text = some plan) :
    IsPlainText plan.text ∧ Text.len plan.text = 37 := by
  obtain ⟨digits, stripped, checked⟩ := Option.bind_eq_some_iff.mp parsed
  rw [Option.ite_none_right_eq_some] at checked
  exact headed_text (by simp [IsPlainText, Json.IsPlain]) stripped checked.1

theorem isPlainText_code {code : String} (isCode : isCode code = true) : IsPlainText code := by
  simp only [Ledger.isCode, Bool.and_eq_true, all_eq_true, Bool.or_eq_true,
    contains_iff_mem] at isCode
  intro char member
  rcases isCode.2 char member with (lower | digit) | mark
  · exact isPlain_of_lower lower
  · exact isPlain_of_digit digit
  · exact isPlain_of_mark mark

theorem fileName_text {name : FileName} (parsed : FileName.parse name.text = some name) :
    IsPlainText name.text ∧ Text.len name.text ≤ maxFileNameBytes := by
  unfold FileName.parse at parsed
  split at parsed
  · rename_i portable
    unfold isPortableFileName at portable
    split at portable
    · cases portable
    · simp only [Bool.and_eq_true, all_eq_true, Bool.or_eq_true, contains_iff_mem] at portable
      refine ⟨fun char member => ?_, of_decide_eq_true portable.1.1.1.1⟩
      rcases portable.1.1.2 char member with (lower | digit) | mark
      · exact isPlain_of_lower lower
      · exact isPlain_of_digit digit
      · refine isPlain_of_mark ?_
        simp only [mem_cons, not_mem_nil, or_false] at mark ⊢
        tauto
  · cases parsed

theorem dnsLabel_text {name : String} (label : isDnsLabel name = true) :
    IsPlainText name ∧ Text.len name ≤ 63 := by
  have alphanumeric {char : Char} (listed : (char.isLower || char.isDigit) = true) :
      Json.IsPlain char :=
    (Bool.or_eq_true_iff.mp listed).elim isPlain_of_lower isPlain_of_digit
  unfold isDnsLabel at label
  dsimp only at label
  split at label
  · cases label
  · rename_i only single
    refine ⟨fun char member => ?_, ?_⟩
    · rw [single, mem_singleton] at member
      exact alphanumeric (member ▸ label)
    · rw [← String.ofList_toList (s := name), single, len_ofList, utf8Width_cons, utf8Width_nil]
      have small := Char.utf8Size_le_four only
      omega
  · rename_i first rest _ split
    simp only [Bool.and_eq_true, all_eq_true] at label
    obtain ⟨⟨⟨short, leads⟩, ends⟩, middle⟩ := label
    refine ⟨fun char member => ?_, of_decide_eq_true short⟩
    obtain ⟨last, isLast, ended⟩ := (Option.any_eq_true _ _).mp ends
    rw [split, ← dropLast_append_getLast? last isLast, mem_cons, mem_append,
      mem_singleton] at member
    rcases member with rfl | inside | rfl
    · exact alphanumeric leads
    · rcases Bool.or_eq_true_iff.mp (middle char inside) with letter | dash
      · exact alphanumeric letter
      · exact isPlain_of_mark (by rw [beq_iff_eq.mp dash]; decide)
    · exact alphanumeric ended

end Plain

section Exact

theorem utf8Width_plain {text : String} (plain : IsPlainText text) :
    utf8Width (Json.string text).text = quotedBytes text := by
  rw [Json.text, Json.utf8Width_quoted, Json.escapedBytes_of_plain plain, quotedBytes]

theorem utf8Width_number (value : Nat) :
    utf8Width (Json.number (toString value)).text = Text.len (toString value) := by
  rw [Json.text, ← len_ofList, String.ofList_toList]

theorem utf8Width_strings {values : List String} (plain : ∀ value ∈ values, IsPlainText value) :
    utf8Width (strings values).text = codesBytes values := by
  rw [strings, Json.utf8Width_array, map_map, codesBytes]
  exact congrArg Json.arrayBytes (map_congr_left fun value listed => utf8Width_plain (plain value listed))

theorem utf8Width_orNull {α : Type} {toValue : α → Json} {bytes : α → Nat} (value : Option α)
    (sized : ∀ held, value = some held → utf8Width (toValue held).text = bytes held) :
    utf8Width (orNull toValue value).text = orNullBytes bytes value := by
  cases value with
  | none => rfl
  | some held => exact sized held rfl

theorem utf8Width_members {first : String × Json} {rest : List (String × Json)}
    (plain : ∀ name ∈ (first :: rest).map Prod.fst, IsPlainText name) :
    utf8Width (Json.object (first :: rest)).text =
      Json.objectBytes ((first :: rest).map fun member => (member.1, utf8Width member.2.text)) :=
  Json.utf8Width_object (cons_ne_nil _ _) fun name listed =>
    Json.escapedBytes_of_plain (plain name listed)

theorem LedgerActor.utf8Width_record (actor : LedgerActor) :
    utf8Width actor.record.toValue.text = actor.bytes := by
  have issuer : utf8Width (orNull Json.string actor.issuer).text =
      orNullBytes (fun issuer => Json.escapedBytes issuer + 2) actor.issuer :=
    utf8Width_orNull actor.issuer fun held _ => Json.utf8Width_quoted held
  rw [ActorV1.toValue, utf8Width_members (by simp [IsPlainText, Json.IsPlain])]
  simp only [LedgerActor.record, map_cons, map_nil,
    utf8Width_plain (actor.authMode.plain), issuer, utf8Width_plain (actor.kind.plain),
    LedgerActor.bytes]
  rw [Json.text, Json.utf8Width_quoted]

theorem ofRecordHash_framed {recordHash : String} {revision : RevisionId}
    (yields : RevisionId.ofRecordHash recordHash = some revision) :
    isFramedDigest recordHash = true := by
  obtain ⟨digits, stripped, checked⟩ := Option.bind_eq_some_iff.mp yields
  split at checked
  · cases checked
  · rename_i sized
    rw [isFramedDigest, stripped, Option.any_some]
    simpa using sized

variable {parent : ParentLink} {bundle : RecordedBundle} {pending : Pending}

theorem ParentLink.Valid.utf8Width_record (valid : parent.Valid) :
    utf8Width parent.record.toValue.text = parent.bytes := by
  have hash := (framed_text (ofRecordHash_framed valid)).1
  have revision := (revision_text (parse_of_ofRecordHash valid)).1
  rw [ParentV1.toValue, utf8Width_members (by simp [IsPlainText, Json.IsPlain])]
  simp [ParentLink.record, utf8Width_plain hash, utf8Width_plain revision, ParentLink.bytes]

theorem RecordedFile.utf8Width_record {file : RecordedFile} (typed : file.Typed)
    (pinned : isLowercaseHex file.sha256 = true) :
    utf8Width file.record.toValue.text = file.bytes := by
  have name := (fileName_text typed.name).1
  have version : utf8Width (orNull Json.string file.schemaVersion).text =
      orNullBytes quotedBytes file.schemaVersion :=
    utf8Width_orNull file.schemaVersion fun held same =>
      utf8Width_plain (file.role.plain_version (typed.version held same))
  rw [FileV1.toValue, utf8Width_members (by simp [IsPlainText, Json.IsPlain])]
  simp [RecordedFile.record, utf8Width_plain name, utf8Width_plain (file.role.plain), version,
    utf8Width_plain (isPlainText_hex pinned), RecordedFile.bytes]

theorem isWellFormed_fields (formed : isWellFormed bundle = true) :
    isDnsLabel bundle.name = true ∧ isFramedDigest bundle.sourceDigest = true ∧
      ∀ file ∈ bundle.files, Text.len file.sha256 = 64 ∧ isLowercaseHex file.sha256 = true := by
  simp only [isWellFormed, Bool.and_eq_true, beq_iff_eq, all_eq_true] at formed
  obtain ⟨⟨⟨label, digest⟩, length⟩, files⟩ := formed
  refine ⟨label, digest, fun file listed => ?_⟩
  rw [← map_fst_zip length.le, mem_map] at listed
  obtain ⟨⟨file, role⟩, paired, rfl⟩ := listed
  exact ⟨(files (file, role) paired).1.1.2, (files (file, role) paired).1.2⟩

theorem RecordedBundle.utf8Width_record
    (formed : isWellFormed bundle = true) (typed : ∀ file ∈ bundle.files, file.Typed) :
    utf8Width bundle.record.toValue.text = bundle.bytes := by
  obtain ⟨label, digest, pins⟩ := isWellFormed_fields formed
  have files : utf8Width (Json.array ((bundle.files.map RecordedFile.record).map FileV1.toValue)).text =
      Json.arrayBytes (bundle.files.map RecordedFile.bytes) := by
    rw [Json.utf8Width_array, map_map, map_map]
    exact congrArg Json.arrayBytes (map_congr_left fun file listed =>
      RecordedFile.utf8Width_record (typed file listed) (pins file listed).2)
  rw [BundleV1.toValue, BundleV1.members, utf8Width_members (by simp [IsPlainText, Json.IsPlain])]
  simp only [RecordedBundle.record, map_cons, map_nil,
    utf8Width_plain (bundle.apiVersion.plain), files,
    utf8Width_plain (dnsLabel_text label).1, utf8Width_plain (ResourceOrigin.plain _),
    utf8Width_plain (bundle.profile.plain), utf8Width_plain (framed_text digest).1,
    RecordedBundle.bytes]

theorem sortedCodes_plain {codes list : List String} (sorted : sortedCodes codes = some list) :
    ∀ code ∈ list, IsPlainText code := by
  simp only [sortedCodes, Option.ite_none_right_eq_some, Option.some.injEq] at sorted
  obtain ⟨⟨-, all⟩, rfl⟩ := sorted
  exact fun code listed => isPlainText_code (List.all_eq_true.mp all code listed)

variable [Codecs]

theorem RevisionRequest.Built.utf8Width_record (sized : DigestsSized) {request : RevisionRequest}
    (built : request.Built) : utf8Width request.record.toValue.text = request.bytes := by
  obtain ⟨parsed, framed, digest, risks, ordered⟩ := built.fields sized
  have stage : utf8Width (Json.bool request.stageOnly).text = if request.stageOnly then 4 else 5 := by
    cases request.stageOnly <;> rfl
  rw [RequestV1.toValue, RequestV1.members, utf8Width_members (by simp [IsPlainText, Json.IsPlain])]
  simp [RevisionRequest.record, utf8Width_strings (sortedCodes_plain ordered),
    utf8Width_plain (framed_text framed).1, utf8Width_plain (framed_text digest).1,
    utf8Width_plain (plan_text parsed).1, stage, RevisionRequest.bytes]

theorem Pending.Built.utf8Width_record (sized : DigestsSized)
    (built : pending.Built) (sequence : Nat) (valid : parent.Valid) :
    Text.len (String.ofList (pending.record sequence (some parent)).toValue.text) =
      pending.bytes sequence parent := by
  obtain ⟨sections, risks, permissions⟩ := built.codes.sorted
  have target : utf8Width (orNull Json.string (pending.operation.target?.map RevisionId.text)).text =
      orNullBytes (fun target => quotedBytes target.text) pending.operation.target? := by
    have follows := built.operation
    cases held : pending.operation with
    | seed | apply => rfl
    | rollback target =>
      rw [held] at follows
      exact utf8Width_plain (revision_text follows).1
  have above : utf8Width (orNull ParentV1.toValue ((some parent).map ParentLink.record)).text =
      parent.bytes := valid.utf8Width_record
  have request : utf8Width (orNull RequestV1.toValue (pending.request.map RevisionRequest.record)).text =
      orNullBytes RevisionRequest.bytes pending.request := by
    cases held : pending.request with
    | none => rfl
    | some request => exact (built.request request held).utf8Width_record sized
  rw [len_ofList, RecordV1.toValue, RecordV1.members,
    utf8Width_members (by simp [IsPlainText, Json.IsPlain])]
  simp only [Pending.record, map_cons, map_nil,
    utf8Width_plain (pending.activation.plain), LedgerActor.utf8Width_record, RecordedBundle.utf8Width_record built.bundle built.files,
    utf8Width_strings (sortedCodes_plain sections), utf8Width_plain pending.operation.plain, above,
    utf8Width_number, request,
    utf8Width_strings (sortedCodes_plain permissions), utf8Width_strings (sortedCodes_plain risks),
    target, Pending.bytes]

/-- A record beyond the bound is refused for its size. -/
theorem encode_tooLarge {sequence : Nat} {parent : Option ParentLink}
    (sequenced : sequence ≤ maxSafeInteger)
    (large : maxRecordBytes < Text.len (String.ofList (pending.record sequence parent).toValue.text)) :
    encode pending sequence parent = .error (.refused .recordTooLarge) := by
  have canonical := canonicalJson_settled
    (RecordV1.settled (pending.record sequence parent) sequenced pending.recordable)
  simp only [encode, canonical, Except.toOption, okOr, bind, Except.bind, refuse, gt_iff_lt, large,
    decide_true, if_true]

/-- A revision that the constructors built is recorded, and reads back as what was proposed,
exactly when the bytes of its record's fields are within the bound. -/
theorem encode_recorded_iff (parses : ParsesRecords) (sized : DigestsSized) {pending : Pending}
    (built : pending.Built) {sequence : Nat}
    (range : 2 ≤ sequence ∧ sequence ≤ maxRetainedRevisions) {parent : ParentLink}
    (valid : parent.Valid) :
    (∃ encoded, encode pending sequence (some parent) = .ok encoded ∧
      Text.len encoded.text ≤ maxRecordBytes ∧
      decode encoded.text encoded.summary.recordHash encoded.summary.revision.text =
        .ok encoded.summary ∧ Records pending sequence (some parent) encoded.summary) ↔
    pending.bytes sequence parent ≤ maxRecordBytes := by
  have small : maxRetainedRevisions ≤ maxSafeInteger := by decide
  have sequenced : 1 ≤ sequence ∧ sequence ≤ maxSafeInteger := ⟨by omega, range.2.trans small⟩
  have bytes := built.utf8Width_record sized sequence valid
  constructor
  · rintro ⟨encoded, encodes, -, -, -⟩
    by_contra large
    rw [encode_tooLarge sequenced.2 (bytes ▸ Nat.lt_of_not_le large)] at encodes
    cases encodes
  · intro fits
    rw [← bytes] at fits
    obtain ⟨encoded, encodes, text, -⟩ :=
      encode_complete parses sized (built.recordable sized sequenced valid fits)
    obtain ⟨decodes, records⟩ := encode_records parses sequenced.2 encodes
    exact ⟨encoded, encodes, text ▸ fits, decodes, records⟩

end Exact

section Bounded

/-! What the fields of a record are at most, where nothing is escaped. -/

/-- An actor whose names JSON spells as they are. -/
def LedgerActor.Unescaped (actor : LedgerActor) : Prop :=
  IsPlainText actor.subject ∧ ∀ issuer, actor.issuer = some issuer → IsPlainText issuer

variable {actor : LedgerActor} {parent : ParentLink}

theorem checked_bounds {kind : ActorKind} {subject : String}
    {issuer : Option String} {authMode : AuthMode}
    (accepted : LedgerActor.checked kind subject issuer authMode = some actor) :
    Text.len subject ≤ maxActorSubjectBytes ∧
      ∀ held, issuer = some held → Text.len held ≤ maxActorIssuerBytes := by
  simp only [LedgerActor.checked, Option.ite_none_right_eq_some, Bool.and_eq_true] at accepted
  obtain ⟨⟨⟨subjectOk, issuerOk⟩, -⟩, -⟩ := accepted
  constructor
  · have label : maxSystemLabelBytes ≤ maxActorSubjectBytes := by decide
    cases kind with
    | principal | serviceToken => exact of_decide_eq_true (Bool.and_eq_true_iff.mp subjectOk).2
    | system =>
      simp only [isValidOpaqueId, Bool.and_eq_true, decide_eq_true_eq] at subjectOk
      exact subjectOk.1.2.trans label
  · rintro held rfl
    simp only [Option.all_some, Bool.and_eq_true, decide_eq_true_eq] at issuerOk
    exact issuerOk.2

theorem LedgerActor.Built.bytes_le (built : actor.Built)
    (unescaped : actor.Unescaped) : actor.bytes ≤ 8320 := by
  obtain ⟨subject, issuer⟩ := checked_bounds built.checked
  have mode : quotedBytes actor.authMode.asStr ≤ 20 := by cases actor.authMode <;> decide
  have kind : quotedBytes actor.kind.asStr ≤ 15 := by cases actor.kind <;> decide
  have issued : orNullBytes (fun issuer => Json.escapedBytes issuer + 2) actor.issuer ≤ 4098 := by
    cases held : actor.issuer with
    | none => decide
    | some name =>
      have bound := issuer name held
      rw [orNullBytes, Json.escapedBytes_of_plain (unescaped.2 name held)]
      exact Nat.add_le_add_right bound 2
  rw [LedgerActor.bytes, Json.escapedBytes_of_plain unescaped.1]
  refine (Json.objectBytes_le (.cons mode (.cons issued (.cons kind
    (.cons (Nat.add_le_add_right subject 2) .nil))))).trans ?_
  simp only [map_cons, map_nil]
  decide

theorem sortedCodes_bytes {codes list : List String} (sorted : sortedCodes codes = some list) :
    codesBytes list ≤ 8386 := by
  simp only [sortedCodes, Option.ite_none_right_eq_some, Option.some.injEq] at sorted
  obtain ⟨⟨length, all⟩, same⟩ := sorted
  rw [same] at length all
  have each : ∀ bytes ∈ list.map quotedBytes, bytes ≤ 130 := by
    rintro _ mapped
    obtain ⟨code, listed, rfl⟩ := List.mem_map.mp mapped
    have isCode := List.all_eq_true.mp all code listed
    rw [Ledger.isCode, Bool.and_eq_true, Bool.and_eq_true] at isCode
    exact Nat.add_le_add_right (of_decide_eq_true isCode.1.1) 2
  have total := Json.arrayBytes_le each
  rw [length_map] at total
  rw [maxRecordedCodes] at length
  rw [codesBytes]
  omega

theorem ParentLink.Valid.bytes_eq (valid : parent.Valid) : parent.bytes = 139 := by
  rw [ParentLink.bytes, quotedBytes, quotedBytes, (framed_text (ofRecordHash_framed valid)).2,
    (revision_text (parse_of_ofRecordHash valid)).2]
  rfl

theorem framed_bytes {digest : String} (framed : isFramedDigest digest = true) :
    quotedBytes digest ≤ 73 := (congrArg (· + 2) (framed_text framed).2).le

theorem RecordedFile.Typed.bytes_le {file : RecordedFile} (typed : file.Typed)
    (pinned : Text.len file.sha256 = 64) : file.bytes ≤ 200 := by
  have name : quotedBytes file.name.text ≤ _ := Nat.add_le_add_right (fileName_text typed.name).2 2
  have role : quotedBytes file.role.asStr ≤ 12 := by cases file.role <;> decide
  have version : orNullBytes quotedBytes file.schemaVersion ≤ 7 := by
    cases held : file.schemaVersion with
    | none => decide
    | some version =>
      have known := typed.version version held
      have listed : ∀ role : FileRole, ∀ version ∈ role.schemaVersions, quotedBytes version ≤ 7 := by
        intro role
        cases role <;> decide
      exact listed file.role version known
  have pin : quotedBytes file.sha256 ≤ 66 := (congrArg (· + 2) pinned).le
  refine (Json.objectBytes_le (.cons name (.cons role (.cons version (.cons pin .nil))))).trans ?_
  simp only [map_cons, map_nil]
  decide

theorem RecordedBundle.bytes_le {bundle : RecordedBundle} (formed : isWellFormed bundle = true)
    (typed : ∀ file ∈ bundle.files, file.Typed) : bundle.bytes ≤ 1150 := by
  obtain ⟨label, digest, pins⟩ := isWellFormed_fields formed
  have name : quotedBytes bundle.name ≤ 65 := Nat.add_le_add_right (dnsLabel_text label).2 2
  have version : quotedBytes bundle.apiVersion.asStr ≤ 27 := by cases bundle.apiVersion; decide
  have profile : quotedBytes bundle.profile.asStr ≤ 13 := by cases bundle.profile <;> decide
  have origin (origin : ResourceOrigin) : quotedBytes origin.asStr ≤ 8 := by cases origin <;> decide
  have files : Json.arrayBytes (bundle.files.map RecordedFile.bytes) ≤ 806 := by
    have each : ∀ bytes ∈ bundle.files.map RecordedFile.bytes, bytes ≤ 200 := by
      rintro _ mapped
      obtain ⟨file, listed, rfl⟩ := List.mem_map.mp mapped
      exact (typed file listed).bytes_le (pins file listed).1
    have total := Json.arrayBytes_le each
    have count := isWellFormed_files formed
    rw [length_map] at total
    omega
  refine (Json.objectBytes_le (.cons version (.cons files (.cons name (.cons (origin _)
    (.cons profile (.cons (framed_bytes digest) (.cons (origin _) .nil)))))))).trans ?_
  simp only [map_cons, map_nil]
  decide

variable [Codecs]

theorem RevisionRequest.Built.bytes_le (sized : DigestsSized) {request : RevisionRequest}
    (built : request.Built) : request.bytes ≤ 8660 := by
  obtain ⟨parsed, framed, digest, risks, ordered⟩ := built.fields sized
  have plan : quotedBytes request.plan.text ≤ 39 := (congrArg (· + 2) (plan_text parsed).2).le
  have stage : (if request.stageOnly then 4 else 5) ≤ 5 := by cases request.stageOnly <;> decide
  refine (Json.objectBytes_le (.cons (sortedCodes_bytes ordered) (.cons (framed_bytes framed)
    (.cons (framed_bytes digest) (.cons plan (.cons stage .nil)))))).trans ?_
  simp only [map_cons, map_nil]
  decide

/-- A record whose actor holds nothing to escape fits, whatever the rest of it is. -/
theorem Pending.Built.bytes_le (sized : DigestsSized) {pending : Pending} (built : pending.Built)
    (unescaped : pending.actor.Unescaped) {sequence : Nat}
    (last : sequence ≤ maxRetainedRevisions) (valid : parent.Valid) :
    pending.bytes sequence parent ≤ maxRecordBytes := by
  obtain ⟨sections, risks, permissions⟩ := built.codes.sorted
  have activation : quotedBytes pending.activation.asStr ≤ 9 := by
    cases pending.activation <;> decide
  have operation : quotedBytes pending.operation.asStr ≤ 10 := by
    cases pending.operation with
    | seed => exact (by decide : quotedBytes "seed" ≤ 10)
    | apply => exact (by decide : quotedBytes "apply" ≤ 10)
    | rollback target => exact (by decide : quotedBytes "rollback" ≤ 10)
  have target : orNullBytes (fun target => quotedBytes target.text) pending.operation.target? ≤ 38 := by
    have follows := built.operation
    cases held : pending.operation with
    | seed | apply => decide
    | rollback target =>
      rw [held] at follows
      exact (congrArg (· + 2) (revision_text follows).2).le
  have request : orNullBytes RevisionRequest.bytes pending.request ≤ 8660 := by
    cases held : pending.request with
    | none => decide
    | some request => exact (built.request request held).bytes_le sized
  have time : Text.len (toString pending.recordedAtMs) ≤ 16 :=
    toString_len_le (by decide) (pending.recordable.trans_lt (by decide))
  have place : Text.len (toString sequence) ≤ 4 :=
    toString_len_le (by decide) (last.trans_lt (by decide))
  refine (Json.objectBytes_le (.cons activation (.cons (built.actor.bytes_le unescaped)
    (.cons (RecordedBundle.bytes_le built.bundle built.files) (.cons (sortedCodes_bytes sections)
    (.cons operation (.cons valid.bytes_eq.le (.cons time (.cons request
    (.cons (sortedCodes_bytes permissions) (.cons (sortedCodes_bytes risks)
    (.cons target (.cons place .nil))))))))))))).trans ?_
  simp only [map_cons, map_nil]
  decide

end Bounded

section Sample

attribute [local instance] sampleCodecs

theorem sampleFiles_typed : ∀ file ∈ sampleRecorded.files, file.Typed := by
  simp only [sampleRecorded, forall_mem_cons, not_mem_nil, false_imp_iff, implies_true, and_true]
  exact ⟨⟨by decide, by simp⟩, ⟨by decide, by simp⟩⟩

def sampleParent : ParentLink :=
  { revision := ⟨"rev-00000000000000000000000000000000"⟩
    recordHash := "sha256:0000000000000000000000000000000000000000000000000000000000000000" }

theorem sampleParent_valid : sampleParent.Valid := by
  unfold ParentLink.Valid
  decide

/-- A subject or issuer of as many bytes as it may have, each of which JSON escapes. -/
def controlName : String := String.ofList (List.replicate maxActorSubjectBytes '\x01')

/-- Codes of 65 to 128 bytes, as many as a list may have. -/
def longCodes : List String :=
  (List.range maxRecordedCodes).map fun index => String.ofList (List.replicate (index + 65) 'a')

def controlActor : LedgerActor :=
  { kind := .principal, subject := controlName, issuer := some controlName, authMode := .bearerToken }

def controlPending : Pending :=
  { recordedAtMs := 1
    operation := .apply
    actor := controlActor
    activation := .live
    codes := ⟨longCodes, longCodes, longCodes⟩
    request := none
    bundle := sampleRecorded
    recordable := samplePending.recordable }

theorem utf8Width_replicate (count : Nat) (char : Char) :
    utf8Width (List.replicate count char) = count * char.utf8Size := by
  rw [utf8Width, map_replicate, sum_replicate_nat]

theorem controlName_bytes :
    Text.len controlName = maxActorSubjectBytes ∧
      Json.escapedBytes controlName = maxActorSubjectBytes * 6 := by
  unfold controlName
  generalize maxActorSubjectBytes = count
  constructor
  · rw [len_ofList, utf8Width_replicate, show '\x01'.utf8Size = 1 from rfl, Nat.mul_one]
  · rw [Json.escapedBytes, String.toList_ofList, map_replicate, sum_replicate_nat]
    rfl

/-- A principal is accepted whatever characters its subject and issuer hold. -/
theorem principal_accepted {name : String} (bytes : Text.len name = maxActorSubjectBytes) :
    LedgerActor.principal name (some name) .bearerToken =
      .ok { kind := .principal, subject := name, issuer := some name, authMode := .bearerToken } := by
  have nonempty : name.isEmpty = false := by
    rw [String.isEmpty, ← Text.len, bytes]
    rfl
  simp [LedgerActor.principal, LedgerActor.checked, nonempty, bytes, maxActorSubjectBytes,
    maxActorIssuerBytes, AuthMode.agreesWith, okOr]

theorem replicate_le (short extra : Nat) :
    List.replicate short 'a' ≤ List.replicate (short + extra) 'a' := by
  induction short with
  | zero =>
    rw [replicate_zero]
    exact not_lt.mp (not_lt_nil _)
  | succ short ih =>
    rw [Nat.add_right_comm, replicate_succ, replicate_succ]
    exact cons_le_cons 'a' ih

theorem longCodes_ordered : longCodes.Pairwise fun code other => code ≤ other ∧ code ≠ other := by
  rw [longCodes, pairwise_map]
  refine List.pairwise_lt_range.imp fun {first second} less => ⟨?_, ?_⟩
  · obtain ⟨extra, rfl⟩ := Nat.exists_eq_add_of_le (Nat.le_of_lt less)
    rw [String.le_iff_toList_le, String.toList_ofList, String.toList_ofList, Nat.add_right_comm]
    exact replicate_le (first + 65) extra
  · intro same
    have lengths := congrArg (fun text : String => text.toList.length) same
    simp only [String.toList_ofList, length_replicate] at lengths
    omega

theorem longCodes_codes : ∀ code ∈ longCodes, isCode code = true := by
  intro code listed
  obtain ⟨index, bound, rfl⟩ := List.mem_map.mp listed
  rw [mem_range, maxRecordedCodes] at bound
  have lower : 'a'.isLower = true := by decide
  have bytes : Text.len (String.ofList (List.replicate (index + 65) 'a')) ≤ maxCodeBytes := by
    rw [len_ofList, utf8Width_replicate, show 'a'.utf8Size = 1 from rfl, maxCodeBytes]
    omega
  have each : ∀ char ∈ List.replicate (index + 65) 'a', char.isLower = true := fun char member =>
    eq_of_mem_replicate member ▸ lower
  rw [isCode, String.toList_ofList, decide_eq_true bytes, Bool.true_and, Bool.and_eq_true,
    all_eq_true]
  exact ⟨lower, fun char member => by rw [each char member]; rfl⟩

theorem longCodes_sorted : sortedCodes longCodes = some longCodes := by
  have sorted : longCodes.insertionSort (· ≤ ·) = longCodes :=
    (longCodes_ordered.imp And.left).insertionSort_eq
  have distinct : longCodes.IsChain (· ≠ ·) := (longCodes_ordered.imp And.right).isChain
  have length : longCodes.length ≤ maxRecordedCodes := by simp [longCodes]
  simp only [sortedCodes, sorted, destutter_of_isChain _ _ distinct]
  exact if_pos ⟨length, List.all_eq_true.mpr longCodes_codes⟩

theorem longCodes_bytes : codesBytes longCodes = 6369 := by decide

theorem controlPending_drafted :
    Pending.new sampleBundle controlActor .apply .live ⟨longCodes, longCodes, longCodes⟩ 1000000 =
      .ok controlPending := by
  simp only [Pending.new, bind_eq_ok]
  exact ⟨⟨1, by decide⟩, rfl, sampleRecorded, sampleBundle_recorded, rfl⟩

theorem controlPending_built : controlPending.Built where
  operation := trivial
  actor := .principal (principal_accepted controlName_bytes.1)
  codes := ⟨longCodes, longCodes, longCodes, RevisionCodes.new_eq_ok.mpr
    ⟨longCodes_sorted, longCodes_sorted, longCodes_sorted⟩⟩
  request := nofun
  acknowledged := nofun
  bundle := sampleRecorded_wellFormed
  files := sampleFiles_typed

/-- The parts of a record that its size is at least the sum of. -/
theorem Pending.le_bytes (pending : Pending) (sequence : Nat) (parent : ParentLink) :
    pending.actor.bytes + codesBytes pending.codes.changedSections +
      codesBytes pending.codes.riskCodes + codesBytes pending.codes.requiredPermissions ≤
      pending.bytes sequence parent := by
  simp only [Pending.bytes, Json.objectBytes, map_cons, map_nil, sum_cons, sum_nil]
  omega

theorem LedgerActor.le_bytes (actor : LedgerActor) :
    Json.escapedBytes actor.subject + orNullBytes Json.escapedBytes actor.issuer ≤ actor.bytes := by
  obtain ⟨kind, subject, issuer, authMode⟩ := actor
  cases issuer <;>
  · simp only [LedgerActor.bytes, Json.objectBytes, orNullBytes, map_cons, map_nil,
      sum_cons, sum_nil]
    omega

theorem controlPending_bytes : maxRecordBytes < controlPending.bytes 2 sampleParent := by
  have whole := controlPending.le_bytes 2 sampleParent
  have actor := controlPending.actor.le_bytes
  rw [show controlPending.actor.subject = controlName from rfl,
    show controlPending.actor.issuer = some controlName from rfl, orNullBytes,
    controlName_bytes.2] at actor
  rw [show controlPending.codes = ⟨longCodes, longCodes, longCodes⟩ from rfl] at whole
  simp only [longCodes_bytes] at whole
  have bound : maxRecordBytes = 65536 := rfl
  have name : maxActorSubjectBytes * 6 = 24576 := rfl
  generalize controlPending.actor.bytes = actorBytes at whole actor
  generalize controlPending.bytes 2 sampleParent = bytes at whole ⊢
  omega

/-- An actor whose subject and issuer are control characters leaves no room for full code
lists, although every part is accepted. -/
theorem encode_refuses_built :
    LedgerActor.principal controlName (some controlName) .bearerToken = .ok controlActor ∧
      RevisionCodes.new longCodes longCodes longCodes = .ok ⟨longCodes, longCodes, longCodes⟩ ∧
      Pending.new sampleBundle controlActor .apply .live ⟨longCodes, longCodes, longCodes⟩ 1000000 =
        .ok controlPending ∧
      controlPending.Built ∧ sampleParent.Valid ∧
      encode controlPending 2 (some sampleParent) = .error (.refused .recordTooLarge) := by
  refine ⟨principal_accepted controlName_bytes.1, RevisionCodes.new_eq_ok.mpr
    ⟨longCodes_sorted, longCodes_sorted, longCodes_sorted⟩, controlPending_drafted,
    controlPending_built, sampleParent_valid, encode_tooLarge (by decide) ?_⟩
  rw [controlPending_built.utf8Width_record sample_sized 2 sampleParent_valid]
  exact controlPending_bytes

/-- A rollback with full code lists by an operator command. -/
def plainPending : Pending :=
  { samplePending with
    operation := .rollback sampleParent.revision
    codes := ⟨longCodes, longCodes, longCodes⟩ }

theorem plainPending_built : plainPending.Built where
  operation := parse_of_ofRecordHash sampleParent_valid
  actor := .system (show LedgerActor.system "ggctl" = .ok sampleActor from rfl)
  codes := ⟨longCodes, longCodes, longCodes, RevisionCodes.new_eq_ok.mpr
    ⟨longCodes_sorted, longCodes_sorted, longCodes_sorted⟩⟩
  request := nofun
  acknowledged := nofun
  bundle := sampleRecorded_wellFormed
  files := sampleFiles_typed

theorem encode_recorded_iff_sample :
    ∃ encoded, encode plainPending 1024 (some sampleParent) = .ok encoded ∧
      Text.len encoded.text ≤ maxRecordBytes ∧
      decode encoded.text encoded.summary.recordHash encoded.summary.revision.text =
        .ok encoded.summary ∧ Records plainPending 1024 (some sampleParent) encoded.summary := by
  have name : IsPlainText "ggctl" := by simp [IsPlainText, Json.IsPlain]
  have unescaped : plainPending.actor.Unescaped := ⟨name, nofun⟩
  exact (encode_recorded_iff sample_parses sample_sized plainPending_built ⟨by decide, le_rfl⟩
    sampleParent_valid).mpr
    (plainPending_built.bytes_le sample_sized unescaped le_rfl sampleParent_valid)

end Sample

end GreenGateway.Ledger
