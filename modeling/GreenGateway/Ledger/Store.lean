import GreenGateway.Ledger.Encoding
import Mathlib.Data.Finset.Card
import Mathlib.Data.List.Sort

/-! The ledger's tables, the constraints and triggers every write passes, and the reads
and writes that verify as they go. A failed statement leaves its transaction
uncommitted, so a function that fails changes nothing. -/

namespace GreenGateway.Ledger

open Foundation Config

section Tables

def applicationId : Int := 0x47474C47
def formatVersion : Int := 1
def filesPerRevision : Nat := 4

/-- Every schema object of a ledger. -/
inductive SchemaObject where
  | documents
  | revisions
  | pointer
  | requests
  | documentsNoUpdate
  | documentsNoDelete
  | revisionsNoUpdate
  | revisionsNoDelete
  | revisionsInSequence
  | requestsNoUpdate
  | requestsNoDelete
  | pointerNoDelete
  | pointerForward
  deriving DecidableEq, Repr

def schema : List SchemaObject :=
  [.documents, .revisions, .pointer, .requests, .documentsNoUpdate, .documentsNoDelete,
    .revisionsNoUpdate, .revisionsNoDelete, .revisionsInSequence, .requestsNoUpdate,
    .requestsNoDelete, .pointerNoDelete, .pointerForward]

/-- A row of `config_revisions`. -/
structure RevisionRow where
  sequence : Nat
  revisionId : String
  recordHash : String
  record : String
  deriving DecidableEq, Repr

/-- The row of `config_ledger_pointer`. -/
structure Pointer where
  desiredSequence : Nat
  desiredRecordHash : String
  activeSequence : Option Nat
  deriving DecidableEq, Repr

structure Database where
  applicationId : Int := 0
  userVersion : Int := 0
  schema : List SchemaObject := []
  /-- Contents by pin. -/
  documents : List (String × List UInt8) := []
  revisions : List RevisionRow := []
  pointer : Option Pointer := none
  /-- Sequences by idempotency key. -/
  requests : List (String × Nat) := []
  deriving DecidableEq, Repr

/-- A sequence as SQLite stores it, in a signed 64-bit column. -/
def sqlSequence (sequence : Nat) : Except LedgerError Nat := do
  refuse (decide (sequence ≥ 2 ^ 63)) (.corrupt .chain)
  .ok sequence

/-- Whether the `config_ledger_pointer_forward` trigger lets the pointer move. -/
def Pointer.movesForward (old new : Pointer) : Bool :=
  decide (old.desiredSequence ≤ new.desiredSequence) &&
    old.activeSequence.all fun was => new.activeSequence.any fun becomes => decide (was ≤ becomes)

namespace Database

/-- `SELECT MAX(sequence) FROM config_revisions`. -/
def newest (database : Database) : Option Nat := (database.revisions.map RevisionRow.sequence).max?

def hasRevision (database : Database) (sequence : Nat) : Bool :=
  database.revisions.any fun row => row.sequence == sequence

/-- `INSERT INTO config_revisions`: in sequence, under an ID and hash no row has. -/
def insertRevisionRow (database : Database) (row : RevisionRow) : Except LedgerError Database := do
  refuse (row.sequence != database.newest.getD 0 + 1) (.unavailable "revision insert")
  refuse (database.revisions.any fun other => other.revisionId == row.revisionId ||
    other.recordHash == row.recordHash) (.unavailable "revision insert")
  .ok { database with revisions := database.revisions ++ [row] }

/-- `INSERT INTO config_ledger_requests`: a digest-sized key, one row per key and per
revision, and a revision that exists. -/
def insertRequestRow (database : Database) (key : String) (sequence : Nat) :
    Except LedgerError Database := do
  refuse (key.length != 71 || database.requests.any (fun row => row.1 == key || row.2 == sequence) ||
    !database.hasRevision sequence) (.unavailable "request insert")
  .ok { database with requests := database.requests ++ [(key, sequence)] }

/-- The pointer's CHECK and its references. -/
def admitsPointer (database : Database) (pointer : Pointer) : Bool :=
  database.hasRevision pointer.desiredSequence &&
    pointer.activeSequence.all fun active =>
      decide (active ≤ pointer.desiredSequence) && database.hasRevision active

/-- `INSERT INTO config_ledger_pointer`, into an empty table. -/
def insertPointerRow (database : Database) (pointer : Pointer) : Except LedgerError Database := do
  refuse (database.pointer.isSome || !database.admitsPointer pointer) (.unavailable "seed pointer")
  .ok { database with pointer := some pointer }

/-- `UPDATE config_ledger_pointer`, of a row that exists. -/
def updatePointerRow (database : Database) (old new : Pointer) : Except LedgerError Database := do
  refuse (!old.movesForward new || !database.admitsPointer new)
    (.unavailable "pointer update")
  .ok { database with pointer := some new }

end Database

end Tables

variable [Codecs]

section Reads

/-- A row, decoded and held to its own sequence column. -/
def summaryOfRow (row : RevisionRow) : Except LedgerError RevisionSummary := do
  let summary ← decode row.record row.recordHash row.revisionId
  refuse (row.sequence != summary.sequence) (.corrupt .chain)
  .ok summary

/-- The summary of a row that may be there. -/
def summaryOfRow? : Option RevisionRow → Except LedgerError (Option RevisionSummary)
  | some row => do
    let summary ← summaryOfRow row
    .ok (some summary)
  | none => .ok none

def revisionAt (database : Database) (sequence : Nat) :
    Except LedgerError (Option RevisionSummary) := do
  let sequence ← sqlSequence sequence
  summaryOfRow? (database.revisions.find? fun row => row.sequence == sequence)

def revisionById (database : Database) (id : RevisionId) :
    Except LedgerError (Option RevisionSummary) :=
  summaryOfRow? (database.revisions.find? fun row => row.revisionId == id.text)

def readPointer (database : Database) : Except LedgerError Pointer :=
  okOr database.pointer (.corrupt .pointer)

/-- The pointer and the verified head record it names, which must be the newest. -/
def pointerAndHead (database : Database) : Except LedgerError (Pointer × RevisionSummary) := do
  let pointer ← readPointer database
  refuse (database.newest != some pointer.desiredSequence) (.corrupt .pointer)
  let found ← revisionAt database pointer.desiredSequence
  let head ← okOr found (.corrupt .pointer)
  refuse (head.recordHash != pointer.desiredRecordHash) (.corrupt .pointer)
  .ok (pointer, head)

/-- The sequence of the revision whose request carried the key digest `key`. -/
def requestSequence (database : Database) (key : String) : Option Nat :=
  database.requests.lookup key

/-- One recorded file with its stored bytes. -/
def readDocument (database : Database) (file : RecordedFile) : Except LedgerError SourceFile := do
  let bytes ← okOr (database.documents.lookup file.sha256) (.corrupt .document)
  .ok { role := file.role, name := file.name, bytes }

/-- The first `count` files `bundle` records, with their stored bytes. -/
def readDocuments (database : Database) (bundle : RecordedBundle) (count : Nat) :
    Except LedgerError (List SourceFile) :=
  (bundle.files.take count).mapM (readDocument database)

/-- The revision at the active pointer. -/
def activeRevision (database : Database) : Option Nat → Except LedgerError (Option RevisionId)
  | none => .ok none
  | some sequence => do
    let found ← revisionAt database sequence
    let active ← okOr found (.corrupt .pointer)
    .ok (some active.revision)

/-- The pointer and the head it names. -/
def state (database : Database) : Except LedgerError LedgerState := do
  let (pointer, head) ← pointerAndHead database
  let active ← activeRevision database pointer.activeSequence
  .ok { revisions := head.sequence, desired := head, active }

end Reads

section Writes

/-- Stores a file once by its pin. A pin already stored must hold exactly these bytes. -/
def insertDocument (database : Database) (file : SourceFile) : Except LedgerError Database :=
  let sha256 := sha256Pin file.bytes
  match database.documents.lookup sha256 with
  | some stored => do
    refuse (stored != file.bytes) (.corrupt .document)
    .ok database
  | none => do
    -- `OR IGNORE` skips a row its CHECK refuses, and no document is read back then
    refuse (sha256.length != 64) (.unavailable "document read")
    .ok { database with documents := database.documents ++ [(sha256, file.bytes)] }

def insertDocuments (database : Database) (files : List SourceFile) : Except LedgerError Database :=
  files.foldlM insertDocument database

def insertRevision (database : Database) (encoded : Encoded) : Except LedgerError Database := do
  let sequence ← sqlSequence encoded.summary.sequence
  database.insertRevisionRow
    { sequence
      revisionId := encoded.summary.revision.text
      recordHash := encoded.summary.recordHash
      record := encoded.text }

/-- The index row of the request a revision was applied under. -/
def insertRequest (database : Database) (request : Option RevisionRequest) (sequence : Nat) :
    Except LedgerError Database :=
  match request with
  | some request => do
    let sequence ← sqlSequence sequence
    database.insertRequestRow request.idempotencyKey sequence
  | none => .ok database

def checkSchema (database : Database) : Except LedgerError Unit :=
  refuse (!decide (database.schema.Perm schema)) (.corrupt .schema)

/-- A new ledger: the header, the schema, the seed's documents and record, and the
pointer. -/
def initializeLedger (pending : Pending)
    (files : List SourceFile) : Except LedgerError Database := do
  refuse pending.request.isSome (.refused .seedNotAppendable)
  let encoded ← encode pending 1 none
  let database : Database := { applicationId, userVersion := formatVersion, schema }
  checkSchema database
  let database ← insertDocuments database files
  let database ← insertRevision database encoded
  database.insertPointerRow
    { desiredSequence := 1
      desiredRecordHash := encoded.summary.recordHash
      activeSequence := none }

/-- A key some revision already records refuses the request, whatever the head is. -/
def checkKeyUnused (database : Database) (request : Option RevisionRequest) :
    Except LedgerError Unit :=
  checkSome (request.bind fun request => requestSequence database request.idempotencyKey)
    fun earlier => do
      let found ← revisionAt database earlier
      let earlier ← okOr found (.corrupt .request)
      .error (.idempotencyKeyUsed earlier.revision)

/-- A rollback restores an earlier revision's content, never the head's. -/
def checkRollback (database : Database) (head : RevisionSummary) (pending : Pending) :
    Except LedgerError Unit :=
  checkSome pending.operation.target? fun target => do
    refuse (target == head.revision) (.refused .rollbackTargetIsHead)
    let found ← revisionById database target
    let target ← okOr found (.refused .rollbackTargetUnknown)
    refuse (target.bundle.sourceDigest != pending.bundle.sourceDigest)
      (.refused .rollbackContentDiffers)

/-- The active sequence after an append: it follows a live revision that replaces the
active one. -/
def nextActive (pointer : Pointer) (head : RevisionSummary) (pending : Pending)
    (sequence : Nat) : Option Nat :=
  match pointer.activeSequence with
  | some active =>
    if pending.activates && active == head.sequence then some sequence else some active
  | none => none

/-- Appends `pending` on top of `expectedHead`: the idempotency key and stale-head
checks, the documents, the record, its request's index row and the pointer. -/
def append (database : Database) (maxRevisions : Nat) (expectedHead : RevisionId)
    (pending : Pending) (files : List SourceFile) :
    Except LedgerError (Database × RevisionSummary) := do
  let (pointer, head) ← pointerAndHead database
  checkKeyUnused database pending.request
  refuse (head.revision != expectedHead) (.stale head.revision)
  refuse (decide (head.sequence ≥ maxRevisions)) .full
  checkRollback database head pending
  let sequence := head.sequence + 1
  let encoded ← encode pending sequence
    (some { revision := head.revision, recordHash := head.recordHash })
  let database ← insertDocuments database files
  let database ← insertRevision database encoded
  let database ← insertRequest database pending.request sequence
  let desired ← sqlSequence sequence
  let active ← (nextActive pointer head pending sequence).mapM sqlSequence
  let database ← database.updatePointerRow pointer
    { desiredSequence := desired
      desiredRecordHash := encoded.summary.recordHash
      activeSequence := active }
  .ok (database, encoded.summary)

/-- Moves the active pointer to the desired revision, which must be `desired`. -/
def activate (database : Database) (desired : RevisionId) : Except LedgerError Database := do
  let (pointer, head) ← pointerAndHead database
  refuse (head.revision != desired) (.stale head.revision)
  if pointer.activeSequence != some head.sequence then
    database.updatePointerRow pointer
      { pointer with activeSequence := some pointer.desiredSequence }
  else .ok database

end Writes

section Verification

def checkHeader (database : Database) : Except LedgerError Unit := do
  refuse (database.applicationId != applicationId) (.corrupt .format)
  refuse (decide (database.userVersion > formatVersion)) .unsupported
  refuse (database.userVersion != formatVersion) (.corrupt .format)

/-- Takes in one document row. -/
def verifyDocument (maxRevisions : Nat) (documents : Finset String)
    (row : String × List UInt8) : Except LedgerError (Finset String) := do
  refuse (sha256Pin row.2 != row.1 ||
    decide (documents.card ≥ maxRevisions * filesPerRevision)) (.corrupt .document)
  .ok (insert row.1 documents)

/-- What the pass over the revisions has collected. -/
structure Walk where
  referenced : Finset String := ∅
  /-- Each revision's ID, by sequence. -/
  ids : List RevisionId := []
  /-- Each revision's source digest, by ID. -/
  digests : Std.HashMap RevisionId String := ∅
  /-- The key digest each requested revision records. -/
  requests : Std.HashMap Nat String := ∅
  head : Option RevisionSummary := none

/-- The pass after a revision it accepted. -/
def Walk.collect (walk : Walk) (summary : RevisionSummary) : Walk :=
  { referenced := walk.referenced ∪ (summary.bundle.files.map RecordedFile.sha256).toFinset
    ids := walk.ids ++ [summary.revision]
    digests := walk.digests.insert summary.revision summary.bundle.sourceDigest
    requests :=
      match summary.request with
      | some request => walk.requests.insert summary.sequence request.idempotencyKey
      | none => walk.requests
    head := some summary }

/-- Whether a record continues the chain at `head`. -/
def linked (head : Option RevisionSummary) (summary : RevisionSummary) : Bool :=
  match head, summary.parent with
  | none, none => summary.operation == .seed
  | some previous, some parent =>
    parent.revision == previous.revision && parent.recordHash == previous.recordHash &&
      summary.operation != .seed
  | _, _ => false

/-- The manifest alone against the source digest. -/
def checkManifest (bundle : RecordedBundle) (manifest : List SourceFile) :
    Except LedgerError Unit :=
  checkDocuments { bundle with files := bundle.files.take 1 } manifest

/-- Takes in one revision row. -/
def verifyRow (database : Database) (maxRevisions : Nat) (documents : Finset String) (walk : Walk)
    (row : RevisionRow) : Except LedgerError Walk := do
  refuse (decide (walk.ids.length ≥ maxRevisions)) (.corrupt .chain)
  let summary ← summaryOfRow row
  refuse (summary.sequence != walk.head.elim 1 fun head => head.sequence + 1) (.corrupt .chain)
  refuse (!linked walk.head summary) (.corrupt .chain)
  checkSome summary.operation.target? fun target =>
    refuse (walk.head.map RevisionSummary.revision == some target ||
      walk.digests[target]? != some summary.bundle.sourceDigest) (.corrupt .chain)
  refuse (summary.bundle.files.any fun file => decide (file.sha256 ∉ documents))
    (.corrupt .document)
  let manifest ← readDocuments database summary.bundle 1
  checkManifest summary.bundle manifest
  .ok (walk.collect summary)

/-- The idempotency key index: exactly one row for each requested revision, holding the
key digest its record holds, and no other row. -/
def checkRequests (database : Database) (requests : Std.HashMap Nat String) :
    Except LedgerError Unit := do
  refuse (database.requests.any fun row => requests[row.2]? != some row.1) (.corrupt .request)
  refuse (database.requests.length != requests.size) (.corrupt .request)

/-- The ID at an active sequence, counted from 1. -/
def activeId (ids : List RevisionId) : Option Nat → Except LedgerError (Option RevisionId)
  | none => .ok none
  | some sequence => do
    let id ← okOr (if sequence = 0 then none else ids[sequence - 1]?) (.corrupt .pointer)
    .ok (some id)

/-- The whole ledger, verified: header, schema, every document against its pin, every
record and its place in the chain, every rollback against its target, the key index
against the recorded requests, and the pointer against the head. -/
def verify (database : Database) (maxRevisions : Nat) : Except LedgerError LedgerState := do
  checkHeader database
  checkSchema database
  let documents ← database.documents.foldlM (verifyDocument maxRevisions) ∅
  let rows := database.revisions.insertionSort fun left right => left.sequence ≤ right.sequence
  let walk ← rows.foldlM (verifyRow database maxRevisions documents) {}
  refuse (walk.referenced.card != documents.card) (.corrupt .document)
  checkRequests database walk.requests
  let head ← okOr walk.head (.corrupt .chain)
  let pointer ← readPointer database
  refuse (pointer.desiredSequence != head.sequence || pointer.desiredRecordHash != head.recordHash)
    (.corrupt .pointer)
  let active ← activeId walk.ids pointer.activeSequence
  .ok { revisions := head.sequence, desired := head, active }

end Verification

end GreenGateway.Ledger
