import GreenGateway.Config.CanonicalJson
import GreenGateway.Foundation.Guards

/-! The vocabulary of the revision ledger: the bundle files it stores, the actors,
codes and requests a revision records, and the errors it reports. -/

namespace GreenGateway.Ledger

open Foundation Config

section Names

/-- The member of a closed vocabulary that `text` names. -/
def named {α : Type} (all : List α) (name : α → String) (text : String) : Option α :=
  all.find? fun member => name member == text

variable {α : Type} {all : List α} {name : α → String} {text : String} {member : α}

theorem named_eq_some (found : named all name text = some member) : name member = text := by
  simpa using List.find?_some found

/-- A name found under its own spelling is the same one. -/
theorem named_inj {found : α} (distinct : ∀ left right, name left = name right → left = right)
    (read : named all name (name member) = some found) : found = member :=
  distinct _ _ (named_eq_some read)

def isLowercaseHex (text : String) : Bool :=
  text.toList.all fun char => char.isDigit || decide ('a' ≤ char ∧ char ≤ 'f')

/-- `sha256:` and 64 lowercase hexadecimal digits. -/
def isFramedDigest (digest : String) : Bool :=
  (Text.stripFront? digest "sha256:").any fun digits =>
    Text.len digits == 64 && isLowercaseHex digits

/-- An opaque revision identifier, taken from the revision's record hash. -/
structure RevisionId where
  text : String
  deriving DecidableEq, Hashable, Repr

namespace RevisionId

def parse (text : String) : Option RevisionId :=
  (Text.stripFront? text "rev-").bind fun digits =>
    if Text.len digits == 32 && isLowercaseHex digits then some ⟨text⟩ else none

/-- The ID of the revision whose record hash is `recordHash`. -/
def ofRecordHash (recordHash : String) : Option RevisionId :=
  (Text.stripFront? recordHash "sha256:").bind fun digits =>
    if Text.len digits != 64 || !isLowercaseHex digits then none
    else some ⟨"rev-" ++ String.ofList (digits.toList.take 32)⟩

theorem parse_eq_some {text : String} {revision : RevisionId}
    (parsed : parse text = some revision) : revision = ⟨text⟩ := by
  unfold parse at parsed
  obtain ⟨digits, -, checked⟩ := Option.bind_eq_some_iff.mp parsed
  split at checked
  · exact (Option.some.inj checked).symm
  · cases checked

end RevisionId

/-- An opaque plan identifier. -/
structure PlanId where
  text : String
  deriving DecidableEq, Repr

def PlanId.parse (text : String) : Option PlanId :=
  (Text.stripFront? text "plan-").bind fun digits =>
    if Text.len digits == 32 && isLowercaseHex digits then some ⟨text⟩ else none

theorem PlanId.parse_eq_some {plan : PlanId} (parsed : parse text = some plan) : plan = ⟨text⟩ := by
  unfold parse at parsed
  obtain ⟨digits, -, checked⟩ := Option.bind_eq_some_iff.mp parsed
  split at checked
  · exact (Option.some.inj checked).symm
  · cases checked

end Names

section Bundles

inductive FileRole where
  | manifest
  | deployment
  | policy
  | tools
  deriving DecidableEq, Repr

namespace FileRole

def all : List FileRole := [.manifest, .deployment, .policy, .tools]

def asStr : FileRole → String
  | .manifest => "manifest"
  | .deployment => "deployment"
  | .policy => "policy"
  | .tools => "tools"

theorem asStr_inj (left right : FileRole) (same : left.asStr = right.asStr) : left = right := by
  cases left <;> cases right <;> simp_all [asStr]

end FileRole

/-- The one document version the reader implements. -/
inductive ApiVersion where
  | v1Alpha1
  deriving DecidableEq, Repr

def ApiVersion.all : List ApiVersion := [.v1Alpha1]

def ApiVersion.asStr : ApiVersion → String
  | .v1Alpha1 => "greengateway.dev/v1alpha1"

inductive Profile where
  | production
  | migration
  | development
  deriving DecidableEq, Repr

def Profile.all : List Profile := [.production, .migration, .development]

def Profile.asStr : Profile → String
  | .production => "production"
  | .migration => "migration"
  | .development => "development"

theorem Profile.asStr_inj (left right : Profile) (same : left.asStr = right.asStr) :
    left = right := by
  cases left <;> cases right <;> simp_all [asStr]

def policySchemaVersions : List String := ["0.1.0"]
def toolsSchemaVersions : List String := ["0.1.0"]
def manifestFileName : String := "bundle.yaml"
def manifestMediaType : String := "application/vnd.greengateway.bundle+yaml"
def maxFileNameBytes : Nat := 63

/-- Windows resolves these names to devices with any extension. -/
def isWindowsDeviceName (name : String) : Bool :=
  match ((Text.split '.' name).headD "").toList with
  | ['c', 'o', 'n'] | ['p', 'r', 'n'] | ['a', 'u', 'x'] | ['n', 'u', 'l'] => true
  | ['c', 'o', 'm', digit] | ['l', 'p', 't', digit] => digit.isDigit
  | _ => false

def isPortableFileName (name : String) : Bool :=
  match name.toList with
  | [] => false
  | first :: _ =>
    decide (Text.len name ≤ maxFileNameBytes) && (first.isLower || first.isDigit) &&
      name.toList.all (fun char => char.isLower || char.isDigit || ['.', '_', '-'].contains char) &&
      !Text.endsWith name "." && !isWindowsDeviceName name

/-- The name of a bundle file. -/
structure FileName where
  text : String
  deriving DecidableEq, Repr

def FileName.parse (name : String) : Option FileName :=
  if isPortableFileName name then some ⟨name⟩ else none

theorem FileName.parse_eq_some {text : String} {name : FileName}
    (parsed : parse text = some name) : name = ⟨text⟩ := by
  unfold parse at parsed
  split at parsed
  · exact (Option.some.inj parsed).symm
  · cases parsed

/-- A DNS label of at most 63 bytes. -/
def isDnsLabel (name : String) : Bool :=
  let alphanumeric (char : Char) : Bool := char.isLower || char.isDigit
  match name.toList with
  | [] => false
  | [only] => alphanumeric only
  | first :: rest =>
    decide (Text.len name ≤ 63) && alphanumeric first && rest.getLast?.any alphanumeric &&
      rest.dropLast.all fun char => alphanumeric char || char == '-'

/-- A file with its exact bytes. -/
structure SourceFile where
  role : FileRole
  name : FileName
  bytes : List UInt8
  deriving DecidableEq, Repr

/-- A policy or tools document of a bundle. -/
inductive BundledResource where
  /-- Supplied by the bundle, with its pin and document version. -/
  | bundle (sha256 schemaVersion : String)
  /-- Left to the existing store. -/
  | server
  deriving DecidableEq, Repr

/-- What the ledger reads of an accepted bundle. -/
structure Bundle where
  apiVersion : ApiVersion
  name : String
  sourceDigest : String
  deploymentSha256 : String
  profile : Profile
  policy : Option BundledResource
  tools : Option BundledResource
  sourceFiles : List SourceFile
  deriving DecidableEq, Repr

/-- Where a bundle's policy or tools come from. -/
inductive ResourceOrigin where
  | bundle
  | server
  | absent
  deriving DecidableEq, Repr

def ResourceOrigin.all : List ResourceOrigin := [.bundle, .server, .absent]

def ResourceOrigin.asStr : ResourceOrigin → String
  | .bundle => "bundle"
  | .server => "server"
  | .absent => "absent"

theorem ResourceOrigin.asStr_inj (left right : ResourceOrigin) (same : left.asStr = right.asStr) :
    left = right := by
  cases left <;> cases right <;> simp_all [asStr]

/-- One file a revision recorded, without its content. -/
structure RecordedFile where
  role : FileRole
  name : FileName
  sha256 : String
  schemaVersion : Option String
  deriving DecidableEq, Repr

/-- The bundle a revision recorded: the manifest, the deployment document, then the
policy and tools files the bundle supplies. -/
structure RecordedBundle where
  apiVersion : ApiVersion
  name : String
  profile : Profile
  sourceDigest : String
  policy : ResourceOrigin
  tools : ResourceOrigin
  files : List RecordedFile
  deriving DecidableEq, Repr

end Bundles

section Revisions

def maxRetainedRevisions : Nat := 1024
def maxRecordedCodes : Nat := 64
def maxCodeBytes : Nat := 128
def maxActorSubjectBytes : Nat := 4096
def maxActorIssuerBytes : Nat := 4096
def maxSystemLabelBytes : Nat := 128

/-- What kind of actor recorded a revision. -/
inductive ActorKind where
  | principal
  | serviceToken
  | system
  deriving DecidableEq, Repr

def ActorKind.all : List ActorKind := [.principal, .serviceToken, .system]

def ActorKind.asStr : ActorKind → String
  | .principal => "principal"
  | .serviceToken => "service_token"
  | .system => "system"

theorem ActorKind.asStr_inj (left right : ActorKind) (same : left.asStr = right.asStr) :
    left = right := by
  cases left <;> cases right <;> simp_all [asStr]

/-- How an actor authenticated. -/
inductive AuthMode where
  | sessionCookie
  | bearerToken
  | clientCertificate
  | serviceToken
  | system
  deriving DecidableEq, Repr

def AuthMode.all : List AuthMode :=
  [.sessionCookie, .bearerToken, .clientCertificate, .serviceToken, .system]

def AuthMode.asStr : AuthMode → String
  | .sessionCookie => "session_cookie"
  | .bearerToken => "bearer_token"
  | .clientCertificate => "client_certificate"
  | .serviceToken => "service_token"
  | .system => "system"

theorem AuthMode.asStr_inj (left right : AuthMode) (same : left.asStr = right.asStr) :
    left = right := by
  cases left <;> cases right <;> simp_all [asStr]

/-- Whether an actor of `kind` can have authenticated this way. -/
def AuthMode.agreesWith (mode : AuthMode) (kind : ActorKind) : Bool :=
  match kind with
  | .principal => mode == .sessionCookie || mode == .bearerToken || mode == .clientCertificate
  | .serviceToken => mode == .serviceToken
  | .system => mode == .system

/-- Letters and digits, with `.`, `_` and `-` after the first byte. -/
def isValidOpaqueId (value : String) (maximum : Nat) : Bool :=
  !value.isEmpty && decide (Text.len value ≤ maximum) &&
    (value.toList.zipIdx.all fun (char, index) =>
      char.isAlphanum || (['.', '_', '-'].contains char && decide (index > 0)))

/-- Who recorded a revision. -/
structure LedgerActor where
  kind : ActorKind
  subject : String
  issuer : Option String
  authMode : AuthMode
  deriving DecidableEq, Repr

/-- The one rule every recorded actor satisfies, on append and on read. -/
def LedgerActor.checked (kind : ActorKind) (subject : String) (issuer : Option String)
    (authMode : AuthMode) : Option LedgerActor :=
  let subjectOk :=
    match kind with
    | .system => isValidOpaqueId subject maxSystemLabelBytes
    | .principal | .serviceToken =>
      !subject.isEmpty && decide (Text.len subject ≤ maxActorSubjectBytes)
  let issuerOk := issuer.all fun issuer =>
    decide (kind = .principal) && !issuer.isEmpty &&
      decide (Text.len issuer ≤ maxActorIssuerBytes)
  if subjectOk && issuerOk && authMode.agreesWith kind then
    some { kind, subject, issuer, authMode }
  else none

theorem LedgerActor.checked_eq_some {kind : ActorKind} {subject : String} {issuer : Option String}
    {authMode : AuthMode} {actor : LedgerActor}
    (accepted : checked kind subject issuer authMode = some actor) :
    actor = { kind, subject, issuer, authMode } := by
  simp only [checked, Option.ite_none_right_eq_some, Option.some.injEq] at accepted
  exact accepted.2.symm

/-- When a revision takes effect. -/
inductive ActivationClass where
  | live
  | restart
  deriving DecidableEq, Repr

def ActivationClass.all : List ActivationClass := [.live, .restart]

def ActivationClass.asStr : ActivationClass → String
  | .live => "live"
  | .restart => "restart"

theorem ActivationClass.asStr_inj (left right : ActivationClass) (same : left.asStr = right.asStr) :
    left = right := by
  cases left <;> cases right <;> simp_all [asStr]

/-- What a revision did. -/
inductive Operation where
  | seed
  | apply
  | rollback (target : RevisionId)
  deriving DecidableEq, Repr

def Operation.asStr : Operation → String
  | .seed => "seed"
  | .apply => "apply"
  | .rollback _ => "rollback"

def Operation.target? : Operation → Option RevisionId
  | .rollback target => some target
  | .seed | .apply => none

def isCode (code : String) : Bool :=
  decide (Text.len code ≤ maxCodeBytes) && code.toList.head?.any Char.isLower &&
    code.toList.all fun char =>
      char.isLower || char.isDigit || ['_', '.', ':', '-'].contains char

/-- `codes` sorted and deduplicated, unless a code is outside the grammar or the list
beyond its bound. -/
def sortedCodes (codes : List String) : Option (List String) :=
  let list := (codes.insertionSort (· ≤ ·)).destutter (· ≠ ·)
  if list.length ≤ maxRecordedCodes ∧ list.all isCode then some list else none

/-- The codes a revision records about its change. -/
structure RevisionCodes where
  changedSections : List String := []
  riskCodes : List String := []
  requiredPermissions : List String := []
  deriving DecidableEq, Repr

/-- The online request a revision was applied under. -/
structure RevisionRequest where
  plan : PlanId
  idempotencyKey : String
  binding : String
  acknowledgedRisks : List String
  stageOnly : Bool
  deriving DecidableEq, Repr

/-- A revision's parent, as its record names it. -/
structure ParentLink where
  revision : RevisionId
  recordHash : String
  deriving DecidableEq, Repr

/-- One revision's record. -/
structure RevisionSummary where
  sequence : Nat
  revision : RevisionId
  recordHash : String
  parent : Option ParentLink
  recordedAtMs : Nat
  operation : Operation
  actor : LedgerActor
  activation : ActivationClass
  codes : RevisionCodes
  request : Option RevisionRequest
  bundle : RecordedBundle
  deriving DecidableEq, Repr

/-- The ledger's pointer and head. -/
structure LedgerState where
  revisions : Nat
  desired : RevisionSummary
  active : Option RevisionId
  deriving DecidableEq, Repr

/-- What the ledger found when it refused to trust its contents. -/
inductive Corruption where
  | integrity
  | format
  | schema
  | record
  | recordHash
  | chain
  | document
  | pointer
  | request
  deriving DecidableEq, Repr

/-- Why the ledger refused to record something. -/
inductive Refusal where
  | actorNotRecordable
  | codeNotRecordable
  | timeNotRecordable
  | seedNotAppendable
  | rollbackTargetUnknown
  | rollbackTargetIsHead
  | rollbackContentDiffers
  | bundleInconsistent
  | recordTooLarge
  | requestNotRecordable
  | acknowledgementMismatch
  deriving DecidableEq, Repr

/-- Why a ledger operation did not happen. -/
inductive LedgerError where
  | unsupported
  | corrupt (kind : Corruption)
  | stale (head : RevisionId)
  | idempotencyKeyUsed (revision : RevisionId)
  | refused (reason : Refusal)
  | full
  | unavailable (operation : String)
  deriving DecidableEq, Repr

/-- `RevisionCodes::new`. -/
def RevisionCodes.new (changedSections riskCodes requiredPermissions : List String) :
    Except LedgerError RevisionCodes := do
  let list (codes : List String) : Except LedgerError (List String) :=
    match sortedCodes codes with
    | some list => .ok list
    | none => .error (.refused .codeNotRecordable)
  .ok
    { changedSections := ← list changedSections
      riskCodes := ← list riskCodes
      requiredPermissions := ← list requiredPermissions }

end Revisions

end GreenGateway.Ledger
