import GreenGateway.Ledger.Model

/-! The `v1` revision record: how a proposal becomes canonical record text and a
record hash, and how stored text is read back by the same rules. -/

namespace GreenGateway.Ledger

open Foundation Config

def recordMediaType : String := "application/vnd.greengateway.config-revision+json"
def recordSchemaVersion : String := "v1"
def maxRecordBytes : Nat := 64 * 1024

section Serialized

/-! The serialized record. Every member is always present: an absent optional one is
`null`. -/

structure ParentV1 where
  revision : String
  recordHash : String

structure ActorV1 where
  kind : String
  subject : String
  issuer : Option String
  authMode : String

structure RequestV1 where
  plan : String
  idempotencyKey : String
  binding : String
  acknowledgedRisks : List String
  stageOnly : Bool

structure FileV1 where
  role : String
  name : String
  sha256 : String
  schemaVersion : Option String

structure BundleV1 where
  apiVersion : String
  name : String
  profile : String
  sourceDigest : String
  policy : String
  tools : String
  files : List FileV1

structure RecordV1 where
  sequence : Nat
  parent : Option ParentV1
  recordedAtMs : Nat
  operation : String
  rollbackOf : Option String
  actor : ActorV1
  activation : String
  changedSections : List String
  riskCodes : List String
  requiredPermissions : List String
  request : Option RequestV1
  bundle : BundleV1

/-- An optional member's value. -/
def orNull {α : Type} (toValue : α → Json) : Option α → Json
  | none => .null
  | some value => toValue value

def strings (values : List String) : Json := .array (values.map .string)

def ParentV1.toValue (parent : ParentV1) : Json :=
  .object [("record_hash", .string parent.recordHash), ("revision", .string parent.revision)]

def ActorV1.toValue (actor : ActorV1) : Json :=
  .object
    [("auth_mode", .string actor.authMode), ("issuer", orNull .string actor.issuer),
      ("kind", .string actor.kind), ("subject", .string actor.subject)]

def RequestV1.members (request : RequestV1) : List (String × Json) :=
  [("acknowledged_risks", strings request.acknowledgedRisks), ("binding", .string request.binding),
    ("idempotency_key", .string request.idempotencyKey), ("plan", .string request.plan),
    ("stage_only", .bool request.stageOnly)]

def RequestV1.toValue (request : RequestV1) : Json := .object request.members

def FileV1.toValue (file : FileV1) : Json :=
  .object
    [("name", .string file.name), ("role", .string file.role),
      ("schema_version", orNull .string file.schemaVersion), ("sha256", .string file.sha256)]

def BundleV1.members (bundle : BundleV1) : List (String × Json) :=
  [("api_version", .string bundle.apiVersion), ("files", .array (bundle.files.map FileV1.toValue)),
    ("name", .string bundle.name), ("policy", .string bundle.policy),
    ("profile", .string bundle.profile), ("source_digest", .string bundle.sourceDigest),
    ("tools", .string bundle.tools)]

def BundleV1.toValue (bundle : BundleV1) : Json := .object bundle.members

def RecordV1.members (record : RecordV1) : List (String × Json) :=
  [("activation", .string record.activation), ("actor", record.actor.toValue),
    ("bundle", record.bundle.toValue), ("changed_sections", strings record.changedSections),
    ("operation", .string record.operation), ("parent", orNull ParentV1.toValue record.parent),
    ("recorded_at_ms", .number (toString record.recordedAtMs)),
    ("request", orNull RequestV1.toValue record.request),
    ("required_permissions", strings record.requiredPermissions),
    ("risk_codes", strings record.riskCodes),
    ("rollback_of", orNull .string record.rollbackOf),
    ("sequence", .number (toString record.sequence))]

def RecordV1.toValue (record : RecordV1) : Json := .object record.members

end Serialized

section Deserialized

/-- The members of an object that has no unknown ones. -/
def closedObject (known : List String) (value : Json) : Option (List (String × Json)) :=
  value.asObject.filter fun members => members.all fun entry => known.contains entry.1

/-- A member that must be present. -/
def required {α : Type} (members : List (String × Json)) (name : String)
    (read : Json → Option α) : Option α :=
  (Json.lookup name members).bind read

/-- A member that is `none` when it is missing or `null`. -/
def optional {α : Type} (members : List (String × Json)) (name : String)
    (read : Json → Option α) : Option (Option α) :=
  match Json.lookup name members with
  | none | some .null => some none
  | some value => (read value).map some

def readBool : Json → Option Bool
  | .bool value => some value
  | _ => none

def readU64 : Json → Option Nat
  | .number text => asU64 text
  | _ => none

def readList {α : Type} (read : Json → Option α) (value : Json) : Option (List α) :=
  value.asArray.bind fun items => items.mapM read

def ParentV1.fromValue (value : Json) : Option ParentV1 := do
  let members ← closedObject ["record_hash", "revision"] value
  some
    { revision := ← required members "revision" Json.asStr
      recordHash := ← required members "record_hash" Json.asStr }

def ActorV1.fromValue (value : Json) : Option ActorV1 := do
  let members ← closedObject ["auth_mode", "issuer", "kind", "subject"] value
  some
    { kind := ← required members "kind" Json.asStr
      subject := ← required members "subject" Json.asStr
      issuer := ← optional members "issuer" Json.asStr
      authMode := ← required members "auth_mode" Json.asStr }

def RequestV1.fromValue (value : Json) : Option RequestV1 := do
  let members ← closedObject
    ["acknowledged_risks", "binding", "idempotency_key", "plan", "stage_only"] value
  some
    { plan := ← required members "plan" Json.asStr
      idempotencyKey := ← required members "idempotency_key" Json.asStr
      binding := ← required members "binding" Json.asStr
      acknowledgedRisks := ← required members "acknowledged_risks" (readList Json.asStr)
      stageOnly := ← required members "stage_only" readBool }

def FileV1.fromValue (value : Json) : Option FileV1 := do
  let members ← closedObject ["name", "role", "schema_version", "sha256"] value
  some
    { role := ← required members "role" Json.asStr
      name := ← required members "name" Json.asStr
      sha256 := ← required members "sha256" Json.asStr
      schemaVersion := ← optional members "schema_version" Json.asStr }

def BundleV1.fromValue (value : Json) : Option BundleV1 := do
  let members ← closedObject
    ["api_version", "files", "name", "policy", "profile", "source_digest", "tools"] value
  some
    { apiVersion := ← required members "api_version" Json.asStr
      name := ← required members "name" Json.asStr
      profile := ← required members "profile" Json.asStr
      sourceDigest := ← required members "source_digest" Json.asStr
      policy := ← required members "policy" Json.asStr
      tools := ← required members "tools" Json.asStr
      files := ← required members "files" (readList FileV1.fromValue) }

def RecordV1.fromValue (value : Json) : Option RecordV1 := do
  let members ← closedObject
    ["activation", "actor", "bundle", "changed_sections", "operation", "parent", "recorded_at_ms",
      "request", "required_permissions", "risk_codes", "rollback_of", "sequence"] value
  some
    { sequence := ← required members "sequence" readU64
      parent := ← optional members "parent" ParentV1.fromValue
      recordedAtMs := ← required members "recorded_at_ms" readU64
      operation := ← required members "operation" Json.asStr
      rollbackOf := ← optional members "rollback_of" Json.asStr
      actor := ← required members "actor" ActorV1.fromValue
      activation := ← required members "activation" Json.asStr
      changedSections := ← required members "changed_sections" (readList Json.asStr)
      riskCodes := ← required members "risk_codes" (readList Json.asStr)
      requiredPermissions := ← required members "required_permissions" (readList Json.asStr)
      request := ← optional members "request" RequestV1.fromValue
      bundle := ← required members "bundle" BundleV1.fromValue }

end Deserialized

section RoundTrip

variable {α : Type} {read : Json → Option α} {write : α → Json}

theorem bind_of_some {β : Type} {first : Option α} {next : α → Option β} {value : α} {result : β}
    (held : first = some value) (follows : next value = some result) :
    (first >>= next) = some result := by
  rw [held]
  exact follows

theorem mapM_of_inverse (inverse : ∀ value, read (write value) = some value) (values : List α) :
    (values.map write).mapM read = some values := by
  induction values with
  | nil => rfl
  | cons head rest ih => simp [inverse, ih]

theorem readList_strings (values : List String) :
    readList Json.asStr (strings values) = some values := by
  have inverse (value : String) : Json.asStr (.string value) = some value := rfl
  exact mapM_of_inverse inverse values

theorem ParentV1.fromValue_toValue (parent : ParentV1) :
    ParentV1.fromValue parent.toValue = some parent := rfl

theorem ActorV1.fromValue_toValue (actor : ActorV1) :
    ActorV1.fromValue actor.toValue = some actor := by
  obtain ⟨kind, subject, issuer, authMode⟩ := actor
  cases issuer <;> rfl

theorem FileV1.fromValue_toValue (file : FileV1) : FileV1.fromValue file.toValue = some file := by
  obtain ⟨role, name, sha256, schemaVersion⟩ := file
  cases schemaVersion <;> rfl

theorem RequestV1.fromValue_toValue (request : RequestV1) :
    RequestV1.fromValue request.toValue = some request := by
  have closed : closedObject
      ["acknowledged_risks", "binding", "idempotency_key", "plan", "stage_only"] request.toValue =
        some request.members := rfl
  have plan : required request.members "plan" Json.asStr = some request.plan := rfl
  have key : required request.members "idempotency_key" Json.asStr =
      some request.idempotencyKey := rfl
  have binding : required request.members "binding" Json.asStr = some request.binding := rfl
  have risks : required request.members "acknowledged_risks" (readList Json.asStr) =
      some request.acknowledgedRisks := readList_strings request.acknowledgedRisks
  have stageOnly : required request.members "stage_only" readBool = some request.stageOnly := rfl
  exact bind_of_some closed <| bind_of_some plan <| bind_of_some key <| bind_of_some binding <|
    bind_of_some risks <| bind_of_some stageOnly rfl

theorem BundleV1.fromValue_toValue (bundle : BundleV1) :
    BundleV1.fromValue bundle.toValue = some bundle := by
  have closed : closedObject
      ["api_version", "files", "name", "policy", "profile", "source_digest", "tools"]
        bundle.toValue = some bundle.members := rfl
  have text {name value : String} (held : Json.lookup name bundle.members = some (.string value)) :
      required bundle.members name Json.asStr = some value := by
    rw [required, held]
    rfl
  have files : required bundle.members "files" (readList FileV1.fromValue) = some bundle.files :=
    mapM_of_inverse FileV1.fromValue_toValue bundle.files
  exact bind_of_some closed <| bind_of_some (text rfl) <| bind_of_some (text rfl) <|
    bind_of_some (text rfl) <| bind_of_some (text rfl) <| bind_of_some (text rfl) <|
    bind_of_some (text rfl) <| bind_of_some files rfl

theorem optional_orNull {members : List (String × Json)} {name : String} (value : Option α)
    (held : Json.lookup name members = some (orNull write value))
    (inverse : ∀ value, read (write value) = some value)
    (present : ∀ value, write value ≠ .null) : optional members name read = some value := by
  rw [optional, held]
  cases value with
  | none => rfl
  | some value =>
    simp only [orNull]
    split
    · contradiction
    · exact absurd (Option.some.inj ‹_›) (present value)
    · rename_i found
      obtain rfl := Option.some.inj found
      rw [inverse]
      rfl

/-- A record is read back from its value. -/
theorem RecordV1.fromValue_toValue (record : RecordV1)
    (sequenced : record.sequence < 2 ^ 64) (timed : record.recordedAtMs < 2 ^ 64) :
    RecordV1.fromValue record.toValue = some record := by
  have closed : closedObject
      ["activation", "actor", "bundle", "changed_sections", "operation", "parent",
        "recorded_at_ms", "request", "required_permissions", "risk_codes", "rollback_of",
        "sequence"] record.toValue = some record.members := rfl
  have sequence : required record.members "sequence" readU64 = some record.sequence :=
    asU64_toString sequenced
  have parent : optional record.members "parent" ParentV1.fromValue = some record.parent :=
    optional_orNull record.parent rfl ParentV1.fromValue_toValue (by simp [ParentV1.toValue])
  have recordedAt : required record.members "recorded_at_ms" readU64 = some record.recordedAtMs :=
    asU64_toString timed
  have operation : required record.members "operation" Json.asStr = some record.operation := rfl
  have inverse (value : String) : Json.asStr (.string value) = some value := rfl
  have rollbackOf : optional record.members "rollback_of" Json.asStr = some record.rollbackOf :=
    optional_orNull record.rollbackOf rfl inverse (by simp)
  have actor : required record.members "actor" ActorV1.fromValue = some record.actor :=
    record.actor.fromValue_toValue
  have activation : required record.members "activation" Json.asStr = some record.activation := rfl
  have sections : required record.members "changed_sections" (readList Json.asStr) =
      some record.changedSections := readList_strings _
  have risks : required record.members "risk_codes" (readList Json.asStr) =
      some record.riskCodes := readList_strings _
  have permissions : required record.members "required_permissions" (readList Json.asStr) =
      some record.requiredPermissions := readList_strings _
  have request : optional record.members "request" RequestV1.fromValue = some record.request :=
    optional_orNull record.request rfl RequestV1.fromValue_toValue (by simp [RequestV1.toValue])
  have bundle : required record.members "bundle" BundleV1.fromValue = some record.bundle :=
    record.bundle.fromValue_toValue
  exact bind_of_some closed <| bind_of_some sequence <| bind_of_some parent <|
    bind_of_some recordedAt <| bind_of_some operation <| bind_of_some rollbackOf <|
    bind_of_some actor <| bind_of_some activation <| bind_of_some sections <| bind_of_some risks <|
    bind_of_some permissions <| bind_of_some request <| bind_of_some bundle rfl

end RoundTrip

section Settled

variable {α : Type} {toValue : α → Json}

theorem settled_orNull (value : Option α)
    (settled : ∀ value, Settled (toValue value)) : Settled (orNull toValue value) := by
  cases value with
  | none => trivial
  | some value => exact settled value

theorem settledItems_map (settled : ∀ value, Settled (toValue value))
    (values : List α) : SettledItems (values.map toValue) := by
  induction values with
  | nil => trivial
  | cons head rest ih => exact ⟨settled head, ih⟩

theorem settled_strings (values : List String) : Settled (strings values) := by
  have each (value : String) : Settled (.string value) := trivial
  exact settledItems_map each values

/-- Whether member names stand in canonical order. -/
def Ordered (names : List String) : Prop := (names.map fun name => (name, ())).Pairwise NameOrder

instance (names : List String) : Decidable (Ordered names) :=
  inferInstanceAs (Decidable (List.Pairwise _ _))

theorem settled_object {members : List (String × Json)} (ordered : Ordered (members.map Prod.fst))
    (values : SettledMembers members) : Settled (.object members) := by
  refine ⟨?_, values⟩
  rw [Ordered, List.map_map] at ordered
  exact ordered

theorem ParentV1.settled (parent : ParentV1) : Settled parent.toValue :=
  settled_object (by change Ordered ["record_hash", "revision"]; decide) ⟨trivial, trivial, trivial⟩

theorem ActorV1.settled (actor : ActorV1) : Settled actor.toValue :=
  settled_object (by change Ordered ["auth_mode", "issuer", "kind", "subject"]; decide)
    ⟨trivial, settled_orNull _ fun _ => trivial, trivial, trivial, trivial⟩

theorem RequestV1.settled (request : RequestV1) : Settled request.toValue :=
  settled_object
    (by
      change Ordered ["acknowledged_risks", "binding", "idempotency_key", "plan", "stage_only"]
      decide)
    ⟨settled_strings _, trivial, trivial, trivial, trivial, trivial⟩

theorem FileV1.settled (file : FileV1) : Settled file.toValue :=
  settled_object (by change Ordered ["name", "role", "schema_version", "sha256"]; decide)
    ⟨trivial, trivial, settled_orNull _ fun _ => trivial, trivial, trivial⟩

theorem BundleV1.settled (bundle : BundleV1) : Settled bundle.toValue :=
  settled_object
    (by
      change Ordered
        ["api_version", "files", "name", "policy", "profile", "source_digest", "tools"]
      decide)
    ⟨trivial, settledItems_map FileV1.settled _, trivial, trivial, trivial, trivial, trivial, trivial⟩

/-- A record's value is its own canonical form. -/
theorem RecordV1.settled (record : RecordV1) (sequenced : record.sequence ≤ maxSafeInteger)
    (timed : record.recordedAtMs ≤ maxSafeInteger) : Settled record.toValue :=
  settled_object
    (by
      change Ordered
        ["activation", "actor", "bundle", "changed_sections", "operation", "parent",
          "recorded_at_ms", "request", "required_permissions", "risk_codes", "rollback_of",
          "sequence"]
      decide)
    ⟨trivial, record.actor.settled, record.bundle.settled, settled_strings _, trivial,
      settled_orNull _ ParentV1.settled, ⟨_, timed, rfl⟩, settled_orNull _ RequestV1.settled,
      settled_strings _, settled_strings _, settled_orNull _ fun _ => trivial, ⟨_, sequenced, rfl⟩,
      trivial⟩

end Settled

end GreenGateway.Ledger
