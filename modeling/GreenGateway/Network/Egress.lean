import GreenGateway.Config.CanonicalJson
import GreenGateway.Kernel.Decide
import GreenGateway.Network.Embedding

/-! Whether the egress controls admit an outbound destination, decided over its URL and,
when the caller supplies them, the answers of a resolver. -/

namespace GreenGateway.Network

open Foundation Rbac Config Kernel

section Model

structure SocketAddr where
  ip : IpAddr
  port : UInt16
  deriving DecidableEq, Repr

/-- The effective egress controls. -/
structure EgressControls where
  allowedHosts : List String
  allowedHostGlobs : List String
  allowedPorts : List UInt16
  denyPrivateIps : Bool
  nat64Prefixes : List IpNet
  privateIpAllowCidrs : List IpNet

def egressContextVersion : Nat := 1
def egressSemanticsVersion : String := "gg-static-egress-v1"
def egressControlsDigestKind : String := "gg.egress-controls.v1"

/-- What a result is bound to. -/
structure EgressSnapshot where
  controlsDigest : List UInt8
  contextVersion : Nat
  semanticsVersion : String
  deriving DecidableEq

/-- What a destination URL says. -/
structure EgressDestination where
  scheme : String
  host : Option String
  port : Option UInt16
  userinfo : Bool
  fragment : Bool

inductive ResolutionFact where
  | missing
  | resolved (answers : List SocketAddr)

structure EgressEvaluationContext where
  version : Nat
  snapshot : EgressSnapshot
  destination : EgressDestination
  resolution : ResolutionFact

/-- Why a destination was refused, in the order of the checks. -/
inductive EgressDenial where
  | missingHost
  | userinfo
  | fragment
  | schemeNotAllowed
  | hostNotAllowed
  | missingPort
  | portNotAllowed
  | emptyResolution
  | unexpectedResolvedPort
  | nonGlobalAddress (index : Nat)
  deriving DecidableEq, Repr

inductive EgressOutcome where
  | allow (pinned : Nat)
  | deny (denial : EgressDenial)
  /-- No resolution facts were supplied. -/
  | indeterminate
  deriving DecidableEq, Repr

structure EgressEvaluation where
  logical : LogicalDecision
  effect : PolicyEffect
  outcome : EgressOutcome
  complete : Bool
  deriving DecidableEq, Repr

/-- A pattern names one host, or with `*.` every host below one; case is folded. -/
def hostGlobMatches (pattern host : String) : Bool :=
  let pattern := Text.toAsciiLowercase pattern
  let host := Text.toAsciiLowercase host
  match Text.stripFront? pattern "*." with
  | some suffix =>
    let front := host.toList.length - suffix.toList.length
    decide (host.toList.length > suffix.toList.length) && Text.endsWith host suffix &&
      host.toList[front - 1]? == some '.'
  | none => host == pattern

def ipMatchesPolicyCidr (ip : IpAddr) (privateIpAllowCidrs : List IpNet) : Bool :=
  privateIpAllowCidrs.any fun cidr => cidr.contains ip

section Digest

variable [Codecs] [NetworkTexts]

omit [Codecs] [NetworkTexts] in
/-- Texts in their order, as JSON. -/
def sorted (texts : List String) : Json := .array ((texts.insertionSort (· ≤ ·)).map .string)

/-- The digest of the controls, with every collection sorted. -/
def controlsDigest (controls : EgressControls) : List UInt8 :=
  let ports := (controls.allowedPorts.map UInt16.toNat).insertionSort (· ≤ ·)
  let payload := Json.array
    [sorted controls.allowedHosts,
      sorted controls.allowedHostGlobs,
      .array (ports.map fun port => .number (toString port)),
      .bool controls.denyPrivateIps,
      sorted (controls.nat64Prefixes.map NetworkTexts.display),
      sorted (controls.privateIpAllowCidrs.map NetworkTexts.display)]
  Codecs.sha256 (framed egressControlsDigestKind "application/json" egressSemanticsVersion
    (utf8 (String.ofList payload.text)))

structure CompiledEgressPolicy where
  controls : EgressControls
  snapshot : EgressSnapshot

def CompiledEgressPolicy.new (controls : EgressControls) : CompiledEgressPolicy where
  controls
  snapshot :=
    { controlsDigest := controlsDigest controls
      contextVersion := egressContextVersion
      semanticsVersion := egressSemanticsVersion }

end Digest

def EgressEvaluationContext.validate (context : EgressEvaluationContext)
    (expected : EgressSnapshot) :
    Except EvaluationError Unit := do
  refuse (context.version != egressContextVersion) .unsupportedContextVersion
  refuse (decide (context.snapshot ≠ expected)) .snapshotMismatch

namespace CompiledEgressPolicy

/-- The checks before any name is resolved, and the port they admit. -/
def admitDestination (policy : CompiledEgressPolicy) (destination : EgressDestination) :
    Except EgressDenial UInt16 := do
  let host ← okOr destination.host .missingHost
  refuse destination.userinfo .userinfo
  refuse destination.fragment .fragment
  refuse (destination.scheme != "http" && destination.scheme != "https") .schemeNotAllowed
  refuse (!(policy.controls.allowedHosts.contains host ||
    policy.controls.allowedHostGlobs.any fun pattern => hostGlobMatches pattern host)) .hostNotAllowed
  let port ← okOr destination.port .missingPort
  refuse (!policy.controls.allowedPorts.isEmpty && !policy.controls.allowedPorts.contains port)
    .portNotAllowed
  .ok port

/-- Whether an answer is a non-global address that no CIDR of the policy allows. -/
def blocks (policy : CompiledEgressPolicy) (answer : SocketAddr) : Bool :=
  isNonGlobalIp answer.ip policy.controls.nat64Prefixes &&
    !ipMatchesPolicyCidr answer.ip policy.controls.privateIpAllowCidrs

/-- The checks of the answers: every one is judged, and the first is pinned. -/
def checkAnswers (policy : CompiledEgressPolicy) (port : UInt16) (answers : List SocketAddr) :
    EgressOutcome :=
  if answers.isEmpty then .deny .emptyResolution
  else if answers.any fun answer => answer.port != port then .deny .unexpectedResolvedPort
  else if policy.controls.denyPrivateIps then
    match answers.findIdx? policy.blocks with
    | some index => .deny (.nonGlobalAddress index)
    | none => .allow 0
  else .allow 0

def outcome (policy : CompiledEgressPolicy) (destination : EgressDestination)
    (resolution : ResolutionFact) : EgressOutcome :=
  match policy.admitDestination destination with
  | .error denial => .deny denial
  | .ok port =>
    match resolution with
    | .missing => .indeterminate
    | .resolved answers => policy.checkAnswers port answers

def evaluate (policy : CompiledEgressPolicy) (context : EgressEvaluationContext) :
    Except EvaluationError EgressEvaluation := do
  context.validate policy.snapshot
  let outcome := policy.outcome context.destination context.resolution
  .ok <| match outcome with
    | .allow _ => { logical := .allow, effect := .allow, outcome, complete := true }
    | .deny _ => { logical := .deny, effect := .block, outcome, complete := true }
    | .indeterminate => { logical := .indeterminate, effect := .block, outcome, complete := false }

end CompiledEgressPolicy

end Model

section Phases

variable {policy : CompiledEgressPolicy} {destination : EgressDestination}
  {context : EgressEvaluationContext}

open CompiledEgressPolicy

theorem evaluate_outcome {evaluation : EgressEvaluation}
    (evaluated : policy.evaluate context = .ok evaluation) :
    evaluation.outcome = policy.outcome context.destination context.resolution := by
  simp only [evaluate, bind_eq_ok, unit_exists_ok, Except.ok.injEq] at evaluated
  obtain ⟨-, rfl⟩ := evaluated
  cases policy.outcome context.destination context.resolution <;> rfl

/-- A denial without resolution facts is a denial with any. -/
theorem outcome_of_denied {denial : EgressDenial}
    (denied : policy.outcome destination .missing = .deny denial) (resolution : ResolutionFact) :
    policy.outcome destination resolution = .deny denial := by
  unfold outcome at *
  cases admitted : policy.admitDestination destination with
  | error problem =>
    rw [admitted] at denied
    exact denied
  | ok port =>
    rw [admitted] at denied
    cases denied

/-- What an admitted destination's answers passed. -/
structure Admitted (policy : CompiledEgressPolicy) (destination : EgressDestination)
    (answers : List SocketAddr) (pinned : Nat) : Prop where
  inRange : pinned < answers.length
  ports : ∃ port, policy.admitDestination destination = .ok port ∧
    ∀ answer ∈ answers, answer.port = port
  reachable : ∀ answer ∈ answers,
    isNonGlobalIp answer.ip policy.controls.nat64Prefixes = false ∨
      ∃ cidr ∈ policy.controls.privateIpAllowCidrs, cidr.contains answer.ip = true

theorem outcome_allow (denies : policy.controls.denyPrivateIps = true) {resolution : ResolutionFact}
    {pinned : Nat} (allowed : policy.outcome destination resolution = .allow pinned) :
    ∃ answers, resolution = .resolved answers ∧ Admitted policy destination answers pinned := by
  unfold outcome at allowed
  cases admitted : policy.admitDestination destination with
  | error denial => simp [admitted] at allowed
  | ok port =>
    rw [admitted] at allowed
    cases resolution with
    | missing => cases allowed
    | resolved answers =>
      simp only [checkAnswers, denies, if_true] at allowed
      split_ifs at allowed with empty other
      split at allowed
      · cases allowed
      · next none =>
        obtain rfl := EgressOutcome.allow.inj allowed
        refine ⟨answers, rfl, ?_, ⟨port, admitted, ?_⟩, ?_⟩
        · exact List.length_pos_iff.mpr (by simpa using empty)
        · simpa using other
        · intro answer member
          have passes := List.findIdx?_eq_none_iff.mp none answer member
          simpa only [blocks, Bool.and_eq_false_iff, Bool.not_eq_false', ipMatchesPolicyCidr,
            List.any_eq_true] using passes

end Phases

section Order

/-- The same controls, listed in another order. -/
structure Reordered (controls other : EgressControls) : Prop where
  hosts : controls.allowedHosts.Perm other.allowedHosts
  globs : controls.allowedHostGlobs.Perm other.allowedHostGlobs
  ports : controls.allowedPorts.Perm other.allowedPorts
  denies : controls.denyPrivateIps = other.denyPrivateIps
  nat64 : controls.nat64Prefixes.Perm other.nat64Prefixes
  cidrs : controls.privateIpAllowCidrs.Perm other.privateIpAllowCidrs

variable {controls other : EgressControls}

theorem insertionSort_of_perm {α : Type} [LinearOrder α] {left right : List α}
    (same : left.Perm right) : left.insertionSort (· ≤ ·) = right.insertionSort (· ≤ ·) :=
  List.Perm.eq_of_pairwise (fun _ _ _ _ => le_antisymm) (List.pairwise_insertionSort _ _)
    (List.pairwise_insertionSort _ _)
    ((List.perm_insertionSort _ _).trans (same.trans (List.perm_insertionSort _ _).symm))

theorem controlsDigest_reordered [Codecs] [NetworkTexts] (reordered : Reordered controls other) :
    controlsDigest controls = controlsDigest other := by
  unfold controlsDigest sorted
  rw [insertionSort_of_perm reordered.hosts, insertionSort_of_perm reordered.globs,
    insertionSort_of_perm (reordered.ports.map _), reordered.denies,
    insertionSort_of_perm (reordered.nat64.map _), insertionSort_of_perm (reordered.cidrs.map _)]

theorem isNonGlobalIp_reordered {nets others : List IpNet} (nets_ : Nat64Nets nets)
    (same : nets.Perm others) (ip : IpAddr) : isNonGlobalIp ip nets = isNonGlobalIp ip others := by
  cases ip with
  | v4 bits => rfl
  | v6 bits =>
    have classified : classifyNat64Address bits nets = classifyNat64Address bits others := by
      rw [classifyNat64Address, classifyNat64Address, nets_.find?_perm same]
    rw [isNonGlobalIp, isNonGlobalIp, classified]

/-- The order of the controls changes no outcome and no identity. -/
theorem evaluate_reordered [Codecs] [NetworkTexts] (nets : Nat64Nets controls.nat64Prefixes)
    (reordered : Reordered controls other) (context : EgressEvaluationContext) :
    (CompiledEgressPolicy.new controls).evaluate context =
      (CompiledEgressPolicy.new other).evaluate context := by
  have snapshots : (CompiledEgressPolicy.new controls).snapshot =
      (CompiledEgressPolicy.new other).snapshot := by
    simp only [CompiledEgressPolicy.new, controlsDigest_reordered reordered]
  have admits : ∀ destination, (CompiledEgressPolicy.new controls).admitDestination destination =
      (CompiledEgressPolicy.new other).admitDestination destination := by
    intro destination
    simp only [CompiledEgressPolicy.admitDestination, CompiledEgressPolicy.new,
      reordered.hosts.contains_eq, reordered.globs.any_eq, reordered.ports.isEmpty_eq,
      reordered.ports.contains_eq]
  have blocks : (CompiledEgressPolicy.new controls).blocks = (CompiledEgressPolicy.new other).blocks := by
    funext answer
    simp only [CompiledEgressPolicy.blocks, CompiledEgressPolicy.new, ipMatchesPolicyCidr,
      isNonGlobalIp_reordered nets reordered.nat64, reordered.cidrs.any_eq]
  have answers : (CompiledEgressPolicy.new controls).checkAnswers =
      (CompiledEgressPolicy.new other).checkAnswers := by
    funext port answers
    unfold CompiledEgressPolicy.checkAnswers
    rw [blocks, show (CompiledEgressPolicy.new controls).controls.denyPrivateIps = _ from
      reordered.denies]
    rfl
  simp only [CompiledEgressPolicy.evaluate, CompiledEgressPolicy.outcome, snapshots, admits,
    answers]

end Order

section Admission

variable [Codecs] [NetworkTexts]

/-- Outbound destinations are admitted soundly. A denial without resolution facts stands
whatever the answers are; an allow pins one of the answers, all of which have the
admitted port and are global or allowed by a CIDR; no order of the controls matters; and
an embedded IPv4 address is judged as itself, or refused when it is malformed. -/
theorem egress_sound (controls : EgressControls) (denies : controls.denyPrivateIps = true)
    (name : String) (value : Except VarError String)
    (accepted : controls.nat64Prefixes = (parseNat64Prefixes name value).1) :
    (∀ (context : EgressEvaluationContext) (evaluation : EgressEvaluation) (denial : EgressDenial),
      context.resolution = .missing →
      (CompiledEgressPolicy.new controls).evaluate context = .ok evaluation →
      evaluation.outcome = .deny denial → ∀ answers,
        (CompiledEgressPolicy.new controls).evaluate { context with resolution := .resolved answers } =
          .ok evaluation) ∧
    (∀ (context : EgressEvaluationContext) (evaluation : EgressEvaluation) (pinned : Nat),
      (CompiledEgressPolicy.new controls).evaluate context = .ok evaluation →
      evaluation.outcome = .allow pinned → ∃ answers, context.resolution = .resolved answers ∧
        Admitted (CompiledEgressPolicy.new controls) context.destination answers pinned) ∧
    (∀ (other : EgressControls) (context : EgressEvaluationContext), Reordered controls other →
      (CompiledEgressPolicy.new controls).evaluate context =
        (CompiledEgressPolicy.new other).evaluate context) ∧
    (∀ (addr : BitVec 128) (length : Fin 129), IpNet.v6 addr length ∈ controls.nat64Prefixes →
      (∀ ip, (IpNet.v6 addr length).contains ip = true → ipv4Mapped.contains ip = false) →
      ∀ address : BitVec 32,
        isNonGlobalIp (.v6 (embedRfc6052 addr length address)) controls.nat64Prefixes =
          isNonGlobalIp (.v4 address) controls.nat64Prefixes) ∧
    ∀ net ∈ controls.nat64Prefixes, ∀ ip, net.contains (.v6 ip) = true → octet ip 8 ≠ 0 →
      isNonGlobalIp (.v6 ip) controls.nat64Prefixes = true := by
  have nets : Nat64Nets controls.nat64Prefixes := accepted ▸ parseNat64Prefixes_nets name value
  refine ⟨?_, ?_, fun other context reordered => evaluate_reordered nets reordered context, ?_, ?_⟩
  · intro context evaluation denial missing evaluated denied answers
    rw [evaluate_outcome evaluated, missing] at denied
    rw [← evaluated]
    simp only [CompiledEgressPolicy.evaluate, missing, denied, outcome_of_denied denied]
    rfl
  · intro context evaluation pinned evaluated allowed
    rw [evaluate_outcome evaluated] at allowed
    exact outcome_allow denies allowed
  · intro addr length member disjoint address
    exact embedded_nonGlobal nets member disjoint address
  · intro net member ip inside set
    exact malformed_nonGlobal nets member inside set

end Admission

section Sample

@[reducible] def egressCodecs : Codecs where
  sha256 bytes := bytes.take 32
  parseJson _ := none
  doubleText _ := none

@[reducible] def egressTexts : NetworkTexts where
  parse text := if text = "p" then .ok (net6 0x2a00 0 0 0 0 0 0 0 64) else .error "invalid"
  display _ := "n"

attribute [local instance] egressCodecs egressTexts

def sampleControls : EgressControls where
  allowedHosts := ["h"]
  allowedHostGlobs := []
  allowedPorts := [443]
  denyPrivateIps := true
  nat64Prefixes := [net6 0x2a00 0 0 0 0 0 0 0 64]
  privateIpAllowCidrs := [net4 10 0 0 0 8]

def sampleQuestion : EgressEvaluationContext where
  version := 1
  snapshot := (CompiledEgressPolicy.new sampleControls).snapshot
  destination := { scheme := "https", host := some "h", port := some 443, userinfo := false, fragment := false }
  resolution := .resolved [⟨.v4 0x08080808, 443⟩, ⟨.v4 0x0a000001, 443⟩]

/-- A public and an allowed private answer are admitted, and a private address embedded
under the prefix is not global. -/
theorem egress_sound_sample :
    Admitted (CompiledEgressPolicy.new sampleControls) sampleQuestion.destination
      [⟨.v4 0x08080808, 443⟩, ⟨.v4 0x0a000001, 443⟩] 0 ∧
    isNonGlobalIp (.v6 (embedRfc6052 (0x2a00#16 ++ 0#112) 64 0x0a000001))
      sampleControls.nat64Prefixes = true := by
  have accepted : sampleControls.nat64Prefixes = (parseNat64Prefixes "N" (.ok "p")).1 := by
    decide
  obtain ⟨-, allows, -, embeds, -⟩ := egress_sound sampleControls rfl "N" (.ok "p") accepted
  refine ⟨?_, ?_⟩
  · obtain ⟨answers, same, admitted⟩ := allows sampleQuestion
      { logical := .allow, effect := .allow, outcome := .allow 0, complete := true } 0
      (by decide) rfl
    rwa [ResolutionFact.resolved.inj same]
  · have disjoint : overlaps (.v6 (0x2a00#16 ++ 0#112) 64) ipv4Mapped = false := by decide
    exact (embeds _ 64 (by decide) (fun _ => not_both disjoint) 0x0a000001).trans
      (by decide)

end Sample

end GreenGateway.Network
