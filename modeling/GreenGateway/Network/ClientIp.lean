import GreenGateway.Foundation.Guards
import GreenGateway.Rbac.Model

/-! The address a request is recorded under: the connection's peer, or, behind trusted
proxies, the nearest hop of the forwarded chain that is not one of them. -/

namespace GreenGateway.Network

open Foundation Rbac List Option

/-- The standard library's address parsers. -/
class AddressParsers where
  /-- `IpAddr::from_str`. -/
  parseIp : String → Option IpAddr
  /-- The address of `SocketAddr::from_str`. -/
  parseSocket : String → Option IpAddr
  /-- `Ipv6Addr::from_str`. -/
  parseIpv6 : String → Option (BitVec 128)

abbrev HeaderValue := List UInt8

/-- The headers of a request, in the order of their lines. -/
structure HeaderMap where
  lines : List (String × HeaderValue)

def HeaderMap.getAll (headers : HeaderMap) (name : String) : List HeaderValue :=
  (headers.lines.filter fun line => line.1 == name).map Prod.snd

def xForwardedFor : String := "x-forwarded-for"
def xRealIp : String := "x-real-ip"

/-- `HeaderValue::to_str` takes visible ASCII, spaces and tabs. -/
def isVisible (byte : UInt8) : Bool := decide (32 ≤ byte ∧ byte < 127) || byte == 9

def toStr? (value : HeaderValue) : Option String :=
  if value.all isVisible then some (String.ofList (value.map fun byte => Char.ofNat byte.toNat))
  else none

/-- A text's bytes, where every character is ASCII. -/
def asciiBytes (text : String) : HeaderValue := text.toList.map fun char => UInt8.ofNat char.toNat

/-- The proxies whose forwarded addresses are believed. -/
structure ClientIpPolicy where
  trustedProxyCidrs : List IpNet := []

def ClientIpPolicy.fromConfig (trustProxyHeaders : Bool) (trustedProxyCidrs : List IpNet) :
    ClientIpPolicy :=
  if trustProxyHeaders then { trustedProxyCidrs } else {}

def ClientIpPolicy.trusts (policy : ClientIpPolicy) (ip : IpAddr) : Bool :=
  policy.trustedProxyCidrs.any fun cidr => cidr.contains ip.toCanonical

section Chains

variable [AddressParsers] {chain next : List IpAddr}

/-- One entry of a chain: an address, an address with a port, or a bracketed IPv6
address. -/
def forwardedEntryIp (entry : String) : Except Unit IpAddr :=
  match AddressParsers.parseIp entry with
  | some ip => .ok ip
  | none =>
    match AddressParsers.parseSocket entry with
    | some ip => .ok ip
    | none =>
      okOr ((Text.stripFront? entry "[").bind fun entry => (Text.stripBack? entry "]").bind fun entry =>
        (AddressParsers.parseIpv6 entry).map .v6) ()

/-- Takes in one entry of a line. -/
def pushEntry (chain : List IpAddr) (entry : String) : Except Unit (List IpAddr) := do
  let entry := Text.trim entry
  refuse (entry == "") ()
  let ip ← forwardedEntryIp entry
  .ok (chain ++ [ip.toCanonical])

/-- Takes in one line. -/
def pushLine (chain : List IpAddr) (value : HeaderValue) : Except Unit (List IpAddr) := do
  let value ← okOr (toStr? value) ()
  (Text.split ',' value).foldlM pushEntry chain

/-- The forwarded chain, if there is one. -/
def forwardedFor (headers : HeaderMap) : Except Unit (Option (List IpAddr)) := do
  let values := headers.getAll xForwardedFor
  let chain ← values.foldlM pushLine []
  .ok (if values.isEmpty then none else some chain)

/-- An entry spells an address. -/
structure Denotes (entry : String) (ip : IpAddr) : Prop where
  nonempty : Text.trim entry ≠ ""
  parsed : ∃ found, forwardedEntryIp (Text.trim entry) = .ok found ∧ found.toCanonical = ip

/-- A line spells a list of addresses. -/
def Spells (value : HeaderValue) (addresses : List IpAddr) : Prop :=
  ∃ text, toStr? value = some text ∧ List.Forall₂ Denotes (Text.split ',' text) addresses

/-- Lines spell a chain of addresses. -/
def SpellsChain (values : List HeaderValue) (chain : List IpAddr) : Prop :=
  ∃ parts, List.Forall₂ Spells values parts ∧ chain = parts.flatten

theorem pushEntry_eq_ok {entry : String} :
    pushEntry chain entry = .ok next ↔ ∃ ip, Denotes entry ip ∧ next = chain ++ [ip] := by
  simp only [pushEntry, bind_eq_ok, unit_exists_ok, refuse_eq_ok, beq_eq_false_iff_ne,
    Except.ok.injEq]
  constructor
  · rintro ⟨nonempty, found, parsed, rfl⟩
    exact ⟨_, ⟨nonempty, found, parsed, rfl⟩, rfl⟩
  · rintro ⟨_, ⟨nonempty, found, parsed, rfl⟩, rfl⟩
    exact ⟨nonempty, found, parsed, rfl⟩

theorem pushEntries_eq_ok {entries : List String} :
    entries.foldlM pushEntry chain = .ok next ↔
      ∃ more, List.Forall₂ Denotes entries more ∧ next = chain ++ more := by
  induction entries generalizing chain with
  | nil => simp [List.foldlM, pure, Except.pure, eq_comm]
  | cons entry entries ih =>
    simp only [foldlM_cons, bind_eq_ok, pushEntry_eq_ok, ih, forall₂_cons_left_iff]
    constructor
    · rintro ⟨_, ⟨ip, own, rfl⟩, more, others, rfl⟩
      exact ⟨ip :: more, ⟨ip, more, own, others, rfl⟩, by simp⟩
    · rintro ⟨_, ⟨ip, more, own, others, rfl⟩, rfl⟩
      exact ⟨_, ⟨ip, own, rfl⟩, more, others, by simp⟩

theorem pushLine_eq_ok {value : HeaderValue} :
    pushLine chain value = .ok next ↔ ∃ more, Spells value more ∧ next = chain ++ more := by
  simp only [pushLine, bind_eq_ok, okOr_eq_ok, pushEntries_eq_ok, Spells]
  constructor
  · rintro ⟨text, read, more, spelled, same⟩
    exact ⟨more, ⟨text, read, spelled⟩, same⟩
  · rintro ⟨more, ⟨text, read, spelled⟩, same⟩
    exact ⟨text, read, more, spelled, same⟩

theorem pushLines_eq_ok {values : List HeaderValue} :
    values.foldlM pushLine chain = .ok next ↔
      ∃ more, SpellsChain values more ∧ next = chain ++ more := by
  induction values generalizing chain with
  | nil => simp [SpellsChain, List.foldlM, pure, Except.pure, eq_comm]
  | cons value values ih =>
    simp only [foldlM_cons, bind_eq_ok, pushLine_eq_ok, ih, SpellsChain, forall₂_cons_left_iff]
    constructor
    · rintro ⟨_, ⟨own, spelled, rfl⟩, _, ⟨parts, others, rfl⟩, rfl⟩
      exact ⟨_, ⟨own :: parts, ⟨own, parts, spelled, others, rfl⟩, rfl⟩, by simp⟩
    · rintro ⟨_, ⟨_, ⟨own, parts, spelled, others, rfl⟩, rfl⟩, rfl⟩
      exact ⟨_, ⟨own, spelled, rfl⟩, _, ⟨parts, others, rfl⟩, by simp⟩

theorem forwardedFor_eq_some {headers : HeaderMap} :
    forwardedFor headers = .ok (some chain) ↔
      headers.getAll xForwardedFor ≠ [] ∧ SpellsChain (headers.getAll xForwardedFor) chain := by
  simp only [forwardedFor, bind_eq_ok, pushLines_eq_ok, Except.ok.injEq, nil_append]
  cases headers.getAll xForwardedFor with
  | nil => simp
  | cons value values => simp [eq_comm]

theorem Spells.ne_nil {value : HeaderValue} {addresses : List IpAddr}
    (spells : Spells value addresses) : addresses ≠ [] := by
  obtain ⟨text, -, spelled⟩ := spells
  rintro rfl
  rw [forall₂_nil_right_iff] at spelled
  simp [Text.split] at spelled

theorem forwardedFor_ne_nil {headers : HeaderMap}
    (found : forwardedFor headers = .ok (some chain)) : chain ≠ [] := by
  obtain ⟨present, parts, spelled, rfl⟩ := forwardedFor_eq_some.mp found
  obtain ⟨value, values, lines⟩ := exists_cons_of_ne_nil present
  rw [lines, forall₂_cons_left_iff] at spelled
  obtain ⟨own, others, spells, -, rfl⟩ := spelled
  simp [spells.ne_nil]

end Chains

section Model

variable [AddressParsers] {headers : HeaderMap} {policy : ClientIpPolicy} {peer : IpAddr}

/-- The nearest hop that is not a trusted proxy, or else the first. -/
def forwardedClientIp (chain : List IpAddr) (nonempty : chain ≠ []) (policy : ClientIpPolicy) :
    IpAddr :=
  (chain.reverse.find? fun ip => !policy.trusts ip).getD (chain.head nonempty)

def singleIpHeader (headers : HeaderMap) (name : String) : Except Unit (Option IpAddr) :=
  match headers.getAll name with
  | [] => .ok none
  | [value] => do
    let value ← okOr (toStr? value) ()
    let value := Text.trim value
    refuse (value == "") ()
    let ip ← okOr (AddressParsers.parseIp value) ()
    .ok (some ip.toCanonical)
  | _ => .error ()

/-- The address of the client, when the request has a connection peer. -/
def canonicalClientAddr (headers : HeaderMap) (peer : Option IpAddr) (policy : ClientIpPolicy) :
    Option IpAddr := do
  let peerIp ← peer.map IpAddr.toCanonical
  if !policy.trusts peerIp then some peerIp
  else
    match found : forwardedFor headers with
    | .ok (some chain) => some (forwardedClientIp chain (forwardedFor_ne_nil found) policy)
    | .error () => some peerIp
    | .ok none =>
      match singleIpHeader headers xRealIp with
      | .ok (some ip) => some ip
      | .ok none | .error () => some peerIp

theorem canonicalClientAddr_chain (trusts : policy.trusts peer.toCanonical = true)
    {chain : List IpAddr} (found : forwardedFor headers = .ok (some chain)) :
    canonicalClientAddr headers (some peer) policy =
      some (forwardedClientIp chain (forwardedFor_ne_nil found) policy) := by
  simp only [canonicalClientAddr, map_some, bind, bind_some, trusts, Bool.not_true,
    Bool.false_eq_true, if_false]
  split
  · next other read =>
    obtain rfl : other = chain := by simpa [found] using read.symm
    rfl
  · next read => simp [found] at read
  · next read => simp [found] at read

theorem canonicalClientAddr_malformed (trusts : policy.trusts peer.toCanonical = true)
    (found : forwardedFor headers = .error ()) :
    canonicalClientAddr headers (some peer) policy = some peer.toCanonical := by
  simp only [canonicalClientAddr, map_some, bind, bind_some, trusts, Bool.not_true,
    Bool.false_eq_true, if_false]
  split
  · next read => simp [found] at read
  · rfl
  · next read => simp [found] at read

end Model

section Forwarding

theorem toCanonical_idem (ip : IpAddr) : ip.toCanonical.toCanonical = ip.toCanonical := by
  cases ip with
  | v4 bits => rfl
  | v6 bits =>
    by_cases mapped : bits.extractLsb' 32 96 = 0xffff#96
    · rw [IpAddr.toCanonical, if_pos mapped, IpAddr.toCanonical]
    · rw [IpAddr.toCanonical, if_neg mapped, IpAddr.toCanonical, if_neg mapped]

@[simp] theorem trusts_toCanonical (policy : ClientIpPolicy) (ip : IpAddr) :
    policy.trusts ip.toCanonical = policy.trusts ip := by
  rw [ClientIpPolicy.trusts, toCanonical_idem]
  rfl

/-- Past trusted hops, the nearest other one is the client. -/
theorem forwardedClientIp_of_trusted {policy : ClientIpPolicy} {sent trusted : List IpAddr}
    {client : IpAddr} (untrusted : policy.trusts client = false)
    (trusts : ∀ ip ∈ trusted, policy.trusts ip = true) (nonempty : sent ++ client :: trusted ≠ []) :
    forwardedClientIp (sent ++ client :: trusted) nonempty policy = client := by
  have skipped : (trusted.reverse.find? fun ip => !policy.trusts ip) = none := by
    rw [List.find?_eq_none]
    intro ip member
    simp [trusts ip (List.mem_reverse.mp member)]
  simp [forwardedClientIp, List.find?_append, skipped, untrusted]

theorem forall₂_of_forall {α β : Type} {relates : α → β → Prop} {items : List α}
    (each : ∀ item ∈ items, ∃ value, relates item value) :
    ∃ values, List.Forall₂ relates items values := by
  induction items with
  | nil => exact ⟨[], .nil⟩
  | cons item items ih =>
    obtain ⟨own, others⟩ := List.forall_mem_cons.mp each
    obtain ⟨value, related⟩ := own
    obtain ⟨values, rest⟩ := ih others
    exact ⟨value :: values, .cons related rest⟩

theorem forall₂_append_left {α β : Type} {relates : α → β → Prop} {front back : List α}
    {items : List β} : List.Forall₂ relates (front ++ back) items ↔
      ∃ left right, List.Forall₂ relates front left ∧ List.Forall₂ relates back right ∧
        items = left ++ right := by
  constructor
  · induction front generalizing items with
    | nil => exact fun related => ⟨[], items, .nil, related, rfl⟩
    | cons first front ih =>
      rw [cons_append, forall₂_cons_left_iff]
      rintro ⟨item, rest, own, others, rfl⟩
      obtain ⟨left, right, related, related', rfl⟩ := ih others
      exact ⟨item :: left, right, .cons own related, related', rfl⟩
  · rintro ⟨left, right, related, related', rfl⟩
    exact rel_append related related'

theorem toStr?_comma {front back : HeaderValue} {text : String} :
    toStr? (front ++ 44 :: back) = some text ↔
      ∃ left right, toStr? front = some left ∧ toStr? back = some right ∧
        text = left ++ (String.singleton ',' ++ right) := by
  have comma : isVisible 44 = true := rfl
  unfold toStr?
  simp only [all_append, all_cons, comma, Bool.true_and, Bool.and_eq_true]
  by_cases first : front.all isVisible = true <;> by_cases second : back.all isVisible = true <;>
    simp [first, second, eq_comm]

variable [AddressParsers]

/-- What a proxy adds to the chain: the address it was called from, in any spelling. -/
structure Hop where
  address : IpAddr
  text : HeaderValue
  spells : Spells text [address.toCanonical]

/-- Proxies add hops to the lines they were sent, each to the end of the last line or on
a line of its own. -/
inductive Forwards : List HeaderValue → List Hop → List HeaderValue → Prop where
  | done {lines : List HeaderValue} : Forwards lines [] lines
  | element {earlier final : List HeaderValue} {last : HeaderValue} {hop : Hop} {hops : List Hop} :
      Forwards (earlier ++ [last ++ 44 :: hop.text]) hops final →
      Forwards (earlier ++ [last]) (hop :: hops) final
  | line {lines final : List HeaderValue} {hop : Hop} {hops : List Hop} :
      Forwards (lines ++ [hop.text]) hops final → Forwards lines (hop :: hops) final

/-- Every entry of a line is an address. -/
def WellFormed (value : HeaderValue) : Prop :=
  ∃ text, toStr? value = some text ∧ ∀ entry ∈ Text.split ',' text, Text.trim entry ≠ "" ∧
    ∃ ip, forwardedEntryIp (Text.trim entry) = .ok ip

variable {lines final : List HeaderValue} {hops : List Hop}

theorem spells_comma {front back : HeaderValue} {addresses : List IpAddr} :
    Spells (front ++ 44 :: back) addresses ↔
      ∃ left right, Spells front left ∧ Spells back right ∧ addresses = left ++ right := by
  simp only [Spells, toStr?_comma]
  constructor
  · rintro ⟨_, ⟨first, second, read, read', rfl⟩, spelled⟩
    rw [Text.split_append, forall₂_append_left] at spelled
    obtain ⟨left, right, spells, spells', rfl⟩ := spelled
    exact ⟨left, right, ⟨first, read, spells⟩, ⟨second, read', spells'⟩, rfl⟩
  · rintro ⟨left, right, ⟨first, read, spells⟩, ⟨second, read', spells'⟩, rfl⟩
    refine ⟨_, ⟨first, second, read, read', rfl⟩, ?_⟩
    rw [Text.split_append]
    exact rel_append spells spells'

theorem spellsChain_snoc {value : HeaderValue} {chain : List IpAddr} :
    SpellsChain (lines ++ [value]) chain ↔
      ∃ front back, SpellsChain lines front ∧ Spells value back ∧ chain = front ++ back := by
  simp only [SpellsChain, forall₂_append_left, forall₂_cons_left_iff, forall₂_nil_left_iff]
  constructor
  · rintro ⟨_, ⟨parts, _, spelled, ⟨own, _, spells, rfl, rfl⟩, rfl⟩, rfl⟩
    exact ⟨_, own, ⟨parts, spelled, rfl⟩, spells, by simp⟩
  · rintro ⟨_, own, ⟨parts, spelled, rfl⟩, spells, rfl⟩
    exact ⟨_, ⟨parts, _, spelled, ⟨own, _, spells, rfl, rfl⟩, rfl⟩, by simp⟩

theorem denotes_unique : Relator.RightUnique Denotes := by
  intro entry ip other denotes denotes'
  obtain ⟨found, parsed, rfl⟩ := denotes.parsed
  obtain ⟨found', parsed', rfl⟩ := denotes'.parsed
  rw [Except.ok.inj (parsed.symm.trans parsed')]

theorem Spells.unique {value : HeaderValue} {left right : List IpAddr} (spells : Spells value left)
    (spells' : Spells value right) : left = right := by
  obtain ⟨text, read, spelled⟩ := spells
  obtain ⟨text', read', spelled'⟩ := spells'
  obtain rfl := Option.some.inj (read.symm.trans read')
  exact right_unique_forall₂' denotes_unique spelled spelled'

/-- The chain is what the client sent, followed by what the proxies added. -/
theorem Forwards.chain (forwards : Forwards lines hops final) {chain : List IpAddr} :
    SpellsChain final chain ↔
      ∃ sent, SpellsChain lines sent ∧ chain = sent ++ hops.map fun hop => hop.address.toCanonical := by
  induction forwards with
  | done => simp
  | @element earlier final last hop hops forwards ih =>
    rw [ih]
    simp only [spellsChain_snoc, spells_comma]
    constructor
    · rintro ⟨_, ⟨front, _, spelled, ⟨back, own, spells, spells', rfl⟩, rfl⟩, rfl⟩
      obtain rfl := spells'.unique hop.spells
      exact ⟨front ++ back, ⟨front, back, spelled, spells, rfl⟩, by simp⟩
    · rintro ⟨_, ⟨front, back, spelled, spells, rfl⟩, rfl⟩
      exact ⟨_, ⟨front, _, spelled, ⟨back, _, spells, hop.spells, rfl⟩, rfl⟩, by simp⟩
  | @line lines final hop hops forwards ih =>
    rw [ih]
    simp only [spellsChain_snoc]
    constructor
    · rintro ⟨_, ⟨front, own, spelled, spells, rfl⟩, rfl⟩
      obtain rfl := spells.unique hop.spells
      exact ⟨front, spelled, by simp⟩
    · rintro ⟨sent, spelled, rfl⟩
      exact ⟨_, ⟨sent, _, spelled, hop.spells, rfl⟩, by simp⟩

theorem Forwards.ne_nil (forwards : Forwards lines hops final) (some_ : lines ≠ [] ∨ hops ≠ []) :
    final ≠ [] := by
  induction forwards with
  | done => simpa using some_
  | element _ ih => exact ih (.inl (by simp))
  | line _ ih => exact ih (.inl (by simp))

theorem WellFormed.spells {value : HeaderValue} (wellFormed : WellFormed value) :
    ∃ addresses, Spells value addresses := by
  obtain ⟨text, read, entries⟩ := wellFormed
  obtain ⟨addresses, spelled⟩ : ∃ addresses, List.Forall₂ Denotes (Text.split ',' text) addresses := by
    refine forall₂_of_forall fun entry member => ?_
    obtain ⟨nonempty, ip, parsed⟩ := entries entry member
    exact ⟨ip.toCanonical, nonempty, ip, parsed, rfl⟩
  exact ⟨addresses, text, read, spelled⟩

theorem wellFormed_chain (wellFormed : ∀ value ∈ lines, WellFormed value) :
    ∃ chain, SpellsChain lines chain := by
  obtain ⟨parts, spelled⟩ := forall₂_of_forall fun value member => (wellFormed value member).spells
  exact ⟨_, parts, spelled, rfl⟩

/-- Behind trusted proxies, what is recorded is decided by the chain the client began. -/
theorem canonicalClientAddr_forwarded {policy : ClientIpPolicy} {headers : HeaderMap}
    {peer : IpAddr} {own : Hop} (trusted : policy.trusts peer = true)
    (untrusted : policy.trusts own.address = false)
    (trusts : ∀ hop ∈ hops, policy.trusts hop.address = true)
    (forwards : Forwards lines (own :: hops) (headers.getAll xForwardedFor)) :
    ((∃ sent, SpellsChain lines sent) →
      canonicalClientAddr headers (some peer) policy = some own.address.toCanonical) ∧
    ((¬ ∃ sent, SpellsChain lines sent) →
      canonicalClientAddr headers (some peer) policy = some peer.toCanonical) := by
  have present := forwards.ne_nil (.inr (by simp))
  have believes : policy.trusts peer.toCanonical = true := by simpa using trusted
  constructor
  · rintro ⟨sent, spelled⟩
    have found := forwardedFor_eq_some.mpr ⟨present, forwards.chain.mpr ⟨sent, spelled, rfl⟩⟩
    rw [canonicalClientAddr_chain believes found]
    refine congrArg some (forwardedClientIp_of_trusted (by simpa using untrusted) ?_ _)
    intro ip member
    obtain ⟨hop, listed, rfl⟩ := List.mem_map.mp member
    simpa using trusts hop listed
  · intro malformed
    refine canonicalClientAddr_malformed believes ?_
    cases found : forwardedFor headers with
    | error => rfl
    | ok chain =>
      cases chain with
      | none =>
        simp only [forwardedFor, bind_eq_ok, Except.ok.injEq] at found
        obtain ⟨_, -, empty⟩ := found
        simp [present] at empty
      | some chain =>
        obtain ⟨sent, spelled, -⟩ := forwards.chain.mp (forwardedFor_eq_some.mp found).2
        exact absurd ⟨sent, spelled⟩ malformed

/-- A client cannot choose its recorded address. Behind a trusted peer, whatever lines the
client began the chain with, once proxies have added its address and any number of
trusted hops, it is recorded under its own address or the peer's, and under its own when
its lines are well formed. Behind any other peer it is recorded under the peer's. -/
theorem canonicalClientAddr_unforgeable (policy : ClientIpPolicy) (peer : IpAddr)
    (headers : HeaderMap) :
    (policy.trusts peer = false →
      canonicalClientAddr headers (some peer) policy = some peer.toCanonical) ∧
    (policy.trusts peer = true → ∀ (lines : List HeaderValue) (own : Hop) (hops : List Hop),
      policy.trusts own.address = false → (∀ hop ∈ hops, policy.trusts hop.address = true) →
      Forwards lines (own :: hops) (headers.getAll xForwardedFor) →
      (canonicalClientAddr headers (some peer) policy = some own.address.toCanonical ∨
        canonicalClientAddr headers (some peer) policy = some peer.toCanonical) ∧
      ((∀ value ∈ lines, WellFormed value) →
        canonicalClientAddr headers (some peer) policy = some own.address.toCanonical)) := by
  constructor
  · intro distrusts
    have untrusted : policy.trusts peer.toCanonical = false := by simpa using distrusts
    simp [canonicalClientAddr, untrusted]
  · intro trusted lines own hops untrusted trusts forwards
    obtain ⟨begun, malformed⟩ := canonicalClientAddr_forwarded trusted untrusted trusts forwards
    refine ⟨?_, fun wellFormed => begun (wellFormed_chain wellFormed)⟩
    by_cases spelled : ∃ sent, SpellsChain lines sent
    · exact .inl (begun spelled)
    · exact .inr (malformed spelled)

end Forwarding

section Sample

/-- Addresses of one digit. -/
@[reducible] def sampleParsers : AddressParsers where
  parseIp text := if text = "1" then some (.v4 1) else if text = "2" then some (.v4 2) else none
  parseSocket text := if text = "2:8" then some (.v4 2) else none
  parseIpv6 _ := none

attribute [local instance] sampleParsers

def samplePolicy : ClientIpPolicy := { trustedProxyCidrs := [.v4 1 32] }

/-- The client's own address, with its port. -/
def sampleClient : Hop where
  address := .v4 2
  text := [32, 50, 58, 56]
  spells := ⟨" 2:8", rfl, .cons ⟨by decide, .v4 2, rfl, rfl⟩ .nil⟩

def sampleProxy : Hop where
  address := .v4 1
  text := [49]
  spells := ⟨"1", rfl, .cons ⟨by decide, .v4 1, rfl, rfl⟩ .nil⟩

/-- A client that forges a trusted hop is still recorded under its own address. -/
theorem canonicalClientAddr_unforgeable_sample :
    canonicalClientAddr
      { lines := [(xForwardedFor, [49, 44, 32, 50, 58, 56]), (xRealIp, [49]), (xForwardedFor, [49])] }
      (some (.v4 1)) samplePolicy = some (.v4 2) := by
  have forged : WellFormed [49] := ⟨"1", rfl, List.forall_mem_singleton.mpr ⟨by decide, .v4 1, rfl⟩⟩
  have added : Forwards ([] ++ [[49] ++ 44 :: sampleClient.text]) [sampleProxy]
      [[49, 44, 32, 50, 58, 56], [49]] := .line .done
  refine ((canonicalClientAddr_unforgeable samplePolicy (.v4 1) _).2 (by decide) [[49]] sampleClient
    [sampleProxy] (by decide) (by decide) ?_).2 (List.forall_mem_singleton.mpr forged)
  exact Forwards.element added

end Sample

end GreenGateway.Network
