import GreenGateway.Foundation.Guards
import GreenGateway.Network.Prefixes

/-! Which addresses are global, with IPv4 addresses that are mapped or embedded in IPv6
ones judged as what they are, and the NAT64 prefixes a configuration may name. -/

namespace GreenGateway.Network

open Foundation Rbac

section Registries

def net4 (a b c d : BitVec 8) (length : Fin 33) : IpNet := .v4 (a ++ b ++ c ++ d) length

def net6 (a b c d e f g h : BitVec 16) (length : Fin 129) : IpNet :=
  .v6 (a ++ b ++ c ++ d ++ e ++ f ++ g ++ h) length

def ipv4GlobalExceptions : List IpNet := [net4 192 0 0 9 32, net4 192 0 0 10 32]

def ipv4NonGlobalRanges : List IpNet :=
  [net4 0 0 0 0 8, net4 10 0 0 0 8, net4 100 64 0 0 10, net4 127 0 0 0 8, net4 169 254 0 0 16,
    net4 172 16 0 0 12, net4 192 0 0 0 24, net4 192 0 2 0 24, net4 192 88 99 0 24,
    net4 192 168 0 0 16, net4 198 18 0 0 15, net4 198 51 100 0 24, net4 203 0 113 0 24,
    net4 224 0 0 0 4, net4 240 0 0 0 4]

def ipv6GlobalExceptions : List IpNet :=
  [net6 0x2001 1 0 0 0 0 0 1 128, net6 0x2001 1 0 0 0 0 0 2 128, net6 0x2001 1 0 0 0 0 0 3 128,
    net6 0x2001 3 0 0 0 0 0 0 32, net6 0x2001 4 0x112 0 0 0 0 0 48, net6 0x2001 0x20 0 0 0 0 0 0 28,
    net6 0x2001 0x30 0 0 0 0 0 0 28]

def ipv6NonGlobalRanges : List IpNet :=
  [net6 0 0 0 0 0 0 0 0 128, net6 0 0 0 0 0 0 0 1 128, net6 0x64 0xff9b 1 0 0 0 0 0 48,
    net6 0x100 0 0 0 0 0 0 0 64, net6 0x100 0 0 1 0 0 0 0 64, net6 0x2001 0 0 0 0 0 0 0 23,
    net6 0x2001 0xdb8 0 0 0 0 0 0 32, net6 0x2002 0 0 0 0 0 0 0 16, net6 0x3fff 0 0 0 0 0 0 0 20,
    net6 0x5f00 0 0 0 0 0 0 0 16, net6 0xfc00 0 0 0 0 0 0 0 7, net6 0xfe80 0 0 0 0 0 0 0 10,
    net6 0xfec0 0 0 0 0 0 0 0 10, net6 0xff00 0 0 0 0 0 0 0 8]

def ipv6GlobalUnicast : IpNet := net6 0x2000 0 0 0 0 0 0 0 3

def wellKnownNat64 : IpNet := net6 0x64 0xff9b 0 0 0 0 0 0 96

end Registries

section Classification

inductive Nat64Address where
  | notNat64
  | embedded (address : BitVec 32)
  | malformed
  deriving DecidableEq, Repr

/-- `Ipv6Addr::octets`, by index. -/
def octet (bits : BitVec 128) (index : Nat) : BitVec 8 := bits.extractLsb' (120 - 8 * index) 8

/-- `Ipv6Addr::to_ipv4_mapped`. -/
def toIpv4Mapped (bits : BitVec 128) : Option (BitVec 32) :=
  if bits.extractLsb' 32 96 = 0xffff#96 then some (bits.extractLsb' 0 32) else none

/-- The prefix lengths of RFC 6052. -/
def rfc6052Lengths : List Nat := [32, 40, 48, 56, 64, 96]

/-- The IPv4 address embedded after a prefix of the given length, around the `u` octet. -/
def extractRfc6052Ipv4 (bits : BitVec 128) (prefixLen : Nat) : Option (BitVec 32) :=
  if prefixLen ∉ rfc6052Lengths ∨ octet bits 8 ≠ 0 then none
  else if prefixLen = 96 then some (bits.setWidth 32)
  else
    let leadingBits := 64 - prefixLen
    let trailingBits := 32 - leadingBits
    let leading : BitVec 32 :=
      if leadingBits = 0 then 0
      else ((bits >>> 64) &&& ((1#128 <<< leadingBits) - 1)).setWidth 32
    let trailing : BitVec 32 :=
      if trailingBits = 0 then 0
      else
        let shift := 128 - (72 + trailingBits)
        ((bits >>> shift) &&& ((1#128 <<< trailingBits) - 1)).setWidth 32
    let value : BitVec 64 := (leading.setWidth 64 <<< trailingBits) ||| trailing.setWidth 64
    some (value.setWidth 32)

/-- What an address under a prefix is, by the address extracted from it. -/
def Nat64Address.ofExtracted : Option (BitVec 32) → Nat64Address
  | some address => .embedded address
  | none => .malformed

def classifyNat64Address (ip : BitVec 128) (configured : List IpNet) : Nat64Address :=
  let found :=
    if wellKnownNat64.contains (.v6 ip) then some wellKnownNat64
    else configured.find? fun net => net.contains (.v6 ip)
  match found with
  | none => .notNat64
  | some net => .ofExtracted (extractRfc6052Ipv4 ip net.prefixLen)

def isNonGlobalIpv4 (ip : BitVec 32) : Bool :=
  if ipv4GlobalExceptions.any fun net => net.contains (.v4 ip) then false
  else ipv4NonGlobalRanges.any fun net => net.contains (.v4 ip)

def isNonGlobalIp (ip : IpAddr) (nat64Prefixes : List IpNet) : Bool :=
  match ip with
  | .v4 ip => isNonGlobalIpv4 ip
  | .v6 ip =>
    match toIpv4Mapped ip with
    | some address => isNonGlobalIpv4 address
    | none =>
      match classifyNat64Address ip nat64Prefixes with
      | .embedded address => isNonGlobalIpv4 address
      | .malformed => true
      | .notNat64 =>
        if ipv6GlobalExceptions.any fun net => net.contains (.v6 ip) then false
        else
          (ipv6NonGlobalRanges.any fun net => net.contains (.v6 ip)) ||
            !ipv6GlobalUnicast.contains (.v6 ip)

end Classification

section Configuration

/-- The spelling of networks in the `ipnet` crate. -/
class NetworkTexts where
  parse : String → Except String IpNet
  display : IpNet → String

/-- Why an environment variable has no text. -/
inductive VarError where
  | notPresent
  /-- The value as the debug format shows it. -/
  | notUnicode (shown : String)

/-- Whether either network holds the other's first address. -/
def overlaps (one two : IpNet) : Bool :=
  one.contains two.networkAddr || two.contains one.networkAddr

variable [NetworkTexts]

/-- The IPv6 network an entry spells, of an RFC 6052 length. -/
def parseNat64Net (name entry : String) : Except String (BitVec 128 × Fin 129) :=
  match NetworkTexts.parse entry with
  | .ok (.v6 addr length) =>
    if length.val ∈ rfc6052Lengths then .ok (addr, length)
    else
      let given := toString length.val
      .error s!"{name} entries must use an RFC 6052 prefix length of 32, 40, 48, 56, 64, or 96, got '/{given}' in '{entry}'"
  | .ok (.v4 _ _) => .error s!"{name} entries must be IPv6 CIDR prefixes, got '{entry}'"
  | .error err => .error s!"{name} entries must be valid IPv6 CIDR prefixes, got '{entry}': {err}"

/-- The checks of one entry, against the networks accepted before it. -/
def parseNat64Entry (name : String) (accepted : List IpNet)
    (entry : String) : Except String IpNet := do
  let (addr, length) ← parseNat64Net name entry
  refuse (octet (IpNet.network addr length) 8 != 0)
    s!"{name} entries must use a zero RFC 6052 u octet, got '{entry}'"
  let net := IpNet.v6 addr length
  let shown := NetworkTexts.display net
  refuse (overlaps wellKnownNat64 net)
    s!"{name} entries must not overlap the built-in well-known NAT64 prefix 64:ff9b::/96, got '{shown}'"
  match accepted.find? fun existing => overlaps existing net with
  | some existing =>
    let other := NetworkTexts.display existing
    .error s!"{name} entries must not overlap, got '{shown}' and '{other}'"
  | none => .ok net

/-- The networks accepted so far and the problems found, after one more entry. -/
def takeNat64Entry (name : String) (state : List IpNet × List String) (entry : String) :
    List IpNet × List String :=
  match parseNat64Entry name state.1 entry with
  | .ok net => (state.1 ++ [net], state.2)
  | .error problem => (state.1, state.2 ++ [problem])

/-- The NAT64 prefixes of a configuration, and its problems. -/
def parseNat64Prefixes (name : String)
    (value : Except VarError String) : List IpNet × List String :=
  match value with
  | .error .notPresent => ([], [])
  | .error (.notUnicode shown) => ([], [s!"{name} must be valid Unicode, got {shown}"])
  | .ok value =>
    (((Text.split ',' value).map Text.trim).filter (· != "")).foldl (takeNat64Entry name) ([], [])

end Configuration

end GreenGateway.Network
