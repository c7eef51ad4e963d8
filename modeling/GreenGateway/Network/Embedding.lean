import GreenGateway.Network.Nat64
import Mathlib.Data.List.Pairwise
import Mathlib.Tactic.NormNum

/-! An IPv4 address embedded under an accepted NAT64 prefix is judged as itself, and the
order of the prefixes does not matter. -/

namespace GreenGateway.Network

open Foundation Rbac List

section Accepted

/-- A network that may hold embedded addresses. -/
structure Nat64Net (net : IpNet) : Prop where
  v6 : ∃ addr length, net = .v6 addr length ∧ length.val ∈ rfc6052Lengths ∧
    octet (IpNet.network addr length) 8 = 0
  elsewhere : overlaps wellKnownNat64 net = false

/-- What a configuration's prefixes are. -/
structure Nat64Nets (nets : List IpNet) : Prop where
  each : ∀ net ∈ nets, Nat64Net net
  apart : nets.Pairwise fun one two => overlaps one two = false

variable {nets others : List IpNet} {ip : IpAddr} {name entry : String} {net : IpNet}

theorem overlaps_comm (one two : IpNet) : overlaps one two = overlaps two one := by
  rw [overlaps, overlaps, Bool.or_comm]

instance : Std.Symm fun one two : IpNet => overlaps one two = false :=
  ⟨fun _ _ apart => by rwa [overlaps_comm]⟩

theorem not_both {one two : IpNet} (apart : overlaps one two = false)
    (inside : one.contains ip = true) : two.contains ip = false := by
  rw [Bool.eq_false_iff]
  intro inside'
  rw [overlaps, Bool.or_eq_false_iff] at apart
  rcases IpNet.overlap_of_common inside inside' with first | second
  · rw [first] at apart
    cases apart.1
  · rw [second] at apart
    cases apart.2

theorem Nat64Nets.perm (nets_ : Nat64Nets nets) (same : nets.Perm others) :
    Nat64Nets others where
  each net member := nets_.each net (same.mem_iff.mpr member)
  apart := nets_.apart.perm same fun separate => by rwa [overlaps_comm]

theorem parseNat64Entry_eq_ok [NetworkTexts]
    (accepted : parseNat64Entry name nets entry = .ok net) :
    Nat64Net net ∧ ∀ existing ∈ nets, overlaps existing net = false := by
  simp only [parseNat64Entry, bind_eq_ok, unit_exists_ok, refuse_eq_ok, Prod.exists,
    bne_eq_false_iff_eq] at accepted
  obtain ⟨addr, length, parsed, zero, elsewhere, accepted⟩ := accepted
  have lengths : length.val ∈ rfc6052Lengths := by
    unfold parseNat64Net at parsed
    split at parsed
    · split_ifs at parsed with listed
      · obtain ⟨rfl, rfl⟩ := Prod.mk.inj (Except.ok.inj parsed)
        exact listed
    · cases parsed
    · cases parsed
  split at accepted
  · cases accepted
  · next none =>
    obtain rfl := Except.ok.inj accepted
    rw [List.find?_eq_none] at none
    exact ⟨⟨⟨addr, length, rfl, lengths, zero⟩, elsewhere⟩,
      fun existing member => by simpa using none existing member⟩

theorem takeNat64Entry_nets [NetworkTexts] {state : List IpNet × List String}
    (earlier : Nat64Nets state.1) : Nat64Nets (takeNat64Entry name state entry).1 := by
  unfold takeNat64Entry
  split
  · next net accepted =>
    obtain ⟨own, apart⟩ := parseNat64Entry_eq_ok accepted
    refine ⟨?_, ?_⟩
    · exact List.forall_mem_append.mpr ⟨earlier.each, by simpa using own⟩
    · rw [pairwise_append]
      exact ⟨earlier.apart, by simp, by simpa using apart⟩
  · exact earlier

theorem parseNat64Prefixes_nets [NetworkTexts] (name : String) (value : Except VarError String) :
    Nat64Nets (parseNat64Prefixes name value).1 := by
  have along : ∀ (entries : List String) (state : List IpNet × List String), Nat64Nets state.1 →
      Nat64Nets (entries.foldl (takeNat64Entry name) state).1 := by
    intro entries
    induction entries with
    | nil => exact fun state earlier => earlier
    | cons entry entries ih =>
      exact fun state earlier => ih _ (takeNat64Entry_nets earlier)
  have none : Nat64Nets [] := ⟨by simp, .nil⟩
  unfold parseNat64Prefixes
  split
  · exact none
  · exact none
  · exact along _ _ none

/-- At most one prefix holds an address, so the first found is the only one. -/
theorem Nat64Nets.find?_eq_some (nets_ : Nat64Nets nets) :
    (nets.find? fun net => net.contains ip) = some net ↔ net ∈ nets ∧ net.contains ip = true := by
  constructor
  · intro found
    exact ⟨mem_of_find?_eq_some found, by simpa using List.find?_some found⟩
  · rintro ⟨member, inside⟩
    cases found : nets.find? fun net => net.contains ip with
    | none =>
      rw [List.find?_eq_none] at found
      exact absurd inside (found net member)
    | some other =>
      by_contra different
      have apart := nets_.apart.forall (mem_of_find?_eq_some found) member
        (fun same => different (by rw [same]))
      rw [not_both apart (by simpa using List.find?_some found)] at inside
      cases inside

theorem Nat64Nets.find?_perm (nets_ : Nat64Nets nets) (same : nets.Perm others) (ip : IpAddr) :
    (nets.find? fun net => net.contains ip) = others.find? fun net => net.contains ip := by
  refine Option.ext fun net => ?_
  rw [nets_.find?_eq_some, (nets_.perm same).find?_eq_some, same.mem_iff]

end Accepted

section Embedding

variable {nets : List IpNet} {net : IpNet} {ip addr : BitVec 128} {length count : Nat}

theorem classifyNat64Address_inside (nets_ : Nat64Nets nets) (member : net ∈ nets)
    (inside : net.contains (.v6 ip) = true) :
    classifyNat64Address ip nets = .ofExtracted (extractRfc6052Ipv4 ip net.prefixLen) := by
  have elsewhere : wellKnownNat64.contains (.v6 ip) = false := by
    apply not_both _ inside
    rw [overlaps_comm]
    exact (nets_.each net member).elsewhere
  have found := nets_.find?_eq_some.mpr ⟨member, inside⟩
  simp [classifyNat64Address, elsewhere, found]

theorem octet_toNat (bits : BitVec 128) : (octet bits 8).toNat = bits.toNat / 2 ^ 56 % 2 ^ 8 := by
  rw [octet, BitVec.extractLsb'_toNat, Nat.shiftRight_eq_div_pow]

/-- The upper bits of an IPv4-mapped address. -/
theorem mapped_iff : toIpv4Mapped ip = none ↔ ip.toNat / 2 ^ 32 ≠ 0xffff := by
  rw [toIpv4Mapped]
  have upper : ip.extractLsb' 32 96 = 0xffff#96 ↔ ip.toNat / 2 ^ 32 = 0xffff := by
    rw [← BitVec.toNat_inj, BitVec.extractLsb'_toNat, Nat.shiftRight_eq_div_pow,
      Nat.mod_eq_of_lt (by have := ip.isLt; omega)]
    rfl
  by_cases mapped : ip.extractLsb' 32 96 = 0xffff#96
  · rw [if_pos mapped, upper.mp mapped]
    simp
  · simp only [mapped, if_false, ne_eq, true_iff]
    exact fun same => mapped (upper.mpr same)

/-- `::ffff:0:0/96`. -/
def ipv4Mapped : IpNet := net6 0 0 0 0 0 0xffff 0 0 96

theorem mapped_contains : toIpv4Mapped ip = none ↔ ipv4Mapped.contains (.v6 ip) = false := by
  rw [mapped_iff, ipv4Mapped, net6, Bool.eq_false_iff, ne_eq, ne_eq, IpNet.contains_v6]
  rfl

/-- An address with a set `u` octet is refused as malformed. -/
theorem malformed_nonGlobal (nets_ : Nat64Nets nets) (member : net ∈ nets)
    (inside : net.contains (.v6 ip) = true) (set : octet ip 8 ≠ 0) :
    isNonGlobalIp (.v6 ip) nets = true := by
  have unmapped : toIpv4Mapped ip = none := by
    rw [mapped_iff]
    intro mapped
    apply set
    rw [← BitVec.toNat_inj, octet_toNat]
    change _ = 0
    omega
  have malformed : extractRfc6052Ipv4 ip net.prefixLen = none := by
    rw [extractRfc6052Ipv4, if_pos (.inr set)]
  simp [isNonGlobalIp, unmapped, classifyNat64Address_inside nets_ member inside, malformed,
    Nat64Address.ofExtracted]

/-- The RFC 6052 address of an IPv4 address under a prefix: its upper bits end at bit 64,
and the others follow the `u` octet. -/
def embedRfc6052 (addr : BitVec 128) (length : Nat) (address : BitVec 32) : BitVec 128 :=
  let trailing := length - 32
  BitVec.ofNat 128 <| (IpNet.network addr length).toNat +
    if length = 96 then address.toNat
    else address.toNat / 2 ^ trailing * 2 ^ 64 + address.toNat % 2 ^ trailing * 2 ^ (56 - trailing)

theorem masked_toNat (bits : BitVec 128) (small : count < 128) :
    (bits &&& ((1#128 <<< count) - 1)).toNat = bits.toNat % 2 ^ count := by
  have wide : 2 ^ count < 2 ^ 128 := Nat.pow_lt_pow_right (by decide) small
  have mask : ((1#128 <<< count) - 1).toNat = 2 ^ count - 1 := by
    have positive := Nat.two_pow_pos count
    rw [BitVec.toNat_sub, BitVec.toNat_shiftLeft, Nat.shiftLeft_eq]
    have one : (1 : BitVec 128).toNat = 1 := rfl
    rw [one, BitVec.toNat_ofNat]
    generalize 2 ^ count = value at *
    simp only [Nat.one_mod_two_pow_eq_one.mpr (by decide : 0 < 128), Nat.one_mul]
    omega
  rw [BitVec.toNat_and, mask, Nat.and_two_pow_sub_one_eq_mod]

/-- A run of bits, as the source takes one: none at all when it is empty. -/
theorem field_toNat (small : count ≤ 32) (shift : Nat) :
    (if count = 0 then (0 : BitVec 32)
      else ((ip >>> shift) &&& ((1#128 <<< count) - 1)).setWidth 32).toNat =
        ip.toNat / 2 ^ shift % 2 ^ count := by
  split_ifs with none
  · simp [none, Nat.mod_one]
  · rw [BitVec.toNat_setWidth, masked_toNat _ (by omega), BitVec.toNat_ushiftRight,
      Nat.shiftRight_eq_div_pow, Nat.mod_eq_of_lt]
    exact (Nat.mod_lt _ (Nat.two_pow_pos count)).trans_le (Nat.pow_le_pow_right (by decide) small)

/-- Two fields put together. -/
theorem joined_toNat {upper lower : BitVec 32} (small : count ≤ 32)
    (above : upper.toNat < 2 ^ (32 - count)) (below : lower.toNat < 2 ^ count) :
    (((upper.setWidth 64 <<< count) ||| lower.setWidth 64).setWidth 32).toNat =
      upper.toNat * 2 ^ count + lower.toNat := by
  have fits : upper.toNat * 2 ^ count + lower.toNat < 2 ^ 32 := by
    calc upper.toNat * 2 ^ count + lower.toNat
        < upper.toNat * 2 ^ count + 2 ^ count := by omega
      _ = (upper.toNat + 1) * 2 ^ count := (Nat.succ_mul _ _).symm
      _ ≤ 2 ^ (32 - count) * 2 ^ count := Nat.mul_le_mul_right _ above
      _ = 2 ^ 32 := by rw [← Nat.pow_add, Nat.sub_add_cancel small]
  have wide : upper.toNat * 2 ^ count < 2 ^ 64 := by omega
  rw [BitVec.toNat_setWidth, BitVec.toNat_or, BitVec.toNat_shiftLeft, BitVec.toNat_setWidth,
    BitVec.toNat_setWidth, Nat.mod_eq_of_lt (by omega : upper.toNat < 2 ^ 64),
    Nat.mod_eq_of_lt (by omega : lower.toNat < 2 ^ 64), Nat.shiftLeft_eq, Nat.mod_eq_of_lt wide,
    Nat.mul_comm, ← Nat.two_pow_add_eq_or_of_lt below, Nat.mul_comm, Nat.mod_eq_of_lt fits]

theorem extractRfc6052Ipv4_short (listed : length ∈ rfc6052Lengths) (short : length ≠ 96)
    (zero : octet ip 8 = 0) :
    ∃ address, extractRfc6052Ipv4 ip length = some address ∧ address.toNat =
      ip.toNat / 2 ^ 64 % 2 ^ (64 - length) * 2 ^ (length - 32) +
        ip.toNat / 2 ^ (88 - length) % 2 ^ (length - 32) := by
  have bounds : 32 ≤ length ∧ length ≤ 64 := by
    simp only [rfc6052Lengths, mem_cons, not_mem_nil, or_false] at listed
    omega
  have trailing : 32 - (64 - length) = length - 32 := by omega
  have shift : 128 - (72 + (length - 32)) = 88 - length := by omega
  refine ⟨_, by rw [extractRfc6052Ipv4, if_neg (by simp [listed, zero]), if_neg short], ?_⟩
  simp only [trailing, shift]
  rw [joined_toNat (by omega), field_toNat (by omega), field_toNat (by omega)]
  · rw [field_toNat (by omega), show 32 - (length - 32) = 64 - length by omega]
    exact Nat.mod_lt _ (Nat.two_pow_pos _)
  · rw [field_toNat (by omega)]
    exact Nat.mod_lt _ (Nat.two_pow_pos _)

theorem embedRfc6052_toNat (listed : length ∈ rfc6052Lengths) (address : BitVec 32) :
    (embedRfc6052 addr length address).toNat =
      2 ^ (128 - length) * (addr.toNat / 2 ^ (128 - length)) +
        if length = 96 then address.toNat
        else address.toNat / 2 ^ (length - 32) * 2 ^ 64 +
          address.toNat % 2 ^ (length - 32) * 2 ^ (56 - (length - 32)) := by
  have small := address.isLt
  have bound := addr.isLt
  simp only [rfc6052Lengths, mem_cons, not_mem_nil, or_false] at listed
  rw [embedRfc6052, BitVec.toNat_ofNat, IpNet.network_toNat (by omega)]
  apply Nat.mod_eq_of_lt
  rcases listed with rfl | rfl | rfl | rfl | rfl | rfl <;> norm_num <;> omega

theorem embedRfc6052_contained {length : Fin 129} (listed : length.val ∈ rfc6052Lengths)
    (address : BitVec 32) :
    (IpNet.v6 addr length).contains (.v6 (embedRfc6052 addr length address)) = true := by
  have small := address.isLt
  rw [IpNet.contains_v6, embedRfc6052_toNat listed]
  generalize length.val = length at listed
  simp only [rfc6052Lengths, mem_cons, not_mem_nil, or_false] at listed
  rcases listed with rfl | rfl | rfl | rfl | rfl | rfl <;> norm_num <;> omega

theorem embedRfc6052_octet (listed : length ∈ rfc6052Lengths)
    (zero : octet (IpNet.network addr length) 8 = 0) (address : BitVec 32) :
    octet (embedRfc6052 addr length address) 8 = 0 := by
  have small := address.isLt
  have clear := congrArg BitVec.toNat zero
  have nothing : (0 : BitVec 8).toNat = 0 := rfl
  rw [← BitVec.toNat_inj, octet_toNat, embedRfc6052_toNat listed, nothing]
  simp only [rfc6052Lengths, mem_cons, not_mem_nil, or_false] at listed
  rw [octet_toNat, IpNet.network_toNat (by omega), nothing] at clear
  rcases listed with rfl | rfl | rfl | rfl | rfl | rfl <;> norm_num at clear ⊢ <;> omega

/-- What is embedded is extracted again. -/
theorem extractRfc6052Ipv4_embed (listed : length ∈ rfc6052Lengths)
    (zero : octet (IpNet.network addr length) 8 = 0) (address : BitVec 32) :
    extractRfc6052Ipv4 (embedRfc6052 addr length address) length = some address := by
  have small := address.isLt
  have clear := embedRfc6052_octet listed zero address
  by_cases long : length = 96
  · rw [extractRfc6052Ipv4, if_neg (by simp [listed, clear]), if_pos long, Option.some_inj,
      ← BitVec.toNat_inj, BitVec.toNat_setWidth, embedRfc6052_toNat listed, if_pos long, long]
    norm_num
    omega
  · obtain ⟨extracted, found, value⟩ := extractRfc6052Ipv4_short listed long clear
    rw [found, Option.some_inj, ← BitVec.toNat_inj, value, embedRfc6052_toNat listed, if_neg long]
    simp only [rfc6052Lengths, mem_cons, not_mem_nil, or_false, long] at listed
    rcases listed with rfl | rfl | rfl | rfl | rfl <;> norm_num <;> omega

theorem embedded_nonGlobal (nets_ : Nat64Nets nets) {length : Fin 129}
    (member : IpNet.v6 addr length ∈ nets)
    (disjoint : ∀ ip, (IpNet.v6 addr length).contains ip = true → ipv4Mapped.contains ip = false)
    (address : BitVec 32) :
    isNonGlobalIp (.v6 (embedRfc6052 addr length address)) nets = isNonGlobalIpv4 address := by
  obtain ⟨_, _, same, listed, zero⟩ := (nets_.each _ member).v6
  obtain ⟨rfl, rfl⟩ := IpNet.v6.inj same
  have inside : (IpNet.v6 addr length).contains (.v6 (embedRfc6052 addr length address)) = true :=
    embedRfc6052_contained listed address
  have extracted := extractRfc6052Ipv4_embed listed zero address
  have unmapped := mapped_contains.mpr (disjoint _ inside)
  simp only [isNonGlobalIp, unmapped, classifyNat64Address_inside nets_ member inside,
    IpNet.prefixLen, extracted, Nat64Address.ofExtracted]

end Embedding

end GreenGateway.Network
