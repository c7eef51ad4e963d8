import GreenGateway.Rbac.Model

/-! Networks as blocks of addresses: a network holds the addresses that share its leading
bits, and of two networks with an address in common one holds the other's first. -/

namespace GreenGateway.Rbac.IpNet

section Blocks

variable {width length : Nat} {addr other : BitVec width}

theorem hostmask_bit (index : Nat) :
    (hostmask width length).getLsbD index = decide (index + length < width) := by
  unfold hostmask
  split_ifs with zero
  · simp [zero]
  · simp [Nat.add_comm]

theorem network_toNat (within : length ≤ width) : (network addr length).toNat =
    2 ^ (width - length) * (addr.toNat / 2 ^ (width - length)) := by
  apply Nat.eq_of_testBit_eq
  intro index
  rw [Nat.testBit_two_pow_mul, Nat.testBit_div_two_pow, BitVec.testBit_toNat, network,
    BitVec.getLsbD_and, BitVec.getLsbD_not, hostmask_bit, ← BitVec.getLsbD]
  by_cases low : index < width - length
  · have inside : index + length < width := by omega
    simp [inside]
  · have outside : ¬ index + length < width := by omega
    have position : index - (width - length) + (width - length) = index := by omega
    simp only [outside, decide_false, Bool.not_false, Bool.and_true, position, ge_iff_le,
      Nat.not_lt.mp low, decide_true, Bool.true_and, Bool.and_eq_left_iff_imp, decide_eq_true_eq]
    exact BitVec.lt_of_getLsbD

theorem broadcast_toNat (within : length ≤ width) : (broadcast addr length).toNat =
    2 ^ (width - length) * (addr.toNat / 2 ^ (width - length)) + (2 ^ (width - length) - 1) := by
  apply Nat.eq_of_testBit_eq
  intro index
  have small : 2 ^ (width - length) - 1 < 2 ^ (width - length) :=
    Nat.sub_lt (Nat.two_pow_pos _) Nat.one_pos
  rw [Nat.testBit_two_pow_mul_add _ small, Nat.testBit_div_two_pow, BitVec.testBit_toNat, broadcast,
    BitVec.getLsbD_or, hostmask_bit, Nat.testBit_two_pow_sub_one]
  by_cases low : index < width - length
  · have inside : index + length < width := by omega
    simp [inside, low]
  · have outside : ¬ index + length < width := by omega
    have position : index - (width - length) + (width - length) = index := by omega
    simp only [outside, decide_false, Bool.or_false, low, if_false, position]
    rfl

/-- Between a network's first and last address lie those that share its leading bits. -/
theorem between_iff (within : length ≤ width) :
    network addr length ≤ other ∧ other ≤ broadcast addr length ↔
      other.toNat / 2 ^ (width - length) = addr.toNat / 2 ^ (width - length) := by
  have positive := Nat.two_pow_pos (width - length)
  rw [BitVec.le_def, BitVec.le_def, network_toNat within, broadcast_toNat within,
    Nat.div_eq_iff positive]
  generalize addr.toNat / 2 ^ (width - length) = block
  rw [Nat.mul_comm]
  omega

/-- Of two blocks with an address in common, the larger holds the smaller's first. -/
theorem between_network {length' : Nat} {addr' : BitVec width} (shorter : length ≤ length')
    (within : length' ≤ width)
    (inside : network addr length ≤ other ∧ other ≤ broadcast addr length)
    (inside' : network addr' length' ≤ other ∧ other ≤ broadcast addr' length') :
    network addr length ≤ network addr' length' ∧ network addr' length' ≤ broadcast addr length := by
  rw [between_iff (shorter.trans within)] at inside ⊢
  rw [between_iff within] at inside'
  have deeper : ∀ value : Nat, value / 2 ^ (width - length) =
      value / 2 ^ (width - length') / 2 ^ (length' - length) := by
    intro value
    rw [Nat.div_div_eq_div_mul, ← Nat.pow_add]
    congr 2
    omega
  rw [← inside, network_toNat within, deeper, Nat.mul_div_cancel_left _ (Nat.two_pow_pos _),
    ← inside',
    ← deeper]

end Blocks

def prefixLen : IpNet → Nat
  | .v4 _ length => length
  | .v6 _ length => length

/-- `IpNet::network`: the first address. -/
def networkAddr : IpNet → IpAddr
  | .v4 addr length => .v4 (network addr length)
  | .v6 addr length => .v6 (network addr length)

theorem contains_v6 {addr other : BitVec 128} {length : Fin 129} :
    (v6 addr length).contains (.v6 other) = true ↔
      other.toNat / 2 ^ (128 - length.val) = addr.toNat / 2 ^ (128 - length.val) := by
  rw [contains, Bool.and_eq_true, decide_eq_true_iff, decide_eq_true_iff,
    between_iff (Nat.lt_succ_iff.mp length.isLt)]

/-- Networks with an address in common overlap, as the check of their first addresses
finds. -/
theorem overlap_of_common {one two : IpNet} {ip : IpAddr} (inside : one.contains ip = true)
    (inside' : two.contains ip = true) :
    one.contains two.networkAddr = true ∨ two.contains one.networkAddr = true := by
  rcases one with ⟨addr, length⟩ | ⟨addr, length⟩ <;>
    rcases two with ⟨addr', length'⟩ | ⟨addr', length'⟩ <;> rcases ip with other | other <;>
    simp only [contains, Bool.false_eq_true, Bool.and_eq_true, decide_eq_true_eq, networkAddr]
      at inside inside' ⊢
  all_goals
    rcases Nat.le_total length.val length'.val with shorter | shorter
    · exact .inl (between_network shorter (Nat.lt_succ_iff.mp length'.isLt) inside inside')
    · exact .inr (between_network shorter (Nat.lt_succ_iff.mp length.isLt) inside' inside)

end GreenGateway.Rbac.IpNet
