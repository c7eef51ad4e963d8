import Mathlib.Data.List.Induction
import GreenGateway.Foundation.Words

/-! Reading a `grpc-timeout` header value. -/

namespace GreenGateway.Proxy

open Foundation List

section Reading

def maxTimeoutValueBytes : Nat := 9

inductive GrpcStatus where
  | ok
  | cancelled
  | unknown
  | invalidArgument
  | deadlineExceeded
  | permissionDenied
  | resourceExhausted
  | unimplemented
  | internal
  | unavailable
  | unauthenticated
  deriving DecidableEq, Repr

structure ProtocolRejection where
  status : GrpcStatus
  reason : String
  deriving DecidableEq, Repr

def ProtocolRejection.invalid (reason : String) : ProtocolRejection :=
  { status := .invalidArgument, reason }

/-- What `HeaderValue::to_str` takes: visible ASCII and the tab. -/
def isVisibleAscii (byte : UInt8) : Bool := decide (32 ≤ byte.toNat ∧ byte.toNat < 127) || byte == 9

def isAsciiDigit (byte : UInt8) : Bool := decide (48 ≤ byte.toNat ∧ byte.toNat ≤ 57)

def decimal (digits : List UInt8) : Nat :=
  digits.foldl (fun value digit => value * 10 + (digit.toNat - 48)) 0

/-- `str::parse::<u64>` on digits. -/
def parseU64 (digits : List UInt8) : Option UInt64 :=
  if u64Max < decimal digits then none else some (UInt64.ofNat (decimal digits))

def nanosPerUnit : List UInt8 → Option UInt64
  | [72] => some 3600000000000
  | [77] => some 60000000000
  | [83] => some 1000000000
  | [109] => some 1000000
  | [117] => some 1000
  | [110] => some 1
  | _ => none

/-- The duration in nanoseconds. -/
def parseGrpcTimeout (value : List UInt8) : Except ProtocolRejection UInt64 :=
  if !value.all isVisibleAscii then .error (.invalid "grpc_timeout_malformed")
  else if maxTimeoutValueBytes < value.length ∨ value.length < 2 then
    .error (.invalid "grpc_timeout_malformed")
  else
    let digits := value.take (value.length - 1)
    let unit := value.drop (value.length - 1)
    if digits.isEmpty || !digits.all isAsciiDigit then .error (.invalid "grpc_timeout_malformed")
    else
      match parseU64 digits with
      | none => .error (.invalid "grpc_timeout_malformed")
      | some amount =>
        match nanosPerUnit unit with
        | none => .error (.invalid "grpc_timeout_unit")
        | some nanos => .ok (saturatingMul amount nanos)

end Reading

section Grammar

inductive TimeoutUnit where
  | hours
  | minutes
  | seconds
  | milliseconds
  | microseconds
  | nanoseconds
  deriving DecidableEq, Repr

/-- `H`, `M`, `S`, `m`, `u` or `n`. -/
def TimeoutUnit.letter : TimeoutUnit → UInt8
  | .hours => 72
  | .minutes => 77
  | .seconds => 83
  | .milliseconds => 109
  | .microseconds => 117
  | .nanoseconds => 110

def TimeoutUnit.nanos : TimeoutUnit → Nat
  | .hours => 3600 * 10 ^ 9
  | .minutes => 60 * 10 ^ 9
  | .seconds => 10 ^ 9
  | .milliseconds => 10 ^ 6
  | .microseconds => 10 ^ 3
  | .nanoseconds => 1

/-- One to eight digits and a unit. -/
def Spells (value : List UInt8) (amount : Nat) (unit : TimeoutUnit) : Prop :=
  ∃ digits, value = digits ++ [unit.letter] ∧ 1 ≤ digits.length ∧ digits.length ≤ 8 ∧
    (∀ digit ∈ digits, isAsciiDigit digit = true) ∧ decimal digits = amount

/-- The value is taken just when the grammar admits it, and then for what it says. -/
def ReadExactly (value : List UInt8) : Prop :=
  ((∃ duration, parseGrpcTimeout value = .ok duration) ↔ ∃ amount unit, Spells value amount unit) ∧
    ∀ amount unit duration, Spells value amount unit → parseGrpcTimeout value = .ok duration →
      duration.toNat = amount * unit.nanos

theorem decimal_lt (digits : List UInt8) (all : ∀ digit ∈ digits, isAsciiDigit digit = true) :
    decimal digits < 10 ^ digits.length := by
  induction digits using List.reverseRecOn with
  | nil => decide
  | append_singleton digits digit ih =>
    have front := ih fun other member => all other (mem_append_left _ member)
    have last := all digit (mem_append_right _ mem_cons_self)
    simp only [isAsciiDigit, decide_eq_true_eq] at last
    simp only [decimal, foldl_append, foldl_cons, foldl_nil, length_append, length_singleton,
      pow_succ] at front ⊢
    omega

theorem isVisibleAscii_of_isAsciiDigit {byte : UInt8} (digit : isAsciiDigit byte = true) :
    isVisibleAscii byte = true := by
  simp only [isAsciiDigit, isVisibleAscii, Bool.or_eq_true, decide_eq_true_eq] at digit ⊢
  omega

theorem nanosPerUnit_letter (unit : TimeoutUnit) :
    nanosPerUnit [unit.letter] = some (UInt64.ofNat unit.nanos) := by
  cases unit <;> rfl

theorem nanos_toNat (unit : TimeoutUnit) : (UInt64.ofNat unit.nanos).toNat = unit.nanos := by
  cases unit <;> rfl

theorem nanosPerUnit_eq_some {unit : List UInt8} {nanos : UInt64}
    (known : nanosPerUnit unit = some nanos) : ∃ named : TimeoutUnit, unit = [named.letter] := by
  unfold nanosPerUnit at known
  split at known
  · exact ⟨.hours, rfl⟩
  · exact ⟨.minutes, rfl⟩
  · exact ⟨.seconds, rfl⟩
  · exact ⟨.milliseconds, rfl⟩
  · exact ⟨.microseconds, rfl⟩
  · exact ⟨.nanoseconds, rfl⟩
  · cases known

variable {value : List UInt8} {amount : Nat} {unit : TimeoutUnit}

/-- A value of the grammar is read by a saturating multiplication. -/
theorem parseGrpcTimeout_spelled (spelled : Spells value amount unit) :
    ∃ duration, parseGrpcTimeout value = .ok duration ∧
      duration.toNat = min (amount * unit.nanos) u64Max := by
  obtain ⟨digits, rfl, some_, few, all, rfl⟩ := spelled
  have visible : (digits ++ [unit.letter]).all isVisibleAscii = true := by
    rw [all_append, Bool.and_eq_true]
    refine ⟨List.all_eq_true.mpr fun digit member => ?_, ?_⟩
    · exact isVisibleAscii_of_isAsciiDigit (all digit member)
    · cases unit <;> rfl
  have length : ¬ (maxTimeoutValueBytes < (digits ++ [unit.letter]).length ∨
      (digits ++ [unit.letter]).length < 2) := by
    rw [length_append, length_singleton, maxTimeoutValueBytes]
    omega
  have small : decimal digits ≤ u64Max := by
    have bound := decimal_lt digits all
    have most : 10 ^ digits.length ≤ 10 ^ 8 := Nat.pow_le_pow_right (by decide) few
    rw [u64Max]
    omega
  have nonempty : (digits.isEmpty || !digits.all isAsciiDigit) = false := by
    rw [Bool.or_eq_false_iff, List.all_eq_true.mpr all]
    exact ⟨by cases digits with
      | nil => cases some_
      | cons => rfl, rfl⟩
  refine ⟨saturatingMul (UInt64.ofNat (decimal digits)) (UInt64.ofNat unit.nanos), ?_, ?_⟩
  · rw [parseGrpcTimeout, visible, Bool.not_true, if_neg (by decide), if_neg length]
    simp only [length_append, length_singleton, Nat.add_sub_cancel, take_left',
      drop_left', nonempty, parseU64, if_neg (not_lt.mpr small), nanosPerUnit_letter]
    rfl
  · rw [saturatingMul_toNat, nanos_toNat, UInt64.toNat_ofNat', Nat.mod_eq_of_lt]
    rw [u64Max] at small
    omega

/-- Nothing outside the grammar is read. -/
theorem spelled_of_parseGrpcTimeout {duration : UInt64}
    (read : parseGrpcTimeout value = .ok duration) : ∃ amount unit, Spells value amount unit := by
  unfold parseGrpcTimeout at read
  split at read
  · cases read
  split at read
  · cases read
  · case _ length =>
    dsimp only at read
    split at read
    · cases read
    · case _ shape =>
      split at read
      · cases read
      · split at read
        · cases read
        · case _ nanos known =>
          obtain ⟨unit, letter⟩ := nanosPerUnit_eq_some known
          simp only [Bool.or_eq_true, Bool.not_eq_true', not_or, Bool.not_eq_false] at shape
          refine ⟨_, unit, value.take (value.length - 1), ?_, ?_, ?_, ?_, rfl⟩
          · rw [← letter, take_append_drop]
          · rw [length_take]
            omega
          · rw [length_take]
            rw [maxTimeoutValueBytes] at length
            omega
          · exact List.all_eq_true.mp shape.2

/-- The extreme the comment on the multiplication speaks of. -/
theorem nanos_le (unit : TimeoutUnit) (few : amount < 10 ^ 8)
    (hours : unit = .hours → amount ≤ 5124095) : amount * unit.nanos ≤ u64Max := by
  cases unit <;> simp only [TimeoutUnit.nanos, u64Max, reduceCtorEq, forall_const] at hours ⊢ <;>
    omega

theorem Spells.lt (spelled : Spells value amount unit) : amount < 10 ^ 8 := by
  obtain ⟨digits, -, -, few, all, rfl⟩ := spelled
  exact (decimal_lt digits all).trans_le (Nat.pow_le_pow_right (by decide) few)

/-- A header value is read exactly unless it is over 5124095 hours. -/
theorem parseGrpcTimeout_exact_iff (value : List UInt8) :
    ReadExactly value ↔ ∀ amount, Spells value amount .hours → amount ≤ 5124095 := by
  constructor
  · rintro ⟨-, precise⟩ amount spelled
    obtain ⟨duration, read, saturates⟩ := parseGrpcTimeout_spelled spelled
    have meant := precise amount .hours duration spelled read
    simp only [TimeoutUnit.nanos, u64Max] at meant saturates
    omega
  · intro bounded
    refine ⟨⟨?_, ?_⟩, ?_⟩
    · rintro ⟨duration, read⟩
      exact spelled_of_parseGrpcTimeout read
    · rintro ⟨amount, unit, spelled⟩
      obtain ⟨duration, read, -⟩ := parseGrpcTimeout_spelled spelled
      exact ⟨duration, read⟩
    · intro amount unit duration spelled read
      obtain ⟨other, readToo, saturates⟩ := parseGrpcTimeout_spelled spelled
      cases readToo.symm.trans read
      rw [saturates, min_eq_left]
      exact nanos_le unit spelled.lt fun hours => bounded amount (hours ▸ spelled)

/-- `99999999H` is read as fewer hours than it says. -/
theorem parseGrpcTimeout_saturates :
    let value : List UInt8 := [57, 57, 57, 57, 57, 57, 57, 57, 72]
    Spells value 99999999 .hours ∧ parseGrpcTimeout value = .ok 18446744073709551615 ∧
      ¬ ReadExactly value := by
  intro value
  have spelled : Spells value 99999999 .hours :=
    ⟨[57, 57, 57, 57, 57, 57, 57, 57], rfl, by decide, by decide, by simp [isAsciiDigit], by decide⟩
  refine ⟨spelled, by decide, fun precise => ?_⟩
  exact absurd ((parseGrpcTimeout_exact_iff value).mp precise _ spelled) (by decide)

end Grammar

end GreenGateway.Proxy
