import Mathlib.Data.List.Basic

/-! Validators that stop at the first problem: refusing guards, checks run over
an indexed list, and what a validator that succeeds has established. -/

namespace Foundation

universe u v

variable {ε : Type u} {α β : Type v} {problem : ε} {value : Option α}
  {check : Nat → α → Except ε Unit} {items : List α}

/-- Fails with `problem` when `bad` holds. -/
def refuse (bad : Bool) (problem : ε) : Except ε Unit :=
  if bad then .error problem else .ok ()

@[simp] theorem refuse_eq_ok {bad : Bool} : refuse bad problem = .ok () ↔ bad = false := by
  cases bad <;> simp [refuse]

/-- A sequence succeeds exactly when each part does. -/
@[simp] theorem bind_eq_ok {first : Except ε α} {next : α → Except ε β} {result : β} :
    first >>= next = .ok result ↔ ∃ value, first = .ok value ∧ next value = .ok result := by
  cases first <;> simp [bind, Except.bind]

@[simp] theorem unit_exists_ok {check : Except ε Unit} {p : Prop} :
    (∃ value, check = .ok value ∧ p) ↔ check = .ok () ∧ p :=
  ⟨fun ⟨(), ok, holds⟩ => ⟨ok, holds⟩, fun ⟨ok, holds⟩ => ⟨(), ok, holds⟩⟩

/-- Runs `check` on a value that is present. -/
def checkSome (value : Option α) (check : α → Except ε Unit) : Except ε Unit :=
  match value with
  | some value => check value
  | none => .ok ()

@[simp] theorem checkSome_eq_ok {check : α → Except ε Unit} :
    checkSome value check = .ok () ↔ ∀ held, value = some held → check held = .ok () := by
  cases value <;> simp [checkSome]

/-- `Option::ok_or`. -/
def okOr (value : Option α) (problem : ε) : Except ε α :=
  match value with
  | some value => .ok value
  | none => .error problem

@[simp] theorem okOr_eq_ok {result : α} :
    okOr value problem = .ok result ↔ value = some result := by
  cases value <;> simp [okOr]

/-- Runs `check` on every item with its position, counted from `start`. -/
def eachFrom (check : Nat → α → Except ε Unit) (start : Nat) : List α → Except ε Unit
  | [] => .ok ()
  | item :: rest => do
    check start item
    eachFrom check (start + 1) rest

/-- A `for (index, item) in items.iter().enumerate()` loop of checks. -/
def eachIndexed (check : Nat → α → Except ε Unit) (items : List α) : Except ε Unit :=
  eachFrom check 0 items

theorem eachFrom_eq_ok {start : Nat} :
    eachFrom check start items = .ok () ↔
      ∀ offset item, items[offset]? = some item → check (start + offset) item = .ok () := by
  induction items generalizing start with
  | nil => simp [eachFrom]
  | cons head rest ih =>
    simp only [eachFrom, bind_eq_ok, unit_exists_ok, ih]
    constructor
    · rintro ⟨own, others⟩ offset item found
      cases offset with
      | zero =>
        obtain rfl : head = item := by simpa using found
        simpa using own
      | succ offset =>
        have := others offset item (by simpa using found)
        rwa [Nat.add_assoc, Nat.add_comm 1 offset] at this
    · intro all
      refine ⟨by simpa using all 0 head (by simp), fun offset item found => ?_⟩
      have := all (offset + 1) item (by simpa using found)
      rwa [Nat.add_comm offset 1, ← Nat.add_assoc] at this

theorem eachIndexed_eq_ok :
    eachIndexed check items = .ok () ↔
      ∀ index item, items[index]? = some item → check index item = .ok () := by
  simp [eachIndexed, eachFrom_eq_ok]

end Foundation
