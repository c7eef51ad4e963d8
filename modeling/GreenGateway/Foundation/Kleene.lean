import Mathlib.Data.List.Forall2

/-! Kleene's strong three-valued logic and its information order. An `unknown`
answer may be settled either way by learning more; a known one may not. -/

namespace Foundation

/-- A three-valued answer: it holds, it does not, or it cannot be told. -/
inductive Truth where
  | false
  | true
  | unknown
  deriving DecidableEq, Repr

namespace Truth

def of (value : Bool) : Truth :=
  if value then .true else .false

def not : Truth → Truth
  | .false => .true
  | .true => .false
  | .unknown => .unknown

/-- Kleene conjunction. The second operand is only read when the first leaves
the answer open. -/
def andThen (first next : Truth) : Truth :=
  match first with
  | .false => .false
  | .true => next
  | .unknown =>
    match next with
    | .false => .false
    | .true | .unknown => .unknown

/-- Kleene disjunction, the dual of `andThen`. -/
def orElse (first next : Truth) : Truth :=
  match first with
  | .true => .true
  | .false => next
  | .unknown =>
    match next with
    | .true => .true
    | .false | .unknown => .unknown

variable {value : Bool} {first next start first' next' : Truth} {α : Type*} {judge : α → Truth}
  {items : List α}

@[simp] theorem of_true : of Bool.true = .true := rfl

@[simp] theorem of_false : of Bool.false = .false := rfl

@[simp] theorem orElse_eq_false : first.orElse next = .false ↔ first = .false ∧ next = .false := by
  cases first <;> cases next <;> simp [orElse]

@[simp] theorem orElse_eq_true : first.orElse next = .true ↔ first = .true ∨ next = .true := by
  cases first <;> cases next <;> simp [orElse]

theorem orElse_comm (first next : Truth) : first.orElse next = next.orElse first := by
  cases first <;> cases next <;> rfl

@[simp] theorem false_orElse (next : Truth) : Truth.false.orElse next = next := rfl

theorem orElse_eq_unknown (open_ : first.orElse next = .unknown) :
    first = .unknown ∨ next = .unknown := by
  cases first <;> cases next <;> simp_all [orElse]

/-- A disjunction of many fails when every disjunct does. -/
theorem foldl_orElse_eq_false :
    items.foldl (fun truth item => truth.orElse (judge item)) start = .false ↔
      start = .false ∧ ∀ item ∈ items, judge item = .false := by
  induction items generalizing start with
  | nil => simp
  | cons head rest ih => simp [ih, and_assoc]

/-- A disjunction of many holds when some disjunct does. -/
theorem foldl_orElse_eq_true :
    items.foldl (fun truth item => truth.orElse (judge item)) start = .true ↔
      start = .true ∨ ∃ item ∈ items, judge item = .true := by
  induction items generalizing start with
  | nil => simp
  | cons head rest ih => simp [ih, or_assoc]

/-- `fine` answers everything `coarse` does, the same way. -/
def Refines (coarse fine : Truth) : Prop := coarse = .unknown ∨ coarse = fine

theorem Refines.refl (truth : Truth) : Refines truth truth := Or.inr rfl

@[simp] theorem unknown_refines (fine : Truth) : Refines .unknown fine := Or.inl rfl

theorem Refines.not {coarse fine : Truth} (refined : Refines coarse fine) :
    Refines coarse.not fine.not := by
  rcases refined with open_ | same
  · exact Or.inl (by rw [open_]; rfl)
  · exact Or.inr (by rw [same])

theorem Refines.andThen (left : Refines first first')
    (right : Refines next next') : Refines (first.andThen next) (first'.andThen next') := by
  rcases left with rfl | rfl <;> rcases right with rfl | rfl
  · exact Or.inl rfl
  · cases next <;> cases first' <;> simp [Refines, Truth.andThen]
  · cases first <;> simp [Refines, Truth.andThen]
  · exact .refl _

theorem Refines.orElse (left : Refines first first')
    (right : Refines next next') : Refines (first.orElse next) (first'.orElse next') := by
  rcases left with rfl | rfl <;> rcases right with rfl | rfl
  · exact Or.inl rfl
  · cases next <;> cases first' <;> simp [Refines, Truth.orElse]
  · cases first <;> simp [Refines, Truth.orElse]
  · exact .refl _

end Truth

end Foundation
