import Mathlib.Data.List.Basic

/-! Computations over a state that may stop early, keeping the state they reached,
or fail, losing it; their loops; and the rules by which they keep an invariant. -/

namespace Foundation

/-- `none` is an early stop. -/
def Stoppable (σ ε α : Type) : Type := σ → Except ε (Option α × σ)

namespace Stoppable

variable {σ ε α β : Type} {inv : σ → Prop} {post : α → Prop} {check : Stoppable σ ε α}
  {items : List β}

instance : Monad (Stoppable σ ε) where
  pure value := fun state => .ok (some value, state)
  bind check next := fun state =>
    match check state with
    | .error problem => .error problem
    | .ok (none, state) => .ok (none, state)
    | .ok (some value, state) => next value state

/-- Stops, keeping the state. -/
def stop : Stoppable σ ε α := fun state => .ok (none, state)

def get : Stoppable σ ε σ := fun state => .ok (some state, state)

def modify (change : σ → σ) : Stoppable σ ε Unit := fun state => .ok (some (), change state)

/-- The answer of a question that reads no state. -/
def ofExcept (answer : Except ε α) : Stoppable σ ε α := fun state =>
  match answer with
  | .error problem => .error problem
  | .ok value => .ok (some value, state)

/-- Runs `check` only where `condition` holds. -/
def when (condition : Bool) (check : Stoppable σ ε Unit) : Stoppable σ ε Unit :=
  if condition then check else pure ()

/-- The state a computation leaves, stopped or not. -/
def finish (check : Stoppable σ ε α) (state : σ) : Except ε σ :=
  match check state with
  | .error problem => .error problem
  | .ok (_, state) => .ok state

/-- Runs `body` on each item with its position, counted from `start`. -/
def eachFrom (body : Nat → β → Stoppable σ ε Unit) (start : Nat) :
    List β → Stoppable σ ε Unit
  | [] => pure ()
  | item :: rest => do
    body start item
    eachFrom body (start + 1) rest

def each (items : List β) (body : Nat → β → Stoppable σ ε Unit) : Stoppable σ ε Unit :=
  eachFrom body 0 items

/-- The first item that hits, paying for every comparison; `skip` items cost
nothing and never hit. -/
def searchFrom (pay : Stoppable σ ε Unit) (skip hit : β → Bool) (start : Nat) :
    List β → Stoppable σ ε (Option (Nat × β))
  | [] => pure none
  | item :: rest =>
    if skip item then searchFrom pay skip hit (start + 1) rest
    else do
      pay
      if hit item then pure (some (start, item))
      else searchFrom pay skip hit (start + 1) rest

def search (pay : Stoppable σ ε Unit) (skip hit : β → Bool) (items : List β) :
    Stoppable σ ε (Option (Nat × β)) :=
  searchFrom pay skip hit 0 items

/-- From a state with the invariant the computation ends in one, and what it
returns satisfies `post`. -/
def Keeps (inv : σ → Prop) (check : Stoppable σ ε α) (post : α → Prop) : Prop :=
  ∀ state, inv state → ∀ answer state', check state = .ok (answer, state') →
    inv state' ∧ ∀ value, answer = some value → post value

theorem Keeps.pure {value : α} (holds : post value) :
    Keeps (ε := ε) inv (Pure.pure value) post := by
  intro state kept answer state' ran
  obtain ⟨rfl, rfl⟩ : some value = answer ∧ state = state' := by
    simpa [Pure.pure] using ran
  exact ⟨kept, fun other same => by
    cases same
    exact holds⟩

theorem Keeps.bind {next : α → Stoppable σ ε β} {middle : α → Prop}
    {post : β → Prop} (first : Keeps inv check middle)
    (second : ∀ value, middle value → Keeps inv (next value) post) :
    Keeps inv (check >>= next) post := by
  intro state kept answer state' ran
  simp only [Bind.bind] at ran
  cases outcome : check state with
  | error problem => simp [outcome] at ran
  | ok reached =>
    obtain ⟨value, between⟩ := reached
    obtain ⟨still, returned⟩ := first state kept value between outcome
    cases value with
    | none =>
      obtain ⟨rfl, rfl⟩ : none = answer ∧ between = state' := by simpa [outcome] using ran
      exact ⟨still, by simp⟩
    | some value =>
      exact second value (returned value rfl) between still answer state'
        (by simpa [outcome] using ran)

theorem Keeps.weaken {strong weak : α → Prop}
    (holds : Keeps inv check strong) (implies : ∀ value, strong value → weak value) :
    Keeps inv check weak := by
  intro state kept answer state' ran
  obtain ⟨still, returned⟩ := holds state kept answer state' ran
  exact ⟨still, fun value same => implies value (returned value same)⟩

theorem Keeps.stop : Keeps (ε := ε) inv Stoppable.stop post := by
  intro state kept answer state' ran
  obtain ⟨rfl, rfl⟩ : none = answer ∧ state = state' := by simpa [Stoppable.stop] using ran
  exact ⟨kept, by simp⟩

theorem Keeps.get : Keeps (ε := ε) inv Stoppable.get inv := by
  intro state kept answer state' ran
  obtain ⟨rfl, rfl⟩ : some state = answer ∧ state = state' := by simpa [Stoppable.get] using ran
  exact ⟨kept, fun value same => by
    cases same
    exact kept⟩

theorem Keeps.modify {change : σ → σ} {post : Unit → Prop}
    (kept : ∀ state, inv state → inv (change state))
    (holds : post ()) : Keeps (ε := ε) inv (Stoppable.modify change) post := by
  intro state before answer state' ran
  obtain ⟨rfl, rfl⟩ : some () = answer ∧ change state = state' := by
    simpa [Stoppable.modify] using ran
  exact ⟨kept state before, fun _ _ => holds⟩

theorem Keeps.ofExcept {answer : Except ε α} (holds : ∀ value, answer = .ok value → post value) :
    Keeps inv (Stoppable.ofExcept answer) post := by
  intro state kept returned state' ran
  cases answer with
  | error problem => simp [Stoppable.ofExcept] at ran
  | ok value =>
    obtain ⟨rfl, rfl⟩ : some value = returned ∧ state = state' := by
      simpa [Stoppable.ofExcept] using ran
    exact ⟨kept, fun other same => by
      cases same
      exact holds value rfl⟩

theorem Keeps.when {condition : Bool} {check : Stoppable σ ε Unit}
    (holds : condition = true → Keeps inv check fun _ => True) :
    Keeps inv (Stoppable.when condition check) fun _ => True := by
  cases condition with
  | true => exact holds rfl
  | false => exact .pure trivial

/-- A loop keeps what every turn keeps. -/
theorem Keeps.each {body : Nat → β → Stoppable σ ε Unit}
    (turn : ∀ index item, items[index]? = some item → Keeps inv (body index item) fun _ => True) :
    Keeps inv (Stoppable.each items body) fun _ => True := by
  have loop : ∀ (rest : List β) (start : Nat),
      (∀ offset item, rest[offset]? = some item →
        Keeps inv (body (start + offset) item) fun _ => True) →
      Keeps inv (eachFrom body start rest) fun _ => True := by
    intro rest
    induction rest with
    | nil => exact fun _ _ => .pure trivial
    | cons item rest ih =>
      intro start turns
      refine .bind (turns 0 item rfl) fun _ _ => ih (start + 1) fun offset other found => ?_
      have := turns (offset + 1) other (by simpa using found)
      rwa [Nat.add_comm offset 1, ← Nat.add_assoc] at this
  exact loop items 0 fun offset item found => by simpa using turn offset item found

theorem Keeps.search {pay : Stoppable σ ε Unit} {skip hit : β → Bool}
    (paying : Keeps inv pay fun _ => True) :
    Keeps inv (Stoppable.search pay skip hit items) fun found =>
      ∀ index item, found = some (index, item) →
        items[index]? = some item ∧ skip item = false ∧ hit item = true := by
  have loop : ∀ (rest : List β) (start : Nat),
      (∀ offset item, rest[offset]? = some item → items[start + offset]? = some item) →
      Keeps inv (searchFrom pay skip hit start rest) fun found =>
        ∀ index item, found = some (index, item) →
          items[index]? = some item ∧ skip item = false ∧ hit item = true := by
    intro rest
    induction rest with
    | nil => exact fun _ _ => .pure (by simp)
    | cons item rest ih =>
      intro start placed
      have later := ih (start + 1) fun offset other found => by
        have := placed (offset + 1) other (by simpa using found)
        rwa [Nat.add_comm offset 1, ← Nat.add_assoc] at this
      unfold searchFrom
      cases skipped : skip item with
      | true => exact later
      | false =>
        refine .bind paying fun _ _ => ?_
        cases yes : hit item with
        | true =>
          refine .pure fun index other same => ?_
          obtain ⟨rfl, rfl⟩ : start = index ∧ item = other := by simpa using same
          exact ⟨by simpa using placed 0 item rfl, skipped, yes⟩
        | false => exact later
  exact loop items 0 fun offset item found => by simpa using found

theorem Keeps.finish (holds : Keeps inv check post)
    {state state' : σ} (kept : inv state) (ran : check.finish state = .ok state') : inv state' := by
  unfold Stoppable.finish at ran
  cases outcome : check state with
  | error problem => simp [outcome] at ran
  | ok reached =>
    obtain ⟨answer, last⟩ := reached
    obtain rfl : last = state' := by simpa [outcome] using ran
    exact (holds state kept answer last outcome).1

end Stoppable

end Foundation
