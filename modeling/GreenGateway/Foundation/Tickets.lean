import Mathlib

/-! Weighted choice by ticket: the items hold consecutive stretches of tickets as long as their
weights, and every window of as many tickets as there are gives each item its weight. -/

namespace Foundation.Tickets

variable {α : Type*} (weight : α → Nat) {items : List α} {item : α}

/-- How many tickets there are. -/
def total (items : List α) : Nat := (items.map weight).sum

/-- The item that holds a ticket. -/
def holder (ticket : Nat) : List α → Option α
  | [] => none
  | item :: rest =>
    if ticket < weight item then some item else holder (ticket - weight item) rest

variable {weight}

theorem total_cons (rest : List α) : total weight
    (item :: rest) = weight item + total weight rest :=
  rfl

theorem mem_of_holder {ticket : Nat} (held : holder weight ticket items = some item) :
    item ∈ items := by
  induction items generalizing ticket with
  | nil => cases held
  | cons first rest ih =>
    rw [holder] at held
    split at held
    · rw [Option.some.inj held]
      exact List.mem_cons_self
    · exact List.mem_cons_of_mem _ (ih held)

/-- Every ticket is held. -/
theorem holder_isSome {ticket : Nat} (drawn : ticket < total weight items) :
    (holder weight ticket items).isSome = true := by
  induction items generalizing ticket with
  | nil => cases drawn
  | cons first rest ih =>
    rw [holder]
    split
    · rfl
    · rw [total_cons] at drawn
      exact ih (by omega)

variable [DecidableEq α]

theorem count_holder (distinct : items.Nodup) (listed : item ∈ items) :
    Nat.count (fun ticket => holder weight ticket items = some item) (total weight items) =
      weight item := by
  induction items with
  | nil => cases listed
  | cons first rest ih =>
    obtain ⟨apart, distinct⟩ := List.nodup_cons.mp distinct
    have own : ∀ ticket < weight first,
        (holder weight ticket (first :: rest) = some item ↔ first = item) := by
      intro ticket low
      rw [holder, if_pos low, Option.some.injEq]
    have later : ∀ ticket, holder weight (weight first + ticket) (first :: rest) =
        holder weight ticket rest := by
      intro ticket
      rw [holder, if_neg (by omega), Nat.add_sub_cancel_left]
    rw [total_cons, Nat.count_add]
    simp only [later]
    by_cases same : first = item
    · subst same
      have all : Nat.count (fun ticket => holder weight ticket (first :: rest) = some first)
          (weight first) = weight first := by
        rw [Nat.count_iff_forall]
        exact fun ticket low => (own ticket low).mpr rfl
      have none_ : Nat.count (fun ticket => holder weight ticket rest = some first)
          (total weight rest) = 0 := by
        rw [Nat.count_iff_forall_not]
        exact fun ticket _ held => apart (mem_of_holder held)
      rw [all, none_, Nat.add_zero]
    · have none_ : Nat.count (fun ticket => holder weight ticket (first :: rest) = some item)
          (weight first) = 0 := by
        rw [Nat.count_iff_forall_not]
        exact fun ticket low held => same ((own ticket low).mp held)
      rw [none_, Nat.zero_add]
      exact ih distinct ((List.mem_cons.mp listed).resolve_left (Ne.symm same))

theorem count_congr {first second : Nat → Prop} [DecidablePred first] [DecidablePred second]
    {bound : Nat} (same : ∀ ticket < bound, first ticket ↔ second ticket) :
    Nat.count first bound = Nat.count second bound :=
  le_antisymm (Nat.count_mono_left fun ticket low => (same ticket low).mp)
    (Nat.count_mono_left fun ticket low => (same ticket low).mpr)

theorem count_window_eq (repeats : Nat → Prop) [DecidablePred repeats] {period : Nat}
    (periodic : ∀ ticket, repeats (period + ticket) ↔ repeats ticket) (start : Nat) :
    Nat.count (fun draw => repeats (start + draw)) period = Nat.count repeats period := by
  have front := Nat.count_add repeats start period
  have back := Nat.count_add repeats period start
  have shifted : Nat.count (fun ticket => repeats (period + ticket)) start =
      Nat.count repeats start := count_congr fun ticket _ => periodic ticket
  rw [Nat.add_comm period start] at back
  omega

theorem count_window (distinct : items.Nodup) (listed : item ∈ items) (start : Nat) :
    Nat.count (fun draw =>
      holder weight ((start + draw) % total weight items) items = some item)
      (total weight items) = weight item := by
  have window := count_window_eq
    (fun ticket => holder weight (ticket % total weight items) items = some item)
    (fun ticket => by rw [Nat.add_mod_left]) start
  rw [window]
  refine Eq.trans (count_congr fun ticket low => ?_) (count_holder distinct listed)
  rw [Nat.mod_eq_of_lt low]

end Foundation.Tickets
