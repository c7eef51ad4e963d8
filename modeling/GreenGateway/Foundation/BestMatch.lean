import Mathlib

/-! The best of the items that have a score, the first of them among equals: one pass that
replaces the incumbent only by something strictly better. -/

namespace Foundation.BestMatch

open List

variable {α β ρ : Type*} (score : α → Option β) (better : β → β → Bool)

/-- One step of the pass. -/
def challenge (best : Option (α × β)) (item : α) : Option (α × β) :=
  match score item with
  | none => best
  | some own =>
    match best with
    | none => some (item, own)
    | some (_, incumbent) => if better own incumbent then some (item, own) else best

def best (items : List α) : Option (α × β) := items.foldl (challenge score better) none

theorem best_append (items : List α) (item : α) :
    best score better (items ++ [item]) = challenge score better (best score better items) item := by
  rw [best, foldl_append]
  rfl

/-- The item stands where nothing before it is as good and nothing after it is better. -/
structure First [Preorder ρ] (rank : β → ρ) (front : List α) (item : α) (own : β) (back : List α) :
    Prop where
  scored : score item = some own
  before : ∀ other ∈ front, ∀ rival, score other = some rival → rank rival < rank own
  after : ∀ other ∈ back, ∀ rival, score other = some rival → rank rival ≤ rank own

variable {score better} [LinearOrder ρ] {rank : β → ρ}

theorem best_eq_none (items : List α) :
    best score better items = none ↔ ∀ item ∈ items, score item = none := by
  induction items using List.reverseRecOn with
  | nil => exact ⟨fun _ => nofun, fun _ => rfl⟩
  | append_singleton items item ih =>
    rw [best_append, challenge]
    cases own : score item with
    | none =>
      simp only [ih, mem_append, mem_singleton]
      constructor
      · rintro none_ other (earlier | rfl)
        · exact none_ other earlier
        · exact own
      · exact fun none_ other earlier => none_ other (.inl earlier)
    | some own' =>
      constructor
      · intro nothing
        cases held : best score better items with
        | none => rw [held] at nothing; cases nothing
        | some incumbent =>
          rw [held] at nothing
          dsimp only at nothing
          split at nothing <;> cases nothing
      · intro none_
        have nothing := none_ item (by simp)
        rw [own] at nothing
        cases nothing

section

variable (ordered : ∀ own rival, better own rival = true ↔ rank rival < rank own)

include ordered

/-- What the pass ends with is the first of the best. -/
theorem first_of_best
    {items : List α} {item : α} {own : β} (held : best score better items = some (item, own)) :
    ∃ front back, items = front ++ item :: back ∧ First score rank front item own back := by
  induction items using List.reverseRecOn generalizing item own with
  | nil => cases held
  | append_singleton items last ih =>
    rw [best_append, challenge] at held
    cases scored : score last with
    | none =>
      rw [scored] at held
      obtain ⟨front, back, rfl, first⟩ := ih held
      refine ⟨front, back ++ [last], by simp, first.scored, first.before, ?_⟩
      intro other listed rival same
      rcases List.mem_append.mp listed with earlier | final
      · exact first.after other earlier rival same
      · rw [List.mem_singleton.mp final, scored] at same
        cases same
    | some lastScore =>
      rw [scored] at held
      cases before : best score better items with
      | none =>
        rw [before] at held
        cases held
        refine ⟨items, [], rfl, scored, ?_, nofun⟩
        intro other listed rival same
        rw [(best_eq_none items).mp before other listed] at same
        cases same
      | some incumbent =>
        obtain ⟨holder, holds⟩ := incumbent
        rw [before] at held
        dsimp only at held
        obtain ⟨front, back, rfl, first⟩ := ih before
        split at held
        · case _ wins =>
          cases held
          have higher := (ordered _ _).mp wins
          refine ⟨front ++ holder :: back, [], rfl, scored, ?_, nofun⟩
          intro other listed rival same
          rcases List.mem_append.mp listed with earlier | later
          · exact lt_trans (first.before other earlier rival same) higher
          · rcases List.mem_cons.mp later with rfl | later
            · rw [first.scored] at same
              cases same
              exact higher
            · exact lt_of_le_of_lt (first.after other later rival same) higher
        · case _ loses =>
          cases held
          have lower := not_lt.mp (mt (ordered _ _).mpr loses)
          refine ⟨front, back ++ [last], by simp, first.scored, first.before, ?_⟩
          intro other listed rival same
          rcases List.mem_append.mp listed with earlier | final
          · exact first.after other earlier rival same
          · rw [List.mem_singleton.mp final, scored] at same
            cases same
            exact lower

theorem best_of_first
    {front back : List α} {item : α} {own : β} (first : First score rank front item own back) :
    best score better (front ++ item :: back) = some (item, own) := by
  induction back using List.reverseRecOn with
  | nil =>
    rw [best_append, challenge, first.scored]
    cases before : best score better front with
    | none => rfl
    | some incumbent =>
      obtain ⟨holder, holds⟩ := incumbent
      obtain ⟨earlier, later, rfl, was⟩ := first_of_best ordered before
      have lower := first.before holder (by simp) holds was.scored
      dsimp only
      rw [if_pos ((ordered _ _).mpr lower)]
  | append_singleton back last ih =>
    have sooner := ih ⟨first.scored, first.before,
      fun other listed => first.after other (mem_append_left _ listed)⟩
    rw [← cons_append, ← append_assoc, best_append, sooner, challenge]
    cases scored : score last with
    | none => rfl
    | some lastScore =>
      have lower := first.after last (by simp) lastScore scored
      dsimp only
      rw [if_neg (mt (ordered _ _).mp (not_lt.mpr lower))]

end

end Foundation.BestMatch
