import Mathlib.Data.List.Perm.Basic

/-! Second-chance eviction over a queue of keys: the first ripe key goes and the keys passed
over before it move to the back; if no key is ripe every key is passed over once and the
first one goes. -/

namespace Foundation.SecondChance

variable {κ : Type*} {ripe : κ → Prop} {hand passed remaining : List κ} {victim : κ}

/-- Which key leaves the queue, which ones were passed over, and the queue left behind. -/
inductive Chosen (ripe : κ → Prop) : List κ → List κ → κ → List κ → Prop where
  | first {passed back : List κ} {victim : κ} (unripe : ∀ key ∈ passed, ¬ ripe key)
      (stops : ripe victim) : Chosen ripe (passed ++ victim :: back) passed victim (back ++ passed)
  | none_ripe {rest : List κ} {victim : κ} (unripe : ∀ key ∈ victim :: rest, ¬ ripe key) :
      Chosen ripe (victim :: rest) (victim :: rest) victim rest

namespace Chosen

theorem exists_of_ne_nil (ripe : κ → Prop) (some_ : hand ≠ []) :
    ∃ passed victim remaining, Chosen ripe hand passed victim remaining := by
  classical
  by_cases any : ∃ key ∈ hand, ripe key
  · -- the keys before the first ripe one
    obtain ⟨victim, first⟩ : ∃ victim, hand.find? (ripe ·) = some victim :=
      Option.isSome_iff_exists.mp (List.find?_isSome.mpr (by simpa using any))
    obtain ⟨stops, front, back, rfl, unripe⟩ := List.find?_eq_some_iff_append.mp first
    exact ⟨front, victim, back ++ front, .first (by simpa using unripe) (by simpa using stops)⟩
  · obtain ⟨victim, rest, rfl⟩ := List.exists_cons_of_ne_nil some_
    refine ⟨victim :: rest, victim, rest, .none_ripe fun key listed isRipe => ?_⟩
    exact any ⟨key, listed, isRipe⟩

section

variable (chosen : Chosen ripe hand passed victim remaining)

include chosen

theorem perm : hand.Perm (victim :: remaining) := by
  cases chosen with
  | first unripe stops => exact List.perm_middle.trans (List.perm_append_comm.cons _)
  | none_ripe unripe => exact .refl _

theorem length_eq : hand.length = remaining.length + 1 := by
  rw [chosen.perm.length_eq, List.length_cons]

theorem passed_subset : passed ⊆ hand := by
  cases chosen with
  | first unripe stops => exact List.subset_append_left _ _
  | none_ripe unripe => exact List.Subset.refl _

/-- While some key is ripe, a ripe one goes. -/
theorem ripe_of_mem {key : κ} (listed : key ∈ hand) (isRipe : ripe key) : ripe victim := by
  cases chosen with
  | first unripe stops => exact stops
  | none_ripe unripe => exact absurd isRipe (unripe key listed)

theorem congr {other : κ → Prop}
    (same : ∀ key ∈ hand, ripe key ↔ other key) : Chosen other hand passed victim remaining := by
  cases chosen with
  | first unripe stops =>
    refine .first (fun key listed isRipe => unripe key listed ?_) ?_
    · exact (same key (List.mem_append_left _ listed)).mpr isRipe
    · exact (same _ (by simp)).mp stops
  | none_ripe unripe =>
    exact .none_ripe fun key listed isRipe => unripe key listed ((same key listed).mpr isRipe)

end

end Chosen

end Foundation.SecondChance
