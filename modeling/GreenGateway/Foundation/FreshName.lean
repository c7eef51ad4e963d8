import Mathlib.Data.List.Perm.Subperm
import Mathlib.Data.List.Nodup

/-! The first of a sequence of names that is not taken. -/

namespace Foundation.FreshName

variable {α : Type*} [DecidableEq α] (candidate : Nat → α) (taken : List α)

/-- Tries the candidates from an index on, so many at most. -/
def search : Nat → Nat → Option α
  | 0, _ => none
  | tries + 1, index =>
    if candidate index ∈ taken then search tries (index + 1) else some (candidate index)

variable {candidate taken} {tries index : Nat} {name : α}

/-- What is found is a candidate within the tries, and is free. -/
theorem search_sound (found : search candidate taken tries index = some name) :
    name ∉ taken ∧ ∃ offset < tries, name = candidate (index + offset) := by
  induction tries generalizing index with
  | zero => cases found
  | succ tries ih =>
    rw [search] at found
    split at found
    · obtain ⟨free, offset, within, same⟩ := ih found
      exact ⟨free, offset + 1, by omega, by rw [same, Nat.add_right_comm, Nat.add_assoc]⟩
    · case _ free =>
      cases found
      exact ⟨free, 0, by omega, rfl⟩

/-- More tries find the same. -/
theorem search_mono {more : Nat} (found : search candidate taken tries index = some name)
    (at_least : tries ≤ more) : search candidate taken more index = some name := by
  induction tries generalizing index more with
  | zero => cases found
  | succ tries ih =>
    cases more with
    | zero => omega
    | succ more =>
      rw [search] at found ⊢
      split at found
      · case _ held =>
        rw [if_pos held]
        exact ih found (by omega)
      · case _ free =>
        rw [if_neg free]
        exact found

/-- A search that finds nothing has met a taken name at every try. -/
theorem taken_of_search_eq_none (none_ : search candidate taken tries index = none) :
    ∀ offset < tries, candidate (index + offset) ∈ taken := by
  induction tries generalizing index with
  | zero => exact nofun
  | succ tries ih =>
    rw [search] at none_
    split at none_
    · case _ held =>
      intro offset within
      cases offset with
      | zero => exact held
      | succ offset =>
        have later := ih none_ offset (by omega)
        rwa [Nat.add_right_comm] at later
    · cases none_

theorem exists_search (distinct : Function.Injective candidate) (enough : taken.length < tries) :
    ∃ name, search candidate taken tries index = some name := by
  cases found : search candidate taken tries index with
  | some name => exact ⟨name, rfl⟩
  | none =>
    exfalso
    have names : ((List.range tries).map fun offset => candidate (index + offset)).Nodup := by
      refine List.Nodup.map (fun left right same => ?_) List.nodup_range
      have := distinct same
      omega
    have held : ((List.range tries).map fun offset => candidate (index + offset)) ⊆ taken := by
      intro name listed
      obtain ⟨offset, within, rfl⟩ := List.mem_map.mp listed
      exact taken_of_search_eq_none found offset (List.mem_range.mp within)
    have count := (List.subperm_of_subset names held).length_le
    rw [List.length_map, List.length_range] at count
    omega

end Foundation.FreshName
