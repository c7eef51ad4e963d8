import Mathlib.Data.List.Induction

/-! Append-only histories, whose entries are admitted against the entries before
them, and runs of a system that takes one call after another. -/

namespace Foundation

open List

universe u v w

section Histories

variable {α : Type u} {Entry : List α → α → Prop} {items : List α} {item : α} {σ : Type v}
  {ε : Type w} {Covers : List α → σ → Prop} {start : σ}

/-- A list each of whose entries was admitted on top of the ones before it. -/
inductive History (Entry : List α → α → Prop) : List α → Prop where
  | nil : History Entry []
  | snoc {earlier : List α} {item : α} : History Entry earlier → Entry earlier item →
      History Entry (earlier ++ [item])

theorem History.mono {Weaker : List α → α → Prop}
    (weaken : ∀ earlier item, Entry earlier item → Weaker earlier item)
    (history : History Entry items) : History Weaker items := by
  induction history with
  | nil => exact .nil
  | snoc _ admitted ih => exact .snoc ih (weaken _ _ admitted)

/-- Every entry satisfies its own admission rule. -/
theorem History.entry_at (history : History Entry items) {index : Nat}
    (found : items[index]? = some item) : Entry (items.take index) item := by
  induction history with
  | nil => simp at found
  | @snoc earlier last history admitted ih =>
    rcases Nat.lt_or_ge index earlier.length with inside | beyond
    · rw [List.getElem?_append_left inside] at found
      rw [take_append_of_le_length (Nat.le_of_lt inside)]
      exact ih found
    · rw [List.getElem?_append_right beyond] at found
      have only : index - earlier.length < 1 := (List.getElem?_eq_some_iff.mp found).1
      obtain rfl : index = earlier.length := by omega
      obtain rfl : last = item := by simpa using found
      rw [take_left' rfl]
      exact admitted

/-- A pass over a history that can take in any of its entries succeeds, and its
invariant holds of the whole history at the end. -/
theorem History.pass {step : σ → α → Except ε σ} (begins : Covers [] start)
    (advances : ∀ earlier item state, earlier ++ [item] <+: items → Entry earlier item →
      Covers earlier state → ∃ next, step state item = .ok next ∧ Covers (earlier ++ [item]) next)
    (history : History Entry items) :
    ∃ final, items.foldlM step start = .ok final ∧ Covers items final := by
  induction history with
  | nil => exact ⟨start, rfl, begins⟩
  | snoc history admitted ih =>
    obtain ⟨state, reached, covers⟩ := ih fun earlier item state inside =>
      advances earlier item state (inside.trans (prefix_append _ _))
    obtain ⟨next, taken, extended⟩ := advances _ _ state (prefix_refl _) admitted covers
    refine ⟨next, ?_, extended⟩
    rw [foldlM_append, reached]
    change List.foldlM step state [_] = _
    rw [foldlM_cons, taken]
    rfl

theorem find?_key {κ : Type v} [DecidableEq κ] {key : α → κ}
    (distinct : (items.map key).Nodup) (member : item ∈ items) :
    (items.find? fun other => key other == key item) = some item := by
  induction items with
  | nil => cases member
  | cons first rest ih =>
    simp only [map_cons, nodup_cons] at distinct
    rcases List.mem_cons.mp member with rfl | later
    · simp
    · have differs : key first ≠ key item := fun same =>
        distinct.1 (same ▸ mem_map_of_mem later)
      rw [List.find?_cons_of_neg (by simpa using differs)]
      exact ih distinct.2 later

end Histories

section Runs

variable {State : Type u} {Call : Type v} {step : State → Call → State}

/-- The state after a list of calls. -/
def play (step : State → Call → State) (state : State) (calls : List Call) : State :=
  calls.foldl step state

@[simp] theorem play_cons (state : State) (call : Call) (calls : List Call) :
    play step state (call :: calls) = play step (step state call) calls := rfl

/-- A preorder that every call follows is followed by every run. -/
theorem play_follows {Before : State → State → Prop} (same : ∀ state, Before state state)
    (chain : ∀ first second third, Before first second → Before second third → Before first third)
    (follows : ∀ state call, Before state (step state call)) (state : State) (calls : List Call) :
    Before state (play step state calls) := by
  induction calls generalizing state with
  | nil => exact same state
  | cons call calls ih =>
    exact chain _ _ _ (follows state call) (ih (step state call))

end Runs

end Foundation
