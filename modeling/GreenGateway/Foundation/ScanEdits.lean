import GreenGateway.Foundation.FirstMatch

/-! What deleting or moving one item does to an ordered scan, and to a class-major
one. A verdict keeps the class of the item found and forgets which item it was. -/

namespace Foundation

universe u v

variable {α : Type u} {κ : Type v}

/-- What a scan settles. -/
inductive Verdict (κ : Type v) where
  | acts (kind : κ)
  | noMatch
  | undetermined
  deriving DecidableEq, Repr

/-- The class of the item a scan found. -/
def Scan.verdict (label : α → κ) : Scan α → Verdict κ
  | .matched item => .acts (label item)
  | .noMatch => .noMatch
  | .undetermined _ => .undetermined

def Verdict.orElse (first next : Verdict κ) : Verdict κ :=
  match first with
  | .noMatch => next
  | found => found

@[simp] theorem Scan.verdict_orElse (label : α → κ) (first next : Scan α) :
    (first.orElse next).verdict label = (first.verdict label).orElse (next.verdict label) := by
  cases first <;> rfl

@[simp] theorem Scan.verdict_eq_noMatch {label : α → κ} {scan : Scan α} :
    scan.verdict label = .noMatch ↔ scan = .noMatch := by
  cases scan <;> simp [Scan.verdict]

/-- A scan that stopped at an item of a class, or at one it could not judge. -/
def Scan.StopsAt (label : α → κ) (kind : κ) (scan : Scan α) : Prop :=
  scan.verdict label = .acts kind ∨ scan.verdict label = .undetermined

section Delete

variable {truth : α → Truth} {accepts : α → Bool} {front back : List α} {item : α}

theorem find?_delete (spared : accepts item = true → ∃ earlier ∈ front, accepts earlier = true) :
    (front ++ item :: back).find? accepts = (front ++ back).find? accepts := by
  rw [List.find?_append, List.find?_append]
  cases judged : accepts item with
  | false => simp [judged]
  | true =>
    obtain ⟨earlier, member, yes⟩ := spared judged
    have found : (front.find? accepts).isSome = true := List.find?_isSome.mpr ⟨earlier, member, yes⟩
    obtain ⟨hit, same⟩ := Option.isSome_iff_exists.mp found
    simp [same]

theorem firstMatch_delete_false (no : truth item = .false) :
    firstMatch truth (front ++ item :: back) = firstMatch truth (front ++ back) := by
  rw [firstMatch_append, firstMatch_append, firstMatch_cons_false _ no]

/-- A scan does not miss an item that an item ahead of it decides for. -/
theorem firstMatch_delete
    (spared : truth item ≠ .false → ∃ earlier ∈ front, truth earlier = .true) :
    firstMatch truth (front ++ item :: back) = firstMatch truth (front ++ back) := by
  rw [firstMatch_eq_find?, firstMatch_eq_find? truth (front ++ back), find?_delete]
  intro open_
  obtain ⟨earlier, member, yes⟩ := spared (by simpa using open_)
  exact ⟨earlier, member, by simp [yes]⟩

/-- An item that can be judged either decided, or is not missed. -/
theorem firstMatch_delete_known (known : truth item ≠ .unknown) :
    firstMatch truth (front ++ back) = firstMatch truth (front ++ item :: back) ∨
      firstMatch truth (front ++ item :: back) = .matched item := by
  cases judged : truth item with
  | unknown => exact absurd judged known
  | false => exact Or.inl (firstMatch_delete_false judged).symm
  | true =>
    rw [firstMatch_append, firstMatch_append, firstMatch_cons_true _ judged]
    cases firstMatch truth front with
    | noMatch => exact Or.inr rfl
    | matched hit => exact Or.inl rfl
    | undetermined hit => exact Or.inl rfl

variable [DecidableEq κ] {label : α → κ}

theorem within_other {kind : κ} (other : label item ≠ kind) :
    within label truth kind item = .false := by
  simp [within, other]

theorem within_own : within label truth (label item) item = truth item := by
  simp [within]

/-- A class-major scan does not miss an item that an item of its own class ahead
of it, or any item of an earlier class, decides for. -/
theorem firstMatchBy_delete {kinds : List κ}
    (spared : truth item ≠ .false → ∃ earlier ∈ front, truth earlier = .true ∧
      (label earlier = label item ∨ kinds.idxOf (label earlier) < kinds.idxOf (label item))) :
    firstMatchBy label truth (front ++ item :: back) kinds =
      firstMatchBy label truth (front ++ back) kinds := by
  induction kinds with
  | nil => rfl
  | cons kind rest ih =>
    have same : firstMatch (within label truth kind) (front ++ item :: back) =
        firstMatch (within label truth kind) (front ++ back) := by
      by_cases own : label item = kind
      · refine firstMatch_delete fun open_ => ?_
        rw [← own, within_own] at open_
        obtain ⟨earlier, member, yes, place⟩ := spared open_
        have alike : label earlier = kind := by
          rcases place with alike | before
          · exact alike.trans own
          · simp [own] at before
        exact ⟨earlier, member, by simp [within, alike, yes]⟩
      · exact firstMatch_delete_false (within_other own)
    simp only [firstMatchBy, same]
    cases found : firstMatch (within label truth kind) (front ++ back) with
    | matched hit => rfl
    | undetermined hit => rfl
    | noMatch =>
      simp only [Scan.noMatch_orElse]
      refine ih fun open_ => ?_
      obtain ⟨earlier, member, yes, place⟩ := spared open_
      -- nothing of this class matches, so the item ahead is of a later class
      have later : label earlier ≠ kind := by
        intro own
        have := firstMatch_eq_noMatch.mp found earlier (by simp [member])
        simp [within, own, yes] at this
      refine ⟨earlier, member, yes, place.imp_right fun before => ?_⟩
      by_cases own : label item = kind
      · simp [own] at before
      · simpa [List.idxOf_cons_ne _ (Ne.symm own), List.idxOf_cons_ne _ (Ne.symm later)]
          using before

theorem firstMatchBy_delete_known {kinds : List κ} (known : truth item ≠ .unknown) :
    firstMatchBy label truth (front ++ back) kinds =
        firstMatchBy label truth (front ++ item :: back) kinds ∨
      firstMatchBy label truth (front ++ item :: back) kinds = .matched item := by
  induction kinds with
  | nil => exact Or.inl rfl
  | cons kind rest ih =>
    have judged : within label truth kind item ≠ .unknown := by
      unfold within
      split
      · exact known
      · exact Truth.noConfusion
    have own : firstMatch (within label truth kind) (front ++ back) = _ ∨ _ = Scan.matched item :=
      firstMatch_delete_known judged
    rcases own with same | found
    · simp only [firstMatchBy, same]
      cases firstMatch (within label truth kind) (front ++ item :: back) with
      | matched hit => exact Or.inl rfl
      | undetermined hit => exact Or.inl rfl
      | noMatch => simpa using ih
    · exact Or.inr (by simp [firstMatchBy, found])

end Delete

section Move

variable {truth : α → Truth} {front middle back : List α} {item earlier : α}

theorem move_perm (front middle back : List α) (item earlier : α) :
    (front ++ item :: earlier :: (middle ++ back)).Perm
      (front ++ earlier :: (middle ++ item :: back)) := by
  refine List.Perm.append_left front ?_
  refine (List.Perm.swap earlier item _).trans (List.Perm.cons earlier ?_)
  exact List.perm_middle.symm

theorem firstMatch_noMatch_perm {items other : List α} (perm : items.Perm other) :
    firstMatch truth items = .noMatch ↔ firstMatch truth other = .noMatch := by
  simp only [firstMatch_eq_noMatch]
  exact ⟨fun none item member => none item (perm.mem_iff.mpr member),
    fun none item member => none item (perm.mem_iff.mp member)⟩

theorem firstMatch_move_false (no : truth item = .false) :
    firstMatch truth (front ++ item :: earlier :: (middle ++ back)) =
      firstMatch truth (front ++ earlier :: (middle ++ item :: back)) := by
  have inner : firstMatch truth (front ++ earlier :: (middle ++ item :: back)) =
      firstMatch truth (front ++ earlier :: (middle ++ back)) := by
    have deleted : firstMatch truth ((front ++ earlier :: middle) ++ item :: back) =
        firstMatch truth ((front ++ earlier :: middle) ++ back) := firstMatch_delete_false no
    simpa using deleted
  rw [inner, firstMatch_delete_false no]

theorem firstMatch_move (covers : truth item ≠ .false → truth earlier = .true) :
    firstMatch truth (front ++ item :: earlier :: (middle ++ back)) =
        firstMatch truth (front ++ earlier :: (middle ++ item :: back)) ∨
      (∃ hit, firstMatch truth (front ++ item :: earlier :: (middle ++ back)) =
        .undetermined hit) ∨
      firstMatch truth (front ++ earlier :: (middle ++ item :: back)) = .matched earlier := by
  by_cases no : truth item = .false
  · exact Or.inl (firstMatch_move_false no)
  · rw [firstMatch_append, firstMatch_append, firstMatch_cons_true _ (covers no)]
    cases firstMatch truth front with
    | matched hit => exact Or.inl rfl
    | undetermined hit => exact Or.inl rfl
    | noMatch => exact Or.inr (Or.inr rfl)

variable [DecidableEq κ] {label : α → κ}

/-- A class-major scan changes only by what it finds in the moved item's class. -/
theorem firstMatchBy_move {kinds : List κ} :
    firstMatchBy label truth (front ++ item :: earlier :: (middle ++ back)) kinds =
        firstMatchBy label truth (front ++ earlier :: (middle ++ item :: back)) kinds ∨
      ((firstMatchBy label truth (front ++ item :: earlier :: (middle ++ back)) kinds).StopsAt
          label (label item) ∧
        (firstMatchBy label truth (front ++ earlier :: (middle ++ item :: back)) kinds).StopsAt
          label (label item)) := by
  have stops {items : List α}
      (some_ : firstMatch (within label truth (label item)) items ≠ .noMatch) (rest : Scan α) :
      ((firstMatch (within label truth (label item)) items).orElse rest).StopsAt label
        (label item) := by
    cases found : firstMatch (within label truth (label item)) items with
    | noMatch => exact absurd found some_
    | undetermined hit => exact Or.inr rfl
    | matched hit =>
      obtain ⟨_, _, _, yes, _⟩ := firstMatch_eq_matched.mp found
      have own : label hit = label item := by
        by_contra other
        simp [within, other] at yes
      exact Or.inl (by simp [Scan.verdict, own])
  induction kinds with
  | nil => exact Or.inl rfl
  | cons kind rest ih =>
    simp only [firstMatchBy]
    by_cases own : label item = kind
    · subst own
      have alike : firstMatch (within label truth (label item)) _ = .noMatch ↔
          firstMatch (within label truth (label item)) _ = .noMatch :=
        firstMatch_noMatch_perm (move_perm front middle back item earlier)
      by_cases none : firstMatch (within label truth (label item))
          (front ++ item :: earlier :: (middle ++ back)) = .noMatch
      · rw [none, alike.mp none]
        simpa using ih
      · exact Or.inr ⟨stops none _, stops (fun found => none (alike.mpr found)) _⟩
    · rw [firstMatch_move_false (within_other own)]
      cases firstMatch (within label truth kind)
          (front ++ earlier :: (middle ++ item :: back)) with
      | matched hit => exact Or.inl rfl
      | undetermined hit => exact Or.inl rfl
      | noMatch => simpa using ih

end Move

section Search

/-! The same for a search that judges every item. -/

variable {accepts : α → Bool} {front middle back : List α} {item earlier : α}

theorem find?_move (covers : accepts item = true → accepts earlier = true) :
    (front ++ item :: earlier :: (middle ++ back)).find? accepts =
        (front ++ earlier :: (middle ++ item :: back)).find? accepts ∨
      ((front ++ item :: earlier :: (middle ++ back)).find? accepts = some item ∧
        (front ++ earlier :: (middle ++ item :: back)).find? accepts = some earlier) := by
  cases judged : accepts item with
  | false => exact Or.inl (by simp [List.find?_append, List.find?_cons, judged])
  | true =>
    have yes := covers judged
    cases found : front.find? accepts with
    | some hit => exact Or.inl (by simp [List.find?_append, found])
    | none => exact Or.inr ⟨by simp [List.find?_append, found, judged],
        by simp [List.find?_append, found, yes]⟩

end Search

end Foundation
