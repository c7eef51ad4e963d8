import GreenGateway.Foundation.Kleene

/-! Ordered scans under three-valued predicates. A scan stops at the first item
that certainly matches, and also at the first item it cannot judge, since that
item might have been the answer. -/

namespace Foundation

open List

universe u v w

variable {α : Type u} {β : Type v} {κ : Type w}

/-- What an ordered scan found. -/
inductive Scan (α : Type u) where
  | matched (item : α)
  | noMatch
  | undetermined (item : α)
  deriving DecidableEq, Repr

namespace Scan

def map (f : α → β) : Scan α → Scan β
  | .matched item => .matched (f item)
  | .noMatch => .noMatch
  | .undetermined item => .undetermined (f item)

/-- The first scan's finding, or the second's when the first found nothing. -/
def orElse (first next : Scan α) : Scan α :=
  match first with
  | .noMatch => next
  | found => found

@[simp] theorem noMatch_orElse (next : Scan α) : (Scan.noMatch).orElse next = next := rfl

@[simp] theorem matched_orElse (item : α) (next : Scan α) :
    (Scan.matched item).orElse next = .matched item := rfl

@[simp] theorem undetermined_orElse (item : α) (next : Scan α) :
    (Scan.undetermined item).orElse next = .undetermined item := rfl

@[simp] theorem orElse_noMatch (first : Scan α) : first.orElse .noMatch = first := by
  cases first <;> rfl

/-- `fine` agrees with `coarse` wherever `coarse` gives an answer. -/
def Refines (coarse fine : Scan α) : Prop := (∃ item, coarse = .undetermined item) ∨ coarse = fine

theorem Refines.refl (scan : Scan α) : Refines scan scan := Or.inr rfl

end Scan

/-- The first certain match, unless an item that cannot be judged comes first. -/
def firstMatch (truth : α → Truth) : List α → Scan α
  | [] => .noMatch
  | item :: rest =>
    match truth item with
    | .true => .matched item
    | .unknown => .undetermined item
    | .false => firstMatch truth rest

attribute [local grind =] firstMatch

section FirstMatch

variable {truth truth' : α → Truth} {items : List α} {item : α} (rest : List α)

theorem firstMatch_cons_false (no : truth item = .false) :
    firstMatch truth (item :: rest) = firstMatch truth rest := by
  simp [firstMatch, no]

theorem firstMatch_cons_true (yes : truth item = .true) :
    firstMatch truth (item :: rest) = .matched item := by
  simp [firstMatch, yes]

theorem firstMatch_cons_unknown (open_ : truth item = .unknown) :
    firstMatch truth (item :: rest) = .undetermined item := by
  simp [firstMatch, open_]

theorem firstMatch_append (front back : List α) :
    firstMatch truth (front ++ back) = (firstMatch truth front).orElse (firstMatch truth back) := by
  induction front with
  | nil => rfl
  | cons item rest ih =>
    cases judged : truth item with
    | false =>
      rw [cons_append, firstMatch_cons_false _ judged, firstMatch_cons_false _ judged]
      exact ih
    | true =>
      rw [cons_append, firstMatch_cons_true _ judged, firstMatch_cons_true _ judged]
      rfl
    | unknown =>
      rw [cons_append, firstMatch_cons_unknown _ judged, firstMatch_cons_unknown _ judged]
      rfl

theorem firstMatch_eq_noMatch :
    firstMatch truth items = .noMatch ↔ ∀ item ∈ items, truth item = .false := by
  induction items with
  | nil => simp [firstMatch]
  | cons head rest ih => cases judged : truth head <;> simp [firstMatch, judged, ih]

/-- A scan judges the first item that does not certainly fail. -/
theorem firstMatch_eq_find? (truth : α → Truth) (items : List α) : firstMatch truth items =
    (items.find? (truth · != .false)).elim .noMatch fun item => firstMatch truth [item] := by
  induction items with
  | nil => rfl
  | cons head rest ih => cases judged : truth head <;> simp [firstMatch, judged, ih]

theorem find?_open {answer : Truth} (known : answer ≠ .false) :
    items.find? (truth · != .false) = some item ∧ truth item = answer ↔
      ∃ front back, items = front ++ item :: back ∧ truth item = answer ∧
        ∀ earlier ∈ front, truth earlier = .false := by
  rw [find?_eq_some_iff_append]
  constructor
  · rintro ⟨⟨-, front, back, split, none⟩, judged⟩
    exact ⟨front, back, split, judged, by simpa using none⟩
  · rintro ⟨front, back, split, judged, none⟩
    exact ⟨⟨by simpa [judged] using known, front, back, split, by simpa using none⟩, judged⟩

/-- A certain finding is certain, and everything ahead of it certainly fails. -/
theorem firstMatch_eq_matched :
    firstMatch truth items = .matched item ↔
      ∃ front back, items = front ++ item :: back ∧ truth item = .true ∧
        ∀ earlier ∈ front, truth earlier = .false := by
  rw [← find?_open (by decide), firstMatch_eq_find?]
  cases items.find? (truth · != .false) with
  | none => simp
  | some hit => cases judged : truth hit <;> simp [firstMatch, judged] <;> grind

theorem firstMatch_eq_undetermined :
    firstMatch truth items = .undetermined item ↔
      ∃ front back, items = front ++ item :: back ∧ truth item = .unknown ∧
        ∀ earlier ∈ front, truth earlier = .false := by
  rw [← find?_open (by decide), firstMatch_eq_find?]
  cases items.find? (truth · != .false) with
  | none => simp
  | some hit => cases judged : truth hit <;> simp [firstMatch, judged] <;> grind

/-- The same by position: every earlier item certainly fails. -/
theorem firstMatch_eq_matched_at :
    firstMatch truth items = .matched item ↔
      ∃ index : Nat, items[index]? = some item ∧ truth item = .true ∧
        ∀ earlier : Nat, earlier < index → ∀ other, items[earlier]? = some other → truth other = .false := by
  rw [firstMatch_eq_matched]
  constructor
  · rintro ⟨front, back, rfl, yes, none⟩
    refine ⟨front.length, by simp, yes, fun earlier before other held => none other ?_⟩
    rw [List.getElem?_append_left before] at held
    exact mem_of_getElem? held
  · rintro ⟨index, found, yes, none⟩
    obtain ⟨bound, rfl⟩ := List.getElem?_eq_some_iff.mp found
    refine ⟨items.take index, items.drop (index + 1), by simp, yes, fun earlier member => ?_⟩
    obtain ⟨position, held⟩ := mem_iff_getElem?.mp member
    rw [List.getElem?_take] at held
    split at held
    · exact none position ‹_› earlier held
    · cases held

theorem firstMatch_ne_undetermined (known : ∀ item ∈ items, truth item ≠ .unknown) :
    firstMatch truth items ≠ .undetermined item := by
  intro stopped
  obtain ⟨front, back, rfl, open_, -⟩ := firstMatch_eq_undetermined.mp stopped
  exact known item (by simp) open_

theorem firstMatch_congr (same : ∀ item ∈ items, truth item = truth' item) :
    firstMatch truth items = firstMatch truth' items := by
  induction items with
  | nil => rfl
  | cons head rest ih =>
    have tail := ih fun item member => same item (mem_cons_of_mem head member)
    simp only [firstMatch, same head (mem_cons_self ..), tail]

theorem firstMatch_map (f : β → α) (items : List β) :
    firstMatch truth (items.map f) = (firstMatch (fun item => truth (f item)) items).map f := by
  induction items with
  | nil => rfl
  | cons head rest ih =>
    cases judged : truth (f head) <;> simp [firstMatch, judged, ih, Scan.map]

/-- Learning more about the items never changes an answer already given. -/
theorem firstMatch_refines (refined : ∀ item ∈ items, Truth.Refines (truth item) (truth' item)) :
    Scan.Refines (firstMatch truth items) (firstMatch truth' items) := by
  induction items with
  | nil => exact .refl _
  | cons head rest ih =>
    have tail := ih fun item member => refined item (mem_cons_of_mem head member)
    rcases refined head (mem_cons_self ..) with open_ | same
    · exact Or.inl ⟨head, firstMatch_cons_unknown _ open_⟩
    · cases judged : truth head with
      | false =>
        rw [firstMatch_cons_false _ judged, firstMatch_cons_false _ (same ▸ judged)]
        exact tail
      | true =>
        rw [firstMatch_cons_true _ judged, firstMatch_cons_true _ (same ▸ judged)]
        exact .refl _
      | unknown => exact Or.inl ⟨head, firstMatch_cons_unknown _ judged⟩

end FirstMatch

/-- The predicate restricted to one class of items. -/
def within [DecidableEq κ] (label : α → κ) (truth : α → Truth) (kind : κ) (item : α) : Truth :=
  if label item = kind then truth item else .false

/-- Class-major precedence: the first match among the items of the first class
that has one. -/
def firstMatchBy [DecidableEq κ] (label : α → κ) (truth : α → Truth) (items : List α) :
    List κ → Scan α
  | [] => .noMatch
  | kind :: rest =>
    (firstMatch (within label truth kind) items).orElse (firstMatchBy label truth items rest)

attribute [local grind =] within firstMatchBy

section FirstMatchBy

variable [DecidableEq κ] {label : α → κ} {truth truth' : α → Truth} {items : List α} {item : α}
  {kinds : List κ}

theorem firstMatch_within (kind : κ) : firstMatch (within label truth kind) items =
    firstMatch truth (items.filter (label · = kind)) := by
  induction items with
  | nil => rfl
  | cons head rest ih => by_cases own : label head = kind <;> simp [firstMatch, within, own, ih]

/-- Class-major order is the order of the items sorted into their classes. -/
theorem firstMatchBy_eq (label : α → κ) (truth : α → Truth) (items : List α) (kinds : List κ) :
    firstMatchBy label truth items kinds =
      firstMatch truth (kinds.flatMap fun kind => items.filter (label · = kind)) := by
  induction kinds with
  | nil => rfl
  | cons kind rest ih =>
    rw [firstMatchBy, flatMap_cons, firstMatch_append, firstMatch_within, ih]

theorem mem_classes : item ∈ (kinds.flatMap fun kind => items.filter (label · = kind)) ↔
    item ∈ items ∧ label item ∈ kinds := by
  simp [and_comm]

theorem firstMatchBy_refines (kinds : List κ)
    (refined : ∀ item ∈ items, Truth.Refines (truth item) (truth' item)) :
    Scan.Refines (firstMatchBy label truth items kinds) (firstMatchBy label truth' items kinds) := by
  rw [firstMatchBy_eq, firstMatchBy_eq]
  exact firstMatch_refines fun item member => refined item (mem_classes.mp member).1

theorem firstMatchBy_congr (same : ∀ item ∈ items, truth item = truth' item) (kinds : List κ) :
    firstMatchBy label truth items kinds = firstMatchBy label truth' items kinds := by
  rw [firstMatchBy_eq, firstMatchBy_eq]
  exact firstMatch_congr fun item member => same item (mem_classes.mp member).1

/-- A class-major finding is an item of some listed class, certain to match. -/
theorem mem_of_firstMatchBy (found : firstMatchBy label truth items kinds = .matched item) :
    item ∈ items ∧ truth item = .true ∧ label item ∈ kinds := by
  rw [firstMatchBy_eq, firstMatch_eq_matched] at found
  obtain ⟨front, back, split, yes, -⟩ := found
  obtain ⟨member, listed⟩ := mem_classes.mp (split ▸ mem_append_cons_self)
  exact ⟨member, yes, listed⟩

/-- Everything ahead of a class-major finding certainly fails: the items of the
classes before its own, and those of its own class before it. -/
theorem firstMatchBy_ahead (found : firstMatchBy label truth items kinds = .matched item) :
    ∃ index : Nat, items[index]? = some item ∧
      (∀ earlier : Nat, earlier < index → ∀ other, items[earlier]? = some other →
        label other = label item → truth other = .false) ∧
      ∀ other ∈ items, kinds.idxOf (label other) < kinds.idxOf (label item) →
        truth other = .false := by
  induction kinds with
  | nil => simp [firstMatchBy] at found
  | cons kind rest ih =>
    simp only [firstMatchBy] at found
    cases first : firstMatch (within label truth kind) items with
    | undetermined open_ => simp [first] at found
    | matched hit =>
      obtain rfl : hit = item := by simpa [first] using found
      obtain ⟨index, held, yes, none⟩ := firstMatch_eq_matched_at.mp first
      have own : label hit = kind := by
        by_contra other
        simp [within, other] at yes
      refine ⟨index, held, fun earlier before other present same => ?_, fun other _ ahead => ?_⟩
      · simpa [within, same, own] using none earlier before other present
      · simp [own] at ahead
    | noMatch =>
      have fails : ∀ other ∈ items, label other = kind → truth other = .false := by
        simpa [firstMatch_eq_noMatch, within] using first
      rw [first, Scan.noMatch_orElse] at found
      obtain ⟨index, held, sameClass, ahead⟩ := ih found
      obtain ⟨member, yes, -⟩ := mem_of_firstMatchBy found
      refine ⟨index, held, sameClass, fun other present before => ?_⟩
      by_cases own : label other = kind
      · exact fails other present own
      · have skip : label item ≠ kind := fun same => by simp [fails item member same] at yes
        refine ahead other present ?_
        simpa [idxOf_cons_ne _ (Ne.symm own), idxOf_cons_ne _ (Ne.symm skip)] using before

theorem firstMatchBy_eq_noMatch :
    firstMatchBy label truth items kinds = .noMatch ↔
      ∀ item ∈ items, label item ∈ kinds → truth item = .false := by
  simp only [firstMatchBy_eq, firstMatch_eq_noMatch, mem_classes, and_imp]

theorem firstMatchBy_determined (label : α → κ) (kinds : List κ)
    (known : ∀ item ∈ items, truth item ≠ .unknown) :
    (∃ item, firstMatchBy label truth items kinds = .matched item) ∨
      firstMatchBy label truth items kinds = .noMatch := by
  cases found : firstMatchBy label truth items kinds with
  | matched item => exact Or.inl ⟨item, rfl⟩
  | noMatch => exact Or.inr rfl
  | undetermined item =>
    rw [firstMatchBy_eq] at found
    exact absurd found
      (firstMatch_ne_undetermined fun item member => known item (mem_classes.mp member).1)

/-- When every item can be judged, the class-major scan finds the match whose
class comes first and, within its class, whose position does. -/
theorem firstMatchBy_eq_matched (known : ∀ item ∈ items, truth item ≠ .unknown) :
    firstMatchBy label truth items kinds = .matched item ↔
      ∃ index : Nat, items[index]? = some item ∧ truth item = .true ∧ label item ∈ kinds ∧
        ∀ (position : Nat) (other : α), items[position]? = some other → truth other = .true →
          label other ∈ kinds →
            kinds.idxOf (label item) < kinds.idxOf (label other) ∨
              (label item = label other ∧ index ≤ position) := by
  have leads {item : α} (found : firstMatchBy label truth items kinds = .matched item) :
      ∃ index : Nat, items[index]? = some item ∧
        ∀ (position : Nat) (other : α), items[position]? = some other → truth other = .true →
          kinds.idxOf (label item) < kinds.idxOf (label other) ∨
            (label item = label other ∧ index ≤ position) := by
    obtain ⟨index, held, sameClass, ahead⟩ := firstMatchBy_ahead found
    refine ⟨index, held, fun position other present yes => ?_⟩
    rcases Nat.lt_trichotomy (kinds.idxOf (label item)) (kinds.idxOf (label other)) with
      before | same | after
    · exact .inl before
    · have own := idxOf_inj (mem_of_firstMatchBy found).2.2 |>.mp same
      refine .inr ⟨own, Nat.le_of_not_lt fun earlier => ?_⟩
      simp [sameClass position earlier other present own.symm] at yes
    · simp [ahead other (mem_of_getElem? present) after] at yes
  constructor
  · intro found
    obtain ⟨index, held, first⟩ := leads found
    obtain ⟨-, yes, listed⟩ := mem_of_firstMatchBy found
    exact ⟨index, held, yes, listed, fun position other present true_ _ =>
      first position other present true_⟩
  · rintro ⟨index, held, yes, listed, first⟩
    rcases firstMatchBy_determined label kinds known with ⟨hit, found⟩ | none
    · -- two leaders stand at the same position
      obtain ⟨index', held', first'⟩ := leads found
      obtain ⟨-, yes', listed'⟩ := mem_of_firstMatchBy found
      have mine := first index' hit held' yes' listed'
      have other := first' index item held yes
      have same : label item = label hit := by
        rcases mine with before | ⟨same, -⟩
        · rcases other with after | ⟨same, -⟩
          · omega
          · exact same.symm
        · exact same
      simp only [same, Nat.lt_irrefl, false_or, true_and] at mine other
      obtain rfl := Nat.le_antisymm mine other
      rw [found, Option.some.inj (held.symm.trans held')]
    · have no := firstMatchBy_eq_noMatch.mp none item (mem_of_getElem? held) listed
      simp [no] at yes

end FirstMatchBy

/-- The first item that satisfies `p`, with its position counted from `start`. -/
def findFrom (p : α → Bool) (start : Nat) : List α → Option (Nat × α)
  | [] => none
  | item :: rest => if p item then some (start, item) else findFrom p (start + 1) rest

attribute [local grind =] findFrom

/-- The first item that satisfies `p`, with its position. -/
def findIndexed (p : α → Bool) (items : List α) : Option (Nat × α) := findFrom p 0 items

section FindIndexed

variable {p q : α → Bool} {items : List α} {item : α} {index : Nat}

theorem findFrom_congr (start : Nat) (same : ∀ item ∈ items, p item = q item) :
    findFrom p start items = findFrom q start items := by
  induction items generalizing start with
  | nil => rfl
  | cons head rest ih =>
    have tail := ih (start + 1) fun item member => same item (mem_cons_of_mem head member)
    simp only [findFrom, same head (mem_cons_self ..), tail]

theorem findIndexed_congr (same : ∀ item ∈ items, p item = q item) :
    findIndexed p items = findIndexed q items :=
  findFrom_congr 0 same

theorem findFrom_eq_some {start : Nat} :
    findFrom p start items = some (index, item) ↔
      ∃ offset, index = start + offset ∧ items[offset]? = some item ∧ p item = true ∧
        ∀ earlier < offset, ∀ other, items[earlier]? = some other → p other = false := by
  induction items generalizing start with
  | nil => simp [findFrom]
  | cons head rest ih =>
    cases judged : p head with
    | true =>
      simp only [findFrom, judged, if_true, Option.some.injEq, Prod.mk.injEq]
      constructor
      · rintro ⟨rfl, rfl⟩
        exact ⟨0, by simp, by simp, judged, by simp⟩
      · rintro ⟨offset, rfl, found, yes, none⟩
        cases offset with
        | zero => exact ⟨by simp, by simpa using found⟩
        | succ offset =>
          have := none 0 (Nat.succ_pos offset) head (by simp)
          simp [judged] at this
    | false =>
      simp only [findFrom, judged, Bool.false_eq_true, if_false, ih]
      constructor
      · rintro ⟨offset, rfl, found, yes, none⟩
        refine ⟨offset + 1, by omega, by simpa using found, yes, fun earlier before other held => ?_⟩
        cases earlier with
        | zero =>
          obtain rfl : head = other := by simpa using held
          exact judged
        | succ earlier => exact none earlier (by omega) other (by simpa using held)
      · rintro ⟨offset, rfl, found, yes, none⟩
        cases offset with
        | zero =>
          obtain rfl : head = item := by simpa using found
          simp [judged] at yes
        | succ offset =>
          exact ⟨offset, by omega, by simpa using found, yes, fun earlier before other held =>
            none (earlier + 1) (by omega) other (by simpa using held)⟩

theorem findIndexed_eq_some :
    findIndexed p items = some (index, item) ↔
      items[index]? = some item ∧ p item = true ∧
        ∀ earlier < index, ∀ other, items[earlier]? = some other → p other = false := by
  simp [findIndexed, findFrom_eq_some]

/-- Apart from its position, an indexed search is a search. -/
theorem findIndexed_snd (p : α → Bool) (items : List α) :
    (findIndexed p items).map Prod.snd = items.find? p := by
  have anywhere : ∀ start, (findFrom p start items).map Prod.snd = items.find? p := by
    induction items with
    | nil => exact fun _ => rfl
    | cons head rest ih =>
      intro start
      cases judged : p head <;> simp [findFrom, judged, ih]
  exact anywhere 0

theorem findFrom_map (f : β → α) (start : Nat) (items : List β) :
    findFrom p start (items.map f) =
      (findFrom (fun item => p (f item)) start items).map fun hit => (hit.1, f hit.2) := by
  induction items generalizing start with
  | nil => rfl
  | cons head rest ih => cases judged : p (f head) <;> simp [findFrom, judged, ih]

theorem findIndexed_map (f : β → α) (items : List β) :
    findIndexed p (items.map f) =
      (findIndexed (fun item => p (f item)) items).map fun hit => (hit.1, f hit.2) :=
  findFrom_map f 0 items

end FindIndexed

section Filtering

/-! What a search reads survives a filter that keeps it. -/

theorem any_filter_of_imp {α : Type} {keep read : α → Bool}
    (kept : ∀ item, read item = true → keep item = true) (items : List α) :
    (items.filter keep).any read = items.any read := by
  rw [any_filter]
  congr 1
  funext item
  by_cases reads : read item = true
  · simp [reads, kept item reads]
  · simp [reads]

theorem find?_filter_of_imp {α : Type} {keep read : α → Bool}
    (kept : ∀ item, read item = true → keep item = true) (items : List α) :
    (items.filter keep).find? read = items.find? read := by
  rw [List.find?_filter]
  congr 1
  funext item
  by_cases reads : read item = true
  · simp [reads, kept item reads]
  · simp [reads]

end Filtering

end Foundation
