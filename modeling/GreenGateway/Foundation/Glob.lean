import Mathlib.Data.List.Basic

/-! Anchored patterns over sequences: each segment accepts one item, except deep
segments, which absorb any run of items. The table that decides a match, and a
sound test that one pattern accepts whatever another accepts. -/

namespace Foundation.Glob

open List

variable {σ α β : Type} {isDeep : σ → Bool} {accepts : σ → α → Bool} {items : List α}
  {rest pattern read : List σ} {segment : β → σ} {item : β → α} {parts : List β} {table : List Bool}

section Matches

variable (isDeep : σ → Bool) (accepts : σ → α → Bool)

/-- The items a pattern accepts. -/
inductive Matches : List σ → List α → Prop where
  | nil : Matches [] []
  | one {segment : σ} {rest : List σ} {item : α} {items : List α} :
      isDeep segment = false → accepts segment item = true → Matches rest items →
        Matches (segment :: rest) (item :: items)
  | skip {segment : σ} {rest : List σ} {items : List α} :
      isDeep segment = true → Matches rest items → Matches (segment :: rest) items
  | absorb {segment : σ} {rest : List σ} {item : α} {items : List α} :
      isDeep segment = true → Matches (segment :: rest) items →
        Matches (segment :: rest) (item :: items)

end Matches

theorem matches_nil : Matches isDeep accepts [] items ↔ items = [] := by
  constructor
  · intro accepted
    cases accepted
    rfl
  · rintro rfl
    exact .nil

theorem matches_one {segment : σ} (plain : isDeep segment = false) :
    Matches isDeep accepts (segment :: rest) items ↔
      ∃ item tail, items = item :: tail ∧ accepts segment item = true ∧
        Matches isDeep accepts rest tail := by
  constructor
  · intro accepted
    cases accepted with
    | one _ yes tail => exact ⟨_, _, rfl, yes, tail⟩
    | skip deep => simp [plain] at deep
    | absorb deep => simp [plain] at deep
  · rintro ⟨item, tail, rfl, yes, accepted⟩
    exact .one plain yes accepted

/-- A deep segment absorbs some front of the items. -/
theorem matches_deep {segment : σ} (deep : isDeep segment = true) :
    Matches isDeep accepts (segment :: rest) items ↔
      ∃ front tail, items = front ++ tail ∧ Matches isDeep accepts rest tail := by
  constructor
  · intro accepted
    induction items with
    | nil =>
      cases accepted with
      | skip _ tail => exact ⟨[], [], rfl, tail⟩
    | cons item items ih =>
      cases accepted with
      | one plain => simp [deep] at plain
      | skip _ tail => exact ⟨[], _, rfl, tail⟩
      | absorb _ below =>
        obtain ⟨front, tail, rfl, accepted⟩ := ih below
        exact ⟨item :: front, tail, rfl, accepted⟩
  · rintro ⟨front, tail, rfl, accepted⟩
    induction front with
    | nil => exact .skip deep accepted
    | cons item front ih => exact .absorb deep ih

/-- A pattern in two parts accepts the items in two parts. -/
theorem matches_append {first second : List σ} :
    Matches isDeep accepts (first ++ second) items ↔
      ∃ front tail, items = front ++ tail ∧ Matches isDeep accepts first front ∧
        Matches isDeep accepts second tail := by
  induction first generalizing items with
  | nil => simp [matches_nil]
  | cons segment rest ih =>
    rw [cons_append]
    cases kind : isDeep segment with
    | false =>
      simp only [matches_one kind, ih]
      constructor
      · rintro ⟨item, _, rfl, yes, front, tail, rfl, own, other⟩
        exact ⟨item :: front, tail, rfl, ⟨item, front, rfl, yes, own⟩, other⟩
      · rintro ⟨_, tail, rfl, ⟨item, front, rfl, yes, own⟩, other⟩
        exact ⟨item, front ++ tail, rfl, yes, front, tail, rfl, own, other⟩
    | true =>
      simp only [matches_deep kind, ih]
      constructor
      · rintro ⟨absorbed, _, rfl, front, tail, rfl, own, other⟩
        exact ⟨absorbed ++ front, tail, by simp, ⟨absorbed, front, rfl, own⟩, other⟩
      · rintro ⟨_, tail, rfl, ⟨absorbed, front, rfl, own⟩, other⟩
        exact ⟨absorbed, front ++ tail, by simp, front, tail, rfl, own, other⟩

theorem matches_single {segment : σ} (plain : isDeep segment = false) :
    Matches isDeep accepts [segment] items ↔
      ∃ item, items = [item] ∧ accepts segment item = true := by
  simp [matches_one plain, matches_nil]

theorem matches_deep_single {segment : σ} (deep : isDeep segment = true) (items : List α) :
    Matches isDeep accepts [segment] items :=
  (matches_deep deep).mpr ⟨items, [], by simp, .nil⟩

theorem matches_map (plain : ∀ part ∈ parts, isDeep (segment part) = false)
    (faces : ∀ part ∈ parts, accepts (segment part) (item part) = true) :
    Matches isDeep accepts (parts.map segment) (parts.map item) := by
  induction parts with
  | nil => exact .nil
  | cons part parts ih =>
    exact .one (plain part (mem_cons_self ..)) (faces part (mem_cons_self ..))
      (ih (fun other member => plain other (mem_cons_of_mem part member))
        fun other member => faces other (mem_cons_of_mem part member))

theorem forall₂_of_matches (plain : ∀ segment ∈ pattern, isDeep segment = false)
    (accepted : Matches isDeep accepts pattern items) :
    List.Forall₂ (fun segment item => accepts segment item = true) pattern items := by
  induction pattern generalizing items with
  | nil =>
    rw [matches_nil.mp accepted]
    exact .nil
  | cons segment pattern ih =>
    obtain ⟨own, others⟩ := List.forall_mem_cons.mp plain
    obtain ⟨item, tail, rfl, faces, rest⟩ := (matches_one own).mp accepted
    exact .cons faces (ih others rest)

/-- A segment that is not deep and accepts nothing leaves nothing to match. -/
theorem not_matches_of_mem {dead : σ} (listed : dead ∈ pattern) (plain : isDeep dead = false)
    (refuses : ∀ item, accepts dead item = false) : ¬ Matches isDeep accepts pattern items := by
  intro accepted
  obtain ⟨before, after, rfl⟩ := append_of_mem listed
  obtain ⟨front, tail, rfl, -, rest⟩ := matches_append.mp accepted
  obtain ⟨item, later, rfl, faces, -⟩ := (matches_one plain).mp rest
  rw [refuses item] at faces
  cases faces

theorem matches_of_parts
    (faces : ∀ part ∈ parts, Matches isDeep accepts [segment part] [item part]) :
    Matches isDeep accepts (parts.map segment) (parts.map item) := by
  induction parts with
  | nil => exact .nil
  | cons part parts ih =>
    obtain ⟨own, others⟩ := List.forall_mem_cons.mp faces
    exact matches_append.mpr ⟨[item part], parts.map item, rfl, own, ih others⟩

theorem matches_rename {τ : Type} {isDeep' : τ → Bool} {accepts' : τ → α → Bool} {rename : σ → τ}
    (deep : ∀ segment, isDeep' (rename segment) = isDeep segment)
    (same : ∀ segment item, accepts' (rename segment) item = accepts segment item) :
    Matches isDeep' accepts' (pattern.map rename) items ↔ Matches isDeep accepts pattern items := by
  induction pattern generalizing items with
  | nil => simp [matches_nil]
  | cons segment rest ih =>
    rw [map_cons]
    cases kind : isDeep segment with
    | false => simp only [matches_one ((deep segment).trans kind), matches_one kind, same, ih]
    | true => simp only [matches_deep ((deep segment).trans kind), matches_deep kind, ih]

section Covers

variable (isDeep) (faces : σ → σ → Bool)

/-- Some tail of the segments, the whole included, passes `next`. -/
def absorbing (next : List σ → Bool) : List σ → Bool
  | [] => next []
  | segment :: tail => next (segment :: tail) || absorbing next tail

/-- Whether one alignment of the patterns works for everything `covered` accepts:
a deep segment of `covering` absorbs a run of segments, any other faces one. -/
def covers : List σ → List σ → Bool
  | [], covered => covered.isEmpty
  | segment :: rest, covered =>
    if isDeep segment then absorbing (covers rest) covered
    else match covered with
      | [] => false
      | faced :: tail => !isDeep faced && faces segment faced && covers rest tail

end Covers

theorem absorbing_iff {next : List σ → Bool} {segments : List σ} :
    absorbing next segments = true ↔
      ∃ front tail, segments = front ++ tail ∧ next tail = true := by
  induction segments with
  | nil => simp [absorbing]
  | cons segment rest ih =>
    simp only [absorbing, Bool.or_eq_true, ih]
    constructor
    · rintro (own | ⟨front, tail, rfl, found⟩)
      · exact ⟨[], _, rfl, own⟩
      · exact ⟨segment :: front, tail, rfl, found⟩
    · rintro ⟨front, tail, split, found⟩
      cases front with
      | nil => exact Or.inl (by simpa [split] using found)
      | cons head front =>
        obtain ⟨rfl, rfl⟩ := List.cons.inj split
        exact Or.inr ⟨front, tail, rfl, found⟩

/-- A covering pattern accepts whatever the covered one accepts. -/
theorem covers_sound {faces : σ → σ → Bool}
    (facing : ∀ segment faced item, faces segment faced = true → accepts faced item = true →
      accepts segment item = true)
    {covering covered : List σ} (aligned : covers isDeep faces covering covered = true)
    (accepted : Matches isDeep accepts covered items) : Matches isDeep accepts covering items := by
  induction covering generalizing covered items with
  | nil =>
    obtain rfl : covered = [] := by simpa [covers] using aligned
    exact accepted
  | cons segment rest ih =>
    cases kind : isDeep segment with
    | true =>
      simp only [covers, kind, if_true, absorbing_iff] at aligned
      obtain ⟨front, tail, rfl, aligned⟩ := aligned
      obtain ⟨absorbed, items, rfl, -, accepted⟩ := matches_append.mp accepted
      exact (matches_deep kind).mpr ⟨absorbed, items, rfl, ih aligned accepted⟩
    | false =>
      cases covered with
      | nil => simp [covers, kind] at aligned
      | cons faced tail =>
        simp only [covers, kind, Bool.false_eq_true, if_false, Bool.and_eq_true,
          Bool.not_eq_true'] at aligned
        obtain ⟨⟨plain, face⟩, aligned⟩ := aligned
        obtain ⟨item, items, rfl, yes, accepted⟩ := (matches_one plain).mp accepted
        exact .one kind (facing segment faced item face yes) (ih aligned accepted)

section Table

variable (isDeep accepts)

/-- A deep segment reaches every position at or after a reachable one. -/
def reachDeep (canReachHere : Bool) : List Bool → List Bool
  | [] => []
  | reachable :: rest => (canReachHere || reachable) :: reachDeep (canReachHere || reachable) rest

/-- The positions reachable after one more segment. -/
def reachNext (items : List α) (reachable : List Bool) (segment : σ) : List Bool :=
  if isDeep segment then reachDeep false reachable
  else false :: List.zipWith (fun reached item => reached && accepts segment item) reachable items

/-- Whether the table's last position is reachable after the whole pattern. -/
def tableMatch (pattern : List σ) (items : List α) : Bool :=
  let start := true :: List.replicate items.length false
  ((pattern.foldl (reachNext isDeep accepts items) start)[items.length]?).getD false

end Table

theorem reachDeep_length (canReachHere : Bool) (table : List Bool) :
    (reachDeep canReachHere table).length = table.length := by
  induction table generalizing canReachHere with
  | nil => rfl
  | cons reachable rest ih => simp [reachDeep, ih]

theorem reachDeep_getElem? {canReachHere : Bool} {index : Nat} (bound : index < table.length) :
    (reachDeep canReachHere table)[index]? = some true ↔
      canReachHere = true ∨ ∃ earlier ≤ index, table[earlier]? = some true := by
  induction table generalizing canReachHere index with
  | nil => simp at bound
  | cons reachable rest ih =>
    cases index with
    | zero => simp [reachDeep]
    | succ index =>
      have rest_bound : index < rest.length := by simpa using bound
      simp only [reachDeep, List.getElem?_cons_succ, ih rest_bound, Bool.or_eq_true, or_assoc]
      refine or_congr_right ?_
      constructor
      · rintro (first | ⟨earlier, before, found⟩)
        · exact ⟨0, by omega, by simp [first]⟩
        · exact ⟨earlier + 1, by omega, by simpa using found⟩
      · rintro ⟨earlier, before, found⟩
        cases earlier with
        | zero => exact Or.inl (by simpa using found)
        | succ earlier => exact Or.inr ⟨earlier, by omega, by simpa using found⟩

/-- The table after the segments `read`: a position is reachable exactly when
they accept the items before it. -/
structure Reached (isDeep : σ → Bool) (accepts : σ → α → Bool) (items : List α)
    (table : List Bool) (read : List σ) : Prop where
  length : table.length = items.length + 1
  reachable : ∀ index ≤ items.length,
    table[index]? = some true ↔ Matches isDeep accepts read (items.take index)

theorem Reached.start (items : List α) :
    Reached isDeep accepts items (true :: List.replicate items.length false) [] where
  length := by simp
  reachable index bound := by
    cases index with
    | zero => simp [matches_nil]
    | succ index =>
      have nonempty : items ≠ [] := by
        rintro rfl
        simp at bound
      simp [matches_nil, List.getElem?_replicate, nonempty]

theorem Reached.step_deep {segment : σ}
    (reached : Reached isDeep accepts items table read) (deep : isDeep segment = true) :
    Reached isDeep accepts items (reachDeep false table) (read ++ [segment]) where
  length := by rw [reachDeep_length, reached.length]
  reachable index bound := by
    rw [reachDeep_getElem? (by have := reached.length; omega), matches_append]
    simp only [Bool.false_eq_true, false_or]
    constructor
    · rintro ⟨earlier, before, found⟩
      refine ⟨items.take earlier, (items.take index).drop earlier, ?_,
        (reached.reachable earlier (by omega)).mp found, matches_deep_single deep _⟩
      have split := take_append_drop earlier (items.take index)
      rw [take_take, Nat.min_eq_left before] at split
      exact split.symm
    · rintro ⟨front, tail, split, accepted, -⟩
      have size : front.length ≤ index := by
        have := congrArg List.length split
        simp only [length_take, length_append] at this
        omega
      refine ⟨front.length, size, (reached.reachable _ (by omega)).mpr ?_⟩
      have front_eq : items.take front.length = front := by
        have := congrArg (List.take front.length) split
        simpa [take_take, Nat.min_eq_left size] using this
      rwa [front_eq]

theorem Reached.step_one {segment : σ}
    (reached : Reached isDeep accepts items table read) (plain : isDeep segment = false) :
    Reached isDeep accepts items
      (false :: List.zipWith (fun reached item => reached && accepts segment item) table items)
      (read ++ [segment]) where
  length := by simp [reached.length]
  reachable index bound := by
    simp only [matches_append, matches_single plain]
    cases index with
    | zero => simp
    | succ index =>
      have held : index < items.length := by omega
      have before := reached.reachable index (by omega)
      rw [take_succ_eq_append_getElem held]
      simp only [List.getElem?_cons_succ, List.getElem?_zipWith]
      constructor
      · intro found
        cases seen : table[index]? with
        | none => simp [seen] at found
        | some here =>
          simp only [seen, List.getElem?_eq_getElem held, Option.some.injEq,
            Bool.and_eq_true] at found
          obtain ⟨rfl, yes⟩ := found
          exact ⟨items.take index, [items[index]], rfl, before.mp seen, _, rfl, yes⟩
      · rintro ⟨front, _, split, accepted, item, rfl, yes⟩
        obtain ⟨rfl, same⟩ := append_inj' split rfl
        obtain rfl : items[index] = item := by simpa using same
        simp [before.mpr accepted, List.getElem?_eq_getElem held, yes]

/-- Each segment moves the table as it extends the pattern. -/
theorem Reached.step (segment : σ) (reached : Reached isDeep accepts items table read) :
    Reached isDeep accepts items (reachNext isDeep accepts items table segment)
      (read ++ [segment]) := by
  cases kind : isDeep segment with
  | true => simpa [reachNext, kind] using reached.step_deep kind
  | false => simpa [reachNext, kind] using reached.step_one kind

theorem Reached.run (reached : Reached isDeep accepts items table read) (pattern : List σ) :
    Reached isDeep accepts items (pattern.foldl (reachNext isDeep accepts items) table)
      (read ++ pattern) := by
  induction pattern generalizing table read with
  | nil => simpa using reached
  | cons segment rest ih => simpa using ih (reached.step segment)

theorem tableMatch_iff :
    tableMatch isDeep accepts pattern items = true ↔ Matches isDeep accepts pattern items := by
  have reached := ((Reached.start items).run pattern :
    Reached isDeep accepts items _ ([] ++ pattern))
  have last := reached.reachable items.length (Nat.le_refl _)
  rw [take_length, nil_append] at last
  rw [← last]
  simp only [tableMatch]
  cases (pattern.foldl (reachNext isDeep accepts items)
    (true :: List.replicate items.length false))[items.length]? with
  | none => simp
  | some held => simp

end Foundation.Glob
