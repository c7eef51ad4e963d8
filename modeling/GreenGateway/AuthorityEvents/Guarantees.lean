import GreenGateway.AuthorityEvents.Terms

/-! At-least-once delivery in order, over every run. -/

namespace GreenGateway.AuthorityEvents

open Database

section Growth

variable {config : DispatcherConfig} {system middle later : System} {cursor : Cursor} {fence : Nat}
  {next : Database}

/-- What only ever goes forward. -/
structure Grows (system later : System) : Prop where
  positions : system.database.lastPosition ≤ later.database.lastPosition
  cursor : ∀ cursor, system.database.cursor = some cursor →
    ∃ next, later.database.cursor = some next ∧ cursor.position ≤ next.position ∧
      cursor.fence ≤ next.fence
  journaled : ∀ row ∈ journaledRows later.log,
    row ∈ journaledRows system.log ∨ system.database.lastPosition < row.position

theorem Grows.refl (system : System) : Grows system system :=
  ⟨le_rfl, fun cursor found => ⟨cursor, found, le_rfl, le_rfl⟩, fun _ => .inl⟩

theorem Grows.trans (first : Grows system middle) (second : Grows middle later) :
    Grows system later := by
  refine ⟨first.positions.trans second.positions, fun cursor found => ?_, fun row member => ?_⟩
  · obtain ⟨next, existed, position, fence⟩ := first.cursor cursor found
    obtain ⟨final, exists_, further, higher⟩ := second.cursor next existed
    exact ⟨final, exists_, position.trans further, fence.trans higher⟩
  · rcases second.journaled row member with old | new
    · exact first.journaled row old
    · exact .inr (first.positions.trans_lt new)

/-- The cursor is written and nothing is journaled. -/
theorem Grows.of_cursor {events : List Event}
    (database : later.database = { system.database with cursor := some cursor })
    (log : later.log = system.log ++ events) (unjournaled : journaledRows events = [])
    (forward : ∀ old, system.database.cursor = some old →
      old.position ≤ cursor.position ∧ old.fence ≤ cursor.fence) : Grows system later := by
  refine ⟨by rw [database], fun old found => ⟨cursor, by rw [database], forward old found⟩, ?_⟩
  intro row member
  rw [log, journaledRows_append, unjournaled, List.append_nil] at member
  exact .inl member

theorem Grows.claim {position : Nat} {holder : String}
    {state : TermState} (claims : system.database.claim fence holder = some (position, next)) :
    Grows system ((system.claim fence position next).setTerm fence state) := by
  obtain ⟨cursor, rfl, sameFence, place, before⟩ := claim_eq_some claims
  refine Grows.of_cursor rfl (List.append_assoc ..) journaledRows_claimEvents ?_
  intro old found
  rcases before with ⟨absent, -⟩ | ⟨current, existed, same, newer⟩
  · cases absent.symm.trans found
  · cases existed.symm.trans found
    omega

theorem Grows.advance {term : DispatcherTerm} {batch : AcceptedBatch} (sound : Sound system)
    (running : system.terms fence = .running term) (holds : term.accepted = some batch)
    (advances : system.database.advance term.fence term.committed batch.through batch.events =
      some next) :
    Grows system (system.advance fence term.committed batch.through next) := by
  have forward := ((sound.running running).batch batch holds).2.1
  obtain ⟨old, cursor, found, sameFence, place, rfl, keeps, moved⟩ := advance_eq_some advances
  refine Grows.of_cursor rfl rfl (journaledRows_advanceEvents _ _) ?_
  intro current existed
  cases found.symm.trans existed
  omega

theorem Grows.step (sound : Sound system) (step : Step config system later) :
    Grows system later := by
  cases step with
  | produce next produces =>
    obtain ⟨rows, extended⟩ := produces.extends
    have noted : next.journal.drop system.database.journal.length = rows := by
      rw [extended.journal, List.drop_left]
    simp only [System.journal, noted]
    refine ⟨extended.grows, fun cursor found => ?_, fun row member => ?_⟩
    · exact ⟨cursor, extended.cursor.trans found, le_rfl, le_rfl⟩
    · rw [journaledRows_append] at member
      rcases List.mem_append.mp member with old | new
      · exact .inl old
      · exact .inr (extended.placed row (by simpa [journaledRows] using new)).1
  | prune now retention limit =>
    refine ⟨le_rfl, fun cursor found => ⟨cursor, found, le_rfl, le_rfl⟩, fun row member => ?_⟩
    exact .inl (by simpa [System.prune, journaledRows] using member)
  | claim fence holder position next unborn claims => exact .claim claims
  | claimLost fence holder position next unborn claims => exact .claim claims
  | accept fence term running free filled =>
    refine ⟨le_rfl, fun cursor found => ⟨cursor, found, le_rfl, le_rfl⟩, fun row member => ?_⟩
    exact .inl (by simpa [System.accept, System.setTerm, journaledRows] using member)
  | commit fence term batch next running holds advances =>
    exact { Grows.advance sound running holds advances with }
  | commitLost fence term batch next running holds advances =>
    exact .advance sound running holds advances
  | configure | fill | stop => exact { Grows.refl system with }

theorem Grows.steps (sound : Sound system) (steps : Steps config system later) :
    Grows system later := by
  induction steps with
  | refl => exact .refl system
  | tail earlier step ih =>
    exact ih.trans (.step (sound.steps earlier) step)

theorem Step.retains {row : JournalRow} (step : Step config system later)
    (found : system.database.cursor = some cursor) (member : row ∈ system.database.journal)
    (above : cursor.position < row.position) : row ∈ later.database.journal := by
  cases step with
  | produce next produces =>
    obtain ⟨rows, extended⟩ := produces.extends
    simp only [System.journal, extended.journal]
    exact List.mem_append_left _ member
  | prune now retention limit =>
    refine Database.mem_prune.mpr ⟨member, fun doomed => ?_⟩
    exact absurd (le_of_mem_doomed doomed found) (by omega)
  | claim fence holder position next unborn claims =>
    obtain ⟨_, rfl, -⟩ := claim_eq_some claims
    exact member
  | claimLost fence holder position next unborn claims =>
    obtain ⟨_, rfl, -⟩ := claim_eq_some claims
    exact member
  | commit fence term batch next running holds advances =>
    obtain ⟨_, _, -, -, -, rfl, -⟩ := advance_eq_some advances
    exact member
  | commitLost fence term batch next running holds advances =>
    obtain ⟨_, _, -, -, -, rfl, -⟩ := advance_eq_some advances
    exact member
  | configure | fill | accept | stop => exact member

end Growth

section Guarantees

variable {config : DispatcherConfig} {system : System}

/-- The cursor only goes forward, passes only what a term delivered before it moved the cursor,
and is out of reach of older terms; retention stays behind it; and each term delivers in order,
passing over nothing but what retention had deleted. -/
theorem authorityEvents_delivered (reachable : Reachable config system) :
    (∀ later, Steps config system later → ∀ cursor, system.database.cursor = some cursor →
      (∃ next, later.database.cursor = some next ∧ cursor.position ≤ next.position ∧
        cursor.fence ≤ next.fence) ∧
      ∀ row ∈ journaledRows later.log, row.position ≤ cursor.position →
        row ∈ journaledRows system.log) ∧
    (∀ cursor, system.database.cursor = some cursor → ∀ row, Owed system.log row →
      row.position ≤ cursor.position → Delivered system.log row) ∧
    (∀ next, Step config system next → ∀ cursor, system.database.cursor = some cursor →
      ∀ row ∈ system.database.journal, cursor.position < row.position →
        row ∈ next.database.journal) ∧
    InOrder system.log ∧
    ∀ fence position, .claimed fence position ∈ system.log → ∀ lower < fence,
      ∀ start through delivered,
        system.database.advance lower start through delivered = none := by
  have sound := reachable.sound
  refine ⟨?_, sound.stored.delivers, ?_, sound.inOrder, ?_⟩
  · intro later steps cursor found
    have grows := Grows.steps sound steps
    refine ⟨grows.cursor cursor found, fun row member low => ?_⟩
    have reached := sound.stored.reached cursor found
    exact (grows.journaled row member).resolve_right (by omega)
  · exact fun next step cursor found row member above => step.retains found member above
  · -- the cursor's fence is no lower than one that was claimed
    intro fence position claimed lower low start through delivered
    obtain ⟨cursor, found, high⟩ := sound.stored.fences fence position claimed
    have apart : cursor.fence ≠ lower := by omega
    simp [Database.advance, found, apart]

end Guarantees

section Pruned

/-! Two rows, the older of them past its retention before the first claim. -/

def sampleConfig : DispatcherConfig := { batchSize := 10, projects := fun _ => true }

def sampleRow (position : Nat) (eventId : String) (journaledAt : Int) : JournalRow :=
  { position, eventId, source := .documentChange, journaledAt }

def sampleDatabase (lastPosition : Nat) (journal : List JournalRow) (cursor : Option Cursor) :
    Database :=
  { journal, lastPosition, retainedEvents := journal.length, reservedWithdrawals := 0
    capacity := 10, cursor }

def sampleCursor (position deliveredEvents : Nat) : Cursor :=
  { position, fence := 1, holder := "gateway", deliveredEvents }

def sampleJournaled : System :=
  ((System.empty 10).journal (sampleDatabase 1 [sampleRow 1 "a" 0] none)).journal
    (sampleDatabase 2 [sampleRow 1 "a" 0, sampleRow 2 "b" 5] none)

def sampleClaimed : System :=
  ((sampleJournaled.prune 10 6 1).claim 1 0
    (sampleDatabase 2 [sampleRow 2 "b" 5] (some (sampleCursor 0 0)))).setTerm 1
      (.running (.begin 1 0))

def sampleFilled : DispatcherTerm :=
  (DispatcherTerm.begin 1 0).fill sampleConfig [sampleRow 2 "b" 5]

def sampleAccepted : System :=
  ((sampleClaimed.setTerm 1 (.running sampleFilled)).accept 1 sampleFilled.pending).setTerm 1
    (.running sampleFilled.offer)

def sampleMoved : System :=
  (sampleAccepted.advance 1 0 2
    (sampleDatabase 2 [sampleRow 2 "b" 5] (some (sampleCursor 2 1)))).setTerm 1
      (.running (sampleFilled.offer.commit { through := 2, events := 1 }))

theorem sampleAccepted_reachable : Reachable sampleConfig sampleAccepted := by
  refine ⟨10, ?_⟩
  have first : Step sampleConfig (.empty 10) _ :=
    .produce (sampleDatabase 1 [sampleRow 1 "a" 0] none)
      (.inl ⟨.documentChange, "a", 0, by decide⟩)
  have second : Step sampleConfig _ sampleJournaled :=
    .produce _ (.inl ⟨.documentChange, "b", 5, by decide⟩)
  have pruned : Step sampleConfig sampleJournaled _ := .prune 10 6 1
  have claimed : Step sampleConfig _ sampleClaimed := .claim 1 "gateway" 0 _ rfl (by decide)
  have filled : Step sampleConfig sampleClaimed (sampleClaimed.setTerm 1 (.running sampleFilled)) :=
    .fill 1 (.begin 1 0) rfl rfl rfl
  have accepted : Step sampleConfig _ sampleAccepted := .accept 1 sampleFilled rfl rfl (by decide)
  exact .tail (.tail (.tail (.tail (.tail (.single first) second) pruned) claimed) filled) accepted

/-- The first claim starts at 0, and the row at 1 is gone. -/
theorem accepts_with_gap : ¬ ∀ system, Reachable sampleConfig system →
    ∀ fence position, .claimed fence position ∈ system.log →
      (acceptedRows fence system.log).map (·.position) =
        List.range' (position + 1) (acceptedRows fence system.log).length := by
  intro gapless
  have consecutive := gapless sampleAccepted sampleAccepted_reachable 1 0 (by decide)
  revert consecutive
  decide

theorem sampleMoved_reachable : Reachable sampleConfig sampleMoved := by
  obtain ⟨capacity, steps⟩ := sampleAccepted_reachable
  exact ⟨capacity, steps.tail
    (.commit 1 sampleFilled.offer { through := 2, events := 1 } _ rfl rfl (by decide))⟩

theorem authorityEvents_delivered_sample :
    Reachable sampleConfig sampleMoved ∧ Delivered sampleMoved.log (sampleRow 2 "b" 5) ∧
      sampleMoved.database.advance 0 2 3 1 = none := by
  have guarantees := authorityEvents_delivered sampleMoved_reachable
  refine ⟨sampleMoved_reachable, ?_, ?_⟩
  · refine guarantees.2.1 (sampleCursor 2 1) rfl _ ⟨sampleJournaled.log ++ [.deleted
      [sampleRow 1 "a" 0]], [.claimed 1 0, .accepted 1 [sampleRow 2 "b" 5], .moved 1 0 2],
      by decide, by decide⟩ (by decide)
  · exact guarantees.2.2.2.2 1 0 (by decide) 0 (by decide) 2 3 1

end Pruned

end GreenGateway.AuthorityEvents
