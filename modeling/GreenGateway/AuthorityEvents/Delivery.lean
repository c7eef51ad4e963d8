import GreenGateway.AuthorityEvents.Dispatcher

/-! Delivery at least once, in order: what holds of the journal, the cursor and the sink in every
interleaving. -/

namespace GreenGateway.AuthorityEvents

open List Database

section Logs

variable {log before after events : List Event} {row : JournalRow} {rows : List JournalRow}
  {fence : Nat}

/-- Where an entry of an extended log stands. -/
theorem split_append {α : Type} {old new earlier later : List α} {item : α}
    (split : old ++ new = earlier ++ item :: later) :
    (∃ middle, old = earlier ++ item :: middle ∧ later = middle ++ new) ∨
      ∃ middle, earlier = old ++ middle ∧ new = middle ++ item :: later := by
  rcases List.append_eq_append_iff.mp split with ⟨middle, same, rest⟩ | ⟨middle, same, rest⟩
  · exact .inr ⟨middle, same, rest⟩
  · cases middle with
    | nil => exact .inr ⟨[], by simpa using same.symm, by simpa using rest.symm⟩
    | cons first middle =>
      obtain ⟨rfl, rfl⟩ := List.cons.inj rest
      exact .inl ⟨middle, same, rfl⟩

@[simp] theorem journaledRows_append :
    journaledRows (log ++ events) = journaledRows log ++ journaledRows events :=
  flatMap_append ..

@[simp] theorem deletedRows_append :
    deletedRows (log ++ events) = deletedRows log ++ deletedRows events :=
  flatMap_append ..

@[simp] theorem acceptedRows_append :
    acceptedRows fence (log ++ events) = acceptedRows fence log ++ acceptedRows fence events :=
  flatMap_append ..

theorem mem_acceptedRows : row ∈ acceptedRows fence log ↔
    ∃ rows, .accepted fence rows ∈ log ∧ row ∈ rows := by
  rw [acceptedRows, mem_flatMap]
  constructor
  · rintro ⟨event, noted, member⟩
    cases event with
    | accepted other rows =>
      by_cases same : other = fence
      · subst same
        exact ⟨rows, noted, by simpa using member⟩
      · simp [same] at member
    | _ => simp at member
  · rintro ⟨rows, noted, member⟩
    exact ⟨_, noted, by simpa using member⟩

theorem acceptedRows_eq_nil (unaccepted : ∀ fence rows, .accepted fence rows ∉ log) :
    acceptedRows fence log = [] := by
  rw [eq_nil_iff_forall_not_mem]
  intro row accepted
  obtain ⟨rows, noted, -⟩ := mem_acceptedRows.mp accepted
  exact unaccepted fence rows noted

/-- The sink accepted the row in a term that then moved the cursor past it. -/
def Delivered (log : List Event) (row : JournalRow) : Prop :=
  ∃ before after fence start through, log = before ++ .moved fence start through :: after ∧
    start < row.position ∧ row.position ≤ through ∧ row ∈ acceptedRows fence before

theorem Delivered.append (delivered : Delivered log row) : Delivered (log ++ events) row := by
  obtain ⟨before, after, fence, start, through, rfl, facts⟩ := delivered
  exact ⟨before, after ++ events, fence, start, through, by simp, facts⟩

/-- What becomes owed when the log grows without the cursor being created. -/
theorem Owed.of_append (uncreated : .created ∉ events) (owed : Owed (log ++ events) row) :
    Owed log row ∨ row ∈ journaledRows events := by
  obtain ⟨before, after, split, facts⟩ := owed
  rcases split_append split with ⟨middle, rfl, rfl⟩ | ⟨middle, rfl, rfl⟩
  · rw [journaledRows_append, mem_append, ← or_assoc] at facts
    exact facts.imp_left fun facts => ⟨before, middle, rfl, facts⟩
  · exact absurd (mem_append_right _ mem_cons_self) uncreated

/-- What the creation of the cursor makes owed. -/
theorem Owed.of_created (uncreated : .created ∉ log) (fresh : .created ∉ events)
    (owed : Owed (log ++ .created :: events) row) :
    row ∈ journaledRows log ∧ row ∉ deletedRows log ∨ row ∈ journaledRows events := by
  obtain ⟨before, after, split, facts⟩ := owed
  rcases split_append split with ⟨middle, rfl, rfl⟩ | ⟨middle, rfl, same⟩
  · exact absurd (mem_append_right _ mem_cons_self) uncreated
  · cases middle with
    | nil =>
      obtain ⟨-, rfl⟩ := List.cons.inj same
      simpa using facts
    | cons first middle =>
      obtain ⟨-, rfl⟩ := List.cons.inj same
      exact absurd (mem_append_right _ mem_cons_self) fresh

end Logs

section Invariant

/-- What a term that runs can rely on. -/
structure Runs (database : Database) (log : List Event) (fence : Nat) (term : DispatcherTerm) :
    Prop where
  own : term.fence = fence
  base : ∀ position, .claimed fence position ∈ log → position ≤ term.committed
  reached : term.committed ≤ database.lastPosition
  sorted : term.pending.Pairwise (·.position < ·.position)
  pending : ∀ row ∈ term.pending, term.committed < row.position ∧
    row.position ≤ term.pendingThrough
  last : term.pending ≠ [] → ∃ row ∈ term.pending, row.position = term.pendingThrough
  journaled : term.pending ≠ [] → term.pendingThrough ≤ database.lastPosition
  batch : ∀ batch, term.accepted = some batch → term.pending = [] ∧
    term.committed < batch.through ∧ batch.through ≤ database.lastPosition
  below : ∀ row ∈ acceptedRows fence log, row.position ≤ term.committed ∨
    ∃ batch, term.accepted = some batch ∧ row.position ≤ batch.through
  /-- At the cursor's fence the cursor is where the term knows it to be, or where an advance
  whose answer was lost took it. -/
  here : ∀ cursor, database.cursor = some cursor → cursor.fence = fence →
    cursor.position = term.committed ∨
      ∃ batch, term.accepted = some batch ∧ cursor.position = batch.through
  gathers : ∀ cursor, database.cursor = some cursor → cursor.fence = fence → ∀ row, Owed log row →
    term.committed < row.position →
      (term.pending ≠ [] → row.position ≤ term.pendingThrough → row ∈ term.pending) ∧
      ∀ batch, term.accepted = some batch → row.position ≤ batch.through →
        row ∈ acceptedRows fence log
  /-- Nothing above the claimed position is passed over but what retention had deleted. -/
  passes : ∀ position, .claimed fence position ∈ log → ∀ row ∈ journaledRows log,
    position < row.position →
      (row.position ≤ term.committed → row ∈ acceptedRows fence log ∨ row ∈ deletedRows log) ∧
      (term.pending ≠ [] → row.position ≤ term.pendingThrough →
        row ∈ acceptedRows fence log ∨ row ∈ term.pending ∨ row ∈ deletedRows log) ∧
      ∀ batch, term.accepted = some batch → row.position ≤ batch.through →
        row ∈ acceptedRows fence log ∨ row ∈ deletedRows log

/-- What holds of a fence, whatever became of its term. -/
def Holds (database : Database) (log : List Event) (fence : Nat) : TermState → Prop
  | .unborn => (∀ position, .claimed fence position ∉ log) ∧ acceptedRows fence log = []
  | .running term => Runs database log fence term
  | .ended => True

/-- What the sink accepted in each term is in order, and passes over nothing but what retention
had deleted. -/
structure InOrder (log : List Event) : Prop where
  ascending : ∀ fence, (acceptedRows fence log).Pairwise (·.position < ·.position)
  above : ∀ fence position, .claimed fence position ∈ log → ∀ row ∈ acceptedRows fence log,
    position < row.position
  passes : ∀ before after fence rows, log = before ++ .accepted fence rows :: after →
    ∀ position, .claimed fence position ∈ before → ∀ row ∈ journaledRows before,
      position < row.position → (∃ last ∈ rows, row.position ≤ last.position) →
      row ∈ acceptedRows fence before ∨ row ∈ rows ∨ row ∈ deletedRows before

/-- What the journal and the cursor are, against what happened. -/
structure Stored (database : Database) (log : List Event) : Prop where
  sorted : database.journal.Pairwise (·.position < ·.position)
  known : ∀ row ∈ database.journal, row ∈ journaledRows log
  kept : ∀ row ∈ journaledRows log, row ∈ database.journal ∨ row ∈ deletedRows log
  positive : ∀ row ∈ journaledRows log, 0 < row.position
  bounded : ∀ row ∈ journaledRows log, row.position ≤ database.lastPosition
  created : database.cursor = none → .created ∉ log
  reached : ∀ cursor, database.cursor = some cursor → cursor.position ≤ database.lastPosition
  awaits : ∀ cursor, database.cursor = some cursor → ∀ row, Owed log row →
    cursor.position < row.position → row ∈ database.journal
  delivers : ∀ cursor, database.cursor = some cursor → ∀ row, Owed log row →
    row.position ≤ cursor.position → Delivered log row
  fences : ∀ fence position, .claimed fence position ∈ log →
    ∃ cursor, database.cursor = some cursor ∧ fence ≤ cursor.fence

structure Sound (system : System) : Prop where
  stored : Stored system.database system.log
  terms : ∀ fence, Holds system.database system.log fence (system.terms fence)
  inOrder : InOrder system.log

end Invariant

section Others

variable {database next : Database} {log events : List Event} {fence : Nat}

/-- What happens does not touch the term of the fence. -/
structure Spares (database next : Database) (events : List Event) (fence : Nat) : Prop where
  grows : database.lastPosition ≤ next.lastPosition
  unclaimed : ∀ position, .claimed fence position ∉ events
  unaccepted : acceptedRows fence events = []
  fresh : ∀ row ∈ journaledRows events, database.lastPosition < row.position
  creates : .created ∈ events → database.cursor = none
  cursor : ∀ cursor, next.cursor = some cursor → cursor.fence = fence →
    ∃ old, database.cursor = some old ∧ old.fence = fence ∧ old.position = cursor.position

namespace Spares

variable (spares : Spares database next events fence)

include spares

/-- A row that becomes owed without the cursor being created is a new one. -/
theorem owed {row : JournalRow} {cursor : Cursor}
    (found : database.cursor = some cursor) (owed : Owed (log ++ events) row) :
    Owed log row ∨ database.lastPosition < row.position := by
  have uncreated : .created ∉ events := by
    intro created
    rw [spares.creates created] at found
    cases found
  exact (owed.of_append uncreated).imp_right (spares.fresh row)

theorem claimed {position : Nat}
    (claimed : .claimed fence position ∈ log ++ events) : .claimed fence position ∈ log :=
  (List.mem_append.mp claimed).resolve_right (spares.unclaimed position)

theorem runs {term : DispatcherTerm}
    (runs : Runs database log fence term) : Runs next (log ++ events) fence term where
  own := runs.own
  base position claimed := runs.base position (spares.claimed claimed)
  reached := runs.reached.trans spares.grows
  sorted := runs.sorted
  pending := runs.pending
  last := runs.last
  journaled filled := (runs.journaled filled).trans spares.grows
  batch batch holds :=
    have ⟨empty, low, high⟩ := runs.batch batch holds
    ⟨empty, low, high.trans spares.grows⟩
  below row accepted := by
    rw [acceptedRows_append, spares.unaccepted, append_nil] at accepted
    exact runs.below row accepted
  here cursor found same := by
    obtain ⟨old, existed, sameOld, position⟩ := spares.cursor cursor found same
    rw [← position]
    exact runs.here old existed sameOld
  gathers cursor found same row owed above := by
    obtain ⟨old, existed, sameOld, -⟩ := spares.cursor cursor found same
    rw [acceptedRows_append, spares.unaccepted, append_nil]
    rcases spares.owed existed owed with owed | new
    · exact runs.gathers old existed sameOld row owed above
    · refine ⟨fun filled low => ?_, fun batch holds low => ?_⟩
      · exact absurd (runs.journaled filled) (by omega)
      · exact absurd (runs.batch batch holds).2.2 (by omega)
  passes position claimed row journaled above := by
    rw [acceptedRows_append, spares.unaccepted, append_nil, deletedRows_append]
    rw [journaledRows_append] at journaled
    rcases List.mem_append.mp journaled with old | new
    · obtain ⟨done, read, sent⟩ := runs.passes position (spares.claimed claimed) row old above
      exact ⟨fun low => (done low).imp_right (mem_append_left _),
        fun filled low => (read filled low).imp_right (Or.imp_right (mem_append_left _)),
        fun batch holds low => (sent batch holds low).imp_right (mem_append_left _)⟩
    · have new := spares.fresh row new
      refine ⟨fun low => ?_, fun filled low => ?_, fun batch holds low => ?_⟩
      · exact absurd runs.reached (by omega)
      · exact absurd (runs.journaled filled) (by omega)
      · exact absurd (runs.batch batch holds).2.2 (by omega)

theorem holds {state : TermState}
    (holds : Holds database log fence state) : Holds next (log ++ events) fence state := by
  cases state with
  | unborn =>
    refine ⟨fun position claimed => holds.1 position (spares.claimed claimed), ?_⟩
    rw [acceptedRows_append, holds.2, spares.unaccepted, append_nil]
  | running term => exact spares.runs holds
  | ended => trivial

end Spares

theorem holds_update {terms : Nat → TermState} {state : TermState}
    (held : ∀ fence, Holds database log fence (terms fence))
    (own : Holds next (log ++ events) fence state)
    (others : ∀ other, other ≠ fence → Spares database next events other) (other : Nat) :
    Holds next (log ++ events) other (Function.update terms fence state other) := by
  by_cases same : other = fence
  · subst same
    rwa [Function.update_self]
  · rw [Function.update_of_ne same]
    exact (others other same).holds (held other)

theorem InOrder.append (inOrder : InOrder log)
    (unaccepted : ∀ fence rows, .accepted fence rows ∉ events)
    (claims : ∀ fence position, .claimed fence position ∈ events → acceptedRows fence log = []) :
    InOrder (log ++ events) where
  ascending fence := by
    rw [acceptedRows_append, acceptedRows_eq_nil unaccepted, append_nil]
    exact inOrder.ascending fence
  above fence position claimed row accepted := by
    rw [acceptedRows_append, acceptedRows_eq_nil unaccepted, append_nil] at accepted
    rcases List.mem_append.mp claimed with claimed | claimed
    · exact inOrder.above fence position claimed row accepted
    · rw [claims fence position claimed] at accepted
      cases accepted
  passes before after fence rows split := by
    rcases split_append split with ⟨middle, rfl, -⟩ | ⟨middle, -, rfl⟩
    · exact inOrder.passes before middle fence rows rfl
    · exact absurd (mem_append_right _ mem_cons_self) (unaccepted fence rows)

end Others

section Statements

variable {database next : Database} {log : List Event} {fence position : Nat}

theorem Produces.extends (produces : Produces database next) :
    ∃ rows, database.Extends next rows := by
  rcases produces with ⟨source, eventId, now, done⟩ | ⟨eventId, now, done⟩ | ⟨events, now, done⟩
  · simp only [Database.append, Option.ite_none_right_eq_some] at done
    obtain ⟨rows, extended⟩ := insertRows_extends done.2
    exact ⟨rows, { extended with }⟩
  · simp only [Database.grant, Option.ite_none_right_eq_some] at done
    obtain ⟨rows, extended⟩ := insertRows_extends done.2
    exact ⟨rows, { extended with }⟩
  · obtain ⟨rows, extended⟩ := insertRows_extends done
    exact ⟨rows, { extended with }⟩

namespace Stored

variable (stored : Stored database log)

include stored

theorem journal {rows : List JournalRow}
    (extended : database.Extends next rows) : Stored next (log ++ [.journaled rows]) := by
  have journaled : journaledRows (log ++ [.journaled rows]) = journaledRows log ++ rows := by
    simp [journaledRows]
  have deleted : deletedRows (log ++ [.journaled rows]) = deletedRows log := by simp [deletedRows]
  have owes : ∀ row, Owed (log ++ [.journaled rows]) row → Owed log row ∨ row ∈ rows := by
    intro row owed
    simpa [journaledRows] using owed.of_append (by simp)
  constructor
  case sorted =>
    rw [extended.journal, pairwise_append]
    refine ⟨stored.sorted, extended.sorted, fun row old newer new => ?_⟩
    exact (stored.bounded row (stored.known row old)).trans_lt (extended.placed newer new).1
  case known =>
    intro row member
    rw [extended.journal] at member
    rw [journaled]
    exact List.mem_append.mpr ((List.mem_append.mp member).imp_left (stored.known row))
  case kept =>
    intro row member
    rw [journaled] at member
    rw [extended.journal, deleted]
    rcases List.mem_append.mp member with old | new
    · exact (stored.kept row old).imp_left (mem_append_left _)
    · exact .inl (mem_append_right _ new)
  case positive =>
    intro row member
    rw [journaled] at member
    rcases List.mem_append.mp member with old | new
    · exact stored.positive row old
    · exact Nat.zero_lt_of_lt (extended.placed row new).1
  case bounded =>
    intro row member
    rw [journaled] at member
    rcases List.mem_append.mp member with old | new
    · exact (stored.bounded row old).trans extended.grows
    · exact (extended.placed row new).2
  case created =>
    intro absent
    simpa using stored.created (extended.cursor ▸ absent)
  case reached =>
    intro cursor found
    exact (stored.reached cursor (extended.cursor ▸ found)).trans extended.grows
  case awaits =>
    intro cursor found row owed above
    rw [extended.journal]
    rcases owes row owed with owed | new
    · exact mem_append_left _ (stored.awaits cursor (extended.cursor ▸ found) row owed above)
    · exact mem_append_right _ new
  case delivers =>
    intro cursor found row owed low
    rw [extended.cursor] at found
    rcases owes row owed with owed | new
    · exact (stored.delivers cursor found row owed low).append
    · -- a new row is above every position the cursor can have
      have above := (extended.placed row new).1
      have := stored.reached cursor found
      omega
  case fences =>
    intro fence position claimed
    rw [extended.cursor]
    exact stored.fences fence position (by simpa using claimed)

theorem shed {events : List Event}
    (cursor : next.cursor = database.cursor) (last : next.lastPosition = database.lastPosition)
    (quiet : journaledRows events = []) (uncreated : .created ∉ events)
    (unclaimed : ∀ fence position, .claimed fence position ∉ events)
    (fewer : next.journal <+ database.journal)
    (gone : ∀ row ∈ database.journal, row ∈ next.journal ∨ row ∈ deletedRows events ∧
      ∀ cursor, database.cursor = some cursor → row.position ≤ cursor.position) :
    Stored next (log ++ events) := by
  have journaled : journaledRows (log ++ events) = journaledRows log := by simp [quiet]
  have owes : ∀ row, Owed (log ++ events) row → Owed log row := by
    intro row owed
    simpa [quiet] using owed.of_append uncreated
  constructor
  case sorted => exact stored.sorted.sublist fewer
  case known => exact fun row member => journaled ▸ stored.known row (fewer.subset member)
  case kept =>
    intro row member
    rw [deletedRows_append, mem_append]
    rcases stored.kept row (journaled ▸ member) with old | deleted
    · exact (gone row old).imp_right fun facts => .inr facts.1
    · exact .inr (.inl deleted)
  case positive => exact journaled ▸ stored.positive
  case bounded => exact last ▸ journaled ▸ stored.bounded
  case created =>
    intro absent
    rw [mem_append, not_or]
    exact ⟨stored.created (cursor ▸ absent), uncreated⟩
  case reached => exact last ▸ cursor ▸ stored.reached
  case awaits =>
    intro current found row owed above
    rw [cursor] at found
    refine (gone row (stored.awaits current found row (owes row owed) above)).resolve_right ?_
    exact fun facts => absurd (facts.2 current found) (by omega)
  case delivers =>
    intro current found row owed low
    exact (stored.delivers current (cursor ▸ found) row (owes row owed) low).append
  case fences =>
    intro fence position claimed
    rw [cursor]
    exact stored.fences fence position
      ((List.mem_append.mp claimed).resolve_right (unclaimed fence position))

theorem prune (now retention : Int) (limit : Nat) :
    Stored (database.prune now retention limit)
      (log ++ [.deleted (database.doomed now retention limit)]) := by
  refine stored.shed rfl rfl rfl (by simp) (by simp) filter_sublist fun row member => ?_
  by_cases doomed : row ∈ database.doomed now retention limit
  · exact .inr ⟨by simpa [deletedRows] using doomed, fun _ => le_of_mem_doomed doomed⟩
  · exact .inl (Database.mem_prune.mpr ⟨member, doomed⟩)

theorem move {events : List Event} {cursor : Cursor}
    (journaled : journaledRows events = []) (deleted : deletedRows events = [])
    (reached : cursor.position ≤ database.lastPosition)
    (awaits : ∀ row, Owed (log ++ events) row → cursor.position < row.position →
      row ∈ database.journal)
    (delivers : ∀ row, Owed (log ++ events) row → row.position ≤ cursor.position →
      Delivered (log ++ events) row)
    (fences : ∀ fence position, .claimed fence position ∈ log ++ events → fence ≤ cursor.fence) :
    Stored { database with cursor := some cursor } (log ++ events) := by
  have same : journaledRows (log ++ events) = journaledRows log := by
    rw [journaledRows_append, journaled, append_nil]
  constructor
  case sorted => exact stored.sorted
  case known => exact same ▸ stored.known
  case kept =>
    rw [same, deletedRows_append, deleted, append_nil]
    exact stored.kept
  case positive => exact same ▸ stored.positive
  case bounded => exact same ▸ stored.bounded
  case created => exact fun absent => nomatch absent
  case reached =>
    rintro _ ⟨⟩
    exact reached
  case awaits =>
    rintro _ ⟨⟩
    exact awaits
  case delivers =>
    rintro _ ⟨⟩
    exact delivers
  case fences => exact fun fence position claimed => ⟨cursor, rfl, fences fence position claimed⟩

end Stored

/-- What a claim adds to the log. -/
def claimEvents (database : Database) (fence position : Nat) : List Event :=
  (if database.cursor = none then [.created] else []) ++ [.claimed fence position]

@[simp] theorem journaledRows_claimEvents :
    journaledRows (claimEvents database fence position) = [] := by
  unfold claimEvents
  split <;> rfl

@[simp] theorem deletedRows_claimEvents :
    deletedRows (claimEvents database fence position) = [] := by
  unfold claimEvents
  split <;> rfl

theorem accepted_notMem_claimEvents (other : Nat) (rows : List JournalRow) :
    .accepted other rows ∉ claimEvents database fence position := by
  unfold claimEvents
  split <;> simp

theorem claimed_mem_claimEvents {other place : Nat} :
    .claimed other place ∈ claimEvents database fence position ↔
      other = fence ∧ place = position := by
  unfold claimEvents
  split <;> simp

theorem created_mem_claimEvents :
    .created ∈ claimEvents database fence position ↔ database.cursor = none := by
  unfold claimEvents
  split <;> simp [*]

theorem Stored.claim {holder : String} (stored : Stored database log)
    (claims : database.claim fence holder = some (position, next)) :
    Stored next (log ++ claimEvents database fence position) := by
  obtain ⟨cursor, rfl, sameFence, rfl, place⟩ := claim_eq_some claims
  have fences : ∀ other place, .claimed other place ∈ log ++ claimEvents database fence
      cursor.position → other ≤ cursor.fence := by
    intro other start claimed
    rw [mem_append, claimed_mem_claimEvents] at claimed
    rcases claimed with old | ⟨rfl, -⟩
    · obtain ⟨before, found, low⟩ := stored.fences other start old
      rcases place with ⟨absent, -⟩ | ⟨current, existed, -, newer⟩
      · cases absent.symm.trans found
      · cases existed.symm.trans found
        omega
    · exact sameFence.ge
  rcases place with ⟨absent, start⟩ | ⟨old, existed, same, -⟩
  · have owes : ∀ row, Owed (log ++ claimEvents database fence cursor.position) row →
        row ∈ journaledRows log ∧ row ∉ deletedRows log := by
      intro row owed
      rw [claimEvents, if_pos absent] at owed
      simpa [journaledRows] using owed.of_created (stored.created absent) (by simp)
    refine stored.move (by simp) (by simp) (by omega) ?_ ?_ fences
    · intro row owed above
      obtain ⟨journaled, retained⟩ := owes row owed
      exact (stored.kept row journaled).resolve_right retained
    · intro row owed low
      have := stored.positive row (owes row owed).1
      omega
  · have owes : ∀ row, Owed (log ++ claimEvents database fence cursor.position) row →
        Owed log row := by
      intro row owed
      simpa using owed.of_append (by simp [created_mem_claimEvents, existed])
    refine stored.move (by simp) (by simp) (same ▸ stored.reached old existed) ?_ ?_ fences
    · intro row owed above
      exact stored.awaits old existed row (owes row owed) (same ▸ above)
    · intro row owed low
      exact (stored.delivers old existed row (owes row owed) (same ▸ low)).append

theorem Stored.accept (stored : Stored database log) (fence : Nat) (rows : List JournalRow) :
    Stored database (log ++ [.accepted fence rows]) :=
  stored.shed rfl rfl rfl (by simp) (by simp) (.refl _) fun _ => .inl

/-- What an advance adds to the log. -/
def advanceEvents (database : Database) (fence start through : Nat) : List Event :=
  if database.cursor.any (·.position == start) then [.moved fence start through] else []

theorem mem_advanceEvents {start through : Nat} {event : Event}
    (member : event ∈ advanceEvents database fence start through) :
    event = .moved fence start through := by
  unfold advanceEvents at member
  split at member
  · exact List.mem_singleton.mp member
  · cases member

theorem journaledRows_advanceEvents (start through : Nat) :
    journaledRows (advanceEvents database fence start through) = [] := by
  unfold advanceEvents
  split <;> rfl

theorem acceptedRows_advanceEvents (other start through : Nat) :
    acceptedRows other (advanceEvents database fence start through) = [] := by
  unfold advanceEvents
  split <;> rfl

theorem Owed.of_advance {start through : Nat} {row : JournalRow}
    (owed : Owed (log ++ advanceEvents database fence start through) row) : Owed log row := by
  simpa [journaledRows_advanceEvents] using
    owed.of_append fun created => nomatch mem_advanceEvents created

/-- The cursor passes a row only after its term's batch with the row was accepted. -/
theorem Stored.advance {term : DispatcherTerm} {batch : AcceptedBatch}
    (stored : Stored database log)
    (runs : Runs database log fence term) (holds : term.accepted = some batch)
    (advances : database.advance term.fence term.committed batch.through batch.events =
      some next) :
    Stored next (log ++ advanceEvents database fence term.committed batch.through) := by
  obtain ⟨old, cursor, found, sameFence, place, rfl, keeps, moved⟩ := advance_eq_some advances
  obtain ⟨-, forward, reached⟩ := runs.batch batch holds
  rw [runs.own] at sameFence keeps
  refine stored.move (journaledRows_advanceEvents ..) (by unfold advanceEvents; split <;> rfl)
    (moved ▸ reached) ?_ ?_ ?_
  · intro row owed above
    exact stored.awaits old found row owed.of_advance (by omega)
  · intro row owed low
    by_cases behind : row.position ≤ old.position
    · exact (stored.delivers old found row owed.of_advance behind).append
    · have start : old.position = term.committed := by omega
      refine ⟨log, [], fence, term.committed, batch.through, ?_, by omega, by omega, ?_⟩
      · simp [advanceEvents, found, start]
      · exact (runs.gathers old found sameFence row owed.of_advance (by omega)).2 batch holds
          (by omega)
  · intro other position claimed
    have claimed : .claimed other position ∈ log :=
      (List.mem_append.mp claimed).resolve_right fun new => nomatch mem_advanceEvents new
    obtain ⟨current, existed, low⟩ := stored.fences other position claimed
    cases found.symm.trans existed
    omega

end Statements

end GreenGateway.AuthorityEvents
