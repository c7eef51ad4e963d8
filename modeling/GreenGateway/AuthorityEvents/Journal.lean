import Mathlib.Data.List.Sort
import Mathlib.Data.List.Sublists

/-! The authority-event journal, its position counter and the dispatcher's cursor, one function
for each statement on them. -/

namespace GreenGateway.AuthorityEvents

open List

inductive JournalSource where
  | connectionChange
  | serviceTokenChange
  | jwtRevocation
  | adminSession
  | documentChange
  | catalogChange
  deriving DecidableEq, Repr

structure JournalRow where
  position : Nat
  eventId : String
  source : JournalSource
  journaledAt : Int
  deriving DecidableEq, Repr

structure Cursor where
  position : Nat
  fence : Nat
  holder : String
  deliveredEvents : Nat
  deriving DecidableEq, Repr

structure Database where
  /-- Listed by position, the primary key. -/
  journal : List JournalRow
  lastPosition : Nat
  retainedEvents : Nat
  reservedWithdrawals : Nat
  capacity : Nat
  /-- The row of the one consumer. -/
  cursor : Option Cursor
  deriving DecidableEq, Repr

def maxReadBatch : Nat := 1000

def maxRetentionBatch : Nat := 10000

def retentionScanFactor : Nat := 10

namespace Database

def empty (capacity : Nat) : Database :=
  { journal := [], lastPosition := 0, retainedEvents := 0, reservedWithdrawals := 0, capacity
    cursor := none }

/-- The rows of the events, at the next positions. -/
def nextRows (lastPosition : Nat) (source : JournalSource) (now : Int) :
    List String → List JournalRow
  | [] => []
  | eventId :: rest =>
    { position := lastPosition + 1, eventId, source, journaledAt := now } ::
      nextRows (lastPosition + 1) source now rest

/-- Journals the events; an event ID that is in the journal fails the statement. -/
def insertRows (database : Database) (source : JournalSource) (events : List String)
    (now : Int) : Option Database :=
  let journal := database.journal ++ nextRows database.lastPosition source now events
  if (journal.map (·.eventId)).Nodup then
    some { database with journal, lastPosition := database.lastPosition + events.length }
  else none

/-- `append_to_journal`: refused when the journal is full. -/
def append (database : Database) (source : JournalSource) (eventId : String) (now : Int) :
    Option Database :=
  if database.retainedEvents < database.capacity then
    { database with retainedEvents := database.retainedEvents + 1 }.insertRows source [eventId] now
  else none

/-- The grant of an admin session, which holds a unit for its withdrawal. -/
def grant (database : Database) (eventId : String) (now : Int) : Option Database :=
  if database.retainedEvents + 2 ≤ database.capacity then
    { database with
      retainedEvents := database.retainedEvents + 2
      reservedWithdrawals := database.reservedWithdrawals + 1 }.insertRows .adminSession [eventId]
      now
  else none

/-- The withdrawal of admin sessions, which spends the units held for it. -/
def withdraw (database : Database) (events : List String) (now : Int) : Option Database :=
  let spent := min database.reservedWithdrawals events.length
  { database with
    retainedEvents := database.retainedEvents + events.length - spent
    reservedWithdrawals := database.reservedWithdrawals - spent }.insertRows .adminSession
    (events.mergeSort (· ≤ ·)) now

def configureCapacity (database : Database) (capacity : Nat) : Database :=
  { database with capacity }

/-- `claim`: the position to resume after, or `none` for a stale fence. -/
def claim (database : Database) (fence : Nat) (holder : String) : Option (Nat × Database) :=
  match database.cursor with
  | none =>
    some (0, { database with
      cursor := some { position := 0, fence, holder, deliveredEvents := 0 } })
  | some cursor =>
    if cursor.fence < fence ∨ (cursor.fence = fence ∧ cursor.holder = holder) then
      some (cursor.position, { database with cursor := some { cursor with fence, holder } })
    else none

def readAfter (database : Database) (position limit : Nat) : List JournalRow :=
  (database.journal.filter fun row => decide (position < row.position)).take
    (max 1 (min limit maxReadBatch))

/-- `advance`: `none` when no cursor is at the fence and at one of the two positions. -/
def advance (database : Database) (fence start through delivered : Nat) : Option Database :=
  match database.cursor with
  | none => none
  | some cursor =>
    if cursor.fence = fence ∧ (cursor.position = start ∨ cursor.position = through) then
      some { database with
        cursor := some { cursor with
          position := through
          deliveredEvents :=
            cursor.deliveredEvents + if cursor.position = start then delivered else 0 } }
    else none

/-- The rows one retention step deletes. -/
def doomed (database : Database) (now retention : Int) (limit : Nat) : List JournalRow :=
  let limit := max 1 (min limit maxRetentionBatch)
  let candidates := (database.journal.filter fun row =>
    database.cursor.all fun cursor => decide (row.position ≤ cursor.position)).take
      (limit * retentionScanFactor)
  (candidates.filter fun row => decide (row.journaledAt ≤ now - retention)).take limit

/-- `prune_with`. -/
def prune (database : Database) (now retention : Int) (limit : Nat) : Database :=
  let deleted := database.doomed now retention limit
  { database with
    journal := database.journal.filter fun row => decide (row ∉ deleted)
    retainedEvents := database.retainedEvents - deleted.length }

end Database

section Positions

/-- Rows are journaled at the positions that follow, one after the other. -/
theorem mem_nextRows {lastPosition : Nat} {source : JournalSource} {now : Int}
    {events : List String} {row : JournalRow}
    (member : row ∈ Database.nextRows lastPosition source now events) :
    lastPosition < row.position ∧ row.position ≤ lastPosition + events.length := by
  induction events generalizing lastPosition with
  | nil => cases member
  | cons eventId rest ih =>
    rcases List.mem_cons.mp member with rfl | later
    · simp
    · have := ih later
      simp only [length_cons]
      omega

theorem nextRows_sorted (lastPosition : Nat) (source : JournalSource) (now : Int)
    (events : List String) :
    (Database.nextRows lastPosition source now events).Pairwise (·.position < ·.position) := by
  induction events generalizing lastPosition with
  | nil => exact .nil
  | cons eventId rest ih =>
    exact .cons (fun row member => (mem_nextRows member).1) (ih _)

end Positions

namespace Database

variable {database next : Database} {now retention : Int} {fence position limit : Nat}
  {row : JournalRow}

/-- Rows were journaled above all positions given out, and nothing else that delivery reads
changed. -/
structure Extends (database next : Database) (rows : List JournalRow) : Prop where
  journal : next.journal = database.journal ++ rows
  sorted : rows.Pairwise (·.position < ·.position)
  placed : ∀ row ∈ rows, database.lastPosition < row.position ∧ row.position ≤ next.lastPosition
  grows : database.lastPosition ≤ next.lastPosition
  cursor : next.cursor = database.cursor

theorem insertRows_extends {source : JournalSource} {events : List String}
    (inserted : database.insertRows source events now = some next) :
    ∃ rows, database.Extends next rows := by
  simp only [insertRows, Option.ite_none_right_eq_some, Option.some.injEq] at inserted
  obtain ⟨-, rfl⟩ := inserted
  exact ⟨nextRows database.lastPosition source now events, rfl, nextRows_sorted ..,
    fun row member => mem_nextRows member, Nat.le_add_right .., rfl⟩

theorem claim_eq_some {holder : String}
    (claims : database.claim fence holder = some (position, next)) :
    ∃ cursor, next = { database with cursor := some cursor } ∧ cursor.fence = fence ∧
      cursor.position = position ∧
      (database.cursor = none ∧ position = 0 ∨
        ∃ old, database.cursor = some old ∧ old.position = position ∧ old.fence ≤ fence) := by
  unfold claim at claims
  split at claims
  · case _ absent =>
    obtain ⟨rfl, rfl⟩ := Prod.mk.inj (Option.some.inj claims)
    exact ⟨_, rfl, rfl, rfl, .inl ⟨absent, rfl⟩⟩
  · case _ old found =>
    simp only [Option.ite_none_right_eq_some, Option.some.injEq, Prod.mk.injEq] at claims
    obtain ⟨newer, rfl, rfl⟩ := claims
    exact ⟨_, rfl, rfl, rfl, .inr ⟨old, found, rfl, by omega⟩⟩

theorem advance_eq_some {start through delivered : Nat}
    (advances : database.advance fence start through delivered = some next) :
    ∃ old cursor, database.cursor = some old ∧ old.fence = fence ∧
      (old.position = start ∨ old.position = through) ∧
      next = { database with cursor := some cursor } ∧ cursor.fence = fence ∧
      cursor.position = through := by
  unfold advance at advances
  split at advances
  · cases advances
  · case _ old found =>
    simp only [Option.ite_none_right_eq_some, Option.some.injEq] at advances
    obtain ⟨⟨same, place⟩, rfl⟩ := advances
    exact ⟨old, _, found, same, place, rfl, same, rfl⟩

theorem mem_of_mem_readAfter (member : row ∈ database.readAfter position limit) :
    row ∈ database.journal ∧ position < row.position := by
  simpa using List.mem_filter.mp (mem_of_mem_take member)

/-- A read passes over no row of the journal. -/
theorem mem_readAfter_of_le {last : JournalRow}
    (sorted : database.journal.Pairwise (·.position < ·.position))
    (member : row ∈ database.journal) (above : position < row.position)
    (read : last ∈ database.readAfter position limit) (low : row.position ≤ last.position) :
    row ∈ database.readAfter position limit := by
  have candidates := sorted.filter fun row => decide (position < row.position)
  have candidate : row ∈ database.journal.filter fun row => decide (position < row.position) :=
    List.mem_filter.mpr ⟨member, decide_eq_true above⟩
  rw [← take_append_drop (max 1 (min limit maxReadBatch))
    (database.journal.filter fun row => decide (position < row.position))] at candidates candidate
  rcases List.mem_append.mp candidate with taken | left
  · exact taken
  · have := (List.pairwise_append.mp candidates).2.2 last read row left
    omega

/-- Retention deletes nothing above the cursor. -/
theorem le_of_mem_doomed {cursor : Cursor} (member : row ∈ database.doomed now retention limit)
    (found : database.cursor = some cursor) : row.position ≤ cursor.position := by
  have candidate := (List.mem_filter.mp (mem_of_mem_take member)).1
  simpa [found] using (List.mem_filter.mp (mem_of_mem_take candidate)).2

theorem mem_prune :
    row ∈ (database.prune now retention limit).journal ↔
      row ∈ database.journal ∧ row ∉ database.doomed now retention limit := by
  simp [prune]

end Database

end GreenGateway.AuthorityEvents
