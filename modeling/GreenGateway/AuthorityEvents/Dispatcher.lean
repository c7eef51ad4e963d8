import Mathlib.Logic.Relation
import Mathlib.Logic.Function.Basic
import GreenGateway.AuthorityEvents.Journal

/-! The dispatcher's terms, and the system of producers, terms, retention and the sink, one
statement or one delivery at a time. -/

namespace GreenGateway.AuthorityEvents

/-- A batch the sink has accepted whose cursor advance has not committed. -/
structure AcceptedBatch where
  through : Nat
  events : Nat
  deriving DecidableEq, Repr

/-- A projected record is a function of its row, so a batch is held as its rows. -/
structure DispatcherTerm where
  fence : Nat
  committed : Nat
  pending : List JournalRow
  pendingThrough : Nat
  accepted : Option AcceptedBatch
  deriving DecidableEq, Repr

structure DispatcherConfig where
  batchSize : Nat
  /-- Whether `project` gives a record for the row. -/
  projects : JournalRow → Bool

namespace DispatcherTerm

/-- The term a claim of the cursor begins. -/
def begin (fence committed : Nat) : DispatcherTerm :=
  { fence, committed, pending := [], pendingThrough := committed, accepted := none }

/-- `fill`, with the rows it read: none leaves the term idle, and one that cannot be projected
refuses the batch. -/
def fill (config : DispatcherConfig) (term : DispatcherTerm) (rows : List JournalRow) :
    DispatcherTerm :=
  match rows.getLast? with
  | none => term
  | some last =>
    if rows.all config.projects then { term with pending := rows, pendingThrough := last.position }
    else term

/-- `offer`, once the sink accepted the batch. -/
def offer (term : DispatcherTerm) : DispatcherTerm :=
  { term with
    accepted := some { through := term.pendingThrough, events := term.pending.length }
    pending := [] }

/-- `commit`, once the advance is known to have committed. -/
def commit (term : DispatcherTerm) (batch : AcceptedBatch) : DispatcherTerm :=
  { term with committed := batch.through, accepted := none }

end DispatcherTerm

inductive TermState where
  | unborn
  | running (term : DispatcherTerm)
  | ended
  deriving DecidableEq, Repr

/-- What happened, as an observer of the journal, the cursor and the sink records it. -/
inductive Event where
  | journaled (rows : List JournalRow)
  | deleted (rows : List JournalRow)
  | created
  | claimed (fence position : Nat)
  | accepted (fence : Nat) (rows : List JournalRow)
  | moved (fence start through : Nat)
  deriving DecidableEq, Repr

structure System where
  database : Database
  /-- The term of each fence. -/
  terms : Nat → TermState
  /-- Oldest first. -/
  log : List Event

namespace System

def empty (capacity : Nat) : System :=
  { database := .empty capacity, terms := fun _ => .unborn, log := [] }

def setTerm (system : System) (fence : Nat) (term : TermState) : System :=
  { system with terms := Function.update system.terms fence term }

/-- A producer's statement journaled rows. -/
def journal (system : System) (database : Database) : System :=
  { system with
    database
    log := system.log ++
      [.journaled (database.journal.drop system.database.journal.length)] }

def prune (system : System) (now retention : Int) (limit : Nat) : System :=
  { system with
    database := system.database.prune now retention limit
    log := system.log ++ [.deleted (system.database.doomed now retention limit)] }

/-- A claim took effect. -/
def claim (system : System) (fence position : Nat) (database : Database) : System :=
  { system with
    database
    log := system.log ++ (if system.database.cursor = none then [.created] else []) ++
      [.claimed fence position] }

/-- The sink accepted a batch. -/
def accept (system : System) (fence : Nat) (rows : List JournalRow) : System :=
  { system with log := system.log ++ [.accepted fence rows] }

/-- An advance took effect. -/
def advance (system : System) (fence start through : Nat) (database : Database) : System :=
  { system with
    database
    log := system.log ++
      if system.database.cursor.any (·.position == start) then [.moved fence start through]
      else [] }

end System

/-- A producer's statement that committed. -/
def Produces (database next : Database) : Prop :=
  (∃ source eventId now, database.append source eventId now = some next) ∨
    (∃ eventId now, database.grant eventId now = some next) ∨
    ∃ events now, database.withdraw events now = some next

/-- One committed statement, one delivery or one end of a term. Whatever fails without effect, or
is refused or rolled back, leaves the system as it is and is no step. -/
inductive Step (config : DispatcherConfig) : System → System → Prop where
  | produce {system : System} (next : Database) (produces : Produces system.database next) :
      Step config system (system.journal next)
  | configure {system : System} (capacity : Nat) :
      Step config system
        { system with database := system.database.configureCapacity capacity }
  | prune {system : System} (now retention : Int) (limit : Nat) :
      Step config system (system.prune now retention limit)
  | claim {system : System} (fence : Nat) (holder : String) (position : Nat) (next : Database)
      (unborn : system.terms fence = .unborn)
      (claims : system.database.claim fence holder = some (position, next)) :
      Step config system
        ((system.claim fence position next).setTerm fence (.running (.begin fence position)))
  /-- The claim committed and its caller never heard of it. -/
  | claimLost {system : System} (fence : Nat) (holder : String) (position : Nat)
      (next : Database) (unborn : system.terms fence = .unborn)
      (claims : system.database.claim fence holder = some (position, next)) :
      Step config system ((system.claim fence position next).setTerm fence .ended)
  | fill {system : System} (fence : Nat) (term : DispatcherTerm)
      (runs : system.terms fence = .running term) (free : term.accepted = none)
      (empty : term.pending = []) :
      Step config system (system.setTerm fence (.running (term.fill config
        (system.database.readAfter term.committed (max 1 (min config.batchSize maxReadBatch))))))
  | accept {system : System} (fence : Nat) (term : DispatcherTerm)
      (runs : system.terms fence = .running term) (free : term.accepted = none)
      (filled : term.pending ≠ []) :
      Step config system ((system.accept fence term.pending).setTerm fence (.running term.offer))
  | commit {system : System} (fence : Nat) (term : DispatcherTerm) (batch : AcceptedBatch)
      (next : Database) (runs : system.terms fence = .running term)
      (holds : term.accepted = some batch)
      (advances : system.database.advance term.fence term.committed batch.through batch.events =
        some next) :
      Step config system
        ((system.advance fence term.committed batch.through next).setTerm fence
          (.running (term.commit batch)))
  /-- The advance committed and the term saw an error. -/
  | commitLost {system : System} (fence : Nat) (term : DispatcherTerm) (batch : AcceptedBatch)
      (next : Database) (runs : system.terms fence = .running term)
      (holds : term.accepted = some batch)
      (advances : system.database.advance term.fence term.committed batch.through batch.events =
        some next) :
      Step config system (system.advance fence term.committed batch.through next)
  /-- The term is fenced out, stopped or crashes. -/
  | stop {system : System} (fence : Nat) (term : DispatcherTerm)
      (runs : system.terms fence = .running term) :
      Step config system (system.setTerm fence .ended)

/-- Every interleaving of steps. -/
def Steps (config : DispatcherConfig) : System → System → Prop :=
  Relation.ReflTransGen (Step config)

/-- What a system that starts with an empty journal can come to. -/
def Reachable (config : DispatcherConfig) (system : System) : Prop :=
  ∃ capacity, Steps config (.empty capacity) system

section Observations

/-- The rows journaled so far, in order. -/
def journaledRows (log : List Event) : List JournalRow :=
  log.flatMap fun
    | .journaled rows => rows
    | _ => []

/-- The rows retention deleted so far. -/
def deletedRows (log : List Event) : List JournalRow :=
  log.flatMap fun
    | .deleted rows => rows
    | _ => []

/-- The rows the sink accepted in the term of the fence, in order. -/
def acceptedRows (fence : Nat) (log : List Event) : List JournalRow :=
  log.flatMap fun
    | .accepted other rows => if other = fence then rows else []
    | _ => []

/-- The row was retained when the cursor was created, or journaled later. -/
def Owed (log : List Event) (row : JournalRow) : Prop :=
  ∃ before after, log = before ++ .created :: after ∧
    (row ∈ journaledRows before ∧ row ∉ deletedRows before ∨ row ∈ journaledRows after)

end Observations

end GreenGateway.AuthorityEvents
