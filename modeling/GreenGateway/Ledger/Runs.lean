import GreenGateway.Ledger.Writes

/-! The ledger as its callers use it: any number of open handles, each call one
transaction over the shared tables, refused, failed or committed. -/

namespace GreenGateway.Ledger

open Foundation Config List

section Calls

/-- A revision to append. -/
structure Proposal where
  bundle : Bundle
  actor : LedgerActor
  operation : Operation
  activation : ActivationClass
  codes : RevisionCodes
  request : Option RevisionRequest
  recordedAt : Int
  deriving DecidableEq, Repr

/-- A statement SQLite fails: on a malformed database, or for any other reason. -/
structure Fault where
  operation : String
  malformed : Bool
  deriving DecidableEq, Repr

/-- The error a failed statement is reported as. -/
def Fault.failure (fault : Fault) : LedgerError :=
  if fault.malformed then .corrupt .integrity else .unavailable fault.operation

/-- An open handle: the first corruption it reported, which every later call repeats. -/
structure RevisionLedger where
  corruption : Option Corruption := none
  deriving DecidableEq, Repr

namespace RevisionLedger

def usable (ledger : RevisionLedger) : Except LedgerError Unit :=
  match ledger.corruption with
  | some kind => .error (.corrupt kind)
  | none => .ok ()

/-- The handle after it reported `problem`. -/
def observe (ledger : RevisionLedger) (problem : LedgerError) : RevisionLedger :=
  match problem with
  | .corrupt kind => { corruption := some (ledger.corruption.getD kind) }
  | _ => ledger

end RevisionLedger

/-- What a call through an open handle asks for. -/
inductive Action where
  | append (expectedHead : RevisionId) (proposal : Proposal)
  /-- The transaction of `activate`; the state it then reads is a `state` of its own. -/
  | activate (desired : RevisionId)
  | state
  | verify
  deriving DecidableEq, Repr

/-- One call by one of the ledger's users, with the statement that fails in it, if any. -/
inductive Call where
  | opens (fault : Option Fault)
  | on (handle : Nat) (action : Action) (fault : Option Fault)
  deriving DecidableEq, Repr

inductive Answer where
  | opened
  | appended (summary : RevisionSummary)
  | activated
  | state (state : LedgerState)
  deriving DecidableEq, Repr

/-- The shared tables and the handles open on them. -/
structure System where
  database : Database
  handles : List RevisionLedger := []
  deriving DecidableEq, Repr

/-- A committed transaction, or one a statement of which failed. -/
def transaction {α : Type} (fault : Option Fault) (body : Except LedgerError α) :
    Except LedgerError α :=
  match fault with
  | some fault => .error fault.failure
  | none => body

theorem transaction_eq_ok {α : Type} {fault : Option Fault} {body : Except LedgerError α}
    {value : α} (committed : transaction fault body = .ok value) : body = .ok value := by
  cases fault with
  | none => exact committed
  | some fault => cases committed

end Calls

variable [Codecs]

section Steps

/-- The revision a proposal asks to record. -/
def Proposal.pending (proposal : Proposal) : Except LedgerError Pending := do
  refuse (proposal.operation == .seed) (.refused .seedNotAppendable)
  let pending ← Pending.new proposal.bundle proposal.actor proposal.operation proposal.activation
    proposal.codes proposal.recordedAt
  pending.withRequest proposal.request

/-- The tables and the answer of a call's transaction. -/
def transact (action : Action) (database : Database) (fault : Option Fault) :
    Except LedgerError (Database × Answer) :=
  match action with
  | .append expectedHead proposal => do
    let pending ← proposal.pending
    let (after, summary) ← transaction fault
      (append database maxRetainedRevisions expectedHead pending proposal.bundle.sourceFiles)
    .ok (after, .appended summary)
  | .activate desired => do
    let after ← transaction fault (activate database desired)
    .ok (after, .activated)
  | .state => do
    let state ← transaction fault (state database)
    .ok (database, .state state)
  | .verify => do
    let state ← transaction fault (verify database maxRetainedRevisions)
    .ok (database, .state state)

/-- One call: the system after it, and its answer, unless no such handle is open. -/
def perform (system : System) : Call → System × Option (Except LedgerError Answer)
  | .opens fault =>
    match transaction fault (verify system.database maxRetainedRevisions) with
    | .ok _ => ({ system with handles := system.handles ++ [{}] }, some (.ok .opened))
    | .error problem => (system, some (.error problem))
  | .on handle action fault =>
    match system.handles[handle]? with
    | none => (system, none)
    | some ledger =>
      match ledger.usable with
      | .error problem => (system, some (.error problem))
      | .ok () =>
        match transact action system.database fault with
        | .ok (database, answer) => ({ system with database }, some (.ok answer))
        | .error problem =>
          ({ system with handles := system.handles.set handle (ledger.observe problem) },
            some (.error problem))

def advance (system : System) (call : Call) : System := (perform system call).1

/-- The tables of a new ledger with `bundle` as its first, desired and not yet active
revision. -/
def seed (bundle : Bundle) (actor : LedgerActor) (recordedAt : Int) :
    Except LedgerError Database := do
  let pending ← Pending.new bundle actor .seed .restart {} recordedAt
  initializeLedger pending bundle.sourceFiles

/-- The system after a list of calls on the tables `database`. -/
def run (database : Database) (calls : List Call) : System := play advance { database } calls

end Steps

section Facts

variable {chain : List Entry} {system : System}

theorem Proposal.pending_fields {proposal : Proposal} {pending : Pending}
    (accepted : proposal.pending = .ok pending) :
    checkDocuments pending.bundle proposal.bundle.sourceFiles = .ok () ∧
      pending.operation = proposal.operation ∧ proposal.operation ≠ .seed ∧
      pending.request = proposal.request ∧ pending.activation = proposal.activation := by
  simp only [Proposal.pending, Pending.withRequest, bind_eq_ok, unit_exists_ok, refuse_eq_ok,
    beq_eq_false_iff_ne, Except.ok.injEq] at accepted
  obtain ⟨notSeed, draft, drafted, -, rfl⟩ := accepted
  obtain ⟨checked, operation, -, activation⟩ := Pending.new_fields drafted
  exact ⟨checked, operation, notSeed, rfl, activation⟩

/-- What a call can do to sound tables: nothing, one append on top of the head it named,
or one activation of the head it named. -/
inductive Effect (system : System) (chain : List Entry) (call : Call) : Prop where
  | unchanged (same : (advance system call).database = system.database)
      (reported : ∀ summary, (perform system call).2 ≠ some (.ok (.appended summary)))
      (inactive : (perform system call).2 ≠ some (.ok .activated))
  | appended (handle : Nat) (expectedHead : RevisionId) (proposal : Proposal) (fault : Option Fault)
      (pending : Pending) (head entry : Entry) (old new : Pointer)
      (called : call = .on handle (.append expectedHead proposal) fault)
      (accepted : proposal.pending = .ok pending)
      (reported : (perform system call).2 = some (.ok (.appended entry.summary)))
      (appends : Appends system.database (advance system call).database chain expectedHead pending
        head entry old new)
      (sound : Sound maxRetainedRevisions (advance system call).database (chain ++ [entry]))
  | activated (handle : Nat) (desired : RevisionId) (fault : Option Fault) (head : Entry)
      (old : Pointer) (called : call = .on handle (.activate desired) fault)
      (reported : (perform system call).2 = some (.ok .activated))
      (activates : Activates system.database (advance system call).database chain desired head old)
      (sound : Sound maxRetainedRevisions (advance system call).database chain)

/-- A call through a handle commits its transaction or leaves the tables alone. -/
theorem perform_on (system : System) (handle : Nat) (action : Action) (fault : Option Fault) :
    (∃ database answer, transact action system.database fault = .ok (database, answer) ∧
      perform system (.on handle action fault) =
        ({ system with database }, some (.ok answer))) ∨
    ((advance system (.on handle action fault)).database = system.database ∧
      ∀ answer, (perform system (.on handle action fault)).2 ≠ some (.ok answer)) := by
  simp only [advance, perform]
  cases system.handles[handle]? with
  | none => simp
  | some ledger =>
    dsimp only
    cases ledger.usable with
    | error problem => simp
    | ok =>
      dsimp only
      cases transact action system.database fault with
      | error problem => simp
      | ok committed => exact Or.inl ⟨committed.1, committed.2, rfl, rfl⟩

theorem perform_effect (parses : ParsesRecords)
    (sound : Sound maxRetainedRevisions system.database chain) (call : Call) :
    Effect system chain call := by
  have small : maxRetainedRevisions ≤ maxSafeInteger := by decide
  cases call with
  | opens fault =>
    refine .unchanged ?_ ?_ ?_
    all_goals
      simp only [advance, perform]
      split <;> simp
  | on handle action fault =>
    rcases perform_on system handle action fault with ⟨after, answer, done, performed⟩ | refused
    · have tables : (advance system (.on handle action fault)).database = after := by
        rw [advance, performed]
      have reported := congrArg Prod.snd performed
      cases action with
      | append expectedHead proposal =>
        simp only [transact, bind_eq_ok, Except.ok.injEq, Prod.mk.injEq] at done
        obtain ⟨pending, accepted, ⟨later, summary⟩, committed, rfl, rfl⟩ := done
        obtain ⟨checked, operation, notSeed, -, -⟩ := Proposal.pending_fields accepted
        obtain ⟨head, entry, old, new, appends, rfl, extended⟩ := append_sound parses sound small
          checked (operation ▸ notSeed) (transaction_eq_ok committed)
        exact .appended handle expectedHead proposal fault pending head entry old new rfl accepted
          reported (tables ▸ appends) (tables ▸ extended)
      | activate desired =>
        simp only [transact, bind_eq_ok, Except.ok.injEq, Prod.mk.injEq] at done
        obtain ⟨later, committed, rfl, rfl⟩ := done
        obtain ⟨head, old, activates, kept⟩ := activate_sound sound small
          (transaction_eq_ok committed)
        exact .activated handle desired fault head old rfl reported (tables ▸ activates)
          (tables ▸ kept)
      | state =>
        simp only [transact, bind_eq_ok, Except.ok.injEq, Prod.mk.injEq] at done
        obtain ⟨_, -, rfl, rfl⟩ := done
        exact .unchanged tables (by simp [reported]) (by simp [reported])
      | verify =>
        simp only [transact, bind_eq_ok, Except.ok.injEq, Prod.mk.injEq] at done
        obtain ⟨_, -, rfl, rfl⟩ := done
        exact .unchanged tables (by simp [reported]) (by simp [reported])
    · exact .unchanged refused.1 (fun summary => refused.2 _) (refused.2 _)

end Facts

section Histories

variable {chain : List Entry} {system : System} {database : Database}

/-- Where a chain stands at one time, it stands at every later time, and the pointer has
only moved forward. -/
def Extends (before after : System) : Prop :=
  ∀ chain, Sound maxRetainedRevisions before.database chain →
    ∃ more, Sound maxRetainedRevisions after.database (chain ++ more) ∧
      ∃ old new, before.database.pointer = some old ∧ after.database.pointer = some new ∧
        old.movesForward new = true

theorem Extends.refl (system : System) : Extends system system := by
  intro chain sound
  obtain ⟨pointer, pointed, -⟩ := sound.pointer
  exact ⟨[], by simpa using sound, pointer, pointer, pointed, pointed, movesForward_refl pointer⟩

theorem Extends.trans {first second third : System} (one : Extends first second)
    (two : Extends second third) : Extends first third := by
  intro chain sound
  obtain ⟨more, middle, old, between, before, held, forward⟩ := one chain sound
  obtain ⟨later, final, between', new, held', after, onward⟩ := two _ middle
  obtain rfl : between = between' := Option.some.inj (held.symm.trans held')
  exact ⟨more ++ later, by rwa [← append_assoc], old, new, before, after,
    movesForward_trans forward onward⟩

theorem advance_extends (parses : ParsesRecords) (system : System) (call : Call) :
    Extends system (advance system call) := by
  intro chain sound
  cases perform_effect parses sound call with
  | unchanged same =>
    obtain ⟨more, kept, old, new, before, after, forward⟩ := Extends.refl system chain sound
    exact ⟨more, same ▸ kept, old, new, before, same ▸ after, forward⟩
  | appended _ _ _ _ _ _ entry old new _ _ _ appends extended =>
    exact ⟨[entry], extended, old, new, appends.before, appends.moved, appends.forward⟩
  | activated _ _ _ _ old _ _ activates kept =>
    refine ⟨[], by simpa using kept, old, _, activates.before, ?_, activates.forward⟩
    rw [activates.moved]

theorem play_extends (parses : ParsesRecords) (system : System) (calls : List Call) :
    Extends system (play advance system calls) :=
  play_follows Extends.refl (fun _ _ _ => Extends.trans) (advance_extends parses) system calls

theorem seed_sound (parses : ParsesRecords) {bundle : Bundle} {actor : LedgerActor}
    {recordedAt : Int} (seeded : seed bundle actor recordedAt = .ok database) :
    ∃ entry pointer, Sound maxRetainedRevisions database [entry] ∧
      database.pointer = some pointer ∧ pointer.activeSequence = none := by
  simp only [seed, bind_eq_ok] at seeded
  obtain ⟨pending, drafted, initialized⟩ := seeded
  obtain ⟨checked, operation, -, -⟩ := Pending.new_fields drafted
  obtain ⟨entry, -, sound, pointed⟩ := initializeLedger_sound parses
    (by decide : 1 ≤ maxRetainedRevisions) checked operation initialized
  exact ⟨entry, _, sound, pointed, rfl⟩

/-- The revision a ledger's next append must name. -/
def headRevision (database : Database) : Option RevisionId :=
  (pointerAndHead database).toOption.map fun found => found.2.revision

theorem headRevision_sound (sound : Sound maxRetainedRevisions database chain) :
    headRevision database = chain.getLast?.map fun head => head.summary.revision := by
  obtain ⟨pointer, head, -, -, last, read⟩ := pointerAndHead_sound sound (by decide)
  rw [headRevision, read, last]
  rfl

theorem summaries_sound (rows : database.revisions = chain.map Entry.row) :
    database.revisions.mapM summaryOfRow = .ok (chain.map Entry.summary) := by
  rw [rows]
  clear rows
  induction chain with
  | nil => rfl
  | cons entry chain ih =>
    rw [map_cons, mapM_cons, entry.reads, ih]
    rfl

/-- A call that committed an append on top of `expectedHead`. -/
def AppendSucceeds (system : System) (call : Call) (expectedHead : RevisionId)
    (summary : RevisionSummary) : Prop :=
  (∃ handle proposal fault, call = .on handle (.append expectedHead proposal) fault) ∧
    (perform system call).2 = some (.ok (.appended summary))

theorem AppendSucceeds.entry (parses : ParsesRecords)
    (sound : Sound maxRetainedRevisions system.database chain) {call : Call}
    {expectedHead : RevisionId} {summary : RevisionSummary}
    (succeeds : AppendSucceeds system call expectedHead summary) :
    ∃ head entry, chain.getLast? = some head ∧ head.summary.revision = expectedHead ∧
      entry.summary = summary ∧
      Sound maxRetainedRevisions (advance system call).database (chain ++ [entry]) := by
  obtain ⟨⟨handle, proposal, fault, called⟩, answered⟩ := succeeds
  cases perform_effect parses sound call with
  | unchanged _ reported => exact absurd answered (reported summary)
  | activated _ _ _ _ _ _ reported =>
    rw [reported] at answered
    cases answered
  | appended _ _ _ _ _ head entry _ _ called' _ reported appends extended =>
    rw [called, Call.on.injEq, Action.append.injEq] at called'
    rw [reported] at answered
    refine ⟨head, entry, appends.last, appends.expected.trans called'.2.1.1.symm, ?_, extended⟩
    simpa using answered

theorem run_append (database : Database) (before after : List Call) :
    run database (before ++ after) = play advance (run database before) after :=
  foldl_append ..

/-- The tables of every run hold a chain that extends the first one. -/
theorem run_sound (parses : ParsesRecords) (sound : Sound maxRetainedRevisions database chain)
    (calls : List Call) :
    ∃ more, Sound maxRetainedRevisions (run database calls).database (chain ++ more) :=
  let ⟨more, later, _⟩ := play_extends parses { database } calls chain sound
  ⟨more, later⟩

end Histories

end GreenGateway.Ledger
