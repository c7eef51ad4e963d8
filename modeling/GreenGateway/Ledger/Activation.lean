import GreenGateway.Ledger.Reachable

/-! How a revision becomes active: the active pointer stands at the head some process
activated, or at a live, unstaged revision reached from it by appends onto the active
revision alone. -/

namespace GreenGateway.Ledger

open Foundation Config List Option

section Activity

variable [Codecs] {database : Database}

/-- A call that committed an activation. -/
def ActivateSucceeds (system : System) (call : Call) : Prop :=
  (perform system call).2 = some (.ok .activated)

/-- The sequence of the desired revision. -/
def desiredSequence (system : System) : Option Nat :=
  system.database.pointer.map Pointer.desiredSequence

/-- The sequence of the active revision, if any. -/
def activeSequence (system : System) : Option Nat :=
  system.database.pointer.bind Pointer.activeSequence

/-- A revision that moved the active pointer with it: live, not staged, and appended
while its parent was active. -/
structure FollowsActive (system : System) (call : Call) (sequence : Nat)
    (summary : RevisionSummary) : Prop where
  appended : ∃ expectedHead, AppendSucceeds system call expectedHead summary
  placed : summary.sequence = sequence
  live : summary.activation = .live
  unstaged : summary.request.any RevisionRequest.stageOnly = false
  parentActive : activeSequence system = some (sequence - 1)

/-- The run `calls` last activated a head at `activated`, and from there each revision up
to `active` moved the active pointer with it. -/
def ActiveFrom (database : Database) (calls : List Call) (activated active : Nat) : Prop :=
  ∃ before call after, calls = before ++ call :: after ∧
    ActivateSucceeds (run database before) call ∧
    desiredSequence (run database before) = some activated ∧
    (∀ earlier other later, after = earlier ++ other :: later →
      ¬ ActivateSucceeds (run database (before ++ call :: earlier)) other) ∧
    activated ≤ active ∧
    ∀ sequence, activated < sequence → sequence ≤ active →
      ∃ earlier append later summary, after = earlier ++ append :: later ∧
        FollowsActive (run database (before ++ call :: earlier)) append sequence summary

/-- A call that activates nothing extends the run, by the revision it moved the active
pointer to, if any. -/
theorem ActiveFrom.snoc {calls : List Call} {activated active next : Nat}
    (reached : ActiveFrom database calls activated active) {call : Call}
    (inactive : ¬ ActivateSucceeds (run database calls) call) (grows : active ≤ next)
    (moves : ∀ sequence, active < sequence → sequence ≤ next →
      ∃ summary, FollowsActive (run database calls) call sequence summary) :
    ActiveFrom database (calls ++ [call]) activated next := by
  obtain ⟨before, activation, after, rfl, succeeded, desired, quiet, bound, moved⟩ := reached
  refine ⟨before, activation, after ++ [call], by simp, succeeded, desired, ?_,
    bound.trans grows, ?_⟩
  · intro earlier other later split
    rcases eq_nil_or_concat later with rfl | ⟨front, last, rfl⟩
    · obtain ⟨rfl, same⟩ := append_inj' split rfl
      obtain rfl : call = other := by simpa using same
      exact inactive
    · rw [concat_eq_append, ← cons_append, ← append_assoc] at split
      obtain ⟨same, -⟩ := append_inj' split rfl
      exact quiet earlier other front same
  · intro sequence above below
    by_cases earlierOne : sequence ≤ active
    · obtain ⟨earlier, append, later, summary, rfl, follows⟩ := moved sequence above earlierOne
      exact ⟨earlier, append, later ++ [call], summary, by simp, follows⟩
    · obtain ⟨summary, follows⟩ := moves sequence (by omega) below
      exact ⟨after, call, [], summary, rfl, follows⟩

omit [Codecs] in
theorem nextActive_cases {pointer : Pointer} {head : RevisionSummary} {pending : Pending}
    {sequence active : Nat} (moved : nextActive pointer head pending sequence = some active) :
    pointer.activeSequence = some active ∨
      (pending.activates = true ∧ pointer.activeSequence = some head.sequence ∧
        sequence = active) := by
  unfold nextActive at moved
  cases held : pointer.activeSequence with
  | none => simp [held] at moved
  | some was =>
    simp only [held] at moved
    split at moved
    next follows =>
      simp only [Bool.and_eq_true, beq_iff_eq] at follows
      exact Or.inr ⟨follows.1, by rw [follows.2], Option.some.inj moved⟩
    · exact Or.inl moved

theorem activeFrom_of_active (parses : ParsesRecords) {entry : Entry} {start : Pointer}
    (sound : Sound maxRetainedRevisions database [entry]) (pointed : database.pointer = some start)
    (inactive : start.activeSequence = none) (calls : List Call) {active : Nat}
    (held : activeSequence (run database calls) = some active) :
    ∃ activated, ActiveFrom database calls activated active := by
  induction calls using List.reverseRecOn generalizing active with
  | nil =>
    change database.pointer.bind Pointer.activeSequence = some active at held
    rw [pointed, bind_some, inactive] at held
    cases held
  | append_singleton calls call ih =>
    obtain ⟨more, reached⟩ := run_sound parses sound calls
    rw [run_append] at held
    change activeSequence (advance (run database calls) call) = some active at held
    cases perform_effect parses reached call with
    | unchanged same _ quiet =>
      have before : activeSequence (run database calls) = some active := by
        rw [← held, activeSequence, activeSequence, same]
      obtain ⟨activated, reach⟩ := ih before
      exact ⟨activated, reach.snoc quiet le_rfl fun sequence above below => by omega⟩
    | activated _ _ _ _ old _ reported activates =>
      have final : ([entry] ++ more).length = active := by
        rw [activeSequence, activates.moved] at held
        exact Option.some.inj held
      obtain ⟨pointer, before, atHead⟩ := reached.pointer
      have desired : desiredSequence (run database calls) = some active := by
        rw [desiredSequence, before, map_some, atHead.desired, final]
      refine ⟨active, calls, call, [], rfl, reported, desired, ?_, le_rfl, ?_⟩
      · intro earlier other later split
        simp at split
      · intro sequence above below
        omega
    | appended handle expectedHead proposal fault pending head added old new called accepted reported
        appends =>
      have quiet : ¬ ActivateSucceeds (run database calls) call := by
        rw [ActivateSucceeds, reported]
        simp
      have moved : nextActive old head.summary pending (([entry] ++ more).length + 1) =
          some active := by
        rw [← appends.active, ← held, activeSequence, appends.moved, bind_some]
      have before : activeSequence (run database calls) = old.activeSequence := by
        rw [activeSequence, appends.before, bind_some]
      have position := head_sequence (linked_history reached.history) appends.last
      rcases nextActive_cases moved with kept | ⟨follows, onHead, rfl⟩
      · obtain ⟨activated, reach⟩ := ih (before.trans kept)
        exact ⟨activated, reach.snoc quiet le_rfl fun sequence above below => by omega⟩
      · rw [position] at onHead
        obtain ⟨activated, reach⟩ := ih (before.trans onHead)
        refine ⟨activated, reach.snoc quiet (Nat.le_succ _) fun sequence above below => ?_⟩
        obtain rfl : ([entry] ++ more).length + 1 = sequence := by omega
        simp only [Pending.activates, Bool.and_eq_true, beq_iff_eq, Bool.not_eq_true'] at follows
        exact ⟨added.summary, ⟨expectedHead, ⟨handle, proposal, fault, called⟩, reported⟩,
          appends.records.sequence, appends.records.activation.trans follows.1,
          appends.records.request ▸ follows.2, before.trans onHead⟩

theorem AppendSucceeds.recorded (parses : ParsesRecords) {system : System} {chain : List Entry}
    (sound : Sound maxRetainedRevisions system.database chain) {call : Call}
    {expectedHead : RevisionId} {summary : RevisionSummary}
    (succeeds : AppendSucceeds system call expectedHead summary) (later : List Call) :
    revisionAt (play advance (advance system call) later).database summary.sequence =
      .ok (some summary) := by
  obtain ⟨head, entry, -, -, rfl, extended⟩ := succeeds.entry parses sound
  obtain ⟨more, final, -⟩ := play_extends parses _ later _ extended
  have limit : maxRetainedRevisions < 2 ^ 63 := by decide
  exact revisionAt_sound (linked_history final.history) final.rows (by simp)
    (final.bounded.trans_lt limit)

/-- Only an explicit activation, or live unstaged revisions appended onto the active
revision one after another, move the active pointer. -/
theorem run_active (parses : ParsesRecords) {bundle : Bundle} {actor : LedgerActor}
    {recordedAt : Int} (seeded : seed bundle actor recordedAt = .ok database) (calls : List Call)
    {active : Nat} (held : activeSequence (run database calls) = some active) :
    ∃ activated, ActiveFrom database calls activated active ∧
      ∀ sequence, activated < sequence → sequence ≤ active →
        ∃ summary, revisionAt (run database calls).database sequence = .ok (some summary) ∧
          summary.activation = .live ∧
          summary.request.any RevisionRequest.stageOnly = false := by
  obtain ⟨entry, start, sound, pointed, inactive⟩ := seed_sound parses seeded
  obtain ⟨activated, reach⟩ := activeFrom_of_active parses sound pointed inactive calls held
  refine ⟨activated, reach, ?_⟩
  intro sequence above below
  obtain ⟨before, call, after, rfl, -, -, -, -, moved⟩ := reach
  obtain ⟨earlier, append, later, summary, rfl, follows⟩ := moved sequence above below
  obtain ⟨expectedHead, succeeds⟩ := follows.appended
  obtain ⟨more, reached⟩ := run_sound parses sound (before ++ call :: earlier)
  have recorded := succeeds.recorded parses reached later
  rw [follows.placed, ← play_cons, ← run_append] at recorded
  refine ⟨summary, ?_, follows.live, follows.unstaged⟩
  simpa using recorded

end Activity

section Sample

attribute [local instance] sampleCodecs

theorem run_active_sample :
    ∃ database head, seed sampleBundle sampleActor 1000000 = .ok database ∧
      activeSequence (run database [.opens none, .on 0 (.activate head) none]) = some 1 ∧
      ∃ activated, ActiveFrom database [.opens none, .on 0 (.activate head) none] activated 1 := by
  obtain ⟨database, seeded⟩ : ∃ database, seed sampleBundle sampleActor 1000000 = .ok database :=
    let ⟨_, _, seeded⟩ := sample_seeded
    ⟨_, seeded⟩
  obtain ⟨entry, -, sound, -, -⟩ := seed_sound sample_parses seeded
  obtain ⟨state, verified, -⟩ := verify_sound sound
  obtain ⟨after, activated⟩ : ∃ after, activate database entry.summary.revision = .ok after :=
    activate_complete sound (by decide) rfl
  obtain ⟨_, old, activates, -⟩ := activate_sound sound (by decide) activated
  have opened : advance { database } (.opens none) = { database, handles := [{}] } := by
    simp [advance, perform, transaction, verified]
  have final : run database [.opens none, .on 0 (.activate entry.summary.revision) none] =
      { database := after, handles := [{}] } := by
    change advance (advance { database } (.opens none)) _ = _
    rw [opened]
    simp [advance, perform, RevisionLedger.usable, transact, transaction, activated, bind,
      Except.bind]
  have active : activeSequence
      (run database [.opens none, .on 0 (.activate entry.summary.revision) none]) = some 1 := by
    rw [final, activeSequence, activates.moved]
    rfl
  obtain ⟨first, reach, -⟩ := run_active sample_parses seeded _ active
  exact ⟨database, entry.summary.revision, seeded, active, first, reach⟩

end Sample

end GreenGateway.Ledger
