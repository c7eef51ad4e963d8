import GreenGateway.AuthorityEvents.Delivery

/-! What each step of a term makes of its own obligations, and what every interleaving of steps
keeps. -/

namespace GreenGateway.AuthorityEvents

open List Database

section Acting

variable {database next : Database} {log events : List Event} {fence position : Nat}
  {term : DispatcherTerm} {batch : AcceptedBatch}

theorem Runs.begin (unborn : Holds database log fence .unborn)
    (unaccepted : acceptedRows fence events = [])
    (claims : ∀ place, .claimed fence place ∈ events → place = position)
    (reached : position ≤ next.lastPosition)
    (here : ∀ cursor, next.cursor = some cursor → cursor.position = position) :
    Runs next (log ++ events) fence (.begin fence position) := by
  have own : ∀ place, .claimed fence place ∈ log ++ events → place = position := by
    intro place claimed
    exact claims place ((List.mem_append.mp claimed).resolve_left (unborn.1 place))
  have none_ : acceptedRows fence (log ++ events) = [] := by
    rw [acceptedRows_append, unborn.2, unaccepted, append_nil]
  constructor
  case own => rfl
  case base => exact fun place claimed => (own place claimed).le
  case reached => exact reached
  case sorted => exact .nil
  case pending => exact nofun
  case last => exact fun filled => absurd rfl filled
  case journaled => exact fun filled => absurd rfl filled
  case batch => exact nofun
  case below =>
    rw [none_]
    exact nofun
  case here => exact fun cursor found _ => .inl (here cursor found)
  case gathers =>
    intro cursor found same row owed above
    exact ⟨fun filled => absurd rfl filled, nofun⟩
  case passes =>
    intro place claimed row journaled above
    have start := own place claimed
    refine ⟨fun low => ?_, fun filled => absurd rfl filled, nofun⟩
    exact absurd low (by simp only [DispatcherTerm.begin]; omega)

/-- A read of the journal is the next stretch of what the term owes. -/
theorem Runs.fill (config : DispatcherConfig) (limit : Nat) (stored : Stored database log)
    (runs : Runs database log fence term) (free : term.accepted = none) :
    Runs database log fence (term.fill config (database.readAfter term.committed limit)) := by
  unfold DispatcherTerm.fill
  split
  · exact runs
  · case _ last final =>
    split
    · have read := mem_of_getLast? final
      have ⟨retained, above⟩ := mem_of_mem_readAfter read
      have sorted : (database.readAfter term.committed limit).Pairwise
          (·.position < ·.position) := (stored.sorted.filter _).sublist (take_sublist ..)
      have greatest : ∀ row ∈ database.readAfter term.committed limit,
          row.position ≤ last.position := by
        intro row member
        obtain ⟨front, split⟩ := List.getLast?_eq_some_iff.mp final
        rw [split] at member sorted
        rcases List.mem_append.mp member with earlier | same
        · exact ((List.pairwise_append.mp sorted).2.2 row earlier last (by simp)).le
        · rw [List.mem_singleton.mp same]
      constructor
      case own => exact runs.own
      case base => exact runs.base
      case reached => exact runs.reached
      case sorted => exact sorted
      case pending =>
        exact fun row member => ⟨(mem_of_mem_readAfter member).2, greatest row member⟩
      case last => exact fun _ => ⟨last, read, rfl⟩
      case journaled => exact fun _ => stored.bounded last (stored.known last retained)
      case batch => exact fun batch holds => by simp [free] at holds
      case below => exact runs.below
      case here => exact runs.here
      case gathers =>
        intro cursor found same row owed high
        refine ⟨fun _ low => ?_, fun batch holds => by simp [free] at holds⟩
        have start : cursor.position = term.committed := by
          simpa [free] using runs.here cursor found same
        have member := stored.awaits cursor found row owed (start ▸ high)
        exact mem_readAfter_of_le stored.sorted member high read low
      case passes =>
        intro place claimed row journaled high
        have ⟨done, _, _⟩ := runs.passes place claimed row journaled high
        refine ⟨done, fun _ low => ?_, fun batch holds => by simp [free] at holds⟩
        by_cases behind : row.position ≤ term.committed
        · exact (done behind).imp_right .inr
        · rcases stored.kept row journaled with member | deleted
          · exact .inr (.inl (mem_readAfter_of_le stored.sorted member (by omega) read
              low))
          · exact .inr (.inr deleted)
    · exact runs

theorem Runs.offer (runs : Runs database log fence term) (free : term.accepted = none)
    (filled : term.pending ≠ []) :
    Runs database (log ++ [.accepted fence term.pending]) fence term.offer := by
  have accepted : acceptedRows fence (log ++ [.accepted fence term.pending]) =
      acceptedRows fence log ++ term.pending := by simp [acceptedRows]
  have journaled : journaledRows (log ++ [.accepted fence term.pending]) = journaledRows log := by
    simp [journaledRows]
  have deleted : deletedRows (log ++ [.accepted fence term.pending]) = deletedRows log := by
    simp [deletedRows]
  have claims : ∀ place, .claimed fence place ∈ log ++ [.accepted fence term.pending] →
      .claimed fence place ∈ log := fun place claimed => by simpa using claimed
  constructor
  case own => exact runs.own
  case base => exact fun place claimed => runs.base place (claims place claimed)
  case reached => exact runs.reached
  case sorted => exact .nil
  case pending => exact fun row member => by cases member
  case last => exact fun empty => absurd rfl empty
  case journaled => exact fun empty => absurd rfl empty
  case batch =>
    rintro _ ⟨⟩
    obtain ⟨last, member, final⟩ := runs.last filled
    exact ⟨rfl, final ▸ (runs.pending last member).1, runs.journaled filled⟩
  case below =>
    intro row member
    rw [accepted] at member
    rcases List.mem_append.mp member with old | new
    · have behind : row.position ≤ term.committed := by simpa [free] using runs.below row old
      exact .inl behind
    · exact .inr ⟨_, rfl, (runs.pending row new).2⟩
  case here =>
    intro cursor found same
    have start : cursor.position = term.committed := by
      simpa [free] using runs.here cursor found same
    exact .inl start
  case gathers =>
    intro cursor found same row owed above
    refine ⟨fun empty => absurd rfl empty, ?_⟩
    rintro _ ⟨⟩ low
    have owed : Owed log row := by simpa [journaledRows] using owed.of_append (by simp)
    rw [accepted]
    exact mem_append_right _ ((runs.gathers cursor found same row owed above).1 filled low)
  case passes =>
    intro place claimed row member above
    rw [journaled] at member
    rw [accepted, deleted]
    obtain ⟨done, read, -⟩ := runs.passes place (claims place claimed) row member above
    refine ⟨fun low => (done low).imp_left (mem_append_left _),
      fun empty => absurd rfl empty, ?_⟩
    rintro _ ⟨⟩ low
    rcases read filled low with old | new | gone
    · exact .inl (mem_append_left _ old)
    · exact .inl (mem_append_right _ new)
    · exact .inr gone

/-- The sink's order goes on: the batch follows what the term's earlier batches delivered. -/
theorem InOrder.offer (inOrder : InOrder log) (runs : Runs database log fence term)
    (free : term.accepted = none) (filled : term.pending ≠ []) :
    InOrder (log ++ [.accepted fence term.pending]) := by
  have accepted : ∀ other, acceptedRows other (log ++ [.accepted fence term.pending]) =
      acceptedRows other log ++ if fence = other then term.pending else [] := by
    intro other
    simp [acceptedRows]
  constructor
  case ascending =>
    intro other
    rw [accepted]
    split
    · case _ same =>
      subst same
      refine List.pairwise_append.mpr ⟨inOrder.ascending fence, runs.sorted, ?_⟩
      intro row old newer new
      have behind : row.position ≤ term.committed := by simpa [free] using runs.below row old
      exact behind.trans_lt (runs.pending newer new).1
    · simpa using inOrder.ascending other
  case above =>
    intro other place claimed row member
    have claimed : .claimed other place ∈ log := by simpa using claimed
    rw [accepted] at member
    rcases List.mem_append.mp member with old | new
    · exact inOrder.above other place claimed row old
    · split at new
      · case _ same =>
        subst same
        exact (runs.base place claimed).trans_lt (runs.pending row new).1
      · cases new
  case passes =>
    intro before after other rows split place claimed row journaled above low
    rcases split_append split with ⟨middle, rfl, -⟩ | ⟨middle, rfl, single⟩
    · exact inOrder.passes before middle other rows rfl place claimed row journaled above low
    · obtain ⟨rfl, same, rfl⟩ : middle = [] ∧ Event.accepted fence term.pending =
          .accepted other rows ∧ after = [] := by
        cases middle with
        | nil => simpa [eq_comm] using single
        | cons first middle => simp at single
      obtain ⟨rfl, rfl⟩ := Event.accepted.inj same
      rw [append_nil] at claimed journaled ⊢
      obtain ⟨last, member, low⟩ := low
      exact (runs.passes place claimed row journaled above).2.1 filled
        (low.trans (runs.pending last member).2)

/-- What an advance that took effect makes true of the term that asked for it. -/
theorem Runs.advance (runs : Runs database log fence term) (holds : term.accepted = some batch)
    (advances : database.advance term.fence term.committed batch.through batch.events =
      some next) :
    Runs next (log ++ advanceEvents database fence term.committed batch.through) fence term := by
  obtain ⟨old, cursor, found, sameFence, -, rfl, keeps, moved⟩ := advance_eq_some advances
  rw [runs.own] at sameFence
  -- all but the cursor is as for a term that is spared
  have spares : Spares database { database with cursor := none }
      (advanceEvents database fence term.committed batch.through) fence :=
    ⟨le_rfl, fun _ claimed => (nomatch mem_advanceEvents claimed), acceptedRows_advanceEvents ..,
      by simp [journaledRows_advanceEvents], fun created => (nomatch mem_advanceEvents created),
      nofun⟩
  refine { spares.runs runs with here := ?_, gathers := ?_ }
  · rintro _ ⟨⟩ -
    exact .inr ⟨batch, holds, moved⟩
  · intro current existed same row owed above
    rw [acceptedRows_append, acceptedRows_advanceEvents, append_nil]
    exact runs.gathers old found sameFence row owed.of_advance above

/-- A term that hears of its advance goes on from where the cursor now is. -/
theorem Runs.commit (runs : Runs database log fence term) (holds : term.accepted = some batch)
    (here : ∀ cursor, database.cursor = some cursor → cursor.position = batch.through) :
    Runs database log fence (term.commit batch) := by
  obtain ⟨empty, forward, reached⟩ := runs.batch batch holds
  constructor
  case own => exact runs.own
  case base => exact fun place claimed => (runs.base place claimed).trans forward.le
  case reached => exact reached
  case sorted => exact runs.sorted
  case pending =>
    simp only [DispatcherTerm.commit, empty]
    exact nofun
  case last => exact fun filled => absurd empty filled
  case journaled => exact fun filled => absurd empty filled
  case batch => exact nofun
  case below =>
    intro row accepted
    left
    rcases runs.below row accepted with low | ⟨other, same, low⟩
    · exact low.trans forward.le
    · cases holds.symm.trans same
      exact low
  case here => exact fun cursor found _ => .inl (here cursor found)
  case gathers =>
    intro cursor found same row owed above
    exact ⟨fun filled => absurd empty filled, nofun⟩
  case passes =>
    intro place claimed row journaled above
    exact ⟨(runs.passes place claimed row journaled above).2.2 batch holds,
      fun filled => absurd empty filled, nofun⟩

end Acting

section Whole

variable {config : DispatcherConfig} {system after : System} {fence position : Nat}
  {term : DispatcherTerm} {holder : String} {next : Database}

theorem Sound.empty (capacity : Nat) : Sound (.empty capacity) := by
  refine ⟨?_, fun fence => ⟨nofun, rfl⟩, ?_⟩
  · constructor <;> first | exact .nil | exact nofun
  · refine ⟨fun fence => .nil, nofun, ?_⟩
    intro before after fence rows split
    cases before <;> cases split

theorem Sound.running (sound : Sound system) (running : system.terms fence = .running term) :
    Runs system.database system.log fence term := by
  have holds := sound.terms fence
  rwa [running] at holds

/-- A claim leaves alone every term but the one it begins. -/
theorem spares_claim
    (claims : system.database.claim fence holder = some (position, next)) (other : Nat)
    (apart : other ≠ fence) :
    Spares system.database next (claimEvents system.database fence position) other := by
  obtain ⟨cursor, rfl, same, -⟩ := claim_eq_some claims
  constructor
  case grows => exact le_rfl
  case unclaimed => exact fun place claimed => apart (claimed_mem_claimEvents.mp claimed).1
  case unaccepted => exact acceptedRows_eq_nil accepted_notMem_claimEvents
  case fresh => simp
  case creates => exact created_mem_claimEvents.mp
  case cursor =>
    rintro _ ⟨⟩ own
    exact absurd (own.symm.trans same) apart

theorem spares_advance {start through delivered : Nat}
    (advances : system.database.advance fence start through delivered = some next) (other : Nat)
    (apart : other ≠ fence) :
    Spares system.database next (advanceEvents system.database fence start through) other := by
  obtain ⟨old, cursor, found, -, -, rfl, keeps, -⟩ := advance_eq_some advances
  constructor
  case grows => exact le_rfl
  case unclaimed => exact fun place claimed => nomatch mem_advanceEvents claimed
  case unaccepted => exact acceptedRows_advanceEvents ..
  case fresh =>
    rw [journaledRows_advanceEvents]
    exact nofun
  case creates => exact fun created => nomatch mem_advanceEvents created
  case cursor =>
    rintro _ ⟨⟩ own
    exact absurd (own.symm.trans keeps) apart

/-- Nothing but the log changes. -/
theorem spares_accept (rows : List JournalRow) (other : Nat) (apart : other ≠ fence) :
    Spares system.database system.database [.accepted fence rows] other where
  grows := le_rfl
  unclaimed := by simp
  unaccepted := by simp [acceptedRows, apart.symm]
  fresh := by simp [journaledRows]
  creates := by simp
  cursor := fun cursor found same => ⟨cursor, found, same, rfl⟩

namespace Sound

variable (sound : Sound system)

include sound

theorem claim {state : TermState} (unborn : system.terms fence = .unborn)
    (claims : system.database.claim fence holder = some (position, next))
    (begun : state = .running (.begin fence position) ∨ state = .ended) :
    Sound ((system.claim fence position next).setTerm fence state) := by
  have fresh : Holds system.database system.log fence .unborn := unborn ▸ sound.terms fence
  have stored := sound.stored.claim claims
  have same : (system.claim fence position next).setTerm fence state =
      { database := next
        terms := Function.update system.terms fence state
        log := system.log ++ claimEvents system.database fence position } := by
    simp [System.setTerm, System.claim, claimEvents]
  rw [same]
  refine ⟨stored, holds_update sound.terms ?_ (spares_claim claims), ?_⟩
  · rcases begun with rfl | rfl
    · obtain ⟨cursor, rfl, -, place, -⟩ := claim_eq_some claims
      refine Runs.begin fresh (acceptedRows_eq_nil accepted_notMem_claimEvents)
        (fun place claimed => (claimed_mem_claimEvents.mp claimed).2)
        (place ▸ stored.reached cursor rfl) ?_
      rintro _ ⟨⟩
      exact place
    · trivial
  · refine sound.inOrder.append accepted_notMem_claimEvents fun other place claimed => ?_
    rw [(claimed_mem_claimEvents.mp claimed).1]
    exact fresh.2

theorem advance {batch : AcceptedBatch} {told : DispatcherTerm}
    (running : system.terms fence = .running term) (holds : term.accepted = some batch)
    (advances : system.database.advance term.fence term.committed batch.through batch.events =
      some next) (hears : told = term.commit batch ∨ told = term) :
    Sound ((system.advance fence term.committed batch.through next).setTerm fence
      (.running told)) := by
  have runs := sound.running running
  have moved := runs.advance holds advances
  refine ⟨sound.stored.advance runs holds advances, ?_, ?_⟩
  · refine holds_update sound.terms ?_ (spares_advance (runs.own ▸ advances))
    rcases hears with rfl | rfl
    · refine moved.commit holds ?_
      obtain ⟨-, cursor, -, -, -, rfl, -, place⟩ := advance_eq_some advances
      rintro _ ⟨⟩
      exact place
    · exact moved
  · refine sound.inOrder.append (fun other rows accepted => nomatch mem_advanceEvents accepted) ?_
    exact fun other place claimed => nomatch mem_advanceEvents claimed

theorem setTerm {state : TermState}
    (holds : Holds system.database system.log fence state) : Sound (system.setTerm fence state) := by
  refine ⟨sound.stored, fun other => ?_, sound.inOrder⟩
  by_cases same : other = fence
  · subst same
    simpa only [System.setTerm, Function.update_self]
  · simpa only [System.setTerm, Function.update_of_ne same] using sound.terms other

theorem step (step : Step config system after) : Sound after := by
  cases step with
  | produce next produces =>
    obtain ⟨rows, extended⟩ := produces.extends
    have noted : next.journal.drop system.database.journal.length = rows := by
      rw [extended.journal, drop_left]
    simp only [System.journal, noted]
    refine ⟨sound.stored.journal extended, fun fence => ?_, sound.inOrder.append ?_ ?_⟩
    · refine Spares.holds ⟨extended.grows, by simp, by simp [acceptedRows], ?_, by simp, ?_⟩
        (sound.terms fence)
      · simpa [journaledRows] using fun row member => (extended.placed row member).1
      · exact fun cursor found same => ⟨cursor, extended.cursor ▸ found, same, rfl⟩
    · simp
    · simp
  | configure capacity =>
    exact ⟨{ sound.stored with }, fun fence => by
      have holds := sound.terms fence
      revert holds
      cases system.terms fence with
      | unborn => exact id
      | running term => exact fun runs => { runs with }
      | ended => exact id, sound.inOrder⟩
  | prune now retention limit =>
    refine ⟨sound.stored.prune now retention limit, fun fence => ?_, sound.inOrder.append ?_ ?_⟩
    · have spares : Spares system.database (system.database.prune now retention limit)
          [.deleted (system.database.doomed now retention limit)] fence :=
        ⟨le_rfl, by simp, by simp [acceptedRows], by simp [journaledRows], by simp,
          fun cursor found same => ⟨cursor, found, same, rfl⟩⟩
      exact spares.holds (sound.terms fence)
    · simp
    · simp
  | claim fence holder position next unborn claims =>
    exact sound.claim unborn claims (.inl rfl)
  | claimLost fence holder position next unborn claims =>
    exact sound.claim unborn claims (.inr rfl)
  | fill fence term running free empty =>
    exact sound.setTerm ((sound.running running).fill config _ sound.stored free)
  | accept fence term running free filled =>
    have runs := sound.running running
    exact ⟨sound.stored.accept fence term.pending,
      holds_update sound.terms (runs.offer free filled) (spares_accept term.pending),
      sound.inOrder.offer runs free filled⟩
  | commit fence term batch next running holds advances =>
    exact sound.advance running holds advances (.inl rfl)
  | commitLost fence term batch next running holds advances =>
    have same : (system.advance fence term.committed batch.through next).setTerm fence
        (.running term) = system.advance fence term.committed batch.through next := by
      simp [System.setTerm, System.advance, ← running]
    exact same ▸ sound.advance running holds advances (.inr rfl)
  | stop fence term running => exact sound.setTerm trivial

theorem steps (steps : Steps config system after) : Sound after := by
  induction steps with
  | refl => exact sound
  | tail _ step ih => exact ih.step step

end Sound

theorem Reachable.sound (reachable : Reachable config system) : Sound system := by
  obtain ⟨capacity, steps⟩ := reachable
  exact (Sound.empty capacity).steps steps

end Whole

end GreenGateway.AuthorityEvents
