import Mathlib
import GreenGateway.Foundation.Guards

/-! Byte streams: readers that hand out what they hold in pieces of any size, the loop
that takes pieces until it has enough, and sinks. -/

namespace Foundation

universe u

inductive ErrorKind where
  | interrupted
  | unexpectedEof
  | invalidInput
  | invalidData
  | other
  deriving DecidableEq, Repr

section Readers

/-- A source of bytes. A read hands out a piece of what is left, or fails; an empty piece
means that nothing is left. -/
class Reader (ρ : Type u) where
  read : Nat → ρ → Except ErrorKind (List UInt8) × ρ
  contents : ρ → List UInt8
  /-- Reads fail, if at all, by being interrupted. -/
  Steady : ρ → Prop
  /-- A bound on the reads before the end. -/
  weight : ρ → Nat
  piece {wanted : Nat} {source next : ρ} {bytes : List UInt8} :
    read wanted source = (.ok bytes, next) →
      contents source = bytes ++ contents next ∧ bytes.length ≤ wanted
  ended {wanted : Nat} {source next : ρ} : 0 < wanted → read wanted source = (.ok [], next) →
    contents source = []
  unread {wanted : Nat} {source next : ρ} {kind : ErrorKind} :
    read wanted source = (.error kind, next) → contents next = contents source
  lighter {wanted : Nat} {source next : ρ} {outcome : Except ErrorKind (List UInt8)} :
    read wanted source = (outcome, next) → outcome ≠ .ok [] → weight next < weight source
  steady {wanted : Nat} {source next : ρ} {outcome : Except ErrorKind (List UInt8)} :
    Steady source → read wanted source = (outcome, next) →
      Steady next ∧ ∀ kind, outcome = .error kind → kind = .interrupted

/-- What one read meets: a piece that has arrived, or a failure. -/
inductive Event where
  | data (first : UInt8) (more : List UInt8)
  | failure (kind : ErrorKind)
  deriving DecidableEq, Repr

namespace Event

def bytes : Event → List UInt8
  | .data first more => first :: more
  | .failure _ => []

def weight : Event → Nat
  | .data _ more => more.length + 1
  | .failure _ => 1

def Steady : Event → Prop
  | .data _ _ => True
  | .failure kind => kind = .interrupted

end Event

/-- Bytes in the pieces they arrive in. A read takes from the first piece alone. -/
structure Arrivals where
  events : List Event
  deriving DecidableEq, Repr

namespace Arrivals

/-- A piece that may be empty, ahead of the others. -/
def push : List UInt8 → List Event → Arrivals
  | [], events => ⟨events⟩
  | first :: more, events => ⟨.data first more :: events⟩

def read : Nat → Arrivals → Except ErrorKind (List UInt8) × Arrivals
  | 0, source => (.ok [], source)
  | _ + 1, ⟨[]⟩ => (.ok [], ⟨[]⟩)
  | _ + 1, ⟨.failure kind :: rest⟩ => (.error kind, ⟨rest⟩)
  | wanted + 1, ⟨.data first more :: rest⟩ =>
    (.ok (first :: more.take wanted), push (more.drop wanted) rest)

def contents (source : Arrivals) : List UInt8 := source.events.flatMap Event.bytes

def Steady (source : Arrivals) : Prop := ∀ event ∈ source.events, event.Steady

def weight (source : Arrivals) : Nat := (source.events.map Event.weight).sum

theorem contents_push (bytes : List UInt8) (events : List Event) :
    (push bytes events).contents = bytes ++ events.flatMap Event.bytes := by
  cases bytes <;> simp [push, contents, Event.bytes]

theorem weight_push (bytes : List UInt8) (events : List Event) :
    (push bytes events).weight = bytes.length + (events.map Event.weight).sum := by
  cases bytes <;> simp [push, weight, Event.weight]

theorem steady_push {bytes : List UInt8} {events : List Event}
    (steady : ∀ event ∈ events, event.Steady) : (push bytes events).Steady := by
  cases bytes with
  | nil => exact steady
  | cons first more => exact List.forall_mem_cons.mpr ⟨trivial, steady⟩

/-- What a read can do. -/
theorem read_cases {wanted : Nat} {source next : Arrivals}
    {outcome : Except ErrorKind (List UInt8)} (taken : source.read wanted = (outcome, next)) :
    (outcome = .ok [] ∧ next = source ∧ (0 < wanted → source = ⟨[]⟩)) ∨
    (∃ kind rest, source = ⟨.failure kind :: rest⟩ ∧ outcome = .error kind ∧ next = ⟨rest⟩) ∨
    ∃ first more rest limit, source = ⟨.data first more :: rest⟩ ∧ wanted = limit + 1 ∧
      outcome = .ok (first :: more.take limit) ∧ next = push (more.drop limit) rest := by
  rcases source with ⟨events⟩
  cases wanted with
  | zero =>
    obtain ⟨rfl, rfl⟩ := Prod.mk.inj taken
    exact .inl ⟨rfl, rfl, nofun⟩
  | succ limit =>
    cases events with
    | nil =>
      obtain ⟨rfl, rfl⟩ := Prod.mk.inj taken
      exact .inl ⟨rfl, rfl, fun _ => rfl⟩
    | cons event rest =>
      cases event with
      | failure kind =>
        obtain ⟨rfl, rfl⟩ := Prod.mk.inj taken
        exact .inr (.inl ⟨kind, rest, rfl, rfl, rfl⟩)
      | data first more =>
        obtain ⟨rfl, rfl⟩ := Prod.mk.inj taken
        exact .inr (.inr ⟨first, more, rest, limit, rfl, rfl, rfl, rfl⟩)

instance : Reader Arrivals where
  read wanted source := source.read wanted
  contents := contents
  Steady := Steady
  weight := weight
  piece {_ _ _ bytes} taken := by
    rcases read_cases taken with ⟨same, rfl, -⟩ | ⟨_, _, -, wrong, -⟩ |
      ⟨first, more, rest, limit, rfl, rfl, same, rfl⟩
    · simp [Except.ok.inj same]
    · cases wrong
    · rw [Except.ok.inj same, contents_push]
      refine ⟨?_, by grind⟩
      simp [contents, Event.bytes, ← List.append_assoc]
  ended positive taken := by
    rcases read_cases taken with ⟨-, -, empty⟩ | ⟨_, _, -, wrong, -⟩ | ⟨_, _, _, _, -, -, wrong, -⟩
    · rw [empty positive]
      rfl
    · cases wrong
    · simp at wrong
  unread taken := by
    rcases read_cases taken with ⟨wrong, -, -⟩ | ⟨_, _, rfl, -, rfl⟩ | ⟨_, _, _, _, -, -, wrong, -⟩
    · cases wrong
    · rfl
    · cases wrong
  lighter taken nonempty := by
    rcases read_cases taken with ⟨empty, -, -⟩ | ⟨_, _, rfl, -, rfl⟩ | ⟨_, _, _, _, rfl, -, -, rfl⟩
    · exact absurd empty nonempty
    · simp [weight, Event.weight]
    · rw [weight_push]
      simp only [weight, List.map_cons, List.sum_cons, Event.weight, List.length_drop]
      omega
  steady {_ _ _ _} calm taken := by
    rcases read_cases taken with ⟨rfl, rfl, -⟩ | ⟨_, _, rfl, rfl, rfl⟩ |
      ⟨_, _, _, _, rfl, -, rfl, rfl⟩
    · exact ⟨calm, nofun⟩
    · obtain ⟨own, others⟩ := List.forall_mem_cons.mp calm
      exact ⟨others, fun kind same => Except.error.inj same ▸ own⟩
    · exact ⟨steady_push (List.forall_mem_cons.mp calm).2, nofun⟩

end Arrivals

/-- `Read::take`: at most `limit` bytes of a reader. -/
structure Take (ρ : Type u) where
  inner : ρ
  limit : Nat

namespace Take

variable {ρ : Type u} [Reader ρ]

def read (wanted : Nat) (source : Take ρ) : Except ErrorKind (List UInt8) × Take ρ :=
  if source.limit = 0 then (.ok [], source)
  else
    match Reader.read (min wanted source.limit) source.inner with
    | (.ok bytes, inner) => (.ok bytes, ⟨inner, source.limit - bytes.length⟩)
    | (.error kind, inner) => (.error kind, { source with inner })

theorem read_cases {wanted : Nat} {source next : Take ρ}
    {outcome : Except ErrorKind (List UInt8)} (taken : source.read wanted = (outcome, next)) :
    (source.limit = 0 ∧ outcome = .ok [] ∧ next = source) ∨
    (∃ bytes inner, source.limit ≠ 0 ∧
      Reader.read (min wanted source.limit) source.inner = (.ok bytes, inner) ∧
      outcome = .ok bytes ∧ next = ⟨inner, source.limit - bytes.length⟩) ∨
    ∃ kind inner, Reader.read (min wanted source.limit) source.inner = (.error kind, inner) ∧
      outcome = .error kind ∧ next = { source with inner } := by
  unfold read at taken
  split at taken
  · next none =>
    obtain ⟨rfl, rfl⟩ := Prod.mk.inj taken
    exact .inl ⟨none, rfl, rfl⟩
  · next some =>
    split at taken
    · next bytes inner got =>
      obtain ⟨rfl, rfl⟩ := Prod.mk.inj taken
      exact .inr (.inl ⟨bytes, inner, some, got, rfl, rfl⟩)
    · next kind inner failed =>
      obtain ⟨rfl, rfl⟩ := Prod.mk.inj taken
      exact .inr (.inr ⟨kind, inner, failed, rfl, rfl⟩)

instance : Reader (Take ρ) where
  read wanted source := source.read wanted
  contents source := (Reader.contents source.inner).take source.limit
  Steady source := Reader.Steady source.inner
  weight source := Reader.weight source.inner
  piece {wanted source _ _} taken := by
    rcases read_cases taken with ⟨_, same, rfl⟩ | ⟨bytes, inner, _, got, same, rfl⟩ | ⟨_, _, _, wrong, _⟩
    · simp [Except.ok.inj same]
    · obtain ⟨whole, short⟩ := Reader.piece got
      rw [Except.ok.inj same, whole, List.take_append, List.take_of_length_le (by omega)]
      exact ⟨rfl, by omega⟩
    · cases wrong
  ended {wanted source _} positive taken := by
    rcases read_cases taken with ⟨none, _, _⟩ | ⟨bytes, inner, some, got, same, _⟩ | ⟨_, _, _, wrong, _⟩
    · rw [none, List.take_zero]
    · obtain rfl := Except.ok.inj same
      rw [Reader.ended (by omega) got, List.take_nil]
    · cases wrong
  unread taken := by
    rcases read_cases taken with ⟨_, wrong, _⟩ | ⟨_, _, _, _, wrong, _⟩ | ⟨_, inner, failed, _, rfl⟩
    · cases wrong
    · cases wrong
    · rw [Reader.unread failed]
  lighter taken nonempty := by
    rcases read_cases taken with ⟨_, empty, _⟩ | ⟨_, _, _, got, rfl, rfl⟩ | ⟨_, _, failed, rfl, rfl⟩
    · exact absurd empty nonempty
    · exact Reader.lighter got nonempty
    · exact Reader.lighter failed nonempty
  steady calm taken := by
    rcases read_cases taken with ⟨_, rfl, rfl⟩ | ⟨_, _, _, got, rfl, rfl⟩ | ⟨_, _, failed, rfl, rfl⟩
    · exact ⟨calm, nofun⟩
    · exact Reader.steady calm got
    · exact Reader.steady calm failed

end Take

end Readers

section Loops

variable {ρ σ ε : Type u} [Reader ρ] {want : σ → Nat} {take : σ → List UInt8 → Except ε σ}
  {fail : ErrorKind → ε} {state final : σ} {source rest : ρ}

/-- Reads pieces until the state wants no more or the source ends. An interrupted read is
made again; any other failure ends the loop. -/
def consume (want : σ → Nat) (take : σ → List UInt8 → Except ε σ) (fail : ErrorKind → ε)
    (state : σ) (source : ρ) : Except ε (σ × ρ) :=
  if want state = 0 then .ok (state, source)
  else
    match _taken : Reader.read (want state) source with
    | (.ok [], rest) => .ok (state, rest)
    | (.ok (first :: more), rest) =>
      match take state (first :: more) with
      | .ok next => consume want take fail next rest
      | .error problem => .error problem
    | (.error .interrupted, rest) => consume want take fail state rest
    | (.error kind, _) => .error (fail kind)
termination_by Reader.weight source
decreasing_by
  · exact Reader.lighter _taken (by simp)
  · exact Reader.lighter _taken (by simp)

/-- What one turn of the loop does. -/
theorem consume_cases (want : σ → Nat) (take : σ → List UInt8 → Except ε σ) (fail : ErrorKind → ε)
    (state : σ) (source : ρ) :
    (want state = 0 ∧ consume want take fail state source = .ok (state, source)) ∨
    0 < want state ∧
      ((∃ rest, Reader.read (want state) source = (.ok [], rest) ∧
        consume want take fail state source = .ok (state, rest)) ∨
      (∃ bytes rest, bytes ≠ [] ∧ Reader.read (want state) source = (.ok bytes, rest) ∧
        consume want take fail state source =
          take state bytes >>= fun next => consume want take fail next rest) ∨
      (∃ rest, Reader.read (want state) source = (.error .interrupted, rest) ∧
        consume want take fail state source = consume want take fail state rest) ∨
      ∃ kind rest, kind ≠ .interrupted ∧ Reader.read (want state) source = (.error kind, rest) ∧
        consume want take fail state source = .error (fail kind)) := by
  rw [consume]
  by_cases full : want state = 0
  · exact .inl ⟨full, if_pos full⟩
  · refine .inr ⟨Nat.pos_of_ne_zero full, ?_⟩
    rw [if_neg full]
    split
    · next rest taken => exact .inl ⟨rest, taken, rfl⟩
    · next first more rest taken =>
      refine .inr (.inl ⟨first :: more, rest, by simp, taken, ?_⟩)
      cases take state (first :: more) <;> rfl
    · next rest taken => exact .inr (.inr (.inl ⟨rest, taken, rfl⟩))
    · next kind rest other taken =>
      exact .inr (.inr (.inr ⟨kind, rest, other, taken, rfl⟩))

/-- The bytes, state and source the loop has come to, before the turn it ends with. -/
inductive Reaches (want : σ → Nat) (take : σ → List UInt8 → Except ε σ) (start : σ) (source : ρ) :
    List UInt8 → σ → ρ → Prop where
  | start : Reaches want take start source [] start source
  | took {got bytes : List UInt8} {state next : σ} {left rest : ρ}
      (before : Reaches want take start source got state left) (wants : 0 < want state)
      (taken : Reader.read (want state) left = (.ok bytes, rest)) (some_ : bytes ≠ [])
      (held : take state bytes = .ok next) :
      Reaches want take start source (got ++ bytes) next rest
  | interrupted {got : List UInt8} {state : σ} {left rest : ρ}
      (before : Reaches want take start source got state left) (wants : 0 < want state)
      (taken : Reader.read (want state) left = (.error .interrupted, rest)) :
      Reaches want take start source got state rest

namespace Reaches

variable {got : List UInt8} {start : σ} {left : ρ}

theorem contents (reached : Reaches want take start source got state left) :
    Reader.contents source = got ++ Reader.contents left := by
  induction reached with
  | start => rfl
  | took before wants taken some_ held whole =>
    rw [whole, (Reader.piece taken).1, List.append_assoc]
  | interrupted before wants taken whole => rw [whole, Reader.unread taken]

/-- The turns made so far do not change how the loop ends. -/
theorem consume_eq (fail : ErrorKind → ε)
    (reached : Reaches want take start source got state left) :
    consume want take fail start source = consume want take fail state left := by
  induction reached with
  | start => rfl
  | @took _ bytes state next left rest before wants taken some_ held same =>
    rw [same]
    rcases consume_cases want take fail state left with ⟨none_, -⟩ | ⟨-, turn⟩
    · omega
    rcases turn with ⟨other, read, -⟩ | ⟨other, after, -, read, turn⟩ | ⟨other, read, -⟩ |
      ⟨kind, other, -, read, -⟩
    · rw [taken] at read
      cases read
      exact absurd rfl some_
    · rw [taken] at read
      cases read
      rw [turn, held]
      rfl
    · rw [taken] at read
      cases read
    · rw [taken] at read
      cases read
  | @interrupted _ state left rest before wants taken same =>
    rw [same]
    rcases consume_cases want take fail state left with ⟨none_, -⟩ | ⟨-, turn⟩
    · omega
    rcases turn with ⟨other, read, -⟩ | ⟨bytes, other, -, read, -⟩ | ⟨other, read, turn⟩ |
      ⟨kind, other, plain, read, -⟩
    · rw [taken] at read
      cases read
    · rw [taken] at read
      cases read
    · rw [taken] at read
      cases read
      exact turn
    · rw [taken] at read
      cases read
      exact absurd rfl plain

/-- The four ways the loop ends at a state it has come to. -/
inductive Ends (want : σ → Nat) (take : σ → List UInt8 → Except ε σ) (fail : ErrorKind → ε)
    (state : σ) (left : ρ) : Except ε (σ × ρ) → Prop where
  | full : want state = 0 → Ends want take fail state left (.ok (state, left))
  | ended {rest : ρ} : 0 < want state → Reader.read (want state) left = (.ok [], rest) →
      Ends want take fail state left (.ok (state, rest))
  | refused {bytes : List UInt8} {rest : ρ} {problem : ε} : 0 < want state → bytes ≠ [] →
      Reader.read (want state) left = (.ok bytes, rest) → take state bytes = .error problem →
      Ends want take fail state left (.error problem)
  | failed {kind : ErrorKind} {rest : ρ} : 0 < want state → kind ≠ .interrupted →
      Reader.read (want state) left = (.error kind, rest) →
      Ends want take fail state left (.error (fail kind))

/-- The loop comes to a state at which it ends. -/
theorem consume_ends (want : σ → Nat) (take : σ → List UInt8 → Except ε σ) (fail : ErrorKind → ε)
    (start : σ) (source : ρ) :
    ∃ got state left, Reaches want take start source got state left ∧
      Ends want take fail state left (consume want take fail start source) := by
  have along : ∀ (weight : Nat) (got : List UInt8) (state : σ) (left : ρ),
      Reader.weight left = weight → Reaches want take start source got state left →
      ∃ got state left, Reaches want take start source got state left ∧
        Ends want take fail state left (consume want take fail start source) := by
    intro weight
    induction weight using Nat.strongRecOn with
    | ind weight ih =>
      rintro got state left rfl reached
      have same := reached.consume_eq fail
      rcases consume_cases want take fail state left with ⟨full, turn⟩ | ⟨wants, turn⟩
      · exact ⟨got, state, left, reached, by rw [same, turn]; exact .full full⟩
      rcases turn with ⟨rest, taken, turn⟩ | ⟨bytes, rest, some_, taken, turn⟩ |
        ⟨rest, taken, -⟩ | ⟨kind, rest, other, taken, turn⟩
      · exact ⟨got, state, left, reached, by rw [same, turn]; exact .ended wants taken⟩
      · cases held : take state bytes with
        | error problem =>
          refine ⟨got, state, left, reached, ?_⟩
          rw [same, turn, held]
          exact .refused wants some_ taken held
        | ok next =>
          exact ih _ (Reader.lighter taken (by simpa using some_)) _ next rest rfl
            (reached.took wants taken some_ held)
      · exact ih _ (Reader.lighter taken nofun) got state rest rfl
          (reached.interrupted wants taken)
      · exact ⟨got, state, left, reached, by rw [same, turn]; exact .failed wants other taken⟩
  exact along _ [] start source rfl .start

end Reaches

/-- The bytes a read handed out. -/
def piece : Except ErrorKind (List UInt8) → List UInt8
  | .ok bytes => bytes
  | .error _ => []

variable (Took : List UInt8 → σ → Prop)

/-- What the loop took is what the source lost, and it stopped for one of its two
reasons. `Took` is any relation between the bytes taken so far and the state, and `Left`
any between them and the source. -/
theorem consume_took (Left : List UInt8 → ρ → Prop)
    (begins : Took [] state) (untouched : Left [] source)
    (takes : ∀ got state bytes next, Took got state → bytes.length ≤ want state →
      take state bytes = .ok next → Took (got ++ bytes) next)
    (reads : ∀ got wanted source outcome next, Left got source →
      Reader.read wanted source = (outcome, next) → Left (got ++ piece outcome) next)
    (consumed : consume want take fail state source = .ok (final, rest)) :
    ∃ got, Reader.contents source = got ++ Reader.contents rest ∧ Took got final ∧ Left got rest ∧
      (want final = 0 ∨ Reader.contents rest = []) := by
  obtain ⟨got, last, left, reached, ends⟩ := Reaches.consume_ends want take fail state source
  have whole := reached.contents
  have carried : Took got last ∧ Left got left := by
    clear ends whole consumed
    induction reached with
    | start => exact ⟨begins, untouched⟩
    | took _ _ taken _ held before =>
      exact ⟨takes _ _ _ _ before.1 (Reader.piece taken).2 held, reads _ _ _ _ _ before.2 taken⟩
    | interrupted _ _ taken before =>
      have still := reads _ _ _ _ _ before.2 taken
      rw [piece, List.append_nil] at still
      exact ⟨before.1, still⟩
  rw [consumed] at ends
  cases ends with
  | full full => exact ⟨got, whole, carried.1, carried.2, .inl full⟩
  | ended wants taken =>
    have same := (Reader.piece taken).1
    rw [List.nil_append] at same
    exact ⟨got, same ▸ whole, carried.1, List.append_nil got ▸ reads _ _ _ _ _ carried.2 taken,
      .inr (same ▸ Reader.ended wants taken)⟩

/-- Over a steady source the loop ends, when it can take every piece that is left. -/
theorem consume_steady (begins : Took [] state)
    (takes : ∀ got state bytes, Took got state → bytes ≠ [] → bytes.length ≤ want state →
      got ++ bytes <+: Reader.contents source →
      ∃ next, take state bytes = .ok next ∧ Took (got ++ bytes) next)
    (steady : Reader.Steady source) :
    ∃ final rest, consume want take fail state source = .ok (final, rest) ∧ Reader.Steady rest := by
  obtain ⟨got, last, left, reached, ends⟩ := Reaches.consume_ends want take fail state source
  have begun {got bytes : List UInt8} {last : σ} {left rest : ρ} {wanted : Nat}
      (reached : Reaches want take state source got last left)
      (taken : Reader.read wanted left = (.ok bytes, rest)) :
      got ++ bytes <+: Reader.contents source := by
    rw [reached.contents, (Reader.piece taken).1, ← List.append_assoc]
    exact List.prefix_append _ _
  have carried : Took got last ∧ Reader.Steady left := by
    clear ends
    induction reached with
    | start => exact ⟨begins, steady⟩
    | took reached _ taken some_ held before =>
      obtain ⟨next, held', took⟩ :=
        takes _ _ _ before.1 some_ (Reader.piece taken).2 (begun reached taken)
      exact ⟨Except.ok.inj (held'.symm.trans held) ▸ took, (Reader.steady before.2 taken).1⟩
    | interrupted _ _ taken before => exact ⟨before.1, (Reader.steady before.2 taken).1⟩
  generalize consume want take fail state source = outcome at ends
  cases ends with
  | full _ => exact ⟨last, left, rfl, carried.2⟩
  | ended _ taken => exact ⟨last, _, rfl, (Reader.steady carried.2 taken).1⟩
  | refused _ some_ taken refused =>
    obtain ⟨next, held, -⟩ :=
      takes _ _ _ carried.1 some_ (Reader.piece taken).2 (begun reached taken)
    rw [refused] at held
    cases held
  | failed _ other taken => exact absurd ((Reader.steady carried.2 taken).2 _ rfl) other

end Loops

section Sinks

/-- A destination of bytes, which may run out of room or fail to be flushed. -/
structure Sink where
  written : List UInt8 := []
  room : Option Nat := none
  flushes : Bool := true
  deriving DecidableEq, Repr

namespace Sink

/-- `Write::write_all`. -/
def writeAll (sink : Sink) (bytes : List UInt8) : Option Sink :=
  if sink.room.all (bytes.length ≤ ·) then
    some { sink with written := sink.written ++ bytes, room := sink.room.map (· - bytes.length) }
  else none

/-- `Write::flush`. -/
def flush (sink : Sink) : Option Sink :=
  if sink.flushes then some sink else none

theorem flush_eq_some
    {sink next : Sink} : sink.flush = some next ↔ sink.flushes = true ∧ sink = next := by
  simp [flush]

end Sink

end Sinks

end Foundation
