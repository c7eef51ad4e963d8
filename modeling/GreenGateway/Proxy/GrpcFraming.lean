import GreenGateway.Foundation.Words

/-! The incremental parser for gRPC message framing, against the framing itself: what a stream's
chunks do is what its bytes do, and what its bytes do is what its messages are. -/

namespace GreenGateway.Proxy

open Foundation List

section Framer

def messageHeaderBytes : Nat := 5

inductive FramingError where
  | messageTooLarge
  | truncated
  deriving DecidableEq, Repr

structure MessageFramer where
  /-- Bytes of the current envelope header seen so far. -/
  header : List UInt8
  remainingPayload : Nat
  short : header.length < messageHeaderBytes
  deriving DecidableEq, Repr

namespace MessageFramer

def default : MessageFramer := { header := [], remainingPayload := 0, short := by decide }

/-- A whole header was read: the payload it announces is next. -/
def announced (remainingPayload : Nat) : MessageFramer := { default with remainingPayload }

/-- The loop of `observe`, on what is left of the chunk. -/
def observeFrom (maxMessageBytes : Nat) (framer : MessageFramer) (chunk : List UInt8)
    (completed : Nat) : Except FramingError (Nat × MessageFramer) :=
  if chunk.length = 0 then .ok (completed, framer)
  else if 0 < framer.remainingPayload then
    let consumed := min framer.remainingPayload chunk.length
    let remainingPayload := framer.remainingPayload - consumed
    observeFrom maxMessageBytes { framer with remainingPayload } (chunk.drop consumed)
      (if remainingPayload = 0 then completed + 1 else completed)
  else
    let wanted := messageHeaderBytes - framer.header.length
    let header := framer.header ++ chunk.take wanted
    if short : header.length < messageHeaderBytes then .ok (completed, { framer with header, short })
    else
      let length := fromBigEndian (header.drop 1)
      if maxMessageBytes < length then .error .messageTooLarge
      else if length = 0 then
        observeFrom maxMessageBytes default (chunk.drop wanted) (completed + 1)
      else observeFrom maxMessageBytes (announced length) (chunk.drop wanted) completed
termination_by chunk.length
decreasing_by
  · rw [List.length_drop]
    omega
  · have := framer.short
    rw [List.length_drop]
    omega
  · have := framer.short
    rw [List.length_drop]
    omega

/-- How many messages ended in the chunk, and the framer after it. -/
def observe (framer : MessageFramer) (chunk : List UInt8) (maxMessageBytes : Nat) :
    Except FramingError (Nat × MessageFramer) :=
  observeFrom maxMessageBytes framer chunk 0

def finish (framer : MessageFramer) : Except FramingError Unit :=
  if framer.header.length = 0 ∧ framer.remainingPayload = 0 then .ok () else .error .truncated

/-- Feeds the chunks in order, up to the first refusal. -/
def observeAll (maxMessageBytes : Nat) (framer : MessageFramer) :
    List (List UInt8) → Except FramingError (Nat × MessageFramer)
  | [] => .ok (0, framer)
  | chunk :: chunks => do
    let (completed, framer) ← framer.observe chunk maxMessageBytes
    let (later, framer) ← observeAll maxMessageBytes framer chunks
    pure (completed + later, framer)

end MessageFramer

end Framer

section Bytes

variable {limit : Nat}

namespace MessageFramer

/-- What a whole header decides. -/
def opened (limit : Nat) (header : List UInt8) : Except FramingError (Nat × MessageFramer) :=
  let length := fromBigEndian (header.drop 1)
  if limit < length then .error .messageTooLarge
  else if length = 0 then .ok (1, default)
  else .ok (0, announced length)

/-- What one byte does. -/
def take (limit : Nat) (framer : MessageFramer) (byte : UInt8) :
    Except FramingError (Nat × MessageFramer) :=
  if 0 < framer.remainingPayload then
    .ok (if framer.remainingPayload = 1 then 1 else 0,
      { framer with remainingPayload := framer.remainingPayload - 1 })
  else if short : (framer.header ++ [byte]).length < messageHeaderBytes then
    .ok (0, { framer with header := framer.header ++ [byte], short })
  else opened limit (framer.header ++ [byte])

/-- Goes on from a result, adding to the messages it counts. -/
def andThen (result : Except FramingError (Nat × MessageFramer))
    (next : MessageFramer → Except FramingError (Nat × MessageFramer)) :
    Except FramingError (Nat × MessageFramer) := do
  let (completed, framer) ← result
  let (more, framer) ← next framer
  pure (completed + more, framer)

@[simp] theorem andThen_error (refusal : FramingError)
    (next : MessageFramer → Except FramingError (Nat × MessageFramer)) :
    andThen (.error refusal) next = .error refusal := rfl

@[simp] theorem andThen_zero (framer : MessageFramer)
    (next : MessageFramer → Except FramingError (Nat × MessageFramer)) :
    andThen (.ok (0, framer)) next = next framer := by
  simp only [andThen, Except.bind, bind, pure, Except.pure, Nat.zero_add]
  cases next framer <;> rfl

variable (result : Except FramingError (Nat × MessageFramer))

@[simp] theorem andThen_ok : andThen result (fun framer => .ok (0, framer)) = result := by
  rcases result with refusal | ⟨completed, framer⟩ <;> rfl

theorem andThen_assoc (first second : MessageFramer → Except FramingError (Nat × MessageFramer)) :
    andThen (andThen result first) second =
      andThen result fun framer => andThen (first framer) second := by
  rcases result with refusal | ⟨completed, framer⟩
  · rfl
  · simp only [andThen, bind, Except.bind, pure, Except.pure]
    rcases first framer with refusal | ⟨more, next⟩
    · rfl
    · dsimp only
      rcases second next with refusal | ⟨last, final⟩
      · rfl
      · dsimp only
        rw [Nat.add_assoc]

/-- What the bytes do one after the other. -/
def takeAll (limit : Nat) (framer : MessageFramer) :
    List UInt8 → Except FramingError (Nat × MessageFramer)
  | [] => .ok (0, framer)
  | byte :: bytes => andThen (framer.take limit byte) fun framer => framer.takeAll limit bytes

section

variable (framer : MessageFramer)

include framer

theorem takeAll_append (front back : List UInt8) : framer.takeAll limit (front ++ back) =
      andThen (framer.takeAll limit front) fun framer => framer.takeAll limit back := by
  induction front generalizing framer with
  | nil => rw [nil_append, takeAll, andThen_zero]
  | cons byte front ih =>
    rw [cons_append, takeAll, takeAll, andThen_assoc]
    simp only [ih]

/-- Payload bytes are counted down. -/
theorem takeAll_payload (payload : List UInt8)
    (some_ : 0 < payload.length) (fits : payload.length ≤ framer.remainingPayload) :
    framer.takeAll limit payload =
      .ok (if framer.remainingPayload = payload.length then 1 else 0,
        { framer with remainingPayload := framer.remainingPayload - payload.length }) := by
  induction payload generalizing framer with
  | nil => exact absurd some_ (by decide)
  | cons byte payload ih =>
    rw [length_cons] at fits ⊢
    have waiting : 0 < framer.remainingPayload := by omega
    rw [takeAll, take, if_pos waiting]
    by_cases more : 0 < payload.length
    · have unfinished : framer.remainingPayload ≠ 1 := by omega
      have rest := ih
        { framer with remainingPayload := framer.remainingPayload - 1 } more (by dsimp only; omega)
      have same : framer.remainingPayload - 1 = payload.length ↔
          framer.remainingPayload = payload.length + 1 := by omega
      rw [if_neg unfinished, andThen_zero, rest]
      simp only [same, Nat.sub_sub, Nat.add_comm 1]
    · obtain rfl : payload = [] := List.length_eq_zero_iff.mp (by omega)
      simp only [takeAll, andThen_ok, length_nil, Nat.zero_add]

/-- Header bytes are put aside until the header is whole. -/
theorem takeAll_header (bytes : List UInt8) (idle : framer.remainingPayload = 0)
    (short : (framer.header ++ bytes).length < messageHeaderBytes) :
    framer.takeAll limit bytes =
      .ok (0, { framer with header := framer.header ++ bytes, short }) := by
  induction bytes generalizing framer with
  | nil => simp [takeAll]
  | cons byte bytes ih =>
    have sooner : (framer.header ++ [byte]).length < messageHeaderBytes := by
      simp only [length_append, length_cons, length_nil] at short ⊢
      omega
    have waits : ¬ 0 < framer.remainingPayload := by omega
    have rest := ih { framer with header := framer.header ++ [byte], short := sooner }
      idle (by simpa only [append_assoc, singleton_append] using short)
    rw [takeAll, take, if_neg waits, dif_pos sooner, andThen_zero, rest]
    simp only [append_assoc, singleton_append]

theorem takeAll_opened (bytes : List UInt8) (idle : framer.remainingPayload = 0)
    (whole : (framer.header ++ bytes).length = messageHeaderBytes) :
    framer.takeAll limit bytes = opened limit (framer.header ++ bytes) := by
  have some_ : bytes ≠ [] := by
    rintro rfl
    have := framer.short
    rw [append_nil] at whole
    omega
  obtain ⟨front, last, rfl⟩ := (eq_nil_or_concat' bytes).resolve_left some_
  rw [← append_assoc] at whole ⊢
  have short : (framer.header ++ front).length < messageHeaderBytes := by
    rw [length_append, length_singleton] at whole
    omega
  have waits : ¬ 0 < framer.remainingPayload := by omega
  have closed : ¬ (framer.header ++ front ++ [last]).length < messageHeaderBytes := by omega
  rw [takeAll_append, takeAll_header framer front idle short, andThen_zero, takeAll, take,
    if_neg waits, dif_neg closed]
  simp only [takeAll, andThen_ok]

end

variable {framer : MessageFramer}

theorem takeAll_wanted (limit : Nat) (chunk : List UInt8) (idle : framer.remainingPayload = 0)
    (long : ¬ (framer.header ++
      chunk.take (messageHeaderBytes - framer.header.length)).length < messageHeaderBytes) :
    framer.takeAll limit (chunk.take (messageHeaderBytes - framer.header.length)) =
      opened limit (framer.header ++ chunk.take (messageHeaderBytes - framer.header.length)) := by
  refine takeAll_opened framer _ idle ?_
  have short := framer.short
  rw [length_append, length_take] at long ⊢
  omega

/-- What the front of a chunk does decides how the rest of it is read. -/
theorem andThen_takeAll_split {next : MessageFramer} {completed more : Nat} (chunk : List UInt8)
    (count : Nat) (front : framer.takeAll limit (chunk.take count) = .ok (more, next)) :
    andThen (.ok (completed, framer)) (fun framer => framer.takeAll limit chunk) =
      andThen (.ok (completed + more, next)) fun framer => framer.takeAll limit (chunk.drop count) := by
  have same : framer.takeAll limit chunk =
      andThen (.ok (more, next)) fun framer => framer.takeAll limit (chunk.drop count) := by
    rw [← front, ← takeAll_append, take_append_drop]
  simp only [andThen, bind, Except.bind, pure, Except.pure] at same ⊢
  rw [same]
  rcases next.takeAll limit (chunk.drop count) with refusal | ⟨last, final⟩
  · rfl
  · dsimp only
    rw [Nat.add_assoc]

/-- The loop does what the bytes do one after the other. -/
theorem observeFrom_eq (framer : MessageFramer) (chunk : List UInt8) (completed : Nat) :
    observeFrom limit framer chunk completed =
      andThen (.ok (completed, framer)) fun framer => framer.takeAll limit chunk := by
  fun_induction observeFrom limit framer chunk completed with
  | case1 framer chunk completed empty =>
    obtain rfl := List.length_eq_zero_iff.mp empty
    rfl
  | case2 framer chunk completed some_ waiting consumed remainingPayload ih =>
    have length : (chunk.take consumed).length = consumed := by
      rw [length_take]
      omega
    have finished : framer.remainingPayload = consumed ↔ remainingPayload = 0 := by omega
    have payload : framer.takeAll limit (chunk.take consumed) =
        .ok (if remainingPayload = 0 then 1 else 0, { framer with remainingPayload }) := by
      rw [takeAll_payload framer _ (by omega) (by omega)]
      simp only [length, finished, remainingPayload]
    simp only [dite_eq_ite] at ih
    rw [ih, andThen_takeAll_split chunk consumed payload]
    split <;> rfl
  | case3 framer chunk completed some_ idle wanted header short =>
    have room := framer.short
    have all : chunk.length ≤ wanted := by
      simp only [header, length_append, length_take] at short
      omega
    have front : framer.takeAll limit (chunk.take wanted) = .ok (0, { framer with header, short }) :=
      takeAll_header framer (chunk.take wanted) (by omega) short
    rw [andThen_takeAll_split chunk wanted front, drop_of_length_le all]
    rfl
  | case4 framer chunk completed some_ idle wanted header long length large =>
    have front := takeAll_wanted limit chunk (by omega) long
    rw [opened, if_pos large] at front
    have refused : framer.takeAll limit chunk = .error .messageTooLarge := by
      rw [← take_append_drop wanted chunk, takeAll_append, front, andThen_error]
    simp only [andThen, bind, Except.bind, refused]
  | case5 framer chunk completed some_ idle wanted header long length fits empty
      ih =>
    have front := takeAll_wanted limit chunk (by omega) long
    rw [opened, if_neg fits, if_pos empty] at front
    rw [ih, andThen_takeAll_split chunk wanted front]
  | case6 framer chunk completed some_ idle wanted header long length fits nonempty
      ih =>
    have front := takeAll_wanted limit chunk (by omega) long
    rw [opened, if_neg fits, if_neg nonempty] at front
    rw [ih, andThen_takeAll_split chunk wanted front, Nat.add_zero]

theorem observe_eq (framer : MessageFramer) (chunk : List UInt8) :
    framer.observe chunk limit = framer.takeAll limit chunk := by
  rw [observe, observeFrom_eq, andThen_zero]

/-- How a stream is cut makes no difference. -/
theorem observeAll_eq (framer : MessageFramer) (chunks : List (List UInt8)) :
    observeAll limit framer chunks = framer.takeAll limit chunks.flatten := by
  induction chunks generalizing framer with
  | nil => rfl
  | cons chunk chunks ih =>
    rw [flatten_cons, takeAll_append, observeAll, observe_eq]
    simp only [ih]
    rfl

end MessageFramer

end Bytes

section Messages

variable {limit : Nat}

/-- A flag byte, a four-byte length within the limit and that many bytes of payload. -/
def IsMessage (limit : Nat) (bytes : List UInt8) : Prop :=
  ∃ flag size payload, bytes = flag :: size ++ payload ∧ size.length = 4 ∧
    payload.length = fromBigEndian size ∧ fromBigEndian size ≤ limit

/-- The bytes begin with a header whose length is over the limit. -/
def Oversized (limit : Nat) (bytes : List UInt8) : Prop :=
  ∃ flag size rest, bytes = flag :: size ++ rest ∧ size.length = 4 ∧ limit < fromBigEndian size

/-- The bytes end inside the message they begin: in its header, or in its payload. -/
def Unfinished (limit : Nat) (bytes : List UInt8) : Prop :=
  bytes.length < messageHeaderBytes ∨
    ∃ flag size payload, bytes = flag :: size ++ payload ∧ size.length = 4 ∧
      payload.length < fromBigEndian size ∧ fromBigEndian size ≤ limit

/-- Complete messages, and then bytes that are no complete message. -/
structure Framed (limit : Nat) (stream : List UInt8) (messages : List (List UInt8))
    (rest : List UInt8) : Prop where
  whole : stream = messages.flatten ++ rest
  each : ∀ message ∈ messages, IsMessage limit message
  ends : Unfinished limit rest ∨ Oversized limit rest

/-- What the first bytes of a stream are. -/
theorem begins_with (limit : Nat) (bytes : List UInt8) :
    Unfinished limit bytes ∨ Oversized limit bytes ∨
      ∃ message rest, bytes = message ++ rest ∧ IsMessage limit message := by
  by_cases short : bytes.length < messageHeaderBytes
  · exact .inl (.inl short)
  · obtain ⟨flag, more, rfl⟩ := exists_cons_of_ne_nil
      (show bytes ≠ [] by rintro rfl; exact short (by decide))
    rw [messageHeaderBytes, length_cons] at short
    have split : flag :: more = flag :: more.take 4 ++ more.drop 4 := by
      rw [cons_append, take_append_drop]
    have size : (more.take 4).length = 4 := by
      rw [length_take]
      omega
    by_cases large : limit < fromBigEndian (more.take 4)
    · exact .inr (.inl ⟨flag, more.take 4, more.drop 4, split, size, large⟩)
    · by_cases cut : (more.drop 4).length < fromBigEndian (more.take 4)
      · exact .inl (.inr ⟨flag, more.take 4, more.drop 4, split, size, cut, by omega⟩)
      · refine .inr (.inr ⟨flag :: more.take 4 ++ (more.drop 4).take (fromBigEndian (more.take 4)),
          (more.drop 4).drop (fromBigEndian (more.take 4)), ?_, flag, more.take 4, _, rfl, size, ?_,
          by omega⟩)
        · rw [append_assoc, take_append_drop, ← split]
        · rw [length_take]
          omega

theorem IsMessage.length_pos {message : List UInt8} (is : IsMessage limit message) :
    0 < message.length := by
  obtain ⟨flag, size, payload, rfl, -⟩ := is
  simp

/-- Every stream is complete messages and then something else. -/
theorem framed_exists (limit : Nat) (stream : List UInt8) :
    ∃ messages rest, Framed limit stream messages rest := by
  induction length : stream.length using Nat.strong_induction_on generalizing stream with
  | _ size ih =>
    rcases begins_with limit stream with unfinished | oversized | ⟨message, later, rfl, is⟩
    · exact ⟨[], stream, rfl, nofun, .inl unfinished⟩
    · exact ⟨[], stream, rfl, nofun, .inr oversized⟩
    · have shorter : later.length < size := by
        have := is.length_pos
        rw [length_append] at length
        omega
      obtain ⟨messages, rest, whole, each, ends⟩ := ih _ shorter later rfl
      refine ⟨message :: messages, rest, ?_, List.forall_mem_cons.mpr ⟨is, each⟩, ends⟩
      rw [flatten_cons, append_assoc, ← whole]

namespace MessageFramer

/-- A whole header at the start of a message. -/
theorem takeAll_first {flag : UInt8} {size : List UInt8} (four : size.length = 4) :
    default.takeAll limit (flag :: size) = opened limit (flag :: size) := by
  refine takeAll_opened default (flag :: size) rfl ?_
  simp [default, four, messageHeaderBytes]

theorem takeAll_message {message : List UInt8} (is : IsMessage limit message) :
    default.takeAll limit message = .ok (1, default) := by
  obtain ⟨flag, size, payload, rfl, four, length, fits⟩ := is
  have small : ¬ limit < fromBigEndian size := by omega
  rw [takeAll_append, takeAll_first four, opened, drop_one, tail_cons, if_neg small]
  by_cases empty : fromBigEndian size = 0
  · rw [if_pos empty]
    rw [empty, length_eq_zero_iff] at length
    rw [length]
    rfl
  · rw [if_neg empty, andThen_zero, takeAll_payload _ _ (by omega) length.le]
    simp only [announced, length, if_true, Nat.sub_self]
    rfl

variable {messages : List (List UInt8)} {bytes : List UInt8}

theorem takeAll_messages (each : ∀ message ∈ messages, IsMessage limit message) :
    default.takeAll limit messages.flatten = .ok (messages.length, default) := by
  induction messages with
  | nil => rfl
  | cons message messages ih =>
    obtain ⟨first, others⟩ := List.forall_mem_cons.mp each
    rw [flatten_cons, takeAll_append, takeAll_message first]
    simp only [andThen, bind, Except.bind, ih others, pure, Except.pure,
      length_cons, Nat.add_comm 1]

theorem takeAll_oversized (oversized : Oversized limit bytes) :
    default.takeAll limit bytes = .error .messageTooLarge := by
  obtain ⟨flag, size, rest, rfl, four, large⟩ := oversized
  rw [takeAll_append, takeAll_first four, opened, drop_one, tail_cons, if_pos large, andThen_error]

/-- A framer that stopped inside a message knows it. -/
theorem takeAll_unfinished (unfinished : Unfinished limit bytes) :
    ∃ framer, default.takeAll limit bytes = .ok (0, framer) ∧
      (framer.finish = .ok () ↔ bytes = []) := by
  rcases unfinished with short | ⟨flag, size, payload, rfl, four, cut, fits⟩
  · refine ⟨_, takeAll_header default bytes rfl short, ?_⟩
    simp only [finish, default, nil_append, and_true, length_eq_zero_iff]
    split <;> simp_all
  · have small : ¬ limit < fromBigEndian size := by omega
    have nonempty : ¬ fromBigEndian size = 0 := by omega
    rw [takeAll_append, takeAll_first four, opened, drop_one, tail_cons, if_neg small,
      if_neg nonempty, andThen_zero]
    have left : (announced (fromBigEndian size)).takeAll limit payload =
        .ok (0, announced (fromBigEndian size - payload.length)) := by
      by_cases none_ : payload = []
      · subst none_
        rfl
      · have waits : (announced (fromBigEndian size)).remainingPayload ≠ payload.length := by
          simp only [announced]
          omega
        rw [takeAll_payload _ _ (List.length_pos_iff.mpr none_) cut.le, if_neg waits]
        rfl
    refine ⟨_, left, ?_⟩
    have waits : ¬ fromBigEndian size - payload.length = 0 := by omega
    simp [finish, announced, waits]

theorem takeAll_framed {stream rest : List UInt8} (framed : Framed limit stream messages rest) :
    default.takeAll limit stream = .error .messageTooLarge ∧ Oversized limit rest ∨
      ∃ framer, default.takeAll limit stream = .ok (messages.length, framer) ∧
        Unfinished limit rest ∧ (framer.finish = .ok () ↔ rest = []) := by
  obtain ⟨rfl, each, ends⟩ := framed
  rw [takeAll_append, takeAll_messages each]
  rcases ends with unfinished | oversized
  · obtain ⟨framer, stops, boundary⟩ := takeAll_unfinished unfinished
    refine .inr ⟨framer, ?_, unfinished, boundary⟩
    simp only [andThen, bind, Except.bind, stops, pure, Except.pure, Nat.add_zero]
  · refine .inl ⟨?_, oversized⟩
    simp only [andThen, bind, Except.bind, takeAll_oversized oversized]

end MessageFramer

theorem Oversized.not_unfinished {bytes : List UInt8} (oversized : Oversized limit bytes) :
    ¬ Unfinished limit bytes := by
  obtain ⟨flag, size, rest, rfl, four, large⟩ := oversized
  rintro (short | ⟨other, length, payload, same, fourToo, -, fits⟩)
  · simp only [messageHeaderBytes, length_append, length_cons, four] at short
    omega
  · obtain ⟨-, same⟩ := List.cons.inj same
    rw [(append_inj same (four.trans fourToo.symm)).1] at large
    omega

/-- However a stream is cut into chunks, the framer's answer is that of the whole stream at once;
it is a refusal just when a header over the limit follows the complete messages, and otherwise
counts these, and the stream ends well just when it is nothing but complete messages. -/
theorem MessageFramer.observe_framing (limit : Nat) (chunks : List (List UInt8)) :
    (let whole := MessageFramer.default.observe chunks.flatten limit
    MessageFramer.default.observeAll limit chunks = whole ∧
      (∃ messages rest, Framed limit chunks.flatten messages rest) ∧
      (∀ messages rest, Framed limit chunks.flatten messages rest →
        (whole = .error .messageTooLarge ↔ Oversized limit rest) ∧
        (¬ Oversized limit rest → ∃ framer, whole = .ok (messages.length, framer))) ∧
      ((∃ total framer, whole = .ok (total, framer) ∧ framer.finish = .ok ()) ↔
        ∃ messages : List (List UInt8), chunks.flatten = messages.flatten ∧
          ∀ message ∈ messages, IsMessage limit message)) := by
  intro whole
  have same : whole = MessageFramer.default.takeAll limit chunks.flatten := observe_eq _ _
  refine ⟨(observeAll_eq _ _).trans same.symm, framed_exists _ _, ?_, ?_⟩
  · intro messages rest framed
    rw [same]
    rcases takeAll_framed framed with ⟨refused, oversized⟩ | ⟨framer, read, unfinished, -⟩
    · exact ⟨⟨fun _ => oversized, fun _ => refused⟩, fun small => absurd oversized small⟩
    · refine ⟨⟨fun refused => ?_, fun oversized => absurd unfinished oversized.not_unfinished⟩,
        fun _ => ⟨framer, read⟩⟩
      rw [read] at refused
      cases refused
  · rw [same]
    constructor
    · rintro ⟨total, framer, read, ends⟩
      obtain ⟨messages, rest, framed⟩ := framed_exists limit chunks.flatten
      refine ⟨messages, ?_, framed.each⟩
      rcases takeAll_framed framed with ⟨refused, -⟩ | ⟨other, readToo, -, boundary⟩
      · cases refused.symm.trans read
      · cases readToo.symm.trans read
        have whole := framed.whole
        rwa [boundary.mp ends, append_nil] at whole
    · rintro ⟨messages, split, each⟩
      exact ⟨messages.length, .default, split ▸ takeAll_messages each, rfl⟩

end Messages

end GreenGateway.Proxy
