import GreenGateway.Archive.Guard

/-! Copying an admitted file's data: which sources are copied, what the sink is handed while
a copy runs, and the expansion ratio it is held to. -/

namespace GreenGateway.Archive

open Foundation List Option ArchiveGuard.Copying ArchiveGuard Reader

section Runs

variable (guard : ArchiveGuard) (entry : FileEntry) (data : Arrivals) (sink : Sink)

/-- The bytes, the progress and the source a copy has come to. -/
def CopyReaches : List UInt8 → Copying → Arrivals → Prop :=
  Reaches (wanted entry) (Copying.step guard entry)
    { total := guard.summary.copiedBytes, sink } data

/-- A piece within the declared size, read once `got` is through, and the archive's total
with it: what the expansion ratio is checked for. -/
structure Checked (got bytes : List UInt8) (copying : Copying) (total : UInt64) :
    Prop where
  read : ∃ left rest, CopyReaches guard entry data sink got copying left ∧
    Reader.read (copying.wanted entry) left = (.ok bytes, rest)
  some_ : bytes ≠ []
  within : saturatingAdd copying.copied (saturated bytes.length) ≤ entry.size
  total : total = saturatingAdd copying.total (saturated bytes.length)

end Runs

section Progress

variable {guard : ArchiveGuard} {entry : FileEntry} {data left rest : Arrivals} {sink : Sink}
  {got bytes : List UInt8} {copying next : Copying}

/-- What a copy has done once `got` is through. -/
structure Delivered (entry : FileEntry) (sink : Sink) (got : List UInt8)
    (copying : Copying) : Prop where
  copied : copying.copied = saturated got.length
  within : copying.copied ≤ entry.size
  room : sink.room.all (got.length ≤ ·) = true
  sink : copying.sink =
    { sink with written := sink.written ++ got, room := sink.room.map (· - got.length) }

theorem step_eq_ok : copying.step guard entry bytes = .ok next ↔
    saturatingAdd copying.copied (saturated bytes.length) ≤ entry.size ∧
      guard.overexpands (saturatingAdd copying.total (saturated bytes.length)) = false ∧
      ∃ sink, copying.sink.writeAll bytes = some sink ∧
        { copied := saturatingAdd copying.copied (saturated bytes.length),
          total := saturatingAdd copying.total (saturated bytes.length), sink } = next := by
  simp only [Copying.step, bind_eq_ok, unit_exists_ok, refuse_eq_ok, okOr_eq_ok,
    decide_eq_false_iff_not, gt_iff_lt, UInt64.not_lt, Except.ok.injEq]

theorem saturated_append (got bytes : List UInt8) :
    saturatingAdd (saturated got.length) (saturated bytes.length) =
      saturated (got ++ bytes).length := by
  apply UInt64.toNat_inj.mp
  simp only [saturatingAdd_toNat, saturated_toNat, length_append]
  omega

namespace Delivered

theorem start (entry : FileEntry) (sink : Sink) (total : UInt64) :
    Delivered entry sink [] { total, sink } where
  copied := rfl
  within := UInt64.zero_le
  room := by cases sink.room <;> simp
  sink := by
    cases sink with
    | mk written room flushes => cases room <;> simp

theorem writeAll (delivered : Delivered entry sink got copying) :
    copying.sink.writeAll bytes =
      if sink.room.all ((got ++ bytes).length ≤ ·) then
        some { sink with
          written := sink.written ++ (got ++ bytes)
          room := sink.room.map (· - (got ++ bytes).length) }
      else none := by
  have room := delivered.room
  rw [delivered.sink, Sink.writeAll]
  cases held : sink.room with
  | none => simp [append_assoc]
  | some bound =>
    simp only [held, all_some, decide_eq_true_eq] at room
    have same : bytes.length ≤ bound - got.length ↔ got.length + bytes.length ≤ bound := by omega
    simp only [map_some, all_some, length_append, append_assoc,
      decide_eq_true_eq, same, Nat.sub_sub]

theorem step (delivered : Delivered entry sink got copying)
    (stepped : copying.step guard entry bytes = .ok next) :
    Delivered entry sink (got ++ bytes) next := by
  obtain ⟨within, -, out, wrote, rfl⟩ := step_eq_ok.mp stepped
  rw [delivered.writeAll] at wrote
  split at wrote
  · rename_i room
    refine ⟨?_, within, room, (Option.some.inj wrote).symm⟩
    rw [delivered.copied, saturated_append]
  · cases wrote

theorem of_reaches (reached : CopyReaches guard entry data sink got copying left) :
    Delivered entry sink got copying := by
  induction reached with
  | start => exact start ..
  | took before wants taken some_ held delivered => exact delivered.step held
  | interrupted before wants taken delivered => exact delivered

end Delivered

end Progress

section Outcomes

variable {guard : ArchiveGuard} {entry : FileEntry} {data rest : Arrivals} {sink : Sink}
  {copying : Copying}

end Outcomes

section Delivery

variable {guard : ArchiveGuard} {entry : FileEntry} {data : Arrivals} {sink : Sink} {total : UInt64}

/-- What a sink is handed while a copy runs: only pieces of the source in its order, within
the declared size and the expansion ratio. -/
theorem checked_bounds {got bytes : List UInt8} {copying : Copying}
    (check : Checked guard entry data sink got bytes copying total)
    (small : entry.size.toNat < u64Max) :
    copying.sink.written = sink.written ++ got ∧ got ++ bytes <+: contents data ∧
      (got ++ bytes).length ≤ entry.size.toNat := by
  obtain ⟨left, rest, reached, taken⟩ := check.read
  have delivered := Delivered.of_reaches reached
  have within := check.within
  rw [delivered.copied, saturated_append, UInt64.le_iff_toNat_le, saturated_toNat] at within
  refine ⟨by rw [delivered.sink], ⟨contents rest, ?_⟩, by omega⟩
  rw [Reaches.contents reached, (piece taken).1, append_assoc]

end Delivery

section Sample

end Sample

end GreenGateway.Archive
