import Rumour.Proofs.Table.Calls
import Rumour.Proofs.Table.Written

set_option autoImplicit false

/-!
What a successful finish says. Only the first finish flushes; every later one answers the same without a
look at the buffer. So it tells of a complete table just when that first flush was taken and nothing was
offered behind it.
-/

namespace Rumour.Table.Writer

open Rumour.Storage

/-- The sink holds the table of the records taken, the first of those offered, and the buffer is empty. -/
structure Complete (offered : List Record) (writer : Writer) : Prop where
  sink : writer.sink.bytes = (tableString (offered.take writer.rowsWritten)).toUTF8.data
  buffer : writer.buffer = #[]

/-- The first finish among some calls, if there is one, was taken, and no record was offered behind it. -/
def FinishedLast (writer : Writer) (calls : List Call) : Prop :=
  ∀ front back, calls = front ++ .finish :: back → .finish ∉ front →
    (∃ left, finish (writer.after front) = .ok () left) ∧ offered back = []

/-! The mark -/

theorem leave_write_finished (records : List Record) (writer : Writer) :
    ((Call.write records).leave writer).finished = writer.finished := by
  rcases leave_write records writer with ⟨took, _⟩ | ⟨_, _, _, _, _, _, _, took, _, part⟩
  · exact took.finished
  · exact part.finished.trans took.finished

theorem leave_finish_finished (writer : Writer) : (Call.finish.leave writer).finished = true := by
  rw [leave_finish]
  split
  next done => exact done
  next => split <;> rfl

theorem leave_finish_of_finished {writer : Writer} (done : writer.finished = true) :
    Call.finish.leave writer = writer := by
  rw [leave_finish, if_pos done]

theorem after_finished (writer : Writer) (calls : List Call) :
    (writer.after calls).finished = true ↔ writer.finished = true ∨ .finish ∈ calls := by
  induction calls generalizing writer with
  | nil => simp [after]
  | cons call rest ih =>
      rw [after, ih]
      cases call with
      | write records => simp [leave_write_finished]
      | finish => simp [leave_finish_finished]

/-! The buffer -/

theorem ofSink_filled (sink : Sink) : (ofSink sink).buffer ≠ #[] := by
  have header : (Text.Utf8.encode headerLine).toArray ≠ #[] := by decide
  exact header

theorem leave_write_fills {records : List Record} (someRecords : records ≠ []) (writer : Writer) :
    ((Call.write records).leave writer).buffer ≠ #[] := by
  rcases leave_write records writer with ⟨_, filled⟩ | ⟨stuck, _⟩
  · exact filled someRecords
  · exact stuck.buffer_ne

theorem leave_write_filled (records : List Record) {writer : Writer} (filled : writer.buffer ≠ #[]) :
    ((Call.write records).leave writer).buffer ≠ #[] := by
  by_cases noneOffered : records = []
  · subst noneOffered
    exact filled
  · exact leave_write_fills noneOffered writer

/-- Without a first finish nothing empties the buffer for good. -/
theorem after_filled {writer : Writer} (filled : writer.buffer ≠ #[]) {calls : List Call}
    (noFlush : writer.finished = true ∨ .finish ∉ calls) : (writer.after calls).buffer ≠ #[] := by
  induction calls generalizing writer with
  | nil => exact filled
  | cons call rest ih =>
      cases call with
      | write records =>
          apply ih (leave_write_filled records filled)
          rw [leave_write_finished]
          exact noFlush.imp_right fun absent later => absent (List.mem_cons_of_mem _ later)
      | finish =>
          have done := noFlush.resolve_right (by simp)
          rw [after, leave_finish_of_finished done]
          exact ih filled (Or.inl done)

theorem after_fills {writer : Writer} (done : writer.finished = true) {calls : List Call}
    (someOffered : offered calls ≠ []) : (writer.after calls).buffer ≠ #[] := by
  induction calls generalizing writer with
  | nil => exact absurd rfl someOffered
  | cons call rest ih =>
      cases call with
      | write records =>
          have still : ((Call.write records).leave writer).finished = true :=
            (leave_write_finished records writer).trans done
          by_cases noneOffered : records = []
          · subst noneOffered
            exact ih still (by simpa [offered, Call.offers] using someOffered)
          · exact after_filled (leave_write_fills noneOffered writer) (Or.inl still)
      | finish =>
          rw [after, leave_finish_of_finished done]
          exact ih done (by simpa [offered, Call.offers] using someOffered)

theorem after_idle {writer : Writer} (done : writer.finished = true) {calls : List Call}
    (noneOffered : offered calls = []) : writer.after calls = writer := by
  induction calls with
  | nil => rfl
  | cons call rest ih =>
      simp only [offered, List.flatMap_cons, List.append_eq_nil_iff] at noneOffered
      cases call with
      | write records =>
          have empty : records = [] := noneOffered.1
          subst empty
          exact ih noneOffered.2
      | finish =>
          rw [after, leave_finish_of_finished done]
          exact ih noneOffered.2

/-! Finishes -/

theorem finish_of_finished {writer : Writer} (done : writer.finished = true) :
    finish writer = .ok () writer := by
  rw [finish_eq, if_pos done]

theorem finish_ok {writer left : Writer} (openWriter : writer.finished = false)
    (answered : finish writer = .ok () left) :
    writer.sink.hasRoom writer.buffer.size = true ∧ left = { writer.flushed with finished := true } := by
  rw [finish_eq, openWriter, if_neg (by simp)] at answered
  split at answered
  next room =>
    cases answered
    exact ⟨room, rfl⟩
  next => cases answered

theorem finish_complete {records : List Record} {writer left : Writer} (follows : writer.Follows records)
    (openWriter : writer.finished = false) (answered : finish writer = .ok () left) :
    left.Complete records := by
  obtain ⟨room, rfl⟩ := finish_ok openWriter answered
  cases follows with
  | all content rows =>
      refine { sink := ?_, buffer := rfl }
      have bytes : writer.flushed.sink.bytes.toList = (tableString records).toUTF8.data.toList := by
        rw [bytes_flushed, content, tableBytes_eq]
      have count : writer.flushed.rowsWritten = records.length := rows
      simpa [count] using Array.toList_inj.1 bytes
  | jammed stuck =>
      have refused := stuck.2
      rw [room] at refused
      cases refused

theorem finish_error {writer left : Writer} {fault : TableFault} (openWriter : writer.finished = false)
    (answered : finish writer = .error fault left) : left.buffer = writer.buffer := by
  rw [finish_eq, openWriter, if_neg (by simp)] at answered
  split at answered
  next => cases answered
  next =>
    cases answered
    rfl

theorem complete_behind_finish {records : List Record} {writer : Writer}
    (follows : writer.Follows records) (openWriter : writer.finished = false)
    (filled : writer.buffer ≠ #[]) (back : List Call) :
    ((Call.finish.leave writer).after back).Complete (records ++ offered back) ↔
      (∃ left, finish writer = .ok () left) ∧ offered back = [] := by
  have done := leave_finish_finished writer
  constructor
  · intro complete
    cases answered : finish writer with
    | ok answer left =>
        refine ⟨⟨left, rfl⟩, ?_⟩
        by_cases noneOffered : offered back = []
        · exact noneOffered
        · exact absurd complete.buffer (after_fills done noneOffered)
    | error fault left =>
        have still : (Call.finish.leave writer).buffer ≠ #[] := by
          rw [Call.leave_error .finish answered, finish_error openWriter answered]
          exact filled
        exact absurd complete.buffer (after_filled still (Or.inl done))
  · rintro ⟨⟨left, answered⟩, noneOffered⟩
    rw [after_idle done noneOffered, noneOffered, List.append_nil, Call.leave_ok .finish answered]
    exact finish_complete follows openWriter answered

/-- A finish that succeeds after some calls leaves a complete table just when the first finish among them,
if there was one, was taken and no record was offered behind it. -/
theorem finish_complete_iff (limit : Option Nat) (calls : List Call) {left : Writer}
    (answered : finish ((ofSink (Sink.empty limit)).after calls) = .ok () left) :
    left.Complete (offered calls) ↔ FinishedLast (ofSink (Sink.empty limit)) calls := by
  have untilFirst : ∀ front, .finish ∉ front →
      ((ofSink (Sink.empty limit)).after front).finished = false := by
    intro front absent
    have opened : (ofSink (Sink.empty limit)).finished = false := rfl
    rw [← Bool.not_eq_true, after_finished, opened]
    simp [absent]
  have atFirst : ∀ front back, calls = front ++ .finish :: back → .finish ∉ front →
      (left.Complete (offered calls) ↔
        (∃ left, finish ((ofSink (Sink.empty limit)).after front) = .ok () left) ∧ offered back = []) := by
    rintro front back rfl absent
    -- Marked at its first finish, the writer is left by the last one as it was.
    have marked := (after_finished (ofSink (Sink.empty limit)) (front ++ .finish :: back)).2 (by simp)
    rw [finish_of_finished marked, after_append, after] at answered
    cases answered
    have filled := after_filled (ofSink_filled (Sink.empty limit)) (Or.inr absent)
    have records : offered (front ++ .finish :: back) = offered front ++ offered back := by
      simp [offered, Call.offers]
    rw [records]
    exact complete_behind_finish (after_follows (ofSink_follows limit) front) (untilFirst front absent)
      filled back
  constructor
  · intro complete front back parts absent
    exact (atFirst front back parts absent).1 complete
  · intro last
    by_cases present : .finish ∈ calls
    · obtain ⟨front, back, parts, absent⟩ := List.eq_append_cons_of_mem present
      exact (atFirst front back parts absent).2 (last front back parts absent)
    · exact finish_complete (after_follows (ofSink_follows limit) calls) (untilFirst calls present) answered

def rowBeforeFinish : List Call :=
  [.write [{ size := 5, seeded := true, rounds := 4 }], .finish, .write [], .finish]

/-- With room for just the table, the last finish tells of it. -/
theorem rowBeforeFinish_complete :
    ∃ left, finish ((ofSink (Sink.empty (some 35))).after rowBeforeFinish) = .ok () left ∧
      left.Complete (offered rowBeforeFinish) ∧ left.rowsWritten = 1 := by
  have answered : finish ((ofSink (Sink.empty (some 35))).after rowBeforeFinish) =
      .ok () ((ofSink (Sink.empty (some 35))).after rowBeforeFinish) := rfl
  refine ⟨_, answered, (finish_complete_iff (some 35) rowBeforeFinish answered).2 ?_, rfl⟩
  rintro (_ | ⟨first, _ | ⟨second, front⟩⟩) back parts absent
  · cases parts
  · cases parts
    exact ⟨⟨_, rfl⟩, rfl⟩
  · simp only [rowBeforeFinish, List.cons_append, List.cons.injEq] at parts
    exact absurd (by simp [← parts.2.1]) absent

def rowBehindFinish : List Call :=
  [.finish, .write [{ size := 5, seeded := true, rounds := 4 }]]

/-- A finish succeeds while the row behind an earlier one is still in the buffer, and it succeeds after the
sink has refused an earlier one. -/
theorem finish_ok_incomplete :
    (∃ left, finish ((ofSink (Sink.empty none)).after rowBehindFinish) = .ok () left ∧
        left.rowsWritten = 1 ∧ left.sink.bytes = headerString.toUTF8.data ∧
        ¬ left.Complete (offered rowBehindFinish)) ∧
      (∃ refused left, finish (ofSink (Sink.empty (some 10))) = .error (.storage .sinkFull) refused ∧
        finish ((ofSink (Sink.empty (some 10))).after [.finish]) = .ok () left ∧
        left.sink.bytes = #[] ∧ ¬ left.Complete (offered [.finish])) := by
  constructor
  · refine ⟨_, rfl, rfl, by decide, fun complete => ?_⟩
    exact absurd complete.buffer (by decide)
  · refine ⟨_, _, rfl, rfl, by decide, fun complete => ?_⟩
    exact absurd complete.buffer (by decide)

end Rumour.Table.Writer
