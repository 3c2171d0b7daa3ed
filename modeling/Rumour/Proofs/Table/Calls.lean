import Rumour.Proofs.Table.Writing

set_option autoImplicit false

/-!
Histories of calls to a writer. Calls go on after a call that failed. A writer has taken all records that
it was offered, or it is jammed inside the line of one of them and takes no more.
-/

namespace Rumour.Table

open Rumour.Storage Rumour.Text

inductive Call where
  | write (records : List Record)
  | finish
  deriving DecidableEq, Repr

namespace Call

def perform : Call -> EStateM TableFault Writer Unit
  | .write records => Writer.writeRecords records
  | .finish => Writer.finish

/-- The writer that the call leaves, whatever it answers. -/
def leave (call : Call) (writer : Writer) : Writer :=
  match call.perform writer with
  | .ok () left => left
  | .error _ left => left

theorem leave_ok (call : Call) {writer left : Writer} (answered : call.perform writer = .ok () left) :
    call.leave writer = left := by
  simp only [leave, answered]

theorem leave_error (call : Call) {writer left : Writer} {fault : TableFault}
    (answered : call.perform writer = .error fault left) : call.leave writer = left := by
  simp only [leave, answered]

def offers : Call -> List Record
  | .write records => records
  | .finish => []

end Call

def offered (calls : List Call) : List Record :=
  calls.flatMap Call.offers

namespace Writer

def after (writer : Writer) : List Call -> Writer
  | [] => writer
  | call :: rest => (call.leave writer).after rest

theorem after_append (writer : Writer) (front back : List Call) :
    writer.after (front ++ back) = (writer.after front).after back := by
  induction front generalizing writer with
  | nil => rfl
  | cons call rest ih => exact ih (call.leave writer)

/-! Single calls -/

theorem finish_eq (writer : Writer) :
    finish writer =
      if writer.finished then .ok () writer
      else if writer.sink.hasRoom writer.buffer.size then .ok () { writer.flushed with finished := true }
      else .error (.storage .sinkFull) { writer with finished := true } := by
  by_cases done : writer.finished
  · simp [finish, done]
  · by_cases room : writer.sink.hasRoom writer.buffer.size <;>
      simp [finish, done, flush_eq, room, flushed]

theorem leave_finish (writer : Writer) :
    Call.finish.leave writer =
      if writer.finished then writer
      else if writer.sink.hasRoom writer.buffer.size then { writer.flushed with finished := true }
      else { writer with finished := true } := by
  simp only [Call.leave, Call.perform, finish_eq]
  by_cases done : writer.finished
  · simp [done]
  · by_cases room : writer.sink.hasRoom writer.buffer.size <;> simp [done, room]

/-- A write takes all of its records or stops inside the line of one. -/
theorem leave_write (records : List Record) (writer : Writer) :
    (writer.Took records ((Call.write records).leave writer) ∧
        (records ≠ [] → ((Call.write records).leave writer).buffer ≠ #[])) ∨
      (((Call.write records).leave writer).Jammed ∧
        ∃ taken record rest stuck written, records = taken ++ record :: rest ∧
          writer.Took taken stuck ∧ written <+: Utf8.encode (recordLine stuck.rowsWritten record) ∧
          stuck.Extends written ((Call.write records).leave writer)) := by
  cases ran : writeRecords records writer with
  | ok answer left =>
      rw [Call.leave_ok (.write records) ran]
      exact Or.inl (writeRecords_ok ran)
  | error fault left =>
      rw [Call.leave_error (.write records) ran]
      exact Or.inr (writeRecords_error ran).2

theorem leave_write_jammed {writer : Writer} (jammed : writer.Jammed) (records : List Record) :
    (Call.write records).leave writer = writer := by
  by_cases noneOffered : records = []
  · subst noneOffered
    rfl
  · exact Call.leave_error (.write records) (writeRecords_jammed jammed noneOffered)

theorem Jammed.buffer_ne {writer : Writer} (jammed : writer.Jammed) : writer.buffer ≠ #[] := by
  intro empty
  have full := jammed.1
  simp [empty, capacity] at full

/-! The limit of the sink -/

theorem leave_limit (call : Call) (writer : Writer) :
    (call.leave writer).sink.limit = writer.sink.limit := by
  cases call with
  | write records =>
      rcases leave_write records writer with ⟨took, _⟩ | ⟨_, _, _, _, _, _, _, took, _, part⟩
      · exact took.limit
      · exact part.limit.trans took.limit
  | finish =>
      rw [leave_finish]
      split
      next => rfl
      next => split <;> rfl

theorem after_limit (writer : Writer) (calls : List Call) :
    (writer.after calls).sink.limit = writer.sink.limit := by
  induction calls generalizing writer with
  | nil => rfl
  | cons call rest ih => exact (ih (call.leave writer)).trans (leave_limit call writer)

/-! Records taken -/

/-- How a writer stands that was offered some records. -/
inductive Follows (offered : List Record) (writer : Writer) : Prop where
  | all (content : writer.content = tableBytes offered) (rows : writer.rowsWritten = offered.length)
  | jammed (stuck : writer.Jammed) (taken rest : List Record) (record : Record) (written : List UInt8)
      (parts : offered = taken ++ record :: rest) (rows : writer.rowsWritten = taken.length)
      (content : writer.content = tableBytes taken ++ written)
      (within : written <+: Utf8.encode (recordLine taken.length record))

theorem ofSink_follows (limit : Option Nat) : Follows [] (ofSink (Sink.empty limit)) := by
  apply Follows.all
  · simp [content, ofSink, Sink.empty, tableBytes, tableText, recordLines]
  · rfl

theorem Took.content_table {before after : Writer} {known records : List Record}
    (took : before.Took records after) (content : before.content = tableBytes known)
    (rows : before.rowsWritten = known.length) :
    after.content = tableBytes (known ++ records) ∧ after.rowsWritten = (known ++ records).length := by
  constructor
  · rw [took.content, content, rows, tableBytes_append]
  · rw [took.rowsWritten, rows, List.length_append]

theorem leave_follows {known : List Record} {writer : Writer} (follows : writer.Follows known)
    (call : Call) : (call.leave writer).Follows (known ++ call.offers) := by
  cases call with
  | write records =>
      cases follows with
      | all content rows =>
          rcases leave_write records writer with
            ⟨took, _⟩ | ⟨stuck, taken, record, rest, before, written, parts, took, within, part⟩
          · obtain ⟨whole, count⟩ := took.content_table content rows
            exact Follows.all whole count
          · obtain ⟨whole, count⟩ := took.content_table content rows
            refine Follows.jammed stuck (known ++ taken) rest record written ?_ ?_ ?_ ?_
            · simp [Call.offers, parts]
            · exact part.rowsWritten.trans count
            · rw [part.content, whole]
            · rwa [← count]
      | jammed stuck taken rest record written parts rows content within =>
          rw [leave_write_jammed stuck]
          refine Follows.jammed stuck taken (rest ++ records) record written ?_ rows content within
          simp [Call.offers, parts]
  | finish =>
      rw [Call.offers, List.append_nil, leave_finish]
      cases follows with
      | all content rows =>
          split
          next => exact Follows.all content rows
          next =>
            split
            next => exact Follows.all ((flushed_extends writer).content.trans (by simpa using content)) rows
            next => exact Follows.all content rows
      | jammed stuck taken rest record written parts rows content within =>
          split
          next => exact Follows.jammed stuck taken rest record written parts rows content within
          next =>
            rw [stuck.2, if_neg (by simp)]
            exact Follows.jammed stuck taken rest record written parts rows content within

theorem after_follows {known : List Record} {writer : Writer} (follows : writer.Follows known)
    (calls : List Call) : (writer.after calls).Follows (known ++ offered calls) := by
  induction calls generalizing known writer with
  | nil => simpa [offered, after] using follows
  | cons call rest ih =>
      have later := ih (leave_follows follows call)
      simpa [offered, after, List.append_assoc] using later

end Writer

end Rumour.Table
