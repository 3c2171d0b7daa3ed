import Rumour.Proofs.Table.RoundTrip

set_option autoImplicit false

/-!
Writers over a sink with a limit. Until a call is refused the sink holds the first bytes of the table of all records
offered. From the first refusal on it stays as it is, whatever is called, since the buffer is never emptied again.
-/

namespace Rumour.Table.Writer

open Rumour.Storage Rumour.Text

/-! Refused sinks -/

theorem emit_bounded (byte : UInt8) : Keeps (fun _ buffer => buffer.size ≤ capacity) (emit byte) := by
  intro writer bounded
  rw [emit_eq]
  by_cases free : writer.buffer.size < capacity
  · rw [if_pos free]
    simpa [stored] using Nat.succ_le_of_lt free
  · rw [if_neg free]
    by_cases room : writer.sink.hasRoom writer.buffer.size
    · rw [if_pos room]
      simp [stored, flushed, capacity]
    · rw [if_neg room]
      exact bounded

/-- The sink is the given one and has no room for what is in the buffer. -/
def Stays (sink : Sink) (writer : Writer) : Prop :=
  writer.sink = sink ∧ sink.hasRoom writer.buffer.size = false

section

variable {sink : Sink} {writer : Writer}

theorem hasRoom_add (sink : Sink) (count more : Nat) (full : sink.hasRoom count = false) :
    sink.hasRoom (count + more) = false := by
  unfold Sink.hasRoom at *
  split at full
  next limit =>
    simp only [decide_eq_false_iff_not] at full ⊢
    omega
  next => cases full

theorem emit_stays (sink : Sink) (byte : UInt8) :
    Keeps (fun there buffer => there = sink ∧ sink.hasRoom buffer.size = false) (emit byte) := by
  intro writer stays
  obtain ⟨rfl, full⟩ := stays
  rw [emit_eq]
  by_cases free : writer.buffer.size < capacity
  · rw [if_pos free]
    have fuller := hasRoom_add writer.sink writer.buffer.size 1 full
    exact ⟨rfl, by simpa [stored] using fuller⟩
  · rw [if_neg free, full]
    exact ⟨rfl, full⟩

theorem emitAll_stays (sink : Sink) (bytes : List UInt8) :
    Guarantees (emitAll bytes) (Stays sink) (fun _ => Stays sink) (fun _ => Stays sink) :=
  emitAll_keeps (emit_stays sink) bytes

theorem writeRecords_stays (sink : Sink) (records : List Record) :
    Guarantees (writeRecords records) (Stays sink) (fun _ => Stays sink) (fun _ => Stays sink) :=
  writeRecords_keeps (emit_stays sink) records

theorem finish_stays (sink : Sink) :
    Guarantees finish (Stays sink) (fun _ => Stays sink) (fun _ => Stays sink) := by
  intro writer stays
  obtain ⟨rfl, full⟩ := stays
  rw [finish_eq, full]
  by_cases done : writer.finished <;> simp [done, Stays, full]

theorem leave_stays (call : Call) (stays : writer.Stays sink) : (call.leave writer).Stays sink := by
  have kept : Guarantees call.perform (Stays sink) (fun _ => Stays sink) (fun _ => Stays sink) := by
    cases call with
    | write records => exact writeRecords_stays sink records
    | finish => exact finish_stays sink
  cases ran : call.perform writer with
  | ok _ left =>
      rw [call.leave_ok ran]
      exact kept.of_ok stays ran
  | error fault left =>
      rw [call.leave_error ran]
      exact kept.of_error stays ran

theorem after_stays (stays : writer.Stays sink) (calls : List Call) : (writer.after calls).Stays sink := by
  induction calls generalizing writer with
  | nil => exact stays
  | cons call rest ih => exact ih (leave_stays call stays)

theorem close_stays (stays : writer.Stays sink) : writer.close = (.error (.storage .sinkFull), sink) := by
  obtain ⟨rfl, full⟩ := stays
  simp [close, flush_eq, full]

theorem perform_error {call : Call} {left : Writer} {fault : TableFault}
    (refused : call.perform writer = .error fault left) : left.Stays left.sink := by
  refine ⟨rfl, ?_⟩
  cases call with
  | write records => exact (writeRecords_error refused).2.1.2
  | finish =>
      rw [Call.perform, finish_eq] at refused
      split at refused
      next => cases refused
      next =>
        split at refused
        next => cases refused
        next full =>
          cases refused
          simpa using full

end

/-! Calls up to the first refusal -/

/-- The calls up to and including the first one in which the sink refuses a block. -/
def heard (writer : Writer) : List Call -> List Call
  | [] => []
  | call :: rest =>
      match call.perform writer with
      | .ok () left => call :: left.heard rest
      | .error _ _ => [call]

/-- A writer that has taken all records that it was offered. -/
structure Holds (records : List Record) (writer : Writer) : Prop where
  content : writer.content = tableBytes records
  rows : writer.rowsWritten = records.length

/-- How a writer may stand in the middle of a call: some records are taken, and a part of the next one's line. -/
inductive Moment (writer : Writer) : Call -> Writer -> Prop where
  | writing {taken rest : List Record} {record : Record} {part : List UInt8} {middle now : Writer}
      (taking : writeRecords taken writer = .ok () middle)
      (within : part <+: Utf8.encode (recordLine middle.rowsWritten record))
      (emitted : emitAll part middle = .ok () now) : writer.Moment (.write (taken ++ record :: rest)) now

theorem ofSink_holds (limit : Option Nat) : (ofSink (Sink.empty limit)).Holds [] := by
  cases ofSink_follows limit with
  | all content rows => exact { content, rows }
  | jammed _ taken rest record _ parts => cases taken <;> cases parts

section

variable {writer : Writer} {known : List Record}

theorem Holds.take {left : Writer} {records : List Record} (holds : writer.Holds known)
    (took : writer.Took records left) : left.Holds (known ++ records) := by
  obtain ⟨content, rows⟩ := took.content_table holds.content holds.rows
  exact { content, rows }

theorem Holds.perform {call : Call} {left : Writer} (holds : writer.Holds known)
    (answered : call.perform writer = .ok () left) : left.Holds (known ++ call.offers) := by
  cases call with
  | write records => exact holds.take (writeRecords_ok answered).1
  | finish =>
      rw [← Call.leave_ok .finish answered, leave_finish]
      simp only [Call.perform, finish_eq] at answered
      split at answered
      next done => simpa [done, Call.offers] using holds
      next done =>
        split at answered
        next room =>
          have flushed : writer.flushed.content = writer.content := by
            simpa using writer.flushed_extends.content
          rw [if_neg done, if_pos room, Call.offers, List.append_nil]
          exact { content := flushed.trans holds.content, rows := holds.rows }
        next => cases answered

theorem tableBytes_part {record : Record} {part : List UInt8} (rest : List Record)
    (within : part <+: Utf8.encode (recordLine known.length record)) :
    tableBytes known ++ part <+: tableBytes (known ++ record :: rest) := by
  rw [tableBytes_append, recordLines, encode_append]
  apply (List.prefix_append_right_inj _).2
  exact within.trans (List.prefix_append _ _)

theorem Follows.content_prefix (follows : writer.Follows known) : writer.content <+: tableBytes known := by
  cases follows with
  | all content rows => exact content ▸ List.prefix_rfl
  | jammed stuck taken rest record written parts rows content within =>
      rw [content, parts]
      exact tableBytes_part rest within

theorem sink_prefix (writer : Writer) : writer.sink.bytes.toList <+: writer.content :=
  List.prefix_append _ _

theorem heard_single (writer : Writer) (call : Call) : writer.heard [call] = [call] := by
  unfold heard
  cases call.perform writer <;> rfl

/-- Either all calls were answered and all records are held, or the sink stays at a first part of the table of those
that were offered up to the first refusal. -/
theorem after_cases (holds : writer.Holds known) (calls : List Call) :
    ((∀ more, writer.heard (calls ++ more) = calls ++ (writer.after calls).heard more) ∧
        (writer.after calls).Holds (known ++ offered calls)) ∨
      ∃ sink, (writer.after calls).Stays sink ∧ (∀ more, writer.heard (calls ++ more) = writer.heard calls) ∧
        sink.bytes.toList <+: tableBytes (known ++ offered (writer.heard calls)) := by
  induction calls generalizing writer known with
  | nil => exact Or.inl ⟨fun more => rfl, by simpa [offered, after] using holds⟩
  | cons call rest ih =>
      cases ran : call.perform writer with
      | ok answer left =>
          have goesOn : writer.after (call :: rest) = left.after rest := by rw [after, call.leave_ok ran]
          have heardLater : ∀ more, writer.heard (call :: more) = call :: left.heard more := by
            intro more
            simp only [heard, ran]
          have known : ∀ calls, known ++ offered (call :: calls) = known ++ call.offers ++ offered calls := by
            intro calls
            simp [offered]
          rw [goesOn, heardLater, known, known]
          rcases ih (holds.perform ran) with ⟨all, held⟩ | ⟨sink, stays, cut, within⟩
          · exact Or.inl ⟨fun more => by rw [List.cons_append, heardLater, all, List.cons_append], held⟩
          · exact Or.inr ⟨sink, stays, fun more => by rw [List.cons_append, heardLater, cut], within⟩
      | error fault left =>
          have heardOne : ∀ more, writer.heard (call :: more) = [call] := by
            intro more
            simp only [heard, ran]
          have stays : (writer.after (call :: rest)).Stays left.sink := by
            rw [after, call.leave_error ran]
            exact after_stays (perform_error ran) rest
          have follows := leave_follows (.all holds.content holds.rows) call
          rw [call.leave_error ran] at follows
          refine Or.inr ⟨left.sink, stays, fun more => by rw [List.cons_append, heardOne, heardOne], ?_⟩
          rw [heardOne]
          simpa [offered] using left.sink_prefix.trans follows.content_prefix

theorem Moment.stays {sink : Sink} {call : Call} {now : Writer} (moment : writer.Moment call now)
    (stays : writer.Stays sink) : now.Stays sink := by
  cases moment with
  | writing taking _ emitted =>
      exact (emitAll_stays sink _).of_ok ((writeRecords_stays sink _).of_ok stays taking) emitted

theorem Moment.content_prefix {call : Call} {now : Writer} (moment : writer.Moment call now)
    (holds : writer.Holds known) : now.content <+: tableBytes (known ++ call.offers) := by
  cases moment with
  | @writing taken rest record part middle _ taking within emitted =>
      -- The records taken are held, and what was emitted behind them is a part of the next line.
      have held := holds.take (writeRecords_ok taking).1
      have all : known ++ (Call.write (taken ++ record :: rest)).offers = known ++ taken ++ record :: rest := by
        simp [Call.offers]
      rw [held.rows] at within
      rw [(emitAll_ok emitted).1.content, held.content, all]
      exact tableBytes_part rest within

theorem close_holds (holds : writer.Holds known) : writer.close.2.bytes.toList <+: tableBytes known := by
  rw [← holds.content, close, flush_eq]
  by_cases room : writer.sink.hasRoom writer.buffer.size
  · rw [if_pos room]
    exact writer.bytes_flushed ▸ List.prefix_rfl
  · rw [if_neg room]
    exact writer.sink_prefix

/-! Counted records -/

/-- The first record whose write fails comes behind these among all records offered. -/
inductive FailsBehind : Writer -> List Call -> List Record -> Prop where
  | here {writer middle left : Writer} {taken rest : List Record} {record : Record} {fault : StorageFault}
      (calls : List Call) (taking : writeRecords taken writer = .ok () middle)
      (refused : writeRecord record middle = .error fault left) :
      FailsBehind writer (.write (taken ++ record :: rest) :: calls) taken
  | later {writer : Writer} {call : Call} {calls : List Call} {before : List Record}
      (answered : ∀ records, call = .write records → ∃ left, writeRecords records writer = .ok () left)
      (behind : FailsBehind (call.leave writer) calls before) :
      FailsBehind writer (call :: calls) (call.offers ++ before)

theorem writeRecords_append (taken more : List Record) {middle : Writer}
    (taking : writeRecords taken writer = .ok () middle) :
    writeRecords (taken ++ more) writer = writeRecords more middle := by
  induction taken generalizing writer with
  | nil =>
      cases taking
      rfl
  | cons record rest ih =>
      simp only [List.cons_append, writeRecords] at taking ⊢
      cases ran : writeRecord record writer with
      | ok _ left =>
          rw [ran] at taking
          exact ih taking
      | error fault left =>
          rw [ran] at taking
          cases taking

theorem writeRecords_fails {records : List Record} {left : Writer} {fault : TableFault}
    (failed : writeRecords records writer = .error fault left) :
    ∃ taken record rest middle cause, records = taken ++ record :: rest ∧
      writeRecords taken writer = .ok () middle ∧ writeRecord record middle = .error cause left := by
  induction records generalizing writer with
  | nil => cases failed
  | cons record rest ih =>
      unfold writeRecords at failed
      cases ran : writeRecord record writer with
      | ok _ next =>
          rw [ran] at failed
          obtain ⟨taken, failing, more, middle, cause, shape, taking, refused⟩ := ih failed
          refine ⟨record :: taken, failing, more, middle, cause, by rw [shape]; rfl, ?_, refused⟩
          simp only [writeRecords, ran, taking]
      | error cause next =>
          rw [ran] at failed
          cases failed
          exact ⟨[], record, rest, writer, cause, rfl, rfl, ran⟩

theorem leave_finish_rows (writer : Writer) : (Call.finish.leave writer).rowsWritten = writer.rowsWritten := by
  rw [leave_finish]
  split
  next => rfl
  next => split <;> rfl

theorem leave_jammed (jammed : writer.Jammed) (call : Call) :
    (call.leave writer).Jammed ∧ (call.leave writer).rowsWritten = writer.rowsWritten := by
  cases call with
  | write records =>
      rw [leave_write_jammed jammed]
      exact ⟨jammed, rfl⟩
  | finish =>
      refine ⟨?_, leave_finish_rows writer⟩
      rw [leave_finish, jammed.2]
      split
      next => exact jammed
      next => exact jammed

theorem after_jammed (jammed : writer.Jammed) (calls : List Call) :
    (writer.after calls).rowsWritten = writer.rowsWritten := by
  induction calls generalizing writer with
  | nil => rfl
  | cons call rest ih =>
      obtain ⟨still, rows⟩ := leave_jammed jammed call
      exact (ih still).trans rows

theorem leave_answered_rows {call : Call}
    (answered : ∀ records, call = .write records → ∃ left, writeRecords records writer = .ok () left) :
    (call.leave writer).rowsWritten = writer.rowsWritten + call.offers.length := by
  cases call with
  | write records =>
      obtain ⟨left, ran⟩ := answered records rfl
      rw [Call.leave_ok (.write records) ran]
      exact (writeRecords_ok ran).1.rowsWritten
  | finish => exact leave_finish_rows writer

theorem writeRecords_error_of_taken {taken rest : List Record} {record : Record} {middle left : Writer}
    {fault : StorageFault} (taking : writeRecords taken writer = .ok () middle)
    (refused : writeRecord record middle = .error fault left) :
    writeRecords (taken ++ record :: rest) writer = .error (.format (.storage fault)) left := by
  simp only [writeRecords_append _ _ taking, writeRecords, refused]

theorem FailsBehind.first_or_later {call : Call} {calls : List Call} {before : List Record}
    (fails : writer.FailsBehind (call :: calls) before) :
    (∃ records fault left, call = .write records ∧ writeRecords records writer = .error fault left) ∨
      ∃ before, (call.leave writer).FailsBehind calls before := by
  cases fails with
  | here _ taking refused => exact Or.inl ⟨_, _, _, rfl, writeRecords_error_of_taken taking refused⟩
  | later _ behind => exact Or.inr ⟨_, behind⟩

theorem FailsBehind.rows {calls : List Call} {before : List Record} (fails : writer.FailsBehind calls before) :
    (writer.after calls).rowsWritten = writer.rowsWritten + before.length := by
  induction fails with
  | here calls taking refused =>
      obtain ⟨_, jammed, _, _, part⟩ := writeRecord_error refused
      rw [after, Call.leave_error (.write _) (writeRecords_error_of_taken taking refused), after_jammed jammed,
        part.rowsWritten]
      exact (writeRecords_ok taking).1.rowsWritten
  | later answered _ ih =>
      rw [after, ih, leave_answered_rows answered, List.length_append, Nat.add_assoc]

theorem rows_of_no_failure {calls : List Call} (none : ∀ before, ¬ writer.FailsBehind calls before) :
    (writer.after calls).rowsWritten = writer.rowsWritten + (offered calls).length := by
  induction calls generalizing writer with
  | nil => rfl
  | cons call rest ih =>
      have answered : ∀ records, call = .write records → ∃ left, writeRecords records writer = .ok () left := by
        intro records isWrite
        subst isWrite
        cases ran : writeRecords records writer with
        | ok _ left => exact ⟨left, rfl⟩
        | error fault left =>
            obtain ⟨taken, record, others, middle, cause, rfl, taking, refused⟩ := writeRecords_fails ran
            exact absurd (.here rest taking refused) (none taken)
      have noneLater : ∀ before, ¬ (call.leave writer).FailsBehind rest before :=
        fun before fails => none _ (.later answered fails)
      rw [after, ih noneLater, leave_answered_rows answered, Nat.add_assoc, ← List.length_append]
      rfl

theorem length_le_recordLines (index : Nat) (records : List Record) :
    records.length ≤ (Utf8.encode (recordLines index records)).length := by
  induction records generalizing index with
  | nil => exact Nat.zero_le _
  | cons record rest ih =>
      have line := List.length_pos_iff.2 (encode_recordLine_ne_nil index record)
      have later := ih (index + 1)
      rw [recordLines, encode_append, List.length_append, List.length_cons]
      omega

/-- A sink without room for the header refuses as soon as the buffer is full. -/
theorem fails_of_long {limit : Nat} (small : limit < (Utf8.encode headerLine).length) {records : List Record}
    (long : capacity < records.length) (calls : List Call) :
    ∃ before, (ofSink (Sink.empty (some limit))).FailsBehind (.write records :: calls) before := by
  cases ran : writeRecords records (ofSink (Sink.empty (some limit))) with
  | ok _ left =>
      have stays : left.Stays (Sink.empty (some limit)) := by
        apply (writeRecords_stays _ records).of_ok _ ran
        simpa [Stays, ofSink, Sink.hasRoom, Sink.empty] using small
      have short : (Utf8.encode headerLine).toArray.size ≤ capacity := by decide
      have bounded : left.buffer.size ≤ capacity := (writeRecords_keeps emit_bounded records).of_ok short ran
      have content := congrArg List.length (writeRecords_ok ran).1.content
      have lines := length_le_recordLines (ofSink (Sink.empty (some limit))).rowsWritten records
      rw [List.length_append, Writer.content, stays.1] at content
      simp only [Sink.empty, List.nil_append, Array.length_toList] at content lines
      omega
  | error fault left =>
      obtain ⟨taken, record, rest, middle, cause, rfl, taking, refused⟩ := writeRecords_fails ran
      exact ⟨taken, .here calls taking refused⟩

/-! Histories -/

theorem perform_unlimited (unlimited : writer.sink.limit = none) (call : Call) :
    ∃ left, call.perform writer = .ok () left := by
  cases ran : call.perform writer with
  | ok _ left => exact ⟨left, rfl⟩
  | error fault left =>
      have limit := leave_limit call writer
      rw [call.leave_error ran, unlimited] at limit
      have full := (perform_error ran).2
      simp [Sink.hasRoom, limit] at full

theorem close_ok {sink : Sink} (follows : writer.Follows known) (answered : writer.close = (.ok (), sink)) :
    sink.bytes.toList = tableBytes known ∧ writer.rowsWritten = known.length := by
  rw [close, flush_eq] at answered
  by_cases room : writer.sink.hasRoom writer.buffer.size
  · rw [if_pos room] at answered
    cases answered
    cases follows with
    | all content rows => exact ⟨writer.bytes_flushed.trans content, rows⟩
    | jammed stuck =>
        have refused := stuck.2
        rw [room] at refused
        cases refused
  · rw [if_neg room] at answered
    cases answered

end

/-- At every moment the sink holds first bytes of the table of all records offered up to the first refusal, and from
then on it stays. The records counted are those before the first one whose write fails, or all. A writer that is given
up successfully leaves the table of all records offered, which are those it has counted. Without a limit every call
succeeds. -/
theorem limited_histories (limit : Option Nat) (calls : List Call) :
    let opened := ofSink (Sink.empty limit)
    let writer := opened.after calls
    let text := fun calls => (tableString (offered calls)).toUTF8.data.toList
    (writer.sink.bytes.toList <+: text (opened.heard calls) ∧
        writer.close.2.bytes.toList <+: text (opened.heard calls) ∧ writer.drop = writer.close.2 ∧
        ∀ call now, writer.Moment call now → now.sink.bytes.toList <+: text (opened.heard (calls ++ [call]))) ∧
      (∀ front call back fault left, calls = front ++ call :: back →
        call.perform (opened.after front) = .error fault left →
          writer.sink = left.sink ∧ writer.close = (.error (.storage .sinkFull), left.sink) ∧
            ∀ next now, writer.Moment next now → now.sink = left.sink) ∧
      (∀ before, opened.FailsBehind calls before → writer.rowsWritten = before.length) ∧
      ((∀ before, ¬ opened.FailsBehind calls before) → writer.rowsWritten = (offered calls).length) ∧
      (∀ sink, writer.close = (.ok (), sink) →
        sink.bytes = (tableString (offered calls)).toUTF8.data ∧ writer.rowsWritten = (offered calls).length) ∧
      (limit = none → (∀ call, ∃ left, Call.perform call writer = .ok () left) ∧
        ∃ sink, writer.close = (.ok (), sink)) := by
  intro opened writer text
  have holds : opened.Holds [] := ofSink_holds limit
  have textIs : ∀ calls, text calls = tableBytes (offered calls) := fun calls => (tableBytes_eq _).symm
  have follows := after_follows (ofSink_follows limit) calls
  have fresh : opened.rowsWritten = 0 := rfl
  refine ⟨?_, ?_, ?_, ?_, ?_, ?_⟩
  next =>
    simp only [textIs]
    -- Either every call was answered, or the sink has stayed since the first refusal.
    rcases after_cases holds calls with ⟨all, held⟩ | ⟨sink, stays, cut, within⟩
    next =>
      have whole : opened.heard calls = calls := by simpa [heard] using all []
      rw [whole]
      refine ⟨held.content ▸ writer.sink_prefix, close_holds held, rfl, fun call now moment => ?_⟩
      rw [all, heard_single]
      have offeredToo : offered (calls ++ [call]) = offered calls ++ call.offers := by simp [offered]
      rw [offeredToo]
      exact now.sink_prefix.trans (moment.content_prefix held)
    next =>
      refine ⟨stays.1 ▸ within, ?_, rfl, fun call now moment => ?_⟩
      · rw [close_stays stays]
        exact within
      · rw [cut, (moment.stays stays).1]
        exact within
  next =>
    rintro front call back fault left rfl refused
    have stays : writer.Stays left.sink := by
      have later := after_stays (perform_error refused) back
      rwa [← call.leave_error refused, ← after, ← after_append, call.leave_error refused] at later
    exact ⟨stays.1, close_stays stays, fun next now moment => (moment.stays stays).1⟩
  next =>
    intro before fails
    have counted : writer.rowsWritten = opened.rowsWritten + before.length := fails.rows
    rwa [fresh, Nat.zero_add] at counted
  next =>
    intro none
    have counted : writer.rowsWritten = opened.rowsWritten + (offered calls).length := rows_of_no_failure none
    rwa [fresh, Nat.zero_add] at counted
  next =>
    intro sink answered
    obtain ⟨bytes, rows⟩ := close_ok follows answered
    rw [List.nil_append] at bytes rows
    rw [tableBytes_eq] at bytes
    exact ⟨Array.toList_inj.1 bytes, rows⟩
  next =>
    intro unlimited
    have noLimit : writer.sink.limit = none := (after_limit opened calls).trans unlimited
    exact ⟨perform_unlimited noLimit, _, close_unlimited noLimit⟩

def rowBetween : List Call :=
  [.finish, .write [{ size := 5, seeded := true, rounds := 4 }], .finish]

/-- Behind a refused finish a row is still counted, and it never reaches the sink. -/
theorem rowBetween_history :
    let refused := (ofSink (Sink.empty (some 10))).after rowBetween
    let answered := (ofSink (Sink.empty none)).after rowBetween
    let many := List.replicate 8193 { size := 5, seeded := true, rounds := 4 }
    refused.sink = Sink.empty (some 10) ∧ refused.close = (.error (.storage .sinkFull), Sink.empty (some 10)) ∧
      refused.rowsWritten = 1 ∧ answered.rowsWritten = 1 ∧
      (∃ sink, answered.close = (.ok (), sink) ∧
        sink.bytes = ",n_servers,seeds,rounds\n0,5,True,4\n".toUTF8.data) ∧
      ∃ before, (ofSink (Sink.empty (some 10))).FailsBehind [.write many] before ∧
        ((ofSink (Sink.empty (some 10))).after [.write many]).rowsWritten = before.length := by
  intro refused answered many
  have first : Call.finish.perform (ofSink (Sink.empty (some 10))) =
      .error (.storage .sinkFull) (Call.finish.leave (ofSink (Sink.empty (some 10)))) := rfl
  obtain ⟨_, stops, _, counts, _⟩ := limited_histories (some 10) rowBetween
  obtain ⟨sink, close, _⟩ := stops [] .finish _ _ _ rfl first
  have unfailed : ∀ before, ¬ (ofSink (Sink.empty (some 10))).FailsBehind rowBetween before := by
    intro before fails
    obtain ⟨_, _, _, isWrite, _⟩ | ⟨_, fails⟩ := fails.first_or_later
    · cases isWrite
    obtain ⟨_, _, _, isWrite, failed⟩ | ⟨_, fails⟩ := fails.first_or_later
    · cases isWrite
      cases failed
    obtain ⟨_, _, _, isWrite, _⟩ | ⟨_, fails⟩ := fails.first_or_later
    · cases isWrite
    · cases fails
  obtain ⟨_, _, _, _, closing, unlimited⟩ := limited_histories none rowBetween
  obtain ⟨whole, closed⟩ := (unlimited rfl).2
  obtain ⟨bytes, rows⟩ := closing whole closed
  have text : tableString (offered rowBetween) = ",n_servers,seeds,rounds\n0,5,True,4\n" := by decide +kernel
  obtain ⟨before, fails⟩ := @fails_of_long 10 (by decide) many (by rw [List.length_replicate]; decide) []
  obtain ⟨_, _, stopped, _⟩ := limited_histories (some 10) [.write many]
  have written := bytes.trans (congrArg (fun string => string.toUTF8.data) text)
  exact ⟨sink, close, counts unfailed, rows, ⟨whole, closed, written⟩, before, fails, stopped before fails⟩

end Rumour.Table.Writer
