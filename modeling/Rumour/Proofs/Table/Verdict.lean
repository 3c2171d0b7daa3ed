import Mathlib.Data.List.Infix
import Rumour.Proofs.Table.Grammar

set_option autoImplicit false

/-!
What becomes of a source. Bytes that end are a table, or the first row that offends tells why not, and what
stands behind that row does not matter. Bytes that break are no table; a fault told before the break is
told of whatever begins with them, unless they are the byte order mark alone.
-/

namespace Rumour.Table

open Rumour.Storage Rumour.Text

/-! Rows by their bytes -/

theorem Splitter.feed_rows (bytes : List UInt8) (state : Splitter × Array Row) :
    ∃ more, (feed bytes state).2 = state.2 ++ more := by
  induction bytes generalizing state with
  | nil => exact ⟨#[], by simp [feed]⟩
  | cons byte rest ih =>
      obtain ⟨splitter, rows⟩ := state
      simp only [feed]
      split
      next after row _ =>
        obtain ⟨more, grown⟩ := ih (after, rows.push row)
        exact ⟨#[row] ++ more, by rw [grown, Array.push_eq_append, Array.append_assoc]⟩
      next after _ => exact ih (after, rows)

theorem rowsOf_broken (bytes : List UInt8) :
    rowsOf { bytes, broken := true } = (splitBytes bytes).2.toList := by
  simp only [rowsOf]
  split <;> rfl

theorem rowsOf_whole (bytes : List UInt8) :
    ∃ last, rowsOf (Source.whole bytes) = (splitBytes bytes).2.toList ++ last := by
  simp only [rowsOf, Source.whole]
  split
  next row _ => exact ⟨[row], by simp⟩
  next => exact ⟨[], by simp⟩

theorem noRow_in_mark :
    ∀ part ∈ byteOrderMark.inits, (Splitter.feed part (Splitter.initial 0, #[])).2 = #[] := by
  decide

theorem splitBytes_append (front later : List UInt8) :
    ∃ more, (splitBytes (front ++ later)).2 = (splitBytes front).2 ++ more := by
  simp only [splitBytes]
  by_cases marked : byteOrderMark <+: front
  next =>
    have markedToo : byteOrderMark <+: front ++ later := marked.trans (List.prefix_append front later)
    rw [if_pos (List.isPrefixOf_iff_prefix.2 marked), if_pos (List.isPrefixOf_iff_prefix.2 markedToo),
      List.drop_append_of_le_length marked.length_le, Splitter.feed_append]
    exact Splitter.feed_rows later _
  next =>
    rw [if_neg (mt List.isPrefixOf_iff_prefix.1 marked)]
    by_cases markedToo : byteOrderMark <+: front ++ later
    next =>
      have part : front <+: byteOrderMark :=
        (List.prefix_or_prefix_of_prefix markedToo (List.prefix_append front later)).resolve_left marked
      rw [noRow_in_mark front ((List.mem_inits front byteOrderMark).2 part)]
      exact ⟨_, (Array.empty_append).symm⟩
    next =>
      rw [if_neg (mt List.isPrefixOf_iff_prefix.1 markedToo), Splitter.feed_append]
      exact Splitter.feed_rows later _

/-- The rows that end in some bytes begin the rows of whatever begins with these bytes. -/
theorem rowsOf_append (front later : List UInt8) :
    ∃ more, rowsOf (Source.whole (front ++ later)) = rowsOf { bytes := front, broken := true } ++ more := by
  obtain ⟨last, rows⟩ := rowsOf_whole (front ++ later)
  obtain ⟨more, grown⟩ := splitBytes_append front later
  exact ⟨more.toList ++ last, by rw [rows, grown, rowsOf_broken, Array.toList_append, List.append_assoc]⟩

/-! Faults -/

section

variable {bytes : List UInt8} {before later : List Row} {row : Row} {fault : TableFault}

theorem IsTable.ne_nil {rows : List Row} {records : List Record} (table : IsTable rows records) :
    rows ≠ [] := by
  obtain ⟨head, rest, rfl, _⟩ := table.begins
  exact List.cons_ne_nil head rest

theorem Offends.format_iff (offends : Offends before row fault) :
    (∃ cause, fault = .format cause) ↔
      (¬ ∃ texts, row.Shows texts) ∨ before ≠ [] ∧ row.fields.length ≠ header.length := by
  cases offends with
  | headGarbled garbled =>
      simp only [TableFault.format.injEq, exists_eq', true_iff]
      exact Or.inl fun ⟨texts, shows⟩ => shows.not_garbled garbled
  | @head _ texts shows other =>
      have shown : ∃ texts, row.Shows texts := ⟨texts, shows⟩
      simp [shown]
  | row table atFault =>
      cases atFault with
      | uneven count =>
          simp only [TableFault.format.injEq, exists_eq', true_iff]
          exact Or.inr ⟨table.ne_nil, count⟩
      | notText count garbled =>
          simp only [TableFault.format.injEq, exists_eq', true_iff]
          exact Or.inl fun ⟨texts, shows⟩ => shows.not_garbled garbled
      | @malformed texts cause shows misses =>
          have shown : ∃ texts, row.Shows texts := ⟨texts, shows⟩
          have count : row.fields.length = header.length := shows.length.trans misses.length
          simp [shown, count]

theorem Offends.not_fieldCount (offends : Offends before row fault) (line expected found : Nat) :
    fault ≠ .malformed line (.fieldCount expected found) := by
  rintro rfl
  cases offends with
  | row table atFault =>
      cases atFault with
      | malformed shows misses => cases misses

theorem readTexts_length {width : Nat} {texts : List String} (read : readTexts width row = .ok texts) :
    texts.length = width := by
  by_cases count : row.fields.length = width
  next =>
    rcases row.shows_or_garbled with ⟨shown, shows⟩ | ⟨index, sound, garbled⟩
    · simp only [readTexts, count, decodeFields_shown shows, bne_self_eq_false] at read
      cases read
      exact shows.length.symm.trans count
    · simp only [readTexts, count, decodeFields_garbled garbled, bne_self_eq_false] at read
      cases read
  next => simp [readTexts, count, throw_eq] at read

theorem readTable_whole (bytes : List UInt8) :
    readTable (Source.whole bytes) = readSettled (Source.whole bytes) := by
  rw [readTable, settle_whole]

/-- A row that ends in some bytes and offends decides, whatever stands behind them. -/
theorem readTable_decided (rows : rowsOf { bytes, broken := true } = before ++ row :: later)
    (offends : Offends before row fault) (others : List UInt8) :
    readTable (Source.whole (bytes ++ others)) = .error fault := by
  obtain ⟨more, whole⟩ := rowsOf_append bytes others
  rw [rows, List.append_assoc, List.cons_append] at whole
  rw [readTable_whole, readSettled_offends whole offends]

end

theorem readTable_eq_ok_iff {bytes : List UInt8} {records : List Record} :
    readTable (Source.whole bytes) = .ok records ↔ IsTable (rowsOf (Source.whole bytes)) records := by
  rw [readTable_whole]
  constructor
  · intro accepted
    rcases table_or_offends (rowsOf (Source.whole bytes)) with
      empty | ⟨found, table⟩ | ⟨before, row, later, told, parts, offends⟩
    · cases accepted.symm.trans (readSettled_none empty)
    · cases accepted.symm.trans (readSettled_table table)
      exact table
    · cases accepted.symm.trans (readSettled_offends parts offends)
  · exact readSettled_table

theorem readTable_eq_error_iff {bytes : List UInt8} {fault : TableFault} :
    readTable (Source.whole bytes) = .error fault ↔
      rowsOf (Source.whole bytes) = [] ∧ fault = .malformed 1 (.unexpectedHeader []) ∨
        ∃ before row later, rowsOf (Source.whole bytes) = before ++ row :: later ∧
          Offends before row fault := by
  rw [readTable_whole]
  constructor
  · intro refused
    rcases table_or_offends (rowsOf (Source.whole bytes)) with
      empty | ⟨records, table⟩ | ⟨before, row, later, told, parts, offends⟩
    · exact Or.inl ⟨empty, Except.error.inj (refused.symm.trans (readSettled_none empty))⟩
    · cases refused.symm.trans (readSettled_table table)
    · cases refused.symm.trans (readSettled_offends parts offends)
      exact Or.inr ⟨before, row, later, parts, offends⟩
  · rintro (⟨empty, rfl⟩ | ⟨before, row, later, parts, offends⟩)
    · exact readSettled_none empty
    · exact readSettled_offends parts offends

/-- Reading bytes that end gives the records of the table that their rows are, or the fault of the first row
that offends. That row alone and the rows before it decide; no row gets as far as its fields unless there
are as many as in the header. -/
theorem readTable_grammar (bytes : List UInt8) :
    let rows := rowsOf (Source.whole bytes)
    let read := readTable (Source.whole bytes)
    (∀ records, read = .ok records ↔ IsTable rows records) ∧
      (∀ fault, read = .error fault ↔
        rows = [] ∧ fault = .malformed 1 (.unexpectedHeader []) ∨
          ∃ before row later, rows = before ++ row :: later ∧ Offends before row fault) ∧
      (∀ before row later fault, rows = before ++ row :: later → Offends before row fault →
        ((∃ cause, fault = .format cause) ↔
            (¬ ∃ texts, row.Shows texts) ∨ before ≠ [] ∧ row.fields.length ≠ header.length) ∧
          ∀ count, before.length < (rowsOf (Source.breakingAfter count bytes)).length →
            ∀ others, readTable (Source.whole (bytes.take count ++ others)) = .error fault) ∧
      (∀ line expected found, read ≠ .error (.malformed line (.fieldCount expected found))) ∧
      ∀ head ∈ rows.head?, head.Shows header → ∀ row texts,
        readTexts head.fields.length row = .ok texts → texts.length = header.length := by
  intro rows read
  refine ⟨fun _ => readTable_eq_ok_iff, fun _ => readTable_eq_error_iff, ?_, ?_, ?_⟩
  · intro before row later fault parts offends
    refine ⟨offends.format_iff, fun count within others => ?_⟩
    obtain ⟨more, whole⟩ := rowsOf_append (bytes.take count) (bytes.drop count)
    rw [List.take_append_drop] at whole
    change before.length < (rowsOf { bytes := bytes.take count, broken := true }).length at within
    -- The rows that have ended reach behind the row at fault.
    rcases List.append_eq_append_iff.1 (parts.symm.trans whole) with ⟨between, ended, behind⟩ | ⟨between, reached, _⟩
    · cases between with
      | nil =>
          rw [ended, List.append_nil] at within
          exact absurd within (Nat.lt_irrefl _)
      | cons first rest =>
          cases behind
          exact readTable_decided ended offends others
    · rw [reached, List.length_append] at within
      omega
  · intro line expected found refused
    rcases readTable_eq_error_iff.1 refused with ⟨_, same⟩ | ⟨before, row, later, _, offends⟩
    · cases same
    · exact offends.not_fieldCount line expected found rfl
  · intro head first shows row texts shown
    rw [readTexts_length shown, shows.length]

def faultyTable : List UInt8 :=
  textBytes ",n_servers,seeds,rounds\n0,5,true,3\n+1,07,no,4\n2,5\n"

theorem faultyTable_grammar :
    readTable (Source.whole faultyTable) = .error (.malformed 3 (.badSeeded "no")) ∧
      ∀ others, readTable (Source.whole (faultyTable.take 46 ++ others)) =
        .error (.malformed 3 (.badSeeded "no")) := by
  obtain ⟨_, errors, decides, _, _⟩ := readTable_grammar faultyTable
  let head : Row := { position := .first, fields := header.map textBytes }
  let first : Row := { position := ⟨1, 2, 24⟩, fields := ["0", "5", "true", "3"].map textBytes }
  let second : Row := { position := ⟨2, 3, 35⟩, fields := ["+1", "07", "no", "4"].map textBytes }
  let third : Row := { position := ⟨3, 4, 46⟩, fields := ["2", "5"].map textBytes }
  have parts : rowsOf (Source.whole faultyTable) = ([head] ++ [first]) ++ second :: [third] := by
    decide +kernel
  have spells : first.Spells 0 { size := 5, seeded := true, rounds := 3 } :=
    ⟨_, rfl, .record (Count.read_eq_ok_iff.1 rfl) (Count.read_eq_ok_iff.1 rfl) (by decide)
      (Count.read_eq_ok_iff.1 rfl)⟩
  have offends : Offends ([head] ++ [first]) second (.malformed 3 (.badSeeded "no")) :=
    .row (.row (.header rfl) spells) (.malformed rfl (.badSeeded (Count.read_eq_ok_iff.1 rfl)
      (Count.read_eq_ok_iff.1 rfl) (by decide)))
  obtain ⟨_, decided⟩ := decides _ second [third] _ parts offends
  exact ⟨(errors _).2 (Or.inr ⟨_, _, _, parts, offends⟩), decided 46 (by decide +kernel)⟩

/-! Breaks -/

theorem readTable_mark (broken : Bool) :
    readTable { bytes := byteOrderMark, broken } = .error (.malformed 1 (.unexpectedHeader [])) := by
  cases broken <;> rfl

/-- Of bytes that break, other than the mark, a row that offends is told, and else the break. -/
theorem readTable_breaks {bytes : List UInt8} (notMark : bytes ≠ byteOrderMark) :
    readTable { bytes, broken := true } = .error (.format (.storage .sourceBroke)) ∨
      ∃ before row later fault, rowsOf { bytes, broken := true } = before ++ row :: later ∧
        Offends before row fault ∧ readTable { bytes, broken := true } = .error fault := by
  have settled : settle { bytes, broken := true } = { bytes, broken := true } := if_neg notMark
  rw [readTable, settled]
  rcases table_or_offends (rowsOf { bytes, broken := true }) with
    empty | ⟨records, table⟩ | ⟨before, row, later, fault, parts, offends⟩
  · exact Or.inl (readSettled_none empty)
  · exact Or.inl (readSettled_table table)
  · exact Or.inr ⟨before, row, later, fault, parts, offends, readSettled_offends parts offends⟩

def markedTable : List UInt8 :=
  byteOrderMark ++ tableBytes [{ size := 1, seeded := true, rounds := 2 }]

theorem readTable_markedTable :
    readTable (Source.whole markedTable) = .ok [{ size := 1, seeded := true, rounds := 2 }] := by
  decide +kernel

/-- A source that breaks is no table. What is told of it besides the break is told of all that begins with
its bytes, but if these are the byte order mark alone. -/
theorem readTable_broken (bytes : List UInt8) (count : Nat) :
    let source := Source.breakingAfter count bytes
    (∀ records, readTable source ≠ .ok records) ∧
      ((∀ fault, readTable source = .error fault → fault ≠ .format (.storage .sourceBroke) →
          ∀ later, readTable (Source.whole (source.bytes ++ later)) = .error fault) ↔
        source.bytes ≠ byteOrderMark) := by
  intro source
  by_cases mark : source.bytes = byteOrderMark
  next =>
    have told : readTable source = .error (.malformed 1 (.unexpectedHeader [])) := by
      have same : source = { bytes := byteOrderMark, broken := true } := by rw [← mark]; rfl
      rw [same, readTable_mark]
    refine ⟨fun records accepted => ?_, fun kept => ?_, fun notMark => absurd mark notMark⟩
    · cases told.symm.trans accepted
    · have refused := kept _ told (by simp) (tableBytes [{ size := 1, seeded := true, rounds := 2 }])
      rw [mark, ← markedTable, readTable_markedTable] at refused
      cases refused
  next =>
    rcases readTable_breaks mark with told | ⟨before, row, later, fault, parts, offends, told⟩
    · refine ⟨fun records accepted => ?_, fun _ => mark, fun _ fault refused other => ?_⟩
      · cases told.symm.trans accepted
      · exact absurd (Except.error.inj (refused.symm.trans told)) other
    · refine ⟨fun records accepted => ?_, fun _ => mark, fun _ found refused _ others => ?_⟩
      · cases told.symm.trans accepted
      · rw [Except.error.inj (refused.symm.trans told)]
        exact readTable_decided parts offends others

theorem faultyTable_broken :
    (Source.breakingAfter 46 faultyTable).bytes ≠ byteOrderMark ∧
      readTable (Source.breakingAfter 46 faultyTable) = .error (.malformed 3 (.badSeeded "no")) ∧
      readTable (Source.whole ((Source.breakingAfter 46 faultyTable).bytes ++ [Splitter.quote])) =
        .error (.malformed 3 (.badSeeded "no")) := by
  have notMark : (Source.breakingAfter 46 faultyTable).bytes ≠ byteOrderMark := by decide +kernel
  have told : readTable (Source.breakingAfter 46 faultyTable) = .error (.malformed 3 (.badSeeded "no")) := by
    decide +kernel
  exact ⟨notMark, told, (readTable_broken faultyTable 46).2.2 notMark _ told (by simp) [Splitter.quote]⟩

/-- A source that breaks right behind its mark is told to have no header, though it goes on as a table. -/
theorem markedTable_broken :
    readTable (Source.breakingAfter 3 markedTable) = .error (.malformed 1 (.unexpectedHeader [])) ∧
      (Source.breakingAfter 3 markedTable).bytes <+: markedTable ∧
      readTable (Source.whole markedTable) = .ok [{ size := 1, seeded := true, rounds := 2 }] := by
  have mark : Source.breakingAfter 3 markedTable = { bytes := byteOrderMark, broken := true } := rfl
  rw [mark]
  exact ⟨readTable_mark true, List.prefix_append _ _, readTable_markedTable⟩

end Rumour.Table
