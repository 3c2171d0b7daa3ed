import Rumour.Proofs.Table.Verdict

set_option autoImplicit false

/-!
Tables of which only the first bytes are left. A line end at the end of plain bytes does not matter, so a cut
right before one is a cut right behind it. A cut inside a line leaves fewer fields or a part of the last
one, and a part of its digits is read as a smaller number.
-/

namespace Rumour.Table

open Rumour.Storage Rumour.Text

/-! Line ends at the end -/

namespace Splitter

theorem feed_unquoted {bytes : List UInt8} (other : ∀ byte ∈ bytes, byte ≠ quote)
    {state : Splitter × Array Row} (bare : state.1.phase ≠ .quoted) :
    (feed bytes state).1.phase ≠ .quoted := by
  rw [feed_phase]
  exact List.foldlRecOn (motive := fun phase => phase ≠ .quoted) bytes Phase.behind bare
    fun _ stillBare byte member => Phase.behind_unquoted stillBare (other byte member)

/-- A line feed ends the row that the end of the bytes would end. -/
theorem finish_lineFeed {splitter : Splitter} (bare : splitter.phase ≠ .quoted) :
    (splitter.step lineFeed).2 = splitter.finish? ∧ (splitter.step lineFeed).1.finish? = none := by
  by_cases waiting : splitter.phase = .rowStart
  next =>
    have lineEnd : isLineEnd lineFeed = true := by decide
    obtain ⟨phase, start, here, fields, field⟩ := splitter
    cases waiting
    simp [step, phaseByte, lineEnd, finish?]
  next => simp [step_lineFeed bare waiting, finish?, waiting, before]

end Splitter

theorem noMark_of_head {bytes : List UInt8} (unmarked : bytes.head? ≠ some 0xef) :
    byteOrderMark.isPrefixOf bytes = false := by
  rw [← Bool.not_eq_true, List.isPrefixOf_iff_prefix]
  rintro ⟨rest, rfl⟩
  exact unmarked rfl

theorem splitBytes_unmarked {bytes : List UInt8} (unmarked : bytes.head? ≠ some 0xef) :
    splitBytes bytes = Splitter.feed bytes (Splitter.initial 0, #[]) := by
  rw [splitBytes, noMark_of_head unmarked]
  rfl

theorem rowsOf_lineFeed {bytes : List UInt8} (unmarked : bytes.head? ≠ some 0xef)
    (other : ∀ byte ∈ bytes, byte ≠ Splitter.quote) :
    rowsOf (Source.whole (bytes ++ [Splitter.lineFeed])) = rowsOf (Source.whole bytes) := by
  have unmarkedToo : (bytes ++ [Splitter.lineFeed]).head? ≠ some 0xef := by
    cases bytes with
    | nil => decide
    | cons => exact unmarked
  have bare : (Splitter.feed bytes (Splitter.initial 0, #[])).1.phase ≠ .quoted :=
    Splitter.feed_unquoted other (by simp [Splitter.initial])
  simp only [rowsOf, Source.whole, splitBytes_unmarked unmarked, splitBytes_unmarked unmarkedToo,
    Splitter.feed_append]
  generalize Splitter.feed bytes (Splitter.initial 0, #[]) = state at bare
  obtain ⟨splitter, rows⟩ := state
  obtain ⟨ended, settled⟩ := Splitter.finish_lineFeed bare
  cases stepped : splitter.step Splitter.lineFeed with
  | mk after row =>
      rw [stepped] at ended settled
      simp only at ended settled
      subst ended
      cases finished : splitter.finish? <;> simp [Splitter.feed, stepped, finished, settled]

theorem readTable_congr {bytes others : List UInt8}
    (same : rowsOf (Source.whole bytes) = rowsOf (Source.whole others)) :
    readTable (Source.whole bytes) = readTable (Source.whole others) := by
  have ends : ∀ bytes, checkSource (Source.whole bytes) = pure () := fun _ => rfl
  simp only [readTable_whole, readSettled, same, ends]

theorem readTable_lineFeed {bytes : List UInt8} (unmarked : bytes.head? ≠ some 0xef)
    (other : ∀ byte ∈ bytes, byte ≠ Splitter.quote) :
    readTable (Source.whole (bytes ++ [Splitter.lineFeed])) = readTable (Source.whole bytes) :=
  readTable_congr (rowsOf_lineFeed unmarked other)

/-! Cut lines -/

/-- What is left of a line that is cut before its end: whole fields and a part of the next one. -/
theorem cut_line {fields : List (List UInt8)} (nonempty : fields ≠ []) {part : List UInt8}
    (begins : part <+: lineBytes fields) (cut : part ≠ lineBytes fields) :
    ∃ front field later piece, fields = front ++ field :: later ∧ piece <+: field ∧
      part ++ [Splitter.lineFeed] = lineBytes (front ++ [piece]) := by
  induction fields generalizing part with
  | nil => exact absurd rfl nonempty
  | cons field rest ih =>
      have inFirst : part <+: field → ∃ whole inner later piece, field :: rest = whole ++ inner :: later ∧
          piece <+: inner ∧ part ++ [Splitter.lineFeed] = lineBytes (whole ++ [piece]) :=
        fun within => ⟨[], field, rest, part, rfl, within, (lineBytes_single part).symm⟩
      cases rest with
      | nil =>
          rw [lineBytes_single] at begins cut
          exact inFirst ((List.prefix_concat_iff.1 begins).resolve_left cut)
      | cons second rest =>
          rw [lineBytes_cons] at begins cut
          rcases List.prefix_or_prefix_of_prefix begins (List.prefix_append field _) with within | ⟨behind, rfl⟩
          · exact inFirst within
          · rw [List.prefix_append_right_inj] at begins
            cases behind with
            | nil => exact inFirst (by simp)
            | cons byte part =>
                obtain ⟨rfl, left⟩ := List.cons_prefix_cons.1 begins
                obtain ⟨whole, inner, later, piece, parts, within, line⟩ :=
                  ih (by simp) left (fun same => cut (by rw [same]))
                refine ⟨field :: whole, inner, later, piece, by rw [parts, List.cons_append], within, ?_⟩
                rw [List.append_assoc, List.cons_append, line]
                cases whole <;> simp [lineBytes_cons]

theorem PlainLine.cut {fields : List (List UInt8)} (line : PlainLine fields) {part : List UInt8} (begun : part ≠ [])
    (begins : part <+: lineBytes fields) (cut : part ≠ lineBytes fields) :
    ∃ front field later piece, fields = front ++ field :: later ∧ PlainLine (front ++ [piece]) ∧
      part ++ [Splitter.lineFeed] = lineBytes (front ++ [piece]) := by
  obtain ⟨front, field, later, piece, parts, within, ended⟩ := cut_line line.shown.1 begins cut
  refine ⟨front, field, later, piece, parts, ⟨fun other member => ?_, by simp, fun blank => ?_⟩, ended⟩
  · rcases List.mem_append.1 member with inFront | last
    · exact line.plain other (by simp [parts, inFront])
    · rw [List.mem_singleton.1 last]
      exact fun byte inside => line.plain field (by simp [parts]) byte (within.subset inside)
  · rw [blank] at ended
    exact begun (List.append_cancel_right ended)

/-! Bytes of tables -/

theorem lineBytes_unquoted {fields : List (List UInt8)} (plain : ∀ field ∈ fields, AllPlain field) :
    ∀ byte ∈ lineBytes fields, byte ≠ Splitter.quote := by
  have ownComma : Splitter.comma ≠ Splitter.quote := by decide
  have ownEnd : Splitter.lineFeed ≠ Splitter.quote := by decide
  induction fields with
  | nil => exact List.forall_mem_singleton.2 ownEnd
  | cons field rest ih =>
      obtain ⟨first, others⟩ := List.forall_mem_cons.1 plain
      have later := ih others
      intro byte member
      cases rest with
      | nil =>
          rw [lineBytes_single, List.mem_append, List.mem_singleton] at member
          rcases member with inside | rfl
          · exact (first byte inside).2.1
          · exact ownEnd
      | cons second rest =>
          rw [lineBytes_cons, List.mem_append, List.mem_cons] at member
          rcases member with inside | rfl | behind
          · exact (first byte inside).2.1
          · exact ownComma
          · exact later byte behind

theorem tableBytes_unquoted (records : List Record) :
    ∀ byte ∈ tableBytes records, byte ≠ Splitter.quote := by
  rw [tableBytes_lines]
  intro byte member
  obtain ⟨fields, line, inside⟩ := List.mem_flatMap.1 member
  rcases List.mem_cons.1 line with rfl | row
  · exact lineBytes_unquoted headerFields_plain.plain byte inside
  · exact lineBytes_unquoted (recordsFields_plain 0 records fields row).plain byte inside

theorem tableBytes_head (records : List Record) : ∃ rest, tableBytes records = Splitter.comma :: rest := by
  have head : lineBytes headerFields = Splitter.comma :: (lineBytes headerFields).tail := by decide
  rw [tableBytes_lines, List.flatMap_cons, head]
  exact ⟨_, rfl⟩

theorem part_unmarked {records : List Record} {part : List UInt8} (begins : part <+: tableBytes records) :
    part.head? ≠ some 0xef := by
  obtain ⟨rest, head⟩ := tableBytes_head records
  rw [head, List.prefix_cons_iff] at begins
  rcases begins with rfl | ⟨others, rfl, _⟩
  · decide
  · simp [Splitter.comma]

/-- A table cut right before a line end is read as if it were cut right behind it. -/
theorem readTable_part {records : List Record} {part : List UInt8} (begins : part <+: tableBytes records) :
    readTable (Source.whole (part ++ [Splitter.lineFeed])) = readTable (Source.whole part) :=
  readTable_lineFeed (part_unmarked begins) fun byte member =>
    tableBytes_unquoted records byte (begins.subset member)

theorem rowsFrom_append (position : Position) (lines : List (List (List UInt8))) (last : List (List UInt8)) :
    rowsFrom position (lines ++ [last]) =
      rowsFrom position lines ++ [{ position := lines.foldl Position.behind position, fields := last }] := by
  induction lines generalizing position with
  | nil => rfl
  | cons fields rest ih => simp [rowsFrom, ih]

theorem rowsOf_cut (records : List Record) {shown : List (List UInt8)} (line : PlainLine shown) :
    ∃ position, rowsOf (Source.whole (tableBytes records ++ lineBytes shown)) =
      rowsOf (Source.whole (tableBytes records)) ++ [{ position, fields := shown }] := by
  have lines : tableBytes records ++ lineBytes shown =
      ((headerFields :: recordsFields 0 records) ++ [shown]).flatMap lineBytes := by
    rw [List.flatMap_append, ← tableBytes_lines]
    simp
  have noMark : byteOrderMark.isPrefixOf (tableBytes records ++ lineBytes shown) = false := by
    obtain ⟨rest, head⟩ := tableBytes_head records
    exact noMark_of_head (by simp [head, Splitter.comma])
  rw [lines] at noMark ⊢
  rw [rowsOf_lines _ noMark, rowsFrom_append, rowsOf_tableBytes]
  · exact ⟨_, rfl⟩
  · intro fields member
    rcases List.mem_append.1 member with written | last
    · rcases List.mem_cons.1 written with rfl | row
      · exact headerFields_plain
      · exact recordsFields_plain 0 records fields row
    · rw [List.mem_singleton.1 last]
      exact line

/-! Cut records -/

/-- A row up to its rounds. -/
def leadString (index : Nat) (record : Record) : String :=
  let seeded := if record.seeded then "True" else "False"
  s!"{index},{record.size},{seeded},"

/-- Some first digits of a count, but not all of them. -/
structure CutDigits (shown whole : Nat) : Prop where
  nonempty : Nat.toDigits 10 shown ≠ []
  begins : Nat.toDigits 10 shown <+: Nat.toDigits 10 whole
  proper : Nat.toDigits 10 shown ≠ Nat.toDigits 10 whole

theorem leadString_bytes (index : Nat) (record : Record) :
    textBytes (leadString index record) = Utf8.encode (Count.write index) ++ Splitter.comma ::
      (Utf8.encode (Count.write record.size) ++ Splitter.comma ::
        (Utf8.encode (truthText record.seeded) ++ [Splitter.comma])) := by
  have seeded : (if record.seeded then "True" else "False").toList = truthText record.seeded := by
    cases record.seeded <;> rfl
  have same : ∀ text : String, toString text = text := fun _ => rfl
  have comma : Utf8.encode [','] = [Splitter.comma] := by decide
  have text : (leadString index record).toList = Count.write index ++ ([','] ++
      (Count.write record.size ++ ([','] ++ (truthText record.seeded ++ [','])))) := by
    simp [leadString, same, seeded, Count.write]
  rw [textBytes_eq, text]
  simp only [encode_append, comma]
  rfl

theorem write_part {count : Nat} {piece : List UInt8} (nonempty : piece ≠ [])
    (begins : piece <+: Utf8.encode (Count.write count)) :
    ∃ shown ≤ count, piece = Utf8.encode (Count.write shown) ∧ Count.write shown <+: Count.write count := by
  have ascii : ∀ character ∈ Count.write count, character.toNat < 0x80 := by
    intro character written
    have digit : 48 ≤ character.toNat ∧ character.toNat ≤ 57 :=
      Char.isDigit_iff_toNat.1 (Count.isDigit_of_mem_write count character written)
    omega
  have digits : piece = Utf8.encode ((Count.write count).take piece.length) := by
    rw [Utf8.encode_take ascii]
    exact List.prefix_iff_eq_take.1 begins
  have front := List.take_prefix piece.length (Count.write count)
  obtain ⟨shown, small, same⟩ := Count.write_of_prefix (fun none => nonempty (by rw [digits, none]; rfl)) front
  exact ⟨shown, small, by rw [digits, same], same ▸ front⟩

section

variable {taken : List Record} {record : Record}

theorem Fit.before (fit : Fit (taken ++ [record])) : Fit taken := by
  have short := fit.2
  rw [List.length_append] at short
  exact ⟨fun other member => fit.1 other (List.mem_append_left [record] member), by omega⟩

theorem Fit.last (fit : Fit (taken ++ [record])) : record.Fits ∧ taken.length < Count.limit := by
  have short := fit.2
  rw [List.length_append, List.length_singleton] at short
  exact ⟨fit.1 record (by simp), by omega⟩

theorem tableBytes_snoc (taken : List Record) (record : Record) :
    tableBytes (taken ++ [record]) = tableBytes taken ++ Utf8.encode (recordLine taken.length record) := by
  simp [tableBytes_append, recordLines]

theorem encode_recordLine (index : Nat) (record : Record) :
    Utf8.encode (recordLine index record) =
      textBytes (leadString index record) ++ (Utf8.encode (Count.write record.rounds) ++ [Splitter.lineFeed]) := by
  simp [recordLine, encode_lineOf, recordFields, lineBytes_cons, lineBytes_single, leadString_bytes]

/-- The fields of a record with some bytes for its rounds. -/
def fieldsBefore (index : Nat) (record : Record) (piece : List UInt8) : List (List UInt8) :=
  [Utf8.encode (Count.write index), Utf8.encode (Count.write record.size),
    Utf8.encode (truthText record.seeded), piece]

theorem lineBytes_fieldsBefore (index : Nat) (record : Record) (piece : List UInt8) :
    lineBytes (fieldsBefore index record piece) =
      textBytes (leadString index record) ++ (piece ++ [Splitter.lineFeed]) := by
  simp [fieldsBefore, lineBytes_cons, lineBytes_single, leadString_bytes]

theorem fieldsBefore_plain (index : Nat) (record : Record) {piece : List UInt8} (plain : AllPlain piece) :
    PlainLine (fieldsBefore index record piece) :=
  { plain := by simp [fieldsBefore, plain_count, plain_truth, plain]
    shown := by simp [fieldsBefore] }

theorem read_shown (fit : Fit taken) {shown : List (List UInt8)} (line : PlainLine shown) :
    ∃ position,
      (∀ fault, Row.AtFault { position, fields := shown } taken.length fault →
        readTable (Source.whole (tableBytes taken ++ lineBytes shown)) = .error fault) ∧
      ∀ record, Row.Spells { position, fields := shown } taken.length record →
        readTable (Source.whole (tableBytes taken ++ lineBytes shown)) = .ok (taken ++ [record]) := by
  have table : IsTable (rowsOf (Source.whole (tableBytes taken))) taken :=
    readTable_eq_ok_iff.1 (readTable_tableBytes fit)
  obtain ⟨position, rows⟩ := rowsOf_cut taken line
  refine ⟨position, fun fault atFault => ?_, fun record spells => ?_⟩
  · exact readTable_eq_error_iff.2 (Or.inr ⟨_, _, [], rows, .row table atFault⟩)
  · rw [readTable_eq_ok_iff, rows]
    exact .row table spells

/-- The first three fields of a record are in order, whatever stands behind them. -/
theorem read_fieldsBefore (fit : Fit (taken ++ [record])) {text : List Char} (plain : AllPlain (Utf8.encode text)) :
    let read := readTable (Source.whole
      (tableBytes taken ++ lineBytes (fieldsBefore taken.length record (Utf8.encode text))))
    (∀ rounds, Count.Spells text rounds → read = .ok (taken ++ [{ record with rounds }])) ∧
      ((∀ rounds, ¬ Count.Spells text rounds) → ∃ fault, read = .error fault) := by
  intro read
  obtain ⟨fits, due⟩ := fit.last
  obtain ⟨position, faults, records⟩ := read_shown fit.before (fieldsBefore_plain taken.length record plain)
  have shows : Row.Shows { position, fields := fieldsBefore taken.length record (Utf8.encode text) }
      [String.ofList (Count.write taken.length), String.ofList (Count.write record.size),
        String.ofList (truthText record.seeded), String.ofList text] := by
    simp [Row.Shows, fieldsBefore, textBytes_eq]
  have spellsIndex := Count.spells_write due
  have spellsSize := Count.spells_write fits.1
  have spellsSeeded : String.ofList (truthText record.seeded) ∈ truthTexts record.seeded := by
    cases record.seeded <;> decide
  rw [← String.toList_ofList (l := Count.write taken.length)] at spellsIndex
  rw [← String.toList_ofList (l := Count.write record.size)] at spellsSize
  constructor
  · intro rounds spells
    rw [← String.toList_ofList (l := text)] at spells
    exact records _ ⟨_, shows, .record spellsIndex spellsSize spellsSeeded spells⟩
  · intro bad
    rw [← String.toList_ofList (l := text)] at bad
    exact ⟨_, faults _ (.malformed shows (.badRounds spellsIndex spellsSize spellsSeeded bad))⟩

section

variable {part : List UInt8}

theorem readTable_cut (begins : part <+: Utf8.encode (recordLine taken.length record)) {shown : List (List UInt8)}
    (ended : part ++ [Splitter.lineFeed] = lineBytes shown) :
    readTable (Source.whole (tableBytes taken ++ part)) =
      readTable (Source.whole (tableBytes taken ++ lineBytes shown)) := by
  have within : tableBytes taken ++ part <+: tableBytes (taken ++ [record]) := by
    rw [tableBytes_snoc, List.prefix_append_right_inj]
    exact begins
  rw [← ended, ← List.append_assoc, readTable_part within]

/-- A row that is cut before its rounds lacks fields, or has none but the rounds to lack. -/
theorem cut_lead (begun : part ≠ []) (begins : part <+: textBytes (leadString taken.length record)) :
    ∃ shown, PlainLine shown ∧ part ++ [Splitter.lineFeed] = lineBytes shown ∧
      (shown.length ≠ header.length ∨ shown = fieldsBefore taken.length record []) := by
  have line := fieldsBefore_plain taken.length record (plain_count record.rounds)
  have short := begins.length_le
  have whole : part <+: lineBytes (fieldsBefore taken.length record (Utf8.encode (Count.write record.rounds))) := by
    rw [lineBytes_fieldsBefore]
    exact begins.trans (List.prefix_append _ _)
  have cut : part ≠ lineBytes (fieldsBefore taken.length record (Utf8.encode (Count.write record.rounds))) := by
    intro same
    rw [same, lineBytes_fieldsBefore] at short
    simp only [List.length_append, List.length_singleton] at short
    omega
  obtain ⟨front, field, later, piece, parts, shown, ended⟩ := line.cut begun whole cut
  refine ⟨front ++ [piece], shown, ended, ?_⟩
  cases later with
  | nil =>
      right
      obtain ⟨same, _⟩ := List.append_inj' (show
        (fieldsBefore taken.length record []).take 3 ++ [_] = front ++ [field] from parts) rfl
      rw [← same] at ended ⊢
      have length := congrArg List.length (ended.trans (lineBytes_fieldsBefore taken.length record piece))
      simp only [List.length_append, List.length_singleton] at length
      rw [List.eq_nil_of_length_eq_zero (show piece.length = 0 by omega)]
      rfl
  | cons next later =>
      left
      have count := congrArg List.length parts
      simp only [fieldsBefore, List.length_append, List.length_cons, List.length_nil] at count
      simp [header]
      omega

theorem cut_before_rounds (fit : Fit (taken ++ [record])) (begun : part ≠ [])
    (begins : part <+: textBytes (leadString taken.length record)) :
    ∃ fault, readTable (Source.whole (tableBytes taken ++ part)) = .error fault := by
  have within : part <+: Utf8.encode (recordLine taken.length record) := by
    rw [encode_recordLine]
    exact begins.trans (List.prefix_append _ _)
  obtain ⟨shown, line, ended, lacks⟩ := cut_lead begun begins
  rw [readTable_cut within ended]
  rcases lacks with uneven | rfl
  · obtain ⟨position, faults, _⟩ := read_shown fit.before line
    exact ⟨_, faults _ (.uneven uneven)⟩
  · have blank : AllPlain (Utf8.encode []) := fun byte inside => absurd inside List.not_mem_nil
    exact (read_fieldsBefore fit blank).2 fun rounds => Count.not_spells_nil

theorem cut_in_rounds (fit : Fit (taken ++ [record])) {piece : List UInt8} (begun : piece ≠ [])
    (begins : piece <+: Utf8.encode (Count.write record.rounds)) :
    ∃ rounds, piece = Utf8.encode (Count.write rounds) ∧ Count.write rounds <+: Count.write record.rounds ∧
      readTable (Source.whole (tableBytes taken ++ (textBytes (leadString taken.length record) ++ piece))) =
        .ok (taken ++ [{ record with rounds }]) := by
  obtain ⟨rounds, small, rfl, shorter⟩ := write_part begun begins
  have within : textBytes (leadString taken.length record) ++ Utf8.encode (Count.write rounds) <+:
      Utf8.encode (recordLine taken.length record) := by
    rw [encode_recordLine, List.prefix_append_right_inj]
    exact begins.trans (List.prefix_append _ _)
  have ended := lineBytes_fieldsBefore taken.length record (Utf8.encode (Count.write rounds))
  rw [← List.append_assoc] at ended
  have fits : rounds < Count.limit := Nat.lt_of_le_of_lt small fit.last.1.2
  refine ⟨rounds, rfl, shorter, ?_⟩
  rw [readTable_cut within ended.symm]
  exact (read_fieldsBefore fit (plain_count rounds)).1 rounds (Count.spells_write fits)

end

end

theorem cut_header {part : List UInt8} (begins : part <+: lineBytes headerFields)
    (short : part.length + 1 < (lineBytes headerFields).length) :
    ∃ fault, readTable (Source.whole part) = .error fault := by
  by_cases begun : part = []
  next =>
    subst begun
    exact ⟨_, readTable_eq_error_iff.2 (Or.inl ⟨rfl, rfl⟩)⟩
  next =>
    have cut : part ≠ lineBytes headerFields := by
      rintro rfl
      omega
    obtain ⟨front, field, later, piece, _, line, ended⟩ := headerFields_plain.cut begun begins cut
    have table : part <+: tableBytes [] := by
      rw [tableBytes_lines]
      simpa [recordsFields] using begins
    have noMark : byteOrderMark.isPrefixOf ([front ++ [piece]].flatMap lineBytes) = false := by
      obtain ⟨byte, rest, rfl⟩ := List.exists_cons_of_ne_nil begun
      have unmarked : (byte :: rest).head? ≠ some 0xef := part_unmarked table
      rw [List.flatMap_singleton, ← ended]
      exact noMark_of_head unmarked
    have lines : ∀ fields ∈ [front ++ [piece]], PlainLine fields := by simpa using line
    have rows := rowsOf_lines lines noMark
    rw [List.flatMap_singleton] at rows
    rw [← readTable_part table, ended]
    rcases Row.shows_or_garbled { position := .first, fields := front ++ [piece] } with
      ⟨texts, shows⟩ | ⟨index, sound, garbled⟩
    · have other : texts ≠ header := by
        rintro rfl
        have same : front ++ [piece] = headerFields := shows.trans (by decide)
        have length := congrArg List.length ended
        rw [same, List.length_append, List.length_singleton] at length
        omega
      exact ⟨_, readTable_eq_error_iff.2 (Or.inr ⟨[], _, [], rows, .head shows other⟩)⟩
    · exact ⟨_, readTable_eq_error_iff.2 (Or.inr ⟨[], _, [], rows, .headGarbled garbled⟩)⟩

/-! Cut tables -/

/-- A cut of a table stands inside the header, at the end of a line, or inside a row. -/
theorem cut_cases (records : List Record) {count : Nat} (within : count ≤ (tableBytes records).length) :
    count + 1 < (tableBytes []).length ∨
      (∃ j ≤ records.length, count + 1 = (tableBytes (records.take j)).length ∨
        count = (tableBytes (records.take j)).length) ∨
      ∃ j < records.length, (tableBytes (records.take j)).length < count ∧
        count + 1 < (tableBytes (records.take (j + 1))).length := by
  have upTo : ∀ j ≤ records.length, count ≤ (tableBytes (records.take j)).length →
      count + 1 < (tableBytes []).length ∨
        (∃ j ≤ records.length, count + 1 = (tableBytes (records.take j)).length ∨
          count = (tableBytes (records.take j)).length) ∨
        ∃ j < records.length, (tableBytes (records.take j)).length < count ∧
          count + 1 < (tableBytes (records.take (j + 1))).length := by
    intro j
    induction j with
    | zero =>
        intro _ inside
        rw [List.take_zero] at inside
        by_cases early : count + 1 < (tableBytes []).length
        · exact Or.inl early
        · exact Or.inr (Or.inl ⟨0, Nat.zero_le _, by rw [List.take_zero]; omega⟩)
    | succ j ih =>
        intro bound inside
        by_cases earlier : count ≤ (tableBytes (records.take j)).length
        · exact ih (by omega) earlier
        · by_cases inRow : count + 1 < (tableBytes (records.take (j + 1))).length
          · exact Or.inr (Or.inr ⟨j, by omega, by omega, inRow⟩)
          · exact Or.inr (Or.inl ⟨j + 1, bound, by omega⟩)
  exact upTo records.length (Nat.le_refl _) (by rwa [List.take_length])

theorem tableBytes_end (records : List Record) : ∃ front, tableBytes records = front ++ [Splitter.lineFeed] := by
  rcases List.eq_nil_or_concat records with rfl | ⟨taken, record, rfl⟩
  · exact ⟨(tableBytes []).dropLast, by decide⟩
  · rw [List.concat_eq_append, tableBytes_snoc, encode_recordLine, ← List.append_assoc, ← List.append_assoc]
    exact ⟨_, rfl⟩

section

variable {records : List Record} {count j : Nat}

theorem take_tableBytes (records : List Record) (j : Nat) :
    tableBytes (records.take j) <+: tableBytes records := by
  have parts := tableBytes_append (records.take j) (records.drop j)
  rw [List.take_append_drop] at parts
  exact ⟨_, parts.symm⟩

theorem tableBytes_take_succ (inside : j < records.length) :
    tableBytes (records.take (j + 1)) =
      tableBytes (records.take j) ++ Utf8.encode (recordLine j records[j]) := by
  rw [List.take_succ_eq_append_getElem inside, tableBytes_snoc, List.length_take_of_le (Nat.le_of_lt inside)]

theorem Fit.take (fit : Fit records) (j : Nat) : Fit (records.take j) :=
  ⟨fun record member => fit.1 record (List.mem_of_mem_take member),
    Nat.le_trans (List.length_take_le' j records) fit.2⟩

theorem take_of_le (upTo : count ≤ (tableBytes (records.take j)).length) :
    (tableBytes records).take count = (tableBytes (records.take j)).take count := by
  obtain ⟨rest, parts⟩ := take_tableBytes records j
  rw [← parts, List.take_append_of_le_length upTo]

theorem read_at_end (fit : Fit records)
    (lineEnd : count + 1 = (tableBytes (records.take j)).length ∨ count = (tableBytes (records.take j)).length) :
    readTable (Source.whole ((tableBytes records).take count)) = .ok (records.take j) := by
  rw [take_of_le (by omega : count ≤ (tableBytes (records.take j)).length)]
  rcases lineEnd with before | behind
  · obtain ⟨front, line⟩ := tableBytes_end (records.take j)
    have all : (tableBytes (records.take j)).take count = front := by
      rw [line] at before ⊢
      rw [List.length_append, List.length_singleton] at before
      rw [List.take_left' (by omega)]
    have begins : front <+: tableBytes (records.take j) := ⟨_, line.symm⟩
    rw [all, ← readTable_part begins, ← line]
    exact readTable_tableBytes (fit.take j)
  · rw [behind, List.take_length]
    exact readTable_tableBytes (fit.take j)

theorem read_in_header (inHeader : count + 1 < (tableBytes []).length) :
    ∃ fault, readTable (Source.whole ((tableBytes records).take count)) = .error fault := by
  have header : tableBytes [] = lineBytes headerFields := by simp [tableBytes_lines, recordsFields]
  rw [← List.take_zero (l := records)] at inHeader
  rw [take_of_le (by omega : count ≤ (tableBytes (records.take 0)).length), List.take_zero, header]
  rw [List.take_zero, header] at inHeader
  exact cut_header (List.take_prefix _ _) (by rw [List.length_take]; omega)

theorem cut_of_row (inside : j < records.length) (behind : (tableBytes (records.take j)).length < count)
    (before : count < (tableBytes (records.take (j + 1))).length) :
    ∃ part, (tableBytes records).take count = tableBytes (records.take j) ++ part ∧
      part <+: Utf8.encode (recordLine j records[j]) ∧
      count = (tableBytes (records.take j)).length + part.length := by
  refine ⟨(Utf8.encode (recordLine j records[j])).take (count - (tableBytes (records.take j)).length), ?_,
    List.take_prefix _ _, ?_⟩
  · rw [take_of_le (Nat.le_of_lt before), tableBytes_take_succ inside, List.take_append,
      List.take_of_length_le (Nat.le_of_lt behind)]
  · rw [tableBytes_take_succ inside, List.length_append] at before
    rw [List.length_take]
    omega

theorem take_snoc (inside : j < records.length) : records.take (j + 1) = records.take j ++ [records[j]] :=
  List.take_succ_eq_append_getElem inside

theorem length_row (inside : j < records.length) :
    (tableBytes (records.take (j + 1))).length = (tableBytes (records.take j)).length +
      ((textBytes (leadString j records[j])).length +
        ((Utf8.encode (Count.write records[j].rounds)).length + 1)) := by
  rw [tableBytes_take_succ inside, encode_recordLine]
  simp only [List.length_append, List.length_singleton]

theorem read_in_lead (fit : Fit records) (inside : j < records.length)
    (behind : (tableBytes (records.take j)).length < count)
    (before : count ≤ (tableBytes (records.take j)).length + (textBytes (leadString j records[j])).length) :
    ∃ fault, readTable (Source.whole ((tableBytes records).take count)) = .error fault := by
  have taken : (records.take j).length = j := List.length_take_of_le (Nat.le_of_lt inside)
  have size := length_row inside
  obtain ⟨part, cut, begins, length⟩ := cut_of_row inside behind (by omega)
  have fits : Fit (records.take j ++ [records[j]]) := take_snoc inside ▸ fit.take (j + 1)
  have inLead : part <+: textBytes (leadString j records[j]) := by
    rw [encode_recordLine] at begins
    exact List.prefix_of_prefix_length_le begins (List.prefix_append _ _) (by omega)
  rw [cut]
  exact cut_before_rounds fits (by rintro rfl; simp at length; omega) (by rwa [taken])

theorem read_in_rounds (fit : Fit records) (inside : j < records.length) {record : Record}
    (row : records[j] = record)
    (behind : (tableBytes (records.take j)).length + (textBytes (leadString j record)).length < count)
    (before : count + 1 < (tableBytes (records.take (j + 1))).length) :
    ∃ rounds, CutDigits rounds record.rounds ∧
      readTable (Source.whole ((tableBytes records).take count)) =
        .ok (records.take j ++ [{ record with rounds }]) := by
  have taken : (records.take j).length = j := List.length_take_of_le (Nat.le_of_lt inside)
  have size := length_row inside
  obtain ⟨part, cut, begins, length⟩ := cut_of_row inside (by omega) (by omega : count < _)
  have fits : Fit (records.take j ++ [record]) := row ▸ take_snoc inside ▸ fit.take (j + 1)
  rw [row] at size
  rw [row, encode_recordLine] at begins
  obtain ⟨piece, rfl⟩ := List.prefix_of_prefix_length_le (List.prefix_append _ _) begins (by omega)
  rw [List.prefix_append_right_inj] at begins
  rw [List.length_append] at length
  have inRounds : piece <+: Utf8.encode (Count.write record.rounds) :=
    List.prefix_of_prefix_length_le begins (List.prefix_append _ _) (by omega)
  have begun : piece ≠ [] := by
    rintro rfl
    simp at length
    omega
  obtain ⟨rounds, rfl, shorter, read⟩ := cut_in_rounds fits begun inRounds
  rw [taken] at read
  refine ⟨rounds, ⟨Count.write_ne_nil rounds, shorter, fun same => ?_⟩, by rw [cut, read]⟩
  have all : (Utf8.encode (Count.write rounds)).length = (Utf8.encode (Count.write record.rounds)).length :=
    congrArg (fun digits => (Utf8.encode digits).length) same
  omega

theorem shortened_ne_take (inside : j < records.length) {rounds : Nat} (cut : CutDigits rounds records[j].rounds)
    (i : Nat) : records.take j ++ [{ records[j] with rounds }] ≠ records.take i := by
  intro same
  have begins : records.take j ++ [{ records[j] with rounds }] <+: records := same ▸ List.take_prefix i records
  have whole := List.prefix_iff_eq_take.1 begins
  rw [List.length_append, List.length_singleton, List.length_take_of_le (Nat.le_of_lt inside),
    take_snoc inside] at whole
  have last : { records[j] with rounds } = records[j] := List.singleton_inj.1 (List.append_cancel_left whole)
  exact cut.proper (by rw [← last])

theorem cut_outcome (fit : Fit records) (within : count ≤ (tableBytes records).length) :
    let read := readTable (Source.whole ((tableBytes records).take count))
    let size := fun j => (tableBytes (records.take j)).length
    (∃ fault, read = .error fault) ∨
      (∃ j ≤ records.length, (count + 1 = size j ∨ count = size j) ∧ read = .ok (records.take j)) ∨
      ∃ (j : Nat) (inside : j < records.length) (rounds : Nat),
        (size j + (textBytes (leadString j records[j])).length < count ∧ count + 1 < size (j + 1)) ∧
          CutDigits rounds records[j].rounds ∧ read = .ok (records.take j ++ [{ records[j] with rounds }]) := by
  intro read size
  rcases cut_cases records within with early | ⟨j, bound, lineEnd⟩ | ⟨j, inside, behind, before⟩
  · exact Or.inl (read_in_header early)
  · exact Or.inr (Or.inl ⟨j, bound, lineEnd, read_at_end fit lineEnd⟩)
  · by_cases lead : count ≤ size j + (textBytes (leadString j records[j])).length
    · exact Or.inl (read_in_lead fit inside behind lead)
    · obtain ⟨rounds, cut, told⟩ := read_in_rounds fit inside rfl (Nat.lt_of_not_le lead) before
      exact Or.inr (Or.inr ⟨j, inside, rounds, ⟨Nat.lt_of_not_le lead, before⟩, cut, told⟩)

theorem take_inj {i : Nat} (bound : i ≤ records.length) (boundToo : j ≤ records.length)
    (same : records.take i = records.take j) : i = j := by
  have length := congrArg List.length same
  rwa [List.length_take_of_le bound, List.length_take_of_le boundToo] at length

end

theorem textBytes_tableString (records : List Record) : textBytes (tableString records) = tableBytes records :=
  (tableBytes_eq records).symm

/-- What the first bytes of a table are read to. A cut at the end of a line leaves the records before it. A
cut in the header or before the rounds of a row is refused. A cut inside the digits of the rounds is not: it
leaves a last row of the digits that are left. -/
theorem truncated_table {records : List Record} (fit : Fit records) {count : Nat}
    (within : count ≤ (textBytes (tableString records)).length) :
    let read := readTable (Source.whole ((textBytes (tableString records)).take count))
    let size := fun j => (textBytes (tableString (records.take j))).length
    ((∃ fault, read = .error fault) ∨ (∃ j ≤ records.length, read = .ok (records.take j)) ∨
        ∃ (j : Nat) (inside : j < records.length) (rounds : Nat), CutDigits rounds records[j].rounds ∧
          read = .ok (records.take j ++ [{ records[j] with rounds }])) ∧
      (∀ j ≤ records.length, read = .ok (records.take j) ↔ count + 1 = size j ∨ count = size j) ∧
      (count + 1 < size 0 → ∃ fault, read = .error fault) ∧
      ∀ (j : Nat) (inside : j < records.length),
        (size j < count → count ≤ size j + (textBytes (leadString j records[j])).length →
          ∃ fault, read = .error fault) ∧
        ((∃ rounds, CutDigits rounds records[j].rounds ∧
            read = .ok (records.take j ++ [{ records[j] with rounds }])) ↔
          size j + (textBytes (leadString j records[j])).length < count ∧ count + 1 < size (j + 1)) := by
  simp only [textBytes_tableString] at within ⊢
  have outcome := cut_outcome fit within
  refine ⟨?_, fun j bound => ⟨fun told => ?_, read_at_end fit⟩, ?_, fun j inside => ⟨read_in_lead fit inside, ?_⟩⟩
  · rcases outcome with refused | ⟨j, bound, _, told⟩ | ⟨j, inside, rounds, _, cut, told⟩
    · exact Or.inl refused
    · exact Or.inr (Or.inl ⟨j, bound, told⟩)
    · exact Or.inr (Or.inr ⟨j, inside, rounds, cut, told⟩)
  · rcases outcome with ⟨fault, refused⟩ | ⟨i, boundToo, lineEnd, toldToo⟩ | ⟨i, inside, rounds, _, cut, toldToo⟩
    · cases refused.symm.trans told
    · rwa [← take_inj boundToo bound (Except.ok.inj (toldToo.symm.trans told))]
    · exact absurd (Except.ok.inj (toldToo.symm.trans told)) (shortened_ne_take inside cut j)
  · rw [List.take_zero]
    exact read_in_header
  · constructor
    · rintro ⟨rounds, cut, told⟩
      rcases outcome with ⟨fault, refused⟩ | ⟨i, _, _, toldToo⟩ | ⟨i, insideToo, _, region, _, toldToo⟩
      · cases refused.symm.trans told
      · exact absurd (Except.ok.inj (told.symm.trans toldToo)) (shortened_ne_take inside cut i)
      · have rows := (List.append_inj' (Except.ok.inj (told.symm.trans toldToo)) rfl).1
        obtain rfl := take_inj (Nat.le_of_lt inside) (Nat.le_of_lt insideToo) rows
        exact region
    · rintro ⟨behind, before⟩
      exact read_in_rounds fit inside rfl behind before

def twoRecords : List Record :=
  [{ size := 5, seeded := true, rounds := 12 }, { size := 7, seeded := false, rounds := 103 }]

/-- Without its line end the first row is read, and without the last digit the second is read as another. -/
theorem twoRecords_truncated :
    Fit twoRecords ∧ 48 ≤ (textBytes (tableString twoRecords)).length ∧
      readTable (Source.whole ((textBytes (tableString twoRecords)).take 35)) =
        .ok [{ size := 5, seeded := true, rounds := 12 }] ∧
      (∃ fault, readTable (Source.whole ((textBytes (tableString twoRecords)).take 46)) = .error fault) ∧
      ∃ rounds, CutDigits rounds 103 ∧
        readTable (Source.whole ((textBytes (tableString twoRecords)).take 48)) =
          .ok [{ size := 5, seeded := true, rounds := 12 }, { size := 7, seeded := false, rounds }] := by
  have fit : Fit twoRecords := by decide
  have within : 48 ≤ (textBytes (tableString twoRecords)).length := by decide +kernel
  obtain ⟨_, atEnd, _, _⟩ := truncated_table fit (show 35 ≤ _ by omega)
  obtain ⟨_, _, _, inRow⟩ := truncated_table fit (show 46 ≤ _ by omega)
  obtain ⟨_, _, _, inDigits⟩ := truncated_table fit within
  exact ⟨fit, within, (atEnd 1 (by decide)).2 (Or.inl (by decide +kernel)),
    (inRow 1 (by decide)).1 (by decide +kernel) (by decide +kernel),
    (inDigits 1 (by decide)).2.2 ⟨by decide +kernel, by decide +kernel⟩⟩

end Rumour.Table
