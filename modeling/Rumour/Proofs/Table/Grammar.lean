import Mathlib.Data.List.Induction
import Rumour.Proofs.Table.Reading
import Rumour.Proofs.Table.Written
import Rumour.Proofs.Text.Count
import Rumour.Proofs.Text.Utf8

set_option autoImplicit false

/-!
What rows say. A header row begins a table of no records; a row behind a table that spells the next record
makes a longer one. A row that does not offends, and its first fault is told: too few or too many fields
before bytes that are no text, these before what the texts do not say, from left to right. Readers follow
this for any rows.
-/

namespace Rumour.Table

open Rumour.Storage Rumour.Text

def textBytes (text : String) : List UInt8 :=
  text.toUTF8.data.toList

def truthTexts (flag : Bool) : List String :=
  if flag then ["True", "true"] else ["False", "false"]

/-- Texts of a row that say a record, with the index that is due. -/
inductive Spells (due : Nat) : List String → Record → Prop where
  | record {index size seeded rounds : String} {record : Record}
      (spellsIndex : Count.Spells index.toList due) (spellsSize : Count.Spells size.toList record.size)
      (spellsSeeded : seeded ∈ truthTexts record.seeded)
      (spellsRounds : Count.Spells rounds.toList record.rounds) :
      Spells due [index, size, seeded, rounds] record

/-- Texts of a row that do not, with what the first of them does wrong. -/
inductive Misses (due : Nat) : List String → RowFault → Prop where
  | badIndex {index size seeded rounds : String} (bad : ∀ count, ¬ Count.Spells index.toList count) :
      Misses due [index, size, seeded, rounds] (.badIndex index)
  | wrongIndex {index size seeded rounds : String} {found : Nat}
      (spellsIndex : Count.Spells index.toList found) (other : found ≠ due) :
      Misses due [index, size, seeded, rounds] (.wrongIndex found due)
  | badSize {index size seeded rounds : String} (spellsIndex : Count.Spells index.toList due)
      (bad : ∀ count, ¬ Count.Spells size.toList count) :
      Misses due [index, size, seeded, rounds] (.badSize size)
  | badSeeded {index size seeded rounds : String} {count : Nat}
      (spellsIndex : Count.Spells index.toList due) (spellsSize : Count.Spells size.toList count)
      (bad : ∀ flag, seeded ∉ truthTexts flag) :
      Misses due [index, size, seeded, rounds] (.badSeeded seeded)
  | badRounds {index size seeded rounds : String} {count : Nat} {flag : Bool}
      (spellsIndex : Count.Spells index.toList due) (spellsSize : Count.Spells size.toList count)
      (spellsSeeded : seeded ∈ truthTexts flag) (bad : ∀ count, ¬ Count.Spells rounds.toList count) :
      Misses due [index, size, seeded, rounds] (.badRounds rounds)

namespace Row

def Shows (row : Row) (texts : List String) : Prop :=
  row.fields = texts.map textBytes

/-- The first field that is no text, and how many of its bytes are. -/
inductive Garbled (row : Row) : Nat → Nat → Prop where
  | field {texts : List String} {field : List UInt8} {later : List (List UInt8)} {sound : Nat}
      (parts : row.fields = texts.map textBytes ++ field :: later)
      (longest : Utf8.LongestText field sound) (short : sound < field.length) :
      Garbled row texts.length sound

def Spells (row : Row) (due : Nat) (record : Record) : Prop :=
  ∃ texts, row.Shows texts ∧ Table.Spells due texts record

inductive AtFault (row : Row) (due : Nat) : TableFault → Prop where
  | uneven (count : row.fields.length ≠ header.length) :
      AtFault row due (.format (.uneven row.position header.length row.fields.length))
  | notText {index sound : Nat} (count : row.fields.length = header.length)
      (garbled : row.Garbled index sound) : AtFault row due (.format (.notText row.position index sound))
  | malformed {texts : List String} {cause : RowFault} (shows : row.Shows texts)
      (misses : Misses due texts cause) : AtFault row due (.malformed row.position.line cause)

end Row

inductive IsTable : List Row → List Record → Prop where
  | header {head : Row} (shows : head.Shows Table.header) : IsTable [head] []
  | row {rows : List Row} {records : List Record} {row : Row} {record : Record}
      (table : IsTable rows records) (spells : row.Spells records.length record) :
      IsTable (rows ++ [row]) (records ++ [record])

/-- A row at fault behind rows that are a table, or a first row that is no header. -/
inductive Offends : List Row → Row → TableFault → Prop where
  | headGarbled {head : Row} {index sound : Nat} (garbled : head.Garbled index sound) :
      Offends [] head (.format (.notText head.position index sound))
  | head {head : Row} {texts : List String} (shows : head.Shows texts) (other : texts ≠ header) :
      Offends [] head (.malformed 1 (.unexpectedHeader texts))
  | row {rows : List Row} {records : List Record} {row : Row} {fault : TableFault}
      (table : IsTable rows records) (atFault : row.AtFault records.length fault) :
      Offends rows row fault

/-! Texts -/

theorem textBytes_eq (text : String) : textBytes text = Utf8.encode text.toList :=
  (encode_eq_bytes text).symm

theorem decode_eq_ok_iff {bytes : List UInt8} {characters : List Char} :
    Utf8.decode bytes = .ok characters ↔ bytes = textBytes (String.ofList characters) := by
  rw [textBytes_eq, String.toList_ofList, Utf8.decode_eq_ok_iff]

theorem decode_textBytes (text : String) : Utf8.decode (textBytes text) = .ok text.toList := by
  rw [textBytes_eq, Utf8.decode_encode]

theorem decodeFields_texts (position : Position) (index : Nat) (texts : List String)
    (later : List (List UInt8)) :
    decodeFields position index (texts.map textBytes ++ later) =
      (decodeFields position (index + texts.length) later).map (texts ++ ·) := by
  induction texts generalizing index with
  | nil => cases read : decodeFields position index later <;> simp [read, Except.map]
  | cons text rest ih =>
      simp only [List.map_cons, List.cons_append, decodeFields, decode_textBytes, ih, List.length_cons,
        String.ofList_toList, Nat.add_assoc, Nat.add_comm 1]
      cases read : decodeFields position (index + (rest.length + 1)) later <;> rfl

theorem decodeFields_shown {row : Row} {texts : List String} (shows : row.Shows texts)
    (position : Position) (index : Nat) : decodeFields position index row.fields = .ok texts := by
  have read := decodeFields_texts position index texts []
  rw [List.append_nil, ← shows] at read
  simpa [decodeFields, Except.map, pure, Except.pure] using read

theorem decodeFields_garbled {row : Row} {index sound : Nat} (garbled : row.Garbled index sound)
    (position : Position) : decodeFields position 0 row.fields = .error (.notText position index sound) := by
  cases garbled with
  | field parts longest short =>
      have cut := Utf8.decode_eq_error_iff.2 ⟨longest, short⟩
      rw [parts, decodeFields_texts, Nat.zero_add]
      simp only [decodeFields, cut]
      rfl

theorem texts_or_garbled (fields : List (List UInt8)) :
    (∃ texts : List String, fields = texts.map textBytes) ∨
      ∃ (texts : List String) (field : List UInt8) (later : List (List UInt8)) (sound : Nat),
        fields = texts.map textBytes ++ field :: later ∧ Utf8.LongestText field sound ∧
          sound < field.length := by
  induction fields with
  | nil => exact Or.inl ⟨[], rfl⟩
  | cons field rest ih =>
      cases read : Utf8.decode field with
      | error sound =>
          obtain ⟨longest, short⟩ := Utf8.decode_eq_error_iff.1 read
          exact Or.inr ⟨[], field, rest, sound, rfl, longest, short⟩
      | ok characters =>
          rw [decode_eq_ok_iff.1 read]
          rcases ih with ⟨texts, rfl⟩ | ⟨texts, cut, later, sound, rfl, broken⟩
          · exact Or.inl ⟨String.ofList characters :: texts, rfl⟩
          · exact Or.inr ⟨String.ofList characters :: texts, cut, later, sound, rfl, broken⟩

theorem Row.shows_or_garbled (row : Row) :
    (∃ texts, row.Shows texts) ∨ ∃ index sound, row.Garbled index sound := by
  rcases texts_or_garbled row.fields with ⟨texts, shown⟩ | ⟨texts, field, later, sound, parts, longest, short⟩
  · exact Or.inl ⟨texts, shown⟩
  · exact Or.inr ⟨texts.length, sound, .field parts longest short⟩

theorem Row.Shows.length {row : Row} {texts : List String} (shows : row.Shows texts) :
    row.fields.length = texts.length := by
  rw [shows, List.length_map]

theorem Row.Shows.not_garbled {row : Row} {texts : List String} (shows : row.Shows texts) {index sound : Nat} :
    ¬ row.Garbled index sound := by
  intro garbled
  have read := decodeFields_garbled garbled row.position
  rw [decodeFields_shown shows] at read
  cases read

theorem Row.Shows.unique {row : Row} {texts others : List String} (shows : row.Shows texts)
    (too : row.Shows others) : texts = others :=
  Except.ok.inj ((decodeFields_shown shows row.position 0).symm.trans (decodeFields_shown too row.position 0))

/-! What texts say -/

theorem readTruth?_eq_some_iff {text : String} {flag : Bool} :
    readTruth? text = some flag ↔ text ∈ truthTexts flag := by
  unfold readTruth? truthTexts
  by_cases yes : text = "True" ∨ text = "true"
  · rcases yes with rfl | rfl <;> cases flag <;> simp
  · obtain ⟨notLarge, notSmall⟩ := not_or.1 yes
    cases flag with
    | true => simp [notLarge, notSmall]
    | false => by_cases large : text = "False" <;> simp [notLarge, notSmall, large]

theorem readField_eq_ok_iff {fault : String -> RowFault} {text : String} {count : Nat} :
    readField fault text = .ok count ↔ Count.Spells text.toList count := by
  rw [← Count.read_eq_ok_iff, readField]
  cases Count.read text.toList <;> simp

theorem readField_bad (fault : String -> RowFault) {text : String}
    (bad : ∀ count, ¬ Count.Spells text.toList count) : readField fault text = .error (fault text) := by
  unfold readField
  cases read : Count.read text.toList with
  | ok count => exact absurd (Count.read_eq_ok_iff.1 read) (bad count)
  | error => rfl

theorem readFields_spells {due : Nat} {texts : List String} {record : Record}
    (spells : Spells due texts record) : readFields due texts = .ok record := by
  cases spells with
  | record spellsIndex spellsSize spellsSeeded spellsRounds =>
      simp only [readFields, readField_eq_ok_iff.2 spellsIndex, readField_eq_ok_iff.2 spellsSize,
        readTruth?_eq_some_iff.2 spellsSeeded, readField_eq_ok_iff.2 spellsRounds, ok_bind, bne_self_eq_false]
      rfl

theorem readFields_misses {due : Nat} {texts : List String} {cause : RowFault}
    (misses : Misses due texts cause) : readFields due texts = .error cause := by
  cases misses with
  | badIndex bad => simp [readFields, readField_bad _ bad, error_bind]
  | wrongIndex spellsIndex other =>
      simp [readFields, readField_eq_ok_iff.2 spellsIndex, other, ok_bind, error_bind, throw_eq]
  | badSize spellsIndex bad =>
      simp [readFields, readField_eq_ok_iff.2 spellsIndex, readField_bad _ bad, ok_bind, error_bind]
  | @badSeeded index size seeded rounds count spellsIndex spellsSize bad =>
      have unread : readTruth? seeded = none := by
        cases read : readTruth? seeded with
        | none => rfl
        | some flag => exact absurd (readTruth?_eq_some_iff.1 read) (bad flag)
      simp [readFields, readField_eq_ok_iff.2 spellsIndex, readField_eq_ok_iff.2 spellsSize, unread, ok_bind,
        throw_eq]
  | badRounds spellsIndex spellsSize spellsSeeded bad =>
      simp [readFields, readField_eq_ok_iff.2 spellsIndex, readField_eq_ok_iff.2 spellsSize,
        readTruth?_eq_some_iff.2 spellsSeeded, readField_bad _ bad, ok_bind]

theorem Misses.length {due : Nat} {texts : List String} {cause : RowFault}
    (misses : Misses due texts cause) : texts.length = header.length := by
  cases misses <;> rfl

theorem Spells.length {due : Nat} {texts : List String} {record : Record}
    (spells : Spells due texts record) : texts.length = header.length := by
  cases spells
  rfl

theorem spells_or_misses (due : Nat) {texts : List String} (count : texts.length = header.length) :
    (∃ record, Spells due texts record) ∨ ∃ cause, Misses due texts cause := by
  obtain ⟨index, size, seeded, rounds, rfl⟩ : ∃ index size seeded rounds,
      texts = [index, size, seeded, rounds] := by
    match texts, count with
    | [index, size, seeded, rounds], _ => exact ⟨index, size, seeded, rounds, rfl⟩
  by_cases badIndex : ∀ count, ¬ Count.Spells index.toList count
  next => exact Or.inr ⟨_, .badIndex badIndex⟩
  obtain ⟨found, spellsIndex⟩ := not_forall_not.1 badIndex
  by_cases wrong : found ≠ due
  next => exact Or.inr ⟨_, .wrongIndex spellsIndex wrong⟩
  obtain rfl := not_not.1 wrong
  by_cases badSize : ∀ count, ¬ Count.Spells size.toList count
  next => exact Or.inr ⟨_, .badSize spellsIndex badSize⟩
  obtain ⟨sizeFound, spellsSize⟩ := not_forall_not.1 badSize
  by_cases badSeeded : ∀ flag, seeded ∉ truthTexts flag
  next => exact Or.inr ⟨_, .badSeeded spellsIndex spellsSize badSeeded⟩
  obtain ⟨flag, spellsSeeded⟩ := not_forall_not.1 badSeeded
  by_cases badRounds : ∀ count, ¬ Count.Spells rounds.toList count
  next => exact Or.inr ⟨_, .badRounds spellsIndex spellsSize spellsSeeded badRounds⟩
  obtain ⟨roundsFound, spellsRounds⟩ := not_forall_not.1 badRounds
  exact Or.inl ⟨⟨sizeFound, flag, roundsFound⟩, .record spellsIndex spellsSize spellsSeeded spellsRounds⟩

/-! Rows -/

theorem readRow_spells {row : Row} {due : Nat} {record : Record} (spells : row.Spells due record) :
    readRow header.length due row = .ok record := by
  obtain ⟨texts, shows, spelled⟩ := spells
  have count : row.fields.length = header.length := shows.length.trans spelled.length
  simp [readRow, readTexts, count, decodeFields_shown shows, mapError_ok, readFields_spells spelled, ok_bind]

theorem readRow_atFault {row : Row} {due : Nat} {fault : TableFault} (atFault : row.AtFault due fault) :
    readRow header.length due row = .error fault := by
  cases atFault with
  | uneven count =>
      simp [readRow, readTexts, count, throw_eq, mapError_error, error_bind]
  | notText count garbled =>
      simp [readRow, readTexts, count, decodeFields_garbled garbled, mapError_error, error_bind]
  | malformed shows misses =>
      have count : row.fields.length = header.length := shows.length.trans misses.length
      simp [readRow, readTexts, count, decodeFields_shown shows, mapError_ok, readFields_misses misses,
        mapError_error, ok_bind]

theorem Row.spells_or_atFault (row : Row) (due : Nat) :
    (∃ record, row.Spells due record) ∨ ∃ fault, row.AtFault due fault := by
  by_cases count : row.fields.length = header.length
  next =>
    rcases row.shows_or_garbled with ⟨texts, shows⟩ | ⟨index, sound, garbled⟩
    · rcases spells_or_misses due (shows.length.symm.trans count) with ⟨record, spells⟩ | ⟨cause, misses⟩
      · exact Or.inl ⟨record, texts, shows, spells⟩
      · exact Or.inr ⟨_, .malformed shows misses⟩
    · exact Or.inr ⟨_, .notText count garbled⟩
  next => exact Or.inr ⟨_, .uneven count⟩

/-! Tables -/

theorem readRows_append (width : Nat) (front back : List Row) (known : Array Record) :
    readRows width (front ++ back) known = readRows width front known >>= readRows width back := by
  induction front generalizing known with
  | nil => rfl
  | cons row rest ih =>
      simp only [List.cons_append, readRows]
      cases readRow width known.size row with
      | ok record => exact ih (known.push record)
      | error fault => rfl

theorem IsTable.begins {rows : List Row} {records : List Record} (table : IsTable rows records) :
    ∃ head rest, rows = head :: rest ∧ head.Shows Table.header ∧
      readRows Table.header.length rest #[] = .ok records.toArray := by
  induction table with
  | header shows => exact ⟨_, [], rfl, shows, rfl⟩
  | @row rows records row record table spells ih =>
      obtain ⟨head, rest, rfl, shows, read⟩ := ih
      refine ⟨head, rest ++ [row], rfl, shows, ?_⟩
      have last : readRow Table.header.length records.toArray.size row = .ok record := readRow_spells spells
      simp only [readRows_append, read, readRows, last, ok_bind]
      simp [pure, Except.pure]

theorem IsTable.length {rows : List Row} {records : List Record} (table : IsTable rows records) :
    rows.length = records.length + 1 := by
  induction table with
  | header => rfl
  | row _ _ ih => rw [List.length_append, List.length_append, ih, List.length_singleton, List.length_singleton]

/-- A list of rows without a header, a table, or rows of which one offends first. -/
theorem table_or_offends (rows : List Row) :
    rows = [] ∨ (∃ records, IsTable rows records) ∨
      ∃ before row later fault, rows = before ++ row :: later ∧ Offends before row fault := by
  induction rows using List.reverseRecOn with
  | nil => exact Or.inl rfl
  | append_singleton rows row ih =>
      refine Or.inr ?_
      rcases ih with rfl | ⟨records, table⟩ | ⟨before, bad, later, fault, rfl, offends⟩
      · rcases row.shows_or_garbled with ⟨texts, shows⟩ | ⟨index, sound, garbled⟩
        · by_cases same : texts = header
          · exact Or.inl ⟨[], .header (same ▸ shows)⟩
          · exact Or.inr ⟨[], row, [], _, rfl, .head shows same⟩
        · exact Or.inr ⟨[], row, [], _, rfl, .headGarbled garbled⟩
      · rcases row.spells_or_atFault records.length with ⟨record, spells⟩ | ⟨fault, atFault⟩
        · exact Or.inl ⟨records ++ [record], .row table spells⟩
        · exact Or.inr ⟨rows, row, [], fault, rfl, .row table atFault⟩
      · exact Or.inr ⟨before, bad, later ++ [row], fault, by simp, offends⟩

/-- Behind a header the row that offends is a row of the table. -/
theorem Offends.behind_header {before later : List Row} {row : Row} {fault : TableFault}
    (offends : Offends before row fault) (headed : IsTable ((before ++ row :: later).take 1) []) :
    ∃ records, IsTable before records ∧ row.AtFault records.length fault := by
  obtain ⟨head, rest, first, shows, _⟩ := headed.begins
  cases offends with
  | headGarbled garbled =>
      cases first
      exact absurd garbled shows.not_garbled
  | head shown other =>
      cases first
      exact absurd (shown.unique shows) other
  | row table atFault => exact ⟨_, table, atFault⟩

section

variable {source : Source}

theorem readSettled_none (none : rowsOf source = []) :
    readSettled source =
      if source.broken then .error (.format (.storage .sourceBroke))
      else .error (.malformed 1 (.unexpectedHeader [])) := by
  have other : ([] : List String) ≠ header := by decide
  cases broken : source.broken <;>
    simp [readSettled, none, checkSource, checkHeader, broken, other, throw_eq, error_bind]

theorem readSettled_table {records : List Record} (table : IsTable (rowsOf source) records) :
    readSettled source =
      if source.broken then .error (.format (.storage .sourceBroke)) else .ok records := by
  obtain ⟨head, rest, rows, shows, read⟩ := table.begins
  have count : head.fields.length = header.length := shows.length
  cases broken : source.broken <;>
    simp [readSettled, rows, decodeFields_shown shows, mapError_ok, checkHeader, count, read,
      checkSource, broken, ok_bind, error_bind, throw_eq, pure, Except.pure]

theorem readSettled_offends {before later : List Row} {row : Row} {fault : TableFault}
    (rows : rowsOf source = before ++ row :: later) (offends : Offends before row fault) :
    readSettled source = .error fault := by
  cases offends with
  | headGarbled garbled =>
      simp [readSettled, rows, decodeFields_garbled garbled, mapError_error, error_bind]
  | head shows other =>
      simp [readSettled, rows, decodeFields_shown shows, mapError_ok, checkHeader, other, ok_bind,
        throw_eq, error_bind]
  | row table atFault =>
      obtain ⟨head, rest, rfl, shows, read⟩ := table.begins
      have count : head.fields.length = header.length := shows.length
      have stopped : readRows header.length (rest ++ row :: later) #[] = .error fault := by
        simp [readRows_append, read, readRows, readRow_atFault atFault, ok_bind, error_bind]
      simp [readSettled, rows, decodeFields_shown shows, mapError_ok, checkHeader, count, stopped, ok_bind,
        error_bind]

end

end Rumour.Table
