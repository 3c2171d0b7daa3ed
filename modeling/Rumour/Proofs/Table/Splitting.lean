import Rumour.Table.Rows

set_option autoImplicit false

/-!
How plain bytes are split. Bytes that are no comma, no quote and no line end go to the field under way; a
comma ends the field and a line feed the row. So the rows of lines one behind the other are the fields of
these lines, and each begins where the line before it ends. Of any bytes the phase before them tells the phase
behind them.
-/

namespace Rumour.Table

/-- A byte that means itself outside quotes. -/
def Plain (byte : UInt8) : Prop :=
  byte ≠ Splitter.comma ∧ byte ≠ Splitter.quote ∧ Splitter.isLineEnd byte = false

instance (byte : UInt8) : Decidable (Plain byte) :=
  inferInstanceAs (Decidable (_ ∧ _ ∧ _))

def AllPlain (bytes : List UInt8) : Prop :=
  ∀ byte ∈ bytes, Plain byte

instance (bytes : List UInt8) : Decidable (AllPlain bytes) :=
  List.decidableBAll Plain bytes

def lineBytes (fields : List (List UInt8)) : List UInt8 :=
  [Splitter.comma].intercalate fields ++ [Splitter.lineFeed]

def Position.behind (position : Position) (fields : List (List UInt8)) : Position :=
  { record := position.record + 1
    line := position.line + 1
    byte := position.byte + (lineBytes fields).length }

def rowsFrom (position : Position) : List (List (List UInt8)) -> List Row
  | [] => []
  | fields :: rest => { position, fields } :: rowsFrom (position.behind fields) rest

/-- A line of plain fields that is not blank. -/
structure PlainLine (fields : List (List UInt8)) : Prop where
  plain : ∀ field ∈ fields, AllPlain field
  shown : fields ≠ [] ∧ fields ≠ [[]]

theorem lineBytes_single (field : List UInt8) :
    lineBytes [field] = field ++ [Splitter.lineFeed] := by
  simp [lineBytes, List.intercalate]

theorem lineBytes_cons (field second : List UInt8) (rest : List (List UInt8)) :
    lineBytes (field :: second :: rest) =
      field ++ Splitter.comma :: lineBytes (second :: rest) := by
  simp [lineBytes, List.intercalate]

namespace Splitter

def before (position : Position) : Splitter :=
  { phase := .rowStart, start := position, here := position, fields := #[], field := #[] }

/-- Some plain bytes further in the field under way. -/
def extended (splitter : Splitter) (bytes : List UInt8) : Splitter :=
  { splitter with
    phase := if bytes = [] then splitter.phase else .bare
    here := { splitter.here with byte := splitter.here.byte + bytes.length }
    field := splitter.field ++ bytes }

theorem feed_append (front back : List UInt8) (state : Splitter × Array Row) :
    feed (front ++ back) state = feed back (feed front state) := by
  induction front generalizing state with
  | nil => rfl
  | cons byte rest ih =>
      simp only [List.cons_append, feed]
      split <;> exact ih _

theorem countByte_of_ne {byte : UInt8} (sameLine : byte ≠ lineFeed) (here : Position) :
    countByte here byte = { here with byte := here.byte + 1 } := by
  simp [countByte, sameLine]

theorem step_plain {byte : UInt8} (plain : Plain byte) {splitter : Splitter}
    (bare : splitter.phase ≠ .quoted) : splitter.step byte = (splitter.extended [byte], none) := by
  obtain ⟨phase, start, here, fields, field⟩ := splitter
  obtain ⟨noComma, noQuote, noLineEnd⟩ := plain
  have sameLine : byte ≠ lineFeed := by
    rintro rfl
    simp [isLineEnd] at noLineEnd
  cases phase with
  | quoted => exact absurd rfl bare
  | rowStart | fieldStart | bare | quoteClosed =>
      simp [step, phaseByte, fieldByte, bareByte, noComma, noQuote, noLineEnd, copy, extended,
        countByte_of_ne sameLine]

theorem step_comma {splitter : Splitter} (bare : splitter.phase ≠ .quoted) :
    splitter.step comma =
      ({ splitter with
          phase := .fieldStart
          here := { splitter.here with byte := splitter.here.byte + 1 }
          fields := splitter.fields.push splitter.field.toList
          field := #[] }, none) := by
  obtain ⟨phase, start, here, fields, field⟩ := splitter
  have noQuote : comma ≠ quote := by decide
  have noLineEnd : isLineEnd comma = false := by decide
  have sameLine : comma ≠ lineFeed := by decide
  cases phase with
  | quoted => exact absurd rfl bare
  | rowStart | fieldStart | bare | quoteClosed =>
      simp [step, phaseByte, fieldByte, bareByte, noQuote, noLineEnd, endField,
        countByte_of_ne sameLine]

theorem step_lineFeed {splitter : Splitter} (bare : splitter.phase ≠ .quoted)
    (begun : splitter.phase ≠ .rowStart) :
    splitter.step lineFeed =
      (before
          { record := splitter.here.record + 1
            line := splitter.here.line + 1
            byte := splitter.here.byte + 1 }, some splitter.row) := by
  obtain ⟨phase, start, here, fields, field⟩ := splitter
  have noQuote : lineFeed ≠ quote := by decide
  have noComma : lineFeed ≠ comma := by decide
  have lineEnd : isLineEnd lineFeed = true := by decide
  cases phase with
  | quoted => exact absurd rfl bare
  | rowStart => exact absurd rfl begun
  | fieldStart | bare | quoteClosed =>
      simp [step, phaseByte, fieldByte, bareByte, noQuote, noComma, lineEnd, endRow, before, row,
        countByte]

theorem extended_bare {splitter : Splitter} (bare : splitter.phase ≠ .quoted) (bytes : List UInt8) :
    (splitter.extended bytes).phase ≠ .quoted := by
  simp only [extended]
  split
  next => exact bare
  next => simp

theorem feed_plain {bytes : List UInt8} (plain : AllPlain bytes) {splitter : Splitter}
    (bare : splitter.phase ≠ .quoted) (rows : Array Row) :
    feed bytes (splitter, rows) = (splitter.extended bytes, rows) := by
  induction bytes generalizing splitter with
  | nil => simp [feed, extended]
  | cons byte rest ih =>
      obtain ⟨first, others⟩ := List.forall_mem_cons.1 plain
      simp only [feed, step_plain first bare, ih others (extended_bare bare [byte])]
      simp [extended, Nat.add_assoc, Nat.add_comm 1]

/-- The rest of a line, from the beginning of a field in it. -/
theorem feed_line {head : List UInt8} {rest : List (List UInt8)}
    (plain : ∀ field ∈ head :: rest, AllPlain field) {splitter : Splitter}
    (bare : splitter.phase ≠ .quoted) (empty : splitter.field = #[])
    (shown : splitter.phase ≠ .rowStart ∨ head :: rest ≠ [[]]) (rows : Array Row) :
    feed (lineBytes (head :: rest)) (splitter, rows) =
      (before (splitter.here.behind (head :: rest)),
        rows.push { position := splitter.start, fields := splitter.fields.toList ++ head :: rest }) := by
  induction rest generalizing head splitter with
  | nil =>
      have begun : (splitter.extended head).phase ≠ .rowStart := by
        simp only [extended]
        split
        next blank => exact shown.resolve_right (by simp [blank])
        next => simp
      rw [lineBytes_single, feed_append, feed_plain (plain head List.mem_cons_self) bare]
      simp only [feed, step_lineFeed (extended_bare bare head) begun, row]
      simp [extended, empty, Position.behind, lineBytes_single, Nat.add_assoc]
  | cons second rest ih =>
      obtain ⟨first, others⟩ := List.forall_mem_cons.1 plain
      rw [lineBytes_cons, feed_append, feed_plain first bare]
      simp only [feed, step_comma (extended_bare bare head)]
      rw [ih others (by simp) rfl (Or.inl (by simp))]
      simp [extended, empty, Position.behind, lineBytes_cons, Nat.add_assoc, Nat.add_comm 1]

theorem feed_lines {lines : List (List (List UInt8))} (plain : ∀ fields ∈ lines, PlainLine fields)
    (position : Position) (rows : Array Row) :
    feed (lines.flatMap lineBytes) (before position, rows) =
      (before (lines.foldl Position.behind position), rows ++ rowsFrom position lines) := by
  induction lines generalizing position rows with
  | nil => simp [feed, rowsFrom]
  | cons fields rest ih =>
      obtain ⟨line, later⟩ := List.forall_mem_cons.1 plain
      obtain ⟨someFields, notBlank⟩ := line.shown
      obtain ⟨head, tail, rfl⟩ := List.exists_cons_of_ne_nil someFields
      rw [List.flatMap_cons, feed_append,
        feed_line line.plain (by simp [before]) rfl (Or.inr notBlank), ih later]
      simp [rowsFrom, before]

end Splitter

def Position.first : Position :=
  { record := 0, line := 1, byte := 0 }

theorem rowsOf_lines {lines : List (List (List UInt8))} (plain : ∀ fields ∈ lines, PlainLine fields)
    (noMark : byteOrderMark.isPrefixOf (lines.flatMap lineBytes) = false) :
    rowsOf (Storage.Source.whole (lines.flatMap lineBytes)) = rowsFrom .first lines := by
  have initial : Splitter.initial 0 = Splitter.before .first := rfl
  simp only [rowsOf, splitBytes, Storage.Source.whole, noMark, initial,
    Splitter.feed_lines plain .first #[]]
  simp [Splitter.finish?, Splitter.before]

/-! Phases -/

/-- The phase behind a byte. -/
def Phase.behind (phase : Phase) (byte : UInt8) : Phase :=
  if phase = .quoted then if byte = Splitter.quote then .quoteClosed else .quoted
  else if Splitter.isLineEnd byte then .rowStart
  else if byte = Splitter.comma then .fieldStart
  else if byte = Splitter.quote ∧ phase ≠ .bare then .quoted
  else .bare

theorem Phase.behind_unquoted {phase : Phase} (bare : phase ≠ .quoted) {byte : UInt8}
    (other : byte ≠ Splitter.quote) : phase.behind byte ≠ .quoted := by
  simp only [behind, bare, other, false_and, if_false]
  split
  next => simp
  next => split <;> simp

theorem Phase.behind_inner (phase : Phase) {byte : UInt8} (inner : Splitter.isLineEnd byte = false) :
    phase.behind byte ≠ .rowStart := by
  simp only [behind, inner, Bool.false_eq_true, if_false]
  split
  next => split <;> simp
  next =>
    split
    next => simp
    next => split <;> simp

namespace Splitter

theorem step_phase (splitter : Splitter) (byte : UInt8) :
    (splitter.step byte).1.phase = splitter.phase.behind byte := by
  obtain ⟨phase, start, here, fields, field⟩ := splitter
  have noComma : isLineEnd comma = false := by decide
  have noQuote : isLineEnd quote = false := by decide
  have other : comma ≠ quote := by decide
  by_cases lineEnd : isLineEnd byte = true
  next =>
    have notQuote : byte ≠ quote := by rintro rfl; simp [noQuote] at lineEnd
    have notComma : byte ≠ comma := by rintro rfl; simp [noComma] at lineEnd
    cases phase <;>
      simp [step, phaseByte, fieldByte, bareByte, Phase.behind, lineEnd, notQuote, notComma, endRow, copy]
  by_cases isComma : byte = comma
  next =>
    subst isComma
    cases phase <;> simp [step, phaseByte, fieldByte, bareByte, Phase.behind, noComma, other, endField, copy]
  by_cases isQuote : byte = quote
  next =>
    subst isQuote
    cases phase <;>
      simp [step, phaseByte, fieldByte, bareByte, Phase.behind, noQuote, isComma, copy]
  next =>
    cases phase <;>
      simp [step, phaseByte, fieldByte, bareByte, Phase.behind, lineEnd, isComma, isQuote, copy]

theorem feed_phase (bytes : List UInt8) (state : Splitter × Array Row) :
    (feed bytes state).1.phase = bytes.foldl Phase.behind state.1.phase := by
  induction bytes generalizing state with
  | nil => rfl
  | cons byte rest ih =>
      obtain ⟨splitter, rows⟩ := state
      rw [List.foldl_cons, ← step_phase]
      simp only [feed]
      split
      next after row stepped => rw [ih, stepped]
      next after stepped => rw [ih, stepped]

end Splitter

end Rumour.Table
