import Rumour.Text.Utf8

set_option autoImplicit false

/-!
Text without what steers a terminal. An escape begins a sequence that ends with a final character, or a
string that ends with the next escape or its own mark. Of the other controls only white space stays; it
also breaks into a sequence, and the text behind it is shown. What becomes of the sequence depends on
where the text goes.
-/

namespace Rumour.Text.Terminal

/-- Where a text goes. In a text of its own a sequence is over where white space breaks into it; in a
stream it goes on behind the next control. -/
inductive Outlet where
  | text
  | stream
  deriving DecidableEq, Repr

/-- Where a character stands: in plain text, behind an escape, in a control sequence, in a command of
the system, in the header of a device string, or in a string without a meaning of its own. -/
inductive Phase where
  | plain
  | escape
  | escapeTail
  | sequence
  | command
  | header
  | headerNumbers
  | headerTail
  | string
  deriving DecidableEq, Repr

/-- A phase. One that rests shows text and goes on later. -/
structure State where
  phase : Phase
  resting : Bool
  deriving DecidableEq, Repr

def State.initial : State :=
  { phase := .plain, resting := false }

def isBlank (character : Char) : Bool :=
  character = '\t' || character = '\n' || character = '\x0c' || character = '\r'

def isText (character : Char) : Bool :=
  isBlank character || (' ' <= character && character != '\x7f')

def afterEscape (character : Char) : Phase :=
  if character <= '/' then .escapeTail
  else if character = '[' then .sequence
  else if character = ']' then .command
  else if character = 'P' then .header
  else if character = 'X' || character = '^' || character = '_' then .string
  else .plain

def afterPrinting (character : Char) : Phase -> Phase
  | .plain => .plain
  | .escape => afterEscape character
  | .escapeTail => if character <= '/' then .escapeTail else .plain
  | .sequence => if character <= '?' then .sequence else .plain
  | .command => .command
  | .header =>
      if character <= '/' then .headerTail
      else if character <= '?' then .headerNumbers
      else .string
  | .headerNumbers =>
      if character <= '/' then .headerTail
      else if character <= ';' then .headerNumbers
      else .string
  | .headerTail => if character <= '/' then .headerTail else .string
  | .string => .string

def afterControl (character : Char) (phase : Phase) : Phase :=
  if character = '\x18' || character = '\x1a' then .plain
  else
    match phase with
    | .command => if character = '\x07' then .plain else .command
    | other => other

/-- The byte that closes a string; it may be one of the bytes of a character. -/
def closingByte : UInt8 := 0x9c

def afterOther (character : Char) (phase : Phase) : Phase :=
  if phase = .string && (Utf8.encodeChar character).contains closingByte then .plain else phase

/-- The phase behind a character that nothing breaks into. -/
def Phase.next (phase : Phase) (character : Char) : Phase :=
  if character = '\x1b' then .escape
  else if character < ' ' then afterControl character phase
  else if character < '\x7f' then afterPrinting character phase
  else if character = '\x7f' then phase
  else afterOther character phase

namespace State

def isKept (state : State) (character : Char) : Bool :=
  match state.phase with
  | .plain => isText character
  | .escape | .escapeTail | .sequence =>
      if state.resting then isText character else isBlank character
  | _ => false

def advance (outlet : Outlet) (state : State) (character : Char) : State :=
  if state.phase = .plain || !state.isKept character then
    { phase := state.phase.next character, resting := false }
  else if '~' < character then
    -- A character beyond the tilde leaves nothing to go on with.
    initial
  else
    match outlet with
    | .text => initial
    | .stream => { state with resting := true }

end State

/-- What stays of characters that begin in a state. -/
def keptFrom (outlet : Outlet) : State -> List Char -> List Char
  | _, [] => []
  | state, character :: rest =>
      if state.isKept character then
        character :: keptFrom outlet (state.advance outlet character) rest
      else
        keptFrom outlet (state.advance outlet character) rest

end Terminal

/-- What is shown of a text at its outlet. -/
def withoutControls (outlet : Terminal.Outlet) (text : String) : String :=
  String.ofList (Terminal.keptFrom outlet .initial text.toList)

end Rumour.Text
