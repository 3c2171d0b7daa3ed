import Rumour.Command.Options
import Rumour.Text.Terminal

set_option autoImplicit false

/-!
Arguments of the command, taken from left to right. A setting gets its value attached, behind an equals
sign or a letter, or as the next argument. A value that follows is set aside and looked at only when the
next setting comes or the arguments end, so an unknown argument is told before it. A setting is given at
most once.
-/

namespace Rumour.Command

open Rumour.Text

inductive UsageFault where
  | help
  | unknownArgument (text : String)
  | unexpectedValue (flag value : String)
  | missingValue (setting : Setting)
  | invalidValue (setting : Setting) (value why : String)
  | repeated (setting : Setting)
  deriving DecidableEq, Repr

def about : String :=
  "Measure gossip broadcast convergence rounds across population sizes"

/-- What is told of a fault. Texts from the arguments lose what would steer a terminal. -/
def UsageFault.message (outlet : Terminal.Outlet) : UsageFault -> String
  | .help => about
  | .unknownArgument text => s!"error: unexpected argument '{withoutControls outlet text}' found"
  | .unexpectedValue flag value =>
      s!"error: unexpected value '{withoutControls outlet value}' for '{flag}' found; " ++
        "no more were expected"
  | .missingValue setting =>
      s!"error: a value is required for '{setting.usage}' but none was supplied"
  | .invalidValue setting value why =>
      s!"error: invalid value '{withoutControls outlet value}' for '{setting.usage}': {why}"
  | .repeated setting =>
      s!"error: the argument '{setting.usage}' cannot be used multiple times"

inductive Argument where
  | separator
  | named (name : String) (attached : Option String)
  | lettered (letter : Char) (rest : List Char)
  | plain (text : String)
  deriving DecidableEq, Repr

/-- The form of an argument. A single dash is plain. -/
def Argument.ofText (text : String) : Argument :=
  match text.toList with
  | ['-', '-'] => .separator
  | '-' :: '-' :: rest =>
      let name := String.ofList (rest.takeWhile (· != '='))
      match rest.dropWhile (· != '=') with
      | [] => .named name none
      | _ :: value => .named name (some (String.ofList value))
  | '-' :: letter :: rest => .lettered letter rest
  | _ => .plain text

/-- The value behind a letter, less one equals sign. -/
def attachedToLetter : List Char -> Option String
  | [] => none
  | '=' :: value => some (String.ofList value)
  | value => some (String.ofList value)

structure Pending where
  setting : Setting
  value : Option String
  deriving DecidableEq, Repr

structure Intake where
  options : Options
  given : List Setting
  pending : Option Pending
  separated : Bool
  deriving DecidableEq, Repr

namespace Intake

def initial : Intake :=
  { options := Options.standard, given := [], pending := none, separated := false }

def store (intake : Intake) (setting : Setting) (value : String) : Except UsageFault Intake :=
  if intake.given.contains setting then
    -- A second value is not even looked at.
    .error (.repeated setting)
  else
    match setting.assign value intake.options with
    | .ok options => .ok { intake with options, given := setting :: intake.given }
    | .error .missing => .error (.missingValue setting)
    | .error (.invalid why) => .error (.invalidValue setting value why)

def settle (intake : Intake) : Except UsageFault Intake :=
  match intake.pending with
  | none => .ok intake
  | some { setting, value := none } => .error (.missingValue setting)
  | some { setting, value := some value } => { intake with pending := none }.store setting value

def takeSetting (intake : Intake) (setting : Setting) (attached : Option String) :
    Except UsageFault Intake := do
  let intake <- intake.settle
  match attached with
  | some value => intake.store setting value
  | none => pure { intake with pending := some { setting, value := none } }

def takeHelp (intake : Intake) : Except UsageFault Intake := do
  let _ <- intake.settle
  throw .help

def takePlain (intake : Intake) (text : String) : Except UsageFault Intake :=
  match intake.pending with
  | some { setting, value := none } =>
      .ok { intake with pending := some { setting, value := some text } }
  | _ => .error (.unknownArgument text)

def take (intake : Intake) (text : String) : Except UsageFault Intake :=
  if intake.separated then
    .error (.unknownArgument text)
  else
    match Argument.ofText text with
    | .separator => .ok { intake with separated := true }
    | .named "help" none => intake.takeHelp
    -- Told at once, before the value that was set aside.
    | .named "help" (some value) => .error (.unexpectedValue "--help" value)
    | .named name attached =>
        match Setting.ofName? name with
        | some setting => intake.takeSetting setting attached
        | none => .error (.unknownArgument ("--" ++ name))
    | .lettered 'h' _ => intake.takeHelp
    | .lettered letter rest =>
        match Setting.ofLetter? letter with
        | some setting => intake.takeSetting setting (attachedToLetter rest)
        | none => .error (.unknownArgument (String.ofList ['-', letter]))
    | .plain text => intake.takePlain text

end Intake

def Options.parse (arguments : List String) : Except UsageFault Options := do
  let intake <- arguments.foldlM Intake.take Intake.initial
  let intake <- intake.settle
  pure intake.options

end Rumour.Command
