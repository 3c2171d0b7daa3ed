import Rumour.Binary.Reading
import Rumour.Plan
import Rumour.Text.Count

set_option autoImplicit false

/-!
Options of the command: a value for each setting. A setting has a name, perhaps a letter, and a place in the
options that its value goes to. All options but the path of the table make up a plan.
-/

namespace Rumour.Command

open Rumour.Binary Rumour.Text

structure Options where
  start : Nat
  stop : Nat
  step : Nat
  repetitions : Nat
  peers : Nat
  seeds : Nat
  seedBias : Binary64
  maxRounds : Option Nat
  randomSeed : Option UInt64
  threads : Option Nat
  output : String
  deriving DecidableEq, Repr

namespace Options

/-- The options where nothing is given. -/
def standard : Options :=
  { start := 100
    stop := 5001
    step := 200
    repetitions := 30
    peers := 1
    seeds := 3
    seedBias := Policy.defaultBias
    maxRounds := none
    randomSeed := none
    threads := none
    output := "data.csv" }

def plan (options : Options) : Plan :=
  { sizes := { start := options.start, stop := options.stop, step := options.step }
    repetitions := options.repetitions
    peers := options.peers
    seeds := options.seeds
    seedBias := options.seedBias
    maxRounds := options.maxRounds
    randomSeed := options.randomSeed
    threads := options.threads }

end Options

inductive Setting where
  | start
  | stop
  | step
  | repetitions
  | peers
  | seeds
  | seedBias
  | maxRounds
  | randomSeed
  | threads
  | output
  deriving DecidableEq, Repr

/-- Why a value does not suit a setting: it is as good as missing, or it does not read. -/
inductive ValueFault where
  | missing
  | invalid (why : String)
  deriving DecidableEq, Repr

namespace Setting

def all : List Setting :=
  [.start, .stop, .step, .repetitions, .peers, .seeds, .seedBias, .maxRounds, .randomSeed, .threads,
    .output]

def name : Setting -> String
  | .start => "start"
  | .stop => "stop"
  | .step => "step"
  | .repetitions => "repetitions"
  | .peers => "peers"
  | .seeds => "seeds"
  | .seedBias => "seed-bias"
  | .maxRounds => "max-rounds"
  | .randomSeed => "rng-seed"
  | .threads => "threads"
  | .output => "output"

def letter? : Setting -> Option Char
  | .repetitions => some 'r'
  | .threads => some 'j'
  | .output => some 'o'
  | _ => none

def ofName? (name : String) : Option Setting :=
  all.find? fun setting => setting.name = name

def ofLetter? (letter : Char) : Option Setting :=
  all.find? fun setting => setting.letter? = some letter

def usage (setting : Setting) : String :=
  let placeholder := setting.name.map fun character =>
    if character = '-' then '_' else character.toUpper
  s!"--{setting.name} <{placeholder}>"

def count (value : String) : Except ValueFault Nat :=
  (Count.read value.toList).mapError fun fault => .invalid fault.message

def bias (value : String) : Except ValueFault Binary64 :=
  (Binary64.read value.toList).mapError fun fault => .invalid fault.message

def assign (setting : Setting) (value : String) (options : Options) : Except ValueFault Options :=
  match setting with
  | .start => (count value).map fun start => { options with start }
  | .stop => (count value).map fun stop => { options with stop }
  | .step => (count value).map fun step => { options with step }
  | .repetitions => (count value).map fun repetitions => { options with repetitions }
  | .peers => (count value).map fun peers => { options with peers }
  | .seeds => (count value).map fun seeds => { options with seeds }
  | .seedBias => (bias value).map fun seedBias => { options with seedBias }
  | .maxRounds => (count value).map fun cap => { options with maxRounds := some cap }
  | .randomSeed => (count value).map fun seed => { options with randomSeed := some (UInt64.ofNat seed) }
  | .threads => (count value).map fun threads => { options with threads := some threads }
  | .output => if value.isEmpty then .error .missing else .ok { options with output := value }

end Setting

end Rumour.Command
