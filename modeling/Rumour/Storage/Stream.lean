import Rumour.Storage.Fault

set_option autoImplicit false

/-!
Ends of a byte stream. A sink takes whole blocks; one that would bring it past its limit is refused and
leaves it as it was. A source gives its bytes and then either ends or breaks.
-/

namespace Rumour.Storage

structure Sink where
  limit : Option Nat
  bytes : Array UInt8
  deriving DecidableEq, Repr

namespace Sink

def empty (limit : Option Nat) : Sink :=
  { limit, bytes := #[] }

def hasRoom (sink : Sink) (count : Nat) : Bool :=
  match sink.limit with
  | some limit => sink.bytes.size + count <= limit
  | none => true

def write (block : Array UInt8) : EStateM StorageFault Sink Unit := fun sink =>
  if sink.hasRoom block.size then
    match sink with
    | { limit, bytes } => .ok () { limit, bytes := bytes ++ block }
  else
    .error .sinkFull sink

end Sink

structure Source where
  bytes : List UInt8
  broken : Bool
  deriving DecidableEq, Repr

namespace Source

def whole (bytes : List UInt8) : Source :=
  { bytes, broken := false }

/-- Breaks after a number of bytes, or behind the last if there are fewer. -/
def breakingAfter (count : Nat) (bytes : List UInt8) : Source :=
  { bytes := bytes.take count, broken := true }

end Source

end Rumour.Storage
