set_option autoImplicit false

/-!
Nodes of a population, known by their index. An index from outside is accepted while it fits 32 bits.
-/

namespace Rumour

structure NodeId where
  index : Nat
  deriving DecidableEq, Repr

namespace NodeId

def origin : NodeId := { index := 0 }

def greatestIndex : Nat := 4294967295

def ofIndex? (index : Nat) : Option NodeId :=
  if index <= greatestIndex then some { index } else none

def refusal : String := "number too large to fit in target type"

def text (node : NodeId) : String :=
  s!"NodeId({node.index})"

end NodeId

end Rumour
