import Rumour.Halt

set_option autoImplicit false

/-!
Room in memory. A block has at most as many bytes as the greatest signed number of 64 bits; asking for a
larger one has no meaning. Whether there is room below that bound is left to the machine.
-/

namespace Rumour

def largestBlock : Nat := 9223372036854775807

/-- Asks for room for a number of items of a width in bytes. -/
def reserve (count width : Nat) : Except Fault Unit :=
  if count * width <= largestBlock then .ok () else .error .noRoom

end Rumour
