set_option autoImplicit false

/-!
What can go wrong where bytes are kept.
-/

namespace Rumour.Storage

inductive StorageFault where
  | sinkFull
  | sourceBroke
  | missing
  | notDirectory
  | isDirectory
  | nameTooLong
  | zeroInName
  | other (text : String)
  deriving DecidableEq, Repr

def StorageFault.message : StorageFault -> String
  | .sinkFull => "sink full"
  | .sourceBroke => "source broke"
  | .missing => "No such file or directory (os error 2)"
  | .notDirectory => "Not a directory (os error 20)"
  | .isDirectory => "Is a directory (os error 21)"
  | .nameTooLong => "File name too long (os error 36)"
  | .zeroInName => "file name contained an unexpected NUL byte"
  | .other text => text

end Rumour.Storage
