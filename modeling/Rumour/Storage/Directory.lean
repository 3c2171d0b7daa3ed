import Rumour.Storage.Fault

set_option autoImplicit false

/-!
Directories of files. A name is a way of parts between slashes, looked up from the directory, or from the
root of all folders where it begins with a slash. Every part but the last must be a folder, and the last
one too where a slash follows it. Of what lies outside the directory only the folders on the way up are
there. A file keeps its bytes under its path, and nothing is ever moved or removed.
-/

namespace Rumour.Storage

/-- The parts of the way to a file or folder; the directory itself has none. A way that leaves the
directory begins with the steps up, or with the root. -/
abbrev Path := List String

namespace Path

def root : Path := ["/"]

/-- Whether a path leads up from the directory, and no step down again. -/
def leadsUp (path : Path) : Bool :=
  path.all fun part => part = ".."

/-- The folder that holds what stands at a path; the root holds itself. -/
def parent (path : Path) : Path :=
  if path = root then root
  else if path.leadsUp then path ++ [".."]
  else path.dropLast

end Path

structure Directory where
  folders : List Path
  files : List (Path × Array UInt8)
  deriving Repr

inductive Place where
  | folder (path : Path)
  | file (path : Path)
  | free (path : Path)
  deriving DecidableEq, Repr

namespace Directory

def empty : Directory :=
  { folders := [], files := [] }

def isFolder (directory : Directory) (path : Path) : Bool :=
  path.leadsUp || path = Path.root || directory.folders.contains path

def bytes? (directory : Directory) (path : Path) : Option (Array UInt8) :=
  directory.files.lookup path

def longestPart : Nat := 255

def longestName : Nat := 4095

def place (directory : Directory) (path : Path) : Place :=
  if directory.isFolder path then .folder path
  else if (directory.bytes? path).isSome then .file path
  else .free path

def partsOf (name : String) : List String :=
  ((name.toList.splitOn '/').filter fun part => !part.isEmpty).map String.ofList

def namesFolder (name : String) : Bool :=
  name.endsWith '/'

def follow (directory : Directory) : List String -> Path -> Except StorageFault Place
  | [], here => .ok (.folder here)
  | part :: rest, here =>
      if part = "." then directory.follow rest here
      else if part = ".." then directory.follow rest here.parent
      else if longestPart < part.utf8ByteSize then .error .nameTooLong
      else
        match directory.place (here ++ [part]) with
        | .folder path => directory.follow rest path
        | .file path => if rest.isEmpty then .ok (.file path) else .error .notDirectory
        | .free path => if rest.isEmpty then .ok (.free path) else .error .missing

def checkName (name : String) : Except StorageFault Unit :=
  if name.contains '\x00' then .error .zeroInName
  else if longestName < name.utf8ByteSize then .error .nameTooLong
  else .ok ()

def origin (name : String) : Path :=
  if name.startsWith '/' then Path.root else []

def find (directory : Directory) (name : String) : Except StorageFault Place := do
  checkName name
  directory.follow (partsOf name) (origin name)

def setBytes (directory : Directory) (path : Path) (bytes : Array UInt8) : Directory :=
  { directory with
    files :=
      if (directory.bytes? path).isSome then
        directory.files.map fun file => if file.1 = path then (path, bytes) else file
      else
        directory.files ++ [(path, bytes)] }

/-- The bytes of the file of a name. A folder can be found but holds no bytes. -/
def read (directory : Directory) (name : String) : Except StorageFault (Option (Array UInt8)) :=
  match directory.find name with
  | .error fault => .error fault
  | .ok (.folder _) => .ok none
  | .ok (.free _) => .error .missing
  | .ok (.file path) =>
      if namesFolder name then .error .notDirectory else .ok (directory.bytes? path)

def refusalOfFolder (directory : Directory) (name : String) : StorageFault :=
  -- The last part is not looked up: whatever stands there, a file was asked for.
  match directory.follow (partsOf name).dropLast (origin name) with
  | .ok (.folder _) => .isDirectory
  | .ok (.file _) => .notDirectory
  | .ok (.free _) => .missing
  | .error fault => fault

def create (directory : Directory) (name : String) : Except StorageFault (Path × Directory) := do
  checkName name
  if namesFolder name then
    throw (directory.refusalOfFolder name)
  match <- directory.find name with
  | .folder _ => throw .isDirectory
  | .free path | .file path => pure (path, directory.setBytes path #[])

/-- Writes bytes into a file from an offset on; a gap before them is filled with zeros. -/
def writeAt (directory : Directory) (path : Path) (offset : Nat) (block : Array UInt8) : Directory :=
  if block.isEmpty then
    directory
  else
    let old := (directory.bytes? path).getD #[]
    let gap := Array.replicate (offset - old.size) 0
    directory.setBytes path
      (old.extract 0 offset ++ gap ++ block ++ old.extract (offset + block.size) old.size)

def makeFolderAt (directory : Directory) (start : Path) (parts : List String) : Directory :=
  match directory.follow parts start with
  | .ok (.free path) => { directory with folders := directory.folders ++ [path] }
  | _ => directory

/-- Makes the folder of a name, and before it those on the way to it. -/
def makeFolder (directory : Directory) (name : String) : Directory :=
  let parts := partsOf name
  (List.range parts.length).foldl
    (fun made before => made.makeFolderAt (origin name) (parts.take (before + 1))) directory

def plainFiles (directory : Directory) : List (String × Array UInt8) :=
  directory.files.filterMap fun
    | ([name], bytes) => some (name, bytes)
    | _ => none

end Directory

end Rumour.Storage
