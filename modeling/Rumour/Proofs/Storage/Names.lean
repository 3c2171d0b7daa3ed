import Mathlib.Data.List.Basic
import Rumour.Storage.Directory

set_option autoImplicit false

/-!
Names without a slash. Such a name is its own only part, so a file that is made for it in an empty directory is the
only one there, and it is found again under the name.
-/

namespace Rumour.Storage.Directory

/-- A directory that holds one file and nothing else. -/
def single (path : Path) (bytes : Array UInt8) : Directory :=
  { folders := [], files := [(path, bytes)] }

theorem bytes?_single (path : Path) (bytes : Array UInt8) : (single path bytes).bytes? path = some bytes := by
  simp [single, bytes?]

theorem setBytes_single (path : Path) (old bytes : Array UInt8) :
    (single path old).setBytes path bytes = single path bytes := by
  rw [setBytes, bytes?_single]
  simp [single]

theorem writeAt_end (path : Path) (old block : Array UInt8) :
    (single path old).writeAt path old.size block = single path (old ++ block) := by
  unfold writeAt
  by_cases nothing : block.isEmpty
  · rw [if_pos nothing, Array.isEmpty_iff.1 nothing, Array.append_empty]
  · have behind : old.extract (old.size + block.size) = #[] := Array.extract_empty_of_size_le_start (by omega)
    rw [if_neg nothing, bytes?_single, Option.getD_some, setBytes_single]
    simp [behind]

section

variable {name : String} (plain : '/' ∉ name.toList)

include plain

theorem partsOf_plain (named : name ≠ "") : partsOf name = [name] := by
  have letters : name.toList ≠ [] := mt String.toList_eq_nil_iff.1 named
  have whole : name.toList.splitOn '/' = [name.toList] := List.splitOn_eq_singleton plain
  simp [partsOf, whole, letters]

theorem namesFolder_plain : namesFolder name = false := by
  rw [namesFolder, String.endsWith_char_eq_getLast?, beq_eq_false_iff_ne]
  exact fun last => plain (List.mem_of_getLast? last)

theorem origin_plain : origin name = [] := by
  have first : name.startsWith '/' = false := by
    rw [String.startsWith_char_eq_head?, beq_eq_false_iff_ne]
    exact fun first => plain (List.mem_of_head? first)
  rw [origin, first]
  rfl

end

theorem checkName_eq_ok_iff (name : String) :
    checkName name = .ok () ↔ '\x00' ∉ name.toList ∧ name.utf8ByteSize ≤ longestName := by
  rw [checkName, String.contains_char_eq]
  by_cases zero : '\x00' ∈ name.toList
  · simp [zero]
  · by_cases long : longestName < name.utf8ByteSize
    · simp [zero, long, Nat.not_le.2 long]
    · simp [zero, long, Nat.not_lt.1 long]

/-- The name stands for a file of its own in the directory. -/
structure NamesFile (name : String) : Prop where
  plain : '/' ∉ name.toList
  checked : checkName name = .ok ()
  named : name ≠ ""
  here : name ≠ "."
  up : name ≠ ".."
  short : name.utf8ByteSize ≤ longestPart

theorem NamesFile.find {name : String} (file : NamesFile name) {directory : Directory}
    (notFolder : directory.isFolder [name] = false) : directory.find name = .ok (directory.place [name]) := by
  have fits : ¬ longestPart < name.utf8ByteSize := Nat.not_lt.2 file.short
  have parts := partsOf_plain file.plain file.named
  rw [Directory.find, file.checked, parts, origin_plain file.plain]
  simp only [Bind.bind, Except.bind, follow, file.here, file.up, fits, if_false, List.nil_append, List.isEmpty_nil,
    if_true]
  by_cases filed : (directory.bytes? [name]).isSome <;> simp [place, notFolder, filed]

theorem NamesFile.isFolder {name : String} (file : NamesFile name) {directory : Directory}
    (noFolders : directory.folders = []) : directory.isFolder [name] = false := by
  have notRoot : name ≠ "/" := by
    intro root
    apply file.plain
    rw [root]
    decide
  simp [Directory.isFolder, Path.leadsUp, Path.root, noFolders, file.up, notRoot]

theorem NamesFile.create_empty {name : String} (file : NamesFile name) :
    empty.create name = .ok ([name], single [name] #[]) := by
  have notFolder : empty.isFolder [name] = false := file.isFolder rfl
  have free : empty.place [name] = .free [name] := by
    rw [place, notFolder]
    rfl
  have found := file.find notFolder
  rw [free] at found
  rw [create, file.checked, namesFolder_plain file.plain]
  simp only [Bind.bind, Except.bind, found]
  rfl

theorem NamesFile.read_single {name : String} (file : NamesFile name) (bytes : Array UInt8) :
    (single [name] bytes).read name = .ok (some bytes) := by
  have notFolder : (single [name] bytes).isFolder [name] = false := file.isFolder rfl
  have found := file.find notFolder
  simp only [place, notFolder, bytes?_single] at found
  simp [read, found, namesFolder_plain file.plain, bytes?_single]

theorem create_folder {name : String} (plain : '/' ∉ name.toList) (checked : checkName name = .ok ()) {path : Path}
    (folder : empty.follow (partsOf name) [] = .ok (.folder path)) : empty.create name = .error .isDirectory := by
  have found : empty.find name = .ok (.folder path) := by
    rw [Directory.find, checked, origin_plain plain]
    exact folder
  rw [create, checked, namesFolder_plain plain]
  simp only [Bind.bind, Except.bind, found]
  rfl

theorem namesFile_or_error {name : String} (plain : '/' ∉ name.toList) :
    NamesFile name ∨ ∃ fault, empty.create name = .error fault := by
  cases checked : checkName name with
  | error fault =>
      right
      exact ⟨fault, by rw [create, checked]; rfl⟩
  | ok _ =>
      by_cases named : name = ""
      · have folder : empty.follow (partsOf name) [] = .ok (.folder []) := by simp [named, partsOf, follow]
        exact Or.inr ⟨_, create_folder plain checked folder⟩
      have parts := partsOf_plain plain named
      by_cases here : name = "."
      · have folder : empty.follow (partsOf name) [] = .ok (.folder []) := by
          rw [parts, here]
          simp [follow]
        exact Or.inr ⟨_, create_folder plain checked folder⟩
      by_cases up : name = ".."
      · have folder : empty.follow (partsOf name) [] = .ok (.folder (Path.parent [])) := by
          rw [parts, up]
          simp [follow]
        exact Or.inr ⟨_, create_folder plain checked folder⟩
      by_cases long : longestPart < name.utf8ByteSize
      · have found : empty.find name = .error .nameTooLong := by
          rw [Directory.find, checked, parts, origin_plain plain]
          simp [Bind.bind, Except.bind, follow, here, up, long]
        right
        exact ⟨.nameTooLong, by simp [create, checked, namesFolder_plain plain, Bind.bind, Except.bind, found]⟩
      · left
        exact { plain, checked, named, here, up, short := Nat.not_lt.1 long }

end Rumour.Storage.Directory
