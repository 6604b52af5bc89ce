import TracedEval.Config.Error

/-!
# A directory with files

A directory that holds files and nothing else, as far as reading a file by a path can tell. Paths
are relative to it; empty components and `.` stay where they are, and nothing else than directories
lies outside.
-/

namespace TracedEval

/-- A directory with files directly in it. -/
structure Directory where
  files : List (String × ByteArray)

namespace Directory

def empty : Directory := ⟨[]⟩

/-- The longest component that a path may have, in bytes. -/
def longestComponent : Nat := 255

/-- No path may be as long as this, in bytes. -/
def pathLimit : Nat := 4096

/-- Reads the file that a path leads to. -/
def read (d : Directory) (path : String) : Except FileError ByteArray :=
  let components := (path.splitOn "/").filter fun c => c != "" && c != "."
  if path.toList.any (· == '\x00') then .error .nulInName
  else if path.isEmpty then .error .notFound
  else if pathLimit ≤ path.utf8ByteSize then .error .nameTooLong
  else if components.all (· == "..") then .error .isDirectory
  else
    match components with
    | [] => .error .isDirectory
    | first :: rest =>
      if longestComponent < first.utf8ByteSize then .error .nameTooLong
      else if path.startsWith "/" then .error .notFound
      else
        match d.files.lookup first with
        | none => .error .notFound
        | some content =>
          if rest.isEmpty && !path.endsWith "/" && !path.endsWith "/." then .ok content
          else .error .notDirectory

end Directory

end TracedEval
