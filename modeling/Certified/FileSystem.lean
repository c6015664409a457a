import Certified.Bytes
import Certified.FileError
import Certified.Text.Slashed

/-!
Files in directories, and the names that lead to them. The slashes of a name divide it into steps,
which are taken one after the other; the first step that cannot be taken decides the error.
-/

namespace Certified

inductive FileTree where
  | file (content : Bytes)
  | directory (entries : List (String × FileTree))

/-- Where something stands in a tree: the entries on the way from the top. -/
abbrev Location := List String

namespace FileTree

def isDirectory : FileTree → Bool
  | .directory _ => true
  | .file _ => false

/-- The entries of a directory; a file has none. -/
def entries : FileTree → List (String × FileTree)
  | .directory entries => entries
  | .file _ => []

def at? (t : FileTree) (location : Location) : Option FileTree :=
  location.foldlM (fun here name => here.entries.lookup name) t

/-- Puts a file at a location. Directories on the way are made if they are missing. -/
def insert (content : Bytes) : Location → FileTree → FileTree
  | [], _ => .file content
  | name :: rest, t =>
    let old := (t.entries.lookup name).getD (.directory [])
    .directory ((name, insert content rest old) :: t.entries.filter (·.1 ≠ name))

@[simp] theorem at?_nil (t : FileTree) : t.at? [] = some t := rfl

@[simp] theorem at?_cons (t : FileTree) (name : String) (rest : Location) :
    t.at? (name :: rest) = (t.entries.lookup name).bind fun here => here.at? rest := by
  simp [at?, List.foldlM_cons]

/-- A file that was put somewhere is there. -/
theorem at?_insert (content : Bytes) (location : Location) (t : FileTree) :
    (t.insert content location).at? location = some (.file content) := by
  induction location generalizing t with
  | nil => simp [insert]
  | cons name rest ih => simp [insert, entries, ih]

end FileTree

/-- The name of a file or directory, taken apart. -/
structure FileName where
  /-- The name starts at the top and not in the working directory. -/
  absolute : Bool
  steps : List String
  /-- A slash at the end: only a directory is meant. -/
  directoryOnly : Bool
deriving DecidableEq, Repr

namespace FileName

/-- Slashes in a row count as one. -/
def ofText (text : String) : FileName :=
  let chars := text.toList
  { absolute := chars.head? = some '/'
    steps := ((Text.Slashed.segments chars).filter (!·.isEmpty)).map String.ofList
    directoryOnly := chars.getLast? = some '/' }

/-- The name of standard input is a dash; steps that stay in place do not count after it. -/
def isStandardInput (name : FileName) : Bool :=
  match name with
  | { absolute := false, steps := "-" :: rest, .. } => rest.all (· = ".")
  | _ => false

/-- The number of bytes that one step may have. -/
def stepLimit : Nat := 255

/-- The number of bytes that a whole name may have. -/
def sizeLimit : Nat := 4095

end FileName

/-- The files that there are, and the directory in which names start. -/
structure FileSystem where
  top : FileTree
  workingDirectory : Location

namespace FileSystem

/-- The location one step further. A step can be taken only in a directory; a dot stays there, and
two dots go back. -/
def step (fs : FileSystem) (here : Location) (name : String) : Except FileError Location :=
  match fs.top.at? here with
  | some (.directory entries) =>
    if name = "." then .ok here
    else if name = ".." then .ok here.dropLast
    else if FileName.stepLimit < name.utf8ByteSize then .error .nameTooLong
    else if (entries.lookup name).isSome then .ok (here ++ [name])
    else .error .notFound
  | _ => .error .notDirectory

def start (fs : FileSystem) (name : FileName) : Location :=
  if name.absolute then [] else fs.workingDirectory

def isDirectoryAt (fs : FileSystem) (location : Location) : Bool :=
  ((fs.top.at? location).map FileTree.isDirectory).getD false

/-- A name that can be looked for: not empty, and not too long. -/
def nameOf (text : String) : Except FileError FileName :=
  if text.toList.isEmpty then .error .notFound
  else if FileName.sizeLimit < text.utf8ByteSize then .error .nameTooLong
  else .ok (FileName.ofText text)

/-- The content of the file that a name leads to. -/
def read (fs : FileSystem) (text : String) : Except FileError Bytes := do
  let name ← nameOf text
  let here ← name.steps.foldlM fs.step (fs.start name)
  match fs.top.at? here with
  | some (.file content) => if name.directoryOnly then .error .notDirectory else return content
  | some (.directory _) => .error .isDirectory
  | none => .error .notFound

/-- Where a file of a name is written: all steps but the last lead to a directory, and the last one
leads to a file or to nothing yet. -/
def writeLocation (fs : FileSystem) (text : String) : Except FileError Location := do
  let name ← nameOf text
  match name.steps.getLast? with
  | none => .error .isDirectory
  | some last =>
    let parent ← name.steps.dropLast.foldlM fs.step (fs.start name)
    if name.directoryOnly then
      .error (if fs.isDirectoryAt parent then .isDirectory else .notDirectory)
    match fs.step parent last with
    | .ok here => if fs.isDirectoryAt here then .error .isDirectory else return here
    | .error .notFound => return parent ++ [last]
    | .error e => .error e

/-- Puts a file at a location. -/
def write (fs : FileSystem) (location : Location) (content : Bytes) : FileSystem :=
  { fs with top := fs.top.insert content location }

end FileSystem
end Certified
