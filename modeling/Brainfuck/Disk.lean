import Brainfuck.Text.Quoted
import Brainfuck.Text.Split
/-!
# Files

A `Disk` is a tree of files and directories, without links, and the place in
it of the working directory. Reading and creating a file fail the way a file
system does, and `FileError.message` says how. A path is looked up component
by component, from the root if it begins with a slash and else from the
working directory; `Disk.create` changes the file at the path that was looked
up and no other.
-/

namespace Brainfuck

/-- Why a path cannot be opened. -/
inductive FileFault where
  | notFound
  | notDirectory
  | isDirectory
  | nameTooLong
  /-- No path holds a zero character. -/
  | zeroCharacter
  /-- Anything else that a file system may say. -/
  | other (number : Nat) (description : String)
  deriving DecidableEq, Repr

namespace FileFault

/-- The number of a fault. -/
def number : FileFault → Nat
  | notFound => 2
  | notDirectory => 20
  | isDirectory => 21
  | nameTooLong => 36
  | zeroCharacter => 22
  | other n _ => n

/-- What a fault is called. -/
def description : FileFault → String
  | notFound => "No such file or directory"
  | notDirectory => "Not a directory"
  | isDirectory => "Is a directory"
  | nameTooLong => "File name too long"
  | zeroCharacter => "Invalid argument"
  | other _ text => text

end FileFault

/-- A path that could not be opened. -/
structure FileError where
  fault : FileFault
  path : String
  deriving DecidableEq, Repr

/-- What is said about it. -/
def FileError.message (e : FileError) : String :=
  "[Errno " ++ toString e.fault.number ++ "] " ++ e.fault.description ++ ": " ++ Text.quoted e.path

/-- The components of a path from the root of a disk. -/
abbrev Path := List String

/-- A path as text. -/
def Path.text (p : Path) : String := "/".intercalate p

/-- Files and directories. The directories above a file or directory are
there as well, and so are the working directory and those above it. -/
structure Disk where
  files : List (Path × List UInt8) := []
  directories : List Path := []
  workingDirectory : Path := []
  deriving DecidableEq, Repr

/-- What is at a path. -/
inductive Place where
  | directory
  | file (path : Path) (data : List UInt8)
  /-- Nothing yet, in a directory that is there. -/
  | vacant (path : Path)
  deriving DecidableEq, Repr

namespace Disk

/-- Whether there is a directory of exactly these components. -/
def hasDirectory (d : Disk) (p : Path) : Bool :=
  p.isPrefixOf d.workingDirectory || d.directories.any p.isPrefixOf ||
    d.files.any fun f => p.isPrefixOf f.1 && p != f.1

/-- The components a path is written with. -/
def components (path : String) : List String :=
  (Text.split '/' path.toList).map String.ofList

/-- The most bytes in a component. -/
def componentLimit : Nat := 255

/-- Looks components up, starting from a directory. The directory above the
root is the root. -/
def walk (d : Disk) (here : Path) : List String → Except FileFault Place
  | [] => .ok .directory
  | name :: rest =>
    if name = "" ∨ name = "." then walk d here rest
    else if name = ".." then walk d here.dropLast rest
    else if componentLimit < name.utf8ByteSize then .error .nameTooLong
    else
      let target := here ++ [name]
      if d.hasDirectory target then walk d target rest
      else
        match d.files.lookup target with
        | some data => if rest.isEmpty then .ok (.file target data) else .error .notDirectory
        | none => if rest.all (· = "") then .ok (.vacant target) else .error .notFound

/-- Where the look-up of a path starts. -/
def origin (d : Disk) (path : String) : Path :=
  if path.toList.head? = some '/' then [] else d.workingDirectory

/-- Looks a path up. The empty path names nothing. -/
def resolve (d : Disk) (path : String) : Except FileFault Place :=
  if path.toList.contains '\x00' then .error .zeroCharacter
  else if path.isEmpty then .error .notFound
  else walk d (d.origin path) (components path)

/-- Whether there is a directory at a path. -/
def isDirectory (d : Disk) (path : String) : Bool :=
  match d.resolve path with
  | .ok .directory => true
  | _ => false

/-- The content of the file at a path. -/
def read (d : Disk) (path : String) : Except FileError (List UInt8) :=
  match d.resolve path with
  | .error f => .error ⟨f, path⟩
  | .ok .directory => .error ⟨.isDirectory, path⟩
  | .ok (.vacant _) => .error ⟨.notFound, path⟩
  | .ok (.file _ data) => .ok data

/-- Replaces the content of a file, or adds the file. -/
def put (d : Disk) (p : Path) (data : List UInt8) : Disk :=
  { d with files := (p, data) :: d.files.filter fun f => f.1 != p }

/-- A path without the slashes at its end; of one that is nothing else, a
slash is left. -/
def withoutSlashes (path : String) : String :=
  let kept := (path.toList.reverse.dropWhile (· == '/')).reverse
  if kept.isEmpty && !path.toList.isEmpty then "/" else String.ofList kept

/-- Where a file to be created goes. A path that ends in a slash stands for
a directory, whatever there is. -/
def target (d : Disk) (path : String) : Except FileFault Path :=
  match d.resolve (withoutSlashes path) with
  | .error f => .error f
  | .ok place =>
    if path.toList.getLast? == some '/' then .error .isDirectory
    else
      match place with
      | .directory => .error .isDirectory
      | .vacant p => .ok p
      | .file p _ => .ok p

/-- Creates the file at a path, or replaces its content. -/
def create (d : Disk) (path : String) (data : List UInt8) : Except FileError Disk :=
  match d.target path with
  | .error f => .error ⟨f, path⟩
  | .ok p => .ok (d.put p data)

/-- The files that were not on an earlier disk with the same content. -/
def changes (earlier later : Disk) : List (Path × List UInt8) :=
  later.files.filter fun f => earlier.files.lookup f.1 != some f.2

end Disk

end Brainfuck
