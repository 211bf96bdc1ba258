import Std.Data.ExtTreeMap
import CommandDispatch.Files.Basic

/-!
# Trees of files

A tree holds files and empty directories by the names that lead to them from its root; the
directories above them exist with them. A path is followed name by name, from the root if it begins
with a slash, and from the working directory otherwise.
-/

namespace CommandDispatch.Files

/-- The names that lead from the root of a tree to a place in it. -/
abbrev Place := List String

/-- What is at a place. -/
inductive Node where
  | file (content : ByteArray)
  | directory

def Node.isDirectory : Node → Bool
  | .file _ => false
  | .directory => true

abbrev Tree := Std.ExtTreeMap Place Node

namespace Tree

def file? (t : Tree) (p : Place) : Option ByteArray :=
  match t[p]? with
  | some (.file content) => some content
  | _ => none

/-- There is a directory at a place: the root, a directory by itself, or one above something. -/
def isDirectory (t : Tree) (p : Place) : Bool :=
  p.isEmpty || t.toList.any fun (q, n) => p.isPrefixOf q && (p != q || n.isDirectory)

/-- Follows one name of a path. Above the root is the root. -/
def follow (t : Tree) (p : Place) (name : String) : Except ReadFault Place :=
  if !t.isDirectory p then
    .error (if (t.file? p).isSome then .notADirectory else .notFound)
  else if name == "" || name == "." then .ok p
  else if name == ".." then .ok p.dropLast
  else .ok (p ++ [name])

def pathNames (path : String) : List String :=
  path.splitOn "/"

/-- The place from which a path is followed. -/
def origin (here : Place) (path : String) : Place :=
  if path.startsWith "/" then [] else here

/-- The place that a path leads to from the working directory `here`, whether something is there or
not. A path with NUL in it is no path. -/
def resolve (t : Tree) (here : Place) (path : String) : Except ReadFault Place :=
  if path.toList.contains '\x00' then .error .otherFault
  else if path.isEmpty then .error .notFound
  else (pathNames path).foldlM t.follow (origin here path)

def textOf (content : ByteArray) : Except ReadFault String :=
  match String.fromUTF8? content with
  | some text => .ok text
  | none => .error .invalidData

/-- The file of a directory that an entry of the tree is, if it is one. -/
def fileIn (directory : Place) : Place × Node → Option NamedFile
  | (place, .file content) =>
    match place.getLast? with
    | some name => if place.dropLast = directory then some ⟨name, textOf content⟩ else none
    | none => none
  | (_, .directory) => none

def list (t : Tree) (here : Place) (path : String) : Except ReadFault (List NamedFile) := do
  let p ← t.resolve here path
  if t.isDirectory p then return t.toList.filterMap (fileIn p)
  else throw (if (t.file? p).isSome then .notADirectory else .notFound)

/-- The place where a file of this path can be written: its name is a plain name, the directory
above it exists, and no directory is there. -/
def writable? (t : Tree) (here : Place) (path : String) : Option Place :=
  let names := pathNames path
  match names.getLast?, t.resolve here path with
  | some last, .ok p =>
    if ["", ".", ".."].contains last || t.isDirectory p then none else some p
  | _, _ => none

def write? (t : Tree) (here : Place) (path text : String) : Option Tree :=
  (t.writable? here path).map fun p => t.insert p (.file text.toUTF8)

end Tree

end CommandDispatch.Files
