/-!
# Files and why they cannot be read
-/

namespace CommandDispatch.Files

/-- Why a file or a directory cannot be read. -/
inductive ReadFault where
  | notFound
  | notADirectory
  /-- The content is not text. -/
  | invalidData
  | otherFault
deriving Repr, DecidableEq

/-- A file of a directory: its name and its text. -/
structure NamedFile where
  name : String
  text : Except ReadFault String

def endsWith (s ending : String) : Bool :=
  ending.toList.isSuffixOf s.toList

def joinPath (directory name : String) : String :=
  if directory.isEmpty || endsWith directory "/" then directory ++ name
  else directory ++ "/" ++ name

end CommandDispatch.Files
