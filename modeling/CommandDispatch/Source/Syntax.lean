import CommandDispatch.Source.Token

/-!
# Syntax of source text

Of a file only the functions at its top level matter, and of a function its attributes, its name and
its signature. Types keep the structure that decides how a parameter is bound; forms that can only
be foreign keep the tokens they were written with.
-/

namespace CommandDispatch.Source

mutual

/-- A type. -/
inductive Ty where
  | path (path : Path)
  /-- A path that starts from a type in angle brackets, and how it was written. -/
  | qualified (path : Path) (written : Tokens)
  | paren (inner : Ty)
  /-- A type in invisible delimiters. -/
  | group (inner : Ty)
  | tuple (elements : List Ty)
  | reference (lifetime : Option String) (isMutable : Bool) (inner : Ty)
  | pointer (isMutable : Bool) (inner : Ty)
  | slice (inner : Ty)
  | array (inner : Ty) (length : Tokens)
  | never
  | hole
  /-- Types of functions and of values behind traits, and macros. -/
  | other (written : Tokens)

/-- A path: whether it starts from the root, and its segments. -/
inductive Path where
  | mk (isGlobal : Bool) (segments : List Segment)

/-- A segment of a path with its generic arguments. -/
inductive Segment where
  | mk (name : String) (arguments : GenericArguments)

/-- Generic arguments of a segment. -/
inductive GenericArguments where
  | none
  /-- Arguments in angle brackets, whether a double colon stands before them, and whether a comma
  follows the last one. -/
  | angled (turbofish : Bool) (arguments : List GenericArgument) (isTrailed : Bool)

/-- A generic argument. -/
inductive GenericArgument where
  | type (type : Ty)
  | lifetime (name : String)
  /-- Constants, bindings and constraints. -/
  | other (written : Tokens)

end

namespace Path

def isGlobal : Path → Bool
  | mk g _ => g

def segments : Path → List Segment
  | mk _ s => s

end Path

namespace Segment

def name : Segment → String
  | mk n _ => n

def arguments : Segment → GenericArguments
  | mk _ a => a

end Segment

/-- What a pattern is: a name to bind, a range that is open at an end, or anything else. -/
inductive Pattern where
  | name (name : String)
  | openRange
  | other
deriving Repr, DecidableEq

/-- An attribute. Only those that give a string as documentation are told apart. -/
inductive Attribute where
  | doc (text : String)
  | other
deriving Repr, DecidableEq

/-- What a function takes. -/
inductive Input where
  /-- The object of a method. -/
  | receiver
  | typed (pattern : Pattern) (type : Ty)

/-- The signature of a function. -/
structure FunctionSignature where
  isAsync : Bool
  isUnsafe : Bool
  name : String
  /-- It has type, lifetime or constant parameters. -/
  isGeneric : Bool
  inputs : List Input
  /-- It takes any number of further arguments. -/
  isVariadic : Bool
  output : Option Ty

/-- A function. The attributes at the start of its body come after those before it. -/
structure Function where
  attributes : List Attribute
  signature : FunctionSignature

/-- What stands at the top level of a file. -/
inductive Item where
  | function (f : Function)
  | other

end CommandDispatch.Source
