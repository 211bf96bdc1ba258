import CommandDispatch.Command.Basic
import CommandDispatch.Source.Syntax
import CommandDispatch.Text.Blank
import CommandDispatch.Text.Case

/-!
# Directives

A line of documentation that begins with `cligen:` and a letter is a directive. It names a command,
renames a parameter, or describes the command; directives with other first words mean nothing.
-/

namespace CommandDispatch.Scan

open Command Source Text

/-- A directive. -/
inductive Directive where
  /-- Users call the command by this name. -/
  | name (name : String)
  /-- The first parameter of the one name is known to users by the other. -/
  | rename (old new : String)
  /-- What the usage text says about the command. -/
  | description (text : String)
deriving Repr, DecidableEq

/-- What is wrong with a directive. -/
inductive DirectiveFault where
  | missingName
  | missingOperands (given : Nat)
  | missingText
deriving Repr, DecidableEq

def DirectiveFault.message : DirectiveFault → String
  | missingName => "`cmd` directive needs a command name"
  | missingOperands given => "`rename` directive needs two operands, got " ++ toString given
  | missingText => "`description` directive needs some text"

def directiveMark : List Char :=
  "cligen:".toList

/-- The body of a directive, if the line is one. Blanks around it do not matter. -/
def directiveBody? (line : List Char) : Option (List Char) :=
  let line := trim line
  if directiveMark.isPrefixOf line then
    let body := line.drop directiveMark.length
    if body.head?.any Char.isAlpha then some body else none
  else none

def textDirectives (text : List Char) : List (List Char) :=
  (lines text).filterMap directiveBody?

/-- The bodies of the directives in the documentation among the attributes, in order. -/
def directiveLines (attributes : List Attribute) : List String :=
  attributes.flatMap fun
    | .doc text => (textDirectives text.toList).map String.ofList
    | .other => []

/-- The directive of these words. Those with an unknown first word are none. -/
def Directive.ofWords : List (List Char) → Except DirectiveFault (Option Directive)
  | [] => .ok none
  | opcode :: operands =>
    match String.ofList opcode with
    | "cmd" =>
      match operands with
      | first :: _ => .ok (some (.name (String.ofList first)))
      | [] => .error .missingName
    | "rename" =>
      match operands with
      | old :: new :: _ => .ok (some (.rename (String.ofList old) (String.ofList new)))
      | _ => .error (.missingOperands operands.length)
    | "description" =>
      if operands.isEmpty then .error .missingText
      else .ok (some (.description (String.ofList ([' '].intercalate operands))))
    | _ => .ok none

/-- The directive with this body. Only its words matter, not the blanks between them. -/
def Directive.parse (body : String) : Except DirectiveFault (Option Directive) :=
  ofWords (words body.toList)

def isNamed (name : String) (p : Parameter) : Bool :=
  p.name.any fun own => sameUpToAsciiCase own name

/-- Renames the first parameter of the one name, if there is one. -/
def rename (old new : String) : List Parameter → Option (List Parameter)
  | [] => none
  | p :: others =>
    if isNamed old p then some ({ p with name := some new } :: others)
    else (rename old new others).map (p :: ·)

end CommandDispatch.Scan
