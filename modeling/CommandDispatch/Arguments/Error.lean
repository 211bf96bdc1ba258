import CommandDispatch.Text.Quoted

/-!
# What can go wrong with a list of arguments

Each error is a cause; its wording is given by one function.
-/

namespace CommandDispatch.Arguments

open Text

/-- Causes for which a list of tokens cannot be cut into flags and positionals. -/
inductive TokenizeError where
  /-- A flag begins with more than two hyphens. -/
  | hyphenCount (token : String)
  /-- A flag has a second equals sign. -/
  | invalidFlagFormat (body : String)
  /-- The tokens end inside a quoted literal. -/
  | unterminatedString
  /-- A quote mark that closes a literal is not the last character of its token. -/
  | misplacedQuote (piece : String)
  /-- A flag has no name. -/
  | emptyFlagName
deriving Repr, DecidableEq

def TokenizeError.message : TokenizeError → String
  | hyphenCount token => "flags must have one or two leading hyphens: " ++ quoted token
  | invalidFlagFormat body => "invalid flag format: " ++ quoted body
  | unterminatedString => "unterminated string literal"
  | misplacedQuote piece => "closing quote must be followed by whitespace: " ++ quoted piece
  | emptyFlagName => "flag name must not be empty"

/-- A text that is not written as a value of the expected type. -/
structure ConversionError where
  parameter : String
  value : String
  expected : String
deriving Repr, DecidableEq

def ConversionError.message (e : ConversionError) : String :=
  "cannot convert " ++ quoted e.value ++ " into " ++ e.expected ++ " for `" ++ e.parameter ++ "`"

/-- Causes for which no command is called. -/
inductive ArgumentError where
  /-- There is no command name. -/
  | insufficient
  /-- No command has the name. -/
  | noMatchingTarget (name : String)
  /-- The command requires more positionals. -/
  | notEnough (expected found : Nat)
deriving Repr, DecidableEq

def ArgumentError.message : ArgumentError → String
  | insufficient => "insufficient arguments"
  | noMatchingTarget name => "no matching target found for " ++ quoted name
  | notEnough expected found =>
    "not enough arguments: expected at least " ++ toString expected ++ ", found " ++ toString found

/-- Everything that a dispatcher reports. -/
inductive DispatchError where
  | tokenize (e : TokenizeError)
  | argument (e : ArgumentError)
  | conversion (e : ConversionError)
  /-- The command itself failed, with this text. -/
  | command (text : String)
deriving Repr, DecidableEq

/-- The wording of an error; that of a cause is passed through. -/
def DispatchError.message : DispatchError → String
  | tokenize e => e.message
  | argument e => e.message
  | conversion e => e.message
  | command text => text

end CommandDispatch.Arguments
