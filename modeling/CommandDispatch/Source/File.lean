import CommandDispatch.Source.Grammar.Items
import CommandDispatch.Source.Lexer

/-!
# Reading source text

* `Source.parseFile` reads the items of a file,
* `Source.parseFunction` reads a text that is one function,
* `Source.parsePath` and `Source.parseName` read a path of a type and a name.

Parts nest no deeper than there are tokens.
-/

namespace CommandDispatch.Source

/-- Reads all of a sequence of tokens by a rule of the grammar. -/
def readAll {α : Type} (rule : Grammar → Parser α) (tokens : Tokens) (forms : Forms := .all) :
    Option α :=
  Parser.whole (rule (Grammar.ofDepth forms (Tokens.size tokens + 1))) tokens

/-- Reads a whole text by a rule of the grammar. -/
def parseAs {α : Type} (rule : Grammar → Parser α) (text : List Char) : Option α := do
  readAll rule (← tokenize text)

/-- Drops the first line if it names the program that runs the file. An attribute may begin with the
same marks. -/
def dropProgramLine (text : List Char) : List Char :=
  if beginsWith text "#!" then
    let rest := text.drop 2
    if (skipUpTo rest.length rest).head? = some '[' then text
    else text.dropWhile (· != '\n')
  else text

def parseFile (text : String) : Option (List Item) :=
  let text := text.toList
  let text := if text.head? = some '\ufeff' then text.drop 1 else text
  (dropProgramLine text) |> parseAs fun g => do
    discard g.innerAttributes
    Grammar.all g.item

def parseFunction (text : String) : Option Function :=
  parseAs Grammar.function text.toList

def parsePath (text : String) : Option Path :=
  parseAs (Grammar.path · .type) text.toList

def parseName (text : String) : Option String :=
  parseAs (fun _ => Parser.name) text.toList

end CommandDispatch.Source
