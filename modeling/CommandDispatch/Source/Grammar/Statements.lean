import CommandDispatch.Source.Grammar.Expressions

/-!
# Statements

A statement is a binding, an item, a macro or an expression. Expressions that do not end with a
block, and macros without braces, need a semicolon before the next statement.
-/

namespace CommandDispatch.Source.Grammar

open CommandDispatch.Source.Parser

/-- What follows the path of a macro and its mark, if the tokens begin with them. -/
def macroTail? (ts : Tokens) : Option Tokens :=
  match (do discard modulePath; mark "!" : Parser Unit).run ts with
  | some (_, rest) => some rest
  | none => none

/-- The tokens begin with a macro that defines something. -/
def macroItemAhead (ts : Tokens) : Bool :=
  (macroTail? ts).any fun rest => nameAhead rest || wordAhead "try" rest

/-- The tokens begin with a macro in braces that nothing is done with. -/
def macroStatementAhead (ts : Tokens) : Bool :=
  (macroTail? ts).any fun rest => groupAhead .brace rest && !accessAhead (rest.drop 1)

def itemAhead (ts : Tokens) : Bool :=
  let next := ts.drop 1
  let third := ts.drop 2
  wordsAhead ["pub", "extern", "use", "fn", "mod", "type", "struct", "enum", "trait", "impl",
      "macro"] ts ||
    (wordAhead "crate" ts && !marksAhead "::" next) ||
    (wordAhead "static" ts && (wordAhead "mut" next || nameAhead next)) ||
    (wordAhead "const" ts && !(groupAhead .brace next || wordsAhead ["static", "move"] next ||
      (wordAhead "async" next && !wordsAhead ["unsafe", "extern", "fn"] third) ||
      marksAhead "|" next)) ||
    (wordAhead "unsafe" ts && !groupAhead .brace next) ||
    (wordAhead "async" ts && wordsAhead ["unsafe", "extern", "fn"] next) ||
    (wordAhead "union" ts && nameAhead next) || (wordAhead "auto" ts && wordAhead "trait" next) ||
    (wordAhead "default" ts && wordsAhead ["unsafe", "impl"] next) || macroItemAhead ts

def endsWithBrace (ts : Tokens) : Bool :=
  match ts.getLast? with
  | some t => groupAhead .brace [t]
  | none => false

/-- Reads a binding. If the pattern does not match, the block after `else` is run; an expression
that ends with a brace has none. -/
def binding (g : Grammar) : Parser Unit := do
  word "let"
  discard g.pattern
  if ← mark? ":" then discard <| g.type true
  if ← mark? "=" then
    let before ← get
    discard <| g.expression true
    if !endsWithBrace (← since before) && (← word? "else") then g.block
  mark ";"

/-- Reads a statement, and says whether it is still open: no other one may follow it. -/
def statement (g : Grammar) : Parser Bool := do
  let before ← get
  discard g.outerAttributes
  let ts ← get
  if macroStatementAhead ts then
    discard modulePath
    mark "!"
    skipGroup .brace
    discard <| mark? ";"
    return false
  else if wordAhead "let" ts then
    g.binding
    return false
  else if itemAhead ts then
    set before
    discard g.item
    return false
  else
    let kind ← g.leading
    let isClosed ← mark? ";"
    return !(isClosed || kind == .block || kind == .expansion .brace)

/-- Reads statements to the end of a block. Semicolons may stand between them. -/
def statementSteps (g : Grammar) : (steps : Nat) → Parser Unit
  | 0 => failure
  | steps + 1 => do
    discard <| repeatWhile (marksAhead ";") (mark ";")
    if ← ahead List.isEmpty then return
    let isOpen ← g.statement
    if ← ahead List.isEmpty then return
    require !isOpen
    g.statementSteps steps

def statementsRule (g : Grammar) : Parser Unit := do
  g.statementSteps ((← get).length + 1)

end CommandDispatch.Source.Grammar
