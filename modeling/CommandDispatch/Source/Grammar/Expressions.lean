import CommandDispatch.Source.Grammar.Patterns

/-!
# Expressions

An expression is an operand, with operators and further operands after it. An operand has marks
before it, and calls and accesses after it. Comparisons cannot be chained, and nothing but a looser
operator follows a range.
-/

namespace CommandDispatch.Source.Grammar

open CommandDispatch.Source.Parser

/-! ## Ranks of operators

Operators of a higher rank bind more tightly. -/

def assignmentRank : Nat := 1

def rangeRank : Nat := 2

def comparisonRank : Nat := 6

def castRank : Nat := 13

/-! ## What follows an operand -/

def arguments (g : Grammar) : Parser Unit :=
  discard <| commaList (g.expression true)

/-- Reads the numbers of several fields, if they make up one number with points. Says whether there
are any, and no point follows the last one: such a point begins the next access. -/
def positions : Parser Bool := do
  match ← get with
  | .literal .number text :: rest =>
    if !text.toList.contains '.' then return false
    let parts := Text.pieces (· == '.') text.toList
    let goesOn := parts.getLast? == some []
    require ((if goesOn then parts.dropLast else parts).all isPosition)
    set rest
    return !goesOn
  | _ => return false

/-- Reads one call, access or index after an operand, or the mark that returns an error. -/
def trailer (g : Grammar) : Parser Unit := do
  let ts ← get
  if groupAhead .parenthesis ts then inside .parenthesis g.arguments
  else if groupAhead .bracket ts then discard <| inside .bracket (g.expression true)
  else if ← mark? "?" then pure ()
  else
    mark "."
    if ← positions then return
    if ← word? "await" then return
    let isNamed ← member
    let hasTypes := isNamed && (← ahead (marksAhead "::"))
    if hasTypes then
      require (← ahead fun ts => marksAhead "<" (ts.drop 2))
      discard g.angled
    if hasTypes || (isNamed && (← ahead (groupAhead .parenthesis))) then
      inside .parenthesis g.arguments

/-- The tokens begin with an access, or with the mark that returns an error. -/
def accessAhead (ts : Tokens) : Bool :=
  marksAhead "?" ts || (marksAhead "." ts && !marksAhead ".." ts)

def trailerAhead (ts : Tokens) : Bool :=
  groupAhead .parenthesis ts || groupAhead .bracket ts || accessAhead ts

/-- Reads what follows the core of an operand. Nothing follows a range. -/
def trailers (g : Grammar) (core : ExpressionKind) : Parser ExpressionKind := do
  if core == .range then return core
  let more ← repeatWhile trailerAhead g.trailer
  return if more.isEmpty then core else .other

/-! ## Operands -/

/-- Reads the fields of a structure; the value for the remaining ones is the last. -/
def fieldValues (g : Grammar) : (steps : Nat) → Parser Unit
  | 0 => failure
  | steps + 1 => do
    if ← ahead List.isEmpty then return
    if ← mark? ".." then
      if !(← ahead List.isEmpty) then discard <| g.expression true
      require (← ahead List.isEmpty)
    else
      discard g.outerAttributes
      let isNamed ← member
      if !isNamed || (← ahead (marksAhead ":")) then
        mark ":"
        discard <| g.expression true
      if ← ahead List.isEmpty then return
      mark ","
      g.fieldValues steps

/-- Reads an operand that starts with a path: a macro, a structure, or the path itself. -/
def pathOperand (g : Grammar) (allowStruct : Bool) : Parser ExpressionKind := do
  let (isQualified, path) ← g.qualifiedPath .expression
  let ts ← get
  if !isQualified && marksAhead "!" ts && !marksAhead "!=" ts && hasWordsOnly path then
    mark "!"
    return .expansion (← anyGroup)
  if allowStruct && groupAhead .brace ts then
    inside .brace do
      g.fieldValues ((← get).length + 1)
  return .other

/-- Reads a condition and its blocks; each alternative may have a condition of its own. -/
def conditional (g : Grammar) : (steps : Nat) → Parser Unit
  | 0 => failure
  | steps + 1 => do
    word "if"
    discard <| g.expression false
    g.block
    if ← word? "else" then
      if ← ahead (wordAhead "if") then g.conditional steps else g.block

/-- Reads a pattern with the expression for it. A comma follows the expression unless it is a block
or the last. -/
def matchArm (g : Grammar) : Parser Unit := do
  discard g.outerAttributes
  discard g.patterns
  if ← word? "if" then discard <| g.expression true
  mark "=>"
  let kind ← g.leading
  if kind == .block || (← ahead List.isEmpty) then discard <| mark? ","
  else mark ","

def choice (g : Grammar) : Parser Unit := do
  word "match"
  discard <| g.expression false
  inside .brace do
    discard g.innerAttributes
    discard <| repeatWhile (!·.isEmpty) g.matchArm

/-- An angle bracket after `for` or `impl` opens generic parameters, and not a path that starts from
a type. -/
def parametersAhead (ts : Tokens) : Bool :=
  let second := ts.drop 1
  let third := afterOne second
  marksAhead "<" ts &&
    (marksAhead ">" second || marksAhead "#" second || wordAhead "const" second ||
      ((lifetimeAhead second || nameAhead second) &&
        (marksAhead ">" third || marksAhead "," third || marksAhead "=" third ||
          (marksAhead ":" third && !marksAhead "::" third))))

def closure (g : Grammar) (allowStruct : Bool) : Parser Unit := do
  discard g.boundLifetimes
  for modifier in ["const", "static", "async", "move"] do
    discard <| word? modifier
  mark "|"
  discard <| separatedUntil (marksAhead "|") "," do
    discard g.outerAttributes
    discard g.pattern
    if ← mark? ":" then discard <| g.type true
  mark "|"
  if ← mark? "->" then
    discard <| g.type true
    g.block
  else discard <| g.expression allowStruct

def closureAhead (ts : Tokens) : Bool :=
  let next := ts.drop 1
  marksAhead "|" ts || wordsAhead ["move", "static"] ts ||
  (wordAhead "for" ts && parametersAhead next) ||
  (wordAhead "const" ts && !groupAhead .brace next) ||
  (wordAhead "async" ts && (marksAhead "|" next || wordAhead "move" next))

/-- Reads the inside of brackets: values, or one value and how often it is repeated. -/
def arrayValues (g : Grammar) : Parser Unit := do
  if ← ahead List.isEmpty then return
  discard <| g.expression true
  if ← mark? ";" then discard <| g.expression true
  else if ← mark? "," then g.arguments

/-- The tokens can begin an expression whose value may be missing. -/
def valueAhead (ts : Tokens) : Bool :=
  let isMark (m : String) (others : List String) := marksAhead m ts && !others.any (marksAhead · ts)
  (anyWordAhead ts && !wordAhead "as" ts) || groupAhead .parenthesis ts ||
    groupAhead .bracket ts || groupAhead .brace ts || literalAhead ts || isMark "!" ["!="] ||
    isMark "-" ["-=", "->"] || isMark "*" ["*="] || isMark "|" ["|="] || isMark "&" ["&="] ||
    marksAhead ".." ts || isMark "<" ["<=", "<<="] || marksAhead "::" ts || lifetimeAhead ts ||
    marksAhead "#" ts

/-- Reads the value of a word such as `return`, if there is one. -/
def valueOf (g : Grammar) (w : String) (allowStruct : Bool) : Parser Unit := do
  word w
  if (← ahead valueAhead) && (allowStruct || !(← ahead (groupAhead .brace))) then
    discard <| g.expression true

/-- Reads `break` with its label and its value. A value with a label of its own needs
parentheses. -/
def breakOperand (g : Grammar) (allowStruct : Bool) : Parser Unit := do
  word "break"
  if ← ahead lifetimeAhead then
    require !(← ahead fun ts => marksAhead ":" (afterOne ts))
    discard lifetime
  if (← ahead valueAhead) && (allowStruct || !(← ahead (groupAhead .brace))) then
    discard <| g.expression true

/-- Reads a loop, or a block. -/
def labelled (g : Grammar) : Parser Unit := do
  if ← word? "while" then discard <| g.expression false
  else if ← word? "for" then
    discard g.patterns
    word "in"
    discard <| g.expression false
  else discard <| word? "loop"
  discard g.attributedBlock

/-- The tokens begin with an expression that ends with its block. -/
def blockAhead (ts : Tokens) : Bool :=
  let next := ts.drop 1
  wordsAhead ["if", "while", "loop", "match", "unsafe"] ts || groupAhead .brace ts ||
    (wordAhead "for" ts && !parametersAhead next) ||
    (wordsAhead ["try", "const"] ts && groupAhead .brace next) || lifetimeAhead ts

/-- Reads an expression that ends with its block. -/
def blockOperand (g : Grammar) : Parser Unit := do
  let ts ← get
  if wordAhead "if" ts then g.conditional (ts.length + 1)
  else if wordAhead "match" ts then g.choice
  else if ← word? "try" then g.block
  else if wordsAhead ["unsafe", "const"] ts then
    discard anyWord
    discard g.attributedBlock
  else if lifetimeAhead ts then
    discard lifetime
    mark ":"
    g.labelled
  else g.labelled

def asyncBlockAhead (ts : Tokens) : Bool :=
  let next := ts.drop 1
  wordAhead "async" ts &&
    (groupAhead .brace next || (wordAhead "move" next && groupAhead .brace (next.drop 1)))

/-- The upper end of a range may be missing before these tokens. -/
def rangeOpen (allowStruct : Bool) (ts : Tokens) : Bool :=
  ts.isEmpty || accessAhead ts || (!allowStruct && groupAhead .brace ts) || wordAhead "as" ts ||
    [",", ";", "=>", "=", "+", "/", "%", "^", ">", "<=", "!=", "-=", "*=", "&=", "|=",
      "<<="].any (marksAhead · ts)

/-- Reads the marks of a range, and says whether its end is missing. -/
def rangeStart (allowStruct : Bool) : Parser Bool := do
  if ← mark? "..=" then return false
  require !(← ahead (marksAhead "..."))
  mark ".."
  ahead (rangeOpen allowStruct)

/-- Reads an operand without what stands before and after it. -/
def operandCore (g : Grammar) (allowStruct : Bool) : Parser ExpressionKind := do
  let ts ← get
  let next := ts.drop 1
  if literalAhead ts then
    discard literal
    return .other
  else if asyncBlockAhead ts then
    word "async"
    discard <| word? "move"
    g.block
    return .other
  else if blockAhead ts then
    g.blockOperand
    return .block
  else if closureAhead ts then
    g.closure allowStruct
    return .other
  else if wordAhead "builtin" ts && marksAhead "#" next then
    g.unlaid
    discard anyWord
    mark "#"
    discard name
    skipGroup .parenthesis
    return .other
  else if pathAhead ts || marksAhead "<" ts ||
      (wordAhead "try" ts && (marksAhead "!" next || marksAhead "::" next)) then
    g.pathOperand allowStruct
  else if groupAhead .parenthesis ts then
    inside .parenthesis g.arguments
    return .other
  else if groupAhead .bracket ts then
    inside .bracket g.arrayValues
    return .other
  else if ← word? "_" then return .other
  else if wordAhead "break" ts then
    g.breakOperand allowStruct
    return .other
  else if ← word? "continue" then
    if ← ahead lifetimeAhead then discard lifetime
    return .other
  else if wordAhead "return" ts then
    g.valueOf "return" true
    return .other
  else if wordAhead "yield" ts then
    g.valueOf "yield" true
    return .other
  else if ← word? "become" then
    g.unlaid
    discard <| g.expression true
    return .other
  else if ← word? "let" then
    discard g.patterns
    mark "="
    discard <| g.expression allowStruct comparisonRank
    return .other
  else
    let isOpen ← rangeStart allowStruct
    if !isOpen then discard <| g.expression allowStruct (rangeRank + 1)
    return .range

/-- The tokens begin with a mark or an attribute that stands before an operand. -/
def operandMarkAhead (ts : Tokens) : Bool :=
  (["&", "*", "!", "#"].any fun m => marksAhead m ts) || (marksAhead "-" ts && !literalAhead ts)

/-- Reads a mark before an operand: a reference, an operation, or an attribute. Says whether it is
an attribute. -/
def operandMark (g : Grammar) : Parser Bool := do
  if ← mark? "&" then
    let isRaw (ts : Tokens) := wordAhead "raw" ts && wordsAhead ["mut", "const"] (ts.drop 1)
    if ← ahead isRaw then
      word "raw"
      discard anyWord
    else discard <| word? "mut"
    return false
  else if ← ahead (marksAhead "#") then
    mark "#"
    discard <| inside .bracket g.attributeText
    return true
  else
    modify (·.drop 1)
    return false

/-- Reads an operand with the marks before it and the calls and accesses after it. A range has no
attributes. -/
def operand (g : Grammar) (allowStruct : Bool) : Parser ExpressionKind := do
  let marks ← repeatWhile operandMarkAhead g.operandMark
  let core ← g.operandCore allowStruct
  require !(core == .range && marks.getLast? == some true)
  let kind ← g.trailers core
  return if marks.all id then kind else .other

/-! ## Operators -/

/-- Operators between operands with their ranks; of two that begin alike, the longer comes first. -/
def operators : List (String × Nat) :=
  [ ("+=", 1), ("-=", 1), ("*=", 1), ("/=", 1), ("%=", 1), ("^=", 1), ("&=", 1), ("|=", 1),
    ("<<=", 1), (">>=", 1), ("&&", 4), ("||", 3), ("<<", 10), (">>", 10), ("==", 6), ("<=", 6),
    ("!=", 6), (">=", 6), ("+", 11), ("-", 11), ("*", 12), ("/", 12), ("%", 12), ("^", 8),
    ("&", 9), ("|", 7), ("<", 6), (">", 6) ]

/-- The operator that comes next, with its rank. -/
def operatorAhead (ts : Tokens) : Option (String × Nat) :=
  match operators.find? fun (m, _) => marksAhead m ts with
  | some found => some found
  | none =>
    if marksAhead "=" ts && !marksAhead "=>" ts then some ("=", assignmentRank)
    else if marksAhead ".." ts then some ("..", rangeRank)
    else if wordAhead "as" ts then some ("as", castRank)
    else none

/-- The least rank of the operators in the right operand of an operator. Assignments are grouped
from the right. -/
def rightRank (rank : Nat) : Nat :=
  if rank = assignmentRank then rank else rank + 1

/-- Reads operators of a rank or above with their operands, after a first operand. -/
def operations (g : Grammar) (allowStruct : Bool) :
    (steps rank : Nat) → ExpressionKind → Parser ExpressionKind
  | 0, _, _ => failure
  | steps + 1, rank, left => do
    match operatorAhead (← get) with
    | none => return left
    | some (m, next) =>
      if left == .range || next < rank then return left
      if next = castRank then
        word "as"
        discard <| g.type false
        require !(← ahead trailerAhead)
        g.operations allowStruct steps rank .other
      else if next = rangeRank then
        let isOpen ← rangeStart allowStruct
        if isOpen then return .range
        let right ← g.operand allowStruct
        discard <| g.operations allowStruct steps (rightRank next) right
        return .range
      else
        require !(next == comparisonRank && left == .comparison)
        mark m
        let right ← g.operand allowStruct
        discard <| g.operations allowStruct steps (rightRank next) right
        g.operations allowStruct steps rank (if next = comparisonRank then .comparison else .other)

def expressionRule (g : Grammar) (allowStruct : Bool) (rank : Nat) : Parser ExpressionKind := do
  let steps := (← get).length + 1
  let first ← g.operand allowStruct
  g.operations allowStruct steps rank first

/-- Reads an expression that ends with its block, if it begins with one and no access follows. -/
def leadingRule (g : Grammar) : Parser ExpressionKind := do
  discard g.outerAttributes
  let ts ← get
  if blockAhead ts then
    g.blockOperand
    if !(← ahead accessAhead) then return .block
    let first ← g.trailers .block
    g.operations true (ts.length + 1) 0 first
  else
    let first ← g.operand true
    g.operations true (ts.length + 1) 0 first

end CommandDispatch.Source.Grammar
