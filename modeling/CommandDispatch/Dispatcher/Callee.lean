import CommandDispatch.Layout.Document
import CommandDispatch.Source.Syntax
import CommandDispatch.Source.TokenText

/-!
# Paths as functions to call

A path that is valid among types is not always valid before the arguments of a call, since an angle
bracket is an operator there. This module hands paths on as tokens, which shows what such a call is
read as, and lays paths out for a call.
-/

namespace CommandDispatch.Dispatcher

open Layout Source

/-! ## Tokens -/

def doubleColon : Tokens :=
  [.mark ':' true, .mark ':' false]

def commaTokens : List Tokens → Tokens
  | [] => []
  | [last] => last
  | ts :: others => ts ++ .mark ',' false :: commaTokens others

/-- An angle bracket belongs to no longer operator. -/
def apart : TokenTree → TokenTree
  | .mark c joint => .mark c (joint && !(['<', '>'].contains c))
  | t => t

def referenceTokens (lifetime : Option String) (isMutable : Bool) : Tokens :=
  let name := match lifetime with
    | some l => [.mark '\'' true, .word l]
    | none => []
  .mark '&' false :: (name ++ if isMutable then [.word "mut"] else [])

mutual

/-- The tokens of a type. -/
def typeTokens : Ty → Tokens
  | .path p => pathTokens p
  | .qualified _ written => written.map apart
  | .paren inner => [.group .parenthesis (typeTokens inner)]
  | .group inner => typeTokens inner
  | .tuple elements => [.group .parenthesis (elementsTokens elements)]
  | .reference lifetime isMutable inner =>
    referenceTokens lifetime isMutable ++ typeTokens inner
  | .pointer isMutable inner =>
    [.mark '*' false, .word (if isMutable then "mut" else "const")] ++ typeTokens inner
  | .slice inner => [.group .bracket (typeTokens inner)]
  | .array inner length => [.group .bracket (typeTokens inner ++ .mark ';' false :: length)]
  | .never => [.mark '!' false]
  | .hole => [.word "_"]
  | .other written => written.map apart

/-- The types of a tuple, each with a comma. -/
def elementsTokens : List Ty → Tokens
  | [] => []
  | t :: rest => typeTokens t ++ .mark ',' false :: elementsTokens rest

def pathTokens : Path → Tokens
  | .mk isGlobal segments => segmentsTokens isGlobal segments

/-- Segments with double colons between them, and perhaps before the first. -/
def segmentsTokens (isAfter : Bool) : List Segment → Tokens
  | [] => []
  | s :: rest =>
    (if isAfter then doubleColon else []) ++ (segmentTokens s ++ segmentsTokens true rest)

def segmentTokens : Segment → Tokens
  | .mk name arguments => .word name :: argumentsTokens arguments

/-- Generic arguments, lifetimes first. -/
def argumentsTokens : GenericArguments → Tokens
  | .none => []
  | .angled turbofish arguments isTrailed =>
    (if turbofish then doubleColon else []) ++ (.mark '<' false ::
      (commaTokens (argumentTokens true arguments ++ argumentTokens false arguments) ++
        (if isTrailed then [.mark ',' false] else []) ++ [.mark '>' false]))

/-- The lifetimes among generic arguments, or all the others. -/
def argumentTokens (lifetimes : Bool) : List GenericArgument → List Tokens
  | [] => []
  | .lifetime name :: rest =>
    if lifetimes then [.mark '\'' true, .word name] :: argumentTokens lifetimes rest
    else argumentTokens lifetimes rest
  | .type t :: rest =>
    if lifetimes then argumentTokens lifetimes rest
    else typeTokens t :: argumentTokens lifetimes rest
  | .other written :: rest =>
    if lifetimes then argumentTokens lifetimes rest
    else written.map apart :: argumentTokens lifetimes rest

end

/-! ## Documents -/

variable {ι : Type}

/-- Types in parentheses; a comma follows a type that is alone. -/
def tupleDoc : List (Doc ι) → Doc ι
  | [d] =>
    Doc.join
      ["(", Doc.block step .consistent
        (Doc.join [Doc.space 0, d, ",", [.gap { offset := -step }]]), ")"]
  | ds => Doc.delimited "(" ")" ds

/-- What stands before the type that is referred to. -/
def referenceMarks (lifetime : Option String) (isMutable : Bool) : String :=
  let name := match lifetime with
    | some l => "'" ++ l ++ " "
    | none => ""
  "&" ++ name ++ (if isMutable then "mut " else "")

mutual

/-- A type as it is written among generic arguments. -/
def typeDoc : Ty → Doc ι
  | .path p => pathDoc false p
  | .qualified _ written => tokensText false written
  | .paren inner => Doc.join ["(", typeDoc inner, ")"]
  | .group inner => typeDoc inner
  | .tuple elements => tupleDoc (typeDocs elements)
  | .reference lifetime isMutable inner =>
    Doc.join [referenceMarks lifetime isMutable, typeDoc inner]
  | .pointer isMutable inner =>
    Doc.join [if isMutable then "*mut " else "*const ", typeDoc inner]
  | .slice inner => Doc.join ["[", typeDoc inner, "]"]
  | .array inner length => Doc.join ["[", typeDoc inner, "; " ++ tokensText true length ++ "]"]
  | .never => "!"
  | .hole => "_"
  | .other written => tokensText false written

def typeDocs : List Ty → List (Doc ι)
  | [] => []
  | t :: rest => typeDoc t :: typeDocs rest

/-- A path, in an expression or among types. -/
def pathDoc (inExpression : Bool) : Path → Doc ι
  | .mk isGlobal segments => segmentsDoc inExpression isGlobal segments

/-- Segments with double colons between them, and perhaps before the first. -/
def segmentsDoc (inExpression isAfter : Bool) : List Segment → Doc ι
  | [] => []
  | s :: rest =>
    Doc.join
      [if isAfter then "::" else [], segmentDoc inExpression s, segmentsDoc inExpression true rest]

def segmentDoc (inExpression : Bool) : Segment → Doc ι
  | .mk name arguments => Doc.join [name, argumentsDoc inExpression arguments]

/-- Generic arguments, lifetimes first. -/
def argumentsDoc (inExpression : Bool) : GenericArguments → Doc ι
  | .none => []
  | .angled _ [] _ => []
  | .angled _ arguments _ =>
    Doc.join
      [ if inExpression then "::" else [],
        Doc.delimited "<" ">" (argumentDocs true arguments ++ argumentDocs false arguments) ]

/-- The lifetimes among generic arguments, or all the others. -/
def argumentDocs (lifetimes : Bool) : List GenericArgument → List (Doc ι)
  | [] => []
  | .lifetime name :: rest =>
    if lifetimes then ("'" ++ name : String) :: argumentDocs lifetimes rest
    else argumentDocs lifetimes rest
  | .type t :: rest =>
    if lifetimes then argumentDocs lifetimes rest
    else typeDoc t :: argumentDocs lifetimes rest
  | .other written :: rest =>
    if lifetimes then argumentDocs lifetimes rest
    else tokensText false written :: argumentDocs lifetimes rest

end

def callDoc (callee : Doc ι) (arguments : List (Doc ι)) : Doc ι :=
  Doc.join [callee, Doc.delimited "(" ")" arguments]

/-! ## Calls -/

/-- Splits tokens at the first equals sign that stands in no angle brackets. -/
def splitAtEquals : (depth : Nat) → Tokens → Tokens × Tokens
  | _, [] => ([], [])
  | depth, .mark '-' true :: .mark '>' joint :: rest =>
    (splitAtEquals depth rest).map (.mark '-' true :: .mark '>' joint :: ·) id
  | depth, .mark c joint :: rest =>
    if c = '=' && depth == 0 then ([], rest)
    else
      let inner := if c = '<' then depth + 1 else if c = '>' then depth - 1 else depth
      (splitAtEquals inner rest).map (.mark c joint :: ·) id
  | depth, t :: rest => (splitAtEquals depth rest).map (t :: ·) id

/-- The segments up to one with a single binding for its argument and without a double colon, what
is bound and to what, and the segments after it. -/
def splitAtBinding : List Segment → Option (List Segment × Tokens × Tokens × List Segment)
  | [] => none
  | .mk name (.angled false [.other written] _) :: rest =>
    let (left, right) := splitAtEquals 0 written
    some ([.mk name .none], left, right, rest)
  | s :: rest => (splitAtBinding rest).map fun found => (s :: found.1, found.2)

/-- Two operands of a comparison. -/
def comparisonDoc (left : Doc ι) (operator : String) (right : Doc ι) : Doc ι :=
  Doc.block step .inconsistent <| Doc.join
    [Doc.block (-step) .inconsistent left, Doc.space 1, operator ++ " ", right]

/-- Arguments as an operand: alone in parentheses, or a tuple. -/
def operandDoc (arguments : List (Doc ι)) : Doc ι :=
  match arguments with
  | [d] => Doc.join ["(", d, ")"]
  | ds => Doc.delimited "(" ")" ds

/-- A call of the function with a path. Where angle brackets stand without a double colon, there is
no call: the brackets compare, and what would be a binding assigns. -/
def callOf : Path → List (Doc ι) → Doc ι
  | .mk isGlobal segments, arguments =>
    match splitAtBinding segments with
    | none => callDoc (pathDoc true (.mk isGlobal segments)) arguments
    | some (before, left, right, after) =>
      let last := match after with
        | [] => operandDoc arguments
        | _ => callDoc (pathDoc true (.mk true after)) arguments
      Doc.join
        [ comparisonDoc (pathDoc true (.mk isGlobal before)) "<" (tokensText false left), " = ",
          Doc.joint, comparisonDoc (tokensText false right) ">" last ]

end CommandDispatch.Dispatcher
