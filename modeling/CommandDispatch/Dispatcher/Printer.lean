import CommandDispatch.Dispatcher.Statement
import CommandDispatch.Dispatcher.Callee
import CommandDispatch.Text.Quoted

/-!
# The source text of a dispatcher

Each part of a dispatcher is laid out as a document over its names. Names have at most five letters,
so that the lines of the parts that are the same in every dispatcher are known beforehand.
-/

namespace CommandDispatch.Dispatcher

open Arguments Layout Source Text

variable {ι : Type}

/-! ## Documentation -/

/-- Whether comments are balanced, with the marks `/*` and `*/` read from the left; `depth` are open
before. -/
def isBalanced : (depth : Nat) → List Char → Bool
  | depth, '/' :: '*' :: rest => isBalanced (depth + 1) rest
  | depth, '*' :: '/' :: rest => depth != 0 && isBalanced (depth - 1) rest
  | depth, _ :: rest => isBalanced depth rest
  | depth, [] => depth == 0

def withoutSpaces (line : List Char) : List Char :=
  (line.reverse.dropWhile (· == ' ')).reverse

/-- The text without the spaces at the ends of its lines, the last excepted. -/
def withoutLineSpaces (s : List Char) : List Char :=
  let lines := pieces (· == '\n') s
  ['\n'].intercalate (lines.dropLast.map withoutSpaces ++ lines.getLast?.toList)

/-- Documentation before an item: a line comment if it is one line, a block comment if that can hold
it, and an attribute otherwise. -/
def documentation (s : String) : String :=
  let cs := s.toList
  if !cs.contains '\n' then "///" ++ s
  else if isBalanced 0 cs then "/**" ++ String.ofList (withoutLineSpaces cs) ++ "*/"
  else "#[doc = " ++ stringLiteral s ++ "]"

/-! ## Expressions and statements -/

/-- A method call on a receiver. If it does not fit, the method goes on the next line. -/
def methodDoc (receiver : Doc ι) (method : String) (arguments : List (Doc ι)) : Doc ι :=
  Doc.block step .consistent <| Doc.join
    [ receiver, Doc.space 0, "." ++ method,
      Doc.block 0 .consistent (Doc.delimited "(" ")" arguments) ]

/-- A receiver that is no call itself. -/
def receiverDoc (d : Doc ι) : Doc ι :=
  Doc.block (-step) .consistent d

def statement (d : Doc ι) : Doc ι :=
  Doc.block 0 .inconsistent d

def letDoc (pattern value : Doc ι) : Doc ι :=
  statement <| Doc.join ["let ", pattern, " = ", Doc.joint, value, ";"]

/-- A condition before a block. The space after it is a gap if the condition can end a line. -/
def conditionDoc (keyword : String) (condition : Doc ι) (mayBreak : Bool) : Doc ι :=
  Doc.join
    [ keyword,
      Doc.block (-step) .consistent <| Doc.block 0 .consistent <|
        Doc.join [condition, if mayBreak then Doc.space 1 else " "] ]

/-- A pattern with an expression. One that does not fit on the line goes into braces. -/
def armDoc (pattern value : Doc ι) : Doc ι :=
  Doc.block 0 .inconsistent <| Doc.join
    [ pattern, " => ", Doc.joint,
      Doc.block step .consistent <| Doc.join
        [ [.gap { before := "\x7b" }], value,
          [.gap { offset := -step, after := "\x7d", unbroken := "," }] ] ]

/-- A pattern with a block. -/
def blockArmDoc (pattern : Doc ι) (body : List (Doc ι)) : Doc ι :=
  Doc.block 0 .inconsistent <| Doc.braces (Doc.join [pattern, " => "]) body

def literalDoc (s : String) : Doc ι :=
  stringLiteral s

/-- A literal number of positions. -/
def countDoc (n : Nat) : Doc ι :=
  toString n ++ "usize"

def variantDoc (v : ι) : Doc ι :=
  Doc.join ["Target::", Doc.name v]

/-! ## Arms -/

/-- The function that converts a text, for the kinds that need one. -/
def converter? : TextKind → Option String
  | .int => some "::cligen_runtime::parse_int"
  | .uint => some "::cligen_runtime::parse_uint"
  | .float32 => some "::cligen_runtime::parse_f32"
  | .bool => some "::cligen_runtime::parse_bool"
  | .string => none

/-- The value of a text: converted, or a copy where the text is the value. -/
def valueDoc (kind : TextKind) (argument receiver : Doc ι) (label : String) : Doc ι :=
  match converter? kind with
  | some function => Doc.join [callDoc function [argument, literalDoc label], "?"]
  | none => methodDoc receiver "clone" []

def bindingDoc (flags positionals : ι) : Binding ι → Doc ι
  | .positional name kind index label =>
    let item := Doc.join ["[", countDoc index, "]"]
    letDoc (Doc.join [Doc.name name, ": " ++ kind.typeName])
      (valueDoc kind (Doc.join ["&", Doc.name positionals, item])
        (Doc.join [receiverDoc (Doc.name positionals), item]) label)
  | .flag name raw kind key label =>
    letDoc (Doc.join [Doc.name name, ": Option<" ++ kind.typeName ++ ">"])
      (Doc.braces
        (conditionDoc "match "
          (methodDoc (receiverDoc (Doc.name flags)) "get" [literalDoc key]) true)
        [ armDoc (Doc.join ["Some(", Doc.name raw, ")"])
            (callDoc "Some" [valueDoc kind (Doc.name raw) (receiverDoc (Doc.name raw)) label]),
          armDoc "None" "None" ])
  | .absent name => letDoc (Doc.name name) "None"

def failDoc (error : Doc ι) : Doc ι :=
  statement <| Doc.join ["return ", callDoc "Err" [error], ";"]

/-- The check that enough positionals are there. -/
def requireDoc (positionals : ι) (count : Nat) : Doc ι :=
  let found := Doc.join [Doc.name positionals, ".len()"]
  let error := receiverDoc <| Doc.braces "::cligen_runtime::ArgumentError::NotEnough "
    [Doc.join ["expected: ", countDoc count, ","], Doc.join ["found: ", found, ","]]
  let fail := Doc.join
    [ Doc.block step .consistent <| Doc.join
        [ "return Err(", Doc.newline 0,
          Doc.block step .consistent (Doc.join [error, Doc.newline 0, ".into(),"]),
          Doc.newline (-step) ],
      ");" ]
  statement <| Doc.braces (Doc.join ["if ", found, " < ", countDoc count, " "]) [fail]

/-- The call of a function, and what becomes of its error. -/
def invokeDoc (path : Path) (names : List ι) (error : Option ι) : Doc ι :=
  let call := callOf path (names.map Doc.name)
  match error with
  | none => letDoc "_" call
  | some e =>
    statement <| Doc.braces
      (conditionDoc "if " (Doc.join ["let Err(", Doc.name e, ") = ", Doc.joint, call]) false)
      [failDoc (callDoc "::cligen_runtime::DispatchError::command" [Doc.name e])]

/-- The source text of a statement of an arm. -/
def ArmStatement.docs : ArmStatement ι → List (Doc ι)
  | .require positionals count => [requireDoc positionals count]
  | .bind flags positionals binding => [bindingDoc flags positionals binding]
  | .finish _ path names error => [invokeDoc path names error, statement "Ok(())"]

/-! ## Statements of `start` -/

/-- The error for a name that no command has. -/
def noTargetDoc (name : ι) : Doc ι :=
  let text := methodDoc (receiverDoc (Doc.name name)) "to_owned" []
  let error := Doc.join
    [ receiverDoc "::cligen_runtime::ArgumentError::NoMatchingTarget",
      Doc.delimited "(" ")" [text] ]
  failDoc (methodDoc error "into" [])

/-- The source text of a statement of `start`. -/
def Statement.doc : Statement ι → Doc ι
  | .takeFirst name input =>
    Doc.join
      [ Doc.braces (Doc.join ["let Some(", Doc.name name, ") = ", Doc.name input, ".first() else "])
          ["return Err(::cligen_runtime::ArgumentError::Insufficient.into());"], ";" ]
  | .readText name => Doc.join ["let ", Doc.name name, ": &str = ", Doc.name name, ".as_ref();"]
  | .answerHelp name =>
    Doc.braces
      (Doc.join ["if ", Doc.name name, ".eq_ignore_ascii_case(", literalDoc Command.helpName, ") "])
      ["print!(\"\x7b\x7d\", USAGE);", "return Ok(());"]
  | .findTarget target name =>
    Doc.join
      [ Doc.braces
          (Doc.join ["let Some(", Doc.name target, ") = lookup(", Doc.name name, ") else "])
          [noTargetDoc name], ";" ]
  | .cut flags positionals input =>
    Doc.join
      [ "let (", Doc.name flags, ", ", Doc.name positionals, ") = ::cligen_runtime::slice(&",
        Doc.name input, "[1..])?;" ]
  | .choose target arms =>
    Doc.braces (Doc.join ["match ", Doc.name target, " "])
      (arms.map fun arm => blockArmDoc (variantDoc arm.1) (arm.2.flatMap ArmStatement.docs))

/-! ## Items -/

/-- A method of the commands that gives a text for each. -/
def textMethod (documentation name : String) (text : Row ι → String) (rows : List (Row ι)) :
    List (Doc ι) :=
  [ documentation,
    Doc.braces ("pub const fn " ++ name ++ "(self) -> &'static str ")
      [ Doc.braces "match self "
          (rows.map fun r => armDoc (variantDoc r.variant) (literalDoc (text r))) ] ]

/-- What a row's variant stands for. -/
def rowDocumentation (r : Row ι) : String :=
  documentation (" `" ++ r.exposed ++ "` calls `" ++ r.target ++ "`.")

def targetItems (rows : List (Row ι)) : List (Doc ι) :=
  [ "/// Every exposed command.",
    "#[derive(Clone, Copy, Debug, PartialEq, Eq, Hash)]",
    Doc.braces "pub enum Target "
      (rows.flatMap fun r => [rowDocumentation r, Doc.join [Doc.name r.variant, ","]]),
    Doc.braces "impl Target "
      (textMethod "/// Name users type." "name" (·.exposed) rows ++
        textMethod "/// One-line summary shown in `USAGE`." "description" (·.description) rows) ]

def tableItems (rows : List (Row ι)) : List (Doc ι) :=
  let row (r : Row ι) := Doc.delimited "(" ")" [literalDoc r.key, variantDoc r.variant]
  [ "/// Lower-cased command names, sorted for binary search.",
    Doc.block 0 .consistent <| Doc.join
      [ "pub static COMMANDS: &[(&str, Target)] = ", Doc.joint, "&",
        Doc.delimited "[" "]" (rows.map row), ";" ] ]

def lookupItems (l : LookupNames ι) : List (Doc ι) :=
  let search := Doc.join
    [ ".binary_search_by(|(", Doc.name l.row, ", _)| (*", Doc.name l.row, ").cmp(",
      Doc.name l.key, ".as_str()))" ]
  let target := Doc.join [".map(|", Doc.name l.index, "| COMMANDS[", Doc.name l.index, "].1)"]
  [ "/// Resolve a command name, ignoring case.",
    Doc.braces (Doc.join ["pub fn lookup(", Doc.name l.name, ": &str) -> Option<Target> "])
      [ Doc.join ["let ", Doc.name l.key, " = ", Doc.name l.name, ".to_lowercase();"],
        Doc.block step .consistent <| Doc.join
          ["COMMANDS", Doc.newline 0, search, Doc.newline 0, ".ok()", Doc.newline 0, target] ] ]

def usageItem (usage : String) : Doc ι :=
  Doc.join ["pub const USAGE: &str = ", literalDoc usage, ";"]

def startHead (s : StartNames ι) : Doc ι :=
  Doc.join
    [ "pub fn start<S: AsRef<str>>(", Doc.joint,
      Doc.block 0 .consistent <| Doc.join
        [Doc.space 0, Doc.name s.input, ": &[S]", [.gap { offset := -step, before := "," }]],
      ") -> Result<(), ::cligen_runtime::DispatchError> " ]

def startItems (s : StartNames ι) (arms : List (Arm ι)) : List (Doc ι) :=
  [ "/// Run the command named by the first raw argument, passing it the rest.",
    Doc.braces (startHead s) ((s.statements arms).map Statement.doc) ]

/-- The warnings that a dispatcher may give rise to. -/
def allowedDoc : Doc ι :=
  let warning (w : String) : Doc ι := Doc.join [w ++ ",", Doc.newline 0]
  let warnings := ["dead_code", "unused_variables", "unreachable_code", "unreachable_patterns"]
  Doc.join
    [ Doc.block step .consistent <| Doc.join
        ["#[allow(", Doc.newline 0, warnings.flatMap warning, "clippy::all", Doc.newline (-step)],
      ")]" ]

def doc (d : Dispatcher ι) : Doc ι :=
  let summary :=
    "//! Dispatcher for " ++ toString d.rows.length ++ " command(s). Generated by cligen."
  Doc.block 0 .consistent <| Doc.join
    [ allowedDoc, Doc.newline 0,
      Doc.braces ("pub mod " ++ d.moduleName ++ " ")
        ([(summary : Doc ι)] ++ targetItems d.rows ++ tableItems d.rows ++
          lookupItems d.lookupNames ++ [usageItem d.usage] ++ startItems d.startNames d.arms),
      Doc.newline 0 ]

end CommandDispatch.Dispatcher
