import CommandDispatch.Dispatcher.Evaluation
import CommandDispatch.Text.Quoted

/-!
# A small program

Seven functions that print what they do. Each notes its call as a line of text.
-/

namespace CommandDispatch.Sample.Demo

open Arguments Command Dispatcher Number Text

def required (name : String) (kind : TextKind) : Parameter :=
  ⟨some name, .readable kind, false⟩

def optional (name : String) (kind : TextKind) : Parameter :=
  ⟨some name, .readable kind, true⟩

def command (function exposed description : String) (arguments : List Parameter)
    (returns : List Kind) : Command where
  target := "::usercode::commands::" ++ function
  exposed
  description
  signature := { arguments, returns := returns.map fun kind => ⟨none, kind, false⟩ }

def commands : List Command :=
  [ command "repeat" "repeat" "Print hello COUNT times"
      [required "count" .int, optional "v" .bool] [.error],
    command "greet" "greet" "Greet someone, optionally loudly"
      [required "name" .string, optional "shout" .bool, optional "greeting" .string] [],
    command "divide" "div" "Divide two numbers"
      [required "a" .float32, required "b" .float32] [.readable .float32, .error],
    command "sum" "Sum" "Add the numbers FROM..TO"
      [required "from" .uint, required "to" .uint, optional "step" .uint] [.readable .uint],
    command "mix" "mix" "Two numbers with flags in between"
      [required "a" .int, optional "v" .bool, required "b" .uint, optional "s" .string] [],
    command "connect" "connect" ""
      [required "host" .string, ⟨some "session", .foreign, true⟩] [],
    command "ping" "ping" "" [] [] ]

def program : Program :=
  commands.foldl Program.insert { moduleName := "commands" }

/-! ## Texts of values -/

def boolText (b : Bool) : String :=
  if b then "true" else "false"

/-- The text of a value as it is printed. -/
def shown : Value → String
  | .int v => toString v
  | .uint v => toString v
  | .float32 v => v.text
  | .bool v => boolText v
  | .string v => v

/-- The text of a value as it is noted inside an option: strings are quoted. -/
def noted : Value → String
  | .string v => quoted v
  | v => shown v

def boundText : Bound → String
  | .required v => shown v
  | .optional (some v) => "Some(" ++ noted v ++ ")"
  | .optional none => "None"

def callText (function : String) (arguments : List Bound) : String :=
  function ++ "(" ++ ", ".intercalate (arguments.map boundText) ++ ")"

/-! ## The functions -/

def isTrue (b : Bound) : Bool :=
  b == .optional (some (.bool true))

/-- The sum of the numbers below an end, from a start in steps. -/
def sumBelow (start stop step : Nat) : Nat :=
  let count := (stop - start + step - 1) / step
  count * start + step * (count * (count - 1) / 2)

def repeatLimit : Int := 100

/-- The lines that are printed for a number of repetitions. -/
def repeated (count : Int) (isNumbered : Bool) : String :=
  String.join <| (List.range count.toNat).map fun i =>
    if isNumbered then toString (i + 1) ++ ": hello\n" else "hello\n"

/-- What a function prints, and its error. -/
def body (function : String) (arguments : List Bound) : String × Option String :=
  match function, arguments with
  | "repeat", [.required (.int count), verbose] =>
    if repeatLimit < count then
      ("", some ("refusing to repeat " ++ toString count ++ " times, the limit is " ++
        toString repeatLimit))
    else (repeated count (isTrue verbose), none)
  | "greet", [.required (.string name), shout, greeting] =>
    let opener := match greeting with
      | .optional (some (.string g)) => g
      | _ => "Hello"
    let line := opener ++ ", " ++ name ++ "!"
    ((if isTrue shout then upper line else line) ++ "\n", none)
  | "divide", [.required (.float32 a), .required (.float32 b)] =>
    if b.isZero then ("", some "division by zero") else ((a.div b).text ++ "\n", none)
  | "sum", [.required (.uint start), .required (.uint stop), step] =>
    let step := match step with
      | .optional (some (.uint s)) => max s 1
      | _ => 1
    (toString (sumBelow start stop step) ++ "\n", none)
  | "ping", [] => ("pong\n", none)
  | _, _ => ("", none)

/-- What a function notes. A handle cannot be shown, only that it is there. -/
def note (function : String) (arguments : List Bound) : String :=
  match function, arguments with
  | "connect", [host, session] =>
    "connect(" ++ boundText host ++ ", " ++ boolText (session != .optional none) ++ ")"
  | _, _ => callText function arguments

def functions (target : String) (arguments : List Bound) : Effect String :=
  let function := (target.splitOn "::").getLastD ""
  let (printed, failure) := body function arguments
  { calls := [note function arguments], printed, failure }

end CommandDispatch.Sample.Demo
