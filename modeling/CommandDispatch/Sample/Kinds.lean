import CommandDispatch.Sample.Demo

/-!
# A program with parameters of every kind

Functions with parameters of every kind, named and unnamed, with flags that share a key and names in
several scripts. Each notes its name and its arguments.
-/

namespace CommandDispatch.Sample.Kinds

open Arguments Command Dispatcher Number Sample.Demo

def unnamed (kind : TextKind) : Parameter :=
  ⟨none, .readable kind, false⟩

def command (path exposed description : String) (arguments : List Parameter)
    (returns : List Kind) : Command where
  target := "crate::extra" ++ path
  exposed
  description
  signature := { arguments, returns := returns.map fun kind => ⟨none, kind, false⟩ }

def commands : List Command :=
  [ command "::all" "All" "One of each kind"
      [ required "i" .int, required "u" .uint, required "f" .float32, required "b" .bool,
        required "s" .string ] [],
    command "::opts" "opts" "\"quoted\" \\ back\\n \x7bbraces\x7d %s 中文 'end'"
      [ optional "i" .int, optional "u" .uint, optional "f" .float32, optional "b" .bool,
        optional "s" .string ] [],
    command "::unnamed" "unnamed" ""
      [unnamed .int, required "n" .uint, unnamed .bool, optional "v" .bool] [],
    command "::fail" "fail" "" [required "message" .string, optional "how" .string] [.error],
    command "::pair" "Pair" "Checked addition" [required "a" .int, required "b" .int]
      [.readable .int, .readable .bool, .error],
    command "::io" "io" "" [required "path" .string] [.readable .string, .error],
    command "::twice" "twice" "" [optional "Flag" .bool, optional "flag" .string] [],
    command "::inter" "inter" ""
      [ optional "a" .int, required "b" .int, ⟨some "c", .foreign, true⟩, required "d" .bool,
        optional "e" .float32, required "f" .string ] [],
    command "::sisyphus" "ΣΊΣΥΦΟΣ" ""
      [optional "İx" .int, optional "Straße" .string, required "stone" .string] [],
    command "::kelvin" "\u212a" "" [required "t" .float32] [],
    command "::doit" "do-it!" "" [required "first-arg" .uint, optional "B=C" .bool]
      [.readable .uint],
    command "::r#match" "r#match" "" [required "r#type" .int, optional "r#in" .bool] [],
    command "::shapes::area" "AREA" "Width times height"
      [required "width" .float32, required "height" .float32, required "unit" .string]
      [.readable .float32, .readable .string],
    command "::shapes::helper" "helper" ""
      [required "words" .string, required "more" .string, optional "last" .string] [] ]

def program : Program :=
  commands.foldl Program.insert { moduleName := "extra_cli" }

/-- A call as it is noted: the function's name and its arguments. -/
structure Note where
  function : String
  arguments : List (Option Value)
deriving Repr, DecidableEq

def valueOf : Bound → Option Value
  | .required v => some v
  | .optional v => v

/-- The last part of a path, a raw name without its mark. -/
def functionName (target : String) : String :=
  let last := (target.splitOn "::").getLastD ""
  if last == "r#match" then "match" else last

/-- The arguments that a function notes. One ignores the arguments without names, and another can
only tell whether a value is there. -/
def notedArguments (function : String) (arguments : List Bound) : List (Option Value) :=
  match function, arguments with
  | "unnamed", [_, n, _, v] => [valueOf n, valueOf v]
  | "inter", [a, b, c, d, e, f] =>
    [ valueOf a, valueOf b, some (.bool (valueOf c).isSome), valueOf d, valueOf e, valueOf f ]
  | _, arguments => arguments.map valueOf

def overflows (a b : Int) : Bool :=
  a + b < Int64.minValue.toInt || Int64.maxValue.toInt < a + b

def failureOf (function : String) (arguments : List Bound) : Option String :=
  match function, arguments with
  | "fail", [.required (.string message), how] =>
    if how = .optional (some (.string "ok")) then none else some message
  | "pair", [.required (.int a), .required (.int b)] =>
    if overflows a b then some "overflow" else none
  | "io", [.required (.string path)] => if path.isEmpty then some "empty path" else none
  | _, _ => none

def functions (target : String) (arguments : List Bound) : Effect Note :=
  let function := functionName target
  { calls := [⟨function, notedArguments function arguments⟩]
    failure := failureOf function arguments }

end CommandDispatch.Sample.Kinds
