import CommandDispatch.Arguments.Slice
import CommandDispatch.Dispatcher.Statement

/-!
# What a dispatcher does

The statements of a dispatcher run in a scope of variables. A later binding of a name hides an
earlier one, and a statement that reads a name which is not bound to what it needs is stuck.

* `Dispatcher.find` is the search in the table of commands,
* `Dispatcher.start` runs `start` up to the call of a function, or to the error that it returns,
* `Dispatcher.run` performs the call as well.
-/

namespace CommandDispatch.Dispatcher

open Arguments Command

/-- What an argument of a function is bound to. -/
inductive Bound where
  | required (v : Value)
  | optional (v : Option Value)
deriving Repr, DecidableEq

/-- What a variable holds. -/
inductive Variable (ι : Type) where
  | tokens (ts : List String)
  | text (s : String)
  | variant (v : ι)
  | flags (f : FlagMap)
  | argument (b : Bound)

abbrev Scope (ι : Type) := List (ι × Variable ι)

/-- Running statements: they may return an error, and they may be stuck. -/
abbrev Run (α : Type) := ExceptT DispatchError Option α

/-- A statement that cannot go on. -/
def stuck {α : Type} : Run α :=
  ExceptT.mk none

/-- Goes on with a value if there is one. -/
def orStuck {α : Type} : Option α → Run α
  | some a => pure a
  | none => stuck

section

variable {ι : Type} [DecidableEq ι]

namespace Scope

def get? (scope : Scope ι) (name : ι) : Option (Variable ι) :=
  List.lookup name scope

def tokens (scope : Scope ι) (name : ι) : Run (List String) :=
  match scope.get? name with
  | some (.tokens ts) => pure ts
  | _ => stuck

def text (scope : Scope ι) (name : ι) : Run String :=
  match scope.get? name with
  | some (.text s) => pure s
  | _ => stuck

def variant (scope : Scope ι) (name : ι) : Run ι :=
  match scope.get? name with
  | some (.variant v) => pure v
  | _ => stuck

def flags (scope : Scope ι) (name : ι) : Run FlagMap :=
  match scope.get? name with
  | some (.flags f) => pure f
  | _ => stuck

def argument (scope : Scope ι) (name : ι) : Run Bound :=
  match scope.get? name with
  | some (.argument b) => pure b
  | _ => stuck

end Scope

/-! ## The table -/

/-- Searches a key between two positions of a table that is sorted by its keys. -/
def searchRows (rows : Array (Row ι)) (key : String) (low high : Nat) : Option ι :=
  if _h : low < high then
    match rows[(low + high) / 2]? with
    | none => none
    | some row =>
      match compare row.key key with
      | .lt => searchRows rows key ((low + high) / 2 + 1) high
      | .gt => searchRows rows key low ((low + high) / 2)
      | .eq => some row.variant
  else none
termination_by high - low

def find (d : Dispatcher ι) (name : String) : Option ι :=
  searchRows d.rows.toArray (Text.lower name) 0 d.rows.length

/-! ## Statements -/

def convert (kind : TextKind) (raw label : String) : Run Value :=
  match kind.convert raw label with
  | .ok v => pure v
  | .error e => throw (.conversion e)

def Binding.run (flags positionals : ι) (scope : Scope ι) : Binding ι → Run (Scope ι)
  | positional name kind index label => do
    let raw ← orStuck (← scope.tokens positionals)[index]?
    let v ← convert kind raw label
    return (name, .argument (.required v)) :: scope
  | flag name raw kind key label => do
    match (← scope.flags flags)[key]? with
    | some given =>
      let inner : Scope ι := (raw, .text given) :: scope
      let v ← convert kind (← inner.text raw) label
      return (name, .argument (.optional (some v))) :: scope
    | none => return (name, .argument (.optional none)) :: scope
  | absent name => return (name, .argument (.optional none)) :: scope

/-- A call of a function. -/
structure Call where
  target : String
  arguments : List Bound
  /-- An error of the function is an error of the command. -/
  mayFail : Bool
deriving Repr, DecidableEq

/-- What `start` comes to if it returns no error by itself. -/
inductive Action where
  /-- Prints the usage text. -/
  | usage
  | call (c : Call)
deriving Repr, DecidableEq

/-- What a statement comes to: the next one runs in a scope, or there is a result. -/
inductive Progress (ι α : Type) where
  | next (scope : Scope ι)
  | done (a : α)

/-- Runs statements one after the other, up to one that has a result. -/
def runAll {α β : Type} (run : Scope ι → α → Run (Progress ι β)) : Scope ι → List α → Run β
  | _, [] => stuck
  | scope, first :: others => do
    match ← run scope first with
    | .next inner => runAll run inner others
    | .done b => return b

def ArmStatement.run (scope : Scope ι) : ArmStatement ι → Run (Progress ι Call)
  | require positionals count => do
    let found := (← scope.tokens positionals).length
    if found < count then throw (.argument (.notEnough count found))
    return .next scope
  | bind flags positionals binding => return .next (← binding.run flags positionals scope)
  | finish target _ names error => do
    let arguments ← names.mapM scope.argument
    return .done { target, arguments, mayFail := error.isSome }

/-- Runs a statement of `start`, for a dispatcher in which commands are found. -/
def Statement.run (d : Dispatcher ι) (scope : Scope ι) : Statement ι → Run (Progress ι Action)
  | takeFirst name input => do
    match ← scope.tokens input with
    | [] => throw (.argument .insufficient)
    | first :: _ => return .next ((name, .text first) :: scope)
  | readText name => return .next ((name, .text (← scope.text name)) :: scope)
  | answerHelp name => do
    if Text.sameUpToAsciiCase (← scope.text name) helpName then return .done .usage
    return .next scope
  | findTarget target name => do
    let text ← scope.text name
    match d.find text with
    | none => throw (.argument (.noMatchingTarget text))
    | some v => return .next ((target, .variant v) :: scope)
  | cut flags positionals input => do
    match slice (← scope.tokens input).tail with
    | .error e => throw (.tokenize e)
    | .ok sliced =>
      return .next
        ((positionals, .tokens sliced.positionals) :: (flags, .flags sliced.flags) :: scope)
  | choose target arms => do
    let v ← scope.variant target
    let arm ← orStuck (arms.find? fun arm => arm.1 = v)
    return .done (.call (← runAll ArmStatement.run scope arm.2))

/-- Runs `start` on raw arguments up to the call of a function. -/
def start (d : Dispatcher ι) (arguments : List String) : Run Action :=
  runAll (Statement.run d) [(d.startNames.input, .tokens arguments)]
    (d.startNames.statements d.arms)

end

/-! ## Effects -/

/-- What a function leaves behind: what it notes about its call, what it prints, and its error. -/
structure Effect (ρ : Type) where
  calls : List ρ
  printed : String := ""
  failure : Option String := none

/-- What a run leaves behind. -/
structure Outcome (ρ : Type) where
  calls : List ρ := []
  printed : String := ""
  error : Option DispatchError := none

/-- Performs an action, with the meaning of the functions by their paths. -/
def perform {ρ : Type} (functions : String → List Bound → Effect ρ) (usage : String) :
    Action → Outcome ρ
  | .usage => { printed := usage }
  | .call c =>
    let effect := functions c.target c.arguments
    { calls := effect.calls
      printed := effect.printed
      error := if c.mayFail then effect.failure.map .command else none }

/-- Runs `start` on raw arguments. There is no outcome if a statement is stuck. -/
def run {ι ρ : Type} [DecidableEq ι] (functions : String → List Bound → Effect ρ)
    (d : Dispatcher ι) (arguments : List String) : Option (Outcome ρ) :=
  match (d.start arguments).run with
  | none => none
  | some (.error e) => some { error := some e }
  | some (.ok action) => some (perform functions d.usage action)

end CommandDispatch.Dispatcher
