import PojoGraph.Document.Read

/-!
# Commands

A command line names a command, and options before and after it. An option stands for itself, as
one argument with its value (`--input=a`, `-ia`, `-i=a`), or before its value.

## Main definitions

* `Command`, `Invocation` — what a command line asks for.
* `Invocation.parse?` — the invocation of a command line.
-/

namespace PojoGraph

/-- What can be asked for. -/
inductive Command where
  /-- Counts and warnings of a run. -/
  | validate (input : Option String)
  /-- The report of a run. -/
  | inspect (input : Option String) (format : Format)
  /-- A new configuration file. -/
  | init (force : Bool)
  deriving DecidableEq, Repr, Inhabited

/-- A command and the path of its settings. -/
structure Invocation where
  config : String
  command : Command
  deriving DecidableEq, Repr, Inhabited

/-! ## Options -/

/-- The options. -/
inductive Flag where
  | config
  | input
  | format
  | force
  deriving DecidableEq, Repr, Inhabited

namespace Flag

/-- The option of a long name. -/
def ofName? : String → Option Flag
  | "config" => some config
  | "input" => some input
  | "format" => some format
  | "force" => some force
  | _ => none

/-- The option of a letter. -/
def ofLetter? : Char → Option Flag
  | 'c' => some config
  | 'i' => some input
  | _ => none

/-- Whether a value belongs to the option. -/
def takesValue : Flag → Bool
  | force => false
  | _ => true

end Flag

/-- An argument. -/
inductive Argument where
  | word (text : String)
  /-- An option, with its value if that is part of the argument. -/
  | flag (flag : Flag) (value : Option String)
  /-- The sign behind which there are no more options. -/
  | separator
  /-- What looks like an option and is none. -/
  | unknown
  deriving DecidableEq, Repr, Inhabited

namespace Argument

/-- An argument as written. -/
def ofText (text : String) : Argument :=
  match text.toList with
  | ['-', '-'] => separator
  | '-' :: '-' :: cs =>
    let (name, value) := match Text.splitOnce '=' cs with
      | some (name, value) => (name, some (String.ofList value))
      | none => (cs, none)
    (Flag.ofName? (String.ofList name)).elim unknown (flag · value)
  | '-' :: letter :: cs =>
    let value := match cs with
      | [] => none
      | '=' :: value => some (String.ofList value)
      | value => some (String.ofList value)
    (Flag.ofLetter? letter).elim unknown (flag · value)
  | _ => word text

end Argument

/-- The options of one level of a command line; none may be given twice. -/
structure GivenFlags where
  config : Option String := none
  input : Option String := none
  format : Option Format := none
  force : Bool := false
  deriving DecidableEq, Repr, Inhabited

namespace GivenFlags

/-- A path, which is not empty, in a place where none is yet. -/
def path? (place : Option String) (value : String) : Option (Option String) :=
  if place.isNone && !value.isEmpty then some (some value) else none

/-- The options with one more that takes a value. -/
def set? (given : GivenFlags) (flag : Flag) (value : String) : Option GivenFlags :=
  match flag with
  | .config => (path? given.config value).map fun config => { given with config }
  | .input => (path? given.input value).map fun input => { given with input }
  | .format =>
    match given.format, value with
    | none, "yaml" => some { given with format := some .yaml }
    | none, "json" => some { given with format := some .json }
    | _, _ => none
  | .force => none

/-- The options with one more that takes no value. -/
def raise? (given : GivenFlags) : Flag → Option GivenFlags
  | .force => if given.force then none else some { given with force := true }
  | _ => none

/-- Reads options of which only some are allowed, up to the first other argument. -/
def read? (allowed : List Flag) (given : GivenFlags) :
    List String → Option (GivenFlags × List String)
  | [] => some (given, [])
  | argument :: rest =>
    match Argument.ofText argument with
    | .word _ | .separator => some (given, argument :: rest)
    | .unknown => none
    | .flag flag value =>
      if !allowed.contains flag then none
      else if !flag.takesValue then
        if value.isSome then none else (given.raise? flag).bind (read? allowed · rest)
      else match value, rest with
        | some value, rest => (given.set? flag value).bind (read? allowed · rest)
        | none, [] => none
        | none, next :: rest =>
          match Argument.ofText next with
          | .word value => (given.set? flag value).bind (read? allowed · rest)
          | _ => none

end GivenFlags

/-! ## Command lines -/

namespace Invocation

/-- The path of the settings where none is given. -/
def defaultConfig : String :=
  ".dtogen.yaml"

/-- The options behind the name of a command, where nothing else may stand. -/
def readRest? (allowed : List Flag) (arguments : List String) : Option GivenFlags := do
  match ← GivenFlags.read? (.config :: allowed) {} arguments with
  | (given, []) | (given, ["--"]) => some given
  | _ => none

/-- The options that a command has, and the command that they make of it. -/
def command? : String → Option (List Flag × (GivenFlags → Command))
  | "validate" => some ([.input], fun given => .validate given.input)
  | "inspect" => some ([.input, .format], fun given => .inspect given.input (given.format.getD .yaml))
  | "init" => some ([.force], fun given => .init given.force)
  | _ => none

/-- The invocation of a command line. The path of the settings may be given before and after the
name of the command; what stands after it counts. -/
def parse? (arguments : List String) : Option Invocation := do
  match ← GivenFlags.read? [.config] {} arguments with
  | (_, []) => none
  | (before, name :: rest) =>
    let (allowed, command) ← command? name
    let given ← readRest? allowed rest
    some {
      config := ((given.config <|> before.config)).getD defaultConfig
      command := command given }

end Invocation

end PojoGraph
