/-!
The arguments of the command line.

`Request.parse?` reads them; what it refuses is a wrong usage.  An option is given once, as
`--name value` or `--name=value`, and a value that begins with a hyphen needs the second form.
-/

namespace FormDerivation.CommandLine

inductive OutputFormat where
  | json
  | text
  | state
  deriving DecidableEq, Repr

inductive SchemaTarget where
  | config
  | state
  deriving DecidableEq, Repr

inductive Request where
  | version
  | help (long : Bool)
  | commandHelp (command : String)
  | derive (tree inputs : String) (globals config : Option String) (format : OutputFormat)
  | validate (tree inputs : String) (config : Option String)
  | operators
  | references (tree : String)
  | schema (target : SchemaTarget)
  deriving DecidableEq, Repr

def OutputFormat.ofName? : String → Option OutputFormat
  | "json" => some .json
  | "text" => some .text
  | "state" => some .state
  | _ => none

def SchemaTarget.ofName? : String → Option SchemaTarget
  | "config" => some .config
  | "state" => some .state
  | _ => none

structure Given where
  options : List (String × String)
  verbose : Bool
  others : List String
  deriving DecidableEq, Repr

namespace Given

def none : Given :=
  ⟨[], false, []⟩

/-- An option with its value; a second one of a name and an empty value are refused. -/
def addOption? (given : Given) (name value : String) : Option Given :=
  if value == "" || (given.options.lookup name).isSome then .none
  else some { given with options := given.options ++ [(name, value)] }

def addVerbose? (given : Given) : Option Given :=
  if given.verbose then .none else some { given with verbose := true }

def option? (given : Given) (name : String) : Option String :=
  given.options.lookup name

end Given

def isOption (argument : String) : Bool :=
  argument.startsWith "-" && argument != "-"

def splitOption (argument : String) : String × Option String :=
  let cs := argument.toList.drop 2
  let name := cs.takeWhile (· != '=')
  match cs.drop name.length with
  | _ :: value => (String.ofList name, some (String.ofList value))
  | [] => (String.ofList name, none)

inductive Reading where
  | arguments (given : Given)
  | help
  | refused

def readArguments (names : List String) (given : Given) : List String → Reading
  | [] => .arguments given
  | "--" :: rest => .arguments { given with others := given.others ++ rest }
  | "--help" :: _ => .help
  | "-h" :: _ => .help
  | "--verbose" :: rest =>
    match given.addVerbose? with
    | some given => readArguments names given rest
    | none => .refused
  | argument :: rest =>
    if argument.startsWith "--" then
      let (name, value?) := splitOption argument
      if !names.contains name then .refused
      else
        match value?, rest with
        | some value, rest =>
          match given.addOption? name value with
          | some given => readArguments names given rest
          | none => .refused
        | none, value :: rest =>
          if isOption value then .refused
          else
            match given.addOption? name value with
            | some given => readArguments names given rest
            | none => .refused
        | none, [] => .refused
    else if isOption argument then .refused
    else readArguments names { given with others := given.others ++ [argument] } rest

namespace Request

def optionNames : String → Option (List String)
  | "derive" => some ["tree", "inputs", "globals", "config", "format"]
  | "validate" => some ["tree", "inputs", "config"]
  | "operators" => some []
  | "references" => some ["tree"]
  | "schema" => some []
  | _ => none

/-- A command with its options, unless one of those that it needs is missing. -/
def ofGiven? (command : String) (given : Given) : Option Request :=
  match command, given.others with
  | "derive", [] => do
    let format ← OutputFormat.ofName? ((given.option? "format").getD "json")
    some (.derive (← given.option? "tree") (← given.option? "inputs") (given.option? "globals")
      (given.option? "config") format)
  | "validate", [] => do
    some (.validate (← given.option? "tree") (← given.option? "inputs") (given.option? "config"))
  | "operators", [] => some .operators
  | "references", [] => do some (.references (← given.option? "tree"))
  | "schema", [] => some (.schema .config)
  | "schema", [target] => (SchemaTarget.ofName? target).map .schema
  | _, _ => none

/-- The request that the arguments stand for; `none` for a wrong usage. -/
def parseFrom? (given : Given) : List String → Option Request
  | [] => none
  | "--version" :: _ => some .version
  | "-V" :: _ => some .version
  | "--help" :: _ => some (.help true)
  | "-h" :: _ => some (.help false)
  | "--verbose" :: rest => (given.addVerbose?).bind fun given => parseFrom? given rest
  | ["help"] => some (.help true)
  | ["help", command] => (optionNames command).map fun _ => .commandHelp command
  | command :: rest => do
    match readArguments (← optionNames command) .none rest with
    | .arguments given => ofGiven? command given
    | .help => some (.commandHelp command)
    | .refused => none

def parse? (arguments : List String) : Option Request :=
  parseFrom? .none arguments

def files : Request → List String
  | .derive tree inputs globals config _ => [tree, inputs] ++ globals.toList ++ config.toList
  | .validate tree inputs config => [tree, inputs] ++ config.toList
  | .references tree => [tree]
  | _ => []

end Request

end FormDerivation.CommandLine
