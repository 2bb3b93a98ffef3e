import FormDerivation.CommandLine.Arguments
import FormDerivation.Text.Quoted

/-!
The help of the command line: of the program as a whole and of each of its commands.
-/

namespace FormDerivation.CommandLine.Help

structure Entry where
  spelling : String
  meaning : String
  deriving DecidableEq, Repr

def width (entries : List Entry) : Nat :=
  entries.foldl (fun n entry => max n entry.spelling.length) 0

def padded (width : Nat) (s : String) : String :=
  s ++ String.ofList (List.replicate (width - s.length) ' ')

def table (entries : List Entry) : List String :=
  entries.map fun entry => padded (width entries + 2) entry.spelling ++ entry.meaning

def paragraphs (entries : List Entry) : List String :=
  (entries.map fun entry => [entry.spelling, "          " ++ entry.meaning]).intersperse [""]
    |>.flatten

def heading (title : String) (lines : List String) : List String :=
  if lines.isEmpty then [] else ["", title ++ ":"] ++ lines

def text (about usage : String) (sections : List (List String)) : String :=
  Text.joinWith "\n" ([about, "", "Usage: form-derive " ++ usage] ++ sections.flatten)

def verbose : Entry :=
  ⟨"      --verbose", "Log engine internals to stderr (RUST_LOG takes precedence)"⟩

/-! ## The program -/

def commands : List Entry :=
  [⟨"  derive", "Derive the form state for a tree and its inputs"⟩,
    ⟨"  validate", "Derive and fail when any visible field is invalid"⟩,
    ⟨"  operators", "Print the catalog of registered NoCode operators"⟩,
    ⟨"  references", "List element IDs referenced by each script, flagging unknown ones"⟩,
    ⟨"  schema", "Print a JSON schema"⟩,
    ⟨"  help", "Print this message or the help of the given subcommand(s)"⟩]

def program (long : Bool) : String :=
  let options (more : String) : List Entry :=
    [verbose, ⟨"  -h, --help", "Print help (see " ++ more ++ ")"⟩,
      ⟨"  -V, --version", "Print version"⟩]
  let usage := "[OPTIONS] <COMMAND>"
  if long then
    text ("Derives visibility, computed values and validation errors for a stored form tree " ++
        "and a set of inputs") usage
      [heading "Commands" (table commands),
        heading "Options" (paragraphs (options "a summary with '-h'"))]
  else
    text "Form derivation CLI" usage
      [heading "Commands" (table commands),
        heading "Options" (table (options "more with '--help'"))]

/-! ## Commands -/

def tree : Entry := ⟨"      --tree <TREE>", "Path to the form tree JSON"⟩

def inputs : Entry := ⟨"      --inputs <INPUTS>", "Path to the inputs JSON object"⟩

def globals : Entry :=
  ⟨"      --globals <GLOBALS>",
    "Optional JSON object of extra script globals, e.g. `\x7b\"form\": \x7b...\x7d\x7d`"⟩

def config : Entry :=
  ⟨"      --config <CONFIG>", "Engine configuration JSON; defaults apply when omitted"⟩

def format : Entry :=
  ⟨"      --format <FORMAT>", "Output format [default: json] [possible values: json, text, state]"⟩

def target : Entry := ⟨"  [TARGET]", "[default: config] [possible values: config, state]"⟩

def help : Entry := ⟨"  -h, --help", "Print help"⟩

def ofCommand (name usage : String) (arguments options : List Entry) : String :=
  let about := (commands.find? fun entry => entry.spelling == "  " ++ name).elim "" (·.meaning)
  text about (name ++ " [OPTIONS]" ++ usage)
    [heading "Arguments" (table arguments), heading "Options" (table (options ++ [help]))]

def command? : String → Option String
  | "derive" => ofCommand "derive" " --tree <TREE> --inputs <INPUTS>" []
    [tree, verbose, inputs, globals, config, format]
  | "validate" => ofCommand "validate" " --tree <TREE> --inputs <INPUTS>" []
    [tree, verbose, inputs, config]
  | "operators" => ofCommand "operators" "" [] [verbose]
  | "references" => ofCommand "references" " --tree <TREE>" [] [tree, verbose]
  | "schema" => ofCommand "schema" " [TARGET]" [target] [verbose]
  | _ => none

end FormDerivation.CommandLine.Help
