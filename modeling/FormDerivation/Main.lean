import FormDerivation.CommandLine.Execution

/-!
The program: reads the files of the request and the environment, prints the outcome and ends with
its status.
-/

namespace FormDerivation.CommandLine

def readFiles : List String → IO (List (String × String))
  | [] => return []
  | path :: rest => do
    let others ← readFiles rest
    try
      return (path, ← IO.FS.readFile path) :: others
    catch _ => return others

def variablesOf (block : String) : List (String × String) :=
  (Text.splitAtChar '\x00' block.toList).filterMap fun entry =>
    let name := entry.takeWhile (· != '=')
    match entry.drop name.length with
    | _ :: value => some (String.ofList name, String.ofList value)
    | [] => none

def readEnvironment : IO (List (String × String)) := do
  try
    return variablesOf (← IO.FS.readFile "/proc/self/environ")
  catch _ => return []

end FormDerivation.CommandLine

open FormDerivation.CommandLine in
def main (arguments : List String) : IO UInt32 := do
  let files ← readFiles (((Request.parse? arguments).map Request.files).getD [])
  let outcome := run arguments ⟨files, ← readEnvironment⟩
  (← IO.getStdout).putStr outcome.output
  if let some complaint := outcome.complaint then
    (← IO.getStderr).putStrLn ("Error: " ++ complaint)
  return outcome.status.toUInt32
