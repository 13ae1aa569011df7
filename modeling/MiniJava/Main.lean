import MiniJava.CommandLine

/-!
# The program

Reads the arguments and the file, and hands both to `CommandLine`.
-/

namespace MiniJava.CommandLine

/-- What is at a name. The system has a code of its own for a directory that is read as a file. -/
def readContent (name : String) : IO FileContent := do
  try
    let content ← IO.FS.readBinFile name
    pure (.bytes content)
  catch
    | .inappropriateType _ 21 _ => pure .directory
    | _ => pure .absent

/-- Writes an output and gives its exit code. -/
def emit (o : Output) : IO UInt32 := do
  (← IO.getStdout).putStr o.stdout
  (← IO.getStderr).putStr o.stderr
  pure o.exitCode

/-- Does what the arguments ask for and gives the exit code. -/
def execute (args : List String) : IO UInt32 := do
  match request args with
  | .help => emit ⟨helpText, "", true⟩
  | .version => emit ⟨versionText, "", true⟩
  | .misuse => do
    (← IO.getStderr).putStr helpText
    pure 2
  | .run options => do
    let content ← readContent options.file
    match content.text options.file with
    | .error fault => emit fault.output
    | .ok source =>
      if options.interactive then emit ⟨"", "Error: the viewer needs a terminal\n", false⟩
      else emit (options.output source)

end MiniJava.CommandLine

def main (args : List String) : IO UInt32 := MiniJava.CommandLine.execute args
