import MiniJava.Outcome
import MiniJava.Program.Print

/-!
# The command line — arguments and what a run prints

Arguments are one file and any of three flags, in any order; `--` ends the flags. A run that is
asked for tokens or for the program prints them and ends; a run that is asked for neither opens the
viewer. It fails if anything that it printed had errors.
-/

namespace MiniJava

namespace CommandLine

/-- What a run is asked to do. -/
structure Options where
  file : String
  tokens : Bool
  print : Bool
  recover : Bool
deriving DecidableEq, Repr, Inhabited

/-- What the arguments ask for. -/
inductive Request where
  | run (options : Options)
  | help
  | version
  | misuse
deriving DecidableEq, Repr, Inhabited

/-- What has been read of the arguments. -/
structure Reading where
  file? : Option String
  tokens : Bool
  print : Bool
  recover : Bool
deriving DecidableEq, Repr, Inhabited

namespace Reading

/-- Before the first argument. -/
def initial : Reading := ⟨none, false, false, false⟩

/-- Takes the file, of which there is one; its name is not empty. -/
def takeFile (r : Reading) (name : String) : Option Reading :=
  if r.file?.isSome || name == "" then none else some { r with file? := some name }

/-- Takes a flag, which is given at most once. -/
def takeFlag (r : Reading) : String → Option Reading
  | "--tokens" => if r.tokens then none else some { r with tokens := true }
  | "--print" => if r.print then none else some { r with print := true }
  | "--recover" => if r.recover then none else some { r with recover := true }
  | _ => none

/-- The request at the end of the arguments. -/
def finish (r : Reading) : Request :=
  match r.file? with
  | some file => .run ⟨file, r.tokens, r.print, r.recover⟩
  | none => .misuse

/-- Arguments behind `--` are files. -/
def readFiles (r : Reading) : List String → Request
  | [] => r.finish
  | arg :: rest =>
    match r.takeFile arg with
    | some r => readFiles r rest
    | none => .misuse

/-- Reads arguments from the left; asking for help or the version ends the reading. What follows the
letter of one of these two in the same argument is not looked at. -/
def read (r : Reading) : List String → Request
  | [] => r.finish
  | arg :: rest =>
    if arg = "--" then r.readFiles rest
    else if arg = "--help" || arg.startsWith "-h" then .help
    else if arg = "--version" || arg.startsWith "-V" then .version
    else
      match if arg.startsWith "-" && arg != "-" then r.takeFlag arg else r.takeFile arg with
      | some r => read r rest
      | none => .misuse

end Reading

/-- What the arguments ask for. -/
def request (args : List String) : Request := Reading.initial.read args

/-- What a run writes to its two outputs, and whether it succeeds. -/
structure Output where
  stdout : String
  stderr : String
  success : Bool
deriving DecidableEq, Repr, Inhabited

namespace Output

/-- One output behind another; both have to succeed. -/
def append (a b : Output) : Output :=
  ⟨a.stdout ++ b.stdout, a.stderr ++ b.stderr, a.success && b.success⟩

/-- Nothing. -/
def none : Output := ⟨"", "", true⟩

/-- The exit code of a run with this output. -/
def exitCode (o : Output) : UInt32 := if o.success then 0 else 1

theorem exitCode_eq_zero_iff (o : Output) : o.exitCode = 0 ↔ o.success = true := by
  cases h : o.success <;> simp [exitCode, h]

end Output

/-- Texts as lines. -/
def unlines (texts : List String) : String := String.join (texts.map (· ++ "\n"))

/-- The tokens of a text and its lexical errors. -/
def tokenListing (source : String) : Output :=
  let lexed := tokenize source
  ⟨unlines (lexed.tokens.map Token.listing), unlines (lexed.errors.map LexicalError.rendered),
    lexed.errors.isEmpty⟩

/-- A program printed, or what is wrong with it. -/
def programListing (source : String) (policy : ErrorPolicy) : Output :=
  match parse source policy with
  | .ok program => ⟨program.print, "", true⟩
  | .error diagnostics => ⟨"", unlines (diagnostics.entries.map (·.2)), false⟩

/-- The policy that a run is asked for. -/
def Options.policy (o : Options) : ErrorPolicy := if o.recover then .recover else .failFast

/-- The viewer is asked for, since nothing is to be printed. -/
def Options.interactive (o : Options) : Bool := !o.tokens && !o.print

/-- What a run prints for the text of its file. -/
def Options.output (o : Options) (source : String) : Output :=
  (if o.tokens then tokenListing source else .none).append
    (if o.print then programListing source o.policy else .none)

/-! ## Texts -/

/-- The name of the program and its version. -/
def versionText : String := "minijava 0.1.0\n"

/-- How the program is used. -/
def helpText : String :=
  unlines [
    "A MiniJava front-end: hand-written lexer, precedence-climbing parser and a terminal syntax " ++
      "viewer",
    "",
    "Usage: minijava [OPTIONS] <FILE>",
    "",
    "Arguments:",
    "  <FILE>  MiniJava source file",
    "",
    "Options:",
    "      --tokens   Print the token stream and lexical errors, then exit",
    "      --print    Pretty-print the syntax tree (or the diagnostics), then exit",
    "      --recover  Keep parsing after a syntax error and report every problem",
    "  -h, --help     Print help",
    "  -V, --version  Print version"]

/-- Why a file could not be read. -/
inductive FileFault where
  | missing (name : String)
  | notText
  | directory
deriving DecidableEq, Repr, Inhabited

namespace FileFault

/-- The fault in words. -/
def message : FileFault → String
  | missing name => "Error: File '" ++ name ++ "' not found"
  | notText =>
    "Error: Error \x7b kind: InvalidData, message: \"stream did not contain valid UTF-8\" \x7d"
  | directory =>
    "Error: Os \x7b code: 21, kind: IsADirectory, message: \"Is a directory\" \x7d"

/-- What a run prints that could not read its file. -/
def output (f : FileFault) : Output := ⟨"", unlines [f.message], false⟩

end FileFault

/-- What is at the name of the file. -/
inductive FileContent where
  | absent
  | directory
  | bytes (content : ByteArray)

/-- The text of a file, or why there is none. -/
def FileContent.text (name : String) : FileContent → Except FileFault String
  | absent => .error (.missing name)
  | directory => .error .directory
  | bytes content =>
    match String.fromUTF8? content with
    | some text => .ok text
    | none => .error .notText

/-- What a run prints, given what is at the name of its file. -/
def Options.run (o : Options) (content : FileContent) : Output :=
  match content.text o.file with
  | .ok source => o.output source
  | .error fault => fault.output

end CommandLine

end MiniJava
