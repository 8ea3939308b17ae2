import DatalogStrata.Files.Path

/-!
# Command line options

The tool takes one program, or the word `all`. With `--dot` a diagram goes to a file, or to the
console for a dash; with `--html` the diagram stands on a page. After a double dash every argument
is a program. The first argument that asks for help or the version, or that does not fit, settles
the matter.

## Main definitions

* `Options` — an accepted command line
* `Options.parse` — read a command line, or tell why not
* `Options.programName` — how the program is called in messages
* `Options.helpText`, `Options.versionText` — what is shown in the place of a run
-/

namespace DatalogStrata

/-- An accepted command line. -/
structure Options where
  /-- The path of the program, or `all`. -/
  program : String
  /-- Where the diagram goes, if one is asked for. -/
  dot : Option String
  /-- Whether the diagram stands on a page. -/
  html : Bool
deriving DecidableEq, Repr

/-- Why no program is run. -/
inductive Refusal where
  | usage
  | help
  | version
deriving DecidableEq, Repr

/-- How far a command line has been read. -/
structure OptionReader where
  program : Option String
  dot : Option String
  html : Bool
  /-- Whether the value of `--dot` must come next. -/
  awaitsTarget : Bool
  /-- Whether a double dash has been seen. -/
  onlyPrograms : Bool
deriving DecidableEq, Repr

namespace OptionReader

/-- Before the first argument. -/
def start : OptionReader :=
  ⟨none, none, false, false, false⟩

/-- Take the program; there is only one. -/
def takeProgram (reader : OptionReader) (argument : String) : Except Refusal OptionReader :=
  if reader.awaitsTarget || reader.program.isSome then .error .usage
  else .ok { reader with program := some argument }

/-- Take the target of the diagram; there is only one. -/
def takeTarget (reader : OptionReader) (target : String) : Except Refusal OptionReader :=
  if reader.dot.isSome then .error .usage
  else .ok { reader with dot := some target, awaitsTarget := false }

/-- Take an option by its name, with the value after an equals sign if there is one. -/
def takeOption (reader : OptionReader) (name : String) (value : Option String) :
    Except Refusal OptionReader :=
  if reader.awaitsTarget then .error .usage
  else
    match name, value with
    | "dot", some target => reader.takeTarget target
    | "dot", none => .ok { reader with awaitsTarget := true }
    | "html", none => if reader.html then .error .usage else .ok { reader with html := true }
    | "help", none => .error .help
    | "version", none => .error .version
    | _, _ => .error .usage

/-- Take an argument with a single dash, by its first letter. -/
def takeLetter (reader : OptionReader) (letter : Char) : Except Refusal OptionReader :=
  if reader.awaitsTarget then .error .usage
  else if letter = 'h' then .error .help
  else if letter = 'V' then .error .version
  else .error .usage

/-- Split an option after the first equals sign. -/
def splitOption (option : List Char) : String × Option String :=
  match option.dropWhile (· ≠ '=') with
  | _ :: value => (String.ofList (option.takeWhile (· ≠ '=')), some (String.ofList value))
  | [] => (String.ofList option, none)

/-- Take an argument. -/
def take (reader : OptionReader) (argument : String) : Except Refusal OptionReader :=
  if reader.onlyPrograms then reader.takeProgram argument
  else
    match argument.toList with
    -- A dash alone is no option: it falls through to the last case.
    | ['-', '-'] => .ok { reader with onlyPrograms := true }
    | '-' :: '-' :: option =>
      let (name, value) := splitOption option
      reader.takeOption name value
    | '-' :: letter :: _ => reader.takeLetter letter
    | _ =>
      if reader.awaitsTarget then reader.takeTarget argument else reader.takeProgram argument

/-- The options, once all arguments have been taken. A page needs a target. -/
def finish (reader : OptionReader) : Except Refusal Options :=
  match reader.program with
  | some program =>
    if reader.awaitsTarget || (reader.html && reader.dot.isNone) then .error .usage
    else .ok ⟨program, reader.dot, reader.html⟩
  | none => .error .usage

end OptionReader

namespace Options

/-- Read the arguments of a command line, without the name of the tool. -/
def parse (arguments : List String) : Except Refusal Options := do
  (← arguments.foldlM OptionReader.take OptionReader.start).finish

/-- Whether all example programs are asked for. -/
def wantsAll (options : Options) : Bool :=
  options.program = "all" || options.program = "--all"

/-- The file name of the program without extension. -/
def programName (options : Options) : String :=
  (Path.stem? options.program).getD "unknown_program"

/-- The version of the tool. -/
def versionText : String :=
  "common 0.1.0\n"

/-- How the tool is called. -/
def usageText : String :=
  "Usage: stratifier [OPTIONS] <PROGRAM>\n"

/-- What the tool is for, how it is called, and what its arguments mean. -/
def helpText : String :=
  "Shared CLI arguments and batch reporting for the stratifier tools\n\n" ++ usageText ++
    "\nArguments:\n" ++
    "  <PROGRAM>  Path of the JSON program, or \"all\" to process all example files\n" ++
    "\nOptions:\n" ++
    "      --dot <PATH>  Write the precedence graph as DOT to PATH. " ++
    "If PATH is `-` then stdout is used\n" ++
    "      --html        Wrap the `--dot` output in a standalone HTML viewer page\n" ++
    "  -h, --help        Print help\n" ++
    "  -V, --version     Print version\n"

end Options

end DatalogStrata
