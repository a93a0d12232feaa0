import FiveStage.Pipeline.Simulation
import FiveStage.Text.Quoted
import FiveStage.Text.Unsigned

/-!
# The command line

* `Flag`, `Setting` : the flags, and what one of them says with its value;
* `ArgumentError` : why a command line is refused; asking for help is one of the reasons;
* `collect` : the file and the settings, in the order of the words;
* `Arguments`, `Arguments.ofWords` : a command line read as a whole.
-/

namespace FiveStage

/-- The flags that say something about a run, in the order of the help text. -/
inductive Flag where
  | checkpoint | limit | history | backend | ways | blockSize | capacity | latency | verbose
  deriving DecidableEq, Repr

/-- What a flag says. -/
inductive Setting where
  | checkpoint (path : String)
  | limit (cycles : Word)
  | history
  | backend (b : Backend)
  | ways (n : Word)
  | blockSize (n : Word)
  | capacity (n : Word)
  | latency (n : Word)
  | verbose
  deriving DecidableEq, Repr

/-- The flag of a setting. -/
def Setting.flag : Setting → Flag
  | checkpoint _ => .checkpoint
  | limit _ => .limit
  | history => .history
  | backend _ => .backend
  | ways _ => .ways
  | blockSize _ => .blockSize
  | capacity _ => .capacity
  | latency _ => .latency
  | verbose => .verbose

namespace Flag

/-- All flags, in the order of the help text. -/
def all : List Flag :=
  [checkpoint, limit, history, backend, ways, blockSize, capacity, latency, verbose]

/-- The full name of a flag. -/
def long : Flag → String
  | checkpoint => "--checkpoint"
  | limit => "--limit"
  | history => "--history"
  | backend => "--implementation"
  | ways => "--associativity"
  | blockSize => "--block-size"
  | capacity => "--capacity"
  | latency => "--miss-latency"
  | verbose => "--verbose"

/-- The short name of a flag. -/
def short : Flag → Option String
  | checkpoint => some "-c"
  | limit => some "-l"
  | backend => some "-i"
  | verbose => some "-v"
  | _ => none

/-- The flag that a word names. -/
def ofWord? (w : String) : Option Flag := all.find? fun f => f.long == w || f.short == some w

end Flag

/-- The text that help shows. -/
def helpText : String :=
  "sim-args\n" ++
  "  ARM64 five-stage pipeline simulator.\n" ++
  "\n" ++
  "ARGS:\n" ++
  "    <elf_file>\n" ++
  "      Path to the ELF file to simulate.\n" ++
  "\n" ++
  "OPTIONS:\n" ++
  "    -c, --checkpoint <path>\n" ++
  "      Writes the final machine state to this file.\n" ++
  "\n" ++
  "    -l, --limit <cycles>\n" ++
  "      Maximum number of cycles to simulate (default 500).\n" ++
  "\n" ++
  "    --history\n" ++
  "      Enables history module, printing cycle and instruction counts after simulation.\n" ++
  "\n" ++
  "    -i, --implementation <backend>\n" ++
  "      Specifies the simulator implementation.\n" ++
  "      S: One thread, stages in reverse order (default)\n" ++
  "      P: One thread per stage\n" ++
  "\n" ++
  "    --associativity <ways>\n" ++
  "      Cache associativity. The four cache options go together.\n" ++
  "\n" ++
  "    --block-size <bytes>\n" ++
  "      Cache block size in bytes.\n" ++
  "\n" ++
  "    --capacity <bytes>\n" ++
  "      Cache capacity in bytes.\n" ++
  "\n" ++
  "    --miss-latency <cycles>\n" ++
  "      Extra cycles a cache miss takes.\n" ++
  "\n" ++
  "    -v, --verbose\n" ++
  "      Enables verbose mode, logging the pipeline every cycle.\n" ++
  "\n" ++
  "    -h, --help\n" ++
  "      Prints help information.\n"

/-! ## Values -/

/-- Why the value of a flag cannot be read. -/
inductive ValueError where
  | number (e : NumberError)
  | backend (word : String)
  deriving DecidableEq, Repr

/-- The text of a refusal. -/
def ValueError.message : ValueError → String
  | number e => e.message
  | backend w => "Invalid implementation: '" ++ w ++ "'. Expected 'S' or 'P'."

/-- The backend that a word names, in either case. The long s is a letter whose upper case is an
ordinary S. -/
def Backend.ofWord (w : String) : Except ValueError Backend :=
  match w.toList with
  | ['S'] | ['s'] | ['ſ'] => .ok .serial
  | ['P'] | ['p'] => .ok .parallel
  | _ => .error (.backend w)

/-- What a flag with a value says. -/
def Flag.withValue (f : Flag) (value : String) : Except ValueError Setting :=
  let number := (readUnsigned 10 value.toList).mapError ValueError.number
  match f with
  | .checkpoint => .ok (.checkpoint value)
  | .limit => number.map .limit
  | .backend => (Backend.ofWord value).map .backend
  | .ways => number.map .ways
  | .blockSize => number.map .blockSize
  | .capacity => number.map .capacity
  | .latency => number.map .latency
  | .history => .ok .history
  | .verbose => .ok .verbose

/-- What a flag says that takes no value. -/
def Flag.alone? : Flag → Option Setting
  | .history => some .history
  | .verbose => some .verbose
  | _ => none

/-! ## Reading -/

/-- Why a command line is refused. -/
inductive ArgumentError where
  | helpWanted
  | unexpectedFlag (word : String)
  | unexpectedArgument (word : String)
  | missingValue (word : String)
  | badValue (word : String) (cause : ValueError)
  | repeated (flag : Flag)
  | noFile
  deriving DecidableEq, Repr

/-- The text of a refusal, and of help. -/
def ArgumentError.message : ArgumentError → String
  | helpWanted => helpText
  | unexpectedFlag w => "unexpected flag: `" ++ w ++ "`"
  | unexpectedArgument w => "unexpected argument: " ++ quoted w
  | missingValue w => "expected a value for `" ++ w ++ "`"
  | badValue w cause => "can't parse `" ++ w ++ "`, " ++ cause.message
  | repeated f => "flag specified more than once: `" ++ f.long ++ "`"
  | noFile => "flag is required: `elf_file`"

/-- What has been read of a command line. -/
structure Given where
  file : Option String
  /-- The latest comes last. -/
  settings : List Setting
  deriving DecidableEq, Repr

namespace Given

/-- Nothing read yet. -/
def nothing : Given := ⟨none, []⟩

/-- A word that is no flag is the file; there is only one. -/
def addFile (g : Given) (w : String) : Except ArgumentError Given :=
  match g.file with
  | none => .ok { g with file := some w }
  | some _ => .error (.unexpectedArgument w)

/-- One more setting. -/
def addSetting (g : Given) (s : Setting) : Given := { g with settings := g.settings ++ [s] }

end Given

/-- Reads the words in order. A word that starts with a dash is a flag, and the word after a flag
that takes a value is its value, whatever it is; behind two dashes no word is a flag. -/
def collect : List String → Given → Except ArgumentError Given
  | [], g => .ok g
  | w :: rest, g =>
    if w = "--" then rest.foldlM Given.addFile g
    else if !w.startsWith "-" then
      match g.addFile w with
      | .error e => .error e
      | .ok g => collect rest g
    else if w = "-h" || w = "--help" then .error .helpWanted
    else
      match Flag.ofWord? w with
      | none => .error (.unexpectedFlag w)
      | some f =>
        match f.alone? with
        | some s => collect rest (g.addSetting s)
        | none =>
          match rest with
          | [] => .error (.missingValue w)
          | v :: rest =>
            match f.withValue v with
            | .error e => .error (.badValue w e)
            | .ok s => collect rest (g.addSetting s)

/-- A command line. -/
structure Arguments where
  file : String
  checkpoint : Option String
  limit : Option Word
  history : Bool
  backend : Option Backend
  ways : Option Word
  blockSize : Option Word
  capacity : Option Word
  latency : Option Word
  verbose : Bool
  deriving DecidableEq, Repr

/-- The command line that has been read, if no flag is repeated and there is a file. -/
def Given.arguments (g : Given) : Except ArgumentError Arguments :=
  match Flag.all.find? fun f => 1 < g.settings.countP fun s => s.flag = f with
  | some f => .error (.repeated f)
  | none =>
    match g.file with
    | none => .error .noFile
    | some file =>
      .ok
        { file := file
          checkpoint := g.settings.findSome? fun | .checkpoint p => some p | _ => none
          limit := g.settings.findSome? fun | .limit n => some n | _ => none
          history := g.settings.contains .history
          backend := g.settings.findSome? fun | .backend b => some b | _ => none
          ways := g.settings.findSome? fun | .ways n => some n | _ => none
          blockSize := g.settings.findSome? fun | .blockSize n => some n | _ => none
          capacity := g.settings.findSome? fun | .capacity n => some n | _ => none
          latency := g.settings.findSome? fun | .latency n => some n | _ => none
          verbose := g.settings.contains .verbose }

/-- The command line that some words stand for. -/
def Arguments.ofWords (ws : List String) : Except ArgumentError Arguments :=
  match collect ws .nothing with
  | .error e => .error e
  | .ok g => g.arguments

end FiveStage
