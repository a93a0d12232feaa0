import FiveStage.Checkpoint
import FiveStage.Elf.Loader
import FiveStage.Pipeline.Crew
import FiveStage.Program.Arguments
import FiveStage.Text.Fixed

/-!
# Running a program from a file

* `Settings`, `Arguments.settings` : how a program is to be run; a cache that cannot be built is
  left out;
* `prepare` : the machine about to run what a file holds; `perform` : the machine after the run;
* `Simulation.historyLines` : the statistics of a run;
* `Outcome`, `simulate` : the whole command, with what it prints and the code it exits with.
-/

namespace FiveStage

/-- How a program is to be run. -/
structure Settings where
  backend : Backend
  limit : Nat
  geometry : Option Geometry
  /-- Print the statistics after the run. -/
  history : Bool
  deriving DecidableEq, Repr

/-- The settings of a run that asks for nothing. -/
def Settings.default : Settings := ⟨.serial, defaultLimit, none, false⟩

namespace Arguments

/-- The cache that a command line asks for, or why it cannot be built. -/
def geometry (a : Arguments) : Except GeometryError (Option Geometry) :=
  Geometry.ofParts a.ways a.blockSize a.capacity a.latency

/-- How a command line wants its program to be run. -/
def settings (a : Arguments) : Settings where
  backend := a.backend.getD Settings.default.backend
  limit := (a.limit.map BitVec.toNat).getD Settings.default.limit
  geometry :=
    match a.geometry with
    | .ok g => g
    | .error _ => none
  history := a.history

/-- What reading the settings says. -/
def settingsLog (a : Arguments) : Log :=
  match a.geometry with
  | .ok (some _) => []
  | .ok none => [⟨.info, .settings, "no cache configured"⟩]
  | .error e => [⟨.warn, .settings, e.message ++ "; running without a cache"⟩]

end Arguments

/-! ## Sessions -/

/-- The error of a session whose file cannot be loaded, in a sentence. -/
def ElfError.loadMessage (e : ElfError) : String := "Failed to load ELF file: " ++ e.message

/-- The machine about to run what a file holds, from what reading the file gave; and what is said on
the way. -/
def prepare (path : String) (contents : Except FileError (Array Byte)) (settings : Settings) :
    Except ElfError Simulation × Log :=
  match ObjectFile.open path contents with
  | .error e => (.error e, [])
  | .ok file =>
    match file.load with
    | .error e => (.error e, file.loadLog)
    | .ok image =>
      let bus := Bus.start image.memory image.segments settings.geometry
      let s := Simulation.start file.entry bus settings.backend settings.limit
      (.ok s,
        file.loadLog ++ [⟨.info, .session, "Initial SP: " ++ s.core.registers.sp.hex⟩])

/-- The machine after it has run what a file holds; and what is said on the way, cycle by cycle if
it is to be detailed. -/
def perform (path : String) (contents : Except FileError (Array Byte)) (settings : Settings)
    (detailed : Bool) : Except ElfError Simulation × Log :=
  match prepare path contents settings with
  | (.error e, log) => (.error e, log)
  | (.ok s, log) =>
    let (said, s) := s.runLogged detailed
    (.ok s, log ++ said)

/-- What a cache has counted, by name. -/
def CacheCounters.text (n : CacheCounters) : String :=
  "CacheHistory \x7b num_hit: " ++ decimal n.hits ++ ", num_miss: " ++ decimal n.misses ++
    ", num_dirty_evict: " ++ decimal n.dirtyEvictions ++ ", num_clean_evict: " ++
    decimal n.cleanEvictions ++ " \x7d"

namespace Simulation

/-- The statistics of a run. -/
def historyLines (s : Simulation) : List String :=
  let n := s.counters
  let cache :=
    match s.bus.cached with
    | none => []
    | some side =>
      [side.cache.counters.text, "miss rate = " ++ fixedFloat 4 side.cache.missRate]
  ([ "# cycles = " ++ decimal n.cycles,
      "# instructions = " ++ decimal n.retired,
      "CPI = " ++ fixedFloat 2 n.cyclesPerInstruction,
      "load-use stalls = " ++ decimal n.loadUseStalls ++ ", return stalls = " ++
        decimal n.returnStalls ++ ", mispredictions = " ++ decimal n.mispredictions,
      "memory stall cycles = " ++ decimal n.missStalls ] ++ cache).map ("[HISTORY] " ++ ·)

end Simulation

/-! ## The command -/

/-- What a command leaves behind: the code it exits with, and the lines it prints. -/
structure Outcome where
  code : Nat
  output : List String
  errors : List String
  deriving DecidableEq, Repr

variable {m : Type → Type} [Monad m] [Files m]

/-- Writes a checkpoint if one is asked for. -/
def saveCheckpoint (path : Option String) (s : Simulation) : m (Except FileError Unit) :=
  match path with
  | none => pure (.ok ())
  | some path => Files.writeBytes path (textBytes s.checkpoint)

/-- Runs a program as a command line asks. -/
def simulateWith (a : Arguments) : m Outcome := do
  let contents ← Files.readBytes a.file
  let (result, log) := perform a.file contents a.settings a.verbose
  let threshold := if a.verbose then LogLevel.debug else .info
  let said := (Log.filtered threshold (a.settingsLog ++ log)).map LogRecord.line
  match result with
  | .error e => pure ⟨1, [], said ++ ["Error: ElfLoadError(" ++ e.describe ++ ")"]⟩
  | .ok s =>
    let said := said ++ if a.history then s.historyLines else []
    match ← saveCheckpoint a.checkpoint s with
    | .ok () => pure ⟨0, [], said⟩
    | .error e => pure ⟨1, [], said ++ ["Error: " ++ e.describe]⟩

/-- The command that runs a program. Help is printed, and a command line that makes no sense is
refused with code 2. -/
def simulate (ws : List String) : m Outcome :=
  match Arguments.ofWords ws with
  | .error .helpWanted => pure ⟨0, [ArgumentError.helpWanted.message], []⟩
  | .error e => pure ⟨2, [], [e.message]⟩
  | .ok a => simulateWith a

end FiveStage
