import FiveStage.Files.Spool
import FiveStage.Program.Session

/-!
# Comparing caches

Runs programs under several caches and tabulates what they cost. A program may be the table itself,
so it matters when which part of the table is in its file.

* `csvField`, `csvLine` : a table as lines of fields between commas;
* `evaluatedGeometries` : the caches compared, the first of which is none at all;
* `evaluationRow` : one run as a line of the table;
* `Comparing` : runs, with the table and the lines printed so far;
* `evaluate` : the whole command.
-/

namespace FiveStage

/-! ## The table -/

/-- The byte of an ASCII character. -/
def asciiByte (c : Char) : Byte := BitVec.ofNat 8 c.toNat

/-- A field of a table, in pieces that stay together. One that holds a comma, a quote or a line
break stands between quotes, with its own quotes doubled; the two of them are one piece. -/
def csvField (s : String) : List (Array Byte) :=
  let quote := asciiByte '"'
  let bytes := (textBytes s).toList
  if bytes.any fun b => b ∈ [',', '"', '\n', '\r'].map asciiByte then
    #[quote] :: bytes.map (fun b => if b = quote then #[quote, quote] else #[b]) ++ [#[quote]]
  else bytes.map fun b => #[b]

/-- One line of a table. -/
def csvLine (fields : List String) : List (Array Byte) :=
  [#[asciiByte ',']].intercalate (fields.map csvField) ++ [#[asciiByte '\n']]

/-- The titles of the columns. -/
def evaluationTitles : List String :=
  ["Program", "Cache", "Status", "Cycles", "Instructions", "CPI", "Hits", "Misses",
    "Dirty evictions", "Clean evictions"]

/-- The caches compared: ways, bytes in a block, bytes in all, cycles of a miss. -/
def evaluatedRequests : List GeometryRequest :=
  [⟨1, 8, 8, 2⟩, ⟨4, 8, 32, 4⟩, ⟨1, 32, 64, 8⟩, ⟨2, 8, 64, 8⟩, ⟨4, 32, 512, 100⟩]

/-- The geometries compared. -/
def evaluatedGeometries : List (Option Geometry) :=
  none :: evaluatedRequests.filterMap fun r => r.check.toOption.map some

/-- The name of a cache in the table. -/
def geometryLabel : Option Geometry → String
  | none => "none"
  | some g =>
    "/".intercalate
      [decimal g.ways, decimal g.blockSize, decimal g.capacity, decimal g.latency]

/-- The fields of a run. -/
def evaluationRow (program : String) (g : Option Geometry) (result : Except ElfError Simulation) :
    List String :=
  [program, geometryLabel g] ++
    match result with
    | .error _ => List.replicate 8 "Error"
    | .ok s =>
      let n := s.counters
      let c := s.bus.counters.getD ⟨0, 0, 0, 0⟩
      [s.core.status.text, decimal n.cycles, decimal n.retired,
        fixedFloat 3 n.cyclesPerInstruction, decimal c.hits, decimal c.misses,
        decimal c.dirtyEvictions, decimal c.cleanEvictions]

/-! ## The command -/

/-- Where the table goes. -/
def evaluationDirectory : String := "eval"

/-- The file of the table. -/
def evaluationFile : String := "eval/sim_eval.csv"

/-- What a comparison has done so far. -/
structure Comparison where
  table : Spool
  /-- The lines printed. -/
  said : List String
  deriving DecidableEq

variable {m : Type → Type} [Monad m] [Files m]

/-- A part of a comparison. It fails if the table cannot be written. -/
abbrev Comparing (m : Type → Type) := ExceptT FileError (StateT Comparison m)

namespace Comparing

/-- Prints some lines. -/
def say (lines : List String) : Comparing m Unit :=
  modify fun c => { c with said := c.said ++ lines }

/-- Replaces what is in the file of the table. -/
def store (bytes : Array Byte) : Comparing m Unit :=
  ExceptT.mk (StateT.lift (Files.writeBytes evaluationFile bytes))

/-- Adds a line to the table. Its file grows whenever the buffer is full. -/
def addLine (fields : List String) : Comparing m Unit := do
  let before := (← get).table
  let after := before.pushAll (csvLine fields)
  modify fun c => { c with table := after }
  if before.stored.size < after.stored.size then store after.stored

/-- Runs a program under one cache. -/
def runOne (program : String) (g : Option Geometry) : Comparing m Unit := do
  let contents ← ExceptT.lift (StateT.lift (Files.readBytes program))
  let (result, log) := perform program contents { Settings.default with geometry := g } false
  say ((Log.filtered .warn log).map LogRecord.line)
  match result with
  | .ok _ => pure ()
  | .error e => say ["Warning: Failed to run program '" ++ program ++ "': " ++ e.loadMessage]
  addLine (evaluationRow program g result)

/-- Runs a program under every cache. -/
def runAll (program : String) : Comparing m Unit := do
  say ["Running program: " ++ program]
  evaluatedGeometries.forM (runOne program)

/-- The whole table. The file is emptied before the first program runs, and completed after the last
one. -/
def tabulate (programs : List String) : Comparing m Unit := do
  store #[]
  addLine evaluationTitles
  programs.forM runAll
  store (← get).table.all

end Comparing

/-- The command that compares caches. -/
def evaluate (programs : List String) : m Outcome :=
  if programs = [] then pure ⟨2, [], ["Usage: sim-eval <program.elf>..."]⟩
  else do
    match ← Files.makeDirectory evaluationDirectory with
    | .error e => pure ⟨1, [], ["Error: IO error: " ++ e.message]⟩
    | .ok () =>
      match ← (Comparing.tabulate programs).run.run ⟨.empty, []⟩ with
      | (.ok (), c) => pure ⟨0, [], c.said⟩
      | (.error e, c) => pure ⟨1, [], c.said ++ ["Error: CSV error: " ++ e.message]⟩

end FiveStage
