/-!
# Log records

* `LogLevel`, `LogSource`, `LogRecord` : what the simulator says while it works;
* `LogRecord.line` : one record as a line of text; `LogLevel.atLeast` : which records a reader
  wants.
-/

namespace FiveStage

/-- How important a record is. -/
inductive LogLevel where
  | debug | info | warn
  deriving DecidableEq, Repr, Inhabited

namespace LogLevel

/-- Place in the order of importance. -/
def rank : LogLevel → Nat
  | debug => 0
  | info => 1
  | warn => 2

/-- Whether a record of this level passes a threshold. -/
def atLeast (l threshold : LogLevel) : Bool := threshold.rank ≤ l.rank

/-- The word a line starts with. -/
def text : LogLevel → String
  | debug => "DEBUG"
  | info => "INFO"
  | warn => "WARN"

end LogLevel

/-- The part of the simulator that speaks. -/
inductive LogSource where
  | settings | loader | session | memory | pipeline | hazard | stage
  deriving DecidableEq, Repr, Inhabited

/-- The label of a source, as lines show it. -/
def LogSource.label : LogSource → String
  | settings => "sim_lib::flags"
  | loader => "sim_lib::loader"
  | session => "sim_lib::run_wrapper"
  | memory => "sim_lib::memory"
  | pipeline => "sim_lib::pipelined"
  | hazard => "sim_lib::pipelined::hazard"
  | stage => "sim_lib::pipelined::stages"

/-- One thing said. -/
structure LogRecord where
  level : LogLevel
  source : LogSource
  text : String
  deriving DecidableEq, Repr, Inhabited

/-- Records in the order they were made. -/
abbrev Log := List LogRecord

namespace LogRecord

/-- A record as a line of text. -/
def line (r : LogRecord) : String := r.level.text ++ " [" ++ r.source.label ++ "] " ++ r.text

end LogRecord

/-- The records that pass a threshold. -/
def Log.filtered (threshold : LogLevel) (log : Log) : Log :=
  log.filter fun r => r.level.atLeast threshold

end FiveStage
