import FiveStage.Log
import FiveStage.Memory.Cache.Basic
import FiveStage.Trace.Operation

/-!
# Replaying traces

* `Cache.replayOne`, `Cache.replay` : accesses through a cache alone, in which a miss brings in
  zeros at once;
* `Cache.replayLogged` : the same, with what is said about the lines thrown out.
-/

namespace FiveStage

namespace Cache

variable {g : Geometry}

/-- One access, and the line it throws out. -/
def replayOne (c : Cache g) (o : Operation) : Option (Evicted g) × Cache g :=
  match c.probe o.address o.kind with
  | (true, c) => (none, c)
  | (false, c) =>
    let (out, c) := c.fill o.address o.kind []
    (some out, c)

/-- Accesses one after the other. -/
def replay (c : Cache g) (ops : List Operation) : Cache g :=
  ops.foldl (fun c o => (c.replayOne o).2) c

/-- What an access says about the line it throws out, if that line was valid. -/
def evictionLog : Option (Evicted g) → Log
  | some out =>
    if out.valid then
      [⟨.debug, .session,
        "evicted " ++ (if out.dirty then "dirty" else "clean") ++ " line " ++ out.address.hex⟩]
    else []
  | none => []

/-- Accesses one after the other, after some have spoken already, the last one first. -/
def replayLogged (said : Log) (c : Cache g) : List Operation → Log × Cache g
  | [] => (said.reverse, c)
  | o :: rest =>
    let (out, c) := c.replayOne o
    replayLogged ((evictionLog out).reverse ++ said) c rest

theorem replayLogged_snd (said : Log) (c : Cache g) (ops : List Operation) :
    (replayLogged said c ops).2 = c.replay ops := by
  induction ops generalizing said c with
  | nil => rfl
  | cons o rest ih => exact ih _ _

end Cache

end FiveStage
