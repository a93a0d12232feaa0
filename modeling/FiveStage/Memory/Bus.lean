import FiveStage.Log
import FiveStage.Memory.Sparse
import FiveStage.Memory.Cache.Basic

/-!
# The memory bus

What the pipeline sees of memory: instructions come straight from the backing store, data goes
through the cache if there is one.

* `Bus`, `CachedSide`, `Miss` : backing store, layout, and the cache with the miss it is waiting
  for;
* `CachedSide.route` : what becomes of a data access, before anything changes;
* `Bus.access` : one cycle's worth of a data access;
* `Bus.fetch` : the instruction at an address;
* `Bus.coherent` : memory as the program sees it, dirty lines laid over the backing store;
* `Bus.accessLog` : what an access says while it happens.
-/

namespace FiveStage

/-- A miss that waits out its latency. -/
structure Miss where
  address : Word
  kind : AccessKind
  remaining : Nat
  deriving DecidableEq, Repr

/-- A cache between the pipeline and the backing store. -/
structure CachedSide where
  geometry : Geometry
  cache : Cache geometry
  pending : Option Miss

/-- The memory interface of the pipeline. -/
structure Bus where
  memory : Memory
  segments : SegmentMap
  cached : Option CachedSide

/-- What an access has to say this cycle. -/
inductive Reply where
  /-- Done; the word is the loaded one, and zero for a store. -/
  | ready (value : Word)
  /-- A miss is still being serviced. -/
  | waiting
  deriving DecidableEq, Repr

/-- What becomes of an access that goes through the cache. -/
inductive Route where
  /-- The miss in flight was asked for again, with this many cycles left. -/
  | waits (remaining : Nat)
  /-- The miss in flight was asked for again and is over. -/
  | arrives
  /-- The block is present. -/
  | hits
  /-- The block is absent and takes time to come. -/
  | missStarts
  /-- The block is absent and comes at once. -/
  | missEnds
  deriving DecidableEq, Repr

/-! ## The cached side -/

namespace CachedSide

/-- A cache with nothing in it. -/
def start (g : Geometry) : CachedSide := ⟨g, Cache.empty g, none⟩

/-- What becomes of an access that is not a retry of the miss in flight. -/
def freshRoute (side : CachedSide) (a : Word) : Route :=
  if (side.cache.way? a).isSome then .hits
  else if side.geometry.latency = 0 then .missEnds
  else .missStarts

/-- What becomes of an access. One that asks for something other than the miss in flight is judged
as if there were none. -/
def route (side : CachedSide) (a : Word) (kind : AccessKind) : Route :=
  match side.pending with
  | some miss =>
    if miss.address = a ∧ miss.kind = kind then
      if miss.remaining ≤ 1 then .arrives else .waits (miss.remaining - 1)
    else side.freshRoute a
  | none => side.freshRoute a

/-- The miss in flight that an access abandons. -/
def abandoned (side : CachedSide) (a : Word) (kind : AccessKind) : Option Miss :=
  side.pending.filter fun miss => !(miss.address = a ∧ miss.kind = kind)

/-- The cache after it has been asked for an address. -/
def probed (side : CachedSide) (a : Word) (kind : AccessKind) : CachedSide :=
  { side with cache := (side.cache.probe a kind).2, pending := none }

/-- Loads from or stores into a block that is present. -/
def use (side : CachedSide) (a : Word) (kind : AccessKind) (v : Word) : Word × CachedSide :=
  match side.cache.way? a with
  | none => (0, side)
  | some w =>
    match kind with
    | .read =>
      let (value, c) := side.cache.readIn w a
      (value, { side with cache := c })
    | .write => (0, { side with cache := side.cache.writeIn w a v })

/-- Brings the block of an address in from the backing store. -/
def refill (side : CachedSide) (m : Memory) (a : Word) (kind : AccessKind) :
    Evicted side.geometry × CachedSide :=
  let block := m.readBytes (side.geometry.blockBase a) side.geometry.blockSize
  let (out, c) := side.cache.fill a kind block
  (out, { side with cache := c, pending := none })

/-- The backing store after a displaced block has been written back, if it has to be. -/
def writtenBack {g : Geometry} (m : Memory) (out : Evicted g) : Memory :=
  if out.valid && out.dirty then m.writeBytes out.address out.data.toList else m

/-- Ends a miss: the block comes in, a dirty victim goes out, and the access takes place. -/
def finish (side : CachedSide) (m : Memory) (a : Word) (kind : AccessKind) (v : Word) :
    Word × Memory × CachedSide :=
  let (out, filled) := side.refill m a kind
  let (value, used) := filled.use a kind v
  (value, writtenBack m out, used)

/-- One cycle's worth of an access through the cache. -/
def access (side : CachedSide) (m : Memory) (a : Word) (kind : AccessKind) (v : Word) :
    Reply × Memory × CachedSide :=
  match side.route a kind with
  | .waits n => (.waiting, m, { side with pending := some ⟨a, kind, n⟩ })
  | .arrives =>
    let (value, m, side) := side.finish m a kind v
    (.ready value, m, side)
  | .hits =>
    let (value, side) := (side.probed a kind).use a kind v
    (.ready value, m, side)
  | .missStarts =>
    (.waiting, m, { side.probed a kind with pending := some ⟨a, kind, side.geometry.latency⟩ })
  | .missEnds =>
    let (value, m, side) := (side.probed a kind).finish m a kind v
    (.ready value, m, side)

/-- The block that an access writes back. -/
def writeBack (side : CachedSide) (a : Word) (kind : AccessKind) : Option Word :=
  match side.route a kind with
  | .arrives | .missEnds =>
    let out := side.cache.displaced a
    if out.valid && out.dirty then some out.address else none
  | _ => none

end CachedSide

/-! ## The bus -/

namespace Bus

/-- A bus whose cache, if there is to be one, holds nothing. -/
def start (m : Memory) (segments : SegmentMap) (g : Option Geometry) : Bus :=
  ⟨m, segments, g.map CachedSide.start⟩

/-- Whether a miss is being waited for. -/
def missInFlight (b : Bus) : Bool := (b.cached.bind (·.pending)).isSome

/-- The counters of the cache. -/
def counters (b : Bus) : Option CacheCounters := b.cached.map (·.cache.counters)

/-- The instruction word at an address. -/
def fetch (b : Bus) (a : Word) : Except AccessError InstrWord :=
  (b.segments.checkFetch a).map fun () => b.memory.instrWord a

/-- Loads from or stores into the backing store. -/
def direct (b : Bus) (a : Word) (kind : AccessKind) (v : Word) : Word × Bus :=
  match kind with
  | .read => (b.memory.word a, b)
  | .write => (0, { b with memory := b.memory.setWord a v })

/-- One cycle's worth of a data access. A miss that takes `d > 0` cycles answers `waiting` and has
to be asked for again, with the same address, on each of the next `d` cycles; the last of them
completes it. Special addresses never go through the cache. -/
def access (b : Bus) (a : Word) (kind : AccessKind) (v : Word) : Except AccessError Reply × Bus :=
  match b.segments.checkData a kind with
  | .error e => (.error e, b)
  | .ok () =>
    match if isSpecial a then none else b.cached with
    | none =>
      let (value, b) := b.direct a kind v
      (.ok (.ready value), b)
    | some side =>
      let (reply, m, side) := side.access b.memory a kind v
      (.ok reply, { b with memory := m, cached := some side })

/-- Memory as the program sees it. -/
def coherent (b : Bus) : Memory :=
  match b.cached with
  | none => b.memory
  | some side => side.cache.dirtyLines.foldl (fun m (a, data) => m.writeBytes a data) b.memory

/-! ## The log -/

private def note (text : String) : LogRecord := ⟨.debug, .memory, text⟩

/-- What a data access says. -/
def accessLog (b : Bus) (a : Word) (kind : AccessKind) : Log :=
  match b.segments.checkData a kind with
  | .error _ => []
  | .ok () =>
    match if isSpecial a then none else b.cached with
    | none => []
    | some side =>
      let dropped := (side.abandoned a kind).toList.map fun miss =>
        note ("dropping stale in-flight access at " ++ miss.address.hex)
      let missed :=
        match side.route a kind with
        | .missStarts | .missEnds =>
          [note ("cache miss at " ++ a.hex ++ ", " ++ decimal side.geometry.latency ++
            " cycle(s)")]
        | _ => []
      let written := (side.writeBack a kind).toList.map fun address =>
        note ("writing back dirty line " ++ address.hex)
      dropped ++ missed ++ written

end Bus

end FiveStage
