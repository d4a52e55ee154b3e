import Gathering.Rehearsal.Play
import Gathering.Service

/-!
# Scenes

A scene is a service in a world, with a second scheduler on the same tasks and
perhaps a sweeper of its own. Programs of the service are played in the scene,
and the stores can be called past everything that goes wrong.
-/

namespace Gathering.Rehearsal

/-- **A service in a world.** -/
structure Scene where
  /-- The world. -/
  world : World
  /-- The service. -/
  service : Service
  /-- Another scheduler on the same tasks. -/
  second : Scheduler
  /-- The number of the sweeper that was started beside the service. -/
  sweeper : Option Nat := none

namespace Scene

variable {α : Type}

/-- The scene at the beginning: a service that is new, with nothing in its stores. -/
def begin (config : Config) (now : Instant) (silent : Bool) : Scene where
  world := { wall := now, silent }
  service := { config, schedulerId := "scheduler-1" }
  second := ⟨"scheduler-2", config.scheduler⟩

/-- Plays a program; nothing if it does not end. -/
def play (s : Scene) (program : Work α) (callOffAfter : Option Nat := none) : Option (α × Scene) :=
  match Rehearsal.play program callOffAfter s.world with
  | (some a, world) => some (a, { s with world })
  | (none, _) => none

/-- Calls the store of tasks directly. -/
def tasks (s : Scene) (call : TaskStore.Call) : Except Error call.Answer × Scene :=
  let (r, world) := s.world.performTasks call
  (r, { s with world })

/-- Calls the store of events and participants directly. -/
def roster (s : Scene) (call : Roster.Call) : Except Error call.Answer × Scene :=
  let (r, world) := s.world.callRoster call
  (r, { s with world })

/-- Calls the history of locations directly. -/
def trail (s : Scene) (call : Trail.Call) : Except Error call.Answer × Scene :=
  let (r, world) := s.world.callTrail call
  (r, { s with world })

/-- Calls the cache directly. -/
def cache (s : Scene) (call : Cache.Call) : Except Error call.Answer × Scene :=
  let (r, world) := s.world.callCache call
  (r, { s with world })

/-- The cached value of a key, read as JSON. -/
def cachedJson (s : Scene) (key : String) : Except Error (Option Json.Value) :=
  match s.world.cache.get? s.world.clock key with
  | none => .ok none
  | some bytes =>
    match Json.Value.ofBytes? bytes with
    | some v => .ok (some v)
    | none => .error .serialization

/-- Changes the world. -/
def arrange (s : Scene) (change : World → World) : Scene :=
  { s with world := change s.world }

/-- Lets time pass; nothing if it takes too long. -/
def sleep (s : Scene) (nanos : Nat) : Option Scene :=
  match Rehearsal.sleep nanos s.world with
  | (some (), world) => some { s with world }
  | (none, _) => none

/-- Starts the service. -/
def startService (s : Scene) : Option (Except Error Unit × Scene) := do
  let (r, s) ← s.play s.service.start.run
  match r with
  | .ok service => return (.ok (), { s with service })
  | .error e => return (.error e, s)

/-- Shuts the service down. -/
def shutDownService (s : Scene) : Option Scene := do
  let (service, s) ← s.play s.service.shutdown
  return { s with service }

/-- Starts a sweeper beside the service. -/
def startSweeper (s : Scene) (scheduler : Scheduler) (c : SweeperConfig) : Scene :=
  let (number, world) := s.world.startSweeper scheduler c
  { s with world, sweeper := some number }

/-- Whether the sweeper beside the service was told to stop. -/
def sweeperDone? (s : Scene) : Option Bool :=
  (s.sweeper.bind (s.world.sweepers[·]?)).map (·.stopped)

/-- Stops the sweeper beside the service and waits for it; says whether it has stopped, if there is
one. -/
def stopSweeper (s : Scene) : Option (Option Bool × Scene) :=
  match s.sweeper with
  | none => some (none, s)
  | some number => do
    let (ended, s) ← s.play (Program.call (Effect.stopSweeper number none))
    return (some ended, { s with sweeper := none })

/-- Forgets what was written down about sends and leases. -/
def forgetLogs (s : Scene) : Scene :=
  s.arrange fun w => { w with sent := [], leases := [] }

end Scene

end Gathering.Rehearsal
