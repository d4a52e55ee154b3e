import Gathering.Request

/-!
# The service

A service has one sweeper in the background. It is **new** until it is started,
**running** until it is shut down, and **closed** after that. It starts only if
the cache answers; a start that fails leaves it new. Starting a service that is
not new, or closing one that is closed, does nothing.
-/

namespace Gathering

/-- Where a service stands. -/
inductive ServiceState where
  /-- Not started yet. -/
  | fresh
  /-- Started, with its sweeper's number. -/
  | running (sweeper : Nat)
  /-- Shut down. -/
  | closed
  deriving DecidableEq, Repr

/-- **A service**: its settings, its scheduler and where it stands. -/
structure Service where
  /-- Its settings. -/
  config : Config
  /-- The name of its scheduler. -/
  schedulerId : String
  /-- Where it stands. -/
  state : ServiceState := .fresh

namespace Service

/-- The scheduler of a service. -/
def scheduler (s : Service) : Scheduler := ⟨s.schedulerId, s.config.scheduler⟩

/-- **Starts a service**, if it is new and the cache answers. -/
def start (s : Service) : Job Service :=
  match s.state with
  | .fresh => do
    Job.cache .ping
    let sweeper ← ExceptT.lift (Program.call (Effect.startSweeper s.scheduler s.config.sweeper))
    return { s with state := .running sweeper }
  | _ => return s

/-- **Shuts a service down**, and waits a bounded time for its sweeper. -/
def shutdown (s : Service) : Work Service :=
  match s.state with
  | .closed => return s
  | .fresh => return { s with state := .closed }
  | .running sweeper => do
    let _ ← Program.call (Effect.stopSweeper sweeper (some shutdownTimeout))
    return { s with state := .closed }

end Service

end Gathering
