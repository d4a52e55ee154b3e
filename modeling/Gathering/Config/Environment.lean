import Gathering.Config.Basic
import Gathering.Decimal.Reading
import Gathering.Text.Blank

/-!
# Settings from the environment

The settings of a process come from environment variables; a variable that is
not set leaves the default. A number is read with the blank space around it
removed, and one that cannot be read, or that its setter refuses, stops the
process with an error. The variables are read in a fixed order, and the first
error is the one that is reported.
-/

namespace Gathering

/-- The value of each environment variable that is set. -/
abbrev Environment := String → Option String

namespace Environment

/-- The number in a variable, if the variable is set. -/
def number {α : Type} (env : Environment) (name : String) (read : String → Option α) :
    Except Error (Option α) :=
  match env name with
  | none => .ok none
  | some raw =>
    match read (Text.trim raw) with
    | some value => .ok (some value)
    | none => .error (.config ("invalid value for " ++ name ++ ": " ++ raw))

/-- Changes settings by the number in a variable, if the variable is set. -/
def apply {α : Type} (env : Environment) (name : String) (read : String → Option α)
    (change : Config → α → Except Error Config) (c : Config) : Except Error Config := do
  match ← env.number name read with
  | none => return c
  | some value => change c value

/-- Sets the interval between sweeps to a positive number of seconds. -/
def setSweepInterval (c : Config) (secs : Nat) : Except Error Config :=
  if secs = 0 then .error (.config "MUSTER_SWEEP_INTERVAL_SECS must be positive")
  else .ok { c with sweeper := c.sweeper.setInterval (.ofSeconds secs) }

/-- Sets how many tasks one sweep takes on. -/
def setSweepBatch (c : Config) (n : Nat) : Except Error Config :=
  .ok { c with sweeper := c.sweeper.setBatchSize n }

/-- Sets how many attempts a task has. -/
def setMaxRetries (c : Config) (n : Nat) : Except Error Config := do
  return { c with scheduler := ← c.scheduler.setMaxRetries n }

/-- Sets how long cached locations and replies live, in seconds. -/
def setCacheTtl (c : Config) (secs : Nat) : Except Error Config :=
  .ok
    { c with
      location := c.location.setDefaultTtl (.ofSeconds secs)
      eventCache := c.eventCache.setDefaultTtl (.ofSeconds secs) }

/-- Sets the assumed speed. -/
def setAverageSpeed (c : Config) (kmh : Float) : Except Error Config := do
  return { c with eta := ← c.eta.setAverageSpeed kmh }

end Environment

open Environment in
/-- **The settings of a process**, by its environment. -/
def Config.ofEnvironment (env : Environment) : Except Error Config := do
  let c : Config := { redisUrl := (env "MUSTER_REDIS_URL").getD ({} : Config).redisUrl }
  let c ← env.apply "MUSTER_SWEEP_INTERVAL_SECS" (Decimal.natBelow? (1 <<< 64)) setSweepInterval c
  let c ← env.apply "MUSTER_SWEEP_BATCH" (Decimal.natBelow? (1 <<< 64)) setSweepBatch c
  let c ← env.apply "MUSTER_MAX_RETRIES" (Decimal.natBelow? (1 <<< 32)) setMaxRetries c
  let c ← env.apply "MUSTER_LOCATION_TTL_SECS" (Decimal.natBelow? (1 <<< 64)) setCacheTtl c
  env.apply "MUSTER_AVERAGE_SPEED_KMH" Decimal.float? setAverageSpeed c

end Gathering
