import Gathering.Error
import Gathering.Time.Span

/-!
# Settings

Every component has settings of its own, with defaults. A setting that would
make a component unable to run is refused or raised to the least value that can
run: at least one attempt, at least one send at a time, at least one key or task
at a time, and a speed that gets somewhere.
-/

namespace Gathering

/-- **How long before an event its outreach is due**, and whether the event is closed at its end. -/
structure ActionPlan where
  /-- How long before the start participants are asked whether they come, if at all. -/
  confirmationLead : Option Span := some (.ofSeconds (24 * 60 * 60))
  /-- How long before the start participants are reminded, if at all. -/
  reminderLead : Option Span := some (.ofSeconds (2 * 60 * 60))
  /-- How long before the start participants are asked for their location, if at all. -/
  locationLead : Option Span := some (.ofSeconds (30 * 60))
  /-- Whether the event is closed at its end. -/
  closure : Bool := true
  /-- How long an event is taken to last if its end is unknown. -/
  defaultEventLength : Span := .ofSeconds (3 * 60 * 60)
  deriving DecidableEq

/-- The settings of a scheduler. -/
structure SchedulerConfig where
  /-- How many attempts a task has if its draft says nothing. -/
  maxRetries : Nat := 3
  /-- How long a claim is in force. -/
  claimLease : Span := .ofSeconds (5 * 60)
  /-- How long one send may take. -/
  sendTimeout : Span := .ofSeconds 30
  /-- How many sends of one task run at a time. -/
  fanoutConcurrency : Nat := 8
  /-- When the tasks of an event are due. -/
  plan : ActionPlan := {}
  deriving DecidableEq

/-- How long cached entries live if the end of their event is unknown. -/
def defaultCacheTtl : Span := .ofSeconds (24 * 60 * 60)

/-- The settings of location tracking. -/
structure LocationConfig where
  /-- How long a cached location lives if the end of its event is unknown. -/
  defaultTtl : Span := defaultCacheTtl
  deriving DecidableEq

/-- The settings of arrival estimates. -/
structure EtaConfig where
  /-- The speed that is assumed if a device reports none, in kilometres per hour. -/
  averageSpeedKmh : Float := 30.0
  deriving DecidableEq

/-- The settings of event snapshots. -/
structure EventCacheConfig where
  /-- How many keys a scan asks for at a time. -/
  scanCount : Nat := 100
  /-- How long a cached reply lives if nothing else is said. -/
  defaultTtl : Span := defaultCacheTtl
  deriving DecidableEq

/-- The settings of a sweeper. -/
structure SweeperConfig where
  /-- How long it is from one sweep to the next. -/
  interval : Span := .ofSeconds 30
  /-- How many tasks one sweep takes on. -/
  batchSize : Nat := 100
  deriving DecidableEq

/-- **The settings of all components.** -/
structure Config where
  /-- Where the shared cache is. -/
  redisUrl : String := "redis://127.0.0.1:6379"
  /-- The scheduler's settings. -/
  scheduler : SchedulerConfig := {}
  /-- The settings of location tracking. -/
  location : LocationConfig := {}
  /-- The settings of arrival estimates. -/
  eta : EtaConfig := {}
  /-- The settings of event snapshots. -/
  eventCache : EventCacheConfig := {}
  /-- The sweeper's settings. -/
  sweeper : SweeperConfig := {}
  deriving DecidableEq

/-- How long the shutdown waits for each component. -/
def shutdownTimeout : Span := .ofSeconds 5

/-- The version of this library. -/
def version : String := "0.1.0"

/-! ## Setters -/

namespace SchedulerConfig

/-- Sets the number of attempts; there must be one. -/
def setMaxRetries (c : SchedulerConfig) (n : Nat) : Except Error SchedulerConfig :=
  if n = 0 then .error (.config "max_retries must be at least 1")
  else .ok { c with maxRetries := n }

/-- Sets how long a claim is in force. -/
def setClaimLease (c : SchedulerConfig) (d : Span) : SchedulerConfig := { c with claimLease := d }

/-- Sets how long one send may take. -/
def setSendTimeout (c : SchedulerConfig) (d : Span) : SchedulerConfig := { c with sendTimeout := d }

/-- Sets how many sends run at a time, at least one. -/
def setFanoutConcurrency (c : SchedulerConfig) (n : Nat) : SchedulerConfig :=
  { c with fanoutConcurrency := max n 1 }

/-- Sets when the tasks of an event are due. -/
def setPlan (c : SchedulerConfig) (plan : ActionPlan) : SchedulerConfig := { c with plan := plan }

end SchedulerConfig

/-- Sets how long a cached location lives. -/
def LocationConfig.setDefaultTtl (c : LocationConfig) (d : Span) : LocationConfig :=
  { c with defaultTtl := d }

/-- Sets the assumed speed; it must be finite and positive. -/
def EtaConfig.setAverageSpeed (c : EtaConfig) (kmh : Float) : Except Error EtaConfig :=
  if kmh.isFinite && 0 < kmh then .ok { c with averageSpeedKmh := kmh }
  else .error (.config "average speed must be positive")

namespace EventCacheConfig

/-- Sets how many keys a scan asks for, at least one. -/
def setScanCount (c : EventCacheConfig) (n : Nat) : EventCacheConfig :=
  { c with scanCount := max n 1 }

/-- Sets how long a cached reply lives. -/
def setDefaultTtl (c : EventCacheConfig) (d : Span) : EventCacheConfig := { c with defaultTtl := d }

end EventCacheConfig

namespace SweeperConfig

/-- Sets how long it is from one sweep to the next. -/
def setInterval (c : SweeperConfig) (d : Span) : SweeperConfig := { c with interval := d }

/-- Sets how many tasks one sweep takes on, at least one. -/
def setBatchSize (c : SweeperConfig) (n : Nat) : SweeperConfig := { c with batchSize := max n 1 }

end SweeperConfig

end Gathering
