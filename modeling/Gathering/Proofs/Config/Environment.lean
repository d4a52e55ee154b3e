import Gathering.Config.Environment
import Gathering.Proofs.Decimal.Grammar

/-!
# What an environment says

Settings can be had from an environment just if every number that is set in it is one,
with or without blank space around it, and is not refused (`Environment.IsReadable`).
Then each setting is what its variable says, and where the variable is not set, or where
there is none, it is the default (`Environment.Tells`). Else the answer is an error in the
settings. `Config.ofEnvironment_okIf` says both at once.

The variables are read one after the other, and each of them changes settings that the
others leave alone. So all that has to be said about one of them is which numbers it takes
and what it makes of them (`Environment.Changes`).
-/

namespace Gathering

/-! ## Settings or an error -/

namespace Config

variable {p q : Prop} {x : Except Error Config} {c d : Config}

/-- **Settings that are had just if something is so**; else there is an error in the settings. -/
def OkIf (p : Prop) (x : Except Error Config) (c : Config) : Prop :=
  (p ∧ x = .ok c) ∨ (¬ p ∧ ∃ message, x = .error (.config message))

/-- Changes made one after the other have to be possible both. -/
theorem OkIf.bind {f : Config → Except Error Config} (hx : OkIf p x c) (hf : OkIf q (f c) d) :
    OkIf (p ∧ q) (x >>= f) d := by
  rcases hx with ⟨hp, rfl⟩ | ⟨hp, message, rfl⟩
  · rcases hf with ⟨hq, hok⟩ | ⟨hq, herror⟩
    · exact .inl ⟨⟨hp, hq⟩, hok⟩
    · exact .inr ⟨fun h => hq h.2, herror⟩
  · exact .inr ⟨fun h => hp h.1, message, rfl⟩

/-- Whether settings are had may be said in other words. -/
theorem OkIf.congr (h : OkIf p x c) (hpq : p ↔ q) : OkIf q x c := by
  unfold OkIf
  rw [← hpq]
  exact h

theorem OkIf.exists_iff (h : OkIf p x c) : (∃ d, x = .ok d) ↔ p := by
  rcases h with ⟨hp, hok⟩ | ⟨hp, message, rfl⟩
  · exact iff_of_true ⟨c, hok⟩ hp
  · exact iff_of_false nofun hp

theorem OkIf.eq_of_eq_ok (h : OkIf p x c) (hd : x = .ok d) : d = c := by
  rcases h with ⟨-, hok⟩ | ⟨-, message, rfl⟩
  · exact Except.ok.inj (hd.symm.trans hok)
  · cases hd

end Config

namespace Environment

open Config (OkIf)

variable {α β : Type} {env : Environment} {name raw : String} {c : Config}
  {read : String → Option α} {Reads : String → α → Prop} {p : α → Prop} {value : α}
  {change : Config → α → Except Error Config} {made : Config → Option α → Config}

/-! ## One variable

A variable may be missing, or it may say what cannot be read, or it may say a number that is
refused. Only the first leaves the default. -/

/-- **A variable that can be taken**: if it is set, it stands for a number, apart from the blank
space around it, and the number passes. -/
def Allows (env : Environment) (name : String) (Reads : String → α → Prop) (p : α → Prop) : Prop :=
  ∀ raw, env name = some raw → ∃ value, Reads (Text.trim raw) value ∧ p value

/-- **A setting as a variable gives it**: what the variable says, or the default if it is not
set. -/
def Gives (env : Environment) (name : String) (Reads : String → α → Prop) (default : β)
    (f : α → β) (setting : β) : Prop :=
  (env name = none → setting = default) ∧
    ∀ raw value, env name = some raw → Reads (Text.trim raw) value → setting = f value

/-- The number that a variable says, if it says one. -/
def said? (env : Environment) (name : String) (read : String → Option α) : Option α :=
  (env name).bind fun raw => read (Text.trim raw)

theorem said?_of_eq_none (h : env name = none) : env.said? name read = none := by
  unfold said?
  rw [h]
  rfl

theorem said?_of_eq_some (h : env name = some raw) :
    env.said? name read = read (Text.trim raw) := by
  unfold said?
  rw [h]
  rfl

/-- What a variable says is what it gives. -/
theorem gives_said? (hread : ∀ {text value}, read text = some value ↔ Reads text value)
    (default : β) (f : α → β) :
    env.Gives name Reads default f (((env.said? name read).map f).getD default) := by
  constructor
  · intro hnone
    rw [said?_of_eq_none hnone]
    rfl
  · intro raw value hraw hreads
    rw [said?_of_eq_some hraw, hread.mpr hreads]
    rfl

/-- **A change that takes some numbers and refuses all others**, and what it makes of settings,
where no number is no change. -/
structure Changes (change : Config → α → Except Error Config) (p : α → Prop)
    (made : Config → Option α → Config) : Prop where
  /-- Without a number nothing changes. -/
  keeps : ∀ c, made c none = c
  /-- Some numbers are taken, and the others are an error. -/
  okIf : ∀ c value, OkIf (p value) (change c value) (made c (some value))

/-- A variable that is set changes the settings if it can be read. -/
theorem apply_of_eq_some (hraw : env name = some raw) (h : read (Text.trim raw) = some value) :
    env.apply name read change c = change c value := by
  unfold apply number
  rw [hraw]
  dsimp only
  rw [h]
  rfl

/-- A variable that is set and cannot be read is told of. -/
theorem apply_of_eq_none (hraw : env name = some raw) (h : read (Text.trim raw) = none) :
    env.apply name read change c =
      .error (.config ("invalid value for " ++ name ++ ": " ++ raw)) := by
  unfold apply number
  rw [hraw]
  dsimp only
  rw [h]
  rfl

/-- **A variable changes the settings just if it can be taken.** -/
theorem apply_okIf (hchanges : Changes change p made)
    (hread : ∀ {text value}, read text = some value ↔ Reads text value) (c : Config) :
    OkIf (env.Allows name Reads p) (env.apply name read change c)
      (made c (env.said? name read)) := by
  cases hraw : env name with
  | none =>
    refine .inl ⟨fun raw h => ?_, ?_⟩
    · rw [hraw] at h
      cases h
    · rw [said?_of_eq_none hraw, hchanges.keeps]
      unfold apply number
      rw [hraw]
      rfl
  | some raw =>
    -- the variable is set, and so it says one text
    have hallows : env.Allows name Reads p ↔ ∃ value, Reads (Text.trim raw) value ∧ p value :=
      ⟨fun h => h raw hraw, fun h raw' hraw' => Option.some_inj.mp (hraw.symm.trans hraw') ▸ h⟩
    rw [hallows, said?_of_eq_some hraw]
    cases hvalue : read (Text.trim raw) with
    | none =>
      refine .inr ⟨?_, _, apply_of_eq_none hraw hvalue⟩
      rintro ⟨value, hreads, -⟩
      rw [hread.mpr hreads] at hvalue
      cases hvalue
    | some value =>
      rw [apply_of_eq_some hraw hvalue]
      refine (hchanges.okIf c value).congr ⟨fun hp => ⟨value, hread.mp hvalue, hp⟩, ?_⟩
      rintro ⟨value', hreads, hp⟩
      exact Option.some_inj.mp (hvalue.symm.trans (hread.mpr hreads)) ▸ hp

/-! ## Each variable's change -/

theorem changes_setSweepInterval : Changes setSweepInterval (0 < ·) fun c secs? =>
    { c with sweeper := { c.sweeper with
        interval := (secs?.map Span.ofSeconds).getD c.sweeper.interval } } where
  keeps _ := rfl
  okIf c secs := by
    unfold setSweepInterval
    split
    · next hzero => exact .inr ⟨Nat.not_lt_of_le (Nat.le_of_eq hzero), _, rfl⟩
    · next hzero => exact .inl ⟨Nat.pos_of_ne_zero hzero, rfl⟩

theorem changes_setSweepBatch : Changes setSweepBatch (fun _ => True) fun c n? =>
    { c with sweeper := { c.sweeper with
        batchSize := (n?.map (max · 1)).getD c.sweeper.batchSize } } where
  keeps _ := rfl
  okIf _ _ := .inl ⟨trivial, rfl⟩

theorem changes_setMaxRetries : Changes setMaxRetries (0 < ·) fun c n? =>
    { c with scheduler := { c.scheduler with
        maxRetries := (n?.map id).getD c.scheduler.maxRetries } } where
  keeps _ := rfl
  okIf c n := by
    unfold setMaxRetries SchedulerConfig.setMaxRetries
    split
    · next hzero => exact .inr ⟨Nat.not_lt_of_le (Nat.le_of_eq hzero), _, rfl⟩
    · next hzero => exact .inl ⟨Nat.pos_of_ne_zero hzero, rfl⟩

theorem changes_setCacheTtl : Changes setCacheTtl (fun _ => True) fun c secs? =>
    { c with
      location := { c.location with
        defaultTtl := (secs?.map Span.ofSeconds).getD c.location.defaultTtl }
      eventCache := { c.eventCache with
        defaultTtl := (secs?.map Span.ofSeconds).getD c.eventCache.defaultTtl } } where
  keeps _ := rfl
  okIf _ _ := .inl ⟨trivial, rfl⟩

theorem changes_setAverageSpeed :
    Changes setAverageSpeed (fun kmh => kmh.isFinite = true ∧ 0 < kmh) fun c kmh? =>
      { c with eta := { c.eta with
          averageSpeedKmh := (kmh?.map id).getD c.eta.averageSpeedKmh } } where
  keeps _ := rfl
  okIf c kmh := by
    have hpasses : (kmh.isFinite && 0 < kmh) = true ↔ kmh.isFinite = true ∧ 0 < kmh := by
      rw [Bool.and_eq_true, decide_eq_true_eq]
    refine OkIf.congr ?_ hpasses
    unfold setAverageSpeed EtaConfig.setAverageSpeed
    split
    · next h => exact .inl ⟨h, rfl⟩
    · next h => exact .inr ⟨h, _, rfl⟩

/-! ## The whole environment -/

/-- **An environment that settings can be had from**: every number that is set can be read and
passes its check. -/
structure IsReadable (env : Environment) : Prop where
  /-- The interval between sweeps is a positive number of seconds. -/
  sweepInterval : env.Allows "MUSTER_SWEEP_INTERVAL_SECS" (Decimal.IsWhole (1 <<< 64)) (0 < ·)
  /-- A sweep takes on a number of tasks. -/
  sweepBatch : env.Allows "MUSTER_SWEEP_BATCH" (Decimal.IsWhole (1 <<< 64)) fun _ => True
  /-- A task has a positive number of attempts. -/
  maxRetries : env.Allows "MUSTER_MAX_RETRIES" (Decimal.IsWhole (1 <<< 32)) (0 < ·)
  /-- What is cached lives for a number of seconds. -/
  cacheTtl : env.Allows "MUSTER_LOCATION_TTL_SECS" (Decimal.IsWhole (1 <<< 64)) fun _ => True
  /-- The speed is finite and positive. -/
  averageSpeed : env.Allows "MUSTER_AVERAGE_SPEED_KMH" Decimal.IsFloat
    fun kmh => kmh.isFinite = true ∧ 0 < kmh

/-- **Settings as an environment tells them**, and the defaults where it tells nothing. -/
structure Tells (env : Environment) (c : Config) : Prop where
  /-- Where the cache is. -/
  redisUrl : c.redisUrl = (env "MUSTER_REDIS_URL").getD ({} : Config).redisUrl
  /-- The interval between sweeps. -/
  sweepInterval : env.Gives "MUSTER_SWEEP_INTERVAL_SECS" (Decimal.IsWhole (1 <<< 64))
    ({} : SweeperConfig).interval Span.ofSeconds c.sweeper.interval
  /-- How many tasks a sweep takes on, at least one. -/
  sweepBatch : env.Gives "MUSTER_SWEEP_BATCH" (Decimal.IsWhole (1 <<< 64))
    ({} : SweeperConfig).batchSize (max · 1) c.sweeper.batchSize
  /-- How many attempts a task has. -/
  maxRetries : env.Gives "MUSTER_MAX_RETRIES" (Decimal.IsWhole (1 <<< 32))
    ({} : SchedulerConfig).maxRetries id c.scheduler.maxRetries
  /-- How long a cached location lives. -/
  locationTtl : env.Gives "MUSTER_LOCATION_TTL_SECS" (Decimal.IsWhole (1 <<< 64))
    ({} : LocationConfig).defaultTtl Span.ofSeconds c.location.defaultTtl
  /-- How long a cached reply lives. -/
  replyTtl : env.Gives "MUSTER_LOCATION_TTL_SECS" (Decimal.IsWhole (1 <<< 64))
    ({} : EventCacheConfig).defaultTtl Span.ofSeconds c.eventCache.defaultTtl
  /-- The assumed speed. -/
  averageSpeed : env.Gives "MUSTER_AVERAGE_SPEED_KMH" Decimal.IsFloat
    ({} : EtaConfig).averageSpeedKmh id c.eta.averageSpeedKmh
  /-- The scheduler has no other variables. -/
  scheduler : c.scheduler = { maxRetries := c.scheduler.maxRetries }
  /-- Nor have snapshots. -/
  scanCount : c.eventCache.scanCount = ({} : EventCacheConfig).scanCount

/-- The settings that an environment tells. -/
def told (env : Environment) : Config where
  redisUrl := (env "MUSTER_REDIS_URL").getD ({} : Config).redisUrl
  scheduler :=
    { maxRetries := ((env.said? "MUSTER_MAX_RETRIES" (Decimal.natBelow? (1 <<< 32))).map id).getD
        ({} : SchedulerConfig).maxRetries }
  location :=
    { defaultTtl := ((env.said? "MUSTER_LOCATION_TTL_SECS" (Decimal.natBelow? (1 <<< 64))).map
        Span.ofSeconds).getD ({} : LocationConfig).defaultTtl }
  eta :=
    { averageSpeedKmh := ((env.said? "MUSTER_AVERAGE_SPEED_KMH" Decimal.float?).map id).getD
        ({} : EtaConfig).averageSpeedKmh }
  eventCache :=
    { defaultTtl := ((env.said? "MUSTER_LOCATION_TTL_SECS" (Decimal.natBelow? (1 <<< 64))).map
        Span.ofSeconds).getD ({} : EventCacheConfig).defaultTtl }
  sweeper :=
    { interval := ((env.said? "MUSTER_SWEEP_INTERVAL_SECS" (Decimal.natBelow? (1 <<< 64))).map
        Span.ofSeconds).getD ({} : SweeperConfig).interval
      batchSize := ((env.said? "MUSTER_SWEEP_BATCH" (Decimal.natBelow? (1 <<< 64))).map
        (max · 1)).getD ({} : SweeperConfig).batchSize }

theorem tells_told (env : Environment) : env.Tells env.told where
  redisUrl := rfl
  sweepInterval := gives_said? Decimal.natBelow?_eq_some_iff _ _
  sweepBatch := gives_said? Decimal.natBelow?_eq_some_iff _ _
  maxRetries := gives_said? Decimal.natBelow?_eq_some_iff _ _
  locationTtl := gives_said? Decimal.natBelow?_eq_some_iff _ _
  replyTtl := gives_said? Decimal.natBelow?_eq_some_iff _ _
  averageSpeed := gives_said? Decimal.float?_eq_some_iff _ _
  scheduler := rfl
  scanCount := rfl

end Environment

open Environment in
/-- **Settings are had from readable environments only**, and they are what the environment tells.

The variables are read in a fixed order, and the first that cannot be taken is told of. Which of
them that is does not matter here. -/
theorem Config.ofEnvironment_okIf (env : Environment) :
    OkIf env.IsReadable (ofEnvironment env) env.told := by
  have hwhole {bound : Nat} {text : String} {n : Nat} :=
    @Decimal.natBelow?_eq_some_iff text n bound
  unfold ofEnvironment
  -- each variable changes the settings that those before it have left
  refine OkIf.congr
    ((apply_okIf changes_setSweepInterval hwhole _).bind <|
      (apply_okIf changes_setSweepBatch hwhole _).bind <|
      (apply_okIf changes_setMaxRetries hwhole _).bind <|
      (apply_okIf changes_setCacheTtl hwhole _).bind <|
      apply_okIf changes_setAverageSpeed Decimal.float?_eq_some_iff _) ?_
  exact ⟨fun ⟨h₁, h₂, h₃, h₄, h₅⟩ => ⟨h₁, h₂, h₃, h₄, h₅⟩,
    fun ⟨h₁, h₂, h₃, h₄, h₅⟩ => ⟨h₁, h₂, h₃, h₄, h₅⟩⟩

end Gathering
