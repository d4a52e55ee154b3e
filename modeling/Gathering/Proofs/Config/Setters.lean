import Gathering.Proofs.Config.Environment
import Gathering.Rehearsal.Thread

/-!
# Settings that a process can run with

Settings come from an environment, and then setters change them, one after the other
(`Config.build`). The components rely on what they get: there is an attempt, a send at a
time, a key at a time and a task at a time, the speed is finite and positive
(`Config.IsSound`), and there is time between two sweeps (`Config.IsRunnable`).

The environment gives nothing that cannot be run (`Environment.Tells.isRunnable`), and a
setter refuses what would not be sound, or raises it. Only the interval between sweeps is
taken as it comes. So settings are always sound, and they can be run just if the last
interval that was set, if any, is not zero (`Config.buildsSound`). Else the sweeper breaks
down at its start.
-/

namespace Gathering

namespace Config

/-! ## Settings that can be run -/

/-- **Sound settings**: all but the interval between sweeps is as the components need it. -/
structure IsSound (c : Config) : Prop where
  /-- A task has an attempt. -/
  maxRetries : 1 ≤ c.scheduler.maxRetries
  /-- There is a send at a time. -/
  fanoutConcurrency : 1 ≤ c.scheduler.fanoutConcurrency
  /-- A scan asks for a key. -/
  scanCount : 1 ≤ c.eventCache.scanCount
  /-- A sweep takes on a task. -/
  batchSize : 1 ≤ c.sweeper.batchSize
  /-- The speed is finite. -/
  isFinite_speed : c.eta.averageSpeedKmh.isFinite = true
  /-- The speed is positive. -/
  speed_pos : 0 < c.eta.averageSpeedKmh

/-- **Settings that can be run**: they are sound, and there is time between two sweeps. -/
structure IsRunnable (c : Config) : Prop extends c.IsSound where
  /-- There is time between two sweeps. -/
  interval_ne : c.sweeper.interval ≠ .zero

end Config

theorem Span.nanos_pos_iff {d : Span} : 0 < d.nanos ↔ d ≠ .zero := by
  rw [Nat.pos_iff_ne_zero]
  refine not_congr ⟨fun h => ?_, fun h => congrArg nanos h⟩
  cases d
  cases h
  rfl

/-- **What time between sweeps is needed for**: without it a sweeper breaks down when it is
started, and with it the sweeper waits for its first tick. -/
theorem Rehearsal.Sweeper.phase_begin (scheduler : Scheduler) (c : SweeperConfig)
    (now place : Nat) :
    (c.interval ≠ .zero ∧ ∃ ticker, (begin scheduler c now place).phase = .idle ticker place) ∨
      (c.interval = .zero ∧ (begin scheduler c now place).phase = .failing place) := by
  unfold begin
  dsimp only
  split
  · next h => exact .inl ⟨Span.nanos_pos_iff.mp h, _, rfl⟩
  · next h => exact .inr ⟨Decidable.not_not.mp (mt Span.nanos_pos_iff.mpr h), rfl⟩

/-! ## Settings from an environment -/

namespace Environment

variable {α β : Type} {env : Environment} {name : String} {Reads : String → α → Prop}
  {p : α → Prop} {default setting : β} {f : α → β} {c : Config}

/-- What holds of the default and of all numbers that pass holds of the setting. -/
theorem Gives.of_allows {P : β → Prop} (hgives : env.Gives name Reads default f setting)
    (hallows : env.Allows name Reads p) (hdefault : P default) (hpass : ∀ a, p a → P (f a)) :
    P setting := by
  cases hraw : env name with
  | none =>
    rw [hgives.1 hraw]
    exact hdefault
  | some raw =>
    obtain ⟨a, hreads, hp⟩ := hallows raw hraw
    rw [hgives.2 raw a hraw hreads]
    exact hpass a hp

/-- **What a readable environment tells can be run.** -/
theorem Tells.isRunnable (h : env.Tells c) (henv : env.IsReadable) : c.IsRunnable where
  maxRetries := h.maxRetries.of_allows henv.maxRetries (by decide) fun _ hn => hn
  fanoutConcurrency := by
    rw [h.scheduler]
    exact (by decide : 1 ≤ 8)
  scanCount := by
    rw [h.scanCount]
    decide
  batchSize := h.sweepBatch.of_allows henv.sweepBatch (by decide) fun n _ => Nat.le_max_right n 1
  isFinite_speed := h.averageSpeed.of_allows henv.averageSpeed (P := fun kmh => kmh.isFinite = true)
    (by decide) fun _ hkmh => hkmh.1
  speed_pos := h.averageSpeed.of_allows henv.averageSpeed (by decide) fun _ hkmh => hkmh.2
  interval_ne := by
    refine h.sweepInterval.of_allows (P := (· ≠ .zero)) henv.sweepInterval (by decide)
      fun secs hsecs => ?_
    rw [← Span.nanos_pos_iff]
    show 0 < min (secs * nanosPerSecond) _
    have hnanos : 0 < secs * nanosPerSecond := Nat.mul_pos hsecs (by decide)
    omega

end Environment

/-! ## One setter

A setter changes one component's settings. It is applied to settings of any kind, and whether it
refuses what it is given does not depend on them. -/

namespace Config

/-- **A setter** with what it is given. -/
inductive Setter where
  /-- Sets how many attempts a task has. -/
  | maxRetries (n : Nat)
  /-- Sets how long a claim is in force. -/
  | claimLease (d : Span)
  /-- Sets how long one send may take. -/
  | sendTimeout (d : Span)
  /-- Sets how many sends run at a time. -/
  | fanoutConcurrency (n : Nat)
  /-- Sets when the tasks of an event are due. -/
  | actionPlan (plan : ActionPlan)
  /-- Sets how long a cached location lives. -/
  | locationTtl (d : Span)
  /-- Sets the assumed speed. -/
  | averageSpeed (kmh : Float)
  /-- Sets how many keys a scan asks for. -/
  | scanCount (n : Nat)
  /-- Sets how long a cached reply lives. -/
  | replyTtl (d : Span)
  /-- Sets how long it is from one sweep to the next. -/
  | interval (d : Span)
  /-- Sets how many tasks one sweep takes on. -/
  | batchSize (n : Nat)

namespace Setter

/-- Changes one component's settings. -/
def apply (c : Config) : Setter → Except Error Config
  | .maxRetries n => return { c with scheduler := ← c.scheduler.setMaxRetries n }
  | .claimLease d => .ok { c with scheduler := c.scheduler.setClaimLease d }
  | .sendTimeout d => .ok { c with scheduler := c.scheduler.setSendTimeout d }
  | .fanoutConcurrency n => .ok { c with scheduler := c.scheduler.setFanoutConcurrency n }
  | .actionPlan plan => .ok { c with scheduler := c.scheduler.setPlan plan }
  | .locationTtl d => .ok { c with location := c.location.setDefaultTtl d }
  | .averageSpeed kmh => return { c with eta := ← c.eta.setAverageSpeed kmh }
  | .scanCount n => .ok { c with eventCache := c.eventCache.setScanCount n }
  | .replyTtl d => .ok { c with eventCache := c.eventCache.setDefaultTtl d }
  | .interval d => .ok { c with sweeper := c.sweeper.setInterval d }
  | .batchSize n => .ok { c with sweeper := c.sweeper.setBatchSize n }

/-- Whether a setter takes what it is given. -/
def IsAllowed : Setter → Prop
  | .maxRetries n => 0 < n
  | .averageSpeed kmh => kmh.isFinite = true ∧ 0 < kmh
  | _ => True

/-- The interval that is set, if one is. -/
def interval? : Setter → Option Span
  | .interval d => some d
  | _ => none

variable {c d : Config} {x : Setter}

theorem exists_error (c : Config) (hx : ¬ x.IsAllowed) :
    ∃ message, x.apply c = .error (.config message) := by
  cases x with
  | maxRetries n => exact ((Environment.changes_setMaxRetries.okIf c n).resolve_left (hx ·.1)).2
  | averageSpeed kmh =>
    exact ((Environment.changes_setAverageSpeed.okIf c kmh).resolve_left (hx ·.1)).2
  | _ => exact absurd trivial hx

/-- **A setter keeps settings sound**, and leaves the interval between sweeps alone unless it sets
it. -/
theorem exists_ok (c : Config) (hx : x.IsAllowed) :
    ∃ d, x.apply c = .ok d ∧ (c.IsSound → d.IsSound) ∧
      d.sweeper.interval = x.interval?.getD c.sweeper.interval := by
  cases x with
  | maxRetries n =>
    have hset := ((Environment.changes_setMaxRetries.okIf c n).resolve_right (·.1 hx)).2
    exact ⟨_, hset, fun h => { h with maxRetries := hx }, rfl⟩
  | averageSpeed kmh =>
    have hset := ((Environment.changes_setAverageSpeed.okIf c kmh).resolve_right (·.1 hx)).2
    exact ⟨_, hset, fun h => { h with isFinite_speed := hx.1, speed_pos := hx.2 }, rfl⟩
  | fanoutConcurrency n =>
    refine ⟨_, rfl, fun h => ?_, rfl⟩
    exact { h with fanoutConcurrency := Nat.le_max_right n 1 }
  | scanCount n =>
    refine ⟨_, rfl, fun h => ?_, rfl⟩
    exact { h with scanCount := Nat.le_max_right n 1 }
  | batchSize n =>
    refine ⟨_, rfl, fun h => ?_, rfl⟩
    exact { h with batchSize := Nat.le_max_right n 1 }
  | claimLease _ | sendTimeout _ | actionPlan _ | locationTtl _ | replyTtl _ | interval _ =>
    refine ⟨_, rfl, fun h => ?_, rfl⟩
    exact { h with }

end Setter

/-! ## One setter after the other -/

variable {env : Environment} {setters : List Setter} {c : Config}

/-- The settings of a process: what its environment gives, changed by setters one after the
other. -/
def build (env : Environment) (setters : List Setter) : Except Error Config := do
  setters.foldlM Setter.apply (← ofEnvironment env)

/-- The interval that was set last, if one was. -/
def lastInterval? (setters : List Setter) : Option Span :=
  (setters.filterMap Setter.interval?).getLast?

theorem lastInterval?_cons (x : Setter) (setters : List Setter) (d : Span) :
    (lastInterval? (x :: setters)).getD d = (lastInterval? setters).getD (x.interval?.getD d) := by
  unfold lastInterval?
  cases hx : x.interval? with
  | none => rw [List.filterMap_cons_none hx, Option.getD_none]
  | some d' => rw [List.filterMap_cons_some hx, List.getLast?_cons, Option.getD_some,
      Option.getD_some]

/-- **Setters keep settings sound**, and the interval between sweeps is the one that was set last.

By induction on the setters. That the settings are sound in the end is said under the condition
that they were at the beginning, so that the lemma is about setters alone. -/
theorem exists_foldlM_ok (h : ∀ x ∈ setters, x.IsAllowed) (c : Config) :
    ∃ d, setters.foldlM Setter.apply c = .ok d ∧ (c.IsSound → d.IsSound) ∧
      d.sweeper.interval = (lastInterval? setters).getD c.sweeper.interval := by
  induction setters generalizing c with
  | nil => exact ⟨c, rfl, id, rfl⟩
  | cons x setters ih =>
    obtain ⟨hx, hsetters⟩ := List.forall_mem_cons.mp h
    obtain ⟨d, hd, hsound, hinterval⟩ := Setter.exists_ok c hx
    obtain ⟨d', hd', hsound', hinterval'⟩ := ih hsetters d
    refine ⟨d', ?_, hsound' ∘ hsound, ?_⟩
    · rw [List.foldlM_cons, hd]
      exact hd'
    · rw [hinterval', hinterval, lastInterval?_cons]

/-- The first setter that refuses what it is given is told of. -/
theorem exists_foldlM_error (h : ¬ ∀ x ∈ setters, x.IsAllowed) (c : Config) :
    ∃ message, setters.foldlM Setter.apply c = .error (.config message) := by
  induction setters generalizing c with
  | nil => exact absurd (List.forall_mem_nil _) h
  | cons x setters ih =>
    rw [List.foldlM_cons]
    by_cases hx : x.IsAllowed
    · obtain ⟨d, hd, -⟩ := Setter.exists_ok c hx
      rw [hd]
      exact ih (fun hsetters => h (List.forall_mem_cons.mpr ⟨hx, hsetters⟩)) d
    · obtain ⟨message, herror⟩ := Setter.exists_error c hx
      exact ⟨message, by rw [herror]; rfl⟩

/-- **What a process gets for settings**: sound ones if its environment is readable and its setters
allow what they are given, and else an error. -/
theorem build_cases (env : Environment) (setters : List Setter) :
    ((env.IsReadable ∧ ∀ x ∈ setters, x.IsAllowed) ∧ ∃ c, build env setters = .ok c ∧ c.IsSound ∧
      (c.sweeper.interval = .zero ↔ lastInterval? setters = some .zero)) ∨
    (¬ (env.IsReadable ∧ ∀ x ∈ setters, x.IsAllowed) ∧
      ∃ message, build env setters = .error (.config message)) := by
  unfold build
  rcases ofEnvironment_okIf env with ⟨henv, hok⟩ | ⟨henv, message, herror⟩
  · rw [hok]
    by_cases hsetters : ∀ x ∈ setters, x.IsAllowed
    · obtain ⟨c, hc, hsound, hinterval⟩ := exists_foldlM_ok hsetters env.told
      have htold := (Environment.tells_told env).isRunnable henv
      refine .inl ⟨⟨henv, hsetters⟩, c, hc, hsound htold.toIsSound, ?_⟩
      rw [hinterval]
      cases lastInterval? setters with
      | none => exact iff_of_false htold.interval_ne nofun
      | some d => exact Option.some_inj.symm
    · exact .inr ⟨fun h => hsetters h.2, exists_foldlM_error hsetters env.told⟩
  · exact .inr ⟨fun h => henv h.1, message, by rw [herror]; rfl⟩

/-- Settings that a process gets are sound, and their interval is zero if it was set to that. -/
theorem spec_of_build_eq_ok (h : build env setters = .ok c) :
    c.IsSound ∧ (c.sweeper.interval = .zero ↔ lastInterval? setters = some .zero) := by
  rcases build_cases env setters with ⟨-, c', hok, hspec⟩ | ⟨-, message, herror⟩
  · obtain rfl := Except.ok.inj (h.symm.trans hok)
    exact hspec
  · cases h.symm.trans herror

/-- **Which settings a process gets**, and when it can run with them. -/
structure BuildsSound (env : Environment) (setters : List Setter) : Prop where
  /-- It gets settings just if its environment is readable and its setters allow what they are
  given. -/
  ok_iff : (∃ c, build env setters = .ok c) ↔ env.IsReadable ∧ ∀ x ∈ setters, x.IsAllowed
  /-- Else there is an error in the settings. -/
  error : ∀ e, build env setters = .error e → ∃ message, e = .config message
  /-- The settings are sound. -/
  sound : ∀ c, build env setters = .ok c → c.IsSound
  /-- They can be run unless the last interval that was set is zero. -/
  runnable_iff : ∀ c, build env setters = .ok c →
    (c.IsRunnable ↔ lastInterval? setters ≠ some .zero)
  /-- Then, and only then, a sweeper that is started waits for its ticks. -/
  starts_iff : ∀ c, build env setters = .ok c → ∀ scheduler now place,
    (∃ ticker, (Rehearsal.Sweeper.begin scheduler c.sweeper now place).phase = .idle ticker place) ↔
      lastInterval? setters ≠ some .zero
  /-- The environment gives settings just if it is readable. -/
  readable_iff : (∃ c, ofEnvironment env = .ok c) ↔ env.IsReadable
  /-- They are what it tells, with the defaults for the rest, and they can be run. -/
  tells : ∀ c, ofEnvironment env = .ok c → env.Tells c ∧ c.IsRunnable

/-- **Settings are sound** whatever the environment says and whichever setters are used. They can
be run unless the last interval between sweeps that was set is zero.

All of it comes from the two cases of `Config.build_cases`: either there are settings, and they
are sound, or there is an error. The environment alone sets no interval of zero, since it refuses
one. -/
theorem buildsSound (env : Environment) (setters : List Setter) : BuildsSound env setters where
  ok_iff := by
    rcases build_cases env setters with ⟨hallowed, c, hok, -⟩ | ⟨hnot, message, herror⟩
    · exact iff_of_true ⟨c, hok⟩ hallowed
    · rw [herror]
      exact iff_of_false nofun hnot
  error e he := by
    rcases build_cases env setters with ⟨-, c, hok, -⟩ | ⟨-, message, herror⟩
    · cases he.symm.trans hok
    · exact ⟨message, Except.error.inj (he.symm.trans herror)⟩
  sound c hc := (spec_of_build_eq_ok hc).1
  runnable_iff c hc := by
    obtain ⟨hsound, hzero⟩ := spec_of_build_eq_ok hc
    rw [Ne, ← hzero]
    exact ⟨fun h => h.interval_ne, fun h => { hsound with interval_ne := h }⟩
  starts_iff c hc scheduler now place := by
    rw [Ne, ← (spec_of_build_eq_ok hc).2]
    rcases Rehearsal.Sweeper.phase_begin scheduler c.sweeper now place with
      ⟨hne, hidle⟩ | ⟨hzero, hfailing⟩
    · exact iff_of_true hidle hne
    · rw [hfailing]
      exact iff_of_false nofun (not_not_intro hzero)
  readable_iff := (ofEnvironment_okIf env).exists_iff
  tells c hc := by
    obtain rfl := (ofEnvironment_okIf env).eq_of_eq_ok hc
    have htells := Environment.tells_told env
    exact ⟨htells, htells.isRunnable ((ofEnvironment_okIf env).exists_iff.mp ⟨_, hc⟩)⟩

/-- No setter and no check keeps an interval of zero out. -/
theorem not_isRunnable_of_zero :
    ¬ ∀ env setters, (∃ message, build env setters = .error (.config message)) ∨
      ∃ c, build env setters = .ok c ∧ c.IsRunnable := by
  intro h
  rcases h (fun _ => none) [.interval .zero] with ⟨message, herror⟩ | ⟨c, hok, hrunnable⟩
  · cases herror
  · cases hok
    exact hrunnable.interval_ne rfl

end Config

end Gathering
