import Gathering.Location.Sample

/-!
# The history of locations

Samples in the order in which they were received; none is ever changed or
removed. Devices report late, so the order of receipt is not the order of time.
The *latest* sample is the one with the greatest timestamp, and of several the
one that was received last.
-/

namespace Gathering

/-- **Samples in the order of receipt.** -/
structure Trail where
  /-- The samples, the last received one at the end. -/
  samples : List Sample
  deriving DecidableEq

namespace Trail

/-- The history without samples. -/
def empty : Trail := ⟨[]⟩

instance : Inhabited Trail := ⟨empty⟩

/-- Adds a sample at the end. -/
def append (t : Trail) (s : Sample) : Trail := ⟨t.samples ++ [s]⟩

/-- The later of two samples, and the second of two at the same time. -/
def later (best : Option Sample) (s : Sample) : Option Sample :=
  match best with
  | none => some s
  | some b => if s.timestamp < b.timestamp then some b else some s

/-- The latest of a list of samples. -/
def latestOf (samples : List Sample) : Option Sample :=
  samples.foldl later none

/-- The latest sample of a participant on the way to an event. -/
def latest (t : Trail) (eventId participantId : String) : Option Sample :=
  latestOf (t.samples.filter fun s => s.eventId = eventId && s.participantId = participantId)

/-- The latest sample of a participant. -/
def latestOfParticipant (t : Trail) (participantId : String) : Option Sample :=
  latestOf (t.samples.filter fun s => s.participantId = participantId)

/-- Whether a sample was taken in an interval, both ends included. -/
def inInterval (start stop : Instant) (s : Sample) : Bool :=
  start ≤ s.timestamp && s.timestamp ≤ stop

/-- The samples of a participant from an interval, in the order of time, those of one instant in
the order of receipt. -/
def history (t : Trail) (participantId : String) (start stop : Instant) : List Sample :=
  (t.samples.filter fun s => s.participantId = participantId && inInterval start stop s).mergeSort
    fun a b => a.timestamp ≤ b.timestamp

/-! ## Calls -/

/-- **A call of the history of locations.** -/
inductive Call where
  /-- Adds a sample. -/
  | append (s : Sample)
  /-- Asks for the latest sample of a participant on the way to an event. -/
  | latest (eventId participantId : String)
  /-- Asks for the latest sample of a participant. -/
  | latestOfParticipant (participantId : String)
  /-- Asks for the samples of a participant from an interval. -/
  | history (participantId : String) (start stop : Instant)
  deriving DecidableEq

/-- What a call of the history of locations answers. -/
abbrev Call.Answer : Call → Type
  | .append _ => Unit
  | .latest _ _ => Option Sample
  | .latestOfParticipant _ => Option Sample
  | .history _ _ _ => List Sample

/-- **What a call does to the history.** -/
def perform (t : Trail) : (call : Call) → call.Answer × Trail
  | .append s => ((), t.append s)
  | .latest eventId participantId => (t.latest eventId participantId, t)
  | .latestOfParticipant participantId => (t.latestOfParticipant participantId, t)
  | .history participantId start stop => (t.history participantId start stop, t)

end Trail

end Gathering
