import Gathering.Keyed
import Gathering.Time.Span

/-!
# A map whose entries lapse

The cache of a single process: byte strings under text keys, each with an
optional **deadline** on a clock that only moves forward. An entry is visible
while the clock is strictly before its deadline. A lapsed entry may still be
there, but no operation shows it, and it becomes visible again only by being
written again.

The map holds no clock. Whoever uses it says what time it is, in nanoseconds
since the clock started.
-/

namespace Gathering.Cache

/-- What is stored under a key. -/
structure Entry where
  /-- The stored bytes. -/
  value : ByteArray
  /-- When the entry lapses; without a deadline it never does. -/
  deadline : Option Nat

/-- Whether an entry is visible. -/
def Entry.isLive (e : Entry) (now : Nat) : Bool :=
  match e.deadline with
  | none => true
  | some deadline => now < deadline

/-- **A map whose entries lapse.** -/
structure TimedMap where
  /-- The entries, lapsed ones included. -/
  entries : Keyed Entry

namespace TimedMap

/-- The map without entries. -/
def empty : TimedMap := ⟨.empty⟩

instance : Inhabited TimedMap := ⟨empty⟩

/-- The visible entry of a key. -/
def live? (m : TimedMap) (now : Nat) (key : String) : Option Entry :=
  (m.entries.find? key).filter (·.isLive now)

/-- The bytes under a key. -/
def get? (m : TimedMap) (now : Nat) (key : String) : Option ByteArray :=
  (m.live? now key).map (·.value)

/-- Stores bytes under a key, for a span of time or for good. -/
def set (m : TimedMap) (now : Nat) (key : String) (value : ByteArray) (ttl : Option Span) :
    TimedMap :=
  ⟨m.entries.insert key ⟨value, ttl.map fun d => now + d.nanos⟩⟩

/-- The bytes under each of the keys, in the order of the keys. -/
def getMany (m : TimedMap) (now : Nat) (keys : List String) : List (Option ByteArray) :=
  keys.map (m.get? now)

/-- Whether a key begins with a text. -/
def begins (start key : String) : Bool :=
  start.toList.isPrefixOf key.toList

/-- **The visible keys that begin with a text**, ascending. The entries are in the order of their
keys, so these keys follow one another. -/
def scan (m : TimedMap) (now : Nat) (start : String) : List String :=
  let from_ := m.entries.entries.dropWhile fun e => e.1 < start
  let range := from_.takeWhile fun e => begins start e.1
  (range.filter fun e => e.2.isLive now).map (·.1)

/-- Removes a key; says whether it was visible. -/
def delete (m : TimedMap) (now : Nat) (key : String) : Bool × TimedMap :=
  ((m.live? now key).isSome, ⟨m.entries.erase key⟩)

/-- Gives a visible key a new deadline; says whether the key was visible. -/
def expire (m : TimedMap) (now : Nat) (key : String) (ttl : Span) : Bool × TimedMap :=
  match m.live? now key with
  | some e => (true, ⟨m.entries.insert key { e with deadline := some (now + ttl.nanos) }⟩)
  | none => (false, m)

/-- How many keys are visible. -/
def size (m : TimedMap) (now : Nat) : Nat :=
  (m.entries.values.filter (·.isLive now)).length

end TimedMap

/-! ## Calls -/

/-- **A call of the cache**, whichever cache answers it. -/
inductive Call where
  /-- Asks whether the cache is there. -/
  | ping
  /-- Asks for the bytes under a key. -/
  | get (key : String)
  /-- Stores bytes under a key. -/
  | set (key : String) (value : ByteArray) (ttl : Option Span)
  /-- Asks for the bytes under several keys. -/
  | getMany (keys : List String)
  /-- Asks for the keys that begin with a text, so many at a time. -/
  | scan (start : String) (pageSize : Nat)
  /-- Removes a key. -/
  | delete (key : String)
  /-- Gives a key a new deadline. -/
  | expire (key : String) (ttl : Span)

/-- What a call of the cache answers. -/
abbrev Call.Answer : Call → Type
  | .ping => Unit
  | .get _ => Option ByteArray
  | .set _ _ _ => Unit
  | .getMany _ => List (Option ByteArray)
  | .scan _ _ => List String
  | .delete _ => Bool
  | .expire _ _ => Bool

/-- **What a call does to the map**; the size of a page plays no part. -/
def TimedMap.perform (m : TimedMap) (now : Nat) : (call : Call) → call.Answer × TimedMap
  | .ping => ((), m)
  | .get key => (m.get? now key, m)
  | .set key value ttl => ((), m.set now key value ttl)
  | .getMany keys => (m.getMany now keys, m)
  | .scan start _ => (m.scan now start, m)
  | .delete key => m.delete now key
  | .expire key ttl => m.expire now key ttl

end Gathering.Cache
