import Gathering.Proofs.Cache.Alone
import Gathering.Proofs.Snapshot.Contents

/-!
# Whom a snapshot shows

A snapshot of an event is meant to show the event's own participants and nobody
else. Identifiers may be any texts, though, and a name in the cache is made of
identifiers with colons between them. So an identifier with a colon can make the
path of one event begin like the path of another, and then a snapshot of the
latter shows participants of the former.

That is the only way. Snapshots of an event are isolated, whatever runs beside
them, **exactly if** no path in use begins like that of the event without being of
the event (`Snapshot.isolated_iff`). Where neither the events nor the
organisations have a colon in their identifiers, that is so for every event
(`Snapshot.isolated_of_notMem`); the identifiers of participants may be anything.

One direction of the condition is what snapshots show in general. For the other one,
each path that is in use has to be used: something is recorded under it,
undisturbed, and a snapshot is taken that nobody disturbs. If the path began like
that of the event, the snapshot would show it.
-/

namespace Gathering.Snapshot

open Cache (TimedMap)
open Cache.TimedMap (begins)

variable {fails : Request → Prop} {places : String → String → Prop}
  {replies : String → String → String → Prop} {o e o' e' p' : String}

/-- **Snapshots of an event are isolated.** From an empty cache on, any recordings about such
identifiers run at the same time and take turns in any order, and a snapshot is taken among them.
Then it shows the event's locations and the event's replies, and it counts the replies it shows. -/
def Isolated (fails : Request → Prop) (places : String → String → Prop)
    (replies : String → String → String → Prop) (o e : String) : Prop :=
  ∀ (c : EventCacheConfig) (st : Stores) (pool pool' : Pool Stores)
    (turns : List (Turn (Pool Stores))) (snap : Snapshot), st.cache = .empty →
    Pool.Steps (Stores.shared fails Stores.Passes) (Recording places replies) ⟨st, []⟩ pool →
    Work.Runs (around places replies fails) pool (take c o e) turns snap pool' →
    (∀ s ∈ snap.locations, s.eventId = e) ∧
    (∀ x ∈ snap.confirmations, x.orgId = o ∧ x.eventId = e) ∧
    snap.totals = Tally.ofReplies (snap.confirmations.map (·.status))

/-! ## Who is shown must be of the event

Runs that show what isolation asks for. A location is recorded that nobody has a reason to refuse,
and a reply of a participant whose replies are known to the store. -/

/-- After one recording that nobody disturbs, an isolated snapshot does not show what is under its
path, unless it is of the event.

The snapshot comes right after the recording and is not disturbed either, so it shows whatever is
there under its path (`reaches_take`). -/
theorem Isolated.of_reaches {α : Type} {j : Job α} {result : Except Error α} {st st' : Stores}
    (h : Isolated fails places replies o e) (hempty : st.cache = .empty)
    (hcall : Recording places replies ((fun _ => ()) <$> j.run))
    (hreaches : Work.Reaches (Stores.shared fails Stores.Passes) st j.run result st') :
    (∀ key value s, st'.cache.get? st'.clock key = some value →
      begins (Cache.Key.locationsOf e) key = true → Sample.ofBytes? value = some s →
        s.eventId = e) ∧
    (∀ key value x, st'.cache.get? st'.clock key = some value →
      begins (Cache.Key.confirmationsOf o e) key = true → Confirmation.ofBytes? value = some x →
        x.orgId = o ∧ x.eventId = e) := by
  -- the recording runs to its end, and then the snapshot is taken, both of them undisturbed
  have hsteps : Pool.Steps (Stores.shared fails Stores.Passes) (Recording places replies) ⟨st, []⟩
      ⟨st', [.done ()]⟩ :=
    .head (.starts hcall) (Pool.steps_of_reaches (hreaches.map fun _ => ()))
  obtain ⟨snap, htaken, hlocations, hconfirmations⟩ :=
    reaches_take fails Stores.Passes.refl {} o e st'
  have hamong : Work.Reaches (around places replies fails) ⟨st', [.done ()]⟩ (take {} o e) snap
      ⟨st', [.done ()]⟩ :=
    Pool.reaches_around htaken
  obtain ⟨turns, run⟩ := hamong
  obtain ⟨hshown, hshown', -⟩ := h {} st _ _ turns snap hempty hsteps run
  exact ⟨fun key value s hget hbegins hread => hshown s (hlocations key value s hget hbegins hread),
    fun key value x hget hbegins hread => hshown' x (hconfirmations key value x hget hbegins hread)⟩

/-- **A location that is found under the event is the event's**, if snapshots are isolated. -/
theorem Isolated.place (h : Isolated fails places replies o e) (hplace : places e' p')
    (he : Text.isBlank e' = false) (hp : Text.isBlank p' = false)
    (hbegins : begins (e ++ ":") (Cache.Key.locationPath e' p') = true) : e' = e := by
  obtain ⟨ttl, httl, hpos⟩ := Tracking.exists_remaining_epoch
  have hreaches := Tracking.reaches_record_ofPlace fails Stores.Passes.refl he hp httl
  have hshown := (h.of_reaches rfl (.location {} (.ofPlace e' p' none) hplace) hreaches).1
  refine hshown _ _ (.ofPlace e' p' .epoch) (Stores.get?_cached _ _ hpos)
    (Cache.Key.begins_location.trans hbegins) ?_
  rw [Sample.ofBytes?_toBytes, Sample.reread?_ofPlace]

/-- **A reply that is found under the event is the event's**, if snapshots are isolated. -/
theorem Isolated.reply (h : Isolated fails places replies o e) (hreply : replies o' e' p')
    (hbegins : begins (o ++ ":" ++ e ++ ":") (Cache.Key.confirmationPath o' e' p') = true) :
    o' = o ∧ e' = e := by
  obtain ⟨st', result, hreaches, hget⟩ := Rsvp.reaches_record fails Stores.Passes.refl
    ⟨p', e', o', "", "", .pending⟩ .confirmed
  have hshown := (h.of_reaches rfl (.reply {} o' e' p' .confirmed hreply) hreaches).2
  exact hshown _ _ ⟨o', e', p', .confirmed, .epoch⟩ hget
    (Cache.Key.begins_confirmation.trans hbegins) (Confirmation.ofBytes?_toBytes _)

/-! ## The condition

What is in use is told by the relations, and whether a path begins like another by its characters.
No further assumption is made, neither on the identifiers nor on which calls fail. -/

/-- **Snapshots are isolated** if whatever is recorded under the event's path is the event's, since
nothing else is shown. -/
theorem isolated_of_paths
    (hplaces : ∀ e' p', places e' p' → Text.isBlank e' = false → Text.isBlank p' = false →
      begins (e ++ ":") (Cache.Key.locationPath e' p') = true → e' = e)
    (hreplies : ∀ o' e' p', replies o' e' p' →
      begins (o ++ ":" ++ e ++ ":") (Cache.Key.confirmationPath o' e' p') = true →
        o' = o ∧ e' = e) :
    Isolated fails places replies o e := by
  intro c st pool pool' turns snap hempty hsteps run
  have hkeeps : Keeps places replies ⟨st, []⟩ :=
    ⟨Stores.isFiled_of_empty hempty, fun _ h => by cases h⟩
  have hshows := shows_of_runs run
    (hkeeps.steps (fun _ => Recording.asks) (fun _ _ => Stores.IsFiled.passes)
      (fun _ _ _ _ => Stores.IsFiled.answers) hsteps)
  refine ⟨fun s hs => ?_, fun x hx => ?_, hshows.totals⟩
  · obtain ⟨hplace, he, hp, hbegins⟩ := hshows.locations s hs
    exact hplaces _ _ hplace he hp hbegins
  · obtain ⟨hreply, hbegins⟩ := hshows.confirmations x hx
    exact hreplies _ _ _ hreply hbegins

/-- **When snapshots of an event are isolated**: exactly if whatever is recorded under the event's
path is the event's. Locations with blank identifiers do not count, since they are refused.

It does not matter which calls may fail, as the runs that are used have no failures in them. -/
theorem isolated_iff :
    Isolated fails places replies o e ↔
      (∀ e' p', places e' p' → Text.isBlank e' = false → Text.isBlank p' = false →
        begins (e ++ ":") (Cache.Key.locationPath e' p') = true → e' = e) ∧
      (∀ o' e' p', replies o' e' p' →
        begins (o ++ ":" ++ e ++ ":") (Cache.Key.confirmationPath o' e' p') = true →
          o' = o ∧ e' = e) := by
  constructor
  · exact fun h => ⟨fun _ _ => h.place, fun _ _ _ => h.reply⟩
  · exact fun h => isolated_of_paths h.1 h.2

/-- **Snapshots are not isolated for all identifiers.** Where participants of an event `e1:x` have
been, a snapshot of the event `e1` shows it. -/
theorem not_isolated_of_colon :
    ¬ Isolated (fun _ => False) (fun _ _ => True) (fun _ _ _ => True) "o" "e1" := by
  intro h
  have hevent : "e1:x" = "e1" := @Isolated.place _ _ _ _ _ _ "p" h trivial (by decide +kernel)
    (by decide +kernel) (by decide +kernel)
  exact absurd hevent (by decide)

/-- **Without colons in the identifiers of organisations and events, snapshots are isolated.**

A path ends its identifiers with colons, so two paths that begin alike have the same text up to
the first colon, which is the identifier. -/
theorem isolated_of_notMem (ho : ':' ∉ o.toList) (he : ':' ∉ e.toList)
    (hplaces : ∀ e' p', places e' p' → ':' ∉ e'.toList)
    (hreplies : ∀ o' e' p', replies o' e' p' → ':' ∉ o'.toList ∧ ':' ∉ e'.toList) :
    Isolated fails places replies o e := by
  refine isolated_of_paths (fun e' p' hplace _ _ => ?_) (fun o' e' p' hreply => ?_)
  · exact Cache.Key.eq_of_begins he (hplaces e' p' hplace)
  · obtain ⟨ho', he'⟩ := hreplies o' e' p' hreply
    exact Cache.Key.eq_of_begins_confirmation ho he ho' he'

end Gathering.Snapshot
