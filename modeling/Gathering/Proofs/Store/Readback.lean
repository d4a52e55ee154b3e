import Gathering.Proofs.Scheduler.Making
import Gathering.Proofs.Snapshot.Confirmation
import Gathering.Proofs.Store.Finality
import Gathering.Proofs.Store.Single
import Gathering.Proofs.Task.Record
import Gathering.Snapshot.Cached

/-!
# What is stored is read back

Two records leave the process as bytes: the reply of a participant, which is cached,
and the task, which a store of tasks keeps. Both come back as they were.

A reply always does, whatever its texts and its instant are. A task does as long as it
is storable (`Task.IsStorable`), and that is settled when it is made: its action was
read from a text, what is attached to it is fixed, and so is the number of attempts.
No call of the store touches these, so the task stays storable for as long as its
count of failed attempts fits its field (`TaskStore.History.isStorable`).
-/

namespace Gathering

/-! ## Replies -/

/-- **Whatever is written when a reply is cached** is read as the reply. -/
theorem Confirmation.cache_readable (c : EventCacheConfig) (entry : Confirmation)
    (until_ : Option Instant) :
    (entry.cache c until_).Asks fun e =>
      ∀ key bytes ttl, e = .request (.cache (.set key bytes ttl)) →
        ofBytes? bytes = some entry := by
  refine Job.Obeys.lift (fun _ _ _ h => by cases h) fun now => ?_
  split
  · refine Job.Asks.cache fun key bytes ttl he => ?_
    cases he
    exact entry.ofBytes?_toBytes
  · trivial

/-! ## Tasks -/

/-- **A task that was made is storable**, if what its maker has said about it is. -/
theorem Task.IsMade.isStorable {t : Task} (h : t.IsMade) (hmax : t.maxRetries < Task.retryBound)
    (hdepth : t.metadata.depth ≤ Task.depthLimit) (hmetadata : t.metadata.IsRegular) :
    t.IsStorable where
  action := by
    obtain ⟨draft, n, id, now, hmake⟩ := h
    obtain ⟨sound, hcheck, htask⟩ := exists_of_bind_eq_ok hmake
    obtain ⟨-, ⟨text, haction⟩, -⟩ := TaskDraft.sound_of_check hcheck
    cases htask
    exact Action.parse_name haction
  retries := by
    rw [h.fresh.2.1]
    decide
  maxRetries := hmax
  depth := hdepth
  metadata := hmetadata

namespace TaskStore

variable {s s' : TaskStore} {entries : List Entry} {x : String} {t t' : Task}

/-- **A storable task stays storable** whatever is called, as long as its failed attempts can be
counted.

Of the five conditions all but the count are about what was fixed when the task was made, and its
origin stays. The count is the only one that calls can touch. -/
theorem History.isStorable (h : History s entries s') (hfirst : s.find? x = some t)
    (hlast : s'.find? x = some t') (hstorable : t.IsStorable)
    (hretries : t'.retries < Task.retryBound) : t'.IsStorable := by
  obtain ⟨u, hu, horigin, -⟩ := h.task hfirst
  obtain rfl : u = t' := Option.some_inj.mp (hu.symm.trans hlast)
  have haction : u.action = t.action := congrArg Origin.action horigin
  have hmax : u.maxRetries = t.maxRetries := congrArg Origin.maxRetries horigin
  have hmetadata : u.metadata = t.metadata := congrArg Origin.metadata horigin
  exact ⟨haction ▸ hstorable.action, hretries, hmax ▸ hstorable.maxRetries,
    hmetadata ▸ hstorable.depth, hmetadata ▸ hstorable.metadata⟩

/-- **What is stored is read back.** A reply is read from the bytes that are cached for it. A task
that was made from a draft, and has since gone through any calls of a store, is read from its
bytes, and has the same bytes again; what is attached to it may be nested 126 containers deep and
has to be regular, and its counts are such as fit their fields.

The limit of 126 comes from the reader of a record, which refuses texts that are nested more than
127 containers deep; the task itself is the first of these. -/
theorem readback (reply : Confirmation) {draft : TaskDraft} {n : Nat} {now : Instant}
    (made : draft.make n x now = .ok t) (hmax : t.maxRetries < Task.retryBound)
    (hdepth : t.metadata.depth ≤ 126) (hmetadata : t.metadata.IsRegular)
    (history : History s entries s') (hfirst : s.find? x = some t) (hlast : s'.find? x = some t')
    (hretries : t'.retries < Task.retryBound) :
    (Confirmation.ofBytes? reply.toBytes = some reply ∧
      ∀ c until_, (reply.cache c until_).Asks fun e => ∀ key bytes ttl,
        e = .request (.cache (.set key bytes ttl)) →
          Confirmation.ofBytes? bytes = some reply) ∧
    Task.ofBytes? t'.toBytes = some t' ∧
      (Task.ofBytes? t'.toBytes).map Task.toBytes = some t'.toBytes := by
  have hmade : t.IsMade := ⟨draft, n, x, now, made⟩
  have hstorable :=
    history.isStorable hfirst hlast (hmade.isStorable hmax hdepth hmetadata) hretries
  have htask := t'.ofBytes?_toBytes_iff.mpr hstorable
  refine ⟨⟨reply.ofBytes?_toBytes, fun c until_ => reply.cache_readable c until_⟩, htask, ?_⟩
  rw [htask]
  rfl

/-- A draft with something attached to it, and a limit of three attempts. -/
def attachedDraft : TaskDraft where
  eventId := "event"
  action := some " Reminder "
  scheduledAt := some .epoch
  maxRetries := some 3
  metadata := some (.object [("by", .text "A"), ("tags", .array [.null, .ofInt (-1)])])

/-- The task of this draft. -/
def attached : Task := attachedDraft.toTask ⟨.reminder, .epoch, 3⟩ "x" .epoch

/-- This task is read back after an attempt has failed, and so is a reply. -/
theorem readback_of_attached :
    ∃ t, t.retries = 1 ∧ t.errorMessage = some "late" ∧ Task.ofBytes? t.toBytes = some t ∧
      Confirmation.ofBytes? (Confirmation.toBytes ⟨"o", "e", "p", .denied, .epoch⟩) =
        some ⟨"o", "e", "p", .denied, .epoch⟩ := by
  have haction : Action.ofTrimmed (Text.trim " Reminder ") = .reminder := by decide +kernel
  have hcheck : attachedDraft.check 1 = .ok ⟨.reminder, .epoch, 3⟩ := by
    rw [← haction]
    rfl
  have made : attachedDraft.make 1 "x" .epoch = .ok attached := by
    unfold TaskDraft.make
    rw [hcheck]
    rfl
  have hregular : attached.metadata.IsRegular :=
    ⟨by decide, trivial, ⟨trivial, ⟨by decide, by decide⟩, trivial⟩, trivial⟩
  have history : History (.only attached) [⟨.epoch, .incrementRetries "x" "" "late", .ok (some 1)⟩]
      _ := .single rfl
  obtain ⟨⟨hreply, -⟩, htask, -⟩ := readback ⟨"o", "e", "p", .denied, .epoch⟩ made (by decide)
    (by decide) hregular history (find?_only attached) rfl (by decide)
  exact ⟨_, rfl, rfl, htask, hreply⟩

end TaskStore

end Gathering
