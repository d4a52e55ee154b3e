import Gathering.Proofs.Json.FreeForm
import Gathering.Proofs.Task.Action
import Gathering.Task.Basic

/-!
# Reading back tasks

The bytes of a task are read as the task itself if it is **storable**, and else not
(`Task.ofBytes?_toBytes_iff`). A task is storable if its action is one that is read
from its own name, its two counts fit their fields, and what its maker has attached is
a regular value that fits into the one container that the task is. Everything else
about a task comes back whatever it is: its texts, its instants and what is missing.
-/

namespace Gathering

theorem TaskStatus.ofJson?_tree (s : TaskStatus) : ofJson? s.toJson.tree = some s := by
  unfold ofJson? toJson
  rw [Json.choice?_tree]
  cases s <;> rfl

/-- An action is read back just if it is read from its own name. -/
theorem Action.ofJson?_tree_iff {a : Action} :
    ofJson? a.toJson.tree = some a ↔ parse a.name = .ok a := by
  unfold ofJson? toJson
  rw [Json.text?_tree, Option.bind_some]
  cases parse a.name with
  | ok b =>
    exact ⟨fun h => congrArg _ (Option.some_inj.mp h), fun h => congrArg _ (Except.ok.inj h)⟩
  | error e => exact iff_of_false nofun nofun

namespace Task

/-- The bytes of a task. -/
def toBytes (t : Task) : ByteArray := t.toJson.toBytes

/-- The task that bytes hold. -/
def ofBytes? (bytes : ByteArray) : Option Task := (Json.Tree.ofBytes? bytes).bind ofJson?

/-- How many containers may lie inside each other in what is attached to a task. -/
def depthLimit : Nat := Json.depthLimit - 1

/-- **A task that comes back from its bytes.** -/
structure IsStorable (t : Task) : Prop where
  /-- The action is read from its own name. -/
  action : Action.parse t.action.name = .ok t.action
  /-- The count of failed attempts fits its field. -/
  retries : t.retries < retryBound
  /-- So does the number of attempts. -/
  maxRetries : t.maxRetries < retryBound
  /-- What is attached is not nested too deep. -/
  depth : t.metadata.depth ≤ depthLimit
  /-- It is a value that could have been read. -/
  metadata : t.metadata.IsRegular

/-- **What becomes of a task in its record**: everything comes back but for what has to be read. -/
theorem ofJson?_tree (t : Task) : ofJson? t.toJson.tree = (do
    let action ← Action.ofJson? t.action.toJson.tree
    let retries ← (Json.Value.ofNat t.retries).tree.nat? retryBound
    let maxRetries ← (Json.Value.ofNat t.maxRetries).tree.nat? retryBound
    let metadata ← Json.Value.ofTree? depthLimit t.metadata.tree
    some { t with action, retries, maxRetries, metadata }) := by
  refine (@Json.read_object _ fieldNames _ rfl (by decide) _).trans ?_
  simp only [List.map, Json.required_cons, Json.optional_cons, String.reduceEq, if_true, if_false,
    Json.text?_tree, Json.instant?_tree, Json.optionally_text, Json.optionally_instant,
    TaskStatus.ofJson?_tree]
  rfl

/-- **The tasks that come back from their bytes** are the storable ones. -/
theorem ofBytes?_toBytes_iff (t : Task) : ofBytes? t.toBytes = some t ↔ t.IsStorable := by
  unfold ofBytes? toBytes
  rw [Json.Tree.ofBytes?_toBytes, Option.bind_some, ofJson?_tree]
  constructor
  · intro h
    simp only [Option.bind_eq_bind, Option.bind_eq_some_iff, Option.some_inj] at h
    obtain ⟨action, haction, retries, hretries, maxRetries, hmax, metadata, hmetadata, h⟩ := h
    obtain rfl : action = t.action := congrArg Task.action h
    obtain rfl : retries = t.retries := congrArg Task.retries h
    obtain rfl : maxRetries = t.maxRetries := congrArg Task.maxRetries h
    obtain rfl : metadata = t.metadata := congrArg Task.metadata h
    obtain ⟨hdepth, hregular⟩ := (Json.Value.ofTree?_tree_iff depthLimit t.metadata).mp hmetadata
    exact ⟨Action.ofJson?_tree_iff.mp haction, Json.lt_of_nat? hretries, Json.lt_of_nat? hmax,
      hdepth, hregular⟩
  · intro h
    have hword : retryBound ≤ Json.wordBound := by decide
    rw [Action.ofJson?_tree_iff.mpr h.action, (Json.nat?_ofNat_iff hword).mpr h.retries,
      (Json.nat?_ofNat_iff hword).mpr h.maxRetries,
      (Json.Value.ofTree?_tree_iff depthLimit t.metadata).mpr ⟨h.depth, h.metadata⟩]
    rfl

end Task

end Gathering
