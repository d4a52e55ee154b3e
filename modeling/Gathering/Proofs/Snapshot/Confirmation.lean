import Gathering.Proofs.Json.Record
import Gathering.Snapshot.Basic

/-!
# Reading back replies

Every cached reply is read back from its bytes (`Confirmation.ofBytes?_toBytes`):
it holds texts, one of four replies and an instant, and all of them come back.
-/

namespace Gathering

/-- A reply is read back. -/
theorem Rsvp.ofJson?_tree (r : Rsvp) : Rsvp.ofJson? r.toJson.tree = some r := by
  unfold ofJson? toJson
  rw [Json.choice?_tree]
  cases r <;> rfl

namespace Confirmation

/-- **Every cached reply is read back from its bytes.** -/
theorem ofBytes?_toBytes (c : Confirmation) : ofBytes? c.toBytes = some c := by
  unfold ofBytes? toBytes
  rw [Json.Tree.ofBytes?_toBytes, Option.bind_some]
  refine (@Json.read_object _ fieldNames _ rfl (by decide) _).trans ?_
  simp only [List.map, Json.required_cons, String.reduceEq, if_true, if_false, Json.text?_tree,
    Json.instant?_tree, Rsvp.ofJson?_tree]
  rfl

end Confirmation

end Gathering
