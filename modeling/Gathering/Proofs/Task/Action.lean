import Gathering.Proofs.Text.Blank
import Gathering.Task.Action
import Mathlib.Tactic.SplitIfs

/-!
# Reading back actions

An action that was read from a text is written by its name and read as itself
again (`Action.parse_name`). The name of an action that is not known is the text
without the blank space around it, and trimming it once more changes nothing.

A text that trims to one of the names in any case is that action, and the name of
the action is then in lower case. So only the unknown actions keep what they were
read from.
-/

namespace Gathering.Action

@[simp] theorem name_unknown (text : String) : (unknown text).name = text := rfl

/-- The actions that have names of their own. -/
def known : List Action := [confirmation, reminder, location, closure]

theorem parse_known : ∀ a ∈ known, parse a.name = .ok a := by
  decide +kernel

/-- A name is that of a known action, or it is kept as it is. -/
theorem ofTrimmed_cases (name : String) :
    ofTrimmed name ∈ known ∨ ofTrimmed name = unknown name := by
  unfold ofTrimmed
  dsimp only
  split_ifs <;> simp [known]

theorem parse_of_not_isEmpty {s : String} (h : ¬ (Text.trim s).isEmpty = true) :
    parse s = .ok (ofTrimmed (Text.trim s)) :=
  if_neg h

/-- **An action that was read is read again from its name.** -/
theorem parse_name {s : String} {a : Action} (h : parse s = .ok a) : parse a.name = .ok a := by
  by_cases hname : (Text.trim s).isEmpty = true
  · unfold parse at h
    rw [if_pos hname] at h
    cases h
  · have ha : ofTrimmed (Text.trim s) = a :=
      Except.ok.inj ((parse_of_not_isEmpty hname).symm.trans h)
    rcases ofTrimmed_cases (Text.trim s) with hknown | hunknown
    · exact parse_known a (ha ▸ hknown)
    · -- the name is the trimmed text, and trimming it again changes nothing
      have hagain : ¬ (Text.trim (Text.trim s)).isEmpty = true := by rwa [Text.trim_trim]
      have hname' : a.name = Text.trim s := by rw [← ha, hunknown, name_unknown]
      calc parse a.name
        _ = parse (Text.trim s) := congrArg parse hname'
        _ = .ok (ofTrimmed (Text.trim (Text.trim s))) := parse_of_not_isEmpty hagain
        _ = .ok a := by rw [Text.trim_trim, ha]

end Gathering.Action
