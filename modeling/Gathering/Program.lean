/-!
# Programs

A program asks for one effect after another and goes on with the answers. It
does not say what answers: the same program runs in a rehearsal, where time is
virtual and calls can be made to fail, and between the steps of other programs,
in any order.

A program is a tree. Each node holds an effect and, for every answer, the
program that follows; the leaves hold results. Whatever runs a program follows
one path from the root to a leaf, so every program ends.
-/

namespace Gathering

/-- **What asks for effects and ends with a result.** -/
inductive Program {Effect : Type} (Answer : Effect → Type) (α : Type) where
  /-- Ends with a result. -/
  | done (result : α)
  /-- Asks for an effect and goes on with the answer. -/
  | ask (effect : Effect) (next : Answer effect → Program Answer α)

namespace Program

variable {Effect : Type} {Answer : Effect → Type} {α β γ : Type}

/-- Goes on with the result of a program. -/
def bind : Program Answer α → (α → Program Answer β) → Program Answer β
  | done a, f => f a
  | ask e next, f => ask e fun answer => (next answer).bind f

instance : Monad (Program Answer) where
  pure := done
  bind := bind

/-- The program that asks for one effect and ends with the answer. -/
def call (e : Effect) : Program Answer (Answer e) := ask e done

theorem bind_done (p : Program Answer α) : p.bind done = p := by
  induction p with
  | done a => rfl
  | ask e next ih => exact congrArg (ask e) (funext ih)

theorem bind_assoc (p : Program Answer α) (f : α → Program Answer β) (g : β → Program Answer γ) :
    (p.bind f).bind g = p.bind fun a => (f a).bind g := by
  induction p with
  | done a => rfl
  | ask e next ih => exact congrArg (ask e) (funext ih)

instance : LawfulMonad (Program Answer) :=
  LawfulMonad.mk' _ bind_done (fun _ _ => rfl) bind_assoc

end Program

end Gathering
