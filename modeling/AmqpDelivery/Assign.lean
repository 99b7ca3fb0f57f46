/-!
# Assignments

The machines of this library keep their tasks, slots and cells as total functions from identities.
`assign` changes such a function at one place.
-/

namespace AmqpDelivery

variable {α β : Type} [DecidableEq α]

/-- The function that has the value `b` at `a` and agrees with `f` elsewhere. -/
def assign (f : α → β) (a : α) (b : β) : α → β := fun x => if x = a then b else f x

@[simp] theorem assign_self (f : α → β) (a : α) (b : β) : assign f a b a = b := by
  simp [assign]

@[simp] theorem assign_of_ne {f : α → β} {a x : α} {b : β} (h : x ≠ a) :
    assign f a b x = f x := by
  simp [assign, h]

/-- A function that was given a value at one place has that value there, or has the place's value
from before elsewhere. -/
theorem assign_eq_some {f : α → Option β} {a x : α} {b y : β} (h : assign f a (some b) x = some y) :
    x = a ∧ y = b ∨ x ≠ a ∧ f x = some y := by
  by_cases heq : x = a
  · rw [heq, assign_self] at h
    exact Or.inl ⟨heq, (Option.some.inj h).symm⟩
  · rw [assign_of_ne heq] at h
    exact Or.inr ⟨heq, h⟩

end AmqpDelivery
