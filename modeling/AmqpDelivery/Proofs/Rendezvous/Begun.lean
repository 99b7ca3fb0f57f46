import Mathlib.Data.List.Induction
import AmqpDelivery.Proofs.Rendezvous.Acts

/-!
# The tasks of a run

A task is asked to do one thing, when it is begun (`callOf`). From then on it stays where it is or
acts, and once it has ended it stays (`State.step_task`, `State.step_ended`).
-/

namespace AmqpDelivery.Rendezvous

variable {α : Type}

/-- What an event asks the task `t` to do. -/
def Event.asks? (t : TaskId) : Event α → Option (Call α)
  | .spawn u call => if u = t then some call else none
  | _ => none

/-- What the task `t` is asked to do in a run in which it is begun. -/
def callOf (t : TaskId) (events : List (Event α)) : Option (Call α) :=
  events.findSome? (Event.asks? t)

/-- The task does nothing any more. -/
def Stage.Ended : Stage α → Prop
  | .finished _ | .dropped => True
  | _ => False

/-- The task has come to the result and returns it, or has returned it. -/
def Stage.Brings (result : Except Failure α) : Stage α → Prop
  | .leaving _ r | .finished (.received r) => r = result
  | _ => False

theorem Event.eq_spawn_of_asks {t : TaskId} {e : Event α} {call : Call α}
    (h : e.asks? t = some call) : e = .spawn t call := by
  unfold asks? at h
  split at h
  · split at h
    · cases h
      subst t
      rfl
    · cases h
  · cases h

theorem callOf_concat (t : TaskId) (events : List (Event α)) (e : Event α) :
    callOf t (events ++ [e]) = (callOf t events).or (e.asks? t) := by
  simp [callOf, List.findSome?_append]

theorem callOf_append {t : TaskId} {call : Call α} {es : List (Event α)}
    (h : callOf t es = some call) (fs : List (Event α)) : callOf t (es ++ fs) = some call := by
  unfold callOf at *
  rw [List.findSome?_append, h, Option.some_or]

section Acts

variable {s next : State α} {e : Event α} {t : TaskId} {x y : Stage α} {notes : List (Note α)}

/-- An act moves one task to its next stage. -/
theorem Act.tasks (h : Act s e t x y next notes) : next.tasks = assign s.tasks t (some y) := by
  cases h <;> rfl

/-- A task that acts had not ended. -/
theorem Act.not_ended (h : Act s e t x y next notes) : ¬ x.Ended := by
  cases h with
  | pass h => cases h <;> exact id
  | hit he hclosed hfind h => cases h <;> exact id
  | miss he hfind h => cases h <;> exact id
  | opens he hclosed hfind h => cases h <;> exact id
  | makes he => exact id
  | removes he h => cases h <;> exact id
  | clears he => exact id
  | turns h => cases h <;> exact id

theorem Caller.brings_resolved (caller : Caller) (result : Except Failure α) :
    (caller.resolved result).Brings result := by
  cases caller <;> rfl

/-- A task keeps the result that it has come to. -/
theorem Act.brings {result : Except Failure α} (h : Act s e t x y next notes)
    (hx : x.Brings result) : y.Brings result := by
  cases h with
  | pass h => cases h <;> exact hx.elim
  | hit he hclosed hfind h => cases h <;> exact hx.elim
  | miss he hfind h => cases h <;> exact hx.elim
  | opens he hclosed hfind h => cases h <;> exact hx.elim
  | makes he => exact hx.elim
  | removes he h =>
      cases h with
      | leave r => exact hx
      | _ => exact hx.elim
  | clears he => exact hx.elim
  | turns h => cases h <;> exact hx.elim

end Acts

namespace State

variable {s : State α} {t : TaskId} {x : Stage α}

theorem run_append (s : State α) (es fs : List (Event α)) :
    s.run (es ++ fs) = (s.run es).run fs :=
  List.foldl_append

theorem run_concat (s : State α) (events : List (Event α)) (e : Event α) :
    s.run (events ++ [e]) = (s.run events).step e :=
  s.run_append events [e]

/-- A task that is begun stays where it is or acts. -/
theorem step_task (ht : s.tasks t = some x) (e : Event α) :
    (s.step e).tasks t = some x ∨ ∃ y, e.task? = some t ∧ (s.step e).tasks t = some y ∧
      Act s e t x y (s.step e) (s.notes e) := by
  have hchange := s.step_change e
  generalize s.step e = next, s.notes e = notes at hchange ⊢
  cases hchange with
  | rests now hblocked hbegun => exact Or.inl ht
  | @begins u call he hu =>
      have hne : t ≠ u := by
        rintro rfl
        rw [ht] at hu
        cases hu
      left
      simpa [goto, hne] using ht
  | @acts u z y next notes he hu h =>
      by_cases hut : t = u
      · subst hut
        obtain rfl : x = z := Option.some.inj (ht.symm.trans hu)
        exact Or.inr ⟨y, he, by rw [h.tasks, assign_self], h⟩
      · left
        rw [h.tasks, assign_of_ne hut]
        exact ht

/-- A task that is not begun is begun with what the event asks of it, or not yet. -/
theorem step_unbegun (ht : s.tasks t = none) (e : Event α) :
    (s.step e).tasks t = (e.asks? t).map .ready := by
  have hchange := s.step_change e
  generalize s.step e = next, s.notes e = notes at hchange ⊢
  cases hchange with
  | rests now hblocked hbegun =>
      cases h : e.asks? t with
      | none => exact ht
      | some call => exact absurd ht (hbegun t call (Event.eq_spawn_of_asks h))
  | @begins u call he hu =>
      subst he
      by_cases hut : u = t
      · subst hut
        simp [goto, Event.asks?]
      · simpa [goto, Event.asks?, hut, Ne.symm hut] using ht
  | @acts u z y next notes he hu h =>
      have hut : t ≠ u := by
        rintro rfl
        rw [ht] at hu
        cases hu
      rw [h.tasks, assign_of_ne hut, ht]
      cases h : e.asks? t with
      | none => rfl
      | some call =>
          rw [Event.eq_spawn_of_asks h] at he
          exact absurd (Option.some.inj he) hut

/-- A task that has ended stays as it is. -/
theorem step_ended (ht : s.tasks t = some x) (hx : x.Ended) (e : Event α) :
    (s.step e).tasks t = some x := by
  rcases s.step_task ht e with hstay | ⟨y, he, hy, hact⟩
  · exact hstay
  · exact absurd hx hact.not_ended

/-- A task that is there stays there. -/
theorem run_begun (ht : s.tasks t ≠ none) (events : List (Event α)) :
    (s.run events).tasks t ≠ none := by
  induction events generalizing s with
  | nil => exact ht
  | cons e events ih =>
      apply ih
      obtain ⟨x, hx⟩ := Option.ne_none_iff_exists'.mp ht
      rcases step_task hx e with hstay | ⟨y, -, hy, -⟩
      · simp [hstay]
      · simp [hy]

/-- A task is not there until the run asks it to do something. -/
theorem run_unbegun (ht : s.tasks t = none) (events : List (Event α))
    (hcall : callOf t events = none) : (s.run events).tasks t = none := by
  induction events using List.reverseRecOn with
  | nil => exact ht
  | append_singleton events e ih =>
      rw [callOf_concat, Option.or_eq_none_iff] at hcall
      rw [run_concat, step_unbegun (ih hcall.1), hcall.2]
      rfl

/-- A task that the run asks to do something is there. -/
theorem run_asked {call : Call α} (events : List (Event α)) (hcall : callOf t events = some call) :
    (s.run events).tasks t ≠ none := by
  induction events using List.reverseRecOn with
  | nil => cases hcall
  | append_singleton events e ih =>
      rw [run_concat]
      rw [callOf_concat] at hcall
      cases hbefore : callOf t events with
      | some other =>
          rw [hbefore, Option.some_or] at hcall
          exact run_begun (ih (hbefore.trans hcall)) [e]
      | none =>
          rw [hbefore, Option.none_or] at hcall
          cases ht : (s.run events).tasks t with
          | none => simp [step_unbegun ht, hcall]
          | some x => exact run_begun (by simp [ht]) [e]

/-- What a task that is there was asked to do, it was asked by then. -/
theorem asked_before {call : Call α} (hnew : s.tasks t = none) {es fs : List (Event α)}
    (ht : (s.run es).tasks t ≠ none) (hcall : callOf t (es ++ fs) = some call) :
    callOf t es = some call := by
  cases hbefore : callOf t es with
  | none => exact absurd (run_unbegun hnew es hbefore) ht
  | some other => exact (callOf_append hbefore fs).symm.trans hcall

/-- A run has not asked a task that is not there to do anything. -/
theorem not_asked (events : List (Event α)) (ht : (s.run events).tasks t = none) :
    callOf t events = none := by
  cases hcall : callOf t events with
  | none => rfl
  | some call => exact absurd ht (run_asked events hcall)

end State

end AmqpDelivery.Rendezvous
