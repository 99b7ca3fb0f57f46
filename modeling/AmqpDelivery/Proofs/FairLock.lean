import Mathlib.Data.List.Nodup
import AmqpDelivery.FairLock

/-!
# The tasks at a lock

The tasks at a lock are its holder and those in its queue. Asking for the lock adds a task, letting
go of it or going away takes one off. Nobody but the holder can take the lock from the holder
(`FairLock.holder_acquire`, `FairLock.holder_leave`), and nobody waits for a free lock
(`FairLock.Prompt`).
-/

namespace AmqpDelivery

namespace FairLock

/-- The holder of a lock and those that wait for it. -/
def tasks (l : FairLock) : List TaskId := l.holder.toList ++ l.queue

variable {l l' : FairLock} {t u : TaskId}

theorem isHeldBy_iff : l.isHeldBy t = true ↔ l.holder = some t := decide_eq_true_iff

theorem mem_tasks : u ∈ l.tasks ↔ l.holder = some u ∨ u ∈ l.queue := by
  rw [tasks, List.mem_append, Option.mem_toList]

/-- A lock without tasks is free. -/
theorem eq_free (h : ∀ u, u ∉ l.tasks) : l = {} := by
  have hempty : l.tasks = [] := List.eq_nil_iff_forall_not_mem.2 h
  obtain ⟨hholder, hqueue⟩ := List.append_eq_nil_iff.1 hempty
  obtain ⟨holder, queue⟩ := l
  rw [Option.toList_eq_nil_iff] at hholder
  cases hholder
  cases hqueue
  rfl

/-- Asking for a lock that is held takes it from nobody. -/
theorem holder_acquire (h : l.holder = some u) : (l.acquire t).holder = some u := by
  simp only [acquire, h]

theorem holder_acquire_free (h : l.holder = none) : (l.acquire t).holder = some t := by
  simp only [acquire, h]

theorem mem_tasks_acquire : u ∈ (l.acquire t).tasks ↔ u = t ∨ u ∈ l.tasks := by
  unfold acquire
  split
  · next hnone => simp [mem_tasks, hnone, eq_comm]
  · next v hsome => simp [mem_tasks, hsome, or_comm, or_left_comm]

theorem nodup_acquire (hnodup : l.tasks.Nodup) (ht : t ∉ l.tasks) : (l.acquire t).tasks.Nodup := by
  unfold acquire
  split
  · next hnone =>
    simp only [tasks, hnone, Option.toList_none, List.nil_append] at hnodup ht
    exact List.nodup_cons.2 ⟨ht, hnodup⟩
  · next v hsome =>
    show (l.holder.toList ++ (l.queue ++ [t])).Nodup
    rw [← List.append_assoc, ← List.concat_eq_append]
    exact hnodup.concat ht

/-- The holder stands first. -/
theorem tasks_of_held (h : l.holder = some t) : l.tasks = t :: l.release.tasks := by
  obtain ⟨holder, queue⟩ := l
  cases h
  cases queue <;> rfl

/-- Going away takes the lock from nobody else. -/
theorem holder_leave (h : l.holder = some u) (hne : u ≠ t) : (l.leave t).holder = some u := by
  have hother : l.holder ≠ some t := fun heq => hne (Option.some.inj (h.symm.trans heq))
  rw [leave, if_neg hother]
  exact h

/-- Whoever goes away is at the lock no more. -/
theorem tasks_leave (l : FairLock) (t : TaskId) : (l.leave t).tasks = l.tasks.erase t := by
  by_cases h : l.holder = some t
  · rw [leave, if_pos h, tasks_of_held h, List.erase_cons_head]
  · rw [leave, if_neg h]
    show l.holder.toList ++ l.queue.erase t = (l.holder.toList ++ l.queue).erase t
    have hnotin : t ∉ l.holder.toList := by
      rw [Option.mem_toList]
      exact h
    rw [List.erase_append_right _ hnotin]

/-- Nobody is in line for the lock when it is free. -/
def Prompt (l : FairLock) : Prop := l.holder = none → l.queue = []

theorem prompt_acquire (l : FairLock) (t : TaskId) : (l.acquire t).Prompt := by
  unfold acquire
  split
  · rintro ⟨⟩
  · next u hheld =>
    intro hfree
    cases hheld.symm.trans hfree

theorem prompt_release (l : FairLock) : l.release.Prompt := by
  intro hfree
  rw [release, List.head?_eq_none_iff.1 hfree]
  rfl

theorem Prompt.leave (h : l.Prompt) : (l.leave t).Prompt := by
  unfold FairLock.leave
  split
  · exact l.prompt_release
  · intro hfree
    show l.queue.erase t = []
    rw [h hfree]
    rfl

end FairLock

end AmqpDelivery
