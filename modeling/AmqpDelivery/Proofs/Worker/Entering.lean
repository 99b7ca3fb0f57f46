import AmqpDelivery.Proofs.Worker.Effect

/-!
# What a worker asks of its limiter

A worker waits for the limiter with one delivery at most. It asks for it to be let in when it has
read it, and may say later that it no longer waits (`Worker.step_queues`). When the limiter lets the
delivery in, its handler is started (`Worker.step_entered`).
-/

namespace AmqpDelivery

/-- The action concerns the delivery that waits for the limiter. -/
def WorkerAction.isEntry : WorkerAction → Bool
  | .submit _ _ | .withdraw | .handle _ _ => true
  | _ => false

/-- What an event that is no answer of the limiter makes of the delivery that waits for it. -/
inductive Worker.Queues (w : Worker) (r : Worker × List WorkerAction) : Prop
  | stays (hsame : r.1.waiting? = w.waiting?) (hactions : r.2.filter WorkerAction.isEntry = [])
  | reads {c : ChannelRef} {m : Message} (hnone : w.waiting? = none)
      (hafter : r.1.waiting? = some (c, m))
      (hactions : r.2.filter WorkerAction.isEntry = [.submit c m])
  | withdraws {x : ChannelRef × Message} (hbefore : w.waiting? = some x)
      (hafter : r.1.waiting? = none) (hactions : r.2.filter WorkerAction.isEntry = [.withdraw])

namespace Worker

section Queues

variable {w : Worker} {e : WorkerEvent} {c : ChannelRef} {m : Message}

theorem waiting?_eq_some : w.waiting? = some (c, m) ↔ w.phase = .entering c m := by
  unfold waiting?
  cases w.phase <;> simp

theorem waiting?_congr {next : Worker} (h : next.phase = w.phase) : next.waiting? = w.waiting? := by
  rw [waiting?, waiting?, h]

/-- A worker withdraws only when it notices that it was told to stop. -/
theorem withdraw_not_mem_of_ne_notice (he : e ≠ .notice) : .withdraw ∉ (w.step e).2 := by
  cases e with
  | notice => exact absurd rfl he
  | shutdown | dropped i => exact List.not_mem_nil
  | proceed | connected result | opened result | prepared accepted | item i | entered result
  | status isConnected | cancelled | drained | expired | released | rested =>
      simp only [step, proceed, connected, opened, prepared, prepare, item, entered, status, drained,
        expired, released, rested]
      repeat' split
      all_goals simp [ask, goto]
  | handled i run | answered i result =>
      simp only [step, handled, answered, advance]
      repeat' split
      all_goals simp

/-- A worker that does not wait for the limiter withdraws nothing. -/
theorem withdraw_not_mem (h : w.waiting? = none) : .withdraw ∉ (w.step e).2 := by
  by_cases he : e = .notice
  · subst he
    simp only [step]
    split
    · cases hp : w.phase with
      | entering c m =>
          rw [waiting?_eq_some.2 hp] at h
          cases h
      | _ => simp [notice, ask, goto]
    · exact List.not_mem_nil
  · exact withdraw_not_mem_of_ne_notice he

/-- The call that a dispatch comes to does not concern the limiter. -/
theorem filter_isEntry_call (stage : Stage) (channel : ChannelRef) :
    ((stage.call?.map fun call => WorkerAction.call channel call).toList).filter
      WorkerAction.isEntry = [] := by
  cases stage.call? <;> rfl

/-- Going on with a dispatch leaves the worker where it stands. -/
theorem advance_entry (w : Worker) (i : Nat) (f : Handling → Stage) :
    (w.advance i f).1.phase = w.phase ∧ (w.advance i f).2.filter WorkerAction.isEntry = [] := by
  unfold advance
  cases w.handlings[i]? with
  | none => exact ⟨rfl, rfl⟩
  | some h =>
      simp only
      split
      · exact ⟨rfl, rfl⟩
      · exact ⟨rfl, filter_isEntry_call (f h) h.channel⟩

/-- While a worker waits for the limiter, everything but an answer leaves it waiting or makes it
withdraw. -/
theorem step_of_entering (hp : w.phase = .entering c m) (he : ∀ answer, e ≠ .entered answer) :
    (w.step e).1.phase = w.phase ∧ (w.step e).2.filter WorkerAction.isEntry = [] ∨
      w.step e = ({ w with phase := .leaving c (.ok ()) }, [.withdraw]) := by
  cases e with
  | entered answer => exact absurd rfl (he answer)
  | notice =>
      simp only [step, hp]
      split
      · exact Or.inr rfl
      · exact Or.inl ⟨hp, rfl⟩
  | shutdown | dropped i => exact Or.inl ⟨rfl, rfl⟩
  | handled i run =>
      simp only [step, handled]
      split
      · exact Or.inl (w.advance_entry i _)
      · exact Or.inl ⟨rfl, rfl⟩
  | answered i answer =>
      simp only [step, answered]
      split
      · exact Or.inl ⟨rfl, rfl⟩
      · exact Or.inl (w.advance_entry i _)
  | cancelled =>
      simp only [step, hp]
      exact Or.inl ⟨trivial, rfl⟩
  | _ =>
      simp only [step, hp]
      exact Or.inl ⟨hp, rfl⟩

/-- Of the quiet actions only a withdrawal concerns the limiter. -/
theorem filter_isEntry_of_quiet {actions : List WorkerAction} (hquiet : ∀ a ∈ actions, a.isQuiet)
    (hwithdraw : .withdraw ∉ actions) : actions.filter WorkerAction.isEntry = [] := by
  refine List.filter_eq_nil_iff.2 fun a ha => ?_
  have hq := hquiet a ha
  cases a with
  | withdraw => exact absurd ha hwithdraw
  | submit c m => cases hq
  | handle c m => cases hq
  | _ => nofun

/-- Every event but an answer of the limiter queues the deliveries in one of these ways. -/
theorem step_queues (w : Worker) (e : WorkerEvent) (he : ∀ answer, e ≠ .entered answer) :
    w.Queues (w.step e) := by
  cases hw : w.waiting? with
  -- it waits, and so it goes on waiting unless it withdraws
  | some x =>
      obtain ⟨c, m⟩ := x
      have hp := waiting?_eq_some.1 hw
      rcases step_of_entering hp he with ⟨hphase, hnone⟩ | hstep
      · exact .stays (waiting?_congr hphase) hnone
      · rw [hstep]
        exact .withdraws hw rfl rfl
  -- it does not wait, and what concerns the limiter can only be a delivery that it reads
  | none =>
      have hwithdraw : .withdraw ∉ (w.step e).2 := withdraw_not_mem hw
      have heffect := w.step_effect e
      generalize w.step e = r at heffect hwithdraw
      cases heffect with
      | quiet hdefinition hcore hquiet hwaiting hengaged =>
          exact .stays (hw ▸ or_self_iff.1 (hw ▸ hwaiting)) (filter_isEntry_of_quiet hquiet hwithdraw)
      | read hphase hitem => exact .reads hw rfl rfl
      | dispatched hphase =>
          rw [waiting?_eq_some.2 hphase] at hw
          cases hw
      | @advanced i h stage hi hevent hmoves =>
          exact .stays rfl (filter_isEntry_call stage h.channel)

/-- When the limiter lets the delivery in, its handler is started. -/
theorem step_entered (h : w.waiting? = some (c, m)) :
    (w.step (.entered (.ok ()))).1.waiting? = none ∧
      (w.step (.entered (.ok ()))).2 = [.handle c m] := by
  simp only [step, entered, waiting?_eq_some.1 h]
  exact ⟨rfl, trivial⟩

end Queues

end Worker

end AmqpDelivery
