import AmqpDelivery.Proofs.Worker.Course

/-!
# The states of a consumer under its worker

A worker moves its consumer along: from `declaring`, where a start leaves it, through the rounds of
its course. Where the worker stands shows in the state (`Phase.Shows`), and so every move that it
asks for is an allowed one (`OnCourse.allowed`); together they are the beginning of a `lifecycle`,
and all of it once the worker has returned (`OnCourse.lifecycle`).
-/

namespace AmqpDelivery

/-- The state of an attempt that has come to consume. -/
def consumptionStates (consumed : Bool) : List ConsumerState :=
  if consumed then [.consuming] else []

/-- The states that follow `declaring` in a round. -/
def roundStates (consumed : Bool) : List ConsumerState :=
  consumptionStates consumed ++ [.failed, .declaring]

/-- The states of a consumer from its registration until its worker returns. Of each round, and of
the last attempt, it is given whether it came to consume, and of the last attempt also whether it
failed. -/
def lifecycle (rounds : List Bool) (consumed failed : Bool) : List ConsumerState :=
  .unregistered :: .declaring ::
    (rounds.flatMap roundStates ++
      (consumptionStates consumed ++ ((if failed then [.failed] else []) ++ [.stopped])))

/-- The state in which a worker with these actions leaves its consumer. -/
def stateAfter (actions : List WorkerAction) : ConsumerState :=
  (movesOf actions).getLastD .declaring

section Moves

variable (actions more : List WorkerAction)

theorem movesOf_append : movesOf (actions ++ more) = movesOf actions ++ movesOf more :=
  List.filterMap_append

/-- Moves are marks. -/
theorem movesOf_marksOf : movesOf (marksOf actions) = movesOf actions := by
  unfold movesOf marksOf
  rw [List.filterMap_filter]
  congr 1
  funext a
  cases a <;> rfl

theorem movesOf_consumption (consumed : Bool) :
    movesOf (consumption consumed) = consumptionStates consumed := by
  cases consumed <;> rfl

theorem movesOf_roundsMarks (r : ReconnectSettings) (k : Nat) (rounds : List Bool) :
    movesOf (roundsMarks r k rounds) = rounds.flatMap roundStates := by
  induction rounds generalizing k with
  | nil => rfl
  | cons consumed rest ih =>
      rw [roundsMarks, roundMarks, movesOf_append, movesOf_append, movesOf_consumption, ih]
      rfl

end Moves

/-- Every round starts the consumer over once. -/
theorem count_rounds (rounds : List Bool) :
    (rounds.flatMap roundStates).count .declaring = rounds.length := by
  induction rounds with
  | nil => rfl
  | cons consumed rest ih =>
      rw [List.flatMap_cons, List.count_append, ih, List.length_cons, Nat.add_comm]
      cases consumed <;> rfl

/-- The last of two lists is that of the second, if it has one. -/
theorem getLastD_append {α : Type} (a b : List α) (x : α) :
    (a ++ b).getLastD x = b.getLastD (a.getLastD x) := by
  rcases b.eq_nil_or_concat with rfl | ⟨rest, last, rfl⟩
  · rw [List.append_nil]
    rfl
  · rw [List.concat_eq_append, ← List.append_assoc, List.getLastD_concat, List.getLastD_concat]

/-- Rounds lead back to `declaring`. -/
theorem getLastD_rounds (rounds : List Bool) :
    (rounds.flatMap roundStates).getLastD .declaring = .declaring := by
  rcases rounds.eq_nil_or_concat with rfl | ⟨rest, consumed, rfl⟩
  · rfl
  · rw [List.concat_eq_append, List.flatMap_append, List.flatMap_singleton, roundStates,
      List.append_cons (consumptionStates consumed), ← List.append_assoc, List.getLastD_concat]

namespace Phase

/-- The state in which a consumer is while its worker stands there. An attempt that ends may have
come to consume, or not. -/
inductive Shows : Phase → ConsumerState → Prop
  | prepares {phase : Phase} (h : phase.Prepares) : Shows phase .declaring
  | consumes {phase : Phase} (h : phase.Consumes) : Shows phase .consuming
  | endsEarly {phase : Phase} (h : phase.Ends) : Shows phase .declaring
  | ends {phase : Phase} (h : phase.Ends) : Shows phase .consuming
  | deciding : Shows .deciding .failed
  | resting (ms : UInt64) : Shows (.resting ms) .failed
  | stopped : Shows .stopped .stopped

variable {phase : Phase} {st : ConsumerState}

/-- A consumer is `stopped` if and only if its worker has returned. -/
theorem Shows.stopped_iff (h : phase.Shows st) : st = .stopped ↔ phase = .stopped := by
  cases h with
  | stopped => exact ⟨fun _ => rfl, fun _ => rfl⟩
  | deciding => exact ⟨ConsumerState.noConfusion, Phase.noConfusion⟩
  | resting ms => exact ⟨ConsumerState.noConfusion, Phase.noConfusion⟩
  | _ hp =>
      refine ⟨ConsumerState.noConfusion, ?_⟩
      rintro rfl
      exact hp.elim

/-- A consumer whose worker prepares is `declaring`. -/
theorem Shows.of_prepares (h : phase.Shows st) (hp : phase.Prepares) : st = .declaring := by
  cases h with
  | prepares h => rfl
  | consumes h => exact absurd h hp.not_consumes
  | endsEarly h => rfl
  | ends h => exact absurd h hp.not_ends
  | _ => exact hp.elim

/-- A worker that ends an attempt may fail or stop, and one that has failed may stop. -/
theorem Shows.of_mayStop (h : phase.Shows st) (hp : phase.MayStop) :
    st.mayBecome .stopped = true := by
  cases h with
  | prepares h => rfl
  | consumes h => rfl
  | endsEarly h => rfl
  | ends h => rfl
  | deciding => rfl
  | resting ms => rfl
  | stopped => exact hp.elim

end Phase

section Allowed

variable {w : Worker} {e : WorkerEvent} {phase : Phase} {n : UInt32} {marks : List WorkerAction}
  {st next : ConsumerState} {actions : List WorkerAction}

/-- What a worker does next is allowed where its consumer stands. -/
theorem Worker.Stride.allowed (h : w.Stride e phase n marks) (hshows : w.phase.Shows st)
    (hnext : next ∈ movesOf marks) : st.mayBecome next = true := by
  cases h with
  | goes hgoes => exact absurd hnext (List.not_mem_nil)
  | consumes hbefore hafter =>
      rw [hshows.of_prepares hbefore, List.mem_singleton.1 hnext]
      rfl
  | fails hbefore =>
      rw [hbefore] at hshows
      rw [List.mem_singleton.1 hnext]
      cases hshows <;> rfl
  | rests hbefore hrestarts => exact absurd hnext (List.not_mem_nil)
  | restarts hbefore he =>
      rw [hbefore] at hshows
      rw [List.mem_singleton.1 hnext]
      cases hshows with
      | resting ms => rfl
      | prepares h => exact h.elim
      | consumes h => exact h.elim
      | endsEarly h => exact h.elim
      | ends h => exact h.elim
  | stops hbefore =>
      rw [List.mem_singleton.1 hnext]
      exact hshows.of_mayStop hbefore

theorem Worker.Stride.moves (h : w.Stride e phase n marks) :
    movesOf marks = [] ∨ ∃ next, movesOf marks = [next] := by
  cases h with
  | goes hgoes => exact Or.inl rfl
  | rests hbefore hrestarts => exact Or.inl rfl
  | consumes hbefore hafter => exact Or.inr ⟨_, rfl⟩
  | fails hbefore => exact Or.inr ⟨_, rfl⟩
  | restarts hbefore he => exact Or.inr ⟨_, rfl⟩
  | stops hbefore => exact Or.inr ⟨_, rfl⟩

/-- Only a worker whose wait is over starts its consumer over. -/
theorem Worker.Stride.restart (h : w.Stride e phase n marks)
    (hnext : .declaring ∈ movesOf marks) : e = .rested ∧ ∃ ms, w.phase = .resting ms := by
  cases h with
  | restarts hbefore he => exact ⟨he, _, hbefore⟩
  | goes hgoes => exact absurd hnext List.not_mem_nil
  | rests hbefore hrestarts => exact absurd hnext List.not_mem_nil
  | consumes hbefore hafter => exact absurd (List.mem_singleton.1 hnext) ConsumerState.noConfusion
  | fails hbefore => exact absurd (List.mem_singleton.1 hnext) ConsumerState.noConfusion
  | stops hbefore => exact absurd (List.mem_singleton.1 hnext) ConsumerState.noConfusion

end Allowed

section Attempts

variable {r : ReconnectSettings} {restarts : Bool} {k : Nat} {phase : Phase} {n : UInt32}
  {tail : List WorkerAction}

/-- The state that an attempt has led to is the one that the worker shows. -/
theorem Worker.Attempt.shows (h : Attempt r restarts k phase n tail) :
    phase.Shows ((movesOf tail).getLastD .declaring) := by
  cases h with
  | prepares hp => exact .prepares hp
  | consumes hp => exact .consumes hp
  | ends consumed hp =>
      cases consumed with
      | true => exact .ends hp
      | false => exact .endsEarly hp
  | fails consumed => cases consumed <;> exact .deciding
  | rests consumed hrestarts => cases consumed <;> exact .resting _
  | stops consumed n => cases consumed <;> exact .stopped
  | givesUp consumed n => cases consumed <;> exact .stopped
  | interrupted consumed n hrestarts => cases consumed <;> exact .stopped

/-- The states of an attempt are completed by those that are still to come, and none is once the
worker has returned. -/
theorem Worker.Attempt.states (h : Attempt r restarts k phase n tail) :
    ∃ (consumed failed : Bool) (more : List ConsumerState),
      movesOf tail ++ more =
        consumptionStates consumed ++ ((if failed then [.failed] else []) ++ [.stopped]) ∧
      (phase = .stopped ↔ more = []) := by
  have hopen : ∀ {phase : Phase}, phase ≠ .stopped →
      (phase = .stopped ↔ [ConsumerState.stopped] = []) := fun hne =>
    ⟨fun h => absurd h hne, fun h => absurd h (List.cons_ne_nil _ _)⟩
  have hmoves : ∀ consumed rest more, movesOf (consumption consumed ++ rest) ++ more =
      consumptionStates consumed ++ (movesOf rest ++ more) := by
    intro consumed rest more
    rw [movesOf_append, movesOf_consumption, List.append_assoc]
  cases h with
  | prepares hp => exact ⟨false, false, [.stopped], rfl, hopen (by rintro rfl; exact hp.elim)⟩
  | consumes hp => exact ⟨true, false, [.stopped], rfl, hopen (by rintro rfl; exact hp.elim)⟩
  | ends consumed hp =>
      refine ⟨consumed, false, [.stopped], ?_, hopen (by rintro rfl; exact hp.elim)⟩
      rw [movesOf_consumption]
      rfl
  | fails consumed => exact ⟨consumed, true, [.stopped], hmoves .., hopen Phase.noConfusion⟩
  | rests consumed hrestarts =>
      exact ⟨consumed, true, [.stopped], hmoves .., hopen Phase.noConfusion⟩
  | stops consumed n => exact ⟨consumed, false, [], hmoves .., fun _ => rfl, fun _ => rfl⟩
  | givesUp consumed n => exact ⟨consumed, true, [], hmoves .., fun _ => rfl, fun _ => rfl⟩
  | interrupted consumed n hrestarts =>
      exact ⟨consumed, true, [], hmoves .., fun _ => rfl, fun _ => rfl⟩

/-- An attempt does not start the consumer over. -/
theorem Worker.Attempt.not_declaring (h : Attempt r restarts k phase n tail) :
    .declaring ∉ movesOf tail := by
  intro hmem
  obtain ⟨consumed, failed, more, hstates, -⟩ := h.states
  have hall := List.mem_append_left more hmem
  rw [hstates] at hall
  revert hall
  cases consumed <;> cases failed <;> decide

end Attempts

/-- A worker asks for one move at a time. -/
theorem Worker.step_moves (w : Worker) (e : WorkerEvent) :
    movesOf (w.step e).2 = [] ∨ ∃ next, movesOf (w.step e).2 = [next] := by
  rw [← movesOf_marksOf]
  exact (w.step_stride e).2.2.moves

theorem Worker.isStopped_iff (w : Worker) : w.isStopped = true ↔ w.phase = .stopped := by
  unfold isStopped
  split
  · next heq => exact ⟨fun _ => heq, fun _ => rfl⟩
  · next hne => exact ⟨Bool.noConfusion, fun heq => absurd heq hne⟩

namespace Worker.OnCourse

variable {w : Worker} {e : WorkerEvent} {actions : List WorkerAction}

/-- The consumer is in the state that its worker shows. -/
theorem shows (h : w.OnCourse actions) : w.phase.Shows (stateAfter actions) := by
  obtain ⟨rounds, tail, hmarks, hattempt, -⟩ := h
  rw [stateAfter, ← movesOf_marksOf, hmarks, movesOf_append, movesOf_roundsMarks, getLastD_append,
    getLastD_rounds]
  exact hattempt.shows

/-- A worker on its course asks for no move that would be refused. -/
theorem allowed (h : w.OnCourse actions) {next : ConsumerState}
    (hnext : next ∈ movesOf (w.step e).2) : (stateAfter actions).mayBecome next = true := by
  rw [← movesOf_marksOf] at hnext
  exact (w.step_stride e).2.2.allowed h.shows hnext

/-- The moves of a step lead to the state that the worker shows afterwards, for none is refused. -/
theorem become (h : w.OnCourse actions) :
    (movesOf (w.step e).2).foldl ConsumerState.become (stateAfter actions) =
      stateAfter (actions ++ (w.step e).2) := by
  rw [stateAfter, stateAfter, movesOf_append, getLastD_append]
  rcases w.step_moves e with hnone | ⟨next, hone⟩
  · rw [hnone]
    rfl
  · have hallowed : (stateAfter actions).mayBecome next = true :=
      h.allowed (hone ▸ List.mem_singleton_self next)
    rw [hone]
    exact if_pos hallowed

/-- The states are those of a lifecycle without the ones still to come. -/
theorem lifecycle (h : w.OnCourse actions) :
    ∃ (rounds : List Bool) (consumed failed : Bool) (more : List ConsumerState),
      .unregistered :: .declaring :: movesOf actions ++ more = lifecycle rounds consumed failed ∧
      (w.phase = .stopped ↔ more = []) := by
  obtain ⟨rounds, tail, hmarks, hattempt, -⟩ := h
  obtain ⟨consumed, failed, more, hstates, hstopped⟩ := hattempt.states
  refine ⟨rounds, consumed, failed, more, ?_, hstopped⟩
  rw [← movesOf_marksOf, hmarks, movesOf_append, movesOf_roundsMarks, List.cons_append,
    List.cons_append, List.append_assoc, hstates]
  rfl

/-- A worker that is not to start over does not. -/
theorem once (h : w.OnCourse actions) (hrestarts : w.definition.restarts = false) :
    .declaring ∉ movesOf actions := by
  obtain ⟨rounds, tail, hmarks, hattempt, honce⟩ := h
  obtain rfl := honce hrestarts
  rw [← movesOf_marksOf, hmarks]
  exact hattempt.not_declaring

/-- A worker starts its consumer over when the wait for this start is over, and the wait is the one
that belongs to the number of the start. -/
theorem restart (h : w.OnCourse actions) (hnext : .declaring ∈ movesOf (w.step e).2) :
    e = .rested ∧ ∃ ms,
      ms = backoffDelay w.reconnect (UInt32.ofNat ((movesOf actions).count .declaring + 1)) ∧
      w.phase = .resting ms ∧ (marksOf actions).getLast? = some (.rest ms) := by
  obtain ⟨rounds, tail, hmarks, hattempt, -⟩ := h
  rw [← movesOf_marksOf] at hnext
  obtain ⟨he, ms, hphase⟩ := (w.step_stride e).2.2.restart hnext
  rw [← movesOf_marksOf, hmarks, movesOf_append, movesOf_roundsMarks, List.count_append,
    count_rounds, hphase]
  rw [hphase] at hattempt
  rw [List.count_eq_zero.2 hattempt.not_declaring]
  obtain ⟨-, -, hms, consumed, rfl⟩ := hattempt.of_resting
  refine ⟨he, ms, hms, rfl, ?_⟩
  rw [List.append_cons, ← List.append_assoc, List.getLast?_concat]

end Worker.OnCourse

end AmqpDelivery
