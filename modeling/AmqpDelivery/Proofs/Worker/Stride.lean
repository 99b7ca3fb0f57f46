import AmqpDelivery.Worker.Basic

/-!
# How a worker gets on

Of the phases of a worker it matters to its consumer whether the worker prepares an attempt,
consumes, ends the attempt, or has left it (`Worker.Stride`). `Worker.step_stride` opens the steps of
a worker for that once; only the strides that move the consumer or ask for a wait leave a mark among
the actions (`marksOf`).
-/

namespace AmqpDelivery

/-- The action moves the consumer, or asks for the wait before the next start. -/
def WorkerAction.isMark : WorkerAction → Bool
  | .become _ | .rest _ => true
  | _ => false

/-- The moves of the consumer and the waits before it starts over, in order. -/
def marksOf (actions : List WorkerAction) : List WorkerAction := actions.filter WorkerAction.isMark

namespace Phase

/-- The worker has begun an attempt and does not consume yet. -/
def Prepares : Phase → Prop
  | .starting | .connecting | .opening _ | .preparing _ _ _ => True
  | _ => False

/-- The worker has subscribed and has not given its channel back. -/
def Consumes : Phase → Prop
  | .turning _ | .reading _ | .entering _ _ | .leaving _ _ | .cancelling _ _ | .draining _ _ => True
  | _ => False

/-- The worker ends an attempt. -/
def Ends : Phase → Prop
  | .releasing _ _ | .concluding _ => True
  | _ => False

section Parts

variable {phase : Phase}

theorem Prepares.not_consumes (h : phase.Prepares) : ¬phase.Consumes := by
  intro hc
  cases phase <;> first | exact h.elim | exact hc.elim

theorem Prepares.not_ends (h : phase.Prepares) : ¬phase.Ends := by
  intro he
  cases phase <;> first | exact h.elim | exact he.elim

theorem Consumes.not_ends (h : phase.Consumes) : ¬phase.Ends := by
  intro he
  cases phase <;> first | exact h.elim | exact he.elim

end Parts

/-- How a worker goes on within an attempt. -/
inductive Goes : Phase → Phase → Prop
  | stays (a : Phase) : Goes a a
  | prepares {a b : Phase} (ha : a.Prepares) (hb : b.Prepares ∨ b.Ends) : Goes a b
  | consumes {a b : Phase} (ha : a.Consumes) (hb : b.Consumes ∨ b.Ends) : Goes a b
  | ends {a b : Phase} (ha : a.Ends) (hb : b.Ends) : Goes a b

/-- The worker may stop for good. -/
def MayStop : Phase → Prop
  | .concluding (.ok _) | .deciding | .resting _ => True
  | _ => False

theorem MayStop.not_prepares {phase : Phase} (h : phase.MayStop) : ¬phase.Prepares := by
  intro hp
  cases phase <;> first | exact h.elim | exact hp.elim

theorem MayStop.not_consumes {phase : Phase} (h : phase.MayStop) : ¬phase.Consumes := by
  intro hc
  cases phase <;> first | exact h.elim | exact hc.elim

end Phase

/-- What one event does to a worker, as far as its consumer is concerned: where the worker stands
afterwards, how often it has started over, and the marks that it leaves. -/
inductive Worker.Stride (w : Worker) (e : WorkerEvent) :
    Phase → UInt32 → List WorkerAction → Prop
  | goes {phase : Phase} (h : w.phase.Goes phase) : Stride w e phase w.restarts []
  | consumes {phase : Phase} (hbefore : w.phase.Prepares) (hafter : phase.Consumes) :
      Stride w e phase w.restarts [.become .consuming]
  | fails {failure : Failure} (hbefore : w.phase = .concluding (.error failure)) :
      Stride w e .deciding w.restarts [.become .failed]
  | rests (hbefore : w.phase = .deciding) (hrestarts : w.definition.restarts = true) :
      Stride w e (.resting (backoffDelay w.reconnect (w.restarts + 1))) (w.restarts + 1)
        [.rest (backoffDelay w.reconnect (w.restarts + 1))]
  | restarts {ms : UInt64} (hbefore : w.phase = .resting ms) (he : e = .rested) :
      Stride w e .starting w.restarts [.become .declaring]
  | stops (hbefore : w.phase.MayStop) : Stride w e .stopped w.restarts [.become .stopped]

namespace Worker

variable {w : Worker} {e : WorkerEvent}

/-- The worker and its actions after an event are as the stride says. -/
def Strides (w : Worker) (e : WorkerEvent) (r : Worker × List WorkerAction) : Prop :=
  r.1.definition = w.definition ∧ r.1.reconnect = w.reconnect ∧
    w.Stride e r.1.phase r.1.restarts (marksOf r.2)

theorem strides_none : w.Strides e (w, []) := ⟨rfl, rfl, .goes (.stays _)⟩

/-- A worker that goes on within its attempt. -/
theorem strides_goes {phase : Phase} {actions : List WorkerAction} (h : w.phase.Goes phase)
    (hmarks : marksOf actions = []) : w.Strides e ({ w with phase }, actions) := by
  refine ⟨rfl, rfl, ?_⟩
  rw [hmarks]
  exact .goes h

theorem strides_proceed : w.Strides e (w.proceed w.phase) := by
  cases hp : w.phase with
  | starting =>
      simp only [proceed]
      split
      · exact strides_goes (.prepares (by rw [hp]; trivial) (Or.inr trivial)) rfl
      · exact strides_goes (.prepares (by rw [hp]; trivial) (Or.inl trivial)) rfl
  | turning c =>
      simp only [proceed, goto]
      split
      · exact strides_goes (.consumes (by rw [hp]; trivial) (Or.inl trivial)) rfl
      · exact strides_goes (.consumes (by rw [hp]; trivial) (Or.inl trivial)) rfl
  | concluding result =>
      cases result with
      | ok u => exact ⟨rfl, rfl, .stops (by rw [hp]; trivial)⟩
      | error f => exact ⟨rfl, rfl, .fails hp⟩
  | deciding =>
      simp only [proceed]
      split
      · exact ⟨rfl, rfl, .stops (by rw [hp]; trivial)⟩
      · next hgo =>
        refine ⟨rfl, rfl, .rests hp ?_⟩
        cases hrestarts : w.definition.restarts with
        | true => rfl
        | false => exact absurd (by simp [hrestarts]) hgo
  | _ => exact strides_none

theorem strides_notice : w.Strides e (w.notice w.phase) := by
  cases hp : w.phase with
  | connecting => exact strides_goes (.prepares (by rw [hp]; trivial) (Or.inr trivial)) rfl
  | reading c => exact strides_goes (.consumes (by rw [hp]; trivial) (Or.inl trivial)) rfl
  | entering c m => exact strides_goes (.consumes (by rw [hp]; trivial) (Or.inl trivial)) rfl
  | resting ms => exact ⟨rfl, rfl, .stops (by rw [hp]; trivial)⟩
  | _ => exact strides_none

theorem strides_connected (result : Except Failure ConnectionId) :
    w.Strides e (w.connected result w.phase) := by
  cases hp : w.phase with
  | connecting =>
      cases result with
      | ok c => exact strides_goes (.prepares (by rw [hp]; trivial) (Or.inl trivial)) rfl
      | error f => exact strides_goes (.prepares (by rw [hp]; trivial) (Or.inr trivial)) rfl
  | _ => exact strides_none

/-- Preparing goes on, or the worker begins to consume. -/
theorem strides_prepare (hp : w.phase.Prepares) (c : ChannelRef) (rest : List Preparation) :
    w.Strides e (w.prepare c rest) := by
  cases rest with
  | nil => exact ⟨rfl, rfl, .consumes hp trivial⟩
  | cons p rest => exact strides_goes (.prepares hp (Or.inl trivial)) rfl

theorem strides_opened (result : Except Failure ChannelRef) :
    w.Strides e (w.opened result w.phase) := by
  cases hp : w.phase with
  | opening c =>
      have hprepares : w.phase.Prepares := by rw [hp]; trivial
      cases result with
      | ok channel =>
          simp only [opened]
          exact strides_prepare hprepares channel _
      | error f => exact strides_goes (.prepares hprepares (Or.inr trivial)) rfl
  | _ => exact strides_none

theorem strides_prepared (accepted : Bool) : w.Strides e (w.prepared accepted w.phase) := by
  cases hp : w.phase with
  | preparing c p rest =>
      have hprepares : w.phase.Prepares := by rw [hp]; trivial
      cases accepted with
      | true => exact strides_prepare hprepares c rest
      | false => exact strides_goes (.prepares hprepares (Or.inr trivial)) rfl
  | _ => exact strides_none

theorem strides_item (i : StreamItem) : w.Strides e (w.item i w.phase) := by
  cases hp : w.phase with
  | reading c =>
      cases i with
      | delivery d => exact strides_goes (.consumes (by rw [hp]; trivial) (Or.inl trivial)) rfl
      | failure text => exact strides_goes (.consumes (by rw [hp]; trivial) (Or.inl trivial)) rfl
      | ended mark => exact strides_goes (.consumes (by rw [hp]; trivial) (Or.inl trivial)) rfl
  | _ => exact strides_none

theorem strides_entered (result : Except Failure Unit) :
    w.Strides e (w.entered result w.phase) := by
  cases hp : w.phase with
  | entering c m =>
      have hgoes : ∀ phase : Phase, phase.Consumes → w.phase.Goes phase :=
        fun phase h => .consumes (by rw [hp]; trivial) (Or.inl h)
      cases result with
      | ok u => exact ⟨rfl, rfl, .goes (hgoes _ trivial)⟩
      | error f => exact strides_goes (hgoes _ trivial) rfl
  | _ => exact strides_none

theorem strides_status (isConnected : Bool) : w.Strides e (w.status isConnected w.phase) := by
  cases hp : w.phase with
  | leaving c result =>
      cases isConnected with
      | true => exact strides_goes (.consumes (by rw [hp]; trivial) (Or.inl trivial)) rfl
      | false => exact strides_goes (.consumes (by rw [hp]; trivial) (Or.inl trivial)) rfl
  | _ => exact strides_none

theorem strides_drained : w.Strides e (w.drained w.phase) := by
  cases hp : w.phase with
  | draining c result =>
      simp only [drained]
      split
      · exact strides_goes (.consumes (by rw [hp]; trivial) (Or.inr trivial)) rfl
      · exact strides_none
  | _ => exact strides_none

/-- Marking deliveries changes nothing else about a worker. -/
theorem foldl_modifyHandling_rest (late : List Nat) (f : Handling → Handling) (w : Worker) :
    (late.foldl (fun w i => w.modifyHandling i f) w).reconnect = w.reconnect ∧
      (late.foldl (fun w i => w.modifyHandling i f) w).definition = w.definition ∧
      (late.foldl (fun w i => w.modifyHandling i f) w).restarts = w.restarts := by
  induction late generalizing w with
  | nil => exact ⟨rfl, rfl, rfl⟩
  | cons i rest ih => exact ih (w.modifyHandling i f)

theorem strides_expired : w.Strides e (w.expired w.phase) := by
  cases hp : w.phase with
  | draining c result =>
      obtain ⟨hreconnect, hdefinition, hrestarts⟩ :=
        foldl_modifyHandling_rest (w.unfinished c) (fun h => { h with aborted := true }) w
      refine ⟨hdefinition, hreconnect, ?_⟩
      have hmarks : marksOf ((w.unfinished c).map WorkerAction.abort ++ [.release c]) = [] := by
        rw [marksOf, List.filter_eq_nil_iff]
        intro a ha
        rw [List.mem_append, List.mem_map, List.mem_singleton] at ha
        rcases ha with ⟨i, -, rfl⟩ | rfl <;> simp [WorkerAction.isMark]
      simp only [expired, hmarks, hrestarts]
      exact .goes (.consumes (by rw [hp]; trivial) (Or.inr trivial))
  | _ => exact strides_none

theorem strides_released : w.Strides e (w.released w.phase) := by
  cases hp : w.phase with
  | releasing c result => exact strides_goes (.ends (by rw [hp]; trivial) trivial) rfl
  | _ => exact strides_none

theorem strides_advance (i : Nat) (f : Handling → Stage) : w.Strides e (w.advance i f) := by
  unfold advance
  cases hi : w.handlings[i]? with
  | none => exact strides_none
  | some h =>
      simp only
      split
      · exact strides_none
      · refine ⟨rfl, rfl, ?_⟩
        have hmarks : marksOf (((f h).call?.map fun c => WorkerAction.call h.channel c).toList) =
            [] := by
          cases (f h).call? <;> rfl
        rw [hmarks]
        exact .goes (.stays _)

/-- Every event makes one of the strides. -/
theorem step_stride (w : Worker) (e : WorkerEvent) : w.Strides e (w.step e) := by
  cases e with
  | shutdown => exact ⟨rfl, rfl, .goes (.stays _)⟩
  | proceed => exact strides_proceed
  | notice =>
      simp only [step]
      split
      · exact strides_notice
      · exact strides_none
  | connected result => exact strides_connected result
  | opened result => exact strides_opened result
  | prepared accepted => exact strides_prepared accepted
  | item i => exact strides_item i
  | entered result => exact strides_entered result
  | status isConnected => exact strides_status isConnected
  | cancelled =>
      simp only [step]
      split
      · next c result hp =>
        exact strides_goes (.consumes (by rw [hp]; trivial) (Or.inl trivial)) rfl
      · exact strides_none
  | drained => exact strides_drained
  | expired => exact strides_expired
  | released => exact strides_released
  | rested =>
      cases hp : w.phase with
      | resting ms =>
          simp only [step, rested, hp]
          exact ⟨rfl, rfl, .restarts hp rfl⟩
      | _ => simp only [step, rested, hp]; exact strides_none
  | handled i run =>
      simp only [step, handled]
      split
      · exact strides_advance i _
      · exact strides_none
  | answered i result =>
      simp only [step, answered]
      split
      · exact strides_none
      · exact strides_advance i _
  | dropped i => exact ⟨rfl, rfl, .goes (.stays _)⟩

end Worker

end AmqpDelivery
