import AmqpDelivery.Proofs.Worker.Trace

/-!
# What one event does to the deliveries of a worker

`Worker.step_effect` is the one place where the steps of a worker are opened. An event leaves the
deliveries alone, or it reads one, or it starts the handler of the one that waits for the limiter,
or it lets the dispatch of one go on.
-/

namespace AmqpDelivery

/-- What the dispatch of a delivery depends on: its channel, its message and its stage. -/
def Handling.core (h : Handling) : ChannelRef × Message × Stage := (h.channel, h.message, h.stage)

namespace Worker

/-- The delivery that waits for the limiter. -/
def waiting? (w : Worker) : Option (ChannelRef × Message) :=
  match w.phase with
  | .entering c m => some (c, m)
  | _ => none

/-- The channel that the worker holds and has not asked to release. -/
def engaged? (w : Worker) : Option ChannelRef :=
  match w.phase with
  | .preparing c _ _ | .turning c | .reading c | .entering c _ | .leaving c _ | .cancelling c _
  | .draining c _ => some c
  | _ => none

theorem held?_of_engaged? {w : Worker} {c : ChannelRef} (h : w.engaged? = some c) :
    w.held? = some c := by
  unfold engaged? at h
  unfold held?
  cases hp : w.phase <;> rw [hp] at h <;> first | exact h | cases h

end Worker

/-- How the stage of a dispatch changes. -/
inductive Stage.Moves (d : Definition) (m : Message) : WorkerEvent → Stage → Stage → Prop
  | handled (i : Nat) (run : HandlerRun) :
      Moves d m (.handled i run) .handling (.ofPlan m.tag (Plan.of d m run.outcome))
  | published (i : Nat) (call : ChannelCall) (s : Settlement) :
      Moves d m (.answered i (.ok ())) (.republishing call s) (.settling (.ack m.tag) s)
  | unpublished (i : Nat) (f : Failure) (call : ChannelCall) (s : Settlement) :
      Moves d m (.answered i (.error f)) (.republishing call s)
        (.settling (.nack m.tag true) .requeued)
  | settled (i : Nat) (answer : Except Failure Unit) (call : ChannelCall) (s : Settlement) :
      Moves d m (.answered i answer) (.settling call s) (.settled (answer.map fun _ => s))

/-- What an event can do to the deliveries of a worker. -/
inductive Worker.Effect (w : Worker) (e : WorkerEvent) : Worker × List WorkerAction → Prop
  /-- Nothing is read, dispatched or called; a channel may be opened or given back. -/
  | quiet {next : Worker} {actions : List WorkerAction}
      (hdefinition : next.definition = w.definition)
      (hcore : next.handlings.map Handling.core = w.handlings.map Handling.core)
      (hquiet : ∀ a ∈ actions, a.isQuiet)
      (hwaiting : next.waiting? = none ∨ next.waiting? = w.waiting?)
      (hengaged : next.engaged? = w.engaged? ∨ w.engaged? = none ∨
        ∃ c, w.engaged? = some c ∧ .release c ∈ actions) : Effect w e (next, actions)
  /-- A delivery is read and waits for the limiter. -/
  | read {c : ChannelRef} {delivery : Delivery} (hphase : w.phase = .reading c)
      (he : e = .item (.delivery delivery)) :
      Effect w e ({ w with phase := .entering c (.ofDelivery w.definition.name delivery) },
        [.submit c (.ofDelivery w.definition.name delivery)])
  /-- The delivery that waited is let in. -/
  | dispatched {c : ChannelRef} {m : Message} (hphase : w.phase = .entering c m) :
      Effect w e
        ({ w with
            phase := .turning c
            handlings := w.handlings ++ [{ channel := c, message := m }] }, [.handle c m])
  /-- The dispatch of a delivery goes on. -/
  | advanced {i : Nat} {h : Handling} {stage : Stage} (hi : w.handlings[i]? = some h)
      (he : e.delivery? = some i) (hmoves : h.stage.Moves w.definition h.message e stage) :
      Effect w e (w.modifyHandling i fun h => { h with stage },
        (stage.call?.map fun call => WorkerAction.call h.channel call).toList)

namespace Worker

variable {w : Worker} {e : WorkerEvent}

theorem Effect.none : Effect w e (w, []) :=
  .quiet rfl rfl (by simp) (Or.inr rfl) (Or.inl rfl)

/-- A worker that only moves on, asking for nothing that concerns a delivery. -/
theorem Effect.move {phase : Phase} {actions : List WorkerAction}
    (hquiet : ∀ a ∈ actions, a.isQuiet) (hwaiting : ({ w with phase } : Worker).waiting? = .none)
    (hengaged : ({ w with phase } : Worker).engaged? = w.engaged? ∨ w.engaged? = .none ∨
      ∃ c, w.engaged? = some c ∧ .release c ∈ actions) :
    Effect w e ({ w with phase }, actions) :=
  .quiet rfl rfl hquiet (Or.inl hwaiting) hengaged

/-! ## Steps between deliveries -/

theorem effect_proceed : Effect w e (w.proceed w.phase) := by
  cases hp : w.phase with
  | starting =>
      simp only [proceed]
      split
      · exact .move (by simp) rfl (by simp [engaged?, hp])
      · exact .move (by simp [WorkerAction.isQuiet]) rfl (by simp [engaged?, hp])
  | turning c =>
      simp only [proceed, goto]
      split
      · exact .move (by simp) rfl (by simp [engaged?, hp])
      · exact .move (by simp) rfl (by simp [engaged?, hp])
  | concluding result =>
      cases result with
      | ok u => exact .move (by simp [WorkerAction.isQuiet]) rfl (by simp [engaged?, hp])
      | error f => exact .move (by simp [WorkerAction.isQuiet]) rfl (by simp [engaged?, hp])
  | deciding =>
      simp only [proceed]
      split
      · exact .move (by simp [WorkerAction.isQuiet]) rfl (by simp [engaged?, hp])
      · exact .quiet rfl rfl (by simp [WorkerAction.isQuiet]) (Or.inl rfl) (by simp [engaged?, hp])
  | _ => exact .none

theorem effect_notice : Effect w e (w.notice w.phase) := by
  cases hp : w.phase with
  | connecting => exact .move (by simp [WorkerAction.isQuiet]) rfl (by simp [engaged?, hp])
  | reading c => exact .move (by simp) rfl (by simp [engaged?, hp])
  | entering c m => exact .move (by simp [WorkerAction.isQuiet]) rfl (by simp [engaged?, hp])
  | resting ms => exact .move (by simp [WorkerAction.isQuiet]) rfl (by simp [engaged?, hp])
  | _ => exact .none

theorem effect_connected (result : Except Failure ConnectionId) :
    Effect w e (w.connected result w.phase) := by
  cases hp : w.phase with
  | connecting =>
      cases result with
      | ok c => exact .move (by simp [WorkerAction.isQuiet]) rfl (by simp [engaged?, hp])
      | error f => exact .move (by simp) rfl (by simp [engaged?, hp])
  | _ => exact .none

/-- Preparing never concerns a delivery, whatever is left to prepare. -/
theorem effect_prepare {c : ChannelRef} (hengaged : w.engaged? = some c ∨ w.engaged? = .none)
    (rest : List Preparation) : Effect w e (w.prepare c rest) := by
  have hkept : some c = w.engaged? ∨ w.engaged? = .none := hengaged.imp Eq.symm id
  cases rest with
  | nil => exact .move (by simp [WorkerAction.isQuiet]) rfl (hkept.imp id Or.inl)
  | cons p rest => exact .move (by simp [WorkerAction.isQuiet]) rfl (hkept.imp id Or.inl)

theorem effect_opened (result : Except Failure ChannelRef) :
    Effect w e (w.opened result w.phase) := by
  cases hp : w.phase with
  | opening c =>
      have hnone : w.engaged? = .none := by simp [engaged?, hp]
      cases result with
      | ok channel =>
          simp only [opened]
          exact effect_prepare (Or.inr hnone) _
      | error f => exact .move (by simp) rfl (Or.inr (Or.inl hnone))
  | _ => exact .none

theorem effect_prepared (accepted : Bool) : Effect w e (w.prepared accepted w.phase) := by
  cases hp : w.phase with
  | preparing c p rest =>
      have hsome : w.engaged? = some c := by simp [engaged?, hp]
      cases accepted with
      | true => exact effect_prepare (Or.inl hsome) rest
      -- a refusal ends the attempt, and the channel is given back
      | false =>
          exact .move (by simp [WorkerAction.isQuiet]) rfl (Or.inr (Or.inr ⟨c, hsome, by simp⟩))
  | _ => exact .none

theorem effect_item (i : StreamItem) (he : e = .item i) : Effect w e (w.item i w.phase) := by
  cases hp : w.phase with
  | reading c =>
      cases i with
      | delivery d => exact .read hp he
      | failure text => exact .move (by simp) rfl (by simp [engaged?, hp])
      | ended => exact .move (by simp) rfl (by simp [engaged?, hp])
  | _ => exact .none

theorem effect_entered (result : Except Failure Unit) : Effect w e (w.entered result w.phase) := by
  cases hp : w.phase with
  | entering c m =>
      cases result with
      | ok u => exact .dispatched hp
      | error f => exact .move (by simp) rfl (by simp [engaged?, hp])
  | _ => exact .none

theorem effect_status (isConnected : Bool) : Effect w e (w.status isConnected w.phase) := by
  cases hp : w.phase with
  | leaving c result =>
      cases isConnected with
      | true => exact .move (by simp [WorkerAction.isQuiet]) rfl (by simp [engaged?, hp])
      | false => exact .move (by simp) rfl (by simp [engaged?, hp])
  | _ => exact .none

theorem effect_drained : Effect w e (w.drained w.phase) := by
  cases hp : w.phase with
  | draining c result =>
      simp only [drained]
      split
      -- no handler is left, so the channel is given back
      · exact .move (by simp [WorkerAction.isQuiet]) rfl
          (Or.inr (Or.inr ⟨c, by simp [engaged?, hp], by simp⟩))
      · exact .none
  | _ => exact .none

theorem getElem?_modifyHandling (w : Worker) (i j : Nat) (f : Handling → Handling) :
    (w.modifyHandling i f).handlings[j]? =
      if i = j then w.handlings[j]?.map f else w.handlings[j]? := by
  simp only [modifyHandling, List.getElem?_modify]
  by_cases hij : i = j
  · simp [hij]
  · simp [hij]

/-- A change that keeps channel, message and stage keeps the cores of all deliveries. -/
theorem core_modifyHandling (w : Worker) (i : Nat) {f : Handling → Handling}
    (hf : ∀ h, (f h).core = h.core) :
    (w.modifyHandling i f).handlings.map Handling.core = w.handlings.map Handling.core := by
  apply List.ext_getElem?
  intro j
  rw [List.getElem?_map, List.getElem?_map, getElem?_modifyHandling]
  split
  · rw [Option.map_map]
    exact congrArg (fun g => w.handlings[j]?.map g) (funext hf)
  · rfl

/-- Giving up deliveries only marks them. -/
theorem foldl_modifyHandling (late : List Nat) {f : Handling → Handling}
    (hf : ∀ h, (f h).core = h.core) (w : Worker) :
    (late.foldl (fun w i => w.modifyHandling i f) w).definition = w.definition ∧
      (late.foldl (fun w i => w.modifyHandling i f) w).handlings.map Handling.core =
        w.handlings.map Handling.core := by
  induction late generalizing w with
  | nil => exact ⟨rfl, rfl⟩
  | cons i rest ih =>
      obtain ⟨hdefinition, hcore⟩ := ih (w.modifyHandling i f)
      exact ⟨hdefinition, hcore.trans (core_modifyHandling w i hf)⟩

theorem effect_expired : Effect w e (w.expired w.phase) := by
  cases hp : w.phase with
  | draining c result =>
      obtain ⟨hdefinition, hcore⟩ :=
        foldl_modifyHandling (w.unfinished c) (f := fun h => { h with aborted := true })
          (fun _ => rfl) w
      refine .quiet hdefinition hcore ?_ (Or.inl rfl)
        (Or.inr (Or.inr ⟨c, by simp [engaged?, hp], by simp⟩))
      -- the actions are aborts and the release
      intro a ha
      rw [List.mem_append, List.mem_map, List.mem_singleton] at ha
      rcases ha with ⟨i, -, rfl⟩ | rfl <;> rfl
  | _ => exact .none

theorem effect_released : Effect w e (w.released w.phase) := by
  cases hp : w.phase with
  | releasing c result => exact .move (by simp) rfl (by simp [engaged?, hp])
  | _ => exact .none

theorem effect_rested : Effect w e (w.rested w.phase) := by
  cases hp : w.phase with
  | resting ms => exact .move (by simp [WorkerAction.isQuiet]) rfl (by simp [engaged?, hp])
  | _ => exact .none

/-! ## Steps of a dispatch -/

/-- A dispatch that is not over goes on to the stage that is given. -/
theorem effect_advance {i : Nat} {f : Handling → Stage} (he : e.delivery? = some i)
    (hf : ∀ h, w.handlings[i]? = some h → h.isOver = false →
      h.stage.Moves w.definition h.message e (f h)) : Effect w e (w.advance i f) := by
  unfold advance
  cases hi : w.handlings[i]? with
  | none => exact .none
  | some h =>
      simp only
      split
      · exact .none
      · next ho => exact .advanced hi he (hf h hi (by simpa using ho))

theorem effect_handled (i : Nat) (run : HandlerRun) :
    Effect w (.handled i run) (w.handled i run) := by
  unfold handled
  split
  · next channel message aborted gone hi =>
    apply effect_advance rfl
    intro h hh _
    rw [hi] at hh
    cases hh
    exact .handled i run
  · exact .none

theorem effect_answered (i : Nat) (answer : Except Failure Unit) :
    Effect w (.answered i answer) (w.answered i answer) := by
  unfold answered
  split
  · exact .none
  · next hnot =>
    apply effect_advance rfl
    intro h hh ho
    obtain ⟨channel, message, stage, aborted, gone⟩ := h
    cases stage with
    -- a dispatch whose handler runs awaits no answer
    | handling => exact absurd hh (hnot channel message aborted gone)
    | republishing call s =>
        cases answer with
        | ok u => exact .published i call s
        | error f => exact .unpublished i f call s
    | settling call s => exact .settled i answer call s
    | settled result => simp [Handling.isOver, Stage.isSettled] at ho

/-- Every event has one of the four effects. -/
theorem step_effect (w : Worker) (e : WorkerEvent) : Effect w e (w.step e) := by
  cases e with
  | shutdown => exact .quiet rfl rfl (by simp) (Or.inr rfl) (Or.inl rfl)
  | proceed => exact effect_proceed
  | notice =>
      simp only [step]
      split
      · exact effect_notice
      · exact .none
  | connected result => exact effect_connected result
  | opened result => exact effect_opened result
  | prepared accepted => exact effect_prepared accepted
  | item i => exact effect_item i rfl
  | entered result => exact effect_entered result
  | status isConnected => exact effect_status isConnected
  | cancelled =>
      simp only [step]
      split
      · next c result hp => exact .move (by simp) rfl (by simp [engaged?, hp])
      · exact .none
  | drained => exact effect_drained
  | expired => exact effect_expired
  | released => exact effect_released
  | rested => exact effect_rested
  | handled i run => exact effect_handled i run
  | answered i answer => exact effect_answered i answer
  | dropped i =>
      exact .quiet rfl (core_modifyHandling w i fun _ => rfl) (by simp) (Or.inr rfl) (Or.inl rfl)

end Worker

end AmqpDelivery
