import AmqpDelivery.Proofs.Worker.Account
import AmqpDelivery.Proofs.Worker.Stride

/-!
# What a worker leaves behind

A worker releases every channel that it has opened, and it does not ask for that before each handler
that was started on the channel has ended or was given up (`Worker.Tidy`). A worker that has stopped
dispatches nothing more (`Worker.step_stopped`), and one that was told to stop before its first step
stops without having asked for anything (`Worker.Retires`).
-/

namespace AmqpDelivery

/-- The channels that were opened: what a worker asks of a channel first is to bound the unsettled
deliveries. -/
def openedOf (actions : List WorkerAction) : List ChannelRef :=
  actions.filterMap fun
    | .prepare c (.bound _) => some c
    | _ => none

/-- The channels that were asked to be released. -/
def releasedOf (actions : List WorkerAction) : List ChannelRef :=
  actions.filterMap fun
    | .release c => some c
    | _ => none

section Lists

variable (actions more : List WorkerAction)

@[simp] theorem openedOf_append : openedOf (actions ++ more) = openedOf actions ++ openedOf more :=
  List.filterMap_append

@[simp] theorem releasedOf_append :
    releasedOf (actions ++ more) = releasedOf actions ++ releasedOf more :=
  List.filterMap_append

theorem openedOf_aborts (late : List Nat) : openedOf (late.map .abort) = [] := by
  rw [openedOf, List.filterMap_map, List.filterMap_eq_nil_iff]
  exact fun _ _ => rfl

theorem releasedOf_aborts (late : List Nat) : releasedOf (late.map .abort) = [] := by
  rw [releasedOf, List.filterMap_map, List.filterMap_eq_nil_iff]
  exact fun _ _ => rfl

end Lists

/-- The channel that a worker consumes from. -/
def Phase.serving? : Phase → Option ChannelRef
  | .turning c | .reading c | .entering c _ | .leaving c _ | .cancelling c _ | .draining c _ => some c
  | _ => none

/-- The bound on unsettled deliveries is not among the preparations that are left. -/
def Phase.Unbound : Phase → Prop
  | .preparing _ _ rest => ∀ n, .bound n ∉ rest
  | _ => True

theorem Definition.unbound_preparations (d : Definition) (n : UInt16) :
    .bound n ∉ d.preparations := by
  unfold preparations
  split <;> simp

/-- The delivery stays one of its channel, and once it is over it stays so. -/
def Handling.Goes (h h' : Handling) : Prop :=
  h'.channel = h.channel ∧ (h.isOver = true → h'.isOver = true)

theorem Handling.Goes.refl (h : Handling) : h.Goes h := ⟨rfl, id⟩

theorem Handling.Goes.trans {h h' h'' : Handling} (hg : h.Goes h') (hg' : h'.Goes h'') :
    h.Goes h'' :=
  ⟨hg'.1.trans hg.1, hg'.2 ∘ hg.2⟩

/-- The event is a step of the worker's own. -/
def WorkerEvent.isOwn : WorkerEvent → Bool
  | .proceed => true
  | _ => false

namespace Worker

/-- The deliveries of the second worker are those of the first, some of which have gone on. -/
def Carries (w next : Worker) : Prop :=
  ∀ (i : Nat) (h' : Handling), next.handlings[i]? = some h' →
    ∃ h, w.handlings[i]? = some h ∧ h.Goes h'

/-- What one event does to the channel of a worker and to the handlers on it. -/
inductive Upkeep (w : Worker) : Worker → List WorkerAction → Prop
  /-- No channel is opened or given back. A handler may be started on the channel that the worker
  consumes from. -/
  | keeps {next : Worker} {actions : List WorkerAction} (hopened : openedOf actions = [])
      (hreleased : releasedOf actions = []) (hengaged : next.engaged? = w.engaged?)
      (hserving : next.phase.serving? = w.phase.serving? ∨ w.phase.serving? = none)
      (hhandlings : ∀ (i : Nat) (h' : Handling), next.handlings[i]? = some h' →
        next.phase.serving? = some h'.channel ∨ ∃ h, w.handlings[i]? = some h ∧ h.Goes h') :
      Upkeep w next actions
  | opens {next : Worker} {actions : List WorkerAction} {c : ChannelRef}
      (hopened : openedOf actions = [c]) (hreleased : releasedOf actions = [])
      (hbefore : w.engaged? = none) (hafter : next.engaged? = some c)
      (hserving : w.phase.serving? = none) (hhandlings : next.handlings = w.handlings) :
      Upkeep w next actions
  /-- The handlers on the channel that is given back have ended or are given up. -/
  | releases {next : Worker} {actions : List WorkerAction} {c : ChannelRef}
      (hopened : openedOf actions = []) (hreleased : releasedOf actions = [c])
      (hbefore : w.engaged? = some c) (hafter : next.engaged? = none)
      (hhandlings : ∀ (i : Nat) (h' : Handling), next.handlings[i]? = some h' →
        h'.isOver = true ∨ .abort i ∈ actions ∨
          ∃ h, w.handlings[i]? = some h ∧ h.Goes h' ∧ w.phase.serving? ≠ some h.channel) :
      Upkeep w next actions

/-- The worker and its actions after an event are as the upkeep says. -/
def Tends (w : Worker) (r : Worker × List WorkerAction) : Prop :=
  r.1.phase.Unbound ∧ w.Upkeep r.1 r.2

section Steps

variable {w next : Worker} {actions : List WorkerAction}

/-- A worker that goes on from the phase `a` and keeps its channel. -/
theorem tends_keep {a : Phase} (hp : w.phase = a) (hunbound : next.phase.Unbound)
    (hhandlings : next.handlings = w.handlings) (hopened : openedOf actions = [])
    (hreleased : releasedOf actions = [])
    (hengaged : next.engaged? = ({ w with phase := a } : Worker).engaged?)
    (hserving : next.phase.serving? = a.serving? ∨ a.serving? = none) : w.Tends (next, actions) := by
  subst hp
  refine ⟨hunbound, .keeps hopened hreleased hengaged hserving fun i h' hi => Or.inr ⟨h', ?_, .refl h'⟩⟩
  rw [← hhandlings]
  exact hi

theorem tends_none (h : w.phase.Unbound) : w.Tends (w, []) :=
  tends_keep rfl h rfl rfl rfl rfl (Or.inl rfl)

/-- A worker of which only deliveries have gone on. -/
theorem tends_carries (h : w.phase.Unbound) (hphase : next.phase = w.phase)
    (hcarries : w.Carries next) (hopened : openedOf actions = [])
    (hreleased : releasedOf actions = []) : w.Tends (next, actions) := by
  refine ⟨?_, .keeps hopened hreleased ?_ (Or.inl (congrArg _ hphase)) fun i h' hi => ?_⟩
  · show next.phase.Unbound
    rw [hphase]
    exact h
  · rw [engaged?, engaged?, hphase]
  · exact Or.inr (hcarries i h' hi)

theorem Carries.refl (w : Worker) : w.Carries w := fun _ h hi => ⟨h, hi, .refl h⟩

theorem Carries.trans {last : Worker} (h : w.Carries next) (h' : next.Carries last) :
    w.Carries last := by
  intro i hi hlast
  obtain ⟨h₂, hnext, hg₂⟩ := h' i hi hlast
  obtain ⟨h₁, hw, hg₁⟩ := h i h₂ hnext
  exact ⟨h₁, hw, hg₁.trans hg₂⟩

theorem carries_modifyHandling (i : Nat) {f : Handling → Handling}
    (hf : ∀ h, w.handlings[i]? = some h → h.Goes (f h)) : w.Carries (w.modifyHandling i f) := by
  intro j h' hj
  rw [getElem?_modifyHandling] at hj
  split at hj
  · next hij =>
    subst hij
    obtain ⟨h, hh, rfl⟩ := Option.map_eq_some_iff.1 hj
    exact ⟨h, hh, hf h hh⟩
  · exact ⟨h', hj, .refl h'⟩

/-- Giving up deliveries ends none of them. -/
theorem carries_abort (late : List Nat) (w : Worker) :
    w.Carries (late.foldl (fun w i => w.modifyHandling i fun h => { h with aborted := true }) w) := by
  induction late generalizing w with
  | nil => exact .refl w
  | cons i rest ih =>
      have hone : w.Carries (w.modifyHandling i fun h => { h with aborted := true }) :=
        carries_modifyHandling i fun h _ => ⟨rfl, id⟩
      exact hone.trans (ih _)

/-- A delivery of the channel that is not over is unfinished. -/
theorem mem_unfinished {c : ChannelRef} {i : Nat} {h : Handling} (hi : w.handlings[i]? = some h)
    (hc : h.channel = c) (hover : ¬h.isOver = true) : i ∈ w.unfinished c := by
  rw [unfinished, List.mem_filterMap]
  refine ⟨(h, i), List.mem_zipIdx_iff_getElem?.2 hi, ?_⟩
  simp [hc, hover]

theorem tends_proceed (h : w.phase.Unbound) : w.Tends (w.proceed w.phase) := by
  cases hp : w.phase with
  | starting =>
      simp only [proceed]
      split <;> exact tends_keep hp trivial rfl rfl rfl rfl (Or.inl rfl)
  | turning c =>
      simp only [proceed, goto]
      split <;> exact tends_keep hp trivial rfl rfl rfl rfl (Or.inl rfl)
  | concluding result =>
      cases result <;> exact tends_keep hp trivial rfl rfl rfl rfl (Or.inl rfl)
  | deciding =>
      simp only [proceed]
      split <;> exact tends_keep hp trivial rfl rfl rfl rfl (Or.inl rfl)
  | _ => exact tends_none h

theorem tends_notice (h : w.phase.Unbound) : w.Tends (w.notice w.phase) := by
  cases hp : w.phase with
  | connecting => exact tends_keep hp trivial rfl rfl rfl rfl (Or.inl rfl)
  | reading c => exact tends_keep hp trivial rfl rfl rfl rfl (Or.inl rfl)
  | entering c m => exact tends_keep hp trivial rfl rfl rfl rfl (Or.inl rfl)
  | resting ms => exact tends_keep hp trivial rfl rfl rfl rfl (Or.inl rfl)
  | _ => exact tends_none h

theorem tends_connected (h : w.phase.Unbound) (result : Except Failure ConnectionId) :
    w.Tends (w.connected result w.phase) := by
  cases hp : w.phase with
  | connecting => cases result <;> exact tends_keep hp trivial rfl rfl rfl rfl (Or.inl rfl)
  | _ => exact tends_none h

/-- The first preparation of a channel opens it. -/
theorem tends_opened (h : w.phase.Unbound) (result : Except Failure ChannelRef) :
    w.Tends (w.opened result w.phase) := by
  cases hp : w.phase with
  | opening connection =>
      cases result with
      | ok c =>
          refine ⟨w.definition.unbound_preparations, .opens (c := c) rfl rfl ?_ rfl ?_ rfl⟩
          · rw [engaged?, hp]
          · rw [hp]
            rfl
      | error f => exact tends_keep hp trivial rfl rfl rfl rfl (Or.inl rfl)
  | _ => exact tends_none h

theorem tends_prepared (h : w.phase.Unbound) (accepted : Bool) :
    w.Tends (w.prepared accepted w.phase) := by
  cases hp : w.phase with
  | preparing c p rest =>
      rw [hp] at h
      cases accepted with
      | true =>
          cases rest with
          | nil => exact tends_keep hp trivial rfl rfl rfl rfl (Or.inr rfl)
          | cons q rest =>
              have hrest : ∀ n, .bound n ∉ rest := fun n hn => h n (List.mem_cons_of_mem q hn)
              cases q with
              | bound n => exact absurd List.mem_cons_self (h n)
              | declare d => exact tends_keep hp hrest rfl rfl rfl rfl (Or.inl rfl)
              | subscribe queue => exact tends_keep hp hrest rfl rfl rfl rfl (Or.inl rfl)
      | false =>
          -- no handler was started on the channel
          refine ⟨trivial, .releases (c := c) rfl rfl ?_ rfl fun i h' hi => ?_⟩
          · rw [engaged?, hp]
          · refine Or.inr (Or.inr ⟨h', hi, .refl h', ?_⟩)
            rw [hp]
            rintro ⟨⟩
  | _ => exact tends_none h

theorem tends_item (h : w.phase.Unbound) (i : StreamItem) : w.Tends (w.item i w.phase) := by
  cases hp : w.phase with
  | reading c => cases i <;> exact tends_keep hp trivial rfl rfl rfl rfl (Or.inl rfl)
  | _ => exact tends_none h

theorem tends_entered (h : w.phase.Unbound) (result : Except Failure Unit) :
    w.Tends (w.entered result w.phase) := by
  cases hp : w.phase with
  | entering c m =>
      cases result with
      | ok u =>
          refine ⟨trivial, .keeps rfl rfl ?_ (Or.inl ?_) fun i h' hi => ?_⟩
          · rw [engaged?, engaged?, hp]
            rfl
          · rw [hp]
            rfl
          · rcases Nat.lt_or_ge i w.handlings.length with hlt | hge
            · exact Or.inr ⟨h', (List.getElem?_append_left hlt).symm.trans hi, .refl h'⟩
            · have hlast := (List.getElem?_append_right hge).symm.trans hi
              rw [List.mem_singleton.1 (List.mem_of_getElem? hlast)]
              exact Or.inl rfl
      | error f => exact tends_keep hp trivial rfl rfl rfl rfl (Or.inl rfl)
  | _ => exact tends_none h

theorem tends_status (h : w.phase.Unbound) (isConnected : Bool) :
    w.Tends (w.status isConnected w.phase) := by
  cases hp : w.phase with
  | leaving c result => cases isConnected <;> exact tends_keep hp trivial rfl rfl rfl rfl (Or.inl rfl)
  | _ => exact tends_none h

theorem tends_drained (h : w.phase.Unbound) : w.Tends (w.drained w.phase) := by
  cases hp : w.phase with
  | draining c result =>
      simp only [drained]
      split
      · next hempty =>
        refine ⟨trivial, .releases (c := c) rfl rfl ?_ rfl fun i h' hi => ?_⟩
        · rw [engaged?, hp]
        · by_cases hover : h'.isOver = true
          · exact Or.inl hover
          · refine Or.inr (Or.inr ⟨h', hi, .refl h', ?_⟩)
            rw [hp]
            intro hc
            have hmem : i ∈ w.unfinished c := mem_unfinished hi (Option.some.inj hc).symm hover
            rw [List.isEmpty_iff.1 hempty] at hmem
            cases hmem
      · exact tends_none h
  | _ => exact tends_none h

theorem tends_expired (h : w.phase.Unbound) : w.Tends (w.expired w.phase) := by
  cases hp : w.phase with
  | draining c result =>
      refine ⟨trivial, .releases (c := c) ?_ ?_ ?_ rfl fun i h' hi => ?_⟩
      · show openedOf ((w.unfinished c).map .abort ++ [.release c]) = []
        rw [openedOf_append, openedOf_aborts]
        rfl
      · show releasedOf ((w.unfinished c).map .abort ++ [.release c]) = [c]
        rw [releasedOf_append, releasedOf_aborts]
        rfl
      · rw [engaged?, hp]
      · obtain ⟨h, hh, hgoes⟩ := carries_abort (w.unfinished c) w i h' hi
        by_cases hover : h.isOver = true
        · exact Or.inl (hgoes.2 hover)
        · by_cases hc : h.channel = c
          · have hmem := mem_unfinished hh hc hover
            exact Or.inr (Or.inl (List.mem_append_left _ (List.mem_map_of_mem hmem)))
          · refine Or.inr (Or.inr ⟨h, hh, hgoes, ?_⟩)
            rw [hp]
            exact fun heq => hc (Option.some.inj heq).symm
  | _ => exact tends_none h

theorem tends_advance (h : w.phase.Unbound) (i : Nat) (f : Handling → Stage) :
    w.Tends (w.advance i f) := by
  unfold advance
  cases hi : w.handlings[i]? with
  | none => exact tends_none h
  | some handling =>
      simp only
      split
      · exact tends_none h
      · next hover =>
        refine tends_carries h rfl (carries_modifyHandling i fun h' hh => ?_) ?_ ?_
        · rw [hi] at hh
          cases hh
          exact ⟨rfl, fun ho => absurd ho hover⟩
        · cases (f handling).call? <;> rfl
        · cases (f handling).call? <;> rfl

/-- Every event tends to the channel of the worker and to the handlers on it. -/
theorem step_tends (h : w.phase.Unbound) (e : WorkerEvent) : w.Tends (w.step e) := by
  cases e with
  | shutdown => exact tends_keep rfl h rfl rfl rfl rfl (Or.inl rfl)
  | proceed => exact tends_proceed h
  | notice =>
      simp only [step]
      split
      · exact tends_notice h
      · exact tends_none h
  | connected result => exact tends_connected h result
  | opened result => exact tends_opened h result
  | prepared accepted => exact tends_prepared h accepted
  | item i => exact tends_item h i
  | entered result => exact tends_entered h result
  | status isConnected => exact tends_status h isConnected
  | cancelled =>
      simp only [step]
      split
      · next c result hp => exact tends_keep hp trivial rfl rfl rfl rfl (Or.inl rfl)
      · exact tends_none h
  | drained => exact tends_drained h
  | expired => exact tends_expired h
  | released =>
      cases hp : w.phase with
      | releasing c result =>
          simp only [step, released, hp]
          exact tends_keep hp trivial rfl rfl rfl rfl (Or.inl rfl)
      | _ => simp only [step, released, hp]; exact tends_none h
  | rested =>
      cases hp : w.phase with
      | resting ms =>
          simp only [step, rested, hp]
          exact tends_keep hp trivial rfl rfl rfl rfl (Or.inl rfl)
      | _ => simp only [step, rested, hp]; exact tends_none h
  | handled i run =>
      simp only [step, handled]
      split
      · exact tends_advance h i _
      · exact tends_none h
  | answered i result =>
      simp only [step, answered]
      split
      · exact tends_none h
      · exact tends_advance h i _
  | dropped i =>
      refine tends_carries h rfl (carries_modifyHandling i fun handling _ => ⟨rfl, ?_⟩) rfl rfl
      unfold Handling.isOver
      cases handling.gone <;> simp +contextual

end Steps

/-- How a worker that has asked for these actions keeps its channels and handlers. -/
structure Tidy (w : Worker) (actions : List WorkerAction) : Prop where
  /-- The channels that were opened were asked to be released, but for the one that is engaged. -/
  channels : openedOf actions = releasedOf actions ++ w.engaged?.toList
  /-- A handler has ended or was given up, unless the worker consumes from its channel. -/
  handlers : ∀ (i : Nat) (h : Handling), w.handlings[i]? = some h →
    h.isOver = true ∨ .abort i ∈ actions ∨ w.phase.serving? = some h.channel
  unbound : w.phase.Unbound

section Tidy

variable {w : Worker} {actions : List WorkerAction}

theorem tidy_spawned (d : Definition) (reconnect : ReconnectSettings) (stopping : Bool) :
    (spawned d reconnect stopping).Tidy [] where
  channels := rfl
  handlers i h hi := by cases hi
  unbound := trivial

/-- Every event keeps a worker tidy. -/
theorem Tidy.step (h : w.Tidy actions) (e : WorkerEvent) :
    (w.step e).1.Tidy (actions ++ (w.step e).2) := by
  obtain ⟨hunbound, hupkeep⟩ := step_tends h.unbound e
  generalize w.step e = r at hunbound hupkeep
  obtain ⟨next, more⟩ := r
  cases hupkeep with
  | keeps hopened hreleased hengaged hserving hhandlings =>
      refine ⟨?_, fun i h' hi => ?_, hunbound⟩
      · rw [openedOf_append, releasedOf_append, hopened, hreleased, hengaged, List.append_nil,
          List.append_nil, h.channels]
      · rcases hhandlings i h' hi with hnow | ⟨handling, hold, hchannel, hover⟩
        · exact Or.inr (Or.inr hnow)
        · rcases h.handlers i handling hold with hended | habort | hserves
          · exact Or.inl (hover hended)
          · exact Or.inr (Or.inl (List.mem_append_left _ habort))
          · rcases hserving with hsame | hnone
            · exact Or.inr (Or.inr (hsame.trans (hchannel ▸ hserves)))
            · rw [hnone] at hserves
              cases hserves
  | opens hopened hreleased hbefore hafter hserving hhandlings =>
      refine ⟨?_, fun i h' hi => ?_, hunbound⟩
      · rw [openedOf_append, releasedOf_append, hopened, hreleased, hafter, h.channels, hbefore,
          Option.toList_none, List.append_nil]
        rfl
      · have hi : next.handlings[i]? = some h' := hi
        rw [hhandlings] at hi
        rcases h.handlers i h' hi with hended | habort | hserves
        · exact Or.inl hended
        · exact Or.inr (Or.inl (List.mem_append_left _ habort))
        · rw [hserving] at hserves
          cases hserves
  | releases hopened hreleased hbefore hafter hhandlings =>
      refine ⟨?_, fun i h' hi => ?_, hunbound⟩
      · rw [openedOf_append, releasedOf_append, hopened, hreleased, hafter, h.channels, hbefore,
          Option.toList_none, List.append_nil, List.append_nil]
        rfl
      · rcases hhandlings i h' hi with hended | habort | ⟨handling, hold, ⟨-, hover⟩, hother⟩
        · exact Or.inl hended
        · exact Or.inr (Or.inl (List.mem_append_right _ habort))
        · rcases h.handlers i handling hold with hended | habort | hserves
          · exact Or.inl (hover hended)
          · exact Or.inr (Or.inl (List.mem_append_left _ habort))
          · exact absurd hserves hother

/-- A worker that has stopped holds no channel and runs no handler. -/
theorem Tidy.of_stopped (h : w.Tidy actions) (hp : w.phase = .stopped) :
    openedOf actions = releasedOf actions ∧ w.held? = none ∧
      ∀ (i : Nat) (handling : Handling), w.handlings[i]? = some handling →
        handling.isOver = true ∨ .abort i ∈ actions := by
  refine ⟨?_, ?_, fun i handling hi => ?_⟩
  · rw [h.channels, engaged?, hp]
    exact List.append_nil _
  · rw [held?, hp]
  · rcases h.handlers i handling hi with hended | habort | hserves
    · exact Or.inl hended
    · exact Or.inr habort
    · rw [hp] at hserves
      cases hserves

end Tidy

section Stopped

variable {w : Worker} {actions : List WorkerAction}

/-- Nothing leads out of `stopped`. -/
theorem phase_step_stopped (h : w.phase = .stopped) (e : WorkerEvent) :
    (w.step e).1.phase = .stopped := by
  have hstride := (w.step_stride e).2.2
  generalize (w.step e).1.phase = phase, (w.step e).1.restarts = n, marksOf (w.step e).2 = marks
    at hstride ⊢
  cases hstride with
  | goes hgoes =>
      cases hgoes with
      | stays => exact h
      | prepares ha hb => exact (h ▸ ha).elim
      | consumes ha hb => exact (h ▸ ha).elim
      | ends ha hb => exact (h ▸ ha).elim
  | consumes hbefore hafter => exact (h ▸ hbefore).elim
  | fails hbefore => cases h.symm.trans hbefore
  | rests hbefore hrestarts => cases h.symm.trans hbefore
  | restarts hbefore he => cases h.symm.trans hbefore
  | stops hbefore => rfl

/-- A worker that has stopped starts no handler. -/
theorem dispatches_step_stopped (h : w.phase = .stopped) (e : WorkerEvent) :
    dispatchesOf (w.step e).2 = [] := by
  have heffect := w.step_effect e
  generalize w.step e = r at heffect
  cases heffect with
  | quiet hdefinition hcore hquiet hwaiting hengaged => exact (quiet_actions hquiet).2.1
  | read hphase he => cases h.symm.trans hphase
  | dispatched hphase => cases h.symm.trans hphase
  | @advanced i handling stage hi he hmoves => cases stage.call? <;> rfl

end Stopped

/-- A worker that was told to stop before its first step stops: the phases, with the number of steps
of its own that are left, and with what it has asked for. -/
inductive Retreat : Phase → Nat → List WorkerAction → Prop
  | begins : Retreat .starting 2 []
  | ends : Retreat (.concluding (.ok ())) 1 []
  | ended : Retreat .stopped 0 [.become .stopped]

/-- The worker was told to stop before its first step and has `left` steps of its own to make. -/
structure Retires (w : Worker) (left : Nat) (actions : List WorkerAction) : Prop where
  stopping : w.stopping = true
  unused : w.handlings = []
  retreat : Retreat w.phase left actions

section Retires

variable {w : Worker} {left : Nat} {actions : List WorkerAction}

theorem retires_spawned (d : Definition) (reconnect : ReconnectSettings) :
    (spawned d reconnect true).Retires 2 [] where
  stopping := rfl
  unused := rfl
  retreat := .begins

/-- Nothing but its own steps moves such a worker on. -/
theorem Retires.step_other (h : w.Retires left actions) {e : WorkerEvent} (he : e.isOwn = false) :
    w.step e = (w, []) := by
  obtain ⟨definition, reconnect, stopping, phase, restarts, handlings⟩ := w
  obtain ⟨rfl, rfl, hretreat⟩ := h
  cases e with
  | proceed => cases he
  | dropped i => simp [Worker.step, dropped, modifyHandling]
  | _ => cases hretreat <;> rfl

/-- Every event keeps such a worker retiring, with a step less to make if it is the worker's own. -/
theorem Retires.step (h : w.Retires left actions) (e : WorkerEvent) :
    (w.step e).1.Retires (left - if e.isOwn then 1 else 0) (actions ++ (w.step e).2) := by
  cases he : e.isOwn with
  | false =>
      rw [h.step_other he, List.append_nil]
      exact h
  | true =>
      obtain ⟨hstopping, hunused, hretreat⟩ := h
      cases e with
      | proceed =>
          generalize hp : w.phase = phase at hretreat
          cases hretreat with
          | begins =>
              simp only [Worker.step, proceed, hp, hstopping]
              exact ⟨hstopping, hunused, .ends⟩
          | ends =>
              simp only [Worker.step, proceed, hp]
              exact ⟨hstopping, hunused, .ended⟩
          | ended =>
              simp only [Worker.step, proceed, hp]
              exact ⟨hstopping, hunused, hp ▸ .ended⟩
      | _ => cases he

theorem Retires.left_le (h : w.Retires left actions) : left ≤ 2 := by
  obtain ⟨-, -, hretreat⟩ := h
  generalize w.phase = phase at hretreat
  cases hretreat <;> decide

/-- A worker without a step to make has stopped. -/
theorem Retires.done (h : w.Retires 0 actions) : w.phase = .stopped := by
  obtain ⟨-, -, hretreat⟩ := h
  generalize w.phase = phase at hretreat
  cases hretreat
  rfl

/-- Such a worker asks for nothing but to be moved to `stopped`. -/
theorem Retires.asked (h : w.Retires left actions) :
    actions = [] ∨ actions = [.become .stopped] := by
  obtain ⟨-, -, hretreat⟩ := h
  generalize w.phase = phase at hretreat
  cases hretreat with
  | begins => exact Or.inl rfl
  | ends => exact Or.inl rfl
  | ended => exact Or.inr rfl

theorem Retires.silent (h : w.Retires left actions) : dispatchesOf actions = [] := by
  rcases h.asked with rfl | rfl <;> rfl

end Retires

end Worker

end AmqpDelivery
