import AmqpDelivery.Worker.Basic

/-!
# Traces of a worker

The trace of a run lists its events, each with what the worker asked for in answer to it. What the
worker did with its deliveries is read off the trace: which it read (`readsOf`), which it handed to
a handler (`dispatchesOf`) and which calls it made (`callsOf`), in all and for one delivery
(`callsFor`).
-/

namespace AmqpDelivery

/-- The steps of a run: events with what the worker asked for. -/
abbrev Worker.Steps := List (WorkerEvent × List WorkerAction)

/-- All that was asked for. -/
def actionsOf (steps : Worker.Steps) : List WorkerAction := steps.flatMap Prod.snd

/-- The deliveries that were read, with the channels they arrived on. -/
def readsOf (actions : List WorkerAction) : List (ChannelRef × Message) :=
  actions.filterMap fun
    | .submit c m => some (c, m)
    | _ => none

/-- The deliveries whose handlers were started. -/
def dispatchesOf (actions : List WorkerAction) : List (ChannelRef × Message) :=
  actions.filterMap fun
    | .handle c m => some (c, m)
    | _ => none

/-- The calls that were made, with their channels. -/
def callsOf (actions : List WorkerAction) : List (ChannelRef × ChannelCall) :=
  actions.filterMap fun
    | .call c call => some (c, call)
    | _ => none

/-- The delivery whose dispatch an event belongs to, by its place among the dispatches. -/
def WorkerEvent.delivery? : WorkerEvent → Option Nat
  | .handled i _ | .answered i _ => some i
  | _ => none

/-- The calls that were made for the delivery that was dispatched at place `i`. -/
def callsFor (i : Nat) (steps : Worker.Steps) : List ChannelCall :=
  steps.flatMap fun s => if s.1.delivery? = some i then (callsOf s.2).map Prod.snd else []

/-- An action that neither reads, nor dispatches, nor calls. -/
def WorkerAction.isQuiet : WorkerAction → Bool
  | .submit _ _ | .handle _ _ | .call _ _ => false
  | _ => true

section Lists

variable (actions more : List WorkerAction) (steps : Worker.Steps) (e : WorkerEvent) (i : Nat)

@[simp] theorem readsOf_append : readsOf (actions ++ more) = readsOf actions ++ readsOf more :=
  List.filterMap_append

@[simp] theorem dispatchesOf_append :
    dispatchesOf (actions ++ more) = dispatchesOf actions ++ dispatchesOf more :=
  List.filterMap_append

@[simp] theorem callsOf_append : callsOf (actions ++ more) = callsOf actions ++ callsOf more :=
  List.filterMap_append

@[simp] theorem actionsOf_concat : actionsOf (steps ++ [(e, actions)]) = actionsOf steps ++ actions := by
  simp [actionsOf]

@[simp] theorem callsFor_concat :
    callsFor i (steps ++ [(e, actions)]) =
      callsFor i steps ++ if e.delivery? = some i then (callsOf actions).map Prod.snd else [] := by
  simp [callsFor]

/-- Quiet actions leave no mark on any delivery. -/
theorem quiet_actions {actions : List WorkerAction} (h : ∀ a ∈ actions, a.isQuiet) :
    readsOf actions = [] ∧ dispatchesOf actions = [] ∧ callsOf actions = [] := by
  refine ⟨List.filterMap_eq_nil_iff.2 ?_, List.filterMap_eq_nil_iff.2 ?_,
    List.filterMap_eq_nil_iff.2 ?_⟩
  all_goals
    intro a ha
    have hq := h a ha
    cases a <;> first | rfl | cases hq

theorem mem_readsOf {c : ChannelRef} {m : Message} :
    (c, m) ∈ readsOf actions ↔ WorkerAction.submit c m ∈ actions := by
  rw [readsOf, List.mem_filterMap]
  constructor
  · rintro ⟨a, ha, hread⟩
    split at hread
    · cases hread
      exact ha
    · cases hread
  · exact fun h => ⟨_, h, rfl⟩

theorem mem_callsOf {c : ChannelRef} {call : ChannelCall} :
    (c, call) ∈ callsOf actions ↔ WorkerAction.call c call ∈ actions := by
  rw [callsOf, List.mem_filterMap]
  constructor
  · rintro ⟨a, ha, hcall⟩
    split at hcall
    · cases hcall
      exact ha
    · cases hcall
  · exact fun h => ⟨_, h, rfl⟩

end Lists

namespace Worker

/-- The steps of a run. -/
def trace (w : Worker) : List WorkerEvent → Worker.Steps
  | [] => []
  | e :: rest => (e, (w.step e).2) :: (w.step e).1.trace rest

theorem run_concat (w : Worker) (events : List WorkerEvent) (e : WorkerEvent) :
    (w.run (events ++ [e])).1 = ((w.run events).1.step e).1 := by
  induction events generalizing w with
  | nil => rfl
  | cons first rest ih => exact ih (w.step first).1

/-- A run can be cut where one likes. -/
theorem run_append (w : Worker) (events more : List WorkerEvent) :
    w.run (events ++ more) =
      (((w.run events).1.run more).1, (w.run events).2 ++ ((w.run events).1.run more).2) := by
  induction events generalizing w with
  | nil => rfl
  | cons first rest ih =>
      simp only [List.cons_append, run, ih, List.append_assoc]

theorem trace_concat (w : Worker) (events : List WorkerEvent) (e : WorkerEvent) :
    w.trace (events ++ [e]) = w.trace events ++ [(e, ((w.run events).1.step e).2)] := by
  induction events generalizing w with
  | nil => rfl
  | cons first rest ih =>
      simp only [trace, List.cons_append, List.cons.injEq, true_and]
      exact ih (w.step first).1

/-- What a run asked for is what its steps did. -/
theorem run_actions (w : Worker) (events : List WorkerEvent) :
    (w.run events).2 = actionsOf (w.trace events) := by
  induction events generalizing w with
  | nil => rfl
  | cons first rest ih =>
      show (w.step first).2 ++ ((w.step first).1.run rest).2 = _
      rw [ih]
      rfl

/-- A step of a trace was taken by the worker as it stood after the events before. -/
theorem exists_of_trace_eq {w : Worker} {events : List WorkerEvent} {before after : Worker.Steps}
    {e : WorkerEvent} {actions : List WorkerAction}
    (h : w.trace events = before ++ (e, actions) :: after) :
    ∃ earlier, before = w.trace earlier ∧ actions = ((w.run earlier).1.step e).2 ∧
      earlier ++ [e] <+: events := by
  induction events generalizing w before with
  | nil => simp [trace] at h
  | cons first rest ih =>
      -- the step is the first one, or it is a step of what follows
      cases before with
      | nil =>
          simp only [trace, List.nil_append, List.cons.injEq, Prod.mk.injEq] at h
          obtain ⟨⟨rfl, rfl⟩, -⟩ := h
          exact ⟨[], rfl, rfl, by simp⟩
      | cons s before =>
          simp only [trace, List.cons_append, List.cons.injEq] at h
          obtain ⟨rfl, hrest⟩ := h
          obtain ⟨earlier, rfl, rfl, hbegins⟩ := ih hrest
          exact ⟨first :: earlier, rfl, rfl, by simpa using hbegins⟩

end Worker

end AmqpDelivery
