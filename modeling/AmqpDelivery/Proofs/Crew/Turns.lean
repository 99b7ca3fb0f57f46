import AmqpDelivery.Proofs.Pool.Order
import AmqpDelivery.Proofs.Worker.Entering
import AmqpDelivery.Worker.Crew

/-!
# What one event does to a crew

Beside the crew itself a run has a history: what has happened at the limiter (`Crew.heard`), which
deliveries were read and under which submissions they wait (`Crew.readings`), and which of their
handlers were started (`Crew.starts`). `Crew.step_turn` says what one event does to the crew and adds
to its history.
-/

namespace AmqpDelivery

/-- A delivery that a worker has read, and the submission that it has made for it. -/
structure Reading where
  worker : WorkerId
  task : TaskId
  channel : ChannelRef
  message : Message

/-- The delivery with the channel on which it arrived. -/
def Reading.delivery (r : Reading) : ChannelRef × Message := (r.channel, r.message)

/-- The readings of one worker. -/
def readingsOf (i : WorkerId) (rs : List Reading) : List Reading := rs.filter fun r => r.worker = i

namespace Crew

/-- What a worker asks of the limiter at an event. -/
def asks (s : Crew) (i : WorkerId) (e : WorkerEvent) : List WorkerAction :=
  (s.workers[i]?).elim [] fun w => (w.step e).2.filter WorkerAction.isEntry

/-- What an event of the crew is for the worker that it concerns. -/
def inner? (s : Crew) : CrewEvent → Option (WorkerId × WorkerEvent)
  | .within i e => if e.isFromLimiter then none else some (i, e)
  | .enter i => (s.admitted? i).map fun _ => (i, .entered (.ok ()))
  | _ => none

/-- What an action of a worker is for the limiter. -/
def limiterEvent? (s : Crew) (i : WorkerId) : WorkerAction → Option LimiterEvent
  | .submit _ _ => some (.submit s.next)
  | .withdraw => (s.pending i).map .withdraw
  | _ => none

/-- What an event of the crew is for the limiter. -/
def heard (s : Crew) : CrewEvent → List LimiterEvent
  | .within i e => if e.isFromLimiter then [] else (s.asks i e).filterMap (s.limiterEvent? i)
  | .enter i => ((s.admitted? i).map .enter).toList
  | .submit => [.submit s.next]
  | .limiter e => if s.isForeign e then [e] else []

/-- The deliveries that are read at an event. -/
def readings (s : Crew) : CrewEvent → List Reading
  | .within i e =>
      if e.isFromLimiter then []
      else (readsOf (s.asks i e)).map fun (c, m) => ⟨i, s.next, c, m⟩
  | _ => []

/-- The deliveries whose handlers are started at an event. -/
def starts (s : Crew) : CrewEvent → List Reading
  | .enter i =>
      (s.admitted? i).elim [] fun t =>
        (dispatchesOf (s.asks i (.entered (.ok ())))).map fun (c, m) => ⟨i, t, c, m⟩
  | _ => []

/-- What an event of the crew is for one worker. -/
def eventsOf (i : WorkerId) (s : Crew) (ev : CrewEvent) : List WorkerEvent :=
  ((s.inner? ev).toList.filter fun x => x.1 = i).map Prod.snd

/-- What the events of a run add to its history. -/
def along {α : Type} (f : Crew → CrewEvent → List α) : Crew → List CrewEvent → List α
  | _, [] => []
  | s, ev :: rest => f s ev ++ along f (s.step ev) rest

/-- The delivery with which a worker waits for the limiter. -/
def waits? (s : Crew) (i : WorkerId) : Option (ChannelRef × Message) :=
  (s.workers[i]?).bind Worker.waiting?

/-- A worker that waits for the limiter has a submission there, and no other worker has one. -/
def Paired (s : Crew) : Prop := ∀ i, (s.pending i).isSome = (s.waits? i).isSome

/-- What one event can do to a crew, with what it adds to the history. -/
inductive Turn (s : Crew) : Crew → List LimiterEvent → List Reading → List Reading → Prop
  | stays : Turn s s [] [] []
  | works {i : WorkerId} {w next : Worker} (hi : s.workers[i]? = some w)
      (hsame : next.waiting? = w.waiting?) : Turn s (s.setWorker i next) [] [] []
  /-- A worker reads a delivery and makes a submission for it. -/
  | reads {i : WorkerId} {w next : Worker} {c : ChannelRef} {m : Message}
      (hi : s.workers[i]? = some w) (hnone : w.waiting? = none)
      (hafter : next.waiting? = some (c, m)) :
      Turn s ((s.setWorker i next).submit.await i (some s.next)) [.submit s.next]
        [⟨i, s.next, c, m⟩] []
  /-- A worker no longer waits for its submission. -/
  | withdraws {i : WorkerId} {w next : Worker} {t : TaskId} (hi : s.workers[i]? = some w)
      (ht : s.pending i = some t) (hafter : next.waiting? = none) :
      Turn s (((s.setWorker i next).serve (.withdraw t)).await i none) [.withdraw t] [] []
  /-- A worker starts the handler of the delivery that has got its permit. -/
  | starts {i : WorkerId} {w next : Worker} {t : TaskId} {c : ChannelRef} {m : Message}
      (hi : s.workers[i]? = some w) (ht : s.pending i = some t) (hgranted : t ∈ s.limiter.granted)
      (hbefore : w.waiting? = some (c, m)) (hafter : next.waiting? = none) :
      Turn s (((s.serve (.enter t)).await i none).setWorker i next) [.enter t] [] [⟨i, t, c, m⟩]
  | submits : Turn s s.submit [.submit s.next] [] []
  | serves {e : LimiterEvent} (harrival : Limiter.arrivals [e] = []) : Turn s (s.serve e) [e] [] []

section Readings

variable {i j : WorkerId} {r : Reading} {rs more : List Reading}

theorem mem_readingsOf : r ∈ readingsOf i rs ↔ r ∈ rs ∧ r.worker = i := by
  rw [readingsOf, List.mem_filter, decide_eq_true_eq]

theorem readingsOf_append : readingsOf i (rs ++ more) = readingsOf i rs ++ readingsOf i more :=
  List.filter_append ..

theorem readingsOf_self (h : r.worker = i) : readingsOf i [r] = [r] := by
  simp [readingsOf, h]

theorem readingsOf_eq_nil (h : ∀ r ∈ rs, r.worker ≠ i) : readingsOf i rs = [] :=
  List.filter_eq_nil_iff.2 fun r hr => by simpa using h r hr

/-- The deliveries that a worker reads under one submission are its own. -/
theorem readingsOf_map_self (i : WorkerId) (t : TaskId) (l : List (ChannelRef × Message)) :
    (readingsOf i (l.map fun (c, m) => ⟨i, t, c, m⟩)).map Reading.delivery = l := by
  have hall : readingsOf i (l.map fun (c, m) => ⟨i, t, c, m⟩) =
      l.map fun (c, m) => ⟨i, t, c, m⟩ := by
    refine List.filter_eq_self.2 fun r hr => ?_
    obtain ⟨x, -, rfl⟩ := List.mem_map.1 hr
    exact decide_eq_true rfl
  rw [hall, List.map_map]
  exact List.map_id' l

theorem readingsOf_map_of_ne (h : i ≠ j) (t : TaskId) (l : List (ChannelRef × Message)) :
    readingsOf i (l.map fun (c, m) => ⟨j, t, c, m⟩) = [] := by
  refine readingsOf_eq_nil fun r hr => ?_
  obtain ⟨x, -, rfl⟩ := List.mem_map.1 hr
  exact h.symm

end Readings

section Turns

variable {s : Crew} {i : WorkerId} {w : Worker} {e : WorkerEvent} {t : TaskId}

theorem waits?_of_worker (h : s.workers[i]? = some w) : s.waits? i = w.waiting? := by
  rw [waits?, h]
  rfl

theorem asks_of_worker (h : s.workers[i]? = some w) :
    s.asks i e = (w.step e).2.filter WorkerAction.isEntry := by
  rw [asks, h]
  rfl

theorem admitted?_eq_some :
    s.admitted? i = some t ↔ s.pending i = some t ∧ t ∈ s.limiter.granted := by
  rw [admitted?, Option.filter_eq_some_iff, List.contains_iff_mem]

/-- The limiter hears only of what concerns it. -/
theorem foldl_tell (s : Crew) (i : WorkerId) (actions : List WorkerAction) :
    actions.foldl (fun s a => s.tell i a) s =
      (actions.filter WorkerAction.isEntry).foldl (fun s a => s.tell i a) s := by
  induction actions generalizing s with
  | nil => rfl
  | cons a rest ih =>
      cases a <;> exact ih _

theorem within_of_worker (h : s.workers[i]? = some w) : s.within i e =
    (s.asks i e).foldl (fun s a => s.tell i a) (s.setWorker i (w.step e).1) := by
  rw [within, h, asks_of_worker h]
  exact foldl_tell _ i _

theorem asks_of_none (h : s.workers[i]? = none) : s.asks i e = [] := by
  rw [asks, h]
  rfl

/-- An event of a worker that is no answer of the limiter. -/
theorem within_turn (hpaired : s.Paired) (he : e.isFromLimiter = false) :
    s.Turn (s.step (.within i e)) (s.heard (.within i e)) (s.readings (.within i e)) [] := by
  simp only [step, heard, readings, he, Bool.false_eq_true, if_false]
  cases hi : s.workers[i]? with
  | none =>
      rw [asks_of_none hi, within, hi]
      exact .stays
  | some w =>
      rw [within_of_worker hi, asks_of_worker hi]
      have hqueues := w.step_queues e (by rintro answer rfl; cases he)
      generalize w.step e = r at hqueues ⊢
      cases hqueues with
      | stays hsame hactions =>
          rw [hactions]
          exact .works hi hsame
      | reads hnone hafter hactions =>
          rw [hactions]
          exact .reads hi hnone hafter
      | withdraws hbefore hafter hactions =>
          obtain ⟨t, ht⟩ : ∃ t, s.pending i = some t := by
            rw [← Option.isSome_iff_exists, hpaired i, waits?_of_worker hi, hbefore]
            rfl
          have htell : (s.setWorker i r.1).tell i .withdraw =
              ((s.setWorker i r.1).serve (.withdraw t)).await i none := by
            have ht' : (s.setWorker i r.1).pending i = some t := ht
            rw [tell, ht']
          have hheard : s.limiterEvent? i .withdraw = some (.withdraw t) := by
            rw [limiterEvent?, ht]
            rfl
          rw [hactions]
          simp only [List.foldl_cons, List.foldl_nil, List.filterMap_cons, List.filterMap_nil, htell,
            hheard]
          exact .withdraws hi ht hafter

/-- A worker goes on with its permit. -/
theorem enter_turn (hpaired : s.Paired) (ht : s.admitted? i = some t) :
    s.Turn (s.step (.enter i)) (s.heard (.enter i)) [] (s.starts (.enter i)) := by
  obtain ⟨hpending, hgranted⟩ := admitted?_eq_some.1 ht
  -- a worker that has a submission waits with a delivery, and the handler started is that of it
  obtain ⟨⟨c, m⟩, hwaits⟩ : ∃ x, s.waits? i = some x := by
    rw [← Option.isSome_iff_exists, ← hpaired i, hpending]
    rfl
  obtain ⟨w, hi, hbefore⟩ := Option.bind_eq_some_iff.1 hwaits
  obtain ⟨hafter, hactions⟩ := Worker.step_entered hbefore
  have hi' : ((s.serve (.enter t)).await i none).workers[i]? = some w := hi
  have hentry : [WorkerAction.handle c m].filter WorkerAction.isEntry = [.handle c m] := rfl
  simp only [step, heard, starts, ht]
  rw [within_of_worker hi', asks_of_worker hi', asks_of_worker hi, hactions, hentry]
  exact .starts hi hpending hgranted hbefore hafter

/-- Every event of a crew is one of the turns. -/
theorem step_turn (hpaired : s.Paired) (ev : CrewEvent) :
    s.Turn (s.step ev) (s.heard ev) (s.readings ev) (s.starts ev) := by
  cases ev with
  | within i e =>
      cases he : e.isFromLimiter with
      | false => exact within_turn hpaired he
      | true =>
          simp only [step, heard, readings, he, if_true]
          exact .stays
  | enter i =>
      cases ht : s.admitted? i with
      | some t => exact enter_turn hpaired ht
      | none =>
          simp only [step, heard, starts, ht]
          exact .stays
  | submit => exact .submits
  | limiter e =>
      simp only [step, heard]
      split
      · next hforeign =>
        refine .serves ?_
        cases e with
        | submit t => cases hforeign
        | _ => rfl
      · exact .stays

end Turns

section Workers

variable {s : Crew} {i j : WorkerId} {w : Worker} {e : WorkerEvent} {ev : CrewEvent}

theorem readsOf_filter (actions : List WorkerAction) :
    readsOf (actions.filter WorkerAction.isEntry) = readsOf actions := by
  rw [readsOf, readsOf, List.filterMap_filter]
  exact List.filterMap_congr fun a _ => by cases a <;> rfl

theorem dispatchesOf_filter (actions : List WorkerAction) :
    dispatchesOf (actions.filter WorkerAction.isEntry) = dispatchesOf actions := by
  rw [dispatchesOf, dispatchesOf, List.filterMap_filter]
  exact List.filterMap_congr fun a _ => by cases a <;> rfl

/-- Only an answer of the limiter starts a handler. -/
theorem dispatchesOf_step (w : Worker) (he : e.isFromLimiter = false) :
    dispatchesOf (w.step e).2 = [] := by
  have hqueues := w.step_queues e (by rintro answer rfl; cases he)
  rw [← dispatchesOf_filter]
  cases hqueues with
  | stays hsame hactions => rw [hactions]; rfl
  | reads hnone hafter hactions => rw [hactions]; rfl
  | withdraws hbefore hafter hactions => rw [hactions]; rfl

theorem readsOf_step_entered (w : Worker) : readsOf (w.step (.entered (.ok ()))).2 = [] := by
  simp only [Worker.step, Worker.entered]
  split <;> rfl

theorem workers_foldl_tell (s : Crew) (i : WorkerId) (actions : List WorkerAction) :
    (actions.foldl (fun s a => s.tell i a) s).workers = s.workers := by
  induction actions generalizing s with
  | nil => rfl
  | cons a rest ih =>
      rw [List.foldl_cons, ih]
      cases a with
      | withdraw => simp only [tell]; split <;> rfl
      | _ => rfl

theorem workers_within_self (h : s.workers[i]? = some w) :
    (s.within i e).workers[i]? = some (w.step e).1 := by
  obtain ⟨hlt, -⟩ := List.getElem?_eq_some_iff.1 h
  rw [within_of_worker h, workers_foldl_tell]
  exact List.getElem?_set_self hlt

theorem workers_within_of_ne (h : i ≠ j) : (s.within j e).workers[i]? = s.workers[i]? := by
  cases hj : s.workers[j]? with
  | none => rw [within, hj]
  | some w =>
      rw [within_of_worker hj, workers_foldl_tell]
      exact List.getElem?_set_ne h.symm

/-- An event that is none for the worker leaves it as it is. -/
theorem eventsOf_eq_nil (h : ∀ e, s.inner? ev ≠ some (i, e)) : s.eventsOf i ev = [] := by
  have hnone : (s.inner? ev).toList.filter (fun x => x.1 = i) = [] := by
    refine List.filter_eq_nil_iff.2 fun x hx heq => ?_
    obtain ⟨j, e⟩ := x
    obtain rfl : j = i := of_decide_eq_true heq
    exact h e (Option.mem_toList.1 hx)
  rw [eventsOf, hnone, List.map_nil]

theorem eventsOf_of_inner (h : s.inner? ev = some (i, e)) : s.eventsOf i ev = [e] := by
  simp [eventsOf, h]

/-- A worker of the crew takes the steps that it would take by itself. -/
theorem workers_step (hi : s.workers[i]? = some w) (ev : CrewEvent) :
    (s.step ev).workers[i]? = some (w.run (s.eventsOf i ev)).1 ∧
      (readingsOf i (s.readings ev)).map Reading.delivery = readsOf (w.run (s.eventsOf i ev)).2 ∧
      (readingsOf i (s.starts ev)).map Reading.delivery =
        dispatchesOf (w.run (s.eventsOf i ev)).2 := by
  cases ev with
  | within j e =>
      cases he : e.isFromLimiter with
      | true =>
          rw [eventsOf_eq_nil (by simp [inner?, he])]
          simp only [step, readings, he, if_true]
          exact ⟨hi, rfl, rfl⟩
      | false =>
          simp only [step, readings, he, Bool.false_eq_true, if_false]
          by_cases hj : i = j
          · subst hj
            rw [eventsOf_of_inner (e := e) (by simp [inner?, he])]
            simp only [Worker.run, List.append_nil]
            refine ⟨workers_within_self hi, ?_, (dispatchesOf_step w he).symm⟩
            rw [readingsOf_map_self, asks_of_worker hi, readsOf_filter]
          · rw [eventsOf_eq_nil (by simp [inner?, he, Ne.symm hj]), readingsOf_map_of_ne hj]
            exact ⟨(workers_within_of_ne hj).trans hi, rfl, rfl⟩
  | enter j =>
      cases ht : s.admitted? j with
      | none =>
          rw [eventsOf_eq_nil (by simp [inner?, ht])]
          simp only [step, starts, ht]
          exact ⟨hi, rfl, rfl⟩
      | some t =>
          simp only [step, starts, ht, Option.elim_some]
          by_cases hj : i = j
          · subst hj
            rw [eventsOf_of_inner (e := .entered (.ok ())) (by simp [inner?, ht])]
            simp only [Worker.run, List.append_nil]
            refine ⟨workers_within_self hi, (readsOf_step_entered w).symm, ?_⟩
            rw [readingsOf_map_self, asks_of_worker hi, dispatchesOf_filter]
          · rw [eventsOf_eq_nil (by simp [inner?, ht, Ne.symm hj]), readingsOf_map_of_ne hj]
            exact ⟨(workers_within_of_ne hj).trans hi, rfl, rfl⟩
  | submit =>
      rw [eventsOf_eq_nil (by simp [inner?])]
      exact ⟨hi, rfl, rfl⟩
  | limiter e =>
      rw [eventsOf_eq_nil (by simp [inner?])]
      simp only [step]
      split <;> exact ⟨hi, rfl, rfl⟩

theorem workers_run (hi : s.workers[i]? = some w) (events : List CrewEvent) :
    (s.run events).workers[i]? = some (w.run (s.along (eventsOf i) events)).1 ∧
      (readingsOf i (s.along readings events)).map Reading.delivery =
        readsOf (w.run (s.along (eventsOf i) events)).2 ∧
      (readingsOf i (s.along starts events)).map Reading.delivery =
        dispatchesOf (w.run (s.along (eventsOf i) events)).2 := by
  induction events generalizing s w with
  | nil => exact ⟨hi, rfl, rfl⟩
  | cons ev rest ih =>
      obtain ⟨hworker, hreads, hstarts⟩ := workers_step hi ev
      obtain ⟨hworker', hreads', hstarts'⟩ := ih hworker
      simp only [along, Worker.run_append, readingsOf_append, List.map_append, readsOf_append,
        dispatchesOf_append]
      exact ⟨hworker', congrArg₂ _ hreads hreads', congrArg₂ _ hstarts hstarts'⟩

end Workers

end Crew

end AmqpDelivery
