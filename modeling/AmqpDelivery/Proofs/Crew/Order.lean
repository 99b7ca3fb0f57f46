import AmqpDelivery.Proofs.Crew.Turns
import Mathlib.Data.List.Perm.Subperm

/-!
# In which order handlers are admitted

Tasks are admitted in the order in which they arrive at their limiter, those that were withdrawn
while they waited left out. The deliveries of a crew arrive there in the order in which they were
read, and no worker waits with more than one (`Crew.Books`). Main statement: so the handlers of a
consumer are admitted in the order of its deliveries, whoever else uses the pool
(`admission_first_come_first_served`).
-/

namespace AmqpDelivery

namespace Crew

/-- The delivery with which a worker waits, and its submission. -/
def current? (s : Crew) (i : WorkerId) : Option Reading :=
  (s.pending i).bind fun t => (s.waits? i).map fun (c, m) => ⟨i, t, c, m⟩

/-- Nothing changes for the workers but one. -/
def SameBut (s s' : Crew) (i : WorkerId) : Prop :=
  ∀ j, j ≠ i → s'.pending j = s.pending j ∧ s'.waits? j = s.waits? j

/-- How a crew stands to its history. -/
structure Books (s : Crew) (arrived admitted : List TaskId) (read started : List Reading) :
    Prop where
  paired : s.Paired
  numbered : arrived = List.range s.next
  /-- The deliveries arrive at the limiter in the order in which they are read. -/
  tasks : (read.map Reading.task).Sublist arrived
  /-- A delivery waits only while its worker waits for it. -/
  awaited : ∀ r ∈ read, r.task ∈ s.limiter.waiting → s.pending r.worker = some r.task
  begun : ∀ i, (readingsOf i started ++ (s.current? i).toList).Sublist (readingsOf i read)
  permitted : ∀ r ∈ started, r.task ∈ admitted

section Steps

variable {s s' : Crew} {i j : WorkerId} {w next : Worker} {t : TaskId} {c : ChannelRef}
  {m : Message} {arrived admitted cancelled : List TaskId} {read started : List Reading}

theorem waits?_setWorker_self (h : s.workers[i]? = some w) :
    (s.setWorker i next).waits? i = next.waiting? := by
  refine waits?_of_worker ?_
  obtain ⟨hlt, -⟩ := List.getElem?_eq_some_iff.1 h
  exact List.getElem?_set_self hlt

theorem waits?_setWorker_of_ne (h : j ≠ i) : (s.setWorker i next).waits? j = s.waits? j := by
  rw [waits?, waits?, setWorker, List.getElem?_set_ne h.symm]

/-- A worker that waits as it did makes no difference. -/
theorem waits?_setWorker_same (h : s.workers[i]? = some w) (hsame : next.waiting? = w.waiting?)
    (j : WorkerId) : (s.setWorker i next).waits? j = s.waits? j := by
  by_cases heq : j = i
  · rw [heq, waits?_setWorker_self h, hsame, waits?_of_worker h]
  · exact waits?_setWorker_of_ne heq

theorem current?_congr (hpending : s'.pending i = s.pending i) (hwaits : s'.waits? i = s.waits? i) :
    s'.current? i = s.current? i := by
  rw [current?, current?, hpending, hwaits]

theorem current?_of_none (h : s.pending i = none) : s.current? i = none := by
  rw [current?, h]
  rfl

theorem current?_eq_some (ht : s.pending i = some t) (hwaits : s.waits? i = some (c, m)) :
    s.current? i = some ⟨i, t, c, m⟩ := by
  rw [current?, ht, hwaits]
  rfl

theorem worker_of_current {r : Reading} (h : r ∈ (s.current? i).toList) : r.worker = i := by
  obtain ⟨t, -, hr⟩ := Option.bind_eq_some_iff.1 (Option.mem_toList.1 h)
  obtain ⟨x, -, rfl⟩ := Option.map_eq_some_iff.1 hr
  rfl

/-- A worker that does not wait for the limiter has no submission there. -/
theorem Paired.pending_eq_none (h : s.Paired) (hnone : s.waits? i = none) : s.pending i = none := by
  have hsame := h i
  rw [hnone] at hsame
  exact Option.isNone_iff_eq_none.1 (by rw [← Option.not_isSome, hsame]; rfl)

theorem Paired.sameBut (h : s.Paired) (hother : s.SameBut s' i)
    (hown : (s'.pending i).isSome = (s'.waits? i).isSome) : s'.Paired := by
  intro j
  by_cases hj : j = i
  · rw [hj, hown]
  · rw [(hother j hj).1, (hother j hj).2]
    exact h j

namespace Books

variable (h : s.Books arrived admitted read started)

include h

/-- What does not touch the workers' submissions keeps the books, if nobody begins to wait. -/
theorem carry {more : List TaskId} (hpending : s'.pending = s.pending)
    (hwaits : ∀ i, s'.waits? i = s.waits? i) (hnext : s'.next = s.next)
    (hwaiting : s'.limiter.waiting ⊆ s.limiter.waiting) :
    s'.Books arrived (admitted ++ more) read started where
  paired i := by rw [hpending, hwaits i]; exact h.paired i
  numbered := hnext ▸ h.numbered
  tasks := h.tasks
  awaited r hr hw := by rw [hpending]; exact h.awaited r hr (hwaiting hw)
  begun i := by
    rw [current?_congr (congrFun hpending i) (hwaits i)]
    exact h.begun i
  permitted r hr := List.mem_append_left _ (h.permitted r hr)

/-- For another worker nothing is read or started either. -/
theorem begun_sameBut {reads begins : List Reading} (hother : s.SameBut s' i) (hj : j ≠ i)
    (hreads : ∀ r ∈ reads, r.worker = i) (hbegins : ∀ r ∈ begins, r.worker = i) :
    (readingsOf j (started ++ begins) ++ (s'.current? j).toList).Sublist
      (readingsOf j (read ++ reads)) := by
  have hnone : ∀ {rs : List Reading}, (∀ r ∈ rs, r.worker = i) → readingsOf j rs = [] :=
    fun hrs => readingsOf_eq_nil fun r hr => hrs r hr ▸ Ne.symm hj
  rw [readingsOf_append, readingsOf_append, hnone hreads, hnone hbegins, List.append_nil,
    List.append_nil, current?_congr (hother j hj).1 (hother j hj).2]
  exact h.begun j

theorem task_lt {r : Reading} (hr : r ∈ read) : r.task < s.next := by
  have hin := h.tasks.subset (List.mem_map_of_mem hr)
  rw [h.numbered] at hin
  exact List.mem_range.1 hin

/-- Whatever arrives next, no delivery that was read before is that one. -/
theorem awaited_of_submit (hbalanced : s.limiter.Balanced) {r : Reading} (hr : r ∈ read)
    (hwaits : r.task ∈ (s.limiter.step (.submit s.next)).waiting) :
    s.pending r.worker = some r.task := by
  rcases List.mem_append.1 (Limiter.waiting_step_subset hbalanced _ hwaits) with hold | hnew
  · exact h.awaited r hr hold
  · exact absurd (List.mem_singleton.1 hnew) (Nat.ne_of_lt (h.task_lt hr))

theorem numbered_submit : arrived ++ [s.next] = List.range (s.next + 1) := by
  rw [h.numbered, List.range_succ]

theorem submission {more : List TaskId} (hbalanced : s.limiter.Balanced) :
    s.submit.Books (arrived ++ [s.next]) (admitted ++ more) read started where
  paired := h.paired
  numbered := h.numbered_submit
  tasks := h.tasks.trans (List.sublist_append_left _ _)
  awaited _ hr hw := h.awaited_of_submit hbalanced hr hw
  begun := h.begun
  permitted r hr := List.mem_append_left _ (h.permitted r hr)

/-- A worker that reads a delivery waited with none, so the new one is the only one. -/
theorem reading {more : List TaskId} (hbalanced : s.limiter.Balanced) (hi : s.workers[i]? = some w)
    (hnone : w.waiting? = none) (hafter : next.waiting? = some (c, m)) :
    ((s.setWorker i next).submit.await i (some s.next)).Books (arrived ++ [s.next])
      (admitted ++ more) (read ++ [⟨i, s.next, c, m⟩]) started := by
  set s' := (s.setWorker i next).submit.await i (some s.next)
  have hpending : s'.pending i = some s.next := assign_self ..
  have hwaits : s'.waits? i = some (c, m) := (waits?_setWorker_self hi).trans hafter
  have hother : s.SameBut s' i := fun j hj => ⟨assign_of_ne hj, waits?_setWorker_of_ne hj⟩
  have hfree : s.pending i = none := h.paired.pending_eq_none ((waits?_of_worker hi).trans hnone)
  constructor
  · refine h.paired.sameBut hother ?_
    rw [hpending, hwaits]
    rfl
  · exact h.numbered_submit
  · rw [List.map_append]
    exact h.tasks.append (List.Sublist.refl _)
  · intro r hr hw
    rcases List.mem_append.1 hr with hold | hnew
    -- one that was read before belongs to another worker, as this one waited for none
    · have hawaited := h.awaited_of_submit hbalanced hold hw
      have hj : r.worker ≠ i := by
        rintro rfl
        rw [hfree] at hawaited
        cases hawaited
      exact (hother _ hj).1.trans hawaited
    · rw [List.mem_singleton.1 hnew]
      exact hpending
  · intro j
    by_cases hj : j = i
    · subst hj
      have hbegun := h.begun j
      rw [current?_of_none hfree, Option.toList_none, List.append_nil] at hbegun
      rw [current?_eq_some hpending hwaits, readingsOf_append, readingsOf_self (i := j) rfl]
      exact hbegun.append (List.Sublist.refl _)
    · rw [← List.append_nil started]
      refine h.begun_sameBut hother hj (fun r hr => ?_) fun r hr => absurd hr List.not_mem_nil
      rw [List.mem_singleton.1 hr]
  · exact fun r hr => List.mem_append_left _ (h.permitted r hr)

/-- A worker that no longer waits has no submission at the limiter. The handler of its delivery is
started, or it is not. -/
theorem ends {more : List TaskId} {begins : List Reading} (ht : s.pending i = some t)
    (hpending : s'.pending i = none) (hwaits : s'.waits? i = none)
    (hother : s.SameBut s' i) (hnext : s'.next = s.next)
    (hwaiting : s'.limiter.waiting ⊆ s.limiter.waiting) (hgone : t ∉ s'.limiter.waiting)
    (hbegins : begins.Sublist (s.current? i).toList)
    (hpermitted : ∀ r ∈ begins, r.task ∈ admitted) :
    s'.Books arrived (admitted ++ more) read (started ++ begins) := by
  constructor
  · refine h.paired.sameBut hother ?_
    rw [hpending, hwaits]
    rfl
  · exact hnext ▸ h.numbered
  · exact h.tasks
  · intro r hr hw
    have hawaited := h.awaited r hr (hwaiting hw)
    -- the only one of this worker that waited is gone
    have hj : r.worker ≠ i := by
      rintro rfl
      cases ht.symm.trans hawaited
      exact hgone hw
    exact (hother _ hj).1.trans hawaited
  · intro j
    by_cases hj : j = i
    · subst hj
      rw [current?_of_none hpending, Option.toList_none, List.append_nil, readingsOf_append]
      have hown : (readingsOf j begins).Sublist (s.current? j).toList :=
        List.filter_sublist.trans hbegins
      exact ((List.Sublist.refl _).append hown).trans (h.begun j)
    · rw [← List.append_nil read]
      exact h.begun_sameBut hother hj (fun r hr => absurd hr List.not_mem_nil)
        fun r hr => worker_of_current (hbegins.subset hr)
  · intro r hr
    rcases List.mem_append.1 hr with hold | hnew
    · exact List.mem_append_left _ (h.permitted r hold)
    · exact List.mem_append_left _ (hpermitted r hnew)

theorem withdrawal {more : List TaskId} (hline : s.limiter.InLine arrived admitted cancelled)
    (hbalanced : s.limiter.Balanced) (hi : s.workers[i]? = some w) (ht : s.pending i = some t)
    (hafter : next.waiting? = none) :
    (((s.setWorker i next).serve (.withdraw t)).await i none).Books arrived (admitted ++ more) read
      started := by
  have hwaiting := Limiter.waiting_step_subset hbalanced (.withdraw t)
  simp only [Limiter.arrivals, List.filterMap_cons, List.filterMap_nil, List.append_nil] at hwaiting
  rw [← List.append_nil started]
  exact h.ends ht (assign_self ..) ((waits?_setWorker_self (s := s) hi).trans hafter)
    (fun j hj => ⟨assign_of_ne hj, waits?_setWorker_of_ne (s := s) hj⟩) rfl hwaiting
    (hline.not_waiting_of_withdraw hbalanced t) (List.nil_sublist _)
    fun r hr => absurd hr List.not_mem_nil

theorem start {more : List TaskId} (hline : s.limiter.InLine arrived admitted cancelled)
    (hbalanced : s.limiter.Balanced) (hi : s.workers[i]? = some w) (ht : s.pending i = some t)
    (hgranted : t ∈ s.limiter.granted) (hbefore : w.waiting? = some (c, m))
    (hafter : next.waiting? = none) :
    (((s.serve (.enter t)).await i none).setWorker i next).Books arrived (admitted ++ more) read
      (started ++ [⟨i, t, c, m⟩]) := by
  have hwaiting := Limiter.waiting_step_subset hbalanced (.enter t)
  simp only [Limiter.arrivals, List.filterMap_cons, List.filterMap_nil, List.append_nil] at hwaiting
  have hcurrent := current?_eq_some ht ((waits?_of_worker hi).trans hbefore)
  refine h.ends ht (assign_self ..) ((waits?_setWorker_self (s := s) hi).trans hafter)
    (fun j hj => ⟨assign_of_ne hj, waits?_setWorker_of_ne (s := s) hj⟩) rfl hwaiting
    (fun hw => hline.not_granted_of_waiting (hwaiting hw) hgranted) ?_ fun r hr => ?_
  · rw [hcurrent]
    exact List.Sublist.refl _
  · rw [List.mem_singleton.1 hr]
    exact hline.holders t (Or.inl hgranted)

/-- Every turn keeps the books. -/
theorem turn {heard : List LimiterEvent} {reads begins : List Reading}
    (hturn : s.Turn s' heard reads begins) (hline : s.limiter.InLine arrived admitted cancelled)
    (hbalanced : s.limiter.Balanced) :
    s'.Books (arrived ++ Limiter.arrivals heard) (admitted ++ s.limiter.admissions heard)
      (read ++ reads) (started ++ begins) := by
  cases hturn with
  | stays =>
      simp only [Limiter.arrivals, List.filterMap_nil, List.append_nil]
      exact h.carry rfl (fun _ => rfl) rfl (List.Subset.refl _)
  | @works i w next hi hsame =>
      simp only [Limiter.arrivals, List.filterMap_nil, List.append_nil]
      refine h.carry ?_ (waits?_setWorker_same hi hsame) ?_ (List.Subset.refl _) <;> rfl
  | reads hi hnone hafter =>
      simp only [List.append_nil]
      exact h.reading hbalanced hi hnone hafter
  | @withdraws i w next t hi ht hafter =>
      simp only [Limiter.arrivals, List.filterMap_cons, List.filterMap_nil, List.append_nil]
      exact h.withdrawal hline hbalanced hi ht hafter
  | @starts i w next t c m hi ht hgranted hbefore hafter =>
      simp only [Limiter.arrivals, List.filterMap_cons, List.filterMap_nil, List.append_nil]
      exact h.start hline hbalanced hi ht hgranted hbefore hafter
  | submits =>
      simp only [List.append_nil]
      exact h.submission hbalanced
  | @serves e harrival =>
      have hwaiting := Limiter.waiting_step_subset hbalanced e
      rw [harrival, List.append_nil] at hwaiting ⊢
      simp only [List.append_nil]
      exact h.carry rfl (fun _ => rfl) rfl hwaiting

end Books

/-- A turn shows at the limiter as what is heard of it there. -/
theorem Turn.limiter {heard : List LimiterEvent} {reads begins : List Reading}
    (h : s.Turn s' heard reads begins) : s'.limiter = s.limiter.run heard := by
  cases h <;> rfl

end Steps

section Runs

variable {s : Crew} {arrived admitted cancelled : List TaskId} {read started : List Reading}

/-- A run keeps the books and the order at the limiter. -/
theorem Books.run (h : s.Books arrived admitted read started)
    (hline : s.limiter.InLine arrived admitted cancelled) (hbalanced : s.limiter.Balanced)
    (events : List CrewEvent) :
    (s.run events).limiter = s.limiter.run (s.along heard events) ∧
      (arrived ++ Limiter.arrivals (s.along heard events)).Nodup ∧
      (s.run events).Books (arrived ++ Limiter.arrivals (s.along heard events))
        (admitted ++ s.limiter.admissions (s.along heard events))
        (read ++ s.along readings events) (started ++ s.along starts events) := by
  induction events generalizing s arrived admitted cancelled read started with
  | nil =>
      refine ⟨rfl, ?_, h.turn .stays hline hbalanced⟩
      exact (List.append_nil arrived).symm ▸ hline.distinct
  | cons ev rest ih =>
      have hturn := step_turn h.paired ev
      have hbooks := h.turn hturn hline hbalanced
      -- submissions are numbered, so none arrives twice and the limiter keeps its order
      have hdistinct : (arrived ++ Limiter.arrivals (s.heard ev)).Nodup :=
        hbooks.numbered ▸ List.nodup_range
      have hline' := hline.run hbalanced (s.heard ev) hdistinct
      have hbalanced' := hbalanced.run (s.heard ev)
      rw [← hturn.limiter] at hline' hbalanced'
      have hrest := ih hbooks hline' hbalanced'
      rw [hturn.limiter] at hrest
      simp only [along, Limiter.arrivals_append, Limiter.admissions_append, ← List.append_assoc,
        Limiter.run, List.foldl_append] at hrest ⊢
      exact hrest

end Runs

end Crew

/-- The limiter has served its submissions in the order of their arrival. -/
structure Limiter.FirstCome (start : Limiter) (events : List LimiterEvent) : Prop where
  /-- Those who have arrived and were not withdrawn while they waited are those who were admitted,
  in the order in which they were, and then those who wait. -/
  order : (arrivals events).filter (· ∉ start.cancellations events) =
    start.admissions events ++ (start.run events).waiting
  holders : ∀ t, (start.run events).Holds t → t ∈ start.admissions events
  /-- Nobody is admitted next while one waits who has arrived earlier. -/
  earlier : ∀ e t u, u ∈ (start.run events).admits e →
    [t, u].Sublist (arrivals (events ++ [e])) → t ∉ (start.run events).waiting
  /-- Nobody waits while a permit is free. -/
  full : (start.run events).waiting ≠ [] → (start.run events).limit ≠ unlimited ∧
    (start.run events).available = 0 ∧ (start.run events).held = (start.run events).limit.toNat

namespace Crew

/-- The deliveries that a worker reads in a run. -/
def readBy (s : Crew) (i : WorkerId) (events : List CrewEvent) : List Reading :=
  readingsOf i (s.along readings events)

/-- The deliveries whose handlers a worker starts in a run. -/
def startedBy (s : Crew) (i : WorkerId) (events : List CrewEvent) : List Reading :=
  readingsOf i (s.along starts events)

/-- The submissions that a worker makes in a run. -/
def tasksBy (s : Crew) (i : WorkerId) (events : List CrewEvent) : List TaskId :=
  (s.readBy i events).map Reading.task

/-- The deliveries of a worker were admitted in the order in which it has read them. -/
structure InTurn (init : Crew) (events : List CrewEvent) (i : WorkerId) (w : Worker) : Prop where
  /-- The worker has taken the steps that it would take by itself. -/
  worker : (init.run events).workers[i]? = some (w.run (init.along (eventsOf i) events)).1
  /-- The deliveries are those that it has read, and they have arrived at the limiter in this
  order. -/
  read : (init.readBy i events).map Reading.delivery =
    readsOf (w.run (init.along (eventsOf i) events)).2
  arrived : (init.tasksBy i events).Sublist (Limiter.arrivals (init.along heard events))
  /-- But for those that were withdrawn while they waited they were admitted in this order, and what
  waits comes next. -/
  admitted : (init.tasksBy i events).filter
      (· ∉ init.limiter.cancellations (init.along heard events)) =
    (init.limiter.admissions (init.along heard events)).filter (· ∈ init.tasksBy i events) ++
      (init.run events).limiter.waiting.filter (· ∈ init.tasksBy i events)
  single : ((init.run events).limiter.waiting.filter (· ∈ init.tasksBy i events)).length ≤ 1
  /-- The handlers that it has started are those of deliveries that were admitted, in this order. -/
  started : (init.startedBy i events).map Reading.delivery =
    dispatchesOf (w.run (init.along (eventsOf i) events)).2
  begun : (init.startedBy i events).Sublist (init.readBy i events)
  permitted : ∀ r ∈ init.startedBy i events,
    r.task ∈ init.limiter.admissions (init.along heard events)

end Crew

section Order

/-- What a list without repetitions has of a sublist is the sublist. -/
theorem filter_mem_eq_of_sublist {part all : List TaskId} (hdistinct : all.Nodup)
    (h : part.Sublist all) : all.filter (· ∈ part) = part := by
  have hkept : part.filter (· ∈ part) = part :=
    List.filter_eq_self.2 fun t ht => decide_eq_true ht
  have hsub : part.Sublist (all.filter (· ∈ part)) := by
    conv_lhs => rw [← hkept]
    exact h.filter _
  have hback : all.filter (· ∈ part) ⊆ part :=
    fun t ht => of_decide_eq_true (List.mem_filter.1 ht).2
  have hlength := (List.subperm_of_subset (hdistinct.filter _) hback).length_le
  exact (hsub.eq_of_length_le hlength).symm

/-- A list without repetitions whose elements are all the same has one at most. -/
theorem length_le_one_of_same {l : List TaskId} {x : Option TaskId} (hdistinct : l.Nodup)
    (h : ∀ t ∈ l, x = some t) : l.length ≤ 1 := by
  match l with
  | [] => exact Nat.zero_le 1
  | [_] => exact Nat.le_refl 1
  | t :: u :: rest =>
      have ht := h t List.mem_cons_self
      have hu := h u (List.mem_cons_of_mem t List.mem_cons_self)
      rw [ht] at hu
      cases hu
      exact absurd List.mem_cons_self (List.nodup_cons.1 hdistinct).1

theorem Limiter.firstCome_new (name : String) (limit : UInt64) (events : List LimiterEvent)
    (hdistinct : (arrivals events).Nodup) : (new name limit).FirstCome events := by
  have hline := (inLine_new name limit).run (balanced_new name limit) events hdistinct
  have hbalanced := (balanced_new name limit).run events
  refine ⟨hline.order, hline.holders, fun e t u hu hearlier => ?_, hbalanced.full_of_waiting⟩
  rw [arrivals_append] at hearlier
  exact hline.not_waiting_of_admits hbalanced hu hearlier

/-- Workers that have not begun wait for nothing. -/
theorem Crew.books_initial (l : Limiter) {workers : List Worker}
    (hnew : ∀ w ∈ workers, w.phase = .starting) :
    ({ limiter := l, workers } : Crew).Books [] [] [] [] := by
  have hnone : ∀ i, ({ limiter := l, workers } : Crew).waits? i = none := by
    intro i
    cases hi : workers[i]? with
    | none => simp [waits?, hi]
    | some w => simp [waits?, hi, Worker.waiting?, hnew w (List.mem_of_getElem? hi)]
  constructor
  · intro i
    rw [hnone i]
    rfl
  · rfl
  · exact List.Sublist.refl _
  · exact fun r hr => absurd hr List.not_mem_nil
  · exact fun i => List.Sublist.refl _
  · exact fun r hr => absurd hr List.not_mem_nil

end Order

/-- A limiter with any limit admits tasks in the order in which they arrive, whoever submits them and
whatever is withdrawn or ends in between, and a submission waits only while no permit is free. So
where any number of workers share it with each other and with others, the deliveries of each worker
are admitted in the order in which it has read them, and it never waits with more than one. -/
theorem admission_first_come_first_served :
    (∀ (name : String) (limit : UInt64) (events : List LimiterEvent),
      (Limiter.arrivals events).Nodup → (Limiter.new name limit).FirstCome events) ∧
    ∀ (name : String) (limit : UInt64) (workers : List Worker) (events : List CrewEvent),
      (∀ w ∈ workers, w.phase = .starting) →
        let init : Crew := { limiter := .new name limit, workers }
        let heard := init.along Crew.heard events
        (init.run events).limiter = init.limiter.run heard ∧ (Limiter.arrivals heard).Nodup ∧
          ∀ i w, workers[i]? = some w → init.InTurn events i w := by
  refine ⟨Limiter.firstCome_new, fun name limit workers events hnew => ?_⟩
  intro init heard
  obtain ⟨hlimiter, hdistinct, hbooks⟩ := (Crew.books_initial (.new name limit) hnew).run
    (Limiter.inLine_new name limit) (Limiter.balanced_new name limit) events
  simp only [List.nil_append] at hdistinct hbooks
  have horder := (Limiter.firstCome_new name limit heard hdistinct).order
  refine ⟨hlimiter, hdistinct, fun i w hi => ?_⟩
  obtain ⟨hworker, hreads, hstarts⟩ := Crew.workers_run (s := init) hi events
  have harrived : (init.tasksBy i events).Sublist (Limiter.arrivals heard) :=
    (List.filter_sublist.map Reading.task).trans hbooks.tasks
  have hown : (Limiter.arrivals heard).filter (· ∈ init.tasksBy i events) = init.tasksBy i events :=
    filter_mem_eq_of_sublist hdistinct harrived
  constructor
  · exact hworker
  · exact hreads
  · exact harrived
  -- the worker's part of what has arrived is what it has submitted
  · rw [hlimiter, ← List.filter_append, ← horder, List.filter_comm, hown]
  · have hwaiting : (init.run events).limiter.waiting.Nodup := by
      rw [hlimiter]
      exact (List.nodup_append.1 (horder ▸ hdistinct.filter _)).2.1
    refine length_le_one_of_same (x := (init.run events).pending i) (hwaiting.filter _) fun t ht => ?_
    obtain ⟨hwaits, hin⟩ := List.mem_filter.1 ht
    obtain ⟨r, hmine, rfl⟩ := List.mem_map.1 (of_decide_eq_true hin)
    obtain ⟨hr, rfl⟩ := Crew.mem_readingsOf.1 hmine
    exact hbooks.awaited r hr hwaits
  · exact hstarts
  · exact (List.sublist_append_left _ _).trans (hbooks.begun i)
  · exact fun r hr => hbooks.permitted r (Crew.mem_readingsOf.1 hr).1

/-- What brings a worker to read from a channel. -/
def toReading (i : WorkerId) (channel : ChannelRef) : List CrewEvent :=
  [.proceed, .connected (.ok ⟨"orders", 0⟩), .opened (.ok channel), .prepared true, .prepared true,
    .prepared true, .proceed].map (.within i)

/-- A pool with one permit, which someone else holds. Two workers wait behind it, and the second of
them withdraws between the first and a newcomer. The first gets the permit and reads on. -/
def crowdedRun : List CrewEvent :=
  toReading 0 1 ++ toReading 1 2 ++
    ([.submit, .within 0 (.item (.delivery { tag := 1 })),
      .within 1 (.item (.delivery { tag := 1 })), .submit, .within 1 .shutdown, .within 1 .notice,
      .limiter (.enter 0), .limiter (.finish 0), .limiter (.release 0), .enter 0,
      .within 0 .proceed, .within 0 (.item (.delivery { tag := 2 }))] : List CrewEvent)

theorem admission_first_come_first_served_crowded :
    let worker : Worker := { definition := Definition.new "orders" "orders", reconnect := {} }
    let init : Crew := { limiter := .new "single" 1, workers := [worker, worker] }
    let heard := init.along Crew.heard crowdedRun
    (Limiter.arrivals heard).Nodup ∧ (Limiter.new "single" 1).FirstCome heard ∧
      (∀ w ∈ [worker, worker], w.phase = .starting) ∧ init.InTurn crowdedRun 0 worker ∧
      init.tasksBy 0 crowdedRun = [1, 4] ∧
      init.limiter.admissions heard = [0, 1] ∧ init.limiter.cancellations heard = [2] ∧
      (init.run crowdedRun).limiter.waiting = [3, 4] := by
  intro worker init heard
  have hnew : ∀ w ∈ [worker, worker], w.phase = .starting := by
    intro w hw
    rcases List.mem_pair.1 hw with rfl | rfl <;> rfl
  have hdistinct : (Limiter.arrivals heard).Nodup := by decide +kernel
  obtain ⟨hlimiter, hcrew⟩ := admission_first_come_first_served
  obtain ⟨-, -, hworkers⟩ := hcrew "single" 1 [worker, worker] crowdedRun hnew
  refine ⟨hdistinct, hlimiter "single" 1 heard hdistinct, hnew, hworkers 0 worker rfl, ?_, ?_, ?_, ?_⟩
  all_goals decide +kernel

end AmqpDelivery
