import AmqpDelivery.Proofs.Pool.Bound

/-!
# Who is admitted next

A submission is admitted when a permit is handed to it. `Limiter.step_serves` says what one event
does to those that wait: the first of them is admitted, one of them leaves, a newcomer goes behind
them or, when nobody waits, is admitted at once. So at all times the submissions that have arrived
and were not withdrawn while they waited are those that were admitted, in the order in which they
were, followed by those that wait (`Limiter.InLine`), whatever happens at the limiter.
-/

namespace AmqpDelivery

namespace Limiter

/-- The submissions in the order of their arrival. -/
def arrivals (events : List LimiterEvent) : List TaskId :=
  events.filterMap fun
    | .submit t => some t
    | _ => none

/-- The submissions that are admitted by an event. -/
def admits (l : Limiter) (e : LimiterEvent) : List TaskId :=
  (l.step e).granted.filter fun t => t ∉ l.granted

/-- The submissions that are withdrawn by an event while they wait. -/
def drops (l : Limiter) : LimiterEvent → List TaskId
  | .withdraw t => if t ∈ l.waiting then [t] else []
  | _ => []

/-- The submissions that are admitted, in the order in which they are. -/
def admissions : Limiter → List LimiterEvent → List TaskId
  | _, [] => []
  | l, e :: rest => l.admits e ++ (l.step e).admissions rest

/-- The submissions that are withdrawn while they wait. -/
def cancellations : Limiter → List LimiterEvent → List TaskId
  | _, [] => []
  | l, e :: rest => l.drops e ++ (l.step e).cancellations rest

/-- The submission has a permit. -/
def Holds (l : Limiter) (t : TaskId) : Prop := t ∈ l.granted ∨ t ∈ l.running ∨ t ∈ l.leaving

/-- Where everybody stands who has arrived. -/
structure InLine (l : Limiter) (arrived admitted cancelled : List TaskId) : Prop where
  order : arrived.filter (· ∉ cancelled) = admitted ++ l.waiting
  distinct : arrived.Nodup
  known : cancelled ⊆ arrived
  holders : ∀ t, l.Holds t → t ∈ admitted

/-- What an event does to those that wait, where `next` is the limiter after it. -/
inductive Serves (l next : Limiter) : LimiterEvent → Prop
  | stays {e : LimiterEvent} (harrival : arrivals [e] = []) (hdrop : l.drops e = [])
      (hwaiting : next.waiting = l.waiting) (hgranted : next.granted ⊆ l.granted) : Serves l next e
  /-- The first is admitted. -/
  | passes {e : LimiterEvent} {u : TaskId} {kept : List TaskId} (harrival : arrivals [e] = [])
      (hdrop : l.drops e = []) (hwaiting : l.waiting = u :: next.waiting)
      (hgranted : next.granted = kept ++ [u]) (hkept : kept ⊆ l.granted) : Serves l next e
  | joins {t : TaskId} (hwaiting : next.waiting = l.waiting ++ [t])
      (hgranted : next.granted = l.granted) : Serves l next (.submit t)
  /-- A newcomer is admitted, as nobody waits. -/
  | enters {t : TaskId} (hnone : l.waiting = []) (hwaiting : next.waiting = [])
      (hgranted : next.granted = l.granted ++ [t]) : Serves l next (.submit t)
  | leaves {t : TaskId} (ht : t ∈ l.waiting) (hwaiting : next.waiting = l.waiting.erase t)
      (hgranted : next.granted = l.granted) : Serves l next (.withdraw t)

section Steps

variable {l next : Limiter} {e : LimiterEvent} {t u : TaskId}
  {arrived admitted cancelled : List TaskId}

theorem running_returnPermit (l : Limiter) : l.returnPermit.running = l.running := by
  unfold returnPermit
  split
  · rfl
  · split <;> rfl

theorem leaving_returnPermit (l : Limiter) : l.returnPermit.leaving = l.leaving := by
  unfold returnPermit
  split
  · rfl
  · split <;> rfl

/-- A permit that comes back serves the first that waits. -/
theorem serves_returnPermit (harrival : arrivals [e] = []) (hdrop : l.drops e = [])
    (hwaiting : next.waiting = l.waiting) (hkept : next.granted ⊆ l.granted) :
    l.Serves next.returnPermit e := by
  unfold returnPermit
  split
  · exact .stays harrival hdrop hwaiting hkept
  · split
    · next u rest hqueue => exact .passes harrival hdrop (hwaiting.symm.trans hqueue) rfl hkept
    · exact .stays harrival hdrop hwaiting hkept

/-- Every event serves those that wait in one of these ways. -/
theorem step_serves (h : l.Balanced) (e : LimiterEvent) : l.Serves (l.step e) e := by
  cases e with
  | submit t =>
      simp only [step, submit]
      split
      · next hfree =>
        have hnone := (h.unqueued (isUnlimited_iff.1 hfree)).1
        exact .enters hnone hnone rfl
      · split
        · exact .joins rfl rfl
        · next hsome =>
          have hnone : l.waiting = [] := Classical.byContradiction fun hne => hsome (h.queued hne)
          exact .enters hnone hnone rfl
  | enter t =>
      simp only [step]
      split
      · exact .stays rfl rfl rfl List.erase_subset
      · exact .stays rfl rfl rfl (List.Subset.refl _)
  | withdraw t =>
      simp only [step]
      split
      · next hmem => exact .leaves (List.contains_iff_mem.1 hmem) rfl rfl
      · next hmem =>
        have hdrop : l.drops (.withdraw t) = [] :=
          if_neg fun ht => hmem (List.contains_iff_mem.2 ht)
        split
        · exact serves_returnPermit rfl hdrop rfl List.erase_subset
        · exact .stays rfl hdrop rfl (List.Subset.refl _)
  | finish t =>
      simp only [step]
      split <;> exact .stays rfl rfl rfl (List.Subset.refl _)
  | release t =>
      simp only [step]
      split
      · exact serves_returnPermit rfl rfl rfl (List.Subset.refl _)
      · exact .stays rfl rfl rfl (List.Subset.refl _)

/-- Only who arrives begins to wait. -/
theorem waiting_step_subset (h : l.Balanced) (e : LimiterEvent) :
    (l.step e).waiting ⊆ l.waiting ++ arrivals [e] := by
  have hserves := step_serves h e
  generalize l.step e = next at hserves
  cases hserves with
  | stays harrival hdrop hwaiting hgranted => exact hwaiting ▸ List.subset_append_left _ _
  | passes harrival hdrop hwaiting hgranted hkept =>
      rw [hwaiting]
      exact List.subset_append_of_subset_left _ (List.subset_cons_self _ _)
  | joins hwaiting hgranted => exact hwaiting ▸ List.Subset.refl _
  | enters hnone hwaiting hgranted => exact hwaiting ▸ List.nil_subset _
  | leaves hmem hwaiting hgranted =>
      exact hwaiting ▸ List.subset_append_of_subset_left _ List.erase_subset

/-- Those who are admitted are the new holders of permits among those that have one now. -/
theorem admits_eq {kept new : List TaskId} (hgranted : (l.step e).granted = kept ++ new)
    (hkept : kept ⊆ l.granted) (hnew : ∀ t ∈ new, t ∉ l.granted) : l.admits e = new := by
  have hold : kept.filter (· ∉ l.granted) = [] := by
    refine List.filter_eq_nil_iff.2 fun t ht => ?_
    simpa using hkept ht
  have hall : new.filter (· ∉ l.granted) = new := by
    refine List.filter_eq_self.2 fun t ht => ?_
    simpa using hnew t ht
  rw [admits, hgranted, List.filter_append, hold, hall, List.nil_append]

theorem admits_eq_nil (hgranted : (l.step e).granted ⊆ l.granted) : l.admits e = [] :=
  admits_eq (List.append_nil _).symm hgranted fun _ ht => absurd ht List.not_mem_nil

/-- Who is admitted while others wait is the first of them. -/
theorem first_of_admits (h : l.Balanced) (hu : u ∈ l.admits e) (hwaits : l.waiting ≠ []) :
    arrivals [e] = [] ∧ ∃ rest, l.waiting = u :: rest := by
  have hserves := step_serves h e
  generalize hnext : l.step e = next at hserves
  have hnot : (l.step e).granted ⊆ l.granted → False := fun hgranted => by
    rw [admits_eq_nil hgranted] at hu
    cases hu
  cases hserves with
  | stays harrival hdrop hwaiting hgranted => exact (hnot (hnext ▸ hgranted)).elim
  | joins hwaiting hgranted => exact (hnot (hnext ▸ hgranted ▸ List.Subset.refl _)).elim
  | leaves hmem hwaiting hgranted => exact (hnot (hnext ▸ hgranted ▸ List.Subset.refl _)).elim
  | enters hnone hwaiting hgranted => exact absurd hnone hwaits
  | @passes _ v kept harrival hdrop hwaiting hgranted hkept =>
      rw [admits, hnext, hgranted] at hu
      obtain ⟨hin, hnew⟩ := List.mem_filter.1 hu
      rcases List.mem_append.1 hin with hold | hlast
      · exact absurd (hkept hold) (of_decide_eq_true hnew)
      · exact ⟨harrival, _, List.mem_singleton.1 hlast ▸ hwaiting⟩

theorem not_waiting_of_drops (h : l.drops (.withdraw t) = []) : t ∉ l.waiting := by
  intro ht
  rw [drops, if_pos ht] at h
  cases h

theorem drops_subset : l.drops e ⊆ l.waiting := by
  cases e with
  | withdraw t =>
      simp only [drops]
      split
      · next ht => exact List.cons_subset.2 ⟨ht, List.nil_subset _⟩
      · exact List.nil_subset _
  | _ => exact List.nil_subset _

theorem arrivals_append (events more : List LimiterEvent) :
    arrivals (events ++ more) = arrivals events ++ arrivals more :=
  List.filterMap_append

theorem arrivals_cons (e : LimiterEvent) (events : List LimiterEvent) :
    arrivals (e :: events) = arrivals [e] ++ arrivals events :=
  arrivals_append [e] events

theorem admissions_append (l : Limiter) (events more : List LimiterEvent) :
    l.admissions (events ++ more) = l.admissions events ++ (l.run events).admissions more := by
  induction events generalizing l with
  | nil => rfl
  | cons e rest ih =>
      rw [List.cons_append, admissions, admissions, ih, List.append_assoc]
      rfl

theorem not_arrived_of_nodup (h : (arrived ++ arrivals [.submit t]).Nodup) : t ∉ arrived :=
  fun ht => (List.nodup_append.1 h).2.2 t ht t List.mem_cons_self rfl

/-- Of a list without repetitions, what stands before an element is in the part before it. -/
theorem mem_front_of_sublist {front rest : List TaskId} (hdistinct : (front ++ u :: rest).Nodup)
    (h : [t, u].Sublist (front ++ u :: rest)) : t ∈ front := by
  have hrest : u ∉ rest := (List.nodup_cons.1 (List.nodup_append.1 hdistinct).2.1).1
  obtain ⟨first, second, hpair, hfirst, hsecond⟩ := List.sublist_append_iff.1 h
  cases first with
  | cons x first =>
      rw [(List.cons.inj hpair).1]
      exact hfirst.subset List.mem_cons_self
  | nil =>
      -- both would stand from `u` on, and then `u` would stand there twice
      rw [List.nil_append] at hpair
      subst hpair
      rcases List.sublist_cons_iff.1 hsecond with hlater | ⟨tail, heq, hlater⟩
      · exact absurd (hlater.subset (List.mem_cons_of_mem t List.mem_cons_self)) hrest
      · cases heq
        exact absurd (hlater.subset List.mem_cons_self) hrest

/-- The tasks that run or have ended held their permits before. -/
theorem Holds.of_later (h : t ∈ (l.step e).running ∨ t ∈ (l.step e).leaving) : l.Holds t := by
  have hsame : t ∈ l.running ∨ t ∈ l.leaving → l.Holds t := Or.inr
  cases e with
  | submit u =>
      simp only [step, submit] at h
      split at h
      · exact hsame h
      · split at h <;> exact hsame h
  | enter u =>
      simp only [step] at h
      split at h
      · next hmem =>
        simp only [List.mem_append, List.mem_singleton] at h
        rcases h with (hrunning | rfl) | hleaving
        · exact Or.inr (Or.inl hrunning)
        · exact Or.inl (List.contains_iff_mem.1 hmem)
        · exact Or.inr (Or.inr hleaving)
      · exact hsame h
  | withdraw u =>
      simp only [step] at h
      split at h
      · exact hsame h
      · split at h
        · rw [running_returnPermit, leaving_returnPermit] at h
          exact hsame h
        · exact hsame h
  | finish u =>
      simp only [step] at h
      split at h
      · next hmem =>
        simp only [List.mem_append, List.mem_singleton] at h
        rcases h with hrunning | hleaving | rfl
        · exact Or.inr (Or.inl (List.mem_of_mem_erase hrunning))
        · exact Or.inr (Or.inr hleaving)
        · exact Or.inr (Or.inl (List.contains_iff_mem.1 hmem))
      · exact hsame h
  | release u =>
      simp only [step] at h
      split at h
      · rw [running_returnPermit, leaving_returnPermit] at h
        exact hsame (h.imp_right List.mem_of_mem_erase)
      · exact hsame h

/-- Who holds a permit after an event has just been admitted or held one before. -/
theorem Holds.before (h : (l.step e).Holds t) : t ∈ l.admits e ∨ l.Holds t := by
  rcases h with hgranted | hlater
  · by_cases hold : t ∈ l.granted
    · exact Or.inr (Or.inl hold)
    · exact Or.inl (List.mem_filter.2 ⟨hgranted, decide_eq_true hold⟩)
  · exact Or.inr (.of_later hlater)

namespace InLine

variable (h : l.InLine arrived admitted cancelled)

include h

/-- Nobody is admitted twice, or waits who was admitted. -/
theorem nodup : (admitted ++ l.waiting).Nodup := h.order ▸ h.distinct.filter _

theorem arrived_of_waiting (ht : t ∈ l.waiting) : t ∈ arrived ∧ t ∉ cancelled := by
  have hin : t ∈ arrived.filter (· ∉ cancelled) := h.order ▸ List.mem_append_right _ ht
  simpa using hin

theorem arrived_of_admitted (ht : t ∈ admitted) : t ∈ arrived := by
  have hin : t ∈ arrived.filter (· ∉ cancelled) := h.order ▸ List.mem_append_left _ ht
  exact (List.mem_filter.1 hin).1

theorem not_granted_of_waiting (ht : t ∈ l.waiting) : t ∉ l.granted := fun hgranted =>
  (List.nodup_append.1 h.nodup).2.2 t (h.holders t (Or.inl hgranted)) t ht rfl

theorem not_granted_of_new (ht : t ∉ arrived) : t ∉ l.granted := fun hgranted =>
  ht (h.arrived_of_admitted (h.holders t (Or.inl hgranted)))

/-- A newcomer is the last of those who have arrived and were not withdrawn. -/
theorem order_append (ht : t ∉ arrived) :
    (arrived ++ [t]).filter (· ∉ cancelled) = admitted ++ (l.waiting ++ [t]) := by
  have hkept : [t].filter (· ∉ cancelled) = [t] := by
    refine List.filter_eq_self.2 fun u hu => ?_
    rw [List.mem_singleton.1 hu]
    exact decide_eq_true fun hcancelled => ht (h.known hcancelled)
  rw [List.filter_append, h.order, hkept, List.append_assoc]

/-- One that waits and is withdrawn leaves the others as they stand. -/
theorem order_erase (ht : t ∈ l.waiting) :
    arrived.filter (· ∉ cancelled ++ [t]) = admitted ++ l.waiting.erase t := by
  obtain ⟨-, hwaiting, hapart⟩ := List.nodup_append.1 h.nodup
  have hrest : admitted.filter (· != t) = admitted := by
    refine List.filter_eq_self.2 fun u hu => ?_
    exact bne_iff_ne.2 (hapart u hu t ht)
  have hsplit : arrived.filter (· ∉ cancelled ++ [t]) =
      (arrived.filter (· ∉ cancelled)).filter (· != t) := by
    rw [List.filter_filter]
    refine List.filter_congr fun u _ => ?_
    rw [Bool.eq_iff_iff]
    simp [and_comm]
  rw [hsplit, h.order, List.filter_append, hrest, hwaiting.erase_eq_filter t]

/-- Every event keeps the order, if the submission that arrives by it is a new one. -/
theorem step (hbalanced : l.Balanced) (hnew : (arrived ++ arrivals [e]).Nodup) :
    (l.step e).InLine (arrived ++ arrivals [e]) (admitted ++ l.admits e)
      (cancelled ++ l.drops e) := by
  refine ⟨?_, hnew, fun t ht => ?_, fun t ht => ?_⟩
  -- the order is a matter of how those that wait are served, the rest holds in any case
  · have hserves := step_serves hbalanced e
    generalize hnext : l.step e = next at hserves ⊢
    cases hserves with
    | stays harrival hdrop hwaiting hgranted =>
        rw [harrival, admits_eq_nil (hnext ▸ hgranted), hdrop]
        simp only [List.append_nil, hwaiting, h.order]
    | @passes _ u _ harrival hdrop hwaiting hgranted hkept =>
        have hadmits : l.admits e = [u] := by
          refine admits_eq (hnext ▸ hgranted) hkept fun t ht => ?_
          rw [List.mem_singleton.1 ht]
          exact h.not_granted_of_waiting (hwaiting ▸ List.mem_cons_self)
        rw [harrival, hadmits, hdrop]
        simp only [List.append_nil, List.append_assoc, List.singleton_append, h.order, hwaiting]
    | @joins t hwaiting hgranted =>
        have ht := not_arrived_of_nodup hnew
        rw [admits_eq_nil (hnext ▸ hgranted ▸ List.Subset.refl _), List.append_nil, hwaiting]
        simpa [arrivals, drops] using h.order_append ht
    | @enters t hnone hwaiting hgranted =>
        have ht := not_arrived_of_nodup hnew
        have hadmits : l.admits (.submit t) = [t] := by
          refine admits_eq (hnext ▸ hgranted) (List.Subset.refl _) fun u hu => ?_
          rw [List.mem_singleton.1 hu]
          exact h.not_granted_of_new ht
        rw [hadmits, hwaiting]
        simpa [arrivals, drops, hnone] using h.order_append ht
    | @leaves t ht hwaiting hgranted =>
        rw [admits_eq_nil (hnext ▸ hgranted ▸ List.Subset.refl _), hwaiting, drops, if_pos ht]
        simpa [arrivals] using h.order_erase ht
  · rcases List.mem_append.1 ht with hold | hdropped
    · exact List.mem_append_left _ (h.known hold)
    · exact List.mem_append_left _ (h.arrived_of_waiting (drops_subset hdropped)).1
  · rcases ht.before with hadmitted | hheld
    · exact List.mem_append_right _ hadmitted
    · exact List.mem_append_left _ (h.holders t hheld)

/-- And so does a run. -/
theorem run (hbalanced : l.Balanced) (events : List LimiterEvent)
    (hnew : (arrived ++ arrivals events).Nodup) :
    (l.run events).InLine (arrived ++ arrivals events) (admitted ++ l.admissions events)
      (cancelled ++ l.cancellations events) := by
  -- what has arrived, was admitted and was withdrawn so far grows with every event
  induction events generalizing l arrived admitted cancelled with
  | nil => simpa [Limiter.run, arrivals, admissions, cancellations] using h
  | cons e rest ih =>
      rw [arrivals_cons, ← List.append_assoc] at hnew ⊢
      rw [admissions, cancellations, ← List.append_assoc, ← List.append_assoc]
      have hstep := h.step hbalanced (List.nodup_append.1 hnew).1
      exact ih hstep (hbalanced.step e) hnew

/-- One that is withdrawn does not wait any more. -/
theorem not_waiting_of_withdraw (hbalanced : l.Balanced) (t : TaskId) :
    t ∉ (l.step (.withdraw t)).waiting := by
  have hserves := step_serves hbalanced (.withdraw t)
  generalize l.step (.withdraw t) = next at hserves
  intro ht
  cases hserves with
  | stays harrival hdrop hwaiting hgranted => exact not_waiting_of_drops hdrop (hwaiting ▸ ht)
  | passes harrival hdrop hwaiting hgranted hkept =>
      exact not_waiting_of_drops hdrop (hwaiting ▸ List.mem_cons_of_mem _ ht)
  | leaves hmem hwaiting hgranted =>
      rw [hwaiting] at ht
      exact (List.nodup_append.1 h.nodup).2.1.not_mem_erase ht

/-- While a submission waits, none is admitted that has arrived later. -/
theorem not_waiting_of_admits (hbalanced : l.Balanced)
    (hu : u ∈ l.admits e) (hearlier : [t, u].Sublist (arrived ++ arrivals [e])) : t ∉ l.waiting := by
  intro ht
  obtain ⟨harrival, rest, hfirst⟩ := first_of_admits hbalanced hu (List.ne_nil_of_mem ht)
  rw [harrival, List.append_nil] at hearlier
  -- both wait, so they stand in the line as they have arrived
  have hboth : [t, u].filter (· ∉ cancelled) = [t, u] := by
    refine List.filter_eq_self.2 fun x hx => ?_
    have hin : x ∈ l.waiting := by
      rcases List.mem_pair.1 hx with rfl | rfl
      · exact ht
      · exact hfirst ▸ List.mem_cons_self
    exact decide_eq_true (h.arrived_of_waiting hin).2
  have hline : [t, u].Sublist (admitted ++ l.waiting) := by
    rw [← h.order, ← hboth]
    exact hearlier.filter _
  -- but the one that is admitted is the first of those that wait
  have hadmitted : t ∈ admitted := by
    have hdistinct := h.nodup
    rw [hfirst] at hline hdistinct
    exact mem_front_of_sublist hdistinct hline
  exact (List.nodup_append.1 h.nodup).2.2 t hadmitted t ht rfl

end InLine

theorem inLine_new (name : String) (limit : UInt64) : (new name limit).InLine [] [] [] where
  order := rfl
  distinct := List.nodup_nil
  known := List.Subset.refl _
  holders := by rintro t (h | h | h) <;> cases h

theorem Balanced.run (h : l.Balanced) (events : List LimiterEvent) : (l.run events).Balanced := by
  induction events generalizing l with
  | nil => exact h
  | cons e rest ih => exact ih (h.step e)

/-- Submissions wait only while all permits are held. -/
theorem Balanced.full_of_waiting (h : l.Balanced) (hwaits : l.waiting ≠ []) :
    l.limit ≠ unlimited ∧ l.available = 0 ∧ l.held = l.limit.toNat := by
  have hlimited : l.limit ≠ unlimited := fun hfree => hwaits (h.unqueued hfree).1
  have hnone := h.queued hwaits
  have hsum := h.permits hlimited
  exact ⟨hlimited, hnone, by omega⟩

end Steps

end Limiter

end AmqpDelivery
