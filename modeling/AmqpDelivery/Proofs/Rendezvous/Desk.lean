import AmqpDelivery.Proofs.Rendezvous.Reach
import AmqpDelivery.Proofs.Rendezvous.Spent

/-!
# Requests at a rendezvous

Requests, replies and calls that close everything share a rendezvous, and every request has an id of
its own. Where a task stands tells what it was asked to do (`Call.Stands`). An id is filed only while
its request is on its way (`Desk.filed`), and a request waits at the slot that is filed under its id,
until everything is closed and the slot with it (`Desk.waiting`).
-/

namespace AmqpDelivery.Rendezvous

variable {α : Type}

/-- The event asks for nothing but a request, a reply or the end of everything, and drops no task. -/
def Event.OnDesk : Event α → Prop
  | .spawn _ (.request _ _) | .spawn _ (.route _ _) | .spawn _ .closeAll => True
  | .spawn _ _ | .drop _ => False
  | _ => True

/-- No two requests of the run have the same id. -/
def DistinctIds (events : List (Event α)) : Prop :=
  ∀ t u id ms more, callOf t events = some (.request id ms) →
    callOf u events = some (.request id more) → t = u

/-- The stages of a task by what it was asked to do. -/
inductive Call.Stands : Call α → Stage α → Prop
  | ready (call : Call α) : Stands call (.ready call)
  | publishing (id : UInt64) (ms : Nat) : Stands (.request id ms) (.publishing id ms)
  | seeking (id : UInt64) (ms : Nat) : Stands (.request id ms) (.seeking id ms)
  | listening {id : UInt64} {ms : Nat} {w : Wait} (hw : w.caller = .request id) :
      Stands (.request id ms) (.listening w)
  | checking {id : UInt64} {ms : Nat} {w : Wait} (hw : w.caller = .request id) :
      Stands (.request id ms) (.checking w)
  | parked {id : UInt64} {ms : Nat} {w : Wait} (hw : w.caller = .request id) :
      Stands (.request id ms) (.parked w)
  | overdue (id : UInt64) (ms : Nat) : Stands (.request id ms) (.overdue id (.request id))
  | leaving (id : UInt64) (ms : Nat) (result : Except Failure α) :
      Stands (.request id ms) (.leaving id result)
  | returned (id : UInt64) (ms : Nat) (result : Except Failure α) :
      Stands (.request id ms) (.finished (.received result))
  | storing (id : Option UInt64) (value : α) (p : SlotId) :
      Stands (.route id value) (.storing p value)
  | announcing (id : Option UInt64) (value : α) (p : SlotId) :
      Stands (.route id value) (.announcing p)
  | unanswered (id : Option UInt64) (value : α) : Stands (.route id value) (.finished .done)
  | routed (id : Option UInt64) (value : α) (result : Except Failure Unit) :
      Stands (.route id value) (.finished (.pushed result))
  | shutting (slots : List SlotId) : Stands .closeAll (.shutting slots)
  | rousing (p : SlotId) (rest : List SlotId) : Stands .closeAll (.rousing p rest)
  | closed : Stands .closeAll (.finished .done)

/-- The request with the number `id` waits at the slot `p`. -/
def Stage.WaitsFor (id : UInt64) (p : SlotId) : Stage α → Prop
  | .listening w | .checking w | .parked w => w.caller = .request id ∧ w.slot = p
  | _ => False

/-- The task will close the slot. -/
def Stage.ToShut (p : SlotId) : Stage α → Prop
  | .shutting slots => p ∈ slots
  | .rousing _ rest => p ∈ rest
  | _ => False

/-- The number of a request that has not returned. -/
def Stage.number? : Stage α → Option UInt64
  | .ready (.request id _) => some id
  | x => x.pending?

/-- No two tasks make the request with the same number. -/
def State.Distinct (s : State α) : Prop :=
  ∀ t u x z id, s.tasks t = some x → s.tasks u = some z → x.number? = some id →
    z.number? = some id → t = u

/-- What is filed, and where requests wait. -/
structure Desk (s : State α) : Prop where
  filed : ∀ id p, s.find? id = some p → s.Pending id
  waiting : ∀ t x id p, s.tasks t = some x → x.WaitsFor id p →
    s.find? id = some p ∨ s.closed = true ∧
      ((s.slots p).closed = true ∨ ∃ u z, s.tasks u = some z ∧ z.ToShut p)
  emptied : s.closed = true → s.index = []

section Acts

variable {s next : State α} {p : SlotId} {e : Event α} {t : TaskId} {x y : Stage α}
  {notes : List (Note α)} {call : Call α} {id : UInt64}

theorem Event.OnDesk.not_drop (he : e.OnDesk) : e ≠ .drop t := by
  rintro rfl
  exact he

theorem Caller.stands_resolved (id : UInt64) (ms : Nat) (result : Except Failure α) :
    (Call.request id ms).Stands ((Caller.request id).resolved result) :=
  .leaving id ms result

/-- Where a task stands after a turn. -/
theorem Turn.stands {q q' : Slot α} (h : Turn p q e t x y q' notes) (he : e.OnDesk)
    (hx : call.Stands x) : call.Stands y := by
  cases h with
  | store he' hclosed hvalue => cases hx with
    | storing => exact .announcing _ _ _
  | full he' hclosed hvalue => cases hx with
    | storing => exact .routed _ _ _
  | refuse he' hclosed => cases hx with
    | storing => exact .routed _ _ _
  | announce he' => cases hx with
    | announcing id value p => exact .routed id value _
  | shut he' => cases hx with
    | shutting slots => exact .rousing _ _
  | rouse he' => cases hx with
    | rousing p rest => exact .shutting _
  | register he' hw => cases hx with
    | listening hcaller => exact .checking hcaller
  | take he' hw hclosed hvalue => cases hx with
    | checking hcaller => rw [hcaller]; exact Caller.stands_resolved _ _ _
  | late he' hw hclosed => cases hx with
    | checking hcaller => rw [hcaller]; exact Caller.stands_resolved _ _ _
  | park he' hw hclosed hvalue => cases hx with
    | checking hcaller => exact .parked hcaller
  | wake he' hw hwoken => cases hx with
    | parked hcaller => exact .listening hcaller
  | @expire w own he' hw hid hwoken => cases hx with
    | @parked id ms w hcaller =>
        have hsame : own = id := by simpa [Wait.id?, hcaller] using hid.symm
        rw [hcaller, hsame]
        exact .overdue id ms
  | drop he' hw => exact absurd he' he.not_drop

/-- Where a task stands after an act. -/
theorem Act.stands (h : Act s e t x y next notes) (he : e.OnDesk)
    (hcall : Event.OnDesk (.spawn t call)) (hx : call.Stands x) : call.Stands y := by
  cases h with
  | pass h =>
      cases h with
      | unanswered value he' => cases hx; exact .unanswered _ _
      | allShut he' => cases hx; exact .closed
      | published id ms u he' => cases hx; exact .seeking _ _
      | unpublished id ms f he' => cases hx; exact .leaving _ _ _
      | unbegun other he' => exact absurd he' he.not_drop
      | abandoned id ms he' => exact absurd he' he.not_drop
      | _ => cases hx; exact hcall.elim
  | hit he' hclosed hfind h =>
      cases h with
      | route value => cases hx; exact .storing _ _ _
      | request ms => cases hx; exact .publishing _ _
      | seek ms => cases hx; exact .listening rfl
      | _ => cases hx; exact hcall.elim
  | miss he' hfind h =>
      cases h with
      | route value => cases hx; exact .routed _ _ _
      | request ms hclosed => cases hx; exact .returned _ _ _
      | seek ms => cases hx; exact .leaving _ _ _
      | _ => cases hx; exact hcall.elim
  | opens he' hclosed hfind h =>
      cases h with
      | get => cases hx; exact hcall.elim
      | request ms => cases hx; exact .publishing _ _
  | makes he' => cases hx; exact hcall.elim
  | removes he' h =>
      cases h with
      | overdue caller => cases hx; exact Caller.stands_resolved _ _ _
      | leave result => cases hx; exact .returned _ _ _
      | _ => cases hx; exact hcall.elim
  | clears he' => cases hx; exact .shutting _
  | turns h => exact h.stands he hx

/-- A task with a number was asked to make the request with that number. -/
theorem Call.Stands.request (hx : call.Stands x) (hnumber : x.number? = some id) :
    ∃ ms, call = .request id ms := by
  cases hx with
  | ready call =>
      cases call with
      | request own ms => cases hnumber; exact ⟨ms, rfl⟩
      | _ => cases hnumber
  | publishing own ms => cases hnumber; exact ⟨ms, rfl⟩
  | seeking own ms => cases hnumber; exact ⟨ms, rfl⟩
  | overdue own ms => cases hnumber; exact ⟨ms, rfl⟩
  | leaving own ms result => cases hnumber; exact ⟨ms, rfl⟩
  | @listening own ms w hw => cases w; cases hw; cases hnumber; exact ⟨ms, rfl⟩
  | @checking own ms w hw => cases w; cases hw; cases hnumber; exact ⟨ms, rfl⟩
  | @parked own ms w hw => cases w; cases hw; cases hnumber; exact ⟨ms, rfl⟩
  | _ => cases hnumber

theorem Stage.WaitsFor.holds (hx : x.WaitsFor id p) : x.Holds p := by
  cases x <;> first | exact hx.2 | exact hx.elim

theorem Stage.WaitsFor.pending (hx : x.WaitsFor id p) : x.pending? = some id := by
  cases x <;> first | exact hx.elim | simp [Stage.pending?, Wait.id?, hx.1]

theorem Stage.number_of_pending (hx : x.pending? = some id) : x.number? = some id := by
  cases x with
  | ready call => cases hx
  | _ => exact hx

theorem State.find?_cons (s : State α) (slots : SlotId → Slot α) (made : Nat) (id i : UInt64) :
    ({ s with slots, made, index := (id, s.made) :: s.index } : State α).find? i =
      if i = id then some s.made else s.find? i := by
  unfold find?
  rw [List.lookup_cons]
  by_cases hi : i = id
  · simp [hi]
  · simp [hi, beq_eq_false_iff_ne.mpr hi]

theorem State.find?_goto (s : State α) (t : TaskId) (y : Stage α) (i : UInt64) :
    (s.goto t y).find? i = s.find? i := rfl

/-- What is found after an act was found before, or is the slot of a request that is pending now. -/
theorem Act.found (h : Act s e t x y next notes) (hcall : Event.OnDesk (.spawn t call))
    (hx : call.Stands x) (hfind : next.find? id = some p) :
    s.find? id = some p ∨ y.pending? = some id := by
  cases h with
  | @opens x y own he hclosed hmissing h =>
      rw [State.find?_goto, State.find?_cons] at hfind
      by_cases hid : id = own
      · subst hid
        cases h with
        | get => cases hx; exact hcall.elim
        | request ms => exact Or.inr rfl
      · rw [if_neg hid] at hfind
        exact Or.inl hfind
  | @removes x y own he h =>
      rw [State.find?_goto, State.find?_unfile] at hfind
      split at hfind
      · cases hfind
      · exact Or.inl hfind
  | clears he => cases hfind
  | _ => exact Or.inl hfind

theorem pending_resolved {w : Wait} {own : UInt64} (hcaller : w.caller = .request own)
    (hid : w.id? = some id) (result : Except Failure α) :
    (w.caller.resolved result).pending? = some id := by
  have hsame : own = id := by simpa [Wait.id?, hcaller] using hid
  rw [hcaller, hsame]
  rfl

theorem Turn.pending {q q' : Slot α} (h : Turn p q e t x y q' notes) (he : e.OnDesk)
    (hx : call.Stands x) (hpending : x.pending? = some id) : y.pending? = some id := by
  cases h with
  | register he' hw => exact hpending
  | park he' hw hclosed hvalue => exact hpending
  | wake he' hw hwoken => exact hpending
  | expire he' hw hid hwoken => exact hid.symm.trans hpending
  | take he' hw hclosed hvalue => cases hx with
    | checking hcaller => exact pending_resolved hcaller hpending _
  | late he' hw hclosed => cases hx with
    | checking hcaller => exact pending_resolved hcaller hpending _
  | drop he' hw => exact absurd he' he.not_drop
  | _ => cases hpending

/-- A request stays pending until its id is not filed. -/
theorem Act.pending (h : Act s e t x y next notes) (he : e.OnDesk) (hx : call.Stands x)
    (hpending : x.pending? = some id) : y.pending? = some id ∨ next.find? id = none := by
  cases h with
  | pass h =>
      cases h with
      | published own ms u he' => exact Or.inl hpending
      | unpublished own ms f he' => exact Or.inl hpending
      | abandoned own ms he' => exact absurd he' he.not_drop
      | _ => cases hpending
  | hit he' hclosed hfind h =>
      cases h with
      | seek ms => exact Or.inl hpending
      | _ => cases hpending
  | miss he' hfind h =>
      cases h with
      | seek ms => exact Or.inl hpending
      | _ => cases hpending
  | opens he' hclosed hmissing h => cases h <;> cases hpending
  | makes he' => cases hpending
  | removes he' h =>
      cases h with
      | overdue caller => cases hx; exact Or.inl hpending
      | leave result =>
          cases hpending
          right
          rw [State.find?_goto, State.find?_unfile, if_pos rfl]
      | _ => cases hpending
  | clears he' => cases hpending
  | turns h => exact Or.inl (h.pending he hx hpending)

/-- What is filed stays so until its request removes it or everything is closed. -/
theorem Act.files (h : Act s e t x y next notes) (hcall : Event.OnDesk (.spawn t call))
    (hx : call.Stands x) (hfind : s.find? id = some p) :
    next.find? id = some p ∨ (x.pending? = some id ∧ ∀ q, ¬ x.WaitsFor id q) ∨
      next.closed = true ∧ y.ToShut p := by
  cases h with
  | @opens x y own he hclosed hmissing h =>
      left
      have hne : id ≠ own := by
        rintro rfl
        rw [hmissing] at hfind
        cases hfind
      rw [State.find?_goto, State.find?_cons, if_neg hne]
      exact hfind
  | @removes x y own he h =>
      by_cases hid : id = own
      · subst hid
        right
        left
        cases h with
        | overdue caller => exact ⟨rfl, fun q hq => hq⟩
        | leave result => exact ⟨rfl, fun q hq => hq⟩
        | _ => cases hx; exact hcall.elim
      · left
        rw [State.find?_goto, State.find?_unfile, if_neg hid]
        exact hfind
  | clears he => exact Or.inr (Or.inr ⟨rfl, List.mem_map.mpr ⟨_, mem_index_of_find? hfind, rfl⟩⟩)
  | _ => exact Or.inl hfind

theorem Caller.not_waitsFor (caller : Caller) (result : Except Failure α) :
    ¬ (caller.resolved result).WaitsFor id p := by
  cases caller <;> exact fun h => h

/-- A request comes to wait at the slot that it finds under its id. -/
theorem Act.waits (h : Act s e t x y next notes) (hy : y.WaitsFor id p) :
    x.WaitsFor id p ∨ next.find? id = some p := by
  cases h with
  | pass h =>
      cases h with
      | slotPop q he => cases hy.1
      | _ => exact hy.elim
  | hit he hclosed hfind h =>
      cases h with
      | wait timeoutMs => cases hy.1
      | seek ms =>
          obtain ⟨hcaller, rfl⟩ := hy
          cases hcaller
          exact Or.inr hfind
      | _ => exact hy.elim
  | miss he hfind h => cases h <;> exact hy.elim
  | opens he hclosed hmissing h => cases h <;> exact hy.elim
  | makes he => exact hy.elim
  | removes he h =>
      cases h with
      | overdue caller => exact absurd hy (caller.not_waitsFor _)
      | _ => exact hy.elim
  | clears he => exact hy.elim
  | turns h =>
      cases h with
      | register he hw => exact Or.inl hy
      | park he hw hclosed hvalue => exact Or.inl hy
      | wake he hw hwoken => exact Or.inl hy
      | take he hw hclosed hvalue => exact absurd hy (Caller.not_waitsFor _ _)
      | late he hw hclosed => exact absurd hy (Caller.not_waitsFor _ _)
      | _ => exact hy.elim

/-- A task that will close a slot does so. -/
theorem Act.shuts (h : Act s e t x y next notes) (hx : x.ToShut p) :
    y.ToShut p ∨ (next.slots p).closed = true := by
  cases h with
  | pass h =>
      cases h with
      | allShut he => cases hx
      | _ => exact hx.elim
  | hit he hclosed hfind h => cases h <;> exact hx.elim
  | miss he hfind h => cases h <;> exact hx.elim
  | opens he hclosed hmissing h => cases h <;> exact hx.elim
  | makes he => exact hx.elim
  | removes he h => cases h <;> exact hx.elim
  | clears he => exact hx.elim
  | @turns x y r q own h =>
      cases h with
      | shut he =>
          rcases List.mem_cons.mp hx with rfl | hrest
          · right
            simp [State.goto, State.modify, Slot.shut]
          · exact Or.inl hrest
      | rouse he => exact Or.inl hx
      | _ => exact hx.elim

/-- Once everything is closed it stays closed, and nothing is filed. -/
theorem Act.emptied (h : Act s e t x y next notes) (hs : s.closed = true → s.index = [])
    (hnext : next.closed = true) : next.index = [] := by
  cases h with
  | opens he hclosed hmissing h => exact absurd hnext (by simp [State.goto, hclosed])
  | removes he h => simp [State.goto, State.unfile, hs hnext]
  | clears he => rfl
  | _ => exact hs hnext

theorem Act.stays_closed (h : Act s e t x y next notes) (hs : s.closed = true) :
    next.closed = true := by
  cases h with
  | clears he => rfl
  | _ => exact hs

/-- A slot that is closed stays closed. -/
theorem State.closed_step (hmade : p < s.made) (hclosed : (s.slots p).closed = true)
    (e : Event α) : ((s.step e).slots p).closed = true := by
  have hview := s.step_view e hmade
  generalize s.step e = next, s.notes e = notes at hview ⊢
  cases hview with
  | turns he ht hturn hslot htasks hnotes =>
      rw [hslot]
      cases hturn <;> first | exact hclosed | rfl
  | _ => simp_all

/-- What an act does to a desk. -/
theorem Desk.act (hd : Desk s) (hsound : s.Sound) (hdistinct : s.Distinct) (he : e.OnDesk)
    (hown : e.task? = some t) (ht : s.tasks t = some x) (hcall : Event.OnDesk (.spawn t call))
    (hx : call.Stands x) (h : Act s e t x y (s.step e) notes) : Desk (s.step e) := by
  have hself : (s.step e).tasks t = some y := by rw [h.tasks, assign_self]
  have hother : ∀ u, u ≠ t → (s.step e).tasks u = s.tasks u := by
    intro u hu
    rw [h.tasks, assign_of_ne hu]
  constructor
  · intro id p hfind
    rcases h.found hcall hx hfind with hold | hnew
    · obtain ⟨u, z, hu, hz⟩ := hd.filed id p hold
      by_cases hut : u = t
      · subst hut
        obtain rfl : x = z := Option.some.inj (ht.symm.trans hu)
        rcases h.pending he hx hz with hstill | hgone
        · exact ⟨u, y, hself, hstill⟩
        · rw [hgone] at hfind
          cases hfind
      · exact ⟨u, z, (hother u hut).trans hu, hz⟩
    · exact ⟨t, y, hself, hnew⟩
  · intro u z id p hu hz
    -- a request that waited before: its id is still filed, or its slot is closed or will be
    have hbefore : ∀ v, s.tasks u = some v → v.WaitsFor id p → (s.step e).find? id = some p ∨
        (s.step e).closed = true ∧ (((s.step e).slots p).closed = true ∨
          ∃ u z, (s.step e).tasks u = some z ∧ z.ToShut p) := by
      intro v hv hwaits
      have hmade : p < s.made := hsound.held u v p hv hwaits.holds
      rcases hd.waiting u v id p hv hwaits with hfind | ⟨hclosed, hslot | ⟨c, k, hc, hk⟩⟩
      · rcases h.files hcall hx hfind with hstill | ⟨hpending, hnot⟩ | ⟨hclosed, hshut⟩
        · exact Or.inl hstill
        · have hut : t = u := hdistinct t u x v id ht hv (Stage.number_of_pending hpending)
            (Stage.number_of_pending hwaits.pending)
          subst hut
          obtain rfl : x = v := Option.some.inj (ht.symm.trans hv)
          exact absurd hwaits (hnot p)
        · exact Or.inr ⟨hclosed, Or.inr ⟨t, y, hself, hshut⟩⟩
      · exact Or.inr ⟨h.stays_closed hclosed, Or.inl (State.closed_step hmade hslot e)⟩
      · refine Or.inr ⟨h.stays_closed hclosed, ?_⟩
        by_cases hct : c = t
        · subst hct
          obtain rfl : x = k := Option.some.inj (ht.symm.trans hc)
          rcases h.shuts hk with hstill | hdone
          · exact Or.inr ⟨c, y, hself, hstill⟩
          · exact Or.inl hdone
        · exact Or.inr ⟨c, k, (hother c hct).trans hc, hk⟩
    by_cases hut : u = t
    · subst hut
      obtain rfl : y = z := Option.some.inj (hself.symm.trans hu)
      rcases h.waits hz with hold | hfind
      · exact hbefore x ht hold
      · exact Or.inl hfind
    · exact hbefore z ((hother u hut).symm.trans hu) hz
  · exact h.emptied hd.emptied

/-- Everything that is not an act leaves a desk as it is. -/
theorem Desk.begin (hd : Desk s) (ht : s.tasks t = none) (call : Call α) :
    Desk (s.goto t (.ready call)) := by
  have hkeep : ∀ u z, s.tasks u = some z → (s.goto t (.ready call)).tasks u = some z := by
    intro u z hu
    have hne : u ≠ t := by
      rintro rfl
      rw [ht] at hu
      cases hu
    simpa [State.goto, hne] using hu
  constructor
  · intro id p hfind
    obtain ⟨u, z, hu, hz⟩ := hd.filed id p hfind
    exact ⟨u, z, hkeep u z hu, hz⟩
  · intro u z id p hu hz
    by_cases hut : u = t
    · subst hut
      obtain rfl : .ready call = z := by simpa [State.goto] using hu
      exact hz.elim
    · have hold : s.tasks u = some z := by simpa [State.goto, hut] using hu
      rcases hd.waiting u z id p hold hz with hfind | ⟨hclosed, hslot | ⟨c, k, hc, hk⟩⟩
      · exact Or.inl hfind
      · exact Or.inr ⟨hclosed, Or.inl hslot⟩
      · exact Or.inr ⟨hclosed, Or.inr ⟨c, k, hkeep c k hc, hk⟩⟩
  · exact hd.emptied

end Acts

/-! ## What a run was asked to do -/

theorem DistinctIds.of_append {es fs : List (Event α)} (h : DistinctIds (es ++ fs)) :
    DistinctIds es :=
  fun t u id ms more ht hu => h t u id ms more (callOf_append ht fs) (callOf_append hu fs)

namespace State

variable {events : List (Event α)}

/-- Every task of a run stands where its call brings it. -/
theorem run_stands (hdesk : ∀ e ∈ events, e.OnDesk) {t : TaskId} {x : Stage α}
    (ht : (empty.run events).tasks t = some x) :
    ∃ call, callOf t events = some call ∧ Event.OnDesk (.spawn t call) ∧ call.Stands x := by
  induction events using List.reverseRecOn generalizing x with
  | nil => cases ht
  | append_singleton events e ih =>
      have he : e.OnDesk := hdesk e (by simp)
      have hbefore : ∀ d ∈ events, d.OnDesk := fun d hd => hdesk d (List.mem_append_left _ hd)
      rw [run_concat] at ht
      rw [callOf_concat]
      cases hold : (empty.run events).tasks t with
      | none =>
          rw [step_unbegun hold] at ht
          obtain ⟨call, hasks, rfl⟩ := Option.map_eq_some_iff.mp ht
          have hspawn : Event.OnDesk (.spawn t call) := by
            rw [Event.eq_spawn_of_asks hasks] at he
            exact he
          rw [not_asked events hold, Option.none_or]
          exact ⟨call, hasks, hspawn, .ready call⟩
      | some z =>
          obtain ⟨call, hcall, hspawn, hz⟩ := ih hbefore hold
          rw [hcall]
          refine ⟨call, rfl, hspawn, ?_⟩
          rcases step_task hold e with hstay | ⟨y, hown, hy, hact⟩
          · obtain rfl : z = x := Option.some.inj (hstay.symm.trans ht)
            exact hz
          · obtain rfl : y = x := Option.some.inj (hy.symm.trans ht)
            exact hact.stands he hspawn hz

/-- How a task came to stand where it stands at the end of a run: it has just been begun, or it stood
somewhere before the last event and stayed there or acted. -/
theorem run_last (hdesk : ∀ e ∈ events, e.OnDesk) {e : Event α} {t : TaskId} {x : Stage α}
    {call : Call α} (hcall : callOf t (events ++ [e]) = some call)
    (ht : (empty.run (events ++ [e])).tasks t = some x) :
    x = .ready call ∨ ∃ z, (empty.run events).tasks t = some z ∧ callOf t events = some call ∧
      call.Stands z ∧ (x = z ∨ Act (empty.run events) e t z x (empty.run (events ++ [e]))
        ((empty.run events).notes e)) := by
  rw [run_concat] at ht ⊢
  cases hold : (empty.run events).tasks t with
  | none =>
      left
      rw [callOf_concat, not_asked events hold, Option.none_or] at hcall
      rw [step_unbegun hold, hcall] at ht
      exact (Option.some.inj ht).symm
  | some z =>
      right
      have hthere : (empty.run events).tasks t ≠ none := by simp [hold]
      have hasked := asked_before (by rfl) hthere hcall
      obtain ⟨other, hother, -, hz⟩ := run_stands hdesk hold
      obtain rfl := Option.some.inj (hother.symm.trans hasked)
      refine ⟨z, rfl, hasked, hz, ?_⟩
      rcases step_task hold e with hstay | ⟨y, -, hy, hact⟩
      · exact Or.inl (Option.some.inj (ht.symm.trans hstay))
      · obtain rfl := Option.some.inj (hy.symm.trans ht)
        exact Or.inr hact

/-- The states of a run in which all ids are distinct. -/
theorem run_distinct (hdesk : ∀ e ∈ events, e.OnDesk) (hids : DistinctIds events) :
    (empty.run events).Distinct := by
  intro t u x z id ht hu hx hz
  obtain ⟨call, hcall, -, hstands⟩ := run_stands hdesk ht
  obtain ⟨other, hother, -, hstands'⟩ := run_stands hdesk hu
  obtain ⟨ms, rfl⟩ := hstands.request hx
  obtain ⟨more, rfl⟩ := hstands'.request hz
  exact hids t u id ms more hcall hother

/-- A run that names no slot at hand. -/
theorem run_reachable (hdesk : ∀ e ∈ events, e.OnDesk) : (empty.run events).Reachable := by
  apply Reachable.empty.run
  intro e he
  have hon := hdesk e he
  cases e with
  | spawn t call =>
      intro p hp
      cases call <;> first | exact hon.elim | cases hp
  | _ => trivial

/-- The desk of a run. -/
theorem run_desk (hdesk : ∀ e ∈ events, e.OnDesk) (hids : DistinctIds events) :
    Desk (empty.run events) := by
  induction events using List.reverseRecOn with
  | nil =>
      constructor
      · intro id p hfind
        cases hfind
      · intro t x id p ht
        cases ht
      · intro hclosed
        cases hclosed
  | append_singleton events e ih =>
      have hbefore : ∀ d ∈ events, d.OnDesk := fun d hd => hdesk d (List.mem_append_left _ hd)
      have hids' : DistinctIds events := hids.of_append
      have hd := ih hbefore hids'
      rw [run_concat]
      have hchange := (empty.run events).step_change e
      generalize hnext : (empty.run events).step e = next,
        (empty.run events).notes e = notes at hchange ⊢
      cases hchange with
      | rests now hblocked hbegun => exact ⟨hd.filed, hd.waiting, hd.emptied⟩
      | begins he ht => exact hd.begin ht _
      | @acts t x y next notes hown ht h =>
          subst hnext
          obtain ⟨call, -, hspawn, hx⟩ := run_stands hbefore ht
          exact hd.act (run_reachable hbefore).sound (run_distinct hbefore hids')
            (hdesk e (by simp)) hown ht hspawn hx h

/-- A request that is pending has not returned. -/
theorem outcome_of_pending {s : State α} {t : TaskId} {x : Stage α} {id : UInt64}
    (ht : s.tasks t = some x) (hx : x.pending? = some id) : s.outcome? t = none := by
  cases x with
  | finished outcome => cases hx
  | _ => simp [outcome?, ht]

/-- A request that has returned has left nothing filed under its id. -/
theorem run_returned (hdesk : ∀ e ∈ events, e.OnDesk) (hids : DistinctIds events) {t : TaskId}
    {id : UInt64} {ms : Nat} (hcall : callOf t events = some (.request id ms))
    (hreturned : (empty.run events).outcome? t ≠ none) : (empty.run events).find? id = none := by
  cases hfind : (empty.run events).find? id with
  | none => rfl
  | some p =>
      obtain ⟨u, z, hu, hz⟩ := (run_desk hdesk hids).filed id p hfind
      obtain ⟨call, hother, -, hstands⟩ := run_stands hdesk hu
      obtain ⟨more, rfl⟩ := hstands.request (Stage.number_of_pending hz)
      obtain rfl := hids t u id ms more hcall hother
      exact absurd (outcome_of_pending hu hz) hreturned

/-- Once no request is on its way, nothing is filed. -/
theorem run_idle (hdesk : ∀ e ∈ events, e.OnDesk) (hids : DistinctIds events)
    (hidle : ∀ t id ms, callOf t events = some (.request id ms) →
      (empty.run events).outcome? t ≠ none ∨
        (empty.run events).tasks t = some (.ready (.request id ms))) :
    (empty.run events).size = 0 := by
  unfold size
  cases hindex : (empty.run events).index with
  | nil => rfl
  | cons entry rest =>
      have hfind : (empty.run events).find? entry.1 = some entry.2 := by
        rw [find?, hindex]
        exact List.lookup_cons_self
      obtain ⟨u, z, hu, hz⟩ := (run_desk hdesk hids).filed _ _ hfind
      obtain ⟨call, hcall, -, hstands⟩ := run_stands hdesk hu
      obtain ⟨ms, rfl⟩ := hstands.request (Stage.number_of_pending hz)
      exfalso
      rcases hidle u _ ms hcall with hreturned | hready
      · exact hreturned (outcome_of_pending hu hz)
      · rw [hready] at hu
        cases hu
        cases hz

end State

end AmqpDelivery.Rendezvous
