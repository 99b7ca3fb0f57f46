import AmqpDelivery.Proofs.Rendezvous.Filing

/-!
# The tasks of a connection and its history

`Ledger` ties every task of a connection to the history: a request that has not begun has no slot, a
reply that found a slot was sent for the number of that slot, and a request that has a reply was
answered by it. Every move of a task keeps the ledger (`Ledger.move`), and so does the beginning of
a task (`Ledger.begin`).
-/

namespace AmqpDelivery.Rendezvous

variable {α : Type} {s next : State α} {h k : List (LineNote α)} {t : TaskId} {x y : Stage α}

/-- What the history tells of a task at a stage. -/
def Stage.Fits (h : List (LineNote α)) (s : State α) (t : TaskId) : Stage α → Prop
  | .ready (.request id _) => .requested t id ∈ h ∧ Unopened h id
  | .ready (.route (some id) value) => .arrived t (some id) value ∈ h
  | .ready (.route none _) | .ready .decline | .ready .closeAll => True
  | .ready _ => False
  | .storing slot value => ∃ u id, Reached h u id slot t value []
  | .publishing id _ | .seeking id _ => ∃ slot, Waiting h s t id slot
  | .listening w | .checking w | .parked w =>
      ∃ id, w.caller = .request id ∧ Waiting h s t id w.slot
  | .overdue id caller => caller = .request id
  | .leaving id (.ok value) => ∃ slot r, Answered h t id slot r value
  | .finished (.received (.ok value)) => ∃ id slot r, Answered h t id slot r value
  | .announcing _ | .shutting _ | .rousing _ _ | .leaving _ (.error _) | .finished _ | .dropped =>
      True

theorem Stage.Fits.onLine (hx : x.Fits h s t) : x.OnLine := by
  cases x with
  | ready call => cases call <;> trivial
  | listening w | checking w | parked w =>
      obtain ⟨id, hw, -⟩ := hx
      exact ⟨id, hw⟩
  | overdue id caller => exact hx
  | _ => trivial

/-- A longer history fits as well, if what waits goes on waiting and no number is opened that a
request of this stage has yet to open. -/
theorem Stage.Fits.keep (hx : x.Fits h s t)
    (hwaiting : ∀ id slot, Waiting h s t id slot → Waiting (h ++ k) next t id slot)
    (hnew : ∀ id ms, x = .ready (.request id ms) → Unopened k id) : x.Fits (h ++ k) next t := by
  cases x with
  | ready call =>
      cases call with
      | request id ms =>
          obtain ⟨hrequested, hunopened⟩ := hx
          refine ⟨List.mem_append_left k hrequested, ?_⟩
          intro u slot hu
          rcases List.mem_append.mp hu with hu | hu
          · exact hunopened u slot hu
          · exact hnew id ms rfl u slot hu
      | route id? value =>
          cases id? with
          | none => trivial
          | some id => exact List.mem_append_left k hx
      | _ => exact hx
  | storing slot value =>
      obtain ⟨u, id, hreached⟩ := hx
      exact ⟨u, id, hreached.append k⟩
  | publishing id ms | seeking id ms =>
      obtain ⟨slot, hw⟩ := hx
      exact ⟨slot, hwaiting id slot hw⟩
  | listening w | checking w | parked w =>
      obtain ⟨id, hcaller, hw⟩ := hx
      exact ⟨id, hcaller, hwaiting id w.slot hw⟩
  | leaving id result =>
      cases result with
      | ok value =>
          obtain ⟨slot, r, ha⟩ := hx
          exact ⟨slot, r, ha.append k⟩
      | error failure => trivial
  | finished outcome =>
      cases outcome with
      | received result =>
          cases result with
          | ok value =>
              obtain ⟨id, slot, r, ha⟩ := hx
              exact ⟨id, slot, r, ha.append k⟩
          | error failure => trivial
      | _ => trivial
  | overdue id caller => exact hx
  | _ => trivial

/-- A stage without claims fits any history. -/
theorem Stage.Blank.fits (hy : y.Blank) : y.Fits h s t := by
  cases y with
  | leaving id result =>
      cases result with
      | ok value => exact hy.elim
      | error failure => trivial
  | finished outcome =>
      cases outcome with
      | received result =>
          cases result with
          | ok value => exact hy.elim
          | error failure => trivial
      | _ => trivial
  | overdue id caller => exact hy
  | shutting _ | rousing _ _ | dropped => trivial
  | _ => exact hy.elim

theorem Stage.Follows.fits (hf : x.Follows y) (hx : x.Fits h s t) : y.Fits h s t := by
  cases hf with
  | blank hy => exact hy.fits
  | published id ms => exact hx
  | registered w => exact hx
  | empty w => exact hx
  | woken w => exact hx
  | left id result =>
      cases result with
      | ok value => exact ⟨id, hx⟩
      | error failure => trivial

/-- A task that finds a slot fits the history with the note on it. A request that has yet to open
its number finds nothing. -/
theorem Stage.Finds.fits {id : UInt64} {slot : SlotId} (hf : x.Finds id slot y)
    (hx : x.Fits h s t) (hfiling : Filing s h) (hfind : s.find? id = some slot) :
    y.Fits (h ++ [.desk (.located t id slot)]) (s.goto t y) t := by
  obtain ⟨u, hu⟩ := hfiling.filed id slot hfind
  cases hf with
  | request ms =>
      -- the slot was come to before, under a number that nobody has opened
      obtain ⟨-, hunopened⟩ := hx
      exact absurd hu (hunopened u slot)
  | reply value =>
      obtain ⟨v, hv⟩ := hfiling.opened u id slot hu
      have hlast : ([.desk (.located t id slot)] : List (LineNote α)).Sublist
          [.desk (.located t id slot)] := List.Sublist.refl _
      -- the slot was made before, and the reply arrived before its task came to the slot
      refine ⟨v, id, hv.append _, ?_, ?_⟩
      · exact (List.singleton_sublist.mpr hx).append hlast
      · exact (List.singleton_sublist.mpr hv.located).append hlast
  | wait ms deadline =>
      obtain ⟨other, hw⟩ := hx
      -- a number has one slot, so the request finds the one it has made
      obtain rfl : other = slot := hfiling.unique t u id other slot hw.opened.located hu
      refine ⟨id, rfl, hw.quiet ?_ ?_⟩
      · rfl
      · rfl

/-- Whenever a request returned a reply, it had been answered by it. -/
def Returned (h : List (LineNote α)) : Prop :=
  ∀ before t value after, h = before ++ .desk (.ended t (.received (.ok value))) :: after →
    ∃ id slot r, Answered before t id slot r value

/-- A note of a longer history stands in the old part or in the new one. -/
theorem split_append {β : Type} {l m before after : List β} {n : β}
    (heq : l ++ m = before ++ n :: after) :
    (∃ rest, l = before ++ n :: rest) ∨ ∃ mid, before = l ++ mid ∧ m = mid ++ n :: after := by
  rcases List.append_eq_append_iff.mp heq with ⟨mid, hbefore, hm⟩ | ⟨mid, hl, hafter⟩
  · exact Or.inr ⟨mid, hbefore, hm⟩
  · cases mid with
    | nil => exact Or.inr ⟨[], by simpa using hl.symm, by simpa using hafter.symm⟩
    | cons m' mid =>
        rw [List.cons_append, List.cons.injEq] at hafter
        obtain ⟨rfl, -⟩ := hafter
        exact Or.inl ⟨mid, hl⟩

theorem Returned.append (hr : Returned h)
    (hk : ∀ t value, .desk (.ended t (.received (.ok value))) ∉ k) : Returned (h ++ k) := by
  intro before t value after heq
  rcases split_append heq with ⟨rest, hold⟩ | ⟨mid, -, hnew⟩
  · exact hr before t value rest hold
  · exact absurd (hnew ▸ List.mem_append_right mid (List.mem_cons_self ..)) (hk t value)

theorem Returned.ended {id : UInt64} {slot : SlotId} {r : TaskId} {value : α} (hr : Returned h)
    (ha : Answered h t id slot r value) :
    Returned (h ++ [.desk (.ended t (.received (.ok value)))]) := by
  intro before u v after heq
  rcases split_append heq with ⟨rest, hold⟩ | ⟨mid, hbefore, hnew⟩
  · exact hr before u v rest hold
  -- the new note is the only one, so all of the old history comes before it
  · obtain rfl : mid = [] := by
      cases mid with
      | nil => rfl
      | cons n mid => simp at hnew
    simp only [List.nil_append, List.cons.injEq, LineNote.desk.injEq, Note.ended.injEq,
      Outcome.received.injEq, Except.ok.injEq] at hnew
    obtain ⟨⟨rfl, rfl⟩, -⟩ := hnew
    rw [hbefore, List.append_nil]
    exact ⟨id, slot, r, ha⟩

/-- The state of a rendezvous and the history of its connection agree. -/
structure Ledger (s : State α) (h : List (LineNote α)) : Prop where
  fits : ∀ t x, s.tasks t = some x → x.Fits h s t
  filing : Filing s h
  /-- The tasks of the history are there, -/
  begun : ∀ n ∈ h, ∀ t, n.begun? = some t → s.tasks t ≠ none
  /-- and each was begun once. -/
  once : (h.filterMap LineNote.begun?).Nodup
  returned : Returned h

theorem begun?_desk (notes : List (Note α)) :
    (notes.map LineNote.desk).filterMap LineNote.begun? = [] := by
  rw [List.filterMap_map, List.filterMap_eq_nil_iff]
  intro n hn
  rfl

/-- The part of the ledger that no step at the rendezvous touches. -/
theorem Ledger.begun_desk (hl : Ledger s h) (notes : List (Note α))
    (htasks : next.tasks = assign s.tasks t (some y)) :
    (∀ n ∈ h ++ notes.map LineNote.desk, ∀ u, n.begun? = some u → next.tasks u ≠ none) ∧
      ((h ++ notes.map LineNote.desk).filterMap LineNote.begun?).Nodup := by
  constructor
  · intro n hn u hu
    have hold : s.tasks u ≠ none := by
      rcases List.mem_append.mp hn with hn | hn
      · exact hl.begun n hn u hu
      · obtain ⟨d, -, rfl⟩ := List.mem_map.mp hn
        cases hu
    rw [htasks]
    by_cases hut : u = t
    · rw [hut, assign_self]
      exact Option.some_ne_none y
    · rw [assign_of_ne hut]
      exact hold
  · rw [List.filterMap_append, begun?_desk, List.append_nil]
    exact hl.once

/-- It is enough that the task that moved fits and that the others still do. -/
theorem fits_assign (htasks : next.tasks = assign s.tasks t (some y))
    (hself : y.Fits (h ++ k) next t)
    (hothers : ∀ u x, u ≠ t → s.tasks u = some x → x.Fits (h ++ k) next u) :
    ∀ u x, next.tasks u = some x → x.Fits (h ++ k) next u := by
  intro u x hu
  rw [htasks] at hu
  by_cases hut : u = t
  · subst hut
    rw [assign_self] at hu
    cases hu
    exact hself
  · rw [assign_of_ne hut] at hu
    exact hothers u x hut hu

theorem mem_endNotes {n : LineNote α} (hn : n ∈ (y.endNotes t).map LineNote.desk) :
    ∃ outcome, y = .finished outcome ∧ n = .desk (.ended t outcome) := by
  obtain ⟨d, hd, rfl⟩ := List.mem_map.mp hn
  cases y with
  | finished outcome => exact ⟨outcome, rfl, by rw [List.mem_singleton.mp hd]⟩
  | _ => cases hd

theorem unopened_endNotes (y : Stage α) (t : TaskId) (id : UInt64) :
    Unopened ((y.endNotes t).map LineNote.desk) id := by
  intro u slot hu
  obtain ⟨outcome, -, hn⟩ := mem_endNotes hu
  cases hn

theorem acceptedAt_endNotes (y : Stage α) (t : TaskId) (slot : SlotId) :
    acceptedAt slot ((y.endNotes t).map LineNote.desk) = [] := by
  cases y <;> rfl

/-- A task goes on by itself. If it ends with a reply, it was answered before. -/
theorem Ledger.quiet (hl : Ledger s h) (ht : s.tasks t = some x) (hf : x.Follows y)
    (hs : s.Still next t y) : Ledger next (h ++ (y.endNotes t).map LineNote.desk) := by
  have hkeep : ∀ u (z : Stage α), z.Fits h s u →
      z.Fits (h ++ (y.endNotes t).map LineNote.desk) next u := by
    intro u z hz
    refine hz.keep ?_ fun id _ _ => unopened_endNotes y t id
    exact fun id slot hw => hw.quiet (hs.value slot) (acceptedAt_endNotes y t slot)
  have hy : y.Fits h s t := hf.fits (hl.fits t x ht)
  refine ⟨?_, ?_, (hl.begun_desk _ hs.tasks).1, (hl.begun_desk _ hs.tasks).2, ?_⟩
  · exact fits_assign hs.tasks (hkeep t y hy) fun u z _ hu => hkeep u z (hl.fits u z hu)
  · exact hl.filing.quiet hs.made hs.find (unopened_endNotes y t)
      fun slot _ => acceptedAt_endNotes y t slot
  · by_cases hreply : ∃ value, y = .finished (.received (.ok value))
    -- a request that fits this stage has been answered
    · obtain ⟨value, rfl⟩ := hreply
      obtain ⟨id, slot, r, ha⟩ := hy
      exact hl.returned.ended ha
    · apply hl.returned.append
      intro u value hu
      apply hreply
      obtain ⟨outcome, rfl, hn⟩ := mem_endNotes hu
      cases hn
      exact ⟨value, rfl⟩

/-- A request makes its slot. No other request has its number, so none is opened by that. -/
theorem Ledger.opens {id : UInt64} {ms : Nat} (hl : Ledger s h) (hids : (numbersOf h).Nodup)
    (ht : s.tasks t = some (.ready (.request id ms))) :
    Ledger (s.opened t id ms) (h ++ [.desk (.located t id s.made)]) := by
  obtain ⟨hrequested, hnew⟩ := hl.fits t _ ht
  have htasks : (s.opened t id ms).tasks = assign s.tasks t (some (.publishing id ms)) := rfl
  have hbegun := hl.begun_desk [.located t id s.made] htasks
  have hwaiting : ∀ u i slot, Waiting h s u i slot →
      Waiting (h ++ [.desk (.located t id s.made)]) (s.opened t id ms) u i slot := by
    intro u i slot hw
    -- a slot that a request waits at is there already, so it is not the new one
    have hne : slot ≠ s.made :=
      Nat.ne_of_lt (hl.filing.made u i slot hw.opened.located)
    refine hw.quiet ?_ rfl
    simp [State.opened, State.goto, hne]
  refine ⟨fits_assign htasks ?_ ?_, hl.filing.opens hnew hrequested ms, hbegun.1, hbegun.2, ?_⟩
  · refine ⟨s.made, hl.filing.opened_new hrequested, Or.inl ⟨?_, ?_⟩⟩
    · simp [State.opened, State.goto]
    · rw [acceptedAt_append, hl.filing.untouched s.made (Nat.le_refl _), acceptedAt_located,
        List.nil_append]
  · intro u z hut hu
    apply (hl.fits u z hu).keep (hwaiting u)
    rintro i ms' rfl
    obtain ⟨hrequested', -⟩ := hl.fits u _ hu
    intro v slot hv
    cases List.mem_singleton.mp hv
    exact hut (requested_unique hids hrequested hrequested')
  · exact hl.returned.append (by simp)

/-- A task finds the slot of an id. -/
theorem Ledger.finds {id : UInt64} {slot : SlotId} (hl : Ledger s h) (ht : s.tasks t = some x)
    (hfind : s.find? id = some slot) (hf : x.Finds id slot y) :
    Ledger (s.goto t y) (h ++ [.desk (.located t id slot)]) := by
  have htasks : (s.goto t y).tasks = assign s.tasks t (some y) := rfl
  have hbegun := hl.begun_desk [.located t id slot] htasks
  obtain ⟨w, hw⟩ := hl.filing.filed id slot hfind
  refine ⟨fits_assign htasks ?_ ?_, (hl.filing.finds hfind t).goto, hbegun.1, hbegun.2, ?_⟩
  · exact hf.fits (hl.fits t x ht) hl.filing hfind
  · intro u z _ hu
    refine (hl.fits u z hu).keep ?_ ?_
    · intro i p hp
      refine hp.quiet ?_ (acceptedAt_located p t id slot)
      rfl
    · -- a request that has yet to open its number has no slot that could be found under it
      rintro i ms rfl v p hv
      cases List.mem_singleton.mp hv
      exact (hl.fits u _ hu).2 w slot hw
  · exact hl.returned.append (by simp)

/-- A reply is put into a slot. -/
theorem Ledger.stores {slot : SlotId} {value : α} (hl : Ledger s h)
    (ht : s.tasks t = some (.storing slot value)) (hvalue : (s.slots slot).value = none) :
    Ledger (s.filled t slot value) (h ++ [.desk (.stored t slot value)]) := by
  have htasks : (s.filled t slot value).tasks = assign s.tasks t (some (.announcing slot)) := rfl
  have hbegun := hl.begun_desk [.stored t slot value] htasks
  obtain ⟨o, id, hreached⟩ := hl.fits t _ ht
  have hmade : slot < s.made := hl.filing.made o id slot hreached.opened.located
  have hnew : ∀ i, Unopened [LineNote.desk (.stored t slot value)] i := unopened_desk (by simp)
  refine ⟨fits_assign htasks trivial ?_, ?_, hbegun.1, hbegun.2, ?_⟩
  · intro u z _ hu
    refine (hl.fits u z hu).keep ?_ fun i _ _ => hnew i
    intro i p hp
    exact hp.stores hreached hvalue
  · refine hl.filing.quiet ?_ ?_ hnew ?_
    · rfl
    · exact fun _ _ hf => hf
    intro p hp
    exact acceptedAt_stored_of_ne (Nat.ne_of_gt (Nat.lt_of_lt_of_le hmade hp)) t value
  · exact hl.returned.append (by simp)

/-- A request takes the reply out of its slot. No other request waits there. -/
theorem Ledger.takes {w : Wait} {id : UInt64} {value : α} (hl : Ledger s h)
    (ht : s.tasks t = some (.checking w)) (hcaller : w.caller = .request id)
    (hvalue : (s.slots w.slot).value = some value) :
    Ledger (s.emptied t w id value) (h ++ [.desk (.taken t w.slot value)]) := by
  have htasks : (s.emptied t w id value).tasks =
      assign s.tasks t (some (.leaving id (.ok value))) := rfl
  have hbegun := hl.begun_desk [.taken t w.slot value] htasks
  obtain ⟨i, hi, hw⟩ := hl.fits t _ ht
  obtain rfl : i = id := by
    rw [hcaller] at hi
    exact (Caller.request.inj hi).symm
  have hnew : ∀ j, Unopened [LineNote.desk (.taken t w.slot value)] j := unopened_desk (by simp)
  refine ⟨fits_assign htasks ?_ ?_, ?_, hbegun.1, hbegun.2, ?_⟩
  · obtain ⟨r, ha⟩ := hw.takes hvalue
    exact ⟨w.slot, r, ha⟩
  · intro u z hut hu
    refine (hl.fits u z hu).keep ?_ fun j _ _ => hnew j
    intro j p hp
    -- a slot has one maker, so the others wait elsewhere
    have hslot : p ≠ w.slot := by
      rintro rfl
      exact hut (hw.opened.unique hp.opened).1
    refine hp.quiet ?_ ?_
    · simp [State.emptied, State.modify, State.goto, hslot]
    · rfl
  · refine hl.filing.quiet ?_ ?_ hnew ?_
    · rfl
    · exact fun _ _ hf => hf
    · exact fun _ _ => rfl
  · exact hl.returned.append (by simp)

/-- Every move of a task keeps the ledger. -/
theorem Ledger.move {notes : List (Note α)} (hl : Ledger s h) (hids : (numbersOf h).Nodup)
    (ht : s.tasks t = some x) (hm : Move s t x next notes) :
    Ledger next (h ++ notes.map .desk) := by
  cases hm with
  | quiet hfollows hstill => exact hl.quiet ht hfollows hstill
  | opens id ms hfind => exact hl.opens hids ht
  | finds hfind hfinds => exact hl.finds ht hfind hfinds
  | stores hclosed hvalue => exact hl.stores ht hvalue
  | takes hcaller hvalue => exact hl.takes ht hcaller hvalue

/-- Time passes. -/
theorem Ledger.advance (hl : Ledger s h) (now : Nat) : Ledger { s with now } h where
  fits := by
    intro u x hu
    have hx : x.Fits (h ++ []) { s with now } u := by
      refine (hl.fits u x hu).keep ?_ fun _ _ _ => by simp [Unopened]
      intro id slot hw
      refine hw.quiet ?_ rfl
      rfl
    simpa using hx
  filing := ⟨hl.filing.filed, hl.filing.made, hl.filing.opened, hl.filing.unique,
    hl.filing.untouched⟩
  begun := hl.begun
  once := hl.once
  returned := hl.returned

/-- A note on the beginning of a task concerns no slot and no end. -/
theorem desk_ne_of_begun? {n : LineNote α} (hn : n.begun? = some t) (d : Note α) :
    n ≠ .desk d := by
  rintro rfl
  cases hn

theorem notMem_filterMap_begun? (hl : Ledger s h) (ht : s.tasks t = none) :
    t ∉ h.filterMap LineNote.begun? := by
  intro hmem
  obtain ⟨n, hn, hbegun⟩ := List.mem_filterMap.mp hmem
  exact hl.begun n hn t hbegun ht

/-- A task begins; there is a note on it if it was given a number or a reply. -/
theorem Ledger.begin {call : Call α} (hl : Ledger s h) (ht : s.tasks t = none)
    (hk : k = [] ∨ ∃ n, n.begun? = some t ∧ k = [n])
    (hcall : (Stage.ready call).Fits (h ++ k) s t) :
    Ledger (s.step (.spawn t call)) (h ++ k) := by
  have hstep : s.step (.spawn t call) = s.goto t (.ready call) := by simp [State.step, ht]
  have htasks : (s.goto t (.ready call)).tasks = assign s.tasks t (some (.ready call)) := rfl
  have hbegun : ∀ n ∈ k, n.begun? = some t := by
    rcases hk with rfl | ⟨n, hn, rfl⟩
    · simp
    · simpa using hn
  have hdesk : ∀ d, LineNote.desk d ∉ k := fun d hd => desk_ne_of_begun? (hbegun _ hd) d rfl
  have haccepted : ∀ slot, acceptedAt slot k = [] := by
    intro slot
    rcases hk with rfl | ⟨n, hn, rfl⟩
    · rfl
    · cases n with
      | desk d => cases hn
      | _ => rfl
  rw [hstep]
  refine ⟨fits_assign htasks ?_ ?_, ?_, ?_, ?_, ?_⟩
  · cases call with
    | route id? value => cases id? <;> exact hcall
    | _ => exact hcall
  · intro u z _ hu
    refine (hl.fits u z hu).keep ?_ fun _ _ _ v slot hv => hdesk _ hv
    intro id slot hw
    refine hw.quiet ?_ (haccepted slot)
    rfl
  · refine (hl.filing.quiet rfl (fun _ _ hf => hf) ?_ fun slot _ => haccepted slot).goto
    exact fun _ v slot hv => hdesk _ hv
  · intro n hn u hu
    by_cases hut : u = t
    · rw [htasks, hut, assign_self]
      exact Option.some_ne_none _
    · rw [htasks, assign_of_ne hut]
      rcases List.mem_append.mp hn with hn | hn
      · exact hl.begun n hn u hu
      · exact absurd (Option.some.inj (hu.symm.trans (hbegun n hn))) hut
  -- the task was not there, so no note tells of its beginning yet
  · rw [List.filterMap_append]
    rcases hk with rfl | ⟨n, hn, rfl⟩
    · simpa using hl.once
    · rw [List.filterMap_cons_some hn, List.filterMap_nil]
      refine List.nodup_append.mpr ⟨hl.once, List.pairwise_singleton _ t, ?_⟩
      rintro u hu v hv rfl
      cases List.mem_singleton.mp hv
      exact notMem_filterMap_begun? hl ht hu
  · exact hl.returned.append fun u value hu => hdesk _ hu

end AmqpDelivery.Rendezvous
