import AmqpDelivery.Proofs.Rendezvous.Buffer
import AmqpDelivery.Proofs.Rendezvous.Errands

/-!
# Where slots and values come from

A slot is filed under one id, when it is made, and every task that comes to it by an id comes by
that id (`Traced`). A value that is in a slot was put in by a task, and nothing was put in or taken
out since; so whoever has a value took it out of the slot into which another task had put it
(`Sourced`).
-/

namespace AmqpDelivery.Rendezvous

variable {α : Type}

/-- The task will put a value into the slot, or waits for one there. -/
def Stage.Aims (p : SlotId) : Stage α → Prop
  | .storing q _ => q = p
  | .listening w | .checking w | .parked w => w.slot = p
  | _ => False

/-- The id that the next section of a task looks up. -/
def Stage.looksUp? : Stage α → Option UInt64
  | .ready (.get id _) | .ready (.push id _) | .ready (.wait id _) | .ready (.request id _)
  | .seeking id _ => some id
  | .ready (.route id? _) => id?
  | _ => none

/-- What an act of the task `t` can note. -/
inductive Noted (s : State α) (t : TaskId) (x : Stage α) (next : State α) (y : Stage α) :
    Note α → Prop
  | found {id : UInt64} {p : SlotId} (hid : x.looksUp? = some id) (hclosed : s.closed = false)
      (hfind : s.find? id = some p) (hindex : next.index = s.index) (hmade : next.made = s.made) :
      Noted s t x next y (.located t id p)
  | opened {id : UInt64} (hid : x.looksUp? = some id) (hclosed : s.closed = false)
      (hfind : s.find? id = none) (hindex : next.index = (id, s.made) :: s.index)
      (hmade : next.made = s.made + 1) : Noted s t x next y (.located t id s.made)
  | stored {p : SlotId} {value : α} (hx : x = .storing p value) :
      Noted s t x next y (.stored t p value)
  | taken {p : SlotId} {value : α} (hx : x.Aims p) : Noted s t x next y (.taken t p value)
  | ended {outcome : Outcome α} (hy : y = .finished outcome) : Noted s t x next y (.ended t outcome)

/-- The last that happened to the value of the slot is that the task `u` put it in. -/
def Lies (h : List (Note α)) (u : TaskId) (p : SlotId) (value : α) : Prop :=
  ∃ before mid, h = before ++ .stored u p value :: mid ∧ storedIn p mid = [] ∧ takenFrom p mid = []

/-- The task `t` took a value out of the slot, and the last that had happened to it is that the task
`u` put it in. -/
def Passed (h : List (Note α)) (u t : TaskId) (p : SlotId) (value : α) : Prop :=
  ∃ before mid after, h = before ++ .stored u p value :: (mid ++ .taken t p value :: after) ∧
    storedIn p mid = [] ∧ takenFrom p mid = []

section Notes

variable {h k : List (Note α)} {u t : TaskId} {p : SlotId} {value : α}

theorem Lies.append (hl : Lies h u p value) (hstored : storedIn p k = [])
    (htaken : takenFrom p k = []) : Lies (h ++ k) u p value := by
  obtain ⟨before, mid, rfl, hin, hout⟩ := hl
  refine ⟨before, mid ++ k, by simp, ?_, ?_⟩
  · rw [storedIn_append, hin, hstored, List.nil_append]
  · rw [takenFrom_append, hout, htaken, List.nil_append]

theorem Passed.append (hp : Passed h u t p value) (k : List (Note α)) :
    Passed (h ++ k) u t p value := by
  obtain ⟨before, mid, after, rfl, hin, hout⟩ := hp
  exact ⟨before, mid, after ++ k, by simp, hin, hout⟩

/-- Whoever takes a value out that lies in a slot has it from the task that put it in. -/
theorem Lies.taken (hl : Lies h u p value) (t : TaskId) (k : List (Note α)) :
    Passed (h ++ .taken t p value :: k) u t p value := by
  obtain ⟨before, mid, rfl, hin, hout⟩ := hl
  exact ⟨before, mid, k, by simp, hin, hout⟩

theorem Passed.mem_stored (hp : Passed h u t p value) : .stored u p value ∈ h := by
  obtain ⟨before, mid, after, rfl, -⟩ := hp
  simp

theorem Passed.mem_taken (hp : Passed h u t p value) : .taken t p value ∈ h := by
  obtain ⟨before, mid, after, rfl, -⟩ := hp
  simp

end Notes

section Acts

variable {s next : State α} {p : SlotId} {e : Event α} {t u : TaskId} {x y : Stage α}
  {notes : List (Note α)} {call : Call α} {id : UInt64} {value : α}

theorem Stage.Hits.looksUp {now : Nat} (h : Stage.Hits now id p x y) : x.looksUp? = some id := by
  cases h <;> rfl

theorem Stage.Opens.looksUp (h : Stage.Opens id p x y) : x.looksUp? = some id := by
  cases h <;> rfl

theorem Stage.Suits.looksUp (hx : x.Suits call) (hid : x.looksUp? = some id) :
    call.id? = some id := by
  cases x with
  | ready own =>
      cases hx
      cases call <;> first | exact hid | cases hid
  | seeking own ms =>
      obtain ⟨more, rfl⟩ := hx
      exact hid
  | _ => cases hid

theorem Stage.mem_endNotes {n : Note α} (h : n ∈ y.endNotes t) :
    ∃ outcome, n = .ended t outcome ∧ y = .finished outcome := by
  cases y with
  | finished outcome => exact ⟨outcome, List.mem_singleton.mp h, rfl⟩
  | _ => cases h

/-- What a turn notes but for the end of its task. -/
theorem Turn.noted {q q' : Slot α} {own : List (Note α)} (h : Turn p q e t x y q' own) {n : Note α}
    (hn : n ∈ own) :
    (∃ value, n = .stored t p value ∧ x = .storing p value) ∨
      ∃ value, n = .taken t p value ∧ x.Aims p := by
  cases h with
  | @store value he hclosed hvalue => exact Or.inl ⟨value, List.mem_singleton.mp hn, rfl⟩
  | @take w value he hw hclosed hvalue => exact Or.inr ⟨value, List.mem_singleton.mp hn, hw⟩
  | _ => cases hn

/-- Every note of an act is one of these. -/
theorem Act.noted (h : Act s e t x y next notes) {n : Note α} (hn : n ∈ notes) :
    Noted s t x next y n := by
  have hended : n ∈ y.endNotes t → Noted s t x next y n := by
    intro hin
    obtain ⟨outcome, rfl, hy⟩ := Stage.mem_endNotes hin
    exact .ended hy
  cases h with
  | pass h => exact hended hn
  | hit he hclosed hfind h =>
      rcases List.mem_cons.mp hn with rfl | hin
      · exact .found h.looksUp hclosed hfind rfl rfl
      · exact hended hin
  | miss he hfind h => exact hended hn
  | opens he hclosed hfind h =>
      rcases List.mem_cons.mp hn with rfl | hin
      · exact .opened h.looksUp hclosed hfind rfl rfl
      · exact hended hin
  | makes he => exact hended hn
  | removes he h => exact hended hn
  | clears he => cases hn
  | turns h =>
      rcases List.mem_append.mp hn with hin | hin
      · rcases h.noted hin with ⟨value, rfl, hx⟩ | ⟨value, rfl, hx⟩
        · exact .stored hx
        · exact .taken hx
      · exact hended hin

/-- An act notes one slot at most, under the id that its task looks up. -/
theorem Act.located_unique {v : TaskId} {q : SlotId} {other : UInt64}
    (h : Act s e t x y next notes) (hin : .located u id p ∈ notes)
    (hin' : .located v other q ∈ notes) : id = other ∧ p = q := by
  cases h.noted hin with
  | found hid hclosed hfind hindex hmade =>
      cases h.noted hin' with
      | found hid' hclosed' hfind' hindex' hmade' =>
          cases hid.symm.trans hid'
          exact ⟨rfl, Option.some.inj (hfind.symm.trans hfind')⟩
      | opened hid' hclosed' hfind' hindex' hmade' =>
          cases hid.symm.trans hid'
          cases hfind.symm.trans hfind'
  | opened hid hclosed hfind hindex hmade =>
      cases h.noted hin' with
      | found hid' hclosed' hfind' hindex' hmade' =>
          cases hid.symm.trans hid'
          cases hfind.symm.trans hfind'
      | opened hid' hclosed' hfind' hindex' hmade' =>
          cases hid.symm.trans hid'
          exact ⟨rfl, rfl⟩

/-- What is filed after an act was filed before, or the act notes it. -/
theorem Act.files_noted (h : Act s e t x y next notes) (hin : (id, p) ∈ next.index) :
    (id, p) ∈ s.index ∨ .located t id p ∈ notes := by
  cases h with
  | opens he hclosed hfind h =>
      rcases List.mem_cons.mp hin with heq | hold
      · cases heq
        exact Or.inr List.mem_cons_self
      · exact Or.inl hold
  | removes he h => exact Or.inl (List.mem_filter.mp hin).1
  | clears he => cases hin
  | _ => exact Or.inl hin

/-- A task that is about an id learns of a slot by that id. -/
theorem Act.holds_by_id (h : Act s e t x y next notes) (hx : x.Suits call)
    (hid : call.id? = some id) (hy : y.Holds p) : x.Holds p ∨ (id, p) ∈ s.index := by
  cases h with
  | pass h =>
      cases h with
      | slotPush q value he =>
          cases hx
          cases hid
      | slotPop q he =>
          cases hx
          cases hid
      | slotClose q he =>
          cases hx
          cases hid
      | _ => exact hy.elim
  | @hit x y own slot he hclosed hfind h =>
      have hfiled := mem_index_of_find? hfind
      cases h with
      | push value | route value | wait timeoutMs =>
          cases hx
          cases hid
          exact Or.inr (hy ▸ hfiled)
      | seek ms =>
          obtain ⟨more, rfl⟩ := hx
          cases hid
          exact Or.inr (hy ▸ hfiled)
      | _ => exact hy.elim
  | miss he hfind h => cases h <;> exact hy.elim
  | opens he hclosed hfind h => cases h <;> exact hy.elim
  | makes he => exact hy.elim
  | removes he h =>
      cases h with
      | close =>
          cases hx
          cases hid
          exact Or.inr (mem_index_of_find? (Option.mem_toList.mp hy))
      | overdue caller => exact absurd hy (caller.not_holds _)
      | _ => exact hy.elim
  | clears he =>
      cases hx
      cases hid
  | turns h => exact Or.inl (h.holds hy)

theorem Caller.not_aims (caller : Caller) (result : Except Failure α) :
    ¬ (caller.resolved result).Aims p := by
  cases caller <;> exact id

/-- A task that is about an id and comes to put a value into a slot, or to wait for one there, has
found the slot under the id. -/
theorem Act.aims_by_id (h : Act s e t x y next notes) (hx : x.Suits call)
    (hid : call.id? = some id) (hy : y.Aims p) : x.Aims p ∨ .located t id p ∈ notes := by
  cases h with
  | pass h =>
      cases h with
      | slotPush q value he =>
          cases hx
          cases hid
      | slotPop q he =>
          cases hx
          cases hid
      | _ => exact hy.elim
  | @hit x y own slot he hclosed hfind h =>
      cases h with
      | push value | route value | wait timeoutMs =>
          cases hx
          cases hid
          exact Or.inr (hy ▸ List.mem_cons_self)
      | seek ms =>
          obtain ⟨more, rfl⟩ := hx
          cases hid
          exact Or.inr (hy ▸ List.mem_cons_self)
      | _ => exact hy.elim
  | miss he hfind h => cases h <;> exact hy.elim
  | opens he hclosed hfind h => cases h <;> exact hy.elim
  | makes he => exact hy.elim
  | removes he h =>
      cases h with
      | overdue caller => exact absurd hy (caller.not_aims _)
      | _ => exact hy.elim
  | clears he => exact hy.elim
  | turns h =>
      left
      cases h with
      | register he hw => exact hy
      | park he hw hclosed hvalue => exact hy
      | wake he hw hwoken => exact hy
      | take he hw hclosed hvalue => exact absurd hy (Caller.not_aims _ _)
      | late he hw hclosed => exact absurd hy (Caller.not_aims _ _)
      | _ => exact hy.elim

/-- No id is filed twice. -/
theorem Act.keys_nodup (h : Act s e t x y next notes) (hs : (s.index.map Prod.fst).Nodup) :
    (next.index.map Prod.fst).Nodup := by
  cases h with
  | opens he hclosed hfind h =>
      refine List.nodup_cons.mpr ⟨?_, hs⟩
      intro hin
      obtain ⟨⟨i, q⟩, hmem, rfl⟩ := List.mem_map.mp hin
      have hnone := List.lookup_eq_none_iff.mp hfind (i, q) hmem
      simp at hnone
  | removes he h => exact hs.sublist (List.filter_sublist.map Prod.fst)
  | clears he => exact List.nodup_nil
  | _ => exact hs

/-- A task that comes to a value takes it out of the slot where it waits. -/
theorem Act.brings_value (h : Act s e t x y next notes) (hy : y.Brings (.ok value)) :
    x.Brings (.ok value) ∨ ∃ p rest, x.Aims p ∧ (s.slots p).value = some value ∧
      notes = .taken t p value :: rest := by
  cases h with
  | pass h =>
      cases h with
      | unpublished id ms f he => cases hy
      | declined he => cases hy
      | _ => exact hy.elim
  | hit he hclosed hfind h => cases h <;> exact hy.elim
  | miss he hfind h => cases h <;> first | exact hy.elim | cases hy
  | opens he hclosed hfind h => cases h <;> exact hy.elim
  | makes he => exact hy.elim
  | removes he h =>
      cases h with
      | overdue caller =>
          cases caller <;> cases hy
      | leave result => exact Or.inl hy
      | _ => exact hy.elim
  | clears he => exact hy.elim
  | turns h =>
      cases h with
      | @take w v he hw hclosed hvalue =>
          right
          have hsame : v = value := by
            have hv : (w.caller.resolved (.ok v)).Brings (.ok value) := hy
            cases hcaller : w.caller <;> rw [hcaller] at hv <;> cases hv <;> rfl
          subst hsame
          exact ⟨_, _, hw, hvalue, rfl⟩
      | @late w he hw hclosed =>
          have hv : (w.caller.resolved (.error .closed)).Brings (.ok value) := hy
          cases hcaller : w.caller <;> rw [hcaller] at hv <;> cases hv
      | _ => exact hy.elim

/-- A task that was asked for the slot of an id and yields one has found or made it. -/
theorem Act.yields {create : Bool} (h : Act s e t x (.finished (.slot (some p))) next notes)
    (hx : x.Suits (.get id create)) : .located t id p ∈ notes := by
  generalize hy : Stage.finished (.slot (some p)) = y at h
  cases h with
  | pass h => cases h <;> cases hy
  | hit he hclosed hfind h =>
      cases h with
      | get create =>
          cases hx
          cases hy
          exact List.mem_cons_self
      | _ => cases hy
  | miss he hfind h => cases h <;> cases hy
  | opens he hclosed hfind h =>
      cases h with
      | get =>
          cases hx
          cases hy
          exact List.mem_cons_self
      | _ => cases hy
  | makes he => cases hx
  | removes he h =>
      cases h with
      | remove => cases hx
      | overdue caller => cases Caller.finished_resolved hy
      | _ => cases hy
  | clears he => cases hy
  | turns h =>
      cases h with
      | take he hw hclosed hvalue => cases Caller.finished_resolved hy
      | late he hw hclosed => cases Caller.finished_resolved hy
      | _ => cases hy

theorem Stage.Aims.holds (hx : x.Aims p) : x.Holds p := by
  cases x <;> first | exact hx | exact hx.elim

end Acts

/-! ## Steps and runs -/

namespace State

variable {s : State α} {e : Event α} {p : SlotId} {id : UInt64}

/-- Every note on a step is one of an act. -/
theorem noted {n : Note α} (hn : n ∈ s.notes e) : ∃ t x y, e.task? = some t ∧
    s.tasks t = some x ∧ (s.step e).tasks t = some y ∧ Noted s t x (s.step e) y n := by
  have hchange := s.step_change e
  generalize s.step e = next, s.notes e = notes at hchange hn
  cases hchange with
  | rests now hblocked hbegun => cases hn
  | begins he ht => cases hn
  | @acts t x y next notes he ht h =>
      exact ⟨t, x, y, he, ht, by rw [h.tasks, assign_self], h.noted hn⟩

theorem files_noted (hin : (id, p) ∈ (s.step e).index) :
    (id, p) ∈ s.index ∨ ∃ t, .located t id p ∈ s.notes e := by
  have hchange := s.step_change e
  generalize s.step e = next, s.notes e = notes at hchange hin ⊢
  cases hchange with
  | rests now hblocked hbegun => exact Or.inl hin
  | begins he ht => exact Or.inl hin
  | @acts t x y next notes he ht h => exact (h.files_noted hin).imp_right fun hnow => ⟨t, hnow⟩

theorem located_unique {u v : TaskId} {other : UInt64} {q : SlotId}
    (hin : .located u id p ∈ s.notes e) (hin' : .located v other q ∈ s.notes e) :
    id = other ∧ p = q := by
  have hchange := s.step_change e
  generalize s.step e = next, s.notes e = notes at hchange hin hin'
  cases hchange with
  | rests now hblocked hbegun => cases hin
  | begins he ht => cases hin
  | acts he ht h => exact h.located_unique hin hin'

/-- No id is filed twice. -/
theorem run_keys_nodup (es : List (Event α)) : ((empty.run es).index.map Prod.fst).Nodup := by
  induction es using List.reverseRecOn with
  | nil => exact List.nodup_nil
  | append_singleton es e ih =>
      rw [run_concat]
      have hchange := (empty.run es).step_change e
      generalize (empty.run es).step e = next, (empty.run es).notes e = notes at hchange ⊢
      cases hchange with
      | rests now hblocked hbegun => exact ih
      | begins he ht => exact ih
      | acts he ht h => exact h.keys_nodup ih

theorem history_concat (s : State α) (es : List (Event α)) (e : Event α) :
    s.history (es ++ [e]) = s.history es ++ (s.run es).notes e := by
  rw [history_append, history, history, List.append_nil]

end State

/-- What the history of a run tells of the slots and of the tasks that come to them by an id. -/
structure Traced (es : List (Event α)) : Prop where
  filed : ∀ id p, (id, p) ∈ (State.empty.run es).index →
    ∃ u, .located u id p ∈ State.empty.history es
  made : ∀ u id p, .located u id p ∈ State.empty.history es → p < (State.empty.run es).made
  /-- No slot is found under two ids. -/
  label : ∀ u v id other p, .located u id p ∈ State.empty.history es →
    .located v other p ∈ State.empty.history es → id = other
  held : ∀ t x call id p, (State.empty.run es).tasks t = some x → callOf t es = some call →
    call.id? = some id → x.Holds p → ∃ u, .located u id p ∈ State.empty.history es
  aimed : ∀ t x call id p, (State.empty.run es).tasks t = some x → callOf t es = some call →
    call.id? = some id → x.Aims p → .located t id p ∈ State.empty.history es
  stored : ∀ u p value, .stored u p value ∈ State.empty.history es →
    ∃ call, callOf u es = some call ∧ call.value? = some value ∧
      ∀ id, call.id? = some id → .located u id p ∈ State.empty.history es
  taken : ∀ t p value, .taken t p value ∈ State.empty.history es →
    ∃ call, callOf t es = some call ∧
      ∀ id, call.id? = some id → .located t id p ∈ State.empty.history es

/-- The values in the slots and with the tasks have come from where the history tells. -/
structure Sourced (s : State α) (h : List (Note α)) : Prop where
  lies : ∀ p value, p < s.made → (s.slots p).value = some value → ∃ u, Lies h u p value
  brought : ∀ t x value, s.tasks t = some x → x.Brings (.ok value) → ∃ u p, Passed h u t p value

section Runs

variable {es : List (Event α)} {e : Event α} {t u v : TaskId} {p : SlotId} {id other : UInt64}
  {x : Stage α} {call : Call α} {value : α}

theorem Traced.of_noted (h : Traced es) (hin : .located u id p ∈ (State.empty.run es).notes e) :
    (∃ w, .located w id p ∈ State.empty.history es) ∨ p = (State.empty.run es).made := by
  obtain ⟨t, x, y, -, -, -, hnoted⟩ := State.noted hin
  cases hnoted with
  | found hid hclosed hfind hindex hmade => exact Or.inl (h.filed id p (mem_index_of_find? hfind))
  | opened hid hclosed hfind hindex hmade => exact Or.inr rfl

/-- A task that moves in the last event of a run, and what it was asked. -/
theorem State.noted_asked {n : Note α} (hn : n ∈ (empty.run es).notes e) : ∃ t x y call,
    callOf t es = some call ∧ (empty.run es).tasks t = some x ∧ x.Suits call ∧
      Noted (empty.run es) t x ((empty.run es).step e) y n := by
  obtain ⟨t, x, y, -, ht, -, hnoted⟩ := noted hn
  have hthere : (empty.run es).tasks t ≠ none := by simp [ht]
  obtain ⟨call, hcall⟩ := run_called hthere
  exact ⟨t, x, y, call, hcall, ht, run_suits hcall ht, hnoted⟩

theorem State.mem_history_concat {n : Note α} :
    n ∈ empty.history (es ++ [e]) ↔ n ∈ empty.history es ∨ n ∈ (empty.run es).notes e := by
  rw [history_concat, List.mem_append]

theorem Traced.filed_concat (h : Traced es) (hin : (id, p) ∈ (State.empty.run (es ++ [e])).index) :
    ∃ u, .located u id p ∈ State.empty.history (es ++ [e]) := by
  rw [State.run_concat] at hin
  rcases State.files_noted hin with hold | ⟨u, hnew⟩
  · obtain ⟨u, hu⟩ := h.filed id p hold
    exact ⟨u, State.mem_history_concat.mpr (Or.inl hu)⟩
  · exact ⟨u, State.mem_history_concat.mpr (Or.inr hnew)⟩

theorem Traced.made_concat (h : Traced es)
    (hin : .located u id p ∈ State.empty.history (es ++ [e])) :
    p < (State.empty.run (es ++ [e])).made := by
  rw [State.run_concat]
  have hmade := (State.empty.run es).made_le_step e
  rcases State.mem_history_concat.mp hin with hold | hnew
  · exact Nat.lt_of_lt_of_le (h.made u id p hold) hmade
  · obtain ⟨t, x, y, -, -, -, hnoted⟩ := State.noted hnew
    cases hnoted with
    | found hid hclosed hfind hindex hmade' =>
        obtain ⟨w, hw⟩ := h.filed id p (mem_index_of_find? hfind)
        exact Nat.lt_of_lt_of_le (h.made w id p hw) hmade
    | opened hid hclosed hfind hindex hmade' =>
        rw [hmade']
        exact Nat.lt_succ_self _

/-- No slot comes to be found under two ids. -/
theorem Traced.label_concat (h : Traced es)
    (hin : .located u id p ∈ State.empty.history (es ++ [e]))
    (hin' : .located v other p ∈ State.empty.history (es ++ [e])) : id = other := by
  -- a slot that was found before is not made anew
  have hmixed : ∀ {u v : TaskId} {id other : UInt64}, .located u id p ∈ State.empty.history es →
      .located v other p ∈ (State.empty.run es).notes e → id = other := by
    intro u v id other hold hnew
    rcases h.of_noted hnew with ⟨w, hw⟩ | rfl
    · exact h.label u w id other p hold hw
    · exact absurd (h.made u id _ hold) (Nat.lt_irrefl _)
  rcases State.mem_history_concat.mp hin with hold | hnew
  · rcases State.mem_history_concat.mp hin' with hold' | hnew'
    · exact h.label u v id other p hold hold'
    · exact hmixed hold hnew'
  · rcases State.mem_history_concat.mp hin' with hold' | hnew'
    · exact (hmixed hold' hnew).symm
    · exact (State.located_unique hnew hnew').1

/-- A task that is about an id comes to hold slots of that id only. -/
theorem Traced.held_concat (h : Traced es) (ht : (State.empty.run (es ++ [e])).tasks t = some x)
    (hcall : callOf t (es ++ [e]) = some call) (hid : call.id? = some id) (hx : x.Holds p) :
    ∃ u, .located u id p ∈ State.empty.history (es ++ [e]) := by
  have hbefore : ∃ u, .located u id p ∈ State.empty.history es := by
    rcases State.run_moved hcall ht with rfl | ⟨z, hold, hasked, rfl | ⟨-, hact⟩⟩
    · cases (Call.slot_of_id hid).symm.trans hx
    · exact h.held t x call id p hold hasked hid hx
    · rcases hact.holds_by_id (State.run_suits hasked hold) hid hx with hheld | hfiled
      · exact h.held t z call id p hold hasked hid hheld
      · exact h.filed id p hfiled
  obtain ⟨u, hu⟩ := hbefore
  exact ⟨u, State.mem_history_concat.mpr (Or.inl hu)⟩

/-- A task that is about an id and aims at a slot has found it itself. -/
theorem Traced.aimed_concat (h : Traced es) (ht : (State.empty.run (es ++ [e])).tasks t = some x)
    (hcall : callOf t (es ++ [e]) = some call) (hid : call.id? = some id) (hx : x.Aims p) :
    .located t id p ∈ State.empty.history (es ++ [e]) := by
  apply State.mem_history_concat.mpr
  rcases State.run_moved hcall ht with rfl | ⟨z, hold, hasked, rfl | ⟨-, hact⟩⟩
  · exact hx.elim
  · exact Or.inl (h.aimed t x call id p hold hasked hid hx)
  · exact (hact.aims_by_id (State.run_suits hasked hold) hid hx).imp_left
      (h.aimed t z call id p hold hasked hid)

theorem Traced.stored_concat (h : Traced es)
    (hin : .stored u p value ∈ State.empty.history (es ++ [e])) :
    ∃ call, callOf u (es ++ [e]) = some call ∧ call.value? = some value ∧
      ∀ id, call.id? = some id → .located u id p ∈ State.empty.history (es ++ [e]) := by
  have hgrow : ∀ n, n ∈ State.empty.history es → n ∈ State.empty.history (es ++ [e]) :=
    fun n hn => State.mem_history_concat.mpr (Or.inl hn)
  rcases State.mem_history_concat.mp hin with hold | hnew
  · obtain ⟨call, hcall, hvalue, hlocated⟩ := h.stored u p value hold
    exact ⟨call, callOf_append hcall _, hvalue, fun id hid => hgrow _ (hlocated id hid)⟩
  · obtain ⟨t, x, y, call, hcall, ht, hx, hnoted⟩ := State.noted_asked hnew
    cases hnoted with
    | stored hstage =>
        subst hstage
        refine ⟨call, callOf_append hcall _, hx, fun id hid => hgrow _ ?_⟩
        exact h.aimed u _ call id p ht hcall hid rfl

theorem Traced.taken_concat (h : Traced es)
    (hin : .taken t p value ∈ State.empty.history (es ++ [e])) :
    ∃ call, callOf t (es ++ [e]) = some call ∧
      ∀ id, call.id? = some id → .located t id p ∈ State.empty.history (es ++ [e]) := by
  have hgrow : ∀ n, n ∈ State.empty.history es → n ∈ State.empty.history (es ++ [e]) :=
    fun n hn => State.mem_history_concat.mpr (Or.inl hn)
  rcases State.mem_history_concat.mp hin with hold | hnew
  · obtain ⟨call, hcall, hlocated⟩ := h.taken t p value hold
    exact ⟨call, callOf_append hcall _, fun id hid => hgrow _ (hlocated id hid)⟩
  · obtain ⟨u, x, y, call, hcall, ht, hx, hnoted⟩ := State.noted_asked hnew
    cases hnoted with
    | taken haims =>
        refine ⟨call, callOf_append hcall _, fun id hid => hgrow _ ?_⟩
        exact h.aimed t x call id p ht hcall hid haims

theorem run_traced (es : List (Event α)) : Traced es := by
  induction es using List.reverseRecOn with
  | nil =>
      constructor
      · rintro id p ⟨⟩
      · rintro u id p ⟨⟩
      · rintro u v id other p ⟨⟩
      · rintro t x call id p ⟨⟩
      · rintro t x call id p ⟨⟩
      · rintro u p value ⟨⟩
      · rintro t p value ⟨⟩
  | append_singleton es e ih =>
      exact
        { filed := fun id p hin => ih.filed_concat hin
          made := fun u id p hin => ih.made_concat hin
          label := fun u v id other p hin hin' => ih.label_concat hin hin'
          held := fun t x call id p ht hcall hid hx => ih.held_concat ht hcall hid hx
          aimed := fun t x call id p ht hcall hid hx => ih.aimed_concat ht hcall hid hx
          stored := fun u p value hin => ih.stored_concat hin
          taken := fun t p value hin => ih.taken_concat hin }

end Runs

section Values

variable {s : State α} {h : List (Note α)} {e : Event α} {p : SlotId} {value : α}

/-- A slot that a step makes is empty. -/
theorem State.value_of_new (hold : ¬ p < s.made) (hmade : p < (s.step e).made) :
    ((s.step e).slots p).value = none := by
  have hchange := s.step_change e
  generalize s.step e = next, s.notes e = notes at hchange hmade ⊢
  have hlast : p < s.made + 1 → p = s.made := fun h => Nat.eq_of_lt_succ_of_not_lt h hold
  cases hchange with
  | rests now hblocked hbegun => exact absurd hmade hold
  | begins he ht => exact absurd hmade hold
  | acts he ht h =>
      cases h with
      | opens he' hclosed hfind h =>
          rw [hlast hmade]
          exact congrArg Slot.value (assign_self _ _ _)
      | makes he' =>
          rw [hlast hmade]
          exact congrArg Slot.value (assign_self _ _ _)
      | _ => exact absurd hmade hold

/-- What lies in a slot that was made before was put in by this step, or lay there already. -/
theorem Sourced.lies_step (hs : Sourced s h) (hmade : p < s.made)
    (hvalue : ((s.step e).slots p).value = some value) :
    ∃ u, Lies (h ++ s.notes e) u p value := by
  have hkeep : (s.slots p).value = some value → storedIn p (s.notes e) = [] →
      takenFrom p (s.notes e) = [] → ∃ u, Lies (h ++ s.notes e) u p value := by
    intro hsame hstored htaken
    obtain ⟨u, hu⟩ := hs.lies p value hmade hsame
    exact ⟨u, hu.append hstored htaken⟩
  have hview := s.step_view e hmade
  generalize s.step e = next, s.notes e = notes at hview hvalue hkeep ⊢
  cases hview with
  | rests hblocked hslot htasks hnotes =>
      rw [hslot] at hvalue
      rw [hnotes] at hkeep ⊢
      exact hkeep hvalue rfl rfl
  | begins he ht hslot htasks hnotes =>
      rw [hslot] at hvalue
      rw [hnotes] at hkeep ⊢
      exact hkeep hvalue rfl rfl
  | away he ht hx hact hslot htasks =>
      rw [hslot] at hvalue
      obtain ⟨hstored, htaken⟩ := hact.moved_away hx
      exact hkeep hvalue hstored htaken
  | @turns t x y q own he ht hturn hslot htasks hnotes =>
      rw [hslot] at hvalue
      obtain ⟨hstored, htaken⟩ := moved_endNotes p t y
      rw [hnotes] at hkeep ⊢
      cases hturn with
      | @store stored he' hclosed hempty =>
          cases hvalue
          exact ⟨t, h, _, rfl, hstored, htaken⟩
      | take he' hw hclosed hfull => cases hvalue
      | _ => exact hkeep hvalue hstored htaken

/-- Every step keeps track of the values. -/
theorem Sourced.step (hs : Sourced s h) (hsound : s.Sound) (e : Event α) :
    Sourced (s.step e) (h ++ s.notes e) := by
  constructor
  · intro p value hmade hvalue
    by_cases hold : p < s.made
    · exact hs.lies_step hold hvalue
    · rw [State.value_of_new hold hmade] at hvalue
      cases hvalue
  · intro t y value ht hy
    cases hbefore : s.tasks t with
    | none =>
        rw [State.step_unbegun hbefore] at ht
        obtain ⟨call, -, rfl⟩ := Option.map_eq_some_iff.mp ht
        exact hy.elim
    | some x =>
        have hkeep : x.Brings (.ok value) → ∃ u p, Passed (h ++ s.notes e) u t p value := by
          intro hx
          obtain ⟨u, p, hpassed⟩ := hs.brought t x value hbefore hx
          exact ⟨u, p, hpassed.append _⟩
        rcases State.step_task hbefore e with hstay | ⟨z, he, hz, hact⟩
        · cases hstay.symm.trans ht
          exact hkeep hy
        · cases hz.symm.trans ht
          rcases hact.brings_value hy with hx | ⟨p, rest, haims, hvalue, hnotes⟩
          · exact hkeep hx
          · have hmade : p < s.made := hsound.held t x p hbefore haims.holds
            obtain ⟨u, hlies⟩ := hs.lies p value hmade hvalue
            rw [hnotes]
            exact ⟨u, p, hlies.taken t rest⟩

theorem run_sourced {es : List (Event α)} (hnames : (State.empty : State α).Names es) :
    Sourced (State.empty.run es) (State.empty.history es) := by
  induction es using List.reverseRecOn with
  | nil =>
      constructor
      · intro p value hmade
        exact absurd hmade (Nat.not_lt_zero p)
      · rintro t x value ⟨⟩
  | append_singleton es e ih =>
      rw [State.run_concat, State.history_concat]
      exact (ih hnames.before).step hnames.before.reachable.sound e

end Values

end AmqpDelivery.Rendezvous
