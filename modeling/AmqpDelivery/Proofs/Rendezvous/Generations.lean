import AmqpDelivery.Proofs.Rendezvous.Closing
import AmqpDelivery.Proofs.Rendezvous.Traces

/-!
# Slots of different generations

An id that is removed may be filed again, with another slot. Until it is removed everybody finds the
same slot under it (`State.keeps_find`), what is done by one id touches no slot of another
(`State.other_id_kept`), and a slot that is filed no more is never found again
(`State.not_located_again`). So a value is received only from the slot into which it was put, by
whoever found that very slot. Closing everything is final: it closes all that was filed, and refuses
whatever comes later (`State.late_refused`, `State.run_sweeps`).
-/

namespace AmqpDelivery.Rendezvous

variable {α : Type}

/-- The task closes slots, or has closed them all. -/
def Stage.Sweeps : Stage α → Prop
  | .shutting _ | .rousing _ _ | .finished .done => True
  | _ => False

/-- How many sections a task that closes slots still passes. -/
def Stage.toSweep : Stage α → Nat
  | .shutting slots => 2 * slots.length + 1
  | .rousing _ rest => 2 * rest.length + 2
  | _ => 0

/-- The next section of the task takes the id out of the file. -/
def Stage.removes (id : UInt64) : Stage α → Bool
  | .ready (.close own) | .ready (.remove own) | .overdue own _ | .leaving own _ => own = id
  | .ready .closeAll => true
  | _ => false

namespace State

/-- The event is a section that takes the id out of the file. -/
def removes (s : State α) (id : UInt64) : Event α → Bool
  | .proceed t => (s.tasks t).any (Stage.removes id)
  | _ => false

/-- In the run from the state nobody takes the id out of the file. -/
def keeps (s : State α) (id : UInt64) : List (Event α) → Bool
  | [] => true
  | e :: rest => !s.removes id e && (s.step e).keeps id rest

end State

/-! ## Everything is closed -/

section Closed

variable {s next : State α} {p : SlotId} {e : Event α} {t : TaskId} {x y : Stage α}
  {notes : List (Note α)} {call : Call α} {outcome : Outcome α} {id : UInt64}
  {es later : List (Event α)}

/-- A task that closes slots acts in its own sections only. -/
theorem Act.eq_proceed (h : Act s e t x y next notes) (hx : x.Sweeps) : e = .proceed t := by
  cases h with
  | pass h =>
      cases h with
      | allShut he => exact he
      | _ => exact hx.elim
  | hit he hclosed hfind h => exact he
  | miss he hfind h => exact he
  | opens he hclosed hfind h => exact he
  | makes he => exact he
  | removes he h => exact he
  | clears he => exact he
  | turns h =>
      cases h with
      | shut he => exact he
      | rouse he => exact he
      | _ => exact hx.elim

theorem Event.goesOn_iff : e.goesOn t = true ↔ e = .proceed t := by
  cases e <;> simp [goesOn]

namespace State

/-- Nothing is filed once everything is closed. -/
theorem run_emptied (es : List (Event α)) (hclosed : (empty.run es).closed = true) :
    (empty.run es).index = [] := by
  induction es using List.reverseRecOn with
  | nil => cases hclosed
  | append_singleton es e ih =>
      rw [run_concat] at hclosed ⊢
      have hchange := (empty.run es).step_change e
      generalize (empty.run es).step e = next, (empty.run es).notes e = notes at hchange hclosed ⊢
      cases hchange with
      | rests now hblocked hbegun => exact ih hclosed
      | begins he ht => exact ih hclosed
      | acts he ht h => exact h.emptied ih hclosed

/-- A task that closes slots goes on only by itself, and comes one section nearer to its end. -/
theorem sweeps_step (ht : s.tasks t = some x) (hx : x.Sweeps) (e : Event α) :
    ∃ y, (s.step e).tasks t = some y ∧ y.Sweeps ∧
      y.toSweep = x.toSweep - if e.goesOn t then 1 else 0 := by
  by_cases hgo : e = .proceed t
  · subst hgo
    rw [step_proceed ht]
    cases x with
    | shutting slots =>
        cases slots with
        | nil =>
            refine ⟨.finished .done, assign_self .., trivial, ?_⟩
            simp [Stage.toSweep, Event.goesOn]
        | cons p rest =>
            refine ⟨.rousing p rest, assign_self .., trivial, ?_⟩
            simp only [Stage.toSweep, Event.goesOn, List.length_cons, decide_true, if_true]
            omega
    | rousing p rest =>
        exact ⟨.shutting rest, assign_self .., trivial, by simp [Stage.toSweep, Event.goesOn]⟩
    | finished outcome => exact ⟨.finished outcome, ht, hx, (Nat.zero_sub _).symm⟩
    | _ => exact hx.elim
  · have hquiet : e.goesOn t = false := Bool.eq_false_iff.mpr (mt Event.goesOn_iff.mp hgo)
    rw [hquiet]
    rcases step_task ht e with hstay | ⟨y, -, -, hact⟩
    · exact ⟨x, hstay, hx, rfl⟩
    · exact absurd (hact.eq_proceed hx) hgo

/-- The slots that a task has before it are closed or it will close them. -/
def Shuts (s : State α) (x : Stage α) (p : SlotId) : Prop :=
  p < s.made ∧ ((s.slots p).closed = true ∨ x.ToShut p)

theorem Shuts.step (hshuts : s.Shuts x p) (ht : s.tasks t = some x) (e : Event α)
    (hy : (s.step e).tasks t = some y) : (s.step e).Shuts y p := by
  obtain ⟨hmade, hclosed | hwill⟩ := hshuts
  · exact ⟨Nat.lt_of_lt_of_le hmade (s.made_le_step e), Or.inl (closed_step hmade hclosed e)⟩
  · refine ⟨Nat.lt_of_lt_of_le hmade (s.made_le_step e), ?_⟩
    rcases step_task ht e with hstay | ⟨z, he, hz, hact⟩
    · cases hstay.symm.trans hy
      exact Or.inr hwill
    · cases hz.symm.trans hy
      exact (hact.shuts hwill).symm

/-- A task that closes slots comes to its end by its own sections, and by then has closed them. -/
theorem run_sweeps (ht : s.tasks t = some x) (hx : x.Sweeps) (later : List (Event α)) :
    ∃ y, (s.run later).tasks t = some y ∧ y.Sweeps ∧
      y.toSweep = x.toSweep - later.countP (Event.goesOn t) ∧
      ∀ p, s.Shuts x p → (s.run later).Shuts y p := by
  induction later generalizing s x with
  | nil => exact ⟨x, ht, hx, rfl, fun p hp => hp⟩
  | cons e later ih =>
      obtain ⟨y, hy, hsweeps, hcount⟩ := sweeps_step ht hx e
      obtain ⟨z, hz, hsweeps', hcount', hshuts⟩ := ih hy hsweeps
      refine ⟨z, hz, hsweeps', ?_, fun p hp => hshuts p (hp.step ht e hy)⟩
      rw [hcount', hcount, List.countP_cons, Nat.sub_sub, Nat.add_comm]

end State

theorem Stage.Sweeps.over (hx : x.Sweeps) (h : x.toSweep = 0) : x = .finished .done := by
  cases x with
  | shutting slots => simp [toSweep] at h
  | rousing q rest => simp [toSweep] at h
  | finished outcome => cases outcome <;> first | rfl | exact hx.elim
  | _ => exact hx.elim

namespace State

/-- A call that comes when everything is closed is refused, unless it is dropped before. -/
theorem late_answered (hclosed : (empty.run es).closed = true)
    (hcall : callOf t (es ++ later) = some call) (hrefusal : call.refusal? = some outcome)
    (hfirst : ∀ z, (empty.run es).tasks t = some z → z = .ready call) :
    (empty.run (es ++ later)).outcome? t = some outcome ∨
      (empty.run (es ++ later)).tasks t = some .dropped ∨
      (empty.run (es ++ later)).tasks t = some (.ready call) ∧
        ((empty.run (es ++ later)).step (.proceed t)).outcome? t = some outcome := by
  obtain ⟨x, ht⟩ := Option.ne_none_iff_exists'.mp (run_asked (s := empty) _ hcall)
  rcases late_refused hclosed hrefusal hfirst hcall ht with rfl | rfl | rfl
  · have hstill : (empty.run (es ++ later)).closed = true := by
      rw [run_append]
      exact closed_run hclosed later
    exact Or.inr (Or.inr ⟨ht, refused_proceed ht hstill hrefusal⟩)
  · exact Or.inr (Or.inl ht)
  · exact Or.inl (by simp [outcome?, ht])

theorem step_closeAll (hready : s.tasks t = some (.ready .closeAll)) :
    s.step (.proceed t) =
      { s with index := [], closed := true }.goto t (.shutting (s.index.map Prod.snd)) :=
  step_proceed hready

theorem closed_of_closeAll (hready : (empty.run es).tasks t = some (.ready .closeAll)) :
    (empty.run (es ++ [.proceed t])).closed = true := by
  rw [run_concat, step_closeAll hready]
  rfl

/-- A call that closes everything comes to its end by its own sections, and by then has closed what
was filed. -/
theorem run_closeAll (hready : (empty.run es).tasks t = some (.ready .closeAll))
    (later : List (Event α)) :
    ∃ y, (empty.run (es ++ .proceed t :: later)).tasks t = some y ∧ y.Sweeps ∧
      y.toSweep = 2 * (empty.run es).size + 1 - later.countP (Event.goesOn t) ∧
      ∀ id p, (empty.run es).find? id = some p →
        (empty.run (es ++ .proceed t :: later)).Shuts y p := by
  have hthere : ((empty.run es).step (.proceed t)).tasks t =
      some (.shutting ((empty.run es).index.map Prod.snd)) := by
    rw [step_closeAll hready]
    exact assign_self ..
  obtain ⟨y, hy, hsweeps, hcount, hshuts⟩ := run_sweeps hthere trivial later
  have hrun : empty.run (es ++ .proceed t :: later) =
      ((empty.run es).step (.proceed t)).run later := run_append ..
  rw [hrun]
  refine ⟨y, hy, hsweeps, ?_, fun id p hfind => hshuts p ⟨?_, Or.inr ?_⟩⟩
  · rw [hcount, Stage.toSweep, List.length_map, size]
  · obtain ⟨u, hu⟩ := (run_traced es).filed id p (mem_index_of_find? hfind)
    exact Nat.lt_of_lt_of_le ((run_traced es).made u id p hu) (made_le_step _ _)
  · exact List.mem_map.mpr ⟨(id, p), mem_index_of_find? hfind, rfl⟩

/-- When a call that closes everything has returned, what was filed is closed. -/
theorem closeAll_shuts (hready : (empty.run es).tasks t = some (.ready .closeAll))
    (hfind : (empty.run es).find? id = some p)
    (hreturned : (empty.run (es ++ .proceed t :: later)).outcome? t ≠ none) :
    ((empty.run (es ++ .proceed t :: later)).slots p).closed = true := by
  obtain ⟨y, hy, -, -, hshuts⟩ := run_closeAll hready later
  -- a task that has returned has nothing left to close
  refine (hshuts id p hfind).2.resolve_right fun hwill => ?_
  cases y with
  | finished outcome => exact hwill
  | _ => simp [outcome?, hy] at hreturned

theorem closeAll_returns (hready : (empty.run es).tasks t = some (.ready .closeAll))
    (later : List (Event α))
    (hmany : 2 * (empty.run es).size + 1 ≤ later.countP (Event.goesOn t)) :
    (empty.run (es ++ .proceed t :: later)).outcome? t = some .done := by
  obtain ⟨y, hy, hsweeps, hcount, -⟩ := run_closeAll hready later
  have hleft : y.toSweep = 0 := hcount.trans (Nat.sub_eq_zero_of_le hmany)
  rw [hsweeps.over hleft] at hy
  simp [outcome?, hy]

end State

end Closed

/-! ## One id and another -/

section Ids

variable {s next : State α} {p q : SlotId} {e : Event α} {t u v : TaskId} {x y : Stage α}
  {notes : List (Note α)} {call : Call α} {id other : UInt64} {es mid later : List (Event α)}

theorem Stage.holds_of_faces (hx : x.faces? = some p) : x.Holds p := by
  unfold faces? at hx
  split at hx <;> simp_all [Holds]

theorem Stage.Removes.id_of_suits {found : Option SlotId} (h : Stage.Removes id found x y)
    (hx : x.Suits call) : call.id? = some id := by
  cases h with
  | close =>
      cases hx
      rfl
  | remove =>
      cases hx
      rfl
  | overdue caller => exact hx.1
  | leave result =>
      obtain ⟨ms, rfl⟩ := hx
      rfl

/-- What a task does that is about one id leaves the file of the others as it is. -/
theorem Act.find_other (h : Act s e t x y next notes) (hx : x.Suits call)
    (hid : call.id? = some id) (hne : other ≠ id) : next.find? other = s.find? other := by
  cases h with
  | @opens x y own he hclosed hfind h =>
      cases hid.symm.trans (hx.looksUp h.looksUp)
      rw [State.find?_goto, State.find?_cons, if_neg hne]
  | removes he h =>
      cases hid.symm.trans (h.id_of_suits hx)
      rw [State.find?_goto, State.find?_unfile, if_neg hne]
  | clears he =>
      cases hx
      cases hid
  | _ => rfl

/-- An act that does not remove an id leaves it its slot. -/
theorem Act.find_kept (h : Act s e t x y next notes)
    (hkeep : e = .proceed t → x.removes id = false) (hfind : s.find? id = some p) :
    next.find? id = some p := by
  cases h with
  | @opens x y own he hclosed hnone h =>
      have hne : id ≠ own := by
        rintro rfl
        cases hnone.symm.trans hfind
      rw [State.find?_goto, State.find?_cons, if_neg hne, hfind]
  | @removes x y own he h =>
      have hne : id ≠ own := by
        rintro rfl
        have hown := hkeep he
        cases h <;> simp [Stage.removes] at hown
      rw [State.find?_goto, State.find?_unfile, if_neg hne, hfind]
  | clears he => cases hkeep he
  | _ => exact hfind

/-- A task that was asked for the slot of an id and ends has found it, or there is none. -/
theorem Act.gets {create : Bool} {found : Option SlotId}
    (h : Act s e t x (.finished (.slot found)) next notes) (hx : x.Suits (.get id create)) :
    found = none ∧ (s.closed = false → s.find? id = none) ∨
      ∃ p, found = some p ∧ .located t id p ∈ notes := by
  cases hfound : found with
  | none =>
      subst hfound
      refine Or.inl ⟨rfl, ?_⟩
      generalize hy : Stage.finished (.slot none) = y at h
      cases h with
      | pass h => cases h <;> cases hy
      | hit he hclosed hfind h => cases h <;> cases hy
      | miss he hfind h =>
          cases h with
          | get create hmade =>
              cases hx
              exact hfind
          | _ => cases hy
      | opens he hclosed hfind h => cases h <;> cases hy
      | makes he => cases hy
      | removes he h =>
          cases h with
          | remove => cases hx
          | overdue caller => cases Caller.finished_resolved hy
          | _ => cases hy
      | clears he => cases hy
      | turns h =>
          cases h with
          | take he hw hclosed hvalue => cases Caller.finished_resolved hy
          | late he hw hclosed => cases Caller.finished_resolved hy
          | _ => cases hy
  | some p =>
      subst hfound
      exact Or.inr ⟨p, rfl, h.yields hx⟩

namespace State

/-- A step of a task that is about one id leaves the slots of the other ids as they are. -/
theorem other_id_kept (he : e.task? = some t) (hcall : callOf t (es ++ later) = some call)
    (hid : call.id? = some id) (hne : other ≠ id) :
    (empty.run (es ++ [e])).find? other = (empty.run es).find? other ∧
      ∀ u p, .located u other p ∈ empty.history es →
        (empty.run (es ++ [e])).slots p = (empty.run es).slots p := by
  have htraced := run_traced es
  have hasked : ∀ {u x}, e.task? = some u → (empty.run es).tasks u = some x →
      u = t ∧ x.Suits call ∧ callOf t es = some call := by
    intro u x hu hx
    cases hu.symm.trans he
    have hthere : (empty.run es).tasks t ≠ none := by simp [hx]
    have hbefore := asked_before (by rfl) hthere hcall
    exact ⟨rfl, run_suits hbefore hx, hbefore⟩
  rw [run_concat]
  constructor
  · have hchange := (empty.run es).step_change e
    generalize (empty.run es).step e = next, (empty.run es).notes e = notes at hchange ⊢
    cases hchange with
    | rests now hblocked hbegun => rfl
    | begins hspawn ht => rfl
    | acts hown ht h => exact h.find_other (hasked hown ht).2.1 hid hne
  · intro u p hlocated
    have hview := (empty.run es).step_view e (htraced.made u other p hlocated)
    generalize (empty.run es).step e = next, (empty.run es).notes e = notes at hview ⊢
    cases hview with
    | rests hblocked hslot htasks hnotes => exact hslot
    | begins hspawn ht hslot htasks hnotes => exact hslot
    | away hown ht hx hact hslot htasks => exact hslot
    | turns hown ht hturn hslot htasks hnotes =>
        -- a task that turns to the slot holds it, so the slot is one of its own id
        obtain ⟨rfl, -, hbefore⟩ := hasked hown ht
        have hholds := Stage.holds_of_faces hturn.faces
        obtain ⟨w, hw⟩ := htraced.held _ _ call id p ht hbefore hid hholds
        exact absurd (htraced.label u w other id p hlocated hw) hne

/-- An id that is not removed keeps its slot. -/
theorem find_step (hkeep : s.removes id e = false) (hfind : s.find? id = some p) :
    (s.step e).find? id = some p := by
  have hchange := s.step_change e
  generalize s.step e = next, s.notes e = notes at hchange ⊢
  cases hchange with
  | rests now hblocked hbegun => exact hfind
  | begins he ht => exact hfind
  | @acts t x y next notes he ht h =>
      apply h.find_kept _ hfind
      rintro rfl
      rwa [removes, ht, Option.any_some] at hkeep

/-- Whoever comes to a slot by an id leaves it filed under the id. -/
theorem find_of_located (hin : .located u id p ∈ s.notes e) : (s.step e).find? id = some p := by
  obtain ⟨t, x, y, -, -, -, hnoted⟩ := noted hin
  cases hnoted with
  | found hid hclosed hfind hindex hmade =>
      rw [find?, hindex]
      exact hfind
  | opened hid hclosed hfind hindex hmade =>
      rw [find?, hindex]
      exact List.lookup_cons_self

/-- Whoever comes to a slot by an id that is filed finds what is filed. -/
theorem located_filed (hfind : s.find? id = some p) (hin : .located u id q ∈ s.notes e) :
    q = p := by
  obtain ⟨t, x, y, -, -, -, hnoted⟩ := noted hin
  cases hnoted with
  | found hid hclosed hfind' hindex hmade => exact Option.some.inj (hfind'.symm.trans hfind)
  | opened hid hclosed hnone hindex hmade => cases hnone.symm.trans hfind

theorem keeps_cons (h : s.keeps id (e :: mid) = true) :
    s.removes id e = false ∧ (s.step e).keeps id mid = true := by
  rw [keeps, Bool.and_eq_true, Bool.not_eq_true'] at h
  exact h

/-- As long as an id is not removed it keeps its slot, and whoever comes to a slot by it comes to
that one. -/
theorem keeps_find (h : s.keeps id mid = true) (hfind : s.find? id = some p) :
    (s.run mid).find? id = some p ∧ ∀ u q, .located u id q ∈ s.history mid → q = p := by
  induction mid generalizing s with
  | nil => exact ⟨hfind, by rintro u q ⟨⟩⟩
  | cons e mid ih =>
      obtain ⟨hnow, hlater⟩ := keeps_cons h
      obtain ⟨hend, hall⟩ := ih hlater (find_step hnow hfind)
      refine ⟨hend, fun u q hin => ?_⟩
      rcases List.mem_append.mp hin with hfirst | hrest
      · exact located_filed hfind hfirst
      · exact hall u q hrest

/-- As long as an id is not removed, all who come to a slot by it come to the same. -/
theorem keeps_located (h : s.keeps id mid = true) (hin : .located u id p ∈ s.history mid)
    (hin' : .located v id q ∈ s.history mid) : p = q := by
  induction mid generalizing s with
  | nil => cases hin
  | cons e mid ih =>
      obtain ⟨hnow, hlater⟩ := keeps_cons h
      rcases List.mem_append.mp hin with hfirst | hrest
      · have hfiled := find_of_located hfirst
        rcases List.mem_append.mp hin' with hfirst' | hrest'
        · exact (located_unique hfirst hfirst').2
        · exact ((keeps_find hlater hfiled).2 v q hrest').symm
      · rcases List.mem_append.mp hin' with hfirst' | hrest'
        · exact (keeps_find hlater (find_of_located hfirst')).2 u p hrest
        · exact ih hlater hrest hrest'

/-- A slot that is not filed comes into the file no more. -/
theorem unfiled_step (hmade : p < s.made) (hgone : ∀ i, (i, p) ∉ s.index) (e : Event α) :
    ∀ i, (i, p) ∉ (s.step e).index := by
  intro i
  have hchange := s.step_change e
  generalize s.step e = next, s.notes e = notes at hchange
  cases hchange with
  | rests now hblocked hbegun => exact hgone i
  | begins he ht => exact hgone i
  | acts he ht hact =>
      intro hfiled
      rcases hact.filed hfiled with hold | ⟨rfl, -⟩
      · exact hgone i hold
      · exact Nat.lt_irrefl _ hmade

/-- A slot that is made and not filed comes into the file no more, and nobody comes to it by an
id. -/
theorem unfiled_run (hmade : p < s.made) (hgone : ∀ i, (i, p) ∉ s.index) (later : List (Event α)) :
    ∀ u i, .located u i p ∉ s.history later := by
  induction later generalizing s with
  | nil => rintro u i ⟨⟩
  | cons e later ih =>
      have hnow : ∀ u i, .located u i p ∉ s.notes e := by
        intro u i hin
        obtain ⟨t, x, y, -, -, -, hnoted⟩ := noted hin
        cases hnoted with
        | found hid hclosed hfind hindex hmade' => exact hgone i (mem_index_of_find? hfind)
        | opened hid hclosed hfind hindex hmade' => exact Nat.lt_irrefl _ hmade
      intro u i hin
      rcases List.mem_append.mp hin with hfirst | hrest
      · exact hnow u i hfirst
      · have hmade' := Nat.lt_of_lt_of_le hmade (s.made_le_step e)
        exact ih hmade' (unfiled_step hmade hgone e) u i hrest

/-- Where no id is filed twice, what is filed is found. -/
theorem find?_of_mem (hkeys : (s.index.map Prod.fst).Nodup) (hin : (id, p) ∈ s.index) :
    s.find? id = some p := by
  unfold find?
  generalize s.index = index at hkeys hin
  induction index with
  | nil => cases hin
  | cons entry rest ih =>
      obtain ⟨hnew, hrest⟩ := List.nodup_cons.mp hkeys
      rcases List.mem_cons.mp hin with rfl | hlater
      · exact List.lookup_cons_self
      · have hne : (id == entry.1) = false := by
          refine beq_eq_false_iff_ne.mpr fun heq => hnew ?_
          rw [← heq]
          exact List.mem_map_of_mem hlater
        rw [List.lookup_cons, hne]
        exact ih hrest hlater

/-- A slot that is filed no more is never found again. -/
theorem not_located_again (hin : .located u id p ∈ empty.history es)
    (hgone : (empty.run es).find? id ≠ some p) (later : List (Event α)) :
    ∀ v other, .located v other p ∉ (empty.run es).history later := by
  have htraced := run_traced es
  apply unfiled_run (htraced.made u id p hin)
  intro i hfiled
  -- it would be filed under the one id by which it was ever found
  obtain ⟨w, hw⟩ := htraced.filed i p hfiled
  obtain rfl : i = id := htraced.label w u i id p hw hin
  exact hgone (find?_of_mem (run_keys_nodup es) hfiled)

theorem keeps_append (s : State α) (id : UInt64) (es fs : List (Event α)) :
    s.keeps id (es ++ fs) = (s.keeps id es && (s.run es).keeps id fs) := by
  induction es generalizing s with
  | nil => rfl
  | cons e es ih =>
      show (!s.removes id e && (s.step e).keeps id (es ++ fs)) = _
      rw [ih, ← Bool.and_assoc]
      rfl

/-- Every note of a history is one on an event of the run. -/
theorem mem_history {n : Note α} :
    n ∈ s.history mid ↔ ∃ es e fs, mid = es ++ e :: fs ∧ n ∈ (s.run es).notes e := by
  constructor
  · intro hin
    induction mid generalizing s with
    | nil => cases hin
    | cons e mid ih =>
        rcases List.mem_append.mp hin with hfirst | hrest
        · exact ⟨[], e, mid, rfl, hfirst⟩
        · obtain ⟨es, d, fs, rfl, hn⟩ := ih hrest
          exact ⟨e :: es, d, fs, rfl, hn⟩
  · rintro ⟨es, e, fs, rfl, hn⟩
    rw [history_append]
    exact List.mem_append_right _ (List.mem_append_left _ hn)

/-- A task that was asked for the slot of an id and ends has come to the slot, or there was none. -/
theorem gets_noted {create : Bool} {found : Option SlotId}
    (hcall : callOf t (es ++ later) = some (.get id create))
    (hin : .ended t (.slot found) ∈ (empty.run es).notes e) :
    found = none ∧ ((empty.run es).closed = false → (empty.run es).find? id = none) ∨
      ∃ p, found = some p ∧ .located t id p ∈ (empty.run es).notes e := by
  have hchange := (empty.run es).step_change e
  generalize (empty.run es).step e = next, (empty.run es).notes e = notes at hchange hin ⊢
  cases hchange with
  | rests now hblocked hbegun => cases hin
  | begins hspawn ht => cases hin
  | acts hown ht h =>
      cases h.noted hin with
      | ended hy =>
          subst hy
          have hthere : (empty.run es).tasks t ≠ none := by simp [ht]
          exact h.gets (run_suits (asked_before (by rfl) hthere hcall) ht)

/-- As long as an id that is filed is not removed, everyone who asks for its slot gets it. -/
theorem gets_filed {create : Bool} {found : Option SlotId}
    (hkeep : (empty.run es).keeps id mid = true) (hfind : (empty.run es).find? id = some p)
    (hcall : callOf t (es ++ mid ++ later) = some (.get id create))
    (hin : .ended t (.slot found) ∈ (empty.run es).history mid) : found = some p := by
  -- the id is kept up to the step in which the call ends
  obtain ⟨pre, e, post, rfl, hn⟩ := mem_history.mp hin
  rw [keeps_append, Bool.and_eq_true] at hkeep
  have hstill := (keeps_find hkeep.1 hfind).1
  rw [← run_append] at hn hstill
  have hsplit : es ++ (pre ++ e :: post) ++ later = es ++ pre ++ (e :: post ++ later) := by simp
  rw [hsplit] at hcall
  rcases gets_noted hcall hn with ⟨-, hnone⟩ | ⟨q, rfl, hlocated⟩
  · -- a slot is filed, so not everything is closed
    cases hclosed : (empty.run (es ++ pre)).closed with
    | true =>
        rw [find?, run_emptied _ hclosed] at hstill
        cases hstill
    | false => cases (hnone hclosed).symm.trans hstill
  · rw [located_filed hstill hlocated]

/-- As long as an id is not removed, all who are given a slot for it are given the same. -/
theorem gets_same {c d : Bool} (hkeep : (empty.run es).keeps id mid = true)
    (ht : callOf t (es ++ mid ++ later) = some (.get id c))
    (hu : callOf u (es ++ mid ++ later) = some (.get id d))
    (hin : .ended t (.slot (some p)) ∈ (empty.run es).history mid)
    (hin' : .ended u (.slot (some q)) ∈ (empty.run es).history mid) : p = q := by
  have hlocated : ∀ {t : TaskId} {p : SlotId} {c : Bool},
      callOf t (es ++ mid ++ later) = some (.get id c) →
      .ended t (.slot (some p)) ∈ (empty.run es).history mid →
        .located t id p ∈ (empty.run es).history mid := by
    intro t p c hcall hin
    obtain ⟨pre, e, post, rfl, hn⟩ := mem_history.mp hin
    have hsplit : es ++ (pre ++ e :: post) ++ later = es ++ pre ++ (e :: post ++ later) := by simp
    rw [hsplit] at hcall
    rw [← run_append] at hn
    rcases gets_noted hcall hn with ⟨hnone, -⟩ | ⟨r, hr, hnow⟩
    · cases hnone
    · cases hr
      rw [run_append] at hnow
      exact mem_history.mpr ⟨pre, e, post, rfl, hnow⟩
  exact keeps_located hkeep (hlocated ht hin) (hlocated hu hin')

/-- Whoever receives a value by an id took it out of the slot that it had found under the id. -/
theorem received_by_id {value : α} (hnames : (empty : State α).Names es)
    (hcall : callOf t es = some call) (hid : call.id? = some id)
    (hout : (empty.run es).outcome? t = some (.received (.ok value))) :
    ∃ u p pushing, Passed (empty.history es) u t p value ∧ .located t id p ∈ empty.history es ∧
      callOf u es = some pushing ∧ pushing.value? = some value ∧
      ∀ other, pushing.id? = some other → other = id ∧ .located u id p ∈ empty.history es := by
  have htraced := run_traced es
  obtain ⟨x, ht⟩ := Option.ne_none_iff_exists'.mp (run_asked (s := empty) _ hcall)
  have hbrings : x.Brings (.ok value) := by
    cases x with
    | finished outcome =>
        rw [outcome?, ht] at hout
        cases hout
        rfl
    | _ => simp [outcome?, ht] at hout
  -- the value came out of some slot; both who took it and who put it in had found that slot
  obtain ⟨u, p, hpassed⟩ := (run_sourced hnames).brought t x value ht hbrings
  obtain ⟨asked, hasked, htaker⟩ := htraced.taken t p value hpassed.mem_taken
  cases hasked.symm.trans hcall
  obtain ⟨pushing, hpushing, hvalue, hpusher⟩ := htraced.stored u p value hpassed.mem_stored
  refine ⟨u, p, pushing, hpassed, htaker id hid, hpushing, hvalue, fun other hother => ?_⟩
  have hlocated := hpusher other hother
  obtain rfl : other = id := htraced.label u t other id p hlocated (htaker id hid)
  exact ⟨rfl, hlocated⟩

end State

end Ids

/-- Whatever calls make up a run, closing everything is final, what is done by one id touches no
slot of another, an id keeps its slot until it is removed, and slots of different generations are
not mixed up: a slot that is filed no more is not found again, and a value is received from the slot
into which it was put, by a task that came to that slot. -/
theorem generations_kept_apart {events : List (Event α)}
    (hnames : (State.empty : State α).Names events) :
    -- once everything is closed it stays so, nothing is filed, and later calls are refused
    (∀ before later, events = before ++ later → (State.empty.run before).closed = true →
      (State.empty.run events).closed = true ∧ (State.empty.run events).index = [] ∧
      ∀ t call outcome, callOf t events = some call → call.refusal? = some outcome →
        (∀ x, (State.empty.run before).tasks t = some x → x = .ready call) →
          (State.empty.run events).outcome? t = some outcome ∨
          (State.empty.run events).tasks t = some .dropped ∨
          (State.empty.run events).tasks t = some (.ready call) ∧
            ((State.empty.run events).step (.proceed t)).outcome? t = some outcome) ∧
    -- a call that closes everything does so in its first section; when it returns, which it does by
    -- its own sections, all slots that were filed then are closed
    (∀ before later t, events = before ++ .proceed t :: later →
      (State.empty.run before).tasks t = some (.ready .closeAll) →
        (State.empty.run (before ++ [.proceed t])).closed = true ∧
        ((State.empty.run events).outcome? t ≠ none →
          ∀ id p, (State.empty.run before).find? id = some p →
            ((State.empty.run events).slots p).closed = true) ∧
        (2 * (State.empty.run before).size + 1 ≤ later.countP (Event.goesOn t) →
          (State.empty.run events).outcome? t = some .done)) ∧
    -- a step of a call by one id leaves the slots of the other ids as they are, filed or not
    (∀ before e later t call id other, events = before ++ e :: later → e.task? = some t →
      callOf t events = some call → call.id? = some id → other ≠ id →
        (State.empty.run (before ++ [e])).find? other = (State.empty.run before).find? other ∧
        ∀ u p, .located u other p ∈ State.empty.history before →
          (State.empty.run (before ++ [e])).slots p = (State.empty.run before).slots p) ∧
    -- until an id is removed it keeps its slot, and all who ask for the slot are given the same
    (∀ before mid later id, events = before ++ mid ++ later →
      (State.empty.run before).keeps id mid = true →
        (∀ p, (State.empty.run before).find? id = some p →
          (State.empty.run (before ++ mid)).find? id = some p ∧
          ∀ t create found, callOf t events = some (.get id create) →
            .ended t (.slot found) ∈ (State.empty.run before).history mid → found = some p) ∧
        ∀ t u c d p q, callOf t events = some (.get id c) → callOf u events = some (.get id d) →
          .ended t (.slot (some p)) ∈ (State.empty.run before).history mid →
          .ended u (.slot (some q)) ∈ (State.empty.run before).history mid → p = q) ∧
    -- a slot that is filed no more is never found again
    (∀ before later u id p, events = before ++ later →
      .located u id p ∈ State.empty.history before → (State.empty.run before).find? id ≠ some p →
        ∀ v other, .located v other p ∉ (State.empty.run before).history later) ∧
    -- whoever receives a value by an id took it out of the slot that it had found under the id; the
    -- value was put in there at hand, or by a task that had found that slot under the same id
    (∀ t call id value, callOf t events = some call → call.id? = some id →
      (State.empty.run events).outcome? t = some (.received (.ok value)) →
        ∃ u p pushing, Passed (State.empty.history events) u t p value ∧
          .located t id p ∈ State.empty.history events ∧
          callOf u events = some pushing ∧ pushing.value? = some value ∧
          ∀ other, pushing.id? = some other →
            other = id ∧ .located u id p ∈ State.empty.history events) := by
  refine ⟨?_, ?_, ?_, ?_, ?_, ?_⟩
  · rintro before later rfl hclosed
    have hstill : (State.empty.run (before ++ later)).closed = true := by
      rw [State.run_append]
      exact State.closed_run hclosed later
    exact ⟨hstill, State.run_emptied _ hstill, fun t call outcome hcall hrefusal hfirst =>
      State.late_answered hclosed hcall hrefusal hfirst⟩
  · rintro before later t rfl hready
    refine ⟨State.closed_of_closeAll hready, ?_, State.closeAll_returns hready later⟩
    intro hreturned id p hfind
    exact State.closeAll_shuts hready hfind hreturned
  · rintro before e later t call id other rfl he hcall hid hne
    exact State.other_id_kept he hcall hid hne
  · rintro before mid later id rfl hkeep
    refine ⟨fun p hfind => ⟨?_, ?_⟩, ?_⟩
    · rw [State.run_append]
      exact (State.keeps_find hkeep hfind).1
    · intro t create found hcall hin
      exact State.gets_filed hkeep hfind hcall hin
    · intro t u c d p q ht hu hin hin'
      exact State.gets_same hkeep ht hu hin hin'
  · rintro before later u id p rfl hin hgone
    exact State.not_located_again hin hgone later
  · intro t call id value hcall hid hout
    exact State.received_by_id hnames hcall hid hout

/-- A push has found the slot of id 5 when the id is removed and another slot is made for it. -/
def removedMidPush : List (Event Nat) :=
  [.spawn 1 (.get 5 true), .proceed 1, .spawn 2 (.push 5 7), .proceed 2,
    .spawn 3 (.remove 5), .proceed 3]

/-- The push goes on, another task waits at the new slot and is given what is put in there, and then
everything is closed. -/
def filedAgain : List (Event Nat) :=
  [.spawn 4 (.get 5 true), .proceed 4, .proceed 2, .proceed 2,
    .spawn 5 (.wait 5 none), .proceed 5, .proceed 5, .proceed 5,
    .spawn 6 (.push 5 8), .proceed 6, .proceed 6, .proceed 6, .proceed 5, .proceed 5, .proceed 5,
    .spawn 7 .closeAll, .proceed 7, .proceed 7, .proceed 7, .proceed 7,
    .spawn 8 (.get 5 true), .proceed 8, .spawn 9 (.wait 5 none), .proceed 9]

theorem generations_kept_apart_filed_again :
    [2, 4, 5, 7, 8, 9].map (State.empty.run (removedMidPush ++ filedAgain)).outcome? =
        [some (.pushed (.ok ())), some (.slot (some 1)), some (.received (.ok 8)), some .done,
          some (.slot none), some (.received (.error .closed))] ∧
      (∀ v other, .located v other 0 ∉ (State.empty.run removedMidPush).history filedAgain) ∧
      ∃ u p pushing, Passed (State.empty.history (removedMidPush ++ filedAgain)) u 5 p 8 ∧
        .located 5 5 p ∈ State.empty.history (removedMidPush ++ filedAgain) ∧
        callOf u (removedMidPush ++ filedAgain) = some pushing ∧ pushing.value? = some 8 ∧
        ∀ other, pushing.id? = some other →
          other = 5 ∧ .located u 5 p ∈ State.empty.history (removedMidPush ++ filedAgain) := by
  have hnames : (State.empty : State Nat).Names (removedMidPush ++ filedAgain) := by
    simp [State.Names, removedMidPush, filedAgain, Event.Known, Call.slot?]
  obtain ⟨-, -, -, -, hgone, hreceived⟩ := generations_kept_apart hnames
  refine ⟨rfl, ?_, hreceived 5 (.wait 5 none) 5 8 rfl rfl rfl⟩
  have hhistory : State.empty.history removedMidPush =
      [.located 1 5 0, .ended 1 (.slot (some 0)), .located 2 5 0, .ended 3 (.slot (some 0))] := rfl
  have hlocated : .located 1 5 0 ∈ State.empty.history removedMidPush := by
    rw [hhistory]
    exact List.mem_cons_self
  exact hgone removedMidPush filedAgain 1 5 0 rfl hlocated (by decide)

end AmqpDelivery.Rendezvous
