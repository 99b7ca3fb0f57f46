import AmqpDelivery.Proofs.Worker.Dealing

/-!
# What one event does to a fleet

The requests that the workers of a fleet make of their table are kept in a ledger, in the order in
which they are made (`Fleet.ledger`). An event of a fleet is a step of the table, or of a worker that
makes one request at most, or the answer to one (`Fleet.step_turn`).
-/

namespace AmqpDelivery

/-- A request that a worker has made of the table. -/
structure Petition where
  worker : WorkerId
  task : TaskId
  request : ChannelRequest
deriving DecidableEq

namespace Fleet

/-- How the worker stands to the table. -/
def dealing (s : Fleet) (i : WorkerId) : Dealing :=
  (s.workers[i]?).elim .idle fun w => w.phase.dealing

/-- What an event of the fleet is for the worker that it concerns. -/
def inner? (s : Fleet) : FleetEvent → Option (WorkerId × WorkerEvent)
  | .within i e => if e.isFromTable then none else some (i, e)
  | .table _ => none
  | .deliver i => (s.outcome? i).map fun e => (i, e)

/-- The requests that an event makes of the table. -/
def petitions (s : Fleet) (ev : FleetEvent) : List Petition :=
  match s.inner? ev with
  | some (i, e) =>
      (s.workers[i]?).elim [] fun w =>
        (((w.step e).2.filterMap requestOf?).zipIdx s.next).map fun (r, t) => ⟨i, t, r⟩
  | none => []

/-- The requests that a run makes of the table. -/
def ledger : Fleet → List FleetEvent → List Petition
  | _, [] => []
  | s, ev :: rest => s.petitions ev ++ (s.step ev).ledger rest

/-- A worker in another state. -/
def setWorker (s : Fleet) (i : WorkerId) (w : Worker) : Fleet :=
  { s with workers := s.workers.set i w }

/-- The worker waits for no answer. -/
def settle (s : Fleet) (i : WorkerId) : Fleet := { s with pending := assign s.pending i none }

/-- What one event can do to a fleet, with the requests that it makes. -/
inductive Turn (s : Fleet) : FleetEvent → Fleet → List Petition → Prop
  | stays (ev : FleetEvent) : Turn s ev s []
  | serves {e : ChannelEvent} (he : ∀ t r, e ≠ .spawn t r) :
      Turn s (.table e) { s with table := s.table.step e } []
  | works {ev : FleetEvent} {i : WorkerId} {w next : Worker} (hi : s.workers[i]? = some w)
      (hsame : next.phase.dealing = w.phase.dealing) : Turn s ev (s.setWorker i next) []
  | asks {ev : FleetEvent} {i : WorkerId} {w next : Worker} {e : WorkerEvent} {r : ChannelRequest}
      (hi : s.workers[i]? = some w) (hgoes : w.phase.dealing.Goes e next.phase.dealing [r]) :
      Turn s ev ((s.setWorker i next).request i r) [⟨i, s.next, r⟩]
  /-- The answer to a request reaches its worker. -/
  | delivers {i : WorkerId} {w next : Worker} {e : WorkerEvent} (hi : s.workers[i]? = some w)
      (houtcome : s.outcome? i = some e) (hgoes : w.phase.dealing.Goes e next.phase.dealing []) :
      Turn s (.deliver i) ((s.settle i).setWorker i next) []
  /-- There is no such worker. -/
  | lapses {i : WorkerId} {e : WorkerEvent} (hnone : s.workers[i]? = none)
      (houtcome : s.outcome? i = some e) : Turn s (.deliver i) (s.settle i) []

section Turns

variable {s : Fleet} {i j : WorkerId} {w next : Worker} {e : WorkerEvent}

theorem dealing_of_worker (h : s.workers[i]? = some w) : s.dealing i = w.phase.dealing := by
  rw [dealing, h]
  rfl

theorem dealing_of_none (h : s.workers[i]? = none) : s.dealing i = .idle := by
  rw [dealing, h]
  rfl

theorem dealing_setWorker_self (h : s.workers[i]? = some w) :
    (s.setWorker i next).dealing i = next.phase.dealing := by
  refine dealing_of_worker ?_
  obtain ⟨hlt, -⟩ := List.getElem?_eq_some_iff.1 h
  exact List.getElem?_set_self hlt

theorem dealing_setWorker_of_ne (h : j ≠ i) : (s.setWorker i next).dealing j = s.dealing j := by
  rw [dealing, dealing, setWorker, List.getElem?_set_ne h.symm]

/-- The answer that a worker waits for is that of a request that is over. -/
theorem outcome?_eq_some (h : s.outcome? i = some e) : ∃ t, s.pending i = some t ∧
    ((∃ result, s.table.requests t = some (.opened result) ∧ e = .opened result) ∨
      s.table.requests t = some .finished ∧ e = .released) := by
  unfold outcome? at h
  obtain ⟨t, ht, h⟩ := Option.bind_eq_some_iff.1 h
  obtain ⟨stage, hstage, h⟩ := Option.bind_eq_some_iff.1 h
  refine ⟨t, ht, ?_⟩
  cases stage with
  | opened result =>
      cases h
      exact Or.inl ⟨result, hstage, rfl⟩
  | finished =>
      cases h
      exact Or.inr ⟨hstage, rfl⟩
  | _ => cases h

theorem isFromTable_of_outcome (h : s.outcome? i = some e) : e.isFromTable = true := by
  obtain ⟨t, -, ⟨result, -, rfl⟩ | ⟨-, rfl⟩⟩ := outcome?_eq_some h <;> rfl

/-- A worker's event makes one request at most. -/
theorem within_cases (hi : s.workers[i]? = some w) (e : WorkerEvent) : ∃ next : Worker,
    (s.within i e = s.setWorker i next ∧ (w.step e).2.filterMap requestOf? = [] ∧
        w.phase.dealing.Goes e next.phase.dealing []) ∨
      ∃ r, s.within i e = (s.setWorker i next).request i r ∧
        (w.step e).2.filterMap requestOf? = [r] ∧ w.phase.dealing.Goes e next.phase.dealing [r] := by
  have hgoes := w.step_trades e
  unfold Worker.Trades at hgoes
  refine ⟨(w.step e).1, ?_⟩
  have hwithin : s.within i e =
      ((w.step e).2.filterMap requestOf?).foldl (fun s r => s.request i r)
        (s.setWorker i (w.step e).1) := by
    rw [within, hi]
    rfl
  rw [hwithin]
  generalize (w.step e).1.phase.dealing = d, (w.step e).2.filterMap requestOf? = rs,
    w.phase.dealing = b at hgoes
  cases hgoes with
  | stays h => exact Or.inl ⟨rfl, rfl, .stays h⟩
  | asks h => exact Or.inr ⟨.openNew, rfl, rfl, .asks h⟩
  | gets c => exact Or.inl ⟨rfl, rfl, .gets c⟩
  | fails f => exact Or.inl ⟨rfl, rfl, .fails f⟩
  | returns c h => exact Or.inr ⟨.release c, rfl, rfl, .returns c h⟩
  | ends c => exact Or.inl ⟨rfl, rfl, .ends c⟩

theorem petitions_of_inner {ev : FleetEvent} (hev : s.inner? ev = some (i, e))
    (hi : s.workers[i]? = some w) : s.petitions ev =
      (((w.step e).2.filterMap requestOf?).zipIdx s.next).map fun (r, t) => ⟨i, t, r⟩ := by
  rw [petitions, hev]
  simp only [hi]
  rfl

theorem petitions_of_inner_none {ev : FleetEvent} (hev : s.inner? ev = some (i, e))
    (hi : s.workers[i]? = none) : s.petitions ev = [] := by
  rw [petitions, hev]
  simp only [hi]
  rfl

/-- A step of a worker that is no answer of the table. -/
theorem within_turn {ev : FleetEvent} (hev : s.inner? ev = some (i, e))
    (he : e.isFromTable = false) : s.Turn ev (s.within i e) (s.petitions ev) := by
  cases hi : s.workers[i]? with
  | none =>
      rw [petitions_of_inner_none hev hi, within, hi]
      exact .stays ev
  | some w =>
      obtain ⟨next, ⟨hwithin, hnone, hgoes⟩ | ⟨r, hwithin, hone, hgoes⟩⟩ := within_cases hi e
      · -- without a request and without an answer the dealings stay as they are
        rw [petitions_of_inner hev hi, hwithin, hnone]
        refine .works hi ?_
        generalize next.phase.dealing = d, w.phase.dealing = b at hgoes
        cases hgoes with
        | stays => rfl
        | gets => cases he
        | fails => cases he
        | ends => cases he
      · rw [petitions_of_inner hev hi, hwithin, hone]
        exact .asks hi hgoes

/-- The answer of the table to a request. -/
theorem deliver_turn (houtcome : s.outcome? i = some e) :
    s.Turn (.deliver i) ((s.settle i).within i e) (s.petitions (.deliver i)) := by
  have hev : s.inner? (.deliver i) = some (i, e) := by
    rw [inner?, houtcome]
    rfl
  have hanswer := isFromTable_of_outcome houtcome
  cases hi : s.workers[i]? with
  | none =>
      have hi' : (s.settle i).workers[i]? = none := hi
      rw [petitions_of_inner_none hev hi, within, hi']
      exact .lapses hi houtcome
  | some w =>
      have hi' : (s.settle i).workers[i]? = some w := hi
      obtain ⟨next, ⟨hwithin, hnone, hgoes⟩ | ⟨r, hwithin, hone, hgoes⟩⟩ := within_cases hi' e
      · rw [petitions_of_inner hev hi, hwithin, hnone]
        exact .delivers hi houtcome hgoes
      · -- answers make no requests
        generalize next.phase.dealing = d, w.phase.dealing = b at hgoes
        cases hgoes with
        | asks h =>
            rw [hanswer] at h
            cases h
        | returns c h =>
            rw [hanswer] at h
            cases h

/-- Every event of a fleet is one of the turns. -/
theorem step_turn (s : Fleet) (ev : FleetEvent) : s.Turn ev (s.step ev) (s.petitions ev) := by
  cases ev with
  | within i e =>
      cases he : e.isFromTable with
      | true =>
          have hnone : s.petitions (.within i e) = [] := by
            rw [petitions, inner?, if_pos he]
          rw [hnone]
          cases e <;> first | exact .stays _ | cases he
      | false =>
          have hev : s.inner? (.within i e) = some (i, e) := by
            rw [inner?, if_neg (Bool.eq_false_iff.1 he)]
          cases e <;> first | exact within_turn hev he | cases he
  | table e =>
      have hnone : s.petitions (.table e) = [] := rfl
      rw [hnone]
      cases e with
      | spawn t r => exact .stays _
      | _ => exact .serves nofun
  | deliver i =>
      cases houtcome : s.outcome? i with
      | none =>
          have hnone : s.petitions (.deliver i) = [] := by
            rw [petitions, inner?, houtcome]
            rfl
          rw [hnone, step, houtcome]
          exact .stays _
      | some e =>
          rw [step, houtcome]
          exact deliver_turn houtcome

end Turns

end Fleet

end AmqpDelivery
