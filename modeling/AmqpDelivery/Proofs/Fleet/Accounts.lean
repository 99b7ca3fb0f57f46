import AmqpDelivery.Proofs.Channels.Requests
import AmqpDelivery.Proofs.Fleet.Turns

/-!
# The accounts of the workers of a fleet

For each worker the requests it has made are those whose answers it has got and at most one that it
waits for, and the channels that it has opened are those that it has released and at most the one
that it holds (`Fleet.Account`). Every event keeps the accounts (`Fleet.Books.step`).
-/

namespace AmqpDelivery

/-- The channel that the petition has released. -/
def Petition.released? (s : ChannelTable) (p : Petition) : Option ChannelRef :=
  match p.request, s.requests p.task with
  | .release c, some .finished => some c
  | _, _ => none

/-- The channels that the petitions have opened. -/
def openedIn (s : ChannelTable) (ps : List Petition) : List ChannelRef :=
  ps.filterMap fun p => s.openedAt? p.task

/-- The channels that the petitions have released. -/
def releasedIn (s : ChannelTable) (ps : List Petition) : List ChannelRef :=
  ps.filterMap fun p => p.released? s

/-- The petitions of one worker. -/
def petitionsOf (i : WorkerId) (ps : List Petition) : List Petition :=
  ps.filter fun p => p.worker = i

/-- The channel that the worker has been given and not got rid of. -/
def Dealing.held? : Dealing → Option ChannelRef
  | .engaged c | .returning c => some c
  | _ => none

/-- How the dealings of a worker stand to the task that it waits for, and to its petitions that
have not been answered. -/
inductive Dealing.Stands (i : WorkerId) : Dealing → Option TaskId → List Petition → Prop
  | idle : Stands i .idle none []
  | asking (t : TaskId) : Stands i .asking (some t) [⟨i, t, .openNew⟩]
  | engaged (c : ChannelRef) : Stands i (.engaged c) none []
  | returning (c : ChannelRef) (t : TaskId) : Stands i (.returning c) (some t) [⟨i, t, .release c⟩]

namespace Fleet

/-- The account of a worker: its petitions are the ones that were answered and the one that it waits
for, if any. -/
structure Account (s : Fleet) (i : WorkerId) (history answered waiting : List Petition) : Prop where
  history : history = answered ++ waiting
  stands : (s.dealing i).Stands i (s.pending i) waiting
  ended : ∀ p ∈ answered, ∃ stage, s.table.requests p.task = some stage ∧ stage.isOver = true
  balanced : openedIn s.table answered = releasedIn s.table answered ++ (s.dealing i).held?.toList

/-- The outcome of the request that a worker waits for, and what it makes of the worker's dealings. -/
inductive Receives (s : Fleet) (i : WorkerId) : Dealing → Dealing → List Petition → Prop
  | opened {t : TaskId} {c : ChannelRef} (ht : s.pending i = some t)
      (hopened : s.table.requests t = some (.opened (.ok c))) :
      Receives s i .asking (.engaged c) [⟨i, t, .openNew⟩]
  | refused {t : TaskId} {f : Failure} (ht : s.pending i = some t)
      (hrefused : s.table.requests t = some (.opened (.error f))) :
      Receives s i .asking .idle [⟨i, t, .openNew⟩]
  | released {t : TaskId} {c : ChannelRef} (ht : s.pending i = some t)
      (hfinished : s.table.requests t = some .finished) :
      Receives s i (.returning c) .idle [⟨i, t, .release c⟩]

/-- The petitions so far are the requests of the table, and every worker has its account. -/
structure Books (s : Fleet) (ledger : List Petition) : Prop where
  numbered : ledger.map Petition.task = List.range s.next
  served : ∀ p ∈ ledger, ∃ stage, s.table.requests p.task = some stage ∧ stage.Serves p.request
  unmade : ∀ t, s.next ≤ t → s.table.requests t = none
  accounts : ∀ i, ∃ answered waiting, s.Account i (petitionsOf i ledger) answered waiting

section Lists

variable {s s' : ChannelTable} {i : WorkerId} {ps more : List Petition} {p : Petition}

theorem openedIn_append : openedIn s (ps ++ more) = openedIn s ps ++ openedIn s more :=
  List.filterMap_append

theorem releasedIn_append : releasedIn s (ps ++ more) = releasedIn s ps ++ releasedIn s more :=
  List.filterMap_append

theorem mem_petitionsOf : p ∈ petitionsOf i ps ↔ p ∈ ps ∧ p.worker = i := by
  rw [petitionsOf, List.mem_filter, decide_eq_true_eq]

theorem petitionsOf_append : petitionsOf i (ps ++ more) = petitionsOf i ps ++ petitionsOf i more :=
  List.filter_append ..

theorem petitionsOf_self (t : TaskId) (r : ChannelRequest) :
    petitionsOf i [⟨i, t, r⟩] = [⟨i, t, r⟩] := by
  simp [petitionsOf]

theorem petitionsOf_of_ne {j : WorkerId} (h : j ≠ i) (t : TaskId) (r : ChannelRequest) :
    petitionsOf j [⟨i, t, r⟩] = [] := by
  simp [petitionsOf, h.symm]

/-- What the petitions have opened and released depends on their requests only. -/
theorem openedIn_congr (h : ∀ p ∈ ps, s'.requests p.task = s.requests p.task) :
    openedIn s' ps = openedIn s ps :=
  List.filterMap_congr fun p hp => by simp only [ChannelTable.openedAt?, h p hp]

theorem releasedIn_congr (h : ∀ p ∈ ps, s'.requests p.task = s.requests p.task) :
    releasedIn s' ps = releasedIn s ps :=
  List.filterMap_congr fun p hp => by simp only [Petition.released?, h p hp]

theorem openedIn_singleton : openedIn s [p] = (s.openedAt? p.task).toList :=
  List.filterMap_cons.trans (by cases s.openedAt? p.task <;> rfl)

theorem releasedIn_singleton : releasedIn s [p] = (p.released? s).toList :=
  List.filterMap_cons.trans (by cases p.released? s <;> rfl)

end Lists

section Receives

variable {s : Fleet} {i : WorkerId} {b d : Dealing} {waiting : List Petition}

theorem Receives.stands (h : s.Receives i b d waiting) : d.Stands i none [] := by
  cases h with
  | opened ht hopened => exact .engaged _
  | refused ht hrefused => exact .idle
  | released ht hfinished => exact .idle

theorem Receives.ended (h : s.Receives i b d waiting) : ∀ p ∈ waiting,
    ∃ stage, s.table.requests p.task = some stage ∧ stage.isOver = true := by
  intro p hp
  cases h with
  | opened ht hopened => exact List.mem_singleton.1 hp ▸ ⟨_, hopened, rfl⟩
  | refused ht hrefused => exact List.mem_singleton.1 hp ▸ ⟨_, hrefused, rfl⟩
  | released ht hfinished => exact List.mem_singleton.1 hp ▸ ⟨_, hfinished, rfl⟩

/-- What was held and what is opened is what is released and what is held then. -/
theorem Receives.balanced (h : s.Receives i b d waiting) :
    b.held?.toList ++ openedIn s.table waiting =
      releasedIn s.table waiting ++ d.held?.toList := by
  cases h with
  | opened ht hopened =>
      simp [openedIn, releasedIn, ChannelTable.openedAt?, Petition.released?, Dealing.held?, hopened]
  | refused ht hrefused =>
      simp [openedIn, releasedIn, ChannelTable.openedAt?, Petition.released?, Dealing.held?, hrefused]
  | released ht hfinished =>
      simp [openedIn, releasedIn, ChannelTable.openedAt?, Petition.released?, Dealing.held?, hfinished]

end Receives

section Account

variable {s s' : Fleet} {i : WorkerId} {history answered waiting : List Petition}

/-- A worker that is not concerned keeps its account. -/
theorem Account.carry (h : s.Account i history answered waiting)
    (hdealing : s'.dealing i = s.dealing i) (hpending : s'.pending i = s.pending i)
    (hover : ∀ t stage, s.table.requests t = some stage → stage.isOver = true →
      s'.table.requests t = some stage) : s'.Account i history answered waiting := by
  -- requests that are answered are over, and stay as they are
  have hsame : ∀ p ∈ answered, s'.table.requests p.task = s.table.requests p.task := by
    intro p hp
    obtain ⟨stage, hstage, hended⟩ := h.ended p hp
    rw [hover p.task stage hstage hended, hstage]
  constructor
  · exact h.history
  · rw [hdealing, hpending]
    exact h.stands
  · intro p hp
    rw [hsame p hp]
    exact h.ended p hp
  · rw [openedIn_congr hsame, releasedIn_congr hsame, hdealing]
    exact h.balanced

/-- A worker that waits for nothing makes a request. -/
theorem Account.asks {d : Dealing} {e : WorkerEvent} {r : ChannelRequest}
    (h : s.Account i history answered waiting) (hfree : s.table.requests s.next = none)
    (hgoes : (s.dealing i).Goes e d [r]) (hdealing : s'.dealing i = d)
    (hpending : s'.pending i = some s.next)
    (hrequests : s'.table.requests = assign s.table.requests s.next (some (.waiting r))) :
    s'.Account i (history ++ [⟨i, s.next, r⟩]) answered [⟨i, s.next, r⟩] := by
  have hsame : ∀ p ∈ answered, s'.table.requests p.task = s.table.requests p.task := by
    intro p hp
    obtain ⟨stage, hstage, -⟩ := h.ended p hp
    -- the new request has a number of its own
    have hne : p.task ≠ s.next := by
      intro heq
      rw [heq, hfree] at hstage
      cases hstage
    rw [hrequests, assign_of_ne hne]
  have hstands := h.stands
  have hbalanced := h.balanced
  have hhistory := h.history
  generalize s.dealing i = b, s.pending i = pending at hgoes hstands hbalanced
  constructor
  · cases hgoes <;> cases hstands <;> rw [hhistory, List.append_nil]
  · rw [hdealing, hpending]
    cases hgoes with
    | asks => exact .asking _
    | returns c => exact .returning c _
  · intro p hp
    rw [hsame p hp]
    exact h.ended p hp
  · rw [openedIn_congr hsame, releasedIn_congr hsame, hdealing]
    cases hgoes <;> exact hbalanced

/-- The answer that reaches a worker is the outcome of the request that it waits for. -/
theorem Account.receives {d : Dealing} {e : WorkerEvent}
    (h : s.Account i history answered waiting)
    (hserved : ∀ p ∈ waiting, ∃ stage, s.table.requests p.task = some stage ∧
      stage.Serves p.request)
    (houtcome : s.outcome? i = some e) (hgoes : (s.dealing i).Goes e d []) :
    s.Receives i (s.dealing i) d waiting := by
  obtain ⟨t, ht, hanswer⟩ := outcome?_eq_some houtcome
  have hstands := h.stands
  rw [ht] at hstands
  generalize s.dealing i = b at hgoes hstands
  cases hstands with
  | asking =>
      obtain ⟨stage, hstage, hserves⟩ := hserved _ List.mem_cons_self
      rcases hanswer with ⟨result, hresult, rfl⟩ | ⟨hfinished, rfl⟩
      · cases hgoes with
        | stays hawaits => cases hawaits
        | gets c => exact .opened ht hresult
        | fails f => exact .refused ht hresult
      · -- a request for a channel does not end without a result
        cases hfinished.symm.trans hstage
        cases hserves with
        | ends hne => exact absurd rfl hne
  | returning c =>
      obtain ⟨stage, hstage, hserves⟩ := hserved _ List.mem_cons_self
      rcases hanswer with ⟨result, hresult, rfl⟩ | ⟨hfinished, rfl⟩
      · cases hresult.symm.trans hstage
        cases hserves
      · cases hgoes with
        | stays hawaits => cases hawaits
        | ends => exact .released ht hfinished

/-- A worker that has got its answer has no petition left to wait for. -/
theorem Account.delivers {d : Dealing} (h : s.Account i history answered waiting)
    (hreceives : s.Receives i (s.dealing i) d waiting) (hdealing : s'.dealing i = d)
    (hpending : s'.pending i = none) (htable : s'.table = s.table) :
    s'.Account i history history [] := by
  have hhistory := h.history
  subst hhistory
  constructor
  · exact (List.append_nil _).symm
  · rw [hdealing, hpending]
    exact hreceives.stands
  · rw [htable]
    intro p hp
    rcases List.mem_append.1 hp with hp | hp
    · exact h.ended p hp
    · exact hreceives.ended p hp
  · rw [htable, hdealing, openedIn_append, releasedIn_append, h.balanced, List.append_assoc,
      hreceives.balanced, List.append_assoc]

/-- A worker that neither has a channel nor waits for one has released all that it has opened. -/
theorem Account.of_idle (h : s.Account i history answered waiting) (hidle : s.dealing i = .idle) :
    openedIn s.table history = releasedIn s.table history ∧
      ∀ p ∈ history, ∃ stage, s.table.requests p.task = some stage ∧ stage.isOver = true := by
  have hstands := h.stands
  have hbalanced := h.balanced
  have hhistory := h.history
  rw [hidle] at hstands hbalanced
  generalize s.pending i = pending at hstands
  cases hstands
  rw [List.append_nil] at hhistory
  subst hhistory
  exact ⟨hbalanced.trans (List.append_nil _), h.ended⟩

/-- A worker has released all channels that it has opened but one. -/
theorem Account.single (h : s.Account i history answered waiting)
    (hserved : ∀ p ∈ waiting, ∃ stage, s.table.requests p.task = some stage ∧
      stage.Serves p.request) :
    ∃ held : Option ChannelRef,
      openedIn s.table history = releasedIn s.table history ++ held.toList := by
  have hstands := h.stands
  have hbalanced := h.balanced
  have hhistory := h.history
  subst hhistory
  rw [openedIn_append, releasedIn_append, hbalanced]
  generalize s.dealing i = d, s.pending i = pending at hstands
  cases hstands with
  | idle => exact ⟨none, rfl⟩
  | engaged c =>
      refine ⟨some c, ?_⟩
      show _ ++ [c] ++ [] = _ ++ [] ++ [c]
      rw [List.append_nil, List.append_nil]
  | asking t =>
      refine ⟨s.table.openedAt? t, ?_⟩
      rw [openedIn_singleton]
      show _ ++ [] ++ _ = _ ++ [] ++ _
      rfl
  | returning c t =>
      obtain ⟨stage, hstage, hserves⟩ := hserved _ List.mem_cons_self
      have hopened : openedIn s.table [⟨i, t, .release c⟩] = [] := by
        rw [openedIn_singleton, ChannelTable.openedAt?, hstage]
        cases hserves <;> rfl
      rw [hopened, releasedIn_singleton, Petition.released?, hstage, List.append_nil]
      cases hserves with
      | waits => exact ⟨some c, by simp [Dealing.held?]⟩
      | closes => exact ⟨some c, by simp [Dealing.held?]⟩
      | ends => exact ⟨none, by simp [Dealing.held?]⟩

end Account

section Books

variable {s s' : Fleet} {ledger : List Petition} {i j : WorkerId} {w next : Worker} {t : TaskId}

/-- Requests are numbered in the order in which they are made. -/
theorem Books.lt_next (h : s.Books ledger) {stage : ChannelStage}
    (hstage : s.table.requests t = some stage) : t < s.next := by
  refine Nat.lt_of_not_le fun hle => ?_
  rw [h.unmade t hle] at hstage
  cases hstage

theorem Books.free (h : s.Books ledger) : s.table.requests s.next = none := h.unmade _ (Nat.le_refl _)

/-- Every request of the table was made by a worker, and by one only. -/
theorem Books.petition (h : s.Books ledger) {stage : ChannelStage}
    (hstage : s.table.requests t = some stage) : ∃ p ∈ ledger, p.task = t := by
  have hmem : t ∈ ledger.map Petition.task := by
    rw [h.numbered, List.mem_range]
    exact h.lt_next hstage
  exact List.mem_map.1 hmem

theorem Books.nodup (h : s.Books ledger) : (ledger.map Petition.task).Nodup := by
  rw [h.numbered]
  exact List.nodup_range

/-- A worker waits for a request that was made. -/
theorem Books.pending_lt (h : s.Books ledger) (ht : s.pending i = some t) : t < s.next := by
  obtain ⟨answered, waiting, haccount⟩ := h.accounts i
  have hstands := haccount.stands
  rw [ht] at hstands
  obtain ⟨p, hp, rfl⟩ : ∃ p ∈ waiting, p.task = t := by
    generalize s.dealing i = b at hstands
    cases hstands with
    | asking => exact ⟨_, List.mem_cons_self, rfl⟩
    | returning => exact ⟨_, List.mem_cons_self, rfl⟩
  have hin : p ∈ petitionsOf i ledger := haccount.history ▸ List.mem_append_right _ hp
  obtain ⟨stage, hstage, -⟩ := h.served p (mem_petitionsOf.1 hin).1
  exact h.lt_next hstage

/-- A request for a channel that is not over is the one that its worker waits for. -/
theorem Books.asker (h : s.Books ledger) {stage : ChannelStage}
    (hstage : s.table.requests t = some stage) (hover : stage.isOver = false)
    (honly : ∀ r, stage.Serves r → r = .openNew) :
    ∃ i, s.dealing i = .asking ∧ s.pending i = some t := by
  obtain ⟨p, hp, rfl⟩ := h.petition hstage
  obtain ⟨answered, waiting, haccount⟩ := h.accounts p.worker
  have hmem : p ∈ petitionsOf p.worker ledger := mem_petitionsOf.2 ⟨hp, rfl⟩
  rw [haccount.history] at hmem
  -- an answered request would be over
  have hwaiting : p ∈ waiting := by
    refine (List.mem_append.1 hmem).resolve_left fun hanswered => ?_
    obtain ⟨stage', hstage', hended⟩ := haccount.ended p hanswered
    cases hstage.symm.trans hstage'
    rw [hover] at hended
    cases hended
  have hrequest : p.request = .openNew := by
    obtain ⟨stage', hstage', hserves⟩ := h.served p hp
    cases hstage.symm.trans hstage'
    exact honly _ hserves
  refine ⟨p.worker, ?_⟩
  have hstands := haccount.stands
  generalize s.dealing p.worker = d, s.pending p.worker = pending at hstands
  cases hstands with
  | idle => cases hwaiting
  | engaged c => cases hwaiting
  | asking u =>
      rw [List.mem_singleton.1 hwaiting]
      exact ⟨rfl, rfl⟩
  | returning c u =>
      rw [List.mem_singleton.1 hwaiting] at hrequest
      cases hrequest

/-- A worker that waits for the release of its channel has asked for it. -/
theorem Books.releases (h : s.Books ledger) {c : ChannelRef} (hdealing : s.dealing i = .returning c)
    (ht : s.pending i = some t) :
    ∃ stage, s.table.requests t = some stage ∧ stage.Serves (.release c) := by
  obtain ⟨answered, waiting, haccount⟩ := h.accounts i
  have hstands := haccount.stands
  rw [hdealing, ht] at hstands
  cases hstands
  have hmem : ⟨i, t, .release c⟩ ∈ petitionsOf i ledger :=
    haccount.history ▸ List.mem_append_right _ List.mem_cons_self
  exact h.served _ (mem_petitionsOf.1 hmem).1

theorem books_initial (table : ChannelTable) (workers : List Worker)
    (htable : table.requests = fun _ => none)
    (hworkers : ∀ w ∈ workers, w.phase.dealing = .idle) :
    ({ table, workers } : Fleet).Books [] := by
  constructor
  · rfl
  · rintro p ⟨⟩
  · intro t _
    show table.requests t = none
    rw [htable]
  · intro i
    have hidle : ({ table, workers } : Fleet).dealing i = .idle := by
      rw [dealing]
      cases hi : workers[i]? with
      | none => rfl
      | some w => exact hworkers w (List.mem_of_getElem? hi)
    refine ⟨[], [], rfl, ?_, ?_, ?_⟩
    · rw [hidle]
      exact .idle
    · rintro p ⟨⟩
    · rw [hidle]
      rfl

theorem Books.serves (h : s.Books ledger) {e : ChannelEvent} (he : ∀ t r, e ≠ .spawn t r) :
    ({ s with table := s.table.step e } : Fleet).Books ledger := by
  constructor
  · exact h.numbered
  · intro p hp
    obtain ⟨stage, hstage, hserves⟩ := h.served p hp
    exact ChannelTable.requests_step_serves e hstage hserves
  · intro t ht
    exact ChannelTable.requests_step_none (h.unmade t ht) (he t)
  · intro i
    obtain ⟨answered, waiting, haccount⟩ := h.accounts i
    refine ⟨answered, waiting, haccount.carry rfl rfl fun t stage hstage hover => ?_⟩
    exact ChannelTable.requests_step_over e hstage hover

theorem Books.works (h : s.Books ledger) (hi : s.workers[i]? = some w)
    (hsame : next.phase.dealing = w.phase.dealing) : (s.setWorker i next).Books ledger := by
  refine ⟨h.numbered, h.served, h.unmade, fun j => ?_⟩
  obtain ⟨answered, waiting, haccount⟩ := h.accounts j
  refine ⟨answered, waiting, haccount.carry ?_ rfl fun t stage hstage _ => hstage⟩
  by_cases heq : j = i
  · rw [heq, dealing_setWorker_self hi, hsame, dealing_of_worker hi]
  · exact dealing_setWorker_of_ne heq

theorem Books.asks (h : s.Books ledger) (hi : s.workers[i]? = some w) {e : WorkerEvent}
    {r : ChannelRequest} (hgoes : w.phase.dealing.Goes e next.phase.dealing [r]) :
    ((s.setWorker i next).request i r).Books (ledger ++ [⟨i, s.next, r⟩]) := by
  obtain ⟨hrequests, -⟩ := ChannelTable.step_spawn h.free r
  have hother : ∀ {t stage}, s.table.requests t = some stage →
      ((s.setWorker i next).request i r).table.requests t = some stage := by
    intro t stage hstage
    have hne : t ≠ s.next := Nat.ne_of_lt (h.lt_next hstage)
    exact (congrFun hrequests t).trans ((assign_of_ne hne).trans hstage)
  constructor
  · rw [List.map_append, h.numbered]
    exact List.range_succ.symm
  · intro p hp
    rcases List.mem_append.1 hp with hp | hp
    · obtain ⟨stage, hstage, hserves⟩ := h.served p hp
      exact ⟨stage, hother hstage, hserves⟩
    · rw [List.mem_singleton.1 hp]
      exact ⟨_, (congrFun hrequests s.next).trans (assign_self ..), .waits r⟩
  · intro t ht
    have hlt : s.next < t := ht
    have hne : t ≠ s.next := Nat.ne_of_gt hlt
    exact (congrFun hrequests t).trans ((assign_of_ne hne).trans (h.unmade t (Nat.le_of_lt hlt)))
  · intro j
    obtain ⟨answered, waiting, haccount⟩ := h.accounts j
    rw [petitionsOf_append]
    by_cases heq : j = i
    · subst heq
      have hgoes' : (s.dealing j).Goes e next.phase.dealing [r] := by
        rw [dealing_of_worker hi]
        exact hgoes
      rw [petitionsOf_self]
      refine ⟨answered, _, haccount.asks h.free hgoes' ?_ (assign_self ..) hrequests⟩
      exact dealing_setWorker_self hi
    · rw [petitionsOf_of_ne heq, List.append_nil]
      refine ⟨answered, waiting, haccount.carry ?_ (assign_of_ne heq) fun t stage hstage _ => ?_⟩
      · exact dealing_setWorker_of_ne heq
      · exact hother hstage

/-- The outcome that reaches a worker, by its account. -/
theorem Books.receives (h : s.Books ledger) (hi : s.workers[i]? = some w) {e : WorkerEvent}
    (houtcome : s.outcome? i = some e) (hgoes : w.phase.dealing.Goes e next.phase.dealing []) :
    ∃ answered waiting, s.Account i (petitionsOf i ledger) answered waiting ∧
      s.Receives i (s.dealing i) next.phase.dealing waiting := by
  obtain ⟨answered, waiting, haccount⟩ := h.accounts i
  refine ⟨answered, waiting, haccount, haccount.receives (fun p hp => ?_) houtcome ?_⟩
  · have hin : p ∈ petitionsOf i ledger := haccount.history ▸ List.mem_append_right _ hp
    exact h.served p (mem_petitionsOf.1 hin).1
  · rw [dealing_of_worker hi]
    exact hgoes

theorem Books.delivers (h : s.Books ledger) (hi : s.workers[i]? = some w) {e : WorkerEvent}
    (houtcome : s.outcome? i = some e) (hgoes : w.phase.dealing.Goes e next.phase.dealing []) :
    ((s.settle i).setWorker i next).Books ledger := by
  refine ⟨h.numbered, h.served, h.unmade, fun j => ?_⟩
  by_cases heq : j = i
  · subst heq
    obtain ⟨answered, waiting, haccount, hreceives⟩ := h.receives hi houtcome hgoes
    exact ⟨_, [], haccount.delivers hreceives (dealing_setWorker_self hi) (assign_self ..) rfl⟩
  · obtain ⟨answered, waiting, haccount⟩ := h.accounts j
    refine ⟨answered, waiting, haccount.carry ?_ (assign_of_ne heq) fun t stage hstage _ => hstage⟩
    exact dealing_setWorker_of_ne heq

/-- Nobody but a worker waits for an answer. -/
theorem Books.not_lapses (h : s.Books ledger) (hnone : s.workers[i]? = none) {e : WorkerEvent}
    (houtcome : s.outcome? i = some e) : False := by
  obtain ⟨t, ht, -⟩ := outcome?_eq_some houtcome
  obtain ⟨answered, waiting, haccount⟩ := h.accounts i
  have hstands := haccount.stands
  rw [dealing_of_none hnone, ht] at hstands
  cases hstands

/-- Every event keeps the books. -/
theorem Books.step (h : s.Books ledger) (ev : FleetEvent) :
    (s.step ev).Books (ledger ++ s.petitions ev) := by
  have hturn := s.step_turn ev
  generalize s.step ev = s', s.petitions ev = made at hturn
  cases hturn with
  | stays => rwa [List.append_nil]
  | serves he =>
      rw [List.append_nil]
      exact h.serves he
  | works hi hsame =>
      rw [List.append_nil]
      exact h.works hi hsame
  | asks hi hgoes => exact h.asks hi hgoes
  | delivers hi houtcome hgoes =>
      rw [List.append_nil]
      exact h.delivers hi houtcome hgoes
  | lapses hnone houtcome => exact (h.not_lapses hnone houtcome).elim

end Books

end Fleet

end AmqpDelivery
