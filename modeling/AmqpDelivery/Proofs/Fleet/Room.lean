import Mathlib.Data.List.Perm.Subperm
import AmqpDelivery.Proofs.Channels.Cap
import AmqpDelivery.Proofs.Fleet.Accounts

/-!
# Restarts exhaust no channels

Every entry of the table belongs to a channel that some worker has been given and has not begun to
give back, or is about to be given (`Fleet.Keeps`), and a worker that asks for a channel has none. So
as long as there are no more workers than channels, no request for a channel is refused for want of
room, however often the workers fail and start over, and every worker that has left an attempt has
released each channel it has opened once (`Fleet.channels_suffice`).
-/

namespace AmqpDelivery

/-- The worker is not within an attempt: it is about to begin one, or the last one has ended. -/
def Worker.isAtRest (w : Worker) : Bool :=
  match w.phase with
  | .starting | .concluding _ | .deciding | .resting _ | .stopped => true
  | _ => false

namespace Fleet

/-- The channel has been given to the worker, or is about to be, and a release of it has not been
served. -/
inductive Keeps (s : Fleet) (i : WorkerId) (c : ChannelRef) : Prop
  | opened {t : TaskId} (hasks : s.dealing i = .asking) (ht : s.pending i = some t)
      (hopened : s.table.openedAt? t = some c)
  | engaged (hengaged : s.dealing i = .engaged c)
  | returning {t : TaskId} (hreturns : s.dealing i = .returning c) (ht : s.pending i = some t)
      (hwaits : s.table.isWaiting t = true)

/-- The channel that the worker keeps. -/
def kept? (s : Fleet) (i : WorkerId) : Option ChannelRef :=
  match s.dealing i with
  | .idle => none
  | .asking => (s.pending i).bind s.table.openedAt?
  | .engaged c => some c
  | .returning c => if (s.pending i).any s.table.isWaiting then some c else none

/-- Every entry of the table belongs to a channel that a worker keeps. -/
def Covered (s : Fleet) : Prop := ∀ e ∈ s.table.entries, ∃ i, s.Keeps i e.2

/-- The table is sound and has room for every worker, and has refused none. -/
structure Roomy (s : Fleet) : Prop where
  sound : s.table.Sound
  enough : s.workers.length ≤ s.table.bound.toNat
  covered : s.Covered
  admitted : ∀ t b, s.table.requests t ≠ some (.opened (.error (.capacity b)))

/-- How a fleet whose workers have made these requests uses the channels of its table. -/
structure Economical (s : Fleet) (ledger : List Petition) : Prop where
  /-- The ledger has every request of the table. -/
  recorded : ∀ t stage, s.table.requests t = some stage →
    ∃ p ∈ ledger, p.task = t ∧ stage.Serves p.request
  /-- No request for a channel is refused for want of room. -/
  admitted : ∀ t b, s.table.requests t ≠ some (.opened (.error (.capacity b)))
  /-- A worker has released the channels that it has opened, each once, but for one at most. -/
  single : ∀ i, ∃ held : Option ChannelRef,
    openedIn s.table (petitionsOf i ledger) =
      releasedIn s.table (petitionsOf i ledger) ++ held.toList
  /-- No channel is opened twice. -/
  distinct : (openedIn s.table ledger).Nodup
  /-- A worker that is not within an attempt has released all of them, and waits for no release. -/
  returned : ∀ i w, s.workers[i]? = some w → w.isAtRest = true →
    openedIn s.table (petitionsOf i ledger) = releasedIn s.table (petitionsOf i ledger) ∧
      ∀ p ∈ petitionsOf i ledger, ∃ stage, s.table.requests p.task = some stage ∧ stage.isOver = true

section Keeps

variable {s s' : Fleet} {i : WorkerId} {c : ChannelRef} {ledger : List Petition}

theorem Keeps.kept (h : s.Keeps i c) : s.kept? i = some c := by
  unfold kept?
  cases h with
  | opened hasks ht hopened => rw [hasks, ht]; exact hopened
  | engaged hengaged => rw [hengaged]
  | returning hreturns ht hwaits =>
      rw [hreturns, ht]
      exact if_pos hwaits

theorem Keeps.not_idle (h : s.Keeps i c) : s.dealing i ≠ .idle := by
  cases h with
  | opened hasks ht hopened => rw [hasks]; rintro ⟨⟩
  | engaged hengaged => rw [hengaged]; rintro ⟨⟩
  | returning hreturns ht hwaits => rw [hreturns]; rintro ⟨⟩

theorem lt_length_of_not_idle (h : s.dealing i ≠ .idle) : i < s.workers.length :=
  Nat.lt_of_not_le fun hle => h (dealing_of_none (List.getElem?_eq_none hle))

/-- A worker that is not concerned keeps its channel. -/
theorem Keeps.carry (h : s.Keeps i c) (hdealing : s'.dealing i = s.dealing i)
    (hpending : s'.pending i = s.pending i)
    (hrequests : ∀ t, s.pending i = some t → s'.table.requests t = s.table.requests t) :
    s'.Keeps i c := by
  cases h with
  | opened hasks ht hopened =>
      refine .opened (hdealing.trans hasks) (hpending.trans ht) ?_
      rw [ChannelTable.openedAt?, hrequests _ ht]
      exact hopened
  | engaged hengaged => exact .engaged (hdealing.trans hengaged)
  | returning hreturns ht hwaits =>
      refine .returning (hdealing.trans hreturns) (hpending.trans ht) ?_
      rw [ChannelTable.isWaiting, hrequests _ ht]
      exact hwaits

/-- The table serves a request, and the channels that are kept stay so unless their entries go. -/
theorem Covered.serves (h : s.Covered) (hbooks : s.Books ledger) (hfiled : s.table.Filed)
    (e : ChannelEvent) : ({ s with table := s.table.step e } : Fleet).Covered := by
  intro entry hin
  rcases ChannelTable.entry_step hfiled hin with ⟨t, hopening, hopened⟩ | ⟨hold, hwaits⟩
  · obtain ⟨i, hasks, ht⟩ := hbooks.asker hopening rfl (by rintro r ⟨⟩; rfl)
    exact ⟨i, .opened hasks ht hopened⟩
  · obtain ⟨i, hkeeps⟩ := h entry hold
    refine ⟨i, ?_⟩
    cases hkeeps with
    | opened hasks ht hopened => exact .opened hasks ht (ChannelTable.openedAt?_step e hopened)
    | engaged hengaged => exact .engaged hengaged
    | returning hreturns ht hwaiting =>
        -- had the release been served now, the entry would be gone
        obtain ⟨r, hr⟩ := ChannelTable.isWaiting_iff.1 hwaiting
        obtain ⟨stage, hstage, hserves⟩ := hbooks.releases hreturns ht
        cases hr.symm.trans hstage
        cases hserves
        exact .returning hreturns ht (hwaits _ hr)

theorem Covered.works {w next : Worker} (h : s.Covered) (hi : s.workers[i]? = some w)
    (hsame : next.phase.dealing = w.phase.dealing) : (s.setWorker i next).Covered := by
  intro entry hin
  obtain ⟨j, hkeeps⟩ := h entry hin
  refine ⟨j, hkeeps.carry ?_ rfl fun t _ => rfl⟩
  by_cases heq : j = i
  · rw [heq, dealing_setWorker_self hi, hsame, dealing_of_worker hi]
  · exact dealing_setWorker_of_ne heq

/-- A worker that asks for the release of its channel keeps it until the request is served. -/
theorem Covered.asks {w next : Worker} {e : WorkerEvent} {r : ChannelRequest} (h : s.Covered)
    (hbooks : s.Books ledger) (hi : s.workers[i]? = some w)
    (hgoes : w.phase.dealing.Goes e next.phase.dealing [r]) :
    ((s.setWorker i next).request i r).Covered := by
  obtain ⟨hrequests, hentries⟩ := ChannelTable.step_spawn hbooks.free r
  intro entry hin
  have hin : entry ∈ (s.table.step (.spawn s.next r)).entries := hin
  rw [hentries] at hin
  obtain ⟨j, hkeeps⟩ := h entry hin
  refine ⟨j, ?_⟩
  by_cases heq : j = i
  · subst heq
    have hbefore : s.dealing j = w.phase.dealing := dealing_of_worker hi
    have hafter : ((s.setWorker j next).request j r).dealing j = next.phase.dealing :=
      dealing_setWorker_self hi
    generalize w.phase.dealing = b, next.phase.dealing = d at hgoes hbefore hafter
    cases hgoes with
    | asks => exact absurd hbefore hkeeps.not_idle
    | returns c =>
        -- it keeps the channel that it asks to be released
        have hkept := hkeeps.kept
        rw [kept?, hbefore] at hkept
        cases hkept
        refine .returning hafter (assign_self ..) ?_
        refine ChannelTable.isWaiting_iff.2 ⟨.release entry.2, ?_⟩
        exact (congrFun hrequests s.next).trans (assign_self ..)
  · refine hkeeps.carry (dealing_setWorker_of_ne heq) (assign_of_ne heq) fun t ht => ?_
    exact (congrFun hrequests t).trans (assign_of_ne (Nat.ne_of_lt (hbooks.pending_lt ht)))

/-- A worker that is told that its channel was opened has it; one that is told that its channel was
released has lost it before. -/
theorem Covered.delivers {w next : Worker} {e : WorkerEvent} (h : s.Covered)
    (hbooks : s.Books ledger) (hi : s.workers[i]? = some w) (houtcome : s.outcome? i = some e)
    (hgoes : w.phase.dealing.Goes e next.phase.dealing []) :
    ((s.settle i).setWorker i next).Covered := by
  intro entry hin
  obtain ⟨j, hkeeps⟩ := h entry hin
  refine ⟨j, ?_⟩
  by_cases heq : j = i
  · subst heq
    obtain ⟨answered, waiting, -, hreceives⟩ := hbooks.receives hi houtcome hgoes
    have hkept := hkeeps.kept
    have hafter : ((s.settle j).setWorker j next).dealing j = next.phase.dealing :=
      dealing_setWorker_self hi
    unfold kept? at hkept
    generalize s.dealing j = b, next.phase.dealing = d at hreceives hkept hafter
    cases hreceives with
    | opened ht hopened =>
        simp only [ht, Option.bind_some, ChannelTable.openedAt?, hopened] at hkept
        cases hkept
        exact .engaged hafter
    | refused ht hrefused =>
        simp only [ht, Option.bind_some, ChannelTable.openedAt?, hrefused] at hkept
        cases hkept
    | released ht hfinished =>
        simp only [ht, Option.any_some, ChannelTable.isWaiting, hfinished] at hkept
        cases hkept
  · exact hkeeps.carry (dealing_setWorker_of_ne heq) (assign_of_ne heq) fun t _ => rfl

/-- While a worker asks for a channel, the others leave room for it. -/
theorem Covered.length_entries (h : s.Covered) (hfiled : s.table.Filed)
    (hnone : s.kept? i = none) (hi : i < s.workers.length) :
    s.table.entries.length < s.workers.length := by
  have hsubset : s.table.entries.map Prod.snd ⊆
      ((List.range s.workers.length).erase i).filterMap s.kept? := by
    intro c hc
    obtain ⟨entry, hin, rfl⟩ := List.mem_map.1 hc
    obtain ⟨j, hkeeps⟩ := h entry hin
    have hne : j ≠ i := by
      rintro rfl
      cases hnone.symm.trans hkeeps.kept
    have hj : j ∈ List.range s.workers.length :=
      List.mem_range.2 (lt_length_of_not_idle hkeeps.not_idle)
    exact List.mem_filterMap.2 ⟨j, (List.mem_erase_of_ne hne).2 hj, hkeeps.kept⟩
  -- the entries are channels of the others, each once, and each of these keeps one at most
  have hle := (List.subperm_of_subset hfiled.once hsubset).length_le
  have hfilter := List.length_filterMap_le s.kept? ((List.range s.workers.length).erase i)
  have herase := List.length_erase_of_mem (List.mem_range.2 hi)
  rw [List.length_map] at hle
  rw [List.length_range] at herase
  have hpos : 0 < s.workers.length := Nat.zero_lt_of_lt hi
  omega

end Keeps

section Roomy

variable {s : Fleet} {ledger : List Petition}

theorem Roomy.serves (h : s.Roomy) (hbooks : s.Books ledger) (e : ChannelEvent) :
    ({ s with table := s.table.step e } : Fleet).Roomy := by
  constructor
  · exact h.sound.step e
  · show s.workers.length ≤ (s.table.step e).bound.toNat
    rw [ChannelTable.bound_step]
    exact h.enough
  · exact h.covered.serves hbooks h.sound.filed e
  · intro t b hrefused
    obtain ⟨-, hwaits, -, hfull, -⟩ :=
      (s.table.step_change e).refusal (h.admitted t b) hrefused
    obtain ⟨i, hasks, ht⟩ := hbooks.asker hwaits rfl (by rintro r ⟨⟩; rfl)
    -- the worker that asks keeps no channel
    have hnone : s.kept? i = none := by
      simp only [kept?, hasks, ht, Option.bind_some, ChannelTable.openedAt?, hwaits]
    have hi : i < s.workers.length := by
      refine lt_length_of_not_idle ?_
      rw [hasks]
      rintro ⟨⟩
    have hroom := h.covered.length_entries h.sound.filed hnone hi
    have hprune : s.table.prune.entries.length ≤ s.table.entries.length := List.length_filter_le _ _
    have henough := h.enough
    omega

/-- Every event leaves room for every worker. -/
theorem Roomy.step (h : s.Roomy) (hbooks : s.Books ledger) (ev : FleetEvent) :
    (s.step ev).Roomy := by
  have hturn := s.step_turn ev
  generalize s.step ev = s', s.petitions ev = made at hturn
  cases hturn with
  | stays => exact h
  | serves he => exact h.serves hbooks _
  | @works _ i w next hi hsame =>
      refine ⟨h.sound, ?_, h.covered.works hi hsame, h.admitted⟩
      show (s.workers.set i next).length ≤ _
      rw [List.length_set]
      exact h.enough
  | @asks _ i w next e r hi hgoes =>
      obtain ⟨hrequests, -⟩ := ChannelTable.step_spawn hbooks.free r
      refine ⟨h.sound.step (.spawn s.next r), ?_, h.covered.asks hbooks hi hgoes,
        fun t b hrefused => ?_⟩
      · show (s.workers.set i next).length ≤ (s.table.step _).bound.toNat
        rw [List.length_set, ChannelTable.bound_step]
        exact h.enough
      · have hrefused := (congrFun hrequests t).symm.trans hrefused
        rcases assign_eq_some hrefused with ⟨-, ⟨⟩⟩ | ⟨-, hbefore⟩
        exact h.admitted t b hbefore
  | @delivers i w next e hi houtcome hgoes =>
      refine ⟨h.sound, ?_, h.covered.delivers hbooks hi houtcome hgoes, h.admitted⟩
      show (s.workers.set i next).length ≤ _
      rw [List.length_set]
      exact h.enough
  | lapses hnone houtcome => exact (hbooks.not_lapses hnone houtcome).elim

theorem Roomy.run (h : s.Roomy) (hbooks : s.Books ledger) (events : List FleetEvent) :
    (s.run events).Roomy ∧ (s.run events).Books (ledger ++ s.ledger events) := by
  induction events generalizing s ledger with
  | nil =>
      rw [Fleet.ledger, List.append_nil]
      exact ⟨h, hbooks⟩
  | cons ev rest ih =>
      rw [Fleet.ledger, ← List.append_assoc]
      exact ih (h.step hbooks ev) (hbooks.step ev)

theorem dealing_of_rest {w : Worker} (h : w.isAtRest = true) : w.phase.dealing = .idle := by
  unfold Worker.isAtRest at h
  cases hp : w.phase <;> rw [hp] at h <;> first | rfl | cases h

theorem Roomy.economical (h : s.Roomy) (hbooks : s.Books ledger) : s.Economical ledger := by
  constructor
  · intro t stage hstage
    obtain ⟨p, hp, rfl⟩ := hbooks.petition hstage
    obtain ⟨stage', hstage', hserves⟩ := hbooks.served p hp
    cases hstage.symm.trans hstage'
    exact ⟨p, hp, rfl, hserves⟩
  · exact h.admitted
  · intro i
    obtain ⟨answered, waiting, haccount⟩ := hbooks.accounts i
    refine haccount.single fun p hp => ?_
    have hin : p ∈ petitionsOf i ledger := haccount.history ▸ List.mem_append_right _ hp
    exact hbooks.served p (mem_petitionsOf.1 hin).1
  · have htasks : openedIn s.table ledger =
        (ledger.map Petition.task).filterMap s.table.openedAt? := by
      rw [List.filterMap_map]
      rfl
    rw [htasks]
    refine hbooks.nodup.filterMap fun t u c ht hu => ?_
    exact h.sound.orderly.distinct t u c (ChannelTable.openedAt?_eq_some.1 ht)
      (ChannelTable.openedAt?_eq_some.1 hu)
  · intro i w hi hrest
    obtain ⟨answered, waiting, haccount⟩ := hbooks.accounts i
    exact haccount.of_idle ((dealing_of_worker hi).trans (dealing_of_rest hrest))

theorem roomy_initial (bound : UInt16) (workers : List Worker)
    (hroom : workers.length ≤ bound.toNat) :
    ({ table := { bound }, workers } : Fleet).Roomy := by
  refine ⟨ChannelTable.sound_new bound, hroom, ?_, ?_⟩
  · rintro e ⟨⟩
  · rintro t b ⟨⟩

end Roomy

/-- Workers that share a connection with a channel for each of them are never refused one, and each
of them holds one at a time and has released each channel once when it leaves an attempt. -/
theorem channels_suffice (bound : UInt16) (workers : List Worker) (events : List FleetEvent)
    (hnew : ∀ w ∈ workers, w.phase = .starting) (hroom : workers.length ≤ bound.toNat) :
    let init : Fleet := { table := { bound }, workers }
    (init.run events).Economical (init.ledger events) := by
  intro init
  have hbooks : init.Books [] := by
    refine books_initial { bound } workers rfl fun w hw => ?_
    rw [hnew w hw]
    rfl
  obtain ⟨hroomy, hbooks'⟩ := (roomy_initial bound workers hroom).run hbooks events
  exact hroomy.economical hbooks'

/-- Two workers on a connection with two channels: the preparation of the first channel fails, the
second channel is lost, the first worker starts over and gets the id of the lost channel, and then
the lost channel is released, which takes the entry of the first worker's channel away. -/
def restartedRun : List FleetEvent :=
  [.within 0 .proceed, .within 0 (.connected (.ok ⟨"orders", 0⟩)), .table (.proceed 0),
    .table (.answered 0 (some 1)), .deliver 0, .within 0 (.prepared false), .table (.proceed 1),
    .within 1 .proceed, .within 1 (.connected (.ok ⟨"orders", 0⟩)), .table (.closed 1), .deliver 0,
    .table (.proceed 2), .table (.answered 2 (some 1)), .deliver 1, .within 0 .proceed,
    .within 0 .proceed, .within 0 .rested, .within 0 .proceed, .table (.lose 1),
    .within 0 (.connected (.ok ⟨"orders", 0⟩)), .table (.proceed 3), .table (.answered 3 (some 1)),
    .deliver 0, .within 1 (.prepared false), .table (.proceed 4), .deliver 1]

theorem channels_suffice_restarted :
    let worker : Worker := { definition := Definition.new "orders" "orders", reconnect := {} }
    let workers := [worker, worker]
    let init : Fleet := { table := { bound := 2 }, workers }
    let ledger := init.ledger restartedRun
    openedIn (init.run restartedRun).table (petitionsOf 0 ledger) = [0, 2] ∧
      releasedIn (init.run restartedRun).table (petitionsOf 0 ledger) = [0] ∧
      openedIn (init.run restartedRun).table (petitionsOf 1 ledger) = [1] ∧
      releasedIn (init.run restartedRun).table (petitionsOf 1 ledger) = [1] ∧
      (init.run restartedRun).Economical ledger := by
  intro worker workers init ledger
  refine ⟨by decide +kernel, by decide +kernel, by decide +kernel, by decide +kernel, ?_⟩
  refine channels_suffice 2 workers restartedRun (fun w hw => ?_) (by decide)
  rcases List.mem_cons.1 hw with rfl | hw
  · rfl
  · rw [List.mem_singleton.1 hw]

end Fleet

end AmqpDelivery
