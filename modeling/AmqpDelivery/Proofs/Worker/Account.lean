import AmqpDelivery.Proofs.Worker.Dispatch
import Mathlib.Data.List.Induction

/-!
# The accounts of a worker

Two accounts relate a worker to the steps that led to it. By the first, what was dispatched are the
worker's deliveries, each of them was read before, and a channel that was read from is engaged until
the worker asks to release it (`Worker.ReadAccount`). By the second, the calls made for a delivery
are those that belong to the stage of its dispatch (`Worker.CallAccount`). Every event keeps both,
so they hold after any run (`Worker.account_run`).
-/

namespace AmqpDelivery

/-- A delivery as its handler was given it. -/
def Handling.place (h : Handling) : ChannelRef × Message := (h.channel, h.message)

namespace Worker

/-- A worker that was just spawned. -/
def spawned (d : Definition) (reconnect : ReconnectSettings) (stopping : Bool) : Worker :=
  { definition := d, reconnect, stopping }

/-- How a worker stands to what it has read. -/
structure ReadAccount (w : Worker) (actions : List WorkerAction) : Prop where
  dispatched : w.handlings.map Handling.place = dispatchesOf actions
  read : (dispatchesOf actions ++ w.waiting?.toList).Sublist (readsOf actions)
  engaged : ∀ c m, (c, m) ∈ readsOf actions →
    w.engaged? = some c ∨ [WorkerAction.submit c m, .release c].Sublist actions

/-- How the dispatches of a worker stand to the calls it has made. -/
structure CallAccount (w : Worker) (steps : Steps) : Prop where
  stages : ∀ (i : Nat) (h : Handling), w.handlings[i]? = some h →
    h.stage.After w.definition h.message (callsFor i steps)
  unused : ∀ i, w.handlings.length ≤ i → callsFor i steps = []
  owned : ∀ c call, (c, call) ∈ callsOf (actionsOf steps) →
    ∃ (i : Nat) (h : Handling), w.handlings[i]? = some h ∧ h.channel = c ∧ call ∈ callsFor i steps

/-! ## Reading and dispatching -/

namespace ReadAccount

variable {w next : Worker} {actions more : List WorkerAction}

/-- A channel that was read from stays engaged until it is asked to be released. -/
theorem engaged_append (h : w.ReadAccount actions)
    (hengaged : next.engaged? = w.engaged? ∨ w.engaged? = none ∨
      ∃ c, w.engaged? = some c ∧ .release c ∈ more) {c : ChannelRef} {m : Message}
    (hread : (c, m) ∈ readsOf actions) :
    next.engaged? = some c ∨
      [WorkerAction.submit c m, .release c].Sublist (actions ++ more) := by
  rcases h.engaged c m hread with hw | hsub
  · rcases hengaged with heq | hnone | ⟨c', hc', hrelease⟩
    · exact Or.inl (heq.trans hw)
    · rw [hnone] at hw
      cases hw
    -- the worker held the channel until these actions, which ask to release it
    · obtain rfl : c' = c := Option.some.inj (hc'.symm.trans hw)
      have hsubmit := List.singleton_sublist.2 ((mem_readsOf actions).1 hread)
      exact Or.inr (hsubmit.append (List.singleton_sublist.2 hrelease))
  · exact Or.inr (hsub.trans (List.sublist_append_left _ _))

/-- Steps that neither read nor dispatch. -/
theorem keep (h : w.ReadAccount actions)
    (hplace : next.handlings.map Handling.place = w.handlings.map Handling.place)
    (hreads : readsOf more = []) (hdispatches : dispatchesOf more = [])
    (hwaiting : next.waiting? = none ∨ next.waiting? = w.waiting?)
    (hengaged : next.engaged? = w.engaged? ∨ w.engaged? = none ∨
      ∃ c, w.engaged? = some c ∧ .release c ∈ more) : next.ReadAccount (actions ++ more) where
  dispatched := by
    rw [hplace, h.dispatched, dispatchesOf_append, hdispatches, List.append_nil]
  read := by
    rw [dispatchesOf_append, readsOf_append, hdispatches, hreads, List.append_nil, List.append_nil]
    rcases hwaiting with hnone | heq
    · rw [hnone, Option.toList_none, List.append_nil]
      exact (List.sublist_append_left _ _).trans h.read
    · rw [heq]
      exact h.read
  engaged := by
    intro c m hread
    rw [readsOf_append, hreads, List.append_nil] at hread
    exact h.engaged_append hengaged hread

/-- A delivery is read. -/
theorem read_step (h : w.ReadAccount actions) {c : ChannelRef} {m : Message}
    (hphase : w.phase = .reading c) :
    ({ w with phase := .entering c m } : Worker).ReadAccount (actions ++ [.submit c m]) where
  dispatched := by
    rw [dispatchesOf_append]
    exact h.dispatched.trans (List.append_nil _).symm
  read := by
    have hread := h.read
    -- nothing waits while the worker reads
    have hwaiting : w.waiting? = none := by simp [waiting?, hphase]
    rw [hwaiting, Option.toList_none, List.append_nil] at hread
    rw [dispatchesOf_append, readsOf_append]
    show (dispatchesOf actions ++ [] ++ [(c, m)]).Sublist (readsOf actions ++ [(c, m)])
    rw [List.append_nil]
    exact hread.append (List.Sublist.refl _)
  engaged := by
    have hengaged : w.engaged? = some c := by simp [engaged?, hphase]
    intro c' m' hread
    rw [readsOf_append, List.mem_append] at hread
    rcases hread with hold | hnew
    · have hkept : ({ w with phase := .entering c m } : Worker).engaged? = w.engaged? :=
        hengaged.symm
      exact h.engaged_append (Or.inl hkept) hold
    · obtain ⟨rfl, rfl⟩ : c' = c ∧ m' = m := by simpa [readsOf] using hnew
      exact Or.inl rfl

/-- The delivery that waited is dispatched. -/
theorem dispatch_step (h : w.ReadAccount actions) {c : ChannelRef} {m : Message}
    (hphase : w.phase = .entering c m) :
    ({ w with
        phase := .turning c
        handlings := w.handlings ++ [{ channel := c, message := m }] } : Worker).ReadAccount
      (actions ++ [.handle c m]) where
  dispatched := by
    rw [dispatchesOf_append, ← h.dispatched]
    exact List.map_append
  read := by
    have hread := h.read
    -- the delivery goes from the waiting place to the end of those dispatched
    have hwaiting : w.waiting? = some (c, m) := by simp [waiting?, hphase]
    rw [hwaiting] at hread
    rw [dispatchesOf_append, readsOf_append]
    show (dispatchesOf actions ++ [(c, m)] ++ []).Sublist (readsOf actions ++ [])
    rw [List.append_nil, List.append_nil]
    exact hread
  engaged := by
    have hengaged : w.engaged? = some c := by simp [engaged?, hphase]
    intro c' m' hread
    rw [readsOf_append, List.mem_append] at hread
    have hold : (c', m') ∈ readsOf actions := hread.resolve_right List.not_mem_nil
    have hkept : w.engaged? = some c' ∨
        [WorkerAction.submit c' m', .release c'].Sublist (actions ++ [.handle c m]) :=
      h.engaged_append (Or.inl rfl) hold
    exact hkept.imp hengaged.symm.trans id

/-- The delivery dispatched at place `i`. -/
theorem getElem?_dispatchesOf (h : w.ReadAccount actions) {i : Nat} {handling : Handling}
    (hi : w.handlings[i]? = some handling) :
    (dispatchesOf actions)[i]? = some (handling.channel, handling.message) := by
  rw [← h.dispatched, List.getElem?_map, hi]
  rfl

end ReadAccount

/-! ## Calling -/

/-- Equal cores, place by place. -/
theorem exists_of_core {w next : Worker}
    (hcore : next.handlings.map Handling.core = w.handlings.map Handling.core) {i : Nat}
    {h : Handling} (hi : next.handlings[i]? = some h) :
    ∃ old : Handling, w.handlings[i]? = some old ∧ old.core = h.core := by
  have hmap := congrArg (fun l => l[i]?) hcore
  simp only [List.getElem?_map, hi, Option.map_some] at hmap
  exact Option.map_eq_some_iff.1 hmap.symm

theorem place_of_core {w next : Worker}
    (hcore : next.handlings.map Handling.core = w.handlings.map Handling.core) :
    next.handlings.map Handling.place = w.handlings.map Handling.place := by
  have hmap := congrArg (List.map fun k : ChannelRef × Message × Stage => (k.1, k.2.1)) hcore
  rw [List.map_map, List.map_map] at hmap
  exact hmap

theorem place_modifyHandling (w : Worker) (i : Nat) (stage : Stage) :
    (w.modifyHandling i fun h => { h with stage }).handlings.map Handling.place =
      w.handlings.map Handling.place := by
  apply List.ext_getElem?
  intro j
  rw [List.getElem?_map, List.getElem?_map, getElem?_modifyHandling]
  split
  · rw [Option.map_map]
    rfl
  · rfl

namespace CallAccount

variable {w next : Worker} {steps : Steps} {e : WorkerEvent} {actions : List WorkerAction}

/-- Steps without calls. -/
theorem keep (h : w.CallAccount steps) (hdefinition : next.definition = w.definition)
    (hcore : next.handlings.map Handling.core = w.handlings.map Handling.core)
    (hcalls : callsOf actions = []) : next.CallAccount (steps ++ [(e, actions)]) := by
  have hfor : ∀ i, callsFor i (steps ++ [(e, actions)]) = callsFor i steps := by
    intro i
    simp [hcalls]
  refine ⟨?_, ?_, ?_⟩
  · intro i handling hi
    obtain ⟨old, hold, heq⟩ := exists_of_core hcore hi
    simp only [Handling.core, Prod.mk.injEq] at heq
    rw [hfor, hdefinition, ← heq.2.1, ← heq.2.2]
    exact h.stages i old hold
  · intro i hi
    have hlength : next.handlings.length = w.handlings.length := by
      simpa using congrArg List.length hcore
    rw [hfor]
    exact h.unused i (hlength ▸ hi)
  · intro c call hmem
    rw [actionsOf_concat, callsOf_append, hcalls, List.append_nil] at hmem
    obtain ⟨i, old, hold, hchannel, hin⟩ := h.owned c call hmem
    obtain ⟨handling, hi, heq⟩ := exists_of_core hcore.symm hold
    simp only [Handling.core, Prod.mk.injEq] at heq
    exact ⟨i, handling, hi, heq.1.trans hchannel, (hfor i).symm ▸ hin⟩

/-- A handler is started. -/
theorem dispatch_step (h : w.CallAccount steps) {c : ChannelRef} {m : Message}
    (hdefinition : next.definition = w.definition)
    (hnext : next.handlings = w.handlings ++ [{ channel := c, message := m }]) :
    next.CallAccount (steps ++ [(e, [.handle c m])]) := by
  have hfor : ∀ i, callsFor i (steps ++ [(e, [.handle c m])]) = callsFor i steps := by
    intro i
    simp [callsOf]
  refine ⟨?_, ?_, ?_⟩
  · intro i handling hi
    rw [hfor, hdefinition]
    rw [hnext, List.getElem?_append] at hi
    split at hi
    · exact h.stages i handling hi
    -- the new dispatch: no call was made for its place before
    · next hlength =>
      obtain rfl : handling = { channel := c, message := m } := by
        simpa using List.mem_of_getElem? hi
      rw [h.unused i (Nat.le_of_not_lt hlength)]
      exact .handling
  · intro i hi
    rw [hfor]
    rw [hnext, List.length_append] at hi
    exact h.unused i (Nat.le_of_add_right_le hi)
  · intro c' call hmem
    rw [actionsOf_concat, callsOf_append] at hmem
    obtain ⟨i, handling, hi, hchannel, hin⟩ := h.owned c' call (by simpa [callsOf] using hmem)
    refine ⟨i, handling, ?_, hchannel, (hfor i).symm ▸ hin⟩
    rw [hnext]
    exact List.getElem?_append_left (List.getElem?_eq_some_iff.1 hi).1 ▸ hi

/-- A dispatch goes on. -/
theorem advance_step (h : w.CallAccount steps) {i : Nat} {handling : Handling} {stage : Stage}
    (hi : w.handlings[i]? = some handling) (he : e.delivery? = some i)
    (hmoves : handling.stage.Moves w.definition handling.message e stage) :
    (w.modifyHandling i fun h => { h with stage }).CallAccount
      (steps ++ [(e, (stage.call?.map fun call => .call handling.channel call).toList)]) := by
  have hcalls : callsOf (stage.call?.map fun call => .call handling.channel call).toList =
      (stage.call?.map fun call => (handling.channel, call)).toList := by
    cases stage.call? <;> rfl
  have hself : callsFor i
      (steps ++ [(e, (stage.call?.map fun call => .call handling.channel call).toList)]) =
        callsFor i steps ++ stage.call?.toList := by
    rw [callsFor_concat, if_pos he, hcalls]
    cases stage.call? <;> rfl
  have hother : ∀ j, i ≠ j → callsFor j
      (steps ++ [(e, (stage.call?.map fun call => .call handling.channel call).toList)]) =
        callsFor j steps := by
    intro j hj
    rw [callsFor_concat, if_neg (by simpa [he] using hj), List.append_nil]
  refine ⟨?_, ?_, ?_⟩
  · intro j h' hj
    rw [getElem?_modifyHandling] at hj
    by_cases hij : i = j
    · subst hij
      rw [if_pos rfl, hi] at hj
      obtain rfl := Option.some.inj hj
      rw [hself]
      exact (h.stages i handling hi).move hmoves
    · rw [if_neg hij] at hj
      rw [hother j hij]
      exact h.stages j h' hj
  · intro j hj
    rw [modifyHandling, List.length_modify] at hj
    have hij : i ≠ j := by
      have hlt := (List.getElem?_eq_some_iff.1 hi).1
      omega
    rw [hother j hij]
    exact h.unused j hj
  · intro c call hmem
    rw [actionsOf_concat, callsOf_append, hcalls, List.mem_append] at hmem
    rcases hmem with hold | hnew
    -- an old call keeps its delivery, whose stage may have changed
    · obtain ⟨j, old, hj, hchannel, hin⟩ := h.owned c call hold
      by_cases hij : i = j
      · subst hij
        refine ⟨i, { old with stage }, ?_, hchannel, ?_⟩
        · rw [getElem?_modifyHandling, if_pos rfl, hj]
          rfl
        · rw [hself]
          exact List.mem_append_left _ hin
      · refine ⟨j, old, ?_, hchannel, ?_⟩
        · rw [getElem?_modifyHandling, if_neg hij, hj]
        · rw [hother j hij]
          exact hin
    -- the new call is the one of the stage that the dispatch has come to
    · simp only [Option.mem_toList, Option.map_eq_some_iff, Prod.mk.injEq] at hnew
      obtain ⟨call', hcall, rfl, rfl⟩ := hnew
      refine ⟨i, { handling with stage }, ?_, rfl, ?_⟩
      · rw [getElem?_modifyHandling, if_pos rfl, hi]
        rfl
      · rw [hself, hcall]
        exact List.mem_append_right _ List.mem_cons_self

end CallAccount

/-! ## Runs -/

/-- Every event keeps both accounts. -/
theorem account_step {w : Worker} {steps : Steps} (hread : w.ReadAccount (actionsOf steps))
    (hcall : w.CallAccount steps) (e : WorkerEvent) :
    (w.step e).1.ReadAccount (actionsOf (steps ++ [(e, (w.step e).2)])) ∧
      (w.step e).1.CallAccount (steps ++ [(e, (w.step e).2)]) := by
  rw [actionsOf_concat]
  have heffect := step_effect w e
  generalize w.step e = r at heffect
  cases heffect with
  | quiet hdefinition hcore hquiet hwaiting hengaged =>
      obtain ⟨hreads, hdispatches, hcalls⟩ := quiet_actions hquiet
      exact ⟨hread.keep (place_of_core hcore) hreads hdispatches hwaiting hengaged,
        hcall.keep hdefinition hcore hcalls⟩
  | read hphase he => exact ⟨hread.read_step hphase, hcall.keep rfl rfl rfl⟩
  | dispatched hphase => exact ⟨hread.dispatch_step hphase, hcall.dispatch_step rfl rfl⟩
  | @advanced i h stage hi he hmoves =>
      refine ⟨hread.keep (place_modifyHandling w i stage) ?_ ?_ (Or.inr rfl) (Or.inl rfl),
        hcall.advance_step hi he hmoves⟩
      · cases stage.call? <;> rfl
      · cases stage.call? <;> rfl

/-- Both accounts hold after any run. -/
theorem account_run (d : Definition) (reconnect : ReconnectSettings) (stopping : Bool)
    (events : List WorkerEvent) :
    ((spawned d reconnect stopping).run events).1.ReadAccount
        (actionsOf ((spawned d reconnect stopping).trace events)) ∧
      ((spawned d reconnect stopping).run events).1.CallAccount
        ((spawned d reconnect stopping).trace events) := by
  induction events using List.reverseRecOn with
  | nil =>
      refine ⟨⟨rfl, List.Sublist.refl _, ?_⟩, ⟨?_, fun _ _ => rfl, ?_⟩⟩
      · intro c m hread
        cases hread
      · intro i h hi
        simp [run, spawned] at hi
      · intro c call hmem
        cases hmem
  | append_singleton events e ih =>
      rw [run_concat, trace_concat]
      exact account_step ih.1 ih.2 e

/-- The definition stays. -/
theorem definition_run (w : Worker) (events : List WorkerEvent) :
    (w.run events).1.definition = w.definition := by
  induction events using List.reverseRecOn with
  | nil => rfl
  | append_singleton events e ih =>
      have heffect := step_effect (w.run events).1 e
      rw [run_concat, ← ih]
      generalize (w.run events).1.step e = r at heffect
      cases heffect with
      | quiet hdefinition => exact hdefinition
      | read => rfl
      | dispatched => rfl
      | advanced => rfl

/-- A call is made when the dispatch of a delivery goes on, on the channel the delivery arrived
on. -/
theorem exists_of_call {w : Worker} {e : WorkerEvent} {c : ChannelRef} {call : ChannelCall}
    (h : (c, call) ∈ callsOf (w.step e).2) :
    ∃ (i : Nat) (handling : Handling) (stage : Stage), w.handlings[i]? = some handling ∧
      handling.channel = c ∧ e.delivery? = some i ∧ stage.call? = some call ∧
        handling.stage.Moves w.definition handling.message e stage := by
  have heffect := step_effect w e
  generalize w.step e = r at heffect h
  cases heffect with
  | quiet _ _ hquiet _ _ =>
      rw [(quiet_actions hquiet).2.2] at h
      cases h
  | read => cases h
  | dispatched => cases h
  | @advanced i handling stage hi he hmoves =>
      have hmem := (mem_callsOf _).1 h
      simp only [Option.mem_toList, Option.map_eq_some_iff, WorkerAction.call.injEq] at hmem
      obtain ⟨call', hcall, rfl, rfl⟩ := hmem
      exact ⟨i, handling, stage, hi, rfl, he, hcall, hmoves⟩

end Worker

end AmqpDelivery
