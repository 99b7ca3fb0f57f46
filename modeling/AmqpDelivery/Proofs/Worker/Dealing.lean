import AmqpDelivery.Worker.Fleet

/-!
# What a worker asks of the table of channels

A worker waits for a channel, has one, waits for its release, or has nothing to do with the table
(`Phase.dealing`). `Worker.step_trades` opens the steps of a worker for that: a request is made when
the worker has begun an attempt, or is done with its channel, and never while it waits for the answer
to another.
-/

namespace AmqpDelivery

/-- How a worker stands to the table of channels. -/
inductive Dealing where
  /-- It holds no channel and waits for none. -/
  | idle
  /-- It waits for a channel. -/
  | asking
  | engaged (channel : ChannelRef)
  /-- It waits for the release of its channel. -/
  | returning (channel : ChannelRef)

def Phase.dealing : Phase → Dealing
  | .opening _ => .asking
  | .preparing c _ _ | .turning c | .reading c | .entering c _ | .leaving c _ | .cancelling c _
  | .draining c _ => .engaged c
  | .releasing c _ => .returning c
  | _ => .idle

/-- The event is the answer that the worker waits for. -/
def Dealing.awaits : Dealing → WorkerEvent → Bool
  | .asking, .opened _ => true
  | .returning _, .released => true
  | _, _ => false

/-- The event is an answer of the table. -/
def WorkerEvent.isFromTable : WorkerEvent → Bool
  | .opened _ | .released => true
  | _ => false

theorem Dealing.awaits_eq_false (d : Dealing) {e : WorkerEvent} (h : e.isFromTable = false) :
    d.awaits e = false := by
  cases d <;> cases e <;> first | rfl | cases h

/-- What an event does to the dealings of a worker, with the requests that it makes. -/
inductive Dealing.Goes : Dealing → WorkerEvent → Dealing → List ChannelRequest → Prop
  | stays {d : Dealing} {e : WorkerEvent} (h : d.awaits e = false) : Goes d e d []
  | asks {e : WorkerEvent} (h : e.isFromTable = false) : Goes .idle e .asking [.openNew]
  | gets (c : ChannelRef) : Goes .asking (.opened (.ok c)) (.engaged c) []
  | fails (f : Failure) : Goes .asking (.opened (.error f)) .idle []
  | returns {e : WorkerEvent} (c : ChannelRef) (h : e.isFromTable = false) :
      Goes (.engaged c) e (.returning c) [.release c]
  | ends (c : ChannelRef) : Goes (.returning c) .released .idle []

namespace Worker

/-- The dealings of the worker go on as they may, with the requests among its actions. -/
def Trades (w : Worker) (e : WorkerEvent) (r : Worker × List WorkerAction) : Prop :=
  w.phase.dealing.Goes e r.1.phase.dealing (r.2.filterMap Fleet.requestOf?)

section Trades

variable {w next : Worker} {e : WorkerEvent} {actions : List WorkerAction}

/-- A worker that goes on from the phase `a` without a request. -/
theorem trades_stay {a : Phase} (hp : w.phase = a) (hdealing : next.phase.dealing = a.dealing)
    (hrequests : actions.filterMap Fleet.requestOf? = []) (hawaits : a.dealing.awaits e = false) :
    w.Trades e (next, actions) := by
  subst hp
  rw [Trades, hdealing, hrequests]
  exact .stays hawaits

theorem trades_none (h : w.phase.dealing.awaits e = false) : w.Trades e (w, []) :=
  trades_stay rfl rfl rfl h

theorem trades_none_of_other (h : e.isFromTable = false) : w.Trades e (w, []) :=
  trades_none (Dealing.awaits_eq_false _ h)

/-- A worker that is done with its channel asks for its release. -/
theorem trades_return {c : ChannelRef} (he : e.isFromTable = false)
    (hbefore : w.phase.dealing = .engaged c)
    (hafter : next.phase.dealing = .returning c)
    (hrequests : actions.filterMap Fleet.requestOf? = [.release c]) : w.Trades e (next, actions) := by
  rw [Trades, hbefore, hafter, hrequests]
  exact .returns c he

theorem trades_proceed : w.Trades .proceed (w.proceed w.phase) := by
  cases hp : w.phase with
  | starting =>
      simp only [proceed]
      split <;> exact trades_stay hp rfl rfl rfl
  | turning c =>
      simp only [proceed, goto]
      split <;> exact trades_stay hp rfl rfl rfl
  | concluding result => cases result <;> exact trades_stay hp rfl rfl rfl
  | deciding =>
      simp only [proceed]
      split <;> exact trades_stay hp rfl rfl rfl
  | _ => exact trades_none_of_other rfl

theorem trades_notice : w.Trades .notice (w.notice w.phase) := by
  cases hp : w.phase with
  | connecting => exact trades_stay hp rfl rfl rfl
  | reading c => exact trades_stay hp rfl rfl rfl
  | entering c m => exact trades_stay hp rfl rfl rfl
  | resting ms => exact trades_stay hp rfl rfl rfl
  | _ => exact trades_none_of_other rfl

/-- A worker that has the connection asks for a channel. -/
theorem trades_connected (result : Except Failure ConnectionId) :
    w.Trades (.connected result) (w.connected result w.phase) := by
  cases hp : w.phase with
  | connecting =>
      cases result with
      | ok c =>
          rw [Trades, hp]
          exact .asks rfl
      | error f => exact trades_stay hp rfl rfl rfl
  | _ => exact trades_none_of_other rfl

theorem trades_opened (result : Except Failure ChannelRef) :
    w.Trades (.opened result) (w.opened result w.phase) := by
  cases hp : w.phase with
  | opening connection =>
      rw [Trades, hp]
      cases result with
      | ok c => exact .gets c
      | error f => exact .fails f
  | _ => exact trades_none (by rw [hp]; rfl)

theorem trades_prepared (accepted : Bool) :
    w.Trades (.prepared accepted) (w.prepared accepted w.phase) := by
  cases hp : w.phase with
  | preparing c p rest =>
      cases accepted with
      | true => cases rest <;> exact trades_stay hp rfl rfl rfl
      | false => exact trades_return rfl (by rw [hp]; rfl) rfl rfl
  | _ => exact trades_none_of_other rfl

theorem trades_item (i : StreamItem) : w.Trades (.item i) (w.item i w.phase) := by
  cases hp : w.phase with
  | reading c => cases i <;> exact trades_stay hp rfl rfl rfl
  | _ => exact trades_none_of_other rfl

theorem trades_entered (result : Except Failure Unit) :
    w.Trades (.entered result) (w.entered result w.phase) := by
  cases hp : w.phase with
  | entering c m => cases result <;> exact trades_stay hp rfl rfl rfl
  | _ => exact trades_none_of_other rfl

theorem trades_status (isConnected : Bool) :
    w.Trades (.status isConnected) (w.status isConnected w.phase) := by
  cases hp : w.phase with
  | leaving c result => cases isConnected <;> exact trades_stay hp rfl rfl rfl
  | _ => exact trades_none_of_other rfl

theorem trades_drained : w.Trades .drained (w.drained w.phase) := by
  cases hp : w.phase with
  | draining c result =>
      simp only [drained]
      split
      · exact trades_return rfl (by rw [hp]; rfl) rfl rfl
      · exact trades_none (by rw [hp]; rfl)
  | _ => exact trades_none_of_other rfl

theorem trades_expired : w.Trades .expired (w.expired w.phase) := by
  cases hp : w.phase with
  | draining c result =>
      refine trades_return (c := c) rfl (by rw [hp]; rfl) rfl ?_
      have haborts : ((w.unfinished c).map WorkerAction.abort).filterMap Fleet.requestOf? = [] := by
        rw [List.filterMap_map, List.filterMap_eq_nil_iff]
        exact fun _ _ => rfl
      rw [List.filterMap_append, haborts]
      rfl
  | _ => exact trades_none_of_other rfl

theorem trades_released : w.Trades .released (w.released w.phase) := by
  cases hp : w.phase with
  | releasing c result =>
      rw [Trades, hp]
      exact .ends c
  | _ => exact trades_none (by rw [hp]; rfl)

theorem trades_rested : w.Trades .rested (w.rested w.phase) := by
  cases hp : w.phase with
  | resting ms => exact trades_stay hp rfl rfl rfl
  | _ => exact trades_none_of_other rfl

/-- Dispatching has nothing to do with the table. -/
theorem trades_advance (h : w.phase.dealing.awaits e = false) (i : Nat) (f : Handling → Stage) :
    w.Trades e (w.advance i f) := by
  unfold advance
  cases w.handlings[i]? with
  | none => exact trades_none h
  | some handling =>
      simp only
      split
      · exact trades_none h
      · refine trades_stay rfl rfl ?_ h
        cases (f handling).call? <;> rfl

/-- Every event lets the dealings of a worker go on as they may. -/
theorem step_trades (w : Worker) (e : WorkerEvent) : w.Trades e (w.step e) := by
  cases e with
  | shutdown => exact trades_stay rfl rfl rfl (Dealing.awaits_eq_false _ rfl)
  | proceed => exact trades_proceed
  | notice =>
      simp only [step]
      split
      · exact trades_notice
      · exact trades_none_of_other rfl
  | connected result => exact trades_connected result
  | opened result => exact trades_opened result
  | prepared accepted => exact trades_prepared accepted
  | item i => exact trades_item i
  | entered result => exact trades_entered result
  | status isConnected => exact trades_status isConnected
  | cancelled =>
      simp only [step]
      split
      · next c result hp => exact trades_stay hp rfl rfl rfl
      · exact trades_none_of_other rfl
  | drained => exact trades_drained
  | expired => exact trades_expired
  | released => exact trades_released
  | rested => exact trades_rested
  | handled i run =>
      have hawaits : w.phase.dealing.awaits (.handled i run) = false := Dealing.awaits_eq_false _ rfl
      simp only [step, handled]
      split
      · exact trades_advance hawaits i _
      · exact trades_none hawaits
  | answered i result =>
      have hawaits : w.phase.dealing.awaits (.answered i result) = false :=
        Dealing.awaits_eq_false _ rfl
      simp only [step, answered]
      split
      · exact trades_none hawaits
      · exact trades_advance hawaits i _
  | dropped i => exact trades_stay rfl rfl rfl (Dealing.awaits_eq_false _ rfl)

end Trades

end Worker

end AmqpDelivery
