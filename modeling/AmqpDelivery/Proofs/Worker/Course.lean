import AmqpDelivery.Proofs.Worker.Stride

/-!
# The course of a worker

A worker makes attempts. Each prepares, and may come to consume; a failed one is followed by a wait
and another, unless the worker stops. So the marks of a worker are those of the rounds that are
behind it (`roundsMarks`) and those of the attempt under way (`Worker.Attempt`), which every event
preserves (`Worker.OnCourse.step`).
-/

namespace AmqpDelivery

/-- The mark of an attempt that has come to consume. -/
def consumption (consumed : Bool) : List WorkerAction :=
  if consumed then [.become .consuming] else []

/-- The marks of a round: an attempt that fails, the wait before the start numbered `k`, and this
start. -/
def roundMarks (r : ReconnectSettings) (k : Nat) (consumed : Bool) : List WorkerAction :=
  consumption consumed ++
    [.become .failed, .rest (backoffDelay r (UInt32.ofNat k)), .become .declaring]

/-- The marks of several rounds, the first of which leads to the start numbered `k`. Of each round
it is given whether it came to consume. -/
def roundsMarks (r : ReconnectSettings) : Nat → List Bool → List WorkerAction
  | _, [] => []
  | k, consumed :: rest => roundMarks r k consumed ++ roundsMarks r (k + 1) rest

/-- The marks of the attempt under way after `k` rounds, by the phase of the worker and the number of
starts that it counts. -/
inductive Worker.Attempt (r : ReconnectSettings) (restarts : Bool) (k : Nat) :
    Phase → UInt32 → List WorkerAction → Prop
  | prepares {phase : Phase} (h : phase.Prepares) : Attempt r restarts k phase (UInt32.ofNat k) []
  | consumes {phase : Phase} (h : phase.Consumes) :
      Attempt r restarts k phase (UInt32.ofNat k) (consumption true)
  | ends {phase : Phase} (consumed : Bool) (h : phase.Ends) :
      Attempt r restarts k phase (UInt32.ofNat k) (consumption consumed)
  | fails (consumed : Bool) :
      Attempt r restarts k .deciding (UInt32.ofNat k) (consumption consumed ++ [.become .failed])
  | rests (consumed : Bool) (h : restarts = true) :
      Attempt r restarts k (.resting (backoffDelay r (UInt32.ofNat (k + 1)))) (UInt32.ofNat (k + 1))
        (consumption consumed ++
          [.become .failed, .rest (backoffDelay r (UInt32.ofNat (k + 1)))])
  | stops (consumed : Bool) (n : UInt32) :
      Attempt r restarts k .stopped n (consumption consumed ++ [.become .stopped])
  | givesUp (consumed : Bool) (n : UInt32) :
      Attempt r restarts k .stopped n
        (consumption consumed ++ [.become .failed, .become .stopped])
  | interrupted (consumed : Bool) (n : UInt32) (h : restarts = true) :
      Attempt r restarts k .stopped n
        (consumption consumed ++
          [.become .failed, .rest (backoffDelay r (UInt32.ofNat (k + 1))), .become .stopped])

/-- The marks of the worker are those of some rounds and of an attempt under way. A worker that does
not start over has no rounds behind it. -/
def Worker.OnCourse (w : Worker) (actions : List WorkerAction) : Prop :=
  ∃ rounds tail, marksOf actions = roundsMarks w.reconnect 1 rounds ++ tail ∧
    Attempt w.reconnect w.definition.restarts rounds.length w.phase w.restarts tail ∧
    (w.definition.restarts = false → rounds = [])

theorem marksOf_append (actions more : List WorkerAction) :
    marksOf (actions ++ more) = marksOf actions ++ marksOf more :=
  List.filter_append _ _

theorem roundsMarks_concat (r : ReconnectSettings) (k : Nat) (rounds : List Bool) (last : Bool) :
    roundsMarks r k (rounds ++ [last]) =
      roundsMarks r k rounds ++ roundMarks r (k + rounds.length) last := by
  induction rounds generalizing k with
  | nil => simp [roundsMarks]
  | cons consumed rest ih =>
      have hlength : k + 1 + rest.length = k + (rest.length + 1) := by omega
      rw [List.cons_append, roundsMarks, ih, roundsMarks, List.append_assoc, List.length_cons,
        hlength]

section Steps

variable {r : ReconnectSettings} {restarts : Bool} {k : Nat} {phase next : Phase} {n : UInt32}
  {tail : List WorkerAction}

/-- The marks stay those of the attempt while the worker goes on within it. -/
theorem Worker.Attempt.goes (h : Attempt r restarts k phase n tail) (hg : phase.Goes next) :
    Attempt r restarts k next n tail := by
  cases hg with
  | stays => exact h
  | prepares ha hb =>
      cases h with
      | prepares hp =>
          rcases hb with hb | hb
          · exact .prepares hb
          · exact .ends false hb
      | consumes hp => exact absurd hp ha.not_consumes
      | ends consumed hp => exact absurd hp ha.not_ends
      | _ => exact ha.elim
  | consumes ha hb =>
      cases h with
      | prepares hp => exact absurd ha hp.not_consumes
      | consumes hp =>
          rcases hb with hb | hb
          · exact .consumes hb
          · exact .ends true hb
      | ends consumed hp => exact absurd hp ha.not_ends
      | _ => exact ha.elim
  | ends ha hb =>
      cases h with
      | prepares hp => exact absurd ha hp.not_ends
      | consumes hp => exact absurd ha hp.not_ends
      | ends consumed hp => exact .ends consumed hb
      | _ => exact ha.elim

/-- A worker that prepares has left no mark in its attempt. -/
theorem Worker.Attempt.of_prepares (h : Attempt r restarts k phase n tail)
    (hp : phase.Prepares) : n = UInt32.ofNat k ∧ tail = [] := by
  cases h with
  | prepares hp => exact ⟨rfl, rfl⟩
  | consumes hc => exact absurd hc hp.not_consumes
  | ends consumed he => exact absurd he hp.not_ends
  | _ => exact hp.elim

/-- A worker that ends an attempt has at most the mark that it came to consume. -/
theorem Worker.Attempt.of_ends (h : Attempt r restarts k phase n tail) (hp : phase.Ends) :
    ∃ consumed, n = UInt32.ofNat k ∧ tail = consumption consumed := by
  cases h with
  | prepares ha => exact absurd hp ha.not_ends
  | consumes ha => exact absurd hp ha.not_ends
  | ends consumed he => exact ⟨consumed, rfl, rfl⟩
  | _ => exact hp.elim

/-- The last mark of a worker that has failed is that it did. -/
theorem Worker.Attempt.of_deciding (h : Attempt r restarts k .deciding n tail) :
    ∃ consumed, n = UInt32.ofNat k ∧ tail = consumption consumed ++ [.become .failed] := by
  cases h with
  | fails consumed => exact ⟨consumed, rfl, rfl⟩
  | prepares hp => exact hp.elim
  | consumes hp => exact hp.elim
  | ends consumed hp => exact hp.elim

/-- A worker that rests was asked to wait as long as belongs to the start that it is going to
make. -/
theorem Worker.Attempt.of_resting {ms : UInt64} (h : Attempt r restarts k (.resting ms) n tail) :
    restarts = true ∧ n = UInt32.ofNat (k + 1) ∧ ms = backoffDelay r (UInt32.ofNat (k + 1)) ∧
      ∃ consumed, tail = consumption consumed ++ [.become .failed, .rest ms] := by
  cases h with
  | rests consumed hrestarts => exact ⟨hrestarts, rfl, rfl, consumed, rfl⟩
  | prepares hp => exact hp.elim
  | consumes hp => exact hp.elim
  | ends consumed hp => exact hp.elim

/-- A worker that may stop does so with the mark of it. -/
theorem Worker.Attempt.stop (h : Attempt r restarts k phase n tail) (hp : phase.MayStop)
    (m : UInt32) : Attempt r restarts k .stopped m (tail ++ [.become .stopped]) := by
  cases h with
  | prepares hq => exact absurd hq hp.not_prepares
  | consumes hq => exact absurd hq hp.not_consumes
  | ends consumed hq => exact .stops consumed m
  | fails consumed =>
      rw [List.append_assoc]
      exact .givesUp consumed m
  | rests consumed hrestarts =>
      rw [List.append_assoc]
      exact .interrupted consumed m hrestarts
  | _ => exact hp.elim

end Steps

namespace Worker

variable {w : Worker} {actions : List WorkerAction}

/-- A fresh worker has its course before it. -/
theorem onCourse_fresh (d : Definition) (r : ReconnectSettings) (stopping : Bool) :
    ({ definition := d, reconnect := r, stopping } : Worker).OnCourse [] :=
  ⟨[], [], rfl, .prepares trivial, fun _ => rfl⟩

/-- Every event keeps a worker on its course. -/
theorem OnCourse.step (h : w.OnCourse actions) (e : WorkerEvent) :
    (w.step e).1.OnCourse (actions ++ (w.step e).2) := by
  obtain ⟨rounds, tail, hmarks, hattempt, honce⟩ := h
  obtain ⟨hdefinition, hreconnect, hstride⟩ := w.step_stride e
  unfold OnCourse
  rw [marksOf_append, hmarks, hdefinition, hreconnect, List.append_assoc]
  generalize (w.step e).1.phase = phase, (w.step e).1.restarts = n, marksOf (w.step e).2 = marks
    at hstride ⊢
  cases hstride with
  | goes hgoes =>
      rw [List.append_nil]
      exact ⟨rounds, tail, rfl, hattempt.goes hgoes, honce⟩
  | consumes hbefore hafter =>
      obtain ⟨hn, rfl⟩ := hattempt.of_prepares hbefore
      rw [hn]
      exact ⟨rounds, _, rfl, .consumes hafter, honce⟩
  | fails hbefore =>
      rw [hbefore] at hattempt
      obtain ⟨consumed, hn, rfl⟩ := hattempt.of_ends trivial
      rw [hn]
      exact ⟨rounds, _, rfl, .fails consumed, honce⟩
  | rests hbefore hrestarts =>
      rw [hbefore] at hattempt
      obtain ⟨consumed, hn, rfl⟩ := hattempt.of_deciding
      have hnext : w.restarts + 1 = UInt32.ofNat (rounds.length + 1) := by
        rw [hn]
        exact (UInt32.ofNat_add _ _).symm
      rw [hnext, List.append_assoc]
      exact ⟨rounds, _, rfl, .rests consumed hrestarts, honce⟩
  | restarts hbefore he =>
      rw [hbefore] at hattempt
      obtain ⟨hrestarts, hn, rfl, consumed, rfl⟩ := hattempt.of_resting
      -- the attempt that has failed is a round behind the worker now
      refine ⟨rounds ++ [consumed], [], ?_, ?_, fun hstays => ?_⟩
      · rw [roundsMarks_concat, roundMarks, Nat.add_comm 1, List.append_nil, List.append_assoc]
        rfl
      · rw [hn, List.length_append, List.length_singleton]
        exact .prepares trivial
      · rw [hrestarts] at hstays
        cases hstays
  | stops hbefore =>
      exact ⟨rounds, _, rfl, hattempt.stop hbefore _, honce⟩

end Worker

end AmqpDelivery
