import Mathlib.Data.List.Basic
import AmqpDelivery.Pool.Basic

/-!
# The bound of a pool

Every permit of a limiter is free or held, and a task that is counted holds one
(`Limiter.Balanced`), whatever happens at the limiter. All look-ups of a pool find the same limiter,
with the limit that the settings give to the pool (`Pools.Sound`). So the tasks that run at the same
time are never more than the limit, whoever submits them (`Pools.pool_bounded`), as long as there is
a limiter with that limit (`Pools.no_limiter_beyond_permits`).
-/

namespace AmqpDelivery

namespace Limiter

/-- What holds of a limiter at all times. Submissions wait only while no permit is free, and never
when nothing is limited. -/
structure Balanced (l : Limiter) : Prop where
  counted : l.inFlight = l.running.length
  permits : l.limit ≠ unlimited → l.held + l.available = l.limit.toNat
  queued : l.waiting ≠ [] → l.available = 0
  unqueued : l.limit = unlimited → l.waiting = [] ∧ l.available = 0

section Steps

variable {l : Limiter}

theorem isUnlimited_iff : l.isUnlimited = true ↔ l.limit = unlimited := decide_eq_true_iff

theorem balanced_new (name : String) (limit : UInt64) : (new name limit).Balanced where
  counted := rfl
  permits _ := Nat.zero_add _
  queued h := absurd rfl h
  unqueued h := ⟨rfl, congrArg UInt64.toNat h⟩

/-- A limiter of which one permit is on its way back is balanced when the permit has come back. -/
theorem balanced_returnPermit (hcounted : l.inFlight = l.running.length)
    (hpermits : l.limit ≠ unlimited → l.held + 1 + l.available = l.limit.toNat)
    (hqueued : l.waiting ≠ [] → l.available = 0)
    (hunqueued : l.limit = unlimited → l.waiting = [] ∧ l.available = 0) :
    l.returnPermit.Balanced := by
  unfold returnPermit
  split
  · next h =>
    have hfree : l.limit = unlimited := isUnlimited_iff.1 h
    exact ⟨hcounted, fun hne => absurd hfree hne, hqueued, hunqueued⟩
  · next h =>
    have hlimited : l.limit ≠ unlimited := fun heq => h (isUnlimited_iff.2 heq)
    have hsum := hpermits hlimited
    split
    -- the first in the queue gets it
    · next t rest hwaiting =>
      have hnone : l.available = 0 := hqueued (hwaiting ▸ List.cons_ne_nil t rest)
      refine ⟨hcounted, fun _ => ?_, fun _ => hnone, fun heq => absurd heq hlimited⟩
      simp only [held, List.length_append, List.length_singleton] at hsum ⊢
      omega
    -- nobody waits, so it is free again
    · next hwaiting =>
      refine ⟨hcounted, fun _ => ?_, fun hne => absurd hwaiting hne, fun heq => absurd heq hlimited⟩
      simp only [held] at hsum ⊢
      omega

theorem Balanced.submit (h : l.Balanced) (t : TaskId) : (l.submit t).Balanced := by
  unfold Limiter.submit
  split
  · next hfree =>
    have hunlimited : l.limit = unlimited := isUnlimited_iff.1 hfree
    exact ⟨h.counted, fun hne => absurd hunlimited hne, h.queued, h.unqueued⟩
  · next hfree =>
    have hlimited : l.limit ≠ unlimited := fun heq => hfree (isUnlimited_iff.2 heq)
    have hsum := h.permits hlimited
    split
    · next hnone =>
      exact ⟨h.counted, h.permits, fun _ => hnone, fun heq => absurd heq hlimited⟩
    · next hsome =>
      refine ⟨h.counted, fun _ => ?_, fun hne => absurd (h.queued hne) hsome,
        fun heq => absurd heq hlimited⟩
      simp only [held, List.length_append, List.length_singleton] at hsum ⊢
      omega

theorem Balanced.enter (h : l.Balanced) (t : TaskId) : (l.step (.enter t)).Balanced := by
  simp only [step]
  split
  · next hmem =>
    have hlength := List.length_erase_add_one (List.contains_iff_mem.1 hmem)
    refine ⟨?_, fun hlimited => ?_, h.queued, h.unqueued⟩
    · simp only [List.length_append, List.length_singleton, h.counted]
    · have hsum := h.permits hlimited
      simp only [held, List.length_append, List.length_singleton] at hsum ⊢
      omega
  · exact h

theorem Balanced.withdraw (h : l.Balanced) (t : TaskId) : (l.step (.withdraw t)).Balanced := by
  simp only [step]
  split
  -- it waits, and has no permit to give back
  · next hmem =>
    refine ⟨h.counted, h.permits, fun hne => h.queued ?_, fun heq => ?_⟩
    · rintro hnil
      rw [hnil] at hne
      exact hne rfl
    · rw [(h.unqueued heq).1] at hmem
      cases hmem
  · split
    -- it has got a permit that it did not use yet
    · next hmem =>
      have hlength := List.length_erase_add_one (List.contains_iff_mem.1 hmem)
      refine balanced_returnPermit h.counted (fun hlimited => ?_) h.queued h.unqueued
      have hsum := h.permits hlimited
      simp only [held] at hsum ⊢
      omega
    · exact h

/-- The end of a task takes it off the count and leaves its permit where it is. -/
theorem Balanced.finish (h : l.Balanced) (t : TaskId) : (l.step (.finish t)).Balanced := by
  simp only [step]
  split
  · next hmem =>
    have hlength := List.length_erase_add_one (List.contains_iff_mem.1 hmem)
    have hcounted := h.counted
    refine ⟨?_, fun hlimited => ?_, h.queued, h.unqueued⟩
    · show l.inFlight - 1 = (l.running.erase t).length
      omega
    · have hsum := h.permits hlimited
      simp only [held, List.length_append, List.length_singleton] at hsum ⊢
      omega
  · exact h

theorem Balanced.release (h : l.Balanced) (t : TaskId) : (l.step (.release t)).Balanced := by
  simp only [step]
  split
  · next hmem =>
    have hlength := List.length_erase_add_one (List.contains_iff_mem.1 hmem)
    refine balanced_returnPermit h.counted (fun hlimited => ?_) h.queued h.unqueued
    have hsum := h.permits hlimited
    simp only [held] at hsum ⊢
    omega
  · exact h

/-- Every event keeps a limiter balanced. -/
theorem Balanced.step (h : l.Balanced) (e : LimiterEvent) : (l.step e).Balanced := by
  cases e with
  | submit t => exact h.submit t
  | enter t => exact h.enter t
  | withdraw t => exact h.withdraw t
  | finish t => exact h.finish t
  | release t => exact h.release t

theorem name_returnPermit (l : Limiter) :
    l.returnPermit.name = l.name ∧ l.returnPermit.limit = l.limit := by
  unfold returnPermit
  split
  · exact ⟨rfl, rfl⟩
  · split <;> exact ⟨rfl, rfl⟩

/-- A limiter keeps its name and its limit. -/
theorem name_step (l : Limiter) (e : LimiterEvent) :
    (l.step e).name = l.name ∧ (l.step e).limit = l.limit := by
  cases e with
  | submit t =>
      simp only [Limiter.step, Limiter.submit]
      split
      · exact ⟨rfl, rfl⟩
      · split <;> exact ⟨rfl, rfl⟩
  | withdraw t =>
      simp only [Limiter.step]
      split
      · exact ⟨rfl, rfl⟩
      · split
        · exact name_returnPermit _
        · exact ⟨rfl, rfl⟩
  | release t =>
      simp only [Limiter.step]
      split
      · exact name_returnPermit _
      · exact ⟨rfl, rfl⟩
  | enter t => simp only [Limiter.step]; split <;> exact ⟨rfl, rfl⟩
  | finish t => simp only [Limiter.step]; split <;> exact ⟨rfl, rfl⟩

end Steps

/-- A submission would have to wait for a permit. -/
def WouldWait (l : Limiter) (t : TaskId) : Prop := (l.step (.submit t)).waiting = l.waiting ++ [t]

/-- A submission would get a permit at once. -/
def WouldEnter (l : Limiter) (t : TaskId) : Prop := (l.step (.submit t)).granted = l.granted ++ [t]

theorem wouldWait_iff (l : Limiter) (t : TaskId) : l.isFull = true ↔ l.WouldWait t := by
  have hnot : l.waiting ≠ l.waiting ++ [t] := fun heq => by simpa using congrArg List.length heq
  unfold isFull WouldWait
  simp only [step, submit]
  cases l.isUnlimited with
  | true => simp [hnot]
  | false => by_cases hnone : l.available = 0 <;> simp [hnone, hnot]

theorem wouldEnter_iff (l : Limiter) (t : TaskId) : l.isFull = false ↔ l.WouldEnter t := by
  have hnot : l.granted ≠ l.granted ++ [t] := fun heq => by simpa using congrArg List.length heq
  unfold isFull WouldEnter
  simp only [step, submit]
  cases l.isUnlimited with
  | true => simp
  | false => by_cases hnone : l.available = 0 <;> simp [hnone, hnot]

/-- The limiter bounds a pool by `n`. -/
structure Bounds (l : Limiter) (n : UInt64) : Prop where
  limit : l.limit = n
  /-- The count is the number of tasks that run, each of which holds a permit. -/
  counted : l.inFlight = l.running.length ∧ l.inFlight ≤ l.held
  /-- Unless nothing is limited, every permit is free or held, so that tasks that run at the same
  time are not more than the limit. -/
  permits : n ≠ unlimited →
    l.held + l.available = n.toNat ∧ l.held ≤ n.toNat ∧ l.running.length ≤ n.toNat
  /-- The limiter is full exactly when a submission would have to wait, and otherwise a submission
  gets a permit at once. -/
  full : ∀ t, (l.isFull = true ↔ l.WouldWait t) ∧ (l.isFull = false ↔ l.WouldEnter t)
  /-- Without a limit no submission waits, and the limiter is not full. -/
  unqueued : n = unlimited → l.waiting = [] ∧ l.isFull = false
  /-- While nobody holds a permit the count is zero, all permits are free, and nobody waits. -/
  idle : l.held = 0 → l.inFlight = 0 ∧ l.available = n.toNat ∧ l.waiting = []

theorem Balanced.bounds {l : Limiter} (h : l.Balanced) : l.Bounds l.limit := by
  have hcount : l.inFlight ≤ l.held := by
    rw [h.counted]
    unfold held
    omega
  refine ⟨rfl, ⟨h.counted, hcount⟩, fun hlimited => ?_, fun t => ⟨l.wouldWait_iff t,
    l.wouldEnter_iff t⟩, fun hfree => ?_, fun hnone => ?_⟩
  · have hsum := h.permits hlimited
    have hrunning : l.running.length ≤ l.held := h.counted ▸ hcount
    omega
  · refine ⟨(h.unqueued hfree).1, ?_⟩
    rw [isFull, isUnlimited_iff.2 hfree]
    rfl
  · refine ⟨by omega, ?_⟩
    by_cases hfree : l.limit = unlimited
    · obtain ⟨hwaiting, havailable⟩ := h.unqueued hfree
      exact ⟨by rw [havailable, hfree]; rfl, hwaiting⟩
    · -- all permits are free, and there is one at least, so nobody waits
      have hsum := h.permits hfree
      have hpositive : l.limit.toNat ≠ 0 := fun hzero => hfree (UInt64.toNat_inj.1 hzero)
      refine ⟨by omega, Classical.byContradiction fun hne => ?_⟩
      have hnone := h.queued hne
      omega

end Limiter

namespace Pools

/-- What holds of the pools at all times. -/
structure Sound (p : Pools) : Prop where
  filed : ∀ name id, p.cache.get? name = some id →
    id < p.made ∧ (p.limiters id).name = name ∧ (p.limiters id).limit = p.settings.limitFor name
  balanced : ∀ id, (p.limiters id).Balanced

section Steps

variable {p q : Pools} {name : String} {id : LimiterId}

theorem sound_initial (settings : ConcurrencySettings) : ({ settings } : Pools).Sound where
  filed _ _ h := by cases h
  balanced _ := Limiter.balanced_new _ _

/-- Every limiter of the first pools is one of the second, at the same name. -/
def Kept (p q : Pools) : Prop :=
  q.settings = p.settings ∧ ∀ name id, p.cache.get? name = some id → q.cache.get? name = some id

theorem Kept.refl (p : Pools) : p.Kept p := ⟨rfl, fun _ _ h => h⟩

theorem Kept.trans {r : Pools} (h : p.Kept q) (h' : q.Kept r) : p.Kept r :=
  ⟨h'.1.trans h.1, fun name id hid => h'.2 name id (h.2 name id hid)⟩

theorem make?_eq_some {limit : UInt64} (h : p.make? name limit = some (q, id)) :
    limit ≤ maxPermits ∧ id = p.made ∧
      q = { p with
        limiters := assign p.limiters p.made (Limiter.new name limit), made := p.made + 1 } := by
  unfold make? at h
  split at h
  · next hlimit =>
    cases h
    exact ⟨hlimit, rfl, rfl⟩
  · cases h

/-- A new limiter leaves the others alone. -/
theorem Sound.make (h : p.Sound) {limit : UInt64} (hmake : p.make? name limit = some (q, id)) :
    q.Sound ∧ p.Kept q := by
  obtain ⟨-, -, rfl⟩ := make?_eq_some hmake
  refine ⟨⟨fun other old hold => ?_, fun old => ?_⟩, rfl, fun _ _ hid => hid⟩
  · obtain ⟨hlt, hnamed⟩ := h.filed other old hold
    have hne : old ≠ p.made := Nat.ne_of_lt hlt
    simp only [assign_of_ne hne]
    exact ⟨Nat.lt_succ_of_lt hlt, hnamed⟩
  · show (assign p.limiters p.made (Limiter.new name limit) old).Balanced
    by_cases heq : old = p.made
    · rw [heq, assign_self]
      exact Limiter.balanced_new name limit
    · rw [assign_of_ne heq]
      exact h.balanced old

/-- A look-up finds the limiter that is cached, or makes it. -/
theorem get?_eq_some (h : p.get? name = some (q, id)) :
    p.cache.get? name = some id ∧ q = p ∨
      p.cache.get? name = none ∧ ∃ r, p.make? name (p.settings.limitFor name) = some (r, id) ∧
        q = { r with cache := r.cache.insert name id } := by
  unfold get? at h
  split at h
  · next hid =>
    cases h
    exact Or.inl ⟨hid, rfl⟩
  · next hnone =>
    obtain ⟨⟨r, made⟩, hmake, heq⟩ := Option.map_eq_some_iff.1 h
    cases heq
    exact Or.inr ⟨hnone, r, hmake, rfl⟩

theorem Sound.get (h : p.Sound) (hget : p.get? name = some (q, id)) :
    q.Sound ∧ p.Kept q ∧ q.cache.get? name = some id := by
  rcases get?_eq_some hget with ⟨hid, rfl⟩ | ⟨hnone, r, hmake, rfl⟩
  · exact ⟨h, .refl q, hid⟩
  · obtain ⟨hsound, hkept⟩ := h.make hmake
    refine ⟨⟨fun other old hold => ?_, hsound.balanced⟩, ⟨hkept.1, fun other old hold => ?_⟩, ?_⟩
    · rw [Keyed.get?_insert] at hold
      split at hold
      · next heq =>
        obtain ⟨-, rfl, rfl⟩ := make?_eq_some hmake
        cases hold
        simp only [assign_self]
        exact ⟨Nat.lt_succ_self _, heq.symm, congrArg p.settings.limitFor heq.symm⟩
      · exact hsound.filed other old hold
    · rw [Keyed.get?_insert, if_neg]
      · exact hkept.2 other old hold
      · rintro rfl
        rw [hnone] at hold
        cases hold
    · rw [Keyed.get?_insert, if_pos rfl]

/-- Only a limit beyond the permits keeps a pool from being found. -/
theorem exists_get? (p : Pools) (h : p.settings.limitFor name ≤ maxPermits) :
    ∃ q id, p.get? name = some (q, id) := by
  unfold get?
  split
  · next id _ => exact ⟨p, id, rfl⟩
  · rw [make?, if_pos h]
    exact ⟨_, _, rfl⟩

theorem get?_of_cached (h : p.cache.get? name = some id) : p.get? name = some (p, id) := by
  rw [get?, h]

/-- What happens at one limiter leaves the others alone. -/
theorem Sound.within (h : p.Sound) (id : LimiterId) (e : LimiterEvent) : (p.within id e).Sound where
  filed other old hold := by
    have hfiled := h.filed other old hold
    show old < p.made ∧ (assign p.limiters id ((p.limiters id).step e) old).name = other ∧
      (assign p.limiters id ((p.limiters id).step e) old).limit = p.settings.limitFor other
    by_cases heq : old = id
    · subst heq
      obtain ⟨hname, hlimit⟩ := Limiter.name_step (p.limiters old) e
      rw [assign_self, hname, hlimit]
      exact hfiled
    · rw [assign_of_ne heq]
      exact hfiled
  balanced old := by
    show (assign p.limiters id ((p.limiters id).step e) old).Balanced
    by_cases heq : old = id
    · rw [heq, assign_self]
      exact (h.balanced id).step e
    · rw [assign_of_ne heq]
      exact h.balanced old

/-- Every event keeps the pools sound, and the limiter of a pool stays the same. -/
theorem Sound.step (h : p.Sound) (e : PoolEvent) : (p.step e).Sound ∧ p.Kept (p.step e) := by
  cases e with
  | lookup name =>
      simp only [Pools.step]
      cases hget : p.get? name with
      | none => exact ⟨h, .refl p⟩
      | some found =>
          obtain ⟨hsound, hkept, -⟩ := h.get hget
          exact ⟨hsound, hkept⟩
  | make name limit =>
      simp only [Pools.step]
      cases hmake : p.make? name limit with
      | none => exact ⟨h, .refl p⟩
      | some found => exact h.make hmake
  | within id e =>
      simp only [Pools.step]
      split
      · exact ⟨h.within id e, rfl, fun _ _ hid => hid⟩
      · exact ⟨h, .refl p⟩

theorem Sound.run (h : p.Sound) (events : List PoolEvent) :
    (p.run events).Sound ∧ p.Kept (p.run events) := by
  induction events generalizing p with
  | nil => exact ⟨h, .refl p⟩
  | cons e rest ih =>
      obtain ⟨hsound, hkept⟩ := h.step e
      obtain ⟨hrest, hkept'⟩ := ih hsound
      exact ⟨hrest, hkept.trans hkept'⟩

end Steps

/-- A pool can be looked up at any time, if there is a limiter with its limit. All look-ups find one
limiter, which from then on bounds the pool by this limit. -/
theorem pool_bounded (settings : ConcurrencySettings) (name : String)
    (hlimit : settings.limitFor name ≤ maxPermits) (before after : List PoolEvent) :
    ∃ found id, (({ settings } : Pools).run before).get? name = some (found, id) ∧
      (found.run after).get? name = some (found.run after, id) ∧
      ((found.run after).limiters id).name = name ∧
      ((found.run after).limiters id).Bounds (settings.limitFor name) := by
  obtain ⟨hsound, hkept⟩ := (sound_initial settings).run before
  have hsettings : (({ settings } : Pools).run before).settings = settings := hkept.1
  obtain ⟨found, id, hfound⟩ : ∃ found id,
      (({ settings } : Pools).run before).get? name = some (found, id) := by
    apply exists_get?
    rw [hsettings]
    exact hlimit
  obtain ⟨hsound', hkept', hcached⟩ := hsound.get hfound
  obtain ⟨hlast, hkept''⟩ := hsound'.run after
  have hstays := hkept''.2 name id hcached
  obtain ⟨-, hname, hlimited⟩ := hlast.filed name id hstays
  refine ⟨found, id, hfound, get?_of_cached hstays, hname, ?_⟩
  have hbounds := (hlast.balanced id).bounds
  rw [hlimited, hkept''.1, hkept'.1, hsettings] at hbounds
  exact hbounds

/-- Two tasks of a pool with one permit; the second waits until the first has returned it. -/
def contestedRun (id : LimiterId) : List PoolEvent :=
  [.within id (.submit 0), .within id (.submit 1), .within id (.enter 0), .lookup "other",
    .within id (.finish 0)]

theorem pool_bounded_contested :
    let settings : ConcurrencySettings := { limits := Keyed.ofList [("single", 1)] }
    settings.limitFor "single" ≤ maxPermits ∧
      ∃ found id, (({ settings } : Pools).run [.lookup "other"]).get? "single" = some (found, id) ∧
        (found.run (contestedRun id)).get? "single" = some (found.run (contestedRun id), id) ∧
        ((found.run (contestedRun id)).limiters id).waiting = [1] ∧
        ((found.run (contestedRun id)).limiters id).Bounds 1 := by
  intro settings
  have hlimit : settings.limitFor "single" ≤ maxPermits := by decide
  obtain ⟨found, id, hfound, hstays, -, hbounds⟩ :=
    pool_bounded settings "single" hlimit [.lookup "other"] (contestedRun 1)
  have hid : (({ settings } : Pools).run [.lookup "other"]).get? "single" =
      some ((({ settings } : Pools).run [.lookup "other", .lookup "single"]), 1) := rfl
  rw [hid] at hfound
  cases hfound
  refine ⟨hlimit, _, 1, hid, hstays, ?_, hbounds⟩
  decide +kernel

/-- There is no limiter with one permit more than the greatest number, so not every look-up of a
pool finds one. -/
theorem no_limiter_beyond_permits :
    ¬ ∀ (settings : ConcurrencySettings) (name : String), ∃ found id,
      ({ settings } : Pools).get? name = some (found, id) ∧
        (found.limiters id).limit = settings.limitFor name := by
  intro h
  obtain ⟨found, id, hfound, -⟩ := h { limits := Keyed.ofList [("big", 0x2000000000000000)] } "big"
  have hnone : ({ settings := { limits := Keyed.ofList [("big", 0x2000000000000000)] } } :
      Pools).get? "big" = none := rfl
  rw [hnone] at hfound
  cases hfound

end Pools

end AmqpDelivery
