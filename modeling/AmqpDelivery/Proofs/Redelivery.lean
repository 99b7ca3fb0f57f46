import AmqpDelivery.Proofs.RetryCount

/-!
# Chains of deliveries

A message comes back to its consumer in two ways: the delivery is made again as it was, or the
message that the dispatch published is delivered, in whose headers the broker may have changed
anything but the counter. On every such chain the number of publications is bounded by what is left
of the budget (`chain_within_budget`), since each of them raises the count and none is made once the
count has reached its bound. A message that fails every time on a channel that answers every call
well is published again exactly as often as the budget allows, and then rejected.
-/

namespace AmqpDelivery

/-- One delivery: how its handler ended and what the channel answered. -/
structure Attempt where
  message : Message
  run : HandlerRun
  answer : ChannelAnswers

/-- What the dispatch of the delivery did. -/
def Attempt.dispatched (d : Definition) (a : Attempt) : Dispatched :=
  dispatch d a.answer a.message a.run

/-- `next` is the message of another delivery, as it was. -/
def DeliveredAgain (m next : Message) : Prop :=
  next.payload = m.payload ∧ next.properties = m.properties

/-- `next` is a message that one of the calls published, and the broker has kept the header of that
name. -/
def DeliveredAnew (kept : String) (calls : List ChannelCall) (next : Message) : Prop :=
  ∃ exchange key payload p headers, ChannelCall.publish exchange key payload p ∈ calls ∧
    next.payload = payload ∧ next.properties = { p with headers := some headers } ∧
      headers.get? kept = p.headerTable.get? kept

/-- A chain of deliveries that begins with the message `first`: the deliveries that were dispatched,
how many of them were followed by the message they published, and the message at hand. -/
inductive Chain (d : Definition) (first : Message) : List Attempt → Nat → Message → Prop
  | start : Chain d first [] 0 first
  | again {attempts : List Attempt} {n : Nat} {m next : Message} (run : HandlerRun)
      (answer : ChannelAnswers) (h : Chain d first attempts n m) (hnext : DeliveredAgain m next) :
      Chain d first (attempts ++ [⟨m, run, answer⟩]) n next
  | anew {attempts : List Attempt} {n : Nat} {m next : Message} (run : HandlerRun)
      (answer : ChannelAnswers) (h : Chain d first attempts n m)
      (hnext : DeliveredAnew d.redelivery.countHeader (dispatch d answer m run).calls next) :
      Chain d first (attempts ++ [⟨m, run, answer⟩]) (n + 1) next

/-- What the dispatches of a message return that fails every time, on a channel that answers every
call well and a broker that delivers what was published as it is, until nothing is published. -/
inductive Poisoned (d : Definition) : Message → List (Except Failure Settlement) → Prop
  | last {m : Message} {run : HandlerRun} {f : HandlerFailure} (hf : run.outcome = .error f)
      (hnone : ∀ c ∈ (dispatch d accepting m run).calls, c.settledTag? ≠ none) :
      Poisoned d m [(dispatch d accepting m run).result]
  | next {m next : Message} {run : HandlerRun} {f : HandlerFailure}
      {results : List (Except Failure Settlement)} {exchange key : String} {payload : ByteArray}
      {p : Properties} (hf : run.outcome = .error f)
      (hp : ChannelCall.publish exchange key payload p ∈ (dispatch d accepting m run).calls)
      (hpayload : next.payload = payload) (hproperties : next.properties = p)
      (h : Poisoned d next results) :
      Poisoned d m ((dispatch d accepting m run).result :: results)

/-! ## What is published -/

section Published

variable {d : Definition} {m : Message}

/-- A publication is made only while the count is below its bound, and it is the one of a retry. -/
theorem publish_mem_dispatch {answer : ChannelAnswers} {run : HandlerRun}
    {exchange key : String} {payload : ByteArray} {p : Properties}
    (h : ChannelCall.publish exchange key payload p ∈ (dispatch d answer m run).calls) :
    m.retryCount d.redelivery < d.redelivery.maxRedeliveries ∧
      retryCall d m = .publish exchange key payload p := by
  cases ho : run.outcome with
  | ok v =>
      rw [dispatch_of_verdict ho] at h
      cases v <;> simp [settleWith, Verdict.call] at h
  | error f =>
      rcases UInt32.le_or_lt d.redelivery.maxRedeliveries (m.retryCount d.redelivery) with hc | hc
      · rw [dispatch_of_spent ho hc] at h
        simp [settleWith] at h
      · refine ⟨hc, ?_⟩
        cases hp : answer (retryCall d m) with
        | ok u =>
            rw [dispatch_of_published ho hc hp] at h
            simpa [eq_comm] using h
        | error g =>
            rw [dispatch_of_unpublished ho hc hp] at h
            simpa [eq_comm] using h

/-- Below the bound the count goes up by one without wrapping around. -/
theorem toNat_retryCount_add_one
    (hc : m.retryCount d.redelivery < d.redelivery.maxRedeliveries) :
    (m.retryCount d.redelivery + 1).toNat = (m.retryCount d.redelivery).toNat + 1 := by
  have hlt : (m.retryCount d.redelivery).toNat < d.redelivery.maxRedeliveries.toNat :=
    UInt32.lt_iff_toNat_lt.1 hc
  have hmax := d.redelivery.maxRedeliveries.toNat_lt
  rw [UInt32.toNat_add, UInt32.toNat_one]
  omega

/-- The counter that a publication carries is the count of its message raised by one, within the
bound. -/
theorem counter_of_publish_mem {answer : ChannelAnswers} {run : HandlerRun}
    {exchange key : String} {payload : ByteArray} {p : Properties}
    (hx : d.redelivery.countHeader ≠ delayHeader)
    (h : ChannelCall.publish exchange key payload p ∈ (dispatch d answer m run).calls) :
    p.headerTable.get? d.redelivery.countHeader =
        some (.longLongInt (Int64.ofNat ((m.retryCount d.redelivery).toNat + 1))) ∧
      (m.retryCount d.redelivery).toNat + 1 ≤ d.redelivery.maxRedeliveries.toNat := by
  obtain ⟨hc, hcall⟩ := publish_mem_dispatch h
  simp only [retryCall, ChannelCall.publish.injEq] at hcall
  obtain ⟨-, -, -, rfl⟩ := hcall
  have hraise := toNat_retryCount_add_one hc
  refine ⟨?_, UInt32.lt_iff_toNat_lt.1 hc⟩
  rw [headerTable_retryProperties, get?_countHeader_retryHeaders _ _ _ hx, hraise]

/-- A message that comes back with the counter it was published with has a greater count. -/
theorem retryCount_lt_of_anew {answer : ChannelAnswers} {run : HandlerRun} {next : Message}
    (hx : d.redelivery.countHeader ≠ delayHeader)
    (h : DeliveredAnew d.redelivery.countHeader (dispatch d answer m run).calls next) :
    (m.retryCount d.redelivery).toNat + 1 ≤ (next.retryCount d.redelivery).toNat ∧
      (m.retryCount d.redelivery).toNat + 1 ≤ d.redelivery.maxRedeliveries.toNat := by
  obtain ⟨exchange, key, payload, p, headers, hp, -, hproperties, hkept⟩ := h
  obtain ⟨hcounter, hmax⟩ := counter_of_publish_mem hx hp
  obtain ⟨hc, -⟩ := publish_mem_dispatch hp
  refine ⟨?_, hmax⟩
  have hwritten : headers.get? d.redelivery.countHeader =
      some (.longLongInt (Int64.ofNat (m.retryCount d.redelivery + 1).toNat)) := by
    rw [hkept, hcounter, toNat_retryCount_add_one hc]
  have hle := le_retryCountOf_of_get? hwritten
  rw [toNat_retryCount_add_one hc] at hle
  rw [retryCount_eq next, hproperties]
  exact hle

/-- The count of a message depends on its properties alone. -/
theorem retryCount_of_again {next : Message} (h : DeliveredAgain m next) :
    next.retryCount d.redelivery = m.retryCount d.redelivery := by
  rw [retryCount_eq, retryCount_eq, h.2]

end Published

/-! ## The budget of a chain -/

section Budget

variable {d : Definition} {first : Message}

/-- The count has grown by at least the number of publications, which the bound limits. -/
theorem Chain.count_le {attempts : List Attempt} {n : Nat} {m : Message}
    (hx : d.redelivery.countHeader ≠ delayHeader) (h : Chain d first attempts n m) :
    (first.retryCount d.redelivery).toNat + n ≤ (m.retryCount d.redelivery).toNat ∧
      n ≤ d.redelivery.maxRedeliveries.toNat - (first.retryCount d.redelivery).toNat := by
  induction h with
  | start => simp
  | again run answer _ hnext ih =>
      rw [retryCount_of_again hnext]
      exact ih
  | anew run answer _ hnext ih =>
      -- the count goes up with the number of publications, and was below the bound before
      obtain ⟨hcount, hmax⟩ := retryCount_lt_of_anew hx hnext
      omega

/-- One dispatch of a message that fails on a channel that answers every call well. -/
theorem dispatch_accepting {m : Message} {run : HandlerRun} {f : HandlerFailure}
    (hf : run.outcome = .error f) :
    dispatch d accepting m run =
      if m.retryCount d.redelivery < d.redelivery.maxRedeliveries then
        ⟨[retryCall d m, .ack m.tag], .ok (retryRoute d).settlement⟩
      else ⟨[.reject m.tag false], .ok .rejected⟩ := by
  split
  · next hc => exact dispatch_of_published hf hc rfl
  · next hc => exact dispatch_of_spent hf (UInt32.not_lt.1 hc)

/-- The message that a failed delivery publishes has a count that is greater by one. -/
theorem retryCount_of_published {m next : Message} {exchange key : String} {payload : ByteArray}
    {p : Properties} (hx : d.redelivery.countHeader ≠ delayHeader)
    (hc : m.retryCount d.redelivery < d.redelivery.maxRedeliveries)
    (hcall : retryCall d m = .publish exchange key payload p) (hnext : next.properties = p) :
    (next.retryCount d.redelivery).toNat = (m.retryCount d.redelivery).toNat + 1 := by
  simp only [retryCall, ChannelCall.publish.injEq] at hcall
  obtain ⟨-, -, -, rfl⟩ := hcall
  have hraise := toNat_retryCount_add_one hc
  have hlt : retryCountOf m.properties.headerTable d.redelivery < m.retryCount d.redelivery + 1 := by
    rw [← retryCount_eq, UInt32.lt_iff_toNat_lt, hraise]
    exact Nat.lt_succ_self _
  rw [retryCount_eq next, hnext, headerTable_retryProperties,
    retryCountOf_retryHeaders _ hx hlt, hraise]

/-- The results of a message that fails every time, when `n` publications are left. -/
def poisonedResults (d : Definition) (n : Nat) : List (Except Failure Settlement) :=
  List.replicate n (.ok (retryRoute d).settlement) ++ [.ok .rejected]

/-- What is left of the budget of a message. -/
def budgetLeft (d : Definition) (m : Message) : Nat :=
  d.redelivery.maxRedeliveries.toNat - (m.retryCount d.redelivery).toNat

theorem Poisoned.results_eq {m : Message} {results : List (Except Failure Settlement)}
    (hx : d.redelivery.countHeader ≠ delayHeader) (h : Poisoned d m results) :
    results = poisonedResults d (budgetLeft d m) := by
  induction h with
  | @last m run f hf hnone =>
      rw [dispatch_accepting hf] at hnone ⊢
      split at hnone
      -- below the bound something would be published
      · exact absurd rfl (hnone (retryCall d m) List.mem_cons_self)
      · next hc =>
          have hspent : budgetLeft d m = 0 :=
            Nat.sub_eq_zero_of_le (UInt32.le_iff_toNat_le.1 (UInt32.not_lt.1 hc))
          rw [if_neg hc, hspent]
          rfl
  | @next m next run f results exchange key payload p hf hp _ hproperties _ ih =>
      obtain ⟨hc, hcall⟩ := publish_mem_dispatch hp
      have hleft : budgetLeft d m = budgetLeft d next + 1 := by
        have hcount := retryCount_of_published hx hc hcall hproperties
        have hlt := UInt32.lt_iff_toNat_lt.1 hc
        simp only [budgetLeft]
        omega
      rw [dispatch_accepting hf, if_pos hc, ih, hleft]
      rfl

/-- The run of a message that fails every time comes to its end. -/
theorem poisoned_poisonedResults (hx : d.redelivery.countHeader ≠ delayHeader) :
    ∀ (n : Nat) (m : Message), budgetLeft d m = n → Poisoned d m (poisonedResults d n) := by
  intro n
  have hf : HandlerRun.panicked.outcome = .error .panicked := rfl
  induction n with
  | zero =>
      intro m hm
      have hc : ¬ m.retryCount d.redelivery < d.redelivery.maxRedeliveries := by
        rw [UInt32.not_lt, UInt32.le_iff_toNat_le]
        exact Nat.le_of_sub_eq_zero hm
      have hd := dispatch_accepting (d := d) (m := m) hf
      rw [if_neg hc] at hd
      have hlast : Poisoned d m [(dispatch d accepting m .panicked).result] := by
        refine .last hf ?_
        rw [hd]
        simp [ChannelCall.settledTag?]
      rw [hd] at hlast
      exact hlast
  | succ n ih =>
      intro m hm
      have hc : m.retryCount d.redelivery < d.redelivery.maxRedeliveries := by
        rw [UInt32.lt_iff_toNat_lt]
        simp only [budgetLeft] at hm
        omega
      have hd := dispatch_accepting (d := d) (m := m) hf
      rw [if_pos hc] at hd
      -- what the broker delivers next is what was published, as it is
      let next : Message :=
        { m with
          properties := retryProperties m.properties d.redelivery.countHeader
            (m.retryCount d.redelivery + 1) (retryRoute d).delay }
      have hpayload : next.payload = m.payload := rfl
      have hproperties : next.properties = retryProperties m.properties d.redelivery.countHeader
          (m.retryCount d.redelivery + 1) (retryRoute d).delay := rfl
      have hleft : budgetLeft d next = n := by
        have hcount := retryCount_of_published hx hc rfl hproperties
        simp only [budgetLeft] at hm ⊢
        omega
      have hp : retryCall d m ∈ (dispatch d accepting m .panicked).calls := by
        rw [hd]
        exact List.mem_cons_self
      have hnext : Poisoned d m
          ((dispatch d accepting m .panicked).result :: poisonedResults d n) :=
        .next hf hp hpayload hproperties (ih next hleft)
      rw [hd] at hnext
      exact hnext

end Budget

/-- A poison message is given up within its budget, `max` deliveries less those already counted. On
every chain no more publications than that lead on; each carries the count of its message raised by
one, which stays within the bound. Where every handler fails, every call goes through and the broker
changes nothing, the results are that many publications and one rejection. -/
theorem chain_within_budget (d : Definition) (first : Message)
    (hx : d.redelivery.countHeader ≠ delayHeader) :
    (∀ attempts n m, Chain d first attempts n m →
      n ≤ d.redelivery.maxRedeliveries.toNat - (first.retryCount d.redelivery).toNat ∧
      ∀ a ∈ attempts, ∀ exchange key payload p,
        ChannelCall.publish exchange key payload p ∈ (a.dispatched d).calls →
          p.headerTable.get? d.redelivery.countHeader =
              some (.longLongInt
                (Int64.ofNat ((a.message.retryCount d.redelivery).toNat + 1))) ∧
            (a.message.retryCount d.redelivery).toNat + 1 ≤
              d.redelivery.maxRedeliveries.toNat) ∧
    (∀ results, Poisoned d first results ↔
      results =
        List.replicate
            (d.redelivery.maxRedeliveries.toNat - (first.retryCount d.redelivery).toNat)
            (.ok (if d.delayed && d.redelivery.delayMs.isSome then .delayed else .retried)) ++
          [.ok .rejected]) := by
  constructor
  · intro attempts n m h
    refine ⟨(h.count_le hx).2, ?_⟩
    intro a _ exchange key payload p hp
    exact counter_of_publish_mem hx hp
  · intro results
    rw [← settlement_retryRoute]
    constructor
    · intro h
      exact h.results_eq hx
    · intro h
      rw [h]
      exact poisoned_poisonedResults hx _ first rfl

/-- Three tries by default. -/
theorem chain_within_budget_default :
    (Definition.new "orders" "orders").redelivery.countHeader ≠ delayHeader ∧
      Poisoned (Definition.new "orders" "orders") { consumer := "orders" }
        [.ok .retried, .ok .retried, .ok .retried, .ok .rejected] := by
  have hx : (Definition.new "orders" "orders").redelivery.countHeader ≠ delayHeader := by decide
  exact ⟨hx, ((chain_within_budget _ { consumer := "orders" } hx).2 _).2 rfl⟩

end AmqpDelivery
