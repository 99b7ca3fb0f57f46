import AmqpDelivery.Proofs.Settlement

/-!
# What the redelivery count is

The count of a message is the greatest of its readable counters, cut off at the range of 32 bits
without sign: no readable counter is above it (`le_retryCountOf`), and it is no greater than a
number that bounds them all (`retryCountOf_le`). A message published again has the count that was
written into its headers (`retryCountOf_retryHeaders`), whatever other counters it carries, so that
a raised count is what the next delivery reads (`raised_count_read_back`). Only a counter that goes
by the name of the delay is lost (`retryCountOf_retryHeaders_delay`).
-/

namespace AmqpDelivery

theorem mem_readableCounters {headers : FieldTable} {policy : RedeliveryPolicy} {n : Int} :
    n ∈ readableCounters headers policy ↔
      counter? headers policy.countHeader = some n ∨ deathCount? headers = some n ∨
        counter? headers deliveryCountHeader = some n := by
  simp [readableCounters, eq_comm]

/-- Clamping as a bound on natural numbers. -/
theorem toNat_clampCount (n : Int) :
    (clampCount n).toNat = min n.toNat (UInt32.size - 1) := by
  have hlt : min n.toNat (UInt32.size - 1) < UInt32.size := by
    have : (0 : Nat) < UInt32.size := by decide
    omega
  rw [clampCount, UInt32.toNat_ofNat_of_lt' hlt]

theorem clampCount_mono {m n : Int} (h : m ≤ n) : (clampCount m).toNat ≤ (clampCount n).toNat := by
  rw [toNat_clampCount, toNat_clampCount]
  omega

/-- The count is a counter of the headers, or zero when none can be read. -/
theorem retryCountOf_cases (headers : FieldTable) (policy : RedeliveryPolicy) :
    (readableCounters headers policy = [] ∧ retryCountOf headers policy = 0) ∨
      ∃ n ∈ readableCounters headers policy, (∀ k ∈ readableCounters headers policy, k ≤ n) ∧
        retryCountOf headers policy = clampCount n := by
  cases hmax : (readableCounters headers policy).max? with
  | none =>
      refine Or.inl ⟨List.max?_eq_none_iff.1 hmax, ?_⟩
      simp [retryCountOf, hmax]
  | some n =>
      obtain ⟨hmem, hle⟩ := List.max?_eq_some_iff.1 hmax
      refine Or.inr ⟨n, hmem, hle, ?_⟩
      simp [retryCountOf, hmax]

/-- No readable counter hides another: the count is at least each of them. -/
theorem le_retryCountOf {headers : FieldTable} {policy : RedeliveryPolicy} {n : Int}
    (h : n ∈ readableCounters headers policy) :
    (clampCount n).toNat ≤ (retryCountOf headers policy).toNat := by
  rcases retryCountOf_cases headers policy with ⟨hnil, -⟩ | ⟨k, -, hle, heq⟩
  · rw [hnil] at h
    exact absurd h List.not_mem_nil
  · rw [heq]
    exact clampCount_mono (hle n h)

theorem retryCountOf_le {headers : FieldTable} {policy : RedeliveryPolicy} {bound : Nat}
    (h : ∀ n ∈ readableCounters headers policy, (clampCount n).toNat ≤ bound) :
    (retryCountOf headers policy).toNat ≤ bound := by
  rcases retryCountOf_cases headers policy with ⟨-, heq⟩ | ⟨k, hk, -, heq⟩
  · rw [heq]
    exact Nat.zero_le bound
  · rw [heq]
    exact h k hk

/-- A message without headers counts as one whose table is empty. -/
theorem retryCount_eq (m : Message) (policy : RedeliveryPolicy) :
    m.retryCount policy = retryCountOf m.properties.headerTable policy := by
  cases hh : m.properties.headers with
  | some headers => simp [Message.retryCount, Properties.headerTable, hh]
  | none =>
      -- no header, no counter: the count of an empty table is zero as well
      have hempty : readableCounters Keyed.empty policy = [] := by
        simp [readableCounters, counter?, deathCount?]
      simp [Message.retryCount, Properties.headerTable, hh, retryCountOf, hempty]

/-! ## Counters of a message published again -/

/-- A header that holds `count` as a long number reads back as that counter. -/
theorem counter?_of_get? {headers : FieldTable} {name : String} {count : UInt32}
    (h : headers.get? name = some (.longLongInt (Int64.ofNat count.toNat))) :
    counter? headers name = some (count.toNat : Int) := by
  have hlt : count.toNat < 2 ^ 63 := by
    have := count.toNat_lt
    omega
  simp [counter?, h, FieldValue.integer?, Int64.toInt_ofNat_of_lt hlt]

theorem clampCount_natCast (count : UInt32) : clampCount (count.toNat : Int) = count := by
  apply UInt32.toNat.inj
  rw [toNat_clampCount]
  have hlt : count.toNat < UInt32.size := count.toNat_lt
  have hcast : (count.toNat : Int).toNat = count.toNat := Int.toNat_natCast _
  omega

/-- The written counter is a lower bound of the count, whatever the other headers say. -/
theorem le_retryCountOf_of_get? {headers : FieldTable} {policy : RedeliveryPolicy} {count : UInt32}
    (h : headers.get? policy.countHeader = some (.longLongInt (Int64.ofNat count.toNat))) :
    count.toNat ≤ (retryCountOf headers policy).toNat := by
  have hmem : (count.toNat : Int) ∈ readableCounters headers policy :=
    mem_readableCounters.2 (Or.inl (counter?_of_get? h))
  have hle := le_retryCountOf hmem
  rwa [clampCount_natCast] at hle

theorem get?_countHeader_retryHeaders (headers : FieldTable) {countHeader : String}
    (count : UInt32) (delay : Option UInt32) (hx : countHeader ≠ delayHeader) :
    (retryHeaders headers countHeader count delay).get? countHeader =
      some (.longLongInt (Int64.ofNat count.toNat)) := by
  rw [get?_retryHeaders_of_ne headers countHeader count delay hx, if_pos rfl]

theorem counter?_retryHeaders {headers : FieldTable} {countHeader name : String} {count : UInt32}
    {delay : Option UInt32} (hname : name ≠ delayHeader) :
    counter? (retryHeaders headers countHeader count delay) name =
      if name = countHeader then some (count.toNat : Int) else counter? headers name := by
  have hget := get?_retryHeaders_of_ne headers countHeader count delay hname
  by_cases h : name = countHeader
  · rw [if_pos h] at hget ⊢
    exact counter?_of_get? hget
  · rw [if_neg h] at hget ⊢
    simp [counter?, hget]

/-- The dead-letter history stays, unless the counter is written over it. -/
theorem deathCount?_retryHeaders {headers : FieldTable} {countHeader : String} {count : UInt32}
    {delay : Option UInt32} :
    deathCount? (retryHeaders headers countHeader count delay) =
      if deathHeader = countHeader then none else deathCount? headers := by
  have hne : deathHeader ≠ delayHeader := by decide
  have hget := get?_retryHeaders_of_ne headers countHeader count delay hne
  by_cases h : deathHeader = countHeader
  -- a number is no list of deaths
  · rw [if_pos h] at hget ⊢
    simp [deathCount?, hget, FieldValue.items?]
  · rw [if_neg h] at hget ⊢
    simp [deathCount?, hget]

/-- Publishing again adds no counter but the one that is written. -/
theorem mem_readableCounters_retryHeaders {headers : FieldTable} {policy : RedeliveryPolicy}
    {count : UInt32} {delay : Option UInt32} {n : Int} (hx : policy.countHeader ≠ delayHeader)
    (h : n ∈ readableCounters (retryHeaders headers policy.countHeader count delay) policy) :
    n = count.toNat ∨ n ∈ readableCounters headers policy := by
  have hdelivery : deliveryCountHeader ≠ delayHeader := by decide
  rw [mem_readableCounters, counter?_retryHeaders hx, deathCount?_retryHeaders,
    counter?_retryHeaders hdelivery, if_pos rfl] at h
  rcases h with h | h | h
  -- the counter that was written
  · exact Or.inl (Option.some.inj h).symm
  -- the dead-letter history, which is unreadable if the counter was written over it
  · split at h
    · cases h
    · exact Or.inr (mem_readableCounters.2 (Or.inr (Or.inl h)))
  -- the delivery count, unless the counter goes by its name
  · split at h
    · exact Or.inl (Option.some.inj h).symm
    · exact Or.inr (mem_readableCounters.2 (Or.inr (Or.inr h)))

/-- A message published again with a greater count has exactly that count. -/
theorem retryCountOf_retryHeaders {headers : FieldTable} {policy : RedeliveryPolicy}
    {count : UInt32} (delay : Option UInt32) (hx : policy.countHeader ≠ delayHeader)
    (hlt : retryCountOf headers policy < count) :
    retryCountOf (retryHeaders headers policy.countHeader count delay) policy = count := by
  have hlow := le_retryCountOf_of_get?
    (get?_countHeader_retryHeaders headers count delay hx)
  have hhigh : (retryCountOf (retryHeaders headers policy.countHeader count delay) policy).toNat
      ≤ count.toNat := by
    apply retryCountOf_le
    intro n hn
    rcases mem_readableCounters_retryHeaders hx hn with rfl | hold
    · exact Nat.le_of_eq (congrArg UInt32.toNat (clampCount_natCast count))
    -- any other counter was there before, and the count was below `count` then
    · exact Nat.le_trans (le_retryCountOf hold) (Nat.le_of_lt (UInt32.lt_iff_toNat_lt.1 hlt))
  exact UInt32.toNat.inj (Nat.le_antisymm hhigh hlow)

/-! ## A counter that goes by the name of the delay -/

/-- The milliseconds that a delay header holds, cut off at the greatest signed 32-bit number; none
are zero. -/
def heldDelay : Option UInt32 → Nat
  | some ms => min ms.toNat 0x7FFFFFFF
  | none => 0

theorem integer?_delayValue (ms : UInt32) :
    (delayValue ms).integer? = some (heldDelay (some ms) : Int) := by
  have hlt : min ms.toNat 0x7FFFFFFF < 2 ^ 31 := by omega
  have hheld : (Int32.ofNat (min ms.toNat 0x7FFFFFFF)).toInt = (heldDelay (some ms) : Int) :=
    Int32.toInt_ofNat_of_lt hlt
  rw [delayValue, FieldValue.integer?, hheld]

theorem counter?_retryHeaders_delay (headers : FieldTable) (countHeader : String) (count : UInt32)
    (delay : Option UInt32) :
    counter? (retryHeaders headers countHeader count delay) delayHeader =
      delay.map fun ms => (heldDelay (some ms) : Int) := by
  cases delay with
  | none => simp [counter?]
  | some ms => simp [counter?, integer?_delayValue]

/-- Where the counter goes by the name of the delay, the delay is read in its place. -/
theorem mem_readableCounters_retryHeaders_delay {headers : FieldTable} {policy : RedeliveryPolicy}
    {count : UInt32} {delay : Option UInt32} {n : Int} (hx : policy.countHeader = delayHeader) :
    n ∈ readableCounters (retryHeaders headers policy.countHeader count delay) policy ↔
      (∃ ms, delay = some ms ∧ n = heldDelay delay) ∨
        n ∈ readableCounters (headers.erase delayHeader) policy := by
  have hdeath : deathHeader ≠ delayHeader := by decide
  have hdelivery : deliveryCountHeader ≠ delayHeader := by decide
  have hkept : ∀ name, name ≠ delayHeader →
      (headers.erase delayHeader).get? name = headers.get? name := by
    intro name hname
    rw [Keyed.get?_erase, if_neg hname]
  have hgone : counter? (headers.erase delayHeader) delayHeader = none := by
    simp [counter?, Keyed.get?_erase]
  rw [mem_readableCounters, mem_readableCounters, counter?_retryHeaders hdelivery,
    deathCount?_retryHeaders, hx, if_neg hdeath, if_neg hdelivery, counter?_retryHeaders_delay,
    hgone]
  simp only [counter?, deathCount?, hkept deathHeader hdeath, hkept deliveryCountHeader hdelivery]
  cases delay with
  | none => simp
  | some ms => simp [eq_comm]

theorem readableCounters_erase_subset (headers : FieldTable) (policy : RedeliveryPolicy)
    (name : String) :
    readableCounters (headers.erase name) policy ⊆ readableCounters headers policy := by
  have hcounter : ∀ key n, counter? (headers.erase name) key = some n →
      counter? headers key = some n := by
    intro key n h
    by_cases hkey : key = name
    · simp [counter?, Keyed.get?_erase, hkey] at h
    · simpa [counter?, Keyed.get?_erase, hkey] using h
  have hdeath : ∀ n, deathCount? (headers.erase name) = some n → deathCount? headers = some n := by
    intro n h
    by_cases hkey : deathHeader = name
    · simp [deathCount?, Keyed.get?_erase, hkey] at h
    · simpa [deathCount?, Keyed.get?_erase, hkey] using h
  intro n h
  rw [mem_readableCounters] at h ⊢
  exact h.imp (hcounter _ n) (Or.imp (hdeath n) (hcounter _ n))

/-- Whatever can be read from fewer headers is counted no higher. -/
theorem retryCountOf_erase_le (headers : FieldTable) (policy : RedeliveryPolicy) (name : String) :
    retryCountOf (headers.erase name) policy ≤ retryCountOf headers policy := by
  rw [UInt32.le_iff_toNat_le]
  apply retryCountOf_le
  intro n hn
  exact le_retryCountOf (readableCounters_erase_subset headers policy name hn)

theorem toNat_clampCount_heldDelay (delay : Option UInt32) :
    (clampCount (heldDelay delay)).toNat = heldDelay delay := by
  have hlt : heldDelay delay ≤ UInt32.size - 1 := by
    cases delay with
    | none => exact Nat.zero_le _
    | some ms => exact Nat.le_trans (Nat.min_le_right _ _) (by decide)
  rw [toNat_clampCount, Int.toNat_natCast]
  exact Nat.min_eq_left hlt

/-- Where the counter goes by the name of the delay it is lost: the count is that of the other
counters or the delay, whichever is greater. -/
theorem retryCountOf_retryHeaders_delay (headers : FieldTable) {policy : RedeliveryPolicy}
    (count : UInt32) (delay : Option UInt32) (hx : policy.countHeader = delayHeader) :
    (retryCountOf (retryHeaders headers policy.countHeader count delay) policy).toNat =
      max (retryCountOf (headers.erase delayHeader) policy).toNat (heldDelay delay) := by
  apply Nat.le_antisymm
  · apply retryCountOf_le
    intro n hn
    rcases (mem_readableCounters_retryHeaders_delay hx).1 hn with ⟨ms, -, rfl⟩ | hother
    · rw [toNat_clampCount_heldDelay]
      exact Nat.le_max_right _ _
    · exact Nat.le_trans (le_retryCountOf hother) (Nat.le_max_left _ _)
  · apply Nat.max_le.2
    constructor
    · apply retryCountOf_le
      intro n hn
      exact le_retryCountOf ((mem_readableCounters_retryHeaders_delay hx).2 (Or.inr hn))
    · cases delay with
      | none => exact Nat.zero_le _
      | some ms =>
          have hmem : (heldDelay (some ms) : Int) ∈
              readableCounters (retryHeaders headers policy.countHeader count (some ms)) policy :=
            (mem_readableCounters_retryHeaders_delay hx).2 (Or.inl ⟨ms, rfl, rfl⟩)
          have hle := le_retryCountOf hmem
          rwa [toNat_clampCount_heldDelay] at hle

/-- A message that is published again with its count raised by one has that count when it is
delivered next, whatever the header is called that carries the counter, unless it is called like the
header that carries the delay. Then the counter is written over or removed, and the next count is
the delay or that of the other counters, whichever is greater. -/
theorem raised_count_read_back (policy : RedeliveryPolicy) (m next : Message)
    (delay : Option UInt32) (hbudget : m.retryCount policy < policy.maxRedeliveries)
    (hnext : next.properties.headers =
      (retryProperties m.properties policy.countHeader (m.retryCount policy + 1) delay).headers) :
    (policy.countHeader ≠ delayHeader →
      (next.retryCount policy).toNat = (m.retryCount policy).toNat + 1) ∧
    (policy.countHeader = delayHeader →
      (next.retryCount policy).toNat =
          max (retryCountOf (m.properties.headerTable.erase delayHeader) policy).toNat
            (heldDelay delay) ∧
        (delay = none → next.retryCount policy ≤ m.retryCount policy)) := by
  -- below the bound there is room for one more
  have hraised : (m.retryCount policy + 1).toNat = (m.retryCount policy).toNat + 1 := by
    have hmax : policy.maxRedeliveries.toNat < 2 ^ 32 := policy.maxRedeliveries.toNat_lt
    have hlt := UInt32.lt_iff_toNat_lt.1 hbudget
    rw [UInt32.toNat_add]
    apply Nat.mod_eq_of_lt
    show (m.retryCount policy).toNat + 1 < 2 ^ 32
    omega
  have htable : next.properties.headerTable =
      retryHeaders m.properties.headerTable policy.countHeader (m.retryCount policy + 1) delay := by
    rw [Properties.headerTable, hnext]
    rfl
  rw [retryCount_eq next, htable]
  constructor
  · intro hx
    have hlt : retryCountOf m.properties.headerTable policy < m.retryCount policy + 1 := by
      rw [← retryCount_eq, UInt32.lt_iff_toNat_lt, hraised]
      exact Nat.lt_succ_self _
    rw [retryCountOf_retryHeaders delay hx hlt, hraised]
  · intro hx
    have hcount := retryCountOf_retryHeaders_delay m.properties.headerTable
      (m.retryCount policy + 1) delay hx
    refine ⟨hcount, ?_⟩
    rintro rfl
    have hle := retryCountOf_erase_le m.properties.headerTable policy delayHeader
    rw [UInt32.le_iff_toNat_le] at hle ⊢
    rw [hcount, retryCount_eq m]
    exact Nat.max_le.2 ⟨hle, Nat.zero_le _⟩

/-- A message that was dead-lettered twice and waited for its delay. -/
def deadLettered : Message :=
  { consumer := "orders"
    properties :=
      { headers := some (Keyed.ofList
          [(deathHeader, .array [.table [(deathCountField, .longLongInt 2)]]),
            (delayHeader, .longInt 5)]) } }

/-- The counter takes the place of the history that the count was read from. -/
theorem raised_count_read_back_over_history :
    let policy : RedeliveryPolicy := { countHeader := deathHeader }
    let next := { deadLettered with
      properties := retryProperties deadLettered.properties deathHeader
        (deadLettered.retryCount policy + 1) none }
    deadLettered.retryCount policy = 2 ∧ 2 < policy.maxRedeliveries ∧
      deathHeader ≠ delayHeader ∧ (next.retryCount policy).toNat = 3 := by
  intro policy next
  have hcount : deadLettered.retryCount policy = 2 := by decide +kernel
  have hbudget : deadLettered.retryCount policy < policy.maxRedeliveries := by decide +kernel
  have hnext := (raised_count_read_back policy deadLettered next none hbudget rfl).1 (by decide)
  rw [hcount] at hnext
  exact ⟨hcount, by decide, by decide, hnext⟩

/-- With the counter in the delay header, a message that fails has the same count every time. -/
theorem raised_count_removed_with_delay :
    ¬ ∀ (d : Definition) (m next : Message),
      m.retryCount d.redelivery < d.redelivery.maxRedeliveries →
      next.properties.headers =
        (retryProperties m.properties d.redelivery.countHeader (m.retryCount d.redelivery + 1)
          (retryRoute d).delay).headers →
      next.retryCount d.redelivery = m.retryCount d.redelivery + 1 := by
  intro h
  let d := (Definition.new "orders" "orders").withCountHeader delayHeader
  let m : Message := { consumer := "orders" }
  let next : Message := { m with properties := retryProperties m.properties delayHeader 1 none }
  have hsame := h d m next (by decide +kernel) rfl
  exact absurd hsame (by decide +kernel)

end AmqpDelivery
