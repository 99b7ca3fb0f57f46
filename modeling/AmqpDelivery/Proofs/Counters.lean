import AmqpDelivery.Proofs.RetryCount

/-!
# Which counters are read

A count may stand in three places of the headers (`Counter`). A counter can be read if a value of an
integer type stands in its place (`Message.Reads`), and the readings are the counters that the
library gathers (`mem_readableCounters_iff`). Main statement: the count of a message is the greatest
reading, brought into the range of 32 bits without sign (`retry_count_of_readings`). What cannot be
read has no part in it.
-/

namespace AmqpDelivery

/-- The value is of an integer type and stands for the number. -/
inductive FieldValue.Holds : FieldValue → Int → Prop
  | shortShortInt (n : Int8) : Holds (.shortShortInt n) n.toInt
  | shortShortUInt (n : UInt8) : Holds (.shortShortUInt n) n.toNat
  | shortInt (n : Int16) : Holds (.shortInt n) n.toInt
  | shortUInt (n : UInt16) : Holds (.shortUInt n) n.toNat
  | longInt (n : Int32) : Holds (.longInt n) n.toInt
  | longUInt (n : UInt32) : Holds (.longUInt n) n.toNat
  | longLongInt (n : Int64) : Holds (.longLongInt n) n.toInt

/-- The places in which a count may stand. -/
inductive Counter where
  /-- The header that the policy names. -/
  | named
  /-- The first entry of the dead-letter history. -/
  | death
  /-- The header of quorum queues. -/
  | delivery

/-- The value stands in the place of the counter. -/
inductive Counter.Shows (policy : RedeliveryPolicy) (headers : FieldTable) :
    Counter → FieldValue → Prop
  | named {v : FieldValue} (h : headers.get? policy.countHeader = some v) :
      Shows policy headers .named v
  | death {entry : List (String × FieldValue)} {later : List FieldValue} {v : FieldValue}
      (hhistory : headers.get? deathHeader = some (.array (.table entry :: later)))
      (h : Entries.find? deathCountField entry = some v) : Shows policy headers .death v
  | delivery {v : FieldValue} (h : headers.get? deliveryCountHeader = some v) :
      Shows policy headers .delivery v

/-- The counter of the message can be read, and says the number. -/
def Message.Reads (m : Message) (policy : RedeliveryPolicy) (c : Counter) (n : Int) : Prop :=
  ∃ headers v, m.properties.headers = some headers ∧ c.Shows policy headers v ∧ v.Holds n

section Readings

variable {policy : RedeliveryPolicy} {headers : FieldTable} {m : Message} {n : Int}

theorem FieldValue.integer?_eq_some {v : FieldValue} : v.integer? = some n ↔ v.Holds n := by
  constructor
  · intro h
    cases v <;> cases h <;> constructor
  · rintro ⟨⟩ <;> rfl

theorem counter?_eq_some {name : String} :
    counter? headers name = some n ↔ ∃ v, headers.get? name = some v ∧ v.Holds n := by
  simp only [counter?, Option.bind_eq_bind, Option.bind_eq_some_iff, FieldValue.integer?_eq_some]

theorem FieldValue.items?_eq_some {v : FieldValue} {items : List FieldValue} :
    v.items? = some items ↔ v = .array items := by
  cases v <;> simp [FieldValue.items?]

theorem FieldValue.entries?_eq_some {v : FieldValue} {entries : List (String × FieldValue)} :
    v.entries? = some entries ↔ v = .table entries := by
  cases v <;> simp [FieldValue.entries?]

theorem deathCount?_eq_some :
    deathCount? headers = some n ↔ ∃ entry later v,
      headers.get? deathHeader = some (.array (.table entry :: later)) ∧
        Entries.find? deathCountField entry = some v ∧ v.Holds n := by
  simp only [deathCount?, Option.bind_eq_bind, Option.bind_eq_some_iff,
    FieldValue.items?_eq_some, FieldValue.entries?_eq_some, FieldValue.integer?_eq_some,
    List.head?_eq_some_iff]
  constructor
  · rintro ⟨_, hhistory, _, rfl, _, ⟨later, rfl⟩, entry, rfl, v, hv, hn⟩
    exact ⟨entry, later, v, hhistory, hv, hn⟩
  · rintro ⟨entry, later, v, hhistory, hv, hn⟩
    exact ⟨_, hhistory, _, rfl, _, ⟨later, rfl⟩, entry, rfl, v, hv, hn⟩

/-- The counters that the library gathers are those that can be read. -/
theorem mem_readableCounters_iff :
    n ∈ readableCounters headers policy ↔ ∃ c v, Counter.Shows policy headers c v ∧ v.Holds n := by
  rw [mem_readableCounters, counter?_eq_some, deathCount?_eq_some, counter?_eq_some]
  constructor
  · rintro (⟨v, h, hn⟩ | ⟨entry, later, v, hhistory, h, hn⟩ | ⟨v, h, hn⟩)
    · exact ⟨.named, v, .named h, hn⟩
    · exact ⟨.death, v, .death hhistory h, hn⟩
    · exact ⟨.delivery, v, .delivery h, hn⟩
  · rintro ⟨c, v, hshows, hn⟩
    cases hshows with
    | named h => exact Or.inl ⟨v, h, hn⟩
    | death hhistory h => exact Or.inr (Or.inl ⟨_, _, v, hhistory, h, hn⟩)
    | delivery h => exact Or.inr (Or.inr ⟨v, h, hn⟩)

theorem Message.exists_reads_iff :
    (∃ c, m.Reads policy c n) ↔ n ∈ readableCounters m.properties.headerTable policy := by
  rw [mem_readableCounters_iff]
  unfold Message.Reads Properties.headerTable
  cases m.properties.headers with
  | some headers => simp
  | none =>
      -- the table that stands in for missing headers shows nothing
      simp only [reduceCtorEq, false_and, exists_false, Option.getD_none, false_iff]
      rintro ⟨c, v, hshows, -⟩
      cases hshows <;> simp_all

end Readings

section Ranges

/-- Every number that is read fits into 64 bits with sign. -/
theorem FieldValue.Holds.fits {v : FieldValue} {n : Int} (h : v.Holds n) :
    (Int64.ofInt n).toInt = n := by
  apply Int64.toInt_ofInt_of_le <;> cases h with
  | shortShortInt k => have := k.le_toInt; have := k.toInt_lt; omega
  | shortShortUInt k => have := k.toNat_lt; omega
  | shortInt k => have := k.le_toInt; have := k.toInt_lt; omega
  | shortUInt k => have := k.toNat_lt; omega
  | longInt k => have := k.le_toInt; have := k.toInt_lt; omega
  | longUInt k => have := k.toNat_lt; omega
  | longLongInt k => have := k.le_toInt; have := k.toInt_lt; omega

theorem toInt_clampCount (n : Int) :
    ((clampCount n).toNat : Int) = max 0 (min n 0xFFFFFFFF) := by
  have hsize : UInt32.size = 0x100000000 := rfl
  rw [toNat_clampCount, hsize]
  omega

end Ranges

/-- The count of a message is zero if no counter can be read, and otherwise the greatest reading,
brought into the range of 32 bits without sign. So no counter hides another, whatever stands in its
place, and the count does not go down where a message reads every counter at least as high. Nothing
is lost when a reading is taken as a number of 64 bits. -/
theorem retry_count_of_readings (policy : RedeliveryPolicy) (m : Message) :
    ((∀ c n, ¬m.Reads policy c n) ∧ m.retryCount policy = 0 ∨
      ∃ c n, m.Reads policy c n ∧ (∀ c' k, m.Reads policy c' k → k ≤ n) ∧
        ((m.retryCount policy).toNat : Int) = max 0 (min n 0xFFFFFFFF)) ∧
    (∀ c n, m.Reads policy c n →
      max 0 (min n 0xFFFFFFFF) ≤ ((m.retryCount policy).toNat : Int) ∧
        (Int64.ofInt n).toInt = n) ∧
    ∀ m' : Message, (∀ c n, m.Reads policy c n → ∃ k, n ≤ k ∧ m'.Reads policy c k) →
      m.retryCount policy ≤ m'.retryCount policy := by
  have hmem : ∀ {m : Message} {c n}, m.Reads policy c n →
      n ∈ readableCounters m.properties.headerTable policy :=
    fun h => Message.exists_reads_iff.1 ⟨_, h⟩
  refine ⟨?_, fun c n h => ⟨?_, ?_⟩, fun m' hreads => ?_⟩
  · rw [retryCount_eq]
    rcases retryCountOf_cases m.properties.headerTable policy with ⟨hnone, hzero⟩ |
      ⟨n, hn, hgreatest, hcount⟩
    · refine Or.inl ⟨fun c n h => ?_, hzero⟩
      have hn := hmem h
      rw [hnone] at hn
      cases hn
    · obtain ⟨c, hc⟩ := Message.exists_reads_iff.2 hn
      refine Or.inr ⟨c, n, hc, fun c' k hk => hgreatest k (hmem hk), ?_⟩
      rw [hcount, toInt_clampCount]
  · rw [← toInt_clampCount, retryCount_eq, Int.ofNat_le]
    exact le_retryCountOf (hmem h)
  · obtain ⟨headers, v, -, -, hv⟩ := h
    exact hv.fits
  · rw [retryCount_eq m, retryCount_eq m', UInt32.le_iff_toNat_le]
    apply retryCountOf_le
    intro n hn
    obtain ⟨c, hc⟩ := Message.exists_reads_iff.2 hn
    obtain ⟨k, hle, hk⟩ := hreads c n hc
    exact Nat.le_trans (clampCount_mono hle) (le_retryCountOf (hmem hk))

/-- A message with the given headers. -/
def headed (headers : List (String × FieldValue)) : Message :=
  { consumer := "orders", properties := { headers := some (Keyed.ofList headers) } }

/-- A history without an entry hides nothing, a negative count is none, and a great one is cut
off. -/
theorem retry_count_of_readings_malformed :
    let bare := headed [(defaultCountHeader, .shortShortInt (-3))]
    let full := headed [(deathHeader, .array []), (deliveryCountHeader, .longLongInt 0x10000000000),
      (defaultCountHeader, .shortShortInt (-3))]
    bare.Reads {} .named (-3) ∧ full.Reads {} .delivery 0x10000000000 ∧
      (full.retryCount {}).toNat = 0xFFFFFFFF ∧ bare.retryCount {} ≤ full.retryCount {} := by
  intro bare full
  have hbare : bare.Reads {} .named (-3) := ⟨_, _, rfl, .named rfl, .shortShortInt (-3)⟩
  have hnamed : full.Reads {} .named (-3) := ⟨_, _, rfl, .named rfl, .shortShortInt (-3)⟩
  have hdelivery : full.Reads {} .delivery 0x10000000000 :=
    ⟨_, _, rfl, .delivery rfl, .longLongInt 0x10000000000⟩
  refine ⟨hbare, hdelivery, ?_, ?_⟩
  · have hlow := ((retry_count_of_readings {} full).2.1 _ _ hdelivery).1
    have hhigh := (full.retryCount {}).toNat_lt
    omega
  · refine (retry_count_of_readings {} bare).2.2 full fun c n h => ?_
    -- the message has one header only, and it is the one that the policy names
    obtain ⟨headers, v, hheaders, hshows, hv⟩ := h
    cases hheaders
    cases hshows with
    | named hget =>
        cases hget
        cases hv
        exact ⟨-3, Int.le_refl _, hnamed⟩
    | death hhistory _ => cases hhistory
    | delivery hget => cases hget

end AmqpDelivery
