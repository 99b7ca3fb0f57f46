import AmqpDelivery.Settings.Decode
import AmqpDelivery.Proofs.Settings.Filing
import Mathlib.Data.List.Basic

/-!
# What readers make of settings

A record that was read from settled settings has in each field what its reader makes of the entry
under the field's key, and the default where there is none (`view_of_toRecord`). A table with free
keys has under each key in lowercase what the reader makes of that entry (`get?_of_toKeyed`), and a
list has at each position what it makes of that item (`getElem?_of_toItems`). So the settings of a
connection are those of the object they are read from (`BrokerSettings.describedBy_of_ofRaw`).
-/

namespace AmqpDelivery

namespace RawSetting

variable {σ α β : Type}

theorem ok_of_mapError {ε ε' : Type} {f : ε → ε'} {x : Except ε α} {a : α}
    (h : x.mapError f = .ok a) : x = .ok a := by
  cases x with
  | error e => cases h
  | ok b =>
      cases h
      rfl

theorem ok_of_bind {ε : Type} {x : Except ε α} {f : α → Except ε β} {b : β}
    (h : x >>= f = .ok b) : ∃ a, x = .ok a ∧ f a = .ok b := by
  cases x with
  | error e => cases h
  | ok a => exact ⟨a, rfl, h⟩

/-! ## Records -/

/-- A field changes nothing that a view of the record shows. -/
def Field.Keeps (f : Field σ) (view : σ → α) : Prop :=
  ∀ s r r', f.read s r = .ok r' → view r' = view r

/-- Of the fields, the view shows the one of the key and no other. -/
structure Shows (fields : List (Field σ)) (key : String)
    (read : RawSetting → Except SettingFault α) (view : σ → α) : Prop where
  own : ∃ update, fields.find? (·.key = key) = some (.of key read update) ∧
    ∀ r v, view (update r v) = v
  others : ∀ f ∈ fields, f.key = key ∨ f.Keeps view

section Records

variable {fields : List (Field σ)} {key name : String} {view : σ → α} {r r' : σ}
  {entries : List (String × RawSetting)} {read : RawSetting → Except SettingFault α}

theorem read_of {update : σ → α → σ} {s : RawSetting}
    (h : (Field.of key read update).read s r = .ok r') :
    ∃ v, read s = .ok v ∧ update r v = r' := by
  have hmap : (read s).map (update r) = .ok r' := h
  cases hread : read s with
  | error e =>
      rw [hread] at hmap
      cases hmap
  | ok v =>
      rw [hread] at hmap
      exact ⟨v, rfl, Except.ok.inj hmap⟩

@[simp] theorem Field.key_of {update : σ → α → σ} : (Field.of key read update).key = key := rfl

@[simp] theorem Field.keeps_of {view : σ → β} {update : σ → α → σ}
    (h : ∀ r v, view (update r v) = view r) : (Field.of key read update).Keeps view := by
  intro s r r' hr
  obtain ⟨v, -, rfl⟩ := read_of hr
  exact h r v

theorem toFields_append {before after : List (String × RawSetting)}
    (h : toFields fields r (before ++ after) = .ok r') :
    ∃ m, toFields fields r before = .ok m ∧ toFields fields m after = .ok r' := by
  induction before generalizing r with
  | nil => exact ⟨r, rfl, h⟩
  | cons e before ih =>
      rw [List.cons_append, toFields] at h
      rw [toFields]
      split at h
      · next f hf =>
        obtain ⟨m, hm, hrest⟩ := ok_of_bind h
        rw [hm]
        exact ih hrest
      · exact ih h

/-- Entries under other keys leave the field as it is. -/
theorem view_of_toFields_others (hshows : Shows fields key read view)
    (h : toFields fields r entries = .ok r') (hne : ∀ e ∈ entries, e.1 ≠ key) :
    view r' = view r := by
  induction entries generalizing r with
  | nil =>
      cases h
      rfl
  | cons e rest ih =>
      have hrest : ∀ e' ∈ rest, e'.1 ≠ key := fun e' he' => hne e' (List.mem_cons_of_mem e he')
      rw [toFields] at h
      split at h
      · next f hf =>
        obtain ⟨m, hm, hgo⟩ := ok_of_bind h
        rw [ih hgo hrest]
        have hkey : f.key = e.1 := by simpa using List.find?_some hf
        rcases hshows.others f (List.mem_of_find?_eq_some hf) with heq | hkeeps
        · exact absurd (hkey.symm.trans heq) (hne e List.mem_cons_self)
        · exact hkeeps e.2 r m (ok_of_mapError hm)
      · exact ih h hrest

/-- The entry under its key decides a field. -/
theorem view_of_toFields (hshows : Shows fields key read view)
    {before after : List (String × RawSetting)} {s : RawSetting}
    (h : toFields fields r (before ++ (key, s) :: after) = .ok r')
    (hne : ∀ e ∈ before ++ after, e.1 ≠ key) : read s = .ok (view r') := by
  obtain ⟨m, -, hm⟩ := toFields_append h
  obtain ⟨update, hfound, hview⟩ := hshows.own
  rw [toFields, hfound] at hm
  obtain ⟨m', hm', hgo⟩ := ok_of_bind hm
  obtain ⟨v, hread, rfl⟩ := read_of (ok_of_mapError hm')
  rw [view_of_toFields_others hshows hgo fun e he => hne e (List.mem_append_right before he), hview,
    hread]

/-- A record that was read from settled settings has in a field what is read from the entry under
its key, and the default where there is none. -/
theorem view_of_toRecord (hshows : Shows fields key read view) (hkey : Text.lowercase key = key)
    {s : RawSetting} (hs : s.Settled) (htable : s = .table none s.entries)
    (h : toRecord name fields r s = .ok r') :
    (∀ value, s.entry? key = some value → read value = .ok (view r')) ∧
      (s.entry? key = none → view r' = view r) := by
  rw [htable, toRecord] at h
  rw [ entry?, hkey]
  refine ⟨fun value hvalue => ?_, fun hnone => ?_⟩
  · obtain ⟨before, after, hsplit⟩ := List.append_of_mem (Entries.mem_of_find? hvalue)
    have hordered := hs.ordered
    rw [hsplit] at h hordered
    exact view_of_toFields hshows h (Entries.ne_of_ordered hordered)
  · refine view_of_toFields_others hshows h fun e he heq => ?_
    subst heq
    rw [Entries.find?_of_mem hs.ordered he] at hnone
    cases hnone

/-- What settled settings have under the key of a field is read as that field. -/
theorem read_of_entry (hshows : Shows fields key read view) (hkey : Text.lowercase key = key)
    {s value : RawSetting} (hs : s.Settled) (hvalue : s.entry? key = some value)
    (h : toRecord name fields r s = .ok r') : read value = .ok (view r') :=
  (view_of_toRecord hshows hkey hs (hs.eq_table hvalue) h).1 value hvalue

end Records

/-! ## Tables and lists -/

/-- A table with free keys has under each key what is read from the entry there. -/
theorem get?_of_toEntries {read : RawSetting → Except SettingFault α} {acc t : Keyed α}
    {entries : List (String × RawSetting)} (hordered : Entries.Ordered entries)
    (h : toEntries read acc entries = .ok t) (key : String) :
    (∀ s, Entries.find? key entries = some s → ∃ v, read s = .ok v ∧ t.get? key = some v) ∧
      (Entries.find? key entries = none → t.get? key = acc.get? key) := by
  induction entries generalizing acc with
  | nil =>
      cases h
      refine ⟨fun s hs => ?_, fun _ => rfl⟩
      cases hs
  | cons e rest ih =>
      obtain ⟨v, hv, hgo⟩ := ok_of_bind h
      obtain ⟨hfirst, hrest⟩ := List.pairwise_cons.1 hordered
      obtain ⟨hsome, hnone⟩ := ih hrest hgo
      rw [Entries.find?]
      by_cases heq : e.1 = key
      · -- the rest of the table has no such key, so what is filed here stays
        have habsent : Entries.find? key rest = none := by
          refine Entries.find?_eq_none fun e' he' heq' => ?_
          have hlt := hfirst e' he'
          rw [heq, heq'] at hlt
          exact String.lt_irrefl key hlt
        rw [if_pos heq, hnone habsent, Keyed.get?_insert, if_pos heq.symm]
        refine ⟨fun s hs => ?_, fun hs => ?_⟩
        · cases hs
          exact ⟨v, ok_of_mapError hv, rfl⟩
        · cases hs
      · rw [if_neg heq]
        refine ⟨hsome, fun habsent => ?_⟩
        rw [hnone habsent, Keyed.get?_insert, if_neg (Ne.symm heq)]

/-- What settled settings have under a key is found under it if it is in lowercase; a key that is
spelled otherwise finds nothing. -/
theorem get?_of_toKeyed {read : RawSetting → Except SettingFault α} {t : Keyed α}
    {s value : RawSetting} {key : String} (hs : s.Settled) (h : toKeyed read s = .ok t)
    (hvalue : s.entry? key = some value) :
    ∃ v, read value = .ok v ∧
      t.get? key = if Text.lowercase key = key then some v else none := by
  rw [hs.eq_table hvalue, toKeyed] at h
  obtain ⟨v, hv, hlower⟩ := (get?_of_toEntries hs.ordered h (Text.lowercase key)).1 value hvalue
  refine ⟨v, hv, ?_⟩
  split
  · next hkey => rw [← hlower, hkey]
  · next hkey =>
    refine (get?_of_toEntries hs.ordered h key).2 ?_
    rw [hs.find?_eq, if_neg hkey]

theorem getElem?_of_toItems {read : RawSetting → Except SettingFault α} {i : Nat}
    {items : List RawSetting} {l : List α} (h : toItems read i items = .ok l) {j : Nat}
    {item : RawSetting} (hitem : items[j]? = some item) :
    ∃ v, l[j]? = some v ∧ read item = .ok v := by
  induction items generalizing i j l with
  | nil => cases hitem
  | cons first rest ih =>
      rw [toItems] at h
      obtain ⟨v, hv, hrest⟩ := ok_of_bind h
      obtain ⟨vs, hvs, hl⟩ := ok_of_bind hrest
      cases hl
      cases j with
      | zero =>
          cases hitem
          exact ⟨v, rfl, ok_of_mapError hv⟩
      | succ j => exact ih hvs hitem

/-! ## Numbers -/

/-- Natural numbers that fit 64 bits with sign are read as they are written. -/
theorem toUInt64_natural (origin : Option String) {n : UInt64} (h : n.toNat < 0x8000000000000000) :
    (ofJson origin (.number (.natural n))).toUInt64 = .ok n := by
  have hint : (Int64.ofNat n.toNat).toInt = n.toNat := Int64.toInt_ofNat_of_lt h
  rw [ofJson, ofNumber, if_pos h, toUInt64, hint, if_pos (Int.natCast_nonneg _), Int.toNat_natCast,
    UInt64.ofNat_toNat]

end RawSetting

open RawSetting

/-! ## The settings of a connection -/

/-- What an object says of a field: what it has under the key is read as the value, and if it says
nothing of the key, the value is the default. -/
def RawSetting.Describes {α : Type} (o : RawSetting) (key : String)
    (read : RawSetting → Except SettingFault α) (default value : α) : Prop :=
  (∀ leaf, o.Gives [key] leaf → read leaf.filed = .ok value) ∧ (o.Apart [key] → value = default)

/-- Backoff settings are those of an object. -/
structure ReconnectSettings.DescribedBy (r : ReconnectSettings) (o : RawSetting) : Prop where
  initialIntervalMs : o.Describes "initial_interval_ms" toUInt64 500 r.initialIntervalMs
  maxIntervalMs : o.Describes "max_interval_ms" toUInt64 30000 r.maxIntervalMs
  maxAttempts : o.Describes "max_attempts" toUInt32 0 r.maxAttempts

/-- The settings of a connection are those of an object. -/
structure BrokerSettings.DescribedBy (b : BrokerSettings) (o : RawSetting) : Prop where
  host : o.Describes "host" toText "localhost" b.host
  port : o.Describes "port" toUInt16 5672 b.port
  vhost : o.Describes "vhost" toText "/" b.vhost
  user : o.Describes "user" toText "guest" b.user
  password : o.Describes "password" toText "guest" b.password
  heartbeat : o.Describes "heartbeat" toUInt16 60 b.heartbeat
  maxChannels : o.Describes "max_channels" toUInt16 64 b.maxChannels
  reconnect : o.Describes "reconnect" ReconnectSettings.ofRaw {} b.reconnect
  reconnectObject : ∀ origin members, o.Gives ["reconnect"] (.table origin members) →
    b.reconnect.DescribedBy (.table origin members)

section Broker

theorem describes_of_toRecord {σ α : Type} {fields : List (RawSetting.Field σ)} {key name : String}
    {read : RawSetting → Except SettingFault α} {view : σ → α} {r r' : σ} {o : RawSetting}
    (hshows : Shows fields key read view) (hkey : Text.lowercase key = key)
    (htable : o.filed = .table none o.filed.entries)
    (h : toRecord name fields r o.filed = .ok r') : o.Describes key read (view r) (view r') := by
  obtain ⟨hentry, hdefault⟩ := view_of_toRecord hshows hkey (settled_filed o) htable h
  refine ⟨fun leaf hleaf => hentry leaf.filed ?_, fun hapart => hdefault ?_⟩
  · rw [← at?_singleton]
    exact at?_filedOver_of_gives hleaf rfl
  · rw [← at?_singleton]
    exact at?_filedOver_of_apart hapart none

theorem ReconnectSettings.describedBy_of_ofRaw {r : ReconnectSettings} {o : RawSetting}
    (htable : o.filed = .table none o.filed.entries)
    (h : ReconnectSettings.ofRaw o.filed = .ok r) : r.DescribedBy o := by
  constructor <;>
    exact describes_of_toRecord ⟨⟨_, rfl, fun _ _ => rfl⟩, by simp⟩ (by decide +kernel) htable h

theorem BrokerSettings.describedBy_of_ofRaw {b : BrokerSettings} {o : RawSetting}
    (htable : o.filed = .table none o.filed.entries)
    (h : BrokerSettings.ofRaw o.filed = .ok b) : b.DescribedBy o := by
  have hreconnect : o.Describes "reconnect" ReconnectSettings.ofRaw {} b.reconnect :=
    describes_of_toRecord ⟨⟨_, rfl, fun _ _ => rfl⟩, by simp⟩ (by decide +kernel) htable h
  constructor
  case reconnectObject =>
    intro origin members hmembers
    exact ReconnectSettings.describedBy_of_ofRaw (filed_table origin members)
      (hreconnect.1 _ hmembers)
  case reconnect => exact hreconnect
  all_goals
    exact describes_of_toRecord ⟨⟨_, rfl, fun _ _ => rfl⟩, by simp⟩ (by decide +kernel) htable h

end Broker

end AmqpDelivery
