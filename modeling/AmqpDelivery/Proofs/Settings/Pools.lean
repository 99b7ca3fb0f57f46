import AmqpDelivery.Settings.Load
import AmqpDelivery.Proofs.Pool.Bound
import AmqpDelivery.Proofs.Settings.Reading
import AmqpDelivery.Proofs.Settings.Sources
import AmqpDelivery.Proofs.Topology.Declarable

/-!
# Settings by pool

A pool is named by a key where its limit and its connection are set and by a text where a consumer
runs in it. Keys are filed in lowercase and texts are kept. Main statement: so the settings of a
file reach the pool that they name if and only if its name is in lowercase
(`pool_settings_of_file`). A pool of any other name runs under the default limit and has no
connection (`pool_settings_missed`).
-/

namespace AmqpDelivery

open RawSetting

/-! ## From settled settings to the settings of a pool -/

section Settled

variable {t leaf : RawSetting} {s : Settings} {pool : String}

theorem toUInt64_of_filed {n : UInt64} (h : leaf.filed.toUInt64 = .ok n) :
    leaf.toUInt64 = .ok n := by
  cases leaf with
  | table origin entries =>
      rw [filed_table] at h
      cases h
  | _ => exact h

/-- The limit that is set for a name is the limit of that pool if the name is in lowercase. -/
theorem limitFor_of_at? (ht : t.Settled) (h : Settings.ofRaw t = .ok s)
    (hat : t.at? ["concurrent", "limit", pool] = some leaf) :
    ∃ n, leaf.toUInt64 = .ok n ∧
      s.concurrency.limitFor pool =
        if Text.lowercase pool = pool then n else s.concurrency.defaultLimit := by
  obtain ⟨concurrent, hconcurrent, hat⟩ := Option.bind_eq_some_iff.1 hat
  obtain ⟨limit, hlimit, hat⟩ := Option.bind_eq_some_iff.1 hat
  obtain ⟨last, hleaf, hlast⟩ := Option.bind_eq_some_iff.1 hat
  cases hlast
  have hcsettled := ht.of_entry hconcurrent
  have hcread : ConcurrencySettings.ofRaw concurrent = .ok s.concurrency :=
    read_of_entry ⟨⟨_, rfl, fun _ _ => rfl⟩, by simp⟩ (by decide +kernel) ht hconcurrent h
  have hlread : toKeyed toUInt64 limit = .ok s.concurrency.limits :=
    read_of_entry ⟨⟨_, rfl, fun _ _ => rfl⟩, by simp⟩ (by decide +kernel) hcsettled hlimit hcread
  obtain ⟨n, hn, hget⟩ := get?_of_toKeyed (hcsettled.of_entry hlimit) hlread hleaf
  refine ⟨n, hn, ?_⟩
  rw [ConcurrencySettings.limitFor, hget]
  split <;> rfl

/-- The connection that is set for a name is the connection of that pool if the name is in
lowercase. -/
theorem broker_of_at? (ht : t.Settled) (h : Settings.ofRaw t = .ok s)
    (hat : t.at? ["rabbitmq", pool] = some leaf) :
    ∃ b, BrokerSettings.ofRaw leaf = .ok b ∧
      s.broker pool =
        if Text.lowercase pool = pool then .ok b
        else .error (.configuration ("rabbitmq." ++ pool)) := by
  obtain ⟨brokers, hbrokers, hat⟩ := Option.bind_eq_some_iff.1 hat
  obtain ⟨last, hleaf, hlast⟩ := Option.bind_eq_some_iff.1 hat
  cases hlast
  have hread : toKeyed BrokerSettings.ofRaw brokers = .ok s.brokers :=
    read_of_entry ⟨⟨_, rfl, fun _ _ => rfl⟩, by simp⟩ (by decide +kernel) ht hbrokers h
  obtain ⟨b, hb, hget⟩ := get?_of_toKeyed (ht.of_entry hbrokers) hread hleaf
  refine ⟨b, hb, ?_⟩
  rw [Settings.broker, hget]
  by_cases hname : Text.lowercase pool = pool
  · rw [if_pos hname, if_pos hname]
  · rw [if_neg hname, if_neg hname]

/-- Consumers are read from the items of the list, one by one. -/
theorem consumer_of_at? (ht : t.Settled) (h : Settings.ofRaw t = .ok s) {origin : Option String}
    {items : List RawSetting} (hat : t.at? ["consumers"] = some (.array origin items)) {i : Nat}
    {item : RawSetting} (hitem : items[i]? = some item) :
    ∃ c, s.consumers[i]? = some c ∧ ConsumerSettings.ofRaw item = .ok c := by
  obtain ⟨consumers, hconsumers, hlast⟩ := Option.bind_eq_some_iff.1 hat
  cases hlast
  have hread : toList ConsumerSettings.ofRaw (.array origin items) = .ok s.consumers :=
    read_of_entry ⟨⟨_, rfl, fun _ _ => rfl⟩, by simp⟩ (by decide +kernel) ht hconsumers h
  rw [toList] at hread
  exact getElem?_of_toItems hread hitem

end Settled

/-- The pool of a consumer is kept as it is written. -/
theorem pool_of_ofRaw {origin : Option String} {before after : List (String × RawSetting)}
    {value : RawSetting} {pool : String} {c : ConsumerSettings}
    (hvalue : value.toText = .ok pool) (hne : ∀ e ∈ before ++ after, e.1 ≠ "pool")
    (h : ConsumerSettings.ofRaw (.table origin (before ++ ("pool", value) :: after)) = .ok c) :
    c.pool = pool := by
  rw [ConsumerSettings.ofRaw, toRecord] at h
  have hread : value.toText = .ok c.pool :=
    view_of_toFields ⟨⟨_, rfl, fun _ _ => rfl⟩, by simp⟩ h hne
  rw [hvalue] at hread
  exact (Except.ok.inj hread).symm

/-- Whenever a pool is looked up, its limiter has the limit that the settings give to its name. -/
theorem Pools.limit_of_lookup {settings : ConcurrencySettings} {events : List PoolEvent}
    {name : String} {found : Pools} {id : LimiterId}
    (h : (({ settings } : Pools).run events).get? name = some (found, id)) :
    (found.limiters id).limit = settings.limitFor name := by
  obtain ⟨hsound, hkept⟩ := (sound_initial settings).run events
  obtain ⟨hfound, hsame, hid⟩ := hsound.get h
  rw [(hfound.filed name id hid).2.2, hsame.1, hkept.1]

/-! ## From a file to settled settings -/

theorem ofMembers_eq_map (origin : Option String) (members : List (String × Json)) :
    ofMembers origin members = members.map fun m => (m.1, ofJson origin m.2) := by
  induction members with
  | nil => rfl
  | cons m rest ih => rw [ofMembers, List.map_cons, ih]

theorem ofItems_eq_map (origin : Option String) (items : List Json) :
    ofItems origin items = items.map (ofJson origin) := by
  induction items with
  | nil => rfl
  | cons item rest ih => rw [ofItems, List.map_cons, ih]

/-- Settings from a file alone are read from what has been collected twice. -/
theorem load_of_file {d : Directory} {path : Option String} {env : List (String × String)}
    {file text : String} {members : List (String × Json)}
    (hfile : path.bind d.locate = some (file, text))
    (hjson : Json.ofBytes (dropMark text).toUTF8 = .ok (.object members))
    (henv : ∀ v ∈ env, variablePath? v.1 = none) :
    Settings.load d path env =
      Settings.ofMerged (collectedTwice (ofMembers (some file) members)) := by
  have hnone : environmentSource env = [] := by
    have hfilter : (env.filterMap fun v => (variablePath? v.1).map fun path =>
        (path, RawSetting.scalar (some environmentOrigin) (.text v.2))) = [] :=
      List.filterMap_eq_nil_iff.2 fun v hv => by rw [henv v hv, Option.map_none]
    rw [environmentSource, hfilter]
    rfl
  have hsource : fileSource file text = .ok (ofMembers (some file) members) := by
    rw [fileSource, hjson]
    rfl
  rw [Settings.load, hfile, hnone]
  exact congrArg (· >>= fun source => Settings.ofSources [source, []]) hsource

/-- The settings of a file that reach a pool, if no variable overrides them. Its limit and its
connection are those that the file sets for its name if the name is in lowercase; the pool of any
other name runs under the default limit and has no connection. The pool that a consumer names is
kept as it is written, and the limiter that the consumer finds under that name has the limit of that
name. -/
theorem pool_settings_of_file {d : Directory} {path : Option String} {env : List (String × String)}
    {file text : String} {members : List (String × Json)} {s : Settings}
    (hfile : path.bind d.locate = some (file, text))
    (hjson : Json.ofBytes (dropMark text).toUTF8 = .ok (.object members))
    (henv : ∀ v ∈ env, variablePath? v.1 = none) (hload : Settings.load d path env = .ok s)
    (pool : String) :
    let source := ofMembers (some file) members
    (∀ value, Supplies source ["concurrent", "limit", pool] (ofJson (some file) value) →
      ∃ n, (ofJson (some file) value).toUInt64 = .ok n ∧
        (∀ k : UInt64, k.toNat < 0x8000000000000000 → value = .number (.natural k) → n = k) ∧
        s.concurrency.limitFor pool =
          if Text.lowercase pool = pool then n else s.concurrency.defaultLimit) ∧
    (∀ o, Supplies source ["rabbitmq", pool] (ofJson (some file) (.object o)) →
      ∃ b : BrokerSettings, b.DescribedBy (ofJson (some file) (.object o)) ∧
        s.broker pool =
          if Text.lowercase pool = pool then .ok b
          else .error (.configuration ("rabbitmq." ++ pool))) ∧
    (∀ (items : List Json) (i : Nat) (before after : List (String × Json)),
      Supplies source ["consumers"] (ofJson (some file) (.array items)) →
      items[i]? = some (.object (before ++ ("pool", .text pool) :: after)) →
      (∀ m ∈ before ++ after, m.1 ≠ "pool") →
        ∃ c, s.consumers[i]? = some c ∧ ∀ consumer, Definition.ofSettings c = .ok consumer →
          consumer.pool = pool ∧ ∀ events found id,
            (({ settings := s.concurrency } : Pools).run events).get? consumer.pool =
              some (found, id) →
            (found.limiters id).limit = s.concurrency.limitFor pool) := by
  intro source
  have hmerged : Settings.ofMerged (collectedTwice source) = .ok s := by
    rw [← load_of_file hfile hjson henv, hload]
  have hraw : Settings.ofRaw (collectedTwice source) = .ok s := ok_of_mapError hmerged
  have hsettled : (collectedTwice source).Settled := settled_collectedTwice source
  refine ⟨fun value hsupplies => ?_, fun o hsupplies => ?_, ?_⟩
  · have hat := at?_collectedTwice hsupplies (by decide +kernel)
    obtain ⟨n, hn, hlimit⟩ := limitFor_of_at? hsettled hraw hat
    have hread : (ofJson (some file) value).toUInt64 = .ok n := toUInt64_of_filed hn
    refine ⟨n, hread, fun k hk hvalue => ?_, hlimit⟩
    rw [hvalue, toUInt64_natural (some file) hk] at hread
    exact (Except.ok.inj hread).symm
  · have hat := at?_collectedTwice hsupplies (by decide +kernel)
    obtain ⟨b, hb, hbroker⟩ := broker_of_at? hsettled hraw hat
    exact ⟨b, BrokerSettings.describedBy_of_ofRaw (filed_table _ _) hb, hbroker⟩
  · intro items i before after hsupplies hitem hne
    have hat := at?_collectedTwice hsupplies (by decide +kernel)
    have hraws : (ofItems (some file) items)[i]? =
        some (ofJson (some file) (.object (before ++ ("pool", .text pool) :: after))) := by
      rw [ofItems_eq_map, List.getElem?_map, hitem]
      rfl
    obtain ⟨c, hc, hread⟩ := consumer_of_at? hsettled hraw hat hraws
    refine ⟨c, hc, fun consumer hconsumer => ?_⟩
    have hcpool : c.pool = pool := by
      rw [ofJson, ofMembers_eq_map, List.map_append, List.map_cons] at hread
      refine pool_of_ofRaw rfl (fun e he => ?_) hread
      rw [← List.map_append] at he
      obtain ⟨m, hm, rfl⟩ := List.mem_map.1 he
      exact hne m hm
    have hpool : consumer.pool = pool :=
      (Definition.ofSettings_eq_ok hconsumer).2.2.2.2.trans hcpool
    refine ⟨hpool, fun events found id hfound => ?_⟩
    rw [Pools.limit_of_lookup hfound, hpool]

/-! ## Two pools -/

/-- A directory with one file of settings. -/
def directoryOf (text : String) : Directory := Keyed.ofList [("cfg.json", text)]

theorem locate_directoryOf (text : String) :
    (some "cfg").bind (directoryOf text).locate = some ("cfg.json", text) := by
  have hrelative : "cfg".startsWith "/" = false := by decide +kernel
  have hsplit : "cfg".splitOn "/" = ["cfg"] := by
    rw [String.splitOn, if_neg (by decide)]
    iterate 3 rw [String.splitOnAux, if_neg (by decide +kernel), if_neg (by decide +kernel)]
    rw [String.splitOnAux, if_pos (by decide +kernel)]
    decide +kernel
  have hparts : pathParts "cfg" = ["cfg"] := by
    rw [pathParts, hsplit]
    decide
  have hget : ∀ name, (directoryOf text).get? name =
      if name = "cfg.json" then some text else none := fun name =>
    (Keyed.get?_insert ..).trans (by rw [Keyed.get?_empty])
  have hsuffix : "cfg" ++ ".json" = "cfg.json" := by decide +kernel
  simp [Directory.locate, hrelative, hparts, hget, hsuffix]

theorem exists_load {text : String} {members : List (String × Json)} {p : Settings → Bool}
    (hjson : Json.ofBytes (dropMark text).toUTF8 = .ok (.object members))
    (h : (Settings.ofMerged (collectedTwice (ofMembers (some "cfg.json") members))).toOption.any p =
      true) :
    ∃ s, Settings.load (directoryOf text) (some "cfg") [] = .ok s ∧ p s = true := by
  rw [load_of_file (locate_directoryOf text) hjson fun _ hv => absurd hv List.not_mem_nil]
  cases hs : Settings.ofMerged (collectedTwice (ofMembers (some "cfg.json") members)) with
  | error f =>
      rw [hs] at h
      cases h
  | ok s =>
      rw [hs] at h
      exact ⟨s, rfl, h⟩

/-- The members of a file that sets a limit for a pool. -/
def limitMembers (pool : String) : List (String × Json) :=
  [("concurrent", .object [("limit", .object [(pool, .number (.natural 5))])])]

/-- The members of a file that sets a connection for a pool. -/
def brokerMembers (pool : String) : List (String × Json) :=
  [("rabbitmq", .object [(pool, .object [("host", .text "mq")])])]

/-- The settings of a consumer that runs in a pool. -/
def consumerSettings (pool : String) : Json :=
  .object [("name", .text "q"), ("pool", .text pool), ("queue", .text "q")]

/-- The members of a file that declares a consumer in a pool. -/
def consumerMembers (pool : String) : List (String × Json) :=
  [("consumers", .array [consumerSettings pool])]

/-- A file with one member whose name is no longer path supplies what the member has. -/
theorem supplies_member {origin : Option String} {name : String} {value : Json}
    {names : List String} {leaf : RawSetting}
    (hname : SettingPath.ofText? name = some ⟨name, []⟩)
    (h : (ofJson origin value).Gives names leaf) :
    Supplies (ofMembers origin [(name, value)]) (name :: names) leaf := by
  refine supplies_of_names (fun e he => ?_) (gives_only h name)
  rw [List.mem_singleton.1 he]
  exact hname

theorem supplies_limit (pool : String) :
    Supplies (ofMembers (some "cfg.json") (limitMembers pool)) ["concurrent", "limit", pool]
      (ofJson (some "cfg.json") (.number (.natural 5))) :=
  supplies_member (by decide +kernel) (gives_only (gives_only (.here _) pool) "limit")

theorem supplies_broker (pool : String) :
    Supplies (ofMembers (some "cfg.json") (brokerMembers pool)) ["rabbitmq", pool]
      (ofJson (some "cfg.json") (.object [("host", .text "mq")])) :=
  supplies_member (by decide +kernel) (gives_only (.here _) pool)

/-- The text of a file that sets a limit for the pool `orders`. -/
def ordersLimit : String := "\x7b\"concurrent\":\x7b\"limit\":\x7b\"orders\":5\x7d\x7d\x7d"

/-- The text of a file that sets a connection for the pool `orders`. -/
def ordersBroker : String := "\x7b\"rabbitmq\":\x7b\"orders\":\x7b\"host\":\"mq\"\x7d\x7d\x7d"

/-- The text of a file that declares a consumer in the pool `orders`. -/
def ordersConsumer : String :=
  "\x7b\"consumers\":[\x7b\"name\":\"q\",\"pool\":\"orders\",\"queue\":\"q\"\x7d]\x7d"

set_option maxRecDepth 2000 in
theorem ofBytes_ordersConsumer : Json.ofBytes (dropMark ordersConsumer).toUTF8 =
    .ok (.object (consumerMembers "orders")) := by with_unfolding_all rfl

theorem pool_settings_of_file_orders :
    (∃ s, Settings.load (directoryOf ordersLimit) (some "cfg") [] = .ok s ∧
      s.concurrency.limitFor "orders" = 5) ∧
    (∃ s b, Settings.load (directoryOf ordersBroker) (some "cfg") [] = .ok s ∧
      s.broker "orders" = .ok b ∧ b.host = "mq") ∧
    ∃ s c consumer, Settings.load (directoryOf ordersConsumer) (some "cfg") [] = .ok s ∧
      s.consumers[0]? = some c ∧ Definition.ofSettings c = .ok consumer ∧
      consumer.pool = "orders" := by
  have hname : Text.lowercase "orders" = "orders" := by decide +kernel
  refine ⟨?_, ?_, ?_⟩
  · have hjson : Json.ofBytes (dropMark ordersLimit).toUTF8 =
        .ok (.object (limitMembers "orders")) := by
      with_unfolding_all rfl
    obtain ⟨s, hload, -⟩ := exists_load (p := fun _ => true) hjson (by decide +kernel)
    obtain ⟨hlimit, -⟩ := pool_settings_of_file (locate_directoryOf ordersLimit) hjson
      (fun _ hv => absurd hv List.not_mem_nil) hload "orders"
    obtain ⟨n, -, hn, hfor⟩ := hlimit _ (supplies_limit "orders")
    rw [if_pos hname, hn 5 (by decide) rfl] at hfor
    exact ⟨s, hload, hfor⟩
  · have hjson : Json.ofBytes (dropMark ordersBroker).toUTF8 =
        .ok (.object (brokerMembers "orders")) := by
      with_unfolding_all rfl
    obtain ⟨s, hload, -⟩ := exists_load (p := fun _ => true) hjson (by decide +kernel)
    obtain ⟨-, hbroker, -⟩ := pool_settings_of_file (locate_directoryOf ordersBroker) hjson
      (fun _ hv => absurd hv List.not_mem_nil) hload "orders"
    obtain ⟨b, hb, hfor⟩ := hbroker _ (supplies_broker "orders")
    rw [if_pos hname] at hfor
    refine ⟨s, b, hload, hfor, ?_⟩
    exact (Except.ok.inj (hb.host.1 _ (gives_only (.here _) "host"))).symm
  · obtain ⟨s, hload, hs⟩ := exists_load
      (p := fun s => s.consumers[0]?.any fun c => (Definition.ofSettings c).toOption.isSome)
      ofBytes_ordersConsumer (by decide +kernel)
    obtain ⟨-, -, hconsumer⟩ := pool_settings_of_file (locate_directoryOf ordersConsumer)
      ofBytes_ordersConsumer (fun _ hv => absurd hv List.not_mem_nil) hload "orders"
    obtain ⟨c, hc, hpool⟩ := hconsumer _ 0 [("name", .text "q")] [("queue", .text "q")]
      (supplies_member (by decide +kernel) (.here _)) rfl (by decide)
    rw [hc] at hs
    cases hd : Definition.ofSettings c with
    | error f =>
        rw [Option.any_some, hd] at hs
        cases hs
    | ok consumer => exact ⟨s, c, consumer, hload, hc, hd, (hpool consumer hd).1⟩

/-- The text of a file that sets a limit for the pool `CO`. -/
def upperLimit : String := "\x7b\"concurrent\":\x7b\"limit\":\x7b\"CO\":5\x7d\x7d\x7d"

/-- The text of a file that sets a connection for the pool `CO`. -/
def upperBroker : String := "\x7b\"rabbitmq\":\x7b\"CO\":\x7b\"host\":\"mq\"\x7d\x7d\x7d"

/-- The limit and the connection that files set for the pool `CO` do not reach it. -/
theorem pool_settings_missed :
    (Json.ofBytes (dropMark upperLimit).toUTF8 = .ok (.object (limitMembers "CO")) ∧
      Supplies (ofMembers (some "cfg.json") (limitMembers "CO")) ["concurrent", "limit", "CO"]
        (ofJson (some "cfg.json") (.number (.natural 5))) ∧
      ∃ s, Settings.load (directoryOf upperLimit) (some "cfg") [] = .ok s ∧
        s.concurrency.limitFor "CO" = 10) ∧
    (Json.ofBytes (dropMark upperBroker).toUTF8 = .ok (.object (brokerMembers "CO")) ∧
      Supplies (ofMembers (some "cfg.json") (brokerMembers "CO")) ["rabbitmq", "CO"]
        (ofJson (some "cfg.json") (.object [("host", .text "mq")])) ∧
      ∃ s, Settings.load (directoryOf upperBroker) (some "cfg") [] = .ok s ∧
        ∀ b, s.broker "CO" ≠ .ok b) := by
  have hlimit : Json.ofBytes (dropMark upperLimit).toUTF8 =
      .ok (.object (limitMembers "CO")) := by with_unfolding_all rfl
  have hbroker : Json.ofBytes (dropMark upperBroker).toUTF8 =
      .ok (.object (brokerMembers "CO")) := by with_unfolding_all rfl
  refine ⟨⟨hlimit, supplies_limit "CO", ?_⟩, hbroker, supplies_broker "CO", ?_⟩
  · obtain ⟨s, hload, hs⟩ := exists_load (p := fun s => s.concurrency.limitFor "CO" == 10) hlimit
      (by decide +kernel)
    exact ⟨s, hload, eq_of_beq hs⟩
  · obtain ⟨s, hload, hs⟩ := exists_load (p := fun s => (s.broker "CO").toOption.isNone) hbroker
      (by decide +kernel)
    refine ⟨s, hload, fun b hb => ?_⟩
    rw [hb] at hs
    cases hs

end AmqpDelivery
