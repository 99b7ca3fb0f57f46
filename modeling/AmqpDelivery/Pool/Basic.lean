import AmqpDelivery.Assign
import AmqpDelivery.Pool.Limiter
import AmqpDelivery.Settings.Basic

/-!
# Pools

A process has one limiter per pool name. The first look-up of a name makes its limiter with the
limit that the settings give to that name; every later one finds the same limiter. A limit beyond
the greatest number of permits makes no limiter, and whoever looks its pool up panics.
-/

namespace AmqpDelivery

/-- The identity of a limiter. -/
abbrev LimiterId := Nat

/-- The limiters of a process. -/
structure Pools where
  settings : ConcurrencySettings
  /-- The limiter of each name that was looked up. -/
  cache : Keyed LimiterId := Keyed.empty
  limiters : LimiterId → Limiter := fun _ => Limiter.new "" unlimited
  /-- How many limiters there are; they have the identities below this number. -/
  made : Nat := 0

/-- What happens to the pools. -/
inductive PoolEvent where
  /-- A pool is looked up. -/
  | lookup (name : String)
  /-- A limiter is made beside the cache. -/
  | make (name : String) (limit : UInt64)
  /-- Something happens at a limiter. -/
  | within (id : LimiterId) (event : LimiterEvent)
deriving DecidableEq

namespace Pools

/-- Makes a limiter beside the cache, if there is one with that limit. -/
def make? (p : Pools) (name : String) (limit : UInt64) : Option (Pools × LimiterId) :=
  if limit ≤ maxPermits then
    some
      ({ p with limiters := assign p.limiters p.made (Limiter.new name limit), made := p.made + 1 },
        p.made)
  else none

/-- The limiter of a pool, made on its first look-up. -/
def get? (p : Pools) (name : String) : Option (Pools × LimiterId) :=
  match p.cache.get? name with
  | some id => some (p, id)
  | none =>
      (p.make? name (p.settings.limitFor name)).map fun (p, id) =>
        ({ p with cache := p.cache.insert name id }, id)

/-- Lets something happen at a limiter. -/
def within (p : Pools) (id : LimiterId) (e : LimiterEvent) : Pools :=
  { p with limiters := assign p.limiters id ((p.limiters id).step e) }

/-- One event. A look-up that panics changes nothing. -/
def step (p : Pools) : PoolEvent → Pools
  | .lookup name => ((p.get? name).map Prod.fst).getD p
  | .make name limit => ((p.make? name limit).map Prod.fst).getD p
  | .within id e => if id < p.made then p.within id e else p

/-- The pools after a list of events. -/
def run (p : Pools) (events : List PoolEvent) : Pools := events.foldl step p

end Pools

end AmqpDelivery
