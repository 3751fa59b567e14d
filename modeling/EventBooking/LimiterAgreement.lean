import EventBooking.RateLimits

/-!
# Redis and the map in memory decide alike

Redis lets a counter end by itself, the map in memory drops it on the next
request. What both hold of a key at any time is the same slot, and the script
and the map do the same to it as long as the map need not evict.
-/

namespace EventBooking

open Lib FixedWindow

namespace RateLimiter

structure Scripted extends Limited where
  db : RedisDb

def serveScript (o : RateLimiterOptions) (db : RedisDb) (a : Arrival) : Scripted :=
  let ((count, ttl), db) := fixedWindowScript a.request.key o.windowSeconds a.now db
  ⟨(limit o (.returned count ttl) a OrderedMap.empty).1, db⟩

def serveRedis (o : RateLimiterOptions) : RedisDb → List Arrival → List Scripted
  | _, [] => []
  | db, a :: arrivals => serveScript o db a :: serveRedis o (serveScript o db a).db arrivals

def unexpired (now : Int) (db : RedisDb) : Nat := db.entries.countP fun e => RedisCounter.exists now e.2

/-! ## The script on a slot -/

def RedisCounter.slot (c : RedisCounter) : Option Slot := c.expireAt.map fun t => ⟨c.value, t⟩

def RedisDb.slot (db : RedisDb) (key : String) : Option Slot := (db.get key).bind RedisCounter.slot

def Timed (db : RedisDb) : Prop := ∀ e ∈ db.entries, 1 ≤ e.2.value ∧ e.2.expireAt.isSome

def slotCounter (s : Slot) : RedisCounter := ⟨s.count, some s.resetAt⟩

section
variable {db : RedisDb} {now : Int} {key : String}

theorem Timed.get (h : Timed db) {c : RedisCounter} (hc : db.get key = some c) :
    ∃ s : Slot, 1 ≤ s.count ∧ c = slotCounter s := by
  obtain ⟨hv, ht⟩ := h _ (OrderedMap.get_eq_some.mp hc)
  obtain ⟨t, ht⟩ := Option.isSome_iff_exists.mp ht
  refine ⟨⟨c.value, t⟩, hv, ?_⟩
  cases c; cases ht; rfl

theorem Timed.lookup (h : Timed db) (key : String) (now : Int) :
    db.lookup now key = (live now (db.slot key)).map slotCounter := by
  unfold RedisDb.lookup RedisDb.slot
  cases hc : db.get key with
  | none => rfl
  | some c =>
    obtain ⟨s, _, rfl⟩ := h.get hc
    show (some (slotCounter s)).filter _ = (live now (some s)).map slotCounter
    by_cases hlt : now < s.resetAt
    · rw [live_some_of_lt hlt, Option.filter_some_pos (by simpa [RedisCounter.exists, slotCounter] using hlt)]; rfl
    · rw [live_some_of_le (Int.not_lt.mp hlt),
        Option.filter_some_neg (by simpa [RedisCounter.exists, slotCounter] using hlt)]
      rfl

theorem slot_set (db : RedisDb) (key k : String) (s : Slot) :
    RedisDb.slot (db.set key (slotCounter s)) k = if k = key then some s else db.slot k := by
  unfold RedisDb.slot
  rw [OrderedMap.get_set]
  split <;> rfl

theorem lookup_set {c : RedisCounter} (hc : RedisCounter.exists now c = true) :
    RedisDb.lookup (db.set key c) now key = some c := by
  unfold RedisDb.lookup
  rw [OrderedMap.get_set, if_pos rfl, Option.filter_some_pos hc]

theorem fixedWindowScript_eq (h : Timed db) {W : Int} (hW : 1 ≤ W) :
    fixedWindowScript key W now db =
      let s := hit W now (db.slot key)
      (((s.count, s.resetAt - now) : Nat × Int), db.set key (slotCounter s)) := by
  have hlookup := h.lookup key now
  unfold fixedWindowScript incr
  rcases hit_cases W now (db.slot key) with ⟨hl, hh⟩ | ⟨x, hx, hlt, hh⟩
  · -- a new counter: the count is one, so it is given its end
    have hexists : RedisCounter.exists now (slotCounter ⟨1, now + W⟩) = true := by
      simp [RedisCounter.exists, slotCounter]; omega
    have hnew : expire key W now (db.set key ⟨1, none⟩) = db.set key (slotCounter ⟨1, now + W⟩) := by
      unfold expire
      rw [lookup_set (c := ⟨1, none⟩) rfl]
      exact OrderedMap.set_set _ _ _ _
    rw [hl, Option.map_none] at hlookup
    simp only [hlookup, hh, if_true, hnew]
    unfold ttl
    rw [lookup_set hexists]; rfl
  · rw [hx, live_some_of_lt hlt, Option.map_some] at hlookup
    have hexists : RedisCounter.exists now (slotCounter ⟨x.count + 1, x.resetAt⟩) = true := by
      simp [RedisCounter.exists, slotCounter]; omega
    have hcount : ¬ x.count + 1 = 1 := by
      cases hc : db.get key with
      | none => unfold RedisDb.slot at hx; rw [hc] at hx; cases hx
      | some c =>
        obtain ⟨s, hs, rfl⟩ := h.get hc
        unfold RedisDb.slot at hx
        rw [hc] at hx
        cases hx
        show ¬ s.count + 1 = 1
        omega
    simp only [hlookup, hh, slotCounter]
    rw [if_neg hcount]
    unfold ttl
    rw [show (⟨x.count + 1, some x.resetAt⟩ : RedisCounter) = slotCounter ⟨x.count + 1, x.resetAt⟩ from rfl,
      lookup_set hexists]
    rfl

theorem Timed.set (h : Timed db) (key : String) {s : Slot} (hs : 1 ≤ s.count) :
    Timed (db.set key (slotCounter s)) := by
  intro e he
  have hget := OrderedMap.get_eq_some.mpr (show (e.1, e.2) ∈ (db.set key (slotCounter s)).entries from he)
  rw [OrderedMap.get_set] at hget
  split at hget
  · rw [← Option.some.inj hget]; exact ⟨hs, rfl⟩
  · exact h _ (OrderedMap.get_eq_some.mp hget)

theorem serveScript_db (o : RateLimiterOptions) (h : Timed db) (a : Arrival) :
    (serveScript o db a).db =
      db.set a.request.key (slotCounter (hit o.windowSeconds a.now (db.slot a.request.key))) := by
  have hW : (1 : Int) ≤ o.windowSeconds := by have := o.windowSeconds_pos; omega
  unfold serveScript
  rw [fixedWindowScript_eq h hW]

theorem hit_end (W now : Int) (hW : 1 ≤ W) (s : Option Slot) : now < (hit W now s).resetAt := by
  rcases hit_cases W now s with ⟨_, hh⟩ | ⟨x, _, hlt, hh⟩
  · rw [hh]
    show now < now + W
    omega
  · rw [hh]; exact hlt

theorem serveScript_limited (o : RateLimiterOptions) (h : Timed db) (a : Arrival) :
    (serveScript o db a).toLimited =
      let c := slotConsumed a.now (hit o.windowSeconds a.now (db.slot a.request.key))
      ⟨a.now, a.request.key, c, respond o c⟩ := by
  have hW : (1 : Int) ≤ o.windowSeconds := by have := o.windowSeconds_pos; omega
  have hend := hit_end o.windowSeconds a.now hW (db.slot a.request.key)
  unfold serveScript
  rw [fixedWindowScript_eq h hW]
  unfold limit consume slotConsumed
  have hpos : (hit o.windowSeconds a.now (db.slot a.request.key)).resetAt - a.now > 0 := by omega
  have hmax : max 1 ((hit o.windowSeconds a.now (db.slot a.request.key)).resetAt - a.now) =
      (hit o.windowSeconds a.now (db.slot a.request.key)).resetAt - a.now := by omega
  simp only [if_pos hpos, hmax]
  rw [show a.now + ((hit o.windowSeconds a.now (db.slot a.request.key)).resetAt - a.now) =
    (hit o.windowSeconds a.now (db.slot a.request.key)).resetAt by omega]

end

/-! ## The simulation -/

/-- The map and Redis hold the same slots. -/
structure SameSlots (now : Int) (store : InMemoryStore) (db : RedisDb) : Prop where
  timed : Timed db
  slots : ∀ k, live now (store.get k) = live now (db.slot k)

theorem mem_unexpired {now : Int} {db : RedisDb} {k : String} :
    k ∈ (db.entries.filter fun e => RedisCounter.exists now e.2).map Prod.fst ↔ (db.lookup now k).isSome := by
  rw [List.mem_map, Option.isSome_iff_exists]
  constructor
  · intro h
    obtain ⟨e, he, rfl⟩ := h
    obtain ⟨he, hx⟩ := List.mem_filter.mp he
    exact ⟨e.2, Option.filter_eq_some_iff.mpr ⟨OrderedMap.get_eq_some.mpr he, hx⟩⟩
  · intro h
    obtain ⟨c, hc⟩ := h
    obtain ⟨hget, hx⟩ := Option.filter_eq_some_iff.mp hc
    exact ⟨(k, c), List.mem_filter.mpr ⟨OrderedMap.get_eq_some.mp hget, hx⟩, rfl⟩

theorem mem_keys_live {now : Int} {store : InMemoryStore} (hlive : ∀ e ∈ store.entries, now < e.2.resetAt)
    {k : String} :
    k ∈ store.entries.map Prod.fst ↔ (live now (store.get k)).isSome := by
  rw [List.mem_map, Option.isSome_iff_exists]
  constructor
  · intro h
    obtain ⟨e, he, rfl⟩ := h
    exact ⟨e.2, live_eq_some.mpr ⟨OrderedMap.get_eq_some.mpr he, hlive e he⟩⟩
  · intro h
    obtain ⟨s, hs⟩ := h
    exact ⟨(k, s), OrderedMap.get_eq_some.mp (live_eq_some.mp hs).1, rfl⟩

/-- A map without ended windows has as many entries as Redis has counters. -/
theorem SameSlots.size {now : Int} {store : InMemoryStore} {db : RedisDb} (h : SameSlots now store db)
    (hlive : ∀ e ∈ store.entries, now < e.2.resetAt) : store.size = unexpired now db := by
  have hperm : (store.entries.map Prod.fst).Perm
      ((db.entries.filter fun e => RedisCounter.exists now e.2).map Prod.fst) := by
    rw [List.perm_ext_iff_of_nodup store.nodup ((List.filter_sublist.map Prod.fst).nodup db.nodup)]
    intro k
    rw [mem_keys_live hlive, mem_unexpired, h.timed.lookup k now, Option.isSome_map, h.slots k]
  have hlen := hperm.length_eq
  rw [List.length_map, List.length_map, ← List.countP_eq_length_filter] at hlen
  exact hlen

theorem SameSlots.later {now later : Int} {store : InMemoryStore} {db : RedisDb} (h : SameSlots now store db)
    (hle : now ≤ later) : SameSlots later store db := ⟨h.timed, fun k => live_mono hle (h.slots k)⟩

section
variable {o : RateLimiterOptions} {store : InMemoryStore} {db : RedisDb} {a : Arrival}

/-- While Redis holds no more counters than the map has room for, nothing is evicted. -/
theorem SameSlots.no_eviction (h : SameSlots a.now store db)
    (hroom : unexpired a.now (serveScript o db a).db ≤ o.maxFallbackEntries) :
    (serve o store a).evicted = none := by
  show evicted o a.request.key a.now store = none
  unfold evicted
  cases hget : (sweep a.now store).get a.request.key with
  | some s => rfl
  | none =>
    have hW : (1 : Int) ≤ o.windowSeconds := by have := o.windowSeconds_pos; omega
    -- the map with room for the key has the slots that Redis has after the script
    set s := hit o.windowSeconds a.now (db.slot a.request.key) with hs
    have hsame : SameSlots a.now ((sweep a.now store).set a.request.key s) (serveScript o db a).db := by
      rw [serveScript_db o h.timed a]
      refine ⟨h.timed.set _ (hit_pos _ _ _), fun k => ?_⟩
      rw [slot_set, OrderedMap.get_set]
      split
      · rfl
      · rw [sweep_get, live_live (Int.le_refl _)]; exact h.slots k
    have hlive : ∀ e ∈ ((sweep a.now store).set a.request.key s).entries, a.now < e.2.resetAt := by
      intro e he
      rw [OrderedMap.set_absent hget, List.mem_append, List.mem_singleton] at he
      rcases he with he | rfl
      · exact (mem_sweep.mp he).2
      · exact hit_end _ _ hW _
    have hsize := hsame.size hlive
    rw [OrderedMap.size_set_absent hget] at hsize
    exact if_neg (by omega)

theorem SameSlots.serve (h : SameSlots a.now store db)
    (hroom : unexpired a.now (serveScript o db a).db ≤ o.maxFallbackEntries) :
    (serve o store a).toLimited = (serveScript o db a).toLimited ∧
      SameSlots a.now (serve o store a).store (serveScript o db a).db := by
  have hhit := hit_congr (W := o.windowSeconds) (h.slots a.request.key)
  have hself : (RateLimiter.serve o store a).store.get a.request.key =
      some (hit o.windowSeconds a.now (db.slot a.request.key)) := by
    rw [← hhit]; exact consumeFallback_self o a.request.key a.now store
  refine ⟨?_, ?_, fun k => ?_⟩
  · rw [serveScript_limited o h.timed a, ← hhit]; exact limit_fallback o a store
  · rw [serveScript_db o h.timed a]; exact h.timed.set _ (hit_pos _ _ _)
  · rw [serveScript_db o h.timed a, slot_set]
    by_cases hk : k = a.request.key
    · rw [if_pos hk, hk, hself]
    · have hev : (RateLimiter.serve o store a).evicted ≠ some k := by
        rw [h.no_eviction hroom]; exact (Option.some_ne_none k).symm
      have hother : (RateLimiter.serve o store a).store.get k = live a.now (store.get k) :=
        consumeFallback_other hk hev
      rw [if_neg hk, hother, live_live (Int.le_refl _)]; exact h.slots k

end

theorem serveRedis_serveFallback (o : RateLimiterOptions) {arrivals : List Arrival}
    (hs : arrivals.Pairwise fun a b => a.now ≤ b.now) {last : Int} (hlast : ∀ a ∈ arrivals, last ≤ a.now)
    {store : InMemoryStore} {db : RedisDb} (h : SameSlots last store db)
    (hroom : ∀ x ∈ serveRedis o db arrivals, unexpired x.now x.db ≤ o.maxFallbackEntries) :
    (serveRedis o db arrivals).map Scripted.toLimited = (serveFallback o store arrivals).map Served.toLimited := by
  induction arrivals generalizing last store db with
  | nil => rfl
  | cons a arrivals ih =>
    obtain ⟨ha, hs⟩ := List.pairwise_cons.mp hs
    have hnow := h.later (hlast a List.mem_cons_self)
    obtain ⟨hsame, hnext⟩ := hnow.serve (hroom _ List.mem_cons_self)
    rw [serveFallback_cons, List.map_cons, hsame]
    exact congrArg (List.cons _) (ih hs ha hnext fun x hx => hroom x (List.mem_cons_of_mem _ hx))

/-- Request by request Redis and the map in memory count, report and decide the
same, while no more keys are unexpired than the map has room for. -/
theorem redis_fallback_agree (o : RateLimiterOptions) (arrivals : List Arrival)
    (hs : arrivals.Pairwise fun a b => a.now ≤ b.now)
    (hroom : ∀ x ∈ serveRedis o OrderedMap.empty arrivals, unexpired x.now x.db ≤ o.maxFallbackEntries) :
    (serveRedis o OrderedMap.empty arrivals).map Scripted.toLimited =
      (serveFallback o OrderedMap.empty arrivals).map Served.toLimited := by
  obtain ⟨first, hfirst⟩ := exists_first hs
  exact serveRedis_serveFallback o hs hfirst ⟨fun e he => (by cases he), fun k => rfl⟩ hroom

theorem redis_fallback_agree_sample :
    (serveRedis narrow OrderedMap.empty bursts).map Scripted.toLimited =
      (serveFallback narrow OrderedMap.empty bursts).map Served.toLimited :=
  redis_fallback_agree narrow bursts (by decide) (by decide +kernel)

end RateLimiter

end EventBooking
