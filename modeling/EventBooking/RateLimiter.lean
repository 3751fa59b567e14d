import EventBooking.Lib.OrderedMap
import EventBooking.Lib.FixedWindow
import EventBooking.BookingRepository

/-!
# The rate limiter of the event service

The middleware counts a request in Redis when it can and otherwise in a map of
its own, and answers from the count. The map drops what has expired on every
request and its oldest entry when a new key finds it full.
-/

namespace EventBooking

open Lib FixedWindow

namespace RateLimiter

structure RateLimiterOptions where
  windowSeconds : Nat := 60
  maxRequests : Nat := 100
  maxFallbackEntries : Nat := 10000
  windowSeconds_pos : 1 ≤ windowSeconds := by decide
  maxRequests_pos : 1 ≤ maxRequests := by decide
  maxFallbackEntries_pos : 1 ≤ maxFallbackEntries := by decide

structure HttpRequest where
  ip : Option String
  remoteAddress : Option String
  baseUrl : Option String
  path : String
deriving DecidableEq, Repr

def HttpRequest.key (req : HttpRequest) : String :=
  let ip := ((truthy req.ip).orElse fun _ => truthy req.remoteAddress).getD "127.0.0.1"
  "rate_limit:" ++ ip ++ ":" ++ (truthy req.baseUrl).getD "" ++ req.path

structure Consumed where
  requests : Int
  ttl : Int
  resetAt : Int
deriving DecidableEq, Repr

/-! ## The map in memory -/

abbrev InMemoryStore := OrderedMap String Slot

def sweep (now : Int) (inMemoryStore : InMemoryStore) : InMemoryStore :=
  inMemoryStore.entries.foldl (fun store e => if e.2.resetAt ≤ now then store.delete e.1 else store) inMemoryStore

def oldestKey (o : RateLimiterOptions) (inMemoryStore : InMemoryStore) : Option String :=
  if o.maxFallbackEntries ≤ inMemoryStore.size then truthy inMemoryStore.firstKey else none

def makeRoom (o : RateLimiterOptions) (inMemoryStore : InMemoryStore) : InMemoryStore :=
  (oldestKey o inMemoryStore).elim inMemoryStore inMemoryStore.delete

def consumeFallback (o : RateLimiterOptions) (key : String) (now : Int) (inMemoryStore : InMemoryStore) :
    Consumed × InMemoryStore :=
  let swept := sweep now inMemoryStore
  let fresh : Slot := ⟨0, now + o.windowSeconds⟩
  let (entry, store) := match swept.get key with
    | some entry => (entry, swept)
    | none => (fresh, (makeRoom o swept).set key fresh)
  let entry : Slot := { entry with count := entry.count + 1 }
  (⟨entry.count, max 1 (entry.resetAt - now), entry.resetAt⟩, store.set key entry)

/-- The key that a request removes for lack of room. -/
def evicted (o : RateLimiterOptions) (key : String) (now : Int) (inMemoryStore : InMemoryStore) : Option String :=
  match (sweep now inMemoryStore).get key with
  | some _ => none
  | none => oldestKey o (sweep now inMemoryStore)

/-! ## The reply -/

structure TooManyRequests where
  retryAfterHeader : Int
  status : Nat
  error : String
  message : String
  retryAfter : Int
deriving DecidableEq, Repr

/-- The headers of a reply and, unless the request goes on to the next handler, its rejection. -/
structure LimiterReply where
  limit : Int
  remaining : Int
  reset : Int
  rejection : Option TooManyRequests
deriving DecidableEq, Repr

def respond (o : RateLimiterOptions) (c : Consumed) : LimiterReply where
  limit := o.maxRequests
  remaining := max 0 (o.maxRequests - c.requests)
  reset := c.resetAt
  rejection :=
    if c.requests ≤ o.maxRequests then none
    else some
      { retryAfterHeader := c.ttl
        status := 429
        error := "Too Many Requests"
        message := "Rate limit exceeded. Maximum " ++ toString o.maxRequests ++ " requests per " ++
          toString o.windowSeconds ++ " seconds."
        retryAfter := c.ttl }

/-! ## Redis -/

structure RedisCounter where
  value : Nat
  expireAt : Option Int
deriving DecidableEq, Repr

abbrev RedisDb := OrderedMap String RedisCounter

def RedisCounter.exists (now : Int) (c : RedisCounter) : Bool := c.expireAt.all fun t => decide (now < t)

def RedisDb.lookup (db : RedisDb) (now : Int) (key : String) : Option RedisCounter :=
  (db.get key).filter (RedisCounter.exists now)

def incr (key : String) (now : Int) (db : RedisDb) : Nat × RedisDb :=
  match db.lookup now key with
  | some c => (c.value + 1, db.set key { c with value := c.value + 1 })
  | none => (1, db.set key ⟨1, none⟩)

def expire (key : String) (seconds now : Int) (db : RedisDb) : RedisDb :=
  match db.lookup now key with
  | some c => db.set key { c with expireAt := some (now + seconds) }
  | none => db

def ttl (key : String) (now : Int) (db : RedisDb) : Int :=
  match db.lookup now key with
  | some c => c.expireAt.elim (-1) fun t => t - now
  | none => -2

def fixedWindowScript (key : String) (windowSeconds now : Int) (db : RedisDb) : (Nat × Int) × RedisDb :=
  let (count, db) := incr key now db
  let db := if count = 1 then expire key windowSeconds now db else db
  ((count, ttl key now db), db)

/-! ## The middleware -/

/-- How the script ends: it is not sent, it is rejected, or it returns a count and a time to live. -/
inductive EvalResult where
  | notOpen
  | rejected
  | returned (count ttl : Int)
deriving DecidableEq, Repr

def consume (o : RateLimiterOptions) (eval : EvalResult) (key : String) (now : Int)
    (inMemoryStore : InMemoryStore) :
    Consumed × InMemoryStore :=
  match eval with
  | .returned count ttl =>
    let ttl := if ttl > 0 then ttl else (o.windowSeconds : Int)
    (⟨count, ttl, now + ttl⟩, inMemoryStore)
  | .notOpen | .rejected => consumeFallback o key now inMemoryStore

structure Arrival where
  now : Int
  request : HttpRequest
deriving DecidableEq, Repr

structure Limited where
  now : Int
  key : String
  consumed : Consumed
  reply : LimiterReply
deriving DecidableEq, Repr

def limit (o : RateLimiterOptions) (eval : EvalResult) (a : Arrival) (inMemoryStore : InMemoryStore) :
    Limited × InMemoryStore :=
  let key := a.request.key
  let (consumed, inMemoryStore) := consume o eval key a.now inMemoryStore
  (⟨a.now, key, consumed, respond o consumed⟩, inMemoryStore)

/-! ## What one request does to the map -/

theorem truthy_of_ne {key : String} (h : key ≠ "") : truthy (some key) = some key := by
  unfold truthy; exact if_neg h

theorem HttpRequest.key_ne (req : HttpRequest) : req.key ≠ "" := by
  intro h
  have hlen := congrArg String.length h
  unfold HttpRequest.key at hlen
  simp only [String.length_append] at hlen
  have : "rate_limit:".length = 11 := by decide
  have : "".length = 0 := by decide
  omega

theorem sweep_eq (now : Int) (store : InMemoryStore) :
    sweep now store = store.filter fun e => !decide (e.2.resetAt ≤ now) := by
  have h := OrderedMap.delete_loop store fun e => decide (e.2.resetAt ≤ now)
  simp only [decide_eq_true_eq] at h
  exact h

theorem mem_sweep {now : Int} {store : InMemoryStore} {e : String × Slot} :
    e ∈ (sweep now store).entries ↔ e ∈ store.entries ∧ now < e.2.resetAt := by
  rw [sweep_eq, OrderedMap.filter_entries, List.mem_filter, Bool.not_eq_true', decide_eq_false_iff_not, Int.not_le]

theorem sweep_get (now : Int) (store : InMemoryStore) (key : String) :
    (sweep now store).get key = live now (store.get key) := by
  rw [sweep_eq, OrderedMap.get_filter]
  unfold live
  congr 1; funext s
  rw [← decide_not, decide_eq_decide, Int.not_le]

theorem consumeFallback_store (o : RateLimiterOptions) (key : String) (now : Int) (store : InMemoryStore) :
    (consumeFallback o key now store).2 = ((sweep now store).get key).elim
      ((makeRoom o (sweep now store)).set key (hit o.windowSeconds now (store.get key)))
      fun _ => (sweep now store).set key (hit o.windowSeconds now (store.get key)) := by
  unfold consumeFallback
  have hget := sweep_get now store key
  rcases hit_cases o.windowSeconds now (store.get key) with ⟨hl, hh⟩ | ⟨x, hx, hlt, hh⟩
  · simp only [hget, hl, hh, OrderedMap.set_set]; rfl
  · simp only [hget, hx, live_some_of_lt hlt, hx ▸ hh]; rfl

/-- What a hit reports of its slot. -/
def slotConsumed (now : Int) (s : Slot) : Consumed := ⟨s.count, max 1 (s.resetAt - now), s.resetAt⟩

theorem consumeFallback_consumed (o : RateLimiterOptions) (key : String) (now : Int) (store : InMemoryStore) :
    (consumeFallback o key now store).1 = slotConsumed now (hit o.windowSeconds now (store.get key)) := by
  unfold consumeFallback
  have hget := sweep_get now store key
  rcases hit_cases o.windowSeconds now (store.get key) with ⟨hl, hh⟩ | ⟨x, hx, hlt, hh⟩
  · simp only [hget, hl, hh]; rfl
  · simp only [hget, hx, live_some_of_lt hlt, hx ▸ hh]; rfl

theorem limit_fallback (o : RateLimiterOptions) (a : Arrival) (store : InMemoryStore) :
    (limit o .notOpen a store).1 =
      let c := slotConsumed a.now (hit o.windowSeconds a.now (store.get a.request.key))
      ⟨a.now, a.request.key, c, respond o c⟩ := by
  have hc := consumeFallback_consumed o a.request.key a.now store
  show Limited.mk a.now a.request.key (consumeFallback o a.request.key a.now store).1
    (respond o (consumeFallback o a.request.key a.now store).1) = _
  rw [hc]

theorem consumeFallback_self (o : RateLimiterOptions) (key : String) (now : Int) (store : InMemoryStore) :
    (consumeFallback o key now store).2.get key = some (hit o.windowSeconds now (store.get key)) := by
  rw [consumeFallback_store]
  cases (sweep now store).get key with
  | none => exact (OrderedMap.get_set _ _ _ _).trans (if_pos rfl)
  | some x => exact (OrderedMap.get_set _ _ _ _).trans (if_pos rfl)

theorem makeRoom_get {o : RateLimiterOptions} {store : InMemoryStore} {k : String}
    (h : oldestKey o store ≠ some k) :
    (makeRoom o store).get k = store.get k := by
  unfold makeRoom
  cases ho : oldestKey o store with
  | none => rfl
  | some x =>
    show (store.delete x).get k = _
    rw [OrderedMap.get_delete, if_neg fun e => h (ho.trans (congrArg some e.symm))]

theorem consumeFallback_other {o : RateLimiterOptions} {key k : String} {now : Int} {store : InMemoryStore}
    (hne : k ≠ key) (hev : evicted o key now store ≠ some k) :
    (consumeFallback o key now store).2.get k = live now (store.get k) := by
  rw [consumeFallback_store]
  unfold evicted at hev
  rw [← sweep_get]
  cases hs : (sweep now store).get key with
  | some x => exact (OrderedMap.get_set _ _ _ _).trans (if_neg hne)
  | none =>
    rw [hs] at hev
    exact ((OrderedMap.get_set _ _ _ _).trans (if_neg hne)).trans (makeRoom_get hev)

end RateLimiter

end EventBooking
