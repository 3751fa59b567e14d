import EventBooking.RateLimiter

/-!
# What the rate limiter in memory guarantees

The map stays within its capacity and in the order in which windows end, so the
entry that a full map drops is one that would have gone first. A key that is
never dropped is counted in fixed windows.
-/

namespace EventBooking

open Lib FixedWindow

namespace RateLimiter

structure Served extends Limited where
  swept : InMemoryStore
  evicted : Option String
  store : InMemoryStore

def serve (o : RateLimiterOptions) (store : InMemoryStore) (a : Arrival) : Served where
  toLimited := (limit o .notOpen a store).1
  swept := sweep a.now store
  evicted := evicted o a.request.key a.now store
  store := (limit o .notOpen a store).2

def serveFallback (o : RateLimiterOptions) : InMemoryStore → List Arrival → List Served
  | _, [] => []
  | store, a :: arrivals => serve o store a :: serveFallback o (serve o store a).store arrivals

theorem serveFallback_cons (o : RateLimiterOptions) (store : InMemoryStore) (a : Arrival)
    (arrivals : List Arrival) :
    serveFallback o store (a :: arrivals) =
      serve o store a :: serveFallback o (serve o store a).store arrivals := rfl

def Served.Admitted (x : Served) : Prop := x.reply.rejection = none

instance decidableAdmitted (x : Served) : Decidable x.Admitted := inferInstanceAs (Decidable (_ = _))

/-! ## Order and capacity -/

structure Orderly (o : RateLimiterOptions) (x : Served) : Prop where
  size : x.store.size ≤ o.maxFallbackEntries
  order : x.store.entries.Pairwise fun a b => a.2.resetAt ≤ b.2.resetAt
  evicts : ∀ k, x.evicted = some k →
    ∃ s, x.swept.get k = some s ∧ ∀ e ∈ x.swept.entries, s.resetAt ≤ e.2.resetAt

/-- The map between requests, the last of them no later than now. -/
structure Kept (o : RateLimiterOptions) (now : Int) (store : InMemoryStore) : Prop where
  size : store.size ≤ o.maxFallbackEntries
  order : store.entries.Pairwise fun a b => a.2.resetAt ≤ b.2.resetAt
  fits : ∀ e ∈ store.entries, e.2.resetAt ≤ now + o.windowSeconds
  keys : ∀ e ∈ store.entries, e.1 ≠ ""

section
variable {o : RateLimiterOptions} {last now : Int} {store : InMemoryStore}

theorem Kept.empty (o : RateLimiterOptions) (now : Int) : Kept o now OrderedMap.empty where
  size := Nat.zero_le _
  order := List.Pairwise.nil
  fits := fun e he => by cases he
  keys := fun e he => by cases he

theorem Kept.sublist (h : Kept o last store) (hle : last ≤ now) {store' : InMemoryStore}
    (hs : store'.entries.Sublist store.entries) : Kept o now store' where
  size := hs.length_le.trans h.size
  order := h.order.sublist hs
  fits := fun e he => by have := h.fits e (hs.subset he); omega
  keys := fun e he => h.keys e (hs.subset he)

theorem Kept.sweep (h : Kept o last store) (hle : last ≤ now) : Kept o now (sweep now store) := by
  refine h.sublist hle ?_
  rw [sweep_eq]; exact List.filter_sublist

theorem Kept.oldestKey (h : Kept o now store) {k : String} (hk : oldestKey o store = some k) :
    ∃ s es, store.entries = (k, s) :: es := by
  unfold RateLimiter.oldestKey at hk
  split at hk
  · cases he : store.entries with
    | nil => unfold OrderedMap.firstKey at hk; rw [he] at hk; cases hk
    | cons e es =>
      have hfirst : store.firstKey = some e.1 := by unfold OrderedMap.firstKey; rw [he]; rfl
      rw [hfirst, truthy_of_ne (h.keys e (he ▸ List.mem_cons_self)), Option.some.injEq] at hk
      exact ⟨e.2, es, by rw [← hk]⟩
  · cases hk

theorem Kept.makeRoom (h : Kept o now store) :
    (makeRoom o store).entries.Sublist store.entries ∧ (makeRoom o store).size < o.maxFallbackEntries := by
  unfold RateLimiter.makeRoom
  by_cases hfull : o.maxFallbackEntries ≤ store.size
  · -- the map is full, so it is not empty
    cases he : store.entries with
    | nil =>
      have hpos := o.maxFallbackEntries_pos
      have hzero : store.size = 0 := by unfold OrderedMap.size; rw [he]; rfl
      omega
    | cons e es =>
      have hfirst : store.firstKey = some e.1 := by unfold OrderedMap.firstKey; rw [he]; rfl
      have hold : RateLimiter.oldestKey o store = some e.1 := by
        unfold RateLimiter.oldestKey
        rw [if_pos hfull, hfirst, truthy_of_ne (h.keys e (he ▸ List.mem_cons_self))]
      have hdel : (store.delete e.1).entries = es := OrderedMap.delete_first he
      have hsize := h.size
      rw [hold, Option.elim_some]
      refine ⟨hdel ▸ List.sublist_cons_self e es, ?_⟩
      unfold OrderedMap.size at *
      rw [he, List.length_cons] at hsize
      rw [hdel]; omega
  · have hold : RateLimiter.oldestKey o store = none := if_neg hfull
    rw [hold, Option.elim_none]
    exact ⟨List.Sublist.refl _, Nat.lt_of_not_le hfull⟩

theorem Kept.set_absent (h : Kept o now store) (hroom : store.size < o.maxFallbackEntries) {key : String}
    (hkey : key ≠ "") (hget : store.get key = none) (c : Nat) :
    Kept o now (store.set key ⟨c, now + o.windowSeconds⟩) where
  size := by rw [OrderedMap.size_set_absent hget]; exact hroom
  order := by
    rw [OrderedMap.set_absent hget, List.pairwise_append]
    refine ⟨h.order, List.pairwise_singleton _ _, fun a ha b hb => ?_⟩
    rw [List.mem_singleton] at hb
    subst hb; exact h.fits a ha
  fits := by
    intro e he
    rw [OrderedMap.set_absent hget, List.mem_append, List.mem_singleton] at he
    rcases he with he | rfl
    · exact h.fits e he
    · exact Int.le_refl _
  keys := by
    intro e he
    rw [OrderedMap.set_absent hget, List.mem_append, List.mem_singleton] at he
    rcases he with he | rfl
    · exact h.keys e he
    · exact hkey

theorem Kept.set_present (h : Kept o now store) {key : String} {s s' : Slot} (hget : store.get key = some s)
    (he : s'.resetAt = s.resetAt) : Kept o now (store.set key s') := by
  have hne : store.get key ≠ none := by rw [hget]; exact Option.some_ne_none s
  have hmem := OrderedMap.get_eq_some.mp hget
  -- the entry that is set is the one that was there, and its window ends when it did
  have hresets : (store.set key s').entries.map (fun e => (e.1, e.2.resetAt)) =
      store.entries.map fun e => (e.1, e.2.resetAt) := by
    rw [OrderedMap.set_present hne, List.map_map]
    apply List.map_congr_left; intro e hin
    simp only [Function.comp]
    by_cases hk : e.1 = key
    · have := List.inj_on_of_nodup_map store.nodup hin hmem hk
      rw [if_pos hk, this, he]
    · rw [if_neg hk]
  have hsource : ∀ e ∈ (store.set key s').entries, ∃ e' ∈ store.entries, e'.1 = e.1 ∧
      e'.2.resetAt = e.2.resetAt := by
    intro e hin
    have : (e.1, e.2.resetAt) ∈ store.entries.map fun e => (e.1, e.2.resetAt) := hresets ▸ List.mem_map_of_mem hin
    obtain ⟨e', he', heq⟩ := List.mem_map.mp this
    exact ⟨e', he', (Prod.mk.inj heq).1, (Prod.mk.inj heq).2⟩
  refine ⟨by rw [OrderedMap.size_set_present hne]; exact h.size, ?_, fun e hin => ?_, fun e hin => ?_⟩
  · have hp : (store.entries.map fun e => (e.1, e.2.resetAt)).Pairwise fun a b => a.2 ≤ b.2 :=
      List.pairwise_map.mpr h.order
    rw [← hresets, List.pairwise_map] at hp
    exact hp
  · obtain ⟨e', he', _, heq⟩ := hsource e hin
    exact heq ▸ h.fits e' he'
  · obtain ⟨e', he', heq, _⟩ := hsource e hin
    exact heq ▸ h.keys e' he'

theorem Kept.consumeFallback (h : Kept o last store) (hle : last ≤ now) {key : String} (hkey : key ≠ "") :
    Kept o now (consumeFallback o key now store).2 := by
  have hswept := h.sweep hle
  have hget := sweep_get now store key
  rw [consumeFallback_store]
  rcases hit_cases o.windowSeconds now (store.get key) with ⟨hl, hh⟩ | ⟨x, hx, hlt, hh⟩
  · obtain ⟨hsub, hroom⟩ := hswept.makeRoom
    have habsent : (RateLimiter.makeRoom o (RateLimiter.sweep now store)).get key = none := by
      rw [OrderedMap.get_eq_none]
      intro e he
      exact OrderedMap.get_eq_none.mp (hget.trans hl) e (hsub.subset he)
    rw [hget, hl, Option.elim_none, hh]
    exact (hswept.sublist (Int.le_refl _) hsub).set_absent hroom hkey habsent 1
  · rw [hx, live_some_of_lt hlt] at hget
    rw [hget, Option.elim_some, hh]
    exact hswept.set_present hget rfl

end

theorem serveFallback_orderly (o : RateLimiterOptions) {last : Int} {store : InMemoryStore} (hk : Kept o last store)
    {arrivals : List Arrival} (hs : arrivals.Pairwise fun a b => a.now ≤ b.now)
    (hlast : ∀ a ∈ arrivals, last ≤ a.now) {x : Served} (hx : x ∈ serveFallback o store arrivals) :
    Orderly o x := by
  induction arrivals generalizing last store with
  | nil => cases hx
  | cons a arrivals ih =>
    obtain ⟨ha, hs⟩ := List.pairwise_cons.mp hs
    have hle := hlast a List.mem_cons_self
    have hnext : Kept o a.now (serve o store a).store := hk.consumeFallback hle a.request.key_ne
    rw [serveFallback_cons] at hx
    rcases List.mem_cons.mp hx with rfl | hx
    · refine ⟨hnext.size, hnext.order, fun k hev => ?_⟩
      show ∃ s, (sweep a.now store).get k = some s ∧ ∀ e ∈ (sweep a.now store).entries, s.resetAt ≤ e.2.resetAt
      have hold : oldestKey o (sweep a.now store) = some k := by
        have hev : evicted o a.request.key a.now store = some k := hev
        unfold evicted at hev
        split at hev
        · cases hev
        · exact hev
      obtain ⟨s, es, he⟩ := (hk.sweep hle).oldestKey hold
      have hord := (hk.sweep hle).order
      rw [he, List.pairwise_cons] at hord
      refine ⟨s, OrderedMap.get_eq_some.mpr (he ▸ List.mem_cons_self), fun e hin => ?_⟩
      rw [he] at hin
      rcases List.mem_cons.mp hin with rfl | hin
      · exact Int.le_refl _
      · exact hord.1 e hin
    · exact ih hnext hs ha hx

/-! ## One key -/

def Served.hit (x : Served) : Hit := ⟨x.now, x.consumed.requests.toNat, x.consumed.resetAt⟩

structure Counted (o : RateLimiterOptions) (x : Served) : Prop where
  consumed : x.consumed = slotConsumed x.now x.hit.slot
  reply : x.reply = respond o x.consumed

theorem serve_hit (o : RateLimiterOptions) (store : InMemoryStore) (a : Arrival) :
    (serve o store a).hit = ⟨a.now, hit o.windowSeconds a.now (store.get a.request.key)⟩ := by
  unfold Served.hit serve
  rw [limit_fallback]; rfl

theorem serve_counted (o : RateLimiterOptions) (store : InMemoryStore) (a : Arrival) :
    Counted o (serve o store a) where
  consumed := by
    rw [serve_hit]
    unfold serve
    rw [limit_fallback]
  reply := rfl

theorem serveFallback_counted (o : RateLimiterOptions) {store : InMemoryStore} {arrivals : List Arrival}
    {x : Served} (hx : x ∈ serveFallback o store arrivals) : Counted o x := by
  induction arrivals generalizing store with
  | nil => cases hx
  | cons a arrivals ih =>
    rw [serveFallback_cons] at hx
    rcases List.mem_cons.mp hx with rfl | hx
    · exact serve_counted o store a
    · exact ih hx

theorem Counted.admitted {o : RateLimiterOptions} {x : Served} (h : Counted o x) :
    x.Admitted ↔ x.hit.slot.count ≤ o.maxRequests := by
  unfold Served.Admitted
  rw [h.reply, h.consumed]
  unfold respond slotConsumed
  simp

theorem Counted.rejected {o : RateLimiterOptions} {x : Served} (h : Counted o x) {r : TooManyRequests}
    (hr : x.reply.rejection = some r) : r.retryAfterHeader = max 1 (x.hit.slot.resetAt - x.now) := by
  rw [h.reply, h.consumed] at hr
  unfold respond at hr
  split at hr
  · cases hr
  · exact (congrArg TooManyRequests.retryAfterHeader (Option.some.inj hr)).symm

theorem Counted.reset {o : RateLimiterOptions} {x : Served} (h : Counted o x) :
    x.reply.reset = x.hit.slot.resetAt := by
  rw [h.reply, h.consumed]; rfl

def keyHits (key : String) (served : List Served) : List Hit := (served.filter fun x => x.key = key).map Served.hit

theorem keyHits_cons (key : String) (x : Served) (served : List Served) :
    keyHits key (x :: served) = if x.key = key then x.hit :: keyHits key served else keyHits key served := by
  unfold keyHits
  by_cases h : x.key = key
  · simp [h]
  · simp [h]

theorem keyHits_append (key : String) (pre post : List Served) :
    keyHits key (pre ++ post) = keyHits key pre ++ keyHits key post := by
  unfold keyHits; rw [List.filter_append, List.map_append]

theorem mem_keyHits {key : String} {served : List Served} {x : Served} (hx : x ∈ served) (hk : x.key = key) :
    x.hit ∈ keyHits key served :=
  List.mem_map_of_mem (List.mem_filter.mpr ⟨hx, decide_eq_true hk⟩)

def keyTimes (key : String) (arrivals : List Arrival) : List Int :=
  (arrivals.filter fun a => a.request.key = key).map Arrival.now

theorem keyTimes_cons (key : String) (a : Arrival) (arrivals : List Arrival) :
    keyTimes key (a :: arrivals) =
      if a.request.key = key then a.now :: keyTimes key arrivals else keyTimes key arrivals := by
  unfold keyTimes
  by_cases h : a.request.key = key
  · simp [h]
  · simp [h]

theorem keyTimes_sorted {key : String} {arrivals : List Arrival} (hs : arrivals.Pairwise fun a b => a.now ≤ b.now) :
    (keyTimes key arrivals).Pairwise (· ≤ ·) := List.pairwise_map.mpr (hs.filter _)

/-- A key that is not evicted is counted as if it had the limiter to itself. -/
theorem serveFallback_hits (o : RateLimiterOptions) (key : String) {arrivals : List Arrival}
    (hs : arrivals.Pairwise fun a b => a.now ≤ b.now) {last : Int} (hlast : ∀ a ∈ arrivals, last ≤ a.now)
    {store : InMemoryStore} {slot : Option Slot} (hlive : live last (store.get key) = live last slot)
    (hev : ∀ x ∈ serveFallback o store arrivals, x.evicted ≠ some key) :
    keyHits key (serveFallback o store arrivals) = hits o.windowSeconds slot (keyTimes key arrivals) := by
  induction arrivals generalizing last store slot with
  | nil => rfl
  | cons a arrivals ih =>
    obtain ⟨ha, hs⟩ := List.pairwise_cons.mp hs
    have hnow := live_mono (hlast a List.mem_cons_self) hlive
    have hrest := fun x hx => hev x (List.mem_cons_of_mem _ hx)
    rw [serveFallback_cons, keyHits_cons, keyTimes_cons]
    by_cases hk : a.request.key = key
    · have hself : (serve o store a).store.get key = some (hit o.windowSeconds a.now slot) := by
        rw [← hit_congr hnow, ← hk]; exact consumeFallback_self o a.request.key a.now store
      have hrest := ih hs ha (congrArg (live a.now) hself) hrest
      rw [if_pos hk, if_pos (show (serve o store a).key = key from hk), hrest, serve_hit, hk, hit_congr hnow]
      rfl
    · have hother : (serve o store a).store.get key = live a.now (store.get key) :=
        consumeFallback_other (Ne.symm hk) (hev _ List.mem_cons_self)
      rw [if_neg hk, if_neg (show ¬ (serve o store a).key = key from hk)]
      exact ih hs ha (by rw [hother, live_live (Int.le_refl _), hnow]) hrest

/-! ## The bounds -/

/-- What a client of one key can rely on. -/
structure WindowBounds (o : RateLimiterOptions) (key : String) (served : List Served) : Prop where
  /-- a window lasts for W seconds up to the reset that its replies name -/
  perWindow : ∀ a ∈ served, a.key = key → (served.countP fun x =>
    x.key = key ∧ x.Admitted ∧ a.reply.reset - o.windowSeconds ≤ x.now ∧ x.now < a.reply.reset) ≤ o.maxRequests
  perInterval : ∀ t : Int, (served.countP fun x =>
    x.key = key ∧ x.Admitted ∧ t ≤ x.now ∧ x.now < t + o.windowSeconds) ≤ 2 * o.maxRequests
  retryAfter : ∀ pre x post r, served = pre ++ x :: post → x.key = key → x.reply.rejection = some r →
    1 ≤ r.retryAfterHeader ∧
    (∀ y ∈ post, y.key = key → y.now < x.now + r.retryAfterHeader → ¬ y.Admitted) ∧
    (∀ mid y rest, post = mid ++ y :: rest → y.key = key →
      (∀ z ∈ mid, z.key = key → z.now < x.now + r.retryAfterHeader) →
      x.now + r.retryAfterHeader ≤ y.now → y.Admitted)

section
variable {o : RateLimiterOptions} {key : String} {served : List Served} {ts : List Int}

theorem countP_keyHits (hc : ∀ x ∈ served, Counted o x) (p : Int → Prop) [DecidablePred p] :
    (served.countP fun x => x.key = key ∧ x.Admitted ∧ p x.now) =
      (keyHits key served).countP fun h => h.slot.count ≤ o.maxRequests ∧ p h.time := by
  unfold keyHits
  rw [List.countP_map, List.countP_filter]
  apply List.countP_congr; intro x hx
  have ha := (hc x hx).admitted
  simp only [Function.comp, Bool.and_eq_true, decide_eq_true_eq]
  constructor
  · intro h; exact ⟨⟨ha.mp h.2.1, h.2.2⟩, h.1⟩
  · intro h; exact ⟨h.2, ha.mpr h.1.1, h.1.2⟩

/-- After a rejected request its key is rejected until the window ends, and then let through. -/
theorem rejected_until {post : List Served} {x : Served} {us : List Int} (hc : ∀ y ∈ x :: post, Counted o y)
    (hus : (x.now :: us).Pairwise (· ≤ ·))
    (hin : x.now < x.hit.slot.resetAt ∧ x.hit.slot.resetAt ≤ x.now + o.windowSeconds)
    (h : keyHits key post = hits o.windowSeconds (some x.hit.slot) us) (hx : ¬ x.Admitted) :
    (∀ y ∈ post, y.key = key → y.now < x.hit.slot.resetAt → ¬ y.Admitted) ∧
    (∀ mid y rest, post = mid ++ y :: rest → y.key = key → (∀ z ∈ mid, z.key = key → z.now < x.hit.slot.resetAt) →
      x.hit.slot.resetAt ≤ y.now → y.Admitted) := by
  obtain ⟨hlater, hus⟩ := List.pairwise_cons.mp hus
  constructor
  · intro y hy hk hlt ha
    have hmem := h ▸ mem_keyHits hy hk
    have hW : (1 : Int) ≤ o.windowSeconds := by have := o.windowSeconds_pos; omega
    have hcount := (hits_until hW hus (fun t ht => by have := hlater t ht; omega) hmem hlt).2
    have hmore : ¬ x.hit.slot.count ≤ o.maxRequests := fun hle => hx ((hc x List.mem_cons_self).admitted.mpr hle)
    have := (hc y (List.mem_cons_of_mem _ hy)).admitted.mp ha
    omega
  · intro mid y rest e hk hmid hle
    have hsplit : hits o.windowSeconds (some x.hit.slot) us = keyHits key mid ++ y.hit :: keyHits key rest := by
      rw [← h, e, keyHits_append, keyHits_cons, if_pos hk]
    have hone : y.hit.slot.count = 1 := by
      refine hits_renew hsplit (fun z hz => ?_) hle
      obtain ⟨w, hw, rfl⟩ := List.mem_map.mp hz
      obtain ⟨hw, hwk⟩ := List.mem_filter.mp hw
      exact hmid w hw (of_decide_eq_true hwk)
    have hy : y ∈ x :: post := List.mem_cons_of_mem _ (e ▸ List.mem_append_right _ List.mem_cons_self)
    rw [(hc y hy).admitted, hone]
    exact o.maxRequests_pos

theorem WindowBounds.of_hits (hc : ∀ x ∈ served, Counted o x) (hts : ts.Pairwise (· ≤ ·))
    (h : keyHits key served = hits o.windowSeconds none ts) : WindowBounds o key served := by
  have hW : (1 : Int) ≤ o.windowSeconds := by have := o.windowSeconds_pos; omega
  have hinside : ∀ x ∈ served, x.key = key →
      x.now < x.hit.slot.resetAt ∧ x.hit.slot.resetAt ≤ x.now + o.windowSeconds :=
    fun x hx hk => hits_inside hW hts (fun _ _ y hy => by cases hy) (h ▸ mem_keyHits hx hk)
  refine ⟨fun a ha hk => ?_, fun t => ?_, fun pre x post r e hk hr => ?_⟩
  · rw [countP_keyHits hc fun n => a.reply.reset - o.windowSeconds ≤ n ∧ n < a.reply.reset, h, (hc a ha).reset]
    exact admitted_window hW hts o.maxRequests (h ▸ mem_keyHits ha hk)
  · rw [countP_keyHits hc fun n => t ≤ n ∧ n < t + o.windowSeconds, h]
    exact admitted_interval hW hts o.maxRequests t
  · have hx : x ∈ served := e ▸ List.mem_append_right _ List.mem_cons_self
    have hsplit : hits o.windowSeconds none ts = keyHits key pre ++ x.hit :: keyHits key post := by
      rw [← h, e, keyHits_append, keyHits_cons, if_pos hk]
    obtain ⟨us, hus, hsub⟩ := hits_split hsplit
    have hin := hinside x hx hk
    have hafter := (hc x hx).rejected hr
    have hend : x.now + r.retryAfterHeader = x.hit.slot.resetAt := by omega
    rw [hend]
    have hcounted : ∀ y ∈ x :: post, Counted o y := fun y hy => hc y (e ▸ List.mem_append_right _ hy)
    refine ⟨by omega, rejected_until hcounted (hts.sublist hsub) hin hus ?_⟩
    intro ha
    rw [ha] at hr; cases hr

end

theorem exists_first {arrivals : List Arrival} (hs : arrivals.Pairwise fun a b => a.now ≤ b.now) :
    ∃ first : Int, ∀ a ∈ arrivals, first ≤ a.now := by
  cases arrivals with
  | nil => exact ⟨0, fun a ha => by cases ha⟩
  | cons a as =>
    refine ⟨a.now, fun b hb => ?_⟩
    rcases List.mem_cons.mp hb with rfl | hb
    · exact Int.le_refl _
    · exact (List.pairwise_cons.mp hs).1 b hb

/-- The guarantees of the rate limiter in memory, for every run of requests from an empty map. -/
theorem fallback_guarantees (o : RateLimiterOptions) (arrivals : List Arrival)
    (hs : arrivals.Pairwise fun a b => a.now ≤ b.now) :
    (∀ x ∈ serveFallback o OrderedMap.empty arrivals, Orderly o x) ∧
    ∀ key, (∀ x ∈ serveFallback o OrderedMap.empty arrivals, x.evicted ≠ some key) →
      WindowBounds o key (serveFallback o OrderedMap.empty arrivals) := by
  obtain ⟨first, hfirst⟩ := exists_first hs
  refine ⟨fun x hx => serveFallback_orderly o (Kept.empty o first) hs hfirst hx, fun key hev => ?_⟩
  have hempty : live first ((OrderedMap.empty : InMemoryStore).get key) = live first none := rfl
  exact WindowBounds.of_hits (fun x hx => serveFallback_counted o hx) (keyTimes_sorted hs)
    (serveFallback_hits o key hs hfirst hempty hev)

def narrow : RateLimiterOptions := { maxRequests := 2, maxFallbackEntries := 1 }

def eventsRequest (ip : String) : HttpRequest := ⟨some ip, none, some "/events", "/"⟩

def bursts : List Arrival :=
  [⟨0, eventsRequest "203.0.113.1"⟩, ⟨10, eventsRequest "203.0.113.1"⟩, ⟨10, eventsRequest "203.0.113.1"⟩,
    ⟨60, eventsRequest "203.0.113.2"⟩, ⟨130, eventsRequest "203.0.113.1"⟩, ⟨189, eventsRequest "203.0.113.1"⟩]

theorem fallback_guarantees_sample :
    WindowBounds narrow (eventsRequest "203.0.113.1").key (serveFallback narrow OrderedMap.empty bursts) :=
  (fallback_guarantees narrow bursts (by decide)).2 _ (by decide +kernel)

end RateLimiter

end EventBooking
