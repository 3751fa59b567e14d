import EventBooking.Conservation
import EventBooking.Lib.Paging

/-!
# The list of events, page by page

`GET /events` skips whole pages of the events sorted by creation. Between two
requests events are created, change and are deleted, and a deletion moves all
later events up, so that the next page may pass over some of them.
-/

namespace EventBooking
open Lib

/-- `orderBy: [{ createdAt: "asc" }, { id: "asc" }]` -/
def EventRow.before : EventRow → EventRow → Bool := byTime (·.createdAt) (·.id.text)

def EventDb.findMany (n pageSize : Nat) (db : EventDb) : List EventRow :=
  ((db.events.rows.mergeSort EventRow.before).drop ((n - 1) * pageSize)).take pageSize

/-- The repository's `list`, which `listEvents` returns. -/
def EventDb.list (n pageSize : Nat) (db : EventDb) : List EventDto := (db.findMany n pageSize).map EventRow.mapRow

/-- Page `n` is requested in the first state, page `n + 1` in the next, and so on. -/
def listEvents (pageSize : Nat) : Nat → List System → List EventDto
  | _, [] => []
  | n, s :: states => s.event.list n pageSize ++ listEvents pageSize (n + 1) states

/-! ## The services with a clock -/

structure Clocked where
  system : System
  clock : Date

section
variable [Zod]

/-- Every event is created later than those before it, deleted ones included. -/
def clocked : Machine Clocked Label where
  start c := c.system = System.empty
  exec c l := (closed.exec c.system l).bind fun system =>
    match l with
    | .createEvent _ draw => if c.clock < draw.now then some ⟨system, draw.now⟩ else none
    | _ => some ⟨system, c.clock⟩

end

/-! ## What places an event in the list -/

structure EventPlace where
  id : Uuid
  createdAt : Date
  deriving DecidableEq

def EventRow.place (row : EventRow) : EventPlace := ⟨row.id, row.createdAt⟩

def EventDb.places (db : EventDb) : List EventPlace := db.events.rows.map EventRow.place

def InTurn (places : List EventPlace) : Prop := places.Pairwise fun a b => a.createdAt < b.createdAt

def Rearranged (d d' : EventDb) (new : EventPlace → Prop) : Prop :=
  ∃ kept added, d'.places = kept ++ added ∧ kept.Sublist d.places ∧ InTurn added ∧ ∀ a ∈ added, new a

theorem rearranged_same {d d' : EventDb} (h : d'.places = d.places) (new : EventPlace → Prop) :
    Rearranged d d' new :=
  ⟨d.places, [], by rw [h, List.append_nil], List.Sublist.refl _, List.Pairwise.nil, fun _ ha => (by cases ha)⟩

theorem places_reseated {d d' : EventDb} {row row' : EventRow} (h : d.events.Replaced row row' d'.events)
    (hp : row'.place = row.place) : d'.places = d.places := by
  unfold EventDb.places
  rw [h.rows, List.map_map]
  apply List.map_congr_left; intro x hx
  simp only [Function.comp]
  split
  · rename_i hid
    rw [Table.key_inj hx h.mem hid]; exact hp
  · rfl

theorem places_updated {id : String} {input : EventInput} {now : Date} {d d' : EventDb} {o : Option EventRow}
    (h : updateStatement id input now d = .ok (o, d')) : d'.places = d.places := by
  rcases updateStatement_cases h with hc | hc
  · rw [hc.2.1]
  · obtain ⟨row, row', _, hr⟩ := hc
    refine places_reseated hr.events ?_
    unfold EventRow.place
    rw [hr.row'_id, hr.createdAt]

theorem places_deleted {id : String} {d d' : EventDb} {o : Option Uuid} (h : deleteStatement id d = .ok (o, d')) :
    d'.places.Sublist d.places := by
  obtain ⟨u, _, h⟩ := except_bind_ok.mp h
  obtain ⟨_, rfl⟩ := Prod.mk.inj (Except.ok.inj h)
  exact List.filter_sublist.map _

theorem places_created {input : EventCreate} {now : Date} {d d' : EventDb} {dto : EventDto}
    (h : eventCreate input now d = .ok (dto, d')) : d'.places = d.places ++ [⟨input.id.val, now⟩] := by
  obtain ⟨row, _, hc⟩ := eventCreate_cases h
  unfold EventDb.places
  rw [Table.insert_rows hc.events, List.map_append, List.map_singleton, EventRow.place, hc.row_id, hc.createdAt]

def CreatedBy (l : Label) (a : EventPlace) : Prop :=
  ∃ input draw, l = .createEvent input draw ∧ a.createdAt = draw.now

theorem step_rearranged [Zod] {s s' : System} {l : Label} (he : closed.exec s l = some s') :
    Rearranged s.event s'.event (CreatedBy l) := by
  have hsame : s'.event.places = s.event.places → Rearranged s.event s'.event (CreatedBy l) :=
    fun h => rearranged_same h _
  cases l with
  | createEvent input draw =>
    obtain ⟨_, rfl⟩ := guard_eq_some.mp he
    unfold System.createEvent
    cases hc : eventCreate ⟨draw.id, input.title, input.date, input.totalSeats, none⟩ draw.now s.event with
    | error e => exact rearranged_same rfl _
    | ok p =>
      refine ⟨s.event.places, _, places_created hc, List.Sublist.refl _, List.pairwise_singleton _ _,
        fun a ha => ?_⟩
      rw [List.mem_singleton.mp ha]
      exact ⟨input, draw, rfl, rfl⟩
  | updateEvent id input draw =>
    obtain ⟨_, rfl⟩ := guard_eq_some.mp he
    cases hu : autocommit (updateStatement id input draw.now) s.event with
    | mk r d =>
      rcases autocommit_cases hu with hc | ⟨o, hc, _⟩
      · rw [hc.1]; exact rearranged_same rfl _
      · exact rearranged_same (places_updated hc) _
  | deleteEvent id =>
    obtain ⟨_, rfl⟩ := guard_eq_some.mp he
    cases hu : autocommit (deleteStatement id) s.event with
    | mk r d =>
      rcases autocommit_cases hu with hc | ⟨o, hc, _⟩
      · rw [hc.1]; exact rearranged_same rfl _
      · exact ⟨d.places, [], (List.append_nil _).symm, places_deleted hc, List.Pairwise.nil,
          fun _ ha => (by cases ha)⟩
  | deliver consumer message draw =>
    refine hsame ?_
    have hkept : ∀ {d : EventDb}, d.events = s.event.events → d.places = s.event.places := by
      intro d h
      unfold EventDb.places
      rw [h]
    cases closed_step he with
    | reserve delivered payload reserved =>
      refine places_reseated reserved.events ?_
      rw [reserved.row_eq]; rfl
    | release delivered payload released =>
      refine places_reseated released.events ?_
      rw [released.row_eq]; rfl
    | refuse delivered payload refused => exact hkept refused.events
    | invalid delivered payload quantity ignored => exact hkept ignored.events
    | unreleased delivered payload ignored => exact hkept ignored.events
    | _ => rfl
  | bookkeep service op =>
    obtain rfl := Option.some.inj he
    cases service <;> exact hsame rfl
  | _ => cases closed_step he <;> exact hsame rfl

/-! ## Every run -/

/-- Events stand in the order of their creation, the last of them created by now. -/
structure Timely (c : Clocked) : Prop where
  sorted : InTurn c.system.event.places
  past : ∀ a ∈ c.system.event.places, a.createdAt ≤ c.clock

def Ahead (c c' : Clocked) : Prop :=
  c.clock ≤ c'.clock ∧
    Rearranged c.system.event c'.system.event fun a => c.clock < a.createdAt ∧ a.createdAt ≤ c'.clock

theorem Ahead.refl (c : Clocked) : Ahead c c := ⟨Nat.le_refl _, rearranged_same rfl _⟩

theorem Ahead.trans {a b c : Clocked} (h : Ahead a b) (h' : Ahead b c) : Ahead a c := by
  obtain ⟨hclock, kept, added, hp, hkept, hturn, hnew⟩ := h
  obtain ⟨hclock', kept', added', hp', hkept', hturn', hnew'⟩ := h'
  rw [hp] at hkept'
  obtain ⟨left, later, rfl, hleft, hlater⟩ := List.sublist_append_iff.mp hkept'
  refine ⟨Nat.le_trans hclock hclock', left, later ++ added', ?_, hleft.trans hkept,
    List.pairwise_append.mpr ⟨hturn.sublist hlater, hturn', fun x hx y hy => ?_⟩, fun x hx => ?_⟩
  · rw [hp', List.append_assoc]
  · exact Nat.lt_of_le_of_lt (hnew x (hlater.subset hx)).2 (hnew' y hy).1
  · rcases List.mem_append.mp hx with hx | hx
    · have hx := hnew x (hlater.subset hx)
      exact ⟨hx.1, Nat.le_trans hx.2 hclock'⟩
    · have hx := hnew' x hx
      exact ⟨Nat.lt_of_le_of_lt hclock hx.1, hx.2⟩

theorem Timely.ahead {c c' : Clocked} (hc : Timely c) (h : Ahead c c') : Timely c' := by
  obtain ⟨hclock, kept, added, hp, hkept, hturn, hnew⟩ := h
  constructor
  · rw [hp]
    exact List.pairwise_append.mpr ⟨hc.sorted.sublist hkept, hturn, fun x hx y hy =>
      Nat.lt_of_le_of_lt (hc.past x (hkept.subset hx)) (hnew y hy).1⟩
  · intro a ha
    rw [hp] at ha
    rcases List.mem_append.mp ha with ha | ha
    · exact Nat.le_trans (hc.past a (hkept.subset ha)) hclock
    · exact (hnew a ha).2

section
variable [Zod] {c c' : Clocked}

theorem clocked_ahead {l : Label} (he : clocked.exec c l = some c') : Ahead c c' := by
  obtain ⟨system, hs, he⟩ := Option.bind_eq_some_iff.mp he
  obtain ⟨kept, added, hp, hkept, hturn, hnew⟩ := step_rearranged hs
  have hother : (∀ input draw, l ≠ .createEvent input draw) → c' = ⟨system, c.clock⟩ → Ahead c c' := by
    rintro hl rfl
    refine ⟨Nat.le_refl _, kept, added, hp, hkept, hturn, fun a ha => ?_⟩
    obtain ⟨input, draw, hcreate, _⟩ := hnew a ha
    exact absurd hcreate (hl input draw)
  cases l with
  | createEvent input draw =>
    obtain ⟨hlt, rfl⟩ := guard_eq_some.mp he
    refine ⟨Nat.le_of_lt hlt, kept, added, hp, hkept, hturn, fun a ha => ?_⟩
    obtain ⟨_, _, hcreate, hat⟩ := hnew a ha
    cases hcreate
    rw [hat]; exact ⟨hlt, Nat.le_refl _⟩
  | _ => exact hother (fun _ _ e => by cases e) (Option.some.inj he).symm

theorem timely_clocked (h : clocked.Reach c) : Timely c := by
  refine h.inv ?_ fun c l c' _ hi he => hi.ahead (clocked_ahead he)
  intro c h0
  have hempty : c.system.event.places = [] := by rw [show c.system = System.empty from h0]; rfl
  exact ⟨by rw [hempty]; exact List.Pairwise.nil, fun a ha => by rw [hempty] at ha; cases ha⟩

end

/-! ## What a client is shown -/

/-- The rows a client is shown in turn, and the events of `c` it is not. -/
structure Shown (pageSize : Nat) (c : Clocked) (states : List Clocked) (rows : List EventRow) : Prop where
  in_turn : rows.Pairwise fun a b => a.createdAt < b.createdAt
  stored : ∀ row ∈ rows, ∃ c' ∈ states, row ∈ c'.system.event.events.rows
  missed : c.system.event.places.length ≤ states.length * pageSize → ∀ last, states.getLast? = some last →
    (c.system.event.places.filter fun a => a ∉ rows.map EventRow.place).length ≤
      (c.system.event.places.filter fun a => a ∉ last.system.event.places).length

theorem Timely.findMany {c : Clocked} (h : Timely c) {n : Nat} (hn : 1 ≤ n) (pageSize : Nat) :
    c.system.event.findMany n pageSize = page n pageSize c.system.event.events.rows := by
  have hrows : c.system.event.events.rows.Pairwise fun a b => a.createdAt < b.createdAt :=
    (List.pairwise_map.mp h.sorted).imp fun hlt => hlt
  exact page_sorted hrows hn pageSize

theorem listEvents_eq (pageSize : Nat) {states : List Clocked} (hs : ∀ c ∈ states, Timely c) {n : Nat}
    (hn : 1 ≤ n) :
    ∃ rows, listEvents pageSize n (states.map (·.system)) = rows.map EventRow.mapRow ∧
      rows = pagesRead pageSize n (states.map (·.system.event.events.rows)) := by
  induction states generalizing n with
  | nil => exact ⟨[], rfl, rfl⟩
  | cons c states ih =>
    obtain ⟨rows, hlist, hrows⟩ := ih (fun c hc => hs c (List.mem_cons_of_mem _ hc)) (Nat.le_add_left 1 n)
    refine ⟨page n pageSize c.system.event.events.rows ++ rows, ?_, ?_⟩
    · show (c.system.event.findMany n pageSize).map EventRow.mapRow ++ _ = _
      rw [(hs c List.mem_cons_self).findMany hn, hlist, List.map_append]
    · rw [hrows]; rfl

theorem Timely.shifted {c c' : Clocked} (hc : Timely c) (h : Ahead c c') :
    Shifted (fun a b : EventPlace => a.createdAt < b.createdAt) c.system.event.places c'.system.event.places := by
  obtain ⟨_, kept, added, hp, hkept, _, hnew⟩ := h
  exact ⟨kept, added, hp, hkept, fun x hx a ha => Nat.lt_of_le_of_lt (hc.past x hx) (hnew a ha).1⟩

theorem Ahead.old {c c' : Clocked} (h : Ahead c c') {time : Date} (ht : time ≤ c.clock) :
    (c'.system.event.places.filter fun a => a.createdAt ≤ time).Sublist
      (c.system.event.places.filter fun a => a.createdAt ≤ time) := by
  obtain ⟨_, kept, added, hp, hkept, _, hnew⟩ := h
  have hnone : added.filter (fun a => decide (a.createdAt ≤ time)) = [] := by
    refine List.filter_eq_nil_iff.mpr fun a ha hle => ?_
    exact Nat.not_le_of_lt (hnew a ha).1 (Nat.le_trans (of_decide_eq_true hle) ht)
  rw [hp, List.filter_append, hnone, List.append_nil]
  exact hkept.filter _

theorem Timely.front {c c' : Clocked} (hc : Timely c) (h : Ahead c c') :
    c'.system.event.places.filter (fun a => a.createdAt ≤ c.clock) <+: c'.system.event.places := by
  obtain ⟨_, kept, added, hp, hkept, _, hnew⟩ := h
  have hall : kept.filter (fun a => decide (a.createdAt ≤ c.clock)) = kept :=
    List.filter_eq_self.mpr fun a ha => decide_eq_true (hc.past a (hkept.subset ha))
  have hnone : added.filter (fun a => decide (a.createdAt ≤ c.clock)) = [] :=
    List.filter_eq_nil_iff.mpr fun a ha hle => Nat.not_le_of_lt (hnew a ha).1 (of_decide_eq_true hle)
  rw [hp, List.filter_append, hall, hnone, List.append_nil]
  exact ⟨added, rfl⟩

/-- Whatever is created, changed, booked and deleted between the requests. -/
theorem events_listed [Zod] {c : Clocked} {states : List Clocked} (h : clocked.Reach c)
    (ht : clocked.Tour (fun _ _ => True) c states) (pageSize : Nat) :
    ∃ rows, listEvents pageSize 1 (states.map (·.system)) = rows.map EventRow.mapRow ∧
      Shown pageSize c states rows := by
  obtain ⟨hpair, hall⟩ := ht.rel (R := Ahead) Ahead.refl (fun _ _ _ => Ahead.trans)
    (fun _ _ _ _ _ he => clocked_ahead he) h
  have htimely : ∀ c' ∈ states, Timely c' := fun c' hc' => timely_clocked (hall c' hc').1
  have hc := timely_clocked h
  obtain ⟨rows, hlist, hrows⟩ := listEvents_eq pageSize htimely (Nat.le_refl 1)
  have hplaces : rows.map EventRow.place = pagesRead pageSize 1 (states.map (·.system.event.places)) := by
    rw [hrows, ← pagesRead_map, List.map_map]; rfl
  refine ⟨rows, hlist, ?_, fun row hrow => ?_, fun hlength last hlast => ?_⟩
  · have hshifted : (states.map (·.system.event.places)).Pairwise
        (Shifted fun a b : EventPlace => a.createdAt < b.createdAt) := by
      refine List.pairwise_map.mpr (hpair.imp_of_mem fun {a b} ha _ hab => ?_)
      exact (htimely a ha).shifted hab
    have hsorted : ∀ xs ∈ states.map (·.system.event.places), InTurn xs := by
      intro xs hxs
      obtain ⟨c', hc', rfl⟩ := List.mem_map.mp hxs
      exact (htimely c' hc').sorted
    have hturn := pagesRead_pairwise pageSize hsorted hshifted (Nat.le_refl 1)
    rw [← hplaces] at hturn
    have hrows := List.pairwise_map.mp hturn
    exact hrows
  · rw [hrows] at hrow
    obtain ⟨ys, hys, hrow⟩ := mem_pagesRead (Nat.le_refl 1) hrow
    obtain ⟨c', hc', rfl⟩ := List.mem_map.mp hys
    exact ⟨c', hc', List.mem_of_mem_drop hrow⟩
  · rw [hplaces]
    have hnodup : c.system.event.places.Nodup := List.Pairwise.imp (fun {a b} hlt => by
      rintro rfl
      exact Nat.lt_irrefl _ hlt) hc.sorted
    refine pages_missed hnodup (by rw [List.getLast?_map, hlast]; rfl) (fun a => a.createdAt ≤ c.clock)
      (fun a ha => decide_eq_true (hc.past a ha)) (fun xs hxs => ?_) ?_ (by rw [List.length_map]; exact hlength)
    · obtain ⟨c', hc', rfl⟩ := List.mem_map.mp hxs
      exact hc.front (hall c' hc').2
    · refine List.pairwise_cons.mpr ⟨fun xs hxs => ?_,
        List.pairwise_map.mpr (hpair.imp_of_mem fun {a b} ha _ hab => ?_)⟩
      · obtain ⟨c', hc', rfl⟩ := List.mem_map.mp hxs
        exact (hall c' hc').2.old (Nat.le_refl _)
      · exact hab.old (hall a ha).2.1

/-! ## An event deleted between two pages -/

def threeEvents : List Label :=
  [.createEvent concert { sampleDraw 1 0 0 0 0 with now := 1 },
    .createEvent concert { sampleDraw 2 0 0 0 0 with now := 2 },
    .createEvent concert { sampleDraw 3 0 0 0 0 with now := 3 }]

def Clocked.ids (c : Clocked) : List String := c.system.event.places.map (·.id.text)

theorem events_listed_deleted : ∃ c c' rows, (@clocked zod4).run ⟨System.empty, 0⟩ threeEvents = some c ∧
    (@clocked zod4).run c [.deleteEvent (sampleText 1)] = some c' ∧
      c.ids = [sampleText 1, sampleText 2, sampleText 3] ∧
    c'.ids = [sampleText 2, sampleText 3] ∧
    listEvents 1 1 [c.system, c'.system, c'.system] = rows.map EventRow.mapRow ∧ Shown 1 c [c, c', c'] rows := by
  have h : ((@clocked zod4).run ⟨System.empty, 0⟩ threeEvents).bind (fun c =>
      ((@clocked zod4).run c [.deleteEvent (sampleText 1)]).map fun c' => (c.ids, c'.ids)) =
        some ([sampleText 1, sampleText 2, sampleText 3], [sampleText 2, sampleText 3]) := by
    decide +kernel
  obtain ⟨c, hc, h⟩ := Option.bind_eq_some_iff.mp h
  obtain ⟨c', hc', hview⟩ := Option.map_eq_some_iff.mp h
  have hstart : (@clocked zod4).start ⟨System.empty, 0⟩ := rfl
  have hreach : (@clocked zod4).Reach c := Machine.Reach.run (.start hstart) hc
  have hmeets : (@clocked zod4).Meets (fun _ _ => True) c [.deleteEvent (sampleText 1)] :=
    Machine.meets_of_forall (fun _ _ _ => trivial) c
  have htour : (@clocked zod4).Tour (fun _ _ => True) c [c, c', c'] :=
    ⟨⟨[], trivial, rfl⟩, ⟨_, hmeets, hc'⟩, ⟨[], trivial, rfl⟩, trivial⟩
  obtain ⟨rows, hlist, hshown⟩ := @events_listed zod4 c [c, c', c'] hreach htour 1
  exact ⟨c, c', rows, hc, hc', congrArg Prod.fst hview, congrArg Prod.snd hview, hlist, hshown⟩

end EventBooking
