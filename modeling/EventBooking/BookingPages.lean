import EventBooking.Conservation
import EventBooking.Lib.Paging

/-!
# A user's bookings, page by page

`GET /users/:userId/bookings` sorts by creation and skips whole pages, and each
page is a query of its own. Between two of them bookings are created and change
their status; none leaves its place.
-/

namespace EventBooking
open Lib

/-- `orderBy: [{ createdAt: "asc" }, { id: "asc" }]` -/
def BookingRow.before : BookingRow → BookingRow → Bool := byTime (·.createdAt) (·.id.text)

def BookingDb.ofUser (db : BookingDb) (user : Uuid) : List BookingRow :=
  db.bookings.rows.filter fun r => r.userId = user

def BookingDb.findMany (user : Uuid) (n pageSize : Nat) (db : BookingDb) : List BookingRow :=
  (((db.ofUser user).mergeSort BookingRow.before).drop ((n - 1) * pageSize)).take pageSize

/-- The repository's `findByUserId`. -/
def findByUserId (userId : String) (n pageSize : Nat) (db : BookingDb) : Except DbError (List BookingDto) := do
  let user ← Uuid.cast userId
  return (db.findMany user n pageSize).map BookingRow.mapRow

/-- Page `n` is requested in the first state, page `n + 1` in the next, and so on. -/
def requestPages (userId : String) (pageSize : Nat) : Nat → List System → Except DbError (List BookingDto)
  | _, [] => .ok []
  | n, s :: states => do
    let bookings ← findByUserId userId n pageSize s.booking
    return bookings ++ (← requestPages userId pageSize (n + 1) states)

/-- Bookings are created later than those there are. -/
def Dated (s : System) : Label → Prop
  | .createBooking _ draw => ∀ b ∈ s.booking.bookings.rows, b.createdAt < draw.now
  | _ => True

/-! ## What places a booking in the list -/

structure BookingPlace where
  id : Uuid
  userId : Uuid
  createdAt : Date

def BookingRow.place (row : BookingRow) : BookingPlace := ⟨row.id, row.userId, row.createdAt⟩

def System.places (s : System) : List BookingPlace := s.booking.bookings.rows.map BookingRow.place

theorem places_replaced {t t' : Table bookingSchema} {row : BookingRow} {status : BookingStatus} {now : Date}
    (h : t.Replaced row (setStatus status now row) t') :
    t'.rows.map BookingRow.place = t.rows.map BookingRow.place := by
  rw [h.rows, List.map_map]
  apply List.map_congr_left; intro x hx
  simp only [Function.comp]
  split
  · rename_i hid
    rw [Table.key_inj hx h.mem hid]; rfl
  · rfl

theorem step_places [Zod] {s s' : System} {l : Label} (he : closed.exec s l = some s') :
    s'.places = s.places ∨ ∃ input draw, ∃ row : BookingRow, l = .createBooking input draw ∧
      s'.places = s.places ++ [row.place] ∧ row.createdAt = draw.now := by
  cases closed_step he with
  | book schema created =>
    rename_i input draw row booking
    refine .inr ⟨input, draw, row, rfl, ?_, ?_⟩
    · show booking.bookings.rows.map BookingRow.place = _
      rw [Table.insert_rows created.bookings, List.map_append]; rfl
    · have hrow := created.row_eq
      unfold BookingInsert.row at hrow
      obtain ⟨_, _, hrow⟩ := except_bind_ok.mp hrow
      obtain ⟨_, _, hrow⟩ := except_bind_ok.mp hrow
      obtain ⟨_, _, hrow⟩ := except_bind_ok.mp hrow
      split at hrow
      · cases hrow; rfl
      · cases hrow
  | cancel reading cancelled => exact .inl (places_replaced cancelled.bookings)
  | settle outcome delivered settled => exact .inl (places_replaced settled.bookings)
  | unsettled outcome delivered unsettled =>
    exact .inl (congrArg (fun t : Table bookingSchema => t.rows.map _) unsettled.bookings)
  | bookkeep service op => cases service <;> exact .inl rfl
  | _ => exact .inl rfl

/-! ## Every run -/

def Sorted (s : System) : Prop := s.places.Pairwise fun a b => a.createdAt < b.createdAt

section
variable [Zod] {s s' : System}

theorem places_grow {l : Label} (he : closed.exec s l = some s') : s.places <+: s'.places := by
  rcases step_places he with h | ⟨_, _, row, _, h, _⟩
  · rw [h]
  · rw [h]; exact ⟨_, rfl⟩

theorem sorted_dated (h : closed.ReachBy Dated s) : Sorted s := by
  refine h.inv ?_ fun s l s' _ hi hc he => ?_
  · intro s h0
    rw [show s = System.empty from h0]; exact List.Pairwise.nil
  · rcases step_places he with hp | ⟨input, draw, row, rfl, hp, hdate⟩
    · unfold Sorted; rw [hp]; exact hi
    · unfold Sorted
      rw [hp]
      refine List.pairwise_append.mpr ⟨hi, List.pairwise_singleton _ _, fun a ha b hb => ?_⟩
      obtain ⟨x, hx, rfl⟩ := List.mem_map.mp ha
      rw [List.mem_singleton.mp hb, show row.place.createdAt = _ from hdate]
      exact hc x hx

end

def System.bookingIds (s : System) (user : Uuid) : List String := (s.booking.ofUser user).map (·.id.text)

theorem bookingIds_places (s : System) (user : Uuid) :
    s.bookingIds user = (s.places.filter fun p => p.userId = user).map (·.id.text) := by
  unfold System.bookingIds System.places BookingDb.ofUser
  rw [List.filter_map, List.map_map]; rfl

theorem bookingIds_nodup (s : System) (user : Uuid) : (s.bookingIds user).Nodup := by
  unfold System.bookingIds BookingDb.ofUser
  have hids : (s.booking.bookings.rows.map (·.id)).Nodup := s.booking.bookings.key_nodup
  have htexts := hids.map (f := Uuid.text) fun u v h => Uuid.ext h
  rw [List.map_map] at htexts
  exact (List.filter_sublist.map _).nodup htexts

theorem Sorted.findMany {s : System} (h : Sorted s) (user : Uuid) {n : Nat} (hn : 1 ≤ n) (pageSize : Nat) :
    s.booking.findMany user n pageSize = page n pageSize (s.booking.ofUser user) := by
  have hrows : (s.booking.ofUser user).Pairwise fun a b => a.createdAt < b.createdAt :=
    (List.pairwise_map.mp h).filter _
  exact page_sorted hrows hn pageSize

structure ReadOnce (user : Uuid) (pageSize : Nat) (s : System) (states : List System)
    (read : List BookingDto) : Prop where
  nodup : (read.map (·.id)).Nodup
  complete : (s.bookingIds user).length ≤ states.length * pageSize → (s.bookingIds user).Sublist (read.map (·.id))
  ordered : ∀ last, states.getLast? = some last → (read.map (·.id)).Sublist (last.bookingIds user)
  stored : ∀ dto ∈ read, ∃ s' ∈ states, ∃ row ∈ s'.booking.ofUser user, dto = row.mapRow

section
variable {s : System} {states : List System} {userId : String} {user : Uuid}

theorem requestPages_ok (hu : Uuid.cast userId = .ok user) (pageSize : Nat) (hs : ∀ s ∈ states, Sorted s)
    {n : Nat} (hn : 1 ≤ n) :
    ∃ read, requestPages userId pageSize n states = .ok read ∧
      read.map (·.id) = pagesRead pageSize n (states.map (·.bookingIds user)) ∧
      ∀ dto ∈ read, ∃ s' ∈ states, ∃ row ∈ s'.booking.ofUser user, dto = row.mapRow := by
  induction states generalizing n with
  | nil => exact ⟨[], rfl, rfl, fun _ h => (by cases h)⟩
  | cons s states ih =>
    obtain ⟨read, hread, hids, hstored⟩ := ih (fun s' h => hs s' (List.mem_cons_of_mem _ h)) (Nat.le_add_left 1 n)
    have hpage : findByUserId userId n pageSize s.booking =
        .ok ((page n pageSize (s.booking.ofUser user)).map BookingRow.mapRow) := by
      unfold findByUserId
      rw [hu]
      show Except.ok ((s.booking.findMany user n pageSize).map BookingRow.mapRow) = _
      rw [(hs s List.mem_cons_self).findMany user hn]
    refine ⟨(page n pageSize (s.booking.ofUser user)).map BookingRow.mapRow ++ read, ?_, ?_, fun dto hdto => ?_⟩
    · unfold requestPages
      rw [hpage, hread]; rfl
    · rw [List.map_append, hids, List.map_map]
      show _ = page n pageSize (s.bookingIds user) ++ _
      unfold System.bookingIds
      rw [page_map]; rfl
    · rcases List.mem_append.mp hdto with hdto | hdto
      · obtain ⟨row, hrow, rfl⟩ := List.mem_map.mp hdto
        exact ⟨s, List.mem_cons_self, row, List.mem_of_mem_drop (List.mem_of_mem_take hrow), rfl⟩
      · obtain ⟨s', hs', row, hrow, he⟩ := hstored dto hdto
        exact ⟨s', List.mem_cons_of_mem _ hs', row, hrow, he⟩

theorem bookings_read_once [Zod] (h : closed.ReachBy Dated s) (ht : closed.Tour Dated s states)
    (hu : Uuid.cast userId = .ok user) (pageSize : Nat) :
    ∃ read, requestPages userId pageSize 1 states = .ok read ∧ ReadOnce user pageSize s states read := by
  obtain ⟨hpair, hall⟩ :=
    ht.rel (R := fun s s' => s.bookingIds user <+: s'.bookingIds user) (fun _ => List.prefix_rfl)
    (fun _ _ _ => List.IsPrefix.trans) (fun s l s' _ _ he => by
      rw [bookingIds_places, bookingIds_places]
      exact ((places_grow he).filter _).map _) h
  obtain ⟨read, hread, hids, hstored⟩ :=
    requestPages_ok hu pageSize (fun s' hs => sorted_dated (hall s' hs).1) (Nat.le_refl 1)
  have hlast : ∀ last, states.getLast? = some last → (read.map (·.id)).Sublist (last.bookingIds user) := by
    intro last hl
    have hgrow : ∀ xs ∈ states.map (·.bookingIds user), xs <+: last.bookingIds user := by
      intro xs hxs
      obtain ⟨s', hs', rfl⟩ := List.mem_map.mp hxs
      obtain ⟨init, rfl⟩ := List.getLast?_eq_some_iff.mp hl
      rcases List.mem_append.mp hs' with hs' | hs'
      · exact (List.pairwise_append.mp hpair).2.2 s' hs' last List.mem_cons_self
      · rw [List.mem_singleton.mp hs']
    have hsub := pagesRead_sublist pageSize hgrow (Nat.le_refl 1)
    rw [← hids] at hsub
    simpa using hsub
  refine ⟨read, hread, ?_, fun hlength => ?_, hlast, hstored⟩
  · cases hl : states.getLast? with
    | none =>
      rw [List.getLast?_eq_none_iff.mp hl] at hids
      rw [hids]; exact List.nodup_nil
    | some last => exact (hlast last hl).nodup (bookingIds_nodup last user)
  · have hgrow : ∀ xs ∈ states.map (·.bookingIds user), s.bookingIds user <+: xs := by
      intro xs hxs
      obtain ⟨s', hs', rfl⟩ := List.mem_map.mp hxs
      exact (hall s' hs').2
    have hsub := sublist_pagesRead pageSize hgrow (Nat.le_refl 1)
    rw [← hids, List.length_map] at hsub
    have hdrop : ((s.bookingIds user).drop ((1 - 1) * pageSize)).take (states.length * pageSize) =
        s.bookingIds user := by
      rw [Nat.sub_self, Nat.zero_mul, List.drop_zero, List.take_of_length_le hlength]
    rwa [hdrop] at hsub

end

/-! ## A booking made between two pages -/

def dated (s : System) : Label → Bool
  | .createBooking _ draw => s.booking.bookings.rows.all fun b => b.createdAt < draw.now
  | _ => true

theorem dated_sound (s : System) (l : Label) (h : dated s l = true) : Dated s l := by
  cases l with
  | createBooking input draw => exact fun b hb => of_decide_eq_true (List.all_eq_true.mp h b hb)
  | _ => trivial

def sampleFirst : List Label := [.createBooking sampleBooking { sampleDraw 2 3 4 0 0 with now := 5 }]

def sampleSecond : List Label := [.createBooking sampleBooking { sampleDraw 5 6 7 0 0 with now := 6 }]

theorem bookings_read_once_between : ∃ s s' read, (@closed zod4).run System.empty sampleFirst = some s ∧
    (@closed zod4).run s sampleSecond = some s' ∧ requestPages (sampleText 7) 1 1 [s, s'] = .ok read ∧
    s.bookingIds (sample 7).val = [sampleText 2] ∧ s'.bookingIds (sample 7).val = [sampleText 2, sampleText 5] ∧
    ReadOnce (sample 7).val 1 s [s, s'] read := by
  have h : ((@closed zod4).run System.empty sampleFirst).bind (fun s =>
      ((@closed zod4).run s sampleSecond).map fun s' =>
      (s.bookingIds (sample 7).val, s'.bookingIds (sample 7).val)) =
        some ([sampleText 2], [sampleText 2, sampleText 5]) := by
    decide +kernel
  have hall : (@closed zod4).allowed dated System.empty (sampleFirst ++ sampleSecond) = true := by decide +kernel
  obtain ⟨s, hs, h⟩ := Option.bind_eq_some_iff.mp h
  obtain ⟨s', hs', hview⟩ := Option.map_eq_some_iff.mp h
  obtain ⟨hfirst, hsecond⟩ := (Machine.meets_append hs).mp (Machine.meets_of_allowed dated_sound hall)
  have hreach : (@closed zod4).ReachBy Dated s := Machine.ReachBy.run (.start rfl) hfirst hs
  have htour : (@closed zod4).Tour Dated s [s, s'] := ⟨⟨[], trivial, rfl⟩, ⟨sampleSecond, hsecond, hs'⟩, trivial⟩
  obtain ⟨read, hread, honce⟩ := @bookings_read_once s [s, s'] (sampleText 7) (sample 7).val zod4 hreach htour
    (Uuid.cast_text (sample 7).val) 1
  exact ⟨s, s', read, hs, hs', hread, congrArg Prod.fst hview, congrArg Prod.snd hview, honce⟩

end EventBooking
