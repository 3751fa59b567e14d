import EventBooking.Contracts
import EventBooking.Lib.Json

/-!
# Messages on the wire

A message is published as `JSON.stringify` writes it, and a subscription reads
a record's value with `JSON.parse` and `parseMessageEnvelope`. The schemas look
fields up by name and drop the names they do not know.
-/

namespace EventBooking
open Lib

/-! ## Numbers -/

def roundHalfEven (a b : Nat) : Nat :=
  if 2 * (a % b) < b ∨ (2 * (a % b) = b ∧ a / b % 2 = 0) then a / b else a / b + 1

/-- The binary places that a double keeps of `a / b`, when that is a half at least. -/
def places (a b : Nat) : Nat := if a / b = 0 then 53 else 52 - (a / b).log2

/-- The number a numeral is read as, if it is an integer that `z.number().int().positive()` admits. -/
def positiveInteger (mantissa exponent : Int) : Option Int :=
  let a := mantissa.toNat * 10 ^ exponent.toNat
  let b := 10 ^ (-exponent).toNat
  let n := roundHalfEven (a * 2 ^ places a b) b
  let q := n / 2 ^ places a b
  if n % 2 ^ places a b = 0 ∧ positiveInt q = true then some q else none

theorem roundHalfEven_one (a : Nat) : roundHalfEven a 1 = a := by
  simp [roundHalfEven, Nat.mod_one]

/-- An integer written in full is read as itself. -/
theorem positiveInteger_int (n : Int) : positiveInteger n 0 = if positiveInt n = true then some n else none := by
  simp only [positiveInteger, Int.toNat_zero, Int.neg_zero, Nat.pow_zero, Nat.mul_one, roundHalfEven_one,
    Nat.mul_mod_left, Nat.mul_div_cancel _ (Nat.two_pow_pos _), true_and]
  by_cases h : 0 < n
  · rw [Int.toNat_of_nonneg (by omega)]
  · have : n.toNat = 0 := by omega
    simp [this, positiveInt, h]

theorem positiveInteger_positive {m e q : Int} (h : positiveInteger m e = some q) : positiveInt q = true := by
  unfold positiveInteger at h
  obtain ⟨hc, he⟩ := Option.ite_none_right_eq_some.mp h
  cases he
  exact hc.2

example : positiveInteger 30 (-1) = some 3 := by decide

/-! ## Writing -/

def FailureReason.text : FailureReason → String
  | .insufficientSeats => "INSUFFICIENT_SEATS"
  | .eventNotFound => "EVENT_NOT_FOUND"

def Payload.toJson : Payload → Json
  | .reserveSeats p =>
    .obj [("bookingId", .str p.bookingId), ("eventId", .str p.eventId), ("userId", .str p.userId),
      ("quantity", .int p.quantity)]
  | .bookingEventQuantity p =>
    .obj [("bookingId", .str p.bookingId), ("eventId", .str p.eventId), ("quantity", .int p.quantity)]
  | .failure p => .obj [("bookingId", .str p.bookingId), ("eventId", .str p.eventId),
      ("reason", .str p.reason.text)]

/-- A property that is `undefined` is not written. -/
def MessageEnvelope.toJson (m : Message) : Json :=
  .obj ([("messageId", .str m.messageId), ("correlationId", .str m.correlationId), ("timestamp", .str m.timestamp),
    ("version", .int m.version)] ++ (m.eventId.map fun id => ("eventId", Json.str id)).toList ++
    [("payload", m.payload.toJson)])

/-! ## Reading -/

def required {α : Type} (value : Json) (key : String) (read : Json → Option α) : Option α :=
  (value.get? key).bind read

def optional {α : Type} (value : Json) (key : String) (read : Json → Option α) : Option (Option α) :=
  match value.get? key with
  | none => some none
  | some j => (read j).map some

def readText (format : String → Bool) : Json → Option String
  | .str s => if format s = true then some s else none
  | _ => none

def readQuantity : Json → Option Int
  | .num mantissa exponent => positiveInteger mantissa exponent
  | _ => none

/-- `z.literal(1)`. -/
def readVersion (value : Json) : Option Int := (readQuantity value).filter fun n => decide (n = 1)

def readReason : Json → Option FailureReason
  | .str s =>
    if s = FailureReason.insufficientSeats.text then some .insufficientSeats
    else if s = FailureReason.eventNotFound.text then some .eventNotFound
    else none
  | _ => none

theorem readText_eq_some {format : String → Bool} {j : Json} {s : String} :
    readText format j = some s ↔ j = .str s ∧ format s = true := by
  unfold readText
  split
  · rename_i t
    simp only [Option.ite_none_right_eq_some, Option.some.injEq, Json.str.injEq]
    constructor
    · rintro ⟨h, rfl⟩; exact ⟨rfl, h⟩
    · rintro ⟨rfl, h⟩; exact ⟨h, rfl⟩
  · rename_i hne
    simp only [reduceCtorEq, false_iff]
    intro hx
    obtain ⟨rfl, -⟩ := hx
    exact hne s rfl

theorem readQuantity_positive {j : Json} {n : Int} (h : readQuantity j = some n) : positiveInt n = true := by
  unfold readQuantity at h
  split at h
  · exact positiveInteger_positive h
  · cases h

theorem readQuantity_int {n : Int} (h : positiveInt n = true) : readQuantity (.int n) = some n := by
  simp [readQuantity, Json.int, positiveInteger_int, h]

theorem readReason_text (reason : FailureReason) : readReason (.str reason.text) = some reason := by
  cases reason <;> rfl

@[simp] theorem readText_str (format : String → Bool) (s : String) :
    readText format (.str s) = if format s = true then some s else none := rfl

theorem required_text {value : Json} {key s : String} {format : String → Bool}
    (h : required value key (readText format) = some s) : format s = true := by
  obtain ⟨j, _, hj⟩ := Option.bind_eq_some_iff.mp h
  exact (readText_eq_some.mp hj).2

theorem optional_text {value : Json} {key : String} {format : String → Bool} {o : Option String}
    (h : optional value key (readText format) = some o) : o.all format = true := by
  unfold optional at h
  split at h
  · cases h; rfl
  · obtain ⟨s, hs, rfl⟩ := Option.map_eq_some_iff.mp h
    exact (readText_eq_some.mp hs).2

theorem required_quantity {value : Json} {key : String} {n : Int} (h : required value key readQuantity = some n) :
    positiveInt n = true := by
  obtain ⟨j, _, hj⟩ := Option.bind_eq_some_iff.mp h
  exact readQuantity_positive hj

section
variable [Zod]

def readReserveSeats (value : Json) : Option ReserveSeatsPayload := do
  let bookingId ← required value "bookingId" (readText Zod.uuid)
  let eventId ← required value "eventId" (readText Zod.uuid)
  let userId ← required value "userId" (readText Zod.uuid)
  let quantity ← required value "quantity" readQuantity
  return ⟨bookingId, eventId, userId, quantity⟩

def readBookingEventQuantity (value : Json) : Option BookingEventQuantityPayload := do
  let bookingId ← required value "bookingId" (readText Zod.uuid)
  let eventId ← required value "eventId" (readText Zod.uuid)
  let quantity ← required value "quantity" readQuantity
  return ⟨bookingId, eventId, quantity⟩

def readFailure (value : Json) : Option FailurePayload := do
  let bookingId ← required value "bookingId" (readText Zod.uuid)
  let eventId ← required value "eventId" (readText Zod.uuid)
  let reason ← required value "reason" readReason
  return ⟨bookingId, eventId, reason⟩

def readPayload (topic : Topic) (value : Json) : Option Payload :=
  match topic with
  | .reserveSeats => (readReserveSeats value).map .reserveSeats
  | .seatsReserved | .bookingConfirmed | .bookingCancelled =>
    (readBookingEventQuantity value).map .bookingEventQuantity
  | .seatReservationFailed | .bookingFailed => (readFailure value).map .failure

def parseMessageEnvelope (topic : Topic) (value : Json) : Option Message := do
  let eventId ← optional value "eventId" (readText Zod.uuid)
  let messageId ← required value "messageId" (readText Zod.uuid)
  let correlationId ← required value "correlationId" (readText Zod.uuid)
  let timestamp ← required value "timestamp" (readText Zod.datetime)
  let version ← required value "version" readVersion
  let payload ← required value "payload" (readPayload topic)
  return { eventId, messageId, correlationId, timestamp, version, payload }

/-- What a subscription of `topic` makes of a record's value. -/
def receive (topic : Topic) (rawPayload : String) : Option Message :=
  (Json.parse rawPayload).bind (parseMessageEnvelope topic)

/-! ## Schemas and readers agree -/

theorem readPayload_schema {topic : Topic} {value : Json} {p : Payload} (h : readPayload topic value = some p) :
    topicPayloadSchemas topic p = true := by
  have hquantity : ∀ q, readBookingEventQuantity value = some q →
      (Zod.uuid q.bookingId && Zod.uuid q.eventId && positiveInt q.quantity) = true := by
    intro q hq
    simp only [readBookingEventQuantity, Option.bind_eq_bind, Option.bind_eq_some_iff] at hq
    obtain ⟨bookingId, hb, eventId, he, quantity, hn, hq⟩ := hq
    cases hq
    simp [required_text hb, required_text he, required_quantity hn]
  have hfailure : ∀ f, readFailure value = some f → (Zod.uuid f.bookingId && Zod.uuid f.eventId) = true := by
    intro f hf
    simp only [readFailure, Option.bind_eq_bind, Option.bind_eq_some_iff] at hf
    obtain ⟨bookingId, hb, eventId, he, reason, hr, hf⟩ := hf
    cases hf
    simp [required_text hb, required_text he]
  cases topic with
  | reserveSeats =>
    obtain ⟨r, hr, rfl⟩ := Option.map_eq_some_iff.mp h
    simp only [readReserveSeats, Option.bind_eq_bind, Option.bind_eq_some_iff] at hr
    obtain ⟨bookingId, hb, eventId, he, userId, hu, quantity, hn, hr⟩ := hr
    cases hr
    simp [topicPayloadSchemas, required_text hb, required_text he, required_text hu, required_quantity hn]
  | seatsReserved | bookingConfirmed | bookingCancelled =>
    obtain ⟨q, hq, rfl⟩ := Option.map_eq_some_iff.mp h
    exact hquantity q hq
  | seatReservationFailed | bookingFailed =>
    obtain ⟨f, hf, rfl⟩ := Option.map_eq_some_iff.mp h
    exact hfailure f hf

/-- A subscription's handler only sees messages of its topic's schema. -/
theorem parse_schema {topic : Topic} {value : Json} {m : Message} (h : parseMessageEnvelope topic value = some m) :
    messageEnvelopeSchema topic m = true := by
  simp only [parseMessageEnvelope, Option.bind_eq_bind, Option.bind_eq_some_iff] at h
  obtain ⟨eventId, he, messageId, hm, correlationId, hc, timestamp, ht, version, hv, payload, hp, h⟩ := h
  cases h
  have hversion : version = 1 := by
    obtain ⟨j, _, hj⟩ := Option.bind_eq_some_iff.mp hv
    simpa using (Option.filter_eq_some_iff.mp hj).2
  have hpayload : topicPayloadSchemas topic payload = true := by
    obtain ⟨j, _, hj⟩ := Option.bind_eq_some_iff.mp hp
    exact readPayload_schema hj
  simp [messageEnvelopeSchema, optional_text he, required_text hm, required_text hc, required_text ht,
    hversion, hpayload]

theorem readPayload_toJson {topic : Topic} {p : Payload} (h : topicPayloadSchemas topic p = true) :
    readPayload topic p.toJson = some p := by
  cases p with
  | reserveSeats p =>
    cases topic with
    | reserveSeats =>
      simp only [topicPayloadSchemas, Bool.and_eq_true] at h
      simp [readPayload, readReserveSeats, Payload.toJson, required, Json.get?, List.lookup, readQuantity_int, h]
    | _ => cases h
  | bookingEventQuantity p =>
    have hread : (Zod.uuid p.bookingId && Zod.uuid p.eventId && positiveInt p.quantity) = true →
        readBookingEventQuantity (Payload.bookingEventQuantity p).toJson = some p := by
      intro h
      simp only [Bool.and_eq_true] at h
      simp [readBookingEventQuantity, Payload.toJson, required, Json.get?, List.lookup, readQuantity_int, h]
    cases topic with
    | seatsReserved | bookingConfirmed | bookingCancelled => exact congrArg (Option.map _) (hread h)
    | _ => cases h
  | failure p =>
    have hread : (Zod.uuid p.bookingId && Zod.uuid p.eventId) = true →
        readFailure (Payload.failure p).toJson = some p := by
      intro h
      simp only [Bool.and_eq_true] at h
      simp [readFailure, Payload.toJson, required, Json.get?, List.lookup, readReason_text, h]
    cases topic with
    | seatReservationFailed | bookingFailed => exact congrArg (Option.map _) (hread h)
    | _ => cases h

/-- A message of the topic's schema is read back as it was written, field for field. -/
theorem parse_toJson {topic : Topic} {m : Message} (h : messageEnvelopeSchema topic m = true) :
    parseMessageEnvelope topic m.toJson = some m := by
  obtain ⟨eventId, messageId, correlationId, timestamp, version, payload⟩ := m
  simp only [messageEnvelopeSchema, Bool.and_eq_true, decide_eq_true_eq] at h
  obtain ⟨⟨⟨⟨⟨he, hm⟩, hc⟩, ht⟩, rfl⟩, hp⟩ := h
  have hversion : readVersion (.int 1) = some 1 := by decide
  cases eventId with
  | none =>
    simp [parseMessageEnvelope, MessageEnvelope.toJson, required, optional, Json.get?, List.lookup, hm, hc,
      ht, hversion, readPayload_toJson hp]
  | some eventId =>
    simp only [Option.all_some] at he
    simp [parseMessageEnvelope, MessageEnvelope.toJson, required, optional, Json.get?, List.lookup, he, hm, hc, ht,
      hversion, readPayload_toJson hp]

/-- What is sent on a topic arrives as it was sent exactly when the topic's schema admits it. -/
theorem receive_stringify {topic : Topic} {m : Message} :
    receive topic (Json.stringify m.toJson) = some m ↔ messageEnvelopeSchema topic m = true := by
  unfold receive
  rw [Json.parse_stringify, Option.bind_some]
  exact ⟨parse_schema, parse_toJson⟩

end

end EventBooking
