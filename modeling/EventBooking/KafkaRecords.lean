import EventBooking.Lib.PartitionLog
import EventBooking.Wire
import EventBooking.Zod4

/-!
# Consuming Kafka records

One try block reads a record's value, checks it and calls the handler. Its catch
block sorts the errors: a permanent one becomes a dead letter, any other leaves
the handler's error to the consumer, which delivers the record again.
-/

namespace EventBooking

open Lib

/-! ## Errors and effects -/

inductive Thrown
  | syntaxError (message : String)
  | zodError (message : String)
  | permanentMessageError (message : String)
  | other (message : String)
  deriving DecidableEq

def Thrown.message : Thrown → String
  | .syntaxError message | .zodError message | .permanentMessageError message | .other message => message

def Thrown.permanent : Thrown → Bool
  | .syntaxError _ | .zodError _ | .permanentMessageError _ => true
  | .other _ => false

structure DeadLetterRecord where
  sourceTopic : String
  partition : Nat
  offset : String
  key : Option String
  rawPayload : Option String
  consumer : String
  error : String
  timestamp : String
  deriving DecidableEq

/-- What a delivery does outside: the calls of the user's handler, and the dead letters it sends. -/
structure Effects where
  invoked : List Message
  sent : List (String × DeadLetterRecord)
  deriving DecidableEq

abbrev Handling := ExceptT Thrown (StateM Effects)

/-- The texts of the errors that the runtime and the schema library raise. -/
structure ErrorTexts where
  json : String → String
  schema : Topic → Json → String

abbrev UserHandler := Message → Except Thrown Unit

abbrev Publisher := String → DeadLetterRecord → Except Thrown Unit

def callHandler (handler : UserHandler) (message : Message) : Handling Unit := do
  modify fun e => { e with invoked := e.invoked ++ [message] }
  handler message

def publishDeadLetter (publisher : Publisher) (topic : String) (record : DeadLetterRecord) : Handling Unit := do
  modify fun e => { e with sent := e.sent ++ [(topic, record)] }
  publisher topic record

/-! ## Subscriptions and records -/

structure KafkaSubscription where
  topic : Topic
  handle : Json → Handling Unit

inductive RecordOutcome
  | processed
  | deadLettered
  deriving DecidableEq

structure KafkaRecord where
  rawPayload : Option String
  partition : Nat
  offset : String
  key : Option String
  consumer : String

def deadLetterTopic (topic : Topic) : String := "dead-letter." ++ topic.text

def deadLetterRecord (topic : Topic) (input : KafkaRecord) (error : Thrown) (now : Date) : DeadLetterRecord where
  sourceTopic := topic.text
  partition := input.partition
  offset := input.offset
  key := input.key
  rawPayload := input.rawPayload
  consumer := input.consumer
  error := error.message
  timestamp := toISOString now

def handleError (subscription : KafkaSubscription) (publisher : Publisher) (now : Date) (input : KafkaRecord)
    (error : Thrown) : Handling RecordOutcome :=
  if error.permanent = true then do
    publishDeadLetter publisher (deadLetterTopic subscription.topic)
      (deadLetterRecord subscription.topic input error now)
    return .deadLettered
  else throw error

theorem handleError_run (subscription : KafkaSubscription) (publisher : Publisher) (now : Date)
    (input : KafkaRecord) (error : Thrown) (effects : Effects) :
    (handleError subscription publisher now input error).run.run effects =
      if error.permanent = true then
        let record := deadLetterRecord subscription.topic input error now
        ((publisher (deadLetterTopic subscription.topic) record).map fun _ => .deadLettered,
          { effects with sent := effects.sent ++ [(deadLetterTopic subscription.topic, record)] })
      else (.error error, effects) := by
  unfold handleError
  by_cases h : error.permanent = true
  · simp only [h, if_true, publishDeadLetter]
    cases publisher (deadLetterTopic subscription.topic) (deadLetterRecord subscription.topic input error now) with
    | ok => rfl
    | error e => rfl
  · rw [if_neg h, if_neg h]; rfl

theorem tryCatch_ok {x : Handling RecordOutcome} {a : RecordOutcome} {effects after : Effects}
    (h : x.run.run effects = (.ok a, after)) (k : Thrown → Handling RecordOutcome) :
    (tryCatch x k).run.run effects = (.ok a, after) := by
  rw [ExceptT.run_tryCatch, StateT.run_bind, h]; rfl

theorem tryCatch_error {x : Handling RecordOutcome} {e : Thrown} {effects after : Effects}
    (h : x.run.run effects = (.error e, after)) (k : Thrown → Handling RecordOutcome) :
    (tryCatch x k).run.run effects = (k e).run.run after := by
  rw [ExceptT.run_tryCatch, StateT.run_bind, h]; rfl

theorem discard_run (x : Handling RecordOutcome) (effects : Effects) :
    (do let _ ← x : Handling Unit).run.run effects =
      ((x.run.run effects).1.map fun _ => (), (x.run.run effects).2) := by
  rw [ExceptT.run_bind, StateT.run_bind]
  generalize x.run.run effects = ran
  obtain ⟨result, after⟩ := ran
  cases result with
  | ok a => rfl
  | error e => rfl

section
variable [Zod] (texts : ErrorTexts)

def createKafkaSubscription (topic : Topic) (handler : UserHandler) : KafkaSubscription where
  topic := topic
  handle := fun message => do
    match parseMessageEnvelope topic message with
    | some envelope => callHandler handler envelope
    | none => throw (.zodError (texts.schema topic message))

def parsePayload (rawPayload : String) : Handling Json :=
  match Json.parse rawPayload with
  | some value => pure value
  | none => throw (.syntaxError (texts.json rawPayload))

def handleRecord (subscription : KafkaSubscription) (input : KafkaRecord) : Handling RecordOutcome :=
  match input.rawPayload with
  | none => throw (.syntaxError "Kafka message payload is empty")
  | some rawPayload => do
    let value ← parsePayload texts rawPayload
    subscription.handle value
    return .processed

def processKafkaRecord (subscription : KafkaSubscription) (publisher : Publisher) (now : Date)
    (input : KafkaRecord) :
    Handling RecordOutcome :=
  tryCatch (handleRecord texts subscription input) (handleError subscription publisher now input)

def deliverRecord (topic : Topic) (handler : UserHandler) (publisher : Publisher) (now : Date)
    (input : KafkaRecord) :
    Except Thrown RecordOutcome × Effects :=
  (processKafkaRecord texts (createKafkaSubscription texts topic handler) publisher now input).run.run ⟨[], []⟩

/-! ## What the try block comes to -/

/-- How the try block ends, and the message it calls the handler with. -/
inductive Tried (topic : Topic) (handler : UserHandler) : Option String → Option Message → Except Thrown Unit → Prop
  | empty : Tried topic handler none none (.error (.syntaxError "Kafka message payload is empty"))
  | notJson {raw : String} : Json.parse raw = none →
      Tried topic handler (some raw) none (.error (.syntaxError (texts.json raw)))
  | invalid {raw : String} {value : Json} : Json.parse raw = some value → parseMessageEnvelope topic value = none →
      Tried topic handler (some raw) none (.error (.zodError (texts.schema topic value)))
  | handled {raw : String} {value : Json} {m : Message} : Json.parse raw = some value →
      parseMessageEnvelope topic value = some m → Tried topic handler (some raw) (some m) (handler m)

theorem tried_exists (topic : Topic) (handler : UserHandler) (rawPayload : Option String) :
    ∃ m result, Tried texts topic handler rawPayload m result := by
  cases rawPayload with
  | none => exact ⟨_, _, .empty⟩
  | some raw =>
    cases hj : Json.parse raw with
    | none => exact ⟨_, _, .notJson hj⟩
    | some value =>
      cases hm : parseMessageEnvelope topic value with
      | none => exact ⟨_, _, .invalid hj hm⟩
      | some m => exact ⟨_, _, .handled hj hm⟩

theorem handleRecord_run {topic : Topic} {handler : UserHandler} {input : KafkaRecord} {m : Option Message}
    {result : Except Thrown Unit} (h : Tried texts topic handler input.rawPayload m result) (effects : Effects) :
    (handleRecord texts (createKafkaSubscription texts topic handler) input).run.run effects =
      (result.map fun _ => .processed, { effects with invoked := effects.invoked ++ m.toList }) := by
  unfold handleRecord
  generalize input.rawPayload = rawPayload at h
  cases h with
  | empty => simp only [Option.toList_none, List.append_nil]; rfl
  | notJson hj => simp only [parsePayload, hj, Option.toList_none, List.append_nil]; rfl
  | invalid hj hm =>
    simp only [parsePayload, createKafkaSubscription, hj, pure_bind, hm, Option.toList_none, List.append_nil]; rfl
  | @handled _ _ m hj hm =>
    simp only [parsePayload, createKafkaSubscription, callHandler, hj, pure_bind, hm]
    cases handler m with
    | ok => rfl
    | error e => rfl

/-! ## The classes of records -/

theorem deliverRecord_eq {topic : Topic} {handler : UserHandler} {publisher : Publisher} {now : Date}
    {input : KafkaRecord} {m : Option Message} {result : Except Thrown Unit}
    (h : Tried texts topic handler input.rawPayload m result) :
    deliverRecord texts topic handler publisher now input =
      match result with
      | .ok () => (.ok .processed, ⟨m.toList, []⟩)
      | .error e =>
        let record := deadLetterRecord topic input e now
        if e.permanent = true then
          ((publisher (deadLetterTopic topic) record).map fun _ => .deadLettered,
            ⟨m.toList, [(deadLetterTopic topic, record)]⟩)
        else (.error e, ⟨m.toList, []⟩) := by
  have hrun := handleRecord_run texts h ⟨[], []⟩
  unfold deliverRecord processKafkaRecord
  cases result with
  | ok => exact tryCatch_ok hrun _
  | error e =>
    rw [tryCatch_error hrun, handleError_run]
    rfl

inductive PermanentFailure (topic : Topic) (handler : UserHandler) : Option String → Prop
  | empty : PermanentFailure topic handler none
  | notJson {raw : String} : Json.parse raw = none → PermanentFailure topic handler (some raw)
  | invalid {raw : String} {value : Json} : Json.parse raw = some value → parseMessageEnvelope topic value = none →
      PermanentFailure topic handler (some raw)
  | handler {raw : String} {m : Message} {e : Thrown} : receive topic raw = some m → handler m = .error e →
      e.permanent = true → PermanentFailure topic handler (some raw)

/-- The handler of a record fails in a way that may pass. -/
def TransientFailure (topic : Topic) (handler : UserHandler) (rawPayload : Option String) : Prop :=
  ∃ raw m e, rawPayload = some raw ∧ receive topic raw = some m ∧ handler m = .error e ∧ e.permanent = false

/-- The record of a delivery is of one class, and the delivery does what its class asks for. -/
structure Classified (topic : Topic) (handler : UserHandler) (publisher : Publisher) (input : KafkaRecord)
    (result : Except Thrown RecordOutcome) (effects : Effects) : Prop where
  processed : result = .ok .processed ↔
    ∃ raw m, input.rawPayload = some raw ∧ receive topic raw = some m ∧ handler m = .ok ()
  deadLettered : result = .ok .deadLettered ↔ PermanentFailure topic handler input.rawPayload ∧
    ∃ record, effects.sent = [(deadLetterTopic topic, record)] ∧ publisher (deadLetterTopic topic) record = .ok ()
  threw : (∃ e, result = .error e) ↔ TransientFailure topic handler input.rawPayload ∨
    PermanentFailure topic handler input.rawPayload ∧
      ∃ record e, effects.sent = [(deadLetterTopic topic, record)] ∧
        publisher (deadLetterTopic topic) record = .error e
  silent : ¬ PermanentFailure topic handler input.rawPayload → effects.sent = []
  unchanged : ∀ sent ∈ effects.sent, sent.2.rawPayload = input.rawPayload ∧ sent.2.key = input.key ∧
    sent.2.partition = input.partition ∧ sent.2.offset = input.offset
  invoked : effects.invoked.length ≤ 1 ∧ ∀ m ∈ effects.invoked, messageEnvelopeSchema topic m = true

section
variable {texts} {topic : Topic} {handler : UserHandler} {rawPayload : Option String} {m : Option Message}
  {result : Except Thrown Unit} (h : Tried texts topic handler rawPayload m result)
include h

theorem Tried.received {raw : String} {x : Message} (hr : rawPayload = some raw) (hx : receive topic raw = some x) :
    result = handler x := by
  subst hr
  obtain ⟨value, hj, hv⟩ := Option.bind_eq_some_iff.mp hx
  cases h with
  | notJson hj' => rw [hj] at hj'; cases hj'
  | invalid hj' hv' => rw [hj] at hj'; cases hj'; rw [hv] at hv'; cases hv'
  | handled hj' hv' => rw [hj] at hj'; cases hj'; rw [hv] at hv'; cases hv'; rfl

theorem Tried.ok_iff : (∃ raw x, rawPayload = some raw ∧ receive topic raw = some x ∧ handler x = .ok ()) ↔
    result = .ok () := by
  constructor
  · intro hex
    obtain ⟨raw, x, hr, hx, hok⟩ := hex
    rw [h.received hr hx, hok]
  · intro hok
    cases h with
    | handled hj hv => exact ⟨_, _, rfl, Option.bind_eq_some_iff.mpr ⟨_, hj, hv⟩, hok⟩
    | _ => cases hok

theorem Tried.permanent_iff :
    PermanentFailure topic handler rawPayload ↔ ∃ e, result = .error e ∧ e.permanent = true := by
  constructor
  · intro hp
    cases hp with
    | empty => cases h; exact ⟨_, rfl, rfl⟩
    | notJson hj =>
      cases h with
      | notJson _ => exact ⟨_, rfl, rfl⟩
      | invalid hj' _ => rw [hj] at hj'; cases hj'
      | handled hj' _ => rw [hj] at hj'; cases hj'
    | invalid hj hv =>
      cases h with
      | notJson hj' => rw [hj] at hj'; cases hj'
      | invalid _ _ => exact ⟨_, rfl, rfl⟩
      | handled hj' hv' => rw [hj] at hj'; cases hj'; rw [hv] at hv'; cases hv'
    | handler hx he hp => exact ⟨_, (h.received rfl hx).trans he, hp⟩
  · intro hex
    obtain ⟨e, he, hp⟩ := hex
    cases h with
    | empty => exact .empty
    | notJson hj => exact .notJson hj
    | invalid hj hv => exact .invalid hj hv
    | handled hj hv => exact .handler (Option.bind_eq_some_iff.mpr ⟨_, hj, hv⟩) he hp

theorem Tried.transient_iff :
    TransientFailure topic handler rawPayload ↔ ∃ e, result = .error e ∧ e.permanent = false := by
  constructor
  · intro hex
    obtain ⟨raw, x, e, hr, hx, he, hp⟩ := hex
    exact ⟨e, (h.received hr hx).trans he, hp⟩
  · intro hex
    obtain ⟨e, he, hp⟩ := hex
    cases h with
    | handled hj hv => exact ⟨_, _, e, rfl, Option.bind_eq_some_iff.mpr ⟨_, hj, hv⟩, he, hp⟩
    | _ => cases he; cases hp

theorem Tried.schema : ∀ x ∈ m.toList, messageEnvelopeSchema topic x = true := by
  intro x hx
  cases h with
  | handled _ hv => rw [Option.toList_some, List.mem_singleton] at hx; subst hx; exact parse_schema hv
  | _ => cases hx

end

/-- Every delivery is of one class, whatever the payload, the handler and the publisher. -/
theorem deliverRecord_classified (topic : Topic) (handler : UserHandler) (publisher : Publisher) (now : Date)
    (input : KafkaRecord) :
    Classified topic handler publisher input (deliverRecord texts topic handler publisher now input).1
      (deliverRecord texts topic handler publisher now input).2 := by
  obtain ⟨m, result, h⟩ := tried_exists texts topic handler input.rawPayload
  have hinvoked : m.toList.length ≤ 1 ∧ ∀ x ∈ m.toList, messageEnvelopeSchema topic x = true := by
    refine ⟨?_, h.schema⟩
    cases m with
    | none => exact Nat.zero_le _
    | some x => exact Nat.le_refl _
  rw [deliverRecord_eq texts h]
  cases result with
  | ok u =>
    have hnot : ¬ PermanentFailure topic handler input.rawPayload := by
      rw [h.permanent_iff]; rintro ⟨e, he, _⟩; cases he
    have hnone : ¬ TransientFailure topic handler input.rawPayload := by
      rw [h.transient_iff]; rintro ⟨e, he, _⟩; cases he
    refine ⟨⟨fun _ => h.ok_iff.mpr rfl, fun _ => rfl⟩, ⟨?_, fun hp => absurd hp.1 hnot⟩,
      ⟨?_, fun hp => hp.elim (fun hp => absurd hp hnone) fun hp => absurd hp.1 hnot⟩, fun _ => rfl,
      fun s hs => (by cases hs), hinvoked⟩
    · intro e; cases e
    · intro hx
      obtain ⟨e, he⟩ := hx
      cases he
  | error e =>
    have hnot : ¬ ∃ raw x, input.rawPayload = some raw ∧ receive topic raw = some x ∧ handler x = .ok () := by
      rw [h.ok_iff]; exact fun e => by cases e
    cases hp : e.permanent with
    | true =>
      have hperm : PermanentFailure topic handler input.rawPayload := h.permanent_iff.mpr ⟨e, rfl, hp⟩
      have hnone : ¬ TransientFailure topic handler input.rawPayload := by
        rw [h.transient_iff]; rintro ⟨e', he, hp'⟩; cases he; rw [hp] at hp'; cases hp'
      set record := deadLetterRecord topic input e now with hrecord
      have hunchanged : ∀ s ∈ [(deadLetterTopic topic, record)], s.2.rawPayload = input.rawPayload ∧
          s.2.key = input.key ∧ s.2.partition = input.partition ∧ s.2.offset = input.offset := by
        intro s hs
        rw [List.mem_singleton] at hs
        subst hs; exact ⟨rfl, rfl, rfl, rfl⟩
      simp only [hp, if_true]
      cases hpub : publisher (deadLetterTopic topic) record with
      | ok u =>
        refine ⟨⟨fun e => (by cases e), fun hok => absurd hok hnot⟩,
          ⟨fun _ => ⟨hperm, record, rfl, hpub⟩, fun _ => rfl⟩,
          ⟨fun ⟨e, he⟩ => (by cases he), ?_⟩, fun hn => absurd hperm hn, hunchanged, hinvoked⟩
        intro hx
        rcases hx with ht | ⟨_, record', e', hsent, he'⟩
        · exact absurd ht hnone
        · cases hsent; rw [hpub] at he'; cases he'
      | error e' =>
        refine ⟨⟨fun e => (by cases e), fun hok => absurd hok hnot⟩, ⟨fun e => (by cases e), ?_⟩,
          ⟨fun _ => .inr ⟨hperm, record, e', rfl, hpub⟩, fun _ => ⟨e', rfl⟩⟩, fun hn => absurd hperm hn,
            hunchanged, hinvoked⟩
        intro hx
        obtain ⟨_, record', hsent, hok⟩ := hx
        cases hsent; rw [hpub] at hok; cases hok
    | false =>
      have hnperm : ¬ PermanentFailure topic handler input.rawPayload := by
        rw [h.permanent_iff]; rintro ⟨e', he, hp'⟩; cases he; rw [hp] at hp'; cases hp'
      simp only [hp, Bool.false_eq_true, if_false]
      exact ⟨⟨fun e => (by cases e), fun hok => absurd hok hnot⟩,
        ⟨fun e => (by cases e), fun hd => absurd hd.1 hnperm⟩,
        ⟨fun _ => .inl (h.transient_iff.mpr ⟨e, rfl, hp⟩), fun _ => ⟨e, rfl⟩⟩, fun _ => rfl,
          fun s hs => (by cases hs),
        hinvoked⟩

/-! ## A partition log -/

/-- A message as the consumer's client hands it over, its key and value decoded. -/
structure KafkaMessage where
  offset : String
  key : Option String
  value : Option String

def KafkaMessage.record (message : KafkaMessage) (partition : Nat) (clientId : String) : KafkaRecord :=
  ⟨message.value, partition, message.offset, message.key, clientId⟩

/-- Of two subscriptions of one topic the later counts. -/
def getSubscription (subscriptions : List KafkaSubscription) (topic : Topic) : Option KafkaSubscription :=
  subscriptions.reverse.find? fun s => s.topic = topic

def eachMessage (subscriptions : List KafkaSubscription) (publisher : Publisher) (now : Date) (clientId : String)
    (topic : Topic) (partition : Nat) (message : KafkaMessage) : Handling Unit :=
  match getSubscription subscriptions topic with
  | none => pure ()
  | some subscription => do
    let _ ← processKafkaRecord texts subscription publisher now (message.record partition clientId)

structure Surroundings where
  handlers : Topic → UserHandler
  publisher : Publisher
  now : Date

structure Assignment where
  topics : List Topic
  clientId : String
  topic : Topic
  partition : Nat
  subscribed : topic ∈ topics

def Assignment.deliver (a : Assignment) (message : KafkaMessage) (l : Surroundings) :
    Except Thrown Unit × Effects :=
  (eachMessage texts (a.topics.map fun topic => createKafkaSubscription texts topic (l.handlers topic))
    l.publisher l.now a.clientId a.topic a.partition message).run.run ⟨[], []⟩

def Assignment.consumer (a : Assignment) (log : List KafkaMessage) :
    Machine (PartitionLog.Consumer (Except Thrown Unit × Effects)) Surroundings :=
  PartitionLog.machine log (a.deliver texts) fun out => out.1.isOk

theorem getSubscription_map {topics : List Topic} {topic : Topic} (ht : topic ∈ topics)
    (handlers : Topic → UserHandler) :
    getSubscription (topics.map fun topic => createKafkaSubscription texts topic (handlers topic)) topic =
      some (createKafkaSubscription texts topic (handlers topic)) := by
  unfold getSubscription
  rw [← List.map_reverse, List.find?_map]
  have hfind : (topics.reverse.find? fun t => t = topic) = some topic := by
    cases hf : topics.reverse.find? fun t => t = topic with
    | none => exact absurd (decide_eq_true rfl) (List.find?_eq_none.mp hf topic (List.mem_reverse.mpr ht))
    | some t =>
      have ht : t = topic := by simpa using List.find?_some hf
      exact congrArg some ht
  exact (congrArg (Option.map _) hfind).trans rfl

theorem Assignment.deliver_eq (a : Assignment) (message : KafkaMessage) (l : Surroundings) :
    a.deliver texts message l =
      let d := deliverRecord texts a.topic (l.handlers a.topic) l.publisher l.now
        (message.record a.partition a.clientId)
      (d.1.map fun _ => (), d.2) := by
  unfold Assignment.deliver eachMessage
  rw [getSubscription_map texts a.subscribed]
  exact discard_run _ _

/-- What a consumer has made of a partition's log. -/
structure LogClassified (a : Assignment) (log : List KafkaMessage)
    (c : PartitionLog.Consumer (Except Thrown Unit × Effects)) : Prop where
  /-- each record before the current one has returned once, in order -/
  once : (c.deliveries.filter fun d => d.2.1.isOk).map Prod.fst = List.range c.position
  /-- and is not delivered again after that -/
  order : c.deliveries.Pairwise fun d d' => d.1 ≤ d'.1 ∧ (d.2.1.isOk = true → d.1 < d'.1)
  classified : ∀ d ∈ c.deliveries, ∃ message, ∃ l : Surroundings, ∃ result, log[d.1]? = some message ∧
    d.2.1 = result.map (fun _ => ()) ∧
    Classified a.topic (l.handlers a.topic) l.publisher (message.record a.partition a.clientId) result d.2.2

theorem consumer_classified (a : Assignment) (log : List KafkaMessage)
    {c : PartitionLog.Consumer (Except Thrown Unit × Effects)} (h : (a.consumer texts log).Reach c) :
    LogClassified a log c := by
  have hi := PartitionLog.inOrder_of_reach h
  refine ⟨hi.once, hi.order, fun d hd => ?_⟩
  obtain ⟨message, l, hm, hout⟩ := hi.made d hd
  rw [hout, a.deliver_eq texts]
  exact ⟨message, l, _, hm, rfl, deliverRecord_classified texts _ _ _ _ _⟩

/-- Every Kafka record ends in exactly one class, alone and in a log. -/
theorem every_record_classified :
    (∀ topic handler publisher now input, Classified topic handler publisher input
      (deliverRecord texts topic handler publisher now input).1
      (deliverRecord texts topic handler publisher now input).2) ∧
    ∀ (a : Assignment) log c, (a.consumer texts log).Reach c → LogClassified a log c :=
  ⟨deliverRecord_classified texts, fun a log _ h => consumer_classified texts a log h⟩

end

/-! ## A log with a poisoned record -/

def sampleTexts : ErrorTexts := ⟨fun _ => "Unexpected token", fun _ _ => "Invalid input"⟩

def eventService : Assignment := ⟨[.reserveSeats], "event-service", .reserveSeats, 2, by decide⟩

def validMessage : Message :=
  ⟨none, sampleText 1, sampleText 2, toISOString 0, 1, .reserveSeats ⟨sampleText 3, sampleText 4, sampleText 5, 1⟩⟩

def poisonedLog : List KafkaMessage :=
  [⟨"41", none, some "\x7bnot-json"⟩, ⟨"42", some "booking-key", some (Json.stringify validMessage.toJson)⟩]

def recovering : List Surroundings :=
  let unavailable : Except Thrown Unit := .error (.other "unavailable")
  [⟨fun _ _ => .ok (), fun _ _ => unavailable, 0⟩, ⟨fun _ _ => .ok (), fun _ _ => .ok (), 0⟩,
    ⟨fun _ _ => unavailable, fun _ _ => .ok (), 0⟩, ⟨fun _ _ => .ok (), fun _ _ => .ok (), 0⟩]

def deliveriesView (c : PartitionLog.Consumer (Except Thrown Unit × Effects)) : Nat × List (Nat × Nat × Nat) :=
  (c.position, c.deliveries.map fun d => (d.1, d.2.2.invoked.length, d.2.2.sent.length))

theorem poisoned_log_classified :
    ∃ c, (@Assignment.consumer zod4 sampleTexts eventService poisonedLog).run ⟨0, []⟩ recovering = some c ∧
      deliveriesView c = (2, [(0, 0, 1), (0, 0, 1), (1, 1, 0), (1, 1, 0)]) ∧
      @LogClassified zod4 eventService poisonedLog c := by
  have h : ((@Assignment.consumer zod4 sampleTexts eventService poisonedLog).run ⟨0, []⟩ recovering).map
      deliveriesView = some (2, [(0, 0, 1), (0, 0, 1), (1, 1, 0), (1, 1, 0)]) := by
    decide +kernel
  obtain ⟨c, hc, hview⟩ := Option.map_eq_some_iff.mp h
  exact ⟨c, hc, hview, (@every_record_classified zod4 sampleTexts).2 _ _ c (Machine.Reach.run (.start rfl) hc)⟩

end EventBooking
