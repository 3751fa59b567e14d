import EventBooking.Lib.Sessions
import EventBooking.Users
import EventBooking.Zod4

/-!
# Concurrent registrations

Any number of `POST /users` requests, one awaited statement at a time. Between
the look-up and the insert of one of them others may register the same address,
and any statement may be lost. The unique constraint makes each request enter a
registry at once or be refused by it at once.
-/

namespace EventBooking
open Lib

/-! ## Calls -/

inductive UserPhase
  | findByEmail (input : CreateUserInput)
  | create (input : CreateUserInput)
  | done (answer : Except AppError UserDto)
  deriving DecidableEq

structure UserCall where
  body : CreateUserInput
  id : RandomUUID
  phase : UserPhase
  deriving DecidableEq

structure UserCalls where
  db : UserDb
  calls : List UserCall

inductive UserLabel
  | createUser (body : CreateUserInput) (id : RandomUUID)
  | findByEmail (call : Nat)
  | create (call : Nat) (createdAt updatedAt : Date)
  | fault (call : Nat)
  | createLost (call : Nat) (createdAt updatedAt : Date)
  deriving DecidableEq

def CreateUserInput.row (input : CreateUserInput) (id : RandomUUID) (createdAt updatedAt : Date) : UserRow :=
  PrismaUserRepository.row ⟨input.name, normalEmail input.email⟩ id createdAt updatedAt

def UserPhase.failed (failure : UserFailure) : UserPhase := .done (.error (userErrorHandler failure))

namespace UserCalls

def empty : UserCalls := ⟨.empty, []⟩

def goto (s : UserCalls) (n : Nat) (c : UserCall) (phase : UserPhase) : UserCalls :=
  { s with calls := s.calls.set n { c with phase } }

def exec [ZodEmail] (s : UserCalls) : UserLabel → Option UserCalls
  | .createUser body id =>
    let phase := match createUserSchema body with
      | .error message => .failed (.zod message)
      | .ok input => .findByEmail input
    some { s with calls := s.calls ++ [⟨body, id, phase⟩] }
  | .findByEmail n =>
    s.calls[n]?.bind fun c =>
      match c.phase with
      | .findByEmail input =>
        match PrismaUserRepository.findByEmail (normalEmail input.email) s.db with
        | some _ => some (s.goto n c (.failed (.app UserErrors.duplicateEmail)))
        | none => some (s.goto n c (.create input))
      | _ => none
  | .create n createdAt updatedAt =>
    s.calls[n]?.bind fun c =>
      match c.phase with
      | .create input =>
        match s.db.insert (input.row c.id createdAt updatedAt) with
        | some db => some ({ s with db }.goto n c (.done (.ok (input.row c.id createdAt updatedAt).mapRow)))
        -- P2002, whichever of the two unique columns it is about
        | none => some (s.goto n c (.failed (.app UserErrors.duplicateEmail)))
      | _ => none
  | .fault n =>
    s.calls[n]?.bind fun c =>
      match c.phase with
      | .done _ => none
      | _ => some (s.goto n c (.failed (.db .unavailable)))
  | .createLost n createdAt updatedAt =>
    s.calls[n]?.bind fun c =>
      match c.phase with
      | .create input =>
        (s.db.insert (input.row c.id createdAt updatedAt)).map fun db =>
          { s with db }.goto n c (.failed (.db .unavailable))
      | _ => none

end UserCalls

def userCalls [ZodEmail] : Machine UserCalls UserLabel where
  start s := s = .empty
  exec := UserCalls.exec

/-! ## One step -/

inductive UserStep [ZodEmail] (s : UserCalls) : UserLabel → UserCalls → Prop
  | invalid {body : CreateUserInput} {id : RandomUUID} {message : String}
      (schema : createUserSchema body = .error message) :
      UserStep s (.createUser body id) { s with calls := s.calls ++ [⟨body, id, .failed (.zod message)⟩] }
  | begin {body input : CreateUserInput} {id : RandomUUID} (schema : createUserSchema body = .ok input) :
      UserStep s (.createUser body id) { s with calls := s.calls ++ [⟨body, id, .findByEmail input⟩] }
  | found {n : Nat} {c : UserCall} {input : CreateUserInput} {user : UserDto} (call : s.calls[n]? = some c)
      (phase : c.phase = .findByEmail input)
      (existing : PrismaUserRepository.findByEmail (normalEmail input.email) s.db = some user) :
      UserStep s (.findByEmail n) (s.goto n c (.failed (.app UserErrors.duplicateEmail)))
  | absent {n : Nat} {c : UserCall} {input : CreateUserInput} (call : s.calls[n]? = some c)
      (phase : c.phase = .findByEmail input)
      (existing : PrismaUserRepository.findByEmail (normalEmail input.email) s.db = none) :
      UserStep s (.findByEmail n) (s.goto n c (.create input))
  | created {n : Nat} {c : UserCall} {input : CreateUserInput} {createdAt updatedAt : Date} {db : UserDb}
      (call : s.calls[n]? = some c) (phase : c.phase = .create input)
      (insert : s.db.insert (input.row c.id createdAt updatedAt) = some db) :
      UserStep s (.create n createdAt updatedAt)
        ({ s with db }.goto n c (.done (.ok (input.row c.id createdAt updatedAt).mapRow)))
  | violated {n : Nat} {c : UserCall} {input : CreateUserInput} {createdAt updatedAt : Date}
      (call : s.calls[n]? = some c) (phase : c.phase = .create input)
      (insert : s.db.insert (input.row c.id createdAt updatedAt) = none) :
      UserStep s (.create n createdAt updatedAt) (s.goto n c (.failed (.app UserErrors.duplicateEmail)))
  | fault {n : Nat} {c : UserCall} (call : s.calls[n]? = some c) (phase : ∀ answer, c.phase ≠ .done answer) :
      UserStep s (.fault n) (s.goto n c (.failed (.db .unavailable)))
  | lost {n : Nat} {c : UserCall} {input : CreateUserInput} {createdAt updatedAt : Date} {db : UserDb}
      (call : s.calls[n]? = some c) (phase : c.phase = .create input)
      (insert : s.db.insert (input.row c.id createdAt updatedAt) = some db) :
      UserStep s (.createLost n createdAt updatedAt) ({ s with db }.goto n c (.failed (.db .unavailable)))

section
variable [ZodEmail] {s s' : UserCalls} {l : UserLabel}

theorem user_step (h : userCalls.exec s l = some s') : UserStep s l s' := by
  replace h : s.exec l = some s' := h
  cases l with
  | createUser body id =>
    obtain rfl := Option.some.inj h
    cases hs : createUserSchema body with
    | error message => exact .invalid hs
    | ok input => exact .begin hs
  | findByEmail n =>
    obtain ⟨c, hc, h⟩ := Option.bind_eq_some_iff.mp h
    cases hp : c.phase with
    | findByEmail input =>
      simp only [hp] at h
      split at h
      · rename_i user hf
        obtain rfl := Option.some.inj h
        exact .found hc hp hf
      · rename_i hf
        obtain rfl := Option.some.inj h
        exact .absent hc hp hf
    | _ => simp only [hp] at h; cases h
  | create n createdAt updatedAt =>
    obtain ⟨c, hc, h⟩ := Option.bind_eq_some_iff.mp h
    cases hp : c.phase with
    | create input =>
      simp only [hp] at h
      split at h
      · rename_i db hi
        obtain rfl := Option.some.inj h
        exact .created hc hp hi
      · rename_i hi
        obtain rfl := Option.some.inj h
        exact .violated hc hp hi
    | _ => simp only [hp] at h; cases h
  | fault n =>
    obtain ⟨c, hc, h⟩ := Option.bind_eq_some_iff.mp h
    have hopen : ∀ answer, c.phase ≠ .done answer := by
      intro answer hp
      simp only [hp] at h
      cases h
    cases hp : c.phase with
    | done answer => exact absurd hp (hopen answer)
    | _ =>
      simp only [hp] at h
      obtain rfl := Option.some.inj h
      exact .fault hc hopen
  | createLost n createdAt updatedAt =>
    obtain ⟨c, hc, h⟩ := Option.bind_eq_some_iff.mp h
    cases hp : c.phase with
    | create input =>
      simp only [hp] at h
      obtain ⟨db, hi, rfl⟩ := Option.map_eq_some_iff.mp h
      exact .lost hc hp hi
    | _ => simp only [hp] at h; cases h

end

/-! ## What a step does to the registry -/

abbrev UserKey := String × Uuid

def UserRow.userKey (row : UserRow) : UserKey := (row.email, row.id)

def UserCall.userKey (c : UserCall) : UserKey := (normalEmail c.body.email, c.id.val)

def sameUser (key : UserKey) (row : UserRow) : Bool := decide (row.email = key.1) || decide (row.id = key.2)

abbrev Users := registry UserRow.userKey sameUser

/-- The call that enters the registry or is refused by it in a step. -/
def registration (s : UserCalls) (l : UserLabel) (_ : UserCalls) : Option (RegistryOp UserRow UserKey) :=
  match l with
  | .createUser _ _ | .fault _ => none
  | .findByEmail n =>
    s.calls[n]?.bind fun c =>
      (PrismaUserRepository.findByEmail c.userKey.1 s.db).map fun _ => .refuse n c.userKey
  | .create n createdAt updatedAt | .createLost n createdAt updatedAt =>
    s.calls[n]?.bind fun c =>
      match c.phase with
      | .create input =>
        if (s.db.insert (input.row c.id createdAt updatedAt)).isSome then some (.enter n
          (input.row c.id createdAt updatedAt))
        else some (.refuse n c.userKey)
      | _ => none

theorem sameUser_iff {key : UserKey} {row : UserRow} :
    sameUser key row = true ↔ row.email = key.1 ∨ row.id = key.2 := by
  unfold sameUser
  rw [Bool.or_eq_true, decide_eq_true_eq, decide_eq_true_eq]

theorem sameUser_symm (x y : UserRow) (h : sameUser x.userKey y = true) : sameUser y.userKey x = true := by
  rw [sameUser_iff] at h ⊢
  exact h.imp Eq.symm Eq.symm

theorem user_fresh {db : UserDb} {row : UserRow} :
    db.Fresh row ↔ ∀ x ∈ db.rows, sameUser row.userKey x = false := by
  rw [Table.fresh_iff]
  refine forall_congr' fun x => imp_congr_right fun _ => ?_
  rw [← Bool.not_eq_true, sameUser_iff]
  unfold Table.Clash UserRow.userKey
  simp only [user_key, user_unique, Option.some.injEq, exists_eq_left']
  grind

theorem findByEmail_some {email : String} {db : UserDb} {user : UserDto}
    (h : PrismaUserRepository.findByEmail email db = some user) :
    ∃ row ∈ db.rows, row.email = normalEmail email := by
  obtain ⟨row, hf, _⟩ := Option.map_eq_some_iff.mp h
  exact ⟨row, List.mem_of_find?_eq_some hf, by simpa using List.find?_some hf⟩

theorem users_enter {n : Nat} {row : UserRow} {db db' : UserDb} (h : db.insert row = some db') :
    Users.run db.rows [.enter n row] = some db'.rows := by
  obtain ⟨hfresh, rfl⟩ := Table.insert_eq_some.mp h
  exact Machine.run_cons_some.mpr ⟨_, registry_enter.mpr ⟨user_fresh.mp hfresh, rfl⟩, rfl⟩

theorem users_refuse {n : Nat} {key : UserKey} {db : UserDb} (h : ∃ row ∈ db.rows, sameUser key row = true) :
    Users.run db.rows [.refuse n key] = some db.rows :=
  Machine.run_cons_some.mpr ⟨_, registry_refuse.mpr ⟨h, rfl⟩, rfl⟩

theorem validation_ne (message : String) : UserErrors.validation message ≠ UserErrors.duplicateEmail ∧
    UserErrors.validation message ≠ userErrorHandler (.db .unavailable) := by
  unfold UserErrors.validation UserErrors.duplicateEmail userErrorHandler
  simp

/-! ## The invariant -/

def CallSettled (c : UserCall) : RegistryOp UserRow UserKey → Prop
  | .enter _ row => row.userKey = c.userKey ∧ row.name = trim c.body.name ∧
      (c.phase = .done (.ok row.mapRow) ∨ c.phase = .failed (.db .unavailable))
  | .refuse _ key => key = c.userKey ∧ c.phase = .failed (.app UserErrors.duplicateEmail)

/-- The phase agrees with the request and with what the database made of it. -/
def Phased [ZodEmail] (log : List (RegistryOp UserRow UserKey)) (n : Nat) (c : UserCall) : Prop :=
  match c.phase with
  | .findByEmail input | .create input => createUserSchema c.body = .ok input
  | .done (.ok user) => (∃ input, createUserSchema c.body = .ok input) ∧ ∃ row, .enter n row ∈ log ∧
      row.mapRow = user
  | .done (.error e) =>
    (∃ message, createUserSchema c.body = .error message ∧ e = UserErrors.validation message) ∨
      ((∃ input, createUserSchema c.body = .ok input) ∧
        (e = userErrorHandler (.db .unavailable) ∨ (e = UserErrors.duplicateEmail ∧ .refuse n c.userKey ∈ log)))

structure Registered [ZodEmail] (s : UserCalls) (log : List (RegistryOp UserRow UserKey)) : Prop where
  run : Users.run [] log = some s.db.rows
  once : (log.map RegistryOp.call).Nodup
  settled : ∀ op ∈ log, ∃ c, s.calls[op.call]? = some c ∧ CallSettled c op
  phased : ∀ (n : Nat) c, s.calls[n]? = some c → Phased log n c

theorem registered_empty [ZodEmail] : Registered .empty [] :=
  ⟨rfl, List.nodup_nil, fun _ h => (by cases h), fun _ _ h => (by cases h)⟩

theorem CallSettled.done {c : UserCall} {op : RegistryOp UserRow UserKey} (h : CallSettled c op) :
    ∃ answer, c.phase = .done answer := by
  cases op with
  | enter call row =>
    rcases h.2.2 with hp | hp
    · exact ⟨_, hp⟩
    · exact ⟨_, hp⟩
  | refuse call key => exact ⟨_, h.2⟩

section
variable [ZodEmail] {s s' : UserCalls} {log ops : List (RegistryOp UserRow UserKey)} {n : Nat} {c : UserCall}

theorem Phased.mono (h : Phased log n c) : Phased (log ++ ops) n c := by
  unfold Phased at h ⊢
  cases hp : c.phase with
  | findByEmail input | create input => simp only [hp] at h ⊢; exact h
  | done answer =>
    cases answer with
    | ok user =>
      simp only [hp] at h ⊢
      obtain ⟨hschema, row, hrow, huser⟩ := h
      exact ⟨hschema, row, List.mem_append_left _ hrow, huser⟩
    | error e =>
      simp only [hp] at h ⊢
      exact h.imp_right fun h => ⟨h.1, h.2.imp_right fun h => ⟨h.1, List.mem_append_left _ h.2⟩⟩

theorem Registered.goto (h : Registered s log) (hn : s.calls[n]? = some c)
    (hopen : ∀ answer, c.phase ≠ .done answer)
    {db : UserDb} {phase : UserPhase} {op : Option (RegistryOp UserRow UserKey)}
    (hrun : Users.run s.db.rows op.toList = some db.rows)
    (hop : ∀ o, op = some o → o.call = n ∧ CallSettled { c with phase } o)
    (hphase : Phased (log ++ op.toList) n { c with phase }) :
    Registered ({ s with db }.goto n c phase) (log ++ op.toList) := by
  have hlt : n < s.calls.length := (List.getElem?_eq_some_iff.mp hn).1
  have hnew : ∀ o ∈ log, o.call ≠ n := by
    intro o ho e
    obtain ⟨x, hx, hsettled⟩ := h.settled o ho
    rw [e, hn] at hx
    obtain rfl := Option.some.inj hx
    obtain ⟨answer, hdone⟩ := hsettled.done
    exact hopen answer hdone
  refine ⟨?_, ?_, fun o ho => ?_, fun m x hx => ?_⟩
  · rw [Machine.run_append, h.run]; exact hrun
  · rw [List.map_append]
    refine List.nodup_append.mpr ⟨h.once, ?_, fun a ha b hb e => ?_⟩
    · cases op with
      | none => exact List.nodup_nil
      | some o => exact List.nodup_singleton _
    · obtain ⟨o, ho, rfl⟩ := List.mem_map.mp ha
      obtain ⟨o', ho', rfl⟩ := List.mem_map.mp hb
      exact hnew o ho (e.trans (hop o' (Option.mem_toList.mp ho')).1)
  · rcases List.mem_append.mp ho with ho | ho
    · obtain ⟨x, hx, hsettled⟩ := h.settled o ho
      exact ⟨x, (List.getElem?_set_ne (hnew o ho).symm).trans hx, hsettled⟩
    · obtain ⟨hcall, hsettled⟩ := hop o (Option.mem_toList.mp ho)
      exact ⟨_, by rw [hcall]; exact List.getElem?_set_self hlt, hsettled⟩
  · rcases getElem?_set_cases hx with ⟨rfl, rfl⟩ | ⟨_, hx⟩
    · exact hphase
    · exact (h.phased m x hx).mono

theorem Registered.begin (h : Registered s log) {call : UserCall} (hphase : ∀ n, Phased log n call) :
    Registered { s with calls := s.calls ++ [call] } log := by
  refine ⟨h.run, h.once, fun o ho => ?_, fun m x hx => ?_⟩
  · obtain ⟨x, hx, hsettled⟩ := h.settled o ho
    exact ⟨x, by rw [List.getElem?_append_left (List.getElem?_eq_some_iff.mp hx).1]; exact hx, hsettled⟩
  · rcases getElem?_append_cases hx with ⟨_, rfl⟩ | hm
    · exact hphase m
    · exact h.phased m x hm.2

theorem CreateUserInput.row_key {input : CreateUserInput} {createdAt updatedAt : Date}
    (h : createUserSchema c.body = .ok input) : (input.row c.id createdAt updatedAt).userKey = c.userKey ∧
      (input.row c.id createdAt updatedAt).name = trim c.body.name := by
  obtain ⟨hemail, hname⟩ := createUserSchema_normal h
  refine ⟨Prod.ext ?_ rfl, hname⟩
  show normalEmail (normalEmail input.email) = normalEmail c.body.email
  rw [hemail, normalEmail_idem, normalEmail_idem]

theorem Registered.accepted (h : Registered s log) (hn : s.calls[n]? = some c) {input : CreateUserInput}
    (hp : c.phase = .findByEmail input ∨ c.phase = .create input) : createUserSchema c.body = .ok input := by
  have hphased := h.phased n c hn
  unfold Phased at hphased
  rcases hp with hp | hp
  · simp only [hp] at hphased; exact hphased
  · simp only [hp] at hphased; exact hphased

theorem registered_step {l : UserLabel} (hs : UserStep s l s') (h : Registered s log) :
    Registered s' (log ++ (registration s l s').toList) := by
  cases hs with
  | invalid schema =>
    rw [show registration s _ _ = none from rfl, Option.toList_none, List.append_nil]
    exact h.begin fun n => .inl ⟨_, schema, rfl⟩
  | begin schema =>
    rw [show registration s _ _ = none from rfl, Option.toList_none, List.append_nil]
    exact h.begin fun n => schema
  | found call phase existing =>
    rename_i n c input user
    have hschema := h.accepted call (.inl phase)
    have hkey : normalEmail input.email = c.userKey.1 := by
      rw [(createUserSchema_normal hschema).1]; exact normalEmail_idem _
    have hop : registration s (.findByEmail n) (s.goto n c (.failed (.app UserErrors.duplicateEmail))) =
        some (.refuse n c.userKey) := by
      simp only [registration, call, Option.bind_some, ← hkey, existing]; rfl
    rw [hop]
    refine h.goto call (fun answer hp => by rw [phase] at hp; cases hp) (users_refuse ?_) ?_ ?_
    · obtain ⟨row, hrow, he⟩ := findByEmail_some existing
      refine ⟨row, hrow, sameUser_iff.mpr (.inl ?_)⟩
      rw [he, hkey]; exact normalEmail_idem _
    · intro o ho
      obtain rfl := Option.some.inj ho
      exact ⟨rfl, rfl, rfl⟩
    · exact .inr ⟨⟨input, hschema⟩, .inr ⟨rfl, List.mem_append_right _ List.mem_cons_self⟩⟩
  | absent call phase existing =>
    rename_i n c input
    have hschema := h.accepted call (.inl phase)
    have hkey : normalEmail input.email = c.userKey.1 := by
      rw [(createUserSchema_normal hschema).1]; exact normalEmail_idem _
    have hop : registration s (.findByEmail n) (s.goto n c (.create input)) = none := by
      simp only [registration, call, Option.bind_some, ← hkey, existing]; rfl
    rw [hop]
    exact h.goto call (fun answer hp => by rw [phase] at hp; cases hp) rfl (fun o ho => by cases ho) hschema
  | created call phase insert =>
    rename_i n c input createdAt updatedAt db
    have hschema := h.accepted call (.inr phase)
    obtain ⟨hkey, hname⟩ := @CreateUserInput.row_key _ c input createdAt updatedAt hschema
    have hop : registration s (.create n createdAt updatedAt)
        ({ s with db }.goto n c (.done (.ok (input.row c.id createdAt updatedAt).mapRow))) =
          some (.enter n (input.row c.id createdAt updatedAt)) := by
      simp only [registration, call, Option.bind_some, phase, insert]; rfl
    rw [hop]
    refine h.goto call (fun answer hp => by rw [phase] at hp; cases hp) (users_enter insert) ?_ ?_
    · intro o ho
      obtain rfl := Option.some.inj ho
      exact ⟨rfl, hkey, hname, .inl rfl⟩
    · exact ⟨⟨input, hschema⟩, _, List.mem_append_right _ List.mem_cons_self, rfl⟩
  | violated call phase insert =>
    rename_i n c input createdAt updatedAt
    have hschema := h.accepted call (.inr phase)
    obtain ⟨hkey, _⟩ := @CreateUserInput.row_key _ c input createdAt updatedAt hschema
    have hop : registration s (.create n createdAt updatedAt)
      (s.goto n c (.failed (.app UserErrors.duplicateEmail))) =
        some (.refuse n c.userKey) := by
      simp only [registration, call, Option.bind_some, phase, insert]; rfl
    rw [hop]
    refine h.goto call (fun answer hp => by rw [phase] at hp; cases hp) (users_refuse ?_) ?_ ?_
    · have hstale := Table.insert_eq_none.mp insert
      rw [user_fresh, hkey] at hstale
      simpa using hstale
    · intro o ho
      obtain rfl := Option.some.inj ho
      exact ⟨rfl, rfl, rfl⟩
    · exact .inr ⟨⟨input, hschema⟩, .inr ⟨rfl, List.mem_append_right _ List.mem_cons_self⟩⟩
  | fault call phase =>
    rename_i n c
    rw [show registration s _ _ = none from rfl]
    refine h.goto call phase rfl (fun o ho => by cases ho) (.inr ⟨?_, .inl rfl⟩)
    cases hp : c.phase with
    | findByEmail input => exact ⟨input, h.accepted call (.inl hp)⟩
    | create input => exact ⟨input, h.accepted call (.inr hp)⟩
    | done answer => exact absurd hp (phase answer)
  | lost call phase insert =>
    rename_i n c input createdAt updatedAt db
    have hschema := h.accepted call (.inr phase)
    obtain ⟨hkey, hname⟩ := @CreateUserInput.row_key _ c input createdAt updatedAt hschema
    have hop : registration s (.createLost n createdAt updatedAt)
      ({ s with db }.goto n c (.failed (.db .unavailable))) =
        some (.enter n (input.row c.id createdAt updatedAt)) := by
      simp only [registration, call, Option.bind_some, phase, insert]; rfl
    rw [hop]
    refine h.goto call (fun answer hp => by rw [phase] at hp; cases hp) (users_enter insert) ?_ ?_
    · intro o ho
      obtain rfl := Option.some.inj ho
      exact ⟨rfl, hkey, hname, .inr rfl⟩
    · exact .inr ⟨⟨input, hschema⟩, .inl rfl⟩

end

/-! ## Every run -/

section
variable [ZodEmail]

def registrations (ls : List UserLabel) : List (RegistryOp UserRow UserKey) :=
  userCalls.trace registration .empty ls

structure RegisteredOnce (ls : List UserLabel) (s : UserCalls) : Prop where
  atomic : Users.run [] (registrations ls) = some s.db.rows
  once : ((registrations ls).map RegistryOp.call).Nodup
  invalid : ∀ (n : Nat) c message, s.calls[n]? = some c → createUserSchema c.body = .error message →
    c.phase = .failed (.zod message) ∧ ∀ op ∈ registrations ls, op.call ≠ n
  created : ∀ (n : Nat) c user, s.calls[n]? = some c → c.phase = .done (.ok user) →
    (∃ row, .enter n row ∈ registrations ls ∧ row.mapRow = user) ∧ user.id = c.id.text ∧
      user.email = normalEmail c.body.email ∧ user.name = trim c.body.name ∧
      ∀ ls' s', userCalls.run s ls' = some s' → getUserById user.id s'.db = .ok user ∧
        ∀ email, normalEmail email = normalEmail c.body.email →
          PrismaUserRepository.findByEmail email s'.db = some user
  refused : ∀ (n : Nat) c, s.calls[n]? = some c → c.phase = .failed (.app UserErrors.duplicateEmail) →
    .refuse n c.userKey ∈ registrations ls ∧ ∃ row ∈ s.db.rows, row.email = normalEmail c.body.email ∨
      row.id = c.id.val
  winner : ∀ (n n' : Nat) c c' user user', s.calls[n]? = some c → s.calls[n']? = some c' →
    c.phase = .done (.ok user) → c'.phase = .done (.ok user') →
    normalEmail c.body.email = normalEmail c'.body.email → n = n'
  authored : ∀ row ∈ s.db.rows, ∃ (n : Nat) (c : UserCall), s.calls[n]? = some c ∧ row.userKey = c.userKey ∧
    row.name = trim c.body.name

theorem registered_run {s s' : UserCalls} {log : List (RegistryOp UserRow UserKey)} {ls : List UserLabel}
    (h : userCalls.Reach s) (hi : Registered s log) (hr : userCalls.run s ls = some s') :
    Registered s' (log ++ userCalls.trace registration s ls) :=
  Machine.run_traced (I := Registered) (C := fun _ _ => True)
    (fun _ _ _ _ _ _ he hi => registered_step (user_step he) hi) h
    (Machine.meets_of_forall (fun _ _ _ => trivial) _) hr hi

variable {s : UserCalls} {log : List (RegistryOp UserRow UserKey)} {n : Nat} {c : UserCall}

theorem Registered.entered (h : Registered s log) (hn : s.calls[n]? = some c) {row : UserRow}
    (hop : .enter n row ∈ log) :
    row ∈ s.db.rows ∧ row.userKey = c.userKey ∧ row.name = trim c.body.name := by
  obtain ⟨x, hx, hsettled⟩ := h.settled _ hop
  obtain rfl := Option.some.inj (hn.symm.trans hx)
  exact ⟨registry_entered h.run hop, hsettled.1, hsettled.2.1⟩

theorem Registered.of_ok (h : Registered s log) (hn : s.calls[n]? = some c) {user : UserDto}
    (hp : c.phase = .done (.ok user)) :
    (∃ input, createUserSchema c.body = .ok input) ∧ ∃ row, .enter n row ∈ log ∧ row.mapRow = user := by
  have hphased := h.phased n c hn
  unfold Phased at hphased
  simp only [hp] at hphased
  exact hphased

theorem Registered.of_error (h : Registered s log) (hn : s.calls[n]? = some c) {e : AppError}
    (hp : c.phase = .done (.error e)) :
    (∃ message, createUserSchema c.body = .error message ∧ e = UserErrors.validation message) ∨
      ((∃ input, createUserSchema c.body = .ok input) ∧
        (e = userErrorHandler (.db .unavailable) ∨
            (e = UserErrors.duplicateEmail ∧ .refuse n c.userKey ∈ log))) := by
  have hphased := h.phased n c hn
  unfold Phased at hphased
  simp only [hp] at hphased
  exact hphased

theorem Registered.invalid (h : Registered s log) (hn : s.calls[n]? = some c) {message : String}
    (hm : createUserSchema c.body = .error message) :
    c.phase = .failed (.zod message) ∧ ∀ op ∈ log, op.call ≠ n := by
  have hno : ∀ input, createUserSchema c.body ≠ .ok input := fun input e => by rw [hm] at e; cases e
  have hphase : c.phase = .failed (.zod message) := by
    cases hp : c.phase with
    | findByEmail input => exact absurd (h.accepted hn (.inl hp)) (hno input)
    | create input => exact absurd (h.accepted hn (.inr hp)) (hno input)
    | done answer =>
      cases answer with
      | ok user =>
        obtain ⟨⟨input, hi⟩, _⟩ := h.of_ok hn hp
        exact absurd hi (hno input)
      | error e =>
        rcases h.of_error hn hp with ⟨m, hm', rfl⟩ | ⟨⟨input, hi⟩, _⟩
        · rw [hm] at hm'
          rw [Except.error.inj hm']; rfl
        · exact absurd hi (hno input)
  refine ⟨hphase, ?_⟩
  rintro op hop rfl
  obtain ⟨x, hx, hsettled⟩ := h.settled op hop
  obtain rfl := Option.some.inj (hn.symm.trans hx)
  -- the answer to an invalid request is none of those a registration leads to
  cases op with
  | enter call row =>
    rcases hsettled.2.2 with hp | hp
    · rw [hp] at hphase; cases hphase
    · exact (validation_ne message).2 (Except.error.inj (UserPhase.done.inj (hphase.symm.trans hp)))
  | refuse call key =>
    exact (validation_ne message).1 (Except.error.inj (UserPhase.done.inj (hphase.symm.trans hsettled.2)))

/-- Whatever the calls, their interleaving and what is lost of their statements. -/
theorem registered_once {ls : List UserLabel} (hr : userCalls.run .empty ls = some s) : RegisteredOnce ls s := by
  have hstart : userCalls.Reach .empty := .start rfl
  have hi : Registered s (registrations ls) := by
    have := registered_run hstart registered_empty hr
    rwa [List.nil_append] at this
  refine ⟨hi.run, hi.once, fun n c message hn hm => hi.invalid hn hm, fun n c user hn hp => ?_, fun n c hn hp => ?_,
    fun n n' c c' user user' hn hn' hp hp' he => ?_, fun row hrow => ?_⟩
  · obtain ⟨_, row, hop, rfl⟩ := hi.of_ok hn hp
    obtain ⟨_, hkey, hname⟩ := hi.entered hn hop
    have hid : row.id.text = c.id.text := congrArg (fun key : UserKey => key.2.text) hkey
    have hemail : row.email = normalEmail c.body.email := congrArg Prod.fst hkey
    refine ⟨⟨row, hop, rfl⟩, hid, hemail, hname, fun ls' s' hr' => ?_⟩
    have hi' := registered_run (Machine.Reach.run hstart hr) hi hr'
    have hrow := registry_entered hi'.run (List.mem_append_left _ hop)
    exact ⟨getUserById_mem hrow, fun email he => findByEmail_mem hrow (hemail.trans he.symm)⟩
  · have hop : .refuse n c.userKey ∈ registrations ls := by
      rcases hi.of_error hn hp with ⟨message, _, he⟩ | ⟨_, he | ⟨_, hop⟩⟩
      · exact absurd he.symm (validation_ne message).1
      · exact absurd (congrArg AppError.code he) (by decide)
      · exact hop
    obtain ⟨row, hrow, hsame⟩ := registry_refused hi.run hop
    have hclash := sameUser_iff.mp hsame
    exact ⟨hop, row, hrow, hclash⟩
  · obtain ⟨_, row, hop, _⟩ := hi.of_ok hn hp
    obtain ⟨_, row', hop', _⟩ := hi.of_ok hn' hp'
    obtain ⟨_, hkey, _⟩ := hi.entered hn hop
    obtain ⟨_, hkey', _⟩ := hi.entered hn' hop'
    have hemail : row.email = normalEmail c.body.email := congrArg Prod.fst hkey
    have hemail' : row'.email = normalEmail c'.body.email := congrArg Prod.fst hkey'
    have hsame : sameUser row.userKey row' = true :=
      sameUser_iff.mpr (.inl (hemail'.trans (he.symm.trans hemail.symm)))
    exact registry_entered_inj sameUser_symm hi.run hop hop' hsame
  · rw [registry_members hi.run, List.nil_append] at hrow
    obtain ⟨op, hop, hmember⟩ := List.mem_filterMap.mp hrow
    obtain ⟨c, hc, hsettled⟩ := hi.settled op hop
    cases op with
    | enter call member =>
      obtain rfl := Option.some.inj hmember
      exact ⟨call, c, hc, hsettled.1, hsettled.2.1⟩
    | refuse call key => cases hmember

end

/-! ## A run with a race -/

def letters : List Char := "ABCDEFGHIJKLMNOPQRSTUVWXYZabcdefghijklmnopqrstuvwxyz".toList

/-- The expression of `z.string().email()`: no dot begins or follows a dot in front of the sign. -/
def zodEmail (s : String) : Bool :=
  match s.toList.splitOn '@' with
  | [name, domain] =>
    let labels := domain.splitOn '.'
    (name.splitOn '.').all (fun part => part ≠ [] && part.all (letters ++ decimal ++ "_'+-".toList).contains) &&
      name.getLast? ≠ some '\'' && 2 ≤ labels.length && 2 ≤ (labels.getLastD []).length &&
      (labels.getLastD []).all letters.contains && labels.dropLast.all fun label =>
        (label.head?.any (letters ++ decimal).contains) && label.all (letters ++ decimal ++ ['-']).contains
  | _ => false

@[reducible] def zodEmail4 : ZodEmail := ⟨zodEmail⟩

example : ["a.b@example.com", ".a@example.com", "a..b@example.com", "a'@example.com", "a@b@c.de",
    "a@example.c"].map zodEmail = [true, false, false, false, false, false] := by decide +kernel

def sampleRegistrations : List UserLabel :=
  [.createUser ⟨"John Doe", "  User@Example.com "⟩ (sample 1),
   .createUser ⟨"Jane Doe", "user@example.com"⟩ (sample 2),
   .createUser ⟨"Jack Doe", "not-an-email"⟩ (sample 3), .findByEmail 1, .findByEmail 0, .create 0 5 5,
     .create 1 6 6]

theorem registered_once_race : ∃ s, (@userCalls zodEmail4).run .empty sampleRegistrations = some s ∧
    s.calls.map (·.phase) =
      [.done (.ok ⟨sampleText 1, "John Doe", "user@example.com", toISOString 5, toISOString 5⟩),
        .failed (.app UserErrors.duplicateEmail), .failed (.zod "Email must be valid")] ∧
    @RegisteredOnce zodEmail4 sampleRegistrations s := by
  have h : ((@userCalls zodEmail4).run .empty sampleRegistrations).map (fun s => s.calls.map (·.phase)) =
      some [.done (.ok ⟨sampleText 1, "John Doe", "user@example.com", toISOString 5, toISOString 5⟩),
        .failed (.app UserErrors.duplicateEmail), .failed (.zod "Email must be valid")] := by
    decide +kernel
  obtain ⟨s, hs, hview⟩ := Option.map_eq_some_iff.mp h
  exact ⟨s, hs, hview, @registered_once zodEmail4 s sampleRegistrations hs⟩

end EventBooking
