import EventBooking.Lib.Machine

/-!
# Registries

The atomic form of looking a key up and inserting it. A candidate is entered
when it clashes with no member and refused when it does. Members are never
removed, and two of them never clash.
-/

namespace Lib

inductive RegistryOp (α κ : Type)
  | enter (call : Nat) (member : α)
  | refuse (call : Nat) (candidate : κ)
  deriving DecidableEq

def RegistryOp.call {α κ : Type} : RegistryOp α κ → Nat
  | .enter call _ | .refuse call _ => call

def RegistryOp.member? {α κ : Type} : RegistryOp α κ → Option α
  | .enter _ member => some member
  | .refuse _ _ => none

section
variable {α κ : Type} (candidate : α → κ) (clash : κ → α → Bool)

def Registry.exec (members : List α) : RegistryOp α κ → Option (List α)
  | .enter _ member => if members.any (clash (candidate member)) then none else some (members ++ [member])
  | .refuse _ candidate => if members.any (clash candidate) then some members else none

def registry : Machine (List α) (RegistryOp α κ) where
  start members := members = []
  exec := Registry.exec candidate clash

variable {candidate clash} {members members' : List α}

theorem registry_enter {call : Nat} {member : α} :
    (registry candidate clash).exec members (.enter call member) = some members' ↔
      (∀ x ∈ members, clash (candidate member) x = false) ∧ members' = members ++ [member] := by
  show (if members.any (clash (candidate member)) = true then none else some (members ++ [member])) =
    some members' ↔ _
  rw [Option.ite_none_left_eq_some, Bool.not_eq_true, List.any_eq_false, Option.some.injEq, eq_comm (b := members')]
  simp only [Bool.not_eq_true]

theorem registry_refuse {call : Nat} {k : κ} :
    (registry candidate clash).exec members (.refuse call k) = some members' ↔
      (∃ x ∈ members, clash k x = true) ∧ members' = members := by
  show (if members.any (clash k) = true then some members else none) = some members' ↔ _
  rw [guard_eq_some, List.any_eq_true, eq_comm (b := members')]

theorem registry_members {ops : List (RegistryOp α κ)}
    (h : (registry candidate clash).run members ops = some members') :
    members' = members ++ ops.filterMap RegistryOp.member? := by
  induction ops generalizing members with
  | nil =>
    simp only [Machine.run_nil, Option.some.injEq] at h
    rw [← h]; exact (List.append_nil _).symm
  | cons op ops ih =>
    obtain ⟨m, he, hr⟩ := Machine.run_cons_some.mp h
    rw [ih hr]
    cases op with
    | enter call member =>
      obtain ⟨_, rfl⟩ := registry_enter.mp he
      rw [List.append_assoc]; rfl
    | refuse call k =>
      obtain ⟨_, rfl⟩ := registry_refuse.mp he
      rfl

theorem registry_entered {ops : List (RegistryOp α κ)} {call : Nat} {member : α}
    (h : (registry candidate clash).run members ops = some members') (hop : .enter call member ∈ ops) :
    member ∈ members' := by
  rw [registry_members h]
  exact List.mem_append_right _ (List.mem_filterMap.mpr ⟨_, hop, rfl⟩)

theorem registry_refused {ops : List (RegistryOp α κ)} {call : Nat} {k : κ}
    (h : (registry candidate clash).run members ops = some members') (hop : .refuse call k ∈ ops) :
    ∃ member ∈ members', clash k member = true := by
  obtain ⟨pre, post, rfl⟩ := List.append_of_mem hop
  rw [Machine.run_append] at h
  obtain ⟨m, _, h⟩ := Option.bind_eq_some_iff.mp h
  obtain ⟨m', he, h⟩ := Machine.run_cons_some.mp h
  obtain ⟨⟨member, hmem, hclash⟩, rfl⟩ := registry_refuse.mp he
  rw [registry_members h]
  exact ⟨member, List.mem_append_left _ hmem, hclash⟩

theorem registry_entered_fresh {ops : List (RegistryOp α κ)} {call : Nat} {member : α}
    (h : (registry candidate clash).run members ops = some members') (hop : .enter call member ∈ ops) :
    ∀ x ∈ members, clash (candidate member) x = false := by
  obtain ⟨pre, post, rfl⟩ := List.append_of_mem hop
  rw [Machine.run_append] at h
  obtain ⟨m, hpre, h⟩ := Option.bind_eq_some_iff.mp h
  obtain ⟨m', he, h⟩ := Machine.run_cons_some.mp h
  intro x hx
  refine (registry_enter.mp he).1 x ?_
  rw [registry_members hpre]; exact List.mem_append_left _ hx

/-- Of two that clash only one is entered, and only once. -/
theorem registry_entered_inj (hsymm : ∀ x y, clash (candidate x) y = true → clash (candidate y) x = true)
    {ops : List (RegistryOp α κ)} (h : (registry candidate clash).run members ops = some members')
    {call call' : Nat} {x x' : α} (hop : .enter call x ∈ ops) (hop' : .enter call' x' ∈ ops)
    (hclash : clash (candidate x) x' = true) :
    call = call' := by
  induction ops generalizing members with
  | nil => cases hop
  | cons op ops ih =>
    obtain ⟨m, he, hr⟩ := Machine.run_cons_some.mp h
    rcases List.mem_cons.mp hop with rfl | hin
    · obtain ⟨_, rfl⟩ := registry_enter.mp he
      rcases List.mem_cons.mp hop' with heq | hin'
      · cases heq; rfl
      · have := registry_entered_fresh hr hin' x (List.mem_append_right _ List.mem_cons_self)
        rw [hsymm x x' hclash] at this; cases this
    · rcases List.mem_cons.mp hop' with rfl | hin'
      · obtain ⟨_, rfl⟩ := registry_enter.mp he
        have := registry_entered_fresh hr hin x' (List.mem_append_right _ List.mem_cons_self)
        rw [hclash] at this; cases this
      · exact ih hr hin hin'

end

end Lib
