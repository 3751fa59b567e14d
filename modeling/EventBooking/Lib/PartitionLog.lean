import EventBooking.Lib.Machine

/-!
# A log consumed in order with redelivery

A consumer stands at one record of a log. A delivery that is done moves it to the
next record, any other delivery leaves it where it stands to be made again.
-/

namespace Lib

namespace PartitionLog

variable {ρ ω ℓ : Type}

structure Consumer (ω : Type) where
  position : Nat
  deliveries : List (Nat × ω)

def Consumer.deliver (done : ω → Bool) (c : Consumer ω) (out : ω) : Consumer ω where
  position := if done out then c.position + 1 else c.position
  deliveries := c.deliveries ++ [(c.position, out)]

/-- What a delivery comes to depends on the record and on what happens during it. -/
def machine (log : List ρ) (outcome : ρ → ℓ → ω) (done : ω → Bool) : Machine (Consumer ω) ℓ where
  start c := c = ⟨0, []⟩
  exec c l := log[c.position]?.map fun r => c.deliver done (outcome r l)

/-- Every record before the consumer's position is done once, and none is passed over. -/
structure InOrder (log : List ρ) (outcome : ρ → ℓ → ω) (done : ω → Bool) (c : Consumer ω) : Prop where
  made : ∀ d ∈ c.deliveries, ∃ r l, log[d.1]? = some r ∧ d.2 = outcome r l
  order : c.deliveries.Pairwise fun a b => a.1 ≤ b.1 ∧ (done a.2 = true → a.1 < b.1)
  bound : ∀ d ∈ c.deliveries, d.1 ≤ c.position ∧ (done d.2 = true → d.1 < c.position)
  once : (c.deliveries.filter fun d => done d.2).map Prod.fst = List.range c.position

variable {log : List ρ} {outcome : ρ → ℓ → ω} {done : ω → Bool} {c c' : Consumer ω}

theorem exec_eq_some {l : ℓ} :
    (machine log outcome done).exec c l = some c' ↔ ∃ r, log[c.position]? = some r ∧ c' = c.deliver done
    (outcome r l) := by
  unfold machine
  rw [Option.map_eq_some_iff]
  constructor
  · rintro ⟨r, hr, e⟩; exact ⟨r, hr, e.symm⟩
  · rintro ⟨r, hr, e⟩; exact ⟨r, hr, e.symm⟩

theorem InOrder.deliver (h : InOrder log outcome done c) {r : ρ} (hr : log[c.position]? = some r) (l : ℓ) :
    InOrder log outcome done (c.deliver done (outcome r l)) where
  made := by
    intro d hd
    rcases List.mem_append.mp hd with hd | hd
    · exact h.made d hd
    · rw [List.mem_singleton] at hd
      subst hd; exact ⟨r, l, hr, rfl⟩
  order := by
    refine List.pairwise_append.mpr ⟨h.order, List.pairwise_singleton _ _, fun a ha b hb => ?_⟩
    rw [List.mem_singleton] at hb
    subst hb; exact h.bound a ha
  bound := by
    intro d hd
    unfold Consumer.deliver
    rcases List.mem_append.mp hd with hd | hd
    · obtain ⟨hle, hlt⟩ := h.bound d hd
      by_cases hdone : done (outcome r l) = true
      · rw [if_pos hdone]; exact ⟨Nat.le_succ_of_le hle, fun e => Nat.lt_succ_of_lt (hlt e)⟩
      · rw [if_neg hdone]; exact ⟨hle, hlt⟩
    · rw [List.mem_singleton] at hd
      subst hd
      by_cases hdone : done (outcome r l) = true
      · rw [if_pos hdone]
        show c.position ≤ c.position + 1 ∧ (_ → c.position < c.position + 1)
        omega
      · rw [if_neg hdone]; exact ⟨Nat.le_refl _, fun e => absurd e hdone⟩
  once := by
    unfold Consumer.deliver
    rw [List.filter_append, List.map_append, h.once]
    by_cases hdone : done (outcome r l) = true
    · rw [List.filter_cons_of_pos (by exact hdone), if_pos hdone, List.range_succ]; rfl
    · rw [List.filter_cons_of_neg (by exact hdone), if_neg hdone]; exact List.append_nil _

theorem inOrder_of_reach (h : (machine log outcome done).Reach c) : InOrder log outcome done c := by
  refine h.inv (fun s hs => ?_) fun s l s' _ hi he => ?_
  · cases hs
    exact ⟨fun d hd => (by cases hd), List.Pairwise.nil, fun d hd => (by cases hd), rfl⟩
  · obtain ⟨r, hr, rfl⟩ := exec_eq_some.mp he
    exact hi.deliver hr l

/-! ## Several partitions -/

section
variable {ι : Type} {partitions : Finset ι} {length length' position position' : ι → Nat} {i : ι}

def lag (partitions : Finset ι) (length position : ι → Nat) : Nat := ∑ i ∈ partitions, (length i - position i)

theorem lag_append [DecidableEq ι] (h : ∀ j, length' j ≤ length j + if j = i then 1 else 0) :
    lag partitions length' position ≤ lag partitions length position + 1 := by
  unfold lag
  calc ∑ j ∈ partitions, (length' j - position j)
      ≤ ∑ j ∈ partitions, (length j - position j + if j = i then 1 else 0) :=
        Finset.sum_le_sum fun j _ => by have := h j; omega
    _ ≤ ∑ j ∈ partitions, (length j - position j) + 1 := by
        rw [Finset.sum_add_distrib, Finset.sum_ite_eq']
        split <;> omega

theorem lag_advance (hi : i ∈ partitions) (hlt : position i < length i) (hmoved : position i < position' i)
    (hsame : ∀ j, j ≠ i → position' j = position j) :
    lag partitions length position' < lag partitions length position := by
  refine Finset.sum_lt_sum (fun j _ => ?_) ⟨i, hi, by omega⟩
  by_cases hj : j = i
  · rw [hj]; omega
  · rw [hsame j hj]

end

end PartitionLog

end Lib
