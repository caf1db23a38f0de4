import Mathlib.Algebra.Order.Field.Basic
import Mathlib.Data.Bool.Count
import Mathlib.Tactic.Linarith
import Mathlib.Tactic.Ring

/-!
# Token buckets

A bucket grants a request for a token, if it has one.
-/

namespace Signer.TokenBucket

variable {K : Type} [LinearOrder K]

/-- A request for a token, and what the bucket holds after it. -/
structure Request (K : Type) where
  time : K
  granted : Bool
  left : K

def Request.isGranted (first last : K) (r : Request K) : Bool :=
  r.granted && decide (first ≤ r.time) && decide (r.time ≤ last)

/-- How many requests of an interval were granted. -/
def granted (first last : K) (requests : List (Request K)) : ℕ :=
  requests.countP (Request.isGranted first last)

variable {first last : K} {r : Request K} {requests : List (Request K)}

theorem granted_cons : granted first last (r :: requests) =
    granted first last requests + if r.isGranted first last then 1 else 0 :=
  List.countP_cons

theorem isGranted_of_not_mem (h : ¬(first ≤ r.time ∧ r.time ≤ last)) :
    r.isGranted first last = false := by
  rw [not_and_or] at h
  unfold Request.isGranted
  rcases h with h | h <;> simp [h]

variable [Field K]

def Request.cost (r : Request K) : K := if r.granted then 1 else 0

/-- The bucket never holds more than its capacity, and between two requests gains at most what flows
in. -/
structure Metered (capacity rate : K) (requests : List (Request K)) : Prop where
  left_nonneg : ∀ r ∈ requests, 0 ≤ r.left
  le_capacity : ∀ r ∈ requests, r.left + r.cost ≤ capacity
  chain : requests.IsChain fun a b =>
    a.time ≤ b.time ∧ b.left + b.cost ≤ a.left + rate * (b.time - a.time)

variable {capacity rate : K}

theorem Metered.tail (h : Metered capacity rate (r :: requests)) :
    Metered capacity rate requests where
  left_nonneg := fun a ha => h.left_nonneg a (List.mem_cons_of_mem _ ha)
  le_capacity := fun a ha => h.le_capacity a (List.mem_cons_of_mem _ ha)
  chain := h.chain.tail

theorem Metered.snoc (h : Metered capacity rate requests) (hleft : 0 ≤ r.left)
    (hcapacity : r.left + r.cost ≤ capacity)
    (hlast : ∀ a ∈ requests.getLast?, a.time ≤ r.time ∧
      r.left + r.cost ≤ a.left + rate * (r.time - a.time)) :
    Metered capacity rate (requests ++ [r]) where
  left_nonneg := by
    intro a ha
    rcases List.mem_append.mp ha with ha | ha
    · exact h.left_nonneg a ha
    · rwa [List.mem_singleton.mp ha]
  le_capacity := by
    intro a ha
    rcases List.mem_append.mp ha with ha | ha
    · exact h.le_capacity a ha
    · rwa [List.mem_singleton.mp ha]
  chain := by
    rw [List.isChain_append]
    refine ⟨h.chain, List.isChain_singleton r, fun a ha b hb => ?_⟩
    obtain rfl : r = b := by simpa using hb
    exact hlast a ha

theorem Metered.time_le (h : Metered capacity rate (r :: requests)) :
    ∀ a ∈ requests, r.time ≤ a.time := by
  induction requests generalizing r with
  | nil => simp
  | cons b requests ih =>
    have hfirst := (List.isChain_cons_cons.mp h.chain).1.1
    intro a ha
    rcases List.mem_cons.mp ha with rfl | hrest
    · exact hfirst
    · exact hfirst.trans (ih h.tail a hrest)

variable [IsStrictOrderedRing K]

theorem Request.isGranted_le_cost (r : Request K) (first last : K) :
    ((if r.isGranted first last then 1 else 0 : ℕ) : K) ≤ r.cost := by
  unfold Request.isGranted Request.cost
  cases r.granted
  · simp
  · split <;> simp

theorem Metered.granted_tail_le (h : Metered capacity rate (r :: requests)) (hrate : 0 ≤ rate)
    (hlast : r.time ≤ last) :
    (granted first last requests : K) ≤ r.left + rate * (last - r.time) := by
  induction requests generalizing r with
  | nil =>
    have hleft := h.left_nonneg r List.mem_cons_self
    have hflow := mul_nonneg hrate (sub_nonneg.mpr hlast)
    simp only [granted, List.countP_nil, Nat.cast_zero]
    linarith
  | cons b requests ih =>
    obtain ⟨htime, hleft⟩ := (List.isChain_cons_cons.mp h.chain).1
    rw [granted_cons]
    by_cases hb : b.time ≤ last
    · have hrest := ih h.tail hb
      have hcost := b.isGranted_le_cost first last
      push_cast at hcost ⊢
      linarith [mul_sub rate last b.time, mul_sub rate b.time r.time, mul_sub rate last r.time]
    · -- everything from here on is too late
      have hnone : granted first last requests = 0 := by
        rw [granted, List.countP_eq_zero]
        intro a ha
        have hlate := h.tail.time_le a ha
        rw [isGranted_of_not_mem fun hin => hb (hlate.trans hin.2)]
        simp
      have hr := h.left_nonneg r List.mem_cons_self
      have hflow := mul_nonneg hrate (sub_nonneg.mpr hlast)
      rw [hnone, isGranted_of_not_mem fun hin => hb hin.2]
      simp only [Bool.false_eq_true, if_false, Nat.add_zero, Nat.cast_zero]
      linarith

/-- In an interval no more is granted than the capacity and what can flow in meanwhile. -/
theorem Metered.granted_le (h : Metered capacity rate requests) (hcapacity : 0 ≤ capacity)
    (hrate : 0 ≤ rate) (hinterval : first ≤ last) :
    (granted first last requests : K) ≤ capacity + rate * (last - first) := by
  have hflow := mul_nonneg hrate (sub_nonneg.mpr hinterval)
  induction requests with
  | nil =>
    simp only [granted, List.countP_nil, Nat.cast_zero]
    linarith
  | cons r requests ih =>
    rw [granted_cons]
    by_cases hr : first ≤ r.time ∧ r.time ≤ last
    · have hrest : (granted first last requests : K) ≤ r.left + rate * (last - r.time) :=
        h.granted_tail_le hrate hr.2
      have hleft := h.le_capacity r List.mem_cons_self
      have hcost := r.isGranted_le_cost first last
      have hlater := mul_le_mul_of_nonneg_left (sub_le_sub_left hr.1 last) hrate
      push_cast at hcost ⊢
      linarith
    · have hrest := ih h.tail
      simpa [isGranted_of_not_mem hr] using hrest

end Signer.TokenBucket
