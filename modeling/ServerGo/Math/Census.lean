/-
# What the places of a system amount to

A system of finitely many places changes the state of one of them at a time. What all
places weigh together, and in particular the number of those whose state counts,
changes with that place alone, so that what is in flight can be kept in an account.
-/

import Mathlib.Algebra.BigOperators.Group.Finset.Piecewise
import Mathlib.Algebra.Order.BigOperators.Group.Finset

namespace ServerGo.Math

universe u v

variable {W : Type u} {A : Type v} [Fintype W]

/-- What the states of all places weigh together. -/
def total (weight : A → Nat) (state : W → A) : Nat := ∑ place, weight (state place)

/-- The place that changes no longer weighs what it did, but what it does. -/
theorem total_update [DecidableEq W] (weight : A → Nat) (state : W → A) (place : W) (next : A) :
    total weight (Function.update state place next) + weight (state place) =
      total weight state + weight next := by
  have hothers : ∀ other ∈ Finset.univ.erase place,
      weight (Function.update state place next other) = weight (state other) :=
    fun other hother => by rw [Function.update_of_ne (Finset.ne_of_mem_erase hother)]
  rw [total, total, ← Finset.add_sum_erase _ _ (Finset.mem_univ place),
    ← Finset.add_sum_erase _ _ (Finset.mem_univ place), Finset.sum_congr rfl hothers,
    Function.update_self]
  omega

/-- Places that weigh no more than so much each. -/
theorem total_le {weight : A → Nat} {bound : Nat} (hweight : ∀ place, weight place ≤ bound)
    (state : W → A) : total weight state ≤ bound * Fintype.card W := by
  calc
    total weight state ≤ ∑ _place : W, bound :=
      Finset.sum_le_sum fun place _ => hweight (state place)
    _ = bound * Fintype.card W := by
      rw [Finset.sum_const_nat fun _ _ => rfl, Finset.card_univ, Nat.mul_comm]

/-- How many places are in a state that counts. -/
def census (counts : A → Bool) (state : W → A) : Nat :=
  total (fun place => (counts place).toNat) state

/-- The place that changes stops counting for what it was, and counts for what it
is. -/
theorem census_update [DecidableEq W] (counts : A → Bool) (state : W → A) (place : W) (next : A) :
    census counts (Function.update state place next) + (counts (state place)).toNat =
      census counts state + (counts next).toNat :=
  total_update (fun place => (counts place).toNat) state place next

end ServerGo.Math
