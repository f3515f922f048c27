import Mathlib.Algebra.Order.Ring.Rat
import Mathlib.Tactic.Linarith
import Mathlib.Tactic.Ring

/-!
# WebServer.Lib.Bucket

Token buckets with exact tokens, and what can be spent from one between two times.

A bucket holds at most `capacity` tokens and gains `rate` of them in a unit of time. `Account` keeps
the books from a time `s` on: what has been spent and what is left is at most a full bucket and what
has been gained since, and `bonus` more for each time the bucket has been filled out of turn. Between
two such times lies `delay`.
-/

namespace WebServer
namespace Bucket

def refill (capacity rate tokens : ℚ) (elapsed : ℕ) : ℚ := min capacity (tokens + elapsed * rate)

section Refill

variable {capacity rate tokens : ℚ} {elapsed : ℕ}

theorem refill_le_capacity : refill capacity rate tokens elapsed ≤ capacity := min_le_left _ _

theorem refill_le_add : refill capacity rate tokens elapsed ≤ tokens + elapsed * rate :=
  min_le_right _ _

theorem refill_nonneg (hc : 0 ≤ capacity) (hr : 0 ≤ rate) (ht : 0 ≤ tokens) :
    0 ≤ refill capacity rate tokens elapsed := by
  have : (0 : ℚ) ≤ elapsed * rate := mul_nonneg (Nat.cast_nonneg _) hr
  exact le_min hc (by linarith)

/-- The bucket is full again once a whole filling has been gained. -/
theorem refill_eq_capacity (ht : 0 ≤ tokens) (h : capacity ≤ elapsed * rate) :
    refill capacity rate tokens elapsed = capacity :=
  min_eq_left (by linarith)

end Refill

/-- `n` tokens have been spent since `s`, `tokens` were left at `updated`, and the bucket has been
filled out of turn `k` times. -/
structure Account (capacity rate bonus : ℚ) (delay s n k : ℕ) (tokens : ℚ) (updated : ℕ) :
    Prop where
  since : s + k * delay ≤ updated
  spent : n + tokens ≤ capacity + (updated - s : ℕ) * rate + k * bonus

namespace Account

variable {capacity rate bonus tokens : ℚ} {delay s n k updated now : ℕ}

theorem first (hs : s ≤ now) (hr : 0 ≤ rate) (ht : tokens ≤ capacity) :
    Account capacity rate bonus delay s 1 0 (tokens - 1) now := by
  have : (0 : ℚ) ≤ (now - s : ℕ) * rate := mul_nonneg (Nat.cast_nonneg _) hr
  refine ⟨by omega, ?_⟩
  simp only [Nat.cast_one, Nat.cast_zero, zero_mul, add_zero]
  linarith

theorem refill (h : Account capacity rate bonus delay s n k tokens updated) (hnow : updated ≤ now) :
    Account capacity rate bonus delay s n k
      (Bucket.refill capacity rate tokens (now - updated)) now := by
  have hle := @refill_le_add capacity rate tokens (now - updated)
  have hsplit : ((now - s : ℕ) : ℚ) = (now - updated : ℕ) + (updated - s : ℕ) := by
    have := h.since
    rw [← Nat.cast_add]
    congr 1
    have : s ≤ updated := le_trans (Nat.le_add_right _ _) h.since
    omega
  refine ⟨h.since.trans hnow, ?_⟩
  rw [hsplit, add_mul]
  linarith [h.spent]

theorem spend (h : Account capacity rate bonus delay s n k tokens updated) :
    Account capacity rate bonus delay s (n + 1) k (tokens - 1) updated := by
  refine ⟨h.since, ?_⟩
  push_cast
  linarith [h.spent]

/-- Filling the bucket gives more than was gained since by at most the bonus. -/
theorem reset (h : Account capacity rate bonus delay s n k tokens updated) (ht : 0 ≤ tokens)
    (hr : 0 ≤ rate) (hb : capacity ≤ delay * rate + bonus) (hnow : updated + delay ≤ now) :
    Account capacity rate bonus delay s n (k + 1) capacity now := by
  have hs : s ≤ updated := le_trans (Nat.le_add_right _ _) h.since
  have hsplit : (updated - s : ℕ) + (delay : ℚ) ≤ (now - s : ℕ) := by
    rw [← Nat.cast_add]
    exact_mod_cast (by omega : updated - s + delay ≤ now - s)
  have hgain := mul_le_mul_of_nonneg_right hsplit hr
  refine ⟨by rw [Nat.add_mul, Nat.one_mul]; have := h.since; omega, ?_⟩
  push_cast
  rw [add_mul] at hgain
  linarith [h.spent]

/-- The bound: what is spent within `w` of `s`. -/
theorem bound (h : Account capacity rate bonus delay s n k tokens updated) (ht : 0 ≤ tokens)
    (hr : 0 ≤ rate) {w : ℕ} (hw : updated ≤ s + w) :
    (n : ℚ) ≤ capacity + w * rate + k * bonus ∧ k * delay ≤ w := by
  have hs := h.since
  have hlen : ((updated - s : ℕ) : ℚ) ≤ w := by exact_mod_cast (by omega : updated - s ≤ w)
  have hgain := mul_le_mul_of_nonneg_right hlen hr
  exact ⟨by linarith [h.spent], by omega⟩

end Account

end Bucket
end WebServer
