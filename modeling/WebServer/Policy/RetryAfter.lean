import WebServer.Policy.RateLimiter

/-!
# WebServer.Policy.RetryAfter

What a client that was denied can do with the number of seconds it is told.

A fresh ban lasts as long as it says, and an empty bucket has a token again when it says so. The rest
of an ongoing ban is cut to whole milliseconds before it is rounded up to seconds, so that a rest of
some seconds and less than a millisecond loses its last part (`LateBan`), and the client comes back
before the ban is over.

* `lookup_after`: the checks of other clients keep a bucket or forget it.
* `retryAfter_sufficient_iff`: the number is enough, except for such a rest.
-/

namespace WebServer
namespace Policy

open Http (Text)

/-- What is left of the ban is some seconds and a part of a millisecond. -/
def Entry.LateBan (e : Entry) (now : ℕ) : Prop :=
  seconds 1 ≤ e.bannedUntil - now ∧ 0 < (e.bannedUntil - now) % seconds 1 ∧
    (e.bannedUntil - now) % seconds 1 < 1000000

instance (e : Entry) (now : ℕ) : Decidable (e.LateBan now) := inferInstanceAs (Decidable (_ ∧ _))

/-- The client has such a bucket. -/
def RateLimiter.LateBan (l : RateLimiter) (ip : Text) (now : ℕ) : Prop :=
  ∃ e, l.entries.lookup ip = some e ∧ e.LateBan now

/-- The client was denied at `t` and told to wait `r` seconds. Whatever the other clients do, its next
check from then on passes, if it has not been evicted. The others' checks come in no order. -/
def RateLimiter.Sufficient (l : RateLimiter) (ip : Text) (t r : ℕ) : Prop :=
  1 ≤ r ∧ ∀ others t', (∀ c ∈ others, c.clientIp ≠ ip) →
    RateLimiter.NeverEvicted ip (l.check ip t).1 others → t + seconds r ≤ t' →
    ((((l.check ip t).1).after others).check ip t').2 = none

/-! ## One bucket -/

section Bucket

variable {spec : RateLimitSpec} {e : Entry} {t now r : ℕ}

theorem one_le_secondsUntil (deadline now : ℕ) : 1 ≤ secondsUntil deadline now := le_max_left _ _

/-- The seconds cover the rest of the ban, unless a part of a millisecond was cut off. -/
theorem secondsUntil_iff (h : now < e.bannedUntil) :
    e.bannedUntil ≤ now + seconds (secondsUntil e.bannedUntil now) ↔ ¬ e.LateBan now := by
  simp only [Entry.LateBan, secondsUntil, seconds]
  omega

theorem check_passes (hb : e.bannedUntil ≤ now) (ht : 1 ≤ (e.current spec now).tokens) :
    (e.check spec now).2 = none := by
  rcases check_cases spec now e with ⟨hban, -⟩ | ⟨-, -, hc⟩ | ⟨-, hlt, -⟩
  · omega
  · rw [hc]
  · exact absurd ht (not_le.mpr hlt)

/-- The end of a ban fills the bucket. -/
theorem check_passes_of_banned (hspec : spec.Valid) (hban : e.bannedUntil ≠ 0)
    (hb : e.bannedUntil ≤ now) : (e.check spec now).2 = none := by
  refine check_passes hb ?_
  rw [current_tokens_of_banned hban]
  exact_mod_cast hspec.requests

theorem check_retry (hb : e.bannedUntil ≤ now) (ht : (e.current spec now).tokens < 1) :
    (e.check spec now).2 = some (if spec.banSeconds ≠ 0 then spec.banSeconds
      else max 1 ⌈(1 - (e.current spec now).tokens) / spec.refillPerSecond⌉₊) := by
  have hcheck : e.check spec now = (e.current spec now).take spec now := by
    rw [Entry.check, if_neg (not_lt.mpr hb)]
    rfl
  rw [hcheck, Entry.take, if_neg (not_le.mpr ht)]
  split <;> rfl

theorem rate_eq (hspec : spec.Valid) (n : ℕ) :
    (seconds n : ℚ) * spec.rate = n * spec.refillPerSecond := by
  have hw : (spec.windowSeconds : ℚ) ≠ 0 := by
    have := hspec.window
    exact_mod_cast (by omega : spec.windowSeconds ≠ 0)
  simp only [RateLimitSpec.rate, RateLimitSpec.refillPerSecond, seconds]
  push_cast
  field_simp

/-- The time that an empty bucket asks for gives it the token. -/
theorem tokens_after_retry (hspec : spec.Valid) {tokens : ℚ} {t t' : ℕ}
    (h : t + seconds (max 1 ⌈(1 - tokens) / spec.refillPerSecond⌉₊) ≤ t') :
    1 ≤ ((⟨tokens, t, 0⟩ : Entry).current spec t').tokens := by
  have hrefill : 0 < spec.refillPerSecond := by
    have hw : (0 : ℚ) < spec.windowSeconds := by exact_mod_cast hspec.window
    have hm : (0 : ℚ) < spec.maxRequests := by exact_mod_cast hspec.requests
    exact div_pos hm hw
  have hwait : seconds ⌈(1 - tokens) / spec.refillPerSecond⌉₊ ≤ t' - t := by
    simp only [seconds] at h ⊢
    have := le_max_right 1 ⌈(1 - tokens) / spec.refillPerSecond⌉₊
    omega
  have hgain : 1 - tokens ≤ ((t' - t : ℕ) : ℚ) * spec.rate :=
    calc 1 - tokens
        = (1 - tokens) / spec.refillPerSecond * spec.refillPerSecond := by
          rw [div_mul_cancel₀ _ hrefill.ne']
      _ ≤ ⌈(1 - tokens) / spec.refillPerSecond⌉₊ * spec.refillPerSecond :=
          mul_le_mul_of_nonneg_right (Nat.le_ceil _) hrefill.le
      _ = (seconds ⌈(1 - tokens) / spec.refillPerSecond⌉₊ : ℚ) * spec.rate :=
          (rate_eq hspec _).symm
      _ ≤ ((t' - t : ℕ) : ℚ) * spec.rate :=
          mul_le_mul_of_nonneg_right (by exact_mod_cast hwait) (rate_nonneg spec)
  rw [current_tokens rfl (le_trans (Nat.le_add_right _ _) h), Bucket.refill]
  refine le_min (by exact_mod_cast hspec.requests) ?_
  simp only
  linarith

/-- A denial and the next check of the bucket. -/
theorem denied_then_passes (hspec : spec.Valid) (hdeny : (e.check spec t).2 = some r)
    (hlate : ¬ e.LateBan t) {t' : ℕ} (ht' : t + seconds r ≤ t') :
    1 ≤ r ∧ ((e.check spec t).1.check spec t').2 = none := by
  rcases check_cases spec t e with ⟨hban, hc⟩ | ⟨-, -, hc⟩ | ⟨hb, htokens, retry, hc⟩
  · rw [hc] at hdeny ⊢
    obtain rfl : secondsUntil e.bannedUntil t = r := Option.some.inj hdeny
    have hover := (secondsUntil_iff hban).mpr hlate
    have hnext : (e.check spec t').2 = none :=
      check_passes_of_banned hspec (by omega) (hover.trans ht')
    exact ⟨one_le_secondsUntil _ _, hnext⟩
  · rw [hc] at hdeny
    cases hdeny
  · rw [check_retry hb htokens] at hdeny
    have hr := Option.some.inj hdeny
    rw [hc]
    by_cases hban : spec.banSeconds = 0
    · rw [if_neg (by simpa using hban)] at hr
      rw [if_pos hban]
      rw [← hr] at ht' ⊢
      exact ⟨le_max_left _ _, check_passes (Nat.zero_le _) (tokens_after_retry hspec ht')⟩
    · rw [if_pos hban] at hr
      rw [if_neg hban]
      rw [← hr] at ht' ⊢
      refine ⟨by omega, check_passes_of_banned hspec ?_ ht'⟩
      simp only [seconds]
      omega

end Bucket

/-! ## Reachable tables -/

section Reachable

variable {l : RateLimiter} {ip : Text} {t now : ℕ}

theorem after_spec (calls : List Call) : (l.after calls).spec = l.spec := by
  induction calls generalizing l with
  | nil => rfl
  | cons c cs ih => rw [RateLimiter.after, ih, check_spec]

/-- The checks of other clients keep a bucket, or clean it away. -/
theorem lookup_after {others : List Call} (hon : l.spec.enabled = true)
    (hothers : ∀ c ∈ others, c.clientIp ≠ ip) (hevict : RateLimiter.NeverEvicted ip l others) :
    (l.after others).entries.lookup ip = l.entries.lookup ip ∨
      (l.after others).entries.lookup ip = none := by
  induction others generalizing l with
  | nil => exact .inl rfl
  | cons c cs ih =>
    have hfirst : (l.check c.clientIp c.now).1.entries.lookup ip =
        (l.arrive c.now).entries.lookup ip :=
      check_other hon (hothers c (by simp)).symm hevict.1
    rcases ih (by rw [check_spec]; exact hon) (fun c' hc' => hothers c' (by simp [hc'])) hevict.2
      with hkept | hnone
    · rw [RateLimiter.after, hkept, hfirst]
      rcases lookup_arrive l c.now ip with heq | ⟨hnone, -⟩
      · exact .inl heq
      · exact .inr hnone
    · exact .inr hnone

/-- A client that is denied has a bucket, and the check is a check of that bucket. -/
theorem denied_bucket {r : ℕ} (hon : l.spec.enabled = true) (h : (l.check ip t).2 = some r) :
    ∃ e, l.entries.lookup ip = some e ∧ (e.check l.spec t).2 = some r ∧
      (l.check ip t).1.entries.lookup ip = some (e.check l.spec t).1 := by
  obtain ⟨hdecision, hlookup⟩ := check_self hon ip t
  rw [h] at hdecision
  rcases lookup_arrive l t ip with heq | ⟨hnone, -⟩
  · rw [heq] at hdecision hlookup
    cases he : l.entries.lookup ip with
    | none =>
      rw [he] at hdecision
      cases hdecision
    | some e =>
      rw [he] at hdecision hlookup
      exact ⟨e, rfl, hdecision.symm, hlookup⟩
  · rw [hnone] at hdecision
    cases hdecision

theorem sufficient_of_not_late {r : ℕ} (hspec : l.spec.Valid) (hon : l.spec.enabled = true)
    (h : (l.check ip t).2 = some r) (hlate : ¬ l.LateBan ip t) : l.Sufficient ip t r := by
  obtain ⟨e, he, hdeny, hnext⟩ := denied_bucket hon h
  have hbucket : ¬ e.LateBan t := fun hban => hlate ⟨e, he, hban⟩
  refine ⟨(denied_then_passes hspec hdeny hbucket le_rfl).1, ?_⟩
  intro others t' hothers hevict ht'
  have hs : (l.check ip t).1.spec = l.spec := check_spec
  have hlast : (((l.check ip t).1).after others).spec = l.spec := by rw [after_spec, hs]
  have hstored : ((((l.check ip t).1).after others).arrive t').entries.lookup ip =
      some (e.check l.spec t).1 ∨
      ((((l.check ip t).1).after others).arrive t').entries.lookup ip = none := by
    rcases lookup_arrive (((l.check ip t).1).after others) t' ip with heq | ⟨hnone, -⟩
    · rw [heq, ← hnext]
      exact lookup_after (by rw [hs]; exact hon) hothers hevict
    · exact .inr hnone
  rw [(check_self (by rw [hlast]; exact hon) ip t').1, hlast]
  -- a bucket that was forgotten is a new one, which lets its first check pass
  rcases hstored with hkept | hnone
  · rw [hkept]
    exact (denied_then_passes hspec hdeny hbucket ht').2
  · rw [hnone]
    rfl

theorem not_late_of_sufficient {r : ℕ} (hon : l.spec.enabled = true)
    (h : (l.check ip t).2 = some r) (hsufficient : l.Sufficient ip t r) : ¬ l.LateBan ip t := by
  rintro ⟨e', he', hlate⟩
  obtain ⟨e, he, hdeny, hnext⟩ := denied_bucket hon h
  obtain rfl : e = e' := Option.some.inj (he.symm.trans he')
  have hban : t < e.bannedUntil := by
    have := hlate.1
    simp only [seconds] at this
    omega
  have hcheck : e.check l.spec t = (e, some (secondsUntil e.bannedUntil t)) := by
    simp [Entry.check, hban]
  rw [hcheck] at hdeny hnext
  obtain rfl : secondsUntil e.bannedUntil t = r := Option.some.inj hdeny
  have hearly : t + seconds (secondsUntil e.bannedUntil t) < e.bannedUntil := by
    rw [← not_le, secondsUntil_iff hban, not_not]
    exact hlate
  -- the ban stands when the client comes back, and a ban that stands is not forgotten
  have hs : (l.check ip t).1.spec = l.spec := check_spec
  have hpass := hsufficient.2 [] _ (by simp) trivial le_rfl
  rw [RateLimiter.after, (check_self (by rw [hs]; exact hon) ip _).1, hs] at hpass
  rcases lookup_arrive (l.check ip t).1 (t + seconds (secondsUntil e.bannedUntil t)) ip with
    heq | ⟨-, e', he', hstale⟩
  · rw [heq, hnext] at hpass
    simp [bucket, Entry.check, hearly] at hpass
  · rw [hnext] at he'
    cases he'
    simp only [Entry.stale, Bool.and_eq_true, decide_eq_true_eq] at hstale
    omega

end Reachable

/-- In every run, whatever the order of its times, what a denied client is told is enough exactly
when it is not told it in the last part of a millisecond of a ban. -/
theorem retryAfter_sufficient_iff (spec : RateLimitSpec) {start : RateLimiter}
    (hmake : RateLimiter.make spec = .ok start) (calls : List Call) {t r : ℕ} {ip : Text}
    (hdeny : ((start.after calls).check ip t).2 = some r) :
    (start.after calls).Sufficient ip t r ↔ ¬ (start.after calls).LateBan ip t := by
  obtain ⟨rfl, hvalid⟩ := RateLimiter.make_ok hmake
  have hs : (RateLimiter.after ⟨spec, ∅, [], 0⟩ calls).spec = spec := after_spec calls
  have hon : spec.enabled = true := by
    by_contra hoff
    rw [RateLimiter.check, if_pos (by rw [hs]; simpa using hoff)] at hdeny
    cases hdeny
  constructor
  · exact not_late_of_sufficient (by rw [hs]; exact hon) hdeny
  · exact sufficient_of_not_late (by rw [hs]; exact hvalid hon) (by rw [hs]; exact hon) hdeny

/-- A ban of two seconds, of which one second and half a millisecond are left: the client is told to
come back in one second, and is denied then. -/
theorem retryAfter_too_short :
    ∃ start, RateLimiter.make ⟨true, 1, 1, 2⟩ = .ok start ∧
      ((start.after [⟨[], 0⟩, ⟨[], 0⟩]).check [] 999500000).2 = some 1 ∧
      (((start.after [⟨[], 0⟩, ⟨[], 0⟩]).check [] 999500000).1.check [] 1999500000).2 = some 1 ∧
      ¬ (start.after [⟨[], 0⟩, ⟨[], 0⟩]).Sufficient [] 999500000 1 := by
  refine ⟨⟨⟨true, 1, 1, 2⟩, ∅, [], 0⟩, rfl, by decide +kernel, by decide +kernel, fun h => ?_⟩
  have hpass := h.2 [] 1999500000 (by simp) trivial (by decide)
  exact absurd hpass (by decide +kernel)

/-- Half a second into the same ban the client is told enough. -/
theorem retryAfter_sufficient_half :
    ∃ start, RateLimiter.make ⟨true, 1, 1, 2⟩ = .ok start ∧
      (start.after [⟨[], 0⟩, ⟨[], 0⟩]).Sufficient [] 500000000 2 :=
  ⟨_, rfl, (retryAfter_sufficient_iff ⟨true, 1, 1, 2⟩ rfl [⟨[], 0⟩, ⟨[], 0⟩]
    (by decide +kernel)).mpr (by
      rintro ⟨e, he, hlate⟩
      obtain rfl : (⟨0, 0, 2000000000⟩ : Entry) = e := Option.some.inj (by rw [← he]; decide +kernel)
      exact absurd hlate (by decide))⟩

end Policy
end WebServer
