import WebServer.Policy.RateLimiter

/-!
# WebServer.Policy.RateBound

How many requests of one client a `RateLimiter` lets pass within its window.

A bucket that is never refilled out of turn lets at most two fillings pass in any window: the one it
begins with and the one it gains. The end of a ban fills the bucket out of turn, which gives the client
more than it would have gained when the ban is shorter than the window.

* `bucketTrace_bound`: `Account` bounds what passes, for the bans of `Capped`.
* `excess`: a run that breaks the bound for every other ban.
-/

namespace WebServer
namespace Policy

open Http (Text)

/-- The checks that were let pass between `s` and `s + w`. -/
def admittedIn (trace : List (ℕ × Option ℕ)) (s w : ℕ) : ℕ :=
  trace.countP fun p => p.2 = none ∧ s ≤ p.1 ∧ p.1 ≤ s + w

/-- A ban does not pay: there is none, or it lasts as long as the window, or it lasts more than half
of it and saves the client less than one token. -/
def RateLimitSpec.Capped (spec : RateLimitSpec) : Prop :=
  spec.banSeconds = 0 ∨ spec.windowSeconds ≤ spec.banSeconds ∨
    (spec.windowSeconds < 2 * spec.banSeconds ∧
      (spec.windowSeconds - spec.banSeconds) * spec.maxRequests < spec.windowSeconds)

instance (spec : RateLimitSpec) : Decidable spec.Capped := inferInstanceAs (Decidable (_ ∨ _))

/-! ## The bound -/

/-- What the end of a ban gives beyond what the bucket would have gained. -/
def RateLimitSpec.bonus (spec : RateLimitSpec) : ℚ :=
  max 0 (spec.maxRequests - seconds spec.banSeconds * spec.rate)

/-- The books of a bucket since `s`. -/
def Books (spec : RateLimitSpec) (s n : ℕ) (e : Entry) : Prop :=
  n = 0 ∨ ∃ k, (spec.banSeconds = 0 → k = 0) ∧
    Bucket.Account spec.maxRequests spec.rate spec.bonus (seconds spec.banSeconds) s n k e.tokens
      e.updated

section Bound

variable {spec : RateLimitSpec} {e : Entry} {s n t now : ℕ}

theorem capacity_le_bonus (spec : RateLimitSpec) :
    (spec.maxRequests : ℚ) ≤ seconds spec.banSeconds * spec.rate + spec.bonus := by
  have := le_max_right 0 ((spec.maxRequests : ℚ) - seconds spec.banSeconds * spec.rate)
  unfold RateLimitSpec.bonus
  linarith

/-- Bringing a bucket up to date, by the ordinary refill or by the end of a ban. -/
theorem Books.current (he : e.WellFormed spec t) (ht : t ≤ now) (hb : e.bannedUntil ≤ now)
    (h : Books spec s n e) : Books spec s n (e.current spec now) := by
  rcases h with h | ⟨k, hk, h⟩
  · exact .inl h
  · by_cases hban : e.bannedUntil = 0
    · refine .inr ⟨k, hk, ?_⟩
      rw [current_tokens hban (he.updated_le.trans ht)]
      exact h.refill (he.updated_le.trans ht)
    · obtain ⟨huntil, hsome⟩ := he.banned hban
      refine .inr ⟨k + 1, fun h0 => absurd h0 hsome, ?_⟩
      rw [current_tokens_of_banned hban]
      exact h.reset he.tokens_nonneg (rate_nonneg spec) (capacity_le_bonus spec) (by rw [← huntil]; exact hb)

theorem Books.spend {e' : Entry} (hs : s ≤ now) (htokens : e.tokens ≤ spec.maxRequests)
    (hu : e.updated = now) (h : Books spec s n e) (h' : e'.tokens = e.tokens - 1)
    (hu' : e'.updated = now) : Books spec s (n + 1) e' := by
  rw [Books, h', hu']
  rcases h with rfl | ⟨k, hk, h⟩
  · exact .inr ⟨0, fun _ => rfl, .first hs (rate_nonneg spec) htokens⟩
  · rw [hu] at h
    exact .inr ⟨k, hk, h.spend⟩

/-- One check: the books are kept, and count what was let pass. -/
theorem Books.check (he : e.WellFormed spec t) (ht : t ≤ now) (hs : s ≤ now)
    (h : Books spec s n e) :
    Books spec s (n + if (e.check spec now).2 = none then 1 else 0) (e.check spec now).1 := by
  rcases check_cases spec now e with ⟨-, hc⟩ | ⟨hb, -, hc⟩ | ⟨hb, -, retry, hc⟩
  · rw [hc]
    simpa using h
  · rw [hc]
    exact (h.current he ht hb).spend hs (current_tokens_bounds he ht).2 rfl rfl rfl
  · rw [hc]
    simpa [Books] using h.current he ht hb

theorem bonus_of_le (hspec : spec.Valid) (h : spec.windowSeconds ≤ spec.banSeconds) :
    spec.bonus = 0 := by
  refine max_eq_left ?_
  have hle : ((seconds spec.windowSeconds : ℕ) : ℚ) ≤ (seconds spec.banSeconds : ℕ) := by
    exact_mod_cast (by simp only [seconds]; omega : seconds spec.windowSeconds ≤ seconds spec.banSeconds)
  have := mul_le_mul_of_nonneg_right hle (rate_nonneg spec)
  rw [window_mul_rate hspec] at this
  linarith

/-- What a ban that is shorter than the window saves the client. -/
theorem saved_eq (hspec : spec.Valid) (h : spec.banSeconds ≤ spec.windowSeconds) :
    (spec.maxRequests : ℚ) - seconds spec.banSeconds * spec.rate =
      ((spec.windowSeconds - spec.banSeconds) * spec.maxRequests : ℕ) / spec.windowSeconds := by
  have hw : (spec.windowSeconds : ℚ) ≠ 0 := by
    have := hspec.window
    exact_mod_cast (by omega : spec.windowSeconds ≠ 0)
  simp only [RateLimitSpec.rate, seconds]
  push_cast [Nat.cast_sub h]
  field_simp

theorem bonus_lt_one (hspec : spec.Valid) (h : spec.banSeconds ≤ spec.windowSeconds)
    (hsaved : (spec.windowSeconds - spec.banSeconds) * spec.maxRequests < spec.windowSeconds) :
    spec.bonus < 1 := by
  refine max_lt one_pos ?_
  have hw : (0 : ℚ) < spec.windowSeconds := by exact_mod_cast hspec.window
  rw [saved_eq hspec h, div_lt_one hw]
  exact_mod_cast hsaved

theorem Books.bound (hspec : spec.Valid) (hcap : spec.Capped) (he : 0 ≤ e.tokens)
    (h : Books spec s n e) (hu : e.updated ≤ s + seconds spec.windowSeconds) :
    n ≤ 2 * spec.maxRequests := by
  rcases h with rfl | ⟨k, hk, h⟩
  · omega
  · obtain ⟨hn, hlen⟩ := h.bound he (rate_nonneg spec) hu
    rw [window_mul_rate hspec] at hn
    have hextra : (k : ℚ) * spec.bonus < 1 := by
      rcases hcap with h0 | hlong | ⟨hhalf, hsaved⟩
      · simp [hk h0]
      · simp [bonus_of_le hspec hlong]
      · have hk1 : k ≤ 1 := by
          by_contra hk2
          have : 2 * seconds spec.banSeconds ≤ k * seconds spec.banSeconds :=
            Nat.mul_le_mul_right _ (by omega)
          simp only [seconds] at this hlen
          omega
        have hb0 : 0 ≤ spec.bonus := le_max_left _ _
        by_cases hle : spec.banSeconds ≤ spec.windowSeconds
        · have := bonus_lt_one hspec hle hsaved
          have hkq : (k : ℚ) ≤ 1 := by exact_mod_cast hk1
          have := mul_le_mul_of_nonneg_right hkq hb0
          linarith
        · simp [bonus_of_le hspec (by omega : spec.windowSeconds ≤ spec.banSeconds)]
    have : (n : ℚ) < 2 * spec.maxRequests + 1 := by linarith
    have : n < 2 * spec.maxRequests + 1 := by exact_mod_cast this
    omega

end Bound

/-! ## Runs of a bucket -/

def OrderedTimes (t : ℕ) : List ℕ → Prop
  | [] => True
  | now :: rest => t ≤ now ∧ OrderedTimes now rest

/-- What is known after the checks up to `t`, of which `n` count. -/
structure Counted (spec : RateLimitSpec) (s t n : ℕ) (kept : Option Entry) : Prop where
  wellFormed : ∀ e, kept = some e → e.WellFormed spec t
  empty : kept = none → n = 0
  books : t ≤ s + seconds spec.windowSeconds → ∀ e, kept = some e → Books spec s n e
  le : n ≤ 2 * spec.maxRequests

section Trace

variable {spec : RateLimitSpec} {s n t now : ℕ} {kept : Option Entry}

theorem admittedIn_cons (p : ℕ × Option ℕ) (trace : List (ℕ × Option ℕ)) (s w : ℕ) :
    admittedIn (p :: trace) s w =
      (if p.2 = none ∧ s ≤ p.1 ∧ p.1 ≤ s + w then 1 else 0) + admittedIn trace s w := by
  rw [admittedIn, List.countP_cons, Nat.add_comm]
  simp [admittedIn]

/-- Before the window nothing counts, and in it the books are kept. -/
theorem books_bucket (hspec : spec.Valid) (h : Counted spec s t n kept) (ht : t ≤ now)
    (hw : now ≤ s + seconds spec.windowSeconds) :
    Books spec s (n + if (bucket spec now kept).2 = none ∧ s ≤ now then 1 else 0)
      (bucket spec now kept).1 := by
  by_cases hs : s ≤ now
  · simp only [hs, and_true]
    cases kept with
    | none =>
      rw [h.empty rfl]
      simp only [bucket, if_true]
      refine .inr ⟨0, fun _ => rfl, ?_⟩
      rw [fresh_tokens hspec]
      exact .first hs (rate_nonneg spec) le_rfl
    | some e => exact (h.books (ht.trans hw) e rfl).check (h.wellFormed e rfl) ht hs
  · simp only [hs, and_false, if_false, add_zero]
    refine .inl ?_
    cases kept with
    | none => exact h.empty rfl
    | some e =>
      rcases h.books (ht.trans hw) e rfl with hn | ⟨k, -, hk⟩
      · exact hn
      · have := hk.since
        have := (h.wellFormed e rfl).updated_le
        omega

theorem Counted.bucket (hspec : spec.Valid) (hcap : spec.Capped) (h : Counted spec s t n kept)
    (ht : t ≤ now) :
    Counted spec s now (n + if (bucket spec now kept).2 = none ∧ s ≤ now ∧
      now ≤ s + seconds spec.windowSeconds then 1 else 0) (some (Policy.bucket spec now kept).1) := by
  have hwf : (Policy.bucket spec now kept).1.WellFormed spec now :=
    bucket_wellFormed hspec fun e he => WellFormed.mono (h.wellFormed e he) ht
  by_cases hw : now ≤ s + seconds spec.windowSeconds
  · have hbooks := books_bucket hspec h ht hw
    simp only [hw, and_true]
    refine ⟨fun e he => by cases he; exact hwf, by simp, fun _ e he => by cases he; exact hbooks, ?_⟩
    exact hbooks.bound hspec hcap hwf.tokens_nonneg (hwf.updated_le.trans hw)
  · simp only [hw, and_false, if_false, add_zero]
    exact ⟨fun e he => by cases he; exact hwf, by simp, fun h => absurd h hw, h.le⟩

theorem bucketTrace_bound (hspec : spec.Valid) (hcap : spec.Capped) {times : List ℕ}
    (horder : OrderedTimes t times) (h : Counted spec s t n kept) :
    n + admittedIn (bucketTrace spec kept times) s (seconds spec.windowSeconds) ≤
      2 * spec.maxRequests := by
  induction times generalizing t n kept with
  | nil => simpa [bucketTrace, admittedIn] using h.le
  | cons now rest ih =>
    have hnext := ih horder.2 (h.bucket hspec hcap horder.1)
    rw [bucketTrace, admittedIn_cons, ← Nat.add_assoc]
    exact hnext

theorem Ordered.times {t : ℕ} {calls : List Call} (h : Ordered t calls) (p : Call → Bool) :
    OrderedTimes t ((calls.filter p).map Call.now) := by
  have hmono : ∀ (times : List ℕ) (t t' : ℕ), t' ≤ t → OrderedTimes t times → OrderedTimes t' times := by
    intro times
    cases times with
    | nil => intros; trivial
    | cons now rest => exact fun t t' hle h => ⟨hle.trans h.1, h.2⟩
  induction calls generalizing t with
  | nil => trivial
  | cons c cs ih =>
    rw [List.filter_cons]
    split
    · exact ⟨h.1, ih h.2⟩
    · exact hmono _ _ _ h.1 (ih h.2)

end Trace

/-! ## A run that breaks the bound -/

section Excess

variable {spec : RateLimitSpec}

theorem check_at_once {j now : ℕ} (hj : j + 1 ≤ spec.maxRequests) :
    (⟨(j + 1 : ℕ), now, 0⟩ : Entry).check spec now = (⟨(j : ℕ), now, 0⟩, none) := by
  have htokens : ((⟨(j + 1 : ℕ), now, 0⟩ : Entry).current spec now).tokens = (j + 1 : ℕ) := by
    rw [current_tokens rfl (le_refl now), Bucket.refill]
    simp only [Nat.sub_self, Nat.cast_zero, zero_mul, add_zero]
    exact min_eq_right (by exact_mod_cast hj)
  rcases check_cases spec now ⟨(j + 1 : ℕ), now, 0⟩ with ⟨hb, -⟩ | ⟨-, -, hc⟩ | ⟨-, ht, -⟩
  · simp at hb
  · rw [hc, htokens]
    push_cast
    simp
  · rw [htokens] at ht
    have : ((j + 1 : ℕ) : ℚ) < (1 : ℕ) := by simpa using ht
    have : j + 1 < 1 := by exact_mod_cast this
    omega

/-- A bucket with `j` tokens lets `j` checks pass at once. -/
theorem bucketTrace_drain {now : ℕ} (rest : List ℕ) : ∀ j, j ≤ spec.maxRequests →
    bucketTrace spec (some ⟨(j : ℕ), now, 0⟩) (List.replicate j now ++ rest) =
      List.replicate j (now, none) ++ bucketTrace spec (some ⟨0, now, 0⟩) rest := by
  intro j
  induction j with
  | zero => intro _; simp
  | succ j ih =>
    intro hj
    simp only [List.replicate_succ, List.cons_append, bucketTrace, bucket, check_at_once hj]
    rw [ih (by omega)]

/-- A full bucket that takes its first token lets as many pass as it holds. -/
theorem bucketTrace_burst (hspec : spec.Valid) {o : Option Entry} {now : ℕ}
    (h : bucket spec now o = (.fresh spec now, none)) (rest : List ℕ) :
    bucketTrace spec o (List.replicate spec.maxRequests now ++ rest) =
      List.replicate spec.maxRequests (now, none) ++ bucketTrace spec (some ⟨0, now, 0⟩) rest := by
  obtain ⟨m, hm⟩ : ∃ m, spec.maxRequests = m + 1 := ⟨spec.maxRequests - 1, by have := hspec.requests; omega⟩
  rw [hm, List.replicate_succ, List.replicate_succ, List.cons_append, bucketTrace, h]
  have hfresh : Entry.fresh spec now = ⟨(m : ℕ), now, 0⟩ := by simp [Entry.fresh, hm]
  rw [hfresh, bucketTrace_drain rest m (by omega)]
  rfl

/-- The empty bucket is banned. -/
theorem check_empty (hban : spec.banSeconds ≠ 0) (now : ℕ) : ∃ retry,
    (⟨0, now, 0⟩ : Entry).check spec now = (⟨0, now, now + seconds spec.banSeconds⟩, some retry) := by
  have htokens : ((⟨0, now, 0⟩ : Entry).current spec now).tokens = 0 := by
    rw [current_tokens rfl (le_refl now), Bucket.refill]
    simp
  rcases check_cases spec now ⟨0, now, 0⟩ with ⟨hb, -⟩ | ⟨-, ht, -⟩ | ⟨-, -, retry, hc⟩
  · simp at hb
  · rw [htokens] at ht
    exact absurd ht (by norm_num)
  · exact ⟨retry, by rw [hc, htokens, if_neg hban]⟩

theorem check_released (hspec : spec.Valid) (hban : spec.banSeconds ≠ 0) (now : ℕ) :
    bucket spec (now + seconds spec.banSeconds)
      (some ⟨0, now, now + seconds spec.banSeconds⟩) =
        (.fresh spec (now + seconds spec.banSeconds), none) := by
  have hne : now + seconds spec.banSeconds ≠ 0 := by
    simp only [seconds]
    omega
  have htokens : ((⟨0, now, now + seconds spec.banSeconds⟩ : Entry).current spec
      (now + seconds spec.banSeconds)).tokens = spec.maxRequests := current_tokens_of_banned hne
  have hone : (1 : ℚ) ≤ spec.maxRequests := by exact_mod_cast hspec.requests
  rcases check_cases spec (now + seconds spec.banSeconds) ⟨0, now, now + seconds spec.banSeconds⟩ with
    ⟨hb, -⟩ | ⟨-, -, hc⟩ | ⟨-, ht, -⟩
  · simp at hb
  · rw [bucket, hc, htokens, ← fresh_tokens hspec (now + seconds spec.banSeconds)]
    rfl
  · rw [htokens] at ht
    exact absurd hone (not_le.mpr ht)

/-- A filling at 0 and one at the end of the ban that follows. Then the next ban is over within the
window, or the bucket has gained a token by its end. -/
def excess (spec : RateLimitSpec) : List ℕ :=
  List.replicate spec.maxRequests 0 ++ 0 ::
    (List.replicate spec.maxRequests (seconds spec.banSeconds) ++
      if 2 * spec.banSeconds ≤ spec.windowSeconds then
        [seconds spec.banSeconds, seconds spec.banSeconds + seconds spec.banSeconds]
      else [seconds spec.windowSeconds])

theorem admittedIn_append (a b : List (ℕ × Option ℕ)) (s w : ℕ) :
    admittedIn (a ++ b) s w = admittedIn a s w + admittedIn b s w := List.countP_append

theorem admittedIn_replicate {s w now : ℕ} (n : ℕ) (hs : s ≤ now) (hw : now ≤ s + w) :
    admittedIn (List.replicate n (now, none)) s w = n := by
  simp [admittedIn, List.countP_replicate, hs, hw]

theorem admittedIn_excess (hspec : spec.Valid) (hcap : ¬ spec.Capped) :
    2 * spec.maxRequests <
      admittedIn (bucketTrace spec none (excess spec)) 0 (seconds spec.windowSeconds) := by
  simp only [RateLimitSpec.Capped, not_or, not_and, not_lt, not_le] at hcap
  obtain ⟨hban, hshort, hsaved⟩ := hcap
  obtain ⟨retry, hempty⟩ := check_empty hban 0
  have hwb : seconds spec.banSeconds ≤ 0 + seconds spec.windowSeconds := by
    simp only [seconds]
    omega
  have hreleased : bucket spec (seconds spec.banSeconds)
      (some ⟨0, 0, 0 + seconds spec.banSeconds⟩) = (.fresh spec (seconds spec.banSeconds), none) := by
    have := check_released hspec hban 0
    simpa using this
  rw [excess, bucketTrace_burst hspec rfl, bucketTrace]
  simp only [bucket, hempty]
  rw [bucketTrace_burst hspec hreleased, admittedIn_append, admittedIn_cons, admittedIn_append,
    admittedIn_replicate _ le_rfl (by omega), admittedIn_replicate _ (by omega) hwb]
  simp only [reduceCtorEq, false_and, if_false]
  suffices hlast : 0 < admittedIn (bucketTrace spec (some ⟨0, seconds spec.banSeconds, 0⟩)
      (if 2 * spec.banSeconds ≤ spec.windowSeconds then
        [seconds spec.banSeconds, seconds spec.banSeconds + seconds spec.banSeconds]
      else [seconds spec.windowSeconds])) 0 (seconds spec.windowSeconds) by omega
  split
  · rename_i htwice
    obtain ⟨retry', hempty'⟩ := check_empty hban (seconds spec.banSeconds)
    have hreleased' := check_released hspec hban (seconds spec.banSeconds)
    have hw2 : seconds spec.banSeconds + seconds spec.banSeconds ≤ seconds spec.windowSeconds := by
      simp only [seconds]
      omega
    have hstep : bucket spec (seconds spec.banSeconds) (some ⟨0, seconds spec.banSeconds, 0⟩) = _ :=
      hempty'
    simp only [bucketTrace, hstep, hreleased', admittedIn_cons, reduceCtorEq, false_and, if_false,
      Nat.zero_le, true_and, Nat.zero_add, hw2, if_true]
    omega
  · rename_i htwice
    have hgain := hsaved (by omega)
    have hle : spec.banSeconds ≤ spec.windowSeconds := by omega
    have hwq : (0 : ℚ) < spec.windowSeconds := by exact_mod_cast hspec.window
    have hmul : ((seconds spec.windowSeconds - seconds spec.banSeconds : ℕ) : ℚ) * spec.rate =
        ((spec.windowSeconds - spec.banSeconds) * spec.maxRequests : ℕ) / spec.windowSeconds := by
      rw [← saved_eq hspec hle, Nat.cast_sub (by simpa using hwb), sub_mul, window_mul_rate hspec]
    have hone : (1 : ℚ) ≤ (seconds spec.windowSeconds - seconds spec.banSeconds : ℕ) * spec.rate := by
      rw [hmul, one_le_div hwq]
      exact_mod_cast hgain
    have htokens : 1 ≤ ((⟨0, seconds spec.banSeconds, 0⟩ : Entry).current spec
        (seconds spec.windowSeconds)).tokens := by
      rw [current_tokens rfl (by simpa using hwb), Bucket.refill, zero_add]
      exact le_min (by exact_mod_cast hspec.requests) hone
    have hpass : (bucket spec (seconds spec.windowSeconds)
        (some ⟨0, seconds spec.banSeconds, 0⟩)).2 = none := by
      rcases check_cases spec (seconds spec.windowSeconds) ⟨0, seconds spec.banSeconds, 0⟩ with
        ⟨hb, -⟩ | ⟨-, -, hc⟩ | ⟨-, ht, -⟩
      · simp at hb
      · rw [bucket, hc]
      · exact absurd htokens (not_le.mpr ht)
    simp [bucketTrace, admittedIn_cons, hpass]

end Excess

/-! ## The limiter -/

/-- No client that stays in the table gets more than two fillings through in a window. -/
def Bounded (l : RateLimiter) : Prop :=
  ∀ calls ip s, Ordered 0 calls → RateLimiter.NeverEvicted ip l calls →
    admittedIn (l.trace calls ip) s (seconds l.spec.windowSeconds) ≤ 2 * l.spec.maxRequests

section Limiter

variable {spec : RateLimitSpec} {l : RateLimiter}

theorem tracks_empty (spec : RateLimitSpec) : Tracks spec 0 none none :=
  ⟨by simp, .inl rfl⟩

theorem bounded_of_capped (hspec : spec.Valid) (hon : spec.enabled = true) (hcap : spec.Capped) :
    Bounded ⟨spec, ∅, [], 0⟩ := by
  intro calls ip s horder hevict
  rw [trace_eq (l := ⟨spec, ∅, [], 0⟩) hspec hon horder (tracks_empty spec) hevict]
  have hstart : Counted spec s 0 0 none :=
    ⟨by simp, fun _ => rfl, by simp, by omega⟩
  have := bucketTrace_bound hspec hcap (horder.times fun c => c.clientIp = ip) hstart
  simpa using this

/-- All calls are of one client. -/
def callsAt (ip : Text) (times : List ℕ) : List Call := times.map fun now => ⟨ip, now⟩

theorem ordered_callsAt {ip : Text} {times : List ℕ} {t : ℕ} (h : OrderedTimes t times) :
    Ordered t (callsAt ip times) := by
  induction times generalizing t with
  | nil => trivial
  | cons now rest ih => exact ⟨h.1, ih h.2⟩

theorem neverEvicted_callsAt (spec : RateLimitSpec) (ip : Text) (times : List ℕ) :
    RateLimiter.NeverEvicted ip ⟨spec, ∅, [], 0⟩ (callsAt ip times) := by
  have hcard : ({ip} : Finset Text).card ≤ maxRateLimitEntries := by simp [maxRateLimitEntries]
  refine neverEvicted_of_card hcard ?_ ?_ ip
  · intro c hc
    simp only [callsAt, List.mem_map] at hc
    obtain ⟨now, -, rfl⟩ := hc
    simp
  · intro k hk
    simp at hk

theorem orderedTimes_replicate {now t : ℕ} {rest : List ℕ} (ht : t ≤ now)
    (h : OrderedTimes now rest) (n : ℕ) : OrderedTimes t (List.replicate n now ++ rest) := by
  induction n generalizing t with
  | zero =>
    cases rest with
    | nil => trivial
    | cons next rest => exact ⟨ht.trans h.1, h.2⟩
  | succ n ih => exact ⟨ht, ih le_rfl⟩

theorem orderedTimes_excess (h : spec.banSeconds < spec.windowSeconds) :
    OrderedTimes 0 (excess spec) := by
  have hlast : OrderedTimes (seconds spec.banSeconds)
      (if 2 * spec.banSeconds ≤ spec.windowSeconds then
        [seconds spec.banSeconds, seconds spec.banSeconds + seconds spec.banSeconds]
      else [seconds spec.windowSeconds]) := by
    split
    · exact ⟨le_rfl, Nat.le_add_right _ _, trivial⟩
    · exact ⟨by simp only [seconds]; omega, trivial⟩
  have hsecond := orderedTimes_replicate (Nat.zero_le _) hlast spec.maxRequests
  have hfirst : OrderedTimes 0 (0 :: _) := ⟨le_rfl, hsecond⟩
  exact orderedTimes_replicate le_rfl hfirst _

theorem not_bounded_of_not_capped (hspec : spec.Valid) (hon : spec.enabled = true)
    (hcap : ¬ spec.Capped) : ¬ Bounded ⟨spec, ∅, [], 0⟩ := by
  have hshort : spec.banSeconds < spec.windowSeconds := by
    simp only [RateLimitSpec.Capped, not_or] at hcap
    omega
  intro h
  have horder : Ordered 0 (callsAt [] (excess spec)) := ordered_callsAt (orderedTimes_excess hshort)
  have hevict := neverEvicted_callsAt spec [] (excess spec)
  have hle := h (callsAt [] (excess spec)) [] 0 horder hevict
  have htimes : ((callsAt [] (excess spec)).filter fun c => c.clientIp = []).map Call.now =
      excess spec := by
    simp [callsAt, List.filter_map, Function.comp_def]
  rw [trace_eq (l := ⟨spec, ∅, [], 0⟩) hspec hon horder (tracks_empty spec) hevict, htimes] at hle
  exact absurd hle (not_le.mpr (admittedIn_excess hspec hcap))

/-- A limiter that is switched off lets everything pass. -/
theorem trace_disabled (hoff : l.spec.enabled = false) (ip : Text) (times : List ℕ) :
    l.trace (callsAt ip times) ip = times.map fun now => (now, none) := by
  induction times with
  | nil => rfl
  | cons now rest ih =>
    have hcheck : l.check ip now = (l, none) := by simp [RateLimiter.check, hoff]
    rw [callsAt, List.map_cons, trace_cons]
    simp only [hcheck, if_true, List.map_cons, List.singleton_append]
    rw [← ih]
    rfl

theorem not_bounded_of_disabled (hoff : spec.enabled = false) : ¬ Bounded ⟨spec, ∅, [], 0⟩ := by
  intro h
  have horder : OrderedTimes 0 (List.replicate (2 * spec.maxRequests + 1) 0) := by
    have hnil : OrderedTimes 0 [] := trivial
    have := orderedTimes_replicate le_rfl hnil (2 * spec.maxRequests + 1)
    simpa using this
  have hle := h (callsAt [] (List.replicate (2 * spec.maxRequests + 1) 0)) [] 0
    (ordered_callsAt horder) (neverEvicted_callsAt spec [] _)
  rw [trace_disabled hoff, List.map_replicate, admittedIn_replicate _ le_rfl (Nat.zero_le _)] at hle
  simp only at hle
  omega

/-- The bound holds for every run exactly when the limiter is on and its bans do not pay. -/
theorem bounded_iff (spec : RateLimitSpec) (l : RateLimiter) (h : RateLimiter.make spec = .ok l) :
    Bounded l ↔ spec.enabled = true ∧ spec.Capped := by
  obtain ⟨rfl, hvalid⟩ := RateLimiter.make_ok h
  cases hon : spec.enabled with
  | false => simp [not_bounded_of_disabled hon]
  | true =>
    simp only [true_and]
    constructor
    · intro hb
      by_contra hcap
      exact not_bounded_of_not_capped (hvalid hon) hon hcap hb
    · exact bounded_of_capped (hvalid hon) hon

end Limiter

/-- The default: a minute of ban for ten seconds of window. -/
theorem bounded_iff_default : ∃ l, RateLimiter.make ⟨true, 10, 100, 60⟩ = .ok l ∧ Bounded l :=
  ⟨_, rfl, (bounded_iff ⟨true, 10, 100, 60⟩ _ rfl).mpr ⟨rfl, by decide⟩⟩

/-- One request in two seconds and a ban of one: a client that is banned at once gets three requests
through in the window. -/
theorem short_ban_excess :
    RateLimiter.make ⟨true, 2, 1, 1⟩ = .ok ⟨⟨true, 2, 1, 1⟩, ∅, [], 0⟩ ∧
    Ordered 0 (callsAt [] [0, 0, seconds 1, seconds 1, seconds 2]) ∧
    RateLimiter.NeverEvicted [] ⟨⟨true, 2, 1, 1⟩, ∅, [], 0⟩
      (callsAt [] [0, 0, seconds 1, seconds 1, seconds 2]) ∧
    admittedIn (RateLimiter.trace ⟨⟨true, 2, 1, 1⟩, ∅, [], 0⟩
      (callsAt [] [0, 0, seconds 1, seconds 1, seconds 2]) []) 0 (seconds 2) = 3 ∧
    ¬ Bounded ⟨⟨true, 2, 1, 1⟩, ∅, [], 0⟩ := by
  refine ⟨rfl, ⟨?_, ?_, ?_, ?_, ?_, trivial⟩, neverEvicted_callsAt _ _ _, by decide +kernel, ?_⟩
  · decide
  · decide
  · decide
  · decide
  · decide
  · exact not_bounded_of_not_capped ⟨by decide, by decide⟩ rfl (by decide)

end Policy
end WebServer
