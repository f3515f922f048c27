import Mathlib.Algebra.Order.Floor.Semiring
import Mathlib.Algebra.Order.Field.Basic
import Mathlib.Data.Rat.Floor
import Mathlib.Tactic.FieldSimp
import Mathlib.Tactic.Positivity
import WebServer.Lib.Bucket
import WebServer.Lib.Fields
import WebServer.Lib.Table

/-!
# WebServer.Policy.RateLimiter

`RateLimiter`: a token bucket for every client address. Tokens are exact here, and a time is a number
of nanoseconds; `time_point{}` is 0.

A client that finds its bucket empty is banned, and has a full bucket when the ban is over. The table
of buckets is cleaned of idle ones now and then, and loses the least recently used one when it is
full.
-/

namespace WebServer
namespace Policy

open Http (Text)

structure RateLimitSpec where
  enabled : Bool
  windowSeconds : ℕ
  maxRequests : ℕ
  banSeconds : ℕ
  deriving DecidableEq

structure Entry where
  tokens : ℚ
  updated : ℕ
  bannedUntil : ℕ
  deriving DecidableEq

structure RateLimiter where
  spec : RateLimitSpec
  entries : Table Text Entry
  lru : List Text
  requestCount : ℕ
  deriving DecidableEq

def maxRateLimitEntries : ℕ := 65536

/-- `std::chrono::seconds` in nanoseconds. -/
def seconds (n : ℕ) : ℕ := n * 1000000000

def RateLimiter.make (spec : RateLimitSpec) : Except String RateLimiter :=
  if spec.enabled = false then .ok ⟨spec, ∅, [], 0⟩
  else if spec.windowSeconds = 0 ∨ 3600 < spec.windowSeconds then
    .error "rate limit window must be between 1 and 3600 seconds"
  else if spec.maxRequests = 0 ∨ 1000000 < spec.maxRequests then
    .error "rate limit maximum must be between 1 and 1000000"
  else if 86400 < spec.banSeconds then .error "rate limit ban must not exceed 86400 seconds"
  else .ok ⟨spec, ∅, [], 0⟩

/-! ## One bucket -/

def secondsUntil (deadline now : ℕ) : ℕ := max 1 (((deadline - now) / 1000000 + 999) / 1000)

def RateLimitSpec.refillPerSecond (spec : RateLimitSpec) : ℚ := spec.maxRequests / spec.windowSeconds

/-- The bucket of a client that is not in the table; it takes its first token at once. -/
def Entry.fresh (spec : RateLimitSpec) (now : ℕ) : Entry := ⟨(spec.maxRequests - 1 : ℕ), now, 0⟩

/-- The ban is over: a full bucket. -/
def Entry.release (spec : RateLimitSpec) (now : ℕ) (e : Entry) : Entry :=
  if e.bannedUntil ≠ 0 then ⟨spec.maxRequests, now, 0⟩ else e

/-- The time is read before the lock is taken, so that `now` can lie before the last check. -/
def Entry.refill (spec : RateLimitSpec) (now : ℕ) (e : Entry) : Entry :=
  let elapsed : ℚ := ((now : ℤ) - e.updated : ℤ) / 1000000000
  { e with
    tokens := min (spec.maxRequests : ℚ) (e.tokens + elapsed * spec.refillPerSecond)
    updated := now }

/-- A bucket that has just been refilled; `none` lets the request pass. -/
def Entry.take (spec : RateLimitSpec) (now : ℕ) (e : Entry) : Entry × Option ℕ :=
  if 1 ≤ e.tokens then ({ e with tokens := e.tokens - 1 }, none)
  else if spec.banSeconds ≠ 0 then
    ({ e with bannedUntil := now + seconds spec.banSeconds }, some spec.banSeconds)
  else (e, some (max 1 ⌈(1 - e.tokens) / spec.refillPerSecond⌉₊))

def Entry.check (spec : RateLimitSpec) (now : ℕ) (e : Entry) : Entry × Option ℕ :=
  if now < e.bannedUntil then (e, some (secondsUntil e.bannedUntil now))
  else ((e.release spec now).refill spec now).take spec now

/-! ## The table -/

/-- The bucket has been idle for longer than it takes to fill it. -/
def Entry.stale (spec : RateLimitSpec) (now : ℕ) (e : Entry) : Bool :=
  e.bannedUntil ≤ now && seconds (spec.windowSeconds + spec.banSeconds + 1) < now - e.updated

namespace RateLimiter

def cleanup (l : RateLimiter) (now : ℕ) : RateLimiter :=
  let entries := l.entries.mapFilter fun _ e => if e.stale l.spec now then none else some e
  { l with entries := entries, lru := l.lru.filter fun key => (entries.lookup key).isSome }

def evictOldest (l : RateLimiter) : RateLimiter :=
  match l.lru with
  | [] => l
  | key :: rest => { l with entries := l.entries.erase key, lru := rest }

/-- The request is counted, and every 1024th cleans the table. -/
def arrive (l : RateLimiter) (now : ℕ) : RateLimiter :=
  let l := { l with requestCount := l.requestCount + 1 }
  if l.requestCount % 1024 = 0 then l.cleanup now else l

def isFull (l : RateLimiter) : Bool := maxRateLimitEntries ≤ l.entries.keys.length

/-- A place for a client that is not in the table. -/
def makeRoom (l : RateLimiter) : RateLimiter := if l.isFull then l.evictOldest else l

def check (l : RateLimiter) (clientIp : Text) (now : ℕ) : RateLimiter × Option ℕ :=
  if l.spec.enabled = false then (l, none)
  else
    let l := l.arrive now
    match l.entries.lookup clientIp with
    | none =>
      let l := l.makeRoom
      ({ l with entries := l.entries.insert clientIp (.fresh l.spec now),
                lru := l.lru ++ [clientIp] }, none)
    | some e =>
      let (e, decision) := e.check l.spec now
      ({ l with entries := l.entries.insert clientIp e,
                lru := l.lru.erase clientIp ++ [clientIp] }, decision)

end RateLimiter

/-! ## Runs -/

structure Call where
  clientIp : Text
  now : ℕ

def RateLimiter.decisions : RateLimiter → List Call → List (Option ℕ)
  | _, [] => []
  | l, c :: cs => (l.check c.clientIp c.now).2 :: decisions (l.check c.clientIp c.now).1 cs

/-- The limiter after these calls. -/
def RateLimiter.after : RateLimiter → List Call → RateLimiter
  | l, [] => l
  | l, c :: cs => after (l.check c.clientIp c.now).1 cs

/-! ## What one check does to a bucket -/

/-- What the constructor asks of a specification that is enabled. -/
structure RateLimitSpec.Valid (spec : RateLimitSpec) : Prop where
  window : 0 < spec.windowSeconds
  requests : 0 < spec.maxRequests

theorem RateLimiter.make_ok {spec : RateLimitSpec} {l : RateLimiter}
    (h : RateLimiter.make spec = .ok l) :
    l = ⟨spec, ∅, [], 0⟩ ∧ (spec.enabled = true → spec.Valid) := by
  unfold RateLimiter.make at h
  split at h
  · rename_i hoff
    cases h
    exact ⟨rfl, by simp [hoff]⟩
  · split at h
    · cases h
    · split at h
      · cases h
      · split at h
        · cases h
        · cases h
          exact ⟨rfl, fun _ => ⟨by omega, by omega⟩⟩

/-- Tokens in a nanosecond. -/
def RateLimitSpec.rate (spec : RateLimitSpec) : ℚ := spec.maxRequests / seconds spec.windowSeconds

/-- A bucket that was last looked at no later than `t`. -/
structure Entry.WellFormed (spec : RateLimitSpec) (t : ℕ) (e : Entry) : Prop where
  tokens_nonneg : 0 ≤ e.tokens
  tokens_le : e.tokens ≤ spec.maxRequests
  updated_le : e.updated ≤ t
  banned : e.bannedUntil ≠ 0 →
    e.bannedUntil = e.updated + seconds spec.banSeconds ∧ spec.banSeconds ≠ 0

section Bucket

variable {spec : RateLimitSpec} {e : Entry} {t now : ℕ}

theorem rate_nonneg (spec : RateLimitSpec) : 0 ≤ spec.rate := by
  unfold RateLimitSpec.rate
  positivity

theorem window_mul_rate (h : spec.Valid) :
    (seconds spec.windowSeconds : ℕ) * spec.rate = spec.maxRequests := by
  have hw : ((seconds spec.windowSeconds : ℕ) : ℚ) ≠ 0 := by
    have := h.window
    simp only [seconds, ne_eq, Nat.cast_eq_zero]
    omega
  rw [RateLimitSpec.rate, mul_div_cancel₀ _ hw]

theorem refill_tokens (spec : RateLimitSpec) {now : ℕ} {e : Entry} (h : e.updated ≤ now) :
    (e.refill spec now).tokens =
      Bucket.refill spec.maxRequests spec.rate e.tokens (now - e.updated) := by
  simp only [Entry.refill, Bucket.refill, RateLimitSpec.refillPerSecond, RateLimitSpec.rate, seconds]
  push_cast [Nat.cast_sub h]
  congr 2
  ring

theorem fresh_tokens (h : spec.Valid) (now : ℕ) :
    (Entry.fresh spec now).tokens = spec.maxRequests - 1 := by
  simp only [Entry.fresh]
  rw [Nat.cast_sub h.requests, Nat.cast_one]

theorem WellFormed.fresh (h : spec.Valid) (now : ℕ) : (Entry.fresh spec now).WellFormed spec now where
  tokens_nonneg := by simp [Entry.fresh]
  tokens_le := by rw [fresh_tokens h]; linarith
  updated_le := le_rfl
  banned := by simp [Entry.fresh]

/-- A bucket that is not banned, brought up to date. -/
def Entry.current (spec : RateLimitSpec) (now : ℕ) (e : Entry) : Entry :=
  (e.release spec now).refill spec now

theorem current_bannedUntil : (e.current spec now).bannedUntil = 0 := by
  unfold Entry.current Entry.release Entry.refill
  split <;> simp_all

@[simp] theorem current_updated : (e.current spec now).updated = now := rfl

theorem current_tokens_of_banned (h : e.bannedUntil ≠ 0) :
    (e.current spec now).tokens = spec.maxRequests := by
  simp [Entry.current, Entry.release, h, Entry.refill]

theorem current_tokens (h : e.bannedUntil = 0) (hu : e.updated ≤ now) :
    (e.current spec now).tokens =
      Bucket.refill spec.maxRequests spec.rate e.tokens (now - e.updated) := by
  have hrelease : e.release spec now = e := by simp [Entry.release, h]
  rw [Entry.current, hrelease, refill_tokens spec hu]

theorem current_tokens_bounds (he : e.WellFormed spec t) (ht : t ≤ now) :
    0 ≤ (e.current spec now).tokens ∧ (e.current spec now).tokens ≤ spec.maxRequests := by
  by_cases hb : e.bannedUntil = 0
  · rw [current_tokens hb (he.updated_le.trans ht)]
    exact ⟨Bucket.refill_nonneg (Nat.cast_nonneg _) (rate_nonneg spec) he.tokens_nonneg,
      Bucket.refill_le_capacity⟩
  · rw [current_tokens_of_banned hb]
    exact ⟨Nat.cast_nonneg _, le_rfl⟩

/-- Everything a check can do: the ban stands, a token is taken, or the bucket is empty. -/
theorem check_cases (spec : RateLimitSpec) (now : ℕ) (e : Entry) :
    (now < e.bannedUntil ∧ e.check spec now = (e, some (secondsUntil e.bannedUntil now))) ∨
    (e.bannedUntil ≤ now ∧ 1 ≤ (e.current spec now).tokens ∧
      e.check spec now = (⟨(e.current spec now).tokens - 1, now, 0⟩, none)) ∨
    (e.bannedUntil ≤ now ∧ (e.current spec now).tokens < 1 ∧ ∃ retry,
      e.check spec now = (⟨(e.current spec now).tokens, now,
        if spec.banSeconds = 0 then 0 else now + seconds spec.banSeconds⟩, some retry)) := by
  by_cases hb : now < e.bannedUntil
  · exact .inl ⟨hb, by simp [Entry.check, hb]⟩
  · have hcurrent : e.current spec now = ⟨(e.current spec now).tokens, now, 0⟩ := by
      rw [Entry.mk.injEq]
      exact ⟨rfl, rfl, current_bannedUntil⟩
    have hcheck : e.check spec now = (e.current spec now).take spec now := by
      simp [Entry.check, hb, Entry.current]
    rw [hcheck]
    refine .inr ?_
    by_cases ht : 1 ≤ (e.current spec now).tokens
    · refine .inl ⟨by omega, ht, ?_⟩
      rw [hcurrent] at ht ⊢
      simp [Entry.take, ht]
    · refine .inr ⟨by omega, not_le.mp ht, ?_⟩
      rw [hcurrent] at ht ⊢
      by_cases hban : spec.banSeconds = 0
      · exact ⟨_, by simp only [Entry.take, ht, if_false, hban, ne_eq, not_true_eq_false, if_true]; rfl⟩
      · exact ⟨spec.banSeconds, by simp [Entry.take, ht, hban]⟩

theorem WellFormed.mono (he : e.WellFormed spec t) (h : t ≤ now) : e.WellFormed spec now :=
  ⟨he.tokens_nonneg, he.tokens_le, he.updated_le.trans h, he.banned⟩

theorem WellFormed.check (he : e.WellFormed spec t) (h : t ≤ now) :
    (e.check spec now).1.WellFormed spec now := by
  obtain ⟨hn, hle⟩ := current_tokens_bounds he h
  rcases check_cases spec now e with ⟨-, hc⟩ | ⟨-, ht, hc⟩ | ⟨-, -, retry, hc⟩
  · rw [hc]
    exact WellFormed.mono he h
  · rw [hc]
    exact ⟨by simpa using ht, by simp only; linarith, le_rfl, by simp⟩
  · rw [hc]
    refine ⟨hn, hle, le_rfl, ?_⟩
    simp only
    split
    · simp
    · rename_i hban
      exact fun _ => ⟨rfl, hban⟩

/-- An idle bucket is full, so that forgetting it makes no difference. -/
theorem check_of_stale (hspec : spec.Valid) (he : e.WellFormed spec t) {c : ℕ} (hc : c ≤ now)
    (hs : e.stale spec c = true) : e.check spec now = (.fresh spec now, none) := by
  simp only [Entry.stale, Bool.and_eq_true, decide_eq_true_eq] at hs
  have hfull : (e.current spec now).tokens = spec.maxRequests := by
    by_cases hb : e.bannedUntil = 0
    · rw [current_tokens hb (by simp only [seconds] at hs; omega)]
      refine Bucket.refill_eq_capacity he.tokens_nonneg ?_
      rw [← window_mul_rate hspec]
      refine mul_le_mul_of_nonneg_right ?_ (rate_nonneg spec)
      exact_mod_cast (by simp only [seconds] at hs ⊢; omega :
        seconds spec.windowSeconds ≤ now - e.updated)
    · exact current_tokens_of_banned hb
  have hone : (1 : ℚ) ≤ spec.maxRequests := by exact_mod_cast hspec.requests
  rcases check_cases spec now e with ⟨hb, -⟩ | ⟨-, -, hcheck⟩ | ⟨-, ht, -⟩
  · omega
  · rw [hcheck, hfull, ← fresh_tokens hspec now]
    rfl
  · rw [hfull] at ht
    exact absurd hone (not_le.mpr ht)

end Bucket

/-! ## One client of the table

What a client is told depends on its own bucket only, as long as the table does not lose it for lack
of room. -/

/-- A check of a client with this bucket, if it has one. -/
def bucket (spec : RateLimitSpec) (now : ℕ) : Option Entry → Entry × Option ℕ
  | none => (.fresh spec now, none)
  | some e => e.check spec now

/-- The times of the checks, each with its outcome. -/
def bucketTrace (spec : RateLimitSpec) : Option Entry → List ℕ → List (ℕ × Option ℕ)
  | _, [] => []
  | o, now :: rest => (now, (bucket spec now o).2) :: bucketTrace spec (some (bucket spec now o).1) rest

namespace RateLimiter

/-- The outcomes of a client's checks among all. -/
def trace (l : RateLimiter) (calls : List Call) (ip : Text) : List (ℕ × Option ℕ) :=
  ((calls.zip (l.decisions calls)).filter fun p => p.1.clientIp = ip).map fun p => (p.1.now, p.2)

/-- The call makes the full table lose the bucket of the client. -/
def Evicts (l : RateLimiter) (c : Call) (ip : Text) : Prop :=
  (l.arrive c.now).entries.lookup c.clientIp = none ∧ (l.arrive c.now).isFull = true ∧
    (l.arrive c.now).lru.head? = some ip

def NeverEvicted (ip : Text) : RateLimiter → List Call → Prop
  | _, [] => True
  | l, c :: cs => ¬ l.Evicts c ip ∧ NeverEvicted ip (l.check c.clientIp c.now).1 cs

end RateLimiter

/-- The calls come in the order of their times, none before `t`. -/
def Ordered (t : ℕ) : List Call → Prop
  | [] => True
  | c :: cs => t ≤ c.now ∧ Ordered c.now cs

instance decidableOrdered : (t : ℕ) → (calls : List Call) → Decidable (Ordered t calls)
  | _, [] => inferInstanceAs (Decidable True)
  | _, c :: cs => @instDecidableAnd _ _ _ (decidableOrdered c.now cs)

section Table

variable {l : RateLimiter} {ip : Text} {c : Call} {t now : ℕ}

theorem arrive_spec : (l.arrive now).spec = l.spec := by
  unfold RateLimiter.arrive RateLimiter.cleanup
  simp only
  split <;> rfl

theorem makeRoom_spec : l.makeRoom.spec = l.spec := by
  unfold RateLimiter.makeRoom RateLimiter.evictOldest
  split
  · split <;> rfl
  · rfl

theorem check_spec : (l.check ip now).1.spec = l.spec := by
  unfold RateLimiter.check
  split
  · rfl
  · simp only
    split
    · rw [makeRoom_spec, arrive_spec]
    · exact arrive_spec

/-- Cleaning removes a bucket only when it is idle. -/
theorem lookup_arrive (l : RateLimiter) (now : ℕ) (ip : Text) :
    (l.arrive now).entries.lookup ip = l.entries.lookup ip ∨
    ((l.arrive now).entries.lookup ip = none ∧
      ∃ e, l.entries.lookup ip = some e ∧ e.stale l.spec now = true) := by
  unfold RateLimiter.arrive
  simp only
  split
  · simp only [RateLimiter.cleanup, Table.lookup_mapFilter]
    cases he : l.entries.lookup ip with
    | none => exact .inl rfl
    | some e =>
      cases hs : e.stale l.spec now with
      | true => exact .inr ⟨by simp [hs], e, rfl, hs⟩
      | false => exact .inl (by simp [hs])
  · exact .inl rfl

theorem lookup_makeRoom (h : ¬ (l.isFull = true ∧ l.lru.head? = some ip)) :
    l.makeRoom.entries.lookup ip = l.entries.lookup ip := by
  unfold RateLimiter.makeRoom
  split
  · rename_i hfull
    unfold RateLimiter.evictOldest
    split
    · rfl
    · rename_i key rest hlru
      have hne : ip ≠ key := by
        rintro rfl
        exact h ⟨hfull, by simp [hlru]⟩
      simp [AList.lookup_erase_ne hne]
  · rfl

/-- A check of the client itself. -/
theorem check_self (henabled : l.spec.enabled = true) (ip : Text) (now : ℕ) :
    (l.check ip now).2 = (bucket l.spec now ((l.arrive now).entries.lookup ip)).2 ∧
      (l.check ip now).1.entries.lookup ip =
        some (bucket l.spec now ((l.arrive now).entries.lookup ip)).1 := by
  unfold RateLimiter.check
  simp only [henabled, Bool.true_eq_false, if_false]
  cases he : (l.arrive now).entries.lookup ip with
  | none => simp [bucket, makeRoom_spec, arrive_spec]
  | some e => simp [bucket, arrive_spec]

/-- A check of another client. -/
theorem check_other (henabled : l.spec.enabled = true) (hne : ip ≠ c.clientIp)
    (h : ¬ l.Evicts c ip) :
    (l.check c.clientIp c.now).1.entries.lookup ip = (l.arrive c.now).entries.lookup ip := by
  unfold RateLimiter.check
  simp only [henabled, Bool.true_eq_false, if_false]
  cases he : (l.arrive c.now).entries.lookup c.clientIp with
  | none =>
    simp only [AList.lookup_insert_ne hne]
    exact lookup_makeRoom fun hfull => h ⟨he, hfull⟩
  | some e => simp [AList.lookup_insert_ne hne]

/-- The table has the bucket, or has forgotten it when it was idle. -/
def Tracks (spec : RateLimitSpec) (t : ℕ) (stored kept : Option Entry) : Prop :=
  (∀ e, kept = some e → e.WellFormed spec t) ∧
    (stored = kept ∨ (stored = none ∧ ∃ e c, kept = some e ∧ c ≤ t ∧ e.stale spec c = true))

theorem Tracks.mono {spec : RateLimitSpec} {stored kept : Option Entry}
    (h : Tracks spec t stored kept) (ht : t ≤ now) : Tracks spec now stored kept := by
  refine ⟨fun e he => WellFormed.mono (h.1 e he) ht, ?_⟩
  rcases h.2 with h | ⟨h, e, c, hk, hc, hs⟩
  · exact .inl h
  · exact .inr ⟨h, e, c, hk, hc.trans ht, hs⟩

theorem Tracks.arrive {kept : Option Entry} (h : Tracks l.spec t (l.entries.lookup ip) kept)
    (ht : t ≤ now) : Tracks l.spec now ((l.arrive now).entries.lookup ip) kept := by
  have h := h.mono ht
  rcases lookup_arrive l now ip with heq | ⟨hnone, e, he, hs⟩
  · rwa [heq]
  · refine ⟨h.1, .inr ⟨hnone, ?_⟩⟩
    rcases h.2 with hkept | ⟨hkept, -⟩
    · exact ⟨e, now, hkept ▸ he, le_rfl, hs⟩
    · rw [hkept] at he
      cases he

/-- The table answers as the bucket alone would. -/
theorem Tracks.bucket_eq {spec : RateLimitSpec} (hspec : spec.Valid) {stored kept : Option Entry}
    (h : Tracks spec now stored kept) : bucket spec now stored = bucket spec now kept := by
  rcases h.2 with rfl | ⟨rfl, e, c, rfl, hc, hs⟩
  · rfl
  · exact (check_of_stale hspec (h.1 e rfl) hc hs).symm

theorem bucket_wellFormed {spec : RateLimitSpec} (hspec : spec.Valid) {kept : Option Entry}
    (h : ∀ e, kept = some e → e.WellFormed spec now) :
    (bucket spec now kept).1.WellFormed spec now := by
  cases kept with
  | none => exact WellFormed.fresh hspec now
  | some e => exact WellFormed.check (h e rfl) le_rfl

theorem trace_cons (l : RateLimiter) (c : Call) (cs : List Call) (ip : Text) :
    l.trace (c :: cs) ip =
      (if c.clientIp = ip then [(c.now, (l.check c.clientIp c.now).2)] else []) ++
        (l.check c.clientIp c.now).1.trace cs ip := by
  have hd : l.decisions (c :: cs) = (l.check c.clientIp c.now).2 ::
      (l.check c.clientIp c.now).1.decisions cs := rfl
  simp only [RateLimiter.trace, hd, List.zip_cons_cons, List.filter_cons, decide_eq_true_eq]
  split <;> rfl

/-- The outcomes of a client that is never evicted are those of a bucket of its own. -/
theorem trace_eq (hspec : l.spec.Valid) (henabled : l.spec.enabled = true) {calls : List Call}
    {kept : Option Entry} (horder : Ordered t calls)
    (htracks : Tracks l.spec t (l.entries.lookup ip) kept)
    (hevict : RateLimiter.NeverEvicted ip l calls) :
    l.trace calls ip =
      bucketTrace l.spec kept ((calls.filter fun c => c.clientIp = ip).map Call.now) := by
  induction calls generalizing l t kept with
  | nil => rfl
  | cons c cs ih =>
    obtain ⟨ht, horder⟩ := horder
    obtain ⟨hev, hevict⟩ := hevict
    have harrive := htracks.arrive ht
    have hs : (l.check c.clientIp c.now).1.spec = l.spec := check_spec
    rw [trace_cons]
    by_cases hip : c.clientIp = ip
    · subst hip
      obtain ⟨hdecision, hlookup⟩ := check_self henabled c.clientIp c.now
      rw [harrive.bucket_eq hspec] at hdecision hlookup
      have hnext : Tracks (l.check c.clientIp c.now).1.spec c.now
          ((l.check c.clientIp c.now).1.entries.lookup c.clientIp)
          (some (bucket l.spec c.now kept).1) := by
        rw [hs, hlookup]
        refine ⟨fun e he => ?_, .inl rfl⟩
        cases he
        exact bucket_wellFormed hspec harrive.1
      have hrest := ih (by rw [hs]; exact hspec) (by rw [hs]; exact henabled) horder hnext hevict
      simp [hdecision, hrest, hs, bucketTrace]
    · have hlookup := check_other henabled (Ne.symm hip) hev
      have hnext : Tracks (l.check c.clientIp c.now).1.spec c.now
          ((l.check c.clientIp c.now).1.entries.lookup ip) kept := by
        rw [hs, hlookup]
        exact harrive
      have hrest := ih (by rw [hs]; exact hspec) (by rw [hs]; exact henabled) horder hnext hevict
      simp [hip, hrest, hs]

/-- What a check leaves of the other buckets. -/
theorem lookup_check_ne {k : Text} {e : Entry} (hk : k ≠ ip)
    (h : (l.check ip now).1.entries.lookup k = some e) : l.entries.lookup k = some e := by
  have harrive : (l.arrive now).entries.lookup k = some e → l.entries.lookup k = some e := by
    rcases lookup_arrive l now k with heq | ⟨hnone, -⟩
    · rw [heq]
      exact id
    · rw [hnone]
      simp
  have hroom : (l.arrive now).makeRoom.entries.lookup k = some e →
      (l.arrive now).entries.lookup k = some e := by
    unfold RateLimiter.makeRoom RateLimiter.evictOldest
    split
    · split
      · exact id
      · rename_i key rest _
        by_cases hkey : k = key
        · subst hkey
          simp
        · rw [AList.lookup_erase_ne hkey]
          exact id
    · exact id
  unfold RateLimiter.check at h
  split at h
  · exact h
  · simp only at h
    split at h
    · simp only [AList.lookup_insert_ne hk] at h
      exact harrive (hroom h)
    · simp only [AList.lookup_insert_ne hk] at h
      exact harrive h

/-- A check adds no bucket but that of its client. -/
theorem lookup_check_isSome {k : Text} (h : ((l.check ip now).1.entries.lookup k).isSome) :
    k = ip ∨ (l.entries.lookup k).isSome := by
  by_cases hk : k = ip
  · exact .inl hk
  · obtain ⟨e, he⟩ := Option.isSome_iff_exists.mp h
    exact .inr (by simp [lookup_check_ne hk he])

/-- With no more clients than places no client is evicted. -/
theorem neverEvicted_of_card {clients : Finset Text} (hcard : clients.card ≤ maxRateLimitEntries)
    {calls : List Call} (hcalls : ∀ c ∈ calls, c.clientIp ∈ clients)
    (hl : ∀ k, (l.entries.lookup k).isSome → k ∈ clients) (ip : Text) :
    RateLimiter.NeverEvicted ip l calls := by
  induction calls generalizing l with
  | nil => trivial
  | cons c cs ih =>
    refine ⟨?_, ih (fun c' hc' => hcalls c' (by simp [hc'])) ?_⟩
    · rintro ⟨hnone, hfull, -⟩
      have hsub : (l.arrive c.now).entries.keys.toFinset ⊆ clients.erase c.clientIp := by
        intro k hk
        rw [List.mem_toFinset, ← AList.mem_keys, ← AList.lookup_isSome] at hk
        rw [Finset.mem_erase]
        constructor
        · rintro rfl
          rw [hnone] at hk
          cases hk
        · rcases lookup_arrive l c.now k with heq | ⟨hk', -⟩
          · exact hl k (heq ▸ hk)
          · rw [hk'] at hk; cases hk
      have hlen := Finset.card_le_card hsub
      rw [List.toFinset_card_of_nodup (AList.keys_nodup _),
        Finset.card_erase_of_mem (hcalls c (by simp))] at hlen
      have hpos : 0 < clients.card := Finset.card_pos.mpr ⟨_, hcalls c (by simp)⟩
      simp only [RateLimiter.isFull, decide_eq_true_eq] at hfull
      omega
    · intro k hk
      rcases lookup_check_isSome hk with rfl | hk
      · exact hcalls c (by simp)
      · exact hl k hk

end Table

end Policy
end WebServer
