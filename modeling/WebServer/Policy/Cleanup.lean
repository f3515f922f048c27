import WebServer.Policy.RateLimiter

/-!
# WebServer.Policy.Cleanup

Nobody can see that a `RateLimiter` cleans its table.

`cleanup` forgets buckets that are not full, and bans that are over. What it forgets has been idle for
longer than the window and the ban, so the next check of that client finds, without the cleanup, a
bucket that fills up to the brim before the token is taken: the one a new client would get.

* `RateLimiter.checkUncleaned`: the limiter in which `cleanup` never runs.
* `Agree`: the relation between the two tables, kept by every check.
* `decisions_uncleaned`: both limiters decide alike as long as no table is full.
-/

namespace WebServer
namespace Policy

open Http (Text)

namespace RateLimiter

/-- A check after the request was counted. -/
def serve (l : RateLimiter) (clientIp : Text) (now : ℕ) : RateLimiter × Option ℕ :=
  match l.entries.lookup clientIp with
  | none =>
    let l := l.makeRoom
    ({ l with entries := l.entries.insert clientIp (.fresh l.spec now),
              lru := l.lru ++ [clientIp] }, none)
  | some e =>
    let (e, decision) := e.check l.spec now
    ({ l with entries := l.entries.insert clientIp e,
              lru := l.lru.erase clientIp ++ [clientIp] }, decision)

theorem check_eq_serve (l : RateLimiter) (clientIp : Text) (now : ℕ) :
    l.check clientIp now =
      if l.spec.enabled = false then (l, none) else (l.arrive now).serve clientIp now := rfl

/-- `check` without the call of `cleanup`. -/
def checkUncleaned (l : RateLimiter) (clientIp : Text) (now : ℕ) : RateLimiter × Option ℕ :=
  if l.spec.enabled = false then (l, none)
  else { l with requestCount := l.requestCount + 1 }.serve clientIp now

def decisionsUncleaned : RateLimiter → List Call → List (Option ℕ)
  | _, [] => []
  | l, c :: cs =>
    (l.checkUncleaned c.clientIp c.now).2 ::
      decisionsUncleaned (l.checkUncleaned c.clientIp c.now).1 cs

/-- The table has buckets of these clients only. -/
def Within (clients : Finset Text) (l : RateLimiter) : Prop :=
  ∀ k, (l.entries.lookup k).isSome → k ∈ clients

end RateLimiter

section Serve

variable {l : RateLimiter} {clients : Finset Text} {ip : Text} {now : ℕ}

theorem serve_spec : (l.serve ip now).1.spec = l.spec := by
  unfold RateLimiter.serve
  split
  · exact makeRoom_spec
  · rfl

theorem isFull_of_within (hcard : clients.card < maxRateLimitEntries) (h : l.Within clients) :
    l.isFull = false := by
  have hsub : l.entries.keys.toFinset ⊆ clients := by
    intro k hk
    rw [List.mem_toFinset, ← AList.mem_keys, ← AList.lookup_isSome] at hk
    exact h k hk
  have hlen := Finset.card_le_card hsub
  rw [List.toFinset_card_of_nodup (AList.keys_nodup _)] at hlen
  simp only [RateLimiter.isFull, decide_eq_false_iff_not, not_le]
  omega

theorem serve_decision : (l.serve ip now).2 = (bucket l.spec now (l.entries.lookup ip)).2 := by
  unfold RateLimiter.serve
  cases l.entries.lookup ip <;> rfl

/-- With room in the table a check touches the bucket of its client only. -/
theorem lookup_serve (hroom : l.isFull = false) (k : Text) :
    (l.serve ip now).1.entries.lookup k =
      if k = ip then some (bucket l.spec now (l.entries.lookup ip)).1 else l.entries.lookup k := by
  have hkeep : l.makeRoom = l := by simp [RateLimiter.makeRoom, hroom]
  unfold RateLimiter.serve
  by_cases hk : k = ip
  · subst hk
    cases l.entries.lookup k <;> simp [bucket, hkeep]
  · cases l.entries.lookup ip <;> simp [hk, hkeep, AList.lookup_insert_ne hk]

theorem Within.serve (hroom : l.isFull = false) (h : l.Within clients) (hip : ip ∈ clients) :
    (l.serve ip now).1.Within clients := by
  intro k hk
  rw [lookup_serve hroom] at hk
  split at hk
  · rename_i hkip
    rwa [hkip]
  · exact h k hk

theorem Within.arrive (h : l.Within clients) : (l.arrive now).Within clients := by
  intro k hk
  rcases lookup_arrive l now k with heq | ⟨hnone, -⟩
  · exact h k (heq ▸ hk)
  · rw [hnone] at hk
    cases hk

end Serve

/-! ## The two runs -/

/-- The cleaned table `l` beside the other one: what is missing in it was idle. -/
structure Agree (clients : Finset Text) (t : ℕ) (l u : RateLimiter) : Prop where
  spec : u.spec = l.spec
  tracks : ∀ ip, Tracks l.spec t (l.entries.lookup ip) (u.entries.lookup ip)
  within : l.Within clients
  withinUncleaned : u.Within clients

section Runs

variable {clients : Finset Text} {l u : RateLimiter} {t : ℕ} {c : Call}

theorem Agree.arrive (h : Agree clients t l u) {now : ℕ} (ht : t ≤ now) :
    Agree clients now (l.arrive now) { u with requestCount := u.requestCount + 1 } where
  spec := by rw [arrive_spec]; exact h.spec
  tracks ip := by rw [arrive_spec]; exact (h.tracks ip).arrive ht
  within := Within.arrive h.within
  withinUncleaned := h.withinUncleaned

/-- Both answer alike, and the relation holds again. -/
theorem Agree.serve (hspec : l.spec.Valid) (hcard : clients.card < maxRateLimitEntries)
    (h : Agree clients c.now l u) (hc : c.clientIp ∈ clients) :
    (l.serve c.clientIp c.now).2 = (u.serve c.clientIp c.now).2 ∧
      Agree clients c.now (l.serve c.clientIp c.now).1 (u.serve c.clientIp c.now).1 := by
  have hl := isFull_of_within hcard h.within
  have hu := isFull_of_within hcard h.withinUncleaned
  have hbucket := (h.tracks c.clientIp).bucket_eq hspec
  refine ⟨by rw [serve_decision, serve_decision, h.spec, hbucket], ?_⟩
  refine ⟨by rw [serve_spec, serve_spec, h.spec], fun ip => ?_, Within.serve hl h.within hc,
    Within.serve hu h.withinUncleaned hc⟩
  rw [serve_spec, lookup_serve hl, lookup_serve hu, h.spec]
  split
  · rw [hbucket]
    refine ⟨fun e he => ?_, .inl rfl⟩
    cases he
    exact bucket_wellFormed hspec (h.tracks c.clientIp).1
  · exact h.tracks ip

theorem Agree.decisions (hspec : l.spec.Valid) (hon : l.spec.enabled = true)
    (hcard : clients.card < maxRateLimitEntries) {calls : List Call} (horder : Ordered t calls)
    (hcalls : ∀ c ∈ calls, c.clientIp ∈ clients) (h : Agree clients t l u) :
    l.decisions calls = u.decisionsUncleaned calls := by
  induction calls generalizing l u t with
  | nil => rfl
  | cons c cs ih =>
    have hspec' : (l.arrive c.now).spec = l.spec := arrive_spec
    obtain ⟨hdecision, hnext⟩ := (h.arrive horder.1).serve (by rw [hspec']; exact hspec) hcard
      (hcalls c (by simp))
    have hcheck : l.check c.clientIp c.now = (l.arrive c.now).serve c.clientIp c.now := by
      simp [RateLimiter.check_eq_serve, hon]
    have huncleaned : u.checkUncleaned c.clientIp c.now =
        { u with requestCount := u.requestCount + 1 }.serve c.clientIp c.now := by
      simp [RateLimiter.checkUncleaned, h.spec, hon]
    rw [RateLimiter.decisions, RateLimiter.decisionsUncleaned, hcheck, huncleaned, hdecision]
    have hs : ((l.arrive c.now).serve c.clientIp c.now).1.spec = l.spec := by rw [serve_spec, hspec']
    rw [ih (by rw [hs]; exact hspec) (by rw [hs]; exact hon) horder.2
      (fun c' hc' => hcalls c' (by simp [hc'])) hnext]

theorem decisions_disabled (hoff : l.spec.enabled = false) (calls : List Call) :
    l.decisions calls = l.decisionsUncleaned calls := by
  induction calls with
  | nil => rfl
  | cons c cs ih =>
    have hcheck : l.check c.clientIp c.now = (l, none) := by simp [RateLimiter.check, hoff]
    have huncleaned : l.checkUncleaned c.clientIp c.now = (l, none) := by
      simp [RateLimiter.checkUncleaned, hoff]
    rw [RateLimiter.decisions, RateLimiter.decisionsUncleaned, hcheck, huncleaned, ih]

/-- The clients of a run. -/
def clientsOf (calls : List Call) : Finset Text := (calls.map Call.clientIp).toFinset

/-- For fewer clients than the table has places. -/
theorem decisions_uncleaned (spec : RateLimitSpec) {l : RateLimiter}
    (h : RateLimiter.make spec = .ok l) {calls : List Call} (horder : Ordered 0 calls)
    (hclients : (clientsOf calls).card < maxRateLimitEntries) :
    l.decisions calls = l.decisionsUncleaned calls := by
  obtain ⟨rfl, hvalid⟩ := RateLimiter.make_ok h
  cases hon : spec.enabled with
  | false => exact decisions_disabled hon calls
  | true =>
    have hstart : Agree (clientsOf calls) 0 ⟨spec, ∅, [], 0⟩ ⟨spec, ∅, [], 0⟩ :=
      ⟨rfl, fun ip => ⟨by simp, .inl rfl⟩, fun k hk => by simp at hk, fun k hk => by simp at hk⟩
    refine hstart.decisions (hvalid hon) hon hclients horder fun c hc => ?_
    simp only [clientsOf, List.mem_toFinset, List.mem_map]
    exact ⟨c, hc, rfl⟩

end Runs

/-! ## A bucket that is forgotten -/

/-- A client was admitted once, and another is banned. -/
def banned (n : ℕ) : RateLimiter :=
  ⟨⟨true, 1, 1, 2⟩, (AList.insert [1] ⟨0, 0, 0⟩ ∅).insert [2] ⟨0, 0, seconds 2⟩, [[1], [2]], n⟩

theorem check_banned {n : ℕ} (h : (n + 1) % 1024 ≠ 0) :
    (banned n).check [2] 0 = (banned (n + 1), some 2) := by
  have harrive : (banned n).arrive 0 = banned (n + 1) := by
    simp only [RateLimiter.arrive, banned, h, if_false]
  rw [RateLimiter.check_eq_serve, if_neg (by simp [banned]), harrive]
  rfl

theorem after_banned (m : ℕ) : ∀ n, n + m < 1024 →
    (banned n).after (List.replicate m ⟨[2], 0⟩) = banned (n + m) := by
  induction m with
  | zero => exact fun n _ => rfl
  | succ m ih =>
    intro n h
    rw [List.replicate_succ, RateLimiter.after, check_banned (by omega), ih (n + 1) (by omega)]
    congr 1
    omega

/-- The banned client comes back until the table is about to be cleaned. -/
def lateCalls : List Call := [⟨[1], 0⟩, ⟨[2], 0⟩, ⟨[2], 0⟩] ++ List.replicate 1020 ⟨[2], 0⟩

theorem after_append {l : RateLimiter} (first rest : List Call) :
    l.after (first ++ rest) = (l.after first).after rest := by
  induction first generalizing l with
  | nil => rfl
  | cons c cs ih => exact ih

theorem after_lateCalls :
    RateLimiter.after ⟨⟨true, 1, 1, 2⟩, ∅, [], 0⟩ lateCalls = banned 1023 := by
  have hfirst : RateLimiter.after ⟨⟨true, 1, 1, 2⟩, ∅, [], 0⟩ [⟨[1], 0⟩, ⟨[2], 0⟩, ⟨[2], 0⟩] =
      banned 3 := by
    have hban : Entry.check ⟨true, 1, 1, 2⟩ 0 ⟨0, 0, 0⟩ = (⟨0, 0, seconds 2⟩, some 2) := by
      decide +kernel
    simp [RateLimiter.after, RateLimiter.check_eq_serve, RateLimiter.arrive, RateLimiter.serve,
      RateLimiter.makeRoom, RateLimiter.isFull, maxRateLimitEntries, Entry.fresh, hban, banned,
      AList.lookup_insert_ne, -AList.insert_empty]
  rw [lateCalls, after_append, hfirst, after_banned 1020 3 (by decide)]

/-- The 1024th check makes the table forget the bucket of its own client, which was idle for longer
than the window and the ban. -/
theorem decisions_uncleaned_forgotten :
    (RateLimiter.after ⟨⟨true, 1, 1, 2⟩, ∅, [], 0⟩ lateCalls).entries.lookup [1] =
        some ⟨0, 0, 0⟩ ∧
      ((RateLimiter.after ⟨⟨true, 1, 1, 2⟩, ∅, [], 0⟩ lateCalls).arrive
        (seconds 100)).entries.lookup [1] = none ∧
      RateLimiter.decisions ⟨⟨true, 1, 1, 2⟩, ∅, [], 0⟩ (lateCalls ++ [⟨[1], seconds 100⟩]) =
        RateLimiter.decisionsUncleaned ⟨⟨true, 1, 1, 2⟩, ∅, [], 0⟩
          (lateCalls ++ [⟨[1], seconds 100⟩]) := by
  rw [after_lateCalls]
  exact ⟨by decide, by decide,
    decisions_uncleaned ⟨true, 1, 1, 2⟩ rfl (by decide +kernel) (by decide +kernel)⟩

end Policy
end WebServer
