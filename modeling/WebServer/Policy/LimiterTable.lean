import WebServer.Lib.Lru
import WebServer.Policy.Cleanup

/-!
# WebServer.Policy.LimiterTable

The hash map and the list of `RateLimiter` as they stand in memory: `entries_` with an iterator in
every entry, and `lru_` with its nodes.

Calls may come with any clock, and may run out of memory where the source allocates (`Failure`). What
is computed with the times is left open (`Buckets`), as nothing here depends on it.

* `LimiterTable.check` is `none` when the source would use an iterator that is not valid.
* `Inv`: the map and the list fit together, and the list is in the order of the last checks.
* `limiter_represented`: this holds in every state that can be reached, and an eviction takes the
  client that was checked least recently.
* `check_refines`, `outcomes_refine`: without failures the table does what `RateLimiter.check` does.
-/

namespace WebServer
namespace Policy

open Http (Text)

/-- What is computed for one entry: for a new one, at a check, and whether the cleanup takes it. -/
structure Buckets (τ ε : Type) where
  fresh : τ → ε
  check : τ → ε → ε × Option ℕ
  stale : τ → ε → Bool

structure LimiterTable (ε : Type) where
  enabled : Bool
  table : Lru Text ε
  requestCount : ℕ

/-- Where memory runs out: for the copy of the address, the node of the list or the entry. -/
inductive Failure where
  | key
  | pushBack
  | emplace
  deriving DecidableEq

structure TableCall (τ : Type) where
  clientIp : Text
  now : τ
  failure : Option Failure

inductive Outcome where
  | returned (retryAfter : Option ℕ)
  | threw
  deriving DecidableEq

section Check

variable {τ ε : Type} (b : Buckets τ ε)

/-- The table after every 1024th request has cleaned it. -/
def LimiterTable.cleaned (s : LimiterTable ε) (now : τ) : Option (Lru Text ε) :=
  if (s.requestCount + 1) % 1024 = 0 then s.table.eraseWhere (b.stale now) else some s.table

/-- A place for a client that is not in the table. -/
def roomFor (table : Lru Text ε) : Lru Text ε :=
  if maxRateLimitEntries ≤ table.entries.keys.length then table.evictOldest else table

/-- A client that is not in the table. -/
def insertNew (table : Lru Text ε) (c : TableCall τ) : Option (Lru Text ε × Outcome) :=
  let table := roomFor table
  if c.failure = some .pushBack then some (table, .threw)
  else
    let pushed := table.pushBack c.clientIp
    match pushed.backPosition with
    | none => none
    | some position =>
      if c.failure = some .emplace then some (pushed.popBack, .threw)
      else some (pushed.store c.clientIp ⟨b.fresh c.now, position⟩, .returned none)

def serveTable (table : Lru Text ε) (c : TableCall τ) : Option (Lru Text ε × Outcome) :=
  if c.failure = some .key then some (table, .threw)
  else
    match table.entries.lookup c.clientIp with
    | none => insertNew b table c
    | some slot =>
      let (value, decision) := b.check c.now slot.value
      (table.visit c.clientIp slot value).map fun table => (table, .returned decision)

def LimiterTable.check (s : LimiterTable ε) (c : TableCall τ) : Option (LimiterTable ε × Outcome) :=
  if s.enabled = false then some (s, .returned none)
  else
    match s.cleaned b c.now with
    | none => none
    | some table =>
      (serveTable b table c).map fun r => (⟨s.enabled, r.1, s.requestCount + 1⟩, r.2)

/-- The checks that returned, in their order. -/
def Outcome.checked (outcome : Outcome) (clientIp : Text) : List Text :=
  match outcome with
  | .returned _ => [clientIp]
  | .threw => []

/-- The states that calls can reach, with the clients that were checked. -/
inductive TableReached : List Text → LimiterTable ε → Prop where
  | start (enabled : Bool) : TableReached [] ⟨enabled, ⟨∅, [], 0⟩, 0⟩
  | check {history : List Text} {s s' : LimiterTable ε} {c : TableCall τ} {outcome : Outcome}
    (h : TableReached history s) (hcheck : s.check b c = some (s', outcome)) :
    TableReached (history ++ outcome.checked c.clientIp) s'

end Check

/-! ## The order of the last checks -/

/-- The index of the last check of a client. -/
def lastCheck (history : List Text) (ip : Text) : ℕ := history.length - 1 - history.reverse.idxOf ip

theorem lastCheck_concat (history : List Text) (ip k : Text) :
    lastCheck (history ++ [ip]) k = if k = ip then history.length else lastCheck history k := by
  unfold lastCheck
  rw [List.reverse_append, List.length_append, List.reverse_singleton, List.singleton_append,
    List.idxOf_cons]
  by_cases hk : k = ip
  · subst hk
    simp
  · have hne : (ip == k) = false := beq_eq_false_iff_ne.mpr (Ne.symm hk)
    rw [if_neg hk, hne]
    simp only [List.length_singleton, cond_false]
    omega

theorem lastCheck_lt {history : List Text} {k : Text} (h : k ∈ history) :
    lastCheck history k < history.length := by
  have hpos := List.length_pos_of_mem h
  unfold lastCheck
  omega

/-- Before the call, and after it. -/
structure Inv {ε : Type} (history : List Text) (table : Lru Text ε) : Prop where
  coherent : table.Coherent
  size : table.order.length ≤ maxRateLimitEntries
  recent : (table.order.map Node.key).Pairwise fun a b => lastCheck history a < lastCheck history b
  checked : ∀ n ∈ table.order, n.key ∈ history

section Steps

variable {τ ε : Type} {history : List Text} {table : Lru Text ε} {ip : Text}

/-- The nodes that stay, and the one of the client that was checked. -/
theorem recent_concat {order : List (Node Text)} {position : ℕ}
    (hrecent : (order.map Node.key).Pairwise fun a b => lastCheck history a < lastCheck history b)
    (hchecked : ∀ n ∈ order, n.key ∈ history) (hne : ∀ n ∈ order, n.key ≠ ip) :
    ((order ++ [(⟨position, ip⟩ : Node Text)]).map Node.key).Pairwise fun a b =>
      lastCheck (history ++ [ip]) a < lastCheck (history ++ [ip]) b := by
  rw [List.map_append, List.pairwise_append]
  refine ⟨hrecent.imp_of_mem fun {a b} ha hb hab => ?_, by simp, fun a ha k hk => ?_⟩
  · obtain ⟨n, hn, rfl⟩ := List.mem_map.mp ha
    obtain ⟨m, hm, rfl⟩ := List.mem_map.mp hb
    rwa [lastCheck_concat, lastCheck_concat, if_neg (hne n hn), if_neg (hne m hm)]
  · obtain ⟨n, hn, rfl⟩ := List.mem_map.mp ha
    simp only [List.map_cons, List.map_nil, List.mem_singleton] at hk
    rw [hk, lastCheck_concat, lastCheck_concat, if_neg (hne n hn), if_pos rfl]
    exact lastCheck_lt (hchecked n hn)

theorem Inv.visit (h : Inv history table) {slot : Slot ε} (hslot : table.entries.lookup ip = some slot)
    (value : ε) : ∃ table', table.visit ip slot value = some table' ∧ Inv (history ++ [ip]) table' ∧
      ∀ k, k ∈ table.entries → k ∈ table'.entries := by
  obtain ⟨hvisit, hcoherent⟩ := h.coherent.visit hslot value
  have hmem := fun {n} => h.coherent.mem_without_iff hslot (n := n)
  refine ⟨_, hvisit, ⟨hcoherent, ?_, ?_, ?_⟩, fun k hk => ?_⟩
  · rw [(h.coherent.perm_toEnd hslot).length_eq]
    exact h.size
  · refine recent_concat ?_ (fun n hn => h.checked n (hmem.mp hn).1) fun n hn => (hmem.mp hn).2
    exact h.recent.sublist (List.filter_sublist.map _)
  · intro n hn
    have hn := (h.coherent.perm_toEnd hslot).mem_iff.mp hn
    exact List.mem_append_left _ (h.checked n hn)
  · simp only [AList.mem_insert]
    exact .inr hk

theorem Inv.evictOldest (h : Inv history table) : Inv history table.evictOldest := by
  refine ⟨h.coherent.evictOldest, ?_, ?_, ?_⟩
  all_goals
    unfold Lru.evictOldest
    split
  · exact h.size
  · rename_i horder
    have hsize := h.size
    rw [horder, List.length_cons] at hsize
    exact Nat.le_of_succ_le hsize
  · exact h.recent
  · rename_i horder
    have hrecent := h.recent
    rw [horder, List.map_cons, List.pairwise_cons] at hrecent
    exact hrecent.2
  · exact h.checked
  · rename_i horder
    exact fun m hm => h.checked m (by rw [horder]; simp [hm])

/-- What is in the first table and not in the second was removed for lack of room: it is the client
that was checked least recently, and not the one that is checked now. -/
def EvictsOldest (history : List Text) (ip : Text) (before after : Lru Text ε) : Prop :=
  ∀ victim ∈ before.entries, victim ∉ after.entries →
    victim ≠ ip ∧ maxRateLimitEntries ≤ before.entries.keys.length ∧
      ∀ k ∈ before.entries, k ≠ victim → lastCheck history victim < lastCheck history k

theorem Inv.roomFor (h : Inv history table) (hip : table.entries.lookup ip = none) :
    Inv history (roomFor table) ∧ (Policy.roomFor table).order.length < maxRateLimitEntries ∧
      (Policy.roomFor table).entries.lookup ip = none ∧
      EvictsOldest history ip table (Policy.roomFor table) := by
  have hlength := h.coherent.length_keys
  unfold Policy.roomFor
  split
  · rename_i hfull
    cases horder : table.order with
    | nil =>
      rw [hlength, horder] at hfull
      exact absurd hfull (by decide)
    | cons n rest =>
      have hevict : table.evictOldest = { table with entries := table.entries.erase n.key, order := rest } := by
        simp [Lru.evictOldest, horder]
      have hrecent := h.recent
      rw [horder, List.map_cons, List.pairwise_cons] at hrecent
      refine ⟨h.evictOldest, ?_, ?_, fun victim hvictim hgone => ?_⟩
      · have hsize := h.size
        rw [hevict]
        rw [horder, List.length_cons] at hsize
        exact hsize
      · rw [hevict]
        by_cases hk : ip = n.key
        · rw [hk, AList.lookup_erase]
        · rw [AList.lookup_erase_ne hk, hip]
      · have hkey : victim = n.key := by
          by_contra hne
          exact hgone (by rw [hevict]; exact AList.mem_erase.mpr ⟨hne, hvictim⟩)
        refine ⟨?_, hfull, fun k hk hne => ?_⟩
        · rintro rfl
          rw [← AList.lookup_isSome, hip] at hvictim
          cases hvictim
        · rw [← h.coherent.mem_keys_iff, horder, List.map_cons, List.mem_cons] at hk
          rw [hkey] at hne ⊢
          exact hrecent.1 k (hk.resolve_left hne)
  · rename_i hroom
    exact ⟨h, by omega, hip, fun victim hvictim hgone => absurd hvictim hgone⟩

theorem Inv.insert (h : Inv history table) (hroom : table.order.length < maxRateLimitEntries)
    (hip : table.entries.lookup ip = none) (value : ε) :
    Inv (history ++ [ip]) ((table.pushBack ip).store ip ⟨value, table.nextAddress⟩) := by
  have hne : ∀ n ∈ table.order, n.key ≠ ip := by
    rintro n hn rfl
    obtain ⟨slot, hslot⟩ := h.coherent.stored n hn
    rw [hslot] at hip
    cases hip
  refine ⟨(h.coherent.insert hip value).2, ?_, recent_concat h.recent h.checked hne, ?_⟩
  · simp only [Lru.store, Lru.pushBack, List.length_append, List.length_singleton]
    omega
  · intro n hn
    simp only [Lru.store, Lru.pushBack, List.mem_append, List.mem_singleton] at hn ⊢
    rcases hn with hn | rfl
    · exact .inl (h.checked n hn)
    · exact .inr rfl

variable (b : Buckets τ ε)

/-- A client that is not in the table: the insertion, or what is left of it when memory runs out. -/
theorem Inv.insertNew (h : Inv history table) (c : TableCall τ)
    (hip : table.entries.lookup c.clientIp = none) :
    ∃ table' outcome, insertNew b table c = some (table', outcome) ∧
      Inv (history ++ outcome.checked c.clientIp) table' ∧
      EvictsOldest history c.clientIp table table' := by
  obtain ⟨hroom, hsize, hnone, hevicts⟩ := h.roomFor hip
  unfold Policy.insertNew
  dsimp only
  split
  · refine ⟨_, _, rfl, ?_, hevicts⟩
    rw [Outcome.checked, List.append_nil]
    exact hroom
  · rw [(hroom.coherent.insert hnone (b.fresh c.now)).1]
    dsimp only
    split
    · refine ⟨_, _, rfl, ?_, ?_⟩
      · rw [Outcome.checked, List.append_nil, Lru.popBack_pushBack]
        exact ⟨hroom.coherent.allocate, hroom.size, hroom.recent, hroom.checked⟩
      · rw [Lru.popBack_pushBack]
        exact hevicts
    · refine ⟨_, _, rfl, hroom.insert hsize hnone _, fun victim hvictim hgone => ?_⟩
      refine hevicts victim hvictim fun hmem => hgone ?_
      simp only [Lru.store, AList.mem_insert]
      exact .inr hmem

theorem Inv.serveTable (h : Inv history table) (c : TableCall τ) :
    ∃ table' outcome, serveTable b table c = some (table', outcome) ∧
      Inv (history ++ outcome.checked c.clientIp) table' ∧
      EvictsOldest history c.clientIp table table' := by
  unfold Policy.serveTable
  split
  · refine ⟨_, _, rfl, ?_, fun victim hvictim hgone => absurd hvictim hgone⟩
    rw [Outcome.checked, List.append_nil]
    exact h
  · split
    · rename_i hip
      exact h.insertNew b c hip
    · rename_i slot hslot
      obtain ⟨table', hvisit, hinv, hkeep⟩ := h.visit hslot (b.check c.now slot.value).1
      refine ⟨table', .returned (b.check c.now slot.value).2, ?_, hinv,
        fun victim hvictim hgone => absurd (hkeep victim hvictim) hgone⟩
      simp [hvisit]

/-- Cleaning takes entries away, and the nodes that are left keep their order. -/
theorem Inv.cleaned {s : LimiterTable ε} (h : Inv history s.table) (now : τ) :
    ∃ table, s.cleaned b now = some table ∧ Inv history table ∧
      ∀ k slot, s.table.entries.lookup k = some slot → k ∉ table.entries →
        b.stale now slot.value = true := by
  unfold LimiterTable.cleaned
  split
  · obtain ⟨table, htable, hcoherent, hsub, hlookup⟩ := h.coherent.eraseWhere (b.stale now)
    refine ⟨table, htable, ⟨hcoherent, hsub.length_le.trans h.size, h.recent.sublist (hsub.map _),
      fun n hn => h.checked n (hsub.subset hn)⟩, fun k slot hslot hgone => ?_⟩
    rw [← AList.lookup_isSome, hlookup, hslot] at hgone
    simpa [Option.filter] using hgone
  · refine ⟨s.table, rfl, h, fun k slot hslot hgone => ?_⟩
    rw [← AList.lookup_isSome, hslot] at hgone
    exact absurd rfl hgone

end Steps

/-! ## Every reachable state -/

/-- The state in the words of the source: `entries_` and `lru_`. -/
structure Represented {ε : Type} (history : List Text) (table : Lru Text ε) : Prop where
  sameKeys : ∀ k, k ∈ table.entries ↔ k ∈ table.order.map Node.key
  nodup : (table.order.map Node.key).Nodup
  position : ∀ k slot, table.entries.lookup k = some slot →
    ⟨slot.position, k⟩ ∈ table.order ∧ ∀ n ∈ table.order, n.address = slot.position → n.key = k
  size : table.entries.keys.length ≤ maxRateLimitEntries
  recent : (table.order.map Node.key).Pairwise fun a b => lastCheck history a < lastCheck history b

section Reachable

variable {τ ε : Type} {b : Buckets τ ε} {history : List Text} {s : LimiterTable ε}

theorem Inv.represented {table : Lru Text ε} (h : Inv history table) : Represented history table where
  sameKeys k := (h.coherent.mem_keys_iff k).symm
  nodup := h.coherent.keys
  position k slot hslot := ⟨h.coherent.listed k slot hslot, fun n hn haddress => by
    rw [h.coherent.eq_of_address hn (h.coherent.listed k slot hslot) haddress]⟩
  size := by rw [h.coherent.length_keys]; exact h.size
  recent := h.recent

/-- A limiter that is switched off has an empty table. -/
structure Reachable (history : List Text) (s : LimiterTable ε) : Prop where
  inv : s.enabled = true → Inv history s.table
  off : s.enabled = false → s.table = ⟨∅, [], 0⟩

theorem Reachable.table_inv (h : Reachable history s) : Inv history s.table := by
  cases hon : s.enabled with
  | true => exact h.inv hon
  | false =>
    rw [h.off hon]
    exact ⟨.empty, by simp, by simp, by simp⟩

theorem Reachable.check (h : Reachable history s) (c : TableCall τ) :
    ∃ s' outcome, s.check b c = some (s', outcome) ∧
      Reachable (history ++ outcome.checked c.clientIp) s' ∧
      (s.enabled = true → ∃ table, s.cleaned b c.now = some table ∧
        (∀ k slot, s.table.entries.lookup k = some slot → k ∉ table.entries →
          b.stale c.now slot.value = true) ∧
        EvictsOldest history c.clientIp table s'.table) := by
  unfold LimiterTable.check
  cases hon : s.enabled with
  | false =>
    refine ⟨s, .returned none, by simp, ⟨fun h' => ?_, h.off⟩, by simp⟩
    rw [hon] at h'
    cases h'
  | true =>
    obtain ⟨table, htable, hinv, hstale⟩ := (h.inv hon).cleaned b c.now
    obtain ⟨table', outcome, hserve, hinv', hevicts⟩ := hinv.serveTable b c
    refine ⟨⟨true, table', s.requestCount + 1⟩, outcome, ?_, ⟨fun _ => hinv', by simp⟩,
      fun _ => ⟨table, htable, hstale, hevicts⟩⟩
    simp [htable, hserve]

theorem TableReached.reachable (h : TableReached b history s) : Reachable history s := by
  induction h with
  | start enabled => exact ⟨fun _ => ⟨.empty, by simp, by simp, by simp⟩, fun _ => rfl⟩
  | @check history s s' c outcome h hcheck ih =>
    obtain ⟨t, o, heq, hreachable, -⟩ := ih.check (b := b) c
    rw [hcheck] at heq
    cases heq
    exact hreachable

end Reachable

/-! ## The limiter of the other modules

Without failures, and with exact tokens, the table does what `RateLimiter.check` does. -/

def RateLimitSpec.buckets (spec : RateLimitSpec) : Buckets ℕ Entry where
  fresh := .fresh spec
  check now e := e.check spec now
  stale now e := e.stale spec now

structure Represents (s : LimiterTable Entry) (l : RateLimiter) : Prop where
  enabled : s.enabled = l.spec.enabled
  count : s.requestCount = l.requestCount
  lru : l.lru = s.table.order.map Node.key
  lookup : ∀ k, l.entries.lookup k = (s.table.entries.lookup k).map Slot.value

section Refinement

variable {history : List Text} {s : LimiterTable Entry} {l : RateLimiter}

theorem eq_filter_of_sublist {α : Type} {l l' : List α} {p : α → Bool} (hl : l.Nodup)
    (hsub : l'.Sublist l) (hmem : ∀ a, a ∈ l' ↔ a ∈ l ∧ p a = true) : l' = l.filter p := by
  have hfiltered : l'.filter p = l' := List.filter_eq_self.mpr fun a ha => ((hmem a).mp ha).2
  have hperm : l'.Perm (l.filter p) := by
    rw [List.perm_ext_iff_of_nodup (hl.sublist hsub) (hl.filter p)]
    intro a
    rw [hmem, List.mem_filter]
  have hle := hsub.filter p
  rw [hfiltered] at hle
  exact hle.eq_of_length hperm.length_eq

theorem Represents.mem_iff (h : Represents s l) (k : Text) :
    k ∈ l.entries ↔ k ∈ s.table.entries := by
  rw [← AList.lookup_isSome, ← AList.lookup_isSome, h.lookup, Option.isSome_map]

theorem Represents.length_keys (h : Represents s l) :
    l.entries.keys.length = s.table.entries.keys.length := by
  refine List.Perm.length_eq ?_
  rw [List.perm_ext_iff_of_nodup (AList.keys_nodup _) (AList.keys_nodup _)]
  intro k
  rw [← AList.mem_keys, ← AList.mem_keys, h.mem_iff]

theorem Represents.cleaned (hinv : Inv history s.table) (h : Represents s l) (now : ℕ) :
    ∃ table, s.cleaned l.spec.buckets now = some table ∧ Inv history table ∧
      Represents ⟨s.enabled, table, s.requestCount + 1⟩ (l.arrive now) := by
  obtain ⟨table, htable, hinv', -⟩ := hinv.cleaned l.spec.buckets now
  refine ⟨table, htable, hinv', ?_⟩
  unfold LimiterTable.cleaned at htable
  unfold RateLimiter.arrive
  rw [h.count] at htable ⊢
  dsimp only
  split at htable
  · rename_i hclean
    rw [if_pos hclean]
    obtain ⟨table', htable', -, hsub, hlookup⟩ :=
      hinv.coherent.eraseWhere (l.spec.buckets.stale now)
    rw [htable] at htable'
    cases htable'
    set cleaned := RateLimiter.cleanup { l with requestCount := l.requestCount + 1 } now
    have hentries : ∀ k, cleaned.entries.lookup k = (table.entries.lookup k).map Slot.value := by
      intro k
      simp only [cleaned, RateLimiter.cleanup, Table.lookup_mapFilter, h.lookup, hlookup]
      cases s.table.entries.lookup k with
      | none => rfl
      | some slot =>
        simp only [Option.map_some, Option.bind_some, Option.filter, RateLimitSpec.buckets]
        by_cases hstale : slot.value.stale l.spec now = true <;> simp [hstale]
    refine ⟨h.enabled, rfl, ?_, hentries⟩
    have hlru : cleaned.lru = (s.table.order.map Node.key).filter fun k =>
        (cleaned.entries.lookup k).isSome := by
      rw [← h.lru]
      rfl
    rw [hlru]
    refine (eq_filter_of_sublist hinv.coherent.keys (hsub.map _) fun k => ?_).symm
    rw [hentries, Option.isSome_map, AList.lookup_isSome, ← hinv'.coherent.mem_keys_iff]
    exact ⟨fun hk => ⟨(hsub.map _).subset hk, hk⟩, And.right⟩
  · rename_i hkeep
    rw [if_neg hkeep]
    cases htable
    exact ⟨h.enabled, rfl, h.lru, h.lookup⟩

theorem keys_without (hinv : Inv history s.table) {ip : Text} {slot : Slot Entry}
    (hslot : s.table.entries.lookup ip = some slot) :
    (Lru.without slot.position s.table.order).map Node.key =
      (s.table.order.map Node.key).erase ip := by
  rw [hinv.coherent.keys.erase_eq_filter, List.filter_map]
  refine congrArg _ (List.filter_congr fun n hn => ?_)
  have hiff := hinv.coherent.mem_without_iff hslot (n := n)
  rw [Lru.without, List.mem_filter] at hiff
  rw [Bool.eq_iff_iff]
  simpa [hn] using hiff

theorem Represents.roomFor (h : Represents s l) :
    Represents ⟨s.enabled, roomFor s.table, s.requestCount⟩ l.makeRoom := by
  unfold RateLimiter.makeRoom RateLimiter.isFull Policy.roomFor
  rw [h.length_keys]
  by_cases hfull : maxRateLimitEntries ≤ s.table.entries.keys.length
  · rw [if_pos hfull, if_pos (by simpa using hfull)]
    have hlru := h.lru
    unfold RateLimiter.evictOldest Lru.evictOldest
    cases horder : s.table.order with
    | nil =>
      rw [horder, List.map_nil] at hlru
      rw [hlru]
      exact ⟨h.enabled, h.count, by simpa [horder] using hlru, h.lookup⟩
    | cons n rest =>
      rw [horder, List.map_cons] at hlru
      rw [hlru]
      refine ⟨h.enabled, h.count, rfl, fun k => ?_⟩
      by_cases hk : k = n.key
      · subst hk
        simp
      · simp only [AList.lookup_erase_ne hk]
        exact h.lookup k
  · rw [if_neg hfull, if_neg (by simpa using hfull)]
    exact ⟨h.enabled, h.count, h.lru, h.lookup⟩

theorem Represents.serveTable (hinv : Inv history s.table) (h : Represents s l)
    (c : TableCall ℕ) (hfailure : c.failure = none) :
    ∃ table', serveTable l.spec.buckets s.table c =
        some (table', .returned (l.serve c.clientIp c.now).2) ∧
      Represents ⟨s.enabled, table', s.requestCount⟩ (l.serve c.clientIp c.now).1 := by
  unfold Policy.serveTable
  rw [hfailure, if_neg (by simp)]
  cases hslot : s.table.entries.lookup c.clientIp with
  | none =>
    have hnone : l.entries.lookup c.clientIp = none := by rw [h.lookup, hslot]; rfl
    obtain ⟨hroom, -, hfree, -⟩ := hinv.roomFor hslot
    have hrepresents := h.roomFor
    have hposition := (hroom.coherent.insert hfree (Entry.fresh l.spec c.now)).1
    refine ⟨((Policy.roomFor s.table).pushBack c.clientIp).store c.clientIp
      ⟨.fresh l.spec c.now, (Policy.roomFor s.table).nextAddress⟩, ?_, ?_⟩
    · simp [insertNew, hfailure, hposition, RateLimiter.serve, hnone, RateLimitSpec.buckets]
    · simp only [RateLimiter.serve, hnone]
      refine ⟨hrepresents.enabled, hrepresents.count, ?_, fun k => ?_⟩
      · simp [Lru.store, Lru.pushBack, hrepresents.lru]
      · by_cases hk : k = c.clientIp
        · subst hk
          simp [Lru.store, makeRoom_spec]
        · simp only [Lru.store, Lru.pushBack, AList.lookup_insert_ne hk]
          exact hrepresents.lookup k
  | some slot =>
    have hsome : l.entries.lookup c.clientIp = some slot.value := by rw [h.lookup, hslot]; rfl
    obtain ⟨hvisit, -⟩ := hinv.coherent.visit hslot (slot.value.check l.spec c.now).1
    refine ⟨_, by simp only [RateLimitSpec.buckets, hvisit, RateLimiter.serve, hsome]; rfl, ?_⟩
    simp only [RateLimiter.serve, hsome]
    refine ⟨h.enabled, h.count, ?_, fun k => ?_⟩
    · rw [List.map_append, keys_without hinv hslot, h.lru]
      rfl
    · by_cases hk : k = c.clientIp
      · subst hk
        simp
      · simp only [AList.lookup_insert_ne hk]
        exact h.lookup k

/-- A call that does not run out of memory. -/
theorem check_refines (hreachable : Reachable history s) (h : Represents s l) (c : TableCall ℕ)
    (hfailure : c.failure = none) :
    ∃ s', s.check l.spec.buckets c = some (s', .returned (l.check c.clientIp c.now).2) ∧
      Represents s' (l.check c.clientIp c.now).1 := by
  rw [RateLimiter.check_eq_serve]
  unfold LimiterTable.check
  cases hon : s.enabled with
  | false =>
    rw [if_pos rfl, if_pos (by rw [← h.enabled, hon])]
    exact ⟨s, rfl, h⟩
  | true =>
    rw [if_neg (by simp), if_neg (by rw [← h.enabled, hon]; simp)]
    obtain ⟨table, htable, hinv, harrive⟩ := h.cleaned (hreachable.inv hon) c.now
    obtain ⟨table', hserve, hserved⟩ := harrive.serveTable hinv c hfailure
    rw [arrive_spec] at hserve
    rw [hon] at hserved
    exact ⟨_, by rw [htable]; simp only [hserve]; rfl, hserved⟩

/-- The outcomes of calls that do not run out of memory. -/
def LimiterTable.outcomes (b : Buckets ℕ Entry) : LimiterTable Entry → List Call → Option (List Outcome)
  | _, [] => some []
  | s, c :: cs =>
    match s.check b ⟨c.clientIp, c.now, none⟩ with
    | none => none
    | some (s', outcome) => (outcomes b s' cs).map (outcome :: ·)

/-- Whole runs: the table decides as the limiter does. -/
theorem outcomes_refine (hreachable : Reachable history s) (h : Represents s l) (calls : List Call) :
    s.outcomes l.spec.buckets calls = some ((l.decisions calls).map .returned) := by
  induction calls generalizing s l history with
  | nil => rfl
  | cons c cs ih =>
    obtain ⟨s', hcheck, hrepresents⟩ := check_refines hreachable h ⟨c.clientIp, c.now, none⟩ rfl
    obtain ⟨s'', outcome, hcheck', hreachable', -⟩ :=
      hreachable.check (b := l.spec.buckets) ⟨c.clientIp, c.now, none⟩
    rw [hcheck] at hcheck'
    cases hcheck'
    have hrest := ih hreachable' hrepresents
    rw [check_spec] at hrest
    rw [LimiterTable.outcomes, hcheck]
    simp only [hrest, Option.map_some]
    rfl

end Refinement

/-- In every reachable state the map and the list represent one table. The next call, whatever its
time and wherever it runs out of memory, is defined; cleaning takes stale entries, and only the client
that was checked least recently is evicted. -/
theorem limiter_represented {τ ε : Type} (b : Buckets τ ε) {history : List Text}
    {s : LimiterTable ε} (h : TableReached b history s) :
    Represented history s.table ∧
      ∀ c : TableCall τ, ∃ s' outcome, s.check b c = some (s', outcome) ∧
        (s.enabled = true → ∃ table, s.cleaned b c.now = some table ∧
          (∀ k slot, s.table.entries.lookup k = some slot → k ∉ table.entries →
            b.stale c.now slot.value = true) ∧
          EvictsOldest history c.clientIp table s'.table) := by
  refine ⟨h.reachable.table_inv.represented, fun c => ?_⟩
  obtain ⟨s', outcome, hcheck, -, hcleaned⟩ := h.reachable.check (b := b) c
  exact ⟨s', outcome, hcheck, hcleaned⟩

/-- Two clients, the first checked again after a call that ran out of memory. -/
theorem limiter_represented_two :
    ∃ s : LimiterTable Entry, TableReached (RateLimitSpec.buckets ⟨true, 1, 1, 2⟩) [[1], [2], [1]] s ∧
      s.table.order = [⟨1, [2]⟩, ⟨0, [1]⟩] ∧ Represented [[1], [2], [1]] s.table := by
  have h₁ := TableReached.check (b := RateLimitSpec.buckets ⟨true, 1, 1, 2⟩)
    (c := ⟨[1], 5, none⟩) (.start true) rfl
  have h₂ := h₁.check (c := ⟨[2], 3, none⟩) rfl
  have h₃ := h₂.check (c := ⟨[3], 3, some .emplace⟩) rfl
  have h₄ := h₃.check (c := ⟨[1], 4, none⟩) rfl
  exact ⟨_, h₄, by decide, (limiter_represented _ h₄).1⟩

end Policy
end WebServer
