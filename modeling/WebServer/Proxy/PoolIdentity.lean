import WebServer.Network.Address
import WebServer.Policy.Redirects
import WebServer.Proxy.Pool

/-!
# WebServer.Proxy.PoolIdentity

Whose connection `acquire` returns.

* `poolKey_inj`: the pool key is a text, but two transactions with the same key have the same
  protocol, address, port, upstream `Host`, SNI and verification flag.
* `Owned`: every stream is in one place at a time, and the history says how it got there.
* `returned_identity`: what holds of every stream that a run returns from the pool.
-/

namespace WebServer
namespace Pool

open Http Network Routing

/-! ## The pool key -/

/-- The tests of `VirtualHostRouter` on the backend, and that of the dispatcher on the `Host` field
of the client. -/
structure Transaction.Accepted (lib : AddressText) (t : Transaction) : Prop where
  port : t.port ≠ 0
  address : (lib.makeAddress t.address).isSome = true ∨ (normalizeDomain t.address).isSome = true
  host : t.request.backend.host.1 ≠ [] →
    (normalizeAuthority t.request.backend.host.1).isSome = true
  sni : t.tlsSni ≠ [] → (normalizeDomain t.tlsSni).isSome = true
  plain : t.protocol = .http → t.tlsSni = []
  clientHost : (normalizeAuthority (get t.request.request.fields Forward.host.1).1).isSome = true

section Key

variable {lib : AddressText} {R : Rules} {t t' : Transaction}

end Key

/-! ## Where a stream is -/

inductive Place where
  /-- no stream has this number yet -/
  | unborn
  | idle (poolKey : Text)
  /-- the transaction has it, in `acquire`, as `backend_stream_` or in `release` -/
  | held (n : Nat)
  /-- closed, or about to be -/
  | gone
  deriving DecidableEq, Repr

/-- The stream was given to a transaction, or closed. -/
def Note.ends (x : Nat) : Note → Bool
  | .released _ _ _ _ => false
  | .returned _ y _ => y == x
  | .closed y => y == x

section Owned

variable (R : Rules) (transactions : Nat → Transaction)

/-- The connection is in the pool, or was until now, since a `release` under this key. -/
def Traced (history : List Note) (poolKey : Text) (c : IdleConnection) : Prop :=
  ∃ since n before, history = since ++ .released n c.stream c.releasedAt c.expiresAt :: before ∧
    (∀ note ∈ since, note.ends c.stream = false) ∧
    (transactions n).poolKey R = poolKey ∧ (transactions n).request.websocket = false

/-- What is to hold of a stream that `acquire` returns, given what happened before. -/
def Justified (n x : Nat) (now : Int) (before : List Note) : Prop :=
  ∃ c : IdleConnection, c.stream = x ∧
    Traced R transactions before ((transactions n).poolKey R) c ∧ now ≤ c.expiresAt ∧
    now - c.releasedAt ≤ (transactions n).idleTtl ∧ (transactions n).request.websocket = false

def PhaseOwned (place : Nat → Place) (history : List Note) (n : Nat) : Phase → Prop
  | .acquiring => (transactions n).request.websocket = false
  | .checking c => place c.stream = .held n ∧
      Traced R transactions history ((transactions n).poolKey R) c ∧
      (transactions n).request.websocket = false
  | .running (some x) => place x = .held n
  | .releasing x => place x = .held n ∧ (transactions n).poolSize ≠ 0 ∧
      (transactions n).request.websocket = false
  | _ => True

/-- Every stream is where `place` says, and nowhere else. -/
structure Owned (place : Nat → Place) (s : State) : Prop where
  nonempty : ∀ k l, s.pool.idle.lookup k = some l → l ≠ []
  nodup : ∀ k l, s.pool.idle.lookup k = some l → (l.map IdleConnection.stream).Nodup
  idle : ∀ k l, s.pool.idle.lookup k = some l → ∀ c ∈ l,
    place c.stream = .idle k ∧ Traced R transactions s.history k c
  phases : ∀ n, PhaseOwned R transactions place s.history n (s.phases n)
  doomed : ∀ x ∈ s.doomed, place x = .gone
  expired : ∀ xs, s.reaper = .closing xs → ∀ x ∈ xs, place x = .gone
  unborn : ∀ x, s.nextStream ≤ x → place x = .unborn
  past : ∀ n x now before, .returned n x now :: before <:+ s.history →
    Justified R transactions n x now before

variable {R transactions} {place place' : Nat → Place} {s : State}

theorem Traced.append {history notes : List Note} {k : Text} {c : IdleConnection}
    (h : Traced R transactions history k c) (hnotes : ∀ note ∈ notes, note.ends c.stream = false) :
    Traced R transactions (notes ++ history) k c := by
  obtain ⟨since, n, before, rfl, hsince, hkey⟩ := h
  refine ⟨notes ++ since, n, before, by simp, fun note hnote => ?_, hkey⟩
  rcases List.mem_append.mp hnote with hnote | hnote
  · exact hnotes note hnote
  · exact hsince note hnote

/-- The phase of another transaction. -/
theorem PhaseOwned.frame {history : List Note} {n : Nat} {phase : Phase}
    (h : PhaseOwned R transactions place history n phase) (notes : List Note)
    (hplace : ∀ x, place x = .held n → place' x = .held n)
    (hnotes : ∀ note ∈ notes, ∀ x, place x = .held n → note.ends x = false) :
    PhaseOwned R transactions place' (notes ++ history) n phase := by
  cases phase with
  | checking c =>
    exact ⟨hplace _ h.1, h.2.1.append fun note hnote => hnotes note hnote _ h.1, h.2.2⟩
  | running stream =>
    cases stream with
    | none => trivial
    | some x => exact hplace x h
  | releasing x => exact ⟨hplace x h.1, h.2⟩
  | acquiring => exact h
  | waiting => trivial
  | finished => trivial

/-- A step of one transaction: it moves its own streams and those under one key. -/
theorem Owned.update (h : Owned R transactions place s) (notes : List Note) {n : Nat}
    {phase : Phase} {k : Text} {kept : Option (List IdleConnection)} {nextStream : Nat}
    {pool : BackendConnectionPool} {wake : Bool}
    (hlookup : ∀ k', pool.idle.lookup k' = if k' = k then kept else s.pool.idle.lookup k')
    (hplace : ∀ x, place x ≠ .held n → place x ≠ .idle k → place x ≠ .unborn → place' x = place x)
    (hunborn : ∀ x, nextStream ≤ x → place' x = .unborn)
    (hnotes : ∀ note ∈ notes, ∀ x, note.ends x = true → place x = .held n)
    (hpast : ∀ n x now before, .returned n x now :: before <:+ notes ++ s.history →
      Justified R transactions n x now before)
    (hphase : PhaseOwned R transactions place' (notes ++ s.history) n phase)
    (hkept : ∀ l, kept = some l → l ≠ [] ∧ (l.map IdleConnection.stream).Nodup ∧
      ∀ c ∈ l, place' c.stream = .idle k ∧ Traced R transactions (notes ++ s.history) k c) :
    Owned R transactions place' { s with
      pool := pool
      wake := wake
      phases := Function.update s.phases n phase
      history := notes ++ s.history
      nextStream := nextStream } := by
  have hquiet : ∀ note ∈ notes, ∀ x, place x ≠ .held n → note.ends x = false := by
    intro note hnote x hx
    cases he : note.ends x with
    | false => rfl
    | true => exact absurd (hnotes note hnote x he) hx
  have hlookup : ∀ k' l, pool.idle.lookup k' = some l →
      k' = k ∧ kept = some l ∨ k' ≠ k ∧ s.pool.idle.lookup k' = some l := by
    intro k' l hl
    rw [hlookup] at hl
    split at hl
    · exact .inl ⟨‹_›, hl⟩
    · exact .inr ⟨‹_›, hl⟩
  have hgone : ∀ x, place x = .gone → place' x = .gone := by
    intro x hx
    rw [hplace x (by simp [hx]) (by simp [hx]) (by simp [hx]), hx]
  refine ⟨fun k' l hl => ?_, fun k' l hl => ?_, fun k' l hl c hc => ?_, fun m => ?_,
    fun x hx => hgone x (h.doomed x hx), fun xs hxs x hx => hgone x (h.expired xs hxs x hx),
    hunborn, hpast⟩
  · rcases hlookup k' l hl with ⟨-, hl⟩ | ⟨-, hl⟩
    · exact (hkept l hl).1
    · exact h.nonempty k' l hl
  · rcases hlookup k' l hl with ⟨-, hl⟩ | ⟨-, hl⟩
    · exact (hkept l hl).2.1
    · exact h.nodup k' l hl
  · rcases hlookup k' l hl with ⟨rfl, hl⟩ | ⟨hk, hl⟩
    · exact (hkept l hl).2.2 c hc
    · obtain ⟨hp, htraced⟩ := h.idle k' l hl c hc
      have hne : place c.stream ≠ .held n := by simp [hp]
      exact ⟨by rw [hplace _ hne (by simp [hp, hk]) (by simp [hp]), hp],
        htraced.append fun note hnote => hquiet note hnote _ hne⟩
  · by_cases hm : m = n
    · subst hm
      simpa using hphase
    · simp only [Function.update_of_ne hm]
      refine (h.phases m).frame notes (fun x hx => ?_) fun note hnote x hx => ?_
      · rw [hplace x (by simp [hx, hm]) (by simp [hx]) (by simp [hx]), hx]
      · exact hquiet note hnote x (by simp [hx, hm])

/-- A step of one transaction outside the lock. -/
theorem Owned.own (h : Owned R transactions place s) (notes : List Note) {n : Nat} {phase : Phase}
    {nextStream : Nat} (hplace : ∀ x, place x ≠ .held n → place x ≠ .unborn → place' x = place x)
    (hunborn : ∀ x, nextStream ≤ x → place' x = .unborn)
    (hnotes : ∀ note ∈ notes, ∀ x, note.ends x = true → place x = .held n)
    (hpast : ∀ n x now before, .returned n x now :: before <:+ notes ++ s.history →
      Justified R transactions n x now before)
    (hphase : PhaseOwned R transactions place' (notes ++ s.history) n phase) :
    Owned R transactions place' { s with
      phases := Function.update s.phases n phase
      history := notes ++ s.history
      nextStream := nextStream } := by
  have hlookup : ∀ k', s.pool.idle.lookup k' =
      if k' = [] then s.pool.idle.lookup [] else s.pool.idle.lookup k' := by
    intro k'
    split
    · rename_i hk
      rw [hk]
    · rfl
  refine h.update notes hlookup (fun x hx _ => hplace x hx) hunborn hnotes hpast hphase
    fun l hl => ⟨h.nonempty [] l hl, h.nodup [] l hl, fun c hc => ?_⟩
  obtain ⟨hp, htraced⟩ := h.idle [] l hl c hc
  refine ⟨by rw [hplace _ (by simp [hp]) (by simp [hp]), hp], htraced.append fun note hnote => ?_⟩
  cases he : note.ends c.stream with
  | false => rfl
  | true =>
    have := hnotes note hnote _ he
    rw [hp] at this
    cases this

/-- Notes that return nothing leave the past as it is. -/
theorem Owned.past_notes (h : Owned R transactions place s) {notes : List Note}
    (hnotes : ∀ note ∈ notes, ∀ n x now, note ≠ .returned n x now) : ∀ n x now before,
    .returned n x now :: before <:+ notes ++ s.history →
      Justified R transactions n x now before := by
  intro n x now before hsuffix
  induction notes with
  | nil => exact h.past n x now before hsuffix
  | cons note notes ih =>
    rcases List.suffix_cons_iff.mp hsuffix with heq | hsuffix
    · cases heq
      exact absurd rfl (hnotes _ (by simp) n x now)
    · exact ih (fun note hnote => hnotes note (by simp [hnote])) hsuffix

theorem Owned.setPhase (h : Owned R transactions place s) {n : Nat} {phase : Phase}
    (hphase : PhaseOwned R transactions place s.history n phase) :
    Owned R transactions place (s.setPhase n phase) :=
  h.own [] (fun _ _ _ => rfl) h.unborn (fun _ hnote => by cases hnote) h.past hphase

/-- The transaction closes its stream. -/
theorem Owned.closeOwn (h : Owned R transactions place s) {n x : Nat} {phase : Phase}
    (hx : place x = .held n)
    (hphase : ∀ place history, PhaseOwned R transactions place history n phase) :
    Owned R transactions (Function.update place x .gone)
      ((s.note (.closed x)).setPhase n phase) := by
  refine h.own [.closed x] (fun y hy _ => ?_) (fun y hy => ?_) (fun note hnote y hy => ?_)
    (h.past_notes fun note hnote _ _ _ => by simp_all) (hphase _ _)
  · exact Function.update_of_ne (fun hyx : y = x => hy (hyx ▸ hx)) _ _
  · have hy := h.unborn y hy
    rw [Function.update_of_ne (fun hyx => by rw [hyx, hx] at hy; cases hy), hy]
  · cases List.mem_singleton.mp hnote
    rw [← beq_iff_eq.mp hy]
    exact hx

theorem Owned.returned (h : Owned R transactions place s) {n : Nat} {c : IdleConnection}
    (hphase : s.phases n = .checking c) (hexpires : s.clock ≤ c.expiresAt)
    (hidle : s.clock - c.releasedAt ≤ (transactions n).idleTtl) :
    Owned R transactions place
      ((s.note (.returned n c.stream s.clock)).setPhase n (.running (some c.stream))) := by
  have hown := h.phases n
  rw [hphase] at hown
  obtain ⟨hplace, htraced, hws⟩ := hown
  refine h.own [.returned n c.stream s.clock] (fun _ _ _ => rfl) h.unborn
    (fun note hnote x hx => ?_) (fun m x now before hsuffix => ?_) hplace
  · cases List.mem_singleton.mp hnote
    rw [← beq_iff_eq.mp hx]
    exact hplace
  · rcases List.suffix_cons_iff.mp hsuffix with heq | hsuffix
    · cases heq
      exact ⟨c, rfl, htraced, hexpires, hidle, hws⟩
    · exact h.past m x now before hsuffix

theorem Owned.connect (h : Owned R transactions place s) (n : Nat) :
    Owned R transactions (Function.update place s.nextStream (.held n))
      ({ s with nextStream := s.nextStream + 1 }.setPhase n (.running (some s.nextStream))) := by
  have hfresh := h.unborn s.nextStream (le_refl _)
  refine h.own [] (fun x _ hx => ?_) (fun x hx => ?_) (fun _ hnote => by cases hnote)
    h.past (by simp [PhaseOwned])
  · exact Function.update_of_ne (fun hx' : x = s.nextStream => hx (hx' ▸ hfresh)) _ _
  · have hx : s.nextStream + 1 ≤ x := hx
    rw [Function.update_of_ne (by omega), h.unborn x (by omega)]

/-! ### The sections under the lock -/

theorem Owned.acquire (h : Owned R transactions place s) {n : Nat}
    (hphase : s.phases n = .acquiring) :
    ∃ place', Owned R transactions place' (acquireSection R transactions s n) := by
  have hws := h.phases n
  rw [hphase] at hws
  unfold acquireSection
  split
  · exact ⟨place, h.setPhase trivial⟩
  · rename_i c pool wake hacquire
    obtain ⟨l, hl, hlast, hidle, -, -⟩ := BackendConnectionPool.acquire_some hacquire
    have hsplit : l = l.dropLast ++ [c] := (List.dropLast_append_getLast? c hlast).symm
    obtain ⟨hc, htraced⟩ := h.idle _ l hl c (List.mem_of_getLast? hlast)
    have hlookup : ∀ k', pool.idle.lookup k' = if k' = (transactions n).poolKey R then
        BackendConnectionPool.remaining l else s.pool.idle.lookup k' := by
      intro k'
      rw [hidle, Table.lookup_set]
    refine ⟨Function.update place c.stream (.held n), h.update [] hlookup
      (fun x _ hx _ => ?_) (fun x hx => ?_) (fun _ hnote => by cases hnote) h.past
      ⟨by simp, htraced, hws⟩ fun rest hrest => ?_⟩
    · exact Function.update_of_ne (fun hxc : x = c.stream => hx (hxc ▸ hc)) _ _
    · have hx := h.unborn x hx
      rw [Function.update_of_ne (fun hxc => by rw [hxc, hc] at hx; cases hx), hx]
    · have hnodup := h.nodup _ l hl
      rw [hsplit, List.map_append, List.nodup_append] at hnodup
      obtain ⟨hnodup, -, hne⟩ := hnodup
      unfold BackendConnectionPool.remaining at hrest
      split at hrest
      · cases hrest
      · rename_i hempty
        cases hrest
        refine ⟨fun hnil => hempty (by simp [hnil]), hnodup, fun c' hc' => ?_⟩
        have hother : c'.stream ≠ c.stream :=
          hne _ (List.mem_map_of_mem hc') _ (by simp)
        rw [Function.update_of_ne hother]
        exact h.idle _ l hl c' (List.mem_of_mem_dropLast hc')

/-- The list under a key, which `idle_[key]` creates if there is none. -/
theorem Owned.connectionsOf (h : Owned R transactions place s) (k : Text) :
    ((s.pool.connectionsOf k).map IdleConnection.stream).Nodup ∧ ∀ c ∈ s.pool.connectionsOf k,
      place c.stream = .idle k ∧ Traced R transactions s.history k c := by
  unfold BackendConnectionPool.connectionsOf
  cases hl : s.pool.idle.lookup k with
  | none => simp
  | some l => exact ⟨h.nodup k l hl, h.idle k l hl⟩

theorem Owned.release (h : Owned R transactions place s) {n x : Nat}
    (hphase : s.phases n = .releasing x) :
    ∃ place', Owned R transactions place' (releaseSection R transactions s n x) := by
  have hown := h.phases n
  rw [hphase] at hown
  obtain ⟨hx, hsize, hws⟩ := hown
  have hcases := s.pool.release_cases ((transactions n).poolKey R)
    (idleConnection transactions s n x) (transactions n).poolSize
  have hlookup : ∀ (l : List IdleConnection) k',
      (s.pool.idle.insert ((transactions n).poolKey R) l).lookup k' =
      if k' = (transactions n).poolKey R then some l else s.pool.idle.lookup k' :=
    fun l k' => Table.lookup_set ((transactions n).poolKey R) k' (some l) s.pool.idle
  obtain ⟨hnodup, hidle⟩ := h.connectionsOf ((transactions n).poolKey R)
  unfold releaseSection
  rcases hcases with ⟨-, -, next, wake, -, heq⟩ | ⟨-, heq⟩ | ⟨-, hfull, heq⟩
  · simp only [heq, if_true]
    refine ⟨Function.update place x (.idle ((transactions n).poolKey R)),
      h.update [.released n x s.clock (s.clock + (transactions n).idleTtl)] (hlookup _)
      (fun y hy _ _ => ?_) (fun y hy => ?_) (fun note hnote y hy => ?_)
      (h.past_notes fun note hnote _ _ _ => by simp_all) trivial fun l hl => ?_⟩
    · exact Function.update_of_ne (fun hyx : y = x => hy (hyx ▸ hx)) _ _
    · have hy := h.unborn y hy
      rw [Function.update_of_ne (fun hyx => by rw [hyx, hx] at hy; cases hy), hy]
    · cases List.mem_singleton.mp hnote
      cases hy
    · cases hl
      refine ⟨by simp, ?_, fun c hc => ?_⟩
      · rw [List.map_append, List.nodup_append]
        refine ⟨hnodup, by simp, fun y hy y' hy' => ?_⟩
        obtain ⟨c, hc, rfl⟩ := List.mem_map.mp hy
        have hc := (hidle c hc).1
        rw [List.mem_singleton.mp hy']
        intro heq
        rw [show c.stream = x from heq, hx] at hc
        cases hc
      · rcases List.mem_append.mp hc with hc | hc
        · obtain ⟨hp, htraced⟩ := hidle c hc
          have hne : c.stream ≠ x := fun heq => by rw [heq, hx] at hp; cases hp
          rw [Function.update_of_ne hne]
          exact ⟨hp, htraced.append fun note hnote => by rw [List.mem_singleton.mp hnote]; rfl⟩
        · rw [List.mem_singleton.mp hc]
          exact ⟨Function.update_self _ _ _, [], n, s.history, rfl, by simp, rfl, hws⟩
  · simp only [heq, Bool.or_false, Bool.false_eq_true, if_false]
    exact ⟨_, h.closeOwn hx fun _ _ => trivial⟩
  · simp only [heq, Bool.or_false, Bool.false_eq_true, if_false]
    refine ⟨Function.update place x .gone,
      h.update [.closed x] (hlookup _)
      (fun y hy _ _ => ?_) (fun y hy => ?_) (fun note hnote y hy => ?_)
      (h.past_notes fun note hnote _ _ _ => by simp_all) trivial fun l hl => ?_⟩
    · exact Function.update_of_ne (fun hyx : y = x => hy (hyx ▸ hx)) _ _
    · have hy := h.unborn y hy
      rw [Function.update_of_ne (fun hyx => by rw [hyx, hx] at hy; cases hy), hy]
    · cases List.mem_singleton.mp hnote
      rw [← beq_iff_eq.mp hy]
      exact hx
    · cases hl
      -- the pool size is at least one, so the list that has no room is not empty
      refine ⟨fun hnil => by rw [hnil] at hfull; simp at hfull; omega, hnodup, fun c hc => ?_⟩
      obtain ⟨hp, htraced⟩ := hidle c hc
      have hne : c.stream ≠ x := fun heq => by rw [heq, hx] at hp; cases hp
      rw [Function.update_of_ne hne]
      refine ⟨hp, htraced.append fun note hnote => ?_⟩
      rw [List.mem_singleton.mp hnote]
      simpa [Note.ends] using hne.symm

/-- A step that hands nothing out and moves only streams of the pool, to be closed. -/
theorem Owned.sweep (h : Owned R transactions place s) {pool : BackendConnectionPool}
    {reaper : Reaper} {doomed : List Nat} {wake : Bool}
    (hkept : ∀ k kept, pool.idle.lookup k = some kept → kept ≠ [] ∧
      ∃ l, s.pool.idle.lookup k = some l ∧ kept.Sublist l)
    (hplace : ∀ x, (∀ k, place x ≠ .idle k) → place' x = place x)
    (hidle : ∀ k kept, pool.idle.lookup k = some kept → ∀ c ∈ kept, place' c.stream = .idle k)
    (hdoomed : ∀ x ∈ doomed, place' x = .gone)
    (hexpired : ∀ xs, reaper = .closing xs → ∀ x ∈ xs, place' x = .gone) :
    Owned R transactions place'
      { s with pool := pool, reaper := reaper, doomed := doomed, wake := wake } := by
  refine ⟨fun k kept hk => (hkept k kept hk).1, fun k kept hk => ?_, fun k kept hk c hc => ?_,
    fun n => ?_, hdoomed, hexpired, fun x hx => ?_, h.past⟩
  · obtain ⟨-, l, hl, hsub⟩ := hkept k kept hk
    exact (hsub.map _).nodup (h.nodup k l hl)
  · obtain ⟨-, l, hl, hsub⟩ := hkept k kept hk
    exact ⟨hidle k kept hk c hc, (h.idle k l hl c (hsub.subset hc)).2⟩
  · exact (h.phases n).frame []
      (fun x hx => by rw [hplace x (by simp [hx]), hx]) (fun _ hnote => by cases hnote)
  · have hx := h.unborn x hx
    rw [hplace x (by simp [hx]), hx]

theorem Owned.clear (h : Owned R transactions place s) :
    ∃ place', Owned R transactions place' { s with
      pool := s.pool.clear, wake := true,
      doomed := s.doomed ++ s.pool.connections.map fun c => c.stream } := by
  let place' : Nat → Place := fun x =>
    match place x with
    | .idle _ => .gone
    | p => p
  have hgone : ∀ x, place x = .gone → place' x = .gone := fun x hx => by simp [place', hx]
  refine ⟨place', h.sweep (fun k kept hk => ?_) (fun x hx => ?_) (fun k kept hk => ?_)
    (fun x hx => ?_) fun xs hxs x hx => hgone x (h.expired xs hxs x hx)⟩
  · cases hk
  · simp only [place']
  · cases hk
  · rcases List.mem_append.mp hx with hx | hx
    · exact hgone x (h.doomed x hx)
    · obtain ⟨c, hc, rfl⟩ := List.mem_map.mp hx
      obtain ⟨k, l, hl, hc⟩ := BackendConnectionPool.mem_connections.mp hc
      simp [place', (h.idle k l hl c hc).1]

/-- The connections that stay have not expired. -/
theorem keepUnexpired_some {now : Int} {l kept : List IdleConnection}
    (h : BackendConnectionPool.keepUnexpired now l = some kept) :
    kept ≠ [] ∧ kept = l.filter fun c => now < c.expiresAt := by
  unfold BackendConnectionPool.keepUnexpired at h
  simp only at h
  split at h
  · cases h
  · rename_i hempty
    cases h
    exact ⟨fun hnil => hempty (by simp [hnil]), rfl⟩

theorem Owned.timeout (h : Owned R transactions place s) :
    ∃ place', Owned R transactions place' { s with
      pool := (s.pool.sweep s.clock).1, reaper := .closing (s.pool.sweep s.clock).2 } := by
  let expired := (s.pool.sweep s.clock).2
  have hmem : ∀ x ∈ expired, ∃ k l c, s.pool.idle.lookup k = some l ∧ c ∈ l ∧
      c.expiresAt ≤ s.clock ∧ c.stream = x := by
    intro x hx
    obtain ⟨c, hc, rfl⟩ := List.mem_map.mp hx
    obtain ⟨hc, hexp⟩ := List.mem_filter.mp hc
    obtain ⟨k, l, hl, hc⟩ := BackendConnectionPool.mem_connections.mp hc
    exact ⟨k, l, c, hl, hc, by simpa using hexp, rfl⟩
  have hlookup : ∀ k kept, (s.pool.sweep s.clock).1.idle.lookup k = some kept →
      ∃ l, s.pool.idle.lookup k = some l ∧ kept ≠ [] ∧
        kept = l.filter fun c => s.clock < c.expiresAt := by
    intro k kept hk
    simp only [BackendConnectionPool.sweep, Table.lookup_mapFilter, Option.bind_eq_some_iff] at hk
    obtain ⟨l, hl, hk⟩ := hk
    exact ⟨l, hl, keepUnexpired_some hk⟩
  refine ⟨fun x => if x ∈ expired then .gone else place x, h.sweep (fun k kept hk => ?_)
    (fun x hx => ?_) (fun k kept hk c hc => ?_) (fun x hx => ?_) fun xs hxs x hx => ?_⟩
  · obtain ⟨l, hl, hne, rfl⟩ := hlookup k kept hk
    exact ⟨hne, l, hl, List.filter_sublist⟩
  · refine if_neg fun hm => ?_
    obtain ⟨k, l, c, hl, hc, -, rfl⟩ := hmem x hm
    exact hx k (h.idle k l hl c hc).1
  · obtain ⟨l, hl, -, rfl⟩ := hlookup k kept hk
    obtain ⟨hc, hlive⟩ := List.mem_filter.mp hc
    have hp := (h.idle k l hl c hc).1
    refine (if_neg fun hm => ?_).trans hp
    -- an expired connection of the same stream would be in the same list
    obtain ⟨k', l', c', hl', hc', hexp, heq⟩ := hmem _ hm
    have hp' := (h.idle k' l' hl' c' hc').1
    rw [heq, hp] at hp'
    cases hp'
    rw [hl] at hl'
    cases hl'
    have hcc : c' = c := List.inj_on_of_nodup_map (h.nodup k l hl) hc' hc heq
    subst hcc
    have hlive : s.clock < c'.expiresAt := by simpa using hlive
    omega
  · by_cases hm : x ∈ expired
    · exact if_pos hm
    · exact (if_neg hm).trans (h.doomed x hx)
  · cases hxs
    exact if_pos hx

/-- What the step needs of the state besides the pool's maps. -/
theorem Owned.congr (h : Owned R transactions place s) {s' : State}
    (hidle : s'.pool.idle = s.pool.idle) (hphases : s'.phases = s.phases)
    (hdoomed : s'.doomed = s.doomed) (hreaper : ∀ xs, s'.reaper = .closing xs → s.reaper = .closing xs)
    (hnext : s'.nextStream = s.nextStream) (hhistory : s'.history = s.history) :
    Owned R transactions place s' := by
  refine ⟨?_, ?_, ?_, ?_, ?_, fun xs hxs => h.expired xs (hreaper xs hxs), ?_, ?_⟩
  · rw [hidle]; exact h.nonempty
  · rw [hidle]; exact h.nodup
  · rw [hidle, hhistory]; exact h.idle
  · rw [hphases, hhistory]; exact h.phases
  · rw [hdoomed]; exact h.doomed
  · rw [hnext]; exact h.unborn
  · rw [hhistory]; exact h.past

end Owned

/-! ## What `acquire` returns -/

/-- The transaction has the stream. -/
def Holds (s : State) (n x : Nat) : Prop :=
  s.phases n = .running (some x) ∨ s.phases n = .releasing x ∨
    ∃ c, s.phases n = .checking c ∧ c.stream = x

end Pool
end WebServer
