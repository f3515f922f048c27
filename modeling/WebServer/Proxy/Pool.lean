import WebServer.Lib.Run
import WebServer.Lib.Table
import WebServer.Policy.RequestPolicy
import WebServer.Proxy.Forward

/-!
# WebServer.Proxy.Pool

`BackendConnectionPool`: idle backend connections by a text key, and the thread that closes them
when their time is up.

Every section under `mutex_` is an atomic step; what a caller does outside the lock (the test of a
connection that `acquire` took out, the closing of streams) is a step of its own, so that other
threads may act in between. A stream is named by a number. `Transaction` is what `ProxyTransaction`
gives the pool: the pool key is computed from the request after `prepare_request`, once for
`acquire` and once for `release`.

The reaper holds the lock from the top of its loop to the wait, and from the end of the wait to the
top of the loop or to the closing of what expired. It may be woken at any time, and a timed wait may
end any time after its deadline. Allocations succeed, those of the table entry and of the list node in
`release` among them: the source guards none of them.

`clock`, `wake`, `nextStream` and `history` are not in the source: the steady clock in nanoseconds,
whether a notification of the reaper is due, the first unused stream number, and what became of the
streams, newest first.

* `punctual_iff`: the reaper's deadline is no later than any expiry in every state of a run exactly
  if no `release` stores a connection behind an earlier one while `next_expiration_` is empty.
-/

namespace WebServer
namespace Pool

open Http

/-! ## The pool -/

structure IdleConnection where
  stream : Nat
  releasedAt : Int
  expiresAt : Int
  deriving DecidableEq, Repr

structure BackendConnectionPool where
  idle : Table Text (List IdleConnection) := ∅
  nextExpiration : Option Int := none
  stopping : Bool := false

namespace BackendConnectionPool

/-- All idle connections, in the order of the map. -/
def connections (p : BackendConnectionPool) : List IdleConnection :=
  p.idle.entries.flatMap fun e => e.2

/-- The section of `acquire`: the connection, the pool without it, and `wake_reaper`. -/
def acquire (p : BackendConnectionPool) (poolKey : Text) :
    Option (IdleConnection × BackendConnectionPool × Bool) :=
  match p.idle.lookup poolKey with
  | none => none
  | some connections =>
    -- `back()` of an empty list is undefined; no list in the map is empty (`Owned`)
    match connections.getLast? with
    | none => none
    | some connection =>
      let rest := connections.dropLast
      let idle := if rest.isEmpty then p.idle.erase poolKey else p.idle.insert poolKey rest
      match p.nextExpiration with
      | none => some (connection, { p with idle := idle }, false)
      | some next =>
        if connection.expiresAt ≤ next then
          some (connection, { p with idle := idle, nextExpiration := none }, true)
        else some (connection, { p with idle := idle }, false)

/-- `idle_[key]`, which inserts an empty list if there is none. -/
def connectionsOf (p : BackendConnectionPool) (poolKey : Text) : List IdleConnection :=
  (p.idle.lookup poolKey).getD []

/-- The section of `release`: the pool, `retained` and `wake_reaper`. -/
def release (p : BackendConnectionPool) (poolKey : Text) (connection : IdleConnection)
    (maximumIdle : Nat) : BackendConnectionPool × Bool × Bool :=
  if p.stopping then (p, false, false)
  else
    let connections := p.connectionsOf poolKey
    if connections.length < maximumIdle then
      let idle := p.idle.insert poolKey (connections ++ [connection])
      match p.nextExpiration with
      | none =>
        ({ p with idle := idle, nextExpiration := some connection.expiresAt }, true, true)
      | some next =>
        if connection.expiresAt < next then
          ({ p with idle := idle, nextExpiration := some connection.expiresAt }, true, true)
        else ({ p with idle := idle }, true, false)
    else ({ p with idle := p.idle.insert poolKey connections }, false, false)

def clear (p : BackendConnectionPool) : BackendConnectionPool :=
  { p with idle := ∅, nextExpiration := none }

/-- The loop of `run_reaper` that recomputes an empty `next_expiration_`. -/
def earliest (connections : List IdleConnection) : Option Int :=
  connections.foldl (fun next connection =>
    match next with
    | none => some connection.expiresAt
    | some d => if connection.expiresAt < d then some connection.expiresAt else some d) none

def recompute (p : BackendConnectionPool) : BackendConnectionPool :=
  match p.nextExpiration with
  | none => { p with nextExpiration := earliest p.connections }
  | some _ => p

def keepUnexpired (now : Int) (connections : List IdleConnection) : Option (List IdleConnection) :=
  let kept := connections.filter fun c => now < c.expiresAt
  if kept.isEmpty then none else some kept

/-- The sweep of `run_reaper` after a timeout: the pool and the streams in `expired`. -/
def sweep (p : BackendConnectionPool) (now : Int) : BackendConnectionPool × List Nat :=
  ({ p with idle := Table.mapFilter (fun _ => keepUnexpired now) p.idle, nextExpiration := none },
    (p.connections.filter fun c => c.expiresAt ≤ now).map fun c => c.stream)

end BackendConnectionPool

/-! ## The transactions -/

inductive BackendProtocol where
  | http
  | https
  deriving DecidableEq, Repr

/-- What a `ProxyTransaction` has when it uses the pool. The configured host and the keep-alive
settings are in `request`. -/
structure Transaction where
  request : Forward.Transaction
  protocol : BackendProtocol
  address : Text
  port : UInt16
  tlsSni : Text
  tlsVerifyCertificate : Bool
  /-- `settings_.backend_pool_size` -/
  poolSize : Nat
  /-- `settings_.backend_idle_connection_ttl_seconds` -/
  idleTtlSeconds : Nat

namespace Transaction

def effectiveTlsSni (t : Transaction) : Text :=
  let host := t.request.backend.host.1
  if t.tlsSni ≠ [] then t.tlsSni
  else if host ≠ [] then (Routing.normalizeAuthority host).getD t.address
  else t.address

/-- `backend_pool_key`, with the fields that the request holds when it is called. -/
def backendPoolKey (t : Transaction) (fields : List HeaderField) : Text :=
  ascii (if t.protocol = .https then "https|" else "http|") ++
    t.address ++ [58] ++ Policy.decimal t.port.toNat ++ [124] ++
    (Forward.effectiveBackendHost t.request.backend fields).1 ++ [124] ++
    t.effectiveTlsSni ++ [124] ++
    ascii (if t.tlsVerifyCertificate then "verify" else "insecure")

/-- The key at `acquire` and at `release`: both read the request that `prepare_request` left. -/
def poolKey (R : Rules) (t : Transaction) : Text :=
  t.backendPoolKey (Forward.prepareRequest R t.request).fields

def keepAlive (t : Transaction) : Bool :=
  t.request.settings.backendKeepAlive && t.request.backend.keepAlive

/-- `idle_ttl` in nanoseconds. -/
def idleTtl (t : Transaction) : Int := t.idleTtlSeconds * 1000000000

end Transaction

/-- Where a transaction is in its use of the pool. -/
inductive Phase where
  /-- before `on_backend_permit` -/
  | waiting
  /-- in `acquire`, before the lock -/
  | acquiring
  /-- in `acquire`, with a connection taken out of the pool -/
  | checking (connection : IdleConnection)
  /-- `backend_stream_` between `acquire` and the end of the request -/
  | running (stream : Option Nat)
  /-- in `release`, before the lock -/
  | releasing (stream : Nat)
  | finished
  deriving DecidableEq, Repr

inductive Reaper where
  /-- at the top of the loop -/
  | awake
  /-- in `wait` or in `wait_until` with this deadline -/
  | sleeping (deadline : Option Int)
  /-- outside the lock, with `expired` -/
  | closing (expired : List Nat)
  | stopped
  deriving DecidableEq, Repr

/-- What became of a stream. -/
inductive Note where
  | released (transaction stream : Nat) (releasedAt expiresAt : Int)
  | returned (transaction stream : Nat) (now : Int)
  | closed (stream : Nat)
  deriving DecidableEq, Repr

structure State where
  pool : BackendConnectionPool := {}
  phases : Nat → Phase := fun _ => .waiting
  reaper : Reaper := .awake
  /-- moved out of the pool by `clear` and not closed yet -/
  doomed : List Nat := []
  clock : Int := 0
  wake : Bool := false
  nextStream : Nat := 0
  history : List Note := []

def State.setPhase (s : State) (n : Nat) (phase : Phase) : State :=
  { s with phases := Function.update s.phases n phase }

def State.note (s : State) (note : Note) : State := { s with history := note :: s.history }

inductive Event where
  /-- the clock goes on -/
  | tick (now : Int)
  /-- `on_backend_permit` -/
  | permit (n : Nat)
  /-- the section of `acquire` -/
  | acquire (n : Nat)
  /-- the test of `acquire`, with what `reusable` says -/
  | check (n : Nat) (reusable : Bool)
  | connect (n : Nat)
  | closeBackend (n : Nat)
  /-- `finish_normal`: `backend_keep_alive_`, and what `reusable` says in `release` -/
  | finish (n : Nat) (responseKeepAlive reusable : Bool)
  /-- the section of `release` -/
  | release (n : Nat)
  | clear
  /-- `clear` closes a stream -/
  | close (stream : Nat)
  /-- the destructor sets `stopping_` -/
  | stop
  /-- the reaper's loop up to the wait -/
  | reap
  /-- the wait ends before the deadline -/
  | wakeUp
  /-- the wait ends with `cv_status::timeout` -/
  | timeout
  /-- the reaper closes `expired` -/
  | closeExpired
  deriving DecidableEq, Repr

variable (R : Rules) (transactions : Nat → Transaction)

/-- `acquire` hands the connection out, or closes it and goes on. -/
def checkConnection (s : State) (n : Nat) (c : IdleConnection) (reusable : Bool) : State :=
  let t := transactions n
  if 0 < t.idleTtlSeconds ∧ s.clock ≤ c.expiresAt ∧ s.clock - c.releasedAt ≤ t.idleTtl ∧
      reusable = true then
    (s.note (.returned n c.stream s.clock)).setPhase n (.running (some c.stream))
  else (s.note (.closed c.stream)).setPhase n .acquiring

def finishNormal (s : State) (n stream : Nat) (responseKeepAlive reusable : Bool) : State :=
  let t := transactions n
  if t.keepAlive && responseKeepAlive then
    if t.poolSize = 0 ∨ t.idleTtlSeconds = 0 ∨ reusable = false then
      (s.note (.closed stream)).setPhase n .finished
    else s.setPhase n (.releasing stream)
  else (s.note (.closed stream)).setPhase n .finished

/-- What `release` stores now. -/
def idleConnection (s : State) (n stream : Nat) : IdleConnection :=
  ⟨stream, s.clock, s.clock + (transactions n).idleTtl⟩

def releaseSection (s : State) (n stream : Nat) : State :=
  let t := transactions n
  let connection := idleConnection transactions s n stream
  let (pool, retained, wakeReaper) := s.pool.release (t.poolKey R) connection t.poolSize
  let s := { s with pool := pool, wake := s.wake || wakeReaper }.setPhase n .finished
  if retained then
    s.note (.released n stream connection.releasedAt connection.expiresAt)
  else s.note (.closed stream)

def acquireSection (s : State) (n : Nat) : State :=
  match s.pool.acquire ((transactions n).poolKey R) with
  | none => s.setPhase n (.running none)
  | some (connection, pool, wakeReaper) =>
    { s with pool := pool, wake := s.wake || wakeReaper }.setPhase n (.checking connection)

def step (s : State) : Event → Option State
  | .tick now => if s.clock ≤ now then some { s with clock := now } else none
  | .permit n =>
    match s.phases n with
    | .waiting =>
      let t := transactions n
      some (s.setPhase n
        (if t.keepAlive && !t.request.websocket then .acquiring else .running none))
    | _ => none
  | .acquire n =>
    match s.phases n with
    | .acquiring => some (acquireSection R transactions s n)
    | _ => none
  | .check n reusable =>
    match s.phases n with
    | .checking c => some (checkConnection transactions s n c reusable)
    | _ => none
  | .connect n =>
    match s.phases n with
    | .running none =>
      some ({ s with nextStream := s.nextStream + 1 }.setPhase n (.running (some s.nextStream)))
    | _ => none
  | .closeBackend n =>
    match s.phases n with
    | .running (some x) => some ((s.note (.closed x)).setPhase n (.running none))
    | _ => none
  | .finish n responseKeepAlive reusable =>
    match s.phases n with
    | .running (some x) =>
      -- a WebSocket never gets to `finish_normal`
      if (transactions n).request.websocket then none
      else some (finishNormal transactions s n x responseKeepAlive reusable)
    | _ => none
  | .release n =>
    match s.phases n with
    | .releasing x => some (releaseSection R transactions s n x)
    | _ => none
  | .clear =>
    some { s with
      pool := s.pool.clear, wake := true,
      doomed := s.doomed ++ s.pool.connections.map fun c => c.stream }
  | .close x =>
    if x ∈ s.doomed then some ({ s with doomed := s.doomed.erase x }.note (.closed x)) else none
  | .stop => some { s with pool := { s.pool with stopping := true }, wake := true }
  | .reap =>
    match s.reaper with
    | .awake =>
      if s.pool.stopping then some { s with reaper := .stopped }
      else
        let pool := s.pool.recompute
        some { s with pool := pool, reaper := .sleeping pool.nextExpiration, wake := false }
    | _ => none
  | .wakeUp =>
    match s.reaper with
    | .sleeping _ => some { s with reaper := .awake }
    | _ => none
  | .timeout =>
    match s.reaper with
    | .sleeping (some deadline) =>
      if deadline ≤ s.clock then
        let (pool, expired) := s.pool.sweep s.clock
        some { s with pool := pool, reaper := .closing expired }
      else none
    | _ => none
  | .closeExpired =>
    match s.reaper with
    | .closing expired =>
      some { s with
        reaper := .awake, history := (expired.map Note.closed).reverse ++ s.history }
    | _ => none

/-- What a step can do, by event. -/
inductive Moved (s : State) : Event → State → Prop where
  | tick (now : Int) : s.clock ≤ now → Moved s (.tick now) { s with clock := now }
  | permit (n : Nat) (phase : Phase) : s.phases n = .waiting →
      phase = .acquiring ∧ (transactions n).request.websocket = false ∨ phase = .running none →
      Moved s (.permit n) (s.setPhase n phase)
  | acquire (n : Nat) : s.phases n = .acquiring →
      Moved s (.acquire n) (acquireSection R transactions s n)
  | returned (n : Nat) (c : IdleConnection) (reusable : Bool) : s.phases n = .checking c →
      s.clock ≤ c.expiresAt → s.clock - c.releasedAt ≤ (transactions n).idleTtl →
      Moved s (.check n reusable)
        ((s.note (.returned n c.stream s.clock)).setPhase n (.running (some c.stream)))
  | refused (n : Nat) (c : IdleConnection) (reusable : Bool) : s.phases n = .checking c →
      Moved s (.check n reusable) ((s.note (.closed c.stream)).setPhase n .acquiring)
  | connect (n : Nat) : s.phases n = .running none →
      Moved s (.connect n)
        ({ s with nextStream := s.nextStream + 1 }.setPhase n (.running (some s.nextStream)))
  | closeBackend (n x : Nat) : s.phases n = .running (some x) →
      Moved s (.closeBackend n) ((s.note (.closed x)).setPhase n (.running none))
  | finish (n x : Nat) (responseKeepAlive reusable : Bool) : s.phases n = .running (some x) →
      (transactions n).poolSize ≠ 0 → (transactions n).request.websocket = false →
      Moved s (.finish n responseKeepAlive reusable) (s.setPhase n (.releasing x))
  | finishClosed (n x : Nat) (responseKeepAlive reusable : Bool) : s.phases n = .running (some x) →
      Moved s (.finish n responseKeepAlive reusable)
        ((s.note (.closed x)).setPhase n .finished)
  | release (n x : Nat) : s.phases n = .releasing x →
      Moved s (.release n) (releaseSection R transactions s n x)
  | clear : Moved s .clear { s with
      pool := s.pool.clear, wake := true,
      doomed := s.doomed ++ s.pool.connections.map fun c => c.stream }
  | close (x : Nat) : x ∈ s.doomed →
      Moved s (.close x) ({ s with doomed := s.doomed.erase x }.note (.closed x))
  | stop : Moved s .stop { s with pool := { s.pool with stopping := true }, wake := true }
  | reapStopping : s.reaper = .awake → Moved s .reap { s with reaper := .stopped }
  | reap : s.reaper = .awake → Moved s .reap { s with
      pool := s.pool.recompute, reaper := .sleeping s.pool.recompute.nextExpiration, wake := false }
  | wakeUp (deadline : Option Int) : s.reaper = .sleeping deadline →
      Moved s .wakeUp { s with reaper := .awake }
  | timeout (deadline : Int) : s.reaper = .sleeping (some deadline) → deadline ≤ s.clock →
      Moved s .timeout { s with
        pool := (s.pool.sweep s.clock).1, reaper := .closing (s.pool.sweep s.clock).2 }
  | closeExpired (expired : List Nat) : s.reaper = .closing expired →
      Moved s .closeExpired { s with
        reaper := .awake, history := (expired.map Note.closed).reverse ++ s.history }

variable {R transactions} {s s' : State} in
theorem moved_of_step {e : Event} (h : step R transactions s e = some s') :
    Moved R transactions s e s' := by
  cases e with
  | tick now =>
    obtain ⟨hle, rfl⟩ : s.clock ≤ now ∧ { s with clock := now } = s' := by simpa [step] using h
    exact .tick now hle
  | permit n =>
    simp only [step] at h
    split at h
    · cases h
      refine .permit n _ ‹_› ?_
      split
      · rename_i hkeep
        exact .inl ⟨rfl, by simpa using (Bool.and_eq_true_iff.mp hkeep).2⟩
      · exact .inr rfl
    · cases h
  | acquire n =>
    simp only [step] at h
    split at h
    · cases h
      exact .acquire n ‹_›
    · cases h
  | check n reusable =>
    simp only [step] at h
    split at h
    · cases h
      unfold checkConnection
      simp only
      split
      · rename_i htest
        exact .returned n _ reusable ‹_› htest.2.1 htest.2.2.1
      · exact .refused n _ reusable ‹_›
    · cases h
  | connect n =>
    simp only [step] at h
    split at h
    · cases h
      exact .connect n ‹_›
    · cases h
  | closeBackend n =>
    simp only [step] at h
    split at h
    · cases h
      exact .closeBackend n _ ‹_›
    · cases h
  | finish n responseKeepAlive reusable =>
    simp only [step] at h
    split at h
    · split at h
      · cases h
      · rename_i hws
        cases h
        unfold finishNormal
        simp only
        split
        · split
          · exact .finishClosed n _ _ _ ‹_›
          · rename_i htest
            exact .finish n _ _ _ ‹_› (fun hzero => htest (.inl hzero)) (by simpa using hws)
        · exact .finishClosed n _ _ _ ‹_›
    · cases h
  | release n =>
    simp only [step] at h
    split at h
    · cases h
      exact .release n _ ‹_›
    · cases h
  | clear =>
    cases h
    exact .clear
  | close x =>
    simp only [step] at h
    split at h
    · cases h
      exact .close x ‹_›
    · cases h
  | stop =>
    cases h
    exact .stop
  | reap =>
    simp only [step] at h
    split at h
    · split at h
      · cases h
        exact .reapStopping ‹_›
      · cases h
        exact .reap ‹_›
    · cases h
  | wakeUp =>
    simp only [step] at h
    split at h
    · cases h
      exact .wakeUp _ ‹_›
    · cases h
  | timeout =>
    simp only [step] at h
    split at h
    · split at h
      · cases h
        exact .timeout _ ‹_› ‹_›
      · cases h
    · cases h
  | closeExpired =>
    simp only [step] at h
    split at h
    · cases h
      exact .closeExpired _ ‹_›
    · cases h

/-! ## What the sections do to the map -/

namespace BackendConnectionPool

variable {p p' : BackendConnectionPool} {poolKey : Text} {c : IdleConnection}

theorem mem_connections : c ∈ p.connections ↔ ∃ k l, p.idle.lookup k = some l ∧ c ∈ l := by
  simp only [connections, List.mem_flatMap]
  constructor
  · rintro ⟨⟨k, l⟩, he, hc⟩
    exact ⟨k, l, Table.mem_entries_iff.mp he, hc⟩
  · rintro ⟨k, l, hk, hc⟩
    exact ⟨⟨k, l⟩, Table.mem_entries_iff.mpr hk, hc⟩

/-- The list that `acquire` leaves under the key. -/
def remaining (l : List IdleConnection) : Option (List IdleConnection) :=
  if l.dropLast.isEmpty then none else some l.dropLast

theorem acquire_some {wake : Bool} (h : p.acquire poolKey = some (c, p', wake)) :
    ∃ l, p.idle.lookup poolKey = some l ∧ l.getLast? = some c ∧
      p'.idle = Table.set poolKey (remaining l) p.idle ∧ p'.stopping = p.stopping ∧
      (p'.nextExpiration = p.nextExpiration ∧ wake = false ∨
        p'.nextExpiration = none ∧ wake = true) := by
  unfold acquire at h
  split at h
  · cases h
  · rename_i l hl
    split at h
    · cases h
    · rename_i connection hc
      have hidle : (if l.dropLast.isEmpty then p.idle.erase poolKey
          else p.idle.insert poolKey l.dropLast) = Table.set poolKey (remaining l) p.idle := by
        unfold remaining
        split <;> rfl
      simp only [hidle] at h
      split at h
      · rename_i hnext
        cases h
        exact ⟨l, hl, hc, rfl, rfl, .inl ⟨hnext.symm ▸ rfl, rfl⟩⟩
      · split at h
        · cases h
          exact ⟨l, hl, hc, rfl, rfl, .inr ⟨rfl, rfl⟩⟩
        · rename_i hnext _
          cases h
          exact ⟨l, hl, hc, rfl, rfl, .inl ⟨hnext.symm ▸ rfl, rfl⟩⟩

theorem mem_of_remaining {l kept : List IdleConnection} (h : remaining l = some kept)
    (hc : c ∈ kept) : c ∈ l := by
  unfold remaining at h
  split at h
  · cases h
  · cases h
    exact List.mem_of_mem_dropLast hc

theorem connections_acquire {wake : Bool} {taken : IdleConnection}
    (h : p.acquire poolKey = some (taken, p', wake)) (hc : c ∈ p'.connections) :
    c ∈ p.connections := by
  obtain ⟨l, hl, -, hidle, -, -⟩ := acquire_some h
  obtain ⟨k, l', hk, hc⟩ := mem_connections.mp hc
  rw [hidle, Table.lookup_set] at hk
  split at hk
  · exact mem_connections.mpr ⟨poolKey, l, hl, mem_of_remaining hk hc⟩
  · exact mem_connections.mpr ⟨k, l', hk, hc⟩

/-- The two outcomes of the section of `release`. -/
theorem release_cases (p : BackendConnectionPool) (poolKey : Text) (c : IdleConnection)
    (maximumIdle : Nat) :
    (p.stopping = false ∧ (p.connectionsOf poolKey).length < maximumIdle ∧
      ∃ next wake, (p.nextExpiration = none ∧ next = c.expiresAt ∧ wake = true ∨
        ∃ d, p.nextExpiration = some d ∧
          (c.expiresAt < d ∧ next = c.expiresAt ∧ wake = true ∨
            d ≤ c.expiresAt ∧ next = d ∧ wake = false)) ∧
        p.release poolKey c maximumIdle =
          (⟨p.idle.insert poolKey (p.connectionsOf poolKey ++ [c]), some next, p.stopping⟩,
            true, wake)) ∨
    (p.stopping = true ∧ p.release poolKey c maximumIdle = (p, false, false)) ∨
    (p.stopping = false ∧ maximumIdle ≤ (p.connectionsOf poolKey).length ∧
      p.release poolKey c maximumIdle =
        ({ p with idle := p.idle.insert poolKey (p.connectionsOf poolKey) }, false, false)) := by
  unfold release
  cases hstop : p.stopping with
  | true => exact .inr (.inl ⟨rfl, rfl⟩)
  | false =>
    simp only [Bool.false_eq_true, if_false]
    by_cases hroom : (p.connectionsOf poolKey).length < maximumIdle
    · rw [if_pos hroom]
      refine .inl ⟨trivial, hroom, ?_⟩
      cases hnext : p.nextExpiration with
      | none => exact ⟨c.expiresAt, true, .inl ⟨rfl, rfl, rfl⟩, by simp⟩
      | some d =>
        by_cases hlt : c.expiresAt < d
        · exact ⟨c.expiresAt, true, .inr ⟨d, rfl, .inl ⟨hlt, rfl, rfl⟩⟩, by simp [hlt]⟩
        · exact ⟨d, false, .inr ⟨d, rfl, .inr ⟨by omega, rfl, rfl⟩⟩, by simp [hlt]⟩
    · rw [if_neg hroom]
      exact .inr (.inr ⟨trivial, by omega, by simp⟩)

theorem mem_connections_insert {idle : Table Text (List IdleConnection)} {l : List IdleConnection}
    {next : Option Int} {stopping : Bool}
    (hc : c ∈ (BackendConnectionPool.mk (idle.insert poolKey l) next stopping).connections) :
    c ∈ l ∨ ∃ k l', idle.lookup k = some l' ∧ c ∈ l' := by
  obtain ⟨k, l', hk, hc⟩ := mem_connections.mp hc
  by_cases h : k = poolKey
  · subst h
    rw [AList.lookup_insert] at hk
    cases hk
    exact .inl hc
  · rw [AList.lookup_insert_ne h] at hk
    exact .inr ⟨k, l', hk, hc⟩

theorem mem_connectionsOf (hc : c ∈ p.connectionsOf poolKey) : c ∈ p.connections := by
  unfold connectionsOf at hc
  cases hl : p.idle.lookup poolKey with
  | none => simp [hl] at hc
  | some l =>
    rw [hl] at hc
    exact mem_connections.mpr ⟨poolKey, l, hl, hc⟩

/-! ## The reaper's deadline -/

/-- `next_expiration_` is empty or at most every `expires_at`. -/
def Bounded (p : BackendConnectionPool) : Prop :=
  ∀ d, p.nextExpiration = some d → ∀ c ∈ p.connections, d ≤ c.expiresAt

/-- The loop over all connections keeps the least expiry so far. -/
theorem earliest_le (l : List IdleConnection) :
    (earliest l = none → l = []) ∧ ∀ d, earliest l = some d → ∀ c ∈ l, d ≤ c.expiresAt := by
  unfold earliest
  induction l using List.reverseRecOn with
  | nil => simp
  | append_singleton l c ih =>
    rw [List.foldl_append]
    simp only [List.foldl_cons, List.foldl_nil, List.mem_append, List.mem_singleton]
    split
    · rename_i hnone
      rw [ih.1 hnone]
      simp
    · rename_i d hd
      have hle := ih.2 d hd
      split
      · simp only [reduceCtorEq, false_implies, Option.some.injEq, true_and]
        rintro d' rfl c' (hc' | rfl)
        · exact le_trans (by omega) (hle c' hc')
        · exact le_refl _
      · simp only [reduceCtorEq, false_implies, Option.some.injEq, true_and]
        rintro d' rfl c' (hc' | rfl)
        · exact hle c' hc'
        · omega

theorem bounded_recompute (h : p.Bounded) : p.recompute.Bounded ∧
    (p.recompute.nextExpiration = none → p.recompute.connections = []) := by
  unfold recompute
  split
  · exact ⟨(earliest_le p.connections).2, (earliest_le p.connections).1⟩
  · rename_i d hd
    exact ⟨h, fun hnone => by rw [hnone] at hd; cases hd⟩

theorem bounded_of_subset (h : p.Bounded)
    (hnext : p'.nextExpiration = p.nextExpiration ∨ p'.nextExpiration = none)
    (hsub : ∀ c ∈ p'.connections, c ∈ p.connections) : p'.Bounded := by
  intro d hd c hc
  rcases hnext with hnext | hnext
  · exact h d (hnext ▸ hd) c (hsub c hc)
  · rw [hnext] at hd
    cases hd

end BackendConnectionPool

/-- The deadline is right: `next_expiration_`, and what the reaper waits for when no notification
is due. -/
structure Punctual (s : State) : Prop where
  next : s.pool.Bounded
  deadline : ∀ deadline, s.reaper = .sleeping deadline → s.wake = false →
    ∀ c ∈ s.pool.connections, ∃ d, deadline = some d ∧ d ≤ c.expiresAt

/-- The state before a step of `release` lets it store the connection: none of those in the pool
expires earlier while `next_expiration_` is empty. -/
def InOrder (s : State) : Event → Prop
  | .release n => ∀ x, s.phases n = .releasing x → s.pool.stopping = false →
      (s.pool.connectionsOf ((transactions n).poolKey R)).length < (transactions n).poolSize →
      s.pool.nextExpiration = none →
      ∀ c ∈ s.pool.connections, s.clock + (transactions n).idleTtl ≤ c.expiresAt
  | _ => True

/-- A sleeping reaper that nobody is about to wake waits for `next_expiration_`. -/
structure Watched (s : State) : Prop where
  next : s.pool.Bounded
  asleep : ∀ deadline, s.reaper = .sleeping deadline → s.wake = false →
    deadline = s.pool.nextExpiration ∧ (deadline = none → s.pool.connections = [])

theorem Watched.punctual {s : State} (h : Watched s) : Punctual s := by
  refine ⟨h.next, fun deadline hs hw c hc => ?_⟩
  obtain ⟨hd, hempty⟩ := h.asleep deadline hs hw
  cases deadline with
  | none =>
    rw [hempty rfl] at hc
    cases hc
  | some d => exact ⟨d, rfl, h.next d hd.symm c hc⟩

variable {R transactions} {s s' : State}

/-- Connections may go without a notification as long as `next_expiration_` stays. -/
theorem Watched.fewer (h : Watched s) (hsub : ∀ c ∈ s'.pool.connections, c ∈ s.pool.connections)
    (hnext : s'.pool.nextExpiration = s.pool.nextExpiration) (hreaper : s'.reaper = s.reaper)
    (hwake : s'.wake = s.wake) : Watched s' := by
  refine ⟨BackendConnectionPool.bounded_of_subset h.next (.inl hnext) hsub, fun d hs hw => ?_⟩
  obtain ⟨hd, hempty⟩ := h.asleep d (hreaper ▸ hs) (hwake ▸ hw)
  refine ⟨hd.trans hnext.symm, fun hnone => List.eq_nil_iff_forall_not_mem.mpr fun c hc => ?_⟩
  have hc := hsub c hc
  rw [hempty hnone] at hc
  cases hc

theorem Watched.same (h : Watched s) (hpool : s'.pool = s.pool) (hreaper : s'.reaper = s.reaper)
    (hwake : s'.wake = s.wake) : Watched s' :=
  h.fewer (fun _ hc => hpool ▸ hc) (by rw [hpool]) hreaper hwake

/-- Whoever changes `next_expiration_` has the reaper notified. -/
theorem Watched.notified (hnext : s'.pool.Bounded) (hwake : s'.wake = true) : Watched s' :=
  ⟨hnext, fun _ _ hw => by rw [hwake] at hw; cases hw⟩

theorem Watched.acquire (h : Watched s) (n : Nat) : Watched (acquireSection R transactions s n) := by
  unfold acquireSection
  split
  · exact h.same rfl rfl rfl
  · rename_i c pool wake hacquire
    have hsub : ∀ c' ∈ pool.connections, c' ∈ s.pool.connections :=
      fun c' hc' => BackendConnectionPool.connections_acquire hacquire hc'
    obtain ⟨l, -, -, -, -, hnext⟩ := BackendConnectionPool.acquire_some hacquire
    rcases hnext with ⟨hnext, rfl⟩ | ⟨hnext, rfl⟩
    · exact h.fewer hsub hnext rfl (by simp [State.setPhase])
    · exact .notified (BackendConnectionPool.bounded_of_subset h.next (.inr hnext) hsub)
        (by simp [State.setPhase])

theorem Watched.release (h : Watched s) {n x : Nat} (hphase : s.phases n = .releasing x)
    (horder : InOrder R transactions s (.release n)) :
    Watched (releaseSection R transactions s n x) := by
  have hcases := s.pool.release_cases ((transactions n).poolKey R)
    (idleConnection transactions s n x) (transactions n).poolSize
  unfold releaseSection
  rcases hcases with ⟨hstop, hroom, next, wake, hnext, heq⟩ | ⟨-, heq⟩ | ⟨-, -, heq⟩
  · simp only [heq, if_true]
    have hmem : ∀ c ∈ (BackendConnectionPool.mk (s.pool.idle.insert ((transactions n).poolKey R)
        (s.pool.connectionsOf ((transactions n).poolKey R) ++
          [idleConnection transactions s n x])) (some next) s.pool.stopping).connections,
        c ∈ s.pool.connections ∨ c = idleConnection transactions s n x := by
      intro c hc
      rcases BackendConnectionPool.mem_connections_insert hc with hc | ⟨k, l, hl, hc⟩
      · rcases List.mem_append.mp hc with hc | hc
        · exact .inl (BackendConnectionPool.mem_connectionsOf hc)
        · exact .inr (List.mem_singleton.mp hc)
      · exact .inl (BackendConnectionPool.mem_connections.mpr ⟨k, l, hl, hc⟩)
    have hbounded : ∀ c ∈ s.pool.connections, next ≤ c.expiresAt := by
      intro c hc
      rcases hnext with ⟨hnone, rfl, -⟩ | ⟨d, hd, ⟨hlt, rfl, -⟩ | ⟨-, rfl, -⟩⟩
      · exact horder x hphase hstop hroom hnone c hc
      · exact le_trans (le_of_lt hlt) (h.next d hd c hc)
      · exact h.next _ hd c hc
    have hown : next ≤ (idleConnection transactions s n x).expiresAt := by
      rcases hnext with ⟨-, rfl, -⟩ | ⟨d, -, ⟨-, rfl, -⟩ | ⟨hle, rfl, -⟩⟩
      · exact le_refl _
      · exact le_refl _
      · exact hle
    have hpool : (BackendConnectionPool.mk (s.pool.idle.insert ((transactions n).poolKey R)
        (s.pool.connectionsOf ((transactions n).poolKey R) ++
          [idleConnection transactions s n x])) (some next) s.pool.stopping).Bounded := by
      intro d hd c hc
      cases hd
      rcases hmem c hc with hc | rfl
      · exact hbounded c hc
      · exact hown
    cases wake with
    | true => exact .notified hpool (by simp [State.setPhase, State.note])
    | false =>
      refine ⟨hpool, fun deadline hs hw => ?_⟩
      obtain ⟨hd, -⟩ := h.asleep deadline hs (by simpa [State.setPhase, State.note] using hw)
      rcases hnext with ⟨-, -, hf⟩ | ⟨d, hnext, ⟨-, -, hf⟩ | ⟨-, rfl, -⟩⟩
      · cases hf
      · cases hf
      · rw [hnext] at hd
        exact ⟨hd, fun hnone => by rw [hnone] at hd; cases hd⟩
  · simp only [heq, Bool.or_false, Bool.false_eq_true, if_false]
    exact h.same rfl rfl rfl
  · simp only [heq, Bool.or_false, Bool.false_eq_true, if_false]
    refine h.fewer (fun c hc => ?_) rfl rfl rfl
    rcases BackendConnectionPool.mem_connections_insert hc with hc | ⟨k, l, hl, hc⟩
    · exact BackendConnectionPool.mem_connectionsOf hc
    · exact BackendConnectionPool.mem_connections.mpr ⟨k, l, hl, hc⟩

theorem watched_step {e : Event} (h : Watched s) (horder : InOrder R transactions s e)
    (hstep : step R transactions s e = some s') : Watched s' := by
  cases moved_of_step hstep with
  | acquire n _ => exact h.acquire n
  | release n x hphase => exact h.release hphase horder
  | clear => exact .notified (fun d hd => nomatch hd) rfl
  | stop => exact .notified h.next rfl
  | reapStopping => exact ⟨h.next, fun d hs => nomatch hs⟩
  | reap =>
    obtain ⟨hbounded, hempty⟩ := BackendConnectionPool.bounded_recompute h.next
    refine ⟨hbounded, fun deadline hs _ => ?_⟩
    cases hs
    exact ⟨rfl, hempty⟩
  | wakeUp => exact ⟨h.next, fun d hs => nomatch hs⟩
  | timeout => exact ⟨fun d hd => (nomatch hd), fun d hs => nomatch hs⟩
  | closeExpired => exact ⟨h.next, fun d hs => nomatch hs⟩
  | _ => exact h.same rfl rfl rfl

/-- A `release` that is out of order sets `next_expiration_` to the later expiry. -/
theorem inOrder_of_punctual {e : Event}
    (h : ∀ s', step R transactions s e = some s' → Punctual s') : InOrder R transactions s e := by
  cases e with
  | release n =>
    intro x hphase hstop hroom hnone c hc
    have hs := h _ (by simp only [step, hphase]; rfl)
    have hcases := s.pool.release_cases ((transactions n).poolKey R)
      (idleConnection transactions s n x) (transactions n).poolSize
    rcases hcases with ⟨-, -, next, wake, hnext, heq⟩ | ⟨hs', -⟩ | ⟨-, hfull, -⟩
    · have hpool : (releaseSection R transactions s n x).pool =
          ⟨s.pool.idle.insert ((transactions n).poolKey R)
            (s.pool.connectionsOf ((transactions n).poolKey R) ++
              [idleConnection transactions s n x]), some next, s.pool.stopping⟩ := by
        simp only [releaseSection, heq, if_true]
        rfl
      have hle := hs.next
      rw [hpool] at hle
      rcases hnext with ⟨-, rfl, -⟩ | ⟨d, hd, -⟩
      · refine hle _ rfl c ?_
        obtain ⟨k, l, hl, hc⟩ := BackendConnectionPool.mem_connections.mp hc
        rw [BackendConnectionPool.mem_connections]
        by_cases hk : k = (transactions n).poolKey R
        · subst hk
          refine ⟨_, _, AList.lookup_insert _, ?_⟩
          simp [BackendConnectionPool.connectionsOf, hl, hc]
        · exact ⟨k, l, by rw [AList.lookup_insert_ne hk]; exact hl, hc⟩
      · rw [hnone] at hd
        cases hd
    · rw [hstop] at hs'
      cases hs'
    · omega
  | _ => trivial

theorem watched_initial : Watched {} := by
  refine ⟨fun d hd => ?_, fun d hs => ?_⟩
  · cases hd
  · cases hs

/-- In every state of a run `next_expiration_`, and the deadline the reaper waits for, is no later
than any expiry, exactly if no `release` of the run stores a connection while `next_expiration_` is
empty and an idle connection expires before the new one. -/
theorem punctual_iff (R : Rules) (transactions : Nat → Transaction) (events : List Event) :
    (∀ events' s, events' <+: events → Run.run (step R transactions) {} events' = some s →
      Punctual s) ↔
    Run.Along (step R transactions) (InOrder R transactions) {} events :=
  Run.along_iff (fun _ h => h.punctual) (fun _ _ _ h horder hstep => watched_step h horder hstep)
    (fun _ _ _ h => inOrder_of_punctual h) watched_initial

/-- Transactions for two backends, each with a time to live of a minute. -/
def twoBackends (n : Nat) : Transaction where
  request := Forward.postOf [Forward.field "Host" "example.com" Forward.exampleHost]
  protocol := .http
  address := if n % 2 = 0 then ascii "10.0.0.1" else ascii "10.0.0.2"
  port := 8080
  tlsSni := []
  tlsVerifyCertificate := true
  poolSize := 8
  idleTtlSeconds := 60

/-- A transaction connects, and gives its connection to the pool at the given time. -/
def connectAndRelease (n : Nat) (now : Int) : List Event :=
  [.permit n, .acquire n, .connect n, .finish n true true, .tick now, .release n]

/-- A third transaction takes the first connection and gives it back before the reaper runs. -/
def overtaken : List Event :=
  connectAndRelease 0 0 ++ connectAndRelease 1 1000000000 ++
    [.permit 2, .acquire 2, .check 2 true, .finish 2 true true, .tick 2000000000, .release 2]

/-- `next_expiration_` is then the expiry of the connection released last, a second after the other
connection's. -/
theorem overtaken_late : ∃ s, Run.run (step .standard twoBackends) {} overtaken = some s ∧
    ∃ d c, s.pool.nextExpiration = some d ∧ c ∈ s.pool.connections ∧ c.expiresAt < d := by
  have h : (Run.run (step .standard twoBackends) {} overtaken).map
      (fun s => (s.pool.nextExpiration, s.pool.connections)) =
      some (some 62000000000, [⟨0, 2000000000, 62000000000⟩, ⟨1, 1000000000, 61000000000⟩]) := by
    decide
  obtain ⟨s, hs, h⟩ := Option.map_eq_some_iff.mp h
  obtain ⟨hnext, hconnections⟩ := Prod.mk.inj h
  exact ⟨s, hs, _, ⟨1, 1000000000, 61000000000⟩, hnext, by simp [hconnections], by decide⟩

end Pool
end WebServer
