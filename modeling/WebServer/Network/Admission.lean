import Mathlib.Algebra.Group.Nat.Defs
import WebServer.Lib.Run

/-!
# WebServer.Network.Admission

`ConnectionAdmission`, and the connections of all HTTP and TLS listeners that share one.

A connection is an attempt in `on_accept`, which asks for a permit, and then a session that keeps the
permit in its close callback. Each operation on an atomic counter is a step, and steps of any number
of connections are interleaved in any way. Exceptions are steps too: an allocation may fail, and so may
everything in `on_accept`.

The permit is a `shared_ptr` with one owner at a time, since it is only ever moved: the variable of
`on_accept`, the closure, the parameter of the constructor, `on_close_`, the variable of `close`,
`close_socket` or `abort_noexcept`. It gives itself back when its owner is destroyed. A callback that
was moved from is empty.

Before `try_acquire`, `on_accept` has no permit, and what it checks there is not in the model.
`rejected` is a natural number: the 64-bit counter of the source does not wrap before 2^64 attempts.

`admitted`, `returned` and `full` are not in the source: what has happened to the connection so far.

* `act_cases`: what a step of a connection does to the counters.
* `permits_conserved_iff`: the permits are conserved in a run exactly if no handler of `try_acquire` runs for a
  permit that has been deleted.
-/

namespace WebServer
namespace Network

open Run

/-! ## Sessions -/

inductive Kind where
  | http
  | tls
  deriving DecidableEq, Repr

/-- Where the close callback of a session is. -/
inductive Handler where
  /-- in `on_close_` -/
  | member
  /-- in a variable of the function that calls it -/
  | moved
  | gone
  deriving DecidableEq, Repr

structure Session where
  closing : Bool := false
  closed : Bool := false
  /-- calls of `close`, `close_socket` or `abort_noexcept` that have set `closed_` and have not looked
  at `on_close_` yet. A call that throws on this way goes on in `abort_noexcept`. -/
  running : Nat := 0
  onClose : Handler := .member
  deriving DecidableEq, Repr

namespace Session

/-- `closed_ = true` (in a TLS session `closing_ = true` as well) and all that follows before `if (on_close_)`. -/
def enter (s : Session) : Session :=
  { s with closing := true, closed := true, running := s.running + 1 }

/-- `HttpSession::close`, or `TlsHttpSession::close` up to the shutdown of the stream. -/
def close (s : Session) : Kind → Session
  | .http => if s.closed then s else s.enter
  | .tls => if s.closed || s.closing then s else { s with closing := true }

/-- `TlsHttpSession::close_socket` -/
def closeSocket (s : Session) : Session := if s.closed then s else s.enter

/-- `abort_noexcept` -/
def abort (s : Session) : Session := s.enter

/-- `if (on_close_)`, and the callback is moved out of the session. -/
def takeHandler (s : Session) : Session :=
  { s with
    running := s.running - 1
    onClose := if s.onClose = .member then .moved else s.onClose }

/-- No call is under way any more. -/
def Idle (s : Session) : Prop := s.running = 0 ∧ s.onClose ≠ .moved

instance (s : Session) : Decidable s.Idle := inferInstanceAs (Decidable (_ ∧ _))

end Session

/-! ## Connections -/

inductive Phase where
  /-- at the load in `try_acquire` -/
  | entered
  /-- in the loop -/
  | comparing (current : Nat)
  /-- after the loop -/
  | refused
  /-- at `new Permit` -/
  | counted
  /-- in the constructor of the `shared_ptr` -/
  | constructed
  /-- the constructor of the `shared_ptr` deletes the permit -/
  | deleting
  /-- in the handler of `try_acquire`; `deleted` if there was a permit -/
  | handling (deleted : Bool)
  /-- the permit is in the variable of `on_accept` -/
  | acquired
  /-- in the closure -/
  | captured
  /-- in the parameter `on_close` of the constructor -/
  | converted
  /-- in `on_close_`, before the session is in `sessions_` -/
  | stored
  | session (session : Session)
  | ended
  deriving DecidableEq, Repr

structure Connection where
  kind : Kind
  phase : Phase := .entered
  admitted : Bool := false
  /-- how often `active` was decremented for the connection -/
  returned : Nat := 0
  /-- the attempt found `active` at the maximum -/
  full : Bool := false
  deriving DecidableEq, Repr

inductive Action where
  | load
  /-- `compare_exchange_weak` may fail without a reason -/
  | exchange (spurious : Bool)
  | reject
  /-- `new Permit` -/
  | allocate (succeeds : Bool)
  /-- the control block of the `shared_ptr` -/
  | share (succeeds : Bool)
  | delete
  | undo
  /-- `on_accept` of a TLS listener finds no contexts and returns -/
  | noContexts
  | capture
  | convert
  | store
  /-- an exception in `on_accept` before the session is in `sessions_` -/
  | fail
  | emplace
  | close
  | closeSocket
  | abort
  | takeHandler
  /-- the callback has returned or thrown, and is destroyed -/
  | dropHandler
  /-- the destructor of a session that no call refers to -/
  | destroy
  deriving DecidableEq, Repr

structure Counters where
  active : Nat := 0
  rejected : Nat := 0
  deriving DecidableEq, Repr

/-- `fetch_sub(1)` on a counter of 64 bits. -/
def fetchSub (n : Nat) : Nat := if n = 0 then 2 ^ 64 - 1 else n - 1

namespace Connection

/-- The condition of the loop in `try_acquire`. -/
def look (maximum active : Nat) (c : Connection) : Connection :=
  if active < maximum then { c with phase := .comparing active }
  else { c with phase := .refused, full := decide (active = maximum) }

/-- `~Permit`, and the connection goes on in `phase`. -/
def giveBack (n : Counters) (c : Connection) (phase : Phase) : Counters × Connection :=
  ({ n with active := fetchSub n.active }, { c with phase := phase, returned := c.returned + 1 })

@[simp] theorem giveBack_active (n : Counters) (c : Connection) (phase : Phase) :
    (c.giveBack n phase).1.active = fetchSub n.active := rfl

@[simp] theorem giveBack_rejected (n : Counters) (c : Connection) (phase : Phase) :
    (c.giveBack n phase).1.rejected = n.rejected := rfl

def act (maximum : Nat) (n : Counters) (c : Connection) (a : Action) :
    Option (Counters × Connection) :=
  match a, c.phase with
  | .load, .entered => some (n, c.look maximum n.active)
  | .exchange spurious, .comparing current =>
    if spurious = false ∧ n.active = current then
      some ({ n with active := current + 1 }, { c with phase := .counted, admitted := true })
    else some (n, c.look maximum n.active)
  | .reject, .refused => some ({ n with rejected := n.rejected + 1 }, { c with phase := .ended })
  | .allocate succeeds, .counted =>
    some (n, { c with phase := if succeeds then .constructed else .handling false })
  | .share succeeds, .constructed =>
    some (n, { c with phase := if succeeds then .acquired else .deleting })
  | .delete, .deleting => some (c.giveBack n (.handling true))
  | .undo, .handling _ => some (c.giveBack n .ended)
  | .noContexts, .acquired => if c.kind = .tls then some (c.giveBack n .ended) else none
  | .capture, .acquired => some (n, { c with phase := .captured })
  | .convert, .captured => some (n, { c with phase := .converted })
  | .store, .converted => some (n, { c with phase := .stored })
  | .fail, .acquired => some (c.giveBack n .ended)
  | .fail, .captured => some (c.giveBack n .ended)
  | .fail, .converted => some (c.giveBack n .ended)
  | .fail, .stored => some (c.giveBack n .ended)
  | .emplace, .stored => some (n, { c with phase := .session {} })
  | .close, .session s => some (n, { c with phase := .session (s.close c.kind) })
  | .closeSocket, .session s =>
    if c.kind = .tls then some (n, { c with phase := .session s.closeSocket }) else none
  | .abort, .session s => some (n, { c with phase := .session s.abort })
  | .takeHandler, .session s =>
    if 0 < s.running then some (n, { c with phase := .session s.takeHandler }) else none
  | .dropHandler, .session s =>
    if s.onClose = .moved then some (c.giveBack n (.session { s with onClose := .gone })) else none
  | .destroy, .session s =>
    if s.Idle then
      some (if s.onClose = .member then c.giveBack n .ended else (n, { c with phase := .ended }))
    else none
  | _, _ => none

/-- Is there a permit that has not been given back? -/
def holds (c : Connection) : Bool :=
  match c.phase with
  | .entered | .comparing _ | .refused | .handling true | .ended => false
  | .counted | .constructed | .deleting | .handling false | .acquired | .captured | .converted
  | .stored => true
  | .session s => s.onClose ≠ .gone

end Connection

structure State where
  counters : Counters := {}
  connections : List Connection := []
  deriving DecidableEq, Repr

inductive Event where
  /-- `on_accept` of a listener is at `try_acquire` -/
  | accept (kind : Kind)
  | act (index : Nat) (action : Action)
  deriving DecidableEq, Repr

def step (maximum : Nat) (s : State) : Event → Option State
  | .accept kind => some { s with connections := s.connections ++ [{ kind := kind }] }
  | .act i a =>
    match s.connections[i]? with
    | some c =>
      (c.act maximum s.counters a).map fun (n, c') =>
        { counters := n, connections := s.connections.set i c' }
    | none => none

structure ConnectionAdmission where
  maximum : Nat
  accepted : 0 < maximum ∧ maximum ≤ 1000000

/-- The constructor. -/
def ConnectionAdmission.make (maximumConnections : Nat) : Except String ConnectionAdmission :=
  if h : 0 < maximumConnections ∧ maximumConnections ≤ 1000000 then .ok ⟨maximumConnections, h⟩
  else .error "maximum client connections must be between 1 and 1000000"

/-! ## Conservation -/

namespace Connection

/-- The attempt found `active` at the maximum and has been counted. -/
def rejected (c : Connection) : Bool := c.full && c.phase = .ended

end Connection

/-- `active` is the number of permits that are held. Every connection that was admitted holds its permit
or has given it back once; a session holds it until it is closed and not after that. A decrement of `0`
would give `2 ^ 64 - 1`, which is more than any maximum. -/
structure Conserved (maximum : Nat) (s : State) : Prop where
  active_eq : s.counters.active = s.connections.countP Connection.holds
  active_le : s.counters.active ≤ maximum
  once : ∀ c ∈ s.connections, c.holds.toNat + c.returned = c.admitted.toNat
  opened : ∀ c ∈ s.connections, ∀ session, c.phase = .session session →
    session.closed = false → c.holds = true
  closed : ∀ c ∈ s.connections, ∀ session, c.phase = .session session →
    session.closed = true → session.Idle → c.holds = false
  rejected_eq : s.counters.rejected = s.connections.countP Connection.rejected

/-! ### One step -/

/-- What keeps the callback of a session in its place: it is taken out only after `closed_` is set, and
a call that has set `closed_` will take it out. -/
structure Session.Good (s : Session) : Prop where
  opened : s.closed = false → s.onClose = .member ∧ s.running = 0
  closed : s.closed = true → s.onClose = .member → 0 < s.running

namespace Session

variable {s : Session}

theorem good_new : ({} : Session).Good := ⟨fun _ => ⟨rfl, rfl⟩, fun h => by cases h⟩

theorem good_enter (s : Session) : s.enter.Good :=
  ⟨fun h => absurd h (by simp [enter]), fun _ _ => Nat.succ_pos s.running⟩

theorem Good.close (h : s.Good) (kind : Kind) : (s.close kind).Good := by
  cases kind with
  | http =>
    rw [Session.close]
    split
    · exact h
    · exact good_enter s
  | tls =>
    rw [Session.close]
    split
    · exact h
    · exact ⟨h.opened, h.closed⟩

theorem Good.closeSocket (h : s.Good) : s.closeSocket.Good := by
  rw [Session.closeSocket]
  split
  · exact h
  · exact good_enter s

theorem Good.takeHandler (h : s.Good) (hrunning : 0 < s.running) : s.takeHandler.Good where
  opened hopen := absurd (h.opened hopen).2 (Nat.ne_of_gt hrunning)
  closed _ hmember := by
    rw [Session.takeHandler] at hmember
    dsimp only at hmember
    split at hmember
    · cases hmember
    · rename_i hother
      exact absurd hmember hother

theorem Good.dropHandler (h : s.Good) (hmoved : s.onClose = .moved) :
    ({ s with onClose := .gone } : Session).Good where
  opened hopen := by
    have hmember := (h.opened hopen).1
    rw [hmoved] at hmember
    cases hmember
  closed _ hmember := by cases hmember

/-- Only the last step of a call ends the hold on the permit. -/
theorem onClose_close (s : Session) (kind : Kind) : (s.close kind).onClose = s.onClose := by
  cases kind <;> rw [Session.close] <;> split <;> rfl

theorem onClose_closeSocket (s : Session) : s.closeSocket.onClose = s.onClose := by
  rw [Session.closeSocket]
  split <;> rfl

theorem takeHandler_gone_iff (s : Session) :
    s.takeHandler.onClose = .gone ↔ s.onClose = .gone := by
  rw [Session.takeHandler]
  dsimp only
  split
  · rename_i hmember
    simp [hmember]
  · exact Iff.rfl

end Session

/-- Is the connection in the loop of `try_acquire`, or refused by it? -/
def Phase.asking : Phase → Bool
  | .entered | .comparing _ | .refused => true
  | _ => false

def Phase.Good (maximum : Nat) : Phase → Prop
  | .comparing current => current < maximum
  | .session s => s.Good
  | _ => True

namespace Connection

/-- The invariant of a connection. -/
structure Good (maximum : Nat) (c : Connection) : Prop where
  once : c.holds.toNat + c.returned = c.admitted.toNat
  phase : c.phase.Good maximum
  asking : c.phase.asking = true → c.admitted = false
  refused : c.phase = .refused → c.full = true
  full : c.full = true → c.phase = .refused ∨ c.phase = .ended

variable {maximum : Nat} {n n' : Counters} {c c' : Connection}

/-- A step moves no more through the counters than through the connection. -/
structure Acts (maximum : Nat) (n n' : Counters) (c c' : Connection) : Prop where
  active : n'.active + c.holds.toNat = n.active + c'.holds.toNat
  bounded : n'.active ≤ maximum
  rejected : n'.rejected + c.rejected.toNat = n.rejected + c'.rejected.toNat
  good : c'.Good maximum

theorem fetchSub_eq {k : Nat} (hpos : 0 < k) : fetchSub k + 1 = k := by
  rw [fetchSub, if_neg (Nat.ne_of_gt hpos)]
  omega

theorem rejected_eq_false (h : c.full = false) : c.rejected = false := by
  rw [rejected, h, Bool.false_and]

/-- A step after the loop that leaves the permit where it is counted. -/
theorem Acts.quiet (hgood : c.Good maximum) (hle : n.active ≤ maximum) (hfull : c.full = false)
    {phase : Phase} (hphase : phase.Good maximum) (hasking : phase.asking = false)
    (hholds : ({ c with phase := phase } : Connection).holds = c.holds) :
    Acts maximum n n c { c with phase := phase } where
  active := by rw [hholds]
  bounded := hle
  rejected := by
    rw [rejected_eq_false hfull, rejected_eq_false (c := { c with phase := phase }) hfull]
  good := {
    once := by
      rw [hholds]
      exact hgood.once
    phase := hphase
    asking := fun h => by
      rw [hasking] at h
      cases h
    refused := by
      rintro rfl
      cases hasking
    full := fun h => absurd (h.symm.trans hfull) (by simp) }

/-- A step that gives the permit back. -/
theorem Acts.giveBack (hgood : c.Good maximum) (hle : n.active ≤ maximum) (hfull : c.full = false)
    (hactive : 0 < n.active) (hholds : c.holds = true) {phase : Phase}
    (hphase : phase.Good maximum) (hasking : phase.asking = false)
    (hends : ({ c with phase := phase } : Connection).holds = false) :
    Acts maximum n (c.giveBack n phase).1 c (c.giveBack n phase).2 := by
  have hsub := fetchSub_eq hactive
  have honce : c.returned + 1 = c.admitted.toNat := by
    have := hgood.once
    rw [hholds, Bool.toNat_true] at this
    omega
  have hends' : (c.giveBack n phase).2.holds = false := hends
  have hfull' : (c.giveBack n phase).2.full = false := hfull
  refine ⟨?_, ?_, ?_, ?_, hphase, fun h => ?_, fun h => ?_, fun h => ?_⟩
  · rw [hends', hholds, giveBack_active, Bool.toNat_true, Bool.toNat_false, hsub, Nat.add_zero]
  · rw [giveBack_active]
    omega
  · rw [rejected_eq_false hfull, rejected_eq_false hfull', giveBack_rejected]
  · rw [hends', Bool.toNat_false, Nat.zero_add]
    exact honce
  · exact absurd (h.symm.trans hasking) (by simp)
  · have hrefused : phase = .refused := h
    rw [hrefused] at hasking
    cases hasking
  · exact absurd (h.symm.trans hfull) (by simp)

/-- A look at `active`, after the load or an exchange that failed. -/
theorem Acts.look (hgood : c.Good maximum) (hle : n.active ≤ maximum) (hfull : c.full = false)
    (hasking : c.phase.asking = true) (hholds : c.holds = false) :
    Acts maximum n n c (c.look maximum n.active) := by
  have honce := hgood.once
  have hadmitted := hgood.asking hasking
  rw [hholds] at honce
  rw [Connection.look]
  by_cases hlt : n.active < maximum
  · rw [if_pos hlt]
    refine ⟨by rw [hholds]; rfl, hle, ?_, honce, hlt, fun _ => hadmitted, fun h => ?_, fun h => ?_⟩
    · rw [rejected_eq_false hfull, rejected_eq_false]
      exact hfull
    · cases h
    · exact absurd (h.symm.trans hfull) (by simp)
  · rw [if_neg hlt]
    refine ⟨by rw [hholds]; rfl, hle, ?_, honce, trivial, fun _ => hadmitted, fun _ => ?_,
      fun _ => .inl rfl⟩
    · rw [rejected_eq_false hfull]
      simp [Connection.rejected]
    · exact decide_eq_true (by omega)

/-- The exchange succeeds. -/
theorem Acts.enter (hgood : c.Good maximum) {current : Nat} (hcurrent : current < maximum)
    (hactive : n.active = current) (hfull : c.full = false) (hphase : c.phase = .comparing current) :
    Acts maximum n { n with active := current + 1 } c
      { c with phase := .counted, admitted := true } := by
  have hholds : c.holds = false := by simp [holds, hphase]
  have honce := hgood.once
  rw [hholds, hgood.asking (by rw [hphase]; rfl)] at honce
  have hreturned : c.returned = 0 := by simpa using honce
  refine ⟨?_, hcurrent, ?_, ?_, trivial, fun h => ?_, fun h => ?_, fun h => ?_⟩
  · rw [hholds, hactive]
    rfl
  · rw [rejected_eq_false hfull, rejected_eq_false]
    exact hfull
  · dsimp only
    rw [hreturned]
    rfl
  · cases h
  · cases h
  · exact absurd (h.symm.trans hfull) (by simp)

/-- The only step that does not keep the account: the handler of `try_acquire` decrements `active` for
a permit that has done it itself. -/
def UndoesDeleted (c : Connection) (a : Action) : Prop := a = .undo ∧ c.phase = .handling true

instance (c : Connection) (a : Action) : Decidable (c.UndoesDeleted a) :=
  inferInstanceAs (Decidable (_ ∧ _))

theorem act_cases (hgood : c.Good maximum) (hle : n.active ≤ maximum)
    (hactive : c.holds = true → 0 < n.active) {a : Action} (hundo : ¬c.UndoesDeleted a)
    (h : c.act maximum n a = some (n', c')) : Acts maximum n n' c c' := by
  have hfull : c.phase ≠ .refused → c.phase ≠ .ended → c.full = false := fun hrefused hended =>
    Bool.eq_false_iff.mpr fun hfull => (hgood.full hfull).elim hrefused hended
  have hphase := hgood.phase
  unfold act at h
  split at h
  case h_1 heq => -- load
    cases h
    exact .look hgood hle (hfull (by simp [heq]) (by simp [heq])) (by rw [heq]; rfl) (by simp [holds, heq])
  case h_2 spurious current heq => -- exchange
    have hfull := hfull (by simp [heq]) (by simp [heq])
    rw [heq] at hphase
    split at h
    · rename_i hequal
      cases h
      exact .enter hgood hphase hequal.2 hfull heq
    · cases h
      exact .look hgood hle hfull (by rw [heq]; rfl) (by simp [holds, heq])
  case h_3 heq => -- reject
    cases h
    have honce := hgood.once
    have hholds : c.holds = false := by simp [holds, heq]
    rw [hholds] at honce
    refine ⟨by simp [holds, heq], hle, ?_, honce, trivial, fun h => ?_, fun h => ?_, fun _ => .inr rfl⟩
    · simp [rejected, heq, hgood.refused heq]
    · cases h
    · cases h
  case h_4 succeeds heq => -- allocate
    cases h
    have hfull := hfull (by simp [heq]) (by simp [heq])
    cases succeeds <;> exact .quiet hgood hle hfull trivial rfl (by simp [holds, heq])
  case h_5 succeeds heq => -- share
    cases h
    have hfull := hfull (by simp [heq]) (by simp [heq])
    cases succeeds <;> exact .quiet hgood hle hfull trivial rfl (by simp [holds, heq])
  case h_6 heq => -- delete
    cases h
    have hholds : c.holds = true := by simp [holds, heq]
    exact .giveBack hgood hle (hfull (by simp [heq]) (by simp [heq])) (hactive hholds) hholds trivial
      rfl rfl
  case h_7 deleted heq => -- undo
    cases h
    cases deleted with
    | true => exact absurd ⟨rfl, heq⟩ hundo
    | false =>
      have hholds : c.holds = true := by simp [holds, heq]
      exact .giveBack hgood hle (hfull (by simp [heq]) (by simp [heq])) (hactive hholds) hholds trivial
        rfl rfl
  case h_8 heq => -- noContexts
    have hholds : c.holds = true := by simp [holds, heq]
    split at h
    · cases h
      exact .giveBack hgood hle (hfull (by simp [heq]) (by simp [heq])) (hactive hholds) hholds trivial
        rfl rfl
    · cases h
  case h_9 heq | h_10 heq | h_11 heq => -- capture, convert, store
    cases h
    exact .quiet hgood hle (hfull (by simp [heq]) (by simp [heq])) trivial rfl (by simp [holds, heq])
  case h_12 heq | h_13 heq | h_14 heq | h_15 heq => -- fail
    cases h
    have hholds : c.holds = true := by simp [holds, heq]
    exact .giveBack hgood hle (hfull (by simp [heq]) (by simp [heq])) (hactive hholds) hholds trivial
      rfl rfl
  case h_16 heq => -- emplace
    cases h
    exact .quiet hgood hle (hfull (by simp [heq]) (by simp [heq])) Session.good_new rfl
      (by simp [holds, heq])
  case h_17 s heq => -- close
    cases h
    rw [heq] at hphase
    exact .quiet hgood hle (hfull (by simp [heq]) (by simp [heq])) (hphase.close c.kind) rfl
      (by simp [holds, heq, Session.onClose_close])
  case h_18 s heq => -- closeSocket
    rw [heq] at hphase
    split at h
    · cases h
      exact .quiet hgood hle (hfull (by simp [heq]) (by simp [heq])) hphase.closeSocket rfl
        (by simp [holds, heq, Session.onClose_closeSocket])
    · cases h
  case h_19 s heq => -- abort
    cases h
    have hholds : ({ c with phase := .session s.abort } : Connection).holds = c.holds := by
      rw [holds, holds, heq]
      rfl
    exact .quiet hgood hle (hfull (by simp [heq]) (by simp [heq])) (Session.good_enter s) rfl hholds
  case h_20 s heq => -- takeHandler
    rw [heq] at hphase
    split at h
    · rename_i hrunning
      cases h
      exact .quiet hgood hle (hfull (by simp [heq]) (by simp [heq])) (hphase.takeHandler hrunning) rfl
        (by simp [holds, heq, Session.takeHandler_gone_iff])
    · cases h
  case h_21 s heq => -- dropHandler
    rw [heq] at hphase
    split at h
    · rename_i hmoved
      cases h
      have hholds : c.holds = true := by simp [holds, heq, hmoved]
      exact .giveBack hgood hle (hfull (by simp [heq]) (by simp [heq])) (hactive hholds) hholds
        (hphase.dropHandler hmoved) rfl (by simp [holds])
    · cases h
  case h_22 s heq => -- destroy
    have hfull := hfull (by simp [heq]) (by simp [heq])
    split at h
    · rename_i hidle
      split at h
      · rename_i hmember
        cases h
        have hholds : c.holds = true := by simp [holds, heq, hmember]
        exact .giveBack hgood hle hfull (hactive hholds) hholds trivial rfl rfl
      · rename_i hmember
        cases h
        have hgone : s.onClose = .gone := by
          cases hclose : s.onClose with
          | member => exact absurd hclose hmember
          | moved => exact absurd hclose hidle.2
          | gone => rfl
        exact .quiet hgood hle hfull trivial rfl (by simp [holds, heq, hgone])
    · cases h
  case h_23 => cases h

end Connection

/-! ### Runs -/

/-- The event is the step that does not keep the account. -/
def UndoesDeleted (s : State) : Event → Prop
  | .accept _ => False
  | .act i a => ∃ c, s.connections[i]? = some c ∧ c.UndoesDeleted a

/-- What holds in every state of a careful run. -/
structure Accounted (maximum : Nat) (s : State) : Prop where
  active_eq : s.counters.active = s.connections.countP Connection.holds
  active_le : s.counters.active ≤ maximum
  rejected_eq : s.counters.rejected = s.connections.countP Connection.rejected
  good : ∀ c ∈ s.connections, c.Good maximum

variable {maximum : Nat} {s s' : State}

theorem accounted_initial : Accounted maximum {} where
  active_eq := rfl
  active_le := Nat.zero_le maximum
  rejected_eq := rfl
  good := by simp

theorem Accounted.conserved (h : Accounted maximum s) : Conserved maximum s where
  active_eq := h.active_eq
  active_le := h.active_le
  once c hc := (h.good c hc).once
  opened c hc session hphase hopen := by
    have hgood := (h.good c hc).phase
    rw [hphase] at hgood
    simp [Connection.holds, hphase, (hgood.opened hopen).1]
  closed c hc session hphase hclosed hidle := by
    have hgood := (h.good c hc).phase
    rw [hphase] at hgood
    have hgone : session.onClose = .gone := by
      cases hclose : session.onClose with
      | member => exact absurd hidle.1 (Nat.ne_of_gt (hgood.closed hclosed hclose))
      | moved => exact absurd hclose hidle.2
      | gone => rfl
    simp [Connection.holds, hphase, hgone]
  rejected_eq := h.rejected_eq

theorem good_entered (kind : Kind) : ({ kind := kind } : Connection).Good maximum where
  once := rfl
  phase := trivial
  asking _ := rfl
  refused h := by cases h
  full h := by cases h

/-- One connection changes, and the counters by as much. -/
theorem countP_set_add {p : Connection → Bool} {connections : List Connection} {i : Nat}
    {c : Connection} (hget : connections[i]? = some c) (c' : Connection) :
    (connections.set i c').countP p + (p c).toNat = connections.countP p + (p c').toNat := by
  obtain ⟨hi, rfl⟩ := List.getElem?_eq_some_iff.mp hget
  have hle := List.boole_getElem_le_countP (p := p) hi
  rw [List.countP_set hi]
  cases hold : p connections[i] with
  | false => cases p c' <;> simp
  | true =>
    rw [hold, if_pos rfl] at hle
    cases p c' with
    | false => simpa using Nat.sub_add_cancel hle
    | true => exact congrArg (· + 1) (Nat.sub_add_cancel hle)

theorem Accounted.step (h : Accounted maximum s) {e : Event} (hcareful : ¬UndoesDeleted s e)
    (hstep : step maximum s e = some s') : Accounted maximum s' := by
  cases e with
  | accept kind =>
    cases hstep
    refine ⟨?_, h.active_le, ?_, fun c hc => ?_⟩
    · rw [List.countP_append, h.active_eq]
      rfl
    · rw [List.countP_append, h.rejected_eq]
      rfl
    · rcases List.mem_append.mp hc with hc | hc
      · exact h.good c hc
      · rw [List.mem_singleton.mp hc]
        exact good_entered kind
  | act i a =>
    rw [Network.step] at hstep
    split at hstep
    · rename_i c hget
      obtain ⟨⟨n, c'⟩, hact, rfl⟩ := Option.map_eq_some_iff.mp hstep
      have hmem := List.mem_of_getElem? hget
      have hheld : c.holds = true → 0 < s.counters.active := fun hholds => by
        rw [h.active_eq]
        exact List.countP_pos_iff.mpr ⟨c, hmem, hholds⟩
      have hacts := Connection.act_cases (h.good c hmem) h.active_le hheld
        (fun hundo => hcareful ⟨c, hget, hundo⟩) hact
      have hholds := countP_set_add (p := Connection.holds) hget c'
      have hrejected := countP_set_add (p := Connection.rejected) hget c'
      have hactive := hacts.active
      have hcounted := hacts.rejected
      rw [h.active_eq] at hactive
      rw [h.rejected_eq] at hcounted
      refine ⟨?_, hacts.bounded, ?_, fun d hd => ?_⟩
      · dsimp only
        omega
      · dsimp only
        omega
      · rcases List.mem_or_eq_of_mem_set hd with hd | rfl
        · exact h.good d hd
        · exact hacts.good
    · cases hstep

/-- After such a step a connection has decremented `active` twice. -/
theorem not_undoesDeleted {e : Event} (h : Conserved maximum s)
    (hnext : ∀ s', step maximum s e = some s' → Conserved maximum s') : ¬UndoesDeleted s e := by
  cases e with
  | accept kind => exact id
  | act i a =>
    rintro ⟨c, hget, rfl, hphase⟩
    have hstep : Network.step maximum s (.act i .undo) = some
        { counters := (c.giveBack s.counters .ended).1,
          connections := s.connections.set i (c.giveBack s.counters .ended).2 } := by
      rw [Network.step, hget]
      simp only [Connection.act, hphase, Option.map_some]
    obtain ⟨hi, -⟩ := List.getElem?_eq_some_iff.mp hget
    have honce := h.once c (List.mem_of_getElem? hget)
    have htwice := (hnext _ hstep).once _ (List.mem_set hi _)
    simp only [Connection.holds, hphase, Connection.giveBack, Bool.toNat_false] at honce htwice
    omega

/-- **Permits are conserved.** In every run of accepts, sessions and failures, in any order, the permits
are conserved in each state exactly if no handler of `try_acquire` runs for a permit that the constructor
of the `shared_ptr` has deleted. -/
theorem permits_conserved_iff (admission : ConnectionAdmission) (events : List Event) :
    (∀ before s, before <+: events → run (step admission.maximum) {} before = some s →
      Conserved admission.maximum s) ↔
    Along (step admission.maximum) (fun s e => ¬UndoesDeleted s e) {} events :=
  along_iff (G := fun s e => ¬UndoesDeleted s e) (fun _ h => h.conserved)
    (fun _ _ _ h hcareful hstep => h.step hcareful hstep)
    (fun _ _ h hnext => not_undoesDeleted h hnext) accounted_initial

namespace OutOfMemory

/-- The first connection, and no memory for the control block of its permit. -/
def events : List Event :=
  [.accept .http, .act 0 .load, .act 0 (.exchange false), .act 0 (.allocate true),
    .act 0 (.share false), .act 0 .delete, .act 0 .undo]

def admission : ConnectionAdmission := ⟨1000, by decide⟩

/-- The connection is gone, no permit is held, and `active` is over the maximum for good. -/
theorem permit_returned_twice :
    ∃ s, run (step admission.maximum) {} events = some s ∧ s.counters.active = 2 ^ 64 - 1 ∧
      s.connections.countP Connection.holds = 0 ∧ ¬Conserved admission.maximum s :=
  ⟨_, rfl, rfl, rfl, fun h => absurd h.active_le (by decide)⟩

end OutOfMemory

end Network
end WebServer
