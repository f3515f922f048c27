import Mathlib.Algebra.Group.Nat.Defs
import WebServer.Lib.Act
import WebServer.Lib.Run

/-!
# WebServer.Network.Listener

`HttpListener` and `TlsListener`: the accept loop with its retries, and how a listener retires and
stops.

The handlers run on the strand of the acceptor, one at a time. Each call in `Call` may throw, also a
second time when the first exception is being handled, which is what the number in `Io.fails` tells
apart. While a handler makes such a call, another thread may set `stopping_`, or close the acceptor
because it could not dispatch (`Other`). `guarded_handler` ends an exception in
`recover_accept_noexcept`.

A call that starts an operation and throws has not started it. An operation on the acceptor is aborted
only after the acceptor was closed, a wait only then or when the timer is set again; a wait that is
over by then still ends without an error.

`made`, `streak`, `drained` and `retirements` are not in the source: the sessions that were made, the
retries since the last connection, the calls of `on_drained_` and of `retire_on_executor`. A session is
named by its number. How the sessions end is left to them: `closed` is what a close callback
dispatches, and may come with any name.

* `accept_loop`: a listener that is to accept has exactly one accept or one retry pending, whatever
  throws.
* `drains_once`: the handler of a retirement is called once, as soon as no session is left.
* `stays_shut`: a listener that retires or stops makes no session and starts no operation any more.
-/

namespace WebServer
namespace Network

open Act Run

inductive ListenerKind where
  | http
  | tls
  deriving DecidableEq, Repr

structure Listener where
  kind : ListenerKind
  minimumRevision : ℕ := 0
  /-- `acceptor_.is_open()` -/
  isOpen : Bool := true
  stopping : Bool := false
  retired : Bool := false
  retryDelay : ℕ := 10
  /-- `on_drained_` is not empty -/
  onDrained : Bool := false
  sessions : List ℕ := []
  /-- the accepts that are pending -/
  accepts : ℕ := 0
  /-- the waits that are pending, and the waits that another one has replaced -/
  waits : ℕ := 0
  replaced : ℕ := 0
  made : ℕ := 0
  streak : ℕ := 0
  drained : ℕ := 0
  retirements : ℕ := 0
  deriving DecidableEq, Repr

namespace Listener

inductive Call where
  | asyncAccept
  | logError
  | loadRuntime
  | tryAcquire
  | makeSession
  | emplace
  | start
  | expiresAfter
  | asyncWait
  | onDrained
  deriving DecidableEq, Repr

/-- What another thread does. -/
inductive Other where
  | nothing
  /-- `stop` sets `stopping_` -/
  | stop
  /-- `retire` or `stop` cannot dispatch -/
  | emergency (stopping : Bool)
  deriving DecidableEq, Repr

structure Io where
  fails : ℕ → Call → Bool := fun _ _ => false
  other : ℕ → Call → Other := fun _ _ => .nothing
  /-- the revision of the runtime configuration -/
  revision : ℕ := 0
  /-- `try_acquire` has a permit -/
  permit : Bool := true
  tlsContexts : Bool := true
  /-- the new session closes before its `start` returns -/
  closes : Bool := false

/-- How an accept or a wait ends. -/
inductive Ending where
  | success
  | aborted
  | failure
  deriving DecidableEq, Repr

abbrev Program := EStateM Unit Listener

/-- `emergency_close_noexcept` -/
def emergencyClose (stopping : Bool) (l : Listener) : Listener :=
  { l with
    stopping := l.stopping || stopping
    retired := l.retired || !stopping
    isOpen := false }

def interrupted (l : Listener) : Other → Listener
  | .nothing => l
  | .stop => { l with stopping := true }
  | .emergency stopping => l.emergencyClose stopping

/-- What may happen during a call. -/
def meanwhile (io : Io) (n : ℕ) (c : Call) : Program Unit :=
  modify fun l => l.interrupted (io.other n c)

def call (io : Io) (n : ℕ) (c : Call) : Program Unit := do
  meanwhile io n c
  failing (if io.fails n c then some () else none)

/-- The listener is to accept connections. -/
def active (l : Listener) : Bool := l.isOpen && !l.stopping && !l.retired

def notifyIfDrained (io : Io) (n : ℕ) : Program Unit := do
  let l ← get
  if l.retired && l.sessions.isEmpty && l.onDrained then
    modify fun l => { l with onDrained := false, drained := l.drained + 1 }
    call io n .onDrained
  else pure ()

def acceptNext (io : Io) (n : ℕ) : Program Unit := do
  let l ← get
  if l.active then
    call io n .asyncAccept
    modify fun l => { l with accepts := l.accepts + 1 }
  else notifyIfDrained io n

/-- Setting the timer cancels a wait that is pending. -/
def scheduleAcceptRetry (io : Io) (n : ℕ) : Program Unit := do
  let l ← get
  if l.active then
    call io n .expiresAfter
    modify fun l => { l with
      retryDelay := min (l.retryDelay * 2) 1000
      streak := l.streak + 1
      waits := 0
      replaced := l.replaced + l.waits }
    call io n .asyncWait
    modify fun l => { l with waits := l.waits + 1 }
  else notifyIfDrained io n

/-- What the close callback of a session does on the strand. -/
def sessionClosed (io : Io) (n : ℕ) (session : ℕ) : Program Unit := do
  modify fun l => { l with sessions := l.sessions.erase session }
  notifyIfDrained io n

def closesEarly (io : Io) (session : ℕ) : Program Unit :=
  if io.closes then sessionClosed io 0 session else pure ()

def startSession (io : Io) (session : ℕ) : Program Unit := do
  closesEarly io session
  call io 0 .start

/-- What `on_accept` tries once the gate is open: whether a session was started. -/
def admitSession (io : Io) : EStateM Unit Listener Bool := do
  call io 0 .tryAcquire
  if io.permit then
    let l ← get
    if l.kind = .http || io.tlsContexts then
      call io 0 .makeSession
      call io 0 .emplace
      modify fun l => { l with made := l.made + 1, sessions := l.made :: l.sessions }
      guarded (fun s => { s with sessions := s.sessions.erase l.made }) (startSession io l.made)
      pure true
    else
      acceptNext io 0
      pure false
  else
    scheduleAcceptRetry io 0
    pure false

/-- The exceptions of `on_accept` are logged, and it tries again later. -/
def retryLater (io : Io) : Program Unit := do
  meanwhile io 1 .logError
  scheduleAcceptRetry io 1

def acceptFailed (io : Io) (ending : Ending) : Program Unit := do
  let l ← get
  if ending ≠ .aborted && l.isOpen && !l.stopping then
    meanwhile io 0 .logError
    scheduleAcceptRetry io 0
  else pure ()

def onAccept (io : Io) (ending : Ending) : Program Unit := do
  let l ← get
  if ending = .success then
    modify fun l => { l with retryDelay := 10, streak := 0 }
    if l.stopping || l.retired then notifyIfDrained io 0
    else
      call io 0 .loadRuntime
      if io.revision < l.minimumRevision then scheduleAcceptRetry io 0
      else
        let started ← rescued (do retryLater io; pure false) (admitSession io)
        if started then rescued (scheduleAcceptRetry io 1) (acceptNext io 0) else pure ()
  else
    acceptFailed io ending
    notifyIfDrained io 0

def onAcceptRetry (io : Io) (ending : Ending) : Program Unit :=
  if ending = .success then acceptNext io 0 else pure ()

/-- `recover_accept_noexcept` -/
def recoverAccept (io : Io) (l : Listener) : Listener :=
  match scheduleAcceptRetry io 2 l with
  | .ok _ l' => l'
  | .error _ l' => l'.emergencyClose false

def guardedHandler (io : Io) (m : Program Unit) : Program Unit := caught (recoverAccept io) m

def retireOnExecutor (io : Io) : Program Unit := do
  modify fun l => { l with
    retired := true
    onDrained := true
    isOpen := false
    retirements := l.retirements + 1 }
  notifyIfDrained io 0

/-! ## Runs -/

/-- The listener after `start`, unless that throws. -/
def started (kind : ListenerKind) (minimumRevision : ℕ) (io : Io) : Option Listener :=
  match acceptNext io 0 { kind := kind, minimumRevision := minimumRevision } with
  | .ok _ l => some l
  | .error _ _ => none

inductive Event where
  | accept (io : Io) (ending : Ending)
  | retry (io : Io) (ending : Ending)
  /-- a wait that another one has replaced -/
  | replaced (io : Io) (ending : Ending)
  | closed (io : Io) (session : ℕ)
  | retire (io : Io)
  /-- `stop_on_executor` -/
  | stop
  | other (other : Other)

/-- The state in which a handler ends. -/
def after (m : Program Unit) (l : Listener) : Listener :=
  match m l with
  | .ok _ l' => l'
  | .error _ l' => l'

def step (l : Listener) : Event → Option Listener
  | .accept io ending =>
    if 0 < l.accepts ∧ (ending = .aborted → l.isOpen = false) then
      some (after (guardedHandler io (onAccept io ending)) { l with accepts := l.accepts - 1 })
    else none
  | .retry io ending =>
    if 0 < l.waits ∧ (ending ≠ .success → l.isOpen = false) then
      some (after (guardedHandler io (onAcceptRetry io ending)) { l with waits := l.waits - 1 })
    else none
  | .replaced io ending =>
    if 0 < l.replaced then
      some (after (guardedHandler io (onAcceptRetry io ending)) { l with replaced := l.replaced - 1 })
    else none
  | .closed io session => some (after (sessionClosed io 0 session) l)
  | .retire io => some (after (caught (emergencyClose false) (retireOnExecutor io)) l)
  | .stop => if l.stopping then some { l with isOpen := false } else none
  | .other other => some (l.interrupted other)

/-! ## What a listener keeps -/

structure Books (l : Listener) : Prop where
  delay : l.retryDelay = min (10 * 2 ^ l.streak) 1000
  replaced : l.replaced = 0
  unretired : l.retired = false → l.onDrained = false ∧ l.drained = 0 ∧ l.retirements = 0
  emptied : 0 < l.drained → l.sessions = []
  atMost : l.drained + l.onDrained.toNat ≤ l.retirements
  atLeast : 0 < l.retirements → 0 < l.drained + l.onDrained.toNat

/-- The handler of a retirement is only kept while there are sessions to wait for. -/
def Waiting (l : Listener) : Prop := l.onDrained = true → l.sessions ≠ []

/-- In a handler, before it has started an operation. -/
structure Idle (l : Listener) : Prop extends Books l where
  waiting : l.Waiting
  accepts : l.accepts = 0
  waits : l.waits = 0

/-- Between two handlers. -/
structure Rested (l : Listener) : Prop extends Books l where
  waiting : l.Waiting
  single : l.accepts + l.waits ≤ 1
  looping : l.active = true → l.accepts + l.waits = 1

/-- In `on_accept`, when it has found that the listener has not retired. -/
structure Fresh (l : Listener) : Prop extends Idle l where
  unset : l.onDrained = false
  undrained : l.drained = 0

section Interrupted

variable {l : Listener} (o : Other)

theorem active_interrupted (h : (l.interrupted o).active = true) : l.active = true := by
  cases o with
  | nothing => exact h
  | stop => simp [interrupted, active] at h
  | emergency stopping => simp [interrupted, emergencyClose, active] at h

theorem Books.interrupted (h : l.Books) : (l.interrupted o).Books := by
  cases o with
  | nothing => exact h
  | stop => exact ⟨h.delay, h.replaced, h.unretired, h.emptied, h.atMost, h.atLeast⟩
  | emergency stopping =>
    refine ⟨h.delay, h.replaced, ?_, h.emptied, h.atMost, h.atLeast⟩
    intro hretired
    exact h.unretired (Bool.or_eq_false_iff.mp hretired).1

theorem Idle.interrupted (h : l.Idle) : (l.interrupted o).Idle := by
  have hbooks := h.toBooks.interrupted o
  cases o <;> exact ⟨hbooks, h.waiting, h.accepts, h.waits⟩

theorem Fresh.interrupted (h : l.Fresh) : (l.interrupted o).Fresh := by
  have hidle := h.toIdle.interrupted o
  cases o <;> exact ⟨hidle, h.unset, h.undrained⟩

theorem Rested.interrupted (h : l.Rested) : (l.interrupted o).Rested := by
  have hbooks := h.toBooks.interrupted o
  have hactive := active_interrupted (l := l) o
  cases o <;> exact ⟨hbooks, h.waiting, h.single, fun ha => h.looping (hactive ha)⟩

end Interrupted

/-- An operation is not missed where the listener is not to accept. -/
theorem Idle.rested {l : Listener} (h : l.Idle) (hactive : l.active = false) : l.Rested := by
  refine ⟨h.toBooks, h.waiting, ?_, ?_⟩
  · rw [h.accepts, h.waits]
    exact Nat.zero_le 1
  · intro ha
    rw [hactive] at ha
    cases ha

/-! ## What the functions do -/

section Specs

variable {io : Io} {n : ℕ} {P : Listener → Prop}

theorem spec_meanwhile (hP : ∀ l o, P l → P (l.interrupted o)) {c : Call} {E : Listener → Prop} :
    Spec P (meanwhile io n c) (fun _ => P) E := by
  apply spec_modify
  intro l h
  exact hP l _ h

theorem spec_call (hP : ∀ l o, P l → P (l.interrupted o)) {c : Call} :
    Spec P (call io n c) (fun _ => P) P := by
  refine spec_bind (spec_meanwhile hP) fun _ => ?_
  exact spec_failing (fun _ h => h) fun _ h => h

/-- There is nobody to be notified, except after a session has gone. -/
theorem notifyIfDrained_of_waiting {l : Listener} (h : l.Waiting) :
    notifyIfDrained io n l = .ok () l := by
  unfold notifyIfDrained
  rw [bind_of_ok (show (MonadState.get : Program Listener) l = .ok l l from rfl)]
  rw [if_neg]
  · rfl
  · intro hdrained
    simp only [Bool.and_eq_true, List.isEmpty_iff] at hdrained
    exact h hdrained.2 hdrained.1.2

theorem spec_notifyIfDrained {E : Listener → Prop} (hP : ∀ l, P l → l.Waiting) :
    Spec P (notifyIfDrained io n) (fun _ => P) E := by
  intro l h
  rw [notifyIfDrained_of_waiting (hP l h)]
  exact h

theorem spec_inactive : Spec (fun l => l.Idle ∧ l.active = false) (notifyIfDrained io n)
    (fun _ => Rested) Idle :=
  spec_conseq (spec_notifyIfDrained fun _ h => h.1.waiting) (fun _ h => h)
    (fun _ _ h => h.1.rested h.2) fun _ h => h

theorem spec_acceptNext : Spec Idle (acceptNext io n) (fun _ => Rested) Idle := by
  refine spec_read fun l hidle => ?_
  apply spec_ite
  · intro hactive
    refine spec_bind (spec_at (spec_call fun _ o => Idle.interrupted o) hidle) fun _ => ?_
    apply spec_modify
    intro l h
    refine ⟨⟨h.delay, h.replaced, h.unretired, h.emptied, h.atMost, h.atLeast⟩, h.waiting, ?_, ?_⟩
    · simp [h.accepts, h.waits]
    · intro _
      simp [h.accepts, h.waits]
  · intro hactive
    exact spec_at spec_inactive ⟨hidle, Bool.eq_false_iff.mpr hactive⟩

/-- One more retry doubles the delay, up to the bound. -/
theorem delay_succ (streak : ℕ) :
    min (min (10 * 2 ^ streak) 1000 * 2) 1000 = min (10 * 2 ^ (streak + 1)) 1000 := by
  rw [Nat.pow_succ]
  omega

theorem spec_scheduleAcceptRetry : Spec Idle (scheduleAcceptRetry io n) (fun _ => Rested) Idle := by
  refine spec_read fun l hidle => ?_
  apply spec_ite
  · intro hactive
    refine spec_bind (spec_at (spec_call fun _ o => Idle.interrupted o) hidle) fun _ => ?_
    refine spec_bind (M := fun _ => Idle) ?_ fun _ => ?_
    · apply spec_modify
      intro l h
      refine ⟨⟨?_, ?_, h.unretired, h.emptied, h.atMost, h.atLeast⟩, h.waiting, h.accepts, rfl⟩
      · simp only [h.delay, delay_succ]
      · simp only [h.replaced, h.waits]
    · refine spec_bind (spec_call fun _ o => Idle.interrupted o) fun _ => ?_
      apply spec_modify
      intro l h
      refine ⟨⟨h.delay, h.replaced, h.unretired, h.emptied, h.atMost, h.atLeast⟩, h.waiting, ?_, ?_⟩
      · simp [h.accepts, h.waits]
      · intro _
        simp [h.accepts, h.waits]
  · intro hactive
    exact spec_at spec_inactive ⟨hidle, Bool.eq_false_iff.mpr hactive⟩

theorem spec_retryLater : Spec Idle (retryLater io) (fun _ => Rested) Idle :=
  spec_bind (spec_meanwhile fun _ o => Idle.interrupted o) fun _ => spec_scheduleAcceptRetry

theorem Fresh.sessions {l : Listener} (h : l.Fresh) (sessions : List ℕ) (made : ℕ) :
    Fresh { l with sessions := sessions, made := made } := by
  refine ⟨⟨⟨h.delay, h.replaced, h.unretired, ?_, h.atMost, h.atLeast⟩, ?_, h.accepts, h.waits⟩,
    h.unset, h.undrained⟩
  · intro hdrained
    rw [h.undrained] at hdrained
    cases hdrained
  · intro hset
    rw [h.unset] at hset
    cases hset

theorem spec_startSession (session : ℕ) :
    Spec Fresh (startSession io session) (fun _ => Fresh) Fresh := by
  have hclosed : Spec Fresh (sessionClosed io 0 session) (fun _ => Fresh) Fresh := by
    refine spec_bind (M := fun _ => Fresh) ?_ fun _ => spec_notifyIfDrained fun _ h => h.waiting
    apply spec_modify
    intro l h
    exact h.sessions _ l.made
  refine spec_bind (M := fun _ => Fresh) ?_ fun _ => spec_call fun _ o => Fresh.interrupted o
  apply spec_ite
  · intro _
    exact hclosed
  · intro _
    exact spec_pure fun _ h => h

theorem spec_admitSession : Spec Fresh (admitSession io)
    (fun started l => if started then l.Idle else l.Rested) Idle := by
  have hcall : ∀ c, Spec Fresh (call io 0 c) (fun _ => Fresh) Idle := fun c =>
    spec_conseq (spec_call fun _ o => Fresh.interrupted o) (fun _ h => h) (fun _ _ h => h)
      fun _ h => h.toIdle
  have hidle : ∀ {m : Program Unit}, Spec Idle m (fun _ => Rested) Idle →
      Spec Fresh (do m; pure false) (fun started l => if started then l.Idle else l.Rested) Idle := by
    intro m hm
    refine spec_bind (spec_conseq hm (fun _ h => h.toIdle) (fun _ _ h => h) fun _ h => h) fun _ => ?_
    exact spec_pure fun _ h => h
  refine spec_bind (hcall _) fun _ => ?_
  apply spec_ite
  · intro _
    refine spec_read fun l hfresh => ?_
    apply spec_ite
    · intro _
      refine spec_bind (spec_at (hcall _) hfresh) fun _ => ?_
      refine spec_bind (hcall _) fun _ => ?_
      refine spec_bind (M := fun _ => Fresh) ?_ fun _ => ?_
      · apply spec_modify
        intro l h
        exact h.sessions _ _
      · refine spec_bind (M := fun _ => Fresh) ?_ fun _ => spec_pure fun _ h => h.toIdle
        apply spec_guarded
        refine spec_conseq (spec_startSession _) (fun _ h => h) (fun _ _ h => h) fun l h => ?_
        exact (h.sessions _ l.made).toIdle
    · intro _
      exact spec_at (hidle spec_acceptNext) hfresh
  · intro _
    exact hidle spec_scheduleAcceptRetry

theorem spec_acceptFailed (ending : Ending) :
    Spec (fun l => l.Idle ∧ (ending = .aborted → l.isOpen = false)) (acceptFailed io ending)
      (fun _ => Rested) Idle := by
  refine spec_read fun l₀ ⟨hidle, haborted⟩ => ?_
  apply spec_ite
  · intro _
    refine spec_bind (spec_at (spec_meanwhile fun _ o => Idle.interrupted o) hidle) fun _ => ?_
    exact spec_scheduleAcceptRetry
  · intro hshut
    apply spec_pure
    rintro l rfl
    apply hidle.rested
    by_contra hactive
    simp only [active, Bool.not_eq_false, Bool.and_eq_true, Bool.not_eq_true'] at hactive
    obtain ⟨⟨hopen, hstopping⟩, -⟩ := hactive
    apply hshut
    simp only [hopen, hstopping, Bool.and_true, Bool.not_false, decide_eq_true_eq]
    intro he
    rw [haborted he] at hopen
    cases hopen

theorem spec_onAccept (ending : Ending) :
    Spec (fun l => l.Idle ∧ (ending = .aborted → l.isOpen = false)) (onAccept io ending)
      (fun _ => Rested) Idle := by
  refine spec_read fun l₀ ⟨hidle, haborted⟩ => ?_
  apply spec_ite
  · intro _
    have hreset : Spec (· = l₀)
        (modify fun l => { l with retryDelay := 10, streak := 0 } : Program Unit)
        (fun _ l => l.Idle ∧ l.stopping = l₀.stopping ∧ l.retired = l₀.retired) Idle := by
      apply spec_modify
      rintro l rfl
      exact ⟨⟨⟨rfl, hidle.replaced, hidle.unretired, hidle.emptied, hidle.atMost, hidle.atLeast⟩,
        hidle.waiting, hidle.accepts, hidle.waits⟩, rfl, rfl⟩
    refine spec_bind hreset fun _ => ?_
    apply spec_ite
    · intro hshut
      refine spec_conseq (spec_inactive (n := 0)) ?_ (fun _ _ h => h) fun _ h => h
      rintro l ⟨h, hstopping, hretired⟩
      refine ⟨h, ?_⟩
      rw [← hstopping, ← hretired] at hshut
      simp only [active]
      revert hshut
      cases l.isOpen <;> cases l.stopping <;> cases l.retired <;> simp
    · intro hshut
      have hretired : l₀.retired = false := by
        revert hshut
        cases l₀.retired <;> simp
      refine spec_bind (M := fun _ => Fresh) (spec_conseq (spec_call (P := Fresh)
        fun _ o => Fresh.interrupted o) ?_ (fun _ _ h => h) fun _ h => h.toIdle) fun _ => ?_
      · rintro l ⟨h, -, hl⟩
        obtain ⟨hunset, hundrained, -⟩ := h.unretired (hl.trans hretired)
        exact ⟨h, hunset, hundrained⟩
      · apply spec_ite
        · intro _
          exact spec_conseq spec_scheduleAcceptRetry (fun _ h => h.toIdle) (fun _ _ h => h) fun _ h => h
        · intro _
          refine spec_bind (spec_rescued spec_admitSession ?_) fun started => ?_
          · exact spec_bind spec_retryLater fun _ => spec_pure fun _ h => h
          · cases started with
            | false => exact spec_pure fun _ h => h
            | true => exact spec_rescued spec_acceptNext spec_scheduleAcceptRetry
  · intro _
    refine spec_bind (spec_at (spec_acceptFailed ending) ⟨hidle, haborted⟩) fun _ => ?_
    exact spec_notifyIfDrained fun _ h => h.waiting

theorem spec_onAcceptRetry (ending : Ending) :
    Spec (fun l => l.Idle ∧ (ending ≠ .success → l.isOpen = false)) (onAcceptRetry io ending)
      (fun _ => Rested) Idle := by
  apply spec_ite
  · intro _
    exact spec_conseq spec_acceptNext (fun _ h => h.1) (fun _ _ h => h) fun _ h => h
  · intro he
    apply spec_pure
    intro l h
    apply h.1.rested
    simp [active, h.2 he]

theorem Idle.recovered {l : Listener} (h : l.Idle) : (l.recoverAccept io).Rested := by
  have hspec := @spec_scheduleAcceptRetry io 2 l h
  unfold recoverAccept
  cases hm : scheduleAcceptRetry io 2 l with
  | ok _ l' =>
    rw [hm] at hspec
    exact hspec
  | error _ l' =>
    rw [hm] at hspec
    have hidle : l'.Idle := hspec
    exact (hidle.interrupted (.emergency false)).rested rfl

theorem rested_guarded {m : Program Unit} (hm : Spec P m (fun _ => Rested) Idle) {l : Listener}
    (hl : P l) : (after (guardedHandler io m) l).Rested := by
  have h : Spec P (guardedHandler io m) (fun _ => Rested) fun _ => False :=
    spec_caught (spec_conseq hm (fun _ h => h) (fun _ _ h => h) fun _ h => h.recovered)
  have h := h l hl
  unfold after
  cases hr : guardedHandler io m l with
  | ok _ l' =>
    rw [hr] at h
    exact h
  | error _ l' =>
    rw [hr] at h
    exact h.elim

theorem rested_after {m : Program Unit} (hm : Spec P m (fun _ => Rested) Rested) {l : Listener}
    (hl : P l) : (after m l).Rested := by
  have h := hm l hl
  unfold after
  cases hr : m l with
  | ok _ l' =>
    rw [hr] at h
    exact h
  | error _ l' =>
    rw [hr] at h
    exact h

/-- A session may have gone, or the listener may have retired. -/
structure Unnotified (l : Listener) : Prop extends Books l where
  single : l.accepts + l.waits ≤ 1
  looping : l.active = true → l.accepts + l.waits = 1

theorem spec_notify : Spec Unnotified (notifyIfDrained io n) (fun _ => Rested) Rested := by
  refine spec_read fun l h => ?_
  apply spec_ite
  · intro hdrained
    simp only [Bool.and_eq_true, List.isEmpty_iff] at hdrained
    obtain ⟨⟨hretired, hsessions⟩, hset⟩ := hdrained
    refine spec_bind (M := fun _ => Rested) ?_ fun _ => spec_call fun _ o => Rested.interrupted o
    apply spec_modify
    rintro l rfl
    refine ⟨⟨h.delay, h.replaced, ?_, fun _ => hsessions, ?_, fun _ => Nat.succ_pos _⟩, ?_, h.single,
      h.looping⟩
    · intro hunretired
      rw [hretired] at hunretired
      cases hunretired
    · have hatMost := h.atMost
      rw [hset] at hatMost
      exact hatMost
    · intro hnone
      cases hnone
  · intro hdrained
    apply spec_pure
    rintro l rfl
    refine ⟨h.toBooks, ?_, h.single, h.looping⟩
    intro hset hsessions
    apply hdrained
    cases hretired : l.retired with
    | true => simp [hset, hsessions]
    | false =>
      rw [(h.unretired hretired).1] at hset
      cases hset

theorem spec_sessionClosed (session : ℕ) :
    Spec Rested (sessionClosed io n session) (fun _ => Rested) Rested := by
  refine spec_bind (M := fun _ => Unnotified) ?_ fun _ => spec_notify
  apply spec_modify
  intro l h
  refine ⟨⟨h.delay, h.replaced, h.unretired, ?_, h.atMost, h.atLeast⟩, h.single, h.looping⟩
  intro hdrained
  rw [h.emptied hdrained]
  rfl

theorem spec_retireOnExecutor : Spec Rested (retireOnExecutor io) (fun _ => Rested) Rested := by
  refine spec_bind (M := fun _ => Unnotified) ?_ fun _ => spec_notify
  apply spec_modify
  intro l h
  have hatMost := h.atMost
  refine ⟨⟨h.delay, h.replaced, ?_, h.emptied, ?_, fun _ => Nat.succ_pos _⟩, h.single, ?_⟩
  · intro hunretired
    cases hunretired
  · simp only [Bool.toNat_true]
    omega
  · intro hactive
    simp [active] at hactive

end Specs

theorem rested_step {l l' : Listener} (e : Event) (h : l.Rested) (hs : step l e = some l') :
    l'.Rested := by
  have hsingle := h.single
  cases e with
  | accept io ending =>
    obtain ⟨⟨hpending, haborted⟩, rfl⟩ := Option.ite_none_right_eq_some.mp hs |>.imp_right Option.some.inj
    have hidle : Idle { l with accepts := l.accepts - 1 } :=
      ⟨⟨h.delay, h.replaced, h.unretired, h.emptied, h.atMost, h.atLeast⟩, h.waiting,
        by simp only; omega, by simp only; omega⟩
    exact rested_guarded (spec_onAccept ending) ⟨hidle, haborted⟩
  | retry io ending =>
    obtain ⟨⟨hpending, haborted⟩, rfl⟩ := Option.ite_none_right_eq_some.mp hs |>.imp_right Option.some.inj
    have hidle : Idle { l with waits := l.waits - 1 } :=
      ⟨⟨h.delay, h.replaced, h.unretired, h.emptied, h.atMost, h.atLeast⟩, h.waiting,
        by simp only; omega, by simp only; omega⟩
    exact rested_guarded (spec_onAcceptRetry ending) ⟨hidle, haborted⟩
  | replaced io ending =>
    obtain ⟨hpending, -⟩ := Option.ite_none_right_eq_some.mp hs
    rw [h.replaced] at hpending
    cases hpending
  | closed io session =>
    cases hs
    exact rested_after (spec_sessionClosed session) h
  | retire io =>
    cases hs
    exact rested_after (spec_caught (spec_conseq spec_retireOnExecutor (fun _ h => h)
      (fun _ _ h => h) fun _ h => h.interrupted (.emergency false))) h
  | stop =>
    obtain ⟨-, rfl⟩ := Option.ite_none_right_eq_some.mp hs |>.imp_right Option.some.inj
    refine ⟨⟨h.delay, h.replaced, h.unretired, h.emptied, h.atMost, h.atLeast⟩, h.waiting, h.single, ?_⟩
    intro hactive
    simp [active] at hactive
  | other o =>
    cases hs
    exact h.interrupted o

theorem rested_started {kind : ListenerKind} {minimumRevision : ℕ} {io : Io} {l : Listener}
    (h : started kind minimumRevision io = some l) : l.Rested := by
  have hidle : Idle { kind := kind, minimumRevision := minimumRevision } := by
    refine ⟨⟨rfl, rfl, fun _ => ⟨rfl, rfl, rfl⟩, ?_, Nat.le_refl _, ?_⟩, ?_, rfl, rfl⟩
    · intro hdrained
      cases hdrained
    · intro hretirements
      cases hretirements
    · intro hset
      cases hset
  have hspec := @spec_acceptNext io 0 _ hidle
  unfold started at h
  cases hm : acceptNext io 0 { kind := kind, minimumRevision := minimumRevision } with
  | ok _ l' =>
    rw [hm] at h hspec
    cases h
    exact hspec
  | error _ l' =>
    rw [hm] at h
    cases h

/-! ## The accept loop -/

namespace Failing

/-- `async_accept` throws once the first session has started. -/
def io : Io where
  fails n c := n = 0 && c = .asyncAccept
  revision := 2

def quiet : Io where
  revision := 2

def first : Listener := { kind := .tls, minimumRevision := 2, accepts := 1 }

/-- The session closes after the listener was told to retire. -/
def events : List Event :=
  [.accept io .success, .retry quiet .success, .accept quiet .success, .retire quiet,
    .accept quiet .aborted, .closed quiet 1, .closed quiet 0]

end Failing

section Results

variable {kind : ListenerKind} {minimumRevision : ℕ} {io : Io} {l₀ l l' : Listener} {es : List Event}

theorem rested_run (hstart : started kind minimumRevision io = some l₀)
    (hrun : run step l₀ es = some l) : l.Rested :=
  run_inv (fun _ e _ h hs => rested_step e h hs) (rested_started hstart) hrun

/-- While a listener is to accept, it has exactly one accept or one retry pending, whatever its handlers
throw and whatever other threads do. The timer is never set while a wait is pending, and the delay
doubles with each retry since the last connection, up to a second. -/
theorem accept_loop (hstart : started kind minimumRevision io = some l₀)
    (hrun : run step l₀ es = some l) :
    l.accepts + l.waits ≤ 1 ∧ (l.active = true → l.accepts + l.waits = 1) ∧ l.replaced = 0 ∧
      l.retryDelay = min (10 * 2 ^ l.streak) 1000 := by
  have h := rested_run hstart hrun
  exact ⟨h.single, h.looping, h.replaced, h.delay⟩

theorem accept_loop_failing : ∃ l, run step Failing.first (Failing.events.take 2) = some l ∧
    l.accepts + l.waits ≤ 1 ∧ (l.active = true → l.accepts + l.waits = 1) ∧ l.streak = 1 ∧
    l.retryDelay = min (10 * 2 ^ 1) 1000 := by
  have hstart : started .tls 2 {} = some Failing.first := rfl
  have hrun : run step Failing.first (Failing.events.take 2) =
      some { Failing.first with retryDelay := 20, sessions := [0], made := 1, streak := 1 } := rfl
  obtain ⟨hsingle, hlooping, -, hdelay⟩ := accept_loop hstart hrun
  exact ⟨_, hrun, hsingle, hlooping, rfl, hdelay⟩

/-- The handler of a retirement is called when no session is left, not before, and not more often than
the listener is told to retire. -/
theorem drains_once (hstart : started kind minimumRevision io = some l₀)
    (hrun : run step l₀ es = some l) :
    l.drained ≤ l.retirements ∧ (0 < l.retirements → (0 < l.drained ↔ l.sessions = [])) := by
  have h := rested_run hstart hrun
  refine ⟨Nat.le_trans (Nat.le_add_right _ _) h.atMost, ?_⟩
  intro hretirements
  refine ⟨h.emptied, ?_⟩
  intro hsessions
  have hunset : l.onDrained = false := by
    by_contra hset
    exact h.waiting (eq_true_of_ne_false hset) hsessions
  have hatLeast := h.atLeast hretirements
  rw [hunset] at hatLeast
  exact hatLeast

theorem drains_once_failing : ∃ l, run step Failing.first Failing.events = some l ∧
    l.drained ≤ 1 ∧ 0 < l.drained := by
  have hstart : started .tls 2 {} = some Failing.first := rfl
  have hrun : run step Failing.first Failing.events =
      some { Failing.first with isOpen := false, retired := true, accepts := 0, made := 2, drained := 1,
                                retirements := 1 } := rfl
  obtain ⟨hle, hiff⟩ := drains_once hstart hrun
  exact ⟨_, hrun, hle, (hiff Nat.one_pos).mpr rfl⟩

end Results

/-! ## Retiring and stopping -/

def Event.isAccept : Event → Bool
  | .accept _ _ => true
  | _ => false

def Event.isRetry : Event → Bool
  | .retry _ _ => true
  | _ => false

def Event.isReplaced : Event → Bool
  | .replaced _ _ => true
  | _ => false

/-- `l` has come out of `l₀` by a handler of a listener that retires or stops. -/
structure Shut (l₀ l : Listener) : Prop where
  shut : (l.stopping || l.retired) = true
  made : l.made = l₀.made
  sessions : l.sessions.Sublist l₀.sessions
  accepts : l.accepts = l₀.accepts
  waits : l.waits = l₀.waits
  replaced : l.replaced = l₀.replaced

section Shut

variable {io : Io} {n : ℕ} {l₀ l : Listener}

theorem Shut.refl (h : (l.stopping || l.retired) = true) : Shut l l :=
  ⟨h, rfl, .refl _, rfl, rfl, rfl⟩

theorem Shut.interrupted (h : Shut l₀ l) (o : Other) : Shut l₀ (l.interrupted o) := by
  have hshut : ((l.interrupted o).stopping || (l.interrupted o).retired) = true := by
    have hshut := h.shut
    cases o with
    | nothing => exact hshut
    | stop => exact Bool.true_or _
    | emergency stopping =>
      change (l.stopping || stopping || (l.retired || !stopping)) = true
      cases stopping <;> simp
  cases o <;> exact ⟨hshut, h.made, h.sessions, h.accepts, h.waits, h.replaced⟩

theorem Shut.inactive (h : Shut l₀ l) : ¬ l.active = true := by
  have hshut := h.shut
  revert hshut
  simp only [active]
  cases l.isOpen <;> cases l.stopping <;> cases l.retired <;> simp

/-- Without a claim about how it ends. -/
def Stays (l₀ : Listener) (m : Program Unit) : Prop := Spec (Shut l₀) m (fun _ => Shut l₀) (Shut l₀)

theorem stays_notifyIfDrained : Stays l₀ (notifyIfDrained io n) := by
  refine spec_read fun l h => ?_
  apply spec_ite
  · intro _
    refine spec_bind (M := fun _ => Shut l₀) ?_ fun _ => spec_call fun _ o h => h.interrupted o
    apply spec_modify
    rintro l rfl
    exact ⟨h.shut, h.made, h.sessions, h.accepts, h.waits, h.replaced⟩
  · intro _
    apply spec_pure
    rintro l rfl
    exact h

theorem stays_acceptNext : Stays l₀ (acceptNext io n) := by
  refine spec_read fun l h => ?_
  rw [if_neg h.inactive]
  exact spec_at stays_notifyIfDrained h

theorem stays_scheduleAcceptRetry : Stays l₀ (scheduleAcceptRetry io n) := by
  refine spec_read fun l h => ?_
  rw [if_neg h.inactive]
  exact spec_at stays_notifyIfDrained h

theorem stays_acceptFailed (ending : Ending) : Stays l₀ (acceptFailed io ending) := by
  refine spec_read fun l h => ?_
  apply spec_ite
  · intro _
    refine spec_bind (spec_at (P := Shut l₀)
      (spec_meanwhile fun _ o h => h.interrupted o) h) fun _ => ?_
    exact stays_scheduleAcceptRetry
  · intro _
    apply spec_pure
    rintro l rfl
    exact h

theorem stays_onAccept (ending : Ending) : Stays l₀ (onAccept io ending) := by
  refine spec_read fun l h => ?_
  apply spec_ite
  · intro _
    rw [if_pos h.shut]
    refine spec_bind (M := fun _ => Shut l₀) ?_ fun _ => stays_notifyIfDrained
    apply spec_modify
    rintro l rfl
    exact ⟨h.shut, h.made, h.sessions, h.accepts, h.waits, h.replaced⟩
  · intro _
    refine spec_bind (spec_at (stays_acceptFailed ending) h) fun _ => ?_
    exact stays_notifyIfDrained

theorem stays_onAcceptRetry (ending : Ending) : Stays l₀ (onAcceptRetry io ending) := by
  apply spec_ite
  · intro _
    exact stays_acceptNext
  · intro _
    exact spec_pure fun _ h => h

theorem stays_sessionClosed (session : ℕ) : Stays l₀ (sessionClosed io n session) := by
  refine spec_bind (M := fun _ => Shut l₀) ?_ fun _ => stays_notifyIfDrained
  apply spec_modify
  intro l h
  exact ⟨h.shut, h.made, List.erase_sublist.trans h.sessions, h.accepts, h.waits, h.replaced⟩

theorem stays_retireOnExecutor : Stays l₀ (retireOnExecutor io) := by
  refine spec_bind (M := fun _ => Shut l₀) ?_ fun _ => stays_notifyIfDrained
  apply spec_modify
  intro l h
  exact ⟨Bool.or_true _, h.made, h.sessions, h.accepts, h.waits, h.replaced⟩

theorem shut_after {m : Program Unit} (hm : Stays l₀ m) (h : Shut l₀ l) : Shut l₀ (after m l) := by
  have h := hm l h
  unfold after
  cases hr : m l with
  | ok _ l' =>
    rw [hr] at h
    exact h
  | error _ l' =>
    rw [hr] at h
    exact h

theorem stays_guardedHandler {m : Program Unit} (hm : Stays l₀ m) :
    Stays l₀ (guardedHandler io m) := by
  refine spec_caught (spec_conseq hm (fun _ h => h) (fun _ _ h => h) ?_)
  intro l h
  have hspec : Stays l₀ (scheduleAcceptRetry io 2) := stays_scheduleAcceptRetry
  have hspec := hspec l h
  unfold recoverAccept
  cases hr : scheduleAcceptRetry io 2 l with
  | ok _ l' =>
    rw [hr] at hspec
    exact hspec
  | error _ l' =>
    rw [hr] at hspec
    have hshut : Shut l₀ l' := hspec
    exact hshut.interrupted (.emergency false)

/-- The operation whose completion the event is, if it is one, is no longer pending. -/
def finish (l : Listener) : Event → Listener
  | .accept _ _ => { l with accepts := l.accepts - 1 }
  | .retry _ _ => { l with waits := l.waits - 1 }
  | .replaced _ _ => { l with replaced := l.replaced - 1 }
  | _ => l

/-- One event completes what it completes, and starts nothing. -/
theorem shut_step {l' : Listener} (e : Event) (hshut : (l.stopping || l.retired) = true)
    (hs : step l e = some l') : Shut (l.finish e) l' := by
  cases e with
  | accept io ending =>
    obtain ⟨-, rfl⟩ := Option.ite_none_right_eq_some.mp hs |>.imp_right Option.some.inj
    exact shut_after (stays_guardedHandler (stays_onAccept ending)) (.refl hshut)
  | retry io ending =>
    obtain ⟨-, rfl⟩ := Option.ite_none_right_eq_some.mp hs |>.imp_right Option.some.inj
    exact shut_after (stays_guardedHandler (stays_onAcceptRetry ending)) (.refl hshut)
  | replaced io ending =>
    obtain ⟨-, rfl⟩ := Option.ite_none_right_eq_some.mp hs |>.imp_right Option.some.inj
    exact shut_after (stays_guardedHandler (stays_onAcceptRetry ending)) (.refl hshut)
  | closed io session =>
    cases hs
    exact shut_after (stays_sessionClosed session) (.refl hshut)
  | retire io =>
    cases hs
    exact shut_after (spec_caught (spec_conseq stays_retireOnExecutor (fun _ h => h)
      (fun _ _ h => h) fun _ h => h.interrupted (.emergency false))) (.refl hshut)
  | stop =>
    obtain ⟨-, rfl⟩ := Option.ite_none_right_eq_some.mp hs |>.imp_right Option.some.inj
    exact ⟨hshut, rfl, .refl _, rfl, rfl, rfl⟩
  | other o =>
    cases hs
    exact (Shut.refl hshut).interrupted o

/-- What is pending then, and what has completed. -/
theorem finish_pending {l' : Listener} {e : Event} (hs : step l e = some l') :
    (l.finish e).accepts + [e].countP Event.isAccept = l.accepts ∧
      (l.finish e).waits + [e].countP Event.isRetry = l.waits ∧
      (l.finish e).replaced + [e].countP Event.isReplaced = l.replaced := by
  cases e with
  | accept io ending =>
    obtain ⟨hpending, -⟩ := Option.ite_none_right_eq_some.mp hs
    exact ⟨Nat.sub_add_cancel hpending.1, rfl, rfl⟩
  | retry io ending =>
    obtain ⟨hpending, -⟩ := Option.ite_none_right_eq_some.mp hs
    exact ⟨rfl, Nat.sub_add_cancel hpending.1, rfl⟩
  | replaced io ending =>
    obtain ⟨hpending, -⟩ := Option.ite_none_right_eq_some.mp hs
    exact ⟨rfl, rfl, Nat.sub_add_cancel hpending⟩
  | closed io session => exact ⟨rfl, rfl, rfl⟩
  | retire io => exact ⟨rfl, rfl, rfl⟩
  | stop => exact ⟨rfl, rfl, rfl⟩
  | other o => exact ⟨rfl, rfl, rfl⟩

/-- From the moment at which a listener retires or stops, it makes no session and starts neither an
accept nor a retry, whatever happens: what is pending later was pending then, and each completion
leaves one fewer. -/
theorem stays_shut {l' : Listener} {es : List Event} (hshut : (l.stopping || l.retired) = true)
    (hrun : run step l es = some l') :
    (l'.stopping || l'.retired) = true ∧ l'.made = l.made ∧ l'.sessions.Sublist l.sessions ∧
      l'.accepts + es.countP Event.isAccept = l.accepts ∧
      l'.waits + es.countP Event.isRetry = l.waits ∧
      l'.replaced + es.countP Event.isReplaced = l.replaced := by
  induction es generalizing l with
  | nil =>
    cases hrun
    exact ⟨hshut, rfl, .refl _, rfl, rfl, rfl⟩
  | cons e es ih =>
    obtain ⟨l₁, hstep, hrest⟩ := run_cons hrun
    have hfirst := shut_step e hshut hstep
    obtain ⟨haccepts, hwaits, hreplaced⟩ := finish_pending hstep
    obtain ⟨hlast, hmade, hsessions, ha, hw, hr⟩ := ih hfirst.shut hrest
    have hkept : (l.finish e).made = l.made ∧ (l.finish e).sessions = l.sessions := by
      cases e <;> exact ⟨rfl, rfl⟩
    refine ⟨hlast, hmade.trans (hfirst.made.trans hkept.1),
      hsessions.trans (hkept.2 ▸ hfirst.sessions), ?_, ?_, ?_⟩
    · rw [← List.singleton_append, List.countP_append, ← haccepts, ← hfirst.accepts, ← ha]
      omega
    · rw [← List.singleton_append, List.countP_append, ← hwaits, ← hfirst.waits, ← hw]
      omega
    · rw [← List.singleton_append, List.countP_append, ← hreplaced, ← hfirst.replaced, ← hr]
      omega

theorem stays_shut_failing : ∃ l,
    run step { Failing.first with stopping := true } [.accept Failing.quiet .success, .stop] = some l ∧
      l.made = 0 ∧ l.accepts + 1 = 1 ∧ l.waits + 0 = 0 := by
  have hrun : run step { Failing.first with stopping := true }
      [.accept Failing.quiet .success, .stop] =
        some { Failing.first with stopping := true, accepts := 0, isOpen := false } := rfl
  obtain ⟨-, hmade, -, haccepts, hwaits, -⟩ := stays_shut rfl hrun
  exact ⟨_, hrun, hmade, haccepts, hwaits⟩

end Shut

end Listener
end Network
end WebServer
