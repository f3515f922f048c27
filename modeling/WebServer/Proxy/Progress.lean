import WebServer.Proxy.Starts

/-!
# WebServer.Proxy.Progress

A transaction does not stall: until it has completed, an operation is in flight whose completion leads
further, and once its finish is deferred it only waits for what is in flight.

`Awake` is the invariant beside the modes. It excludes what a mode alone allows, a closed backend
without an error response on its way. Each handler keeps it when another operation is left in flight
(`Awake s`); the handler of the last one goes on under the guard that its mode grants.

* `never_stuck`: a transaction that has not completed has an operation in flight, other than the timer.
* `cancel_ends`: after `cancel` no operation is started until the transaction has completed, which it has
  when the last operation in flight is over.
-/

namespace WebServer
namespace Proxy

open Run

/-- The transaction has completed, its finish is deferred, or an error response is being written. -/
def Ending (s : State) : Prop := s.finishing = true ∨ .onErrorWritten ∈ s.inFlight

def Awake (s : State) : Prop :=
  Ending s ∨ s.backendCloseRequested = false ∧ ∃ op ∈ s.inFlight, op.line ≠ .timer

/-! ## What the small operations keep -/

section Small

variable {c : Config} {s t : State} {io : Io} {op : Op}

theorem Awake.mono (h : Awake s) (hr : s.completed = true → t.completed = true)
    (hd : t.deferredFinish = s.deferredFinish) (hf : ∀ op ∈ s.inFlight, op ∈ t.inFlight)
    (hclose : t.backendCloseRequested = s.backendCloseRequested) : Awake t := by
  rcases h with (h | h) | ⟨hopen, op, hm, hline⟩
  · refine .inl (.inl ?_)
    simp only [State.finishing, Bool.or_eq_true] at h ⊢
    rw [hd]
    exact h.imp_right hr
  · exact .inl (.inr (hf _ h))
  · exact .inr ⟨hclose.trans hopen, op, hf op hm, hline⟩

/-- Something that is not the timer was started. -/
theorem awake_started (hclose : t.backendCloseRequested = false) (hm : op ∈ t.inFlight)
    (hline : op.line ≠ .timer) : Awake t := .inr ⟨hclose, op, hm, hline⟩

variable (s)

@[simp] theorem finishBackendOperation_closing :
    (finishBackendOperation s).closing = s.closing := by
  obtain ⟨b, hb, -⟩ := finishBackendOperation_eq s
  rw [hb]
  rfl

@[simp] theorem finishBackendOperation_closeRequested :
    (finishBackendOperation s).backendCloseRequested = s.backendCloseRequested := by
  obtain ⟨b, hb, -⟩ := finishBackendOperation_eq s
  rw [hb]

@[simp] theorem finishBackendOperation_completed :
    (finishBackendOperation s).completed = s.completed := by
  obtain ⟨b, hb, -⟩ := finishBackendOperation_eq s
  rw [hb]

@[simp] theorem finishBackendOperation_connecting :
    (finishBackendOperation s).connecting = s.connecting := by
  obtain ⟨b, hb, -⟩ := finishBackendOperation_eq s
  rw [hb]

@[simp] theorem finishBackendOperation_started :
    (finishBackendOperation s).responseHeaderStarted = s.responseHeaderStarted := by
  obtain ⟨b, hb, -⟩ := finishBackendOperation_eq s
  rw [hb]

variable {s}

theorem Awake.finishBackend (h : Awake s) : Awake (finishBackendOperation s) := by
  obtain ⟨b, hb, -⟩ := finishBackendOperation_eq s
  rw [hb]
  exact h.mono id rfl (fun _ hm => hm) rfl

theorem Awake.finishClient (h : Awake s) : Awake (finishClientOperation s) :=
  h.mono id rfl (fun _ hm => hm) rfl

theorem Awake.startBackend (h : Awake s) (op : Op) :
    Awake (startBackendOperation (expireBackendAfter s) op) := by
  obtain ⟨f, hf, -⟩ := expire_start_eq s op
  rw [hf]
  exact h.mono id rfl (fun _ hm => List.mem_cons_of_mem _ hm) rfl

theorem awake_expireStart (hclose : s.backendCloseRequested = false) (hline : op.line ≠ .timer) :
    Awake (startBackendOperation (expireBackendAfter s) op) := by
  obtain ⟨f, hf, -⟩ := expire_start_eq s op
  rw [hf]
  exact awake_started hclose (List.mem_cons_self ..) hline

theorem awake_startBackend (hclose : s.backendCloseRequested = false) (hline : op.line ≠ .timer) :
    Awake (startBackendOperation s op) := by
  obtain ⟨f, hf, -⟩ := startBackendOperation_eq s op
  rw [hf]
  exact awake_started hclose (List.mem_cons_self ..) hline

theorem awake_startClient (hclose : s.backendCloseRequested = false) (hline : op.line ≠ .timer) :
    Awake (startClientOperation s op) :=
  awake_started hclose (List.mem_cons_self ..) hline

theorem finishing_of_completed (h : s.completed = true) : s.finishing = true := by
  simp [State.finishing, h]

theorem finishing_finish (status bytes : Nat) (keepAlive : Bool) :
    (finish s status bytes keepAlive).finishing = true := by
  unfold finish
  split
  · rename_i hr
    exact finishing_of_completed hr
  · exact finishing_of_completed rfl

theorem finishing_maybeFinish (h : s.finishing = true) : (maybeFinishDeferred s).finishing = true := by
  unfold maybeFinishDeferred
  split
  · exact h
  · split
    · exact h
    · exact finishing_finish _ _ _

theorem finishing_quiesced (status bytes : Nat) (keepAlive : Bool) :
    (finishWhenIoQuiesced s status bytes keepAlive).finishing = true := by
  unfold finishWhenIoQuiesced
  split
  · rename_i hr
    exact finishing_of_completed hr
  · exact finishing_maybeFinish rfl

theorem finishing_cancel : (cancelOnExecutor s).finishing = true := by
  unfold cancelOnExecutor
  split
  · rename_i hr
    exact finishing_of_completed hr
  · exact finishing_quiesced _ _ _

theorem awake_of_finishing (h : s.finishing = true) : Awake s := .inl (.inl h)

theorem Awake.maybeFinish (h : Awake s) : Awake (maybeFinishDeferred s) := by
  unfold maybeFinishDeferred
  split
  · exact h
  · split
    · exact h
    · exact awake_of_finishing (finishing_finish _ _ _)

theorem awake_quiesced (status bytes : Nat) (keepAlive : Bool) :
    Awake (finishWhenIoQuiesced s status bytes keepAlive) :=
  awake_of_finishing (finishing_quiesced status bytes keepAlive)

theorem awake_sendError (status n : Nat) : Awake (sendError s status n io) :=
  .inl (.inr (List.mem_cons_self ..))

theorem awake_fail (error : Error) : Awake (fail s error io) := by
  cases hr : s.completed with
  | true =>
    rw [fail, if_pos hr]
    exact awake_of_finishing (finishing_of_completed hr)
  | false =>
    obtain ⟨status, n, he⟩ := fail_eq hr error io
    rw [he]
    exact awake_sendError status n

theorem awake_failAfterHeader : Awake (failAfterHeader s) := by
  unfold failAfterHeader
  split
  · rename_i hr
    exact awake_of_finishing (finishing_of_completed hr)
  · exact awake_quiesced _ _ _

theorem awake_finishTunnel : Awake (finishTunnel s) := by
  unfold finishTunnel
  split
  · rename_i hr
    exact awake_of_finishing (finishing_of_completed hr)
  · exact awake_quiesced _ _ _

theorem awake_finishNormal : Awake (finishNormal c s io) := by
  simp only [finishNormal]
  split
  · exact awake_quiesced _ _ _
  · exact awake_of_finishing (finishing_finish _ _ _)

theorem awake_connectBackend : Awake (connectBackend c s io) := by
  simp only [connectBackend]
  split
  · exact awake_fail _
  · exact .inr ⟨rfl, .onResolved, List.mem_cons_self .., by decide⟩

end Small

/-! ## What the handlers keep -/

/-- Other operations are left in flight, or the guard of the handler lets it go on. -/
def Going (s : State) : Prop := Awake s ∨ s.closing = false

section Going

variable {c : Config} {s : State} {io : Io} {op : Op}

theorem open_of_closing (h : s.closing = false) :
    s.deferredFinish.isSome = false ∧ s.backendCloseRequested = false ∧ s.completed = false := by
  simpa [State.closing, and_assoc] using h

theorem Going.guarded (h : Going s) (hclosing : s.closing = true) : Awake (maybeFinishDeferred s) := by
  refine Awake.maybeFinish (h.resolve_right ?_)
  rw [hclosing]
  simp

theorem Going.finishing (h : Going s) (hfinishing : s.finishing = true) :
    Awake (maybeFinishDeferred s) := by
  refine h.guarded ?_
  revert hfinishing
  simp only [State.finishing, State.closing]
  cases s.deferredFinish.isSome <;> cases s.backendCloseRequested <;> simp

theorem Going.finishBackend (h : Going s) : Going (finishBackendOperation s) :=
  h.imp Awake.finishBackend fun hc => by rw [finishBackendOperation_closing, hc]

theorem Going.finishClient (h : Going s) : Going (finishClientOperation s) :=
  h.imp Awake.finishClient id

theorem Going.expireStart (h : Going s) (hline : op.line ≠ .timer) :
    Awake (startBackendOperation (expireBackendAfter s) op) := by
  rcases h with h | h
  · exact h.startBackend op
  · exact awake_expireStart (open_of_closing h).2.1 hline

theorem Going.startClient (h : Going s) (hline : op.line ≠ .timer) :
    Awake (startClientOperation s op) := by
  rcases h with h | h
  · exact h.mono id rfl (fun _ hm => List.mem_cons_of_mem _ hm) rfl
  · exact awake_startClient (open_of_closing h).2.1 hline

theorem Going.startBackend (h : Going s) (hline : op.line ≠ .timer) :
    Awake (startBackendOperation s op) := by
  rcases h with h | h
  · obtain ⟨f, hf, -⟩ := startBackendOperation_eq s op
    rw [hf]
    exact h.mono id rfl (fun _ hm => List.mem_cons_of_mem _ hm) rfl
  · exact awake_startBackend (open_of_closing h).2.1 hline

/-- Assignments that neither the guards nor `Awake` read. -/
theorem Going.set {t : State} (h : Going s) (hr : t.completed = s.completed)
    (hd : t.deferredFinish = s.deferredFinish) (hf : t.inFlight = s.inFlight)
    (hclose : t.backendCloseRequested = s.backendCloseRequested) : Going t := by
  refine h.imp (fun h => h.mono (fun hc => hr.trans hc) hd (fun op hm => by rw [hf]; exact hm) hclose) ?_
  intro hc
  rw [← hc, State.closing, State.closing, hd, hclose, hr]

theorem awake_readResponseHeader (h : Awake s ∨ s.closing = false ∧ s.responseHeaderStarted = false) :
    Awake (readResponseHeader s) := by
  unfold readResponseHeader
  split
  · rename_i hguard
    refine h.resolve_right ?_
    rintro ⟨hclosing, hstarted⟩
    rw [hstarted, (open_of_closing hclosing).2.2] at hguard
    cases hguard
  · refine Going.expireStart ?_ (by decide)
    exact Going.set (h.imp_right And.left) rfl rfl rfl rfl

theorem Awake.readRequestBodyChunk (h : Awake s) : Awake (readRequestBodyChunk s) := by
  unfold Proxy.readRequestBodyChunk
  split
  · exact h
  · exact Going.startClient (.inl h) (by decide)

theorem Awake.finishRequestBody (h : Awake s) : Awake (finishRequestBody c s) := by
  unfold Proxy.finishRequestBody
  split
  · exact h
  split
  · exact h.mono id rfl (fun _ hm => hm) rfl
  · exact h.startBackend _

end Going

section Handlers

variable {c : Config} {s : State} {io : Io}

theorem awake_startOnExecutor (h : Awake s ∨ s.backendCloseRequested = false) :
    Awake (startOnExecutor s) := by
  rcases h with h | h
  · exact h.mono id rfl (fun _ hm => List.mem_cons_of_mem _ hm) rfl
  · exact .inr ⟨h, .onBackendPermit, List.mem_cons_self .., by decide⟩

theorem awake_onBackendPermit (h : Awake s ∨ s.completed = false ∧ s.backendStream = false) :
    Awake (onBackendPermit c s io) := by
  simp only [onBackendPermit]
  split
  · rename_i hr
    refine (h.resolve_right ?_).mono id rfl (fun _ hm => hm) rfl
    rintro ⟨hr', -⟩
    rw [hr'] at hr
    cases hr
  split
  · exact awake_sendError _ _
  split
  · exact awake_sendError _ _
  split
  · split
    · exact awake_expireStart rfl (by decide)
    · exact awake_connectBackend
  split
  · rename_i hstream
    have hawake : Awake s := h.resolve_right fun h => by
      rw [h.2] at hstream
      cases hstream
    exact (hawake.mono (t := { s with pendingAcquire := false, permit := true }) id rfl
      (fun _ hm => hm) rfl).startBackend _
  · exact awake_connectBackend

theorem Awake.onConnectTimeout (h : Awake s) : Awake (onConnectTimeout s io) := by
  unfold Proxy.onConnectTimeout
  split
  · exact h
  · exact awake_fail _

theorem awake_onResolved (h : Awake s ∨ s.closing = false ∧ s.connecting = true) :
    Awake (onResolved s io) := by
  unfold onResolved
  split
  · rename_i hguard
    refine h.resolve_right ?_
    rintro ⟨hclosing, hconn⟩
    rw [hconn, (open_of_closing hclosing).2.2] at hguard
    cases hguard
  split
  · exact awake_fail _
  · exact Going.expireStart (h.imp_right And.left) (by decide)

theorem awake_onConnect (h : Awake s ∨ s.closing = false ∧ s.connecting = true) :
    Awake (onConnect c s io) := by
  have hgoing : Going (finishBackendOperation s) := Going.finishBackend (h.imp_right And.left)
  have h : Awake (finishBackendOperation s) ∨ (finishBackendOperation s).closing = false ∧
      (finishBackendOperation s).connecting = true := h.imp Awake.finishBackend fun h => by simpa using h
  simp only [onConnect]
  generalize finishBackendOperation s = t at h hgoing
  split
  · exact hgoing.guarded (by assumption)
  split
  · rename_i hguard
    refine h.resolve_right ?_
    rintro ⟨hclosing, hconn⟩
    rw [hconn, (open_of_closing hclosing).2.2] at hguard
    cases hguard
  split
  · exact awake_fail _
  split
  · exact hgoing.expireStart (by decide)
  · exact Going.expireStart (hgoing.set rfl rfl rfl rfl) (by decide)

theorem awake_onTlsHandshake (h : Awake s ∨ s.closing = false ∧ s.connecting = true) :
    Awake (onTlsHandshake s io) := by
  have hgoing : Going (finishBackendOperation s) := Going.finishBackend (h.imp_right And.left)
  have h : Awake (finishBackendOperation s) ∨ (finishBackendOperation s).closing = false ∧
      (finishBackendOperation s).connecting = true := h.imp Awake.finishBackend fun h => by simpa using h
  simp only [onTlsHandshake]
  generalize finishBackendOperation s = t at h hgoing
  split
  · exact hgoing.guarded (by assumption)
  split
  · rename_i hguard
    refine h.resolve_right ?_
    rintro ⟨hclosing, hconn⟩
    rw [hconn, (open_of_closing hclosing).2.2] at hguard
    cases hguard
  split
  · exact awake_fail _
  · exact Going.expireStart (hgoing.set rfl rfl rfl rfl) (by decide)

theorem awake_onRequestHeaderWritten
    (h : Awake s ∨ s.closing = false ∧ s.responseHeaderStarted = false) :
    Awake (onRequestHeaderWritten c s io) := by
  have hgoing : Going (finishBackendOperation s) := Going.finishBackend (h.imp_right And.left)
  have h : Awake (finishBackendOperation s) ∨ (finishBackendOperation s).closing = false ∧
      (finishBackendOperation s).responseHeaderStarted = false :=
    h.imp Awake.finishBackend fun h => by simpa using h
  simp only [onRequestHeaderWritten]
  generalize finishBackendOperation s = t at h hgoing
  split
  · exact hgoing.guarded (by assumption)
  split
  · split
    · exact awake_connectBackend
    · exact awake_fail _
  split
  · exact Going.expireStart (hgoing.set rfl rfl rfl rfl) (by decide)
  have hset : ∀ {u : State}, u.completed = t.completed → u.deferredFinish = t.deferredFinish →
      u.inFlight = t.inFlight → u.backendCloseRequested = t.backendCloseRequested →
      u.responseHeaderStarted = t.responseHeaderStarted →
      Awake u ∨ u.closing = false ∧ u.responseHeaderStarted = false := by
    intro u hr hd hf hclose hstarted
    rcases h with h | ⟨hclosing, hnot⟩
    · exact .inl (h.mono (fun hc => hr.trans hc) hd (fun op hm => by rw [hf]; exact hm) hclose)
    · refine .inr ⟨?_, hstarted.trans hnot⟩
      rw [← hclosing, State.closing, State.closing, hd, hclose, hr]
  split
  · split
    · exact Going.startClient (hgoing.set rfl rfl rfl rfl) (by decide)
    · refine (awake_readResponseHeader ?_).readRequestBodyChunk
      exact hset rfl rfl rfl rfl rfl
  · refine awake_readResponseHeader ?_
    exact hset rfl rfl rfl rfl rfl

theorem awake_onContinueWritten
    (h : Awake s ∨ s.closing = false ∧ s.responseHeaderStarted = false) :
    Awake (onContinueWritten s io) := by
  have hgoing : Going (finishClientOperation s) := Going.finishClient (h.imp_right And.left)
  have h : Awake (finishClientOperation s) ∨ (finishClientOperation s).closing = false ∧
      (finishClientOperation s).responseHeaderStarted = false := h.imp Awake.finishClient id
  simp only [onContinueWritten]
  generalize finishClientOperation s = t at h hgoing
  split
  · exact hgoing.finishing (by assumption)
  split
  · exact awake_fail _
  · exact (awake_readResponseHeader h).readRequestBodyChunk

theorem awake_onResponseHeader (h : Going s) : Awake (onResponseHeader s io) := by
  have h := h.finishBackend
  simp only [onResponseHeader]
  generalize finishBackendOperation s = t at h
  split
  · rename_i hguard
    refine h.guarded ?_
    simp only [State.closing, Bool.or_assoc, hguard, Bool.or_true]
  split
  · exact awake_fail _
  split
  · refine awake_readResponseHeader ?_
    exact (h.set (t := { t with responseHeaderStarted := false }) rfl rfl rfl rfl).imp_right
      fun hclosing => ⟨hclosing, rfl⟩
  split
  · exact awake_sendError _ _
  split
  · exact awake_sendError _ _
  · exact Going.startClient (h.set rfl rfl rfl rfl) (by decide)

theorem Awake.onRequestBodyRead (h : Awake s) : Awake (onRequestBodyRead c s io) := by
  have h := h.finishClient
  simp only [Proxy.onRequestBodyRead]
  generalize finishClientOperation s = t at h
  split
  · exact h.maybeFinish
  split
  · exact h
  have hset : Awake { t with requestBodyDone := io.clientDone } :=
    h.mono id rfl (fun _ hm => hm) rfl
  split
  · exact awake_sendError _ _
  · exact awake_sendError _ _
  · exact awake_sendError _ _
  all_goals
    split
    · split
      · exact hset.finishRequestBody
      · exact hset.readRequestBodyChunk
    · exact hset.startBackend _

theorem Awake.onRequestBodyWritten (h : Awake s) : Awake (onRequestBodyWritten c s io) := by
  have h := h.finishBackend
  simp only [Proxy.onRequestBodyWritten]
  generalize finishBackendOperation s = t at h
  split
  · exact h.maybeFinish
  split
  · exact h
  split
  · exact awake_fail _
  split
  · exact h.finishRequestBody
  · exact h.readRequestBodyChunk

theorem Awake.onRequestBodyFinished (h : Awake s) : Awake (onRequestBodyFinished s io) := by
  have h := h.finishBackend
  simp only [Proxy.onRequestBodyFinished]
  generalize finishBackendOperation s = t at h
  split
  · exact h.maybeFinish
  split
  · exact h
  split
  · exact awake_fail _
  · exact h.mono id rfl (fun _ hm => hm) rfl

theorem awake_readBodyChunk (h : Going s) : Awake (readBodyChunk s) :=
  Going.expireStart (h.set rfl rfl rfl rfl) (by decide)

theorem awake_onHeaderWritten (h : Going s) : Awake (onHeaderWritten c s io) := by
  have h := h.finishClient
  simp only [onHeaderWritten]
  generalize finishClientOperation s = t at h
  split
  · exact h.finishing (by assumption)
  split
  · exact awake_failAfterHeader
  split
  · split
    · exact awake_finishNormal
    · exact h.startClient (by decide)
  · exact awake_readBodyChunk h

theorem awake_onBodyRead (h : Going s) : Awake (onBodyRead s io) := by
  have h := h.finishBackend
  simp only [onBodyRead]
  generalize finishBackendOperation s = t at h
  split
  · rename_i hguard
    refine h.guarded ?_
    simp only [State.closing, Bool.or_assoc, hguard, Bool.or_true]
  split
  · exact awake_failAfterHeader
  · exact Going.startClient (h.set rfl rfl rfl rfl) (by decide)

theorem awake_onBodyWritten (h : Going s) : Awake (onBodyWritten c s io) := by
  have h := h.finishClient
  simp only [onBodyWritten]
  generalize finishClientOperation s = t at h
  split
  · exact h.finishing (by assumption)
  split
  · split
    · exact awake_finishNormal
    · exact awake_readBodyChunk h
  split
  · exact awake_failAfterHeader
  split
  · exact awake_finishNormal
  · exact h.startClient (by decide)

theorem awake_onUpgradeResponse (h : Going s) : Awake (onUpgradeResponse s io) := by
  have h := h.finishBackend
  simp only [onUpgradeResponse]
  generalize finishBackendOperation s = t at h
  split
  · exact h.guarded (by assumption)
  split
  · exact awake_fail _
  split
  · exact awake_sendError _ _
  split
  · exact awake_sendError _ _
  · obtain ⟨f, hf, -⟩ := withBackend_eq { t with status := 101 }
    rw [hf]
    exact Going.startClient (h.set rfl rfl rfl rfl) (by decide)

theorem awake_startTunnel (h : Going s) : Awake (startTunnel s) :=
  Going.startBackend (.inl (h.startClient (by decide))) (by decide)

theorem awake_flushBackendBuffer (h : Going s) : Awake (flushBackendBuffer s io) := by
  unfold flushBackendBuffer
  split
  · exact awake_startTunnel h
  · exact h.startClient (by decide)

theorem awake_onUpgradeWritten (h : Going s) : Awake (onUpgradeWritten s io) := by
  have h := h.finishClient
  simp only [onUpgradeWritten]
  generalize finishClientOperation s = t at h
  split
  · exact h.finishing (by assumption)
  split
  · exact awake_fail _
  unfold flushClientBuffer
  split
  · exact awake_flushBackendBuffer h
  · exact h.startBackend (by decide)

theorem awake_onClientBufferFlushed (h : Going s) : Awake (onClientBufferFlushed s io) := by
  have h := h.finishBackend
  simp only [onClientBufferFlushed]
  generalize finishBackendOperation s = t at h
  split
  · exact h.guarded (by assumption)
  split
  · exact awake_fail _
  · exact awake_flushBackendBuffer h

theorem awake_onBackendBufferFlushed (h : Going s) : Awake (onBackendBufferFlushed s io) := by
  have h := h.finishClient
  simp only [onBackendBufferFlushed]
  generalize finishClientOperation s = t at h
  split
  · exact h.finishing (by assumption)
  split
  · exact awake_fail _
  · exact awake_startTunnel h

theorem Awake.onClientTunnelRead (h : Awake s) : Awake (onClientTunnelRead s io) := by
  have h := h.finishClient
  simp only [Proxy.onClientTunnelRead]
  generalize finishClientOperation s = t at h
  split
  · exact h.maybeFinish
  split
  · exact awake_finishTunnel
  · exact Going.startBackend (.inl h) (by decide)

theorem Awake.onBackendTunnelWritten (h : Awake s) : Awake (onBackendTunnelWritten s io) := by
  have h := h.finishBackend
  simp only [Proxy.onBackendTunnelWritten]
  generalize finishBackendOperation s = t at h
  split
  · exact h.maybeFinish
  split
  · exact awake_finishTunnel
  · exact Going.startClient (Going.set (.inl h) rfl rfl rfl rfl) (by decide)

theorem Awake.onBackendTunnelRead (h : Awake s) : Awake (onBackendTunnelRead s io) := by
  have h := h.finishBackend
  simp only [Proxy.onBackendTunnelRead]
  generalize finishBackendOperation s = t at h
  split
  · exact h.maybeFinish
  split
  · exact awake_finishTunnel
  · exact Going.startClient (.inl h) (by decide)

theorem Awake.onClientTunnelWritten (h : Awake s) : Awake (onClientTunnelWritten s io) := by
  have h := h.finishClient
  simp only [Proxy.onClientTunnelWritten]
  generalize finishClientOperation s = t at h
  split
  · exact h.maybeFinish
  split
  · exact awake_finishTunnel
  · exact Going.startBackend (Going.set (.inl h) rfl rfl rfl rfl) (by decide)

theorem awake_onErrorWritten : Awake (onErrorWritten s io) := by
  simp only [onErrorWritten]
  generalize finishClientOperation s = t
  split
  · rename_i hfinishing
    exact awake_of_finishing (finishing_maybeFinish hfinishing)
  · exact awake_quiesced _ _ _

/-- Where another operation is left in flight, any handler may do nothing. -/
theorem Awake.handle (h : Awake s) (op : Op) : Awake (handle c s io op) := by
  cases op with
  | startOnExecutor => exact awake_startOnExecutor (.inl h)
  | onBackendPermit => exact awake_onBackendPermit (.inl h)
  | onConnectTimeout => exact h.onConnectTimeout
  | onResolved => exact awake_onResolved (.inl h)
  | onConnect => exact awake_onConnect (.inl h)
  | onTlsHandshake => exact awake_onTlsHandshake (.inl h)
  | onRequestHeaderWritten => exact awake_onRequestHeaderWritten (.inl h)
  | onContinueWritten => exact awake_onContinueWritten (.inl h)
  | onRequestBodyRead => exact h.onRequestBodyRead
  | onRequestBodyWritten => exact h.onRequestBodyWritten
  | onRequestBodyFinished => exact h.onRequestBodyFinished
  | onResponseHeader => exact awake_onResponseHeader (.inl h)
  | onHeaderWritten => exact awake_onHeaderWritten (.inl h)
  | onBodyRead => exact awake_onBodyRead (.inl h)
  | onBodyWritten => exact awake_onBodyWritten (.inl h)
  | onUpgradeResponse => exact awake_onUpgradeResponse (.inl h)
  | onUpgradeWritten => exact awake_onUpgradeWritten (.inl h)
  | onClientBufferFlushed => exact awake_onClientBufferFlushed (.inl h)
  | onBackendBufferFlushed => exact awake_onBackendBufferFlushed (.inl h)
  | onClientTunnelRead => exact h.onClientTunnelRead
  | onBackendTunnelWritten => exact h.onBackendTunnelWritten
  | onBackendTunnelRead => exact h.onBackendTunnelRead
  | onClientTunnelWritten => exact h.onClientTunnelWritten
  | onErrorWritten => exact awake_onErrorWritten

end Handlers

/-! ## The last operation -/

theorem shape_of_timers {ops : List Op} (h : ∀ op ∈ ops, op.line = .timer) : shapeOf ops = {} := by
  induction ops with
  | nil => rfl
  | cons op ops ih =>
    have hop := h op (List.mem_cons_self ..)
    have hops := ih fun op' hm => h op' (List.mem_cons_of_mem _ hm)
    rw [shapeOf, hop, hops]
    rfl

section Step

variable {c : Config} {s s' : State} {io : Io} {op : Op}

/-- Nothing but the timer is left when the last operation completes: its mode lets it go on. -/
theorem awake_last (hmode : Mode s) (hend : ¬ Ending s) (hopen : s.backendCloseRequested = false)
    (hm : op ∈ s.inFlight) (hline : op.line ≠ .timer)
    (hlast : ∀ op' ∈ s.inFlight.erase op, op'.line = .timer) :
    Awake (handle c (s.taken op) io op) := by
  have hshape : (shapeOf s.inFlight).modify (· - 1) op.line = {} :=
    (shapeOf_erase hm).symm.trans (shape_of_timers hlast)
  have hclosing : Live s → (s.taken op).closing = false := fun h => h.closing
  have hfinishing : s.finishing = false := by
    by_contra hf
    exact hend (.inl (eq_true_of_ne_false hf))
  cases hmode with
  | acquiring hc hs hu hstream hconn hd hr hn =>
    have hop : op.line = .acquire := by
      cases hl : op.line <;> simp [hs, hl, Shape.modify] at hshape ⊢
    cases op with
    | startOnExecutor => exact awake_startOnExecutor (.inr hopen)
    | onBackendPermit => exact awake_onBackendPermit (.inr ⟨hr, hstream⟩)
    | _ => cases hop
  | connecting h hs hu hconn =>
    have hop : op.line = .connect := by
      cases hl : op.line <;> simp [hs, hl, Shape.modify] at hshape ⊢
    cases op with
    | onResolved => exact awake_onResolved (.inr ⟨hclosing h, hconn⟩)
    | onConnect => exact awake_onConnect (.inr ⟨hclosing h, hconn⟩)
    | onTlsHandshake => exact awake_onTlsHandshake (.inr ⟨hclosing h, hconn⟩)
    | _ => cases hop
  | setup h hs hu hconn =>
    have hop : op.line = .setup := by
      cases hl : op.line <;> simp [hs, hl, Shape.modify] at hshape ⊢
    cases op with
    | onRequestHeaderWritten => exact awake_onRequestHeaderWritten (.inr ⟨hclosing h, hu.started⟩)
    | onContinueWritten => exact awake_onContinueWritten (.inr ⟨hclosing h, hu.started⟩)
    | onUpgradeResponse => exact awake_onUpgradeResponse (.inr (hclosing h))
    | _ => cases hop
  | awaiting u h hs hconn hu hstop hup hh =>
    have hop : op.line = .header := by
      cases hl : op.line <;> simp [hs, hl, Shape.modify] at hshape ⊢
    cases op with
    | onResponseHeader => exact awake_onResponseHeader (.inr (hclosing h))
    | _ => cases hop
  | relaying u h hs hconn hstop hup =>
    have hop : op.line = .relay := by
      cases hl : op.line <;> simp [hs, hl, Shape.modify] at hshape ⊢
    cases op with
    | onHeaderWritten => exact awake_onHeaderWritten (.inr (hclosing h))
    | onBodyRead => exact awake_onBodyRead (.inr (hclosing h))
    | onBodyWritten => exact awake_onBodyWritten (.inr (hclosing h))
    | _ => cases hop
  | switching h hs hconn =>
    have hop : op.line = .switching := by
      cases hl : op.line <;> simp [hs, hl, Shape.modify] at hshape ⊢
    cases op with
    | onUpgradeWritten => exact awake_onUpgradeWritten (.inr (hclosing h))
    | onClientBufferFlushed => exact awake_onClientBufferFlushed (.inr (hclosing h))
    | onBackendBufferFlushed => exact awake_onBackendBufferFlushed (.inr (hclosing h))
    | _ => cases hop
  | tunnelling h hs hconn =>
    exfalso
    cases hl : op.line <;> simp [hs, hl, Shape.modify] at hshape
  | failing a b u n h hs hclosed hd =>
    obtain ⟨rfl, rfl, rfl⟩ := hclosed.resolve_left fun h => by
      rw [h.requested] at hopen
      cases hopen
    have hpos := get_pos_of_mem hm
    have hop : op.line = .error := by
      cases hl : op.line <;> simp [hs, hl, Shape.get] at hpos ⊢
      exact hline hl
    cases op with
    | onErrorWritten => exact absurd (.inr hm) hend
    | _ => cases hop
  | draining d h hd =>
    simp [State.finishing, hd] at hfinishing
  | done r hc hcl hb hr =>
    simp [State.finishing, hr] at hfinishing

theorem awake_complete (hmode : Mode s) (h : Awake s) (hm : op ∈ s.inFlight) :
    Awake (handle c (s.taken op) io op) := by
  by_cases hother : Awake (s.taken op)
  · exact hother.handle op
  by_cases hop : op = .onErrorWritten
  · subst hop
    exact awake_onErrorWritten
  have hend : ¬ Ending s := by
    rintro (hf | herror)
    · exact hother (.inl (.inl hf))
    · exact hother (.inl (.inr ((List.mem_erase_of_ne (Ne.symm hop)).mpr herror)))
  obtain ⟨hopen, next, hnext, hnextLine⟩ := h.resolve_left hend
  refine awake_last hmode hend hopen hm ?_ ?_
  · intro hline
    have hne : next ≠ op := by
      rintro rfl
      exact hnextLine hline
    exact hother (.inr ⟨hopen, next, (List.mem_erase_of_ne hne).mpr hnext, hnextLine⟩)
  · intro op' hm'
    by_contra hline
    exact hother (.inr ⟨hopen, op', hm', hline⟩)

/-- What every transaction is, between two handlers. -/
structure Lively (s : State) : Prop where
  mode : Mode s
  awake : Awake s

theorem lively_init (c : Config) : Lively (State.init c) :=
  ⟨mode_init c, .inr ⟨rfl, .startOnExecutor, List.mem_cons_self .., by decide⟩⟩

theorem lively_cancel (h : Lively s) : Lively (cancelOnExecutor s) :=
  ⟨(next_cancel (c := {}) h.mode).mode, awake_of_finishing finishing_cancel⟩

theorem lively_step {e : Event} (h : Lively s) (hs : step c s e = some s') : Lively s' := by
  cases e with
  | cancel =>
    cases hs
    exact lively_cancel h
  | complete op io =>
    obtain ⟨hm, rfl⟩ := step_complete hs
    have hawake : Awake (s.observe op io) := h.awake.mono id rfl (fun _ hm => hm) rfl
    refine ⟨(next_step h.mode hs).mode, ?_⟩
    exact awake_complete (h.mode.observe op io) hawake hm

/-- Until it has completed, a deferred finish waits for the client or the backend. -/
theorem Mode.drains (h : Mode s) (hd : s.deferredFinish.isSome = true) (hr : s.completed = false) :
    Stoppable s ∧ (s.clientOperationsPending ≠ 0 ∨ s.backendOperationsPending ≠ 0) ∧
      (s.backendCloseRequested = true ∨ s.backendOperationsPending = 0) := by
  cases h with
  | acquiring hc hs hu hstream hconn hd' => simp [hd'] at hd
  | connecting h => simp [h.deferred] at hd
  | setup h => simp [h.deferred] at hd
  | awaiting u h => simp [h.deferred] at hd
  | relaying u h => simp [h.deferred] at hd
  | switching h => simp [h.deferred] at hd
  | tunnelling h => simp [h.deferred] at hd
  | failing a b u n h hs hclosed hd' => simp [hd'] at hd
  | draining d h hd' hp hclosed => exact ⟨h, hp, hclosed⟩
  | done r hc hcl hb hr' => rw [hr] at hr'; cases hr'

theorem exists_of_counted {side : Side} (hside : side ≠ .uncounted)
    (hcount : sideCount side s.inFlight ≠ 0) : ∃ op ∈ s.inFlight, op.line ≠ .timer := by
  obtain ⟨op, hm, hop⟩ := List.countP_pos_iff.mp (Nat.pos_of_ne_zero hcount)
  simp only [decide_eq_true_eq] at hop
  refine ⟨op, hm, ?_⟩
  intro hline
  cases op <;> first | (cases hline; done) | exact hside hop.symm

theorem Lively.busy (h : Lively s) (hr : s.completed = false) : ∃ op ∈ s.inFlight, op.line ≠ .timer := by
  rcases h.awake with (hf | herror) | ⟨-, hbusy⟩
  · simp only [State.finishing, hr, Bool.or_false] at hf
    obtain ⟨hstop, hp, -⟩ := h.mode.drains hf hr
    rw [hstop.counted.client, hstop.counted.backend] at hp
    exact hp.elim (exists_of_counted (by decide)) (exists_of_counted (by decide))
  · exact ⟨.onErrorWritten, herror, by decide⟩
  · exact hbusy

end Step

/-! ## Runs -/

section Runs

variable {c : Config} {s s' : State} {es es' : List Event}

theorem lively_run (h : run (step c) (State.init c) es = some s) : Lively s :=
  run_inv (fun _ _ _ h hs => lively_step h hs) (lively_init c) h

/-- However the operations of a transaction end, and whenever it is cancelled: as long as it has not
completed, an operation is in flight beside the timer of the connection, so that its completion is
still to come. -/
theorem never_stuck (h : run (step c) (State.init c) es = some s) (hr : s.completed = false) :
    ∃ op ∈ s.inFlight, op ≠ .onConnectTimeout := by
  obtain ⟨op, hm, hline⟩ := (lively_run h).busy hr
  refine ⟨op, hm, ?_⟩
  rintro rfl
  exact hline rfl

theorem never_stuck_timedOutPost :
    ∃ s, run (step {}) (State.init {}) (timedOutPost.take 7) = some s ∧
      ∃ op ∈ s.inFlight, op ≠ .onConnectTimeout := by
  have hrun : (run (step {}) (State.init {}) (timedOutPost.take 7)).map (·.completed) = some false := by
    decide
  obtain ⟨s, hs, hr⟩ := Option.map_eq_some_iff.mp hrun
  exact ⟨s, hs, never_stuck hs hr⟩

/-- While a finish is deferred, no handler starts anything. -/
theorem finishing_complete {op : Op} {io : Io} (h : Stoppable s)
    (hclosed : s.backendCloseRequested = true ∨ s.backendOperationsPending = 0)
    (hd : s.deferredFinish.isSome = true) (hm : op ∈ s.inFlight) :
    (handle c (s.taken op) io op).finishing = true ∧
      (handle c (s.taken op) io op).inFlight = s.inFlight.erase op := by
  have hf : (s.taken op).finishing = true := by simp [State.finishing, State.taken, hd]
  have hpos := get_pos_of_mem hm
  cases hside : op.side with
  | client =>
    rw [(handle_draining hd (.inr hside)).1 hside]
    exact ⟨finishing_maybeFinish hf, (does_maybeFinishDeferred _).inFlight⟩
  | backend =>
    have hcl : s.backendCloseRequested = true := by
      refine hclosed.resolve_right ?_
      have hcount := sideCount_pos hm
      rw [hside, ← h.counted.backend] at hcount
      omega
    have hdoes := (does_finishBackendOperation (s.taken op)).then (does_maybeFinishDeferred _)
    rw [(handle_draining hd (.inl hcl)).2 hside]
    refine ⟨finishing_maybeFinish ?_, hdoes.inFlight⟩
    obtain ⟨b, hb, -⟩ := finishBackendOperation_eq (s.taken op)
    rw [hb]
    exact hf
  | uncounted =>
    cases op with
    | startOnExecutor => simp [Op.line, Shape.get, h.acquire] at hpos
    | onBackendPermit => simp [Op.line, Shape.get, h.acquire] at hpos
    | onConnectTimeout =>
      rw [handle, onConnectTimeout, if_pos (by simp [State.taken, h.connecting])]
      exact ⟨hf, rfl⟩
    | onResolved =>
      rw [handle, onResolved, if_pos (by simp [State.taken, h.connecting])]
      exact ⟨hf, rfl⟩
    | _ => cases hside

theorem finishing_step {e : Event} (hmode : Mode s) (hf : s.finishing = true)
    (hs : step c s e = some s') :
    s'.completed = true ∨ s'.finishing = true ∧
      s'.inFlight.length + (if e ≠ .cancel then 1 else 0) = s.inFlight.length := by
  cases e with
  | cancel =>
    cases hs
    refine .inr ⟨finishing_cancel, ?_⟩
    rw [(does_cancelOnExecutor s).inFlight]
    rfl
  | complete op io =>
    cases hr : s.completed with
    | true => exact .inl (completed_step hmode hr hs)
    | false =>
      obtain ⟨hm, rfl⟩ := step_complete hs
      have hd : s.deferredFinish.isSome = true := by simpa [State.finishing, hr] using hf
      obtain ⟨hstop, -, hclosed⟩ := (hmode.observe op io).drains hd hr
      obtain ⟨hf', hinFlight⟩ := @finishing_complete c _ op io hstop hclosed hd hm
      refine .inr ⟨hf', ?_⟩
      rw [hinFlight, if_pos (by simp)]
      exact (congrArg (· + 1) (List.length_erase_of_mem hm)).trans
        (Nat.sub_add_cancel (List.length_pos_of_mem hm))

theorem finishing_run (hmode : Mode s) (hf : s.finishing = true) (h : run (step c) s es = some s') :
    s'.completed = true ∨
      s'.inFlight.length + es.countP (· ≠ .cancel) = s.inFlight.length := by
  induction es generalizing s with
  | nil =>
    simp only [run, Option.some.injEq] at h
    subst h
    exact .inr rfl
  | cons e es ih =>
    obtain ⟨s₁, hs, hr⟩ := run_cons h
    have hmode₁ := (next_step hmode hs).mode
    rcases finishing_step hmode hf hs with hdone | ⟨hf₁, hlength⟩
    · exact .inl (run_inv (P := fun s => Mode s ∧ s.completed = true)
        (fun _ _ _ h hs => ⟨(next_step h.1 hs).mode, completed_step h.1 h.2 hs⟩) ⟨hmode₁, hdone⟩ hr).2
    · refine (ih hmode₁ hf₁ hr).imp_right ?_
      intro hrest
      rw [List.countP_cons, ← hlength, ← hrest]
      simp only [decide_eq_true_eq]
      omega

/-- After `cancel`, whenever it comes, no operation is started as long as the transaction has not
completed: each completion has left one fewer in flight. It has completed when those are over that were
in flight at the `cancel`, if not before. -/
theorem cancel_ends (h : run (step c) (State.init c) es = some s)
    (h' : run (step c) s (.cancel :: es') = some s') :
    s'.completed = true ∨
      s'.inFlight ≠ [] ∧ s'.inFlight.length + es'.countP (· ≠ .cancel) = s.inFlight.length := by
  have hlively := lively_run h
  obtain ⟨s₁, hs, hr⟩ := run_cons h'
  have hlively' : Lively s' := run_inv (fun _ _ _ h hs => lively_step h hs) (lively_step hlively hs) hr
  cases hdone : s'.completed with
  | true => exact .inl rfl
  | false =>
    obtain ⟨op, hm, -⟩ := hlively'.busy hdone
    refine .inr ⟨List.ne_nil_of_mem hm, ?_⟩
    have hmode₁ := (next_step hlively.mode hs).mode
    cases hs
    have hlength : (cancelOnExecutor s).inFlight = s.inFlight := by
      rw [(does_cancelOnExecutor s).inFlight]
      rfl
    have hrest := (finishing_run hmode₁ finishing_cancel hr).resolve_left (by rw [hdone]; simp)
    rw [hrest, hlength]

theorem cancel_ends_cancelledGet :
    ∃ s s', run (step {}) (State.init {}) (cancelledGet.take 7) = some s ∧
      run (step {}) s (.cancel :: cancelledGet.drop 8) = some s' ∧ s.inFlight.length = 2 ∧
      (s'.completed = true ∨ s'.inFlight ≠ [] ∧ s'.inFlight.length + 1 = 2) := by
  have hrun : ((run (step {}) (State.init {}) (cancelledGet.take 7)).bind fun s =>
      (run (step {}) s (.cancel :: cancelledGet.drop 8)).map fun _ => s.inFlight.length) = some 2 := by
    decide
  obtain ⟨s, hs, hrest⟩ := Option.bind_eq_some_iff.mp hrun
  obtain ⟨s', hs', hlength⟩ := Option.map_eq_some_iff.mp hrest
  refine ⟨s, s', hs, hs', hlength, ?_⟩
  rw [← hlength]
  exact cancel_ends hs hs'

end Runs

end Proxy
end WebServer
