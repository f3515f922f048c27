import WebServer.Proxy.Safety

/-!
# WebServer.Proxy.Starts

What the handlers start, in any state: `Starts io op started` is the diagram of the transaction, one
constructor for each way on, and `handle_starts` says that there are no others.

Nothing here depends on the modes. `Narrow` follows from the diagram alone: however a run goes, at
most one operation is in flight on each line, and those up to the request header exclude all others.

* `Does started s t`: from `s` to `t` the operations `started` were started, and what is recorded of
  connections and buffers is as before.
-/

namespace WebServer
namespace Proxy

/-! ## The diagram -/

/-- The handlers of the line answer a failure with an error response. -/
def Line.answers : Line → Bool
  | .timer | .acquire | .connect | .setup | .header | .upload => true
  | _ => false

inductive Starts (io : Io) : Op → List Op → Prop where
  | nothing (op : Op) : Starts io op []
  | error {op : Op} (h : op.line.answers = true) : Starts io op [.onErrorWritten]
  | acquire : Starts io .startOnExecutor [.onBackendPermit]
  | pooled : Starts io .onBackendPermit [.onRequestHeaderWritten]
  | resolve : Starts io .onBackendPermit [.onResolved, .onConnectTimeout]
  | connect : Starts io .onResolved [.onConnect]
  | handshake : Starts io .onConnect [.onTlsHandshake]
  | plain : Starts io .onConnect [.onRequestHeaderWritten]
  | secure : Starts io .onTlsHandshake [.onRequestHeaderWritten]
  | retry (herr : io.error ≠ none) :
      Starts io .onRequestHeaderWritten [.onResolved, .onConnectTimeout]
  | upgrade (herr : io.error = none) : Starts io .onRequestHeaderWritten [.onUpgradeResponse]
  | interim (herr : io.error = none) : Starts io .onRequestHeaderWritten [.onContinueWritten]
  /-- the response header is awaited and the upload begins, unless they are stopped or going on -/
  | exchange {op : Op} {started : List Op} (hop : op = .onRequestHeaderWritten ∨ op = .onContinueWritten)
      (herr : io.error = none) (h : started.Sublist [.onRequestBodyRead, .onResponseHeader]) :
      Starts io op started
  | again : Starts io .onResponseHeader [.onResponseHeader]
  | answer : Starts io .onResponseHeader [.onHeaderWritten]
  | upload {op next : Op} (hop : op.line = .upload) (hnext : next.line = .upload) :
      Starts io op [next]
  | readBody {op : Op} (h : op = .onHeaderWritten ∧ io.responseDone = false ∨
      op = .onBodyWritten ∧ io.error = some .needBuffer) : Starts io op [.onBodyRead]
  | writeBody {op : Op} (h : op.line = .relay) : Starts io op [.onBodyWritten]
  | switch : Starts io .onUpgradeResponse [.onUpgradeWritten]
  /-- an error between the 101 and the tunnel -/
  | broken {op : Op} (hop : op.line = .switching) (herr : io.error ≠ none) :
      Starts io op [.onErrorWritten]
  | flushClient (herr : io.error = none) (h : io.clientBuffer ≠ 0) :
      Starts io .onUpgradeWritten [.onClientBufferFlushed]
  | flushBackend {op : Op} (herr : io.error = none) (h : io.backendBuffer ≠ 0)
      (hop : op = .onUpgradeWritten ∧ io.clientBuffer = 0 ∨ op = .onClientBufferFlushed) :
      Starts io op [.onBackendBufferFlushed]
  | tunnel {op : Op} (herr : io.error = none)
      (hop : op = .onUpgradeWritten ∧ io.clientBuffer = 0 ∧ io.backendBuffer = 0 ∨
        op = .onClientBufferFlushed ∧ io.backendBuffer = 0 ∨ op = .onBackendBufferFlushed) :
      Starts io op [.onBackendTunnelRead, .onClientTunnelRead]
  | writeUp (herr : io.error = none) : Starts io .onClientTunnelRead [.onBackendTunnelWritten]
  | readUp (herr : io.error = none) : Starts io .onBackendTunnelWritten [.onClientTunnelRead]
  | writeDown (herr : io.error = none) : Starts io .onBackendTunnelRead [.onClientTunnelWritten]
  | readDown (herr : io.error = none) : Starts io .onClientTunnelWritten [.onBackendTunnelRead]

/-- The diagram read backwards: the operation whose handler started `next`. -/
def Op.origin (io : Io) (op : Op) : Op → Prop
  | .startOnExecutor => False
  | .onBackendPermit => op = .startOnExecutor
  | .onResolved | .onConnectTimeout =>
    op = .onBackendPermit ∨ op = .onRequestHeaderWritten ∧ io.error ≠ none
  | .onConnect => op = .onResolved
  | .onTlsHandshake => op = .onConnect
  | .onRequestHeaderWritten => op = .onBackendPermit ∨ op = .onConnect ∨ op = .onTlsHandshake
  | .onUpgradeResponse | .onContinueWritten => op = .onRequestHeaderWritten ∧ io.error = none
  | .onRequestBodyRead =>
    op.line = .upload ∨ (op = .onRequestHeaderWritten ∨ op = .onContinueWritten) ∧ io.error = none
  | .onRequestBodyWritten | .onRequestBodyFinished => op.line = .upload
  | .onResponseHeader => op = .onResponseHeader ∨
      (op = .onRequestHeaderWritten ∨ op = .onContinueWritten) ∧ io.error = none
  | .onHeaderWritten => op = .onResponseHeader
  | .onBodyRead => op = .onHeaderWritten ∧ io.responseDone = false ∨
      op = .onBodyWritten ∧ io.error = some .needBuffer
  | .onBodyWritten => op.line = .relay
  | .onUpgradeWritten => op = .onUpgradeResponse
  | .onClientBufferFlushed => op = .onUpgradeWritten ∧ io.error = none ∧ io.clientBuffer ≠ 0
  | .onBackendBufferFlushed => io.error = none ∧ io.backendBuffer ≠ 0 ∧
      (op = .onUpgradeWritten ∧ io.clientBuffer = 0 ∨ op = .onClientBufferFlushed)
  | .onClientTunnelRead => io.error = none ∧
      (op = .onUpgradeWritten ∧ io.clientBuffer = 0 ∧ io.backendBuffer = 0 ∨
        op = .onClientBufferFlushed ∧ io.backendBuffer = 0 ∨ op = .onBackendBufferFlushed ∨
        op = .onBackendTunnelWritten)
  | .onBackendTunnelWritten => op = .onClientTunnelRead ∧ io.error = none
  | .onBackendTunnelRead => io.error = none ∧
      (op = .onUpgradeWritten ∧ io.clientBuffer = 0 ∧ io.backendBuffer = 0 ∨
        op = .onClientBufferFlushed ∧ io.backendBuffer = 0 ∨ op = .onBackendBufferFlushed ∨
        op = .onClientTunnelWritten)
  | .onClientTunnelWritten => op = .onBackendTunnelRead ∧ io.error = none
  | .onErrorWritten => op.line.answers = true ∨ op.line = .switching ∧ io.error ≠ none

theorem Starts.origin {io : Io} {op next : Op} {started : List Op} (h : Starts io op started)
    (hm : next ∈ started) : op.origin io next := by
  cases h with
  | nothing => cases hm
  | error h => cases List.mem_singleton.mp hm; exact .inl h
  | acquire => cases List.mem_singleton.mp hm; rfl
  | pooled => cases List.mem_singleton.mp hm; exact .inl rfl
  | resolve => rcases List.mem_pair.mp hm with rfl | rfl <;> exact .inl rfl
  | connect => cases List.mem_singleton.mp hm; rfl
  | handshake => cases List.mem_singleton.mp hm; rfl
  | plain => cases List.mem_singleton.mp hm; exact .inr (.inl rfl)
  | secure => cases List.mem_singleton.mp hm; exact .inr (.inr rfl)
  | retry herr => rcases List.mem_pair.mp hm with rfl | rfl <;> exact .inr ⟨rfl, herr⟩
  | upgrade herr => cases List.mem_singleton.mp hm; exact ⟨rfl, herr⟩
  | interim herr => cases List.mem_singleton.mp hm; exact ⟨rfl, herr⟩
  | exchange hop herr hsub =>
    rcases List.mem_pair.mp (hsub.subset hm) with rfl | rfl <;> exact .inr ⟨hop, herr⟩
  | again => cases List.mem_singleton.mp hm; exact .inl rfl
  | answer => cases List.mem_singleton.mp hm; rfl
  | upload hop hnext =>
    rw [← List.mem_singleton.mp hm] at hnext
    cases next <;> first | (cases hnext; done) | exact .inl hop | exact hop
  | readBody h => cases List.mem_singleton.mp hm; exact h
  | writeBody h => cases List.mem_singleton.mp hm; exact h
  | switch => cases List.mem_singleton.mp hm; rfl
  | broken hop herr => cases List.mem_singleton.mp hm; exact .inr ⟨hop, herr⟩
  | flushClient herr h => cases List.mem_singleton.mp hm; exact ⟨rfl, herr, h⟩
  | flushBackend herr h hop => cases List.mem_singleton.mp hm; exact ⟨herr, h, hop⟩
  | tunnel herr hop =>
    rcases List.mem_pair.mp hm with rfl | rfl
    · exact ⟨herr, hop.imp_right (Or.imp_right Or.inl)⟩
    · exact ⟨herr, hop.imp_right (Or.imp_right Or.inl)⟩
  | writeUp herr => cases List.mem_singleton.mp hm; exact ⟨rfl, herr⟩
  | readUp herr => cases List.mem_singleton.mp hm; exact ⟨herr, .inr (.inr (.inr rfl))⟩
  | writeDown herr => cases List.mem_singleton.mp hm; exact ⟨rfl, herr⟩
  | readDown herr => cases List.mem_singleton.mp hm; exact ⟨herr, .inr (.inr (.inr rfl))⟩

/-! ## What the small operations start -/

structure Does (started : List Op) (s t : State) : Prop where
  inFlight : t.inFlight = started ++ s.inFlight
  connections : t.connections = s.connections
  bodyReads : t.bodyReads = s.bodyReads
  fromPool : t.backendFromPool = s.backendFromPool
  engaged : t.responseTransferBuffer = s.responseTransferBuffer
  data : t.responseData = s.responseData
  more : t.responseMore = s.responseMore
  early : t.earlyBackendResponse = s.earlyBackendResponse

section Small

variable {s t u : State} {started : List Op}

theorem Does.refl (s : State) : Does [] s s := ⟨rfl, rfl, rfl, rfl, rfl, rfl, rfl, rfl⟩

theorem Does.trans {first : List Op} (h : Does first s t) (h' : Does started t u) :
    Does (started ++ first) s u :=
  ⟨by rw [h'.inFlight, h.inFlight, List.append_assoc], h'.connections.trans h.connections,
    h'.bodyReads.trans h.bodyReads, h'.fromPool.trans h.fromPool, h'.engaged.trans h.engaged,
    h'.data.trans h.data, h'.more.trans h.more, h'.early.trans h.early⟩

theorem Does.then (h : Does [] s t) (h' : Does started t u) : Does started s u := by
  simpa using h.trans h'

variable (s)

theorem does_withBackend : Does [] s (withBackend s) := by
  obtain ⟨f, hf, -⟩ := withBackend_eq s
  rw [hf]
  exact ⟨rfl, rfl, rfl, rfl, rfl, rfl, rfl, rfl⟩

theorem does_maybeReleaseClosedBackend : Does [] s (maybeReleaseClosedBackend s) := by
  obtain ⟨b, hb, -⟩ := maybeReleaseClosedBackend_eq s
  rw [hb]
  exact ⟨rfl, rfl, rfl, rfl, rfl, rfl, rfl, rfl⟩

theorem does_finishBackendOperation : Does [] s (finishBackendOperation s) := by
  obtain ⟨b, hb, -⟩ := finishBackendOperation_eq s
  rw [hb]
  exact ⟨rfl, rfl, rfl, rfl, rfl, rfl, rfl, rfl⟩

theorem does_finishClientOperation : Does [] s (finishClientOperation s) :=
  ⟨rfl, rfl, rfl, rfl, rfl, rfl, rfl, rfl⟩

theorem does_closeBackend : Does [] s (closeBackend s) := by
  obtain ⟨b, c, h, -⟩ := closeBackend_eq s
  rw [h]
  exact ⟨rfl, rfl, rfl, rfl, rfl, rfl, rfl, rfl⟩

theorem does_startBackendOperation (op : Op) : Does [op] s (startBackendOperation s op) := by
  obtain ⟨f, hf, -⟩ := startBackendOperation_eq s op
  rw [hf]
  exact ⟨rfl, rfl, rfl, rfl, rfl, rfl, rfl, rfl⟩

theorem does_expireStart (op : Op) :
    Does [op] s (startBackendOperation (expireBackendAfter s) op) :=
  (does_withBackend s).then (does_startBackendOperation _ op)

theorem does_startClientOperation (op : Op) : Does [op] s (startClientOperation s op) :=
  ⟨rfl, rfl, rfl, rfl, rfl, rfl, rfl, rfl⟩

theorem does_finish (status bytes : Nat) (keepAlive : Bool) :
    Does [] s (finish s status bytes keepAlive) := by
  unfold finish
  split
  · exact .refl s
  · exact ⟨rfl, rfl, rfl, rfl, rfl, rfl, rfl, rfl⟩

theorem does_maybeFinishDeferred : Does [] s (maybeFinishDeferred s) := by
  unfold maybeFinishDeferred
  split
  · exact .refl s
  · split
    · exact .refl s
    · refine (does_maybeReleaseClosedBackend s).then (.then ?_ (does_finish _ _ _ _))
      exact ⟨rfl, rfl, rfl, rfl, rfl, rfl, rfl, rfl⟩

theorem does_finishWhenIoQuiesced (status bytes : Nat) (keepAlive : Bool) :
    Does [] s (finishWhenIoQuiesced s status bytes keepAlive) := by
  unfold finishWhenIoQuiesced
  split
  · exact .refl s
  · refine .then ?_ (does_maybeFinishDeferred _)
    exact ⟨rfl, rfl, rfl, rfl, rfl, rfl, rfl, rfl⟩

theorem does_closeQuiesce (status bytes : Nat) (keepAlive : Bool) :
    Does [] s (finishWhenIoQuiesced (closeBackend s) status bytes keepAlive) :=
  (does_closeBackend s).then (does_finishWhenIoQuiesced _ _ _ _)

theorem does_sendError (status n : Nat) (io : Io) :
    Does [.onErrorWritten] s (sendError s status n io) := by
  refine (does_closeBackend s).then (.then (t := _) ?_ (does_startClientOperation _ _))
  exact ⟨rfl, rfl, rfl, rfl, rfl, rfl, rfl, rfl⟩

/-- `fail` answers, unless the transaction has completed. -/
theorem does_fail (error : Error) (io : Io) :
    Does [] s (fail s error io) ∨ Does [.onErrorWritten] s (fail s error io) := by
  cases hr : s.completed with
  | true =>
    left
    rw [fail, if_pos hr]
    exact .refl s
  | false =>
    right
    obtain ⟨status, n, he⟩ := fail_eq hr error io
    rw [he]
    refine .then ?_ (does_sendError _ status n io)
    exact ⟨rfl, rfl, rfl, rfl, rfl, rfl, rfl, rfl⟩

theorem does_failAfterHeader : Does [] s (failAfterHeader s) := by
  unfold failAfterHeader
  split
  · exact .refl s
  · exact does_closeQuiesce s _ _ _

theorem does_finishTunnel : Does [] s (finishTunnel s) := by
  unfold finishTunnel
  split
  · exact .refl s
  · exact does_closeQuiesce s _ _ _

theorem does_finishNormal (c : Config) (io : Io) : Does [] s (finishNormal c s io) := by
  simp only [finishNormal]
  split
  · exact does_closeQuiesce s _ _ _
  · split
    · refine .then ?_ (does_finish _ _ _ _)
      exact ⟨rfl, rfl, rfl, rfl, rfl, rfl, rfl, rfl⟩
    · exact (does_closeBackend s).then (does_finish _ _ _ _)

theorem does_cancelOnExecutor : Does [] s (cancelOnExecutor s) := by
  unfold cancelOnExecutor
  split
  · exact .refl s
  · refine .then (t := { s with connecting := false }) ?_ (does_closeQuiesce _ _ _ _)
    exact ⟨rfl, rfl, rfl, rfl, rfl, rfl, rfl, rfl⟩

end Small

/-! ## What the handlers start -/

/-- The handler of `op` takes `s` to `t` along the diagram. -/
def Handled (io : Io) (op : Op) (s t : State) : Prop :=
  ∃ started, Starts io op started ∧ Does started s t

section Handlers

variable {c : Config} {s t u : State} {io : Io} {op : Op}

theorem Does.handled (h : Does [] s t) : Handled io op s t := ⟨[], .nothing op, h⟩

theorem Does.answered (h : Does [.onErrorWritten] s t) (hop : op.line.answers = true) :
    Handled io op s t := ⟨_, .error hop, h⟩

theorem Handled.of_does (h : Does [] s t) (h' : Handled io op t u) : Handled io op s u := by
  obtain ⟨started, hs, hd⟩ := h'
  exact ⟨started, hs, h.then hd⟩

theorem handled_fail (hop : op.line.answers = true) (error : Error) :
    Handled io op s (fail s error io) := by
  rcases does_fail s error io with h | h
  · exact h.handled
  · exact h.answered hop

/-- The failure of a write between the 101 and the tunnel. -/
theorem handled_broken (hop : op.line = .switching) (herr : io.error ≠ none) (error : Error) :
    Handled io op s (fail s error io) := by
  rcases does_fail s error io with h | h
  · exact h.handled
  · exact ⟨_, .broken hop herr, h⟩

theorem handled_startOnExecutor : Handled io .startOnExecutor s (startOnExecutor s) :=
  ⟨_, .acquire, rfl, rfl, rfl, rfl, rfl, rfl, rfl, rfl⟩

theorem handled_onConnectTimeout : Handled io .onConnectTimeout s (onConnectTimeout s io) := by
  unfold onConnectTimeout
  split
  · exact (Does.refl s).handled
  · have hset : Does [] s { s with connecting := false } := ⟨rfl, rfl, rfl, rfl, rfl, rfl, rfl, rfl⟩
    exact .of_does (hset.then (does_closeBackend _)) (handled_fail rfl _)

theorem handled_onResolved : Handled io .onResolved s (onResolved s io) := by
  unfold onResolved
  split
  · exact (Does.refl s).handled
  · split
    · have hset : Does [] s { s with connecting := false } := ⟨rfl, rfl, rfl, rfl, rfl, rfl, rfl, rfl⟩
      exact .of_does hset (handled_fail rfl _)
    · exact ⟨_, .connect, does_expireStart s _⟩

theorem does_writeRequestHeader (s : State) :
    Does [.onRequestHeaderWritten] s (writeRequestHeader s) := does_expireStart s _

theorem handled_onConnect : Handled io .onConnect s (onConnect c s io) := by
  refine .of_does (does_finishBackendOperation s) ?_
  simp only [onConnect]
  generalize finishBackendOperation s = t
  split
  · exact (does_maybeFinishDeferred t).handled
  split
  · exact (Does.refl t).handled
  split
  · exact handled_fail rfl _
  split
  · exact ⟨_, .handshake, does_expireStart t _⟩
  · have hset : Does [] t { t with connecting := false } := ⟨rfl, rfl, rfl, rfl, rfl, rfl, rfl, rfl⟩
    exact ⟨_, .plain, hset.then (does_writeRequestHeader _)⟩

theorem handled_onTlsHandshake : Handled io .onTlsHandshake s (onTlsHandshake s io) := by
  refine .of_does (does_finishBackendOperation s) ?_
  simp only [onTlsHandshake]
  generalize finishBackendOperation s = t
  split
  · exact (does_maybeFinishDeferred t).handled
  split
  · exact (Does.refl t).handled
  have hset : Does [] t { t with connecting := false } := ⟨rfl, rfl, rfl, rfl, rfl, rfl, rfl, rfl⟩
  refine .of_does hset ?_
  split
  · exact handled_fail rfl _
  · exact ⟨_, .secure, does_writeRequestHeader _⟩

/-! ### The exchange -/

theorem does_readResponseHeader (s : State) :
    Does [] s (readResponseHeader s) ∨ Does [.onResponseHeader] s (readResponseHeader s) := by
  unfold readResponseHeader
  split
  · exact .inl (.refl s)
  · refine .inr (.then (t := { s with responseHeaderStarted := true }) ?_ (does_expireStart _ _))
    exact ⟨rfl, rfl, rfl, rfl, rfl, rfl, rfl, rfl⟩

theorem does_readRequestBodyChunk (s : State) :
    Does [] s (readRequestBodyChunk s) ∨ Does [.onRequestBodyRead] s (readRequestBodyChunk s) := by
  unfold readRequestBodyChunk
  split
  · exact .inl (.refl s)
  · exact .inr (does_startClientOperation s _)

theorem handled_exchange (hop : op = .onRequestHeaderWritten ∨ op = .onContinueWritten)
    (herr : io.error = none) : Handled io op s (readRequestBodyChunk (readResponseHeader s)) := by
  have hstarts : ∀ {started : List Op}, started.Sublist [.onRequestBodyRead, .onResponseHeader] →
      Starts io op started := fun hsub => .exchange hop herr hsub
  rcases does_readResponseHeader s with h | h
  · rcases does_readRequestBodyChunk (readResponseHeader s) with h' | h'
    · exact ⟨_, hstarts (by simp), h.trans h'⟩
    · exact ⟨_, hstarts (by simp), h.trans h'⟩
  · rcases does_readRequestBodyChunk (readResponseHeader s) with h' | h'
    · exact ⟨_, hstarts (by simp), h.trans h'⟩
    · exact ⟨_, hstarts (by simp), h.trans h'⟩

theorem handled_onContinueWritten : Handled io .onContinueWritten s (onContinueWritten s io) := by
  refine .of_does (does_finishClientOperation s) ?_
  simp only [onContinueWritten]
  generalize finishClientOperation s = t
  split
  · exact (does_maybeFinishDeferred t).handled
  split
  · exact handled_fail rfl _
  · rename_i herr
    exact handled_exchange (.inr rfl) herr

/-! ### The upload -/

theorem handled_readRequestBodyChunk (hop : op.line = .upload) :
    Handled io op s (readRequestBodyChunk s) := by
  rcases does_readRequestBodyChunk s with h | h
  · exact h.handled
  · exact ⟨[.onRequestBodyRead], .upload hop rfl, h⟩

theorem handled_finishRequestBody (hop : op.line = .upload) :
    Handled io op s (finishRequestBody c s) := by
  unfold finishRequestBody
  split
  · exact (Does.refl s).handled
  split
  · exact Does.handled ⟨rfl, rfl, rfl, rfl, rfl, rfl, rfl, rfl⟩
  · exact ⟨[.onRequestBodyFinished], .upload hop rfl, does_expireStart s _⟩

theorem handled_onRequestBodyRead : Handled io .onRequestBodyRead s (onRequestBodyRead c s io) := by
  refine .of_does (does_finishClientOperation s) ?_
  simp only [onRequestBodyRead]
  generalize finishClientOperation s = t
  split
  · exact (does_maybeFinishDeferred t).handled
  split
  · exact (Does.refl t).handled
  have hset : Does [] t { t with requestBodyDone := io.clientDone } :=
    ⟨rfl, rfl, rfl, rfl, rfl, rfl, rfl, rfl⟩
  have hok : Handled io .onRequestBodyRead t
      (if io.produced = 0 then
        if io.clientDone = true then finishRequestBody c { t with requestBodyDone := io.clientDone }
        else readRequestBodyChunk { t with requestBodyDone := io.clientDone }
      else startBackendOperation (expireBackendAfter { t with requestBodyDone := io.clientDone })
        .onRequestBodyWritten) := by
    refine .of_does hset ?_
    split
    · split
      · exact handled_finishRequestBody rfl
      · exact handled_readRequestBodyChunk rfl
    · exact ⟨[.onRequestBodyWritten], .upload rfl rfl, does_expireStart _ _⟩
  split
  · exact (does_sendError t _ _ io).answered rfl
  · exact (does_sendError t _ _ io).answered rfl
  · exact (does_sendError t _ _ io).answered rfl
  · exact hok
  · exact hok

theorem handled_onRequestBodyWritten :
    Handled io .onRequestBodyWritten s (onRequestBodyWritten c s io) := by
  refine .of_does (does_finishBackendOperation s) ?_
  simp only [onRequestBodyWritten]
  generalize finishBackendOperation s = t
  split
  · exact (does_maybeFinishDeferred t).handled
  split
  · exact (Does.refl t).handled
  split
  · exact handled_fail rfl _
  split
  · exact handled_finishRequestBody rfl
  · exact handled_readRequestBodyChunk rfl

theorem handled_onRequestBodyFinished :
    Handled io .onRequestBodyFinished s (onRequestBodyFinished s io) := by
  refine .of_does (does_finishBackendOperation s) ?_
  simp only [onRequestBodyFinished]
  generalize finishBackendOperation s = t
  split
  · exact (does_maybeFinishDeferred t).handled
  split
  · exact (Does.refl t).handled
  split
  · exact handled_fail rfl _
  · exact Does.handled ⟨rfl, rfl, rfl, rfl, rfl, rfl, rfl, rfl⟩

/-! ### Upgrade and tunnel -/

/-- The 101 is sent on only in a transaction that is not being closed. -/
theorem onUpgradeResponse_cases (s : State) (io : Io) :
    Does [] s (onUpgradeResponse s io) ∨ Does [.onErrorWritten] s (onUpgradeResponse s io) ∨
    s.closing = false ∧ Does [.onUpgradeWritten] s (onUpgradeResponse s io) := by
  obtain ⟨b, hb, -⟩ := finishBackendOperation_eq s
  have hfinish := does_finishBackendOperation s
  simp only [onUpgradeResponse, hb]
  rw [hb] at hfinish
  split
  · exact .inl (hfinish.then (does_maybeFinishDeferred _))
  rename_i hopen
  have hopen : s.closing = false := by simpa [State.closing] using hopen
  split
  · rename_i error _
    rcases does_fail { s with
      backendStream := b, backendOperationsPending := s.backendOperationsPending - 1 } error io with
      h | h
    · exact .inl (hfinish.then h)
    · exact .inr (.inl (hfinish.then h))
  split
  · exact .inr (.inl (hfinish.then (does_sendError _ _ _ io)))
  split
  · exact .inr (.inl (hfinish.then (does_sendError _ _ _ io)))
  · have hset : Does [] s { s with
      backendStream := b, backendOperationsPending := s.backendOperationsPending - 1
      status := 101 } := ⟨rfl, rfl, rfl, rfl, rfl, rfl, rfl, rfl⟩
    refine .inr (.inr ⟨hopen, (hset.then (does_withBackend _)).then ?_⟩)
    exact ⟨rfl, rfl, rfl, rfl, rfl, rfl, rfl, rfl⟩

theorem handled_onUpgradeResponse : Handled io .onUpgradeResponse s (onUpgradeResponse s io) := by
  rcases onUpgradeResponse_cases s io with h | h | ⟨-, h⟩
  · exact h.handled
  · exact h.answered rfl
  · exact ⟨_, .switch, h⟩

theorem does_startTunnel (s : State) :
    Does [.onBackendTunnelRead, .onClientTunnelRead] s (startTunnel s) :=
  (does_startClientOperation s .onClientTunnelRead).trans (does_startBackendOperation _ _)

theorem handled_flushBackendBuffer (herr : io.error = none)
    (hop : op = .onUpgradeWritten ∧ io.clientBuffer = 0 ∨ op = .onClientBufferFlushed) :
    Handled io op s (flushBackendBuffer s io) := by
  unfold flushBackendBuffer
  split
  · rename_i hempty
    refine ⟨_, .tunnel herr ?_, does_startTunnel s⟩
    rcases hop with ⟨hop, hclient⟩ | hop
    · exact .inl ⟨hop, hclient, hempty⟩
    · exact .inr (.inl ⟨hop, hempty⟩)
  · rename_i hleft
    exact ⟨_, .flushBackend herr hleft hop, does_startClientOperation s _⟩

theorem handled_onUpgradeWritten : Handled io .onUpgradeWritten s (onUpgradeWritten s io) := by
  refine .of_does (does_finishClientOperation s) ?_
  simp only [onUpgradeWritten]
  generalize finishClientOperation s = t
  split
  · exact (does_maybeFinishDeferred t).handled
  split
  · rename_i error herr
    exact handled_broken rfl (by simp [herr]) error
  · rename_i herr
    unfold flushClientBuffer
    split
    · rename_i hempty
      exact handled_flushBackendBuffer herr (.inl ⟨rfl, hempty⟩)
    · rename_i hleft
      exact ⟨_, .flushClient herr hleft, does_startBackendOperation t _⟩

theorem handled_onClientBufferFlushed :
    Handled io .onClientBufferFlushed s (onClientBufferFlushed s io) := by
  refine .of_does (does_finishBackendOperation s) ?_
  simp only [onClientBufferFlushed]
  generalize finishBackendOperation s = t
  split
  · exact (does_maybeFinishDeferred t).handled
  split
  · rename_i error herr
    exact handled_broken rfl (by simp [herr]) error
  · rename_i herr
    exact handled_flushBackendBuffer herr (.inr rfl)

theorem handled_onBackendBufferFlushed :
    Handled io .onBackendBufferFlushed s (onBackendBufferFlushed s io) := by
  refine .of_does (does_finishClientOperation s) ?_
  simp only [onBackendBufferFlushed]
  generalize finishClientOperation s = t
  split
  · exact (does_maybeFinishDeferred t).handled
  split
  · rename_i error herr
    exact handled_broken rfl (by simp [herr]) error
  · rename_i herr
    exact ⟨_, .tunnel herr (.inr (.inr rfl)), does_startTunnel t⟩

theorem isSome_eq_false {e : Option Error} (h : ¬ e.isSome = true) : e = none := by simpa using h

theorem handled_onClientTunnelRead : Handled io .onClientTunnelRead s (onClientTunnelRead s io) := by
  refine .of_does (does_finishClientOperation s) ?_
  simp only [onClientTunnelRead]
  generalize finishClientOperation s = t
  split
  · exact (does_maybeFinishDeferred t).handled
  split
  · exact (does_finishTunnel t).handled
  · rename_i herr
    exact ⟨_, .writeUp (isSome_eq_false herr), does_startBackendOperation t _⟩

theorem handled_onBackendTunnelWritten :
    Handled io .onBackendTunnelWritten s (onBackendTunnelWritten s io) := by
  refine .of_does (does_finishBackendOperation s) ?_
  simp only [onBackendTunnelWritten]
  generalize finishBackendOperation s = t
  split
  · exact (does_maybeFinishDeferred t).handled
  split
  · exact (does_finishTunnel t).handled
  · rename_i herr
    exact ⟨_, .readUp (isSome_eq_false herr), rfl, rfl, rfl, rfl, rfl, rfl, rfl, rfl⟩

theorem handled_onBackendTunnelRead :
    Handled io .onBackendTunnelRead s (onBackendTunnelRead s io) := by
  refine .of_does (does_finishBackendOperation s) ?_
  simp only [onBackendTunnelRead]
  generalize finishBackendOperation s = t
  split
  · exact (does_maybeFinishDeferred t).handled
  split
  · exact (does_finishTunnel t).handled
  · rename_i herr
    exact ⟨_, .writeDown (isSome_eq_false herr), does_startClientOperation t _⟩

theorem handled_onClientTunnelWritten :
    Handled io .onClientTunnelWritten s (onClientTunnelWritten s io) := by
  refine .of_does (does_finishClientOperation s) ?_
  simp only [onClientTunnelWritten]
  generalize finishClientOperation s = t
  split
  · exact (does_maybeFinishDeferred t).handled
  split
  · exact (does_finishTunnel t).handled
  · rename_i herr
    have hset : Does [] t { t with responseBytes := t.responseBytes + io.bytes } :=
      ⟨rfl, rfl, rfl, rfl, rfl, rfl, rfl, rfl⟩
    exact ⟨_, .readDown (isSome_eq_false herr), hset.then (does_startBackendOperation _ _)⟩

theorem handled_onErrorWritten : Handled io .onErrorWritten s (onErrorWritten s io) := by
  refine .of_does (does_finishClientOperation s) ?_
  simp only [onErrorWritten]
  generalize finishClientOperation s = t
  split
  · exact (does_maybeFinishDeferred t).handled
  · exact (does_finishWhenIoQuiesced t _ _ _).handled

/-! ### Connections -/

/-- The operations of a new connection, or the answer to a name that TLS does not accept. -/
inductive Connects : List Op → Prop where
  | nothing : Connects []
  | error : Connects [.onErrorWritten]
  | resolve : Connects [.onResolved, .onConnectTimeout]

theorem connectBackend_does (c : Config) (s : State) (io : Io) : ∃ started, Connects started ∧
    Does started ({ s with backendFromPool := false }.connection false) (connectBackend c s io) := by
  simp only [connectBackend]
  split
  · rcases does_fail ({ s with
      backendFromPool := false, backendCloseRequested := false
      backendStream := true }.connection false) .other io with h | h
    · exact ⟨_, .nothing, h.inFlight, h.connections, h.bodyReads, h.fromPool, h.engaged, h.data,
        h.more, h.early⟩
    · exact ⟨_, .error, h.inFlight, h.connections, h.bodyReads, h.fromPool, h.engaged, h.data,
        h.more, h.early⟩
  · exact ⟨_, .resolve, rfl, rfl, rfl, rfl, rfl, rfl, rfl, rfl⟩

/-- `s` with a further connection, taken into use when `pending` operations were left. -/
def State.opened (s : State) (fromPool : Bool) (pending : Nat) : State :=
  { s with
    backendFromPool := fromPool
    connections := ⟨fromPool, pending, 0, false⟩ :: s.connections }

/-- A permit leads to one connection, where there is none. -/
theorem onBackendPermit_cases (c : Config) (s : State) (io : Io) :
    Does [] s (onBackendPermit c s io) ∨ Does [.onErrorWritten] s (onBackendPermit c s io) ∨
    s.completed = false ∧ s.backendStream = true ∧
      Does [.onRequestHeaderWritten] s (onBackendPermit c s io) ∨
    ∃ started fromPool, Starts io .onBackendPermit started ∧
      Does started (s.opened fromPool s.backendOperationsPending) (onBackendPermit c s io) := by
  have hacquired : Does [] s { s with pendingAcquire := false } :=
    ⟨rfl, rfl, rfl, rfl, rfl, rfl, rfl, rfl⟩
  have hpermit : Does [] s { s with pendingAcquire := false, permit := true } :=
    ⟨rfl, rfl, rfl, rfl, rfl, rfl, rfl, rfl⟩
  simp only [onBackendPermit]
  split
  · exact .inl hacquired
  rename_i hrunning
  have hrunning : s.completed = false := by simpa using hrunning
  split
  · exact .inr (.inl (hacquired.then (does_sendError _ _ _ io)))
  split
  · exact .inr (.inl (hpermit.then (does_sendError _ _ _ io)))
  right; right
  split
  · refine .inr ⟨_, true, .pooled, ?_⟩
    refine .then ?_ (does_writeRequestHeader _)
    exact ⟨rfl, rfl, rfl, rfl, rfl, rfl, rfl, rfl⟩
  split
  · rename_i hstream
    exact .inl ⟨hrunning, hstream, hpermit.then (does_writeRequestHeader _)⟩
  · obtain ⟨started, hstarted, h⟩ :=
      connectBackend_does c { s with pendingAcquire := false, permit := true } io
    refine .inr ⟨started, false, ?_, h.inFlight, h.connections, h.bodyReads, h.fromPool,
      h.engaged, h.data, h.more, h.early⟩
    cases hstarted with
    | nothing => exact .nothing _
    | error => exact .error rfl
    | resolve => exact .resolve

/-- Another connection is made only after a failed write to a pooled one that reported no byte. -/
theorem onRequestHeaderWritten_cases (c : Config) (s : State) (io : Io) :
    Does [] s (onRequestHeaderWritten c s io) ∨
    Does [.onErrorWritten] s (onRequestHeaderWritten c s io) ∨
    io.error = none ∧ Handled io .onRequestHeaderWritten { s with backendFromPool := false }
      (onRequestHeaderWritten c s io) ∨
    io.error ≠ none ∧ s.backendFromPool = true ∧ io.bytes = 0 ∧ ∃ started,
      Starts io .onRequestHeaderWritten started ∧
      Does started (s.opened false (s.backendOperationsPending - 1))
        (onRequestHeaderWritten c s io) := by
  obtain ⟨b, hb, -⟩ := finishBackendOperation_eq s
  have hfinish := does_finishBackendOperation s
  simp only [onRequestHeaderWritten, hb]
  rw [hb] at hfinish
  split
  · exact .inl (hfinish.then (does_maybeFinishDeferred _))
  split
  · rename_i error herr
    have herr : io.error ≠ none := by simp [herr]
    split
    · rename_i hretry
      simp only [Bool.and_eq_true, beq_iff_eq] at hretry
      obtain ⟨d, cl, hclose, -⟩ := closeBackend_eq { s with
        backendStream := b, backendOperationsPending := s.backendOperationsPending - 1
        retriedPooledConnection := true }
      rw [hclose]
      obtain ⟨started, hstarted, h⟩ := connectBackend_does c { s with
        backendStream := d, backendOperationsPending := s.backendOperationsPending - 1
        retriedPooledConnection := true, backendCloseRequested := cl } io
      refine .inr (.inr (.inr ⟨herr, hretry.1.1, hretry.2, started, ?_, h.inFlight, h.connections,
        h.bodyReads, h.fromPool, h.engaged, h.data, h.more, h.early⟩))
      cases hstarted with
      | nothing => exact .nothing _
      | error => exact .error rfl
      | resolve => exact .retry herr
    · rcases does_fail { s with
        backendStream := b, backendOperationsPending := s.backendOperationsPending - 1 } error io with
        h | h
      · exact .inl (hfinish.then h)
      · exact .inr (.inl (hfinish.then h))
  · rename_i herr
    refine .inr (.inr (.inl ⟨herr, .of_does (t := { s with
      backendStream := b, backendOperationsPending := s.backendOperationsPending - 1
      backendFromPool := false }) ⟨rfl, rfl, rfl, rfl, rfl, rfl, rfl, rfl⟩ ?_⟩))
    split
    · exact ⟨_, .upgrade herr, does_expireStart _ _⟩
    split
    · split
      · exact ⟨_, .interim herr, does_startClientOperation _ _⟩
      · exact handled_exchange (.inl rfl) herr
    · refine .of_does (t := { s with
        backendStream := b, backendOperationsPending := s.backendOperationsPending - 1
        backendFromPool := false, requestUploadComplete := true })
        ⟨rfl, rfl, rfl, rfl, rfl, rfl, rfl, rfl⟩ ?_
      rcases does_readResponseHeader { s with
        backendStream := b, backendOperationsPending := s.backendOperationsPending - 1
        backendFromPool := false, requestUploadComplete := true } with h | h
      · exact h.handled
      · exact ⟨_, .exchange (.inl rfl) herr (by simp), h⟩

/-! ### The response -/

/-- `s` with a response that is being sent, and a buffer of its own where the upload is not over. -/
def State.answered (s : State) (done : Bool) : State :=
  { s with
    earlyBackendResponse := !s.requestUploadComplete
    responseTransferBuffer := s.responseTransferBuffer || (!s.requestUploadComplete && !done)
    responseData := none
    responseMore := !done }

theorem onResponseHeader_cases (s : State) (io : Io) :
    Does [] s (onResponseHeader s io) ∨ Does [.onResponseHeader] s (onResponseHeader s io) ∨
    (∃ early, Does [.onErrorWritten] { s with earlyBackendResponse := early }
      (onResponseHeader s io)) ∨
    s.backendCloseRequested = false ∧ s.completed = false ∧
      Does [.onHeaderWritten] (s.answered io.responseDone) (onResponseHeader s io) := by
  obtain ⟨b, hb, -⟩ := finishBackendOperation_eq s
  have hfinish := does_finishBackendOperation s
  simp only [onResponseHeader, hb]
  rw [hb] at hfinish
  split
  · exact .inl (hfinish.then (does_maybeFinishDeferred _))
  rename_i hopen
  split
  · rename_i error _
    rcases does_fail { s with
      backendStream := b, backendOperationsPending := s.backendOperationsPending - 1 } error io with
      h | h
    · exact .inl (hfinish.then h)
    · exact .inr (.inr (.inl ⟨s.earlyBackendResponse, hfinish.then h⟩))
  split
  · have hset : Does [] s { s with
      backendStream := b, backendOperationsPending := s.backendOperationsPending - 1
      responseHeaderStarted := false } := ⟨rfl, rfl, rfl, rfl, rfl, rfl, rfl, rfl⟩
    rcases does_readResponseHeader { s with
      backendStream := b, backendOperationsPending := s.backendOperationsPending - 1
      responseHeaderStarted := false } with h | h
    · exact .inl (hset.then h)
    · exact .inr (.inl (hset.then h))
  right; right
  split
  · exact .inl ⟨s.earlyBackendResponse, hfinish.then (does_sendError _ _ _ io)⟩
  split
  · refine .inl ⟨!s.requestUploadComplete, .then ?_ (does_sendError _ _ _ io)⟩
    exact ⟨rfl, rfl, rfl, rfl, rfl, rfl, rfl, rfl⟩
  · simp only [Bool.or_eq_true, not_or, Bool.not_eq_true] at hopen
    exact .inr ⟨hopen.1, hopen.2, rfl, rfl, rfl, rfl, rfl, rfl, rfl, rfl⟩

theorem onHeaderWritten_cases (c : Config) (s : State) (io : Io) :
    Does [] s (onHeaderWritten c s io) ∨ Does [.onBodyWritten] s (onHeaderWritten c s io) ∨
    io.responseDone = false ∧
      Does [.onBodyRead] { s with responseData := some s.transfer } (onHeaderWritten c s io) := by
  have hfinish := does_finishClientOperation s
  simp only [onHeaderWritten]
  split
  · exact .inl (hfinish.then (does_maybeFinishDeferred _))
  split
  · exact .inl (hfinish.then (does_failAfterHeader _))
  split
  · split
    · exact .inl (hfinish.then (does_finishNormal _ c io))
    · exact .inr (.inl (hfinish.then (does_startClientOperation _ _)))
  · rename_i hmore
    refine .inr (.inr ⟨by simpa using hmore, ?_⟩)
    exact .then (does_finishClientOperation _) (does_expireStart _ _)

theorem onBodyRead_cases (s : State) (io : Io) :
    Does [] s (onBodyRead s io) ∨
    Does [.onBodyWritten] { s with
      responseData := some s.transfer, responseMore := !io.responseDone } (onBodyRead s io) := by
  obtain ⟨b, hb, -⟩ := finishBackendOperation_eq s
  have hfinish := does_finishBackendOperation s
  simp only [onBodyRead, hb]
  rw [hb] at hfinish
  split
  · exact .inl (hfinish.then (does_maybeFinishDeferred _))
  split
  · exact .inl (hfinish.then (does_failAfterHeader _))
  · exact .inr ⟨rfl, rfl, rfl, rfl, rfl, rfl, rfl, rfl⟩

theorem onBodyWritten_cases (c : Config) (s : State) (io : Io) :
    Does [] s (onBodyWritten c s io) ∨ Does [.onBodyWritten] s (onBodyWritten c s io) ∨
    io.error = some .needBuffer ∧
      Does [.onBodyRead] { s with responseData := some s.transfer } (onBodyWritten c s io) := by
  have hfinish := does_finishClientOperation s
  simp only [onBodyWritten]
  split
  · exact .inl (hfinish.then (does_maybeFinishDeferred _))
  split
  · rename_i hneed
    split
    · exact .inl (hfinish.then (does_finishNormal _ c io))
    · refine .inr (.inr ⟨hneed, ?_⟩)
      exact .then (does_finishClientOperation _) (does_expireStart _ _)
  split
  · exact .inl (hfinish.then (does_failAfterHeader _))
  split
  · exact .inl (hfinish.then (does_finishNormal _ c io))
  · exact .inr (.inl (hfinish.then (does_startClientOperation _ _)))

/-! ### All of them -/

/-- The operations whose handlers change what is recorded of connections or buffers. -/
def Op.recorded : Op → Bool
  | .onBackendPermit | .onRequestHeaderWritten | .onResponseHeader | .onHeaderWritten | .onBodyRead
  | .onBodyWritten => true
  | _ => false

theorem handle_handled (c : Config) (s : State) (io : Io) (hop : op.recorded = false) :
    Handled io op s (handle c s io op) := by
  cases op with
  | startOnExecutor => exact handled_startOnExecutor
  | onConnectTimeout => exact handled_onConnectTimeout
  | onResolved => exact handled_onResolved
  | onConnect => exact handled_onConnect
  | onTlsHandshake => exact handled_onTlsHandshake
  | onContinueWritten => exact handled_onContinueWritten
  | onRequestBodyRead => exact handled_onRequestBodyRead
  | onRequestBodyWritten => exact handled_onRequestBodyWritten
  | onRequestBodyFinished => exact handled_onRequestBodyFinished
  | onUpgradeResponse => exact handled_onUpgradeResponse
  | onUpgradeWritten => exact handled_onUpgradeWritten
  | onClientBufferFlushed => exact handled_onClientBufferFlushed
  | onBackendBufferFlushed => exact handled_onBackendBufferFlushed
  | onClientTunnelRead => exact handled_onClientTunnelRead
  | onBackendTunnelWritten => exact handled_onBackendTunnelWritten
  | onBackendTunnelRead => exact handled_onBackendTunnelRead
  | onClientTunnelWritten => exact handled_onClientTunnelWritten
  | onErrorWritten => exact handled_onErrorWritten
  | _ => cases hop

/-- Only a permit and a failed request header lead to a connection. -/
theorem handle_connections (c : Config) (s : State) (io : Io) (hpermit : op ≠ .onBackendPermit)
    (hheader : op ≠ .onRequestHeaderWritten) :
    ∃ started, Starts io op started ∧ (handle c s io op).inFlight = started ++ s.inFlight ∧
      (handle c s io op).connections = s.connections ∧ (handle c s io op).bodyReads = s.bodyReads ∧
      (handle c s io op).backendFromPool = s.backendFromPool := by
  by_cases hop : op.recorded = false
  · obtain ⟨started, hstarts, h⟩ := handle_handled c s io hop
    exact ⟨started, hstarts, h.inFlight, h.connections, h.bodyReads, h.fromPool⟩
  cases op with
  | onBackendPermit => exact absurd rfl hpermit
  | onRequestHeaderWritten => exact absurd rfl hheader
  | onResponseHeader =>
    rcases onResponseHeader_cases s io with h | h | ⟨early, h⟩ | ⟨-, -, h⟩
    · exact ⟨_, .nothing _, h.inFlight, h.connections, h.bodyReads, h.fromPool⟩
    · exact ⟨_, .again, h.inFlight, h.connections, h.bodyReads, h.fromPool⟩
    · exact ⟨_, .error rfl, h.inFlight, h.connections, h.bodyReads, h.fromPool⟩
    · exact ⟨_, .answer, h.inFlight, h.connections, h.bodyReads, h.fromPool⟩
  | onHeaderWritten =>
    rcases onHeaderWritten_cases c s io with h | h | ⟨hmore, h⟩
    · exact ⟨_, .nothing _, h.inFlight, h.connections, h.bodyReads, h.fromPool⟩
    · exact ⟨_, .writeBody rfl, h.inFlight, h.connections, h.bodyReads, h.fromPool⟩
    · exact ⟨_, .readBody (.inl ⟨rfl, hmore⟩), h.inFlight, h.connections, h.bodyReads, h.fromPool⟩
  | onBodyRead =>
    rcases onBodyRead_cases s io with h | h
    · exact ⟨_, .nothing _, h.inFlight, h.connections, h.bodyReads, h.fromPool⟩
    · exact ⟨_, .writeBody rfl, h.inFlight, h.connections, h.bodyReads, h.fromPool⟩
  | onBodyWritten =>
    rcases onBodyWritten_cases c s io with h | h | ⟨hneed, h⟩
    · exact ⟨_, .nothing _, h.inFlight, h.connections, h.bodyReads, h.fromPool⟩
    · exact ⟨_, .writeBody rfl, h.inFlight, h.connections, h.bodyReads, h.fromPool⟩
    · exact ⟨_, .readBody (.inr ⟨rfl, hneed⟩), h.inFlight, h.connections, h.bodyReads, h.fromPool⟩
  | _ => exact absurd rfl hop

/-- A handler starts what the diagram says, and ends no operation but its own. -/
theorem handle_starts (c : Config) (s : State) (io : Io) (op : Op) :
    ∃ started, Starts io op started ∧ (handle c s io op).inFlight = started ++ s.inFlight := by
  by_cases hpermit : op = .onBackendPermit
  · subst hpermit
    rcases onBackendPermit_cases c s io with
      h | h | ⟨-, -, h⟩ | ⟨started, fromPool, hs, h⟩
    · exact ⟨_, .nothing _, h.inFlight⟩
    · exact ⟨_, .error rfl, h.inFlight⟩
    · exact ⟨_, .pooled, h.inFlight⟩
    · exact ⟨started, hs, h.inFlight⟩
  by_cases hheader : op = .onRequestHeaderWritten
  · subst hheader
    rcases onRequestHeaderWritten_cases c s io with
      h | h | ⟨-, started, hs, h⟩ | ⟨-, -, -, started, hs, h⟩
    · exact ⟨_, .nothing _, h.inFlight⟩
    · exact ⟨_, .error rfl, h.inFlight⟩
    · exact ⟨started, hs, h.inFlight⟩
    · exact ⟨started, hs, h.inFlight⟩
  obtain ⟨started, hs, h, -⟩ := handle_connections c s io hpermit hheader
  exact ⟨started, hs, h⟩

end Handlers

/-! ## One operation on each line -/

/-- The lines up to the request header, and the one between the 101 and the tunnel. -/
def Line.front : Line → Bool
  | .acquire | .connect | .setup | .switching => true
  | _ => false

def Shape.front (t : Shape) : Nat := t.acquire + t.connect + t.setup + t.switching

structure Narrow (t : Shape) : Prop where
  upload : t.front + t.upload ≤ 1
  response : t.front + t.header + t.relay ≤ 1
  up : t.front + t.up ≤ 1
  down : t.front + t.down ≤ 1
  /-- a transaction relays a response or a tunnel -/
  kind : t.header + t.relay + t.upload = 0 ∨ t.up + t.down = 0

theorem narrow_erase {ops : List Op} {op : Op} (h : Narrow (shapeOf ops)) (hm : op ∈ ops) :
    Narrow (shapeOf (ops.erase op)) := by
  obtain ⟨hu, hr, hup, hdown, hkind⟩ := h
  rw [shapeOf_erase hm]
  simp only [Shape.front] at hu hr hup hdown
  cases op.line <;> refine ⟨?_, ?_, ?_, ?_, ?_⟩ <;> simp only [Shape.modify, Shape.front] <;> omega

/-- An operation takes the place of another on its line, or of one in front of it. -/
theorem Narrow.replace {t : Shape} (h : Narrow t) {line next : Line} (hpos : 1 ≤ t.get line)
    (hline : next = line ∨ line.front = true ∨ line = .header ∧ next = .relay) :
    Narrow ((t.modify (· - 1) line).modify (· + 1) next) := by
  obtain ⟨hu, hr, hup, hdown, hkind⟩ := h
  simp only [Shape.front] at hu hr hup hdown
  rcases hline with rfl | hline | ⟨rfl, rfl⟩
  · cases next <;> simp only [Shape.get] at hpos <;>
      refine ⟨?_, ?_, ?_, ?_, ?_⟩ <;> simp only [Shape.modify, Shape.front] <;> omega
  · cases line <;> cases hline <;> simp only [Shape.get] at hpos <;> cases next <;>
      refine ⟨?_, ?_, ?_, ?_, ?_⟩ <;> simp only [Shape.modify, Shape.front] <;> omega
  · simp only [Shape.get] at hpos
    refine ⟨?_, ?_, ?_, ?_, ?_⟩ <;> simp only [Shape.modify, Shape.front] <;> omega

/-- Two operations take the place of one in front of them. -/
theorem Narrow.fork {t : Shape} (h : Narrow t) {line : Line} (hpos : 1 ≤ t.get line)
    (hline : line.front = true) :
    Narrow (((t.modify (· - 1) line).modify (· + 1) .header).modify (· + 1) .upload) ∧
      Narrow (((t.modify (· - 1) line).modify (· + 1) .up).modify (· + 1) .down) := by
  obtain ⟨hu, hr, hup, hdown, hkind⟩ := h
  simp only [Shape.front] at hu hr hup hdown
  cases line <;> cases hline <;> simp only [Shape.get] at hpos <;> 
    refine ⟨⟨?_, ?_, ?_, ?_, ?_⟩, ?_, ?_, ?_, ?_, ?_⟩ <;> simp only [Shape.modify, Shape.front] <;> omega

/-- Error responses are on a line of their own. -/
theorem Narrow.error {t : Shape} (h : Narrow t) : Narrow (t.modify (· + 1) .error) :=
  ⟨h.upload, h.response, h.up, h.down, h.kind⟩

theorem Narrow.header_or_relay {ops : List Op} {op other : Op} (h : Narrow (shapeOf ops))
    (hm : op ∈ ops) (hother : other ∈ ops) (hheader : op.line = .header) : other.line ≠ .relay := by
  intro hrelay
  have hpos := get_pos_of_mem hm
  have hpos' := get_pos_of_mem hother
  have hone := h.response
  rw [hheader] at hpos
  rw [hrelay] at hpos'
  simp only [Shape.get] at hpos hpos'
  omega

/-- Beside an operation in front there are only the timer and error responses. -/
theorem Narrow.alone {ops : List Op} {op other : Op} (h : Narrow (shapeOf ops)) (hm : op ∈ ops)
    (hfront : op.line.front = true) (hother : other ∈ ops.erase op) :
    other.line = .timer ∨ other.line = .error := by
  have hpos := get_pos_of_mem hm
  have hpos' := get_pos_of_mem hother
  obtain ⟨hu, hr, hup, hdown, hkind⟩ := h
  rw [shapeOf_erase hm] at hpos'
  simp only [Shape.front] at hu hr hup hdown
  cases hline : op.line <;> rw [hline] at hpos hpos' hfront <;> cases hfront <;>
    cases hline' : other.line <;> rw [hline'] at hpos' <;>
    simp only [Shape.get, Shape.modify] at hpos hpos' <;> first | omega | simp

theorem Narrow.alone_left {ops : List Op} {op other : Op} (h : Narrow (shapeOf ops)) (hm : op ∈ ops)
    (hother : other ∈ ops.erase op) (hfront : other.line.front = true) :
    op.line = .timer ∨ op.line = .error := by
  by_cases heq : op = other
  · subst heq
    exact h.alone hm hfront hother
  · exact h.alone (List.mem_of_mem_erase hother) hfront ((List.mem_erase_of_ne heq).mpr hm)

/-- What is started takes the place of what has completed. -/
theorem narrow_starts {ops started : List Op} {op : Op} {io : Io} (h : Narrow (shapeOf ops))
    (hm : op ∈ ops) (hs : Starts io op started) : Narrow (shapeOf (started ++ ops.erase op)) := by
  have hpos := get_pos_of_mem hm
  have herase := narrow_erase h hm
  -- one operation for another; the timer is not counted
  have hone : ∀ next : Op, (next.line = op.line ∨ op.line.front = true ∨
      op.line = .header ∧ next.line = .relay) → Narrow (shapeOf ([next] ++ ops.erase op)) := by
    intro next hline
    rw [List.singleton_append, shapeOf, shapeOf_erase hm]
    exact h.replace hpos hline
  have herror : Narrow (shapeOf ([.onErrorWritten] ++ ops.erase op)) := herase.error
  cases hs with
  | nothing => exact herase
  | error => exact herror
  | broken => exact herror
  | acquire => exact hone _ (.inl rfl)
  | pooled => exact hone _ (.inr (.inl rfl))
  | resolve => exact hone .onResolved (.inr (.inl rfl))
  | connect => exact hone _ (.inl rfl)
  | handshake => exact hone _ (.inl rfl)
  | plain => exact hone _ (.inr (.inl rfl))
  | secure => exact hone _ (.inr (.inl rfl))
  | retry => exact hone .onResolved (.inr (.inl rfl))
  | upgrade => exact hone _ (.inl rfl)
  | interim => exact hone _ (.inl rfl)
  | exchange hop herr hsub =>
    have hfront : op.line.front = true := by rcases hop with rfl | rfl <;> rfl
    have hcases : started = [] ∨ started = [.onResponseHeader] ∨
        ∃ rest, started = .onRequestBodyRead :: rest ∧ (rest = [] ∨ rest = [.onResponseHeader]) := by
      simpa [List.sublist_cons_iff, or_assoc] using hsub
    rcases hcases with rfl | rfl | ⟨rest, rfl, rfl | rfl⟩
    · exact herase
    · exact hone _ (.inr (.inl hfront))
    · exact hone _ (.inr (.inl hfront))
    · simp only [List.cons_append, List.nil_append, shapeOf, shapeOf_erase hm]
      exact (h.fork hpos hfront).1
  | again => exact hone _ (.inl rfl)
  | answer => exact hone _ (.inr (.inr ⟨rfl, rfl⟩))
  | upload hop hnext => exact hone _ (.inl (hnext.trans hop.symm))
  | readBody hop =>
    rcases hop with ⟨rfl, -⟩ | ⟨rfl, -⟩
    · exact hone _ (.inl rfl)
    · exact hone _ (.inl rfl)
  | writeBody hop => exact hone _ (.inl hop.symm)
  | switch => exact hone _ (.inr (.inl rfl))
  | flushClient => exact hone _ (.inl rfl)
  | flushBackend herr hleft hop =>
    rcases hop with ⟨rfl, -⟩ | rfl
    · exact hone _ (.inl rfl)
    · exact hone _ (.inl rfl)
  | tunnel herr hop =>
    have hfront : op.line.front = true := by rcases hop with ⟨rfl, -⟩ | ⟨rfl, -⟩ | rfl <;> rfl
    simp only [List.cons_append, List.nil_append, shapeOf, shapeOf_erase hm]
    exact (h.fork hpos hfront).2
  | writeUp => exact hone _ (.inl rfl)
  | readUp => exact hone _ (.inl rfl)
  | writeDown => exact hone _ (.inl rfl)
  | readDown => exact hone _ (.inl rfl)

theorem step_starts {c : Config} {s s' : State} {op : Op} {io : Io}
    (hs : step c s (.complete op io) = some s') :
    op ∈ s.inFlight ∧ ∃ started, Starts io op started ∧
      s'.inFlight = started ++ s.inFlight.erase op := by
  obtain ⟨hm, rfl⟩ := step_complete hs
  exact ⟨hm, handle_starts c _ io op⟩

theorem narrow_step {c : Config} {s s' : State} {e : Event} (h : Narrow (shapeOf s.inFlight))
    (hs : step c s e = some s') : Narrow (shapeOf s'.inFlight) := by
  cases e with
  | cancel =>
    cases hs
    rw [(does_cancelOnExecutor s).inFlight]
    exact h
  | complete op io =>
    obtain ⟨hm, started, hstarts, heq⟩ := step_starts hs
    rw [heq]
    exact narrow_starts h hm hstarts

theorem narrow_init (c : Config) : Narrow (shapeOf (State.init c).inFlight) :=
  ⟨Nat.le_refl 1, Nat.le_refl 1, Nat.le_refl 1, Nat.le_refl 1, .inl rfl⟩

/-! ## Counting on a line -/

theorem countP_line {line : Line} (hline : line ≠ .timer) (ops : List Op) :
    ops.countP (·.line = line) = (shapeOf ops).get line := by
  induction ops with
  | nil => cases line <;> first | rfl | exact absurd rfl hline
  | cons op ops ih =>
    rw [List.countP_cons, ih, shapeOf]
    by_cases hop : op.line = line
    · subst hop
      simp only [decide_true, if_true]
      cases hl : op.line <;> first | rfl | exact absurd hl hline
    · simp only [hop, decide_false, Bool.false_eq_true, if_false, Nat.add_zero]
      cases hl : op.line <;> rw [hl] at hop <;> cases line <;> first | rfl | exact absurd rfl hop

end Proxy
end WebServer
