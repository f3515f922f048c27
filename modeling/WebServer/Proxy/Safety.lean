import WebServer.Proxy.Steps
import WebServer.Lib.Run

/-!
# WebServer.Proxy.Safety

What holds in every run of a transaction, for any order and outcome of completions and with
`cancel` at any point.

* `next_step`: every step keeps the modes, once a transaction fails, drains or has finished too.
* `completes_once`: `completion_` is called at most once, with nothing in flight and the permit
  dropped, and a deferred finish is never left behind.
* `one_response`: at most one response head is started, in runs without the completions that
  `calm` names; `two_responses` is a run with one.
* `backend_engaged`: `with_backend` finds the stream engaged, in the runs without the completions that
  `safe` names and only in these; `backend_missing` is a run with one.
-/

namespace WebServer
namespace Proxy

open Run

/-! ## A transaction that fails -/

section Failing

variable {c : Config} {s t : State} {e : Event} {io : Io} {op : Op} {a b u n : Nat}

theorem Stoppable.takenBackend (h : Stoppable s) (hm : op ∈ s.inFlight) (hop : op.side = .backend) :
    ∃ d, finishBackendOperation (s.taken op) = { s.taken op with
        backendOperationsPending := s.backendOperationsPending - 1, backendStream := d } ∧
      Stoppable { s.taken op with
        backendOperationsPending := s.backendOperationsPending - 1, backendStream := d } := by
  obtain ⟨d, hd, -⟩ := finishBackendOperation_eq (s.taken op)
  have hc := h.counted.finishBackend hm hop
  rw [hd] at hc
  refine ⟨d, hd, hc, ?_, h.connecting, h.completed, h.completions⟩
  have hacq := h.acquire
  have hs := shapeOf_erase hm
  show (shapeOf (s.inFlight.erase op)).acquire = 0
  rw [hs]
  cases op.line <;> simp [Shape.modify, hacq]

theorem Stoppable.takenClient (h : Stoppable s) (hm : op ∈ s.inFlight) (hop : op.side = .client) :
    Stoppable (finishClientOperation (s.taken op)) := by
  refine ⟨h.counted.finishClient hm hop, ?_, h.connecting, h.completed, h.completions⟩
  have hacq := h.acquire
  show (shapeOf (s.inFlight.erase op)).acquire = 0
  rw [shapeOf_erase hm]
  cases op.line <;> simp [Shape.modify, hacq]

theorem Stoppable.taken (h : Stoppable s) (hm : op ∈ s.inFlight) (hop : op.side = .uncounted) :
    Stoppable (s.taken op) := by
  refine ⟨h.counted.taken hm hop, ?_, h.connecting, h.completed, h.completions⟩
  have hacq := h.acquire
  show (shapeOf (s.inFlight.erase op)).acquire = 0
  rw [shapeOf_erase hm]
  cases op.line <;> simp [Shape.modify, hacq]

/-- The upload goes on, although its backend was closed for an error response. -/
structure Stray (s t : State) (a b u n : Nat) : Prop where
  stoppable : Stoppable t
  shape : shapeOf t.inFlight = { connect := a, header := b, upload := u, error := n }
  closed : Closed t
  deferred : t.deferredFinish = none
  heads : t.heads = s.heads
  fault : t.fault = s.fault

theorem Stray.keep (h : Stray s t a b u n) : Next c s e t :=
  .quiet (.failing a b u n h.stoppable h.shape (.inl h.closed) h.deferred) h.heads h.fault

theorem Stray.readRequestBodyChunk (h : Stray s t a b u n) :
    Next c s e (readRequestBodyChunk t) := by
  rw [Proxy.readRequestBodyChunk]
  split
  · exact h.keep
  · have hs : shapeOf (.onRequestBodyRead :: t.inFlight) =
        { connect := a, header := b, upload := u + 1, error := n } := by
      simp only [shapeOf, h.shape]; rfl
    refine .quiet (.failing a b (u + 1) n ⟨?_, ?_, h.stoppable.connecting, h.stoppable.completed,
      h.stoppable.completions⟩ hs (.inl ⟨h.closed.requested, h.closed.stream⟩) h.deferred)
      h.heads h.fault
    · exact h.stoppable.counted.startClient (o := .onRequestBodyRead) rfl rfl rfl rfl
    · exact congrArg Shape.acquire hs

/-- A write to the backend; without a stream this is a fault. -/
theorem Stray.write (h : Stray s t a b u n) (hop : op.side = .backend) (hline : op.line = .upload)
    (hleft : safe c s e = true → t.backendOperationsPending ≠ 0) :
    Next c s e (startBackendOperation (expireBackendAfter t) op) := by
  obtain ⟨f, hf, -⟩ := expire_start_eq t op
  have hclosed := h.closed.startBackend op
  have hfault := h.closed.start_fault op
  rw [hf] at hclosed hfault ⊢
  have hs : shapeOf (op :: t.inFlight) =
      { connect := a, header := b, upload := u + 1, error := n } := by
    simp only [shapeOf, h.shape, hline]; rfl
  refine ⟨.failing a b (u + 1) n ⟨?_, ?_, h.stoppable.connecting, h.stoppable.completed,
    h.stoppable.completions⟩ hs (.inl hclosed) h.deferred, fun _ => .inl h.heads,
    fun hsafe => by rw [hfault, h.fault]; simp [hleft hsafe]⟩
  · exact h.stoppable.counted.startBackend hop rfl rfl rfl
  · exact congrArg Shape.acquire hs

theorem Stray.finishRequestBody (h : Stray s t a b u n)
    (hleft : c.chunked = true → safe c s e = true → t.backendOperationsPending ≠ 0) :
    Next c s e (finishRequestBody c t) := by
  rw [Proxy.finishRequestBody]
  split
  · exact h.keep
  split
  · refine .quiet (.failing a b u n ⟨?_, h.stoppable.acquire, h.stoppable.connecting,
      h.stoppable.completed, h.stoppable.completions⟩ h.shape
      (.inl ⟨h.closed.requested, h.closed.stream⟩) h.deferred) h.heads h.fault
    exact ⟨h.stoppable.counted.client, h.stoppable.counted.backend⟩
  · rename_i hch
    exact h.write rfl rfl (hleft (by simpa using hch))

theorem Stray.sendError (h : Stray s t a b u n) (hcalm : calm s e = false) (status k : Nat)
    (io : Io) : Next c s e (sendError t status k io) :=
  next_error h.stoppable h.shape (.inr (.inl h.closed)) h.deferred h.heads
    (fun hc => absurd (hcalm.symm.trans hc) (by simp)) h.fault status k io

theorem Stray.fail (h : Stray s t a b u n) (hcalm : calm s e = false) (error : Error) (io : Io) :
    Next c s e (fail t error io) :=
  next_fail h.stoppable.counted h.shape (.inr (.inl h.closed)) h.deferred h.stoppable.completed
    h.stoppable.completions h.heads (fun hc => absurd (hcalm.symm.trans hc) (by simp)) h.fault error io

theorem Stray.setUpload (h : Stray s t a b u n) (d k : Bool) :
    Stray s { t with requestBodyDone := d, requestUploadComplete := k } a b u n :=
  ⟨⟨⟨h.stoppable.counted.client, h.stoppable.counted.backend⟩, h.stoppable.acquire,
    h.stoppable.connecting, h.stoppable.completed, h.stoppable.completions⟩, h.shape,
    ⟨h.closed.requested, h.closed.stream⟩, h.deferred, h.heads, h.fault⟩

theorem Stray.takenClient (h : Stray s s a b u n) (hm : op ∈ s.inFlight) (hop : op.side = .client)
    (hline : op.line = .upload) :
    Stray s (finishClientOperation (s.taken op)) a b (u - 1) n := by
  have hs := shapeOf_erase hm
  rw [h.shape, hline] at hs
  exact ⟨h.stoppable.takenClient hm hop, hs, ⟨h.closed.requested, h.closed.stream⟩, h.deferred,
    rfl, rfl⟩

theorem Stray.takenBackend (h : Stray s s a b u n) (hm : op ∈ s.inFlight) (hop : op.side = .backend)
    (hline : op.line = .upload) :
    ∃ d, finishBackendOperation (s.taken op) = { s.taken op with
        backendOperationsPending := s.backendOperationsPending - 1, backendStream := d } ∧
      Stray s (finishBackendOperation (s.taken op)) a b (u - 1) n := by
  obtain ⟨d, he, hst⟩ := h.stoppable.takenBackend hm hop
  have hs := shapeOf_erase hm
  rw [h.shape, hline] at hs
  have hclosed := (h.closed.taken op).finishBackend
  refine ⟨d, he, ?_⟩
  rw [he] at hclosed ⊢
  exact ⟨hst, hs, hclosed, h.deferred, rfl, rfl⟩

/-- A handler of the upload that gets past its guard found the upload going on. -/
theorem Stray.uploading (h : Stray s s a b u n) (hstop : t.stopRequestUpload = s.stopRequestUpload)
    (hgo : ¬(t.completed || t.stopRequestUpload) = true) : s.uploading = true := by
  have hs : s.stopRequestUpload = false := by
    rw [← hstop]
    cases hx : t.stopRequestUpload
    · rfl
    · simp [hx] at hgo
  simp [State.uploading, h.deferred, h.stoppable.completed, hs]

/-! ### The upload handlers of a failing transaction -/

theorem next_stray_requestBodyRead (h : Stray s s a b u n) (hm : .onRequestBodyRead ∈ s.inFlight) :
    Next c s (.complete .onRequestBodyRead io)
      (handle c (s.taken .onRequestBodyRead) io .onRequestBodyRead) := by
  have hY := h.takenClient hm rfl rfl
  generalize ht : finishClientOperation (s.taken .onRequestBodyRead) = t at hY
  have hstop : t.stopRequestUpload = s.stopRequestUpload := by rw [← ht]; rfl
  have hpending : t.backendOperationsPending = s.backendOperationsPending := by rw [← ht]; rfl
  have hrequested : s.backendCloseRequested = true := h.closed.requested
  have hun : t.deferredFinish.isSome = false := by rw [hY.deferred]; rfl
  simp only [handle, onRequestBodyRead, ht, hun, Bool.false_eq_true, if_false]
  split
  · exact hY.keep
  rename_i hgo
  have hgo := h.uploading hstop hgo
  have hY' := hY.setUpload io.clientDone t.requestUploadComplete
  have hok : (io.error = none ∨ io.error = some .needBuffer) →
      Next c s (.complete .onRequestBodyRead io)
      (if io.produced = 0 then
        if io.clientDone = true then finishRequestBody c { t with requestBodyDone := io.clientDone }
        else readRequestBodyChunk { t with requestBodyDone := io.clientDone }
      else startBackendOperation (expireBackendAfter { t with requestBodyDone := io.clientDone })
        .onRequestBodyWritten) := by
    intro herr
    split
    · rename_i hp
      split
      · rename_i hdone
        refine hY'.finishRequestBody fun hch hsafe => ?_
        show t.backendOperationsPending ≠ 0
        rw [hpending]
        rcases herr with herr | herr <;>
          simpa [safe, State.writesOn, State.backendLeft, Op.side, hrequested, hgo, herr, hp, hdone,
            hch] using hsafe
      · exact hY'.readRequestBodyChunk
    · rename_i hp
      refine hY'.write rfl rfl fun hsafe => ?_
      show t.backendOperationsPending ≠ 0
      rw [hpending]
      rcases herr with herr | herr <;>
        simpa [safe, State.writesOn, State.backendLeft, Op.side, hrequested, hgo, herr, hp]
          using hsafe
  split
  · rename_i herr; exact hY.sendError (by simp [calm, hgo, h.closed.requested, herr]) _ _ io
  · rename_i herr; exact hY.sendError (by simp [calm, hgo, h.closed.requested, herr]) _ _ io
  · rename_i herr; exact hY.sendError (by simp [calm, hgo, h.closed.requested, herr]) _ _ io
  · rename_i herr; exact hok (.inl herr)
  · rename_i herr; exact hok (.inr herr)

theorem next_stray_requestBodyWritten (h : Stray s s a b u n)
    (hm : .onRequestBodyWritten ∈ s.inFlight) :
    Next c s (.complete .onRequestBodyWritten io)
      (handle c (s.taken .onRequestBodyWritten) io .onRequestBodyWritten) := by
  obtain ⟨d, he, hY⟩ := h.takenBackend hm rfl rfl
  generalize ht : finishBackendOperation (s.taken .onRequestBodyWritten) = t at hY he
  have hstop : t.stopRequestUpload = s.stopRequestUpload := by rw [he]; rfl
  have hbody : t.requestBodyDone = s.requestBodyDone := by rw [he]; rfl
  have hpending : t.backendOperationsPending = s.backendOperationsPending - 1 := by rw [he]
  have hun : t.deferredFinish.isSome = false := by rw [hY.deferred]; rfl
  simp only [handle, onRequestBodyWritten, ht, hun, Bool.false_eq_true, if_false]
  split
  · exact hY.keep
  rename_i hgo
  have hgo := h.uploading hstop hgo
  split
  · rename_i error herr; exact hY.fail (by simp [calm, hgo, h.closed.requested, herr]) error io
  rename_i herr
  split
  · rename_i hdone
    rw [hbody] at hdone
    refine hY.finishRequestBody fun hch hsafe => ?_
    rw [hpending]
    simpa [safe, State.writesOn, State.backendLeft, Op.side, h.closed.requested, hgo, herr, hdone,
      hch] using hsafe
  · exact hY.readRequestBodyChunk

theorem next_stray_requestBodyFinished (h : Stray s s a b u n)
    (hm : .onRequestBodyFinished ∈ s.inFlight) :
    Next c s (.complete .onRequestBodyFinished io)
      (handle c (s.taken .onRequestBodyFinished) io .onRequestBodyFinished) := by
  obtain ⟨d, he, hY⟩ := h.takenBackend hm rfl rfl
  generalize ht : finishBackendOperation (s.taken .onRequestBodyFinished) = t at hY he
  have hstop : t.stopRequestUpload = s.stopRequestUpload := by rw [he]; rfl
  have hun : t.deferredFinish.isSome = false := by rw [hY.deferred]; rfl
  simp only [handle, onRequestBodyFinished, ht, hun, Bool.false_eq_true, if_false]
  split
  · exact hY.keep
  rename_i hgo
  have hgo := h.uploading hstop hgo
  split
  · rename_i error herr; exact hY.fail (by simp [calm, hgo, h.closed.requested, herr]) error io
  · exact (hY.setUpload t.requestBodyDone true).keep

/-- A left-over operation on the closed backend ends without a further one. -/
theorem next_leftover {t : State} (h : Stoppable t)
    (hs : shapeOf t.inFlight = { connect := a, header := b, upload := u, error := n })
    (hclosed : Closed t) (hd : t.deferredFinish = none)
    (hh : t.heads = s.heads) (hf : t.fault = s.fault) : Next c s e (maybeFinishDeferred t) := by
  rw [maybeFinishDeferred, hd]
  exact .quiet (.failing a b u n h hs (.inl hclosed) hd) hh hf

theorem next_failing (h : Stoppable s)
    (hs : shapeOf s.inFlight = { connect := a, header := b, upload := u, error := n })
    (hclosed : Closed s ∨ a = 0 ∧ b = 0 ∧ u = 0)
    (hd : s.deferredFinish = none) (hm : op ∈ s.inFlight) :
    Next c s (.complete op io) (handle c (s.taken op) io op) := by
  have hpos := get_pos_of_mem hm
  have hs' := shapeOf_erase hm
  rw [hs] at hpos hs'
  -- an operation on the backend, or the upload, is left only when the backend was closed
  have hc : 1 ≤ a ∨ 1 ≤ b ∨ 1 ≤ u → Closed s := by
    intro hx; rcases hclosed with hclosed | hclosed
    · exact hclosed
    · omega
  have hstray : 1 ≤ u → Stray s s a b u n := fun hu => ⟨h, hs, hc (.inr (.inr hu)), hd, rfl, rfl⟩
  cases op with
  | onConnectTimeout =>
    exact next_late_timer (.failing a b u n (h.taken hm rfl) hs'
      (hclosed.imp_left fun h => h.taken _) hd) h.connecting
  | onResolved =>
    rw [handle, onResolved, if_pos (by simp [State.taken, h.connecting])]
    exact .quiet (.failing (a - 1) b u n (h.taken hm rfl) hs' (.inl ((hc (.inl hpos)).taken _)) hd)
      rfl rfl
  | onConnect =>
    obtain ⟨d, he, hst⟩ := h.takenBackend hm rfl
    have hcl := ((hc (.inl hpos)).taken .onConnect).finishBackend
    rw [he] at hcl
    have hrequested : (s.taken .onConnect).backendCloseRequested = true := hcl.requested
    simp only [handle, onConnect, he]
    rw [if_pos (by simp [State.closing, hrequested])]
    exact next_leftover hst hs' hcl hd rfl rfl
  | onTlsHandshake =>
    obtain ⟨d, he, hst⟩ := h.takenBackend hm rfl
    have hcl := ((hc (.inl hpos)).taken .onTlsHandshake).finishBackend
    rw [he] at hcl
    have hrequested : (s.taken .onTlsHandshake).backendCloseRequested = true := hcl.requested
    simp only [handle, onTlsHandshake, he]
    rw [if_pos (by simp [State.closing, hrequested])]
    exact next_leftover hst hs' hcl hd rfl rfl
  | onResponseHeader =>
    obtain ⟨d, he, hst⟩ := h.takenBackend hm rfl
    have hcl := ((hc (.inr (.inl hpos))).taken .onResponseHeader).finishBackend
    rw [he] at hcl
    have hrequested : (s.taken .onResponseHeader).backendCloseRequested = true := hcl.requested
    simp only [handle, onResponseHeader, he]
    rw [if_pos (by simp [hrequested])]
    exact next_leftover hst hs' hcl hd rfl rfl
  | onRequestBodyRead => exact next_stray_requestBodyRead (hstray hpos) hm
  | onRequestBodyWritten => exact next_stray_requestBodyWritten (hstray hpos) hm
  | onRequestBodyFinished => exact next_stray_requestBodyFinished (hstray hpos) hm
  | onErrorWritten =>
    have hst := h.takenClient hm rfl
    simp only [handle, onErrorWritten]
    rw [if_neg (by simp [State.finishing, finishClientOperation, State.taken, hd, h.completed])]
    refine next_quiesce (s := s) hst ?_ rfl rfl _ _ _
    rcases hclosed with hclosed | ⟨rfl, rfl, rfl⟩
    · exact .inl hclosed.requested
    · refine .inr ?_
      rw [hst.counted.backend]
      exact backend_idle hs'
  | _ => simp [Op.line, Shape.get] at hpos

end Failing

/-! ## A transaction that drains or has finished -/

section Draining

variable {c : Config} {s : State} {io : Io} {op : Op}

/-- While the finish is deferred, every completion on the client or the backend only looks
whether it was the last one. -/
theorem handle_draining (hd : s.deferredFinish.isSome = true)
    (hclosed : s.backendCloseRequested = true ∨ op.side = .client) :
    (op.side = .client → handle c (s.taken op) io op =
      maybeFinishDeferred (finishClientOperation (s.taken op))) ∧
    (op.side = .backend → handle c (s.taken op) io op =
      maybeFinishDeferred (finishBackendOperation (s.taken op))) := by
  have hf : (finishClientOperation (s.taken op)).finishing = true := by
    simp [State.finishing, finishClientOperation, State.taken, hd]
  have hfd : (finishClientOperation (s.taken op)).deferredFinish.isSome = true := hd
  obtain ⟨d, he, -⟩ := finishBackendOperation_eq (s.taken op)
  have hb : (finishBackendOperation (s.taken op)).closing = true := by
    rw [he]; simp [State.closing, State.taken, hd]
  have hbd : (finishBackendOperation (s.taken op)).deferredFinish.isSome = true := by
    rw [he]; exact hd
  have hbc : op.side = .backend →
      ((finishBackendOperation (s.taken op)).backendCloseRequested ||
        (finishBackendOperation (s.taken op)).completed) = true := by
    intro hside
    have hcl : s.backendCloseRequested = true := hclosed.resolve_right (by rw [hside]; simp)
    rw [he]; simp [State.taken, hcl]
  refine ⟨fun hside => ?_, fun hside => ?_⟩
  · cases op <;> first
      | (exfalso; cases hside; done)
      | simp only [handle, onContinueWritten, onRequestBodyRead, onHeaderWritten, onBodyWritten,
          onUpgradeWritten, onBackendBufferFlushed, onClientTunnelRead, onClientTunnelWritten,
          onErrorWritten, hf, hfd, if_true]
  · have hbc := hbc hside
    cases op <;> first
      | (exfalso; cases hside; done)
      | simp only [handle, onConnect, onTlsHandshake, onRequestHeaderWritten, onRequestBodyWritten,
          onRequestBodyFinished, onResponseHeader, onBodyRead, onUpgradeResponse,
          onClientBufferFlushed, onBackendTunnelWritten, onBackendTunnelRead, hb, hbd, hbc, if_true]

theorem next_draining {d : DeferredFinish} (h : Stoppable s) (hd : s.deferredFinish = some d)
    (hp : s.clientOperationsPending ≠ 0 ∨ s.backendOperationsPending ≠ 0)
    (hclosed : s.backendCloseRequested = true ∨ s.backendOperationsPending = 0)
    (hm : op ∈ s.inFlight) : Next c s (.complete op io) (handle c (s.taken op) io op) := by
  have hsome : s.deferredFinish.isSome = true := by rw [hd]; rfl
  cases hside : op.side with
  | client =>
    rw [(handle_draining hsome (.inr hside)).1 hside]
    exact next_deferred (h.takenClient hm hside) hd hclosed rfl rfl
  | backend =>
    have hcl : s.backendCloseRequested = true := by
      refine hclosed.resolve_right ?_
      have := sideCount_pos hm
      rw [hside, ← h.counted.backend] at this
      omega
    obtain ⟨b, he, hst⟩ := h.takenBackend hm hside
    rw [(handle_draining hsome (.inl hcl)).2 hside, he]
    exact next_deferred hst hd (.inl hcl) rfl rfl
  | uncounted =>
    have hacq := h.acquire
    have hpos := get_pos_of_mem hm
    cases op with
    | startOnExecutor => simp [Op.line, Shape.get, hacq] at hpos
    | onBackendPermit => simp [Op.line, Shape.get, hacq] at hpos
    | onConnectTimeout =>
      exact next_late_timer (.draining d (h.taken hm rfl) hd hp hclosed) h.connecting
    | onResolved =>
      rw [handle, onResolved, if_pos (by simp [State.taken, h.connecting])]
      exact .quiet (.draining d (h.taken hm rfl) hd hp hclosed) rfl rfl
    | _ => cases hside

theorem next_done {r : Completed} (hc : Counted s) (hcl : s.clientOperationsPending = 0)
    (hb : s.backendOperationsPending = 0) (hr : s.completed = true) (hperm : s.permit = false)
    (hn : s.completions = [r]) (hq : r.Quiet) (hm : op ∈ s.inFlight) :
    Next c s (.complete op io) (handle c (s.taken op) io op) := by
  have hpos := sideCount_pos hm
  cases hside : op.side with
  | client => rw [hside, ← hc.client] at hpos; omega
  | backend => rw [hside, ← hc.backend] at hpos; omega
  | uncounted =>
    have hct := hc.taken hm hside
    have hdone : Mode (s.taken op) := .done r hct hcl hb hr hperm hn hq
    cases op with
    | startOnExecutor =>
      refine .quiet (.done r ?_ hcl hb hr hperm hn hq) rfl rfl
      exact hct.begin (o := .onBackendPermit) rfl rfl rfl rfl
    | onBackendPermit =>
      rw [handle, onBackendPermit, if_pos (by exact hr)]
      exact .quiet (.done r ⟨hct.client, hct.backend⟩ hcl hb hr hperm hn hq) rfl rfl
    | onConnectTimeout =>
      rw [handle, onConnectTimeout, if_pos (by simp [State.taken, hr])]
      exact .quiet hdone rfl rfl
    | onResolved =>
      rw [handle, onResolved, if_pos (by simp [State.taken, hr])]
      exact .quiet hdone rfl rfl
    | _ => cases hside

end Draining

/-! ## Every step -/

theorem Live.cancel {c : Config} {s : State} (h : Live s) (hacq : (shapeOf s.inFlight).acquire = 0) :
    Next c s .cancel (cancelOnExecutor s) := by
  rw [cancelOnExecutor, if_neg (by simp [h.completed])]
  have hl : Live { s with connecting := false } := h.set rfl rfl rfl rfl rfl rfl rfl rfl
  exact Live.close (s := s) hl hacq rfl rfl rfl _ _ _

theorem Stoppable.cancel {c : Config} {s : State} (h : Stoppable s)
    (hclosed : s.backendCloseRequested = true ∨ s.backendOperationsPending = 0) :
    Next c s .cancel (cancelOnExecutor s) := by
  rw [cancelOnExecutor, if_neg (by simp [h.completed])]
  have hst : Stoppable { s with connecting := false } :=
    ⟨⟨h.counted.client, h.counted.backend⟩, h.acquire, rfl, h.completed, h.completions⟩
  exact next_close (s := s) hst (.inr hclosed) rfl rfl _ _ _

theorem next_cancel {c : Config} {s : State} (hm : Mode s) :
    Next c s .cancel (cancelOnExecutor s) := by
  cases hm with
  | acquiring hc hs hu hstream hconn hd hr hn =>
    have hcl : s.clientOperationsPending = 0 := hc.client.trans (client_idle hs)
    have hb : s.backendOperationsPending = 0 := hc.backend.trans (backend_idle hs)
    have hclose : closeBackend { s with connecting := false } = { s with connecting := false } := by
      rw [closeBackend, if_neg (by simp [hstream])]
    rw [cancelOnExecutor, if_neg (by simp [hr])]
    simp only [hclose]
    rw [finishWhenIoQuiesced, if_neg (by simp [hr])]
    simp only [maybeFinishDeferred]
    rw [if_neg (by simp [hcl, hb])]
    obtain ⟨b, he, -⟩ := maybeReleaseClosedBackend_eq { s with
      connecting := false
      deferredFinish := some ⟨if s.status = 0 then 499 else s.status, s.responseBytes, false⟩
      clientCancelRequested := s.clientCancelRequested || s.clientOperationsPending ≠ 0 }
    rw [he]
    refine .quiet ?_ ?_ ?_
    · refine mode_finish ?_ ?_ ?_ ?_ ?_ _ _ _
      exacts [⟨hc.client, hc.backend⟩, hcl, hb, hr, hn]
    · rw [finish_heads]
    · rw [finish_fault]
  | connecting h hs => exact h.cancel (by rw [hs])
  | setup h hs => exact h.cancel (by rw [hs])
  | awaiting u h hs => exact h.cancel (by rw [hs])
  | relaying u h hs => exact h.cancel (by rw [hs])
  | switching h hs => exact h.cancel (by rw [hs])
  | tunnelling h hs => exact h.cancel (by rw [hs])
  | failing a b u n h hs hclosed hd =>
    refine h.cancel ?_
    rcases hclosed with hclosed | ⟨rfl, rfl, rfl⟩
    · exact .inl hclosed.requested
    · exact .inr (h.counted.backend.trans (backend_idle hs))
  | draining d h hd hp hclosed => exact h.cancel hclosed
  | done r hc hcl hb hr hp hn hq =>
    rw [cancelOnExecutor, if_pos hr]
    exact .quiet (.done r hc hcl hb hr hp hn hq) rfl rfl

theorem next_complete (c : Config) {s : State} {op : Op} (io : Io) (hmode : Mode s)
    (hm : op ∈ s.inFlight) : Next c s (.complete op io) (handle c (s.taken op) io op) := by
  cases hmode with
  | acquiring hc hs hu hstream hconn hd hr hn =>
    exact next_acquiring hc hs hu hstream hconn hd hr hn hm
  | connecting h hs hu hconn => exact next_connecting h hs hu hconn hm
  | setup h hs hu hconn => exact next_setup h hs hu hconn hm
  | awaiting u h hs hconn hu hstop hup hh => exact next_awaiting h hs hconn hu hstop hup hh hm
  | relaying u h hs hconn hstop hup => exact next_relaying h hs hconn hstop hup hm
  | switching h hs hconn => exact next_switching h hs hconn hm
  | tunnelling h hs hconn => exact next_tunnelling h hs hconn hm
  | failing a b u n h hs hclosed hd => exact next_failing h hs hclosed hd hm
  | draining d h hd hp hclosed => exact next_draining h hd hp hclosed hm
  | done r hc hcl hb hr hp hn hq => exact next_done hc hcl hb hr hp hn hq hm

theorem step_complete {c : Config} {s s' : State} {op : Op} {io : Io}
    (hs : step c s (.complete op io) = some s') :
    op ∈ s.inFlight ∧ s' = handle c ((s.observe op io).taken op) io op := by
  simp only [step] at hs
  split at hs
  · rename_i hm
    exact ⟨hm, (Option.some.inj hs).symm⟩
  · cases hs

theorem next_step {c : Config} {s s' : State} {e : Event} (hmode : Mode s)
    (hs : step c s e = some s') : Next c s e s' := by
  cases e with
  | cancel => cases hs; exact next_cancel hmode
  | complete op io =>
    obtain ⟨hm, rfl⟩ := step_complete hs
    have h := next_complete c io (hmode.observe op io) hm
    -- what is observed of the connections plays no part in `calm`, `safe` or the heads
    exact ⟨h.mode, h.heads, h.fault⟩

theorem Mode.quiet {s : State} (h : Mode s) (hr : s.completed = true) :
    Counted s ∧ s.clientOperationsPending = 0 ∧ s.backendOperationsPending = 0 := by
  have hlive : ¬ s.completed = false := by simp [hr]
  cases h with
  | acquiring hc hs hu hstream hconn hd hr' hn => exact absurd hr' hlive
  | connecting h => exact absurd h.completed hlive
  | setup h => exact absurd h.completed hlive
  | awaiting u h => exact absurd h.completed hlive
  | relaying u h => exact absurd h.completed hlive
  | switching h => exact absurd h.completed hlive
  | tunnelling h => exact absurd h.completed hlive
  | failing a b u n h => exact absurd h.completed hlive
  | draining d h => exact absurd h.completed hlive
  | done r hc hcl hb => exact ⟨hc, hcl, hb⟩

/-- A transaction that has completed stays so: what is left in flight is counted nowhere. -/
theorem completed_step {c : Config} {s s' : State} {e : Event} (hmode : Mode s)
    (hr : s.completed = true) (hs : step c s e = some s') : s'.completed = true := by
  cases e with
  | cancel =>
    cases hs
    rw [cancelOnExecutor, if_pos hr]
    exact hr
  | complete op io =>
    obtain ⟨hm, rfl⟩ := step_complete hs
    obtain ⟨hc, hcl, hb⟩ := hmode.quiet hr
    have hpos := sideCount_pos hm
    cases hside : op.side with
    | client => rw [hside, ← hc.client] at hpos; omega
    | backend => rw [hside, ← hc.backend] at hpos; omega
    | uncounted =>
      cases op with
      | startOnExecutor => exact hr
      | onBackendPermit =>
        rw [handle, onBackendPermit, if_pos (by exact hr)]
        exact hr
      | onConnectTimeout =>
        rw [handle, onConnectTimeout, if_pos (by simp [State.taken, State.observe, hr])]
        exact hr
      | onResolved =>
        rw [handle, onResolved, if_pos (by simp [State.taken, State.observe, hr])]
        exact hr
      | _ => cases hside

theorem mode_run {c : Config} {es : List Event} {s : State}
    (h : run (step c) (State.init c) es = some s) : Mode s :=
  run_inv (fun _ _ _ hm hs => (next_step hm hs).mode) (mode_init c) h

/-! ## Completion -/

/-- `completion_` is called at most once, with nothing in flight and the permit dropped, and no
deferred finish is left behind when the last operation has completed. -/
theorem completes_once {c : Config} {es : List Event} {s : State}
    (h : run (step c) (State.init c) es = some s) :
    s.completions.length ≤ 1 ∧
    (∀ r ∈ s.completions, r.clientOperationsPending = 0 ∧ r.backendOperationsPending = 0 ∧
      r.permit = false) ∧
    (s.completed = true → s.completions.length = 1 ∧ s.clientOperationsPending = 0 ∧
      s.backendOperationsPending = 0 ∧ s.permit = false) ∧
    ¬ (s.deferredFinish.isSome = true ∧ s.clientOperationsPending = 0 ∧
      s.backendOperationsPending = 0 ∧ s.completed = false) := by
  have hlive : s.completions = [] → s.completed = false →
      s.completions.length ≤ 1 ∧ (∀ r ∈ s.completions, r.clientOperationsPending = 0 ∧
        r.backendOperationsPending = 0 ∧ r.permit = false) ∧
      (s.completed = true → s.completions.length = 1 ∧ s.clientOperationsPending = 0 ∧
        s.backendOperationsPending = 0 ∧ s.permit = false) := by
    intro hn hr; simp [hn, hr]
  have hnone : s.deferredFinish = none → ¬ (s.deferredFinish.isSome = true ∧
      s.clientOperationsPending = 0 ∧ s.backendOperationsPending = 0 ∧ s.completed = false) := by
    intro hd; simp [hd]
  have hall : ∀ {p q r u : Prop}, p ∧ q ∧ r → u → p ∧ q ∧ r ∧ u :=
    fun hpqr hu => ⟨hpqr.1, hpqr.2.1, hpqr.2.2, hu⟩
  cases mode_run h with
  | acquiring hc hs hu hstream hconn hd hr hn => exact hall (hlive hn hr) (hnone hd)
  | connecting h => exact hall (hlive h.completions h.completed) (hnone h.deferred)
  | setup h => exact hall (hlive h.completions h.completed) (hnone h.deferred)
  | awaiting u h => exact hall (hlive h.completions h.completed) (hnone h.deferred)
  | relaying u h => exact hall (hlive h.completions h.completed) (hnone h.deferred)
  | switching h => exact hall (hlive h.completions h.completed) (hnone h.deferred)
  | tunnelling h => exact hall (hlive h.completions h.completed) (hnone h.deferred)
  | failing a b u n h hs hclosed hd => exact hall (hlive h.completions h.completed) (hnone hd)
  | draining d h hd hp => exact hall (hlive h.completions h.completed) (by omega)
  | done r hc hcl hb hr hp hn hq =>
    refine hall ⟨by simp [hn], ?_, fun _ => ⟨by simp [hn], hcl, hb, hp⟩⟩ (by simp [hr])
    intro r' hr'
    rw [hn, List.mem_singleton] at hr'
    subst hr'; exact hq

/-- A `GET` over plain HTTP, with `cancel` while the response body is relayed. -/
def cancelledGet : List Event :=
  [.complete .startOnExecutor {}, .complete .onBackendPermit {}, .complete .onResolved {},
    .complete .onConnect {}, .complete .onRequestHeaderWritten { clientDone := true },
    .complete .onResponseHeader {}, .complete .onHeaderWritten {}, .cancel,
    .complete .onBodyRead { error := some .other }]

theorem completes_once_cancelledGet :
    ∃ s, run (step {}) (State.init {}) cancelledGet = some s ∧ s.completed = true ∧
      s.completions.length = 1 := by
  have hrun : (run (step {}) (State.init {}) cancelledGet).map (·.completed) = some true := by decide
  obtain ⟨s, hs, hc⟩ := Option.map_eq_some_iff.mp hrun
  exact ⟨s, hs, hc, ((completes_once hs).2.2.1 hc).1⟩

/-! ## Response heads -/

/-- In runs of calm completions at most one response head is started, and none while another
response is still being sent. -/
theorem one_response {c : Config} {es : List Event} {s : State}
    (hcalm : Along (step c) (fun s e => calm s e = true) (State.init c) es)
    (h : run (step c) (State.init c) es = some s) :
    s.heads.length ≤ 1 ∧ ∀ x ∈ s.heads, x.busy = false := by
  have hinv : Mode s ∧ s.heads.length ≤ 1 ∧ ∀ x ∈ s.heads, x.busy = false :=
    run_inv_along (P := fun s => Mode s ∧ s.heads.length ≤ 1 ∧ ∀ x ∈ s.heads, x.busy = false)
      (fun s e s' hP hG hs => by
        have hnext := next_step hP.1 hs
        refine ⟨hnext.mode, ?_⟩
        rcases hnext.heads hG with heq | ⟨-, status, heq⟩
        · rw [heq]; exact hP.2
        · simp [heq])
      ⟨mode_init c, by simp [State.init]⟩ hcalm h
  exact hinv.2

/-- A `POST` whose upload is cut short by a timeout of the client. -/
def timedOutPost : List Event :=
  [.complete .startOnExecutor {}, .complete .onBackendPermit {}, .complete .onResolved {},
    .complete .onConnect {}, .complete .onRequestHeaderWritten {},
    .complete .onRequestBodyRead { error := some .timeout },
    .complete .onResponseHeader { error := some .other }, .complete .onErrorWritten {}]

theorem one_response_timedOutPost :
    ∃ s, run (step {}) (State.init {}) timedOutPost = some s ∧ s.heads = [⟨408, false⟩] ∧
      s.heads.length ≤ 1 := by
  have hrun : (run (step {}) (State.init {}) timedOutPost).map (·.heads) = some [⟨408, false⟩] := by
    decide
  obtain ⟨s, hs, hh⟩ := Option.map_eq_some_iff.mp hrun
  exact ⟨s, hs, hh, (one_response (by decide) hs).1⟩

/-- The backend fails while the body is uploaded: its error response is followed by another one
when the pending body read fails too. -/
theorem two_responses :
    ¬ ∀ (c : Config) (es : List Event) (s : State), run (step c) (State.init c) es = some s →
      s.heads.length ≤ 1 ∧ ∀ x ∈ s.heads, x.busy = false := by
  intro h
  have hrun : (run (step {}) (State.init {}) [.complete .startOnExecutor {},
      .complete .onBackendPermit {}, .complete .onResolved {}, .complete .onConnect {},
      .complete .onRequestHeaderWritten {}, .complete .onResponseHeader { error := some .other },
      .complete .onRequestBodyRead { error := some .other }]).map (·.heads) =
        some [⟨400, true⟩, ⟨502, false⟩] := by decide
  obtain ⟨s, hs, hh⟩ := Option.map_eq_some_iff.mp hrun
  have := (h {} _ s hs).1
  rw [hh] at this
  simp at this

/-! ## The backend stream -/

/-- An upload that goes on although the backend was closed is that of a transaction that fails. -/
theorem Mode.closed {s : State} {op : Op} (h : Mode s) (hm : op ∈ s.inFlight)
    (hline : op.line = .upload) (hgo : s.uploading = true)
    (hrequested : s.backendCloseRequested = true) : Closed s := by
  have hpos := get_pos_of_mem hm
  rw [hline] at hpos
  have hlive : ¬ Live s := fun h => by simp [h.closeRequested] at hrequested
  simp only [State.uploading, Bool.and_eq_true, Bool.not_eq_true'] at hgo
  cases h with
  | acquiring hc hs => simp [hs, Shape.get] at hpos
  | connecting h => exact absurd h hlive
  | setup h => exact absurd h hlive
  | awaiting u h => exact absurd h hlive
  | relaying u h => exact absurd h hlive
  | switching h => exact absurd h hlive
  | tunnelling h => exact absurd h hlive
  | failing a b u n h hs hclosed =>
    refine hclosed.resolve_right ?_
    rintro ⟨-, -, rfl⟩
    simp [hs, Shape.get] at hpos
  | draining d h hd => simp [hd] at hgo
  | done r hc hcl hb hr => simp [hr] at hgo

/-- The other completions of the upload find no stream. -/
theorem missing_step {c : Config} {s s' : State} {e : Event} (hmode : Mode s)
    (hs : step c s e = some s') (hfalse : safe c s e = false) : s'.fault = true := by
  simp only [safe, Bool.or_eq_false_iff, Bool.not_eq_false', Bool.and_eq_true,
    decide_eq_false_iff_not, not_not] at hfalse
  obtain ⟨⟨hwrites, hrequested⟩, hleft⟩ := hfalse
  cases e with
  | cancel => cases hwrites
  | complete op io =>
    obtain ⟨hm, rfl⟩ := step_complete hs
    cases op with
    | onRequestBodyRead =>
      simp only [State.writesOn, Bool.and_eq_true, Bool.or_eq_true, decide_eq_true_eq] at hwrites
      obtain ⟨⟨hgo, herr⟩, hwrites⟩ := hwrites
      have hclosed := hmode.closed hm rfl hgo hrequested
      simp only [State.uploading, Bool.and_eq_true, Bool.not_eq_true'] at hgo
      generalize ht : finishClientOperation ((s.observe .onRequestBodyRead io).taken .onRequestBodyRead) = t
      have hc : Closed { t with requestBodyDone := io.clientDone } := by
        rw [← ht]
        exact ⟨hclosed.requested, hclosed.stream⟩
      have hnone : s.backendOperationsPending = 0 := by
        simpa [State.backendLeft, Op.side] using hleft
      have hidle : t.backendOperationsPending = 0 := by
        rw [← ht]
        exact hnone
      have hguard : t.deferredFinish.isSome = false ∧ (t.completed || t.stopRequestUpload) = false := by
        rw [← ht]
        exact ⟨hgo.1.1, by simp [finishClientOperation, State.taken, State.observe, hgo]⟩
      have hwrite (next : Op) : (startBackendOperation (expireBackendAfter
          { t with requestBodyDone := io.clientDone }) next).fault = true := by
        rw [hc.start_fault]
        simp [hidle]
      simp only [handle, onRequestBodyRead, ht, hguard, Bool.false_eq_true, if_false]
      rcases herr with herr | herr <;>
      · simp only [herr]
        split
        · rename_i hempty
          have hlast : io.clientDone = true ∧ c.chunked = true := by simpa [hempty] using hwrites
          simp only [hlast, if_true, finishRequestBody, hguard, Bool.not_true, Bool.false_eq_true,
            if_false]
          have := hwrite .onRequestBodyFinished
          rwa [hlast.1] at this
        · exact hwrite .onRequestBodyWritten
    | onRequestBodyWritten =>
      simp only [State.writesOn, Bool.and_eq_true, decide_eq_true_eq] at hwrites
      obtain ⟨⟨⟨hgo, herr⟩, hbody⟩, hchunked⟩ := hwrites
      have hclosed := hmode.closed hm rfl hgo hrequested
      simp only [State.uploading, Bool.and_eq_true, Bool.not_eq_true'] at hgo
      obtain ⟨d, he, -⟩ := finishBackendOperation_eq
        ((s.observe .onRequestBodyWritten io).taken .onRequestBodyWritten)
      have hc : Closed (finishBackendOperation
          ((s.observe .onRequestBodyWritten io).taken .onRequestBodyWritten)) :=
        Closed.finishBackend ⟨hclosed.requested, hclosed.stream⟩
      generalize ht : finishBackendOperation
        ((s.observe .onRequestBodyWritten io).taken .onRequestBodyWritten) = t at he hc
      have hnone : s.backendOperationsPending - 1 = 0 := by
        simpa [State.backendLeft, Op.side] using hleft
      have hidle : t.backendOperationsPending = 0 := by
        rw [he]
        exact hnone
      have hguard : t.deferredFinish.isSome = false ∧ (t.completed || t.stopRequestUpload) = false ∧
          t.requestBodyDone = true := by
        rw [he]
        exact ⟨hgo.1.1, by simp [State.taken, State.observe, hgo], hbody⟩
      simp only [handle, onRequestBodyWritten, ht, hguard, herr, Bool.false_eq_true, if_false,
        if_true, finishRequestBody, hchunked, Bool.not_true]
      rw [hc.start_fault]
      simp [hidle]
    | _ => cases hwrites

theorem fault_step {c : Config} {s s' : State} {e : Event} (hmode : Mode s)
    (hs : step c s e = some s') : s'.fault = false ↔ s.fault = false ∧ safe c s e = true := by
  cases hsafe : safe c s e with
  | true => simp [(next_step hmode hs).fault hsafe]
  | false => simp [missing_step hmode hs hsafe]

/-- `with_backend` is never called without a stream in the runs in which every completion is safe, and
only in these. -/
theorem backend_engaged {c : Config} {es : List Event} {s : State}
    (h : run (step c) (State.init c) es = some s) :
    s.fault = false ↔ Along (step c) (fun s e => safe c s e = true) (State.init c) es :=
  along_iff_last (P := fun s => s.fault = false) (fun _ _ _ hmode hs => (next_step hmode hs).mode)
    (fun _ _ _ => fault_step) (mode_init c) rfl h

/-- A chunked `POST` that the backend answers before the upload is over. -/
def earlyAnswer : List Event :=
  [.complete .startOnExecutor {}, .complete .onBackendPermit {}, .complete .onResolved {},
    .complete .onConnect {}, .complete .onRequestHeaderWritten {},
    .complete .onRequestBodyRead { produced := 5 }, .complete .onResponseHeader {},
    .complete .onRequestBodyWritten {}, .complete .onHeaderWritten { responseDone := true }]

theorem backend_engaged_earlyAnswer :
    ∃ s, run (step { chunked := true }) (State.init { chunked := true }) earlyAnswer = some s ∧
      s.fault = false := by
  obtain ⟨s, hs⟩ := Option.isSome_iff_exists.mp (show (run (step { chunked := true })
    (State.init { chunked := true }) earlyAnswer).isSome = true by decide)
  exact ⟨s, hs, (backend_engaged hs).mpr (by decide)⟩

/-- The backend fails while the body is uploaded, its stream is released, and the pending body
read goes on to write to it. -/
theorem backend_missing :
    ¬ ∀ (c : Config) (es : List Event) (s : State), run (step c) (State.init c) es = some s →
      s.fault = false := by
  intro h
  have hrun : (run (step {}) (State.init {}) [.complete .startOnExecutor {},
      .complete .onBackendPermit {}, .complete .onResolved {}, .complete .onConnect {},
      .complete .onRequestHeaderWritten {}, .complete .onResponseHeader { error := some .other },
      .complete .onRequestBodyRead { produced := 5 }]).map (·.fault) = some true := by decide
  obtain ⟨s, hs, hf⟩ := Option.map_eq_some_iff.mp hrun
  rw [h {} _ s hs] at hf
  cases hf

end Proxy
end WebServer
