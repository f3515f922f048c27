import WebServer.Proxy.Mode

/-!
# WebServer.Proxy.Steps

Every event keeps a transaction in a mode. One lemma for each mode says where the handlers of the
operations that can be in flight in it lead; `next_step` puts them together.
-/

namespace WebServer
namespace Proxy

/-! ## Working in a live transaction -/

/-- The flags that starting and finishing operations leave alone. -/
structure Same (s t : State) : Prop where
  connecting : t.connecting = s.connecting
  started : t.responseHeaderStarted = s.responseHeaderStarted
  stop : t.stopRequestUpload = s.stopRequestUpload
  upload : t.requestUploadComplete = s.requestUploadComplete
  early : t.earlyBackendResponse = s.earlyBackendResponse
  heads : t.heads = s.heads
  fault : t.fault = s.fault

theorem Same.trans {s t u : State} (h : Same s t) (h' : Same t u) : Same s u :=
  ⟨h'.connecting.trans h.connecting, h'.started.trans h.started, h'.stop.trans h.stop,
    h'.upload.trans h.upload, h'.early.trans h.early, h'.heads.trans h.heads,
    h'.fault.trans h.fault⟩

theorem Unasked.same {s t : State} (h : Unasked s) (hs : Same s t) : Unasked t :=
  ⟨hs.started.trans h.started, hs.stop.trans h.stop, hs.upload.trans h.upload,
    hs.heads.trans h.heads⟩

section Live

variable {s : State} {o : Op}

theorem Live.takenBackend (h : Live s) (hm : o ∈ s.inFlight) (hop : o.side = .backend) :
    ∃ t, finishBackendOperation (s.taken o) = t ∧ Live t ∧ Same s t ∧
      shapeOf t.inFlight = (shapeOf s.inFlight).modify (· - 1) o.line := by
  have hc := h.counted.finishBackend hm hop
  obtain ⟨b, hb, hstream, -⟩ := finishBackendOperation_eq (s.taken o)
  refine ⟨_, rfl, ⟨hc, ?_, ?_, ?_, ?_, ?_⟩, ?_, ?_⟩ <;> rw [hb]
  · exact (hstream h.closeRequested).trans h.stream
  · exact h.closeRequested
  · exact h.deferred
  · exact h.completed
  · exact h.completions
  · exact ⟨rfl, rfl, rfl, rfl, rfl, rfl, rfl⟩
  · exact shapeOf_erase hm

theorem Live.takenClient (h : Live s) (hm : o ∈ s.inFlight) (hop : o.side = .client) :
    ∃ t, finishClientOperation (s.taken o) = t ∧ Live t ∧ Same s t ∧
      shapeOf t.inFlight = (shapeOf s.inFlight).modify (· - 1) o.line :=
  ⟨_, rfl, ⟨h.counted.finishClient hm hop, h.stream, h.closeRequested, h.deferred, h.completed,
    h.completions⟩, ⟨rfl, rfl, rfl, rfl, rfl, rfl, rfl⟩, shapeOf_erase hm⟩

theorem Live.taken (h : Live s) (hm : o ∈ s.inFlight) (hop : o.side = .uncounted) :
    ∃ t, s.taken o = t ∧ Live t ∧ Same s t ∧
      shapeOf t.inFlight = (shapeOf s.inFlight).modify (· - 1) o.line :=
  ⟨_, rfl, ⟨h.counted.taken hm hop, h.stream, h.closeRequested, h.deferred, h.completed,
    h.completions⟩, ⟨rfl, rfl, rfl, rfl, rfl, rfl, rfl⟩, shapeOf_erase hm⟩

theorem Live.startBackend (h : Live s) (hop : o.side = .backend) :
    ∃ t, startBackendOperation s o = t ∧ Live t ∧ Same s t ∧
      shapeOf t.inFlight = (shapeOf s.inFlight).modify (· + 1) o.line := by
  obtain ⟨f, hf, hfault⟩ := startBackendOperation_eq s o
  rw [hf]
  exact ⟨_, rfl, ⟨h.counted.startBackend hop rfl rfl rfl, h.stream, h.closeRequested, h.deferred,
    h.completed, h.completions⟩, ⟨rfl, rfl, rfl, rfl, rfl, rfl, hfault h.stream⟩, rfl⟩

theorem Live.expireStart (h : Live s) (hop : o.side = .backend) :
    ∃ t, startBackendOperation (expireBackendAfter s) o = t ∧ Live t ∧ Same s t ∧
      shapeOf t.inFlight = (shapeOf s.inFlight).modify (· + 1) o.line := by
  obtain ⟨f, hf, hfault⟩ := expire_start_eq s o
  rw [hf]
  exact ⟨_, rfl, ⟨h.counted.startBackend hop rfl rfl rfl, h.stream, h.closeRequested, h.deferred,
    h.completed, h.completions⟩, ⟨rfl, rfl, rfl, rfl, rfl, rfl, hfault h.stream⟩, rfl⟩

theorem Live.startClient (h : Live s) (hop : o.side = .client) :
    ∃ t, startClientOperation s o = t ∧ Live t ∧ Same s t ∧
      shapeOf t.inFlight = (shapeOf s.inFlight).modify (· + 1) o.line :=
  ⟨_, rfl, ⟨h.counted.startClient hop rfl rfl rfl, h.stream, h.closeRequested, h.deferred,
    h.completed, h.completions⟩, ⟨rfl, rfl, rfl, rfl, rfl, rfl, rfl⟩, rfl⟩

/-- `connecting_ = false`, and other assignments that no mode of a live transaction reads. -/
theorem Live.set {t : State} (h : Live s) (hf : t.inFlight = s.inFlight)
    (hc : t.clientOperationsPending = s.clientOperationsPending)
    (hb : t.backendOperationsPending = s.backendOperationsPending)
    (hstream : t.backendStream = s.backendStream)
    (hclose : t.backendCloseRequested = s.backendCloseRequested)
    (hd : t.deferredFinish = s.deferredFinish) (hr : t.completed = s.completed)
    (hn : t.completions = s.completions) : Live t :=
  ⟨h.counted.congr hf hc hb, hstream.trans h.stream, hclose.trans h.closeRequested,
    hd.trans h.deferred, hr.trans h.completed, hn.trans h.completions⟩

theorem Live.closing (h : Live s) : s.closing = false := by
  simp [State.closing, h.deferred, h.closeRequested, h.completed]

theorem Live.undeferred (h : Live s) : s.deferredFinish.isSome = false := by rw [h.deferred]; rfl

theorem Live.finishing (h : Live s) : s.finishing = false := by
  simp [State.finishing, h.deferred, h.completed]

theorem Live.stoppable (h : Live s) (hacq : (shapeOf s.inFlight).acquire = 0)
    (hconn : s.connecting = false) : Stoppable s :=
  ⟨h.counted, hacq, hconn, h.completed, h.completions⟩

end Live

section Ends

variable {c : Config} {s t : State} {e : Event}

/-- A live transaction that fails before any response was started, or where `calm` is violated. -/
theorem Live.fail {a b u : Nat} (h : Live t)
    (hs : shapeOf t.inFlight = { connect := a, header := b, upload := u }) (hh : t.heads = s.heads)
    (hfirst : calm s e = true → s.heads = []) (hf : t.fault = s.fault) (error : Error) (io : Io) :
    Next c s e (fail t error io) :=
  next_fail h.counted hs (.inl h.stream) h.deferred h.completed h.completions hh
    (fun hc => ⟨hfirst hc, rfl⟩) hf error io

theorem Live.sendError {a b u : Nat} (h : Live t)
    (hs : shapeOf t.inFlight = { connect := a, header := b, upload := u })
    (hconn : t.connecting = false) (hh : t.heads = s.heads)
    (hfirst : calm s e = true → s.heads = []) (hf : t.fault = s.fault) (status n : Nat) (io : Io) :
    Next c s e (sendError t status n io) :=
  next_error (h.stoppable (by rw [hs]) hconn) hs (.inl h.stream) h.deferred hh
    (fun hc => ⟨hfirst hc, rfl⟩) hf status n io

theorem Live.close (h : Live t) (hacq : (shapeOf t.inFlight).acquire = 0)
    (hconn : t.connecting = false) (hh : t.heads = s.heads) (hf : t.fault = s.fault)
    (status bytes : Nat) (keepAlive : Bool) :
    Next c s e (finishWhenIoQuiesced (closeBackend t) status bytes keepAlive) :=
  next_close (h.stoppable hacq hconn) (.inl h.stream) hh hf status bytes keepAlive

end Ends

/-! ## Connecting -/

section Connecting

variable {c : Config} {s t : State} {e : Event} {io : Io}

/-- `connect_backend` from a state in which only it is at work. -/
theorem next_connectBackend (hc : Counted t) (hs : shapeOf t.inFlight = {}) (hu : Unasked t)
    (hd : t.deferredFinish = none) (hr : t.completed = false) (hn : t.completions = [])
    (hh : t.heads = s.heads) (hf : t.fault = s.fault) : Next c s e (connectBackend c t io) := by
  have hnil : s.heads = [] := hh ▸ hu.heads
  have hl : Live ({ t with
      backendFromPool := false, backendCloseRequested := false
      backendStream := true }.connection false) :=
    ⟨⟨hc.client, hc.backend⟩, rfl, rfl, hd, hr, hn⟩
  simp only [connectBackend]
  split
  · exact hl.fail hs hh (fun _ => hnil) hf .other io
  · refine .quiet (.connecting ⟨⟨hc.client, hc.backend⟩, rfl, rfl, hd, hr, hn⟩ ?_ ⟨hu.started,
      hu.stop, hu.upload, hu.heads⟩ rfl) hh hf
    simp only [State.begin, State.connection, shapeOf, hs]; rfl

theorem next_writeRequestHeader (h : Live t) (hs : shapeOf t.inFlight = {}) (hu : Unasked t)
    (hconn : t.connecting = false) (hh : t.heads = s.heads) (hf : t.fault = s.fault) :
    Next c s e (writeRequestHeader t) := by
  obtain ⟨t', ht, hl, hsame, hs'⟩ := h.expireStart (o := .onRequestHeaderWritten) rfl
  rw [writeRequestHeader, ht]
  rw [hs] at hs'
  exact .quiet (.setup hl hs' (hu.same hsame) (hsame.connecting.trans hconn))
    (hsame.heads.trans hh) (hsame.fault.trans hf)

/-- A connection timer that expires after the connection was made or given up. -/
theorem next_late_timer (hmode : Mode (s.taken .onConnectTimeout)) (hconn : s.connecting = false) :
    Next c s (.complete .onConnectTimeout io) (handle c (s.taken .onConnectTimeout) io .onConnectTimeout) := by
  have hsame : onConnectTimeout (s.taken .onConnectTimeout) io = s.taken .onConnectTimeout := by
    rw [onConnectTimeout, if_pos (by simp [State.taken, hconn])]
  simp only [handle, hsame]
  exact .quiet hmode rfl rfl

theorem next_acquiring {op : Op} (hc : Counted s) (hs : shapeOf s.inFlight = { acquire := 1 })
    (hu : Unasked s) (hstream : s.backendStream = false) (hconn : s.connecting = false)
    (hd : s.deferredFinish = none) (hr : s.completed = false) (hn : s.completions = [])
    (hm : op ∈ s.inFlight) : Next c s (.complete op io) (handle c (s.taken op) io op) := by
  have hpos := get_pos_of_mem hm
  have hs' := shapeOf_erase hm
  rw [hs] at hpos hs'
  cases op with
  | startOnExecutor =>
    have hct := hc.taken hm rfl
    refine .quiet (.acquiring ⟨hct.client, hct.backend⟩ ?_ ⟨hu.started, hu.stop, hu.upload, hu.heads⟩
      hstream hconn hd hr hn) rfl rfl
    simp only [handle, startOnExecutor, State.begin, State.taken, shapeOf, hs']; rfl
  | onBackendPermit =>
    have hct := hc.taken hm rfl
    have hs₀ : shapeOf (s.taken .onBackendPermit).inFlight = {} := hs'
    have hacq : (shapeOf (s.taken .onBackendPermit).inFlight).acquire = 0 := by rw [hs₀]
    have h₁ : Stoppable { s.taken .onBackendPermit with pendingAcquire := false } :=
      ⟨⟨hct.client, hct.backend⟩, hacq, hconn, hr, hn⟩
    have h₂ : Stoppable { s.taken .onBackendPermit with pendingAcquire := false, permit := true } :=
      ⟨⟨hct.client, hct.backend⟩, hacq, hconn, hr, hn⟩
    simp only [handle, onBackendPermit]
    rw [if_neg (by simp [State.taken, hr])]
    split
    · exact next_error (s := s) h₁ hs₀ (.inr (.inr ⟨rfl, rfl, rfl⟩)) hd rfl
        (fun _ => ⟨hu.heads, rfl⟩) rfl _ _ io
    split
    · exact next_error (s := s) h₂ hs₀ (.inr (.inr ⟨rfl, rfl, rfl⟩)) hd rfl
        (fun _ => ⟨hu.heads, rfl⟩) rfl _ _ io
    by_cases hpool : (c.backendKeepAlive && !c.websocket && io.pooled) = true
    · simp only [hpool, if_true]
      have hl : Live ({ s.taken .onBackendPermit with
          pendingAcquire := false, permit := true, backendCloseRequested := false
          backendStream := true, backendFromPool := true }.connection true) :=
        ⟨⟨hct.client, hct.backend⟩, rfl, rfl, hd, hr, hn⟩
      exact next_writeRequestHeader (s := s) hl hs₀ ⟨hu.started, hu.stop, hu.upload, hu.heads⟩ hconn rfl rfl
    · rw [if_neg hpool, if_neg (by simp [State.taken, hstream])]
      exact next_connectBackend (s := s) h₂.counted hs₀ ⟨hu.started, hu.stop, hu.upload, hu.heads⟩
        hd hr hn rfl rfl
  | onConnectTimeout =>
    have hct := hc.taken hm rfl
    exact next_late_timer (.acquiring hct hs' ⟨hu.started, hu.stop, hu.upload, hu.heads⟩ hstream
      hconn hd hr hn) hconn
  | _ => simp [Op.line, Shape.get] at hpos

theorem next_connecting {op : Op} (h : Live s) (hs : shapeOf s.inFlight = { connect := 1 })
    (hu : Unasked s) (hconn : s.connecting = true) (hm : op ∈ s.inFlight) :
    Next c s (.complete op io) (handle c (s.taken op) io op) := by
  have hpos := get_pos_of_mem hm
  rw [hs] at hpos
  cases op with
  | onConnectTimeout =>
    obtain ⟨t, ht, hl, hsame, hs'⟩ := h.taken hm rfl
    simp only [handle, ht, onConnectTimeout]
    rw [hs] at hs'
    split
    · exact .quiet (.connecting hl hs' (hu.same hsame) (hsame.connecting.trans hconn)) hsame.heads
        hsame.fault
    · obtain ⟨b, cl, he, -⟩ := closeBackend_eq { t with connecting := false }
      have hshut := Closed.closeBackend (t := { t with connecting := false }) (.inl hl.stream)
      rw [he] at hshut ⊢
      refine next_fail (t := { t with
        connecting := false, backendStream := b, backendCloseRequested := cl })
        ⟨hl.counted.client, hl.counted.backend⟩ hs' (.inr (.inl hshut)) hl.deferred
        hl.completed hl.completions hsame.heads (fun _ => ⟨hu.heads, rfl⟩) hsame.fault .timeout io
  | onResolved =>
    obtain ⟨t, ht, hl, hsame, hs'⟩ := h.taken hm rfl
    rw [hs] at hs'
    have hgo : (!t.connecting || t.completed) = false := by
      simp [hsame.connecting, hconn, hl.completed]
    simp only [handle, ht, onResolved, hgo, Bool.false_eq_true, if_false]
    split
    · rename_i error _
      have hl' : Live { t with connecting := false } := hl.set rfl rfl rfl rfl rfl rfl rfl rfl
      exact hl'.fail hs' hsame.heads (fun _ => hu.heads) hsame.fault error io
    · obtain ⟨t', ht', hl', hsame', hs''⟩ := hl.expireStart (o := .onConnect) rfl
      rw [ht']
      rw [hs'] at hs''
      have hsame := hsame.trans hsame'
      exact .quiet (.connecting hl' hs'' (hu.same hsame) (hsame.connecting.trans hconn)) hsame.heads
        hsame.fault
  | onConnect =>
    obtain ⟨t, ht, hl, hsame, hs'⟩ := h.takenBackend hm rfl
    rw [hs] at hs'
    have hgo : (!t.connecting || t.completed) = false := by
      simp [hsame.connecting, hconn, hl.completed]
    simp only [handle, onConnect, ht, hl.closing, hgo, Bool.false_eq_true, if_false]
    split
    · rename_i error _; exact hl.fail hs' hsame.heads (fun _ => hu.heads) hsame.fault error io
    split
    · obtain ⟨t', ht', hl', hsame', hs''⟩ := hl.expireStart (o := .onTlsHandshake) rfl
      rw [ht']
      rw [hs'] at hs''
      have hsame := hsame.trans hsame'
      exact .quiet (.connecting hl' hs'' (hu.same hsame) (hsame.connecting.trans hconn)) hsame.heads
        hsame.fault
    · have hl' : Live { t with connecting := false } := hl.set rfl rfl rfl rfl rfl rfl rfl rfl
      have hu' := hu.same hsame
      exact next_writeRequestHeader hl' hs' ⟨hu'.started, hu'.stop, hu'.upload, hu'.heads⟩ rfl
        hsame.heads hsame.fault
  | onTlsHandshake =>
    obtain ⟨t, ht, hl, hsame, hs'⟩ := h.takenBackend hm rfl
    rw [hs] at hs'
    have hgo : (!t.connecting || t.completed) = false := by
      simp [hsame.connecting, hconn, hl.completed]
    simp only [handle, onTlsHandshake, ht, hl.closing, hgo, Bool.false_eq_true, if_false]
    have hl' : Live { t with connecting := false } := hl.set rfl rfl rfl rfl rfl rfl rfl rfl
    split
    · rename_i error _; exact hl'.fail hs' hsame.heads (fun _ => hu.heads) hsame.fault error io
    · have hu' := hu.same hsame
      exact next_writeRequestHeader hl' hs' ⟨hu'.started, hu'.stop, hu'.upload, hu'.heads⟩ rfl
        hsame.heads hsame.fault
  | _ => simp [Op.line, Shape.get] at hpos

end Connecting

/-! ## Setting up the exchange -/

section Setup

variable {c : Config} {s t : State} {e : Event} {io : Io}

theorem next_readResponseHeader {u : Nat} (h : Live t) (hs : shapeOf t.inFlight = { upload := u })
    (hconn : t.connecting = false) (hu : u ≤ 1) (hst : t.responseHeaderStarted = false)
    (hstop : t.stopRequestUpload = false) (hup : t.requestUploadComplete = true → u = 0)
    (hnil : t.heads = []) (hh : t.heads = s.heads) (hf : t.fault = s.fault) :
    Next c s e (readResponseHeader t) := by
  have hl : Live { t with responseHeaderStarted := true } := h.set rfl rfl rfl rfl rfl rfl rfl rfl
  obtain ⟨t', ht, hl', hsame, hs'⟩ := hl.expireStart (o := .onResponseHeader) rfl
  rw [readResponseHeader, if_neg (by simp [hst, h.completed]), ht]
  simp only at hs'
  rw [hs] at hs'
  refine .quiet (.awaiting u hl' hs' (hsame.connecting.trans hconn) hu (hsame.stop.trans hstop) ?_
    (hsame.heads.trans hnil)) (hsame.heads.trans hh) (hsame.fault.trans hf)
  intro hc; exact hup (hsame.upload ▸ hc)

/-- The response header is awaited while the body is uploaded. -/
theorem next_exchange (h : Live t) (hs : shapeOf t.inFlight = {}) (hu : Unasked t)
    (hconn : t.connecting = false) (hh : t.heads = s.heads) (hf : t.fault = s.fault) :
    Next c s e (readRequestBodyChunk (readResponseHeader t)) := by
  have hl : Live { t with responseHeaderStarted := true } := h.set rfl rfl rfl rfl rfl rfl rfl rfl
  obtain ⟨t', ht, hl', hsame, hs'⟩ := hl.expireStart (o := .onResponseHeader) rfl
  obtain ⟨t'', ht', hl'', hsame', hs''⟩ := hl'.startClient (o := .onRequestBodyRead) rfl
  have hstop : t'.stopRequestUpload = false := hsame.stop.trans hu.stop
  rw [readResponseHeader, if_neg (by simp [hu.started, h.completed]), ht, readRequestBodyChunk,
    if_neg (by simp [hl'.completed, hstop]), ht']
  have hsame := hsame.trans hsame'
  simp only at hs'
  rw [hs', hs] at hs''
  refine .quiet (.awaiting 1 hl'' hs'' (hsame.connecting.trans hconn) (Nat.le_refl 1)
    (hsame.stop.trans hu.stop) ?_ (hsame.heads.trans hu.heads)) (hsame.heads.trans hh)
    (hsame.fault.trans hf)
  intro hc
  rw [hsame.upload] at hc
  exact absurd (hu.upload.symm.trans hc) (by simp)

theorem next_setup {op : Op} (h : Live s) (hs : shapeOf s.inFlight = { setup := 1 })
    (hu : Unasked s) (hconn : s.connecting = false) (hm : op ∈ s.inFlight) :
    Next c s (.complete op io) (handle c (s.taken op) io op) := by
  have hpos := get_pos_of_mem hm
  rw [hs] at hpos
  cases op with
  | onConnectTimeout =>
    obtain ⟨t, rfl, hl, hsame, hs'⟩ := h.taken hm rfl
    rw [hs] at hs'
    exact next_late_timer (.setup hl hs' (hu.same hsame) (hsame.connecting.trans hconn)) hconn
  | onRequestHeaderWritten =>
    obtain ⟨t, ht, hl, hsame, hs'⟩ := h.takenBackend hm rfl
    rw [hs] at hs'
    have hu' := hu.same hsame
    have hconn' := hsame.connecting.trans hconn
    simp only [handle, onRequestHeaderWritten, ht, hl.closing, Bool.false_eq_true, if_false]
    split
    · rename_i error _
      split
      · obtain ⟨b, cl, he, -⟩ := closeBackend_eq { t with retriedPooledConnection := true }
        rw [he]
        have hc : Counted { t with
            retriedPooledConnection := true, backendStream := b, backendCloseRequested := cl } :=
          hl.counted.congr rfl rfl rfl
        exact next_connectBackend (s := s) hc hs' ⟨hu'.started, hu'.stop, hu'.upload, hu'.heads⟩
          hl.deferred hl.completed hl.completions hsame.heads hsame.fault
      · exact hl.fail hs' hsame.heads (fun _ => hu.heads) hsame.fault error io
    · have hl' : Live { t with backendFromPool := false } := hl.set rfl rfl rfl rfl rfl rfl rfl rfl
      have hu'' : Unasked { t with backendFromPool := false } :=
        ⟨hu'.started, hu'.stop, hu'.upload, hu'.heads⟩
      split
      · obtain ⟨t', ht', hl'', hsame', hs''⟩ := hl'.expireStart (o := .onUpgradeResponse) rfl
        rw [readUpgradeResponse, ht']
        simp only at hs''
        rw [hs'] at hs''
        exact .quiet (.setup hl'' hs'' (hu''.same hsame') (hsame'.connecting.trans hconn'))
          (hsame'.heads.trans hsame.heads) (hsame'.fault.trans hsame.fault)
      split
      · split
        · obtain ⟨t', ht', hl'', hsame', hs''⟩ := hl'.startClient (o := .onContinueWritten) rfl
          rw [ht']
          simp only at hs''
          rw [hs'] at hs''
          exact .quiet (.setup hl'' hs'' (hu''.same hsame') (hsame'.connecting.trans hconn'))
            (hsame'.heads.trans hsame.heads) (hsame'.fault.trans hsame.fault)
        · exact next_exchange hl' hs' hu'' hconn' hsame.heads hsame.fault
      · have hl'' : Live { t with backendFromPool := false, requestUploadComplete := true } :=
          hl.set rfl rfl rfl rfl rfl rfl rfl rfl
        exact next_readResponseHeader hl'' hs' hconn' (Nat.zero_le 1) hu'.started hu'.stop
          (fun _ => rfl) hu'.heads hsame.heads hsame.fault
  | onContinueWritten =>
    obtain ⟨t, ht, hl, hsame, hs'⟩ := h.takenClient hm rfl
    rw [hs] at hs'
    simp only [handle, onContinueWritten, ht, hl.finishing, Bool.false_eq_true, if_false]
    split
    · rename_i error _; exact hl.fail hs' hsame.heads (fun _ => hu.heads) hsame.fault error io
    · exact next_exchange hl hs' (hu.same hsame) (hsame.connecting.trans hconn) hsame.heads hsame.fault
  | onUpgradeResponse =>
    obtain ⟨t, ht, hl, hsame, hs'⟩ := h.takenBackend hm rfl
    rw [hs] at hs'
    have hconn' := hsame.connecting.trans hconn
    have hnil := hsame.heads.trans hu.heads
    simp only [handle, onUpgradeResponse, ht, hl.closing, Bool.false_eq_true, if_false]
    split
    · rename_i error _; exact hl.fail hs' hsame.heads (fun _ => hu.heads) hsame.fault error io
    split
    · exact hl.sendError hs' hconn' hsame.heads (fun _ => hu.heads) hsame.fault _ _ io
    split
    · exact hl.sendError hs' hconn' hsame.heads (fun _ => hu.heads) hsame.fault _ _ io
    rw [withBackend, if_pos hl.stream]
    have hl' : Live (State.head { t with status := 101 } 101) :=
      hl.set rfl rfl rfl rfl rfl rfl rfl rfl
    obtain ⟨t', ht', hl'', hsame', hs''⟩ := hl'.startClient (o := .onUpgradeWritten) rfl
    rw [ht']
    simp only [State.head] at hs''
    rw [hs'] at hs''
    refine ⟨.switching hl'' hs'' (hsame'.connecting.trans hconn'), fun _ => .inr ⟨hu.heads, 101, ?_⟩,
      fun _ => hsame'.fault.trans hsame.fault⟩
    rw [hsame'.heads]
    simp only [State.head, hnil]
    rw [not_responding (by rw [hs']; rfl) (by rw [hs']; rfl) (by rw [hs']; rfl)]
  | _ => simp [Op.line, Shape.get] at hpos

end Setup

/-! ## Awaiting the response header -/

section Awaiting

variable {c : Config} {s t : State} {e : Event} {io : Io}

/-- The upload goes on in a live transaction that awaits the response header. -/
structure Uploading (s t : State) : Prop where
  live : Live t
  shape : shapeOf t.inFlight = { header := 1 }
  connecting : t.connecting = false
  stop : t.stopRequestUpload = false
  upload : t.requestUploadComplete = false
  nil : s.heads = []
  heads : t.heads = s.heads
  fault : t.fault = s.fault

/-- The next operation of the upload was started. -/
theorem Uploading.next {t' : State} {op : Op} (h : Uploading s t) (hl : Live t') (hsame : Same t t')
    (hs : shapeOf t'.inFlight = (shapeOf t.inFlight).modify (· + 1) op.line)
    (hop : op.line = .upload) : Next c s e t' := by
  rw [h.shape, hop] at hs
  refine .quiet (.awaiting 1 hl hs (hsame.connecting.trans h.connecting) (Nat.le_refl 1)
    (hsame.stop.trans h.stop) ?_ (hsame.heads.trans (h.heads.trans h.nil)))
    (hsame.heads.trans h.heads) (hsame.fault.trans h.fault)
  intro hc
  rw [hsame.upload, h.upload] at hc
  cases hc

theorem Uploading.finishRequestBody (h : Uploading s t) : Next c s e (finishRequestBody c t) := by
  rw [Proxy.finishRequestBody, if_neg (by simp [h.live.completed, h.stop])]
  split
  · have hl : Live { t with requestUploadComplete := true } :=
      h.live.set rfl rfl rfl rfl rfl rfl rfl rfl
    exact .quiet (.awaiting 0 hl h.shape h.connecting (Nat.zero_le 1) h.stop (fun _ => rfl)
      (h.heads.trans h.nil)) h.heads h.fault
  · obtain ⟨t', ht, hl, hsame, hs⟩ := h.live.expireStart (o := .onRequestBodyFinished) rfl
    rw [ht]
    exact h.next hl hsame hs rfl

theorem Uploading.readRequestBodyChunk (h : Uploading s t) :
    Next c s e (readRequestBodyChunk t) := by
  rw [Proxy.readRequestBodyChunk, if_neg (by simp [h.live.completed, h.stop])]
  obtain ⟨t', ht, hl, hsame, hs⟩ := h.live.startClient (o := .onRequestBodyRead) rfl
  rw [ht]
  exact h.next hl hsame hs rfl

theorem Uploading.fail (h : Uploading s t) (error : Error) (io : Io) :
    Next c s e (fail t error io) :=
  h.live.fail h.shape h.heads (fun _ => h.nil) h.fault error io

theorem Uploading.sendError (h : Uploading s t) (status n : Nat) (io : Io) :
    Next c s e (sendError t status n io) :=
  h.live.sendError h.shape h.connecting h.heads (fun _ => h.nil) h.fault status n io

theorem next_uploading_requestBodyRead (h : Uploading s t)
    (ht : finishClientOperation (s.taken .onRequestBodyRead) = t) :
    Next c s e (handle c (s.taken .onRequestBodyRead) io .onRequestBodyRead) := by
  have hgo : (t.completed || t.stopRequestUpload) = false := by simp [h.live.completed, h.stop]
  simp only [handle, onRequestBodyRead, ht, h.live.undeferred, hgo, Bool.false_eq_true, if_false]
  have h' : Uploading s { t with requestBodyDone := io.clientDone } :=
    ⟨h.live.set rfl rfl rfl rfl rfl rfl rfl rfl, h.shape, h.connecting, h.stop, h.upload, h.nil,
      h.heads, h.fault⟩
  have hok : Next c s e
      (if io.produced = 0 then
        if io.clientDone = true then finishRequestBody c { t with requestBodyDone := io.clientDone }
        else readRequestBodyChunk { t with requestBodyDone := io.clientDone }
      else startBackendOperation (expireBackendAfter { t with requestBodyDone := io.clientDone })
        .onRequestBodyWritten) := by
    split
    · split
      · exact h'.finishRequestBody
      · exact h'.readRequestBodyChunk
    · obtain ⟨t', ht', hl', hsame', hs'⟩ := h'.live.expireStart (o := .onRequestBodyWritten) rfl
      rw [ht']
      exact h'.next hl' hsame' hs' rfl
  split
  · exact h.sendError _ _ io
  · exact h.sendError _ _ io
  · exact h.sendError _ _ io
  · exact hok
  · exact hok

theorem next_uploading_requestBodyWritten (h : Uploading s t)
    (ht : finishBackendOperation (s.taken .onRequestBodyWritten) = t) :
    Next c s e (handle c (s.taken .onRequestBodyWritten) io .onRequestBodyWritten) := by
  have hgo : (t.completed || t.stopRequestUpload) = false := by simp [h.live.completed, h.stop]
  simp only [handle, onRequestBodyWritten, ht, h.live.undeferred, hgo, Bool.false_eq_true, if_false]
  split
  · rename_i error _; exact h.fail error io
  split
  · exact h.finishRequestBody
  · exact h.readRequestBodyChunk

theorem next_uploading_requestBodyFinished (h : Uploading s t)
    (ht : finishBackendOperation (s.taken .onRequestBodyFinished) = t) :
    Next c s e (handle c (s.taken .onRequestBodyFinished) io .onRequestBodyFinished) := by
  have hgo : (t.completed || t.stopRequestUpload) = false := by simp [h.live.completed, h.stop]
  simp only [handle, onRequestBodyFinished, ht, h.live.undeferred, hgo, Bool.false_eq_true, if_false]
  split
  · rename_i error _; exact h.fail error io
  · have hl : Live { t with requestUploadComplete := true } :=
      h.live.set rfl rfl rfl rfl rfl rfl rfl rfl
    exact .quiet (.awaiting 0 hl h.shape h.connecting (Nat.zero_le 1) h.stop (fun _ => rfl)
      (h.heads.trans h.nil)) h.heads h.fault

/-- The response head of the backend: an interim one is read over, a final one is answered, and
the upload stops where it is not complete. -/
theorem next_responseHeader {u : Nat} (h : Live s)
    (hs : shapeOf s.inFlight = { header := 1, upload := u }) (hconn : s.connecting = false)
    (hu : u ≤ 1) (hstop : s.stopRequestUpload = false)
    (hup : s.requestUploadComplete = true → u = 0) (hnil : s.heads = [])
    (hm : .onResponseHeader ∈ s.inFlight) :
    Next c s e (handle c (s.taken .onResponseHeader) io .onResponseHeader) := by
  obtain ⟨t, ht, hl, hsame, hs'⟩ := h.takenBackend hm rfl
  rw [hs] at hs'
  have hconn' := hsame.connecting.trans hconn
  have hnil' := hsame.heads.trans hnil
  have hup' : t.requestUploadComplete = true → u = 0 := fun hc => hup (hsame.upload ▸ hc)
  have hgo : (t.backendCloseRequested || t.completed) = false := by
    simp [hl.closeRequested, hl.completed]
  simp only [handle, onResponseHeader, ht, hgo, Bool.false_eq_true, if_false]
  split
  · rename_i error _; exact hl.fail hs' hsame.heads (fun _ => hnil) hsame.fault error io
  split
  · have hl' : Live { t with responseHeaderStarted := false } :=
      hl.set rfl rfl rfl rfl rfl rfl rfl rfl
    exact next_readResponseHeader hl' hs' hconn' hu rfl (hsame.stop.trans hstop) hup' hnil'
      hsame.heads hsame.fault
  split
  · exact hl.sendError hs' hconn' hsame.heads (fun _ => hnil) hsame.fault _ _ io
  have hl' : Live { t with
      earlyBackendResponse := !t.requestUploadComplete
      stopRequestUpload := !t.requestUploadComplete
      clientKeepAlive := t.clientKeepAlive && t.requestUploadComplete } :=
    hl.set rfl rfl rfl rfl rfl rfl rfl rfl
  split
  · exact hl'.sendError hs' hconn' hsame.heads (fun _ => hnil) hsame.fault _ _ io
  · refine ⟨.relaying u ⟨?_, hl.stream, hl.closeRequested, hl.deferred, hl.completed,
      hl.completions⟩ ?_ hconn' rfl ?_, fun _ => .inr ⟨hnil, io.result, ?_⟩, fun _ => hsame.fault⟩
    · exact hl'.counted.startClient (o := .onHeaderWritten) rfl rfl rfl rfl
    · simp only [startClientOperation, State.head, shapeOf, hs']; rfl
    · intro hearly
      have hc : t.requestUploadComplete = true := by simpa [startClientOperation, State.head] using hearly
      exact ⟨hc, hup' hc⟩
    · simp only [startClientOperation, State.head, hnil']
      rw [not_responding (by rw [hs']; rfl) (by rw [hs']; rfl) (by rw [hs']; rfl)]

theorem next_awaiting {op : Op} {u : Nat} (h : Live s)
    (hs : shapeOf s.inFlight = { header := 1, upload := u }) (hconn : s.connecting = false)
    (hu : u ≤ 1) (hstop : s.stopRequestUpload = false)
    (hup : s.requestUploadComplete = true → u = 0) (hnil : s.heads = []) (hm : op ∈ s.inFlight) :
    Next c s (.complete op io) (handle c (s.taken op) io op) := by
  have hpos := get_pos_of_mem hm
  rw [hs] at hpos
  -- an upload operation in flight is the only one, and the upload is not complete
  have hupload : ∀ t, 1 ≤ u → Live t → Same s t →
      shapeOf t.inFlight = (shapeOf s.inFlight).modify (· - 1) .upload → Uploading s t := by
    intro t hu1 hl hsame hs'
    have hu1 : u = 1 := by omega
    have hnot : s.requestUploadComplete = false := by
      by_contra hc
      have := hup (by simpa using hc)
      omega
    refine ⟨hl, ?_, hsame.connecting.trans hconn, hsame.stop.trans hstop, hsame.upload.trans hnot,
      hnil, hsame.heads, hsame.fault⟩
    rw [hs', hs, hu1]; rfl
  cases op with
  | onConnectTimeout =>
    obtain ⟨t, rfl, hl, hsame, hs'⟩ := h.taken hm rfl
    rw [hs] at hs'
    exact next_late_timer (.awaiting u hl hs' hconn hu hstop hup hnil) hconn
  | onResponseHeader => exact next_responseHeader h hs hconn hu hstop hup hnil hm
  | onRequestBodyRead =>
    obtain ⟨t, ht, hl, hsame, hs'⟩ := h.takenClient hm rfl
    exact next_uploading_requestBodyRead (hupload t hpos hl hsame hs') ht
  | onRequestBodyWritten =>
    obtain ⟨t, ht, hl, hsame, hs'⟩ := h.takenBackend hm rfl
    exact next_uploading_requestBodyWritten (hupload t hpos hl hsame hs') ht
  | onRequestBodyFinished =>
    obtain ⟨t, ht, hl, hsame, hs'⟩ := h.takenBackend hm rfl
    exact next_uploading_requestBodyFinished (hupload t hpos hl hsame hs') ht
  | _ => simp [Op.line, Shape.get] at hpos

end Awaiting

/-! ## Relaying the response -/

section Relaying

variable {c : Config} {s t : State} {e : Event} {io : Io}

/-- The direct finish is taken only when nothing else is in flight. -/
theorem next_finishNormal {u : Nat} (h : Live t) (hs : shapeOf t.inFlight = { upload := u })
    (hconn : t.connecting = false)
    (hup : t.earlyBackendResponse = false → t.requestUploadComplete = true ∧ u = 0)
    (hh : t.heads = s.heads) (hf : t.fault = s.fault) : Next c s e (finishNormal c t io) := by
  simp only [finishNormal]
  split
  · exact h.close (by rw [hs]) hconn hh hf _ _ _
  · rename_i hnot
    have hearly : t.earlyBackendResponse = false := by
      cases he : t.earlyBackendResponse
      · rfl
      · simp [he] at hnot
    obtain ⟨-, rfl⟩ := hup hearly
    have hcl : t.clientOperationsPending = 0 := h.counted.client.trans (client_idle hs)
    have hb : t.backendOperationsPending = 0 := h.counted.backend.trans (backend_idle hs)
    split
    · refine .quiet ?_ ?_ ?_
      · refine mode_finish ?_ ?_ ?_ ?_ ?_ _ _ _
        exacts [⟨h.counted.client, h.counted.backend⟩, hcl, hb, h.completed, h.completions]
      · rw [finish_heads]; exact hh
      · rw [finish_fault]; exact hf
    · obtain ⟨b, cl, he, -⟩ := closeBackend_eq t
      rw [he]
      refine .quiet ?_ ?_ ?_
      · refine mode_finish ?_ ?_ ?_ ?_ ?_ _ _ _
        exacts [⟨h.counted.client, h.counted.backend⟩, hcl, hb, h.completed, h.completions]
      · rw [finish_heads]; exact hh
      · rw [finish_fault]; exact hf

/-- The response is being relayed, and its last operation was just taken. -/
structure Relaying (s t : State) (u : Nat) : Prop where
  live : Live t
  shape : shapeOf t.inFlight = { upload := u }
  connecting : t.connecting = false
  stop : t.stopRequestUpload = t.earlyBackendResponse
  upload : t.earlyBackendResponse = false → t.requestUploadComplete = true ∧ u = 0
  heads : t.heads = s.heads
  fault : t.fault = s.fault

/-- The response goes on with one more operation. -/
theorem Relaying.next {t' : State} {op : Op} {u : Nat} (h : Relaying s t u) (hl : Live t')
    (hsame : Same t t') (hs : shapeOf t'.inFlight = (shapeOf t.inFlight).modify (· + 1) op.line)
    (hop : op.line = .relay) : Next c s e t' := by
  rw [h.shape, hop] at hs
  refine .quiet (.relaying u hl hs (hsame.connecting.trans h.connecting)
    (by rw [hsame.stop, hsame.early]; exact h.stop) ?_)
    (hsame.heads.trans h.heads) (hsame.fault.trans h.fault)
  rw [hsame.early, hsame.upload]; exact h.upload

theorem Relaying.readBodyChunk {u : Nat} (h : Relaying s t u) : Next c s e (readBodyChunk t) := by
  have hr : Relaying s { t with responseData := some t.transfer } u :=
    ⟨h.live.set rfl rfl rfl rfl rfl rfl rfl rfl, h.shape, h.connecting, h.stop, h.upload, h.heads,
      h.fault⟩
  obtain ⟨t', ht, hl, hsame, hs⟩ := hr.live.expireStart (o := .onBodyRead) rfl
  rw [Proxy.readBodyChunk, ht]
  exact hr.next hl hsame hs rfl

theorem Relaying.writeBody {u : Nat} (h : Relaying s t u) :
    Next c s e (startClientOperation t .onBodyWritten) := by
  obtain ⟨t', ht, hl, hsame, hs⟩ := h.live.startClient (o := .onBodyWritten) rfl
  rw [ht]
  exact h.next hl hsame hs rfl

theorem Relaying.finishNormal {u : Nat} (h : Relaying s t u) :
    Next c s e (finishNormal c t io) :=
  next_finishNormal h.live h.shape h.connecting h.upload h.heads h.fault

theorem Relaying.failAfterHeader {u : Nat} (h : Relaying s t u) :
    Next c s e (failAfterHeader t) := by
  rw [Proxy.failAfterHeader, if_neg (by simp [h.live.completed])]
  exact h.live.close (by rw [h.shape]) h.connecting h.heads h.fault _ _ _

theorem next_relaying {op : Op} {u : Nat} (h : Live s)
    (hs : shapeOf s.inFlight = { relay := 1, upload := u }) (hconn : s.connecting = false)
    (hstop : s.stopRequestUpload = s.earlyBackendResponse)
    (hup : s.earlyBackendResponse = false → s.requestUploadComplete = true ∧ u = 0)
    (hm : op ∈ s.inFlight) : Next c s (.complete op io) (handle c (s.taken op) io op) := by
  have hpos := get_pos_of_mem hm
  rw [hs] at hpos
  have hrelay : ∀ t, Live t → Same s t →
      shapeOf t.inFlight = (shapeOf s.inFlight).modify (· - 1) .relay → Relaying s t u := by
    intro t hl hsame hs'
    rw [hs] at hs'
    refine ⟨hl, hs', hsame.connecting.trans hconn, by rw [hsame.stop, hsame.early]; exact hstop, ?_,
      hsame.heads, hsame.fault⟩
    rw [hsame.early, hsame.upload]; exact hup
  -- a late upload completion is ignored
  have hignored : ∀ t : State, 1 ≤ u → Live t → Same s t →
      shapeOf t.inFlight = (shapeOf s.inFlight).modify (· - 1) .upload →
      (t.completed || t.stopRequestUpload) = true ∧ ∀ e, Next c s e t := by
    intro t hu1 hl hsame hs'
    have hearly : s.earlyBackendResponse = true := by
      by_contra hc
      have := (hup (by simpa using hc)).2
      omega
    refine ⟨by rw [hsame.stop, hstop, hearly]; simp, fun e => ?_⟩
    rw [hs] at hs'
    refine .quiet (.relaying (u - 1) hl hs' (hsame.connecting.trans hconn)
      (by rw [hsame.stop, hsame.early]; exact hstop) ?_) hsame.heads hsame.fault
    rw [hsame.early, hearly]
    intro hc; cases hc
  cases op with
  | onConnectTimeout =>
    obtain ⟨t, rfl, hl, hsame, hs'⟩ := h.taken hm rfl
    rw [hs] at hs'
    exact next_late_timer (.relaying u hl hs' hconn hstop hup) hconn
  | onHeaderWritten =>
    obtain ⟨t, ht, hl, hsame, hs'⟩ := h.takenClient hm rfl
    have hR := hrelay t hl hsame hs'
    simp only [handle, onHeaderWritten, ht, hl.finishing, Bool.false_eq_true, if_false]
    split
    · exact hR.failAfterHeader
    split
    · split
      · exact hR.finishNormal
      · exact hR.writeBody
    · exact hR.readBodyChunk
  | onBodyRead =>
    obtain ⟨t, ht, hl, hsame, hs'⟩ := h.takenBackend hm rfl
    have hR := hrelay t hl hsame hs'
    have hgo : (t.backendCloseRequested || t.completed) = false := by
      simp [hl.closeRequested, hl.completed]
    simp only [handle, onBodyRead, ht, hgo, Bool.false_eq_true, if_false]
    split
    · exact hR.failAfterHeader
    · have hR' : Relaying s { t with
          responseBytes := t.responseBytes + io.produced
          responseData := some t.transfer
          responseMore := !io.responseDone } u :=
        ⟨hl.set rfl rfl rfl rfl rfl rfl rfl rfl, hR.shape, hR.connecting, hR.stop, hR.upload,
          hR.heads, hR.fault⟩
      exact hR'.writeBody
  | onBodyWritten =>
    obtain ⟨t, ht, hl, hsame, hs'⟩ := h.takenClient hm rfl
    have hR := hrelay t hl hsame hs'
    simp only [handle, onBodyWritten, ht, hl.finishing, Bool.false_eq_true, if_false]
    split
    · split
      · exact hR.finishNormal
      · exact hR.readBodyChunk
    split
    · exact hR.failAfterHeader
    split
    · exact hR.finishNormal
    · exact hR.writeBody
  | onRequestBodyRead =>
    obtain ⟨t, ht, hl, hsame, hs'⟩ := h.takenClient hm rfl
    obtain ⟨hgo, hnext⟩ := hignored t hpos hl hsame hs'
    simp only [handle, onRequestBodyRead, ht, hl.undeferred, hgo,
      Bool.false_eq_true, if_false, if_true]
    exact hnext _
  | onRequestBodyWritten =>
    obtain ⟨t, ht, hl, hsame, hs'⟩ := h.takenBackend hm rfl
    obtain ⟨hgo, hnext⟩ := hignored t hpos hl hsame hs'
    simp only [handle, onRequestBodyWritten, ht, hl.undeferred, hgo,
      Bool.false_eq_true, if_false, if_true]
    exact hnext _
  | onRequestBodyFinished =>
    obtain ⟨t, ht, hl, hsame, hs'⟩ := h.takenBackend hm rfl
    obtain ⟨hgo, hnext⟩ := hignored t hpos hl hsame hs'
    simp only [handle, onRequestBodyFinished, ht, hl.undeferred, hgo,
      Bool.false_eq_true, if_false, if_true]
    exact hnext _
  | _ => simp [Op.line, Shape.get] at hpos

end Relaying

/-! ## Upgrade and tunnel -/

section Tunnel

variable {c : Config} {s t : State} {e : Event} {io : Io}

/-- Past the 101: live, with `n` operations of the two tunnel directions in flight. -/
structure Switched (s t : State) (shape : Shape) : Prop where
  live : Live t
  shape : shapeOf t.inFlight = shape
  connecting : t.connecting = false
  heads : t.heads = s.heads
  fault : t.fault = s.fault

theorem Switched.of_same {n : Shape} (hl : Live t) (hs : shapeOf t.inFlight = n)
    (hconn : s.connecting = false) (hsame : Same s t) : Switched s t n :=
  ⟨hl, hs, hsame.connecting.trans hconn, hsame.heads, hsame.fault⟩

theorem Switched.startTunnel (h : Switched s t {}) : Next c s e (startTunnel t) := by
  obtain ⟨t', ht, hl, hsame, hs⟩ := h.live.startClient (o := .onClientTunnelRead) rfl
  obtain ⟨t'', ht', hl', hsame', hs'⟩ := hl.startBackend (o := .onBackendTunnelRead) rfl
  rw [Proxy.startTunnel, readFromClient, readFromBackend, ht, ht']
  rw [hs, h.shape] at hs'
  have hsame := hsame.trans hsame'
  exact .quiet (.tunnelling hl' hs' (hsame.connecting.trans h.connecting))
    (hsame.heads.trans h.heads) (hsame.fault.trans h.fault)

theorem Switched.flushBackendBuffer (h : Switched s t {}) :
    Next c s e (flushBackendBuffer t io) := by
  rw [Proxy.flushBackendBuffer]
  split
  · exact h.startTunnel
  · obtain ⟨t', ht, hl, hsame, hs⟩ := h.live.startClient (o := .onBackendBufferFlushed) rfl
    rw [ht]
    rw [h.shape] at hs
    exact .quiet (.switching hl hs (hsame.connecting.trans h.connecting))
      (hsame.heads.trans h.heads) (hsame.fault.trans h.fault)

theorem Switched.flushClientBuffer (h : Switched s t {}) : Next c s e (flushClientBuffer t io) := by
  rw [Proxy.flushClientBuffer]
  split
  · exact h.flushBackendBuffer
  · obtain ⟨t', ht, hl, hsame, hs⟩ := h.live.startBackend (o := .onClientBufferFlushed) rfl
    rw [ht]
    rw [h.shape] at hs
    exact .quiet (.switching hl hs (hsame.connecting.trans h.connecting))
      (hsame.heads.trans h.heads) (hsame.fault.trans h.fault)

/-- A failed write between the 101 and the tunnel answers with a second head. -/
theorem Switched.fail (h : Switched s t {}) (hcalm : calm s e = false) (error : Error) (io : Io) :
    Next c s e (fail t error io) :=
  h.live.fail h.shape h.heads (fun hc => absurd (hcalm.symm.trans hc) (by simp)) h.fault error io

theorem next_switching {op : Op} (h : Live s) (hs : shapeOf s.inFlight = { switching := 1 })
    (hconn : s.connecting = false) (hm : op ∈ s.inFlight) :
    Next c s (.complete op io) (handle c (s.taken op) io op) := by
  have hpos := get_pos_of_mem hm
  rw [hs] at hpos
  cases op with
  | onConnectTimeout =>
    obtain ⟨t, rfl, hl, hsame, hs'⟩ := h.taken hm rfl
    rw [hs] at hs'
    exact next_late_timer (.switching hl hs' hconn) hconn
  | onUpgradeWritten =>
    obtain ⟨t, ht, hl, hsame, hs'⟩ := h.takenClient hm rfl
    rw [hs] at hs'
    have hw : Switched s t {} := .of_same hl hs' hconn hsame
    simp only [handle, onUpgradeWritten, ht, hl.finishing, Bool.false_eq_true, if_false]
    split
    · rename_i error herr; exact hw.fail (by simp [calm, h.finishing, herr]) error io
    · exact hw.flushClientBuffer
  | onClientBufferFlushed =>
    obtain ⟨t, ht, hl, hsame, hs'⟩ := h.takenBackend hm rfl
    rw [hs] at hs'
    have hw : Switched s t {} := .of_same hl hs' hconn hsame
    simp only [handle, onClientBufferFlushed, ht, hl.closing, Bool.false_eq_true, if_false]
    split
    · rename_i error herr; exact hw.fail (by simp [calm, h.finishing, herr]) error io
    · exact hw.flushBackendBuffer
  | onBackendBufferFlushed =>
    obtain ⟨t, ht, hl, hsame, hs'⟩ := h.takenClient hm rfl
    rw [hs] at hs'
    have hw : Switched s t {} := .of_same hl hs' hconn hsame
    simp only [handle, onBackendBufferFlushed, ht, hl.finishing, Bool.false_eq_true, if_false]
    split
    · rename_i error herr; exact hw.fail (by simp [calm, h.finishing, herr]) error io
    · exact hw.startTunnel
  | _ => simp [Op.line, Shape.get] at hpos

/-- An error ends the tunnel; the other direction may still be at work. -/
theorem Switched.finishTunnel {n : Shape} (h : Switched s t n) (hacq : n.acquire = 0) :
    Next c s e (finishTunnel t) := by
  rw [Proxy.finishTunnel, if_neg (by simp [h.live.completed])]
  exact h.live.close (by rw [h.shape, hacq]) h.connecting h.heads h.fault _ _ _

/-- The next operation of one direction was started. -/
theorem Switched.next {n : Shape} {t' : State} {op : Op} (h : Switched s t n) (hl : Live t')
    (hsame : Same t t') (hs : shapeOf t'.inFlight = (shapeOf t.inFlight).modify (· + 1) op.line)
    (hop : n.modify (· + 1) op.line = { up := 1, down := 1 }) : Next c s e t' := by
  rw [h.shape, hop] at hs
  exact .quiet (.tunnelling hl hs (hsame.connecting.trans h.connecting))
    (hsame.heads.trans h.heads) (hsame.fault.trans h.fault)

theorem next_tunnelling {op : Op} (h : Live s) (hs : shapeOf s.inFlight = { up := 1, down := 1 })
    (hconn : s.connecting = false) (hm : op ∈ s.inFlight) :
    Next c s (.complete op io) (handle c (s.taken op) io op) := by
  have hpos := get_pos_of_mem hm
  rw [hs] at hpos
  cases op with
  | onConnectTimeout =>
    obtain ⟨t, rfl, hl, hsame, hs'⟩ := h.taken hm rfl
    rw [hs] at hs'
    exact next_late_timer (.tunnelling hl hs' hconn) hconn
  | onClientTunnelRead =>
    obtain ⟨t, ht, hl, hsame, hs'⟩ := h.takenClient hm rfl
    rw [hs] at hs'
    have hw : Switched s t { down := 1 } := .of_same hl hs' hconn hsame
    simp only [handle, onClientTunnelRead, ht, hl.finishing, Bool.false_eq_true, if_false]
    split
    · exact hw.finishTunnel rfl
    · obtain ⟨t', ht', hl', hsame', hs''⟩ := hl.startBackend (o := .onBackendTunnelWritten) rfl
      rw [ht']; exact hw.next hl' hsame' hs'' rfl
  | onBackendTunnelWritten =>
    obtain ⟨t, ht, hl, hsame, hs'⟩ := h.takenBackend hm rfl
    rw [hs] at hs'
    have hw : Switched s t { down := 1 } := .of_same hl hs' hconn hsame
    simp only [handle, onBackendTunnelWritten, ht, hl.closing, Bool.false_eq_true, if_false]
    split
    · exact hw.finishTunnel rfl
    · have hl₁ : Live { t with responseBytes := t.responseBytes + io.bytes } :=
        hl.set rfl rfl rfl rfl rfl rfl rfl rfl
      have hw₁ : Switched s { t with responseBytes := t.responseBytes + io.bytes } { down := 1 } :=
        ⟨hl₁, hw.shape, hw.connecting, hw.heads, hw.fault⟩
      obtain ⟨t', ht', hl', hsame', hs''⟩ := hl₁.startClient (o := .onClientTunnelRead) rfl
      rw [readFromClient, ht']; exact hw₁.next hl' hsame' hs'' rfl
  | onBackendTunnelRead =>
    obtain ⟨t, ht, hl, hsame, hs'⟩ := h.takenBackend hm rfl
    rw [hs] at hs'
    have hw : Switched s t { up := 1 } := .of_same hl hs' hconn hsame
    simp only [handle, onBackendTunnelRead, ht, hl.closing, Bool.false_eq_true, if_false]
    split
    · exact hw.finishTunnel rfl
    · obtain ⟨t', ht', hl', hsame', hs''⟩ := hl.startClient (o := .onClientTunnelWritten) rfl
      rw [ht']; exact hw.next hl' hsame' hs'' rfl
  | onClientTunnelWritten =>
    obtain ⟨t, ht, hl, hsame, hs'⟩ := h.takenClient hm rfl
    rw [hs] at hs'
    have hw : Switched s t { up := 1 } := .of_same hl hs' hconn hsame
    simp only [handle, onClientTunnelWritten, ht, hl.finishing, Bool.false_eq_true, if_false]
    split
    · exact hw.finishTunnel rfl
    · have hl₁ : Live { t with responseBytes := t.responseBytes + io.bytes } :=
        hl.set rfl rfl rfl rfl rfl rfl rfl rfl
      have hw₁ : Switched s { t with responseBytes := t.responseBytes + io.bytes } { up := 1 } :=
        ⟨hl₁, hw.shape, hw.connecting, hw.heads, hw.fault⟩
      obtain ⟨t', ht', hl', hsame', hs''⟩ := hl₁.startBackend (o := .onBackendTunnelRead) rfl
      rw [readFromBackend, ht']; exact hw₁.next hl' hsame' hs'' rfl
  | _ => simp [Op.line, Shape.get] at hpos

end Tunnel

end Proxy
end WebServer
