import WebServer.Proxy.Starts

/-!
# WebServer.Proxy.Attempts

The connections one transaction uses, and what is sent on them, in every run.

A second connection is made only after a pooled one failed before a byte of the request was reported
as written to it. `Attempts` ties the operations in flight to the connections; `sent_once` is what
follows for the request: it goes out on one connection, and its body is read from the client only
when that connection has taken the header.
-/

namespace WebServer
namespace Proxy

open Run

/-- The operations that come before anything of the request is sent. -/
def Op.early (op : Op) : Bool :=
  op.line = .acquire || op.line = .connect || op = .onRequestHeaderWritten

/-- The operations that follow the request header. -/
def Op.sending (op : Op) : Bool := op.line = .upload || op = .onContinueWritten

structure Attempts (s : State) : Prop where
  unconnected : ∀ op ∈ s.inFlight, op.line = .acquire → s.connections = []
  connected : ∀ op ∈ s.inFlight, op.line = .connect ∨ op = .onRequestHeaderWritten →
    s.connections ≠ []
  /-- nothing was read or reported while nothing was sent -/
  untouched : ∀ op ∈ s.inFlight, op.early = true →
    s.bodyReads = 0 ∧ ∀ k ∈ s.connections, k.written = 0
  pooled : s.backendFromPool = true → ∃ k, s.connections = [k]
  two : s.connections = [] ∨ (∃ k, s.connections = [k]) ∨
    ∃ k first, s.connections = [k, first] ∧ k.fromPool = false ∧ first.written = 0
  pending : ∀ k ∈ s.connections, k.pending = 0
  requested : (s.bodyReads ≠ 0 ∨ ∃ op ∈ s.inFlight, op.sending = true) →
    ∃ k older, s.connections = k :: older ∧ k.requested = true

theorem attempts_init (c : Config) : Attempts (State.init c) where
  unconnected := fun _ _ _ => rfl
  connected := by simp [State.init, Op.line]
  untouched := by simp [State.init]
  pooled := fun h => nomatch h
  two := .inl rfl
  pending := by simp [State.init]
  requested := by simp [State.init, Op.sending, Op.line]

/-! ## What is observed -/

section Observe

variable {s : State} {op : Op} {io : Io}

@[simp] theorem Connection.observe_fromPool (k : Connection) :
    (k.observe io op).fromPool = k.fromPool := by cases op <;> rfl

@[simp] theorem Connection.observe_pending (k : Connection) :
    (k.observe io op).pending = k.pending := by cases op <;> rfl

theorem Connection.observe_requested {k : Connection} (h : k.requested = true) :
    (k.observe io op).requested = true := by
  cases op <;> simp [Connection.observe, h]

/-- Only writes of the request are reported. -/
theorem Connection.observe_eq (k : Connection) (hop : op.line ≠ .upload)
    (hheader : op ≠ .onRequestHeaderWritten) : k.observe io op = k := by
  cases op <;> first | rfl | exact absurd rfl hop | exact absurd rfl hheader

theorem observe_connections (hop : op.line ≠ .upload) (hheader : op ≠ .onRequestHeaderWritten) :
    (s.observe op io).connections = s.connections := by
  have hid : (fun k : Connection => k.observe io op) = id :=
    funext fun k => k.observe_eq hop hheader
  simp [State.observe, hid]

theorem observe_bodyReads (hop : op.line ≠ .upload) : (s.observe op io).bodyReads = s.bodyReads := by
  have hne : op ≠ .onRequestBodyRead := fun h => hop (h ▸ rfl)
  simp [State.observe, hne]

end Observe

/-! ## Where operations come from -/

section Origins

variable {io : Io} {op next : Op} {started : List Op}

theorem starts_acquire (h : Starts io op started) (hm : next ∈ started)
    (hnext : next.line = .acquire) : op.line = .acquire := by
  have horigin := h.origin hm
  cases next with
  | startOnExecutor => exact horigin.elim
  | onBackendPermit => exact horigin ▸ rfl
  | _ => cases hnext

theorem starts_connect (h : Starts io op started) (hm : next ∈ started)
    (hnext : next.line = .connect ∨ next = .onRequestHeaderWritten) :
    op.line = .connect ∨ op = .onBackendPermit ∨ op = .onRequestHeaderWritten := by
  have horigin := h.origin hm
  cases next with
  | onResolved => exact .inr (horigin.imp_right And.left)
  | onConnect => exact .inl (horigin ▸ rfl)
  | onTlsHandshake => exact .inl (horigin ▸ rfl)
  | onRequestHeaderWritten =>
    rcases horigin with rfl | rfl | rfl
    · exact .inr (.inl rfl)
    · exact .inl rfl
    · exact .inl rfl
  | _ => simp [Op.line] at hnext

theorem starts_sending (h : Starts io op started) (hm : next ∈ started)
    (hnext : next.sending = true) :
    op.sending = true ∨ op = .onRequestHeaderWritten ∧ io.error = none := by
  have horigin := h.origin hm
  have hupload : op.line = .upload → op.sending = true := fun h => by simp [Op.sending, h]
  cases next with
  | onContinueWritten => exact .inr horigin
  | onRequestBodyRead =>
    rcases horigin with hline | ⟨rfl | rfl, herr⟩
    · exact .inl (hupload hline)
    · exact .inr ⟨rfl, herr⟩
    · exact .inl rfl
  | onRequestBodyWritten => exact .inl (hupload horigin)
  | onRequestBodyFinished => exact .inl (hupload horigin)
  | _ => simp [Op.sending, Op.line] at hnext

end Origins

/-! ## Steps -/

section Steps

variable {c : Config} {s t : State} {io : Io} {op : Op} {started : List Op}

theorem Op.early_front (h : op.early = true) : op.line.front = true := by
  cases op <;> first | rfl | cases h

/-- A timer or an error response reports nothing of the request. -/
theorem line_ne_of_aside (h : op.line = .timer ∨ op.line = .error) :
    op.line ≠ .upload ∧ op ≠ .onRequestHeaderWritten := by
  cases op <;> simp [Op.line] at h ⊢

/-- A completion that leads to no connection. -/
theorem Attempts.keep (h : Attempts s) (hn : Narrow (shapeOf s.inFlight)) (hm : op ∈ s.inFlight)
    (hs : Starts io op started) (hf : t.inFlight = started ++ s.inFlight.erase op)
    (hconn : t.connections = (s.observe op io).connections)
    (hreads : t.bodyReads = (s.observe op io).bodyReads)
    (hpool : t.backendFromPool = true → s.backendFromPool = true)
    (hnext : ∀ next ∈ started, next.line = .connect ∨ next = .onRequestHeaderWritten →
      op.line = .connect) : Attempts t := by
  have hmem : ∀ next ∈ t.inFlight, next ∈ started ∨ next ∈ s.inFlight.erase op := by
    intro next hnext
    rw [hf] at hnext
    exact List.mem_append.mp hnext
  have hmodify : t.connections = s.connections.modifyHead fun k => k.observe io op := hconn
  have hnil : s.connections = [] → t.connections = [] := by
    intro hs
    rw [hmodify, hs]
    rfl
  have hcons : ∀ k older, s.connections = k :: older →
      t.connections = k.observe io op :: older := by
    intro k older hs
    rw [hmodify, hs]
    rfl
  refine ⟨?_, ?_, ?_, ?_, ?_, ?_, ?_⟩
  · intro next hm' hline
    rcases hmem next hm' with hm' | hm'
    · exact hnil (h.unconnected op hm (starts_acquire hs hm' hline))
    · exact hnil (h.unconnected next (List.mem_of_mem_erase hm') hline)
  · intro next hm' hline
    have hne : s.connections ≠ [] := by
      rcases hmem next hm' with hm' | hm'
      · exact h.connected op hm (.inl (hnext next hm' hline))
      · exact h.connected next (List.mem_of_mem_erase hm') hline
    obtain ⟨k, older, hk⟩ := List.exists_cons_of_ne_nil hne
    rw [hcons k older hk]
    exact List.cons_ne_nil _ _
  · intro next hm' hearly
    -- what has completed is no write of the request, so nothing was observed
    have hquiet : op.line ≠ .upload → op ≠ .onRequestHeaderWritten →
        (s.bodyReads = 0 ∧ ∀ k ∈ s.connections, k.written = 0) →
        t.bodyReads = 0 ∧ ∀ k ∈ t.connections, k.written = 0 := by
      intro hline hheader hs
      rw [hreads, hconn, observe_bodyReads hline, observe_connections hline hheader]
      exact hs
    rcases hmem next hm' with hm' | hm'
    · have hop : op.line = .acquire ∨ op.line = .connect := by
        simp only [Op.early, Bool.or_eq_true, decide_eq_true_eq] at hearly
        rcases hearly with (hline | hline) | hheader
        · exact .inl (starts_acquire hs hm' hline)
        · exact .inr (hnext next hm' (.inl hline))
        · exact .inr (hnext next hm' (.inr hheader))
      refine hquiet ?_ ?_ (h.untouched op hm (by rcases hop with hop | hop <;> simp [Op.early, hop]))
      · rcases hop with hop | hop <;> simp [hop]
      · rintro rfl
        rcases hop with hop | hop <;> cases hop
    · obtain ⟨hline, hheader⟩ := line_ne_of_aside (hn.alone_left hm hm' (Op.early_front hearly))
      exact hquiet hline hheader (h.untouched next (List.mem_of_mem_erase hm') hearly)
  · intro hp
    obtain ⟨k, hk⟩ := h.pooled (hpool hp)
    exact ⟨_, hcons k [] hk⟩
  · rcases h.two with hk | ⟨k, hk⟩ | ⟨k, first, hk, hfresh, hfirst⟩
    · exact .inl (hnil hk)
    · exact .inr (.inl ⟨_, hcons k [] hk⟩)
    · exact .inr (.inr ⟨_, first, hcons k [first] hk, by simpa using hfresh, hfirst⟩)
  · intro k hk
    rcases h.two with hs | ⟨k', hs⟩ | ⟨k', first, hs, -, -⟩
    · rw [hnil hs] at hk
      cases hk
    · rw [hcons k' [] hs] at hk
      rw [List.mem_singleton.mp hk, Connection.observe_pending]
      exact h.pending k' (by simp [hs])
    · rw [hcons k' [first] hs] at hk
      rcases List.mem_pair.mp hk with rfl | rfl
      · rw [Connection.observe_pending]
        exact h.pending k' (by simp [hs])
      · exact h.pending k (by simp [hs])
  · intro hsent
    have hbefore : (s.bodyReads ≠ 0 ∨ ∃ op ∈ s.inFlight, op.sending = true) →
        ∃ k older, t.connections = k :: older ∧ k.requested = true := by
      intro hsent
      obtain ⟨k, older, hk, hrequested⟩ := h.requested hsent
      exact ⟨_, older, hcons k older hk, Connection.observe_requested hrequested⟩
    rcases hsent with hread | ⟨next, hm', hsending⟩
    · rw [hreads, State.observe] at hread
      by_cases hop : op = .onRequestBodyRead
      · exact hbefore (.inr ⟨op, hm, by rw [hop]; rfl⟩)
      · exact hbefore (.inl (by simpa [hop] using hread))
    · rcases hmem next hm' with hm' | hm'
      · rcases starts_sending hs hm' hsending with hop | ⟨rfl, herr⟩
        · exact hbefore (.inr ⟨op, hm, hop⟩)
        · obtain ⟨k, older, hk⟩ := List.exists_cons_of_ne_nil (h.connected _ hm (.inr rfl))
          exact ⟨_, older, hcons k older hk, by simp [Connection.observe, herr]⟩
      · exact hbefore (.inr ⟨next, List.mem_of_mem_erase hm', hsending⟩)

/-- A completion that leads to a new connection, on which nothing was sent yet. -/
theorem Attempts.opened (hn : Narrow (shapeOf s.inFlight)) (hm : op ∈ s.inFlight)
    (hfront : op.line.front = true) (hf : t.inFlight = started ++ s.inFlight.erase op)
    (hnext : ∀ next ∈ started, next.line ≠ .acquire ∧ next.sending = false)
    {k : Connection} {older : List Connection} (hconn : t.connections = k :: older)
    (hwritten : k.written = 0) (hpending : k.pending = 0) (hreads : t.bodyReads = 0)
    (hpool : t.backendFromPool = true → older = [])
    (holder : older = [] ∨ ∃ first, older = [first] ∧ k.fromPool = false ∧ first.written = 0 ∧
      first.pending = 0) : Attempts t := by
  have hline : ∀ next ∈ t.inFlight, next.line ≠ .acquire ∧ next.sending = false := by
    intro next hm'
    rw [hf] at hm'
    rcases List.mem_append.mp hm' with hm' | hm'
    · exact hnext next hm'
    · rcases hn.alone hm hfront hm' with hline | hline
      · cases next <;> simp [Op.line, Op.sending] at hline ⊢
      · cases next <;> simp [Op.line, Op.sending] at hline ⊢
  refine ⟨fun next hm' hacquire => absurd hacquire (hline next hm').1, ?_, ?_, ?_, ?_, ?_, ?_⟩
  · intro _ _ _
    rw [hconn]
    exact List.cons_ne_nil _ _
  · intro _ _ _
    refine ⟨hreads, ?_⟩
    rw [hconn]
    rcases holder with rfl | ⟨first, rfl, -, hfirst, -⟩
    · simpa using hwritten
    · simpa using ⟨hwritten, hfirst⟩
  · intro hp
    exact ⟨k, by rw [hconn, hpool hp]⟩
  · rcases holder with rfl | ⟨first, rfl, hfresh, hfirst, -⟩
    · exact .inr (.inl ⟨k, hconn⟩)
    · exact .inr (.inr ⟨k, first, hconn, hfresh, hfirst⟩)
  · rw [hconn]
    rcases holder with rfl | ⟨first, rfl, -, -, hfirst⟩
    · simpa using hpending
    · simpa using ⟨hpending, hfirst⟩
  · rintro (hread | ⟨next, hm', hsending⟩)
    · exact absurd hreads hread
    · exact absurd hsending (by simp [(hline next hm').2])

/-- An operation in front is the only one the counters count. -/
theorem front_pending {s : State} (hc : Counted s) (hn : Narrow (shapeOf s.inFlight))
    (hm : op ∈ s.inFlight) (hfront : op.line.front = true) :
    s.backendOperationsPending = if op.side = .backend then 1 else 0 := by
  have hrest : sideCount .backend (s.inFlight.erase op) = 0 := by
    refine sideCount_eq_zero fun other hother => ?_
    rcases hn.alone hm hfront hother with hline | hline
    · cases other <;> simp [Op.line, Op.side] at hline ⊢
    · cases other <;> simp [Op.line, Op.side] at hline ⊢
  have hcount : sideCount .backend s.inFlight = sideCount .backend (op :: s.inFlight.erase op) :=
    (List.perm_cons_erase hm).countP_eq _
  rw [hc.backend, hcount, sideCount_cons, hrest, Nat.zero_add]

theorem Mode.counted (h : Mode s) : Counted s := by
  cases h with
  | acquiring hc => exact hc
  | connecting h => exact h.counted
  | setup h => exact h.counted
  | awaiting u h => exact h.counted
  | relaying u h => exact h.counted
  | switching h => exact h.counted
  | tunnelling h => exact h.counted
  | failing a b u e h => exact h.counted
  | draining d h => exact h.counted
  | done r hc => exact hc

/-- A permit that is still used finds no stream. -/
theorem Mode.unconnected (h : Mode s) (hm : .onBackendPermit ∈ s.inFlight)
    (hr : s.completed = false) : s.backendStream = false := by
  have hpos := get_pos_of_mem hm
  have hstop : Stoppable s → s.backendStream = false := by
    intro h
    simp [Op.line, Shape.get, h.acquire] at hpos
  cases h with
  | acquiring hc hs hu hstream => exact hstream
  | connecting h hs => simp [hs, Op.line, Shape.get] at hpos
  | setup h hs => simp [hs, Op.line, Shape.get] at hpos
  | awaiting u h hs => simp [hs, Op.line, Shape.get] at hpos
  | relaying u h hs => simp [hs, Op.line, Shape.get] at hpos
  | switching h hs => simp [hs, Op.line, Shape.get] at hpos
  | tunnelling h hs => simp [hs, Op.line, Shape.get] at hpos
  | failing a b u e h => exact hstop h
  | draining d h => exact hstop h
  | done r hc hcl hb hdone => exact absurd (hr.symm.trans hdone) (by simp)

theorem attempts_permit (h : Attempts s) (hmode : Mode s) (hn : Narrow (shapeOf s.inFlight))
    (hm : .onBackendPermit ∈ s.inFlight) : Attempts
      (handle c ((s.observe .onBackendPermit io).taken .onBackendPermit) io .onBackendPermit) := by
  rcases onBackendPermit_cases c ((s.observe .onBackendPermit io).taken .onBackendPermit)
    io with
    hd | hd | ⟨hr, hstream, -⟩ | ⟨started, fromPool, hs, hd⟩
  · exact h.keep hn hm (.nothing _) hd.inFlight hd.connections hd.bodyReads
      (fun hp => hd.fromPool.symm.trans hp) nofun
  · exact h.keep hn hm (.error rfl) hd.inFlight hd.connections hd.bodyReads
      (fun hp => hd.fromPool.symm.trans hp) (by simp [Op.line])
  · exact absurd ((hmode.unconnected hm hr).symm.trans hstream) (by simp)
  · have hnil : s.connections = [] := h.unconnected _ hm rfl
    have hobserved : (s.observe .onBackendPermit io).connections = [] := by
      simp [State.observe, hnil]
    have hconn := hd.connections.trans (congrArg (List.cons _) hobserved)
    refine Attempts.opened hn hm rfl hd.inFlight ?_ hconn rfl ?_ ?_ (fun _ => rfl) (.inl rfl)
    · intro next hm'
      refine ⟨fun hline => ?_, ?_⟩
      · have horigin := hs.origin hm'
        cases next with
        | onBackendPermit => cases horigin
        | startOnExecutor => exact horigin
        | _ => cases hline
      · by_contra hsending
        rcases starts_sending hs hm' (by simpa using hsending) with hop | ⟨hop, -⟩ <;> cases hop
    · exact front_pending hmode.counted hn hm rfl
    · exact hd.bodyReads.trans (h.untouched _ hm rfl).1

theorem attempts_requestHeader (h : Attempts s) (hmode : Mode s) (hn : Narrow (shapeOf s.inFlight))
    (hm : .onRequestHeaderWritten ∈ s.inFlight) : Attempts
      (handle c ((s.observe .onRequestHeaderWritten io).taken .onRequestHeaderWritten) io
        .onRequestHeaderWritten) := by
  rcases onRequestHeaderWritten_cases c
    ((s.observe .onRequestHeaderWritten io).taken .onRequestHeaderWritten) io with
    hd | hd | ⟨herr, started, hs, hd⟩ | ⟨herr, hpool, hbytes, started, hs, hd⟩
  · exact h.keep hn hm (.nothing _) hd.inFlight hd.connections hd.bodyReads
      (fun hp => hd.fromPool.symm.trans hp) nofun
  · exact h.keep hn hm (.error rfl) hd.inFlight hd.connections hd.bodyReads
      (fun hp => hd.fromPool.symm.trans hp) (by simp [Op.line])
  · refine h.keep hn hm hs hd.inFlight hd.connections hd.bodyReads
      (fun hp => absurd (hd.fromPool.symm.trans hp) (by simp)) ?_
    intro next hm' hnext
    -- a write that succeeded is not repeated
    have horigin := hs.origin hm'
    cases next with
    | onResolved =>
      rcases horigin with hop | ⟨-, hfailed⟩
      · cases hop
      · exact absurd herr hfailed
    | onConnect => cases horigin
    | onTlsHandshake => cases horigin
    | onRequestHeaderWritten => rcases horigin with hop | hop | hop <;> cases hop
    | _ => simp [Op.line] at hnext
  · obtain ⟨first, hfirst⟩ := h.pooled hpool
    obtain ⟨hreads, hwritten⟩ := h.untouched _ hm rfl
    have hobserved : (s.observe .onRequestHeaderWritten io).connections =
        [first.observe io .onRequestHeaderWritten] := by simp [State.observe, hfirst]
    have hconn := hd.connections.trans (congrArg (List.cons _) hobserved)
    refine Attempts.opened hn hm rfl hd.inFlight ?_ hconn rfl ?_ ?_ ?_ (.inr ⟨_, rfl, rfl, ?_, ?_⟩)
    · intro next hm'
      refine ⟨fun hline => ?_, ?_⟩
      · exact absurd (starts_acquire hs hm' hline) (by simp [Op.line])
      · by_contra hsending
        rcases starts_sending hs hm' (by simpa using hsending) with hop | ⟨-, hok⟩
        · cases hop
        · exact herr hok
    · show s.backendOperationsPending - 1 = 0
      rw [front_pending hmode.counted hn hm rfl]
      rfl
    · exact hd.bodyReads.trans hreads
    · intro hp
      exact absurd (hd.fromPool.symm.trans hp) (by simp [State.opened])
    · simp [Connection.observe, hbytes, hwritten first (by simp [hfirst])]
    · simpa using h.pending first (by simp [hfirst])

theorem attempts_step {s' : State} {e : Event} (h : Attempts s) (hmode : Mode s)
    (hn : Narrow (shapeOf s.inFlight)) (hs : step c s e = some s') : Attempts s' := by
  cases e with
  | cancel =>
    cases hs
    have hd := does_cancelOnExecutor s
    have hinFlight : (cancelOnExecutor s).inFlight = s.inFlight := hd.inFlight
    exact ⟨by rw [hinFlight, hd.connections]; exact h.unconnected,
      by rw [hinFlight, hd.connections]; exact h.connected,
      by rw [hinFlight, hd.connections, hd.bodyReads]; exact h.untouched,
      by rw [hd.fromPool, hd.connections]; exact h.pooled, by rw [hd.connections]; exact h.two,
      by rw [hd.connections]; exact h.pending,
      by rw [hinFlight, hd.connections, hd.bodyReads]; exact h.requested⟩
  | complete op io =>
    obtain ⟨hm, rfl⟩ := step_complete hs
    by_cases hpermit : op = .onBackendPermit
    · subst hpermit
      exact attempts_permit h hmode hn hm
    by_cases hheader : op = .onRequestHeaderWritten
    · subst hheader
      exact attempts_requestHeader h hmode hn hm
    -- no other handler takes a connection into use
    obtain ⟨started, hstarts, hinFlight, hconn, hreads, hpool⟩ :=
      handle_connections c ((s.observe op io).taken op) io hpermit hheader
    refine h.keep hn hm hstarts hinFlight hconn hreads (fun hp => hpool.symm.trans hp) ?_
    intro next hm' hnext
    exact (starts_connect hstarts hm' hnext).resolve_right (by simp [hpermit, hheader])

end Steps

/-- In every run the request is sent at most once: at most two connections are used, a second one
is not from the pool, at most one had a byte of the request reported as written, each was taken into
use with nothing left in flight on the backend, and a read of the body is only ever started when the
connection in use then, and to the end, has taken the header. -/
theorem sent_once {c : Config} {es : List Event} {s : State}
    (hrun : run (step c) (State.init c) es = some s) :
    s.connections.length ≤ 2 ∧ (∀ k ∈ s.connections.dropLast, k.fromPool = false) ∧
      s.connections.countP (fun k => k.written ≠ 0) ≤ 1 ∧ (∀ k ∈ s.connections, k.pending = 0) ∧
      (s.bodyReads ≠ 0 ∨ .onRequestBodyRead ∈ s.inFlight →
        ∃ k older, s.connections = k :: older ∧ k.requested = true) := by
  have hinv : Mode s ∧ Narrow (shapeOf s.inFlight) ∧ Attempts s :=
    run_inv (P := fun s => Mode s ∧ Narrow (shapeOf s.inFlight) ∧ Attempts s)
      (fun s e s' h hs => ⟨(next_step h.1 hs).mode, narrow_step h.2.1 hs,
        attempts_step h.2.2 h.1 h.2.1 hs⟩)
      ⟨mode_init c, narrow_init c, attempts_init c⟩ hrun
  have h := hinv.2.2
  have hreads : s.bodyReads ≠ 0 ∨ .onRequestBodyRead ∈ s.inFlight →
      ∃ k older, s.connections = k :: older ∧ k.requested = true := by
    rintro (hread | hm)
    · exact h.requested (.inl hread)
    · exact h.requested (.inr ⟨_, hm, rfl⟩)
  rcases h.two with hk | ⟨k, hk⟩ | ⟨k, first, hk, hfresh, hfirst⟩
  · exact ⟨by simp [hk], by simp [hk], by simp [hk], h.pending, hreads⟩
  · refine ⟨by simp [hk], by simp [hk], ?_, h.pending, hreads⟩
    rw [hk]
    exact le_trans List.countP_le_length (le_refl 1)
  · refine ⟨by simp [hk], by simp [hk, hfresh], ?_, h.pending, hreads⟩
    have hcount : [first].countP (fun k => k.written ≠ 0) = 0 := by simp [hfirst]
    rw [hk, List.countP_cons, hcount]
    split <;> simp

/-- A pooled connection that was closed by the backend, and the request on a new one. -/
def stalePool : List Event :=
  [.complete .startOnExecutor {}, .complete .onBackendPermit { pooled := true },
    .complete .onRequestHeaderWritten { error := some .other }, .complete .onResolved {},
    .complete .onConnect {}, .complete .onRequestHeaderWritten { bytes := 80 },
    .complete .onRequestBodyRead { produced := 5, clientDone := true },
    .complete .onRequestBodyWritten { bytes := 5 }]

theorem sent_once_stalePool :
    ∃ s, run (step { backendKeepAlive := true }) (State.init { backendKeepAlive := true }) stalePool =
        some s ∧
      s.connections = [⟨false, 0, 85, true⟩, ⟨true, 0, 0, false⟩] ∧ s.connections.length ≤ 2 ∧
      s.connections.countP (fun k => k.written ≠ 0) ≤ 1 := by
  have hconnections : (run (step { backendKeepAlive := true })
      (State.init { backendKeepAlive := true }) stalePool).map (·.connections) =
        some [⟨false, 0, 85, true⟩, ⟨true, 0, 0, false⟩] := by decide
  obtain ⟨s, hrun, hs⟩ := Option.map_eq_some_iff.mp hconnections
  have h := sent_once hrun
  exact ⟨s, hrun, hs, h.1, h.2.2.1⟩

end Proxy
end WebServer
