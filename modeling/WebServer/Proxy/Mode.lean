import WebServer.Proxy.Transaction
import Mathlib.Data.List.Basic

/-!
# WebServer.Proxy.Mode

The shapes a transaction can be in, over any order and outcome of completions.

Every operation belongs to one `Line` of work: connecting, waiting for the response header,
relaying the response, uploading the body and so on. `Shape` counts the operations in flight on
each line, and `Mode` says which shapes go with which flags. Between two handlers a transaction
is always in one of the modes (`mode_step`), whatever the completions report.
-/

namespace WebServer
namespace Proxy

/-! ## Lines of work -/

inductive Line where
  | timer
  | acquire
  | connect
  | setup
  | switching
  | header
  | relay
  | upload
  | up
  | down
  | error
  deriving DecidableEq, Repr

def Op.line : Op → Line
  | .onConnectTimeout => .timer
  | .startOnExecutor | .onBackendPermit => .acquire
  | .onResolved | .onConnect | .onTlsHandshake => .connect
  | .onRequestHeaderWritten | .onContinueWritten | .onUpgradeResponse => .setup
  | .onUpgradeWritten | .onClientBufferFlushed | .onBackendBufferFlushed => .switching
  | .onResponseHeader => .header
  | .onHeaderWritten | .onBodyRead | .onBodyWritten => .relay
  | .onRequestBodyRead | .onRequestBodyWritten | .onRequestBodyFinished => .upload
  | .onClientTunnelRead | .onBackendTunnelWritten => .up
  | .onBackendTunnelRead | .onClientTunnelWritten => .down
  | .onErrorWritten => .error

/-- How many operations are in flight on each line; the timer is left out. -/
structure Shape where
  acquire : Nat := 0
  connect : Nat := 0
  setup : Nat := 0
  switching : Nat := 0
  header : Nat := 0
  relay : Nat := 0
  upload : Nat := 0
  up : Nat := 0
  down : Nat := 0
  error : Nat := 0
  deriving DecidableEq, Repr

def Shape.modify (t : Shape) (f : Nat → Nat) : Line → Shape
  | .timer => t
  | .acquire => { t with acquire := f t.acquire }
  | .connect => { t with connect := f t.connect }
  | .setup => { t with setup := f t.setup }
  | .switching => { t with switching := f t.switching }
  | .header => { t with header := f t.header }
  | .relay => { t with relay := f t.relay }
  | .upload => { t with upload := f t.upload }
  | .up => { t with up := f t.up }
  | .down => { t with down := f t.down }
  | .error => { t with error := f t.error }

/-- The count of a line; the timer's does not matter. -/
def Shape.get (t : Shape) : Line → Nat
  | .timer => 1
  | .acquire => t.acquire
  | .connect => t.connect
  | .setup => t.setup
  | .switching => t.switching
  | .header => t.header
  | .relay => t.relay
  | .upload => t.upload
  | .up => t.up
  | .down => t.down
  | .error => t.error

def shapeOf : List Op → Shape
  | [] => {}
  | op :: ops => (shapeOf ops).modify (· + 1) op.line

theorem get_pos_of_mem {op : Op} {ops : List Op} (h : op ∈ ops) : 1 ≤ (shapeOf ops).get op.line := by
  induction ops with
  | nil => cases h
  | cons a ops ih =>
    simp only [shapeOf]
    rcases List.mem_cons.mp h with rfl | h
    · cases op.line <;> simp [Shape.modify, Shape.get]
    · refine Nat.le_trans (ih h) ?_
      cases a.line <;> cases op.line <;> simp [Shape.modify, Shape.get]

theorem shapeOf_erase {op : Op} {ops : List Op} (h : op ∈ ops) :
    shapeOf (ops.erase op) = (shapeOf ops).modify (· - 1) op.line := by
  induction ops with
  | nil => cases h
  | cons a ops ih =>
    by_cases ha : a = op
    · subst ha
      rw [List.erase_cons_head]
      simp only [shapeOf]
      cases a.line <;> simp [Shape.modify]
    · have hm : op ∈ ops := (List.mem_cons.mp h).resolve_left (Ne.symm ha)
      have hpos := get_pos_of_mem hm
      rw [List.erase_cons_tail (by simpa using ha)]
      simp only [shapeOf, ih hm]
      cases ho : op.line <;> rw [ho] at hpos <;> cases a.line <;>
        simp only [Shape.modify, Shape.get] at hpos ⊢ <;> congr 1 <;> omega

/-! ## The counters -/

def sideCount (d : Side) (ops : List Op) : Nat := ops.countP (·.side = d)

theorem sideCount_eq_zero {d : Side} {ops : List Op} (h : ∀ op ∈ ops, op.side ≠ d) :
    sideCount d ops = 0 := by
  rw [sideCount, List.countP_eq_zero]
  intro op hop; simpa using h op hop

theorem sideCount_pos {op : Op} {ops : List Op} (h : op ∈ ops) : 1 ≤ sideCount op.side ops :=
  List.countP_pos_iff.mpr ⟨op, h, by simp⟩

theorem sideCount_cons (d : Side) (op : Op) (ops : List Op) :
    sideCount d (op :: ops) = sideCount d ops + if op.side = d then 1 else 0 := by
  simp [sideCount, List.countP_cons]

theorem sideCount_erase {op : Op} {ops : List Op} (h : op ∈ ops) (d : Side) :
    sideCount d (ops.erase op) = sideCount d ops - if op.side = d then 1 else 0 := by
  have hp : sideCount d ops = sideCount d (op :: ops.erase op) :=
    (List.perm_cons_erase h).countP_eq _
  rw [sideCount_cons] at hp
  omega

structure Counted (s : State) : Prop where
  client : s.clientOperationsPending = sideCount .client s.inFlight
  backend : s.backendOperationsPending = sideCount .backend s.inFlight

/-- Only the acquire, the timer and error responses are in flight. -/
theorem backend_idle {ops : List Op} {a e : Nat} (h : shapeOf ops = { acquire := a, error := e }) :
    sideCount .backend ops = 0 := by
  refine sideCount_eq_zero fun op hop => ?_
  have hpos := get_pos_of_mem hop
  rw [h] at hpos
  cases op <;> simp [Op.line, Shape.get] at hpos <;> simp [Op.side]

theorem client_idle {ops : List Op} {a : Nat} (h : shapeOf ops = { acquire := a }) :
    sideCount .client ops = 0 := by
  refine sideCount_eq_zero fun op hop => ?_
  have hpos := get_pos_of_mem hop
  rw [h] at hpos
  cases op <;> simp [Op.line, Shape.get] at hpos <;> simp [Op.side]

/-- No response is being sent. -/
theorem not_responding {ops : List Op} (hs : (shapeOf ops).switching = 0)
    (hr : (shapeOf ops).relay = 0) (he : (shapeOf ops).error = 0) :
    ops.any (·.responding) = false := by
  rw [List.any_eq_false]
  intro op hop
  have hpos := get_pos_of_mem hop
  cases op <;> simp only [Op.line, Shape.get] at hpos <;> first | omega | simp [Op.responding]

/-! ## What the small operations change -/

section Small

variable (s : State)

theorem withBackend_eq : ∃ f, withBackend s = { s with fault := f } ∧
    (s.backendStream = true → f = s.fault) := by
  unfold withBackend
  split
  · exact ⟨s.fault, rfl, fun _ => rfl⟩
  · rename_i h; exact ⟨true, rfl, fun h' => absurd h' h⟩

theorem maybeReleaseClosedBackend_eq : ∃ b, maybeReleaseClosedBackend s = { s with backendStream := b } ∧
    (s.backendCloseRequested = false → b = s.backendStream) ∧
    (s.backendOperationsPending ≠ 0 → b = s.backendStream) := by
  unfold maybeReleaseClosedBackend
  split
  · rename_i h; exact ⟨false, rfl, fun h' => by simp [h'] at h, fun h' => absurd h.2 h'⟩
  · exact ⟨s.backendStream, rfl, fun _ => rfl, fun _ => rfl⟩

theorem closeBackend_eq : ∃ b c, closeBackend s = { s with
      backendStream := b, backendCloseRequested := c } ∧
    (s.backendStream = true ∨ s.backendCloseRequested = true → c = true) := by
  unfold closeBackend
  split
  · obtain ⟨b, hb, -⟩ := maybeReleaseClosedBackend_eq { s with backendCloseRequested := true }
    exact ⟨b, true, hb, fun _ => rfl⟩
  · rename_i h
    exact ⟨s.backendStream, s.backendCloseRequested, rfl, fun hc => hc.resolve_left h⟩

theorem finishBackendOperation_eq : ∃ b, finishBackendOperation s = { s with
      backendOperationsPending := s.backendOperationsPending - 1, backendStream := b } ∧
    (s.backendCloseRequested = false → b = s.backendStream) ∧
    (s.backendOperationsPending - 1 ≠ 0 → b = s.backendStream) :=
  maybeReleaseClosedBackend_eq { s with backendOperationsPending := s.backendOperationsPending - 1 }

theorem startBackendOperation_eq (op : Op) : ∃ f, startBackendOperation s op = { s with
      backendOperationsPending := s.backendOperationsPending + 1
      inFlight := op :: s.inFlight
      fault := f } ∧ (s.backendStream = true → f = s.fault) :=
  withBackend_eq { s with
    backendOperationsPending := s.backendOperationsPending + 1, inFlight := op :: s.inFlight }

/-- `expire_backend_after` and the operation that follows it. -/
theorem expire_start_eq (op : Op) : ∃ f, startBackendOperation (expireBackendAfter s) op = { s with
      backendOperationsPending := s.backendOperationsPending + 1
      inFlight := op :: s.inFlight
      fault := f } ∧ (s.backendStream = true → f = s.fault) := by
  obtain ⟨f, hf, hff⟩ := withBackend_eq s
  obtain ⟨g, hg, hgg⟩ := startBackendOperation_eq { s with fault := f } op
  refine ⟨g, ?_, fun h => (hgg h).trans (hff h)⟩
  rw [expireBackendAfter, hf, hg]

/-- `with_backend` without a stream is a fault. -/
theorem expire_start_fault (op : Op) :
    (startBackendOperation (expireBackendAfter s) op).fault = (s.fault || !s.backendStream) := by
  cases hstream : s.backendStream <;>
    simp [startBackendOperation, expireBackendAfter, withBackend, hstream]

variable {s}

theorem fail_eq (h : s.completed = false) (error : Error) (io : Io) :
    ∃ status n, fail s error io = sendError { s with connecting := false } status n io := by
  cases error <;> simp only [fail, h, Bool.false_eq_true, if_false] <;> exact ⟨_, _, rfl⟩

end Small

/-! ## The counters follow the operations -/

section Counting

variable {s : State} {o : Op}

/-- The state a handler starts in: its operation is no longer in flight. -/
def State.taken (s : State) (o : Op) : State := { s with inFlight := s.inFlight.erase o }

theorem Counted.congr {s' : State} (h : Counted s) (hf : s'.inFlight = s.inFlight)
    (hc : s'.clientOperationsPending = s.clientOperationsPending)
    (hb : s'.backendOperationsPending = s.backendOperationsPending) : Counted s' :=
  ⟨by rw [hc, hf]; exact h.client, by rw [hb, hf]; exact h.backend⟩

theorem Counted.begin {s' : State} (h : Counted s) (hop : o.side = .uncounted)
    (hf : s'.inFlight = o :: s.inFlight)
    (hc : s'.clientOperationsPending = s.clientOperationsPending)
    (hb : s'.backendOperationsPending = s.backendOperationsPending) : Counted s' :=
  ⟨by rw [hc, hf, sideCount_cons, hop]; exact h.client,
    by rw [hb, hf, sideCount_cons, hop]; exact h.backend⟩

theorem Counted.startClient {s' : State} (h : Counted s) (hop : o.side = .client)
    (hf : s'.inFlight = o :: s.inFlight)
    (hc : s'.clientOperationsPending = s.clientOperationsPending + 1)
    (hb : s'.backendOperationsPending = s.backendOperationsPending) : Counted s' :=
  ⟨by rw [hc, hf, sideCount_cons, hop, h.client]; rfl,
    by rw [hb, hf, sideCount_cons, hop]; exact h.backend⟩

theorem Counted.startBackend {s' : State} (h : Counted s) (hop : o.side = .backend)
    (hf : s'.inFlight = o :: s.inFlight)
    (hc : s'.clientOperationsPending = s.clientOperationsPending)
    (hb : s'.backendOperationsPending = s.backendOperationsPending + 1) : Counted s' :=
  ⟨by rw [hc, hf, sideCount_cons, hop]; exact h.client,
    by rw [hb, hf, sideCount_cons, hop, h.backend]; rfl⟩

theorem Counted.taken (h : Counted s) (hm : o ∈ s.inFlight) (hop : o.side = .uncounted) :
    Counted (s.taken o) := by
  refine ⟨?_, ?_⟩ <;> simp only [State.taken, sideCount_erase hm, hop]
  · exact h.client
  · exact h.backend

theorem Counted.finishClient (h : Counted s) (hm : o ∈ s.inFlight) (hop : o.side = .client) :
    Counted (finishClientOperation (s.taken o)) := by
  refine ⟨?_, ?_⟩ <;> simp only [finishClientOperation, State.taken, sideCount_erase hm, hop]
  · rw [h.client]; rfl
  · exact h.backend

theorem Counted.finishBackend (h : Counted s) (hm : o ∈ s.inFlight) (hop : o.side = .backend) :
    Counted (finishBackendOperation (s.taken o)) := by
  obtain ⟨b, hb, -⟩ := finishBackendOperation_eq (s.taken o)
  rw [hb]
  refine ⟨?_, ?_⟩ <;> simp only [State.taken, sideCount_erase hm, hop]
  · exact h.client
  · rw [h.backend]; rfl

end Counting

/-! ## The modes -/

/-- The backend stream is engaged, nothing is closing and nothing has finished. -/
structure Live (s : State) : Prop where
  counted : Counted s
  stream : s.backendStream = true
  closeRequested : s.backendCloseRequested = false
  deferred : s.deferredFinish = none
  completed : s.completed = false
  completions : s.completions = []

/-- The flags before the response header is awaited. -/
structure Unasked (s : State) : Prop where
  started : s.responseHeaderStarted = false
  stop : s.stopRequestUpload = false
  upload : s.requestUploadComplete = false
  heads : s.heads = []

/-- The backend was closed: its stream is kept as long as an operation on it is pending. -/
structure Closed (s : State) : Prop where
  requested : s.backendCloseRequested = true
  stream : s.fault = false → s.backendStream = decide (s.backendOperationsPending ≠ 0)

/-- Nothing waits for a permit or a connection, and nothing has finished. -/
structure Stoppable (s : State) : Prop where
  counted : Counted s
  acquire : (shapeOf s.inFlight).acquire = 0
  connecting : s.connecting = false
  completed : s.completed = false
  completions : s.completions = []

/-- A call of `completion_` with nothing in flight and the permit dropped. -/
def Completed.Quiet (r : Completed) : Prop :=
  r.clientOperationsPending = 0 ∧ r.backendOperationsPending = 0 ∧ r.permit = false

inductive Mode (s : State) : Prop where
  | acquiring (hc : Counted s) (hs : shapeOf s.inFlight = { acquire := 1 }) (hu : Unasked s)
      (hstream : s.backendStream = false) (hconn : s.connecting = false)
      (hd : s.deferredFinish = none) (hr : s.completed = false) (hn : s.completions = [])
  | connecting (h : Live s) (hs : shapeOf s.inFlight = { connect := 1 }) (hu : Unasked s)
      (hconn : s.connecting = true)
  | setup (h : Live s) (hs : shapeOf s.inFlight = { setup := 1 }) (hu : Unasked s)
      (hconn : s.connecting = false)
  | awaiting (u : Nat) (h : Live s) (hs : shapeOf s.inFlight = { header := 1, upload := u })
      (hconn : s.connecting = false) (hu : u ≤ 1) (hstop : s.stopRequestUpload = false)
      (hup : s.requestUploadComplete = true → u = 0) (hh : s.heads = [])
  /-- the backend answered before the upload was complete, or the upload is over -/
  | relaying (u : Nat) (h : Live s) (hs : shapeOf s.inFlight = { relay := 1, upload := u })
      (hconn : s.connecting = false) (hstop : s.stopRequestUpload = s.earlyBackendResponse)
      (hup : s.earlyBackendResponse = false → s.requestUploadComplete = true ∧ u = 0)
  | switching (h : Live s) (hs : shapeOf s.inFlight = { switching := 1 })
      (hconn : s.connecting = false)
  | tunnelling (h : Live s) (hs : shapeOf s.inFlight = { up := 1, down := 1 })
      (hconn : s.connecting = false)
  /-- an error response is being written; operations on the closed backend may be left -/
  | failing (a b u e : Nat) (h : Stoppable s)
      (hs : shapeOf s.inFlight = { connect := a, header := b, upload := u, error := e })
      (hclosed : Closed s ∨ a = 0 ∧ b = 0 ∧ u = 0)
      (hd : s.deferredFinish = none)
  /-- the finish waits for the operations in flight -/
  | draining (d : DeferredFinish) (h : Stoppable s) (hd : s.deferredFinish = some d)
      (hp : s.clientOperationsPending ≠ 0 ∨ s.backendOperationsPending ≠ 0)
      (hclosed : s.backendCloseRequested = true ∨ s.backendOperationsPending = 0)
  | done (r : Completed) (hc : Counted s) (hcl : s.clientOperationsPending = 0)
      (hb : s.backendOperationsPending = 0) (hr : s.completed = true) (hp : s.permit = false)
      (hn : s.completions = [r]) (hq : r.Quiet)

theorem mode_init (c : Config) : Mode (State.init c) :=
  .acquiring ⟨rfl, rfl⟩ rfl ⟨rfl, rfl, rfl, rfl⟩ rfl rfl rfl rfl rfl

/-- What is observed of the connections plays no part in the modes. -/
theorem Mode.observe {s : State} (h : Mode s) (op : Op) (io : Io) : Mode (s.observe op io) := by
  have hlive : Live s → Live (s.observe op io) := fun h => ⟨⟨h.counted.client, h.counted.backend⟩,
    h.stream, h.closeRequested, h.deferred, h.completed, h.completions⟩
  have hstop : Stoppable s → Stoppable (s.observe op io) := fun h =>
    ⟨⟨h.counted.client, h.counted.backend⟩, h.acquire, h.connecting, h.completed, h.completions⟩
  have hasked : Unasked s → Unasked (s.observe op io) := fun h =>
    ⟨h.started, h.stop, h.upload, h.heads⟩
  cases h with
  | acquiring hc hs hu hstream hconn hd hr hn =>
    exact .acquiring ⟨hc.client, hc.backend⟩ hs (hasked hu) hstream hconn hd hr hn
  | connecting h hs hu hconn => exact .connecting (hlive h) hs (hasked hu) hconn
  | setup h hs hu hconn => exact .setup (hlive h) hs (hasked hu) hconn
  | awaiting u h hs hconn hu hstop' hup hh =>
    exact .awaiting u (hlive h) hs hconn hu hstop' hup hh
  | relaying u h hs hconn hstop' hup => exact .relaying u (hlive h) hs hconn hstop' hup
  | switching h hs hconn => exact .switching (hlive h) hs hconn
  | tunnelling h hs hconn => exact .tunnelling (hlive h) hs hconn
  | failing a b u e h hs hclosed hd =>
    exact .failing a b u e (hstop h) hs (hclosed.imp_left fun h => ⟨h.requested, h.stream⟩) hd
  | draining d h hd hp hclosed => exact .draining d (hstop h) hd hp hclosed
  | done r hc hcl hb hr hp hn hq => exact .done r ⟨hc.client, hc.backend⟩ hcl hb hr hp hn hq

/-! ## Which completions are harmless -/

/-- The guard of the upload handlers lets a completion through. -/
def State.uploading (s : State) : Bool :=
  !s.deferredFinish.isSome && !s.completed && !s.stopRequestUpload

/-- An upload completion does not report an error once the backend was closed for an error
response, and no write between the 101 and the tunnel fails. -/
def calm (s : State) : Event → Bool
  | .complete .onRequestBodyRead io =>
    !(s.uploading && s.backendCloseRequested) || io.error = none || io.error = some .needBuffer
  | .complete .onRequestBodyWritten io =>
    !(s.uploading && s.backendCloseRequested) || io.error = none
  | .complete .onRequestBodyFinished io =>
    !(s.uploading && s.backendCloseRequested) || io.error = none
  | .complete .onUpgradeWritten io => s.finishing || io.error = none
  | .complete .onClientBufferFlushed io => s.finishing || io.error = none
  | .complete .onBackendBufferFlushed io => s.finishing || io.error = none
  | _ => true

/-- An upload completion passes its guard and goes on to write to the backend. -/
def State.writesOn (s : State) (c : Config) : Event → Bool
  | .complete .onRequestBodyRead io =>
    s.uploading && (io.error = none || io.error = some .needBuffer) &&
      (io.produced ≠ 0 || (io.clientDone && c.chunked))
  | .complete .onRequestBodyWritten io =>
    s.uploading && io.error = none && s.requestBodyDone && c.chunked
  | _ => false

/-- The operations on the backend that are pending beside the one that completes. -/
def State.backendLeft (s : State) : Event → Nat
  | .complete op _ => s.backendOperationsPending - if op.side = .backend then 1 else 0
  | .cancel => s.backendOperationsPending

/-- An upload that goes on after the backend was closed finds another operation on it pending. -/
def safe (c : Config) (s : State) (e : Event) : Bool :=
  !(s.writesOn c e && s.backendCloseRequested) || s.backendLeft e ≠ 0

/-- What a step does, beside keeping the modes: the heads it starts and the faults it makes. -/
structure Next (c : Config) (s : State) (e : Event) (s' : State) : Prop where
  mode : Mode s'
  heads : calm s e = true →
    s'.heads = s.heads ∨ s.heads = [] ∧ ∃ status, s'.heads = [⟨status, false⟩]
  fault : safe c s e = true → s'.fault = s.fault

/-! ## Ends of a handler -/

section Ends

variable {c : Config} {s t : State} {e : Event}

/-- A step that starts no response head and makes no fault. -/
theorem Next.quiet (hm : Mode t) (hh : t.heads = s.heads) (hf : t.fault = s.fault) : Next c s e t :=
  ⟨hm, fun _ => .inl hh, fun _ => hf⟩

theorem Closed.closeBackend (h : t.backendStream = true ∨ Closed t) : Closed (closeBackend t) := by
  unfold Proxy.closeBackend maybeReleaseClosedBackend
  split
  · simp only [true_and]
    split
    · rename_i hidle
      exact ⟨rfl, fun _ => by simp [hidle]⟩
    · rename_i hstream hbusy
      exact ⟨rfl, fun _ => by simp [hstream, hbusy]⟩
  · rename_i hstream
    exact h.resolve_left hstream

theorem Closed.finishBackend (h : Closed t) : Closed (finishBackendOperation t) := by
  unfold finishBackendOperation maybeReleaseClosedBackend
  split
  · rename_i hidle
    have hleft : t.backendOperationsPending - 1 = 0 := hidle.2
    exact ⟨h.requested, fun _ => by simp [hleft]⟩
  · rename_i hbusy
    have hleft : t.backendOperationsPending - 1 ≠ 0 := fun hidle => hbusy ⟨h.requested, hidle⟩
    refine ⟨h.requested, fun hf => ?_⟩
    have hstream := h.stream hf
    simp only [show t.backendOperationsPending ≠ 0 by omega, hleft, ne_eq, not_false_eq_true,
      decide_true] at hstream ⊢
    exact hstream

theorem Closed.taken (h : Closed t) (op : Op) : Closed (t.taken op) := ⟨h.requested, h.stream⟩

theorem Closed.startBackend (h : Closed t) (op : Op) :
    Closed (startBackendOperation (expireBackendAfter t) op) := by
  obtain ⟨f, he, -⟩ := expire_start_eq t op
  refine ⟨by rw [he]; exact h.requested, fun hf => ?_⟩
  rw [expire_start_fault, Bool.or_eq_false_iff] at hf
  simp [he, show t.backendStream = true by simpa using hf.2]

/-- An operation on a closed backend finds the stream if another one is pending, and only then. -/
theorem Closed.start_fault (h : Closed t) (op : Op) :
    (startBackendOperation (expireBackendAfter t) op).fault =
      (t.fault || decide (t.backendOperationsPending = 0)) := by
  rw [expire_start_fault]
  cases hf : t.fault with
  | true => rfl
  | false => simp [h.stream hf]

theorem mode_finish (hc : Counted t) (hcl : t.clientOperationsPending = 0)
    (hb : t.backendOperationsPending = 0) (hr : t.completed = false) (hn : t.completions = [])
    (status bytes : Nat) (keepAlive : Bool) : Mode (finish t status bytes keepAlive) := by
  rw [finish, if_neg (by simp [hr])]
  exact .done ⟨status, bytes, keepAlive, t.clientOperationsPending, t.backendOperationsPending,
    false⟩ ⟨hc.client, hc.backend⟩ hcl hb rfl rfl (by simp [hn]) ⟨hcl, hb, rfl⟩

@[simp] theorem finish_heads (status bytes : Nat) (keepAlive : Bool) :
    (finish t status bytes keepAlive).heads = t.heads := by
  unfold finish; split <;> rfl

@[simp] theorem finish_fault (status bytes : Nat) (keepAlive : Bool) :
    (finish t status bytes keepAlive).fault = t.fault := by
  unfold finish; split <;> rfl

/-- The finish is taken up as soon as nothing is in flight. -/
theorem next_deferred {d : DeferredFinish} (h : Stoppable t) (hd : t.deferredFinish = some d)
    (hclosed : t.backendCloseRequested = true ∨ t.backendOperationsPending = 0)
    (hh : t.heads = s.heads) (hf : t.fault = s.fault) : Next c s e (maybeFinishDeferred t) := by
  unfold maybeFinishDeferred
  rw [hd]
  simp only
  split
  · rename_i hp; exact .quiet (.draining d h hd hp hclosed) hh hf
  · rename_i hp
    obtain ⟨b, hb, -⟩ := maybeReleaseClosedBackend_eq t
    rw [hb]
    have h0 : t.clientOperationsPending = 0 ∧ t.backendOperationsPending = 0 := by omega
    refine .quiet ?_ ?_ ?_
    · refine mode_finish ?_ ?_ ?_ ?_ ?_ _ _ _
      exacts [⟨h.counted.client, h.counted.backend⟩, h0.1, h0.2, h.completed, h.completions]
    · rw [finish_heads]; exact hh
    · rw [finish_fault]; exact hf

theorem next_quiesce (h : Stoppable t)
    (hclosed : t.backendCloseRequested = true ∨ t.backendOperationsPending = 0)
    (hh : t.heads = s.heads) (hf : t.fault = s.fault) (status bytes : Nat) (keepAlive : Bool) :
    Next c s e (finishWhenIoQuiesced t status bytes keepAlive) := by
  rw [finishWhenIoQuiesced, if_neg (by simp [h.completed])]
  refine next_deferred (d := ⟨status, bytes, keepAlive⟩) ?_ rfl ?_ ?_ ?_
  exacts [⟨⟨h.counted.client, h.counted.backend⟩, h.acquire, h.connecting, h.completed,
    h.completions⟩, hclosed, hh, hf]

/-- Closing the backend and finishing, from a state whose backend is open or already closed. -/
theorem next_close (h : Stoppable t) (hopen : t.backendStream = true ∨
      t.backendCloseRequested = true ∨ t.backendOperationsPending = 0)
    (hh : t.heads = s.heads) (hf : t.fault = s.fault) (status bytes : Nat) (keepAlive : Bool) :
    Next c s e (finishWhenIoQuiesced (closeBackend t) status bytes keepAlive) := by
  obtain ⟨b, cl, he, hcl⟩ := closeBackend_eq t
  rw [he]
  refine next_quiesce ?_ ?_ ?_ ?_ status bytes keepAlive
  · exact ⟨⟨h.counted.client, h.counted.backend⟩, h.acquire, h.connecting, h.completed,
      h.completions⟩
  · rcases hopen with h | h | h
    · exact .inl (hcl (.inl h))
    · exact .inl (hcl (.inr h))
    · exact .inr h
  · exact hh
  · exact hf

/-- An error response is started: the head it adds is the first one when `calm` demands it. -/
theorem next_error {a b u er : Nat} (h : Stoppable t)
    (hs : shapeOf t.inFlight = { connect := a, header := b, upload := u, error := er })
    (hopen : t.backendStream = true ∨ Closed t ∨ a = 0 ∧ b = 0 ∧ u = 0)
    (hd : t.deferredFinish = none) (hh : t.heads = s.heads)
    (hfirst : calm s e = true → s.heads = [] ∧ er = 0) (hf : t.fault = s.fault)
    (status n : Nat) (io : Io) : Next c s e (sendError t status n io) := by
  obtain ⟨bs, cl, he, -⟩ := closeBackend_eq t
  have hshut : t.backendStream = true ∨ Closed t → Closed (closeBackend t) := Closed.closeBackend
  rw [he] at hshut
  simp only [sendError, he, startClientOperation, State.head]
  have hshape : shapeOf (.onErrorWritten :: t.inFlight) =
      { connect := a, header := b, upload := u, error := er + 1 } := by
    simp only [shapeOf, hs]; rfl
  refine ⟨.failing a b u (er + 1) ⟨?_, ?_, h.connecting, h.completed, h.completions⟩ hshape ?_ hd,
    fun hcalm => .inr ⟨(hfirst hcalm).1, status, ?_⟩, fun _ => hf⟩
  · exact h.counted.startClient (o := .onErrorWritten) rfl rfl rfl rfl
  · rw [hshape]
  · rcases hopen with h | h | h
    · exact .inl ⟨(hshut (.inl h)).requested, (hshut (.inl h)).stream⟩
    · exact .inl ⟨(hshut (.inr h)).requested, (hshut (.inr h)).stream⟩
    · exact .inr h
  · obtain ⟨hnil, rfl⟩ := hfirst hcalm
    simp only [hh, hnil]
    rw [not_responding (by rw [hs]) (by rw [hs]) (by rw [hs])]

theorem next_fail {a b u er : Nat} (hc : Counted t)
    (hs : shapeOf t.inFlight = { connect := a, header := b, upload := u, error := er })
    (hopen : t.backendStream = true ∨ Closed t ∨ a = 0 ∧ b = 0 ∧ u = 0)
    (hd : t.deferredFinish = none) (hr : t.completed = false) (hn : t.completions = [])
    (hh : t.heads = s.heads) (hfirst : calm s e = true → s.heads = [] ∧ er = 0)
    (hf : t.fault = s.fault) (error : Error) (io : Io) : Next c s e (fail t error io) := by
  obtain ⟨status, n, he⟩ := fail_eq hr error io
  rw [he]
  refine next_error (t := { t with connecting := false }) ⟨⟨hc.client, hc.backend⟩, ?_, rfl, hr, hn⟩
    hs (hopen.imp_right (Or.imp_left fun h => ⟨h.requested, h.stream⟩)) hd hh hfirst hf status n io
  show (shapeOf t.inFlight).acquire = 0
  rw [hs]

end Ends

end Proxy
end WebServer
