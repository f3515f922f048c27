import WebServer.Proxy.Buffers
import WebServer.Lib.Fields

/-!
# WebServer.Proxy.Tunnel

The bytes of an upgraded connection.

`Tunnel` is the transaction together with the contents of `client_buffer_`, `backend_buffer_` and
`TunnelBuffers`, and with what has gone each way since the 101 was written: a `Flow` for each
direction. A completion brings the bytes of its read, and the sizes of the two buffers, which the
transaction takes from `Io`, are those of their contents.

The invariant is about what a direction still owes: `Flow.Owes f data` says that `data` and what has
been written are what was left in the parser's buffer and what has been read since, in that order.
Every operation of the tunnel owes the contents of the buffer it writes, and a read owes nothing.
-/

namespace WebServer
namespace Proxy

open Run Http

/-! ## The contents of the buffers -/

/-- One direction after the 101. -/
structure Flow where
  /-- what was left in the buffer of the parser -/
  left : Text := []
  /-- what the tunnel has read since -/
  received : Text := []
  written : Text := []
  deriving DecidableEq, Repr

def Flow.source (f : Flow) : Text := f.left ++ f.received

def Flow.read (f : Flow) (data : Text) : Flow := { f with received := f.received ++ data }

def Flow.write (f : Flow) (data : Text) : Flow := { f with written := f.written ++ data }

structure Tunnel where
  tx : State
  clientBuffer : Text
  backendBuffer : Text := []
  /-- the part of `tunnel_buffers_->client_to_backend` that the last read filled -/
  clientToBackend : Text := []
  backendToClient : Text := []
  /-- the 101 has been written to the client -/
  switched : Bool := false
  up : Flow := {}
  down : Flow := {}

/-- The request header may have come with bytes after it. -/
def Tunnel.init (c : Config) (clientBuffer : Text) : Tunnel := { tx := State.init c, clientBuffer }

/-- What a completion does to the buffers and to the two directions. `data` is what was read, or what
was left in the buffer of the parser, or the part of an error response that was written. -/
def Tunnel.receive (t : Tunnel) (io : Io) (data : Text) : Op → Tunnel
  | .onRequestBodyRead => { t with clientBuffer := data }
  | .onUpgradeResponse | .onResponseHeader | .onBodyRead => { t with backendBuffer := data }
  | .onUpgradeWritten =>
    if io.error.isNone then
      { t with switched := true, up := { left := t.clientBuffer }, down := { left := t.backendBuffer } }
    else t
  | .onClientBufferFlushed =>
    { t with
      up := t.up.write (t.clientBuffer.take io.bytes)
      clientBuffer :=
        if t.tx.closing || io.error.isSome then t.clientBuffer else t.clientBuffer.drop io.bytes }
  | .onBackendBufferFlushed =>
    { t with
      down := t.down.write (t.backendBuffer.take io.bytes)
      backendBuffer :=
        if t.tx.finishing || io.error.isSome then t.backendBuffer else t.backendBuffer.drop io.bytes }
  | .onClientTunnelRead => { t with clientToBackend := data, up := t.up.read data }
  | .onBackendTunnelWritten => { t with up := t.up.write (t.clientToBackend.take io.bytes) }
  | .onBackendTunnelRead => { t with backendToClient := data, down := t.down.read data }
  | .onClientTunnelWritten => { t with down := t.down.write (t.backendToClient.take io.bytes) }
  | .onErrorWritten => if t.switched then { t with down := t.down.write data } else t
  | _ => t

inductive Traffic where
  | cancel
  | complete (op : Op) (io : Io) (data : Text)
  deriving DecidableEq, Repr

/-- The transaction reads the sizes of the two buffers. -/
def Tunnel.sized (t : Tunnel) (io : Io) : Io :=
  { io with clientBuffer := t.clientBuffer.length, backendBuffer := t.backendBuffer.length }

def Tunnel.step (c : Config) (t : Tunnel) : Traffic → Option Tunnel
  | .cancel => (Proxy.step c t.tx .cancel).map fun tx => { t with tx }
  | .complete op io data =>
    let r := t.receive io data op
    (Proxy.step c t.tx (.complete op (r.sized io))).map fun tx => { r with tx }

/-- `asio::async_write` succeeds only when it has written all of its buffer. -/
def honest (t : Tunnel) : Traffic → Bool
  | .complete .onClientBufferFlushed io _ => io.error.isSome || io.bytes = t.clientBuffer.length
  | .complete .onBackendBufferFlushed io _ => io.error.isSome || io.bytes = t.backendBuffer.length
  | .complete .onBackendTunnelWritten io _ => io.error.isSome || io.bytes = t.clientToBackend.length
  | .complete .onClientTunnelWritten io _ => io.error.isSome || io.bytes = t.backendToClient.length
  | _ => true

/-- Neither of the buffers of the parsers fails to be flushed, unless the transaction is closing. -/
def unbroken (t : Tunnel) : Traffic → Bool
  | .complete .onClientBufferFlushed io _ => io.error.isNone || t.tx.closing
  | .complete .onBackendBufferFlushed io _ => io.error.isNone || t.tx.finishing
  | _ => true

/-! ## What a direction owes -/

def Flow.Owes (f : Flow) (data : Text) : Prop := f.written ++ data = f.source

section Flows

variable {f : Flow} {data : Text}

theorem Flow.Owes.within (h : f.Owes data) : f.written ++ data <+: f.source := by
  have heq : f.written ++ data = f.source := h
  exact heq ▸ List.prefix_rfl

theorem Flow.Owes.written_within (h : f.Owes data) (n : Nat) :
    (f.write (data.take n)).written <+: f.source := by
  rw [← h]
  exact (List.prefix_append_right_inj _).mpr <| List.take_prefix n data

theorem Flow.Owes.write (h : f.Owes data) : (f.write (data.take data.length)).Owes [] := by
  rw [List.take_length, Flow.Owes, List.append_nil]
  exact h

theorem Flow.Owes.flushed {io : Io} (h : f.Owes data)
    (hio : (io.error.isSome || io.bytes = data.length) = true) (herr : io.error = none) :
    (f.write (data.take io.bytes)).Owes [] := by
  have hbytes : io.bytes = data.length := by simpa [herr] using hio
  rw [hbytes]
  exact h.write

theorem Flow.Owes.read (h : f.Owes []) (data : Text) : (f.read data).Owes data := by
  rw [Flow.Owes, List.append_nil] at h
  simp only [Flow.Owes, Flow.read, Flow.source, h, List.append_assoc]

theorem Flow.read_within (h : f.written <+: f.source) (data : Text) :
    (f.read data).written <+: (f.read data).source := by
  rw [Flow.source, Flow.read, ← List.append_assoc]
  exact h.trans (List.prefix_append _ data)

end Flows

/-! ## The invariant -/

/-- The operations after the 101. -/
def Op.tunnels : Op → Bool
  | .onClientBufferFlushed | .onBackendBufferFlushed | .onClientTunnelRead | .onBackendTunnelWritten
  | .onBackendTunnelRead | .onClientTunnelWritten => true
  | _ => false

/-- What the directions owe while an operation is in flight. -/
def Tunnel.Pending (t : Tunnel) : Op → Prop
  | .onClientBufferFlushed => t.up.Owes t.clientBuffer ∧ t.down.Owes t.backendBuffer
  | .onBackendBufferFlushed => t.up.Owes [] ∧ t.down.Owes t.backendBuffer
  | .onClientTunnelRead => t.up.Owes []
  | .onBackendTunnelWritten => t.up.Owes t.clientToBackend
  | .onBackendTunnelRead => t.down.Owes []
  | .onClientTunnelWritten => t.down.Owes t.backendToClient
  | _ => True

structure Relayed (t : Tunnel) : Prop where
  mode : Mode t.tx
  narrow : Narrow (shapeOf t.tx.inFlight)
  /-- the 101 is not written beside an error response -/
  alone : .onUpgradeWritten ∈ t.tx.inFlight → .onErrorWritten ∉ t.tx.inFlight
  before : t.switched = false → t.up = {} ∧ t.down = {} ∧ ∀ op ∈ t.tx.inFlight, op.tunnels = false
  after : t.switched = true → ∀ op ∈ t.tx.inFlight, op.tunnels = true ∨ op = .onConnectTimeout
  pending : ∀ op ∈ t.tx.inFlight, t.Pending op
  up : t.up.written <+: t.up.source
  down : t.down.written <+: t.down.source

theorem relayed_init (c : Config) (clientBuffer : Text) : Relayed (Tunnel.init c clientBuffer) where
  mode := mode_init c
  narrow := narrow_init c
  alone := by simp [Tunnel.init, State.init]
  before := by simp [Tunnel.init, State.init, Op.tunnels]
  after := by simp [Tunnel.init]
  pending := by simp [Tunnel.init, State.init, Tunnel.Pending]
  up := List.nil_prefix
  down := List.nil_prefix

/-! ## What the transaction starts -/

section Starting

variable {c : Config} {s : State} {io : Io} {op : Op}

/-- Once nothing connects, the timer has nothing to say. -/
theorem Mode.connected (h : Mode s) (hc : (shapeOf s.inFlight).connect = 0) :
    s.connecting = false ∨ s.completed = true := by
  cases h with
  | acquiring hcount hs hu hstream hconn => exact .inl hconn
  | connecting h hs => simp [hs] at hc
  | setup h hs hu hconn => exact .inl hconn
  | awaiting n h hs hconn => exact .inl hconn
  | relaying n h hs hconn => exact .inl hconn
  | switching h hs hconn => exact .inl hconn
  | tunnelling h hs hconn => exact .inl hconn
  | failing a b n e h => exact .inl h.connecting
  | draining d h => exact .inl h.connecting
  | done r hc hcl hb hdone => exact .inr hdone

theorem does_onConnectTimeout (s : State) (io : Io)
    (h : s.connecting = false ∨ s.completed = true) : Does [] s (onConnectTimeout s io) := by
  have hidle : (io.error.isSome || !s.connecting || s.completed) = true := by
    rcases h with h | h <;> simp [h]
  rw [onConnectTimeout, if_pos hidle]
  exact .refl s

theorem does_onClientBufferFlushed (s : State) (io : Io) (h : s.closing = true) :
    Does [] s (onClientBufferFlushed s io) := by
  have hclosing : (finishBackendOperation s).closing = true := by
    obtain ⟨b, hb, -⟩ := finishBackendOperation_eq s
    rw [hb]
    exact h
  simp only [onClientBufferFlushed, hclosing, if_true]
  exact (does_finishBackendOperation s).then (does_maybeFinishDeferred _)

theorem does_onBackendBufferFlushed (s : State) (io : Io) (h : s.finishing = true) :
    Does [] s (onBackendBufferFlushed s io) := by
  have hfinishing : (finishClientOperation s).finishing = true := h
  simp only [onBackendBufferFlushed, hfinishing, if_true]
  exact (does_finishClientOperation s).then (does_maybeFinishDeferred _)

theorem Starts.tunnels {started : List Op} (h : Starts io op started) (hop : op.tunnels = true)
    (herr : io.error = none ∨ op.line ≠ .switching) : ∀ next ∈ started, next.tunnels = true := by
  cases h with
  | nothing => exact nofun
  | error h => cases op <;> first | (cases hop; done) | cases h
  | exchange hop' => rcases hop' with rfl | rfl <;> cases hop
  | upload h => cases op <;> first | (cases hop; done) | cases h
  | readBody h => rcases h with ⟨rfl, -⟩ | ⟨rfl, -⟩ <;> cases hop
  | writeBody h => cases op <;> first | (cases hop; done) | cases h
  | broken h hsome => exact (herr.elim hsome (absurd h)).elim
  | flushBackend => simp [Op.tunnels]
  | tunnel => simp [Op.tunnels]
  | writeUp => simp [Op.tunnels]
  | readUp => simp [Op.tunnels]
  | writeDown => simp [Op.tunnels]
  | readDown => simp [Op.tunnels]
  | _ => cases hop

/-- After the 101 a transaction starts only operations of the tunnel, when no flush fails. -/
theorem tunnel_starts {s' : State} (hmode : Mode s) (hs : step c s (.complete op io) = some s')
    (hop : op.tunnels = true ∨ op = .onConnectTimeout) (hc : (shapeOf s.inFlight).connect = 0)
    (hclient : op = .onClientBufferFlushed → io.error = none ∨ s.closing = true)
    (hbackend : op = .onBackendBufferFlushed → io.error = none ∨ s.finishing = true) :
    ∃ started, Starts io op started ∧ s'.inFlight = started ++ s.inFlight.erase op ∧
      ∀ next ∈ started, next.tunnels = true := by
  obtain ⟨-, started, hstarts, heq⟩ := step_starts hs
  obtain ⟨-, rfl⟩ := step_complete hs
  rcases hop with hop | rfl
  · by_cases hline : op.line = .switching
    · cases op with
      | onClientBufferFlushed =>
        rcases hclient rfl with herr | hclosing
        · exact ⟨started, hstarts, heq, hstarts.tunnels hop (.inl herr)⟩
        · have hd := does_onClientBufferFlushed
            ((s.observe .onClientBufferFlushed io).taken .onClientBufferFlushed) io hclosing
          exact ⟨[], .nothing _, hd.inFlight, nofun⟩
      | onBackendBufferFlushed =>
        rcases hbackend rfl with herr | hfinishing
        · exact ⟨started, hstarts, heq, hstarts.tunnels hop (.inl herr)⟩
        · have hd := does_onBackendBufferFlushed
            ((s.observe .onBackendBufferFlushed io).taken .onBackendBufferFlushed) io hfinishing
          exact ⟨[], .nothing _, hd.inFlight, nofun⟩
      | onUpgradeWritten => cases hop
      | _ => cases hline
    · exact ⟨started, hstarts, heq, hstarts.tunnels hop (.inr hline)⟩
  · have hd := does_onConnectTimeout ((s.observe .onConnectTimeout io).taken .onConnectTimeout) io
      (hmode.connected hc)
    exact ⟨[], .nothing _, hd.inFlight, nofun⟩

/-- The backend's 101 is passed on only while nothing else is in flight. -/
theorem Mode.unanswered (h : Mode s) (hm : .onUpgradeResponse ∈ s.inFlight)
    (hopen : s.closing = false) : .onErrorWritten ∉ s.inFlight := by
  intro herror
  have hpos := get_pos_of_mem hm
  have hpos' := get_pos_of_mem herror
  simp only [State.closing, Bool.or_eq_false_iff] at hopen
  cases h with
  | acquiring hc hs => simp [hs, Op.line, Shape.get] at hpos
  | connecting h hs => simp [hs, Op.line, Shape.get] at hpos
  | setup h hs => simp [hs, Op.line, Shape.get] at hpos'
  | awaiting n h hs => simp [hs, Op.line, Shape.get] at hpos
  | relaying n h hs => simp [hs, Op.line, Shape.get] at hpos
  | switching h hs => simp [hs, Op.line, Shape.get] at hpos
  | tunnelling h hs => simp [hs, Op.line, Shape.get] at hpos
  | failing a b n e h hs => simp [hs, Op.line, Shape.get] at hpos
  | draining d h hd => simp [hd] at hopen
  | done r hc hcl hb hdone => simp [hdone] at hopen

/-- The 101 and an error response are never written at once. -/
theorem upgrade_alone {s' : State} (hmode : Mode s) (hn : Narrow (shapeOf s.inFlight))
    (h : .onUpgradeWritten ∈ s.inFlight → .onErrorWritten ∉ s.inFlight)
    (hs : step c s (.complete op io) = some s') (hup : .onUpgradeWritten ∈ s'.inFlight) :
    .onErrorWritten ∉ s'.inFlight := by
  obtain ⟨hm, started, hstarts, heq⟩ := step_starts hs
  rw [heq] at hup ⊢
  rcases List.mem_append.mp hup with hnew | hleft
  · -- it was started by the answer of the backend
    obtain ⟨-, rfl⟩ := step_complete hs
    cases hstarts.origin hnew
    rcases onUpgradeResponse_cases ((s.observe .onUpgradeResponse io).taken .onUpgradeResponse) io with
      hd | hd | ⟨hopen, hd⟩
    · have hnil : started = [] := List.append_left_eq_self.mp (heq.symm.trans hd.inFlight)
      simp [hnil] at hnew
    · have hone : started = [.onErrorWritten] := List.append_cancel_right (heq.symm.trans hd.inFlight)
      simp [hone] at hnew
    · have hone : started = [.onUpgradeWritten] :=
        List.append_cancel_right (heq.symm.trans hd.inFlight)
      have hfree := hmode.unanswered hm hopen
      simp only [hone, List.singleton_append, List.mem_cons, reduceCtorEq, false_or]
      exact fun herror => hfree (List.mem_of_mem_erase herror)
  · have hmem := List.mem_of_mem_erase hleft
    intro herror
    rcases List.mem_append.mp herror with hnew | hold
    · -- only a late timer could have started the response
      have hconnect : (shapeOf s.inFlight).connect = 0 := by
        have hpos := get_pos_of_mem hmem
        have hone := hn.upload
        simp only [Op.line, Shape.get, Shape.front] at hpos hone
        omega
      rcases hn.alone_left hm hleft rfl with hline | hline
      · have htimer : op = .onConnectTimeout := by cases op <;> first | rfl | cases hline
        subst htimer
        obtain ⟨-, rfl⟩ := step_complete hs
        have hd := does_onConnectTimeout ((s.observe .onConnectTimeout io).taken .onConnectTimeout) io
          (hmode.connected hconnect)
        have hnil : started = [] := List.append_left_eq_self.mp (heq.symm.trans hd.inFlight)
        simp [hnil] at hnew
      · rcases hstarts.origin hnew with hline' | ⟨hline', -⟩ <;> rw [hline] at hline' <;> cases hline'
    · exact h hmem (List.mem_of_mem_erase hold)

/-- The tunnel begins with the 101. -/
theorem Starts.untunnelled {started : List Op} (h : Starts io op started) (hop : op.tunnels = false)
    (hup : op = .onUpgradeWritten → io.error ≠ none) : ∀ next ∈ started, next.tunnels = false := by
  intro next hm
  have horigin := h.origin hm
  cases next with
  | onClientBufferFlushed => exact absurd horigin.2.1 (hup horigin.1)
  | onBackendBufferFlushed =>
    obtain ⟨herr, -, ⟨rfl, -⟩ | rfl⟩ := horigin
    · exact absurd herr (hup rfl)
    · cases hop
  | onClientTunnelRead =>
    obtain ⟨herr, ⟨rfl, -⟩ | ⟨rfl, -⟩ | rfl | rfl⟩ := horigin
    · exact absurd herr (hup rfl)
    all_goals cases hop
  | onBackendTunnelRead =>
    obtain ⟨herr, ⟨rfl, -⟩ | ⟨rfl, -⟩ | rfl | rfl⟩ := horigin
    · exact absurd herr (hup rfl)
    all_goals cases hop
  | onBackendTunnelWritten =>
    obtain ⟨rfl, -⟩ := horigin
    cases hop
  | onClientTunnelWritten =>
    obtain ⟨rfl, -⟩ := horigin
    cases hop
  | _ => rfl

end Starting

/-! ## Steps -/

section Steps

variable {c : Config} {t t' : Tunnel} {io : Io} {data : Text} {op other : Op} {started : List Op}

theorem Tunnel.step_cancel (hs : t.step c .cancel = some t') :
    t' = { t with tx := cancelOnExecutor t.tx } := by
  simpa [Tunnel.step, Proxy.step] using hs.symm

theorem Tunnel.step_complete (hs : t.step c (.complete op io data) = some t') :
    ∃ tx, Proxy.step c t.tx (.complete op ((t.receive io data op).sized io)) = some tx ∧
      t' = { t.receive io data op with tx } := by
  obtain ⟨tx, htx, rfl⟩ := Option.map_eq_some_iff.mp hs
  exact ⟨tx, htx, rfl⟩

theorem Tunnel.pending_of_not_tunnels (t : Tunnel) (h : op.tunnels = false) : t.Pending op := by
  cases op <;> trivial

/-- Before the 101 is written a completion changes only the buffers of the parsers. -/
theorem Tunnel.receive_before (data : Text) (h : t.switched = false) (hop : op.tunnels = false)
    (hup : op = .onUpgradeWritten → io.error ≠ none) :
    (t.receive io data op).switched = false ∧ (t.receive io data op).up = t.up ∧
      (t.receive io data op).down = t.down := by
  cases op with
  | onUpgradeWritten =>
    have hsome : io.error.isNone = false :=
      Option.isNone_eq_false_iff.mpr (Option.isSome_iff_ne_none.mpr (hup rfl))
    simp [Tunnel.receive, hsome, h]
  | onErrorWritten => simp [Tunnel.receive, h]
  | _ => first | (cases hop; done) | exact ⟨h, rfl, rfl⟩

theorem Relayed.unswitched (h : Relayed t) (hsw : t.switched = false)
    (hup : op = .onUpgradeWritten → io.error ≠ none)
    (hs : t.step c (.complete op io data) = some t') : Relayed t' := by
  obtain ⟨tx, htx, rfl⟩ := Tunnel.step_complete hs
  obtain ⟨hm, started, hstarts, heq⟩ := step_starts htx
  obtain ⟨hnoUp, hnoDown, hnone⟩ := h.before hsw
  obtain ⟨hsw', hup', hdown'⟩ := t.receive_before data hsw (hnone op hm) hup
  have hnone' : ∀ next ∈ tx.inFlight, next.tunnels = false := by
    intro next hnext
    rw [heq] at hnext
    rcases List.mem_append.mp hnext with hnext | hnext
    · exact hstarts.untunnelled (hnone op hm) hup next hnext
    · exact hnone next (List.mem_of_mem_erase hnext)
  exact {
    mode := (next_step h.mode htx).mode
    narrow := narrow_step h.narrow htx
    alone := upgrade_alone h.mode h.narrow h.alone htx
    before := fun _ => ⟨hup'.trans hnoUp, hdown'.trans hnoDown, hnone'⟩
    after := fun hcontra => absurd (hsw'.symm.trans hcontra) (by simp)
    pending := fun next hnext => Tunnel.pending_of_not_tunnels _ (hnone' next hnext)
    up := hup' ▸ h.up
    down := hdown' ▸ h.down }

/-- The 101 has been written: what is left in the buffers is owed. -/
theorem Tunnel.pending_switch (h : Starts (t.sized io) .onUpgradeWritten started)
    (hup : t.up = { left := t.clientBuffer }) (hdown : t.down = { left := t.backendBuffer })
    (hm : other ∈ started) : t.Pending other := by
  have hup' : t.up.Owes t.clientBuffer := by simp [Flow.Owes, Flow.source, hup]
  have hdown' : t.down.Owes t.backendBuffer := by simp [Flow.Owes, Flow.source, hdown]
  have hnoUp (hempty : t.clientBuffer.length = 0) : t.up.Owes [] :=
    List.length_eq_zero_iff.mp hempty ▸ hup'
  have hnoDown (hempty : t.backendBuffer.length = 0) : t.down.Owes [] :=
    List.length_eq_zero_iff.mp hempty ▸ hdown'
  have horigin := h.origin hm
  cases other with
  | onClientBufferFlushed => exact ⟨hup', hdown'⟩
  | onBackendBufferFlushed =>
    obtain ⟨-, -, ⟨-, hempty⟩ | hop⟩ := horigin
    · exact ⟨hnoUp hempty, hdown'⟩
    · cases hop
  | onClientTunnelRead =>
    obtain ⟨-, ⟨-, hempty, -⟩ | ⟨hop, -⟩ | hop | hop⟩ := horigin
    · exact hnoUp hempty
    all_goals cases hop
  | onBackendTunnelRead =>
    obtain ⟨-, ⟨-, -, hempty⟩ | ⟨hop, -⟩ | hop | hop⟩ := horigin
    · exact hnoDown hempty
    all_goals cases hop
  | onBackendTunnelWritten => cases horigin.1
  | onClientTunnelWritten => cases horigin.1
  | _ => trivial

theorem Relayed.switch (h : Relayed t) (herr : io.error = none)
    (hs : t.step c (.complete .onUpgradeWritten io data) = some t') : Relayed t' := by
  obtain ⟨tx, htx, rfl⟩ := Tunnel.step_complete hs
  obtain ⟨hm, started, hstarts, heq⟩ := step_starts htx
  have hr : t.receive io data .onUpgradeWritten = { t with
      switched := true, up := { left := t.clientBuffer }, down := { left := t.backendBuffer } } := by
    simp [Tunnel.receive, herr]
  rw [hr] at htx hstarts ⊢
  have hrest : ∀ next ∈ t.tx.inFlight.erase .onUpgradeWritten, next = .onConnectTimeout := by
    intro next hnext
    rcases h.narrow.alone hm rfl hnext with hline | hline
    · cases next <;> first | rfl | cases hline
    · have herror : next = .onErrorWritten := by cases next <;> first | rfl | cases hline
      exact absurd (List.mem_of_mem_erase (herror ▸ hnext)) (h.alone hm)
  have hstarted : ∀ next ∈ started, next.tunnels = true := by
    intro next hnext
    have horigin := hstarts.origin hnext
    cases next <;> first | rfl | simp [Op.origin, Op.line, Line.answers, Tunnel.sized, herr] at horigin
  have hafter : ∀ next ∈ tx.inFlight, next.tunnels = true ∨ next = .onConnectTimeout := by
    intro next hnext
    rw [heq] at hnext
    exact (List.mem_append.mp hnext).imp (hstarted next) (hrest next)
  exact {
    mode := (next_step h.mode htx).mode
    narrow := narrow_step h.narrow htx
    alone := upgrade_alone h.mode h.narrow h.alone htx
    before := fun hbefore => absurd hbefore (by simp)
    after := fun _ => hafter
    pending := by
      intro next hnext
      rw [heq] at hnext
      rcases List.mem_append.mp hnext with hnext | hnext
      · exact Tunnel.pending_switch (t := { t with
          switched := true, up := { left := t.clientBuffer }, down := { left := t.backendBuffer }, tx })
          hstarts rfl rfl hnext
      · rw [hrest next hnext]
        trivial
    up := List.nil_prefix
    down := List.nil_prefix }

/-- What is started by an operation of the tunnel owes what that operation has left to do. -/
theorem Tunnel.pending_started (h : t.Pending op) (hop : op.tunnels = true)
    (hio : honest t (.complete op io data) = true)
    (hs : Starts ((t.receive io data op).sized io) op started) (hm : other ∈ started) :
    (t.receive io data op).Pending other := by
  have horigin := hs.origin hm
  cases other with
  | onClientBufferFlushed =>
    obtain ⟨rfl, -⟩ := horigin
    cases hop
  | onBackendBufferFlushed =>
    obtain ⟨herr, -, ⟨rfl, -⟩ | rfl⟩ := horigin
    · cases hop
    · exact ⟨h.1.flushed hio herr, h.2⟩
  | onClientTunnelRead =>
    obtain ⟨herr, ⟨rfl, -⟩ | ⟨rfl, -⟩ | rfl | rfl⟩ := horigin
    · cases hop
    · exact h.1.flushed hio herr
    · exact h.1
    · exact h.flushed hio herr
  | onBackendTunnelWritten =>
    obtain ⟨rfl, -⟩ := horigin
    exact Flow.Owes.read h data
  | onBackendTunnelRead =>
    obtain ⟨herr, ⟨rfl, -⟩ | ⟨rfl, hempty⟩ | rfl | rfl⟩ := horigin
    · cases hop
    · have hnil : t.backendBuffer = [] := List.length_eq_zero_iff.mp hempty
      exact (hnil ▸ h.2 : t.down.Owes [])
    · exact h.2.flushed hio herr
    · exact h.flushed hio herr
  | onClientTunnelWritten =>
    obtain ⟨rfl, -⟩ := horigin
    exact Flow.Owes.read h data
  | _ => trivial

/-- A completion in one direction does not touch the other. -/
theorem Tunnel.pending_rest (h : t.Pending other) (hup : op.line = .up → other.line ≠ .up)
    (hdown : op.line = .down → other.line ≠ .down) (hswitching : other.line ≠ .switching)
    (hop : op.tunnels = true) (hline : op.line ≠ .switching) : (t.receive io data op).Pending other := by
  cases other with
  | onClientBufferFlushed => exact absurd rfl hswitching
  | onBackendBufferFlushed => exact absurd rfl hswitching
  | onClientTunnelRead =>
    cases op <;> first | (cases hop; done) | exact absurd rfl hline | exact absurd rfl (hup rfl) | exact h
  | onBackendTunnelWritten =>
    cases op <;> first | (cases hop; done) | exact absurd rfl hline | exact absurd rfl (hup rfl) | exact h
  | onBackendTunnelRead =>
    cases op <;> first | (cases hop; done) | exact absurd rfl hline | exact absurd rfl (hdown rfl) | exact h
  | onClientTunnelWritten =>
    cases op <;> first | (cases hop; done) | exact absurd rfl hline | exact absurd rfl (hdown rfl) | exact h
  | _ => trivial

/-- What has been written stays a part of what was there to be written. -/
theorem Tunnel.receive_within (h : t.Pending op) (hop : op.tunnels = true)
    (hup : t.up.written <+: t.up.source) (hdown : t.down.written <+: t.down.source) :
    (t.receive io data op).up.written <+: (t.receive io data op).up.source ∧
      (t.receive io data op).down.written <+: (t.receive io data op).down.source := by
  cases op with
  | onClientBufferFlushed => exact ⟨h.1.written_within io.bytes, hdown⟩
  | onBackendBufferFlushed => exact ⟨hup, h.2.written_within io.bytes⟩
  | onClientTunnelRead => exact ⟨Flow.read_within hup data, hdown⟩
  | onBackendTunnelWritten => exact ⟨Flow.Owes.written_within h io.bytes, hdown⟩
  | onBackendTunnelRead => exact ⟨hup, Flow.read_within hdown data⟩
  | onClientTunnelWritten => exact ⟨hup, Flow.Owes.written_within h io.bytes⟩
  | _ => cases hop

/-- Two operations of the tunnel in flight are not in the same direction. -/
theorem Narrow.directions {ops : List Op} (h : Narrow (shapeOf ops)) (hm : op ∈ ops)
    (hother : other ∈ ops.erase op) (hline : op.line = .up ∨ op.line = .down) :
    other.line ≠ .switching ∧ other.line ≠ op.line := by
  have hpos := get_pos_of_mem hm
  have hpos' := get_pos_of_mem hother
  have hup := h.up
  have hdown := h.down
  rw [shapeOf_erase hm] at hpos'
  simp only [Shape.front] at hup hdown
  refine ⟨fun hswitching => ?_, fun heq => ?_⟩
  · rw [hswitching] at hpos'
    rcases hline with hline | hline <;> rw [hline] at hpos hpos' <;>
      simp only [Shape.get, Shape.modify] at hpos hpos' <;> omega
  · rw [heq] at hpos'
    rcases hline with hline | hline <;> rw [hline] at hpos hpos' <;>
      simp only [Shape.get, Shape.modify] at hpos hpos' <;> omega

theorem Relayed.disconnected (h : Relayed t) (hsw : t.switched = true) :
    (shapeOf t.tx.inFlight).connect = 0 := by
  have hcount : t.tx.inFlight.countP (·.line = .connect) = (shapeOf t.tx.inFlight).get .connect :=
    countP_line (by simp) t.tx.inFlight
  refine hcount.symm.trans (List.countP_eq_zero.mpr fun op hm => ?_)
  rcases h.after hsw op hm with hop | rfl
  · cases op <;> first | (cases hop; done) | simp [Op.line]
  · simp [Op.line]

theorem Relayed.pending_left (h : Relayed t) (hsw : t.switched = true) (hm : op ∈ t.tx.inFlight)
    (hother : other ∈ t.tx.inFlight.erase op) : (t.receive io data op).Pending other := by
  have hpending := h.pending other (List.mem_of_mem_erase hother)
  rcases h.after hsw op hm with hop | rfl
  · by_cases hline : op.line = .switching
    · -- a flush is alone but for the timer
      have haside := h.narrow.alone hm (by rw [hline]; rfl) hother
      have hnot : other.tunnels = false := by
        rcases haside with hside | hside <;> cases other <;> first | rfl | cases hside
      exact Tunnel.pending_of_not_tunnels _ hnot
    · have hdirection : op.line = .up ∨ op.line = .down := by
        cases op <;> first | (cases hop; done) | exact absurd rfl hline | exact .inl rfl | exact .inr rfl
      obtain ⟨hswitching, hne⟩ := h.narrow.directions hm hother hdirection
      exact Tunnel.pending_rest hpending (fun hup => hup ▸ hne) (fun hdown => hdown ▸ hne) hswitching hop
        hline
  · exact hpending

theorem Relayed.tunnelled (h : Relayed t) (hsw : t.switched = true)
    (hio : honest t (.complete op io data) = true)
    (hflush : unbroken t (.complete op io data) = true)
    (hs : t.step c (.complete op io data) = some t') : Relayed t' := by
  obtain ⟨tx, htx, rfl⟩ := Tunnel.step_complete hs
  have hm : op ∈ t.tx.inFlight := (step_starts htx).1
  have hop := h.after hsw op hm
  obtain ⟨started, hstarts, heq, htunnels⟩ := tunnel_starts h.mode htx hop (h.disconnected hsw)
    (by rintro rfl; simpa [unbroken, Tunnel.sized] using hflush)
    (by rintro rfl; simpa [unbroken, Tunnel.sized] using hflush)
  have hafter : ∀ next ∈ tx.inFlight, next.tunnels = true ∨ next = .onConnectTimeout := by
    intro next hnext
    rw [heq] at hnext
    rcases List.mem_append.mp hnext with hnext | hnext
    · exact .inl (htunnels next hnext)
    · exact h.after hsw next (List.mem_of_mem_erase hnext)
  have hsw' : (t.receive io data op).switched = true := by
    rcases hop with hop | rfl
    · cases op <;> first | (cases hop; done) | exact hsw
    · exact hsw
  have hwithin : (t.receive io data op).up.written <+: (t.receive io data op).up.source ∧
      (t.receive io data op).down.written <+: (t.receive io data op).down.source := by
    rcases hop with hop | rfl
    · exact Tunnel.receive_within (h.pending op hm) hop h.up h.down
    · exact ⟨h.up, h.down⟩
  exact {
    mode := (next_step h.mode htx).mode
    narrow := narrow_step h.narrow htx
    alone := upgrade_alone h.mode h.narrow h.alone htx
    before := fun hcontra => absurd (hsw'.symm.trans hcontra) (by simp)
    after := fun _ => hafter
    pending := by
      intro next hnext
      rw [heq] at hnext
      rcases List.mem_append.mp hnext with hnew | hold
      · rcases hop with hop | rfl
        · exact Tunnel.pending_started (h.pending op hm) hop hio hstarts hnew
        · have hnot := hstarts.untunnelled rfl nofun next hnew
          exact absurd (hnot.symm.trans (htunnels next hnew)) (by simp)
      · exact h.pending_left hsw hm hold
    up := hwithin.1
    down := hwithin.2 }

theorem relayed_step {e : Traffic} (h : Relayed t) (hio : honest t e = true)
    (hflush : unbroken t e = true) (hs : t.step c e = some t') : Relayed t' := by
  cases e with
  | cancel =>
    obtain rfl := Tunnel.step_cancel hs
    have hinFlight : (cancelOnExecutor t.tx).inFlight = t.tx.inFlight :=
      (does_cancelOnExecutor t.tx).inFlight
    have hstep : Proxy.step c t.tx .cancel = some (cancelOnExecutor t.tx) := rfl
    exact {
      mode := (next_step h.mode hstep).mode
      narrow := narrow_step h.narrow hstep
      alone := by rw [hinFlight]; exact h.alone
      before := by rw [hinFlight]; exact h.before
      after := by rw [hinFlight]; exact h.after
      pending := by rw [hinFlight]; exact h.pending
      up := h.up
      down := h.down }
  | complete op io data =>
    cases hsw : t.switched with
    | true => exact h.tunnelled hsw hio hflush hs
    | false =>
      by_cases hup : op = .onUpgradeWritten ∧ io.error = none
      · obtain ⟨rfl, herr⟩ := hup
        exact h.switch herr hs
      · exact h.unswitched hsw (fun hop herr => hup ⟨hop, herr⟩) hs

end Steps

/-! ## Fidelity -/

/-- What the write in flight to the backend is sending. -/
def Tunnel.sendingUp (t : Tunnel) : Text :=
  if .onClientBufferFlushed ∈ t.tx.inFlight then t.clientBuffer
  else if .onBackendTunnelWritten ∈ t.tx.inFlight then t.clientToBackend
  else []

def Tunnel.sendingDown (t : Tunnel) : Text :=
  if .onBackendBufferFlushed ∈ t.tx.inFlight then t.backendBuffer
  else if .onClientTunnelWritten ∈ t.tx.inFlight then t.backendToClient
  else []

/-- The operations that read from the client or write to the backend. -/
def Op.upward : Op → Bool
  | .onClientBufferFlushed | .onClientTunnelRead | .onBackendTunnelWritten => true
  | _ => false

/-- The operations that read from the backend or write to the client. -/
def Op.downward : Op → Bool
  | .onBackendBufferFlushed | .onBackendTunnelRead | .onClientTunnelWritten | .onErrorWritten => true
  | _ => false

section Fidelity

variable {t : Tunnel}

theorem Relayed.sendingUp (h : Relayed t) : t.up.written ++ t.sendingUp <+: t.up.source := by
  unfold Tunnel.sendingUp
  split
  · rename_i hm
    exact (h.pending _ hm).1.within
  · split
    · rename_i hm
      exact Flow.Owes.within (h.pending _ hm)
    · rw [List.append_nil]
      exact h.up

theorem Relayed.sendingDown (h : Relayed t) : t.down.written ++ t.sendingDown <+: t.down.source := by
  unfold Tunnel.sendingDown
  split
  · rename_i hm
    exact (h.pending _ hm).2.within
  · split
    · rename_i hm
      exact Flow.Owes.within (h.pending _ hm)
    · rw [List.append_nil]
      exact h.down

/-- Operations of the flushes and of one direction are in flight one at a time. -/
theorem Narrow.countP_direction {s : State} {line : Line} {p : Op → Bool}
    (h : Narrow (shapeOf s.inFlight)) (hline : line = .up ∨ line = .down)
    (hp : ∀ op ∈ s.inFlight, p op = true → op.line = .switching ∨ op.line = line) :
    s.inFlight.countP p ≤ 1 := by
  have hup := h.up
  have hdown := h.down
  simp only [Shape.front] at hup hdown
  by_cases hflush : ∃ op ∈ s.inFlight, op.line = .switching
  · obtain ⟨flush, hflush, hswitching⟩ := hflush
    have hall : ∀ op ∈ s.inFlight, p op = true → op.line = .switching := by
      intro op hm hop
      refine (hp op hm hop).resolve_right fun hother => ?_
      have hpos := get_pos_of_mem hflush
      have hpos' := get_pos_of_mem hm
      rw [hswitching] at hpos
      rw [hother] at hpos'
      rcases hline with rfl | rfl <;> simp only [Shape.get] at hpos hpos' <;> omega
    have hle := countP_le_line (by simp) hall
    simp only [Shape.get] at hle
    omega
  · have hall : ∀ op ∈ s.inFlight, p op = true → op.line = line := fun op hm hop =>
      (hp op hm hop).resolve_left fun hswitching => hflush ⟨op, hm, hswitching⟩
    have hle := countP_le_line (by rcases hline with rfl | rfl <;> simp) hall
    rcases hline with rfl | rfl <;> simp only [Shape.get] at hle <;> omega

theorem Relayed.directions (h : Relayed t) (hsw : t.switched = true) :
    t.tx.inFlight.countP (·.upward) ≤ 1 ∧ t.tx.inFlight.countP (·.downward) ≤ 1 := by
  refine ⟨h.narrow.countP_direction (.inl rfl) fun op hm hop => ?_,
    h.narrow.countP_direction (.inr rfl) fun op hm hop => ?_⟩
  · cases op <;> first | (cases hop; done) | exact .inl rfl | exact .inr rfl
  · have hafter := h.after hsw op hm
    cases op <;> first | (cases hop; done) | exact .inl rfl | exact .inr rfl | simp [Op.tunnels] at hafter

end Fidelity

/-- After the 101, in every run in which no flush of the parsers' buffers fails, each side is sent a
part of what was left in the buffer and of what the other side has sent since, in order and once, and
each direction has one operation in flight at most. -/
theorem tunnel_faithful {c : Config} {clientBuffer : Text} {es : List Traffic} {t : Tunnel}
    (hio : Along (Tunnel.step c) (fun t e => honest t e = true) (Tunnel.init c clientBuffer) es)
    (hflush : Along (Tunnel.step c) (fun t e => unbroken t e = true) (Tunnel.init c clientBuffer) es)
    (hrun : run (Tunnel.step c) (Tunnel.init c clientBuffer) es = some t) (hsw : t.switched = true) :
    t.up.written ++ t.sendingUp <+: t.up.left ++ t.up.received ∧
      t.down.written ++ t.sendingDown <+: t.down.left ++ t.down.received ∧
      t.tx.inFlight.countP (·.upward) ≤ 1 ∧ t.tx.inFlight.countP (·.downward) ≤ 1 := by
  have hinv : Relayed t :=
    run_inv_along (fun t e t' h hg hs => relayed_step h hg.1 hg.2 hs)
      (relayed_init c clientBuffer) (hio.and hflush) hrun
  exact ⟨hinv.sendingUp, hinv.sendingDown, hinv.directions hsw⟩

/-- An upgrade up to the 101, which the backend sends with `behind` after it. -/
def upgraded (behind : Text) : List Traffic :=
  [.complete .startOnExecutor {} [], .complete .onBackendPermit {} [], .complete .onResolved {} [],
    .complete .onConnect {} [], .complete .onRequestHeaderWritten {} [],
    .complete .onUpgradeResponse { result := 101 } behind, .complete .onUpgradeWritten {} []]

/-- Both buffers are flushed, and the client goes on while the backend is cut off in the middle. -/
def chatted : List Traffic :=
  upgraded [9] ++
  [.complete .onClientBufferFlushed { bytes := 2 } [], .complete .onBackendBufferFlushed { bytes := 1 } [],
    .complete .onClientTunnelRead {} [3, 4, 5], .complete .onBackendTunnelRead {} [8],
    .complete .onBackendTunnelWritten { error := some .other, bytes := 1 } []]

theorem tunnel_faithful_chatted :
    ∃ t, run (Tunnel.step { websocket := true }) (Tunnel.init { websocket := true } [1, 2]) chatted =
        some t ∧ t.up = ⟨[1, 2], [3, 4, 5], [1, 2, 3]⟩ ∧ t.sendingDown = [8] ∧
      t.up.written ++ t.sendingUp <+: t.up.left ++ t.up.received := by
  have hresult : (run (Tunnel.step { websocket := true }) (Tunnel.init { websocket := true } [1, 2])
      chatted).map (fun t => (t.switched, t.up, t.sendingDown)) =
      some (true, ⟨[1, 2], [3, 4, 5], [1, 2, 3]⟩, [8]) := by
    decide
  obtain ⟨t, hrun, ht⟩ := Option.map_eq_some_iff.mp hresult
  obtain ⟨hsw, ht⟩ := Prod.mk.inj ht
  obtain ⟨hup, hdown⟩ := Prod.mk.inj ht
  exact ⟨t, hrun, hup, hdown, (tunnel_faithful (by decide) (by decide) hrun hsw).1⟩

/-- The backend goes away while it is sent what the client had sent too early: the client gets an
error response in the middle of the upgraded connection. -/
def answeredTwice : List Traffic :=
  upgraded [] ++
  [.complete .onClientBufferFlushed { error := some .other } [],
    .complete .onErrorWritten {} (ascii "HTTP/1.1 502 Bad Gateway")]

theorem tunnel_corrupted :
    ¬ ∀ (c : Config) (clientBuffer : Text) (es : List Traffic) (t : Tunnel),
      Along (Tunnel.step c) (fun t e => honest t e = true) (Tunnel.init c clientBuffer) es →
      run (Tunnel.step c) (Tunnel.init c clientBuffer) es = some t → t.switched = true →
      t.up.written ++ t.sendingUp <+: t.up.left ++ t.up.received ∧
        t.down.written ++ t.sendingDown <+: t.down.left ++ t.down.received ∧
        t.tx.inFlight.countP (·.upward) ≤ 1 ∧ t.tx.inFlight.countP (·.downward) ≤ 1 := by
  intro h
  have hresult : (run (Tunnel.step { websocket := true }) (Tunnel.init { websocket := true } [1, 2])
      answeredTwice).map (fun t => (t.switched, t.down)) =
      some (true, ⟨[], [], ascii "HTTP/1.1 502 Bad Gateway"⟩) := by
    decide
  obtain ⟨t, hrun, ht⟩ := Option.map_eq_some_iff.mp hresult
  obtain ⟨hsw, hdown⟩ := Prod.mk.inj ht
  have hwithin := (h _ _ _ t (by decide) hrun hsw).2.1
  rw [hdown] at hwithin
  have hnil := (List.append_eq_nil_iff.mp (List.prefix_nil.mp hwithin)).1
  exact absurd hnil (by decide)

end Proxy
end WebServer
