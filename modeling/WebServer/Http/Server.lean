import WebServer.Http.SessionSteps

/-!
# WebServer.Http.Server

All sessions of a server, what they share, and the configurations that are published meanwhile.

The strands of different connections run side by side. The parts of a handler that touch what is
shared are under the locks of the registries, of the rate limiters and of the configuration store, and
no handler reads there what it would take for granted later, so that events of different sessions are
interleaved as a whole. The handlers of one session are on its strand. Only when `dispatch` throws does
`stop` abort the session on the caller's thread; the abort is taken to fall between two handlers then.

An event completes an operation of a session or of one of its transactions, stops a session, accepts
a connection, or publishes. A session stays in `sessions` after it has closed, for the handlers that
are still to run. `leaked` is not in the source: the ids of the connections whose `TlsHttpSession` was
not constructed, since `initialize_connection` has thrown after the registry knew of it. No handler of a
transaction throws; a handler of the session may, at any call.

* `kept_step`: what a step keeps of all sessions, from what its handler keeps of one.
* `stream_exclusive`: a stream is never used twice, and an open one is always in use.
* `never_stalled`: an open session waits for an operation, its own or its transaction's.
* `registries_exact`, `ends_once`: what the registries list, and how a session ends.
* `accessLog_exact`: the requests of a session are logged in turn, each at most once.
-/

namespace WebServer
namespace HttpSession

open Act Http Registry Run
open Dispatcher (RequestDispatcher)

structure Server where
  shared : Shared
  sessions : List Session := []
  leaked : List ℕ := []

inductive Event where
  | publish (spec : Config.RuntimeConfigSpec)
  /-- `initialized` is false when `initialize_connection` throws -/
  | accept (scheme : Scheme) (port : UInt16) (address : Text) (initialized : Bool) (io : Io)
  /-- `stop` of a session; `posted` is false when `dispatch` throws -/
  | stop (session : ℕ) (posted : Bool) (io : Io)
  | complete (session : ℕ) (op : Op) (io : Io)
  /-- an operation of the transaction at this place completes -/
  | relay (session transaction : ℕ) (op : Proxy.Op) (read : Proxy.Io) (io : Io)

/-- The steady clock, as the handlers of the event read it. -/
def Event.time : Event → Option ℕ
  | .publish _ => none
  | .accept _ _ _ _ io | .stop _ _ io | .complete _ _ io | .relay _ _ _ _ io => some io.now

/-- The constructor. -/
def Session.accepted (runtime : Runtime) (scheme : Scheme) (port : UInt16) (id : ℕ) : Session where
  scheme := scheme
  listenerPort := port
  tlsContexts := match scheme with
    | .http => none
    | .https => runtime.tlsContexts
  tlsState := match scheme with
    | .http => ⟨none, none⟩
    | .https => ⟨runtime.tlsContexts.bind (·.defaultContext), none⟩
  connectionId := id

/-- The operation is no longer in flight. -/
def Session.take (s : Session) (op : Op) : Session := { s with inFlight := s.inFlight.erase op }

/-- `server_name_callback` runs in the handshake, which fails if the name is not accepted. A handshake
that fails before is as one without a name. -/
def Session.shake (s : Session) (io : Io) : Op → Option Session
  | .onHandshake =>
    match s.tlsContexts.bind fun m => m.serverNameCallback io.serverName with
    | some state => some { s with tlsState := state, serverName := io.serverName }
    | none => if io.error.isSome then some s else none
  | _ => some s

/-- The destructor. -/
def destroy (w : World) : World := removeConnection (clearHttpRequest w)

section Step

variable (env : Dispatcher.Environment) (openssl : Config.OpenSsl)

def handler (io : Io) : Op → Program Unit
  | .onHandshake => onHandshake io
  | .onHeaderRead => onHeaderRead env io
  | .onWrite keepAlive => onWrite io keepAlive
  | .onShutdown => closeSocket io

/-- The part of `on_accept` that makes a session and starts it. -/
def Server.accept (sv : Server) (scheme : Scheme) (port : UInt16) (address : Text)
    (initialized : Bool) (io : Io) : Server :=
  let runtime := sv.shared.desk.runtime
  if scheme = .https ∧ runtime.tlsContexts.isNone then sv
  else
    let connections := sv.shared.registries.connections
    let shared := { sv.shared with
      registries.connections := ConnectionRegistry.add connections io.clock scheme.name address
        scheme.connected }
    if scheme = .https ∧ initialized = false then
      { sv with shared := shared, leaked := connections.nextId :: sv.leaked }
    else
      match start io ⟨shared, .accepted runtime scheme port connections.nextId⟩ with
      | .ok _ w => { sv with shared := w.shared, sessions := sv.sessions ++ [w.session] }
      | .error _ w => { sv with shared := (destroy w).shared }

/-- A guarded handler of the session at this place runs. -/
def Server.handle (sv : Server) (i : ℕ) (s : Session) (io : Io) (handler : Program Unit) : Server :=
  match invokeGuarded io handler ⟨sv.shared, s⟩ with
  | .ok _ w | .error _ w => { sv with shared := w.shared, sessions := sv.sessions.set i w.session }

def Server.complete (sv : Server) (i : ℕ) (op : Op) (io : Io) : Option Server := do
  let s ← sv.sessions[i]?
  if op ∈ s.inFlight then
    let s ← s.shake io op
    return sv.handle i (s.take op) io (handler env io op)
  else none

/-- A transaction that completes calls `on_stream_complete`. -/
def Server.relay (sv : Server) (i k : ℕ) (op : Proxy.Op) (read : Proxy.Io) (io : Io) :
    Option Server := do
  let s ← sv.sessions[i]?
  let (c, t) ← s.transactions[k]?
  let t' ← Proxy.step c t (.complete op read)
  let s' := { s with transactions := s.transactions.set k (c, t') }
  if t.completions.length < t'.completions.length then
    let r ← t'.completions.head?
    return sv.handle i s' io (onStreamComplete io r)
  else return { sv with sessions := sv.sessions.set i s' }

def step (sv : Server) : Event → Option Server
  | .publish spec => some { sv with shared.desk := sv.shared.desk.publish env openssl spec }
  | .accept scheme port address initialized io => some (sv.accept scheme port address initialized io)
  | .stop i posted io => do
    let s ← sv.sessions[i]?
    return sv.handle i s io (if posted then stopOnExecutor io else failing (some ()))
  | .complete i op io => sv.complete env i op io
  | .relay i k op read io => sv.relay i k op read io

/-- The server with its first configuration. -/
def Server.make (spec : Config.RuntimeConfigSpec) : Option Server :=
  match Snapshots.buildSnapshot env.toEnvironment spec [], makeRuntime env openssl 0 spec with
  | .ok _, .ok runtime => some { shared.desk :=
      { store := Snapshots.Store.empty.publish env.toEnvironment spec
        runtime := runtime
        consulted := [.publish spec] } }
  | _, _ => none

end Step

/-! ## What the registries know -/

/-- The ids that have been given to the sessions. -/
structure Issued (leaked : List ℕ) (sessions : List Session) (floor : ℕ) : Prop where
  below : ∀ s ∈ sessions, 0 < s.connectionId ∧ s.connectionId < floor
  distinct : (sessions.map Session.connectionId).Nodup
  sound : ∀ s ∈ sessions, s.connectionId ∉ leaked
  apart : sessions.Pairwise fun s s' => s.httpRequestId = s'.httpRequestId → s.httpRequestId = 0

/-- A registry has what is open, and nothing else. -/
structure Registered (leaked : List ℕ) (sessions : List Session) (connections requests : Ids) :
    Prop extends Issued leaked sessions connections.nextId where
  connected : ∀ id, id ∈ connections.ids ↔
    id ∈ leaked ∨ ∃ s ∈ sessions, s.closed = false ∧ s.connectionId = id
  requested : ∀ id, id ∈ requests.ids ↔ id ≠ 0 ∧ ∃ s ∈ sessions, s.httpRequestId = id
  connectionsNodup : connections.ids.Nodup
  requestsNodup : requests.ids.Nodup
  connectionsBound : ∀ id ∈ connections.ids, 0 < id ∧ id < connections.nextId
  requestsBound : ∀ id ∈ requests.ids, 0 < id ∧ id < requests.nextId
  positive : 0 < connections.nextId ∧ 0 < requests.nextId

/-- What holds of a session between two events. -/
structure Session.Good (openssl : Config.OpenSsl) (desk : Desk) (s : Session) : Prop
    extends s.Tidy, s.Rested where
  shaken : desk.Shaken openssl s.scheme s.tlsContexts s.serverName s.tlsState

structure Server.Good (env : Dispatcher.Environment) (openssl : Config.OpenSsl) (sv : Server) :
    Prop where
  registered : Registered sv.leaked sv.sessions (idsOf sv.shared.registries.connections)
    (idsOf sv.shared.registries.requests)
  sessions : ∀ s ∈ sv.sessions, s.Good openssl sv.shared.desk
  desk : sv.shared.desk.Good env openssl

/-- What the other sessions are for one session. -/
def outside (leaked : List ℕ) (rest : List Session) (own floor : ℕ)
    (consulted : List Snapshots.Event) (now : ℕ) : Outside where
  connections id := id ∈ leaked ∨ ∃ s ∈ rest, s.closed = false ∧ s.connectionId = id
  requests id := id ≠ 0 ∧ ∃ s ∈ rest, s.httpRequestId = id
  own := own
  floor := floor
  consulted := consulted
  now := now

section Sessions

variable {env : Dispatcher.Environment} {openssl : Config.OpenSsl}
variable {leaked : List ℕ} {rest sessions : List Session} {s : Session} {connections requests : Ids}

theorem Issued.perm {sessions' : List Session} {floor : ℕ} (h : Issued leaked sessions floor)
    (hperm : sessions.Perm sessions') : Issued leaked sessions' floor where
  below s hs := h.below s (hperm.mem_iff.mpr hs)
  distinct := (hperm.map _).nodup_iff.mp h.distinct
  sound s hs := h.sound s (hperm.mem_iff.mpr hs)
  apart := (hperm.pairwise_iff fun hab heq => heq.trans (hab heq.symm)).mp h.apart

theorem Registered.perm {sessions' : List Session}
    (h : Registered leaked sessions connections requests) (hperm : sessions.Perm sessions') :
    Registered leaked sessions' connections requests :=
  { h.toIssued.perm hperm, h with
    connected := fun id => by
      simp only [h.connected, hperm.mem_iff]
    requested := fun id => by
      simp only [h.requested, hperm.mem_iff] }

theorem Registered.owned (h : Registered leaked (s :: rest) connections requests) :
    Owned (outside leaked rest s.connectionId connections.nextId [] 0).connections s.connectionId
        connections ∧
      Owned (outside leaked rest s.connectionId connections.nextId [] 0).requests s.httpRequestId
        requests := by
  obtain ⟨hfresh, -⟩ := List.nodup_cons.mp h.distinct
  obtain ⟨hapart, -⟩ := List.pairwise_cons.mp h.apart
  refine ⟨⟨fun id hid => ?_, ?_, h.connectionsNodup, h.connectionsBound,
    (h.below s (List.mem_cons_self ..)).2⟩, ⟨fun id hid => ?_, ?_, h.requestsNodup, h.requestsBound, ?_⟩⟩
  · rw [h.connected id, List.exists_mem_cons_iff]
    refine or_congr_right ⟨?_, .inr⟩
    rintro (⟨-, hown⟩ | hrest)
    · exact absurd hown.symm hid
    · exact hrest
  · rintro (hleaked | ⟨s', hs', -, hid⟩)
    · exact h.sound s (List.mem_cons_self ..) hleaked
    · exact hfresh (List.mem_map.mpr ⟨s', hs', hid⟩)
  · rw [h.requested id, List.exists_mem_cons_iff]
    refine and_congr_right fun _ => ⟨?_, .inr⟩
    rintro (hown | hrest)
    · exact absurd hown.symm hid
    · exact hrest
  · rintro ⟨hne, s', hs', hid⟩
    exact hne (hapart s' hs' hid.symm)
  · by_cases hzero : s.httpRequestId = 0
    · rw [hzero]
      exact h.positive.2
    · exact (h.requestsBound _ ((h.requested _).mpr ⟨hzero, s, List.mem_cons_self .., rfl⟩)).2

/-- What holds of all sessions is enough for one of them. -/
theorem settled_of_good {desk : Desk} (now : ℕ) (h : Registered leaked (s :: rest) connections requests)
    (hs : s.Good openssl desk) (hdesk : desk.Good env openssl) :
    Settled env openssl (outside leaked rest s.connectionId connections.nextId desk.consulted now)
      ⟨connections, requests, desk, s⟩ :=
  { hs with
    connections := h.owned.1
    requests := h.owned.2
    requested := fun hne => (h.requested _).mpr ⟨hne, s, List.mem_cons_self .., rfl⟩
    own := rfl
    floor := Nat.le_refl _
    grown := ⟨[], by simp [outside], by simp⟩
    desk := hdesk
    listed := by
      obtain ⟨hfresh, -⟩ := List.nodup_cons.mp h.distinct
      change s.connectionId ∈ connections.ids ↔ s.closed = false
      rw [h.connected]
      constructor
      · rintro (hleaked | ⟨s', hs', hopen, hid⟩)
        · exact absurd hleaked (h.sound s (List.mem_cons_self ..))
        · rcases List.mem_cons.mp hs' with rfl | hs'
          · exact hopen
          · exact absurd (List.mem_map.mpr ⟨s', hs', hid⟩) hfresh
      · exact fun hopen => .inr ⟨s, List.mem_cons_self .., hopen, rfl⟩ }

/-- And what the one makes of it is enough for all. -/
theorem Settled.registered {own floor now : ℕ} {consulted : List Snapshots.Event} {v : View}
    (hrest : Issued leaked rest floor) (hpos : 0 < own) (hleaked : own ∉ leaked)
    (hfresh : own ∉ rest.map Session.connectionId)
    (h : Settled env openssl (outside leaked rest own floor consulted now) v) :
    Registered leaked (v.session :: rest) v.connections v.requests where
  below s hs := by
    rcases List.mem_cons.mp hs with rfl | hs
    · exact ⟨h.own ▸ hpos, h.connections.fresh⟩
    · obtain ⟨hlow, hhigh⟩ := hrest.below s hs
      exact ⟨hlow, Nat.lt_of_lt_of_le hhigh h.floor⟩
  distinct := by
    have hown : v.session.connectionId = own := h.own
    exact List.nodup_cons.mpr ⟨fun hm => hfresh (hown ▸ hm), hrest.distinct⟩
  sound s hs := by
    rcases List.mem_cons.mp hs with rfl | hs
    · have hown : v.session.connectionId = own := h.own
      exact fun hm => hleaked (hown ▸ hm)
    · exact hrest.sound s hs
  apart := by
    refine List.pairwise_cons.mpr ⟨fun s hs heq => ?_, hrest.apart⟩
    by_contra hne
    exact h.requests.apart ⟨hne, s, hs, heq.symm⟩
  connected id := by
    rw [List.exists_mem_cons_iff]
    by_cases hid : id = v.session.connectionId
    · subst hid
      rw [h.listed]
      refine ⟨fun hopen => .inr (.inl ⟨hopen, rfl⟩), ?_⟩
      rintro (hm | ⟨hopen, -⟩ | hm)
      · exact absurd (.inl hm) h.connections.apart
      · exact hopen
      · exact absurd (.inr hm) h.connections.apart
    · rw [h.connections.mem id hid]
      refine or_congr_right ⟨.inr, ?_⟩
      rintro (⟨-, hown⟩ | hm)
      · exact absurd hown.symm hid
      · exact hm
  requested id := by
    rw [List.exists_mem_cons_iff]
    by_cases hid : id = v.session.httpRequestId
    · subst hid
      by_cases hzero : v.session.httpRequestId = 0
      · simp only [hzero, ne_eq, not_true_eq_false, false_and, iff_false]
        exact h.requests.zero
      · exact ⟨fun _ => ⟨hzero, .inl rfl⟩, fun _ => h.requested hzero⟩
    · rw [h.requests.mem id hid]
      refine and_congr_right fun _ => ⟨.inr, ?_⟩
      rintro (hown | hm)
      · exact absurd hown.symm hid
      · exact hm
  connectionsNodup := h.connections.nodup
  requestsNodup := h.requests.nodup
  connectionsBound := h.connections.bound
  requestsBound := h.requests.bound
  positive := ⟨Nat.lt_of_le_of_lt (Nat.zero_le _) h.connections.fresh,
    Nat.lt_of_le_of_lt (Nat.zero_le _) h.requests.fresh⟩

/-- A session that was not started leaves nothing behind. -/
theorem Sound.discarded {own floor now : ℕ} {consulted : List Snapshots.Event} {v : View}
    (hrest : Issued leaked rest floor) (hunlisted : v.session.connectionId ∉ v.connections.ids)
    (hid : v.session.httpRequestId = 0)
    (h : Sound env openssl (outside leaked rest own floor consulted now) v) :
    Registered leaked rest v.connections v.requests where
  below s hs := ⟨(hrest.below s hs).1, Nat.lt_of_lt_of_le (hrest.below s hs).2 h.floor⟩
  distinct := hrest.distinct
  sound := hrest.sound
  apart := hrest.apart
  connected id := by
    by_cases hown : id = v.session.connectionId
    · rw [hown]
      exact ⟨fun hm => absurd hm hunlisted, fun hm => absurd hm h.connections.apart⟩
    · exact h.connections.mem id hown
  requested id := by
    by_cases hzero : id = 0
    · simp only [hzero, ne_eq, not_true_eq_false, false_and, iff_false]
      exact h.requests.zero
    · exact h.requests.mem id (by rwa [hid])
  connectionsNodup := h.connections.nodup
  requestsNodup := h.requests.nodup
  connectionsBound := h.connections.bound
  requestsBound := h.requests.bound
  positive := ⟨Nat.lt_of_le_of_lt (Nat.zero_le _) h.connections.fresh,
    Nat.lt_of_le_of_lt (Nat.zero_le _) h.requests.fresh⟩

/-- The id that the registry gives next is new. -/
theorem Registered.next (h : Registered leaked sessions connections requests) :
    connections.nextId ∉ leaked ∧ connections.nextId ∉ sessions.map Session.connectionId := by
  constructor
  · exact fun hm => absurd (h.connectionsBound _ ((h.connected _).mpr (.inl hm))).2 (Nat.lt_irrefl _)
  · intro hm
    obtain ⟨s, hs, hid⟩ := List.mem_map.mp hm
    exact absurd (h.below s hs).2 (hid ▸ Nat.lt_irrefl _)

theorem Issued.weaken {floor floor' : ℕ} (h : Issued leaked sessions floor) (hle : floor ≤ floor') :
    Issued leaked sessions floor' :=
  { h with below := fun s hs => ⟨(h.below s hs).1, Nat.lt_of_lt_of_le (h.below s hs).2 hle⟩ }

theorem Registered.leak (h : Registered leaked sessions connections requests) :
    Registered (connections.nextId :: leaked) sessions connections.add requests :=
  { h with
    toIssued := { h.toIssued.weaken (Nat.le_succ _) with
      sound := fun s hs hm => by
        rcases List.mem_cons.mp hm with hid | hm
        · exact h.next.2 (List.mem_map.mpr ⟨s, hs, hid⟩)
        · exact h.sound s hs hm }
    connected := fun id => by
      simp only [Ids.add, List.mem_append, h.connected, List.mem_cons, List.not_mem_nil, or_false]
      exact or_comm.trans or_assoc.symm
    connectionsNodup := by
      refine h.connectionsNodup.append (List.nodup_singleton _) fun id hid hone => ?_
      rw [List.mem_singleton.mp hone] at hid
      exact absurd (h.connectionsBound _ hid).2 (Nat.lt_irrefl _)
    connectionsBound := fun id hid => by
      rcases List.mem_append.mp hid with hid | hid
      · exact ⟨(h.connectionsBound id hid).1, Nat.lt_succ_of_lt (h.connectionsBound id hid).2⟩
      · rw [List.mem_singleton.mp hid]
        exact ⟨h.positive.1, Nat.lt_succ_self _⟩
    positive := ⟨Nat.succ_pos _, h.positive.2⟩ }

/-- What is registered, for a session that has no id yet. -/
theorem Registered.vacant (h : Registered leaked sessions connections requests) {own floor now : ℕ}
    {consulted : List Snapshots.Event} :
    Owned (outside leaked sessions own floor consulted now).connections 0 connections ∧
      Owned (outside leaked sessions own floor consulted now).requests 0 requests where
  left :=
    { mem := fun id _ => h.connected id
      apart := fun hm => absurd (h.connectionsBound 0 ((h.connected 0).mpr hm)).1 (Nat.lt_irrefl _)
      nodup := h.connectionsNodup
      bound := h.connectionsBound
      fresh := h.positive.1 }
  right :=
    { mem := fun id _ => h.requested id
      apart := fun hm => hm.1 rfl
      nodup := h.requestsNodup
      bound := h.requestsBound
      fresh := h.positive.2 }

/-- A session that was just constructed. -/
theorem accepted_handling {desk : Desk} (h : Registered leaked sessions connections requests)
    (hdesk : desk.Good env openssl) {scheme : Scheme} (port : UInt16) (now : ℕ)
    (hscheme : scheme = .https → desk.runtime.tlsContexts.isSome) :
    Handling env openssl
      (outside leaked sessions connections.nextId (connections.nextId + 1) desk.consulted now)
      ⟨connections.add, requests, desk, .accepted desk.runtime scheme port connections.nextId⟩ where
  narrow := Nat.zero_le _
  lively := fun t ht => by cases ht
  older := fun t ht => by cases ht
  parser := by simp [Session.accepted, Session.running]
  logged := rfl
  dispatched := ⟨Nat.le_refl _, Nat.zero_le _⟩
  closes := rfl
  connections := h.vacant.1.add
  requests := h.vacant.2
  requested := fun hne => absurd rfl hne
  own := rfl
  floor := Nat.le_refl _
  grown := ⟨[], by simp [outside], by simp⟩
  shaken := by
    rintro rfl
    obtain ⟨m, hm⟩ := Option.isSome_iff_exists.mp (hscheme rfl)
    refine ⟨m, hm, hdesk.contexts m hm, ?_⟩
    simp only [Session.accepted, hm, Option.bind_some]
    rfl
  desk := hdesk
  onClose := rfl
  socketOpen := rfl
  requestId := fun _ => rfl
  aborted := fun _ => rfl
  listed := ⟨fun _ => rfl, fun _ => Ids.mem_add⟩
  dispatcher := rfl
  proxy := rfl
  log := fun hu => absurd hu (Nat.lt_irrefl _)
  waiting := fun _ => rfl
  idle := rfl
  closing := fun _ => rfl

theorem Session.Good.mono {desk desk' : Desk} (h : s.Good openssl desk)
    (hsub : desk.consulted ⊆ desk'.consulted) : s.Good openssl desk' :=
  { h with shaken := h.shaken.mono hsub }

/-- The session at a place, and the rest. -/
theorem perm_set {i : ℕ} (h : sessions[i]? = some s) :
    ∃ rest, sessions.Perm (s :: rest) ∧ ∀ s', (sessions.set i s').Perm (s' :: rest) := by
  obtain ⟨hlt, hs⟩ := List.getElem?_eq_some_iff.mp h
  refine ⟨sessions.eraseIdx i, ?_, fun s' => ?_⟩
  · rw [← hs]
    exact (List.getElem_cons_eraseIdx_perm hlt).symm
  · have hlt' : i < (sessions.set i s').length := by rwa [List.length_set]
    have hperm := (List.getElem_cons_eraseIdx_perm hlt').symm
    rwa [List.getElem_set_self, List.eraseIdx_set_eq] at hperm

end Sessions

/-! ## Steps -/

section Steps

variable {env : Dispatcher.Environment} {openssl : Config.OpenSsl} {sv : Server} {io : Io}

/-- What an event may add to what has been published and asked. -/
def Event.admits (e : Event) : Snapshots.Event → Prop
  | .publish spec => e = .publish spec
  | .request r => e.time = some r.now

/-- What a step leaves. -/
structure Kept (env : Dispatcher.Environment) (openssl : Config.OpenSsl) (sv : Server) (e : Event)
    (sv' : Server) : Prop where
  good : sv'.Good env openssl
  grown : ∃ added, sv'.shared.desk.consulted = sv.shared.desk.consulted ++ added ∧
    ∀ a ∈ added, e.admits a

theorem Kept.refl (h : sv.Good env openssl) (e : Event) : Kept env openssl sv e sv :=
  ⟨h, [], by simp, by simp⟩

/-- A handler has asked at the time of the event. -/
theorem Sound.grown_of_time {o : Outside} {v : View} {e : Event} (h : Sound env openssl o v)
    (he : e.time = some o.now) :
    ∃ added, v.desk.consulted = o.consulted ++ added ∧ ∀ a ∈ added, e.admits a := by
  obtain ⟨rs, heq, hrs⟩ := h.grown
  refine ⟨rs.map .request, heq, fun a ha => ?_⟩
  obtain ⟨r, hr, rfl⟩ := List.mem_map.mp ha
  exact he.trans (congrArg some (hrs r hr).symm)

/-- A session whose place is taken by what a handler has made of it. -/
theorem kept_set {e : Event} {i now : ℕ} {s : Session} (he : e.time = some now)
    (h : sv.Good env openssl) (hs : sv.sessions[i]? = some s) {w : World}
    (hw : ∀ o, o.now = now → Settled env openssl o (World.view ⟨sv.shared, s⟩) →
      Settled env openssl o w.view) :
    Kept env openssl sv e
      { sv with
        shared := w.shared
        sessions := sv.sessions.set i w.session } := by
  obtain ⟨rest, hperm, hset⟩ := perm_set hs
  have hreg := h.registered.perm hperm
  have hgood : ∀ s' ∈ s :: rest, s'.Good openssl sv.shared.desk := fun s' hs' =>
    h.sessions s' (hperm.mem_iff.mpr hs')
  have hsettled := hw _ rfl
    (settled_of_good now hreg (hgood s (List.mem_cons_self ..)) h.desk)
  obtain ⟨hfresh, hdistinct⟩ := List.nodup_cons.mp hreg.distinct
  obtain ⟨hleaked, hpos⟩ := And.intro (hreg.sound s (List.mem_cons_self ..))
    (hreg.below s (List.mem_cons_self ..)).1
  have hissued : Issued sv.leaked rest (idsOf sv.shared.registries.connections).nextId :=
    ⟨fun s' hs' => hreg.below s' (List.mem_cons_of_mem _ hs'), hdistinct,
      fun s' hs' => hreg.sound s' (List.mem_cons_of_mem _ hs'),
      (List.pairwise_cons.mp hreg.apart).2⟩
  refine ⟨⟨(hsettled.registered hissued hpos hleaked hfresh).perm (hset w.session).symm, ?_,
    hsettled.desk⟩, hsettled.grown_of_time he⟩
  intro s' hs'
  rcases List.mem_cons.mp ((hset w.session).mem_iff.mp hs') with rfl | hs'
  · exact { hsettled with }
  · exact (hgood s' (List.mem_cons_of_mem _ hs')).mono hsettled.consulted

theorem kept_handle {e : Event} {i : ℕ} {s s₁ : Session} {m : Program Unit}
    (he : e.time = some io.now) (h : sv.Good env openssl) (hs : sv.sessions[i]? = some s)
    (hm : ∀ o, o.now = io.now → Settled env openssl o (World.view ⟨sv.shared, s⟩) →
      Spec (· = ⟨sv.shared, s₁⟩) m (fun _ => At (Settled env openssl o)) (At (Sound env openssl o))) :
    Kept env openssl sv e (sv.handle i s₁ io m) := by
  have hcaught : ∀ o, o.now = io.now → Settled env openssl o (World.view ⟨sv.shared, s⟩) →
      Spec (· = ⟨sv.shared, s₁⟩) (invokeGuarded io m) (fun _ => At (Settled env openssl o))
        fun _ => False := fun o hnow ho =>
    spec_caught (spec_conseq (hm o hnow ho) (fun _ h => h) (fun _ _ h => h) fun _ h => abort_settled h io)
  unfold Server.handle
  cases hw : invokeGuarded io m ⟨sv.shared, s₁⟩ with
  | ok _ w =>
    refine kept_set he h hs fun o hnow ho => ?_
    have hspec := hcaught o hnow ho _ rfl
    rw [hw] at hspec
    exact hspec
  | error _ w =>
    refine kept_set he h hs fun o hnow ho => ?_
    have hspec := hcaught o hnow ho _ rfl
    rw [hw] at hspec
    exact hspec.elim

section Taken

variable {o : Outside} {v : View} {op : Op}

theorem Settled.taken (h : Settled env openssl o v) (hop : op ∈ v.session.inFlight) :
    Closable env openssl o { v with session := v.session.take op } ∧ (v.session.take op).busy = 0 := by
  have hpos : 0 < v.session.inFlight.length := List.length_pos_of_mem hop
  have hnarrow : v.session.inFlight.length + v.session.running ≤ 1 := h.narrow
  have herase : (v.session.inFlight.erase op).length = 0 := by
    rw [List.length_erase_of_mem hop]
    omega
  have hidle : (v.session.take op).busy = 0 := by
    change (v.session.inFlight.erase op).length + v.session.running = 0
    omega
  have hnil : (v.session.take op).inFlight = [] := Session.inFlight_nil hidle
  have hproxy : v.session.proxyOperation = false := Bool.eq_false_of_not_eq_true fun hp => by
    have hone := h.proxy hp
    omega
  have hclosable := h.closable hproxy
  exact ⟨{ hclosable with
    narrow := hidle.le.trans (Nat.zero_le _)
    parser := fun hneeded => by
      rw [hnil, Session.running_eq_zero hidle] at hneeded
      simp at hneeded
    waiting := fun hm => by
      rw [hnil] at hm
      simp at hm }, hidle⟩

theorem Settled.handling (h : Settled env openssl o v) (hop : op ∈ v.session.inFlight)
    (hne : op ≠ .onShutdown) : Handling env openssl o { v with session := v.session.take op } :=
  { (h.taken hop).1 with
    idle := (h.taken hop).2
    closing := fun hopen => Bool.eq_false_of_not_eq_true fun hclosing => hne (by
      have hone := h.closing hopen hclosing
      rw [hone, List.mem_singleton] at hop
      exact hop) }

theorem Settled.shake {s : Session} (h : Settled env openssl o v) (hs : v.session.shake io op = some s) :
    Settled env openssl o { v with session := s } ∧ s.inFlight = v.session.inFlight := by
  unfold Session.shake at hs
  split at hs
  · split at hs
    · rename_i state hstate
      cases hs
      refine ⟨{ h with shaken := fun hscheme => ?_ }, rfl⟩
      obtain ⟨m, hm, hpublished, -⟩ := h.shaken hscheme
      rw [hm, Option.bind_some] at hstate
      exact ⟨m, hm, hpublished, hstate⟩
    · split at hs
      · cases hs
        exact ⟨h, rfl⟩
      · cases hs
  · cases hs
    exact ⟨h, rfl⟩

end Taken

theorem kept_complete {e : Event} {sv' : Server} {i : ℕ} {op : Op} (he : e.time = some io.now)
    (h : sv.Good env openssl) (hs : sv.complete env i op io = some sv') :
    Kept env openssl sv e sv' := by
  unfold Server.complete at hs
  obtain ⟨s, hsession, hs⟩ := Option.bind_eq_some_iff.mp hs
  split at hs
  · rename_i hop
    obtain ⟨s₁, hshake, hs⟩ := Option.bind_eq_some_iff.mp hs
    cases hs
    refine kept_handle he h hsession fun o hnow ho => ?_
    obtain ⟨hsettled, hflight⟩ := ho.shake hshake
    replace hop : op ∈ s₁.inFlight := hflight ▸ hop
    cases op with
    | onHandshake => exact spec_at spec_onHandshake (hsettled.handling hop (by simp))
    | onHeaderRead =>
      refine spec_at (spec_onHeaderRead hnow) ?_
      exact { hsettled.handling hop (by simp) with
        parsed := hsettled.parser (.inl hop)
        unasked := hsettled.waiting (.inl hop) }
    | onWrite keepAlive =>
      exact spec_at (spec_onWrite keepAlive) (hsettled.handling hop (by simp))
    | onShutdown => exact spec_at spec_closeSocket (hsettled.taken hop).1
  · cases hs

/-- A transaction that is not the newest has completed before. -/
theorem advanced_relay {s : Session} {k : ℕ} {c : Proxy.Config} {t t' : Proxy.State}
    {op : Proxy.Op} {read : Proxy.Io} (hlively : ∀ t ∈ s.transactions, Proxy.Lively t.2)
    (holder : ∀ t ∈ s.transactions.tail, t.2.completed = true) (ht : s.transactions[k]? = some (c, t))
    (hstep : Proxy.step c t (.complete op read) = some t') :
    Advanced s { s with transactions := s.transactions.set k (c, t') } ∧
      (t.completions.length < t'.completions.length ↔ s.completions.length <
        (Session.completions { s with transactions := s.transactions.set k (c, t') }).length) := by
  have hlive := hlively _ (List.mem_of_getElem? ht)
  have hnext : Proxy.Lively t' := Proxy.lively_step hlive hstep
  cases hts : s.transactions with
  | nil => simp [hts] at ht
  | cons head rest =>
    cases k with
    | zero =>
      rw [hts, List.getElem?_cons_zero, Option.some.injEq] at ht
      subst ht
      refine ⟨advanced_head hts hlively holder hnext fun hr =>
        Proxy.completed_step hlive.mode hr hstep, ?_⟩
      change _ ↔ _ < (Session.completions { s with transactions := (c, t') :: rest }).length
      rw [completions_eq hts, completions_eq (s := { s with transactions := (c, t') :: rest }) rfl]
    | succ k =>
      rw [hts, List.getElem?_cons_succ] at ht
      have hdone : t.completed = true := holder (c, t) (by
        rw [hts]
        exact List.mem_of_getElem? ht)
      have hdone' := Proxy.completed_step hlive.mode hdone hstep
      refine ⟨advanced_tail k hts hlively holder hnext hdone', ?_⟩
      change _ ↔ _ < (Session.completions { s with
        transactions := head :: rest.set k (c, t') }).length
      rw [(mode_completions hlive.mode).2 hdone, (mode_completions hnext.mode).2 hdone', completions_eq hts,
        completions_eq (s := { s with transactions := head :: rest.set k (c, t') }) rfl]
      simp only [Nat.lt_irrefl]

theorem kept_relay {e : Event} {sv' : Server} {i k : ℕ} {op : Proxy.Op} {read : Proxy.Io}
    (he : e.time = some io.now) (h : sv.Good env openssl)
    (hs : sv.relay i k op read io = some sv') : Kept env openssl sv e sv' := by
  unfold Server.relay at hs
  obtain ⟨s, hsession, hs⟩ := Option.bind_eq_some_iff.mp hs
  obtain ⟨⟨c, t⟩, ht, hs⟩ := Option.bind_eq_some_iff.mp hs
  obtain ⟨t', hstep, hs⟩ := Option.bind_eq_some_iff.mp hs
  have hgood := h.sessions s (List.mem_of_getElem? hsession)
  obtain ⟨hadvanced, hgrown⟩ := advanced_relay hgood.lively hgood.older ht hstep
  split at hs
  · rename_i hlt
    obtain ⟨r, -, hs⟩ := Option.bind_eq_some_iff.mp hs
    cases hs
    refine kept_handle he h hsession fun o _ ho => spec_at (spec_onStreamComplete r) ?_
    exact (hadvanced.settled ho).2 (hgrown.mp hlt)
  · rename_i hlt
    cases hs
    refine kept_set (w := ⟨sv.shared, _⟩) he h hsession fun o _ ho => ?_
    exact (hadvanced.settled ho).1 fun hlt' => hlt (hgrown.mpr hlt')

theorem kept_publish (h : sv.Good env openssl) (spec : Config.RuntimeConfigSpec) :
    Kept env openssl sv (.publish spec)
      { sv with shared.desk := sv.shared.desk.publish env openssl spec } := by
  obtain ⟨hdesk, hsub⟩ := Http.good_publish h.desk spec
  refine ⟨⟨h.registered, fun s hs => (h.sessions s hs).mono hsub, hdesk⟩, ?_⟩
  dsimp only
  unfold Desk.publish
  split
  · exact ⟨[.publish spec], rfl, by simp [Event.admits]⟩
  · exact ⟨[], by simp, by simp⟩

theorem kept_accept {e : Event} (he : e.time = some io.now) (h : sv.Good env openssl)
    (scheme : Scheme) (port : UInt16) (address : Text) (initialized : Bool) :
    Kept env openssl sv e (sv.accept scheme port address initialized io) := by
  unfold Server.accept
  dsimp only
  split
  · exact .refl h e
  · rename_i hcontexts
    split
    · refine ⟨⟨?_, h.sessions, h.desk⟩, [], by simp, by simp⟩
      simp only [ConnectionRegistry.add, idsOf_add]
      exact h.registered.leak
    · have hsome : scheme = .https → sv.shared.desk.runtime.tlsContexts.isSome := by
        intro hscheme
        by_contra hnone
        exact hcontexts ⟨hscheme, by simpa using hnone⟩
      have hnew := accepted_handling h.registered h.desk port io.now hsome
      have hissued := h.registered.toIssued.weaken (Nat.le_succ _)
      generalize hworld : World.mk _ _ = w₀
      have hview : w₀.view = ⟨(idsOf sv.shared.registries.connections).add,
          idsOf sv.shared.registries.requests, sv.shared.desk, .accepted sv.shared.desk.runtime scheme
            port (idsOf sv.shared.registries.connections).nextId⟩ := by
        rw [← hworld]
        simp only [World.view, ConnectionRegistry.add, idsOf_add]
        rfl
      let o := outside sv.leaked sv.sessions (idsOf sv.shared.registries.connections).nextId
        ((idsOf sv.shared.registries.connections).nextId + 1) sv.shared.desk.consulted io.now
      have hpre : At (fun v => Handling env openssl o v ∧ v.session.httpRequestId = 0) w₀ := by
        rw [At, hview]
        exact ⟨hnew, rfl⟩
      have hspec := @spec_start _ _ _ io w₀ hpre
      cases hstart : start io w₀ with
      | ok _ w =>
        rw [hstart] at hspec
        have hsettled : Settled env openssl o w.view := hspec
        obtain ⟨hleaked, hfresh⟩ := h.registered.next
        refine ⟨⟨(hsettled.registered hissued h.registered.positive.1 hleaked hfresh).perm
          (List.perm_append_singleton ..).symm, fun s hs => ?_, hsettled.desk⟩,
          hsettled.grown_of_time he⟩
        rcases List.mem_append.mp hs with hs | hs
        · exact (h.sessions s hs).mono hsettled.consulted
        · rw [List.mem_singleton.mp hs]
          exact { hsettled with }
      | error _ w =>
        rw [hstart] at hspec
        have hsound : Sound env openssl o w.view.clear := Sound.clear hspec
        have hview : (destroy w).view = w.view.clear.removeConnection := by
          rw [destroy, view_removeConnection, view_clearHttpRequest]
        have hsound' : Sound env openssl o (destroy w).view := hview ▸ hsound.removeConnection
        have hunlisted : (destroy w).view.session.connectionId ∉ (destroy w).view.connections.ids :=
          hview ▸ w.view.clear.not_listed
        have hid : (destroy w).view.session.httpRequestId = 0 := by
          rw [hview]
          change w.view.clear.session.httpRequestId = 0
          rw [View.clear_session]
        exact ⟨⟨hsound'.discarded hissued hunlisted hid,
          fun s hs => (h.sessions s hs).mono hsound'.consulted, hsound'.desk⟩,
          hsound'.grown_of_time he⟩

theorem kept_step {sv' : Server} {e : Event} (h : sv.Good env openssl)
    (hs : step env openssl sv e = some sv') : Kept env openssl sv e sv' := by
  cases e with
  | publish spec =>
    cases hs
    exact kept_publish h spec
  | accept scheme port address initialized io =>
    cases hs
    exact kept_accept rfl h scheme port address initialized
  | stop i posted io =>
    obtain ⟨s, hsession, hs⟩ := Option.bind_eq_some_iff.mp hs
    cases hs
    refine kept_handle rfl h hsession fun o _ ho => ?_
    cases posted with
    | true => exact spec_at spec_stopOnExecutor ho
    | false => exact spec_at (P := At (Settled env openssl o)) (fun w hw => hw.toSound) ho
  | complete i op io => exact kept_complete rfl h hs
  | relay i k op read io => exact kept_relay rfl h hs

theorem good_run {sv' : Server} {es : List Event} (h : sv.Good env openssl)
    (hrun : run (step env openssl) sv es = some sv') : sv'.Good env openssl :=
  run_inv (fun _ _ _ h hs => (kept_step h hs).good) h hrun

theorem registered_nil : Registered [] [] ⟨[], 1⟩ ⟨[], 1⟩ where
  below := fun s hs => (List.not_mem_nil hs).elim
  distinct := List.nodup_nil
  sound := fun s hs => (List.not_mem_nil hs).elim
  apart := List.Pairwise.nil
  connected := by simp
  requested := by simp
  connectionsNodup := List.nodup_nil
  requestsNodup := List.nodup_nil
  connectionsBound := fun id hid => (List.not_mem_nil hid).elim
  requestsBound := fun id hid => (List.not_mem_nil hid).elim
  positive := ⟨Nat.one_pos, Nat.one_pos⟩

theorem good_make {spec : Config.RuntimeConfigSpec} (h : Server.make env openssl spec = some sv) :
    sv.Good env openssl := by
  unfold Server.make at h
  split at h
  · rename_i runtime hbuild hmake
    cases h
    refine ⟨registered_nil, fun s hs => (List.not_mem_nil hs).elim, ?_⟩
    refine ⟨rfl, fun m hm => ⟨spec, List.mem_singleton_self _, makeRuntime_contexts hmake hm⟩, ?_,
      fun handed hm => (List.not_mem_nil hm).elim⟩
    exact List.nil_sublist _
  · cases h

end Steps

/-! ## Every run -/

section Runs

variable {env : Dispatcher.Environment} {openssl : Config.OpenSsl} {sv₀ sv : Server} {es : List Event}
variable {spec : Config.RuntimeConfigSpec}

theorem good_of_run (hmake : Server.make env openssl spec = some sv₀)
    (hrun : run (step env openssl) sv₀ es = some sv) : sv.Good env openssl :=
  good_run (good_make hmake) hrun

end Runs

/-! ### One client of a site -/

namespace Single

def environment : Dispatcher.Environment :=
  { Snapshots.Twice.environment with
    urlAuth := fun _ => {}
    md5 := fun _ => none
    beastVersion := ascii "Boost.Beast" }

def openssl : Config.OpenSsl := fun _ _ => .ok ()

def spec : Config.RuntimeConfigSpec :=
  { Snapshots.Twice.spec 1 with tlsCertificates := [⟨"a", ["a.test"], false, "chain", "key"⟩] }

theorem isName_get : IsName (ascii "GET") := by decide

theorem isTarget_root : IsTarget (ascii "/") := by decide

theorem isName_host : IsName (ascii "Host") := by decide

theorem isValue_host : IsValue (ascii "a.test") := by decide

theorem isValue_unknown : IsValue (ascii "b.test") := by decide

def head (host : Value) : Head where
  method := ⟨ascii "GET", isName_get⟩
  target := ⟨ascii "/", isTarget_root⟩
  version := .http11
  fields := [⟨⟨ascii "Host", isName_host⟩, host⟩]

def io (host : Value) : Io :=
  { head := head host, peer := some (.v4 1), now := 1, serverName := some (ascii "a.test") }

/-- The site is asked. -/
def asked : Io := io ⟨ascii "a.test", isValue_host⟩

/-- A host is asked for that there is not. -/
def lost : Io := io ⟨ascii "b.test", isValue_unknown⟩

/-- A connection over TLS: a request that is answered at once, a second one that goes to the backend,
and a stop meanwhile. -/
def events : List Event :=
  [.accept .https 443 [] true asked, .complete 0 .onHandshake asked, .complete 0 .onHeaderRead lost,
    .complete 0 (.onWrite true) asked, .complete 0 .onHeaderRead asked,
    .relay 0 0 .startOnExecutor {} asked, .relay 0 0 .onBackendPermit {} asked, .stop 0 true asked,
    .complete 0 .onShutdown asked]

def first : Option Server := Server.make environment openssl spec

def last (n : ℕ) : Option Server :=
  first.bind fun sv => run (step environment openssl) sv (events.take n)

/-- Each of these events comes to something that is in flight. After seven of them the second request
is at the backend, and then both are logged and the session closed. -/
theorem seen : (first.bind fun sv => run (step environment openssl) sv events).isSome = true ∧
    (last 7).map (fun sv => sv.shared.registries.requests.entries.map Prod.fst) = some [2] ∧
    (last 7).all (fun sv => sv.shared.desk.consulted.length ≤ 5) = true ∧
    (last 7).all (fun sv => sv.shared.desk.handed.any fun h => h.scheme = .https) = true ∧
    (last 8).map (fun sv => sv.sessions.map fun s => s.accessLog.map Logged.dispatch) =
      some [[0, 1]] ∧
    (last 9).map (fun sv => sv.sessions.map Session.closed) = some [true] := by
  decide +kernel

theorem runs (n : ℕ) : ∃ sv₀ sv, Server.make environment openssl spec = some sv₀ ∧
    run (step environment openssl) sv₀ (events.take n) = some sv ∧ last n = some sv := by
  obtain ⟨_, hsome⟩ := Option.isSome_iff_exists.mp seen.1
  obtain ⟨sv₀, hfirst, hrun⟩ := Option.bind_eq_some_iff.mp hsome
  rw [← List.take_append_drop n events] at hrun
  obtain ⟨sv, htake, -⟩ := run_append.mp hrun
  exact ⟨sv₀, sv, hfirst, htake, Option.bind_eq_some_iff.mpr ⟨sv₀, hfirst, htake⟩⟩

end Single

section Results

variable {env : Dispatcher.Environment} {openssl : Config.OpenSsl} {sv₀ sv : Server} {es : List Event}
variable {spec : Config.RuntimeConfigSpec}

/-- The stream of a connection has one user at a time: an operation of the session, or the
transaction that is running, to which the session leaves its parser. A transaction that has completed
has nothing left on the stream. While a session is open, its stream is never without a user. -/
theorem stream_exclusive (hmake : Server.make env openssl spec = some sv₀)
    (hrun : run (step env openssl) sv₀ es = some sv) : ∀ s ∈ sv.sessions,
    s.inFlight.length + s.running ≤ 1 ∧
    (s.closed = false → s.inFlight.length + s.running = 1) ∧
    (.onHeaderRead ∈ s.inFlight ∨ 0 < s.running → s.parser = true) ∧
    (∀ t ∈ s.transactions, t.2.completed = true → Proxy.sideCount .client t.2.inFlight = 0) := by
  intro s hs
  have h := (good_of_run hmake hrun).sessions s hs
  refine ⟨h.narrow, h.busy, h.parser, fun t ht hdone => ?_⟩
  obtain ⟨hcounted, hclient, -⟩ := (h.lively t ht).mode.quiet hdone
  exact hcounted.client.symm.trans hclient

theorem stream_exclusive_relaying : ∃ sv, Single.last 7 = some sv ∧ ∀ s ∈ sv.sessions,
    s.inFlight.length + s.running ≤ 1 ∧
    (s.closed = false → s.inFlight.length + s.running = 1) ∧
    (.onHeaderRead ∈ s.inFlight ∨ 0 < s.running → s.parser = true) ∧
    (∀ t ∈ s.transactions, t.2.completed = true → Proxy.sideCount .client t.2.inFlight = 0) := by
  obtain ⟨sv₀, sv, hmake, hrun, hlast⟩ := Single.runs 7
  exact ⟨sv, hlast, stream_exclusive hmake hrun⟩

/-- An open session waits for something: for an operation of its own, or for one of the transaction
that it has started. -/
theorem never_stalled (hmake : Server.make env openssl spec = some sv₀)
    (hrun : run (step env openssl) sv₀ es = some sv) : ∀ s ∈ sv.sessions, s.closed = false →
    s.inFlight ≠ [] ∨ ∃ t ∈ s.transactions, t.2.completed = false ∧
      ∃ op ∈ t.2.inFlight, op ≠ .onConnectTimeout := by
  intro s hs hopen
  have h := (good_of_run hmake hrun).sessions s hs
  have hbusy := h.busy hopen
  by_cases hidle : s.inFlight = []
  · have hrunning : 0 < s.running := by
      rw [Session.busy, hidle, List.length_nil] at hbusy
      omega
    obtain ⟨t, ht, hgoing⟩ := List.countP_pos_iff.mp hrunning
    have hr : t.2.completed = false := by simpa using hgoing
    obtain ⟨op, hm, hline⟩ := (h.lively t ht).busy hr
    refine .inr ⟨t, ht, hr, op, hm, ?_⟩
    rintro rfl
    exact hline rfl
  · exact .inl hidle

theorem never_stalled_relaying : ∃ sv, Single.last 7 = some sv ∧ ∀ s ∈ sv.sessions,
    s.closed = false → s.inFlight ≠ [] ∨ ∃ t ∈ s.transactions, t.2.completed = false ∧
      ∃ op ∈ t.2.inFlight, op ≠ .onConnectTimeout := by
  obtain ⟨sv₀, sv, hmake, hrun, hlast⟩ := Single.runs 7
  exact ⟨sv, hlast, never_stalled hmake hrun⟩

/-- The connection registry lists the open sessions, and the connections whose session could not be
constructed; the request registry lists the requests of open sessions, among them every one that is at
a backend. Nothing is listed twice. -/
theorem registries_exact (hmake : Server.make env openssl spec = some sv₀)
    (hrun : run (step env openssl) sv₀ es = some sv) :
    (∀ id, id ∈ sv.shared.registries.connections.entries.map Prod.fst ↔
      id ∈ sv.leaked ∨ ∃ s ∈ sv.sessions, s.closed = false ∧ s.connectionId = id) ∧
    (∀ id, id ∈ sv.shared.registries.requests.entries.map Prod.fst ↔
      id ≠ 0 ∧ ∃ s ∈ sv.sessions, s.closed = false ∧ s.httpRequestId = id) ∧
    (sv.shared.registries.connections.entries.map Prod.fst).Nodup ∧
    (sv.shared.registries.requests.entries.map Prod.fst).Nodup ∧
    (sv.sessions.map Session.connectionId).Nodup ∧
    (∀ s ∈ sv.sessions, s.connectionId ∉ sv.leaked) ∧
    (sv.sessions.Pairwise fun s s' => s.httpRequestId = s'.httpRequestId → s.httpRequestId = 0) ∧
    (∀ s ∈ sv.sessions, s.closed = false → 0 < s.running → s.httpRequestId ≠ 0) := by
  have h := good_of_run hmake hrun
  refine ⟨h.registered.connected, fun id => (h.registered.requested id).trans ?_,
    h.registered.connectionsNodup, h.registered.requestsNodup, h.registered.distinct,
    h.registered.sound, h.registered.apart, fun s hs => (h.sessions s hs).asked⟩
  refine and_congr_right fun hne => exists_congr fun s => and_congr_right fun hs => ?_
  refine ⟨fun hid => ⟨Bool.eq_false_of_not_eq_true fun hclosed => hne ?_, hid⟩, fun h => h.2⟩
  rw [← hid]
  exact (h.sessions s hs).requestId hclosed

theorem registries_exact_relaying : ∃ sv, Single.last 7 = some sv ∧
    sv.shared.registries.requests.entries.map Prod.fst = [2] ∧
    (∀ id, id ∈ sv.shared.registries.connections.entries.map Prod.fst ↔
      id ∈ sv.leaked ∨ ∃ s ∈ sv.sessions, s.closed = false ∧ s.connectionId = id) ∧
    (∀ id, id ∈ sv.shared.registries.requests.entries.map Prod.fst ↔
      id ≠ 0 ∧ ∃ s ∈ sv.sessions, s.closed = false ∧ s.httpRequestId = id) ∧
    (sv.shared.registries.connections.entries.map Prod.fst).Nodup ∧
    (sv.shared.registries.requests.entries.map Prod.fst).Nodup ∧
    (sv.sessions.map Session.connectionId).Nodup ∧
    (∀ s ∈ sv.sessions, s.connectionId ∉ sv.leaked) ∧
    (sv.sessions.Pairwise fun s s' => s.httpRequestId = s'.httpRequestId → s.httpRequestId = 0) ∧
    (∀ s ∈ sv.sessions, s.closed = false → 0 < s.running → s.httpRequestId ≠ 0) := by
  obtain ⟨sv₀, sv, hmake, hrun, hlast⟩ := Single.runs 7
  obtain ⟨-, hlisted, -⟩ := Single.seen
  rw [hlast] at hlisted
  exact ⟨sv, hlast, Option.some.inj hlisted, registries_exact hmake hrun⟩

/-- Whatever has closed a session, an error, the peer, `stop` or an exception: its callback has been
called once, its socket is closed, and the registries do not list it. Before, its callback has not been
called, its socket is open, and the registry of the connections lists it. -/
theorem ends_once (hmake : Server.make env openssl spec = some sv₀)
    (hrun : run (step env openssl) sv₀ es = some sv) : ∀ s ∈ sv.sessions,
    s.closes = (if s.closed then 1 else 0) ∧ s.onClose = !s.closed ∧ s.socketOpen = !s.closed ∧
    (s.closed = true → s.httpRequestId = 0 ∧
      s.connectionId ∉ sv.shared.registries.connections.entries.map Prod.fst) ∧
    (s.closed = false →
      s.connectionId ∈ sv.shared.registries.connections.entries.map Prod.fst) := by
  intro s hs
  have h := good_of_run hmake hrun
  have hgood := h.sessions s hs
  refine ⟨?_, hgood.onClose, hgood.socketOpen, fun hclosed => ⟨hgood.requestId hclosed, fun hm => ?_⟩,
    fun hopen => (h.registered.connected _).mpr (.inr ⟨s, hs, hopen, rfl⟩)⟩
  · rw [hgood.closes, hgood.onClose]
    cases s.closed <;> rfl
  · rcases (h.registered.connected _).mp hm with hleaked | ⟨s', hs', hopen, hid⟩
    · exact h.registered.sound s hs hleaked
    · have hsame : s' = s := List.inj_on_of_nodup_map h.registered.distinct hs' hs hid
      rw [hsame, hclosed] at hopen
      cases hopen

theorem ends_once_stopped : ∃ sv, Single.last 9 = some sv ∧ sv.sessions.map Session.closed = [true] ∧
    ∀ s ∈ sv.sessions, s.closes = (if s.closed then 1 else 0) ∧ s.onClose = !s.closed ∧
      s.socketOpen = !s.closed ∧
      (s.closed = true → s.httpRequestId = 0 ∧
        s.connectionId ∉ sv.shared.registries.connections.entries.map Prod.fst) ∧
      (s.closed = false →
        s.connectionId ∈ sv.shared.registries.connections.entries.map Prod.fst) := by
  obtain ⟨sv₀, sv, hmake, hrun, hlast⟩ := Single.runs 9
  obtain ⟨-, -, -, -, -, hclosed⟩ := Single.seen
  rw [hlast] at hclosed
  exact ⟨sv, hlast, Option.some.inj hclosed, ends_once hmake hrun⟩

/-- The requests of a session are logged in the order in which they were dispatched, each at most
once. Only the last can be missing: it is at a backend, or an exception has closed the session. -/
theorem accessLog_exact (hmake : Server.make env openssl spec = some sv₀)
    (hrun : run (step env openssl) sv₀ es = some sv) : ∀ s ∈ sv.sessions,
    s.accessLog.map Logged.dispatch = List.range s.accessLog.length ∧
    (s.dispatches.length = s.accessLog.length ∨
      s.dispatches.length = s.accessLog.length + 1 ∧
        (s.running = 1 ∧ s.dispatcher = true ∧ s.completed = false ∨ s.aborted = true)) := by
  intro s hs
  have h := (good_of_run hmake hrun).sessions s hs
  refine ⟨h.logged, ?_⟩
  obtain ⟨hle, hge⟩ := h.dispatched
  rcases Nat.lt_or_ge s.accessLog.length s.dispatches.length with hlt | hge'
  · refine .inr ⟨by omega, ?_⟩
    rcases h.log hlt with haborted | hdispatcher
    · exact .inr haborted
    · obtain ⟨hproxy, hcompleted, -⟩ := h.dispatcher hdispatcher
      exact .inl ⟨h.proxy hproxy, hdispatcher, hcompleted⟩
  · exact .inl (by omega)

theorem accessLog_exact_stopped : ∃ sv, Single.last 8 = some sv ∧
    sv.sessions.map (fun s => s.accessLog.map Logged.dispatch) = [[0, 1]] ∧
    ∀ s ∈ sv.sessions, s.accessLog.map Logged.dispatch = List.range s.accessLog.length ∧
      (s.dispatches.length = s.accessLog.length ∨
        s.dispatches.length = s.accessLog.length + 1 ∧
          (s.running = 1 ∧ s.dispatcher = true ∧ s.completed = false ∨ s.aborted = true)) := by
  obtain ⟨sv₀, sv, hmake, hrun, hlast⟩ := Single.runs 8
  obtain ⟨-, -, -, -, hlogged, -⟩ := Single.seen
  rw [hlast] at hlogged
  exact ⟨sv, hlast, Option.some.inj hlogged, accessLog_exact hmake hrun⟩

end Results

end HttpSession
end WebServer
