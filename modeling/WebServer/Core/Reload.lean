import WebServer.Config.Runtime
import WebServer.Lib.Act
import WebServer.Limiter.Model

/-!
# WebServer.Core.Reload

`ServerCore::prepare_reload` and the activation that it returns.

A reload is prepared under the control lock: the next snapshot is built, the listeners that it adds
are bound and started, and the listener maps that will replace the current ones are computed. All
of this is held by a `PreparedReload` object. Its destructor stops the added listeners and releases
the lock, unless the activation has run before: that swaps the maps in, retires the listeners that
are no longer wanted, publishes the snapshot and releases the lock itself.

A listener is known by its id. It starts bound; `stop` and `retire` are requests, which the
listener carries out on its own executor.
-/

namespace WebServer
namespace Core

open Config Act

inductive Protocol where
  | http
  | https
  deriving DecidableEq

structure Listener where
  id : Nat
  protocol : Protocol
  port : Nat
  minimumRuntimeRevision : Nat := 0
  stopped : Bool := false
  retired : Bool := false
  deriving DecidableEq

def Listener.start (revision : Nat) (l : Listener) : Listener :=
  { l with minimumRuntimeRevision := revision }

def Listener.stop (l : Listener) : Listener := { l with stopped := true }

def Listener.retire (l : Listener) : Listener := { l with retired := true }

/-- The listeners of one protocol: by port, and those that drain. -/
structure ListenerTable where
  active : List (Nat × Nat)
  retired : List Nat
  deriving DecidableEq

/-- What is prepared for one protocol. -/
structure PreparedTable where
  final : List (Nat × Nat) := []
  finalRetired : List Nat := []
  added : List Nat := []
  retire : List Nat := []
  deriving DecidableEq

structure PreparedReload where
  next : RuntimeConfig
  overloadLimits : List BackendOverloadConfig
  activeSiteIds : List Int
  http : PreparedTable := {}
  tls : PreparedTable := {}
  serverStarted : Bool := false
  deriving DecidableEq

/-- `listeners` are all that were ever bound; `prepared` is the object that is alive, if any. -/
structure Server where
  runtime : RuntimeConfig
  http : ListenerTable
  tls : ListenerTable
  listeners : List Listener
  limiter : Limiter.State
  started : Bool
  stopping : Bool
  controlLocked : Bool
  prepared : Option PreparedReload

/-- What fails in this execution, besides the checks of the configuration itself. -/
structure Network where
  build : Option Error
  address : Option Error
  bind : Protocol → Nat → Option Error
  start : Protocol → Nat → Option Error

def PreparedReload.added (p : PreparedReload) : List Nat := p.http.added ++ p.tls.added

def PreparedReload.table (p : PreparedReload) : Protocol → PreparedTable
  | .http => p.http
  | .https => p.tls

def PreparedReload.setTable (p : PreparedReload) (t : PreparedTable) : Protocol → PreparedReload
  | .http => { p with http := t }
  | .https => { p with tls := t }

/-- `added_http.push_back(listener)`, or the same for `added_tls`. -/
def PreparedReload.own (p : PreparedReload) (protocol : Protocol) (id : Nat) : PreparedReload :=
  p.setTable { p.table protocol with added := (p.table protocol).added ++ [id] } protocol

def Server.modifyPrepared (s : Server) (f : PreparedReload → PreparedReload) : Server :=
  { s with prepared := s.prepared.map f }

/-- A request to the listeners with these ids. -/
def Server.tell (s : Server) (ids : List Nat) (request : Listener → Listener) : Server :=
  { s with listeners := s.listeners.map fun l => if l.id ∈ ids then request l else l }

/-! ## Preparing a reload -/

/-- `explicit PreparedReload(std::mutex&)`, and the fields that are set right after it. -/
def lockControl (next : RuntimeConfig) (spec : RuntimeConfigSpec) : EStateM Error Server Unit :=
  fun s =>
    if s.controlLocked then .error "resource deadlock would occur" s
    else .ok () { s with
      controlLocked := true
      prepared := some
        { next := next
          overloadLimits := spec.sites.map (·.virtualHost.overload)
          activeSiteIds := spec.sites.map (·.virtualHost.overload.siteId) } }

/-- `~PreparedReload` of an object that is not committed. -/
def destroyPrepared (s : Server) : Server :=
  match s.prepared with
  | none => s
  | some p =>
    { s.tell p.added Listener.stop with
      controlLocked := false
      prepared := none }

def refuseStopping : EStateM Error Server Unit := fun s =>
  if s.stopping then .error "cannot reload a stopping server" s
  else .ok () (s.modifyPrepared fun p => { p with serverStarted := s.started })

/-- The current maps are the starting point for the final ones. -/
def copyTables (s : Server) : Server :=
  s.modifyPrepared fun p => { p with
    http := { p.http with final := s.http.active, finalRetired := s.http.retired }
    tls := { p.tls with final := s.tls.active, finalRetired := s.tls.retired } }

/-- The new listener is bound and owned by the prepared object before anything else can fail. -/
def bindListener (env : Network) (protocol : Protocol) (port : Nat) :
    EStateM Error Server Nat := fun s =>
  match env.bind protocol port with
  | some e => .error e s
  | none =>
    let id := s.listeners.length
    let listener : Listener := { id := id, protocol := protocol, port := port }
    .ok id ({ s with listeners := s.listeners ++ [listener] }.modifyPrepared (·.own protocol id))

def startListener (env : Network) (protocol : Protocol) (port revision id : Nat) :
    EStateM Error Server Unit := do
  modify fun s => s.tell [id] (Listener.start revision)
  failing (env.start protocol port)

def emplaceFinal (protocol : Protocol) (port id : Nat) (s : Server) : Server :=
  s.modifyPrepared fun p =>
    p.setTable { p.table protocol with final := (p.table protocol).final ++ [(port, id)] } protocol

def Server.hasFinal (s : Server) (protocol : Protocol) (port : Nat) : Bool :=
  s.prepared.any fun p => (p.table protocol).final.any fun e => e.1 == port

/-- One round of the loops over `http_ports()` and `https_ports()`. -/
def addListener (env : Network) (protocol : Protocol) (revision port : Nat) :
    EStateM Error Server Unit := do
  let s ← get
  if s.hasFinal protocol port then pure ()
  else do
    let id ← bindListener env protocol port
    startListener env protocol port revision id
    modify (emplaceFinal protocol port id)

def PreparedTable.retireExcept (t : PreparedTable) (ports : List Nat) : PreparedTable :=
  let gone := (t.final.filter fun e => !ports.contains e.1).map (·.2)
  { t with
    finalRetired := t.finalRetired ++ gone
    retire := t.retire ++ gone
    final := t.final.filter fun e => ports.contains e.1 }

/-- Listeners whose port is not wanted any more leave the final maps. -/
def retireListeners (s : Server) : Server :=
  s.modifyPrepared fun p => { p with
    http := p.http.retireExcept p.next.httpPorts
    tls := p.tls.retireExcept p.next.httpsPorts }

def prepareListeners (env : Network) (next : RuntimeConfig) : EStateM Error Server Unit := do
  failing env.address
  modify copyTables
  loop (addListener env .http next.revision) next.httpPorts
  loop (addListener env .https next.revision) next.httpsPorts
  modify retireListeners

def fillPrepared (env : Network) (next : RuntimeConfig) : EStateM Error Server Unit := do
  refuseStopping
  let s ← get
  if s.started then prepareListeners env next else pure ()

/-- On return the prepared object is alive and holds the control lock. -/
def prepareReload (chk : Checks) (env : Network) (spec : RuntimeConfigSpec) :
    EStateM Error Server Unit := do
  let next ← attempt (buildRuntimeConfig chk spec)
  failing env.build
  lockControl next spec
  guarded destroyPrepared (fillPrepared env next)

/-! ## Activation -/

def updateAllLimits (limiter : Limiter.State) (p : PreparedReload) : Limiter.State :=
  Limiter.retainSites
    (p.overloadLimits.foldl (fun l o =>
      Limiter.updateLimits l o.siteId o.maximumActiveConnections o.maximumQueue) limiter)
    p.activeSiteIds

def swapTables (p : PreparedReload) (s : Server) : Server :=
  { s.tell (p.http.retire ++ p.tls.retire) Listener.retire with
    http := ⟨p.http.final, p.http.finalRetired⟩
    tls := ⟨p.tls.final, p.tls.finalRetired⟩ }

/-- The closure that `prepare_reload` returns. Publication is its last effect. -/
def activate (s : Server) : Server :=
  match s.prepared with
  | none => s
  | some p =>
    let s := { s with limiter := updateAllLimits s.limiter p }
    let s := if p.serverStarted then swapTables p s else s
    { s with
      runtime := p.next
      controlLocked := false
      prepared := none }

/-! ## Start, stop and draining -/

def bindPorts (env : Network) (protocol : Protocol) :
    List Nat → EStateM Error Server (List (Nat × Nat))
  | [] => pure []
  | port :: ports => do
    let id ← bindListener env protocol port
    let rest ← bindPorts env protocol ports
    pure ((port, id) :: rest)

def refuseStarted : EStateM Error Server Unit := fun s =>
  if s.started then .error "HTTP server has already been started" s
  else .ok () { s with started := true }

/-- The `catch` of `start`, with the `wait` that it calls: nothing listens any more. -/
def abandonStart (s : Server) : Server :=
  { s.tell (s.listeners.map (·.id)) Listener.stop with
    stopping := true
    http := ⟨[], []⟩
    tls := ⟨[], []⟩
    limiter := Limiter.clear s.limiter }

def startListeners (env : Network) : EStateM Error Server Unit := do
  failing env.address
  let s ← get
  let http ← bindPorts env .http s.runtime.httpPorts
  let tls ← bindPorts env .https s.runtime.httpsPorts
  modify fun s => { s with
    http := { s.http with active := http }
    tls := { s.tls with active := tls } }
  loop (fun e => startListener env .http e.1 s.runtime.revision e.2) http
  loop (fun e => startListener env .https e.1 s.runtime.revision e.2) tls

def startServer (env : Network) : EStateM Error Server Unit := do
  refuseStarted
  guarded abandonStart (startListeners env)

/-- The handler that a drained listener posts. -/
def onDrained (protocol : Protocol) (id : Nat) (s : Server) : Server :=
  match protocol with
  | .http => { s with http := { s.http with retired := s.http.retired.filter (· != id) } }
  | .https => { s with tls := { s.tls with retired := s.tls.retired.filter (· != id) } }

def stopServer (s : Server) : Server :=
  if !s.started || s.stopping then s
  else
    let ids := s.http.active.map (·.2) ++ s.tls.active.map (·.2) ++ s.http.retired ++ s.tls.retired
    { s.tell ids Listener.stop with
      stopping := true
      limiter := Limiter.clear s.limiter }

/-! ## What a prepared reload has changed -/

/-- No reload is under way, and ids were given out in order. -/
structure Idle (s : Server) : Prop where
  unlocked : s.controlLocked = false
  unprepared : s.prepared = none
  ids : ∀ l ∈ s.listeners, l.id < s.listeners.length

/-- Nothing is left of the attempt but listeners that were told to stop. -/
structure RolledBack (s₀ s : Server) : Prop where
  frame : s = { s₀ with listeners := s.listeners }
  bound : ∃ bound, s.listeners = s₀.listeners ++ bound ∧ ∀ l ∈ bound, l.stopped = true
  idle : Idle s

/-- A reload to `revision` is being prepared: besides the lock and the prepared object only the
listeners that this object owns have been added. -/
structure Building (s₀ : Server) (revision : Nat) (s : Server) : Prop where
  frame : s = { s₀ with
    listeners := s.listeners
    controlLocked := true
    prepared := s.prepared }
  object : ∃ p, s.prepared = some p ∧ p.next.revision = revision ∧
    (∀ i ∈ p.added, s₀.listeners.length ≤ i) ∧
    ∃ bound, s.listeners = s₀.listeners ++ bound ∧ ∀ l ∈ bound, l.id ∈ p.added
  ids : ∀ l ∈ s.listeners, l.id < s.listeners.length

theorem rolledBack_refl {s : Server} (hs : Idle s) : RolledBack s s :=
  ⟨rfl, ⟨[], by simp, by simp⟩, hs⟩

section Tell

variable (request : Listener → Listener)

theorem tell_length (s : Server) (ids : List Nat) :
    (s.tell ids request).listeners.length = s.listeners.length := by simp [Server.tell]

/-- Requests do not change ids. -/
theorem tell_ids (hr : ∀ l, (request l).id = l.id) {s : Server} (ids : List Nat)
    (h : ∀ l ∈ s.listeners, l.id < s.listeners.length) :
    ∀ l ∈ (s.tell ids request).listeners, l.id < (s.tell ids request).listeners.length := by
  rw [tell_length]
  intro l hl
  simp only [Server.tell, List.mem_map] at hl
  obtain ⟨l', hl', rfl⟩ := hl
  have := h l' hl'
  split
  · rw [hr]; exact this
  · exact this

/-- A request to new listeners does not reach the old ones. -/
theorem tell_new {s : Server} {old bound : List Listener} {ids : List Nat}
    (hs : s.listeners = old ++ bound) (hold : ∀ l ∈ old, l.id < old.length)
    (hids : ∀ i ∈ ids, old.length ≤ i) :
    (s.tell ids request).listeners =
      old ++ bound.map fun l => if l.id ∈ ids then request l else l := by
  have hkeep : old.map (fun l => if l.id ∈ ids then request l else l) = old := by
    refine (List.map_congr_left fun l hl => ?_).trans (List.map_id _)
    have hlt := hold l hl
    rw [if_neg fun hm => absurd (hids _ hm) (by omega)]
    rfl
  rw [Server.tell, hs, List.map_append, hkeep]

end Tell

/-- The destructor undoes what has been prepared so far, except for the stopped listeners. -/
theorem Building.destroy {s₀ s : Server} {revision : Nat} (h₀ : Idle s₀)
    (h : Building s₀ revision s) : RolledBack s₀ (destroyPrepared s) := by
  obtain ⟨p, hp, -, hadded, bound, hbound, hown⟩ := h.object
  have htell := tell_new Listener.stop hbound h₀.ids hadded
  have hids := tell_ids Listener.stop (fun _ => rfl) p.added h.ids
  have hs : destroyPrepared s = { s.tell p.added Listener.stop with
      controlLocked := false, prepared := none } := by
    simp only [destroyPrepared, hp]
  rw [hs]
  refine ⟨?_, ⟨_, htell, ?_⟩, rfl, rfl, hids⟩
  · rw [Server.tell, h.frame]
    simp only [h₀.unlocked.symm, h₀.unprepared.symm]
  · intro l hl
    obtain ⟨l', hl', rfl⟩ := List.mem_map.mp hl
    rw [if_pos (hown l' hl')]
    rfl

section Steps

variable {s₀ s : Server} {revision : Nat}

/-- What is done to the prepared object shows only there, if it keeps the snapshot and the added
listeners. -/
theorem Building.modifyPrepared (h : Building s₀ revision s) {f : PreparedReload → PreparedReload}
    (hnext : ∀ p, (f p).next = p.next) (hadded : ∀ p, (f p).added = p.added) :
    Building s₀ revision (s.modifyPrepared f) := by
  obtain ⟨p, hp, hrev, hnew, hbound⟩ := h.object
  refine ⟨by rw [Server.modifyPrepared, h.frame], ⟨f p, ?_, ?_, ?_, ?_⟩, h.ids⟩
  · simp only [Server.modifyPrepared, hp, Option.map_some]
  · rw [hnext]; exact hrev
  · rw [hadded]; exact hnew
  · rw [hadded]; exact hbound

theorem setTable_next (p : PreparedReload) (t : PreparedTable) (protocol : Protocol) :
    (p.setTable t protocol).next = p.next := by cases protocol <;> rfl

theorem setTable_added (p : PreparedReload) {t : PreparedTable} {protocol : Protocol}
    (h : t.added = (p.table protocol).added) : (p.setTable t protocol).added = p.added := by
  cases protocol <;> simp_all [PreparedReload.added, PreparedReload.setTable, PreparedReload.table]

theorem mem_added_own (p : PreparedReload) (protocol : Protocol) (id i : Nat) :
    i ∈ (p.own protocol id).added ↔ i ∈ p.added ∨ i = id := by
  cases protocol with
  | http =>
    simp only [PreparedReload.added, PreparedReload.own, PreparedReload.setTable,
      PreparedReload.table, List.mem_append, List.mem_singleton]
    tauto
  | https =>
    simp only [PreparedReload.added, PreparedReload.own, PreparedReload.setTable,
      PreparedReload.table, List.mem_append, List.mem_singleton]
    tauto

/-- A listener that is bound belongs to the prepared object at once. -/
theorem Building.own (h : Building s₀ revision s) (protocol : Protocol) {l : Listener}
    (hl : l.id = s.listeners.length) :
    Building s₀ revision ({ s with listeners := s.listeners ++ [l] }.modifyPrepared
      (·.own protocol l.id)) := by
  obtain ⟨p, hp, hrev, hnew, bound, hbound, hown⟩ := h.object
  refine ⟨?_, ⟨p.own protocol l.id, ?_, ?_, ?_, bound ++ [l], ?_, ?_⟩, ?_⟩
  · rw [Server.modifyPrepared, h.frame]
  · simp only [Server.modifyPrepared, hp, Option.map_some]
  · rw [PreparedReload.own, setTable_next]; exact hrev
  · intro i hi
    rcases (mem_added_own p protocol _ i).mp hi with hi | rfl
    · exact hnew i hi
    · rw [hl, hbound]; simp
  · simp only [Server.modifyPrepared, hbound, List.append_assoc]
  · intro l' hl'
    rw [mem_added_own]
    rcases List.mem_append.mp hl' with hl' | hl'
    · exact .inl (hown l' hl')
    · rw [List.mem_singleton.mp hl']; exact .inr rfl
  · intro l' hl'
    simp only [Server.modifyPrepared, List.mem_append, List.mem_singleton, List.length_append,
      List.length_singleton] at hl' ⊢
    rcases hl' with hl' | rfl
    · have := h.ids l' hl'; omega
    · omega

theorem spec_bindListener (env : Network) (protocol : Protocol) (port : Nat) :
    Spec (Building s₀ revision) (bindListener env protocol port)
      (fun id s => Building s₀ revision s ∧ s₀.listeners.length ≤ id) (Building s₀ revision) := by
  intro s h
  unfold bindListener
  cases env.bind protocol port with
  | some e => exact h
  | none =>
    refine ⟨h.own protocol rfl, ?_⟩
    obtain ⟨p, hp, hrev, hnew, bound, hbound, hown⟩ := h.object
    rw [hbound]
    simp

theorem spec_startListener (env : Network) (protocol : Protocol) (port r id : Nat) (h₀ : Idle s₀) :
    Spec (fun s => Building s₀ revision s ∧ s₀.listeners.length ≤ id)
      (startListener env protocol port r id) (fun _ => Building s₀ revision)
      (Building s₀ revision) := by
  refine spec_bind (M := fun _ => Building s₀ revision) (spec_modify fun s hs => ?_) fun _ =>
    spec_failing (fun _ h => h) (fun _ h => h)
  obtain ⟨h, hid⟩ := hs
  obtain ⟨p, hp, hrev, hnew, bound, hbound, hown⟩ := h.object
  have htell := tell_new (Listener.start r) hbound h₀.ids (List.forall_mem_singleton.mpr hid)
  refine ⟨by rw [Server.tell, h.frame], ⟨p, hp, hrev, hnew, _, htell, ?_⟩,
    tell_ids (Listener.start r) (fun _ => rfl) [id] h.ids⟩
  intro l hl
  obtain ⟨l', hl', rfl⟩ := List.mem_map.mp hl
  split
  · exact hown l' hl'
  · exact hown l' hl'

theorem spec_addListener (env : Network) (protocol : Protocol) (r port : Nat) (h₀ : Idle s₀) :
    Spec (Building s₀ revision) (addListener env protocol r port) (fun _ => Building s₀ revision)
      (Building s₀ revision) := by
  refine spec_bind (M := fun _ => Building s₀ revision) (spec_get fun s h => h) fun s => ?_
  split
  · exact spec_pure fun s h => h
  · refine spec_bind (spec_bindListener env protocol port) fun id =>
      spec_bind (spec_startListener env protocol port r id h₀) fun _ => spec_modify fun s h => ?_
    exact h.modifyPrepared (fun p => setTable_next p _ protocol) fun p => setTable_added p rfl

theorem spec_prepareListeners (env : Network) (next : RuntimeConfig) (h₀ : Idle s₀) :
    Spec (Building s₀ revision) (prepareListeners env next) (fun _ => Building s₀ revision)
      (Building s₀ revision) := by
  have hcopy : ∀ s, Building s₀ revision s → Building s₀ revision (copyTables s) := by
    intro s h
    refine h.modifyPrepared ?_ ?_ <;> exact fun _ => rfl
  have hretire : ∀ s, Building s₀ revision s → Building s₀ revision (retireListeners s) := by
    intro s h
    refine h.modifyPrepared ?_ ?_ <;> exact fun _ => rfl
  refine spec_bind (M := fun _ => Building s₀ revision)
    (spec_failing (fun _ h => h) (fun _ h => h)) fun _ =>
    spec_bind (M := fun _ => Building s₀ revision) (spec_modify hcopy) fun _ => ?_
  exact spec_bind (spec_loop (spec_addListener env .http next.revision · h₀) next.httpPorts)
    fun _ => spec_bind (spec_loop (spec_addListener env .https next.revision · h₀) next.httpsPorts)
    fun _ => spec_modify hretire

theorem spec_fillPrepared (env : Network) (next : RuntimeConfig) (h₀ : Idle s₀) :
    Spec (Building s₀ revision) (fillPrepared env next) (fun _ => Building s₀ revision)
      (Building s₀ revision) := by
  have hrefuse : Spec (Building s₀ revision) refuseStopping (fun _ => Building s₀ revision)
      (Building s₀ revision) := by
    intro s h
    unfold refuseStopping
    by_cases hs : s.stopping = true
    · rw [if_pos hs]; exact h
    · rw [if_neg hs]; exact h.modifyPrepared (fun _ => rfl) (fun _ => rfl)
  refine spec_bind hrefuse fun _ => spec_bind (M := fun _ => Building s₀ revision)
    (spec_get fun s h => h) fun s => ?_
  split
  · exact spec_prepareListeners env next h₀
  · exact spec_pure fun s h => h

/-- A reload is prepared, or nothing is left of the attempt. -/
theorem spec_prepareReload (chk : Checks) (env : Network) (spec : RuntimeConfigSpec)
    (h₀ : Idle s₀) :
    Spec (· = s₀) (prepareReload chk env spec) (fun _ => Building s₀ spec.revision)
      (RolledBack s₀) := by
  have hsame : ∀ s, s = s₀ → RolledBack s₀ s := by rintro _ rfl; exact rolledBack_refl h₀
  refine spec_bind (M := fun next s => s = s₀ ∧ next.revision = spec.revision)
    (spec_attempt (fun next hn s hs => ⟨hs, buildRuntimeConfig_revision chk hn⟩) hsame) fun next =>
    spec_bind (M := fun _ s => s = s₀ ∧ next.revision = spec.revision)
      (spec_failing (fun s h => h) fun s h => hsame s h.1) fun _ => spec_bind ?_ fun _ =>
      spec_guarded (spec_conseq (spec_fillPrepared env next h₀) (fun s h => h) (fun _ s h => h)
        fun s h => h.destroy h₀)
  rintro _ ⟨rfl, hrev⟩
  unfold lockControl
  rw [if_neg (by simp [h₀.unlocked])]
  exact ⟨rfl, ⟨_, rfl, hrev, by simp [PreparedReload.added], [], by simp, by simp⟩, h₀.ids⟩

/-- The activation publishes the snapshot and gives up the lock. -/
theorem Building.activate (h : Building s₀ revision s) :
    (activate s).runtime.revision = revision ∧ Idle (Core.activate s) := by
  obtain ⟨p, hp, hrev, -⟩ := h.object
  have hids : ∀ l ∈ (Core.activate s).listeners, l.id < (Core.activate s).listeners.length := by
    simp only [Core.activate, hp]
    split
    · exact tell_ids Listener.retire (s := { s with limiter := updateAllLimits s.limiter p })
        (fun _ => rfl) (p.http.retire ++ p.tls.retire) h.ids
    · exact h.ids
  refine ⟨?_, ?_, ?_, hids⟩ <;> simp only [Core.activate, hp]
  exact hrev

/-! ## The snapshot that is published -/

/-- The prepared object holds this snapshot. -/
def Holds (next : RuntimeConfig) (s : Server) : Prop := ∃ p, s.prepared = some p ∧ p.next = next

variable {next : RuntimeConfig}

theorem Holds.modifyPrepared (h : Holds next s) {f : PreparedReload → PreparedReload}
    (hnext : ∀ p, (f p).next = p.next) : Holds next (s.modifyPrepared f) := by
  obtain ⟨p, hp, hn⟩ := h
  exact ⟨f p, by simp only [Server.modifyPrepared, hp, Option.map_some], (hnext p).trans hn⟩

theorem holds_addListener (env : Network) (protocol : Protocol) (r port : Nat) :
    Spec (Holds next) (addListener env protocol r port) (fun _ => Holds next) fun _ => True := by
  have hbind : Spec (Holds next) (bindListener env protocol port) (fun _ => Holds next)
      fun _ => True := by
    intro s h
    unfold bindListener
    cases env.bind protocol port with
    | some e => trivial
    | none =>
      have hown := h.modifyPrepared (f := (·.own protocol s.listeners.length)) fun p =>
        setTable_next p _ protocol
      exact hown
  refine spec_bind (M := fun _ => Holds next) (spec_get fun s h => h) fun s => ?_
  split
  · exact spec_pure fun s h => h
  · refine spec_bind hbind fun id => spec_bind (M := fun _ => Holds next)
      (spec_bind (M := fun _ => Holds next) (spec_modify fun s h => h) fun _ =>
        spec_failing (fun _ h => h) fun _ _ => trivial) fun _ => spec_modify fun s h => ?_
    exact h.modifyPrepared fun p => setTable_next p _ protocol

theorem holds_fillPrepared (env : Network) (c : RuntimeConfig) :
    Spec (Holds next) (fillPrepared env c) (fun _ => Holds next) fun _ => True := by
  have hrefuse : Spec (Holds next) refuseStopping (fun _ => Holds next) fun _ => True := by
    intro s h
    unfold refuseStopping
    by_cases hs : s.stopping = true
    · rw [if_pos hs]; trivial
    · rw [if_neg hs]; exact h.modifyPrepared fun _ => rfl
  refine spec_bind hrefuse fun _ => spec_bind (M := fun _ => Holds next)
    (spec_get fun s h => h) fun s => ?_
  split
  · exact spec_bind (M := fun _ => Holds next)
      (spec_failing (fun _ h => h) fun _ _ => trivial) fun _ =>
      spec_bind (M := fun _ => Holds next)
        (spec_modify fun s h => h.modifyPrepared fun _ => rfl) fun _ =>
      spec_bind (spec_loop (holds_addListener env .http c.revision) c.httpPorts) fun _ =>
      spec_bind (spec_loop (holds_addListener env .https c.revision) c.httpsPorts) fun _ =>
      spec_modify fun s h => h.modifyPrepared fun _ => rfl
  · exact spec_pure fun s h => h

/-- What is prepared for a candidate is the snapshot that is built from it. -/
theorem prepareReload_ok {chk : Checks} {env : Network} {spec : RuntimeConfigSpec} {u : Unit}
    (h : prepareReload chk env spec s₀ = .ok u s) :
    ∃ next, buildRuntimeConfig chk spec = .ok next ∧ Holds next s := by
  obtain ⟨next, s₁, hnext, hrest⟩ := bind_eq_ok h
  obtain ⟨hbuild, rfl⟩ := attempt_eq_ok hnext
  obtain ⟨_, s₂, hfail, hlocked⟩ := bind_eq_ok hrest
  obtain rfl := failing_eq_ok hfail
  obtain ⟨_, s₃, hlock, hfill⟩ := bind_eq_ok hlocked
  have hheld : Holds next s₃ := by
    unfold lockControl at hlock
    split at hlock
    · cases hlock
    · cases hlock
      exact ⟨_, rfl, rfl⟩
  have hfilled := holds_fillPrepared env next s₃ hheld
  rw [guarded_eq_ok hfill] at hfilled
  exact ⟨next, hbuild, hfilled⟩

theorem Holds.activate (h : Holds next s) : (activate s).runtime = next := by
  obtain ⟨p, hp, hn⟩ := h
  simp only [Core.activate, hp]
  exact hn

/-! ## Other changes of the server -/

theorem idle_onDrained (h : Idle s) (protocol : Protocol) (id : Nat) :
    Idle (onDrained protocol id s) := by
  cases protocol <;> exact ⟨h.unlocked, h.unprepared, h.ids⟩

theorem idle_stopServer (h : Idle s) : Idle (stopServer s) := by
  unfold stopServer
  split
  · exact h
  · exact ⟨h.unlocked, h.unprepared, tell_ids Listener.stop (fun _ => rfl) _ h.ids⟩

theorem spec_bindListener_idle (env : Network) (protocol : Protocol) (port : Nat) :
    Spec Idle (bindListener env protocol port) (fun _ => Idle) Idle := by
  intro s h
  unfold bindListener
  cases env.bind protocol port with
  | some e => exact h
  | none =>
    refine ⟨h.unlocked, by simp [Server.modifyPrepared, h.unprepared], ?_⟩
    intro l hl
    simp only [Server.modifyPrepared, List.mem_append, List.mem_singleton, List.length_append,
      List.length_singleton] at hl ⊢
    rcases hl with hl | rfl
    · have := h.ids l hl; omega
    · simp

theorem spec_bindPorts (env : Network) (protocol : Protocol) (ports : List Nat) :
    Spec Idle (bindPorts env protocol ports) (fun _ => Idle) Idle := by
  induction ports with
  | nil => exact spec_pure fun s h => h
  | cons port ports ih =>
    exact spec_bind (spec_bindListener_idle env protocol port) fun _ =>
      spec_bind ih fun _ => spec_pure fun s h => h

theorem spec_startListener_idle (env : Network) (protocol : Protocol) (port r id : Nat) :
    Spec Idle (startListener env protocol port r id) (fun _ => Idle) Idle :=
  spec_bind (M := fun _ => Idle)
    (spec_modify fun _ h => ⟨h.unlocked, h.unprepared,
      tell_ids (Listener.start r) (fun _ => rfl) [id] h.ids⟩) fun _ =>
    spec_failing (fun _ h => h) (fun _ h => h)

theorem spec_startServer (env : Network) :
    Spec Idle (startServer env) (fun _ => Idle) Idle := by
  have hrefuse : Spec Idle refuseStarted (fun _ => Idle) Idle := by
    intro s h
    unfold refuseStarted
    by_cases hs : s.started = true
    · rw [if_pos hs]; exact h
    · rw [if_neg hs]; exact ⟨h.unlocked, h.unprepared, h.ids⟩
  have habandon : ∀ s, Idle s → Idle (abandonStart s) := fun s h =>
    ⟨h.unlocked, h.unprepared, tell_ids Listener.stop (fun _ => rfl) _ h.ids⟩
  have hstart : Spec Idle (startListeners env) (fun _ => Idle) Idle := by
    refine spec_bind (M := fun _ => Idle) (spec_failing (fun _ h => h) (fun _ h => h)) fun _ =>
      spec_bind (M := fun _ => Idle) (spec_get fun s h => h) fun s =>
      spec_bind (spec_bindPorts env .http _) fun http =>
      spec_bind (spec_bindPorts env .https _) fun tls =>
      spec_bind (M := fun _ => Idle)
        (spec_modify fun s h => ⟨h.unlocked, h.unprepared, h.ids⟩) fun _ =>
      spec_bind (spec_loop (fun e => ?_) http) fun _ => spec_loop (fun e => ?_) tls
    · exact spec_startListener_idle env .http e.1 _ e.2
    · exact spec_startListener_idle env .https e.1 _ e.2
  exact spec_bind hrefuse fun _ =>
    spec_guarded (spec_conseq hstart (fun s h => h) (fun _ s h => h) habandon)

end Steps

end Core
end WebServer
