import WebServer.Core.Reload
import WebServer.Lib.Run

/-!
# WebServer.Core.Listeners

The listeners of a started server across reloads: `prepare_reload` round by round, its activation,
and what the listeners do in between on their executors.

`HttpListener` and `TlsListener` are alike here. An accept is possible at any time and for any
listener that was started; `on_accept` itself decides what becomes of it. A step is one handler, or
one round of the loops in `prepare_reload`, which bind one port each. `on_accept` takes two steps:
it tests `stopping_` and `retired_`, and then reads the revision that is published. Another thread
may drop or activate a reload in between; another handler of the same listener has to wait, since
all of them run on its strand. Dispatching and posting succeed. The mutex of the server is held
from the first step of a reload to its last, so that no drained listener is erased in between.

* `Party`: the state of a listener, with the handlers that it has dispatched or posted.
* `step`: the system. `run_prepare`: a whole `prepareReload` is a run of it.
-/

namespace WebServer
namespace Core

open Config Act

def Server.table (s : Server) : Protocol → ListenerTable
  | .http => s.http
  | .https => s.tls

/-- `http_ports()` and `https_ports()` -/
def ports (c : RuntimeConfig) : Protocol → List Nat
  | .http => c.httpPorts
  | .https => c.httpsPorts

/-- A server that was constructed and has not been started. -/
def Server.constructed (runtime : RuntimeConfig) : Server where
  runtime := runtime
  http := ⟨[], []⟩
  tls := ⟨[], []⟩
  listeners := []
  limiter := Limiter.State.init
  started := false
  stopping := false
  controlLocked := false
  prepared := none

/-- `created` and `erased` count what has happened so far: the sessions that were created, and how
often the listener was erased from the list of retired ones. A session is named by its number. -/
structure Party where
  /-- `retired_` -/
  retired : Bool := false
  /-- `on_drained_` is set -/
  onDrained : Bool := false
  sessions : List Nat := []
  /-- `on_accept` has found that the listener serves, and is about to test the gate -/
  accepting : Bool := false
  /-- `retire_on_executor` was dispatched -/
  retiring : Nat := 0
  /-- the handler that erases the listener was posted -/
  posted : Nat := 0
  created : Nat := 0
  erased : Nat := 0

def Party.notifyIfDrained (q : Party) : Party :=
  if !q.retired || !q.sessions.isEmpty || !q.onDrained then q
  else { q with onDrained := false, posted := q.posted + 1 }

def Party.retireOnExecutor (q : Party) : Party :=
  Party.notifyIfDrained { q with retiring := q.retiring - 1, retired := true, onDrained := true }

/-- The callback of a session. -/
def Party.closeSession (q : Party) (session : Nat) : Party :=
  Party.notifyIfDrained { q with sessions := q.sessions.erase session }

structure Listening where
  server : Server
  /-- the rounds that are still to come, while `prepare_reload` runs -/
  rounds : Option (List (Protocol × Nat)) := none
  party : Nat → Party := fun _ => {}

def Listening.setParty (s : Listening) (id : Nat) (q : Party) : Listening :=
  { s with party := Function.update s.party id q }

/-- What becomes of a socket once the gate is open. -/
inductive Admission where
  /-- there is no permit, or there are no TLS contexts -/
  | refused
  /-- the session could not be started -/
  | failed
  | admitted

inductive Event where
  /-- `prepare_reload`, up to its loops -/
  | prepare (env : Network) (spec : RuntimeConfigSpec)
  | round (env : Network)
  /-- the loops that retire listeners; `prepare_reload` returns -/
  | finish
  /-- the activation is run -/
  | commit
  /-- the activation is destroyed without having been run -/
  | drop
  /-- `on_accept` without an error, up to the gate -/
  | accept (id : Nat)
  /-- the rest of `on_accept` -/
  | gate (id : Nat) (admission : Admission)
  | acceptFailed (id : Nat)
  | closeSession (id session : Nat)
  | retireOnExecutor (id : Nat)
  | drained (id : Nat)

/-- The next snapshot is built, and the prepared object starts with the current maps. -/
def beginReload (chk : Checks) (env : Network) (spec : RuntimeConfigSpec) :
    EStateM Error Server RuntimeConfig := do
  let next ← attempt (buildRuntimeConfig chk spec)
  failing env.build
  lockControl next spec
  guarded destroyPrepared do
    refuseStopping
    let s ← get
    if s.started then do
      failing env.address
      modify copyTables
    else pure ()
  pure next

def roundsOf (next : RuntimeConfig) : List (Protocol × Nat) :=
  next.httpPorts.map (Protocol.http, ·) ++ next.httpsPorts.map (Protocol.https, ·)

/-- `on_accept` without an error, up to the gate. -/
def onAccept (s : Listening) (l : Listener) : Listening :=
  let q := s.party l.id
  s.setParty l.id
    (if l.stopped || q.retired then q.notifyIfDrained else { q with accepting := true })

/-- What `on_accept` does with the socket once it has read the revision. -/
def Party.settle (q : Party) : Admission → Party
  | .refused => q
  | .failed => { q with created := q.created + 1 }
  | .admitted => { q with created := q.created + 1, sessions := q.created :: q.sessions }

/-- The rest of `on_accept`, from the gate on. -/
def onGate (s : Listening) (l : Listener) (admission : Admission) : Listening :=
  let q := { s.party l.id with accepting := false }
  s.setParty l.id
    (if s.server.runtime.revision < l.minimumRuntimeRevision then q else q.settle admission)

/-- The listeners that are taken out of the maps are told to retire. -/
def retireParties (s : Listening) (ids : List Nat) : Listening :=
  { s with party := fun id =>
      if id ∈ ids then { s.party id with retiring := (s.party id).retiring + 1 } else s.party id }

def commitStep (s : Listening) (p : PreparedReload) : Listening :=
  let s := { s with server := activate s.server }
  if p.serverStarted then retireParties s (p.http.retire ++ p.tls.retire) else s

/-- The posted handler of a drained listener. -/
def drainedStep (s : Listening) (l : Listener) : Listening :=
  let q := s.party l.id
  { s.setParty l.id { q with
      posted := q.posted - 1
      erased := q.erased + (s.server.table l.protocol).retired.count l.id } with
    server := onDrained l.protocol l.id s.server }

def step (chk : Checks) (s : Listening) : Event → Option Listening
  | .prepare env spec =>
    if s.server.controlLocked then none
    else
      match beginReload chk env spec s.server with
      | .ok next server =>
        some { s with server := server, rounds := some (if server.started then roundsOf next else []) }
      | .error _ server => some { s with server := server }
  | .round env =>
    match s.rounds, s.server.prepared with
    | some ((protocol, port) :: rest), some p =>
      match addListener env protocol p.next.revision port s.server with
      | .ok _ server => some { s with server := server, rounds := some rest }
      | .error _ server => some { s with server := destroyPrepared server, rounds := none }
    | _, _ => none
  | .finish =>
    match s.rounds with
    | some [] =>
      some { s with server := if s.server.started then retireListeners s.server else s.server,
                    rounds := none }
    | _ => none
  | .commit =>
    match s.rounds, s.server.prepared with
    | none, some p => some (commitStep s p)
    | _, _ => none
  | .drop =>
    match s.rounds, s.server.prepared with
    | none, some _ => some { s with server := destroyPrepared s.server }
    | _, _ => none
  | .accept id =>
    if (s.party id).accepting = false then (s.server.listeners[id]?).map (onAccept s) else none
  | .gate id admission =>
    if (s.party id).accepting = true then
      (s.server.listeners[id]?).map fun l => onGate s l admission
    else none
  | .acceptFailed id =>
    if id < s.server.listeners.length ∧ (s.party id).accepting = false then
      some (s.setParty id (s.party id).notifyIfDrained)
    else none
  | .closeSession id session =>
    if session ∈ (s.party id).sessions ∧ (s.party id).accepting = false then
      some (s.setParty id ((s.party id).closeSession session))
    else none
  | .retireOnExecutor id =>
    if 0 < (s.party id).retiring ∧ (s.party id).accepting = false then
      some (s.setParty id (s.party id).retireOnExecutor)
    else none
  | .drained id =>
    if 0 < (s.party id).posted ∧ s.server.controlLocked = false then
      (s.server.listeners[id]?).map (drainedStep s)
    else none

/-! ## The steps of a reload -/

theorem tell_nil (s : Server) (request : Listener → Listener) : s.tell [] request = s := by
  simp [Server.tell]

/-- The prepared object before the loops. -/
def Server.opened (s : Server) (next : RuntimeConfig) (spec : RuntimeConfigSpec) : Server :=
  { s with
    controlLocked := true
    prepared := some
      { next := next
        overloadLimits := spec.sites.map (·.virtualHost.overload)
        activeSiteIds := spec.sites.map (·.virtualHost.overload.siteId)
        http := { final := s.http.active, finalRetired := s.http.retired }
        tls := { final := s.tls.active, finalRetired := s.tls.retired }
        serverStarted := true } }

theorem beginReload_eq {s : Server} (hlock : s.controlLocked = false) (hprepared : s.prepared = none)
    (hstarted : s.started = true) (chk : Checks) (env : Network) (spec : RuntimeConfigSpec) :
    beginReload chk env spec s =
      match buildRuntimeConfig chk spec with
      | .error e => .error e s
      | .ok next =>
        match env.build with
        | some e => .error e s
        | none =>
          if s.stopping then .error "cannot reload a stopping server" s
          else
            match env.address with
            | some e => .error e s
            | none => .ok next (s.opened next spec) := by
  obtain ⟨runtime, http, tls, listeners, limiter, started, stopping, locked, prepared⟩ := s
  subst hlock hprepared hstarted
  unfold beginReload
  cases hbuild : buildRuntimeConfig chk spec with
  | error e => rfl
  | ok next =>
    cases hb : env.build with
    | some e => rfl
    | none =>
      cases stopping with
      | true =>
        refine Eq.trans (b := EStateM.Result.error _ (destroyPrepared _)) rfl ?_
        simp [destroyPrepared, PreparedReload.added, tell_nil]
      | false =>
        cases ha : env.address with
        | some e =>
          refine Eq.trans (b := EStateM.Result.error _ (destroyPrepared _)) rfl ?_
          simp [destroyPrepared, PreparedReload.added, tell_nil, Server.modifyPrepared]
        | none => rfl

def Server.append (s : Server) (l : Listener) : Server := { s with listeners := s.listeners ++ [l] }

theorem beginReload_ok {s s' : Server} (hlock : s.controlLocked = false)
    (hprepared : s.prepared = none) (hstarted : s.started = true) {chk : Checks} {env : Network}
    {spec : RuntimeConfigSpec} {next : RuntimeConfig}
    (h : beginReload chk env spec s = .ok next s') :
    buildRuntimeConfig chk spec = .ok next ∧ s' = s.opened next spec := by
  rw [beginReload_eq hlock hprepared hstarted] at h
  split at h
  · cases h
  · rename_i c hbuild
    split at h
    · cases h
    · split_ifs at h
      split at h
      · cases h
      · cases h
        exact ⟨hbuild, rfl⟩

theorem beginReload_error {s s' : Server} (hlock : s.controlLocked = false)
    (hprepared : s.prepared = none) (hstarted : s.started = true) {chk : Checks} {env : Network}
    {spec : RuntimeConfigSpec} {e : Error} (h : beginReload chk env spec s = .error e s') :
    s' = s := by
  rw [beginReload_eq hlock hprepared hstarted] at h
  split at h
  · cases h
    rfl
  · split at h
    · cases h
      rfl
    · split_ifs at h
      · cases h
        rfl
      · split at h
        · cases h
          rfl
        · cases h

/-- A request to the listener that was bound last. -/
theorem tell_last {s : Server} (hids : ∀ l ∈ s.listeners, l.id < s.listeners.length) {l : Listener}
    (hl : l.id = s.listeners.length) (request : Listener → Listener) :
    (s.append l).tell [l.id] request = s.append (request l) := by
  have htell := tell_new request (s := s.append l) rfl hids (List.forall_mem_singleton.mpr hl.ge)
  have hframe : (s.append l).tell [l.id] request =
      { s with listeners := ((s.append l).tell [l.id] request).listeners } := rfl
  rw [hframe, htell]
  simp [Server.append]

/-- One more listener, which the prepared object owns. -/
def Server.grown (s : Server) (protocol : Protocol) (port revision : Nat) : Server :=
  let l : Listener := { id := s.listeners.length, protocol := protocol, port := port }
  (s.append (l.start revision)).modifyPrepared (·.own protocol l.id)

theorem addListener_eq {s : Server} (hids : ∀ l ∈ s.listeners, l.id < s.listeners.length)
    (env : Network) (protocol : Protocol) (revision port : Nat) :
    addListener env protocol revision port s =
      if s.hasFinal protocol port then .ok () s
      else
        match env.bind protocol port with
        | some e => .error e s
        | none =>
          match env.start protocol port with
          | some e => .error e (s.grown protocol port revision)
          | none =>
            .ok () (emplaceFinal protocol port s.listeners.length
              (s.grown protocol port revision)) := by
  unfold addListener
  rw [bind_of_ok (show (MonadState.get : EStateM Error Server Server) s = .ok s s from rfl)]
  split
  · rfl
  · cases hbind : env.bind protocol port with
    | some e =>
      have hfails : bindListener env protocol port s = .error e s := by
        simp only [bindListener, hbind]
      exact bind_of_error hfails
    | none =>
      let l : Listener := { id := s.listeners.length, protocol := protocol, port := port }
      have hbound : bindListener env protocol port s =
          .ok l.id ((s.append l).modifyPrepared (·.own protocol l.id)) := by
        simp only [bindListener, hbind]
        rfl
      have hgrown : ((s.append l).modifyPrepared (·.own protocol l.id)).tell [l.id]
          (Listener.start revision) = s.grown protocol port revision :=
        congrArg (·.modifyPrepared (·.own protocol l.id))
          (tell_last hids (l := l) rfl (Listener.start revision))
      have hstart : startListener env protocol port revision l.id
          ((s.append l).modifyPrepared (·.own protocol l.id)) =
          failing (env.start protocol port) (s.grown protocol port revision) := by
        rw [← hgrown]
        rfl
      rw [bind_of_ok hbound]
      cases hfails : env.start protocol port with
      | some e =>
        rw [hfails] at hstart
        exact bind_of_error hstart
      | none =>
        rw [hfails] at hstart
        exact bind_of_ok hstart

/-! ## A whole reload -/

section Whole

variable {chk : Checks} {env : Network} {next : RuntimeConfig}

/-- The two loops, as one over all rounds. -/
theorem loop_rounds :
    (do loop (addListener env .http next.revision) next.httpPorts
        loop (addListener env .https next.revision) next.httpsPorts) =
      loop (fun r : Protocol × Nat => addListener env r.1 next.revision r.2) (roundsOf next) := by
  have hmap : ∀ (protocol : Protocol) (list : List Nat),
      loop (fun r : Protocol × Nat => addListener env r.1 next.revision r.2)
        (list.map (protocol, ·)) = loop (addListener env protocol next.revision) list := by
    intro protocol list
    induction list with
    | nil => rfl
    | cons port list ih => rw [List.map_cons, loop, loop, ih]
  rw [roundsOf, loop_append, hmap, hmap]

theorem started_addListener {b : Bool} (env : Network) (protocol : Protocol) (revision port : Nat) :
    Spec (·.started = b) (addListener env protocol revision port) (fun _ s => s.started = b)
      fun _ => True := by
  refine spec_bind (M := fun _ s => s.started = b) (spec_get fun s h => h) fun s => ?_
  split
  · exact spec_pure fun s h => h
  · refine spec_bind (M := fun _ s => s.started = b) (fun s h => ?_) fun id =>
      spec_bind (M := fun _ s => s.started = b)
        (spec_bind (M := fun _ s => s.started = b) (spec_modify fun s h => h) fun _ =>
          spec_failing (fun _ h => h) fun _ _ => trivial) fun _ => spec_modify fun s h => h
    unfold bindListener
    cases env.bind protocol port with
    | some e => trivial
    | none => exact h

/-- The rounds of a reload, one step each. -/
theorem run_rounds (chk : Checks) (env : Network) (rs : List (Protocol × Nat)) {s : Listening}
    (hrounds : s.rounds = some rs)
    (hholds : Holds next s.server) :
    match loop (fun r : Protocol × Nat => addListener env r.1 next.revision r.2) rs s.server with
    | .ok _ server => ∃ n, Run.run (step chk) s (List.replicate n (.round env)) =
        some { s with server := server, rounds := some [] }
    | .error _ server => ∃ n, Run.run (step chk) s (List.replicate n (.round env)) =
        some { s with server := destroyPrepared server, rounds := none } := by
  induction rs generalizing s with
  | nil => exact ⟨0, by simp [Run.run, ← hrounds]⟩
  | cons r rs ih =>
    obtain ⟨p, hp, rfl⟩ := hholds
    have hholds : Spec (Holds p.next) (addListener env r.1 p.next.revision r.2)
        (fun _ => Holds p.next) fun _ => True := holds_addListener env r.1 p.next.revision r.2
    have hheld := hholds s.server ⟨p, hp, rfl⟩
    cases hadd : addListener env r.1 p.next.revision r.2 s.server with
    | error e server =>
      rw [loop, bind_of_error hadd]
      refine ⟨1, ?_⟩
      simp [Run.run, step, hrounds, hp, hadd]
    | ok u server =>
      rw [hadd] at hheld
      have hstep : step chk s (.round env) = some { s with server := server, rounds := some rs } := by
        simp [step, hrounds, hp, hadd]
      have hrest := ih (s := { s with server := server, rounds := some rs }) rfl hheld
      rw [loop, bind_of_ok hadd]
      revert hrest
      cases loop (fun r : Protocol × Nat => addListener env r.1 p.next.revision r.2) rs server with
      | ok u server' =>
        rintro ⟨n, hn⟩
        exact ⟨n + 1, by simp only [List.replicate_succ, Run.run, hstep, hn]⟩
      | error e server' =>
        rintro ⟨n, hn⟩
        exact ⟨n + 1, by simp only [List.replicate_succ, Run.run, hstep, hn]⟩

/-- What `prepare_reload` does behind its first step. -/
theorem prepareReload_eq {s : Server} (hlock : s.controlLocked = false)
    (hprepared : s.prepared = none) (hstarted : s.started = true) (spec : RuntimeConfigSpec) :
    prepareReload chk env spec s =
      match beginReload chk env spec s with
      | .error e s' => .error e s'
      | .ok next s' => guarded destroyPrepared (do
          loop (fun r : Protocol × Nat => addListener env r.1 next.revision r.2) (roundsOf next)
          modify retireListeners) s' := by
  rw [beginReload_eq hlock hprepared hstarted]
  obtain ⟨runtime, http, tls, listeners, limiter, started, stopping, locked, prepared⟩ := s
  subst hlock hprepared hstarted
  unfold prepareReload
  cases hbuild : buildRuntimeConfig chk spec with
  | error e => rfl
  | ok next =>
    cases hb : env.build with
    | some e => rfl
    | none =>
      cases stopping with
      | true =>
        refine Eq.trans (b := EStateM.Result.error _ (destroyPrepared _)) rfl ?_
        simp [destroyPrepared, PreparedReload.added, tell_nil]
      | false =>
        simp only [Bool.false_eq_true, if_false]
        cases ha : env.address with
        | some e =>
          unfold fillPrepared prepareListeners
          rw [ha]
          refine Eq.trans (b := EStateM.Result.error _ (destroyPrepared _)) rfl ?_
          simp [destroyPrepared, PreparedReload.added, tell_nil, Server.modifyPrepared]
        | none =>
          simp only []
          rw [← loop_rounds, bind_assoc]
          unfold fillPrepared prepareListeners
          rw [ha]
          rfl

/-- What a call of `prepare_reload` leaves behind. -/
def afterPrepare (chk : Checks) (env : Network) (spec : RuntimeConfigSpec) (s : Server) : Server :=
  match prepareReload chk env spec s with
  | .ok _ s' => s'
  | .error _ s' => s'

/-- A call of `prepare_reload` is a run of the system, whether it returns or throws. -/
theorem run_prepare {s : Listening} (hlock : s.server.controlLocked = false)
    (hprepared : s.server.prepared = none) (hstarted : s.server.started = true)
    (hrounds : s.rounds = none) (chk : Checks) (env : Network) (spec : RuntimeConfigSpec) :
    ∃ events, Run.run (step chk) s events =
      some { s with server := afterPrepare chk env spec s.server } := by
  rw [afterPrepare, prepareReload_eq hlock hprepared hstarted]
  cases hbegin : beginReload chk env spec s.server with
  | error e server =>
    refine ⟨[.prepare env spec], ?_⟩
    simp [Run.run, step, hlock, hbegin]
  | ok next server =>
    obtain ⟨-, rfl⟩ := beginReload_ok hlock hprepared hstarted hbegin
    have hfirst : step chk s (.prepare env spec) =
        some { s with server := s.server.opened next spec, rounds := some (roundsOf next) } := by
      simp [step, hlock, hbegin, Server.opened, hstarted]
    have hholds : Holds next (s.server.opened next spec) := ⟨_, rfl, rfl⟩
    have hkept := spec_loop (fun r : Protocol × Nat =>
      started_addListener (b := true) env r.1 next.revision r.2) (roundsOf next)
      (s.server.opened next spec) hstarted
    have hrest := run_rounds chk env (roundsOf next)
      (s := { s with server := s.server.opened next spec, rounds := some (roundsOf next) }) rfl hholds
    simp only [guarded]
    revert hrest hkept
    generalize hloop : loop (fun r : Protocol × Nat => addListener env r.1 next.revision r.2)
      (roundsOf next) (s.server.opened next spec) = result
    cases result with
    | error e server =>
      rintro - ⟨n, hn⟩
      rw [bind_of_error hloop]
      refine ⟨.prepare env spec :: List.replicate n (.round env), ?_⟩
      simp only [Run.run, hfirst, hn, hrounds]
    | ok u server =>
      rintro hkept ⟨n, hn⟩
      rw [bind_of_ok hloop]
      have hlast : step chk { s with server := server, rounds := some [] } .finish =
          some { s with server := retireListeners server } := by
        simp only [step, show server.started = true from hkept, if_true, hrounds]
      refine ⟨.prepare env spec :: (List.replicate n (.round env) ++ [.finish]), ?_⟩
      simp only [Run.run, hfirst]
      exact Run.run_append.mpr ⟨_, hn, Run.run_single.mpr hlast⟩

end Whole

end Core
end WebServer
