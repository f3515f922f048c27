import WebServer.Core.Registry
import WebServer.Http.Dispatcher

/-!
# WebServer.Http.Desk

What the dispatchers of all sessions work with: the policies of the published snapshots, and the
runtime configuration that a session loads.

`consulted` and `handed` are not in the source: what was published and which requests a policy was
asked about, in order, and the requests that went to a backend.

* `good_decide`: a request that is handed over is among those that a rate limiter let pass, and the
  handshake of its connection fits its host.
* `good_publish`: publishing leaves that so.
-/

namespace WebServer
namespace Http

open Dispatcher (Handoff HandedOver RequestDispatcher RequestSecurityContext)
open Network (ClientIpResolver)
open Policy (Call)
open Registry (Scheme)
open Snapshots (Hit Incoming Store)

/-- A `RuntimeConfig`: `snapshot` is its place among those that were published. -/
structure Runtime where
  snapshot : ℕ
  spec : Config.RuntimeConfigSpec
  tlsContexts : Option Tls.ContextManager
  clientIpResolver : ClientIpResolver

/-- A request that a session has handed over to a transaction: what it was dispatched with, and what
is left of the handshake. -/
structure Handed where
  dispatcher : RequestDispatcher
  store : Store
  now : ℕ
  handoff : Handoff
  scheme : Scheme
  tlsContexts : Option Tls.ContextManager
  tlsState : Tls.ConnectionState
  serverName : Option Text

structure Desk where
  store : Store
  runtime : Runtime
  consulted : List Snapshots.Event := []
  handed : List Handed := []

/-- What a session tells the dispatcher of its connection. -/
def security (scheme : Scheme) (tlsState : Tls.ConnectionState) : RequestSecurityContext :=
  match scheme with
  | .http => {}
  | .https =>
    { forwardedScheme := .https
      sniHost := tlsState.sniHost
      certificateMatchesHost := tlsState.selectedContext.map fun c => c.matchesDomain }

/-- The desk after a start of the dispatcher. -/
def Desk.decide (env : Dispatcher.Environment) (desk : Desk) (d : RequestDispatcher) (now : ℕ)
    (wall : Int64) : Desk :=
  { desk with
    store := (d.start env desk.store now wall).store
    consulted := desk.consulted ++
      (d.consulted desk.store now).toList.map Snapshots.Event.request }

def makeRuntime (env : Dispatcher.Environment) (openssl : Config.OpenSsl) (snapshot : ℕ)
    (spec : Config.RuntimeConfigSpec) : Except Config.Error Runtime := do
  let resolver ← (ClientIpResolver.make env.lib (spec.settings.trustedProxyCidrs.map Routing.utf8)
    (spec.settings.realIpHeaders.map Routing.utf8)).mapError Routing.asciiString
  if spec.sites.any (·.httpsEnabled) then
    let contexts ← Tls.ContextManager.make openssl spec.tlsCertificates spec.rejectUnknownSni
    return ⟨snapshot, spec, some contexts, resolver⟩
  else return ⟨snapshot, spec, none, resolver⟩

/-- A candidate that is refused changes nothing. -/
def Desk.publish (env : Dispatcher.Environment) (openssl : Config.OpenSsl) (desk : Desk)
    (spec : Config.RuntimeConfigSpec) : Desk :=
  match Snapshots.buildSnapshot env.toEnvironment spec desk.store.virtualHosts,
      makeRuntime env openssl desk.store.snapshots.length spec with
  | .ok _, .ok runtime =>
    { desk with
      store := desk.store.publish env.toEnvironment spec
      runtime := runtime
      consulted := desk.consulted ++ [.publish spec] }
  | _, _ => desk

/-! ## The rate limiters -/

/-- The store after publications and requests. -/
def after (env : Snapshots.Environment) : Store → List Snapshots.Event → Store
  | s, [] => s
  | s, .publish spec :: events => after env (s.publish env spec) events
  | s, .request r :: events => after env (s.request env r).1 events

section Runs

variable {env : Snapshots.Environment}

theorem after_append (s : Store) (events events' : List Snapshots.Event) :
    after env s (events ++ events') = after env (after env s events) events' := by
  induction events generalizing s with
  | nil => rfl
  | cons event events ih =>
    cases event with
    | publish spec => exact ih _
    | request r => exact ih _

theorem run_append (s : Store) (events events' : List Snapshots.Event) :
    Snapshots.run env s (events ++ events') =
      Snapshots.run env s events ++ Snapshots.run env (after env s events) events' := by
  induction events generalizing s with
  | nil => rfl
  | cons event events ih =>
    cases event with
    | publish spec => exact ih _
    | request r =>
      simp only [List.cons_append, Snapshots.run, after, ih, List.append_assoc]

theorem route_request (s : Store) (r r' : Incoming) : (s.request env r).1.route r' = s.route r' := by
  unfold Store.request
  split
  · rfl
  · split
    · rfl
    · rfl

end Runs

/-! ## What is known of a request that was handed over -/

/-- The site, the policy and the call, as of a request that a rate limiter has decided. -/
abbrev Key := Int × Option ℕ × Call

def hitKey (hit : Hit) : Key := (hit.siteId, some hit.policy, hit.call)

def Handed.pointer (h : Handed) : Option ℕ := do
  let host ← h.dispatcher.request.normalizedHost
  h.store.route (h.dispatcher.incoming host h.now)

def Handed.key (h : Handed) : Key :=
  (h.handoff.virtualHost.overload.siteId, h.pointer, ⟨h.dispatcher.clientIp, h.now⟩)

/-- The requests that a rate limiter let pass. -/
def admitted (env : Snapshots.Environment) (events : List Snapshots.Event) : List Key :=
  ((Snapshots.run env .empty events).filter fun hit => hit.decision = none).map hitKey

/-- The host leads to a virtual host, and so does the name of the handshake; the certificate of the
handshake is for the host. -/
structure Handed.Directed (h : Handed) (host : Text) (pointer : ℕ) : Prop where
  normalizedHost : h.dispatcher.request.normalizedHost = some host
  routed : h.store.route (h.dispatcher.incoming host h.now) = some pointer
  virtualHost : ∃ vh, h.store.virtualHosts[pointer]? = some vh ∧ vh.config = h.handoff.virtualHost
  directed : h.dispatcher.misdirected h.store pointer host h.now = false
  security : h.dispatcher.security = security h.scheme h.tlsState

/-- The contexts are those of a configuration that was published. -/
def Desk.Published (openssl : Config.OpenSsl) (desk : Desk) (m : Tls.ContextManager) : Prop :=
  ∃ spec, .publish spec ∈ desk.consulted ∧
    Tls.ContextManager.make openssl spec.tlsCertificates spec.rejectUnknownSni = .ok m

/-- The state of the connection is the one that the callback has left for the name. -/
def Desk.Shaken (openssl : Config.OpenSsl) (desk : Desk) (scheme : Scheme)
    (tlsContexts : Option Tls.ContextManager) (serverName : Option Text)
    (tlsState : Tls.ConnectionState) : Prop :=
  scheme = .https → ∃ m, tlsContexts = some m ∧ desk.Published openssl m ∧
    m.serverNameCallback serverName = some tlsState

/-- What is known of a request that was handed over. -/
def Desk.Checked (openssl : Config.OpenSsl) (desk : Desk) (h : Handed) : Prop :=
  (∃ host pointer, h.Directed host pointer) ∧
    desk.Shaken openssl h.scheme h.tlsContexts h.serverName h.tlsState

structure Desk.Good (env : Dispatcher.Environment) (openssl : Config.OpenSsl) (desk : Desk) :
    Prop where
  store : desk.store = after env.toEnvironment .empty desk.consulted
  contexts : ∀ m, desk.runtime.tlsContexts = some m → desk.Published openssl m
  counted : (desk.handed.map Handed.key).Sublist (admitted env.toEnvironment desk.consulted)
  checked : ∀ h ∈ desk.handed, desk.Checked openssl h

/-- The desk may take one more request. -/
structure Desk.Ready (env : Dispatcher.Environment) (openssl : Config.OpenSsl) (desk : Desk)
    (h : Handed) : Prop where
  good : desk.Good env openssl
  counted : ((desk.handed ++ [h]).map Handed.key).Sublist (admitted env.toEnvironment desk.consulted)
  checked : desk.Checked openssl h

section Good

variable {env : Dispatcher.Environment} {openssl : Config.OpenSsl} {desk desk' : Desk}

theorem Desk.Ready.hand {h : Handed} (hready : desk.Ready env openssl h) :
    Desk.Good env openssl { desk with handed := desk.handed ++ [h] } where
  store := hready.good.store
  contexts := hready.good.contexts
  counted := hready.counted
  checked h' hh' := by
    rcases List.mem_append.mp hh' with hh' | hh'
    · exact hready.good.checked h' hh'
    · rw [List.mem_singleton.mp hh']
      exact hready.checked

/-- A handshake stays what it was when more is published. -/
theorem Desk.Shaken.mono {scheme : Scheme} {tlsContexts : Option Tls.ContextManager}
    {serverName : Option Text} {tlsState : Tls.ConnectionState}
    (h : desk.Shaken openssl scheme tlsContexts serverName tlsState)
    (hsub : desk.consulted ⊆ desk'.consulted) :
    desk'.Shaken openssl scheme tlsContexts serverName tlsState := by
  intro hscheme
  obtain ⟨m, hm, ⟨spec, hspec, hmake⟩, hcallback⟩ := h hscheme
  exact ⟨m, hm, ⟨spec, hsub hspec, hmake⟩, hcallback⟩

theorem Desk.Checked.mono {h : Handed} (hchecked : desk.Checked openssl h)
    (hsub : desk.consulted ⊆ desk'.consulted) : desk'.Checked openssl h :=
  ⟨hchecked.1, hchecked.2.mono hsub⟩

theorem admitted_append (events events' : List Snapshots.Event) :
    admitted env.toEnvironment (events ++ events') = admitted env.toEnvironment events ++
      ((Snapshots.run env.toEnvironment (after env.toEnvironment .empty events) events').filter
        fun hit => hit.decision = none).map hitKey := by
  rw [admitted, run_append, List.filter_append, List.map_append]
  rfl

/-- A request that is handed over has been let pass by the limiter of its policy. -/
theorem request_handedOver {d : RequestDispatcher} {store : Store} {now : ℕ} {host : Text}
    {pointer : ℕ} {vh : Snapshots.VirtualHost} {handoff : Handoff}
    (h : HandedOver env d store now host pointer vh handoff) :
    ∃ hit, (store.request env.toEnvironment (d.incoming host now)).2 = some hit ∧
      hit.decision = none ∧
      hitKey hit = (handoff.virtualHost.overload.siteId, some pointer, ⟨d.clientIp, now⟩) := by
  have hreach : Snapshots.reaches env.toEnvironment vh.requestPolicy (d.incoming host now) = true := by
    have hpolicy := h.policy
    unfold Snapshots.evaluateAt Policy.RequestPolicy.evaluate at hpolicy
    unfold Snapshots.reaches
    split at hpolicy
    · cases hpolicy
    · cases hpolicy
    · rename_i hfirst
      rw [hfirst]
  obtain ⟨authenticator, authentication, wall, -, -, -, hhandoff⟩ := h.authenticated
  refine ⟨⟨vh.siteId, pointer, ⟨d.clientIp, now⟩, none⟩, ?_, rfl, ?_⟩
  · unfold Store.request
    simp only [h.routed, h.virtualHost, hreach, if_true, h.policy]
    rfl
  · rw [hhandoff]
    rfl

/-- The virtual host of a pointer keeps its configuration. -/
theorem config_request {store : Store} {r : Incoming} {pointer : ℕ} {vh : Snapshots.VirtualHost}
    (h : store.virtualHosts[pointer]? = some vh) :
    ∃ vh', (store.request env.toEnvironment r).1.virtualHosts[pointer]? = some vh' ∧
      vh'.config = vh.config := by
  unfold Store.request
  split
  · exact ⟨vh, h, rfl⟩
  · rename_i pointer' hroute
    split
    · exact ⟨vh, h, rfl⟩
    · rename_i vh' hvh'
      by_cases hsame : pointer' = pointer
      · subst hsame
        rw [hvh', Option.some.injEq] at h
        subst h
        refine ⟨_, List.getElem?_set_self (List.getElem?_eq_some_iff.mp hvh').1, rfl⟩
      · exact ⟨vh, by simpa only [List.getElem?_set_ne hsame] using h, rfl⟩

/-- A start keeps the books, and a request that it hands over is in them. -/
theorem good_decide (h : desk.Good env openssl) (d : RequestDispatcher) (now : ℕ) (wall : Int64) :
    (desk.decide env d now wall).Good env openssl ∧
      ∀ handoff, (d.start env desk.store now wall).verdict = .handOver handoff →
        ∀ handed : Handed, handed.dispatcher = d → handed.now = now → handed.handoff = handoff →
          handed.store = (desk.decide env d now wall).store →
          d.security = security handed.scheme handed.tlsState →
          desk.Shaken openssl handed.scheme handed.tlsContexts handed.serverName handed.tlsState →
            (desk.decide env d now wall).Ready env openssl handed := by
  unfold Desk.decide
  rcases Dispatcher.start_cases env d desk.store now wall with ⟨hnone, hstore, response, hanswer⟩ |
    ⟨host, hsome, hstore, hhand⟩
  · rw [hnone, hstore]
    refine ⟨⟨?_, ?_, ?_, ?_⟩, fun handoff hverdict => ?_⟩
    · simpa using h.store
    · intro m hm
      obtain ⟨spec, hspec, hmake⟩ := h.contexts m hm
      exact ⟨spec, by simpa using hspec, hmake⟩
    · simpa using h.counted
    · exact fun handed hm => (h.checked handed hm).mono (List.subset_append_left _ _)
    · rw [hanswer] at hverdict
      cases hverdict
  · rw [hsome, hstore]
    simp only [Option.toList_some, List.map_cons, List.map_nil]
    have hbooks : after env.toEnvironment .empty
        (desk.consulted ++ [.request (d.incoming host now)]) =
          (desk.store.request env.toEnvironment (d.incoming host now)).1 := by
      rw [after_append, ← h.store]
      rfl
    have hadmitted : admitted env.toEnvironment
        (desk.consulted ++ [.request (d.incoming host now)]) =
          admitted env.toEnvironment desk.consulted ++
            (((desk.store.request env.toEnvironment (d.incoming host now)).2.toList).filter
              fun hit => hit.decision = none).map hitKey := by
      rw [admitted_append, ← h.store, Snapshots.run, Snapshots.run, List.append_nil]
    have hsub : desk.consulted ⊆ desk.consulted ++ [.request (d.incoming host now)] :=
      List.subset_append_left _ _
    have hgood : Desk.Good env openssl
        { desk with
          store := (desk.store.request env.toEnvironment (d.incoming host now)).1
          consulted := desk.consulted ++ [.request (d.incoming host now)] } := by
      refine ⟨hbooks.symm, ?_, ?_, fun handed hm => (h.checked handed hm).mono hsub⟩
      · intro m hm
        obtain ⟨spec, hspec, hmake⟩ := h.contexts m hm
        exact ⟨spec, hsub hspec, hmake⟩
      · rw [hadmitted]
        exact h.counted.trans (List.sublist_append_left _ _)
    refine ⟨hgood, fun handoff hverdict handed hd hnow hhandoff hhstore hsecurity hshaken => ?_⟩
    obtain ⟨pointer, vh, hover⟩ := hhand handoff hverdict
    obtain ⟨hit, hhit, hpass, hkey⟩ := request_handedOver hover
    obtain ⟨vh', hvh', hconfig⟩ :=
      @config_request env _ (d.incoming host now) _ _ hover.virtualHost
    have hroute : handed.store.route (handed.dispatcher.incoming host handed.now) = some pointer := by
      rw [hhstore, hd, hnow, route_request]
      exact hover.routed
    refine ⟨hgood, ?_, ⟨host, pointer, ?_⟩, hshaken.mono hsub⟩
    · have hown : handed.key =
          (handoff.virtualHost.overload.siteId, some pointer, ⟨d.clientIp, now⟩) := by
        have hpointer : handed.pointer = some pointer := by
          unfold Handed.pointer
          rw [hd, hover.normalizedHost]
          rw [hd] at hroute
          exact hroute
        rw [Handed.key, hpointer, hd, hnow, hhandoff]
      rw [hadmitted, hhit, List.map_append, List.map_singleton, hown, ← hkey]
      simp only [Option.toList_some, List.filter_cons, hpass, decide_true, if_true, List.filter_nil,
        List.map_cons, List.map_nil]
      exact h.counted.append (List.Sublist.refl _)
    · obtain ⟨_, _, _, -, -, -, heq⟩ := hover.authenticated
      refine ⟨by rw [hd]; exact hover.normalizedHost, hroute, ⟨vh', ?_, ?_⟩, ?_, by rw [hd]; exact hsecurity⟩
      · rw [hhstore]
        exact hvh'
      · rw [hconfig, hhandoff, heq]
      · rw [hhstore, hd, hnow]
        have hsame : d.misdirected (desk.store.request env.toEnvironment (d.incoming host now)).1
            pointer host now = d.misdirected desk.store pointer host now := by
          unfold RequestDispatcher.misdirected
          simp only [route_request]
        rw [hsame]
        exact hover.directed

theorem makeRuntime_contexts {snapshot : ℕ} {spec : Config.RuntimeConfigSpec} {runtime : Runtime}
    (h : makeRuntime env openssl snapshot spec = .ok runtime) {m : Tls.ContextManager}
    (hm : runtime.tlsContexts = some m) :
    Tls.ContextManager.make openssl spec.tlsCertificates spec.rejectUnknownSni = .ok m := by
  unfold makeRuntime at h
  obtain ⟨resolver, -, h⟩ := Result.bind_ok h
  split at h
  · obtain ⟨contexts, hmake, h⟩ := Result.bind_ok h
    cases h
    cases hm
    exact hmake
  · cases h
    cases hm

theorem good_publish (h : desk.Good env openssl) (spec : Config.RuntimeConfigSpec) :
    (desk.publish env openssl spec).Good env openssl ∧
      desk.consulted ⊆ (desk.publish env openssl spec).consulted := by
  unfold Desk.publish
  split
  · rename_i runtime hbuild hmake
    have hsub : desk.consulted ⊆ desk.consulted ++ [.publish spec] := List.subset_append_left _ _
    refine ⟨⟨?_, ?_, ?_, fun handed hm => (h.checked handed hm).mono hsub⟩, hsub⟩
    · rw [after_append, ← h.store]
      rfl
    · exact fun m hm => ⟨spec, by simp, makeRuntime_contexts hmake hm⟩
    · rw [admitted_append]
      simpa [Snapshots.run] using h.counted
  · exact ⟨h, List.Subset.refl _⟩

end Good

end Http
end WebServer
