import WebServer.Config.Snapshots
import WebServer.Logging.Lines
import WebServer.Policy.UrlRewrite

/-!
# WebServer.Http.Dispatcher

`RequestDispatcher::start`: what is done with a request whose head has been read. The dispatcher
answers itself, or hands the request over to the proxy of its session.

The router, the virtual hosts and the limits are those of the snapshot that the session has loaded.

* `start_cases`: what a start can do; a request that is handed over has passed every test.
-/

namespace WebServer
namespace Dispatcher

open Http Config Policy Routing
open Logging (Dispatched)
open Snapshots (Incoming ListenerProtocol Store VirtualHost evaluateAt)

/-- What the sites have in JSON, MD5, and `BOOST_BEAST_VERSION_STRING`. -/
structure Environment extends Snapshots.Environment where
  urlAuth : SiteRecord → UrlAuthSpec
  md5 : Text → Option Text
  beastVersion : Text

/-- `keepAlive` is what `keep_alive()` says of the request. -/
structure Request where
  method : Text
  target : Text
  version : Version
  fields : List HeaderField
  keepAlive : Bool
  deriving DecidableEq

structure Response where
  status : ℕ
  version : Version
  keepAlive : Bool
  fields : List (Text × Text)
  body : Text
  contentLength : ℕ
  deriving DecidableEq

/-- Without a handshake the functions stay empty. -/
structure RequestSecurityContext where
  forwardedScheme : ListenerProtocol := .http
  sniHost : Option Text := none
  certificateMatchesHost : Option (Text → Bool) := none

/-- `snapshot` is the place of `runtime_config_` among those that were published. -/
structure RequestDispatcher where
  snapshot : ℕ
  revision : UInt64
  settings : RuntimeSettingsRecord
  listenerPort : UInt16
  request : Request
  clientIp : Text
  security : RequestSecurityContext
  requestId : Text

def makeTextResponse (beastVersion : Text) (request : Request) (status : ℕ) (body : Text)
    (keepAlive : Bool) : Response where
  status := status
  version := request.version
  keepAlive := keepAlive
  fields := [(ascii "Server", beastVersion),
    (ascii "Content-Type", ascii "text/plain; charset=utf-8")]
  body := if request.method = ascii "HEAD" then [] else body
  contentLength := body.length

/-- The first field of the name. -/
def Request.field (request : Request) (name : Text) : Text := (get request.fields name).1

def Request.view (request : Request) : RequestView where
  method := request.method
  target := request.target
  userAgent := request.field (ascii "User-Agent")
  referer := request.field (ascii "Referer")
  headerValue := request.field

/-- The host of a request with one `Host`. -/
def Request.normalizedHost (request : Request) : Option Text :=
  if (values request.fields (ascii "Host")).length ≠ 1 then none
  else normalizeAuthority (request.field (ascii "Host"))

/-- What `log_access` knows once the dispatcher has been started. -/
def RequestDispatcher.dispatched (d : RequestDispatcher) : Dispatched where
  requestId := d.requestId
  clientIp := d.clientIp
  forwardedScheme := d.security.forwardedScheme.scheme
  listenerPort := d.listenerPort
  method := d.request.method
  target := d.request.target
  host := d.request.field (ascii "Host")
  normalizedHost := d.request.normalizedHost
  configRevision := d.revision

/-- The arguments of `on_site_resolved_`. -/
structure Resolved where
  siteId : Int
  siteName : Text
  host : Text
  deriving DecidableEq

/-- The arguments of `on_proxy_`. The configuration of the virtual host holds its backend and its
overload limits. -/
structure Handoff where
  virtualHost : Config.VirtualHostConfig
  request : Request
  clientIp : Text
  scheme : ListenerProtocol
  requestId : Text
  settings : RuntimeSettingsRecord
  deriving DecidableEq

inductive Verdict where
  | answer (response : Response)
  | handOver (handoff : Handoff)
  /-- an exception leaves `start` -/
  | throws
  deriving DecidableEq

/-- `resolved` when `on_site_resolved_` is called before the verdict. -/
structure Decision where
  store : Store
  resolved : Option Resolved
  verdict : Verdict

section Start

variable (env : Environment) (d : RequestDispatcher)

def RequestDispatcher.text (status : ℕ) (body : String) (keepAlive : Bool) : Verdict :=
  .answer (makeTextResponse env.beastVersion d.request status (ascii body) keepAlive)

def RequestDispatcher.incoming (host : Text) (now : ℕ) : Incoming where
  snapshot := d.snapshot
  protocol := d.security.forwardedScheme
  port := d.listenerPort.toNat
  host := host
  view := d.request.view
  clientIp := d.clientIp
  now := now

/-- A virtual host is compared by its pointer. -/
def RequestDispatcher.misdirected (store : Store) (pointer : ℕ) (host : Text) (now : ℕ) : Bool :=
  match d.security.forwardedScheme with
  | .http => false
  | .https =>
    Config.misdirected (fun sni => store.route (d.incoming sni now))
      (d.security.certificateMatchesHost.any fun f => f host) d.security.sniHost (some pointer)

def RequestDispatcher.decisionResponse (decision : PolicyDecision) : Response :=
  let response := makeTextResponse env.beastVersion d.request decision.status decision.body
    d.request.keepAlive
  { response with
    fields := response.fields ++
      (if decision.location = [] then [] else [(ascii "Location", decision.location)]) ++
      (if decision.retryAfterSeconds = 0 then []
        else [(ascii "Retry-After", decimal decision.retryAfterSeconds)]) }

/-- The constructor of the virtual host has made its `UrlAuthenticator`. -/
def RequestDispatcher.authenticate (vh : VirtualHost) (wall : Int64) : Verdict :=
  match UrlAuthenticator.make (env.urlAuth vh.config.site) with
  | .error _ => .throws
  | .ok authenticator =>
    match authenticator.authenticate env.md5 d.request.target wall with
    | none => .throws
    | some authentication =>
      if !authentication.allowed then
        d.text env 403 "URL authentication failed" d.request.keepAlive
      else
        .handOver
          { virtualHost := vh.config
            request := { d.request with target := forwardedTarget d.request.target authentication }
            clientIp := d.clientIp
            scheme := d.security.forwardedScheme
            requestId := d.requestId
            settings := d.settings }

def setPolicy (store : Store) (pointer : ℕ) (vh : VirtualHost) (policy : RequestPolicy) : Store :=
  { store with virtualHosts := store.virtualHosts.set pointer { vh with requestPolicy := policy } }

/-- All that follows `on_site_resolved_`. The policy may change its rate limiter. -/
def RequestDispatcher.judge (store : Store) (pointer : ℕ) (vh : VirtualHost) (host : Text) (now : ℕ)
    (wall : Int64) : Store × Verdict :=
  if d.misdirected store pointer host now then
    (store, d.text env 421 "SNI and Host do not identify the same site" false)
  else if !validReverseProxyTarget d.request.view then
    (store, d.text env 400 "Invalid request target" false)
  else if d.request.method = ascii "CONNECT" then
    (store, d.text env 501 "CONNECT tunneling is not supported" false)
  else
    let (policy, answer) := evaluateAt env.toEnvironment vh (d.incoming host now)
    (setPolicy store pointer vh policy,
      match answer with
      | .error _ => .throws
      | .ok (some decision) => .answer (d.decisionResponse env decision)
      | .ok none => d.authenticate env vh wall)

/-- The virtual host that the router finds, with its pointer. -/
def find (store : Store) (r : Incoming) : Option (ℕ × VirtualHost) := do
  let pointer ← store.route r
  let vh ← store.virtualHosts[pointer]?
  return (pointer, vh)

/-- `now` is the time of the rate limiter, `wall` the one of the URL authentication. -/
def RequestDispatcher.start (store : Store) (now : ℕ) (wall : Int64) : Decision :=
  match d.request.normalizedHost with
  | none => ⟨store, none, d.text env 400 "Invalid Host header" false⟩
  | some host =>
    match find store (d.incoming host now) with
    | none => ⟨store, none, d.text env 404 "Virtual host not found" d.request.keepAlive⟩
    | some (pointer, vh) =>
      let (store, verdict) := d.judge env store pointer vh host now wall
      ⟨store, some ⟨vh.siteId, utf8 vh.config.name, host⟩, verdict⟩

end Start

/-! ## What a start can do -/

section Cases

variable {env : Environment} {d : RequestDispatcher} {store : Store} {now : ℕ} {wall : Int64}

/-- The request has passed every test and goes to the backend of the virtual host. -/
structure HandedOver (env : Environment) (d : RequestDispatcher) (store : Store) (now : ℕ)
    (host : Text) (pointer : ℕ) (vh : VirtualHost) (handoff : Handoff) : Prop where
  normalizedHost : d.request.normalizedHost = some host
  routed : store.route (d.incoming host now) = some pointer
  virtualHost : store.virtualHosts[pointer]? = some vh
  directed : d.misdirected store pointer host now = false
  target : validReverseProxyTarget d.request.view = true
  notConnect : d.request.method ≠ ascii "CONNECT"
  policy : (evaluateAt env.toEnvironment vh (d.incoming host now)).2 = .ok none
  authenticated : ∃ authenticator authentication wall,
    UrlAuthenticator.make (env.urlAuth vh.config.site) = .ok authenticator ∧
    authenticator.authenticate env.md5 d.request.target wall = some authentication ∧
    authentication.allowed = true ∧
    handoff =
      { virtualHost := vh.config
        request := { d.request with target := forwardedTarget d.request.target authentication }
        clientIp := d.clientIp
        scheme := d.security.forwardedScheme
        requestId := d.requestId
        settings := d.settings }

theorem find_eq_some {r : Incoming} {pointer : ℕ} {vh : VirtualHost}
    (h : find store r = some (pointer, vh)) :
    store.route r = some pointer ∧ store.virtualHosts[pointer]? = some vh := by
  unfold find at h
  obtain ⟨pointer', hroute, h⟩ := Option.bind_eq_some_iff.mp h
  obtain ⟨vh', hvh, h⟩ := Option.bind_eq_some_iff.mp h
  cases h
  exact ⟨hroute, hvh⟩

theorem authenticate_handOver {vh : VirtualHost} {handoff : Handoff}
    (h : d.authenticate env vh wall = .handOver handoff) :
    ∃ authenticator authentication,
      UrlAuthenticator.make (env.urlAuth vh.config.site) = .ok authenticator ∧
      authenticator.authenticate env.md5 d.request.target wall = some authentication ∧
      authentication.allowed = true ∧
      handoff =
        { virtualHost := vh.config
          request := { d.request with target := forwardedTarget d.request.target authentication }
          clientIp := d.clientIp
          scheme := d.security.forwardedScheme
          requestId := d.requestId
          settings := d.settings } := by
  unfold RequestDispatcher.authenticate at h
  split at h
  · cases h
  · rename_i authenticator hmake
    split at h
    · cases h
    · rename_i authentication hauth
      split at h
      · cases h
      · rename_i hallowed
        refine ⟨authenticator, authentication, hmake, hauth, ?_, (Verdict.handOver.inj h).symm⟩
        simpa using hallowed

/-- The dispatcher answers before it asks the policy. -/
def RequestDispatcher.refused (d : RequestDispatcher) (store : Store) (pointer : ℕ) (host : Text)
    (now : ℕ) : Bool :=
  d.misdirected store pointer host now || !validReverseProxyTarget d.request.view ||
    d.request.method = ascii "CONNECT"

/-- The request for which the policy of the virtual host is asked. -/
def RequestDispatcher.consulted (d : RequestDispatcher) (store : Store) (now : ℕ) :
    Option Incoming := do
  let host ← d.request.normalizedHost
  let (pointer, _) ← find store (d.incoming host now)
  if d.refused store pointer host now then none else some (d.incoming host now)

theorem consulted_now {r : Incoming} (h : d.consulted store now = some r) : r.now = now := by
  unfold RequestDispatcher.consulted at h
  obtain ⟨host, -, h⟩ := Option.bind_eq_some_iff.mp h
  obtain ⟨⟨pointer, vh⟩, -, h⟩ := Option.bind_eq_some_iff.mp h
  dsimp only at h
  split at h
  · cases h
  · cases h
    rfl

/-- Either the policy is not asked, or the store is the one that its answer leaves. -/
theorem judge_cases (env : Environment) (d : RequestDispatcher) (store : Store) (pointer : ℕ)
    (vh : VirtualHost) (host : Text) (now : ℕ) (wall : Int64) :
    (d.refused store pointer host now = true ∧
        (d.judge env store pointer vh host now wall).1 = store ∧
        ∃ response, (d.judge env store pointer vh host now wall).2 = .answer response) ∨
      (d.refused store pointer host now = false ∧
        (d.judge env store pointer vh host now wall).1 =
          setPolicy store pointer vh (evaluateAt env.toEnvironment vh (d.incoming host now)).1 ∧
        ∀ handoff, (d.judge env store pointer vh host now wall).2 = .handOver handoff →
          (evaluateAt env.toEnvironment vh (d.incoming host now)).2 = .ok none ∧
            d.authenticate env vh wall = .handOver handoff) := by
  unfold RequestDispatcher.judge
  split
  · rename_i hdirected
    exact .inl ⟨by simp [RequestDispatcher.refused, hdirected], rfl, _, rfl⟩
  · rename_i hdirected
    split
    · rename_i htarget
      exact .inl ⟨by simp [RequestDispatcher.refused, htarget], rfl, _, rfl⟩
    · rename_i htarget
      split
      · rename_i hmethod
        exact .inl ⟨by simp [RequestDispatcher.refused, hmethod], rfl, _, rfl⟩
      · rename_i hmethod
        refine .inr ⟨?_, rfl, ?_⟩
        · simp only [Bool.not_eq_true] at hdirected htarget
          simp [RequestDispatcher.refused, hdirected, htarget, hmethod]
        intro handoff h
        dsimp only at h
        split at h
        · cases h
        · cases h
        · rename_i hnone
          exact ⟨hnone, h⟩

/-- A start leaves the store alone, or as the policy of the virtual host leaves it. -/
theorem start_cases (env : Environment) (d : RequestDispatcher) (store : Store) (now : ℕ)
    (wall : Int64) :
    (d.consulted store now = none ∧ (d.start env store now wall).store = store ∧
        ∃ response, (d.start env store now wall).verdict = .answer response) ∨
      ∃ host, d.consulted store now = some (d.incoming host now) ∧
        (d.start env store now wall).store =
          (store.request env.toEnvironment (d.incoming host now)).1 ∧
        ∀ handoff, (d.start env store now wall).verdict = .handOver handoff →
          ∃ pointer vh, HandedOver env d store now host pointer vh handoff := by
  unfold RequestDispatcher.start RequestDispatcher.consulted
  split
  · rename_i hhost
    exact .inl ⟨by simp [hhost], rfl, _, rfl⟩
  · rename_i host hhost
    split
    · rename_i hfind
      exact .inl ⟨by simp [hhost, hfind], rfl, _, rfl⟩
    · rename_i pointer vh hfind
      obtain ⟨hroute, hvh⟩ := find_eq_some hfind
      rcases judge_cases env d store pointer vh host now wall with ⟨hkept, hstore, hanswer⟩ |
        ⟨hkept, hstore, hhand⟩
      · exact .inl ⟨by simp [hhost, hfind, hkept], hstore, hanswer⟩
      · refine .inr ⟨host, ?_, ?_, fun handoff h => ?_⟩
        · simp [hhost, hfind, hkept]
        · simp only [hstore, Store.request, hroute, hvh, setPolicy]
        · obtain ⟨hpolicy, hauth⟩ := hhand handoff h
          obtain ⟨⟨hdirected, htarget⟩, hmethod⟩ : (d.misdirected store pointer host now = false ∧
              validReverseProxyTarget d.request.view = true) ∧
              d.request.method ≠ ascii "CONNECT" := by
            simpa [RequestDispatcher.refused] using hkept
          obtain ⟨authenticator, authentication, hmake, hgiven, hallowed, heq⟩ :=
            authenticate_handOver hauth
          exact ⟨pointer, vh, hhost, hroute, hvh, hdirected, htarget, hmethod, hpolicy,
            authenticator, authentication, wall, hmake, hgiven, hallowed, heq⟩

end Cases

end Dispatcher
end WebServer
