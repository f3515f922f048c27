import WebServer.Admin.Records
import WebServer.Core.Registry

/-!
# WebServer.Admin.Api

`AdminApi`: `handle`, `handle_async` and the routes of `handle_authenticated`, in the order in which
they are tried.

An exception leaves a handler with what was done before it. The configuration service reports its
errors as texts; the class of the exception that carries such a text is left to the environment, as
are the clocks, the probes, the log files and the figures of the limiter.

`backups` and `probes` are not in the source: the backups that were exported and the backends that
were probed so far.
-/

namespace WebServer
namespace AdminApi

open Act Admin Config Http Registry Routing

inductive Verb where
  | get
  | post
  | put
  | delete
  | other (name : Text)
  deriving DecidableEq

structure Request where
  method : Verb
  target : Text
  fields : List HeaderField
  body : Text
  version : Nat
  keepAlive : Bool

structure Response where
  status : Nat
  version : Nat
  keepAlive : Bool
  fields : List (String × Text)
  body : String
  deriving DecidableEq

structure ListenerStatus where
  protocol : String
  address : String
  configuredPort : Nat
  boundPort : Nat
  siteCount : Nat
  status : String

structure BackendConcurrencyMetrics where
  siteId : Int
  activeConnections : Nat
  queueLength : Nat
  rejectedRequests : Nat
  queueTimeouts : Nat

inductive LogKind where
  | access
  | error
  deriving DecidableEq

structure Services where
  world : World
  accounts : Accounts
  registries : Registries
  backups : List String
  probes : List Admin.BackendConfig

/-- What one request is given by the rest of the program. -/
structure Environment (φ : Type) where
  lib : Libraries φ
  auth : AuthEnv
  config : Config.Env
  thrown : Config.Error → Exception
  exportedAt : Int64
  uptimeSeconds : Int
  steady : Int
  iteration : Iteration
  listenerStatus : Option (List ListenerStatus)
  metrics : List BackendConcurrencyMetrics
  probe : Admin.BackendConfig → BackendProbeResult φ
  /-- `recent_lines`, when there is a logger -/
  recentLines : Option (LogKind → Except Exception (List Text))

abbrev Api := EStateM Exception Services

/-! ## Requests and responses -/

def requestPath (request : Request) : Text := request.target.takeWhile (· != 63)

def percentDecode : Text → Text
  | [] => []
  | c :: rest =>
    if c = 43 then 32 :: percentDecode rest
    else if c = 37 then
      match rest with
      | a :: b :: tail =>
        match hexValue a, hexValue b with
        | some high, some low => UInt8.ofNat (16 * high + low) :: percentDecode tail
        | _, _ => c :: percentDecode (a :: b :: tail)
      | tail => c :: percentDecode tail
    else c :: percentDecode rest

/-- The pieces between ampersands; nothing comes after the last one. -/
def queryParts (query : Text) : List Text :=
  let parts := query.splitOn 38
  if parts.getLast? = some [] then parts.dropLast else parts

/-- The parameters in the order of the query. -/
def queryParameters (request : Request) : List (Text × Text) :=
  match cut 63 request.target with
  | none => []
  | some (_, query) => (queryParts query).map fun part =>
    match cut 61 part with
    | none => (percentDecode part, [])
    | some (key, value) => (percentDecode key, percentDecode value)

/-- A later parameter replaces an earlier one of the same name. -/
def parameter (request : Request) (key : String) : Option Text :=
  (queryParameters request).reverse.lookup (ascii key)

/-- `std::from_chars`, on the whole text. -/
def decimalValue (t : Text) : Option Nat :=
  if t ≠ [] ∧ t.all isDigit = true then
    some (Nat.ofDigits 10 (t.reverse.map fun b => b.toNat - 48))
  else none

/-- A positive 64-bit number. With a sign it would be negative or zero. -/
def positiveId (t : Text) : Option Int :=
  match decimalValue t with
  | none => none
  | some n => if 0 < n ∧ n < 2 ^ 63 then some n else none

def idAfter (start path : Text) : Option Int :=
  if start.isPrefixOf path then positiveId (path.drop start.length) else none

def siteIdFromPath (path : Text) : Option Int := idAfter (ascii "/api/sites/") path

def certificateIdFromPath (path : Text) : Option Int := idAfter (ascii "/api/certificates/") path

def sessionName : Text := ascii "ws_admin_session="

def tokenOf : List Text → Text
  | [] => []
  | part :: parts =>
    let part := part.dropWhile (· == 32)
    if sessionName.isPrefixOf part then part.drop sessionName.length else tokenOf parts

def sessionToken (request : Request) : Text :=
  tokenOf ((get request.fields (ascii "Cookie")).1.splitOn 59)

def hasMutationGuard (request : Request) : Bool :=
  (get request.fields (ascii "X-WebServer-Admin")).1 == ascii "1"

section Handlers

variable {φ : Type} (env : Environment φ)

def jsonResponse (request : Request) (status : Nat) (body : Json φ) : Response :=
  { status := status
    version := request.version
    keepAlive := request.keepAlive
    fields := [("Content-Type", ascii "application/json; charset=utf-8"),
      ("Cache-Control", ascii "no-store"), ("X-Content-Type-Options", ascii "nosniff"),
      ("Referrer-Policy", ascii "no-referrer")]
    body := env.lib.codec.dump body }

def errorResponse (request : Request) (status : Nat) (message : String) : Response :=
  jsonResponse env request status (.ofFields [("error", .str message)])

def configurationResponse (request : Request) (body : String) : Response :=
  { status := 200
    version := request.version
    keepAlive := request.keepAlive
    fields := [("Content-Type", ascii "application/json; charset=utf-8"),
      ("Content-Disposition", ascii "attachment; filename=webserver-config-backup.json"),
      ("Cache-Control", ascii "no-store"), ("X-Content-Type-Options", ascii "nosniff")]
    body := body }

def setCookie (cookie : Text) (response : Response) : Response :=
  { response with fields := response.fields ++ [("Set-Cookie", cookie)] }

/-- `json::parse(request.body())` -/
def parseBody (request : Request) : Except Exception (Json φ) :=
  match Utf8.decode request.body with
  | none => .error .json
  | some text => parseJson env.lib.codec text

/-- A string of bytes in a value that is dumped. -/
def textJson (t : Text) : Except Exception (Json φ) :=
  match Utf8.decode t with
  | none => .error .json
  | some s => .ok (.str s)

def onWorld {α : Type} (m : Service α) : Api α := fun s =>
  match m s.world with
  | .ok a w => .ok a { s with world := w }
  | .error e w => .error (env.thrown e) { s with world := w }

def onAccounts {α : Type} (m : Auth α) : Api α :=
  onPart (·.accounts) (fun s accounts => { s with accounts := accounts }) m

/-- A route that changes something. -/
def withMutationGuard (request : Request) (m : Api Response) : Api Response :=
  if hasMutationGuard request then m
  else pure (errorResponse env request 403 "missing admin request guard")

/-! ## Views -/

def sitesOf : Api (List SiteRecord) := onWorld env (onDatabase (listSites env.config.sqlite))

def statusView (request : Request) : Api Response := do
  let sites ← sitesOf env
  let stored ← onWorld env (onDatabase (configRevision env.config.sqlite))
  let s ← get
  pure (jsonResponse env request 200 (.ofFields
    [("uptime_seconds", .int env.uptimeSeconds), ("site_count", number sites.length),
      ("active_revision", number s.world.activeRevision), ("stored_revision", number stored),
      ("restart_required", .bool (stored != s.world.activeRevision)),
      ("hot_reload_enabled", .bool s.world.reloadHandler)]))

def listenerJson (listener : ListenerStatus) : Json φ :=
  .ofFields [("protocol", .str listener.protocol), ("address", .str listener.address),
    ("configured_port", number listener.configuredPort), ("bound_port", number listener.boundPort),
    ("site_count", number listener.siteCount), ("status", .str listener.status)]

def listenersView (request : Request) : Api Response :=
  pure (jsonResponse env request 200 (.ofFields
    [("listeners", .arr ((env.listenerStatus.getD []).map listenerJson))]))

def connectionJson (info : ConnectionInfo) : Except Exception (Json φ) := do
  let protocol ← textJson info.protocol
  let sourceAddress ← textJson info.sourceAddress
  let status ← textJson info.status
  let method ← textJson info.method
  let url ← textJson info.url
  let referer ← textJson info.referer
  return .ofFields [("id", number info.id), ("protocol", protocol),
    ("source_address", sourceAddress), ("connected_at_unix_ms", .int info.connectedAtUnixMs),
    ("connected_seconds", number info.connectedSeconds), ("status", status), ("method", method),
    ("url", url), ("referer", referer)]

def httpRequestJson (info : HttpRequestInfo) : Except Exception (Json φ) := do
  let siteName ← textJson info.siteName
  let host ← textJson info.host
  let protocol ← textJson info.protocol
  let clientIp ← textJson info.clientIp
  let status ← textJson info.status
  let method ← textJson info.method
  let url ← textJson info.url
  let referer ← textJson info.referer
  return .ofFields [("id", number info.id), ("site_id", .int info.siteId),
    ("site_name", siteName), ("host", host), ("protocol", protocol), ("client_ip", clientIp),
    ("connected_at_unix_ms", .int info.connectedAtUnixMs),
    ("connected_seconds", number info.connectedSeconds), ("status", status), ("method", method),
    ("url", url), ("referer", referer)]

def connectionsResponse (request : Request) (connections : List (Json φ)) (total : Nat) : Response :=
  jsonResponse env request 200
    (.ofFields [("connections", .arr connections), ("total", number total)])

def connectionsView (request : Request) : Api Response := do
  let s ← get
  let connections ← attempt
    ((ConnectionRegistry.snapshot s.registries.connections env.iteration env.steady).mapM
      connectionJson)
  pure (connectionsResponse env request connections
    (ConnectionRegistry.size s.registries.connections))

def siteFilter (request : Request) : Except Exception (Option Int) :=
  match parameter request "site_id" with
  | none | some [] => .ok none
  | some text =>
    match positiveId text with
    | some id => .ok (some id)
    | none => .error (.invalidArgument "site_id must be a positive integer")

def httpConnectionsView (request : Request) : Api Response := do
  let siteId ← attempt (siteFilter request)
  let s ← get
  let connections ← attempt
    ((HttpRequestRegistry.snapshot s.registries.requests siteId env.iteration env.steady).mapM
      httpRequestJson)
  pure (connectionsResponse env request connections
    (HttpRequestRegistry.size s.registries.requests siteId))

def metricsJson (metrics : List BackendConcurrencyMetrics) (site : SiteRecord) : Json φ :=
  let live := metrics.find? fun item => item.siteId == site.id
  .ofFields [("site_id", .int site.id), ("site_name", .str site.name),
    ("backend", .str (site.backendProtocol ++ "://" ++ site.backendAddress ++ ":" ++
      toString site.backendPort)),
    ("maximum_active", number site.backendMaxActiveConnections),
    ("maximum_queue", number site.backendMaxQueue),
    ("queue_timeout_seconds", number site.backendQueueTimeoutSeconds),
    ("active_connections", number ((live.map (·.activeConnections)).getD 0)),
    ("queue_length", number ((live.map (·.queueLength)).getD 0)),
    ("rejected_requests", number ((live.map (·.rejectedRequests)).getD 0)),
    ("queue_timeouts", number ((live.map (·.queueTimeouts)).getD 0))]

def metricsView (request : Request) : Api Response := do
  let sites ← sitesOf env
  pure (jsonResponse env request 200 (.ofFields
    [("backends", .arr (sites.map (metricsJson env.metrics)))]))

/-! ## The log console -/

def foldedContains (text needle : Text) : Bool :=
  (text.map lower).tails.any fun t => (needle.map lower).isPrefixOf t

def containsFolded (item : Json φ) (field : String) (needle : Text) : Bool :=
  needle = [] ||
    match item.find? field with
    | some (.str s) => foldedContains (utf8 s) needle
    | _ => false

def logLimit (request : Request) : Except Exception Nat :=
  match parameter request "limit" with
  | none => .ok 100
  | some text =>
    match decimalValue text with
    | some n =>
      if n = 100 ∨ n = 500 ∨ n = 1000 then .ok n
      else .error (.invalidArgument "log limit must be 100, 500, or 1000")
    | none => .error (.invalidArgument "log limit must be 100, 500, or 1000")

def parameterOr (request : Request) (key : String) : Text := (parameter request key).getD []

def matchesAccess (request : Request) (item : Json φ) : Except Exception Bool :=
  if containsFolded item "host" (parameterOr request "host") &&
      containsFolded item "client_ip" (parameterOr request "ip") &&
      containsFolded item "request_id" (parameterOr request "request_id") &&
      containsFolded item "path" (parameterOr request "path") then
    if parameterOr request "status" = [] then .ok true
    else
      match Network.fromChars (parameterOr request "status") with
      | none => .error (.invalidArgument "status filter must be numeric")
      | some requested => do
        let status ← accessing (item.value (Json.getUInt32 env.lib.codec.truncate) "status" 0)
        return status == requested
  else .ok false

def matchesError (request : Request) (item : Json φ) : Except Exception Bool := do
  let level := parameterOr request "level"
  let sameLevel ← if level = [] then .ok true else do
    let found ← stringOr item "level" ""
    return utf8 found == level
  return sameLevel && containsFolded item "request_id" (parameterOr request "request_id") &&
    (containsFolded item "component" (parameterOr request "search") ||
      containsFolded item "message" (parameterOr request "search"))

/-- What the console makes of a line; `parse` is the parser of the JSON library. Lines that are no JSON
objects are skipped. -/
def readLine (parse : String → Except String (Json φ)) (line : Text) : Option (Json φ) := do
  let text ← Utf8.decode line
  match parse text with
  | .ok item => if item.isObject then some item else none
  | .error _ => none

def logMatches (request : Request) (kind : LogKind) (item : Json φ) : Except Exception Bool :=
  match kind with
  | .access => matchesAccess env request item
  | .error => matchesError request item

def logsView (request : Request) (kind : LogKind) : Api Response :=
  match env.recentLines with
  | none => pure (errorResponse env request 503 "logging is unavailable")
  | some recentLines => do
    let limit ← attempt (logLimit request)
    let lines ← attempt (recentLines kind)
    let items := lines.filterMap (readLine env.lib.codec.parse)
    let matched ← attempt (items.filterM (logMatches env request kind))
    let entries := (matched.drop (matched.length - limit)).reverse
    pure (jsonResponse env request 200 (.ofFields [("entries", .arr entries)]))

/-! ## Routes that change something -/

def exportBackup (request : Request) : Api Response := do
  let encoded ← onWorld env (exportConfiguration env.lib.codec env.config.sqlite env.exportedAt)
  modify fun s => { s with backups := s.backups ++ [encoded] }
  pure (configurationResponse request encoded)

/-- The size of the body is tested before its bytes are read. -/
def restoreBackup (request : Request) : Api Response := do
  match Utf8.decode request.body with
  | none =>
    if maximumConfigurationBackupBytes < request.body.length then
      throw (.invalidArgument "configuration backup must be between 1 byte and 16 MiB")
    else throw .json
  | some encoded => onWorld env (importConfiguration (checks env.lib) env.config encoded)
  let s ← get
  pure (jsonResponse env request 200 (.ofFields
    [("restored", .bool true), ("active_revision", number s.world.activeRevision)]))

def reloadRoute (request : Request) : Api Response := do
  onWorld env (reloadRuntime (checks env.lib) env.config)
  let s ← get
  pure (jsonResponse env request 200 (.ofFields
    [("reloaded", .bool true), ("active_revision", number s.world.activeRevision)]))

/-- `probe_backend`, or `async_probe_backend` with its completion. -/
def probeBackend (backend : Admin.BackendConfig) : Api (BackendProbeResult φ) := do
  modify fun s => { s with probes := s.probes ++ [backend] }
  pure (env.probe backend)

def probeRoute (request : Request) : Api Response := do
  let payload ← attempt (parseBody env request)
  let backend ← attempt (parseBackendProbe env.lib payload)
  let result ← probeBackend env backend
  pure (jsonResponse env request 200 (probeJson result))

def createCertificateRoute (request : Request) : Api Response := do
  let payload ← attempt (parseBody env request)
  let certificate ← attempt (parseCertificate payload)
  let certificate ← onWorld env (createCertificate (checks env.lib) env.config certificate)
  pure (jsonResponse env request 201 (certificateJson certificate))

def findCertificate (id : Int) : Api CertificateRecord := do
  let certificates ← onWorld env (onDatabase (listCertificates env.config.sqlite))
  match certificates.find? fun c => c.id == id with
  | some certificate => pure certificate
  | none => throw (.invalidArgument "TLS certificate does not exist")

def updateCertificateRoute (request : Request) (id : Int) : Api Response := do
  let payload ← attempt (parseBody env request)
  let certificate ← attempt (parseCertificate payload)
  let current ← findCertificate env id
  let certificatePem :=
    if certificate.certificatePem = "" then current.certificatePem else certificate.certificatePem
  let privateKeyPem :=
    if certificate.privateKeyPem = "" then current.privateKeyPem else certificate.privateKeyPem
  let certificate ← onWorld env (updateCertificate (checks env.lib) env.config
    { certificate with id := id, certificatePem := certificatePem, privateKeyPem := privateKeyPem })
  pure (jsonResponse env request 200 (certificateJson certificate))

def deletedResponse (request : Request) : Response :=
  jsonResponse env request 200 (.ofFields [("deleted", .bool true)])

def deleteCertificateRoute (request : Request) (id : Int) : Api Response := do
  onWorld env (deleteCertificate (checks env.lib) env.config id)
  pure (deletedResponse env request)

def updateSettingsRoute (request : Request) : Api Response := do
  let payload ← attempt (parseBody env request)
  let settings ← attempt (parseSettings env.lib.codec payload)
  let settings ← onWorld env (updateRuntimeSettings (checks env.lib) env.config settings)
  pure (jsonResponse env request 200 (settingsJson settings))

def createSiteRoute (request : Request) : Api Response := do
  let payload ← attempt (parseBody env request)
  let site ← attempt (parseSite env.lib.codec payload)
  let site ← onWorld env (createSite (checks env.lib) env.config site)
  let shown ← attempt (siteJson env.lib.codec site)
  pure (jsonResponse env request 201 shown)

def updateSiteRoute (request : Request) (id : Int) : Api Response := do
  let payload ← attempt (parseBody env request)
  let site ← attempt (parseSite env.lib.codec payload)
  let site ← onWorld env (updateSite (checks env.lib) env.config { site with id := id })
  let shown ← attempt (siteJson env.lib.codec site)
  pure (jsonResponse env request 200 shown)

def deleteSiteRoute (request : Request) (id : Int) : Api Response := do
  onWorld env (deleteSite (checks env.lib) env.config id)
  pure (deletedResponse env request)

def logoutRoute (request : Request) (token : Text) : Api Response := do
  modify fun s => { s with accounts := logout token s.accounts }
  pure (setCookie expiredSessionCookie
    (jsonResponse env request 200 (.ofFields [("authenticated", .bool false)])))

def sitesView (request : Request) : Api Response := do
  let sites ← sitesOf env
  let shown ← attempt (sites.mapM (siteJson env.lib.codec))
  pure (jsonResponse env request 200 (.ofFields [("sites", .arr shown)]))

def certificatesView (request : Request) : Api Response := do
  let certificates ← onWorld env (onDatabase (listCertificates env.config.sqlite))
  pure (jsonResponse env request 200 (.ofFields
    [("certificates", .arr (certificates.map certificateJson))]))

def settingsView (request : Request) : Api Response := do
  let settings ← onWorld env (onDatabase (runtimeSettings env.config.sqlite))
  pure (jsonResponse env request 200 (settingsJson settings))

/-! ## Dispatch -/

/-- The route is the one of the method and the path. -/
def Request.is (request : Request) (path : Text) (method : Verb) (route : String) : Bool :=
  request.method == method && path == ascii route

/-- The routes behind the first half of the tests, up to the certificates. -/
def handleSites (request : Request) (path : Text) : Api Response :=
  if request.is path .get "/api/settings" then settingsView env request
  else if request.is path .put "/api/settings" then
    withMutationGuard env request (updateSettingsRoute env request)
  else if request.is path .post "/api/sites" then
    withMutationGuard env request (createSiteRoute env request)
  else
    match siteIdFromPath path, request.method with
    | some id, .put => withMutationGuard env request (updateSiteRoute env request id)
    | some id, .delete => withMutationGuard env request (deleteSiteRoute env request id)
    | _, _ => pure (errorResponse env request 404 "admin API endpoint not found")

def handleCertificates (request : Request) (path : Text) : Api Response :=
  if request.is path .get "/api/certificates" then certificatesView env request
  else if request.is path .post "/api/certificates" then
    withMutationGuard env request (createCertificateRoute env request)
  else
    match certificateIdFromPath path, request.method with
    | some id, .put => withMutationGuard env request (updateCertificateRoute env request id)
    | some id, .delete => withMutationGuard env request (deleteCertificateRoute env request id)
    | _, _ => handleSites env request path

def handleAuthenticated (request : Request) (path token : Text) : Api Response :=
  if request.is path .post "/api/auth/logout" then
    withMutationGuard env request (logoutRoute env request token)
  else if request.is path .get "/api/status" then statusView env request
  else if request.is path .get "/api/listeners" then listenersView env request
  else if request.is path .get "/api/connections" then connectionsView env request
  else if request.is path .get "/api/http-connections" then httpConnectionsView env request
  else if request.is path .get "/api/backends/metrics" then metricsView env request
  else if request.is path .get "/api/config/backup" then
    withMutationGuard env request (exportBackup env request)
  else if request.is path .post "/api/config/restore" then
    withMutationGuard env request (restoreBackup env request)
  else if request.is path .get "/api/logs/access" then logsView env request .access
  else if request.is path .get "/api/logs/error" then logsView env request .error
  else if request.is path .post "/api/runtime/reload" then
    withMutationGuard env request (reloadRoute env request)
  else if request.is path .get "/api/sites" then sitesView env request
  else if request.is path .post "/api/backends/test" then
    withMutationGuard env request (probeRoute env request)
  else handleCertificates env request path

/-- Whether the token of the request is accepted; `authorize` renews the session. -/
def authorizeRequest (request : Request) : Api Bool := fun s =>
  match authorize env.auth (sessionToken request) s.accounts with
  | (accepted, accounts) => .ok accepted { s with accounts := accounts }

def unauthorized (request : Request) : Response :=
  errorResponse env request 401 "authentication required"

def authenticatedResponse (request : Request) (token : Text) : Response :=
  setCookie (sessionCookie token)
    (jsonResponse env request 200 (.ofFields [("authenticated", .bool true)]))

/-- The `try` block around `login`. -/
def loginRoute (request : Request) (username password : String) (remoteIp : Text) : Api Response :=
  fun s =>
    match onAccounts (login env.auth username password remoteIp) s with
    | .ok token s' => .ok (authenticatedResponse env request token) s'
    | .error (.invalidArgument _) s' =>
      .ok (errorResponse env request 401 "invalid username or password") s'
    | .error e s' => .error e s'

def setupRoute (request : Request) (username password : String) (remoteIp : Text) :
    Api Response := do
  let token ← onAccounts (createFirstAdmin env.auth username password remoteIp)
  pure (authenticatedResponse env request token)

def credentials (request : Request) : Except Exception (String × String) := do
  let payload ← parseBody env request
  let username ← requiredString payload "username"
  let password ← requiredString payload "password"
  return (username, password)

/-- The `try` block of `handle`. -/
def tryHandle (request : Request) (remoteIp : Text) : Api Response := do
  let path := requestPath request
  if request.is path .get "/api/auth/setup-state" then do
    let required ← onAccounts (setupRequired env.auth)
    pure (jsonResponse env request 200 (.ofFields [("setup_required", .bool required)]))
  else if request.is path .post "/api/auth/setup" then
    withMutationGuard env request do
      let (username, password) ← attempt (credentials env request)
      setupRoute env request username password remoteIp
  else if request.is path .post "/api/auth/login" then
    withMutationGuard env request do
      let (username, password) ← attempt (credentials env request)
      loginRoute env request username password remoteIp
  else do
    let accepted ← authorizeRequest env request
    if accepted then handleAuthenticated env request path (sessionToken request)
    else pure (unauthorized env request)

/-- The handlers behind the `try` block. -/
def rejected (request : Request) : Exception → Response
  | .json => errorResponse env request 400 "invalid JSON request"
  | .invalidArgument what => errorResponse env request 400 what
  | .logicError what => errorResponse env request 409 what
  | .runtimeError what =>
    if what.startsWith "too many login attempts" then errorResponse env request 429 what
    else errorResponse env request 409 what

def handle (request : Request) (remoteIp : Text) (s : Services) : Response × Services :=
  match tryHandle env request remoteIp s with
  | .ok response s' => (response, s')
  | .error e s' => (rejected env request e, s')

/-- The handlers of `handle_async` know no rate limit. -/
def rejectedAsync (request : Request) : Exception → Response
  | .json => errorResponse env request 400 "invalid JSON request"
  | .invalidArgument what => errorResponse env request 400 what
  | .logicError what => errorResponse env request 409 what
  | .runtimeError what => errorResponse env request 409 what

def tryProbe (request : Request) : Api Response := do
  let accepted ← authorizeRequest env request
  if accepted then withMutationGuard env request (probeRoute env request)
  else pure (unauthorized env request)

/-- The response that the completion handler is given, at once or after the probe. -/
def handleAsync (request : Request) (remoteIp : Text) (s : Services) : Response × Services :=
  if request.is (requestPath request) .post "/api/backends/test" then
    match tryProbe env request s with
    | .ok response s' => (response, s')
    | .error e s' => (rejectedAsync env request e, s')
  else handle env request remoteIp s

end Handlers

end AdminApi
end WebServer
