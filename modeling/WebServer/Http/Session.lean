import WebServer.Http.Desk
import WebServer.Lib.Act
import WebServer.Proxy.Safety

/-!
# WebServer.Http.Session

`HttpSession` and `TlsHttpSession`: one client connection. The session reads a request head, has it
dispatched, and writes the answer or lets a `ProxyTransaction` do so, until one side closes.

A handler is a program that may throw at every call in `Call`; `guarded_handler` and `invoke_guarded`
end an exception in `abort_noexcept`. The transactions of the session are the ones of
`WebServer.Proxy`: their handlers do not throw, and a call of `completion_` is a call of
`on_stream_complete`. A handler runs on the strand of the connection and is one step. Only the abort of
a `stop` whose `dispatch` throws runs on the caller's thread; it is taken to be one step between two
handlers.

`World` is the session with what it shares with the others: the policies of the published snapshots,
the runtime configuration that `load` finds, and the registries. `transactions`, `dispatches`,
`accessLog`, `closes`, `aborted` and `serverName` are not in the source: all transactions, newest
first, the dispatchers that were made, what they have passed to `log_access`, the calls of
`on_close_`, whether `abort_noexcept` has run, and the name in the handshake.
-/

namespace WebServer
namespace HttpSession

open Act Http Network Registry
open Dispatcher (Handoff RequestDispatcher Resolved makeTextResponse)

/-! ## The state -/

/-- An operation on the stream, by the handler that completes it. -/
inductive Op where
  | onHandshake
  | onHeaderRead
  | onWrite (keepAlive : Bool)
  | onShutdown
  deriving DecidableEq, Repr

/-- The error codes that the handlers tell apart. -/
inductive Error where
  | endOfStream
  /-- `asio::ssl::error::stream_truncated` -/
  | truncated
  | bodyLimit
  | operationAborted
  | other
  deriving DecidableEq, Repr

/-- The calls that may throw. -/
inductive Call where
  | dispatchStop
  | logError
  | updateConnection
  | updateRequest
  | emplaceParser
  | expiresAfter
  | asyncHandshake
  | asyncRead
  | asyncWrite
  | asyncShutdown
  | resolveClient
  | addRequest
  | makeDispatcher
  | updateSite
  | makeResponse
  | logAccess
  | makeTransaction
  | cancelDispatcher
  | expiresNever
  | onClose
  deriving DecidableEq, Repr

/-- What a handler reads from outside the session. -/
structure Io where
  error : Option Error := none
  fails : Call → Bool := fun _ => false
  stopping : Bool := false
  /-- `remote_endpoint` of a socket that is open -/
  peer : Option Address := none
  /-- what the parser has read, `keep_alive()` and `is_done()` -/
  head : Head
  keepAlive : Bool := true
  parserDone : Bool := true
  /-- what the constructor of the transaction takes from the request and the settings -/
  transaction : Proxy.Config := {}
  /-- `next_request_id` -/
  requestId : Text := []
  clock : Now := ⟨0, 0⟩
  now : ℕ := 0
  wall : Int64 := 0
  /-- the name that the client sends in the handshake -/
  serverName : Option Text := none

/-- Which callbacks of a dispatcher are set. -/
structure Handlers where
  onSiteResolved : Bool := false
  onProxy : Bool := false
  onComplete : Bool := false
  deriving DecidableEq, Repr

/-- A call of `log_access`: the dispatcher, by its place among those that were made. -/
structure Logged where
  dispatch : ℕ
  status : ℕ
  responseBytes : ℕ
  deriving DecidableEq, Repr

structure Session where
  scheme : Scheme
  listenerPort : UInt16
  tlsContexts : Option Tls.ContextManager := none
  tlsState : Tls.ConnectionState := ⟨none, none⟩
  serverName : Option Text := none
  parser : Bool := false
  response : Option Dispatcher.Response := none
  /-- `dispatcher_` points to the last of `dispatches` -/
  dispatcher : Bool := false
  handlers : Handlers := {}
  completed : Bool := false
  /-- `proxy_operation_` points to the first of `transactions` -/
  proxyOperation : Bool := false
  onClose : Bool := true
  connectionId : ℕ
  httpRequestId : ℕ := 0
  handshakeComplete : Bool := false
  /-- a member of `TlsHttpSession` only -/
  closing : Bool := false
  closed : Bool := false
  socketOpen : Bool := true
  inFlight : List Op := []
  transactions : List (Proxy.Config × Proxy.State) := []
  dispatches : List RequestDispatcher := []
  accessLog : List Logged := []
  closes : ℕ := 0
  aborted : Bool := false

structure Shared where
  desk : Desk
  registries : Registries := {}

structure World where
  shared : Shared
  session : Session

abbrev Program := EStateM Unit World

def modifySession (f : Session → Session) : Program Unit :=
  modify fun w => { w with session := f w.session }

/-- The function is given the id of the connection. -/
def modifyConnections (f : ℕ → Registry.Table ConnectionInfo → Registry.Table ConnectionInfo) :
    Program Unit :=
  modify fun w =>
    { w with
      shared.registries.connections := f w.session.connectionId w.shared.registries.connections }

def modifyRequests (f : ℕ → Registry.Table HttpRequestInfo → Registry.Table HttpRequestInfo) :
    Program Unit :=
  modify fun w =>
    { w with
      shared.registries.requests := f w.session.httpRequestId w.shared.registries.requests }

def call (io : Io) (c : Call) : Program Unit := failing (if io.fails c then some () else none)

/-! ## Aborting -/

def clearHttpRequest (w : World) : World :=
  if w.session.httpRequestId = 0 then w
  else
    { w with
      shared.registries.requests := w.shared.registries.requests.remove w.session.httpRequestId
      session.httpRequestId := 0 }

def removeConnection (w : World) : World :=
  { w with
    shared.registries.connections := w.shared.registries.connections.remove w.session.connectionId }

/-- `cancel` of the newest transaction. -/
def Session.cancelTransaction (s : Session) : Session :=
  { s with transactions := s.transactions.modifyHead fun t => (t.1, Proxy.cancelOnExecutor t.2) }

/-- The calls of `completion_` of the newest transaction. -/
def Session.completions (s : Session) : List Proxy.Completed :=
  (s.transactions.head?.map fun t => t.2.completions).getD []

/-- A transaction that completes when it is cancelled finds the session closed and without a
dispatcher: `on_stream_complete` then resets the operation and the parser. -/
def abortTransaction (s : Session) : Session :=
  let s' := s.cancelTransaction
  { s' with
    parser := s.parser && s'.completions.length == s.completions.length
    proxyOperation := false }

/-- The dispatcher and the transaction, when they are cancelled for good. -/
def Session.cancelActive (io : Io) (s : Session) : Session :=
  let s := if s.dispatcher && !io.fails .cancelDispatcher then { s with handlers := {} } else s
  let s := { s with dispatcher := false }
  if s.proxyOperation then abortTransaction s else s

/-- The socket and the callback. -/
def Session.shut (s : Session) : Session :=
  { s with
    socketOpen := false
    closes := s.closes + if s.onClose then 1 else 0
    onClose := false
    aborted := true }

def abortNoexcept (io : Io) (w : World) : World :=
  let w := removeConnection (clearHttpRequest { w with session.closed := true, session.closing := true })
  { w with session := (w.session.cancelActive io).shut }

/-- `guarded_handler` and `invoke_guarded` -/
def invokeGuarded (io : Io) (handler : Program Unit) : Program Unit := caught (abortNoexcept io) handler

/-! ## Reading and writing -/

def updateStatus (io : Io) (stage : Stage) : Program Unit := do
  call io .updateConnection
  modifyConnections fun id t => ConnectionRegistry.updateStatus t id stage.text
  let w ← get
  if w.session.httpRequestId ≠ 0 then
    call io .updateRequest
    modifyRequests fun id t => HttpRequestRegistry.updateStatus t id stage.text

def readRequest (io : Io) : Program Unit := do
  modify clearHttpRequest
  call io .updateConnection
  modifyConnections fun id t =>
    ConnectionRegistry.updateRequest t id [] [] [] (ascii "Waiting for Request")
  call io .emplaceParser
  modifySession fun s => { s with parser := true }
  call io .expiresAfter
  call io .asyncRead
  modifySession fun s => { s with inFlight := .onHeaderRead :: s.inFlight }

def writeResponse (io : Io) (response : Dispatcher.Response) : Program Unit := do
  call io .makeResponse
  modifySession fun s => { s with response := some response }
  call io .expiresAfter
  call io .asyncWrite
  modifySession fun s => { s with inFlight := .onWrite response.keepAlive :: s.inFlight }

/-! ## Closing -/

/-- `RequestDispatcher::cancel` -/
def cancelDispatcher (io : Io) : Program Unit := do
  call io .cancelDispatcher
  modifySession fun s => { s with handlers := {} }

def callOnClose (io : Io) : Program Unit := do
  let w ← get
  if w.session.onClose then
    modifySession fun s => { s with onClose := false, closes := s.closes + 1 }
    call io .onClose

/-- `complete_stream` -/
def completeStream (io : Io) (status bytes : ℕ) : Program Unit := do
  let w ← get
  if w.session.completed then pure ()
  else
    modifySession fun s => { s with completed := true }
    call io .logAccess
    modifySession fun s => { s with
      accessLog := s.accessLog ++ [⟨s.dispatches.length - 1, status, bytes⟩]
      handlers := {} }

/-- `on_stream_complete`, up to the test of `closed_`. -/
def streamCompleted (io : Io) (r : Proxy.Completed) : Program Unit := do
  modifySession fun s => { s with proxyOperation := false, parser := false }
  let w ← get
  if w.session.dispatcher then completeStream io r.status r.bytes
  modifySession fun s => { s with dispatcher := false }
  modify clearHttpRequest

/-- `cancel` of the transaction, and its completion if that is due. -/
def cancelProxy (io : Io) (onComplete : Proxy.Completed → Program Unit) : Program Unit := do
  let w ← get
  modifySession Session.cancelTransaction
  let w' ← get
  if w.session.completions.length < w'.session.completions.length then
    match w'.session.completions.head? with
    | some r => invokeGuarded io (onComplete r)
    | none => pure ()

/-- `close` moves both members out before it cancels them. `on_stream_complete` would find the
session closed. -/
def releaseActive (io : Io) : Program Unit := do
  let w ← get
  if w.session.dispatcher then
    modifySession fun s => { s with dispatcher := false }
    cancelDispatcher io
  if w.session.proxyOperation then
    modifySession fun s => { s with proxyOperation := false }
    cancelProxy io (streamCompleted io)

/-- `HttpSession::close` -/
def closeHttp (io : Io) : Program Unit := do
  let w ← get
  if w.session.closed then pure ()
  else
    modifySession fun s => { s with closed := true }
    modify clearHttpRequest
    modify removeConnection
    releaseActive io
    call io .expiresNever
    modifySession fun s => { s with socketOpen := false }
    callOnClose io

/-- `TlsHttpSession::close_socket` -/
def closeSocket (io : Io) : Program Unit := do
  let w ← get
  if w.session.closed then pure ()
  else
    modifySession fun s => { s with closed := true, closing := true }
    modify clearHttpRequest
    modify removeConnection
    call io .expiresNever
    modifySession fun s => { s with socketOpen := false }
    callOnClose io

/-- `TlsHttpSession::close` -/
def closeTls (io : Io) : Program Unit := do
  let w ← get
  if w.session.closed || w.session.closing then pure ()
  else
    modifySession fun s => { s with closing := true }
    call io .updateConnection
    modifyConnections fun id t => ConnectionRegistry.updateStatus t id Stage.closing.text
    releaseActive io
    let w ← get
    if !w.session.handshakeComplete then closeSocket io
    else
      call io .expiresAfter
      call io .asyncShutdown
      modifySession fun s => { s with inFlight := .onShutdown :: s.inFlight }

def close (io : Io) : Program Unit := do
  let w ← get
  match w.session.scheme with
  | .http => closeHttp io
  | .https => closeTls io

/-! ## Answers -/

/-- `on_proxy_response` and `on_dispatch_response` -/
def onProxyResponse (io : Io) (response : Dispatcher.Response) : Program Unit := do
  modifySession fun s => { s with dispatcher := false }
  let w ← get
  if w.session.closed || w.session.closing then pure ()
  else
    let keepAlive := response.keepAlive && !io.stopping && !(w.session.parser && !io.parserDone)
    updateStatus io .writingResponse
    writeResponse io { response with keepAlive := keepAlive }

/-- `RequestDispatcher::complete` -/
def complete (io : Io) (response : Dispatcher.Response) : Program Unit := do
  let w ← get
  if w.session.completed then pure ()
  else
    modifySession fun s => { s with completed := true }
    let response := if io.requestId = [] then response else
      { response with fields := response.fields ++ [(ascii "X-Request-ID", io.requestId)] }
    call io .makeResponse
    call io .logAccess
    modifySession fun s => { s with
      accessLog := s.accessLog ++ [⟨s.dispatches.length - 1, response.status, response.body.length⟩]
      handlers.onSiteResolved := false }
    let w ← get
    if w.session.handlers.onComplete then
      modifySession fun s => { s with handlers.onComplete := false }
      invokeGuarded io (onProxyResponse io response)

def Session.handing (s : Session) (io : Io) (desk : Desk) (d : RequestDispatcher) (handoff : Handoff) :
    Handed where
  dispatcher := d
  store := desk.store
  now := io.now
  handoff := handoff
  scheme := s.scheme
  tlsContexts := s.tlsContexts
  tlsState := s.tlsState
  serverName := s.serverName

def startProxy (io : Io) (d : RequestDispatcher) (handoff : Handoff) : Program Unit := do
  updateStatus io .proxying
  call io .makeTransaction
  modify fun w => { w with
    shared.desk.handed := w.shared.desk.handed ++ [w.session.handing io w.shared.desk d handoff]
    session.transactions := (io.transaction, Proxy.State.init io.transaction) :: w.session.transactions
    session.proxyOperation := true }

/-- The callback that the session passes to the dispatcher. -/
def onSiteResolved (io : Io) (site : Resolved) : Program Unit := do
  let w ← get
  if w.session.httpRequestId ≠ 0 then
    call io .updateSite
    modifyRequests fun id t => HttpRequestRegistry.updateSite t id site.siteId site.siteName site.host
      (ascii "Policy Check")

/-- The call of `on_site_resolved_` -/
def callOnSiteResolved (io : Io) (site : Option Resolved) : Program Unit := do
  let w ← get
  match site with
  | some site => if w.session.handlers.onSiteResolved then invokeGuarded io (onSiteResolved io site)
  | none => pure ()

section Dispatch

variable (env : Dispatcher.Environment)

/-- `RequestDispatcher::start`. The callbacks are looked up when they are called. -/
def startDispatcher (io : Io) (d : RequestDispatcher) : Program Unit := do
  let w ← get
  callOnSiteResolved io (d.start env w.shared.desk.store io.now io.wall).resolved
  let w ← get
  modify fun w => { w with shared.desk := w.shared.desk.decide env d io.now io.wall }
  match (d.start env w.shared.desk.store io.now io.wall).verdict with
  | .throws => failing (some ())
  | .answer response =>
    call io .makeResponse
    complete io response
  | .handOver handoff =>
    let w ← get
    if w.session.handlers.onProxy then invokeGuarded io (startProxy io d handoff)
    else
      complete io (makeTextResponse env.beastVersion d.request 500
        (ascii "Proxy handoff is unavailable") false)

/-- `max_upload_bytes` is exceeded by the head already. -/
def sendPayloadTooLarge (io : Io) : Program Unit := do
  let w ← get
  let response : Dispatcher.Response :=
    { status := 413
      version := if w.session.parser then io.head.version else .http11
      keepAlive := false
      fields := [(ascii "Content-Type", ascii "text/plain; charset=utf-8")]
      body := ascii "Payload Too Large"
      contentLength := 17 }
  call io .makeResponse
  if w.session.parser then
    call io .updateConnection
    modifyConnections fun id t => ConnectionRegistry.updateRequest t id io.head.method.1
      io.head.target.1 (get io.head.fields (ascii "Referer")).1 (ascii "Payload Too Large")
  writeResponse io response

def newDispatcher (io : Io) (runtime : Runtime) (s : Session) (clientIp : Text) : RequestDispatcher where
  snapshot := runtime.snapshot
  revision := UInt64.ofNat runtime.spec.revision
  settings := runtime.spec.settings
  listenerPort := s.listenerPort
  request := ⟨io.head.method.1, io.head.target.1, io.head.version, io.head.fields, io.keepAlive⟩
  clientIp := clientIp
  security := security s.scheme s.tlsState
  requestId := io.requestId

/-- `on_header_read`, once a head is there and the peer is known. -/
def dispatchRequest (io : Io) (peer : Address) : Program Unit := do
  let w ← get
  let runtime := w.shared.desk.runtime
  let method := io.head.method.1
  let target := io.head.target.1
  let referer := (get io.head.fields (ascii "Referer")).1
  let host := (get io.head.fields (ascii "Host")).1
  call io .updateConnection
  modifyConnections fun id t =>
    ConnectionRegistry.updateRequest t id method target referer (ascii "Routing")
  call io .resolveClient
  let clientIp := Session.clientIp env.lib runtime.clientIpResolver peer io.head.fields
  call io .addRequest
  modify fun w => { w with
    shared.registries.requests := HttpRequestRegistry.add w.shared.registries.requests io.clock
      w.session.scheme.name clientIp method target referer host (ascii "Routing")
    session.httpRequestId := w.shared.registries.requests.nextId }
  call io .makeDispatcher
  let w ← get
  let d := newDispatcher io runtime w.session clientIp
  modifySession fun s => { s with
    dispatches := s.dispatches ++ [d]
    handlers := ⟨true, true, true⟩
    completed := false
    dispatcher := true }
  startDispatcher env io d

/-! ## Handlers -/

def onHeaderRead (io : Io) : Program Unit := do
  let w ← get
  match io.error with
  | some error =>
    if error = .endOfStream ∨ (w.session.scheme = .https ∧ error = .truncated) then close io
    else if error = .bodyLimit then sendPayloadTooLarge io
    else
      if error ≠ .operationAborted then call io .logError
      close io
  | none =>
    match io.peer with
    | none => close io
    | some peer =>
      if !w.session.socketOpen ||
          (w.session.scheme == .https && w.session.tlsState.selectedContext.isNone) then close io
      else dispatchRequest env io peer

def onWrite (io : Io) (keepAlive : Bool) : Program Unit := do
  match io.error with
  | some error =>
    if error ≠ .operationAborted then call io .logError
    close io
  | none =>
    modifySession fun s => { s with response := none, parser := false }
    modify clearHttpRequest
    if !keepAlive || io.stopping then close io else readRequest io

def onHandshake (io : Io) : Program Unit := do
  match io.error with
  | some error =>
    if error ≠ .operationAborted then call io .logError
    closeSocket io
  | none =>
    modifySession fun s => { s with handshakeComplete := true }
    readRequest io

def onStreamComplete (io : Io) (r : Proxy.Completed) : Program Unit := do
  streamCompleted io r
  let w ← get
  if w.session.closed || w.session.closing then pure ()
  else if !r.keepAlive || io.stopping then close io
  else readRequest io

def stopOnExecutor (io : Io) : Program Unit := do
  let w ← get
  if w.session.proxyOperation then cancelProxy io (onStreamComplete io)
  else
    if w.session.dispatcher then cancelDispatcher io
    if w.session.response.isNone then
      match w.session.scheme with
      | .http => closeHttp io
      | .https => closeSocket io

def start (io : Io) : Program Unit := do
  let w ← get
  match w.session.scheme with
  | .http => readRequest io
  | .https =>
    call io .expiresAfter
    call io .asyncHandshake
    modifySession fun s => { s with inFlight := .onHandshake :: s.inFlight }

end Dispatch

end HttpSession
end WebServer
