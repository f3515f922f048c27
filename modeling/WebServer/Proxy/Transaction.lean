import WebServer.Limiter.Model

/-!
# WebServer.Proxy.Transaction

`ProxyTransactionImpl`: one proxied request, from the wait for a backend slot to the completion
callback.

The transaction runs on a serial executor. Each asynchronous operation it starts is an `Op`, named
after its completion handler; an event completes one operation in flight, or calls `cancel`. The
operations on the client and on the backend are the ones the source counts in
`client_operations_pending_` and `backend_operations_pending_`.

What a handler reads from outside the transaction's own state (the error code and byte count of
the completion, the parsers and serializers, buffer sizes, the connection pool, allocations) is
`Io`, arbitrary in every event. Cancelling a timer, a resolver or a socket changes nothing here:
the operation still completes, with any result.

`inFlight`, `heads`, `completions`, `fault`, `connections` and `bodyReads` are not in the source: the
operations in flight, the response heads started on the downstream stream, the calls of
`completion_`, whether `with_backend` was called without a stream, in which case the model goes on
as if there were one, the connections to the backend with what was reported of them, and the reads
of the request body.
-/

namespace WebServer
namespace Proxy

open Limiter (BackendAcquireResult)

/-- The error codes the handlers tell apart. -/
inductive Error where
  | needBuffer
  /-- `beast::error::timeout` and `asio::error::timed_out` -/
  | timeout
  | bodyLimit
  | other
  deriving DecidableEq, Repr

/-- An asynchronous operation, by the handler that completes it. -/
inductive Op where
  | startOnExecutor
  | onBackendPermit
  | onConnectTimeout
  | onResolved
  | onConnect
  | onTlsHandshake
  | onRequestHeaderWritten
  | onContinueWritten
  | onRequestBodyRead
  | onRequestBodyWritten
  | onRequestBodyFinished
  | onResponseHeader
  | onHeaderWritten
  | onBodyRead
  | onBodyWritten
  | onUpgradeResponse
  | onUpgradeWritten
  | onClientBufferFlushed
  | onBackendBufferFlushed
  | onClientTunnelRead
  | onBackendTunnelWritten
  | onBackendTunnelRead
  | onClientTunnelWritten
  | onErrorWritten
  deriving DecidableEq, Repr

inductive Side where
  | client
  | backend
  /-- the acquire, the resolver and the timer, which no counter counts -/
  | uncounted
  deriving DecidableEq, Repr

def Op.side : Op → Side
  | .startOnExecutor | .onBackendPermit | .onConnectTimeout | .onResolved => .uncounted
  | .onConnect | .onTlsHandshake | .onRequestHeaderWritten | .onRequestBodyWritten
  | .onRequestBodyFinished | .onResponseHeader | .onBodyRead | .onUpgradeResponse
  | .onClientBufferFlushed | .onBackendTunnelWritten | .onBackendTunnelRead => .backend
  | .onContinueWritten | .onRequestBodyRead | .onHeaderWritten | .onBodyWritten | .onUpgradeWritten
  | .onBackendBufferFlushed | .onClientTunnelRead | .onClientTunnelWritten
  | .onErrorWritten => .client

/-- The operation writes a part of an error, a proxied or an upgrade response to the client, or
reads the next part of a proxied one. -/
def Op.responding : Op → Bool
  | .onHeaderWritten | .onBodyRead | .onBodyWritten | .onUpgradeWritten | .onErrorWritten => true
  | _ => false

/-- What a handler reads from outside the transaction. -/
structure Io where
  error : Option Error := none
  bytes : Nat := 0
  acquired : BackendAcquireResult := .granted
  /-- a pooled connection is there -/
  pooled : Bool := false
  /-- `make_unique` of a buffer does not throw -/
  allocated : Bool := true
  /-- `SSL_set_tlsext_host_name` succeeds, or the name is an address -/
  sniAccepted : Bool := true
  /-- `client_parser_.is_done()` -/
  clientDone : Bool := false
  /-- the bytes a body read put into the transfer buffer -/
  produced : Nat := 0
  /-- `result_int()` of the backend's response -/
  result : Nat := 200
  /-- `response_parser_->is_done()` -/
  responseDone : Bool := false
  /-- `response.keep_alive()` -/
  responseKeepAlive : Bool := false
  /-- `response_serializer_->is_done()` -/
  serializerDone : Bool := false
  /-- `backend_socket_open()` -/
  socketOpen : Bool := false
  /-- `client_buffer_.size()` and `backend_buffer_.size()` -/
  clientBuffer : Nat := 0
  backendBuffer : Nat := 0
  deriving DecidableEq, Repr

/-- What is fixed when the transaction starts. -/
structure Config where
  websocket : Bool := false
  expectContinue : Bool := false
  /-- `request_.chunked()` of the prepared request -/
  chunked : Bool := false
  https : Bool := false
  /-- `settings_.backend_keep_alive && backend_.keep_alive` -/
  backendKeepAlive : Bool := false
  clientKeepAlive : Bool := true
  deriving DecidableEq, Repr

structure DeferredFinish where
  status : Nat
  bytes : Nat
  keepAlive : Bool
  deriving DecidableEq, Repr

/-- A response head started on the downstream stream, and whether another response was still
being sent then. -/
structure Head where
  status : Nat
  busy : Bool
  deriving DecidableEq, Repr

/-- A call of `completion_`, with what it finds. -/
structure Completed where
  status : Nat
  bytes : Nat
  keepAlive : Bool
  clientOperationsPending : Nat
  backendOperationsPending : Nat
  permit : Bool
  deriving DecidableEq, Repr

/-- A connection to the backend, newest first in `connections`. -/
structure Connection where
  fromPool : Bool
  /-- `backend_operations_pending_` when it was taken into use -/
  pending : Nat
  /-- the bytes of the request reported as written to it -/
  written : Nat
  /-- a write of the request header to it succeeded -/
  requested : Bool
  deriving DecidableEq, Repr

/-- The memory that reads fill and writes send. -/
inductive Buffer where
  | httpTransfer
  | responseTransfer
  | clientToBackend
  | backendToClient
  deriving DecidableEq, Repr

structure State where
  /-- `backend_stream_` is engaged -/
  backendStream : Bool := false
  pendingAcquire : Bool := false
  permit : Bool := false
  deferredFinish : Option DeferredFinish := none
  clientKeepAlive : Bool
  requestBodyDone : Bool := false
  requestUploadComplete : Bool := false
  responseHeaderStarted : Bool := false
  earlyBackendResponse : Bool := false
  stopRequestUpload : Bool := false
  clientCancelRequested : Bool := false
  backendCloseRequested : Bool := false
  backendFromPool : Bool := false
  retriedPooledConnection : Bool := false
  errorKeepAlive : Bool := false
  backendKeepAlive : Bool := false
  connecting : Bool := false
  completed : Bool := false
  clientOperationsPending : Nat := 0
  backendOperationsPending : Nat := 0
  status : Nat := 0
  responseBytes : Nat := 0
  /-- `response_transfer_buffer_` is engaged -/
  responseTransferBuffer : Bool := false
  /-- `data` and `more` of the body of the response -/
  responseData : Option Buffer := none
  responseMore : Bool := false
  inFlight : List Op
  heads : List Head := []
  completions : List Completed := []
  fault : Bool := false
  connections : List Connection := []
  bodyReads : Nat := 0

def State.init (c : Config) : State :=
  { clientKeepAlive := c.clientKeepAlive, inFlight := [.startOnExecutor] }

/-! ## Operations and counters -/

/-- An operation that no counter counts. -/
def State.begin (s : State) (op : Op) : State := { s with inFlight := op :: s.inFlight }

/-- `with_backend`: dereferences `*backend_stream_`. -/
def withBackend (s : State) : State := if s.backendStream then s else { s with fault := true }

def startBackendOperation (s : State) (op : Op) : State :=
  withBackend { s with
    backendOperationsPending := s.backendOperationsPending + 1
    inFlight := op :: s.inFlight }

def startClientOperation (s : State) (op : Op) : State :=
  { s with
    clientOperationsPending := s.clientOperationsPending + 1
    inFlight := op :: s.inFlight }

def maybeReleaseClosedBackend (s : State) : State :=
  if s.backendCloseRequested = true ∧ s.backendOperationsPending = 0 then
    { s with backendStream := false }
  else s

/-- `if (pending != 0) --pending;` is the subtraction of natural numbers. -/
def finishBackendOperation (s : State) : State :=
  maybeReleaseClosedBackend { s with backendOperationsPending := s.backendOperationsPending - 1 }

def finishClientOperation (s : State) : State :=
  { s with clientOperationsPending := s.clientOperationsPending - 1 }

def expireBackendAfter (s : State) : State := withBackend s

/-! ## Finishing -/

def closeBackend (s : State) : State :=
  if s.backendStream then maybeReleaseClosedBackend { s with backendCloseRequested := true } else s

def finish (s : State) (status bytes : Nat) (keepAlive : Bool) : State :=
  if s.completed then s
  else
    let s := { s with completed := true, connecting := false, pendingAcquire := false, permit := false }
    { s with completions := ⟨status, bytes, keepAlive, s.clientOperationsPending,
        s.backendOperationsPending, s.permit⟩ :: s.completions }

def maybeFinishDeferred (s : State) : State :=
  match s.deferredFinish with
  | none => s
  | some d =>
    if s.clientOperationsPending ≠ 0 ∨ s.backendOperationsPending ≠ 0 then s
    else finish { maybeReleaseClosedBackend s with deferredFinish := none } d.status d.bytes d.keepAlive

def finishWhenIoQuiesced (s : State) (status bytes : Nat) (keepAlive : Bool) : State :=
  if s.completed then s
  else maybeFinishDeferred { s with
    deferredFinish := some ⟨status, bytes, keepAlive⟩
    clientCancelRequested := s.clientCancelRequested || s.clientOperationsPending ≠ 0 }

/-- A response head is started on the downstream stream. -/
def State.head (s : State) (status : Nat) : State :=
  { s with heads := ⟨status, s.inFlight.any (·.responding)⟩ :: s.heads }

def sendError (s : State) (status bodySize : Nat) (io : Io) : State :=
  let s := closeBackend s
  startClientOperation { s.head status with
    status := status
    errorKeepAlive := s.clientKeepAlive && io.clientDone &&
      (status ≠ 400 && status ≠ 413 && status ≠ 408)
    responseBytes := bodySize } .onErrorWritten

def fail (s : State) (error : Error) (io : Io) : State :=
  if s.completed then s
  else
    let s := { s with connecting := false }
    match error with
    | .timeout => sendError s 504 "Gateway Timeout".length io
    | _ => sendError s 502 "Bad Gateway".length io

def failAfterHeader (s : State) : State :=
  if s.completed then s
  else
    let s := closeBackend s
    finishWhenIoQuiesced s (if s.status = 0 then 502 else s.status) s.responseBytes false

def finishTunnel (s : State) : State :=
  if s.completed then s
  else
    let s := closeBackend s
    finishWhenIoQuiesced s 101 s.responseBytes false

def finishNormal (c : Config) (s : State) (io : Io) : State :=
  if s.earlyBackendResponse || !s.requestUploadComplete then
    let s := closeBackend s
    finishWhenIoQuiesced s s.status s.responseBytes false
  else
    let reusable := c.backendKeepAlive && s.backendKeepAlive && s.backendStream && io.socketOpen
    let s := if reusable then { s with backendStream := false } else closeBackend s
    finish s s.status s.responseBytes s.clientKeepAlive

def cancelOnExecutor (s : State) : State :=
  if s.completed then s
  else
    let s := closeBackend { s with connecting := false }
    finishWhenIoQuiesced s (if s.status = 0 then 499 else s.status) s.responseBytes false

/-! ## Connecting -/

/-- Another connection is taken into use. -/
def State.connection (s : State) (fromPool : Bool) : State :=
  { s with connections := ⟨fromPool, s.backendOperationsPending, 0, false⟩ :: s.connections }

def connectBackend (c : Config) (s : State) (io : Io) : State :=
  let s := { s with
    backendFromPool := false, backendCloseRequested := false, backendStream := true }.connection false
  if c.https && !io.sniAccepted then fail s .other io
  else
    ({ s with connecting := true }.begin .onConnectTimeout).begin .onResolved

def writeRequestHeader (s : State) : State :=
  startBackendOperation (expireBackendAfter s) .onRequestHeaderWritten

def onBackendPermit (c : Config) (s : State) (io : Io) : State :=
  let s := { s with pendingAcquire := false }
  if s.completed then s
  else if io.acquired ≠ .granted then
    sendError s 503 (if io.acquired = .queueTimeout then "Backend Queue Timeout".length
      else "Backend Overloaded".length) io
  else
    let s := { s with permit := true }
    if !c.websocket && !io.allocated then sendError s 503 "Insufficient Memory".length io
    else
      let s := if c.backendKeepAlive && !c.websocket && io.pooled then
          { s with
            backendCloseRequested := false, backendStream := true, backendFromPool := true }.connection true
        else s
      if s.backendStream then writeRequestHeader s else connectBackend c s io

def onConnectTimeout (s : State) (io : Io) : State :=
  if io.error.isSome || !s.connecting || s.completed then s
  else fail (closeBackend { s with connecting := false }) .timeout io

def onResolved (s : State) (io : Io) : State :=
  if !s.connecting || s.completed then s
  else
    match io.error with
    | some error => fail { s with connecting := false } error io
    | none => startBackendOperation (expireBackendAfter s) .onConnect

/-- The guard most backend handlers start with. -/
def State.closing (s : State) : Bool :=
  s.deferredFinish.isSome || s.backendCloseRequested || s.completed

/-- The guard most client handlers start with. -/
def State.finishing (s : State) : Bool := s.deferredFinish.isSome || s.completed

def onConnect (c : Config) (s : State) (io : Io) : State :=
  let s := finishBackendOperation s
  if s.closing then maybeFinishDeferred s
  else if !s.connecting || s.completed then s
  else
    match io.error with
    | some error => fail s error io
    | none =>
      if c.https then startBackendOperation (expireBackendAfter s) .onTlsHandshake
      else writeRequestHeader { s with connecting := false }

def onTlsHandshake (s : State) (io : Io) : State :=
  let s := finishBackendOperation s
  if s.closing then maybeFinishDeferred s
  else if !s.connecting || s.completed then s
  else
    let s := { s with connecting := false }
    match io.error with
    | some error => fail s error io
    | none => writeRequestHeader s

/-! ## Request and response header -/

def readResponseHeader (s : State) : State :=
  if s.responseHeaderStarted || s.completed then s
  else
    startBackendOperation (expireBackendAfter { s with responseHeaderStarted := true })
      .onResponseHeader

def readRequestBodyChunk (s : State) : State :=
  if s.completed || s.stopRequestUpload then s
  else startClientOperation s .onRequestBodyRead

def readUpgradeResponse (s : State) : State :=
  startBackendOperation (expireBackendAfter s) .onUpgradeResponse

def onRequestHeaderWritten (c : Config) (s : State) (io : Io) : State :=
  let s := finishBackendOperation s
  if s.closing then maybeFinishDeferred s
  else
    match io.error with
    | some error =>
      if s.backendFromPool && !s.retriedPooledConnection && io.bytes == 0 then
        connectBackend c (closeBackend { s with retriedPooledConnection := true }) io
      else fail s error io
    | none =>
      let s := { s with backendFromPool := false }
      if c.websocket then readUpgradeResponse s
      else if !io.clientDone then
        if c.expectContinue then startClientOperation s .onContinueWritten
        else readRequestBodyChunk (readResponseHeader s)
      else readResponseHeader { s with requestUploadComplete := true }

def onContinueWritten (s : State) (io : Io) : State :=
  let s := finishClientOperation s
  if s.finishing then maybeFinishDeferred s
  else
    match io.error with
    | some error => fail s error io
    | none => readRequestBodyChunk (readResponseHeader s)

def onResponseHeader (s : State) (io : Io) : State :=
  let s := finishBackendOperation s
  if s.backendCloseRequested || s.completed then maybeFinishDeferred s
  else
    match io.error with
    | some error => fail s error io
    | none =>
      if 100 ≤ io.result ∧ io.result < 200 ∧ io.result ≠ 101 then
        readResponseHeader { s with responseHeaderStarted := false }
      else if io.result = 101 then sendError s 502 "Unexpected protocol upgrade".length io
      else
        let s := { s with
          earlyBackendResponse := !s.requestUploadComplete
          stopRequestUpload := !s.requestUploadComplete
          clientKeepAlive := s.clientKeepAlive && s.requestUploadComplete }
        if s.earlyBackendResponse && !io.responseDone && !io.allocated then
          sendError s 503 "Insufficient Memory".length io
        else
          startClientOperation { s.head io.result with
            status := io.result
            backendKeepAlive := io.responseKeepAlive && !s.earlyBackendResponse
            responseTransferBuffer :=
              s.responseTransferBuffer || (s.earlyBackendResponse && !io.responseDone)
            responseData := none
            responseMore := !io.responseDone } .onHeaderWritten

/-! ## Upload -/

def finishRequestBody (c : Config) (s : State) : State :=
  if s.completed || s.stopRequestUpload then s
  else if !c.chunked then { s with requestUploadComplete := true }
  else startBackendOperation (expireBackendAfter s) .onRequestBodyFinished

def onRequestBodyRead (c : Config) (s : State) (io : Io) : State :=
  let s := finishClientOperation s
  if s.deferredFinish.isSome then maybeFinishDeferred s
  else if s.completed || s.stopRequestUpload then s
  else
    match io.error with
    | some .bodyLimit => sendError s 413 "Payload Too Large".length io
    | some .timeout => sendError s 408 "Request Timeout".length io
    | some .other => sendError s 400 "Invalid Request Body".length io
    | none | some .needBuffer =>
      let s := { s with requestBodyDone := io.clientDone }
      if io.produced = 0 then
        if s.requestBodyDone then finishRequestBody c s else readRequestBodyChunk s
      else startBackendOperation (expireBackendAfter s) .onRequestBodyWritten

def onRequestBodyWritten (c : Config) (s : State) (io : Io) : State :=
  let s := finishBackendOperation s
  if s.deferredFinish.isSome then maybeFinishDeferred s
  else if s.completed || s.stopRequestUpload then s
  else
    match io.error with
    | some error => fail s error io
    | none => if s.requestBodyDone then finishRequestBody c s else readRequestBodyChunk s

def onRequestBodyFinished (s : State) (io : Io) : State :=
  let s := finishBackendOperation s
  if s.deferredFinish.isSome then maybeFinishDeferred s
  else if s.completed || s.stopRequestUpload then s
  else
    match io.error with
    | some error => fail s error io
    | none => { s with requestUploadComplete := true }

/-! ## Response body -/

/-- The buffer the response body is read into. -/
def State.transfer (s : State) : Buffer :=
  if s.responseTransferBuffer then .responseTransfer else .httpTransfer

def readBodyChunk (s : State) : State :=
  startBackendOperation (expireBackendAfter { s with responseData := some s.transfer }) .onBodyRead

def onHeaderWritten (c : Config) (s : State) (io : Io) : State :=
  let s := finishClientOperation s
  if s.finishing then maybeFinishDeferred s
  else if io.error.isSome then failAfterHeader s
  else if io.responseDone then
    if io.serializerDone then finishNormal c s io else startClientOperation s .onBodyWritten
  else readBodyChunk s

def onBodyRead (s : State) (io : Io) : State :=
  let s := finishBackendOperation s
  if s.backendCloseRequested || s.completed then maybeFinishDeferred s
  else if io.error.isSome ∧ io.error ≠ some .needBuffer then failAfterHeader s
  else startClientOperation { s with
    responseBytes := s.responseBytes + io.produced
    responseData := some s.transfer
    responseMore := !io.responseDone } .onBodyWritten

def onBodyWritten (c : Config) (s : State) (io : Io) : State :=
  let s := finishClientOperation s
  if s.finishing then maybeFinishDeferred s
  else if io.error = some .needBuffer then
    if io.responseDone && io.serializerDone then finishNormal c s io else readBodyChunk s
  else if io.error.isSome then failAfterHeader s
  else if io.serializerDone then finishNormal c s io
  else startClientOperation s .onBodyWritten

/-! ## Upgrade and tunnel -/

def onUpgradeResponse (s : State) (io : Io) : State :=
  let s := finishBackendOperation s
  if s.closing then maybeFinishDeferred s
  else
    match io.error with
    | some error => fail s error io
    | none =>
      if io.result ≠ 101 then sendError s 502 "WebSocket backend rejected upgrade".length io
      else if !io.allocated then sendError s 503 "Insufficient Memory".length io
      else
        let s := withBackend { s with status := 101 }
        startClientOperation (s.head 101) .onUpgradeWritten

def readFromClient (s : State) : State := startClientOperation s .onClientTunnelRead

def readFromBackend (s : State) : State := startBackendOperation s .onBackendTunnelRead

def startTunnel (s : State) : State := readFromBackend (readFromClient s)

def flushBackendBuffer (s : State) (io : Io) : State :=
  if io.backendBuffer = 0 then startTunnel s else startClientOperation s .onBackendBufferFlushed

def flushClientBuffer (s : State) (io : Io) : State :=
  if io.clientBuffer = 0 then flushBackendBuffer s io
  else startBackendOperation s .onClientBufferFlushed

def onUpgradeWritten (s : State) (io : Io) : State :=
  let s := finishClientOperation s
  if s.finishing then maybeFinishDeferred s
  else
    match io.error with
    | some error => fail s error io
    | none => flushClientBuffer s io

def onClientBufferFlushed (s : State) (io : Io) : State :=
  let s := finishBackendOperation s
  if s.closing then maybeFinishDeferred s
  else
    match io.error with
    | some error => fail s error io
    | none => flushBackendBuffer s io

def onBackendBufferFlushed (s : State) (io : Io) : State :=
  let s := finishClientOperation s
  if s.finishing then maybeFinishDeferred s
  else
    match io.error with
    | some error => fail s error io
    | none => startTunnel s

def onClientTunnelRead (s : State) (io : Io) : State :=
  let s := finishClientOperation s
  if s.finishing then maybeFinishDeferred s
  else if io.error.isSome then finishTunnel s
  else startBackendOperation s .onBackendTunnelWritten

def onBackendTunnelWritten (s : State) (io : Io) : State :=
  let s := finishBackendOperation s
  if s.closing then maybeFinishDeferred s
  else if io.error.isSome then finishTunnel s
  else readFromClient { s with responseBytes := s.responseBytes + io.bytes }

def onBackendTunnelRead (s : State) (io : Io) : State :=
  let s := finishBackendOperation s
  if s.closing then maybeFinishDeferred s
  else if io.error.isSome then finishTunnel s
  else startClientOperation s .onClientTunnelWritten

def onClientTunnelWritten (s : State) (io : Io) : State :=
  let s := finishClientOperation s
  if s.finishing then maybeFinishDeferred s
  else if io.error.isSome then finishTunnel s
  else readFromBackend { s with responseBytes := s.responseBytes + io.bytes }

def onErrorWritten (s : State) (io : Io) : State :=
  let s := finishClientOperation s
  if s.finishing then maybeFinishDeferred s
  else finishWhenIoQuiesced s s.status s.responseBytes (!io.error.isSome && s.errorKeepAlive)

/-! ## Events -/

def startOnExecutor (s : State) : State :=
  { s with pendingAcquire := true }.begin .onBackendPermit

/-- The handler of a completed operation. -/
def handle (c : Config) (s : State) (io : Io) : Op → State
  | .startOnExecutor => startOnExecutor s
  | .onBackendPermit => onBackendPermit c s io
  | .onConnectTimeout => onConnectTimeout s io
  | .onResolved => onResolved s io
  | .onConnect => onConnect c s io
  | .onTlsHandshake => onTlsHandshake s io
  | .onRequestHeaderWritten => onRequestHeaderWritten c s io
  | .onContinueWritten => onContinueWritten s io
  | .onRequestBodyRead => onRequestBodyRead c s io
  | .onRequestBodyWritten => onRequestBodyWritten c s io
  | .onRequestBodyFinished => onRequestBodyFinished s io
  | .onResponseHeader => onResponseHeader s io
  | .onHeaderWritten => onHeaderWritten c s io
  | .onBodyRead => onBodyRead s io
  | .onBodyWritten => onBodyWritten c s io
  | .onUpgradeResponse => onUpgradeResponse s io
  | .onUpgradeWritten => onUpgradeWritten s io
  | .onClientBufferFlushed => onClientBufferFlushed s io
  | .onBackendBufferFlushed => onBackendBufferFlushed s io
  | .onClientTunnelRead => onClientTunnelRead s io
  | .onBackendTunnelWritten => onBackendTunnelWritten s io
  | .onBackendTunnelRead => onBackendTunnelRead s io
  | .onClientTunnelWritten => onClientTunnelWritten s io
  | .onErrorWritten => onErrorWritten s io

/-- What the completion of an operation reports of the connection in use. -/
def Connection.observe (k : Connection) (io : Io) : Op → Connection
  | .onRequestHeaderWritten =>
    { k with written := k.written + io.bytes, requested := k.requested || io.error.isNone }
  | .onRequestBodyWritten | .onRequestBodyFinished => { k with written := k.written + io.bytes }
  | _ => k

def State.observe (s : State) (op : Op) (io : Io) : State :=
  { s with
    connections := s.connections.modifyHead fun k => k.observe io op
    bodyReads := s.bodyReads + if op = .onRequestBodyRead then 1 else 0 }

inductive Event where
  | cancel
  | complete (op : Op) (io : Io)
  deriving DecidableEq, Repr

def step (c : Config) (s : State) : Event → Option State
  | .cancel => some (cancelOnExecutor s)
  | .complete op io =>
    if op ∈ s.inFlight then
      some (handle c { s.observe op io with inFlight := s.inFlight.erase op } io op)
    else none

end Proxy
end WebServer
