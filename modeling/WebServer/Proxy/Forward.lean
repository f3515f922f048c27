import WebServer.Lib.Framing
import WebServer.Lib.Run

/-!
# WebServer.Proxy.Forward

The bytes that `ProxyTransactionImpl` sends to the backend for one request: `prepare_request`
rewrites the header fields, `write_request_header` sends the head, and the upload loop
(`on_request_body_read`, `on_request_body_written`, `finish_request_body`) relays the body, one
read at a time.

The framing of the forwarded stream is decided three times over: by the fields that
`strip_hop_headers` leaves in the head, by `request_.chunked()` on those same fields when a piece of
the body is relayed, and by the parser of the backend. `Delivers` says that they agree;
`delivers_iff` says exactly when.

The steps here are those of an upload that is neither cut short by an early answer nor by a failed
read or write.
-/

namespace WebServer
namespace Forward

open Http

def httpTransferChunkSize : Nat := 16 * 1024

structure BackendConfig where
  host : Value
  keepAlive : Bool

structure RuntimeSettings where
  backendKeepAlive : Bool

/-- What the constructor of the transaction is given, as far as the request depends on it. -/
structure Transaction where
  request : Head
  backend : BackendConfig
  settings : RuntimeSettings
  clientIp : Value
  scheme : Value
  requestId : Value
  websocket : Bool

/-! ## The forwarded head -/

theorem isName_xForwardedFor : IsName (ascii "X-Forwarded-For") := by decide

def host : Name := ⟨ascii "Host", by decide⟩
def xRealIp : Name := ⟨ascii "X-Real-IP", by decide⟩
def xForwardedFor : Name := ⟨ascii "X-Forwarded-For", isName_xForwardedFor⟩
def xForwardedProto : Name := ⟨ascii "X-Forwarded-Proto", by decide⟩
def xRequestId : Name := ⟨ascii "X-Request-ID", by decide⟩

def isAlnum (c : UInt8) : Bool :=
  (48 ≤ c && c ≤ 57) || (65 ≤ c && c ≤ 90) || (97 ≤ c && c ≤ 122)

def tokenCharacter (c : UInt8) : Bool := isAlnum c || (ascii "!#$%&'*+-.^_`|~").contains c

/-- The names that the `Connection` fields list; an item that is not a token is passed over. -/
def connectionTokens (fs : List HeaderField) : List Text :=
  (values fs connection.1).flatMap fun v =>
    ((v.1.splitOn 44).map trim).filter fun t => !t.isEmpty && t.all tokenCharacter

def stripHopHeaders (fs : List HeaderField) (preserveUpgrade preserveTransferEncoding : Bool) :
    List HeaderField :=
  let named := (connectionTokens fs).filter fun n =>
    !(preserveUpgrade && iequals n (ascii "upgrade"))
  let fs := named.foldl erase fs
  let fs := if preserveUpgrade then fs else erase (erase fs connection.1) (ascii "Upgrade")
  let fs := erase fs (ascii "Keep-Alive")
  let fs := erase fs (ascii "TE")
  let fs := erase fs (ascii "Trailer")
  let fs := if preserveTransferEncoding then fs else erase fs transferEncoding.1
  let fs := erase fs (ascii "Proxy-Connection")
  let fs := erase fs (ascii "Proxy-Authenticate")
  erase fs (ascii "Proxy-Authorization")

def forwardingHeaders : List Text :=
  [ascii "Forwarded", ascii "X-Forwarded-For", ascii "X-Forwarded-Host",
    ascii "X-Forwarded-Proto", ascii "X-Real-IP", ascii "CF-Connecting-IP",
    ascii "True-Client-IP", ascii "X-Request-ID"]

def removeForwardingHeaders (fs : List HeaderField) : List HeaderField :=
  forwardingHeaders.foldl erase fs

/-- The configured host, else what the request holds under that name when this is called. -/
def effectiveBackendHost (backend : BackendConfig) (fs : List HeaderField) : Value :=
  if backend.host.1 ≠ [] then backend.host else get fs host.1

def prepareRequest (R : Rules) (t : Transaction) : Head :=
  let fs := removeForwardingHeaders t.request.fields
  let fs := stripHopHeaders fs t.websocket true
  let fs := set fs host (effectiveBackendHost t.backend fs)
  let fs := set fs xRealIp t.clientIp
  let fs := set fs xForwardedFor t.clientIp
  let fs := set fs xForwardedProto t.scheme
  let fs := if t.requestId.1 ≠ [] then set fs xRequestId t.requestId else fs
  let fs :=
    if t.websocket then fs
    else erase (R.keepAlive fs (t.settings.backendKeepAlive && t.backend.keepAlive))
      (ascii "Expect")
  { t.request with version := .http11, fields := fs }

/-! ## The upload loop -/

/-- One completed `async_read_some`: the bytes it produced, and whether the parser is done. -/
structure Read where
  data : Text
  done : Bool
  fits : data.length ≤ httpTransferChunkSize

structure Upload where
  request : Head
  written : Text
  requestBodyDone : Bool
  requestUploadComplete : Bool

def writeRequestHeader (request : Head) : Upload := ⟨request, writeHead request, false, false⟩

/-- `isDone`: the client's request ended with its head. -/
def onRequestHeaderWritten (u : Upload) (isDone : Bool) : Upload :=
  if isDone then { u with requestUploadComplete := true } else u

section Loop

variable (R : Rules)

def finishRequestBody (u : Upload) : Upload :=
  if R.chunked u.request.fields then
    { u with written := u.written ++ lastChunk, requestUploadComplete := true }
  else { u with requestUploadComplete := true }

def onRequestBodyWritten (u : Upload) : Upload :=
  if u.requestBodyDone then finishRequestBody R u else u

def onRequestBodyRead (u : Upload) (r : Read) : Upload :=
  let u := { u with requestBodyDone := r.done }
  if r.data.length = 0 then
    if u.requestBodyDone then finishRequestBody R u else u
  else if R.chunked u.request.fields then
    onRequestBodyWritten R { u with written := u.written ++ writeChunk r.data }
  else onRequestBodyWritten R { u with written := u.written ++ r.data }

/-- Nothing is read once the upload is complete. -/
def step (u : Upload) (r : Read) : Option Upload :=
  if u.requestUploadComplete then none else some (onRequestBodyRead R u r)

/-- The bytes of a completed upload. -/
def forward (t : Transaction) (isDone : Bool) (reads : List Read) : Option Text :=
  match Run.run (step R)
      (onRequestHeaderWritten (writeRequestHeader (prepareRequest R t)) isDone) reads with
  | none => none
  | some u => if u.requestUploadComplete then some u.written else none

end Loop

/-! ## The client's request -/

/-- The body can follow a head with this framing. -/
def Carries (body : Text) : Framing → Prop
  | .empty => body = []
  | .length n => body.length = n
  | .chunked => True

instance (body : Text) : ∀ f, Decidable (Carries body f)
  | .empty => inferInstanceAs (Decidable (_ = _))
  | .length _ => inferInstanceAs (Decidable (_ = _))
  | .chunked => .isTrue trivial

/-- The parser is done with the head already. -/
def doneAtHead : Framing → Bool
  | .empty => true
  | .length n => n == 0
  | .chunked => false

/-- The reads deliver the body piece by piece, and the last one knows that it is. -/
inductive Segments : Text → List Read → Prop where
  | last {r : Read} : r.done = true → Segments r.data [r]
  | more {r : Read} {body : Text} {reads : List Read} :
      r.done = false → Segments body reads → Segments (r.data ++ body) (r :: reads)

/-- How the body of a request with this framing is delivered. -/
def Delivered (f : Framing) (body : Text) (reads : List Read) : Prop :=
  if doneAtHead f then reads = [] else Segments body reads

/-! ## What is asked of the bytes -/

/-- The host that the backend should be asked for. -/
def clientHost (t : Transaction) : Value :=
  if t.backend.host.1 ≠ [] then t.backend.host else get t.request.fields host.1

/-- The bytes are one request with the client's body and the right host, and nothing more. -/
def Delivers (R : Rules) (t : Transaction) (body out : Text) : Prop :=
  ∃ head, readRequest R out = some (⟨head, body⟩, []) ∧ values head.fields host.1 = [clientHost t]

/-- Some `Connection` field lists the name. -/
def nominates (fs : List HeaderField) (n : Name) : Bool :=
  (connectionTokens fs).any fun token => iequals token n.1

/-- The host survives: it is configured, or not nominated, or was empty. -/
def KeepsHost (t : Transaction) : Prop :=
  t.backend.host.1 ≠ [] ∨ nominates t.request.fields host = false ∨
    get t.request.fields host.1 = Value.empty

/-- The framing survives: no field that delimits the body is nominated, and the message is of one
mind with the parser about the chunked coding; or there is no body that could go astray. -/
def KeepsFraming (R : Rules) (t : Transaction) (body : Text) : Framing → Prop
  | .empty => True
  | .length n => n = 0 ∨ (nominates t.request.fields contentLength = false ∧
      (nominates t.request.fields transferEncoding = true ∨ R.chunked t.request.fields = false))
  | .chunked =>
      if nominates t.request.fields transferEncoding then body = []
      else R.chunked t.request.fields = true

instance (R : Rules) (t : Transaction) (body : Text) : ∀ f, Decidable (KeepsFraming R t body f)
  | .empty => .isTrue trivial
  | .length _ => inferInstanceAs (Decidable (_ ∨ _))
  | .chunked => inferInstanceAs (Decidable
      (if nominates t.request.fields transferEncoding then body = []
      else R.chunked t.request.fields = true))

/-! ## The forwarded fields -/

/-- What `strip_hop_headers` erases in any case, unless an upgrade is to be preserved. -/
def hopHeaders : List Text :=
  [connection.1, ascii "Upgrade", ascii "Keep-Alive", ascii "TE", ascii "Trailer",
    ascii "Proxy-Connection", ascii "Proxy-Authenticate", ascii "Proxy-Authorization"]

/-- The names that `prepare_request` erases or sets by itself, whatever the client nominates. -/
def rewritten : List Text := forwardingHeaders ++ (hopHeaders ++ [host.1, ascii "Expect"])

theorem values_removeForwardingHeaders {n : Text}
    (hn : ∀ m ∈ forwardingHeaders, iequals m n = false) (fs : List HeaderField) :
    values (removeForwardingHeaders fs) n = values fs n := by
  unfold values removeForwardingHeaders
  rw [filter_erase_all fun f hf m hm => named_ne (hn m hm) hf]

theorem connectionTokens_removeForwardingHeaders (fs : List HeaderField) :
    connectionTokens (removeForwardingHeaders fs) = connectionTokens fs := by
  unfold connectionTokens
  rw [values_removeForwardingHeaders (by decide)]

theorem stripHopHeaders_eq (fs : List HeaderField) :
    stripHopHeaders fs false true = hopHeaders.foldl erase ((connectionTokens fs).foldl erase fs) := by
  simp only [stripHopHeaders, hopHeaders, Bool.false_and, Bool.not_false, List.filter_true,
    Bool.false_eq_true, if_false, if_true, List.foldl_cons, List.foldl_nil]

/-- Of the fields that the proxy does not erase by itself, the nominated ones are lost. -/
theorem filter_stripped {p : HeaderField → Bool}
    (hfwd : ∀ f, p f = true → ∀ n ∈ forwardingHeaders, f.named n = false)
    (hhop : ∀ f, p f = true → ∀ n ∈ hopHeaders, f.named n = false) (fs : List HeaderField) :
    (stripHopHeaders (removeForwardingHeaders fs) false true).filter p =
      ((connectionTokens fs).foldl erase fs).filter p := by
  rw [stripHopHeaders_eq, filter_erase_all hhop, connectionTokens_removeForwardingHeaders]
  exact filter_foldl_erase (filter_erase_all hfwd fs) (connectionTokens fs)

/-! ### The fields that are not nominated -/

/-- A field is erased with the nominated ones when its own name is nominated. -/
theorem all_tokens_of_named (fs : List HeaderField) {n : Name} {f : HeaderField}
    (hf : f.named n.1 = true) :
    ((connectionTokens fs).all fun m => !f.named m) = !nominates fs n := by
  rw [nominates, List.not_any_eq_all_not]
  congr 1
  funext m
  rw [HeaderField.named, iequals_trans hf, iequals_comm]

theorem filter_named_nominates (fs : List HeaderField) (n : Name) :
    ((connectionTokens fs).foldl erase fs).filter (HeaderField.named n.1) =
      if nominates fs n then [] else fs.filter (HeaderField.named n.1) := by
  rw [foldl_erase, List.filter_filter]
  split
  · rename_i hn
    refine List.filter_eq_nil_iff.mpr fun f _ => ?_
    cases hf : f.named n.1 with
    | false => simp
    | true => simp [all_tokens_of_named fs hf, hn]
  · rename_i hn
    refine List.filter_congr fun f _ => ?_
    cases hf : f.named n.1 with
    | false => rfl
    | true => simp [all_tokens_of_named fs hf, hn]

/-- The fields that delimit the body, without those that are nominated. -/
theorem filter_isFraming_nominates (fs : List HeaderField) :
    ((connectionTokens fs).foldl erase fs).filter HeaderField.isFraming =
      (let gs := if nominates fs contentLength then erase fs contentLength.1 else fs
      if nominates fs transferEncoding then erase gs transferEncoding.1 else gs).filter
        HeaderField.isFraming := by
  have herase : ∀ (b : Bool) (n : Name) (gs : List HeaderField),
      (if b then erase gs n.1 else gs) = gs.filter fun f => !(b && f.named n.1) := by
    intro b n gs
    cases b <;> simp [erase]
  simp only [herase, foldl_erase, List.filter_filter]
  refine List.filter_congr fun f _ => ?_
  cases hc : f.named contentLength.1 with
  | true =>
    have ht : f.named transferEncoding.1 = false := named_ne (by decide) hc
    simp [HeaderField.isFraming, hc, ht, all_tokens_of_named fs hc]
  | false =>
    cases ht : f.named transferEncoding.1 with
    | true => simp [HeaderField.isFraming, hc, ht, all_tokens_of_named fs ht]
    | false => simp [HeaderField.isFraming, hc, ht]

/-- The framing that is left without the nominated fields. -/
def keptFraming (fs : List HeaderField) : Framing → Framing
  | .empty => .empty
  | .length n => if nominates fs contentLength then .empty else .length n
  | .chunked => if nominates fs transferEncoding then .empty else .chunked

theorem framing_nominates (R : Rules) {fs : List HeaderField} {f : Framing}
    (hf : R.framing fs = some f) :
    R.framing ((connectionTokens fs).foldl erase fs) = some (keptFraming fs f) := by
  rw [framing_congr R (filter_isFraming_nominates fs)]
  cases hc : nominates fs contentLength with
  | false =>
    cases ht : nominates fs transferEncoding with
    | false => cases f <;> simpa [keptFraming, hc, ht] using hf
    | true =>
      cases f with
      | chunked => simpa [keptFraming, ht] using framing_erase_chunked R hf
      | length n => simpa [keptFraming, hc] using R.erase_coding _ _ hf (by simp)
      | empty => simpa [keptFraming] using R.erase_coding _ _ hf (by simp)
  | true =>
    cases ht : nominates fs transferEncoding with
    | true =>
      have := framing_erase_both R fs
      cases f <;> simpa [keptFraming, hc, ht] using this
    | false =>
      cases f with
      | chunked =>
        have := R.no_length _ hf
        simpa [keptFraming, ht, this] using hf
      | length n => simpa [keptFraming, hc] using R.erase_length _ _ hf (by simp)
      | empty => simpa [keptFraming] using R.erase_length _ _ hf (by simp)

theorem chunked_nominates (R : Rules) (fs : List HeaderField) :
    R.chunked ((connectionTokens fs).foldl erase fs) =
      (!nominates fs transferEncoding && R.chunked fs) := by
  rw [← R.chunked_only, filter_named_nominates fs transferEncoding]
  cases nominates fs transferEncoding with
  | true => exact R.chunked_nil
  | false => exact R.chunked_only _

theorem framing_not_rewritten (f : HeaderField) (hf : f.isFraming = true) :
    ∀ n ∈ rewritten, f.named n = false := by
  intro n hn
  simp only [HeaderField.isFraming, Bool.or_eq_true] at hf
  rcases hf with hf | hf
  · exact named_ne ((by decide : ∀ m ∈ rewritten, iequals m contentLength.1 = false) n hn) hf
  · exact named_ne ((by decide : ∀ m ∈ rewritten, iequals m transferEncoding.1 = false) n hn) hf

theorem values_host_stripped (t : Transaction) :
    values (stripHopHeaders (removeForwardingHeaders t.request.fields) false true) host.1 =
      if nominates t.request.fields host then [] else values t.request.fields host.1 := by
  have hfwd : ∀ n ∈ forwardingHeaders, iequals n host.1 = false := by decide
  have hhop : ∀ n ∈ hopHeaders, iequals n host.1 = false := by decide
  unfold values
  rw [filter_stripped (fun f hf n hn => named_ne (hfwd n hn) hf)
    (fun f hf n hn => named_ne (hhop n hn) hf), filter_named_nominates]
  split <;> rfl

section Prepared

variable (R : Rules) {t : Transaction} (hw : t.websocket = false)
include hw

/-- The test sees the fields of the client that are not nominated. -/
theorem filter_prepareRequest {p : HeaderField → Bool}
    (hp : ∀ f, p f = true → ∀ n ∈ rewritten, f.named n = false) :
    (prepareRequest R t).fields.filter p =
      ((connectionTokens t.request.fields).foldl erase t.request.fields).filter p := by
  have hset : ∀ n : Name, n.1 ∈ rewritten → ∀ gs v, (set gs n v).filter p = gs.filter p :=
    fun n hn gs v => filter_set (fun f hf => hp f hf n.1 hn) gs v
  have hstrip := filter_stripped
    (fun f hf n hn => hp f hf n (List.mem_append_left _ hn))
    (fun f hf n hn => hp f hf n (List.mem_append_right _ (List.mem_append_left _ hn)))
    t.request.fields
  have hid : ∀ gs, (if t.requestId.1 ≠ [] then set gs xRequestId t.requestId else gs).filter p =
      gs.filter p := by
    intro gs
    split
    · exact hset xRequestId (by decide) _ _
    · rfl
  simp only [prepareRequest, hw, Bool.false_eq_true, if_false]
  rw [filter_erase fun f hf => hp f hf _ (by decide),
    R.keepAlive_only _ _ _ fun f hf => hp f hf _ (by decide), hid,
    hset xForwardedProto (by decide), hset xForwardedFor (by decide), hset xRealIp (by decide),
    hset host (by decide), hstrip]

/-- How the backend will find the body delimited. -/
theorem framing_prepareRequest {f : Framing} (hf : R.framing t.request.fields = some f) :
    R.framing (prepareRequest R t).fields = some (keptFraming t.request.fields f) := by
  rw [framing_congr R (filter_prepareRequest R hw framing_not_rewritten), framing_nominates R hf]

/-- What `request_.chunked()` answers while the body is relayed. -/
theorem chunked_prepareRequest : R.chunked (prepareRequest R t).fields =
    (!nominates t.request.fields transferEncoding && R.chunked t.request.fields) := by
  have hp : ∀ f : HeaderField, f.named transferEncoding.1 = true → ∀ n ∈ rewritten,
      f.named n = false :=
    fun f hf => framing_not_rewritten f (by simp [HeaderField.isFraming, hf])
  rw [← R.chunked_only, filter_prepareRequest R hw hp, R.chunked_only, chunked_nominates]

theorem values_host_prepareRequest : values (prepareRequest R t).fields host.1 =
    [if t.backend.host.1 = [] ∧ nominates t.request.fields host = true then Value.empty
      else clientHost t] := by
  have hset : ∀ n : Name, iequals n.1 host.1 = false → ∀ gs v,
      values (set gs n v) host.1 = values gs host.1 := fun n hn gs v => values_set_ne hn gs v
  have hid : ∀ gs, values (if t.requestId.1 ≠ [] then set gs xRequestId t.requestId else gs)
      host.1 = values gs host.1 := by
    intro gs
    split
    · exact hset xRequestId (by decide) _ _
    · rfl
  have hkeep : ∀ gs b, values (R.keepAlive gs b) host.1 = values gs host.1 := by
    intro gs b
    unfold values
    rw [R.keepAlive_only _ _ _ fun f hf => named_ne (by decide) hf]
  simp only [prepareRequest, hw, Bool.false_eq_true, if_false]
  rw [values_erase_ne (by decide), hkeep, hid, hset xForwardedProto (by decide),
    hset xForwardedFor (by decide), hset xRealIp (by decide), values_set_self]
  unfold effectiveBackendHost clientHost
  by_cases hb : t.backend.host.1 = []
  · simp only [hb, ne_eq, not_true_eq_false, if_false, true_and]
    unfold Http.get
    rw [values_host_stripped]
    cases nominates t.request.fields host <;> rfl
  · simp [hb]

end Prepared

/-! ## The relayed body -/

/-- What one read adds to the stream. -/
def piece (chunked : Bool) (r : Read) : Text :=
  if r.data = [] then [] else if chunked then writeChunk r.data else r.data

/-- What follows the pieces. -/
def ending (chunked : Bool) : Text := if chunked then lastChunk else []

theorem onRequestBodyRead_eq (R : Rules) (u : Upload) (r : Read) :
    onRequestBodyRead R u r =
      { u with
        requestBodyDone := r.done
        written := u.written ++ (piece (R.chunked u.request.fields) r ++
          if r.done then ending (R.chunked u.request.fields) else [])
        requestUploadComplete := r.done || u.requestUploadComplete } := by
  obtain ⟨data, done, fits⟩ := r
  unfold onRequestBodyRead onRequestBodyWritten finishRequestBody piece ending
  cases hc : R.chunked u.request.fields <;> cases data <;> cases done <;> simp [hc]

/-- Every segmentation of the body completes the upload, and what it writes is the pieces and the
ending. -/
theorem run_segments (R : Rules) {body : Text} {reads : List Read} (h : Segments body reads)
    {u : Upload} (hu : u.requestUploadComplete = false) :
    ∃ u', Run.run (step R) u reads = some u' ∧ u'.requestUploadComplete = true ∧
      u'.written = u.written ++ (reads.flatMap (piece (R.chunked u.request.fields)) ++
        ending (R.chunked u.request.fields)) := by
  induction h generalizing u with
  | @last r hr =>
    refine ⟨onRequestBodyRead R u r, ?_, ?_, ?_⟩
    · simp [Run.run, step, hu]
    · simp [onRequestBodyRead_eq, hr]
    · simp [onRequestBodyRead_eq, hr]
  | @more r body reads hr _ ih =>
    have hstep : step R u r = some (onRequestBodyRead R u r) := by simp [step, hu]
    obtain ⟨u', hrun, hdone, hout⟩ := ih (u := onRequestBodyRead R u r)
      (by simp [onRequestBodyRead_eq, hr, hu])
    refine ⟨u', by simp [Run.run, hstep, hrun], hdone, ?_⟩
    rw [hout]
    simp [onRequestBodyRead_eq, hr, List.append_assoc]

theorem flatMap_piece_plain {body : Text} {reads : List Read} (h : Segments body reads) :
    reads.flatMap (piece false) = body := by
  have hp : ∀ r : Read, piece false r = r.data := by
    intro r
    unfold piece
    split <;> simp_all
  induction h with
  | last _ => simp [hp]
  | more _ _ ih => simp [hp, ih]

/-- The chunks of the relayed body are read back as the body. -/
theorem readBody_chunks {body : Text} {reads : List Read} (h : Segments body reads) :
    readBody (reads.flatMap (piece true) ++ ending true) .chunked = some (body, []) := by
  have hchunks : ∃ chunks : List Text, (∀ c ∈ chunks, c ≠ []) ∧ chunks.flatten = body ∧
      reads.flatMap (piece true) = chunks.flatMap writeChunk := by
    induction h with
    | @last r _ =>
      by_cases hd : r.data = []
      · exact ⟨[], by simp, by simp [hd], by simp [piece, hd]⟩
      · exact ⟨[r.data], by simpa using hd, by simp, by simp [piece, hd]⟩
    | @more r body reads _ _ ih =>
      obtain ⟨chunks, hne, hflat, hpieces⟩ := ih
      by_cases hd : r.data = []
      · exact ⟨chunks, hne, by simp [hd, hflat], by simp [piece, hd, hpieces]⟩
      · refine ⟨r.data :: chunks, ?_, by simp [hflat], by simp [piece, hd, hpieces]⟩
        intro c hc
        rcases List.mem_cons.mp hc with rfl | hc
        · exact hd
        · exact hne c hc
  obtain ⟨chunks, hne, rfl, hpieces⟩ := hchunks
  have hread := readBody_write_chunks hne []
  rw [List.append_nil] at hread
  simpa [ending, hpieces] using hread

theorem length_chunks {body : Text} {reads : List Read} (h : Segments body reads) :
    body.length + 5 ≤ (reads.flatMap (piece true) ++ ending true).length := by
  have := readChunks_length (readBody_chunks h)
  simpa using this

/-- The bytes of the whole request: the forwarded head and the relayed body. -/
def relayed (R : Rules) (t : Transaction) (f : Framing) (reads : List Read) : Text :=
  let chunked := !nominates t.request.fields transferEncoding && R.chunked t.request.fields
  if doneAtHead f then [] else reads.flatMap (piece chunked) ++ ending chunked

theorem forward_eq (R : Rules) {t : Transaction} (hw : t.websocket = false) {f : Framing}
    {body : Text} {reads : List Read} (hr : Delivered f body reads) :
    forward R t (doneAtHead f) reads =
      some (writeHead (prepareRequest R t) ++ relayed R t f reads) := by
  unfold Delivered at hr
  unfold forward onRequestHeaderWritten relayed
  split at hr
  · rename_i hd
    subst hr
    simp [hd, Run.run, writeRequestHeader]
  · rename_i hd
    obtain ⟨u', hrun, hdone, hout⟩ := run_segments R hr
      (u := writeRequestHeader (prepareRequest R t)) rfl
    have hc := chunked_prepareRequest R hw
    simp only [hd, Bool.false_eq_true, if_false, hrun, hdone, if_true, hout]
    simp [writeRequestHeader, hc]

/-- The backend finds the client's body behind the forwarded head, and nothing after it, exactly
when the framing survives. -/
theorem readBody_relayed (R : Rules) (t : Transaction) {f : Framing} {body : Text}
    {reads : List Read} (hb : Carries body f) (hr : Delivered f body reads) :
    readBody (relayed R t f reads) (keptFraming t.request.fields f) = some (body, []) ↔
      KeepsFraming R t body f := by
  cases f with
  | empty =>
    cases hb
    simp [relayed, doneAtHead, keptFraming, readBody, KeepsFraming]
  | length n =>
    cases hb
    by_cases hn : body = []
    · subst hn
      have h0 : relayed R t (.length 0) reads = [] := rfl
      simp only [List.length_nil, h0, keptFraming, KeepsFraming, true_or, iff_true]
      split <;> rfl
    · have hpos : body.length ≠ 0 := by simpa using hn
      have hseg : Segments body reads := by simpa [Delivered, doneAtHead, hn] using hr
      simp only [relayed, doneAtHead, beq_iff_eq, hpos, if_false, keptFraming, KeepsFraming,
        false_or]
      cases hc : nominates t.request.fields contentLength with
      | true =>
        -- the length is gone, and the body stands where the next request should begin
        simp only [if_true, readBody, Bool.true_eq_false, false_and, iff_false, Option.some.injEq,
          Prod.mk.injEq, not_and]
        intro h
        exact absurd h.symm hn
      | false =>
        simp only [Bool.false_eq_true, if_false, readBody, true_and]
        cases hk : (!nominates t.request.fields transferEncoding && R.chunked t.request.fields) with
        | true =>
          -- chunks under a length: the coding is longer than what it carries
          simp only [Bool.and_eq_true, Bool.not_eq_true'] at hk
          have hlen := length_chunks hseg
          simp only [hk.1, hk.2, Bool.false_eq_true, Bool.true_eq_false, or_self, iff_false]
          rw [if_pos (by omega)]
          intro h
          simp only [Option.some.injEq, Prod.mk.injEq, List.drop_eq_nil_iff] at h
          omega
        | false =>
          have hraw : reads.flatMap (piece false) ++ ending false = body := by
            simp [flatMap_piece_plain hseg, ending]
          rw [hraw, if_pos le_rfl]
          have hor : nominates t.request.fields transferEncoding = true ∨
              R.chunked t.request.fields = false := by
            cases hx : nominates t.request.fields transferEncoding <;> simp_all
          simp [hor]
  | chunked =>
    have hseg : Segments body reads := by simpa [Delivered, doneAtHead] using hr
    have hraw : reads.flatMap (piece false) ++ ending false = body := by
      simp [flatMap_piece_plain hseg, ending]
    simp only [relayed, doneAtHead, Bool.false_eq_true, if_false, keptFraming, KeepsFraming]
    cases ht : nominates t.request.fields transferEncoding with
    | true =>
      simp only [Bool.not_true, Bool.false_and, hraw, if_true, readBody, Option.some.injEq,
        Prod.mk.injEq]
      exact ⟨fun h => h.2, fun h => ⟨h.symm, h⟩⟩
    | false =>
      simp only [Bool.not_false, Bool.true_and, Bool.false_eq_true, if_false]
      cases hk : R.chunked t.request.fields with
      | true => simp [readBody_chunks hseg]
      | false =>
        -- a body that would be its own chunked coding
        simp only [hraw, Bool.false_eq_true, iff_false]
        intro h
        have := readChunks_length h
        simp only [List.length_nil] at this
        omega

theorem delivers_relayed (R : Rules) {t : Transaction} {f : Framing} {body : Text}
    {reads : List Read} (hw : t.websocket = false) (hf : R.framing t.request.fields = some f)
    (hb : Carries body f) (hr : Delivered f body reads) :
    Delivers R t body (writeHead (prepareRequest R t) ++ relayed R t f reads) ↔
      KeepsFraming R t body f ∧ KeepsHost t := by
  have hread := readRequest_write R (framing_prepareRequest R hw hf) (relayed R t f reads)
  have hhost := values_host_prepareRequest R hw
  have hkeep : (if t.backend.host.1 = [] ∧ nominates t.request.fields host = true then Value.empty
      else clientHost t) = clientHost t ↔ KeepsHost t := by
    unfold KeepsHost clientHost
    by_cases hb : t.backend.host.1 = []
    · cases hn : nominates t.request.fields host with
      | true => simp [hb, eq_comm]
      | false => simp [hb]
    · simp [hb]
  rw [Delivers, ← readBody_relayed R t hb hr, ← hkeep]
  simp only [hread, Option.map_eq_some_iff, Prod.exists, Prod.mk.injEq, Request.mk.injEq]
  constructor
  · rintro ⟨head, ⟨data, rest, hbody, ⟨rfl, rfl⟩, rfl⟩, hvalues⟩
    rw [hhost, List.cons.injEq] at hvalues
    exact ⟨hbody, hvalues.1⟩
  · rintro ⟨hbody, hvalue⟩
    exact ⟨prepareRequest R t, ⟨body, [], hbody, ⟨rfl, rfl⟩, rfl⟩, by rw [hhost, hvalue]⟩

/-- Every upload completes, and its bytes are the client's request, for the right host and with
nothing after it, exactly when the `Connection` fields of the client nominate neither that host nor
what delimits the body, and the message agrees with the parser about the chunked coding. -/
theorem delivers_iff (R : Rules) (t : Transaction) (f : Framing) (body : Text) (reads : List Read)
    (hw : t.websocket = false) (hf : R.framing t.request.fields = some f) (hb : Carries body f)
    (hr : Delivered f body reads) :
    ∃ out, forward R t (doneAtHead f) reads = some out ∧
      (Delivers R t body out ↔ KeepsFraming R t body f ∧ KeepsHost t) :=
  ⟨_, forward_eq R hw hr, delivers_relayed R hw hf hb hr⟩

def field (n v : String) (h : IsName (ascii n) ∧ IsValue (ascii v) := by decide) : HeaderField :=
  ⟨⟨ascii n, h.1⟩, ⟨ascii v, h.2⟩⟩

theorem exampleHost : IsName (ascii "Host") ∧ IsValue (ascii "example.com") := by decide

theorem fiveBytes : IsName (ascii "Content-Length") ∧ IsValue (ascii "5") := by decide

theorem isValue_one : IsValue (ascii "1") := by decide

/-- A `POST` with these fields, to a backend without a host of its own. -/
def postOf (fields : List HeaderField) : Transaction where
  request := ⟨⟨ascii "POST", by decide⟩, ⟨ascii "/submit", by decide⟩, .http11, fields⟩
  backend := ⟨Value.empty, true⟩
  settings := ⟨true⟩
  clientIp := ⟨ascii "203.0.113.10", by decide⟩
  scheme := ⟨ascii "http", by decide⟩
  requestId := ⟨ascii "1", by decide⟩
  websocket := false

def readOf (data : String) (done : Bool)
    (h : (ascii data).length ≤ httpTransferChunkSize := by decide) : Read :=
  ⟨ascii data, done, h⟩

/-- A chunked upload in three reads whose `Connection` field nominates a header of its own. -/
def chunkedPost : Transaction := postOf [field "Host" "example.com",
  field "Connection" "keep-alive, X-Client-Hop", field "X-Client-Hop" "1",
  field "transfer-encoding" "Chunked"]

theorem delivers_iff_chunkedPost : ∃ out,
    forward .standard chunkedPost false
      [readOf "pay" false, readOf "" false, readOf "load" true] = some out ∧
    Delivers .standard chunkedPost (ascii "payload") out := by
  obtain ⟨out, hout, h⟩ := delivers_iff .standard chunkedPost .chunked (ascii "payload")
    [readOf "pay" false, readOf "" false, readOf "load" true] rfl (by decide) trivial
    (.more (r := readOf "pay" false) rfl (.more (r := readOf "" false) rfl
      (.last (r := readOf "load" true) rfl)))
  exact ⟨out, hout, h.mpr ⟨by decide, .inr (.inl (by decide))⟩⟩

/-- The client nominates the field that delimits its body. -/
def nominatingPost : Transaction := postOf [field "Host" "example.com",
  field "Connection" "Content-Length", field "Content-Length" "5"]

/-- The body follows a head without a length: the backend reads a request without a body, and the
body as the beginning of another one. -/
theorem length_nominated : nominatingPost.websocket = false ∧
    Rules.standard.framing nominatingPost.request.fields = some (.length 5) ∧
    Carries (ascii "hello") (.length 5) ∧
    Delivered (.length 5) (ascii "hello") [readOf "hello" true] ∧
    ∃ out, forward .standard nominatingPost false [readOf "hello" true] = some out ∧
      ¬ Delivers .standard nominatingPost (ascii "hello") out := by
  have hf : Rules.standard.framing nominatingPost.request.fields = some (.length 5) := by decide
  have hb : Carries (ascii "hello") (.length 5) := by decide
  have hr : Delivered (.length 5) (ascii "hello") [readOf "hello" true] :=
    .last (r := readOf "hello" true) rfl
  refine ⟨rfl, hf, hb, hr, _, forward_eq .standard rfl hr, ?_⟩
  rw [delivers_relayed .standard rfl hf hb hr]
  exact fun h => absurd h.1 (by decide)

end Forward
end WebServer
