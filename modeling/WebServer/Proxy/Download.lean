import WebServer.Lib.Response
import WebServer.Proxy.Forward

/-!
# WebServer.Proxy.Download

The bytes that `ProxyTransactionImpl` sends to the client for one response: `on_response_header`
rewrites the fields of the backend's head and starts a serializer, and the loop of `read_body_chunk`,
`on_body_read` and `on_body_written` hands it the body, one read at a time.

The parser of the backend's response and the serializer of the client's share one message, and with
it the descriptor of the body. `Serializer` is what the library keeps between two writes.

* `handed_eq`: the buffers that the serializer is given are the reads, the empty ones too.
* `written_of_finished`: the bytes of a completed transfer.
* `selfDelimiting_iff`: when they are one response by the rules of the client.

The steps here are those of a transfer that no failed read or write cuts short; such a transfer ends
with the connection.
-/

namespace WebServer
namespace Download

open Http
open Forward (Read Segments stripHopHeaders connectionTokens nominates xRequestId field readOf fiveBytes
  isValue_one)

/-- `Rules`, and what `keep_alive` writes into a message of either version. -/
structure ResponseRules extends Rules where
  keepAliveFor : Version → List HeaderField → Bool → List HeaderField
  keepAliveFor_only : ∀ version fs keep (p : HeaderField → Bool),
    (∀ f, p f = true → f.named connection.1 = false) →
      (keepAliveFor version fs keep).filter p = fs.filter p

/-- In version 1.0 it is the wish to go on that is written. -/
def standardKeepAlive (version : Version) (fs : List HeaderField) (keep : Bool) :
    List HeaderField :=
  match version with
  | .http11 => Standard.keepAlive fs keep
  | .http10 =>
    if keep then set fs connection ⟨ascii "keep-alive", by decide⟩ else erase fs connection.1

def ResponseRules.standard : ResponseRules where
  toRules := Rules.standard
  keepAliveFor := standardKeepAlive
  keepAliveFor_only version fs keep p hp := by
    cases version with
    | http11 => exact Rules.standard.keepAlive_only fs keep p hp
    | http10 =>
      simp only [standardKeepAlive]
      split
      · exact filter_set (n := connection) hp fs _
      · exact filter_erase hp fs

/-- What the transaction knows when it has read a response head. -/
structure Exchange where
  headRequest : Bool
  clientVersion : Version
  clientKeepAlive : Bool
  requestId : Value
  requestUploadComplete : Bool
  response : ResponseHead

/-- `buffer_body::value_type`: the null pointer is `none`, the size is that of the data. -/
structure BufferBody where
  data : Option Text
  more : Bool
  deriving DecidableEq

/-- `toggle`: the current buffer has been taken. -/
structure Serializer where
  toggle : Bool
  done : Bool

inductive WriteResult where
  | ok
  | needBuffer

inductive Phase where
  | writingHeader
  | reading
  | writing (result : WriteResult)
  | finished

/-- `handed` are the buffers that the serializer was given, `written` the bytes to the client. -/
structure Transfer where
  response : ResponseHead
  parserDone : Bool
  body : BufferBody
  serializer : Serializer
  handed : List BufferBody
  written : Text
  keepAlive : Bool
  phase : Phase

/-- What `on_response_header` does with a head. -/
inductive HeaderOutcome where
  | fail
  | readAgain
  | badGateway
  | start (t : Transfer)

/-- The parser is done with the head already. -/
def doneAtHead : ResponseFraming → Bool
  | .bodiless => true
  | .length n => n == 0
  | .chunked => false
  | .untilClose => false

/-- How the parser finds the backend's body delimited. -/
def backendFraming (R : Rules) (x : Exchange) : Option ResponseFraming :=
  responseFraming R x.headRequest .http11 x.response

/-- A response that overtakes the upload ends the connection. -/
def Exchange.keepAlive (x : Exchange) : Bool := x.clientKeepAlive && x.requestUploadComplete

def sentHead (R : ResponseRules) (x : Exchange) : ResponseHead :=
  let fs := stripHopHeaders x.response.fields false true
  let fs := if x.requestId.1 ≠ [] then set fs xRequestId x.requestId else fs
  { x.response with
    version := x.clientVersion
    fields := R.keepAliveFor x.clientVersion fs x.keepAlive }

def begin (R : ResponseRules) (x : Exchange) (f : ResponseFraming) : Transfer where
  response := sentHead R x
  parserDone := doneAtHead f
  body := ⟨none, !doneAtHead f⟩
  serializer := ⟨false, false⟩
  handed := []
  written := writeResponseHead (sentHead R x)
  keepAlive := x.keepAlive
  phase := .writingHeader

def onResponseHeader (R : ResponseRules) (x : Exchange) : HeaderOutcome :=
  match backendFraming R.toRules x with
  | none => .fail
  | some f =>
    if 100 ≤ x.response.status ∧ x.response.status < 200 ∧ x.response.status ≠ 101 then .readAgain
    else if x.response.status = 101 then .badGateway
    else .start (begin R x f)

theorem onResponseHeader_start {R : ResponseRules} {x : Exchange} {f : ResponseFraming}
    {t : Transfer} (hf : backendFraming R.toRules x = some f)
    (h : onResponseHeader R x = .start t) : t = begin R x f := by
  simp only [onResponseHeader, hf] at h
  split at h
  · cases h
  · split at h <;> cases h
    rfl

section Loop

variable (R : ResponseRules)

/-- What the serializer makes of a buffer. -/
def encode (chunked : Bool) (data : Text) : Text := if chunked then writeChunk data else data

/-- What it writes at the end of the body. -/
def ending (chunked : Bool) : Text := if chunked then lastChunk else []

/-- `async_write_some`: the next part of the message, or the demand for another buffer. -/
def asyncWriteSome (t : Transfer) : Transfer :=
  let chunked := R.chunked t.response.fields
  if t.serializer.toggle then
    if t.body.more then
      { t with serializer := ⟨false, false⟩, phase := .writing .needBuffer }
    else
      { t with serializer := ⟨true, true⟩, written := t.written ++ ending chunked,
               phase := .writing .ok }
  else
    match t.body.data with
    | some data =>
      if t.body.more then
        { t with serializer := ⟨true, false⟩, written := t.written ++ encode chunked data,
                 phase := .writing .ok }
      else
        { t with serializer := ⟨true, true⟩,
                 written := t.written ++ (encode chunked data ++ ending chunked),
                 phase := .writing .ok }
    | none =>
      if t.body.more then { t with phase := .writing .needBuffer }
      else
        { t with serializer := ⟨false, true⟩, written := t.written ++ ending chunked,
                 phase := .writing .ok }

def finishNormal (t : Transfer) : Transfer := { t with phase := .finished }

def readBodyChunk (t : Transfer) : Transfer := { t with phase := .reading }

def onHeaderWritten (t : Transfer) : Transfer :=
  if t.parserDone then
    if t.serializer.done then finishNormal t else asyncWriteSome R t
  else readBodyChunk t

def onBodyRead (t : Transfer) (r : Read) : Transfer :=
  let body : BufferBody := ⟨some r.data, !r.done⟩
  asyncWriteSome R
    { t with parserDone := r.done, body := body, handed := t.handed ++ [body] }

def onBodyWritten (t : Transfer) : WriteResult → Transfer
  | .needBuffer => if t.parserDone && t.serializer.done then finishNormal t else readBodyChunk t
  | .ok => if t.serializer.done then finishNormal t else asyncWriteSome R t

/-- The completion of the operation that is under way. -/
inductive Event where
  | written
  | read (r : Read)

def step (t : Transfer) : Event → Option Transfer
  | .written =>
    match t.phase with
    | .writingHeader => some (onHeaderWritten R t)
    | .writing result => some (onBodyWritten R t result)
    | _ => none
  | .read r =>
    match t.phase with
    | .reading => some (onBodyRead R t r)
    | _ => none

end Loop

def reads : List Event → List Read
  | [] => []
  | .written :: es => reads es
  | .read r :: es => r :: reads es

/-- What the loop hands over for one read. -/
def handedOf (r : Read) : BufferBody := ⟨some r.data, !r.done⟩

/-! ## The loop -/

section Run

variable {R : ResponseRules} {t t' : Transfer}

theorem asyncWriteSome_frame (R : ResponseRules) (t : Transfer) :
    (asyncWriteSome R t).response = t.response ∧ (asyncWriteSome R t).keepAlive = t.keepAlive ∧
      (asyncWriteSome R t).handed = t.handed := by
  unfold asyncWriteSome
  split
  · split <;> exact ⟨rfl, rfl, rfl⟩
  · split <;> split <;> exact ⟨rfl, rfl, rfl⟩

/-- A step keeps the head and the wish to go on, and hands over what it has read. -/
theorem step_frame {e : Event} (h : step R t e = some t') :
    t'.response = t.response ∧ t'.keepAlive = t.keepAlive ∧
      t'.handed = t.handed ++ (reads [e]).map handedOf := by
  have hw := asyncWriteSome_frame R t
  cases e with
  | written =>
    simp only [reads, List.map_nil, List.append_nil]
    simp only [step] at h
    split at h
    · cases h
      unfold onHeaderWritten
      split
      · split
        · exact ⟨rfl, rfl, rfl⟩
        · exact hw
      · exact ⟨rfl, rfl, rfl⟩
    · rename_i result _
      cases h
      cases result with
      | ok =>
        simp only [onBodyWritten]
        split
        · exact ⟨rfl, rfl, rfl⟩
        · exact hw
      | needBuffer => simp only [onBodyWritten]; split <;> exact ⟨rfl, rfl, rfl⟩
    · cases h
  | read r =>
    simp only [step] at h
    split at h
    · cases h
      exact asyncWriteSome_frame R _
    · cases h

theorem reads_cons (e : Event) (es : List Event) : reads (e :: es) = reads [e] ++ reads es := by
  cases e <;> rfl

theorem run_frame {es : List Event} (h : Run.run (step R) t es = some t') :
    t'.response = t.response ∧ t'.keepAlive = t.keepAlive ∧
      t'.handed = t.handed ++ (reads es).map handedOf := by
  induction es generalizing t with
  | nil => cases h; simp [reads]
  | cons e es ih =>
    obtain ⟨t₁, hs, hr⟩ := Run.run_cons h
    obtain ⟨h₁, h₂, h₃⟩ := step_frame hs
    obtain ⟨h₄, h₅, h₆⟩ := ih hr
    refine ⟨h₄.trans h₁, h₅.trans h₂, ?_⟩
    rw [h₆, h₃, reads_cons e es, List.map_append, List.append_assoc]

/-- The buffers of a run are its reads. -/
theorem handed_eq {x : Exchange} {f : ResponseFraming} {es : List Event}
    (h : Run.run (step R) (begin R x f) es = some t) : t.handed = (reads es).map handedOf :=
  (run_frame h).2.2

/-- The head and the buffers so far, as the serializer writes them. -/
def relayed (R : ResponseRules) (t : Transfer) : Text :=
  writeResponseHead t.response ++
    t.handed.flatMap fun b => encode (R.chunked t.response.fields) (b.data.getD [])

/-- Nothing is outstanding: what was handed over has been written. -/
structure Idle (R : ResponseRules) (t : Transfer) : Prop where
  parserDone : t.parserDone = false
  serializer : t.serializer = ⟨false, false⟩
  written : t.written = relayed R t

/-- The current buffer has been written, and the body goes on. -/
structure Taken (R : ResponseRules) (t : Transfer) : Prop where
  parserDone : t.parserDone = false
  serializer : t.serializer = ⟨true, false⟩
  written : t.written = relayed R t

structure Complete (R : ResponseRules) (t : Transfer) : Prop where
  serializer : t.serializer.done = true
  written : t.written = relayed R t ++ ending (R.chunked t.response.fields)

structure Started (R : ResponseRules) (t : Transfer) : Prop where
  serializer : t.serializer = ⟨false, false⟩
  data : t.body.data = none
  written : t.written = relayed R t

def Inv (R : ResponseRules) (t : Transfer) : Prop :=
  t.body.more = !t.parserDone ∧
    match t.phase with
    | .writingHeader => Started R t
    | .reading => Idle R t
    | .writing .ok => Taken R t ∨ Complete R t
    | .writing .needBuffer => Idle R t
    | .finished => Complete R t

theorem begin_inv (R : ResponseRules) (x : Exchange) (f : ResponseFraming) :
    Inv R (begin R x f) :=
  ⟨rfl, rfl, rfl, by simp [begin, relayed]⟩

theorem onHeaderWritten_inv (hp : t.phase = .writingHeader) (h : Inv R t) :
    Inv R (onHeaderWritten R t) := by
  obtain ⟨hmore, h⟩ := h
  rw [hp] at h
  cases hd : t.parserDone with
  | true =>
    -- there is no body, and the write only ends the message
    rw [hd, Bool.not_true] at hmore
    simp only [onHeaderWritten, hd, h.serializer, asyncWriteSome, h.data, hmore, if_true,
      Bool.false_eq_true, if_false]
    exact ⟨by simp [hmore], .inr ⟨rfl, by simp [relayed, h.written]⟩⟩
  | false =>
    simp only [onHeaderWritten, hd, Bool.false_eq_true, if_false]
    exact ⟨hmore, hd, h.serializer, h.written⟩

theorem onBodyRead_inv (hp : t.phase = .reading) (h : Inv R t) (r : Read) :
    Inv R (onBodyRead R t r) := by
  obtain ⟨-, h⟩ := h
  rw [hp] at h
  cases hd : r.done with
  | true =>
    simp only [onBodyRead, asyncWriteSome, h.serializer, hd, Bool.false_eq_true, if_false,
      Bool.not_true]
    exact ⟨rfl, .inr ⟨rfl, by simp [relayed, h.written]⟩⟩
  | false =>
    simp only [onBodyRead, asyncWriteSome, h.serializer, hd, Bool.false_eq_true, if_false,
      Bool.not_false, if_true]
    exact ⟨rfl, .inl ⟨rfl, rfl, by simp [relayed, h.written]⟩⟩

theorem onBodyWritten_inv {result : WriteResult} (hp : t.phase = .writing result) (h : Inv R t) :
    Inv R (onBodyWritten R t result) := by
  obtain ⟨hmore, h⟩ := h
  rw [hp] at h
  cases result with
  | needBuffer =>
    simp only [onBodyWritten, h.parserDone, Bool.false_and, Bool.false_eq_true, if_false]
    exact ⟨hmore, h.parserDone, h.serializer, h.written⟩
  | ok =>
    rcases h with h | h
    · -- the buffer was taken: the second write asks for the next one
      rw [h.parserDone, Bool.not_false] at hmore
      simp only [onBodyWritten, asyncWriteSome, h.serializer, hmore, Bool.false_eq_true, if_false,
        if_true]
      exact ⟨by simp [h.parserDone, hmore], h.parserDone, rfl, h.written⟩
    · simp only [onBodyWritten, h.serializer, if_true]
      exact ⟨hmore, h.serializer, h.written⟩

theorem step_inv (t : Transfer) (e : Event) (t' : Transfer) (h : Inv R t)
    (hs : step R t e = some t') : Inv R t' := by
  cases e with
  | written =>
    simp only [step] at hs
    split at hs
    · rename_i hp; cases hs; exact onHeaderWritten_inv hp h
    · rename_i hp; cases hs; exact onBodyWritten_inv hp h
    · cases hs
  | read r =>
    simp only [step] at hs
    split at hs
    · rename_i hp; cases hs; exact onBodyRead_inv hp h r
    · cases hs

/-- The bytes of a completed transfer. -/
theorem written_of_finished {x : Exchange} {f : ResponseFraming} {es : List Event}
    (h : Run.run (step R) (begin R x f) es = some t) (hp : t.phase = .finished) :
    t.written = writeResponseHead (sentHead R x) ++
      ((reads es).flatMap (fun r => encode (R.chunked (sentHead R x).fields) r.data) ++
        ending (R.chunked (sentHead R x).fields)) := by
  have hinv := Run.run_inv step_inv (begin_inv R x f) h
  obtain ⟨hresponse, -, hhanded⟩ := run_frame h
  have hc := hinv.2
  rw [hp] at hc
  have hw := hc.written
  rw [relayed, hhanded, hresponse] at hw
  rw [hw]
  simp [begin, handedOf, List.flatMap_map]

/-- A read that is not the last is written and leads to the next. -/
theorem run_read_more (hp : t.phase = .reading) (h : Idle R t) {r : Read} (hr : r.done = false) :
    ∃ t', Run.run (step R) t [.read r, .written, .written] = some t' ∧ t'.phase = .reading := by
  simp [Run.run, step, hp, onBodyRead, asyncWriteSome, h.serializer, hr, onBodyWritten,
    readBodyChunk]

theorem run_read_last (hp : t.phase = .reading) (h : Idle R t) {r : Read} (hr : r.done = true) :
    ∃ t', Run.run (step R) t [.read r, .written] = some t' ∧ t'.phase = .finished := by
  simp [Run.run, step, hp, onBodyRead, asyncWriteSome, h.serializer, hr, onBodyWritten,
    finishNormal]

theorem exists_run_reading {body : Text} {rs : List Read} (hs : Segments body rs)
    (hp : t.phase = .reading) (h : Inv R t) :
    ∃ es t', Run.run (step R) t es = some t' ∧ t'.phase = .finished ∧ reads es = rs := by
  induction hs generalizing t with
  | @last r hr =>
    have hidle := h.2
    rw [hp] at hidle
    obtain ⟨t', hrun, hp'⟩ := run_read_last hp hidle hr
    exact ⟨_, t', hrun, hp', rfl⟩
  | @more r body rs hr _ ih =>
    have hidle := h.2
    rw [hp] at hidle
    obtain ⟨t₁, hrun, hp₁⟩ := run_read_more hp hidle hr
    obtain ⟨es, t', hrun', hp', hes⟩ := ih hp₁ (Run.run_inv step_inv h hrun)
    refine ⟨[.read r, .written, .written] ++ es, t', Run.run_append.mpr ⟨t₁, hrun, hrun'⟩, hp', ?_⟩
    simp [reads, hes]

end Run

/-- The body can follow a head with this framing. -/
def Carries (body : Text) : ResponseFraming → Prop
  | .bodiless => body = []
  | .length n => body.length = n
  | .chunked => True
  | .untilClose => True

/-- How the body of a response with this framing is delivered. -/
def Delivered (f : ResponseFraming) (body : Text) (rs : List Read) : Prop :=
  if doneAtHead f then rs = [] else Segments body rs

/-- Whatever the segmentation, the transfer can be completed. -/
theorem exists_run (R : ResponseRules) (x : Exchange) {f : ResponseFraming} {body : Text}
    {rs : List Read} (hr : Delivered f body rs) :
    ∃ es t, Run.run (step R) (begin R x f) es = some t ∧ t.phase = .finished ∧ reads es = rs := by
  unfold Delivered at hr
  split at hr
  · rename_i hd
    subst hr
    refine ⟨[.written, .written], finishNormal (asyncWriteSome R (begin R x f)), ?_, rfl, rfl⟩
    simp [Run.run, step, begin, onHeaderWritten, hd, asyncWriteSome, onBodyWritten]
  · rename_i hd
    have hfirst : step R (begin R x f) .written = some (readBodyChunk (begin R x f)) := by
      simp [step, begin, onHeaderWritten, hd]
    have hinv := step_inv _ _ _ (begin_inv R x f) hfirst
    obtain ⟨es, t, hrun, hp, hes⟩ := exists_run_reading hr rfl hinv
    exact ⟨.written :: es, t, by simp [Run.run, hfirst, hrun], hp, hes⟩

/-! ## The buffers -/

/-- A buffer that the chunked coding would write as the end of the body. -/
def BufferBody.Premature (b : BufferBody) : Prop := b.data = some [] ∧ b.more = true

theorem segments_flatten {body : Text} {rs : List Read} (h : Segments body rs) :
    (rs.map Read.data).flatten = body := by
  induction h with
  | last _ => simp
  | more _ _ ih => simp [ih]

theorem delivered_flatten {f : ResponseFraming} {body : Text} {rs : List Read}
    (hb : Carries body f) (hr : Delivered f body rs) : (rs.map Read.data).flatten = body := by
  unfold Delivered at hr
  split at hr
  · rename_i hd
    subst hr
    cases f with
    | bodiless => exact hb.symm
    | length n =>
      simp only [doneAtHead, beq_iff_eq] at hd
      exact (List.length_eq_zero_iff.mp (hb.trans hd)).symm
    | chunked => cases hd
    | untilClose => cases hd
  · exact segments_flatten hr

theorem premature_handedOf (r : Read) :
    (handedOf r).Premature ↔ r.data = [] ∧ r.done = false := by
  simp [BufferBody.Premature, handedOf]

theorem handed_run_iff {R : ResponseRules} {x : Exchange} {f : ResponseFraming} {es : List Event}
    {t : Transfer} (hrun : Run.run (step R) (begin R x f) es = some t) :
    (∀ b ∈ t.handed, ¬ b.Premature) ↔ ∀ r ∈ reads es, r.done = false → r.data ≠ [] := by
  rw [handed_eq hrun]
  simp only [List.mem_map, forall_exists_index, and_imp, forall_apply_eq_imp_iff₂,
    premature_handedOf, not_and]
  exact forall₂_congr fun r _ => ⟨fun h hd hdata => h hdata hd, fun h hdata hd => h hd hdata⟩

/-- No buffer of a run is premature exactly when every read but the last produces something. The
buffers of a completed transfer are the body, and every delivery can be completed. -/
theorem handed_iff (R : ResponseRules) (x : Exchange) (f : ResponseFraming) (t₀ : Transfer)
    (body : Text) (rs : List Read) (hf : backendFraming R.toRules x = some f)
    (hstart : onResponseHeader R x = .start t₀) (hb : Carries body f) (hr : Delivered f body rs) :
    (∃ es t, Run.run (step R) t₀ es = some t ∧ t.phase = .finished ∧ reads es = rs) ∧
    ∀ es t, Run.run (step R) t₀ es = some t →
      ((∀ b ∈ t.handed, ¬ b.Premature) ↔ ∀ r ∈ reads es, r.done = false → r.data ≠ []) ∧
      (t.phase = .finished → reads es = rs →
        (t.handed.map fun b => b.data.getD []).flatten = body) := by
  rw [onResponseHeader_start hf hstart]
  refine ⟨exists_run R x hr, ?_⟩
  intro es t hrun
  refine ⟨handed_run_iff hrun, ?_⟩
  intro _ hes
  rw [handed_eq hrun, hes, List.map_map, ← delivered_flatten hb hr]
  rfl

/-- A `GET` with this response head, on a connection that is to be kept. -/
def getOf (client : Version) (status : Nat) (fields : List HeaderField)
    (h : status < 1000 := by decide) : Exchange where
  headRequest := false
  clientVersion := client
  clientKeepAlive := true
  requestId := ⟨ascii "1", isValue_one⟩
  requestUploadComplete := true
  response := ⟨.http11, status, ascii "OK", fields, h, by decide⟩

def chunkedGet : Exchange := getOf .http11 200 [field "Transfer-Encoding" "chunked"]

/-- A body in two reads with something in each, and a last one that only ends it. -/
theorem handed_iff_chunkedGet : ∃ es t,
    Run.run (step .standard) (begin .standard chunkedGet .chunked) es = some t ∧
    (t.handed.map fun b => b.data.getD []).flatten = ascii "payload" ∧
    ∀ b ∈ t.handed, ¬ b.Premature := by
  have hr : Delivered .chunked (ascii "payload")
      [readOf "pay" false, readOf "load" false, readOf "" true] :=
    .more (r := readOf "pay" false) rfl (.more (r := readOf "load" false) rfl
      (.last (r := readOf "" true) rfl))
  obtain ⟨⟨es, t, hrun, hp, hes⟩, hall⟩ := handed_iff .standard chunkedGet .chunked
    (begin .standard chunkedGet .chunked) (ascii "payload")
    [readOf "pay" false, readOf "load" false, readOf "" true] (by decide) rfl trivial hr
  obtain ⟨hiff, hflat⟩ := hall es t hrun
  refine ⟨es, t, hrun, hflat hp hes, hiff.mpr ?_⟩
  rw [hes]
  decide

/-- The first read finds only the size of a chunk, and the serializer is given nothing to write
while the body goes on. -/
theorem handed_premature :
    backendFraming Rules.standard chunkedGet = some .chunked ∧
    onResponseHeader .standard chunkedGet = .start (begin .standard chunkedGet .chunked) ∧
    Delivered .chunked (ascii "hello") [readOf "" false, readOf "hello" true] ∧
    ∃ es t, Run.run (step .standard) (begin .standard chunkedGet .chunked) es = some t ∧
      reads es = [readOf "" false, readOf "hello" true] ∧ ∃ b ∈ t.handed, b.Premature := by
  have hr : Delivered .chunked (ascii "hello") [readOf "" false, readOf "hello" true] :=
    .more (r := readOf "" false) rfl (.last (r := readOf "hello" true) rfl)
  refine ⟨by decide, rfl, hr, ?_⟩
  obtain ⟨es, t, hrun, -, hes⟩ := exists_run .standard chunkedGet hr
  refine ⟨es, t, hrun, hes, ?_⟩
  by_contra hnone
  push Not at hnone
  have := (handed_run_iff hrun).mp hnone
  rw [hes] at this
  exact this (readOf "" false) (by simp) rfl rfl

/-! ## The head that is sent -/

section Sent

variable (R : ResponseRules) (x : Exchange)

theorem filter_sentHead {p : HeaderField → Bool}
    (hp : ∀ f, p f = true → ∀ n ∈ Forward.rewritten, f.named n = false) :
    (sentHead R x).fields.filter p =
      ((connectionTokens x.response.fields).foldl erase x.response.fields).filter p := by
  have hhop : ∀ f, p f = true → ∀ n ∈ Forward.hopHeaders, f.named n = false :=
    fun f hf n hn => hp f hf n (List.mem_append_right _ (List.mem_append_left _ hn))
  have hid : ∀ gs, (if x.requestId.1 ≠ [] then set gs xRequestId x.requestId else gs).filter p =
      gs.filter p := by
    intro gs
    split
    · exact filter_set (fun f hf => hp f hf xRequestId.1 (by decide)) gs _
    · rfl
  simp only [sentHead]
  rw [R.keepAliveFor_only _ _ _ _ fun f hf => hp f hf _ (by decide), hid,
    Forward.stripHopHeaders_eq, filter_erase_all hhop]

theorem framing_sentHead {f : Framing} (hf : R.framing x.response.fields = some f) :
    R.framing (sentHead R x).fields = some (Forward.keptFraming x.response.fields f) := by
  rw [framing_congr R.toRules (filter_sentHead R x Forward.framing_not_rewritten),
    Forward.framing_nominates R.toRules hf]

/-- The message that is sent says of itself that it is chunked. -/
def coded (R : Rules) (x : Exchange) : Bool :=
  !nominates x.response.fields transferEncoding && R.chunked x.response.fields

theorem chunked_sentHead : R.chunked (sentHead R x).fields = coded R.toRules x := by
  have hp : ∀ f : HeaderField, f.named transferEncoding.1 = true → ∀ n ∈ Forward.rewritten,
      f.named n = false :=
    fun f hf => Forward.framing_not_rewritten f (by simp [HeaderField.isFraming, hf])
  rw [← R.chunked_only, filter_sentHead R x hp, R.chunked_only, Forward.chunked_nominates]
  rfl

/-- How the client finds the body delimited. -/
def clientFraming (x : Exchange) : ResponseFraming → ResponseFraming
  | .bodiless => .bodiless
  | .length n => if nominates x.response.fields contentLength then .untilClose else .length n
  | .chunked =>
    if nominates x.response.fields transferEncoding = true ∨ x.clientVersion = .http10 then
      .untilClose
    else .chunked
  | .untilClose => .untilClose

theorem framing_knownFields {f : Framing} (hf : R.framing x.response.fields = some f) :
    (R.framing (knownFields x.clientVersion (sentHead R x).fields)).map .ofFraming =
      some (clientFraming x (.ofFraming f)) := by
  have hsent := framing_sentHead R x hf
  cases hv : x.clientVersion with
  | http11 =>
    rw [knownFields, hsent]
    cases f with
    | empty => rfl
    | length n =>
      simp only [Forward.keptFraming, ResponseFraming.ofFraming, clientFraming]
      cases nominates x.response.fields contentLength <;> rfl
    | chunked =>
      simp only [Forward.keptFraming, ResponseFraming.ofFraming, clientFraming, hv, reduceCtorEq,
        or_false]
      cases nominates x.response.fields transferEncoding <;> rfl
  | http10 =>
    -- without its coding the response is delimited by a length or not at all
    rw [knownFields]
    cases f with
    | empty =>
      rw [R.erase_coding _ _ hsent (by simp [Forward.keptFraming])]
      rfl
    | length n =>
      rw [R.erase_coding _ _ hsent (by simp only [Forward.keptFraming]; split <;> simp)]
      simp only [Forward.keptFraming, ResponseFraming.ofFraming, clientFraming]
      cases nominates x.response.fields contentLength <;> rfl
    | chunked =>
      have hempty : R.framing (erase (sentHead R x).fields transferEncoding.1) = some .empty := by
        cases ht : nominates x.response.fields transferEncoding with
        | false => exact framing_erase_chunked R.toRules (by simpa [Forward.keptFraming, ht] using hsent)
        | true =>
          have : R.framing (sentHead R x).fields = some .empty := by
            simpa [Forward.keptFraming, ht] using hsent
          exact R.erase_coding _ _ this (by simp)
      rw [hempty]
      simp [ResponseFraming.ofFraming, clientFraming, hv]

theorem responseFraming_sentHead {f : ResponseFraming} (hf : backendFraming R.toRules x = some f) :
    responseFraming R.toRules x.headRequest x.clientVersion (sentHead R x) =
      some (clientFraming x f) := by
  unfold backendFraming responseFraming at hf
  unfold responseFraming
  have hstatus : (sentHead R x).status = x.response.status := rfl
  rw [hstatus]
  cases hb : bodiless x.headRequest x.response.status with
  | true =>
    rw [hb, if_pos rfl] at hf
    cases hf
    rfl
  | false =>
    simp only [hb, Bool.false_eq_true, if_false, knownFields, Option.map_eq_some_iff] at hf
    obtain ⟨g, hg, rfl⟩ := hf
    simpa using framing_knownFields R x hg

end Sent

/-! ## What the client reads -/

/-- The transfer keeps the connection only after exactly one response by the rules of the client,
sends nothing after the head of a response to `HEAD`, and no chunks to a client of version 1.0. -/
def SelfDelimiting (R : ResponseRules) (x : Exchange) (t : Transfer) : Prop :=
  (t.keepAlive = true → ∃ response,
    readResponse R.toRules x.headRequest x.clientVersion t.written = some (response, [])) ∧
  (x.headRequest = true → t.written = writeResponseHead t.response) ∧
  (x.clientVersion = .http10 → R.chunked t.response.fields = false)

/-- The body is delimited for the client as it was for the parser. A message that the parser took to
be chunked but that does not say so itself is relayed without its chunks; it is delimited only if
the body is by chance chunked once more. -/
def Delimited (R : Rules) (x : Exchange) (body : Text) (rs : List Read) : ResponseFraming → Prop
  | .bodiless => coded R x = false
  | .length _ => nominates x.response.fields contentLength = false ∧ coded R x = false
  | .chunked => x.clientVersion = .http11 ∧
      nominates x.response.fields transferEncoding = false ∧
      if coded R x then ∀ r ∈ rs, r.data ≠ [] else ∃ inner, readBody body .chunked = some (inner, [])
  | .untilClose => False

/-- What follows the head. -/
def payload (chunked : Bool) (rs : List Read) : Text :=
  rs.flatMap (fun r => encode chunked r.data) ++ ending chunked

theorem payload_plain (rs : List Read) : payload false rs = (rs.map Read.data).flatten := by
  simp [payload, encode, ending, List.flatMap_def]

theorem payload_chunked (rs : List Read) :
    payload true rs = (rs.map Read.data).flatMap writeChunk ++ lastChunk := by
  simp [payload, encode, ending, List.flatMap_map]

theorem length_flatten_le_chunks (chunks : List Text) :
    chunks.flatten.length ≤ (chunks.flatMap writeChunk).length := by
  induction chunks with
  | nil => simp
  | cons c chunks ih =>
    simp only [List.flatten_cons, List.flatMap_cons, List.length_append, writeChunk]
    omega

theorem lastChunk_ne_nil : lastChunk ≠ [] := by simp [lastChunk, crlf]

theorem length_payload_chunked (rs : List Read) :
    (rs.map Read.data).flatten.length < (payload true rs).length := by
  rw [payload_chunked, List.length_append]
  have := length_flatten_le_chunks (rs.map Read.data)
  have := List.length_pos_iff.mpr lastChunk_ne_nil
  omega

/-- The client stops at the first empty chunk, which is the last one only if no read was empty. -/
theorem readBody_payload_chunked (rs : List Read) :
    (∃ body, readBody (payload true rs) .chunked = some (body, [])) ↔ ∀ r ∈ rs, r.data ≠ [] := by
  rw [payload_chunked]
  by_cases h : ∀ r ∈ rs, r.data ≠ []
  · have hdata : ∀ c ∈ rs.map Read.data, c ≠ [] := by simpa using h
    have hread := readBody_write_chunks hdata []
    rw [List.append_nil] at hread
    exact ⟨fun _ => h, fun _ => ⟨_, hread⟩⟩
  · refine iff_of_false ?_ h
    push Not at h
    obtain ⟨r, hr, hempty⟩ := h
    have hsome : (rs.find? fun r => r.data = []).isSome := by
      simpa using ⟨r, hr, hempty⟩
    obtain ⟨z, hfind⟩ := Option.isSome_iff_exists.mp hsome
    obtain ⟨hz, before, after, rfl, hbefore⟩ := List.find?_eq_some_iff_append.mp hfind
    rw [decide_eq_true_eq] at hz
    have hsplit : ((before ++ z :: after).map Read.data).flatMap writeChunk ++ lastChunk =
        (before.map Read.data).flatMap writeChunk ++
          (lastChunk ++ ((after.map Read.data).flatMap writeChunk ++ lastChunk)) := by
      simp [hz, writeChunk, lastChunk, List.append_assoc]
    rw [hsplit, readBody_write_chunks (by simpa using hbefore)]
    rintro ⟨body, hbody⟩
    simp only [Option.some.injEq, Prod.mk.injEq, List.append_eq_nil_iff] at hbody
    exact lastChunk_ne_nil hbody.2.2

theorem exists_readResponse_iff (R : ResponseRules) (x : Exchange) {f : ResponseFraming}
    (hf : backendFraming R.toRules x = some f) (out : Text) :
    (∃ response, readResponse R.toRules x.headRequest x.clientVersion
      (writeResponseHead (sentHead R x) ++ out) = some (response, [])) ↔
    ∃ body, readResponseBody out (clientFraming x f) = some (body, []) := by
  rw [readResponse_write R.toRules (responseFraming_sentHead R x hf)]
  simp only [Option.map_eq_some_iff, Prod.exists, Prod.mk.injEq]
  constructor
  · rintro ⟨response, body, rest, h, -, rfl⟩
    exact ⟨body, h⟩
  · rintro ⟨body, h⟩
    exact ⟨⟨sentHead R x, body⟩, body, [], h, rfl, rfl⟩

theorem payload_eq_nil (chunked : Bool) {f : ResponseFraming} {body : Text} {rs : List Read}
    (hd : doneAtHead f = true) (hr : Delivered f body rs) :
    payload chunked rs = [] ↔ chunked = false := by
  simp only [Delivered, hd, if_true] at hr
  subst hr
  cases chunked with
  | false => simp [payload, ending]
  | true => simp [payload, ending, lastChunk_ne_nil]

/-- The client finds the end of the body exactly when it is delimited as for the parser. -/
theorem delimited_iff (R : ResponseRules) (x : Exchange) {f : ResponseFraming} {body : Text}
    {rs : List Read} (hb : Carries body f) (hr : Delivered f body rs) :
    (∃ data, readResponseBody (payload (coded R.toRules x) rs) (clientFraming x f) =
      some (data, [])) ↔ Delimited R.toRules x body rs f := by
  have hflat := delivered_flatten hb hr
  cases f with
  | bodiless =>
    simp only [clientFraming, readResponseBody, Option.some.injEq, Prod.mk.injEq, exists_eq_left',
      Delimited]
    exact payload_eq_nil _ rfl hr
  | untilClose => simp [clientFraming, readResponseBody, Delimited]
  | length n =>
    cases hb
    simp only [clientFraming, Delimited]
    cases hc : nominates x.response.fields contentLength with
    | true => simp [readResponseBody]
    | false =>
      simp only [Bool.false_eq_true, if_false, readResponseBody, readBody, true_and]
      cases hk : coded R.toRules x with
      | true =>
        -- chunks under a length: the coding is longer than what it carries
        have hlen := length_payload_chunked rs
        rw [hflat] at hlen
        rw [if_pos (by omega)]
        simp only [Option.some.injEq, Prod.mk.injEq, exists_eq_left', List.drop_eq_nil_iff,
          Bool.true_eq_false, iff_false]
        omega
      | false =>
        rw [payload_plain, hflat, if_pos le_rfl]
        simp
  | chunked =>
    simp only [clientFraming, Delimited]
    cases hv : x.clientVersion with
    | http10 => simp [readResponseBody]
    | http11 =>
      cases ht : nominates x.response.fields transferEncoding with
      | true => simp [readResponseBody]
      | false =>
        simp only [Bool.false_eq_true, reduceCtorEq, or_self, if_false, readResponseBody, true_and]
        cases hk : coded R.toRules x with
        | true => simpa using readBody_payload_chunked rs
        | false => simp [payload_plain, hflat]

theorem selfDelimiting_run_iff {R : ResponseRules} {x : Exchange} {f : ResponseFraming} {body : Text}
    {rs : List Read} (hf : backendFraming R.toRules x = some f) (hb : Carries body f)
    (hr : Delivered f body rs) {es : List Event} {t : Transfer}
    (hrun : Run.run (step R) (begin R x f) es = some t) (hp : t.phase = .finished)
    (hes : reads es = rs) :
    SelfDelimiting R x t ↔
      (x.keepAlive = true → Delimited R.toRules x body rs f) ∧
      (x.headRequest = true ∨ x.clientVersion = .http10 → coded R.toRules x = false) := by
  obtain ⟨hresponse, hkeep, -⟩ := run_frame hrun
  have hwritten := written_of_finished hrun hp
  rw [hes, chunked_sentHead] at hwritten
  change t.written = writeResponseHead (sentHead R x) ++ payload (coded R.toRules x) rs at hwritten
  have hhead : x.headRequest = true →
      (t.written = writeResponseHead t.response ↔ coded R.toRules x = false) := by
    intro hh
    have hbodiless : f = .bodiless := by
      simp only [backendFraming, responseFraming, bodiless, hh, Bool.true_or, if_true,
        Option.some.injEq] at hf
      exact hf.symm
    subst hbodiless
    rw [hwritten, hresponse, ← payload_eq_nil (coded R.toRules x) (f := .bodiless) rfl hr]
    exact List.append_right_eq_self
  have hcoded : R.chunked t.response.fields = coded R.toRules x := by
    rw [hresponse]
    exact chunked_sentHead R x
  rw [SelfDelimiting, hkeep, hcoded, or_imp]
  refine and_congr (imp_congr Iff.rfl ?_) (and_congr (forall_congr' hhead) Iff.rfl)
  rw [hwritten, exists_readResponse_iff R x hf, delimited_iff R x hb hr]

/-- A completed transfer is one response for the client, or ends with the connection, exactly when
the body is delimited for the client as it was for the parser. -/
theorem selfDelimiting_iff (R : ResponseRules) (x : Exchange) (f : ResponseFraming) (t₀ : Transfer)
    (body : Text) (rs : List Read) (hf : backendFraming R.toRules x = some f)
    (hstart : onResponseHeader R x = .start t₀) (hb : Carries body f) (hr : Delivered f body rs) :
    (∃ es t, Run.run (step R) t₀ es = some t ∧ t.phase = .finished ∧ reads es = rs) ∧
    ∀ es t, Run.run (step R) t₀ es = some t → t.phase = .finished → reads es = rs →
      (SelfDelimiting R x t ↔
        (x.keepAlive = true → Delimited R.toRules x body rs f) ∧
        (x.headRequest = true ∨ x.clientVersion = .http10 → coded R.toRules x = false)) := by
  rw [onResponseHeader_start hf hstart]
  exact ⟨exists_run R x hr, fun es t hrun hp hes => selfDelimiting_run_iff hf hb hr hrun hp hes⟩

def lengthGet : Exchange := getOf .http10 200 [field "Content-Length" "5" fiveBytes, field "Connection" "close"]

/-- A client of version 1.0 that asked to keep the connection gets five bytes after the head. -/
theorem selfDelimiting_iff_lengthGet : ∃ es t,
    Run.run (step .standard) (begin .standard lengthGet (.length 5)) es = some t ∧
    t.phase = .finished ∧ SelfDelimiting .standard lengthGet t := by
  obtain ⟨⟨es, t, hrun, hp, hes⟩, hall⟩ := selfDelimiting_iff .standard lengthGet (.length 5)
    (begin .standard lengthGet (.length 5)) (ascii "hello") [readOf "he" false, readOf "llo" true]
    (by decide) rfl rfl
    (.more (r := readOf "he" false) rfl (.last (r := readOf "llo" true) rfl))
  exact ⟨es, t, hrun, hp, (hall es t hrun hp hes).mpr ⟨fun _ => ⟨by decide, by decide⟩,
    fun _ => by decide⟩⟩

/-- A response with neither a length nor the chunked coding. -/
def closingGet : Exchange := getOf .http11 200 [field "Connection" "close"]

/-- The body has no end for the client, and the connection is kept. -/
theorem kept_until_close :
    backendFraming Rules.standard closingGet = some .untilClose ∧
    onResponseHeader .standard closingGet = .start (begin .standard closingGet .untilClose) ∧
    Delivered .untilClose (ascii "hello") [readOf "hello" true] ∧
    ∃ es t, Run.run (step .standard) (begin .standard closingGet .untilClose) es = some t ∧
      t.phase = .finished ∧ reads es = [readOf "hello" true] ∧ t.keepAlive = true ∧
      ¬ SelfDelimiting .standard closingGet t := by
  have hf : backendFraming Rules.standard closingGet = some .untilClose := by decide
  have hr : Delivered .untilClose (ascii "hello") [readOf "hello" true] :=
    .last (r := readOf "hello" true) rfl
  refine ⟨hf, rfl, hr, ?_⟩
  obtain ⟨es, t, hrun, hp, hes⟩ := exists_run .standard closingGet hr
  refine ⟨es, t, hrun, hp, hes, (run_frame hrun).2.1, ?_⟩
  have hb : Carries (ascii "hello") .untilClose := trivial
  rw [selfDelimiting_run_iff hf hb hr hrun hp hes]
  exact fun h => h.1 rfl

end Download
end WebServer
