import WebServer.Config.Validation
import WebServer.Http.HeaderRead
import WebServer.Lib.Run
import WebServer.Lib.Utf8

/-!
# WebServer.Core.Registry

`ConnectionRegistry` and `HttpRequestRegistry`: the live connections and requests that the admin
interface shows. The sessions of both protocols write to them; the texts of a client are cut at a
number of bytes.

The tables are hash maps, and `Iteration` is the order in which a snapshot finds their entries.

* `step`: what the sessions do to the registries. Ids are arbitrary: an id that is gone is ignored.
* `Registries.WellFormed`: every text is UTF-8. `wellFormed_step`: a step keeps that, if the texts of
  the client are UTF-8 once they are cut.
-/

namespace WebServer
namespace Registry

open Http Network Routing Config

def bounded (value : Text) (maximum : Nat) : Text := value.take maximum

structure ConnectionInfo where
  id : Nat
  protocol : Text
  sourceAddress : Text
  connectedAtUnixMs : Int
  connectedSeconds : Nat := 0
  status : Text
  method : Text := []
  url : Text := []
  referer : Text := []

structure HttpRequestInfo where
  id : Nat
  siteId : Int := 0
  siteName : Text := []
  host : Text
  protocol : Text
  clientIp : Text
  connectedAtUnixMs : Int
  connectedSeconds : Nat := 0
  status : Text
  method : Text
  url : Text
  referer : Text

structure Stored (ι : Type) where
  info : ι
  /-- on the steady clock, in nanoseconds -/
  connectedAt : Int

structure Table (ι : Type) where
  entries : List (Nat × Stored ι) := []
  nextId : Nat := 1

/-- The order of a hash map. -/
structure Iteration where
  order : {α : Type} → List α → List α
  perm : ∀ {α : Type} (l : List α), (order l).Perm l

/-- The two clocks. -/
structure Now where
  system : Int
  steady : Int

/-! ## Tables -/

namespace Table

variable {ι : Type}

def add (t : Table ι) (now : Now) (info : Nat → ι) : Table ι :=
  ⟨t.entries ++ [(t.nextId, ⟨info t.nextId, now.steady⟩)], t.nextId + 1⟩

def update (t : Table ι) (id : Nat) (f : ι → ι) : Table ι :=
  { t with entries := t.entries.map fun e =>
      if e.1 = id then (e.1, { e.2 with info := f e.2.info }) else e }

def remove (t : Table ι) (id : Nat) : Table ι :=
  { t with entries := t.entries.filter fun e => e.1 != id }

def clear (t : Table ι) : Table ι := { t with entries := [] }

/-- `duration_cast<seconds>(now - connected_at)`, as an unsigned number. -/
def seconds (now : Int) (stored : Stored ι) : Nat :=
  ((now - stored.connectedAt).tdiv 1000000000 % 2 ^ 64).toNat

/-- The first `limit` entries that the loop lets through, sorted. -/
def snapshot (t : Table ι) (iteration : Iteration) (limit : Nat) (through : ι → Bool)
    (view : Stored ι → ι) (before : ι → ι → Bool) : List ι :=
  ((((iteration.order t.entries).filter fun e => through e.2.info).take limit).map
    fun e => view e.2).mergeSort before

end Table

/-- The default of both snapshots. -/
def snapshotLimit : Nat := 5000

def ConnectionInfo.before (a b : ConnectionInfo) : Bool :=
  a.connectedAtUnixMs < b.connectedAtUnixMs ||
    (a.connectedAtUnixMs == b.connectedAtUnixMs && a.id ≤ b.id)

def HttpRequestInfo.before (a b : HttpRequestInfo) : Bool :=
  a.connectedAtUnixMs < b.connectedAtUnixMs ||
    (a.connectedAtUnixMs == b.connectedAtUnixMs && a.id ≤ b.id)

namespace ConnectionRegistry

def add (t : Table ConnectionInfo) (now : Now) (protocol sourceAddress status : Text) :
    Table ConnectionInfo :=
  t.add now fun id =>
    { id := id
      protocol := bounded protocol 16
      sourceAddress := bounded sourceAddress 128
      connectedAtUnixMs := now.system
      status := bounded status 64 }

def updateRequest (t : Table ConnectionInfo) (id : Nat) (method url referer status : Text) :
    Table ConnectionInfo :=
  t.update id fun info =>
    { info with
      method := bounded method 32
      url := bounded url 8192
      referer := bounded referer 4096
      status := bounded status 64 }

def updateStatus (t : Table ConnectionInfo) (id : Nat) (status : Text) : Table ConnectionInfo :=
  t.update id fun info => { info with status := bounded status 64 }

def snapshot (t : Table ConnectionInfo) (iteration : Iteration) (now : Int) :
    List ConnectionInfo :=
  t.snapshot iteration snapshotLimit (fun _ => true)
    (fun stored => { stored.info with connectedSeconds := Table.seconds now stored })
    ConnectionInfo.before

def size (t : Table ConnectionInfo) : Nat := t.entries.length

end ConnectionRegistry

namespace HttpRequestRegistry

def add (t : Table HttpRequestInfo) (now : Now) (protocol clientIp method url referer host
    status : Text) : Table HttpRequestInfo :=
  t.add now fun id =>
    { id := id
      protocol := bounded protocol 16
      clientIp := bounded clientIp 128
      method := bounded method 32
      url := bounded url 8192
      referer := bounded referer 4096
      host := bounded host 512
      connectedAtUnixMs := now.system
      status := bounded status 64 }

def updateSite (t : Table HttpRequestInfo) (id : Nat) (siteId : Int) (siteName host status : Text) :
    Table HttpRequestInfo :=
  t.update id fun info =>
    { info with
      siteId := siteId
      siteName := bounded siteName 256
      host := bounded host 512
      status := bounded status 64 }

def updateStatus (t : Table HttpRequestInfo) (id : Nat) (status : Text) : Table HttpRequestInfo :=
  t.update id fun info => { info with status := bounded status 64 }

def ofSite (siteId : Option Int) (info : HttpRequestInfo) : Bool :=
  match siteId with
  | none => true
  | some id => info.siteId == id

def snapshot (t : Table HttpRequestInfo) (siteId : Option Int) (iteration : Iteration) (now : Int) :
    List HttpRequestInfo :=
  t.snapshot iteration snapshotLimit (ofSite siteId)
    (fun stored => { stored.info with connectedSeconds := Table.seconds now stored })
    HttpRequestInfo.before

def size (t : Table HttpRequestInfo) (siteId : Option Int) : Nat :=
  t.entries.countP fun e => ofSite siteId e.2.info

end HttpRequestRegistry

/-! ## Sessions -/

structure Registries where
  connections : Table ConnectionInfo := {}
  requests : Table HttpRequestInfo := {}

inductive Scheme where
  | http
  | https
  deriving DecidableEq

def Scheme.name : Scheme → Text
  | .http => ascii "HTTP"
  | .https => ascii "HTTPS"

def Scheme.connected : Scheme → Text
  | .http => ascii "Connected"
  | .https => ascii "TLS Handshake"

inductive Stage where
  | proxying
  | writingResponse
  | closing

def Stage.text : Stage → Text
  | .proxying => ascii "Proxying"
  | .writingResponse => ascii "Writing Response"
  | .closing => ascii "Closing"

def decimal (n : Nat) : Text := ascii (toString n)

/-- `source_address`: the peer of the socket, if it can be told. -/
def sourceAddress (lib : AddressText) : Option (Address × UInt16) → Text
  | none => ascii "unknown"
  | some (address, port) =>
    if address.isV4 then lib.toText address ++ 58 :: decimal port.toNat
    else 91 :: lib.toText address ++ 93 :: 58 :: decimal port.toNat

inductive Event where
  /-- the constructor of a session -/
  | connect (scheme : Scheme) (peer : Option (Address × UInt16)) (now : Now)
  /-- `read_request` -/
  | readRequest (connection request : Nat)
  /-- `on_header_read`, with the resolver of the snapshot it loads -/
  | headerRead (connection : Nat) (scheme : Scheme) (peer : Address) (resolver : ClientIpResolver)
      (head : Head) (now : Now)
  /-- `send_payload_too_large` -/
  | payloadTooLarge (connection : Nat) (head : Head)
  /-- the dispatcher has found the site -/
  | siteResolved (request : Nat) (site : SiteRecord) (authority : Text)
  | connectionStatus (connection : Nat) (stage : Stage)
  | requestStatus (request : Nat) (stage : Stage)
  /-- `clear_http_request` -/
  | clearRequest (request : Nat)
  | close (connection : Nat)
  /-- the server has stopped -/
  | clear

/-- A site of a snapshot has passed the validation, and its host is the normalized authority. -/
def step (lib : AddressText) (r : Registries) : Event → Option Registries
  | .connect scheme peer now => some { r with
      connections := ConnectionRegistry.add r.connections now scheme.name (sourceAddress lib peer)
        scheme.connected }
  | .readRequest connection request => some { r with
      requests := r.requests.remove request
      connections := ConnectionRegistry.updateRequest r.connections connection [] [] []
        (ascii "Waiting for Request") }
  | .headerRead connection scheme peer resolver head now =>
    let referer := (get head.fields (ascii "Referer")).1
    let host := (get head.fields (ascii "Host")).1
    let clientIp := Session.clientIp lib resolver peer head.fields
    some { r with
      connections := ConnectionRegistry.updateRequest r.connections connection head.method.1
        head.target.1 referer (ascii "Routing")
      requests := HttpRequestRegistry.add r.requests now scheme.name clientIp head.method.1
        head.target.1 referer host (ascii "Routing") }
  | .payloadTooLarge connection head =>
    let referer := (get head.fields (ascii "Referer")).1
    some { r with
      connections := ConnectionRegistry.updateRequest r.connections connection head.method.1
        head.target.1 referer (ascii "Payload Too Large") }
  | .siteResolved request site authority =>
    match checkSite site, normalizeAuthority authority with
    | .ok (), some host => some { r with
        requests := HttpRequestRegistry.updateSite r.requests request site.id (utf8 site.name) host
          (ascii "Policy Check") }
    | _, _ => none
  | .connectionStatus connection stage => some { r with
      connections := ConnectionRegistry.updateStatus r.connections connection stage.text }
  | .requestStatus request stage => some { r with
      requests := HttpRequestRegistry.updateStatus r.requests request stage.text }
  | .clearRequest request => some { r with requests := r.requests.remove request }
  | .close connection => some { r with connections := r.connections.remove connection }
  | .clear => some { r with connections := r.connections.clear, requests := r.requests.clear }

/-! ## Texts that are UTF-8 -/

structure ConnectionInfo.WellFormed (info : ConnectionInfo) : Prop where
  protocol : Utf8.Valid info.protocol
  sourceAddress : Utf8.Valid info.sourceAddress
  status : Utf8.Valid info.status
  method : Utf8.Valid info.method
  url : Utf8.Valid info.url
  referer : Utf8.Valid info.referer

structure HttpRequestInfo.WellFormed (info : HttpRequestInfo) : Prop where
  siteName : Utf8.Valid info.siteName
  host : Utf8.Valid info.host
  protocol : Utf8.Valid info.protocol
  clientIp : Utf8.Valid info.clientIp
  status : Utf8.Valid info.status
  method : Utf8.Valid info.method
  url : Utf8.Valid info.url
  referer : Utf8.Valid info.referer

structure Registries.WellFormed (r : Registries) : Prop where
  connections : ∀ e ∈ r.connections.entries, e.2.info.WellFormed
  requests : ∀ e ∈ r.requests.entries, e.2.info.WellFormed

/-- What a client sends is UTF-8 once it is cut. -/
structure HeadUtf8 (head : Head) : Prop where
  target : Utf8.Valid (bounded head.target.1 8192)
  referer : Utf8.Valid (bounded (get head.fields (ascii "Referer")).1 4096)
  host : Utf8.Valid (bounded (get head.fields (ascii "Host")).1 512)

def EventUtf8 : Event → Prop
  | .headerRead _ _ _ _ head _ => HeadUtf8 head
  | .payloadTooLarge _ head => Utf8.Valid (bounded head.target.1 8192) ∧
      Utf8.Valid (bounded (get head.fields (ascii "Referer")).1 4096)
  | _ => True

namespace Table

variable {ι : Type} {P : ι → Prop} {t : Table ι}

theorem forall_add (h : ∀ e ∈ t.entries, P e.2.info) (now : Now) {info : Nat → ι}
    (hinfo : P (info t.nextId)) : ∀ e ∈ (t.add now info).entries, P e.2.info := by
  intro e he
  rcases List.mem_append.mp he with he | he
  · exact h e he
  · rw [List.mem_singleton.mp he]
    exact hinfo

theorem forall_update (h : ∀ e ∈ t.entries, P e.2.info) (id : Nat) {f : ι → ι}
    (hf : ∀ info, P info → P (f info)) : ∀ e ∈ (t.update id f).entries, P e.2.info := by
  intro e he
  obtain ⟨e', he', rfl⟩ := List.mem_map.mp he
  split
  · exact hf _ (h e' he')
  · exact h e' he'

theorem forall_remove (h : ∀ e ∈ t.entries, P e.2.info) (id : Nat) :
    ∀ e ∈ (t.remove id).entries, P e.2.info :=
  fun e he => h e (List.mem_of_mem_filter he)

theorem snapshot_subperm (iteration : Iteration) (limit : Nat) (through : ι → Bool)
    (view : Stored ι → ι) (before : ι → ι → Bool) :
    (t.snapshot iteration limit through view before).Subperm
      ((t.entries.filter fun e => through e.2.info).map fun e => view e.2) := by
  have hperm := ((iteration.perm t.entries).filter fun e => through e.2.info).map fun e => view e.2
  refine (List.mergeSort_perm _ _).subperm.trans ?_
  exact ((List.take_sublist _ _).map _).subperm.trans hperm.subperm

theorem length_snapshot (iteration : Iteration) (limit : Nat) (through : ι → Bool)
    (view : Stored ι → ι) (before : ι → ι → Bool) :
    (t.snapshot iteration limit through view before).length =
      min limit (t.entries.filter fun e => through e.2.info).length := by
  rw [snapshot, List.length_mergeSort, List.length_map, List.length_take,
    ((iteration.perm t.entries).filter _).length_eq]

end Table

theorem ascii_bytes {s : String} (h : s.toList.all (fun c => c.toNat < 128) = true) :
    ∀ b ∈ ascii s, b < 128 := by
  intro b hb
  obtain ⟨c, hc, rfl⟩ := List.mem_map.mp hb
  have hc := List.all_eq_true.mp h c hc
  simp only [decide_eq_true_eq] at hc
  rw [UInt8.lt_iff_toNat_lt, UInt8.toNat_ofNat']
  exact Nat.lt_of_le_of_lt (Nat.mod_le _ _) hc

theorem valid_bounded {t : Text} (h : ∀ b ∈ t, b < 128) (maximum : Nat) :
    Utf8.Valid (bounded t maximum) :=
  Utf8.valid_of_ascii fun b hb => h b (List.mem_of_mem_take hb)

theorem name_bytes (n : Name) : ∀ b ∈ n.1, b < 128 := by
  intro b hb
  have hbyte := List.all_eq_true.mp n.2.2 b hb
  simp only [isNameByte, Bool.and_eq_true, decide_eq_true_eq] at hbyte
  exact UInt8.lt_of_le_of_lt hbyte.1.2 (by decide)

theorem hostByte_lt : ∀ n < 256, isHostByte (UInt8.ofNat n) = true → UInt8.ofNat n < 128 := by
  decide +kernel

theorem normalizeAuthority_bytes_lt {authority host : Text}
    (h : normalizeAuthority authority = some host) : ∀ b ∈ host, b < 128 := by
  intro b hb
  have hlt := hostByte_lt b.toNat b.toNat_lt
  rw [UInt8.ofNat_toNat] at hlt
  exact hlt (normalize_bytes h b hb)

theorem decimal_bytes (n : Nat) : ∀ b ∈ decimal n, b < 128 := by
  refine ascii_bytes (List.all_eq_true.mpr fun c hc => ?_)
  rw [show toString n = String.ofList (Nat.toDigits 10 n) from rfl, String.toList_ofList] at hc
  have hdigit : c.isDigit = true := Nat.isDigit_of_mem_toDigits (by decide) (by decide) hc
  simp only [Char.isDigit, Bool.and_eq_true, decide_eq_true_eq] at hdigit
  have hle : c.toNat ≤ 57 := hdigit.2
  exact decide_eq_true (by omega)

theorem scheme_bytes (scheme : Scheme) :
    (∀ b ∈ scheme.name, b < 128) ∧ ∀ b ∈ scheme.connected, b < 128 := by
  cases scheme with
  | http => exact ⟨ascii_bytes (by decide), ascii_bytes (by decide)⟩
  | https => exact ⟨ascii_bytes (by decide), ascii_bytes (by decide)⟩

theorem stage_bytes (stage : Stage) : ∀ b ∈ stage.text, b < 128 := by
  cases stage with
  | proxying => exact ascii_bytes (by decide)
  | writingResponse => exact ascii_bytes (by decide)
  | closing => exact ascii_bytes (by decide)

theorem valid_status {s : String} (h : s.toList.all (fun c => c.toNat < 128) = true) :
    Utf8.Valid (bounded (ascii s) 64) := valid_bounded (ascii_bytes h) 64

/-- A name of at most 128 bytes is not cut. -/
theorem valid_siteName {site : SiteRecord} (h : checkSite site = .ok ()) :
    Utf8.Valid (bounded (utf8 site.name) 256) := by
  have hlength : (utf8 site.name).length ≤ 256 := by
    unfold checkSite at h
    obtain ⟨hname, -⟩ := Result.guard_ok h
    have hsize : (utf8 site.name).length = site.name.utf8ByteSize := rfl
    omega
  have hvalid : Utf8.Valid (utf8 site.name) := by
    have h := site.name.isValidUTF8
    exact h
  rw [bounded, List.take_of_length_le hlength]
  exact hvalid

section Steps

variable {lib : AddressText} (hlib : ∀ a, ∀ b ∈ lib.toText a, b < 128)
include hlib

theorem clientIp_bytes (resolver : ClientIpResolver) (peer : Address) (fields : List HeaderField) :
    ∀ b ∈ Session.clientIp lib resolver peer fields, b < 128 := by
  suffices h : ∃ a, Session.clientIp lib resolver peer fields = lib.toText a by
    obtain ⟨a, ha⟩ := h
    rw [ha]
    exact hlib a
  unfold Session.clientIp resolve
  split
  · exact ⟨peer, rfl⟩
  · cases hfound : (Session.realIpHeaders resolver.headerPriority fields).findSome?
        fun h => headerIp lib resolver peer h.1 h.2 with
    | none => exact ⟨peer, rfl⟩
    | some ip =>
      obtain ⟨h, -, hip⟩ := List.exists_of_findSome?_eq_some hfound
      unfold headerIp at hip
      split at hip
      · cases hip
      · split at hip
        · simp only [ne_eq, ite_not] at hip
          split at hip
          · cases hip
          · exact ⟨_, (Option.some.inj hip).symm⟩
        · obtain ⟨a, -, ha⟩ := Option.map_eq_some_iff.mp hip
          exact ⟨a, ha.symm⟩

theorem sourceAddress_bytes (peer : Option (Address × UInt16)) :
    ∀ b ∈ sourceAddress lib peer, b < 128 := by
  intro b hb
  cases peer with
  | none => exact ascii_bytes (by decide) b hb
  | some peer =>
    have hport := decimal_bytes peer.2.toNat
    simp only [sourceAddress] at hb
    split at hb
    · simp only [List.mem_append, List.mem_cons] at hb
      rcases hb with hb | rfl | hb
      · exact hlib _ b hb
      · decide
      · exact hport b hb
    · simp only [List.cons_append, List.mem_append, List.mem_cons] at hb
      rcases hb with rfl | hb | rfl | rfl | hb
      · decide
      · exact hlib _ b hb
      · decide
      · decide
      · exact hport b hb

theorem wellFormed_step {r r' : Registries} {e : Event} (h : r.WellFormed) (he : EventUtf8 e)
    (hstep : step lib r e = some r') : r'.WellFormed := by
  cases e with
  | connect scheme peer now =>
    cases hstep
    refine ⟨Table.forall_add h.connections now ⟨?_, ?_, ?_, ?_, ?_, ?_⟩, h.requests⟩
    · exact valid_bounded (scheme_bytes scheme).1 16
    · exact valid_bounded (sourceAddress_bytes hlib peer) 128
    · exact valid_bounded (scheme_bytes scheme).2 64
    · exact Utf8.valid_nil
    · exact Utf8.valid_nil
    · exact Utf8.valid_nil
  | readRequest connection request =>
    cases hstep
    refine ⟨Table.forall_update h.connections connection fun info hinfo => ?_,
      Table.forall_remove h.requests request⟩
    exact ⟨hinfo.protocol, hinfo.sourceAddress, valid_status (by decide), Utf8.valid_nil,
      Utf8.valid_nil, Utf8.valid_nil⟩
  | headerRead connection scheme peer resolver head now =>
    cases hstep
    have hhead : HeadUtf8 head := he
    refine ⟨Table.forall_update h.connections connection fun info hinfo => ?_,
      Table.forall_add h.requests now ?_⟩
    · exact ⟨hinfo.protocol, hinfo.sourceAddress, valid_status (by decide),
        valid_bounded (name_bytes head.method) 32, hhead.target, hhead.referer⟩
    · exact ⟨Utf8.valid_nil, hhead.host, valid_bounded (scheme_bytes scheme).1 16,
        valid_bounded (clientIp_bytes hlib resolver peer head.fields) 128,
        valid_status (by decide), valid_bounded (name_bytes head.method) 32, hhead.target,
        hhead.referer⟩
  | payloadTooLarge connection head =>
    cases hstep
    refine ⟨Table.forall_update h.connections connection fun info hinfo => ?_, h.requests⟩
    exact ⟨hinfo.protocol, hinfo.sourceAddress, valid_status (by decide),
      valid_bounded (name_bytes head.method) 32, he.1, he.2⟩
  | siteResolved request site authority =>
    simp only [step] at hstep
    split at hstep
    · rename_i host hsite hhost
      cases hstep
      refine ⟨h.connections, Table.forall_update h.requests request fun info hinfo => ?_⟩
      exact ⟨valid_siteName hsite, valid_bounded (normalizeAuthority_bytes_lt hhost) 512,
        hinfo.protocol, hinfo.clientIp, valid_status (by decide), hinfo.method, hinfo.url,
        hinfo.referer⟩
    · cases hstep
  | connectionStatus connection stage =>
    cases hstep
    refine ⟨Table.forall_update h.connections connection fun info hinfo => ?_, h.requests⟩
    exact ⟨hinfo.protocol, hinfo.sourceAddress, valid_bounded (stage_bytes stage) 64, hinfo.method,
      hinfo.url, hinfo.referer⟩
  | requestStatus request stage =>
    cases hstep
    refine ⟨h.connections, Table.forall_update h.requests request fun info hinfo => ?_⟩
    exact ⟨hinfo.siteName, hinfo.host, hinfo.protocol, hinfo.clientIp,
      valid_bounded (stage_bytes stage) 64, hinfo.method, hinfo.url, hinfo.referer⟩
  | clearRequest request =>
    cases hstep
    exact ⟨h.connections, Table.forall_remove h.requests request⟩
  | close connection =>
    cases hstep
    exact ⟨Table.forall_remove h.connections connection, h.requests⟩
  | clear =>
    cases hstep
    exact ⟨by simp [Table.clear], by simp [Table.clear]⟩

end Steps

end Registry
end WebServer
