import WebServer.Admin.Guard
import WebServer.Config.Atomic
import WebServer.Lib.JsonText

/-!
# WebServer.Admin.Connections

`GET /api/connections` and `GET /api/http-connections`: what they show of the live connections.

The response is dumped as a whole, and a text that is not UTF-8 makes `dump` throw. So one
connection decides on the response for all of them.

* `connectionJson_ok_iff`, `httpRequestJson_ok_iff`: the entries that can be dumped.
* `live_shown`: as long as every client sends UTF-8 once it is cut, both views show the connections.
-/

namespace WebServer
namespace AdminApi

open Act Admin Config Http Network Registry

section Entries

variable {φ : Type}

theorem textJson_ok_iff (t : Text) : (∃ v : Json φ, textJson t = .ok v) ↔ Utf8.Valid t := by
  unfold textJson
  constructor
  · rintro ⟨v, h⟩
    by_contra hvalid
    rw [Utf8.decode_of_not_valid hvalid] at h
    cases h
  · intro hvalid
    rw [Utf8.decode_of_valid hvalid]
    exact ⟨_, rfl⟩

theorem connectionJson_ok_iff (info : ConnectionInfo) :
    (∃ v : Json φ, connectionJson info = .ok v) ↔ info.WellFormed := by
  constructor
  · rintro ⟨v, h⟩
    obtain ⟨_, hprotocol, h⟩ := Result.bind_ok h
    obtain ⟨_, hsource, h⟩ := Result.bind_ok h
    obtain ⟨_, hstatus, h⟩ := Result.bind_ok h
    obtain ⟨_, hmethod, h⟩ := Result.bind_ok h
    obtain ⟨_, hurl, h⟩ := Result.bind_ok h
    obtain ⟨_, hreferer, -⟩ := Result.bind_ok h
    exact ⟨(textJson_ok_iff _).mp ⟨_, hprotocol⟩, (textJson_ok_iff _).mp ⟨_, hsource⟩,
      (textJson_ok_iff _).mp ⟨_, hstatus⟩, (textJson_ok_iff _).mp ⟨_, hmethod⟩,
      (textJson_ok_iff _).mp ⟨_, hurl⟩, (textJson_ok_iff _).mp ⟨_, hreferer⟩⟩
  · intro h
    obtain ⟨_, hprotocol⟩ := (textJson_ok_iff (φ := φ) _).mpr h.protocol
    obtain ⟨_, hsource⟩ := (textJson_ok_iff (φ := φ) _).mpr h.sourceAddress
    obtain ⟨_, hstatus⟩ := (textJson_ok_iff (φ := φ) _).mpr h.status
    obtain ⟨_, hmethod⟩ := (textJson_ok_iff (φ := φ) _).mpr h.method
    obtain ⟨_, hurl⟩ := (textJson_ok_iff (φ := φ) _).mpr h.url
    obtain ⟨_, hreferer⟩ := (textJson_ok_iff (φ := φ) _).mpr h.referer
    rw [connectionJson, hprotocol, hsource, hstatus, hmethod, hurl, hreferer]
    exact ⟨_, rfl⟩

theorem httpRequestJson_ok_iff (info : HttpRequestInfo) :
    (∃ v : Json φ, httpRequestJson info = .ok v) ↔ info.WellFormed := by
  constructor
  · rintro ⟨v, h⟩
    obtain ⟨_, hsite, h⟩ := Result.bind_ok h
    obtain ⟨_, hhost, h⟩ := Result.bind_ok h
    obtain ⟨_, hprotocol, h⟩ := Result.bind_ok h
    obtain ⟨_, hclient, h⟩ := Result.bind_ok h
    obtain ⟨_, hstatus, h⟩ := Result.bind_ok h
    obtain ⟨_, hmethod, h⟩ := Result.bind_ok h
    obtain ⟨_, hurl, h⟩ := Result.bind_ok h
    obtain ⟨_, hreferer, -⟩ := Result.bind_ok h
    exact ⟨(textJson_ok_iff _).mp ⟨_, hsite⟩, (textJson_ok_iff _).mp ⟨_, hhost⟩,
      (textJson_ok_iff _).mp ⟨_, hprotocol⟩, (textJson_ok_iff _).mp ⟨_, hclient⟩,
      (textJson_ok_iff _).mp ⟨_, hstatus⟩, (textJson_ok_iff _).mp ⟨_, hmethod⟩,
      (textJson_ok_iff _).mp ⟨_, hurl⟩, (textJson_ok_iff _).mp ⟨_, hreferer⟩⟩
  · intro h
    obtain ⟨_, hsite⟩ := (textJson_ok_iff (φ := φ) _).mpr h.siteName
    obtain ⟨_, hhost⟩ := (textJson_ok_iff (φ := φ) _).mpr h.host
    obtain ⟨_, hprotocol⟩ := (textJson_ok_iff (φ := φ) _).mpr h.protocol
    obtain ⟨_, hclient⟩ := (textJson_ok_iff (φ := φ) _).mpr h.clientIp
    obtain ⟨_, hstatus⟩ := (textJson_ok_iff (φ := φ) _).mpr h.status
    obtain ⟨_, hmethod⟩ := (textJson_ok_iff (φ := φ) _).mpr h.method
    obtain ⟨_, hurl⟩ := (textJson_ok_iff (φ := φ) _).mpr h.url
    obtain ⟨_, hreferer⟩ := (textJson_ok_iff (φ := φ) _).mpr h.referer
    rw [httpRequestJson, hsite, hhost, hprotocol, hclient, hstatus, hmethod, hurl, hreferer]
    exact ⟨_, rfl⟩

end Entries

/-! ## Views -/

/-- The live connections, with their ages. -/
def liveConnections (r : Registries) (now : Int) : List ConnectionInfo :=
  r.connections.entries.map fun e => { e.2.info with connectedSeconds := Table.seconds now e.2 }

/-- The live requests of the site, with their ages. -/
def liveRequests (r : Registries) (siteId : Option Int) (now : Int) : List HttpRequestInfo :=
  (r.requests.entries.filter fun e => HttpRequestRegistry.ofSite siteId e.2.info).map fun e =>
    { e.2.info with connectedSeconds := Table.seconds now e.2 }

section Views

variable {φ : Type} (env : Environment φ) (request : Request) (remoteIp : Text) (s : Services)

/-- The response has one entry for each of the live ones, up to the limit of a snapshot. -/
def Shows {ι : Type} (live : List ι) (item : ι → Except Exception (Json φ)) (response : Response) :
    Prop :=
  ∃ (shown : List ι) (entries : List (Json φ)),
    shown.Subperm live ∧ shown.length = min snapshotLimit live.length ∧
      List.Forall₂ (fun info entry => item info = .ok entry) shown entries ∧
      response.status = 200 ∧
      response.body = env.lib.codec.dump
        (.ofFields [("connections", .arr entries), ("total", number live.length)])

/-- Both views show what is live, through either entry point. -/
structure LiveShown (entry : Entry) : Prop where
  connections : request.is (requestPath request) .get "/api/connections" = true →
    Shows env (liveConnections s.registries env.steady) connectionJson
      (answer env request remoteIp s entry).1
  requests : request.is (requestPath request) .get "/api/http-connections" = true →
    ∀ siteId, siteFilter request = .ok siteId →
      Shows env (liveRequests s.registries siteId env.steady) httpRequestJson
        (answer env request remoteIp s entry).1

variable {env request}

variable {s} in
theorem authorizeRequest_accepted (haccepted : accepted env request s = true) :
    ∃ accounts, authorizeRequest env request s = .ok true { s with accounts := accounts } := by
  obtain ⟨haccepts, -⟩ := authorize_eq env.auth (sessionToken request) s.accounts
  rw [← accepted.eq_def env request s, haccepted] at haccepts
  refine ⟨(authorize env.auth (sessionToken request) s.accounts).2, ?_⟩
  rw [← haccepts]
  rfl

/-- An accepted request for a view is answered by that view. -/
theorem answer_view {response : Response} {view : Api Response} {route : String}
    (haccepted : accepted env request s = true)
    (hget : request.is (requestPath request) .get route = true)
    (hpublic : request.is (requestPath request) .get "/api/auth/setup-state" = false)
    (hview : handleAuthenticated env request (requestPath request) (sessionToken request) = view)
    (hresponse : ∀ s₁ : Services, s₁.registries = s.registries → view s₁ = .ok response s₁)
    (entry : Entry) : (answer env request remoteIp s entry).1 = response := by
  have hmethod : request.method = .get := by
    simp only [Request.is, Bool.and_eq_true, beq_iff_eq] at hget
    exact hget.1
  have hpost : ∀ route, request.is (requestPath request) .post route = false := by
    intro route
    rw [Request.is, hmethod]
    rfl
  obtain ⟨accounts, hrun⟩ := authorizeRequest_accepted haccepted
  have htry : tryHandle env request remoteIp s = .ok response { s with accounts := accounts } := by
    simp only [tryHandle, hpublic, hpost, Bool.false_eq_true, if_false]
    rw [bind_of_ok hrun]
    simp only [if_true]
    rw [hview, hresponse { s with accounts := accounts } rfl]
  cases entry with
  | handle => simp only [answer, handle, htry]
  | handleAsync =>
    simp only [answer, handleAsync, hpost, Bool.false_eq_true, if_false, handle, htry]

theorem handleAuthenticated_connections (env : Environment φ)
    (h : request.is (requestPath request) .get "/api/connections" = true) (token : Text) :
    request.is (requestPath request) .get "/api/auth/setup-state" = false ∧
      handleAuthenticated env request (requestPath request) token =
        connectionsView env request := by
  simp only [Request.is, Bool.and_eq_true, beq_iff_eq] at h
  refine ⟨?_, ?_⟩
  · rw [Request.is, h.1, h.2]
    decide
  · unfold handleAuthenticated
    rw [if_neg, if_neg, if_neg, if_pos]
    all_goals
      rw [Request.is, h.1, h.2]
      decide

theorem handleAuthenticated_httpConnections (env : Environment φ)
    (h : request.is (requestPath request) .get "/api/http-connections" = true) (token : Text) :
    request.is (requestPath request) .get "/api/auth/setup-state" = false ∧
      handleAuthenticated env request (requestPath request) token =
        httpConnectionsView env request := by
  simp only [Request.is, Bool.and_eq_true, beq_iff_eq] at h
  refine ⟨?_, ?_⟩
  · rw [Request.is, h.1, h.2]
    decide
  · unfold handleAuthenticated
    rw [if_neg, if_neg, if_neg, if_neg, if_pos]
    all_goals
      rw [Request.is, h.1, h.2]
      decide

variable (env request) in
/-- A snapshot whose entries can be dumped is shown. -/
theorem shows_snapshot {ι : Type} (t : Registry.Table ι) (through : ι → Bool) (view : Stored ι → ι)
    (before : ι → ι → Bool) (item : ι → Except Exception (Json φ))
    (h : ∀ e ∈ t.entries, ∃ v, item (view e.2) = .ok v) :
    ∃ entries, (t.snapshot env.iteration snapshotLimit through view before).mapM item = .ok entries ∧
      Shows env ((t.entries.filter fun e => through e.2.info).map fun e => view e.2) item
        (connectionsResponse env request entries
          (t.entries.filter fun e => through e.2.info).length) := by
  have hlive := t.snapshot_subperm env.iteration snapshotLimit through view before
  have hitems : ∀ info ∈ t.snapshot env.iteration snapshotLimit through view before,
      ∃ v, item info = .ok v := by
    intro info hinfo
    obtain ⟨e, he, rfl⟩ := List.mem_map.mp (hlive.subset hinfo)
    exact h e (List.mem_of_mem_filter he)
  obtain ⟨entries, hentries, hall⟩ := Result.mapM_of_forall hitems
  refine ⟨entries, hentries, _, entries, hlive, ?_, hall, rfl, ?_⟩
  · rw [Table.length_snapshot, List.length_map]
  · rw [List.length_map]
    rfl

/-- What is well formed is shown. -/
theorem liveShown (hs : s.registries.WellFormed) (haccepted : accepted env request s = true)
    (entry : Entry) : LiveShown env request remoteIp s entry where
  connections hroute := by
    obtain ⟨hpublic, hview⟩ := handleAuthenticated_connections env hroute (sessionToken request)
    obtain ⟨entries, hentries, hshows⟩ := shows_snapshot env request s.registries.connections
      (fun _ => true)
      (fun stored => { stored.info with connectedSeconds := Table.seconds env.steady stored })
      ConnectionInfo.before connectionJson fun e he => (connectionJson_ok_iff _).mpr
        { hs.connections e he with }
    simp only [List.filter_true] at hshows
    rw [liveConnections,
      answer_view remoteIp s haccepted hroute hpublic hview (fun s₁ hs₁ => ?_) entry]
    · exact hshows
    · rw [← hs₁] at hentries ⊢
      rw [connectionsView,
        bind_of_ok (show (MonadState.get : Api Services) s₁ = .ok s₁ s₁ from rfl),
        ConnectionRegistry.snapshot, hentries]
      rfl
  requests hroute siteId hfilter := by
    obtain ⟨hpublic, hview⟩ := handleAuthenticated_httpConnections env hroute (sessionToken request)
    obtain ⟨entries, hentries, hshows⟩ := shows_snapshot env request s.registries.requests
      (HttpRequestRegistry.ofSite siteId)
      (fun stored => { stored.info with connectedSeconds := Table.seconds env.steady stored })
      HttpRequestInfo.before httpRequestJson fun e he => (httpRequestJson_ok_iff _).mpr
        { hs.requests e he with }
    rw [liveRequests,
      answer_view remoteIp s haccepted hroute hpublic hview (fun s₁ hs₁ => ?_) entry]
    · exact hshows
    · rw [← hs₁] at hentries ⊢
      have hsite : (attempt (siteFilter request) : Api (Option Int)) s₁ = .ok siteId s₁ := by
        rw [hfilter]
        rfl
      rw [httpConnectionsView, bind_of_ok hsite,
        bind_of_ok (show (MonadState.get : Api Services) s₁ = .ok s₁ s₁ from rfl),
        HttpRequestRegistry.snapshot, hentries, HttpRequestRegistry.size,
        List.countP_eq_length_filter]
      rfl

end Views

/-- In every run whose clients send UTF-8 once it is cut, the views show all that is live, whoever
asks for them with an accepted session. -/
theorem live_shown {φ : Type} (env : Environment φ)
    (hascii : ∀ a, ∀ b ∈ env.lib.address.toText a, b < 128) (events : List Registry.Event) (r : Registries)
    (hrun : Run.run (step env.lib.address) {} events = some r)
    (hclients : Run.Along (step env.lib.address) (fun _ e => EventUtf8 e) {} events)
    (s : Services) (hs : s.registries = r) (request : Request) (remoteIp : Text)
    (haccepted : accepted env request s = true) (entry : Entry) :
    LiveShown env request remoteIp s entry := by
  have hempty : Registries.WellFormed {} := ⟨by simp, by simp⟩
  have hr : r.WellFormed :=
    Run.run_inv_along (fun _ _ _ h he hstep => wellFormed_step hascii h he hstep) hempty hclients hrun
  exact liveShown remoteIp s (hs ▸ hr) haccepted entry

/-! ## A client that sends a byte -/

namespace Console

def environment : Environment JsonText.Tenths where
  lib := ⟨JsonText.codec, ⟨fun _ _ => false, fun _ _ _ => false⟩, .dotted, fun _ _ => .ok ()⟩
  auth :=
    { options := ⟨28800000000000, 64⟩
      now _ := 1
      randomBytes _ n := .ok (List.replicate n 0)
      derivePassword _ salt _ _ := .ok salt
      countUsers := none
      findUser := none
      insertUser := none }
  config := calm
  thrown := .runtimeError
  exportedAt := 0
  uptimeSeconds := 1
  steady := 1
  iteration := ⟨id, fun _ => .refl _⟩
  listenerStatus := none
  metrics := []
  probe _ :=
    { success := false
      protocol := "http"
      remoteAddress := "192.0.2.2"
      remotePort := 8090
      latencyMs := ⟨false, 0, 5⟩
      tlsVerified := false
      error := "connect: Connection refused" }
  recentLines := none

def services (r : Registries) : Services :=
  { world := running
    accounts := ⟨[], [(ascii "t", 2)], []⟩
    registries := r
    backups := []
    probes := [] }

def request : Request where
  method := .get
  target := ascii "/api/connections"
  fields := [⟨⟨ascii "Cookie", by decide⟩, ⟨ascii "ws_admin_session=t", by decide⟩⟩]
  body := []
  version := 11
  keepAlive := true

def peer : Address := .v4 0xc0000201

theorem isName_host : IsName (ascii "Host") := by decide

def head (target : { t : Text // IsTarget t }) : Head where
  method := ⟨ascii "GET", by decide⟩
  target := target
  version := .http11
  fields := [⟨⟨ascii "Host", isName_host⟩, ⟨ascii "a.test", by decide⟩⟩]

def events (target : { t : Text // IsTarget t }) : List Registry.Event :=
  [.connect .http (some (peer, 40000)) ⟨0, 0⟩,
    .headerRead 1 .http peer ⟨[], []⟩ (head target) ⟨0, 0⟩]

def registries (target : { t : Text // IsTarget t }) : Registries :=
  ((Run.run (step .dotted) {} (events target))).getD {}

end Console

open Console in
/-- A client asks for `/` and is shown. -/
theorem live_shown_root :
    Run.run (step .dotted) {} (events ⟨ascii "/", by decide⟩) =
        some (registries ⟨ascii "/", by decide⟩) ∧
      accepted environment request (services (registries ⟨ascii "/", by decide⟩)) = true ∧
      LiveShown environment request (ascii "127.0.0.1")
        (services (registries ⟨ascii "/", by decide⟩)) .handle := by
  have hutf8 : ∀ e ∈ events ⟨ascii "/", by decide⟩, EventUtf8 e := by
    intro e he
    simp only [events, List.mem_cons, List.not_mem_nil, or_false] at he
    rcases he with rfl | rfl
    · trivial
    · exact ⟨by decide, by decide, by decide⟩
  refine ⟨rfl, by decide, ?_⟩
  exact live_shown environment Dotted.print_lt (events ⟨ascii "/", by decide⟩) _ rfl
    (Run.along_of_forall hutf8) (services (registries ⟨ascii "/", by decide⟩)) rfl request
    (ascii "127.0.0.1") (by decide) .handle

open Console in
/-- A client asks for a target with the byte 255, and the administrator sees no connection at all. -/
theorem invalidByte_hidden :
    Run.run (step .dotted) {} (events ⟨[47, 255], by decide⟩) =
        some (registries ⟨[47, 255], by decide⟩) ∧
      accepted environment request (services (registries ⟨[47, 255], by decide⟩)) = true ∧
      request.is (requestPath request) .get "/api/connections" = true ∧
      (answer environment request (ascii "127.0.0.1") (services (registries ⟨[47, 255], by decide⟩))
        .handle).1.status = 400 ∧
      ¬ LiveShown environment request (ascii "127.0.0.1")
        (services (registries ⟨[47, 255], by decide⟩)) .handle := by
  have hstatus : (answer environment request (ascii "127.0.0.1")
      (services (registries ⟨[47, 255], by decide⟩)) .handle).1.status = 400 := by
    decide +kernel
  refine ⟨rfl, by decide, by decide, hstatus, fun h => ?_⟩
  obtain ⟨_, _, -, -, -, hok, -⟩ := h.connections (by decide)
  rw [hstatus] at hok
  cases hok

end AdminApi
end WebServer
