import WebServer.Admin.Connections
import WebServer.Config.Idempotent
import WebServer.Config.RoundTrip

/-!
# WebServer.Admin.Stored

What the admin API may leave in the database, and what becomes of it in a backup.

Requests are the only source of changes, and whoever sends them may write anything: records with any
fields, or a backup that was edited. `Keeps I m` says that a route `m` keeps an invariant `I` of the
configuration service; the routes come down to the operations of the service.

* `keeps_handleAuthenticated`: every route keeps `World.Sound`.
* `stored_valid`: what is stored passes the validators, whatever requests come, whatever fails, and
  across restarts. So `build_runtime_spec` never stops at a record; the candidate may still be refused
  as a whole, for one if a site serves HTTPS and there is no certificate.
* `backup_restores`: a backup of one service restores its records in another.
-/

namespace WebServer
namespace AdminApi

open Act Admin Config Http Registry

/-! ## The numbers of a request -/

section Numbers

variable {φ : Type} {codec : Codec φ} {source : Json φ} {key : String} {fallback n : Nat}
  {site : SiteRecord}

theorem parsePort_ok (h : parsePort codec source key fallback = .ok n) : IsPort n ∨ n = fallback := by
  unfold parsePort at h
  split at h
  · obtain ⟨_, -, h⟩ := Result.bind_ok h
    obtain ⟨value, -, h⟩ := Result.bind_ok h
    obtain ⟨hrange, h⟩ := Result.guard_ok h
    cases h
    refine .inl ⟨?_, ?_⟩
    · omega
    · omega
  · cases h
    exact .inr rfl

theorem parsePort_isPort (hfallback : IsPort fallback)
    (h : parsePort codec source key fallback = .ok n) : IsPort n := by
  rcases parsePort_ok h with hn | rfl
  · exact hn
  · exact hfallback

theorem parseU32_lt (hfallback : fallback < 2 ^ 32) (h : parseU32 codec source key fallback = .ok n) :
    n < 2 ^ 32 := by
  unfold parseU32 at h
  split at h
  · obtain ⟨_, -, h⟩ := Result.bind_ok h
    obtain ⟨value, -, h⟩ := Result.bind_ok h
    obtain ⟨hrange, h⟩ := Result.guard_ok h
    cases h
    omega
  · cases h
    exact hfallback

/-- The port of the backend may be missing, which is read as 0. -/
theorem parseSite_read (h : parseSite codec source = .ok site) : site.Read := by
  unfold parseSite at h
  iterate 4 obtain ⟨_, -, h⟩ := Result.bind_ok h
  obtain ⟨backendPort, hbackend, h⟩ := Result.bind_ok h
  iterate 9 obtain ⟨_, -, h⟩ := Result.bind_ok h
  obtain ⟨httpPort, hhttp, h⟩ := Result.bind_ok h
  obtain ⟨_, -, h⟩ := Result.bind_ok h
  obtain ⟨httpsPort, hhttps, h⟩ := Result.bind_ok h
  iterate 3 obtain ⟨_, -, h⟩ := Result.bind_ok h
  obtain ⟨window, hwindow, h⟩ := Result.bind_ok h
  obtain ⟨maxRequests, hmaxRequests, h⟩ := Result.bind_ok h
  obtain ⟨ban, hban, h⟩ := Result.bind_ok h
  iterate 9 obtain ⟨_, -, h⟩ := Result.bind_ok h
  cases h
  have hport : backendPort < 2 ^ 16 := by
    rcases parsePort_ok hbackend with hn | hn
    · exact hn.2
    · omega
  exact ⟨hport, parsePort_isPort ⟨by decide, by decide⟩ hhttp,
    parsePort_isPort ⟨by decide, by decide⟩ hhttps, parseU32_lt (by decide) hwindow,
    parseU32_lt (by decide) hmaxRequests, parseU32_lt (by decide) hban⟩

end Numbers

/-! ## Routes that keep an invariant -/

def Keeps {α : Type} (I : World → Prop) (m : Api α) : Prop :=
  Spec (fun s => I s.world) m (fun _ s => I s.world) fun s => I s.world

section Rules

variable {φ : Type} {env : Environment φ} {α β : Type} {I : World → Prop}

/-- A quiet action keeps everything. -/
theorem Quiet.keeps {m : Api α} (h : Quiet m) : Keeps I m := by
  intro s hs
  have hquiet := h s s (untouched_refl s)
  cases hm : m s with
  | ok a s' =>
    rw [hm] at hquiet
    show I s'.world
    rw [hquiet.world]
    exact hs
  | error e s' =>
    rw [hm] at hquiet
    show I s'.world
    rw [hquiet.world]
    exact hs

theorem Keeps.bind {m : Api α} {f : α → Api β} (hm : Keeps I m) (hf : ∀ a, Keeps I (f a)) :
    Keeps I (m >>= f) := spec_bind hm hf

/-- What was read is known to the rest. -/
theorem keeps_attempt {x : Except Exception α} {f : α → Api β}
    (hf : ∀ a, x = .ok a → Keeps I (f a)) : Keeps I (attempt x >>= f) :=
  spec_bind (M := fun a s => x = .ok a ∧ I s.world)
    (spec_attempt (fun _ ha _ hs => ⟨ha, hs⟩) fun _ h => h) fun a => spec_fact (hf a)

theorem keeps_ite {p : Prop} [Decidable p] {m m' : Api α} (h : Keeps I m) (h' : Keeps I m') :
    Keeps I (if p then m else m') := spec_ite (fun _ => h) fun _ => h'

theorem keeps_withMutationGuard {request : Request} {m : Api Response} (h : Keeps I m) :
    Keeps I (withMutationGuard env request m) := keeps_ite h (quiet_pure _).keeps

/-- An operation of the service. -/
theorem keeps_onWorld {m : Service α} (h : Spec I m (fun _ => I) I) : Keeps I (onWorld env m) := by
  intro s hs
  have h := h s.world hs
  unfold onWorld
  cases hm : m s.world with
  | ok a w => rw [hm] at h; exact h
  | error e w => rw [hm] at h; exact h

/-- An operation keeps what it keeps when its result is dropped. -/
theorem spec_of_dropped {m : Service α} (h : Spec I (do let _ ← m; pure ()) (fun _ => I) I) :
    Spec I m (fun _ => I) I := by
  intro w hw
  have h := h w hw
  cases hm : m w with
  | ok a w' => rw [bind_of_ok hm] at h; exact h
  | error e w' => rw [bind_of_error hm] at h; exact h

theorem spec_onDatabase_query (io : Sqlite) (st : Statement) (f : Database → α) :
    Spec I (onDatabase (query io st f)) (fun _ => I) I := by
  intro w hw
  unfold onDatabase onPart query
  cases io st with
  | none => exact hw
  | some e => exact hw

theorem spec_exportConfiguration (codec : Codec φ) (io : Sqlite) (now : Int64) :
    Spec I (exportConfiguration codec io now) (fun _ => I) I := by
  unfold exportConfiguration
  refine spec_bind (spec_onDatabase_query _ _ _) fun sites => ?_
  refine spec_bind (M := fun _ => I) (spec_attempt (fun _ _ _ h => h) fun _ h => h) fun items => ?_
  refine spec_bind (spec_onDatabase_query _ _ _) fun certificates => ?_
  refine spec_bind (spec_onDatabase_query _ _ _) fun settings => ?_
  refine spec_bind (spec_onDatabase_query _ _ _) fun revision => ?_
  refine spec_bind (M := fun _ => I) (spec_failing (fun _ h => h) fun _ h => h) fun _ => ?_
  exact spec_pure fun _ h => h

end Rules

section Routes

variable {φ : Type} {env : Environment φ} (request : Request)

/-- An operation on records that have been read. -/
theorem keeps_perform (op : Op) (hop : op.Read) {m : Service Unit}
    (hm : perform (checks env.lib) env.config op = m) :
    Keeps (World.Sound env.lib) (onWorld env m) :=
  keeps_onWorld (hm ▸ sound_perform hop)

theorem keeps_dropped {α : Type} (op : Op) (hop : op.Read) {m : Service α}
    (hm : perform (checks env.lib) env.config op = do let _ ← m; pure ()) :
    Keeps (World.Sound env.lib) (onWorld env m) :=
  keeps_onWorld (spec_of_dropped (hm ▸ sound_perform hop))

theorem keeps_createSiteRoute : Keeps (World.Sound env.lib) (createSiteRoute env request) := by
  unfold createSiteRoute
  refine keeps_attempt fun payload _ => keeps_attempt fun site hsite => ?_
  refine (keeps_dropped (.createSite site) (parseSite_read hsite) rfl).bind fun stored => ?_
  exact keeps_attempt fun shown _ => (quiet_pure _).keeps

theorem keeps_updateSiteRoute (id : Int) :
    Keeps (World.Sound env.lib) (updateSiteRoute env request id) := by
  unfold updateSiteRoute
  refine keeps_attempt fun payload _ => keeps_attempt fun site hsite => ?_
  refine (keeps_dropped (.updateSite { site with id := id }) ((parseSite_read hsite).withId id)
    rfl).bind fun stored => ?_
  exact keeps_attempt fun shown _ => (quiet_pure _).keeps

theorem keeps_deleteSiteRoute (id : Int) :
    Keeps (World.Sound env.lib) (deleteSiteRoute env request id) :=
  (keeps_perform (.deleteSite id) trivial rfl).bind fun _ => (quiet_pure _).keeps

theorem keeps_createCertificateRoute :
    Keeps (World.Sound env.lib) (createCertificateRoute env request) := by
  unfold createCertificateRoute
  refine keeps_attempt fun payload _ => keeps_attempt fun certificate _ => ?_
  exact (keeps_dropped (.createCertificate certificate) trivial rfl).bind fun stored =>
    (quiet_pure _).keeps

theorem quiet_findCertificate (id : Int) : Quiet (findCertificate env id) := by
  refine (quiet_read _ _).bind fun certificates => ?_
  split
  · exact quiet_pure _
  · exact quiet_throw _

theorem keeps_updateCertificateRoute (id : Int) :
    Keeps (World.Sound env.lib) (updateCertificateRoute env request id) := by
  unfold updateCertificateRoute
  refine keeps_attempt fun payload _ => keeps_attempt fun certificate _ => ?_
  refine (quiet_findCertificate id).keeps.bind fun current => ?_
  exact (keeps_dropped (.updateCertificate _) trivial rfl).bind fun stored =>
    (quiet_pure _).keeps

theorem keeps_deleteCertificateRoute (id : Int) :
    Keeps (World.Sound env.lib) (deleteCertificateRoute env request id) :=
  (keeps_perform (.deleteCertificate id) trivial rfl).bind fun _ => (quiet_pure _).keeps

theorem keeps_updateSettingsRoute :
    Keeps (World.Sound env.lib) (updateSettingsRoute env request) := by
  unfold updateSettingsRoute
  refine keeps_attempt fun payload _ => keeps_attempt fun settings _ => ?_
  exact (keeps_dropped (.updateRuntimeSettings settings) trivial rfl).bind fun stored =>
    (quiet_pure _).keeps

theorem keeps_exportBackup : Keeps (World.Sound env.lib) (exportBackup env request) := by
  refine (keeps_onWorld (spec_exportConfiguration _ _ _)).bind fun encoded => ?_
  refine Keeps.bind (spec_modify fun _ h => h) fun _ => ?_
  exact (quiet_pure _).keeps

/-- A backup that is imported brings its own records. -/
theorem keeps_restoreBackup : Keeps (World.Sound env.lib) (restoreBackup env request) := by
  have hrest : Keeps (World.Sound env.lib) (do
      let s ← get
      pure (jsonResponse env request 200 (.ofFields
        [("restored", .bool true), ("active_revision", number s.world.activeRevision)]))) :=
    (quiet_get.bind fun _ => quiet_pure _).keeps
  unfold restoreBackup
  split
  · exact keeps_ite ((quiet_throw _).keeps.bind fun _ => hrest)
      ((quiet_throw _).keeps.bind fun _ => hrest)
  · exact (keeps_perform (.importConfiguration _) trivial rfl).bind fun _ => hrest

theorem keeps_reloadRoute : Keeps (World.Sound env.lib) (reloadRoute env request) :=
  (keeps_onWorld sound_reloadRuntime).bind fun _ =>
    (quiet_get.bind fun _ => quiet_pure _).keeps

theorem keeps_probeRoute : Keeps (World.Sound env.lib) (probeRoute env request) := by
  unfold probeRoute
  refine keeps_attempt fun payload _ => keeps_attempt fun backend _ => ?_
  refine Keeps.bind (m := probeBackend env backend) ?_ fun result => (quiet_pure _).keeps
  exact Keeps.bind (spec_modify fun _ h => h) fun _ => (quiet_pure _).keeps

theorem keeps_logoutRoute (token : Text) :
    Keeps (World.Sound env.lib) (logoutRoute env request token) :=
  Keeps.bind (spec_modify fun _ h => h) fun _ => (quiet_pure _).keeps

theorem keeps_handleSites (path : Text) :
    Keeps (World.Sound env.lib) (handleSites env request path) := by
  refine keeps_ite (quiet_settingsView request).keeps ?_
  refine keeps_ite (keeps_withMutationGuard (keeps_updateSettingsRoute request)) ?_
  refine keeps_ite (keeps_withMutationGuard (keeps_createSiteRoute request)) ?_
  split
  · exact keeps_withMutationGuard (keeps_updateSiteRoute request _)
  · exact keeps_withMutationGuard (keeps_deleteSiteRoute request _)
  · exact (quiet_pure _).keeps

theorem keeps_handleCertificates (path : Text) :
    Keeps (World.Sound env.lib) (handleCertificates env request path) := by
  refine keeps_ite (quiet_certificatesView request).keeps ?_
  refine keeps_ite (keeps_withMutationGuard (keeps_createCertificateRoute request)) ?_
  split
  · exact keeps_withMutationGuard (keeps_updateCertificateRoute request _)
  · exact keeps_withMutationGuard (keeps_deleteCertificateRoute request _)
  · exact keeps_handleSites request path

theorem keeps_handleAuthenticated (path token : Text) :
    Keeps (World.Sound env.lib) (handleAuthenticated env request path token) := by
  refine keeps_ite (keeps_withMutationGuard (keeps_logoutRoute request token)) ?_
  refine keeps_ite (quiet_statusView request).keeps ?_
  refine keeps_ite (quiet_pure _).keeps ?_
  refine keeps_ite (quiet_connectionsView request).keeps ?_
  refine keeps_ite (quiet_httpConnectionsView request).keeps ?_
  refine keeps_ite (quiet_metricsView request).keeps ?_
  refine keeps_ite (keeps_withMutationGuard (keeps_exportBackup request)) ?_
  refine keeps_ite (keeps_withMutationGuard (keeps_restoreBackup request)) ?_
  refine keeps_ite (quiet_logsView request .access).keeps ?_
  refine keeps_ite (quiet_logsView request .error).keeps ?_
  refine keeps_ite (keeps_withMutationGuard (keeps_reloadRoute request)) ?_
  refine keeps_ite (quiet_sitesView request).keeps ?_
  refine keeps_ite (keeps_withMutationGuard (keeps_probeRoute request)) ?_
  exact keeps_handleCertificates request path

end Routes

/-! ## Requests -/

section Requests

variable {φ : Type} (env : Environment φ) (request : Request) (remoteIp : Text)
  {I : World → Prop} {s : Services}

theorem keeps_onAccounts {α : Type} (m : Auth α) : Keeps I (onAccounts m) := by
  intro s hs
  unfold onAccounts onPart
  cases m s.accounts with
  | ok a accounts => exact hs
  | error e accounts => exact hs

theorem keeps_authorizeRequest : Keeps I (authorizeRequest env request) := by
  intro s hs
  obtain ⟨s', hrun, hquiet⟩ := authorizeRequest_eq env request s
  rw [hrun]
  show I s'.world
  rw [hquiet.world]
  exact hs

theorem keeps_loginRoute (username password : String) :
    Keeps I (loginRoute env request username password remoteIp) := by
  intro s hs
  have hlogin := keeps_onAccounts (I := I) (login env.auth username password remoteIp) s hs
  unfold loginRoute
  revert hlogin
  cases onAccounts (login env.auth username password remoteIp) s with
  | ok token s' => exact id
  | error e s' =>
    intro hlogin
    cases e <;> exact hlogin

theorem keeps_tryHandle : Keeps (World.Sound env.lib) (tryHandle env request remoteIp) := by
  unfold tryHandle
  simp only []
  refine keeps_ite ((keeps_onAccounts _).bind fun _ => (quiet_pure _).keeps) ?_
  refine keeps_ite (keeps_withMutationGuard (keeps_attempt fun credentials _ => ?_)) ?_
  · exact (keeps_onAccounts _).bind fun token => (quiet_pure _).keeps
  refine keeps_ite (keeps_withMutationGuard (keeps_attempt fun credentials _ => ?_)) ?_
  · exact keeps_loginRoute env request remoteIp _ _
  refine (keeps_authorizeRequest env request).bind fun accepted => ?_
  exact keeps_ite (keeps_handleAuthenticated request _ _) (quiet_pure _).keeps

theorem keeps_tryProbe : Keeps (World.Sound env.lib) (tryProbe env request) :=
  (keeps_authorizeRequest env request).bind fun _ =>
    keeps_ite (keeps_withMutationGuard (keeps_probeRoute request)) (quiet_pure _).keeps

/-- A request keeps what is stored valid, whatever it is answered. -/
theorem sound_answer (entry : Entry) (hs : s.world.Sound env.lib) :
    (answer env request remoteIp s entry).2.world.Sound env.lib := by
  have hhandle : (handle env request remoteIp s).2.world.Sound env.lib := by
    have h := keeps_tryHandle env request remoteIp s hs
    unfold handle
    cases htry : tryHandle env request remoteIp s with
    | ok response s' => rw [htry] at h; exact h
    | error e s' => rw [htry] at h; exact h
  cases entry with
  | handle => exact hhandle
  | handleAsync =>
    simp only [answer, handleAsync]
    split
    · have h := keeps_tryProbe env request s hs
      cases htry : tryProbe env request s with
      | ok response s' => rw [htry] at h; exact h
      | error e s' => rw [htry] at h; exact h
    · exact hhandle

variable {env request}

theorem handleAuthenticated_createSite
    (h : request.is (requestPath request) .post "/api/sites" = true)
    (hguard : hasMutationGuard request = true) (token : Text) :
    handleAuthenticated env request (requestPath request) token = createSiteRoute env request := by
  simp only [Request.is, Bool.and_eq_true, beq_iff_eq] at h
  have hsites : handleSites env request (requestPath request) = createSiteRoute env request := by
    unfold handleSites withMutationGuard
    rw [if_neg, if_neg, if_pos, if_pos hguard]
    all_goals
      rw [Request.is, h.1, h.2]
      decide
  have hcertificates : handleCertificates env request (requestPath request) =
      handleSites env request (requestPath request) := by
    unfold handleCertificates
    rw [if_neg, if_neg, show certificateIdFromPath (requestPath request) = none by rw [h.2]; decide]
    all_goals
      rw [Request.is, h.1, h.2]
      decide
  unfold handleAuthenticated
  rw [if_neg, if_neg, if_neg, if_neg, if_neg, if_neg, if_neg, if_neg, if_neg, if_neg, if_neg,
    if_neg, if_neg, hcertificates, hsites]
  all_goals
    rw [Request.is, h.1, h.2]
    decide

/-- A request that creates a site leaves what `create_site` leaves. -/
theorem world_createSite {payload : Json φ} {site created : SiteRecord} {w : World}
    (haccepted : accepted env request s = true)
    (hroute : request.is (requestPath request) .post "/api/sites" = true)
    (hguard : hasMutationGuard request = true) (hbody : parseBody env request = .ok payload)
    (hsite : parseSite env.lib.codec payload = .ok site)
    (hcreate : createSite (checks env.lib) env.config site s.world = .ok created w) :
    (answer env request remoteIp s .handle).2.world = w := by
  obtain ⟨accounts, hauthorized⟩ := authorizeRequest_accepted haccepted
  have hpublic : tryHandle env request remoteIp s =
      createSiteRoute env request { s with accounts := accounts } := by
    have hroute' := hroute
    simp only [Request.is, Bool.and_eq_true, beq_iff_eq] at hroute'
    unfold tryHandle
    rw [if_neg, if_neg, if_neg, bind_of_ok hauthorized, if_pos rfl,
      handleAuthenticated_createSite hroute hguard]
    all_goals
      rw [Request.is, hroute'.1, hroute'.2]
      decide
  have hcreated : onWorld env (createSite (checks env.lib) env.config site)
      { s with accounts := accounts } = .ok created { s with accounts := accounts, world := w } := by
    unfold onWorld
    rw [hcreate]
  have hrun : createSiteRoute env request { s with accounts := accounts } =
      (do
        let shown ← attempt (siteJson env.lib.codec created)
        pure (jsonResponse env request 201 shown)) { s with accounts := accounts, world := w } := by
    unfold createSiteRoute
    rw [hbody, bind_of_ok (show attempt (.ok payload) _ = .ok payload _ from rfl), hsite,
      bind_of_ok (show attempt (.ok site) _ = .ok site _ from rfl), bind_of_ok hcreated]
  simp only [answer, handle, hpublic, hrun]
  cases siteJson env.lib.codec created <;> rfl

end Requests

/-! ## Runs -/

section Runs

/-- What happens to a service with its console. -/
inductive ConsoleEvent (φ : Type) where
  | request (env : Environment φ) (request : Request) (remoteIp : Text) (entry : Entry)
  | service (e : Config.Event)
  /-- the registries as the sessions have left them -/
  | sessions (registries : Registries)
  /-- a new process on the stored tables -/
  | restart

variable {φ : Type}

/-- The libraries are the same in all processes. A change comes from a request. -/
def serve (lib : Libraries φ) (s : Services) : ConsoleEvent φ → Option Services
  | .request env request remoteIp entry =>
    some (answer { env with lib := lib } request remoteIp s entry).2
  | .service (.change _ _) => none
  | .service e => (Config.step (checks lib) s.world e).map fun w => { s with world := w }
  | .sessions registries => some { s with registries := registries }
  | .restart =>
    match Config.restart (checks lib) s.world.database with
    | .error _ => none
    | .ok runtime => some { s with
        world := World.initial s.world.database runtime
        accounts := { s.accounts with sessions := [], failures := [] } }

variable {lib : Libraries φ} {s s' : Services}

theorem sound_initial {db : Database} (hdb : db.WellFormed) (hvalid : db.Valid lib)
    (runtime : RuntimeConfig) : (World.initial db runtime).Sound lib :=
  ⟨⟨rfl, rfl, by simp [World.initial]⟩, hdb, hvalid⟩

theorem sound_serve {e : ConsoleEvent φ} (hs : s.world.Sound lib) (he : serve lib s e = some s') :
    s'.world.Sound lib := by
  have hservice : ∀ {e : Config.Event}, e.Read →
      ((Config.step (checks lib) s.world e).map fun w => { s with world := w }) = some s' →
        s'.world.Sound lib := by
    intro e hports h
    obtain ⟨w, hw, rfl⟩ := Option.map_eq_some_iff.mp h
    exact sound_step hports hs hw
  cases e with
  | request env request remoteIp entry =>
    cases he
    exact sound_answer { env with lib := lib } request remoteIp entry hs
  | service e =>
    cases e with
    | change op env => cases he
    | reloadRuntime env => exact hservice (e := .reloadRuntime env) trivial he
    | seedDefaultCertificate certificate env =>
      exact hservice (e := .seedDefaultCertificate certificate env) trivial he
    | setReloadHandler => exact hservice (e := .setReloadHandler) trivial he
    | markRuntimeUnavailable => exact hservice (e := .markRuntimeUnavailable) trivial he
    | startServer env => exact hservice (e := .startServer env) trivial he
    | stopServer => exact hservice (e := .stopServer) trivial he
    | drained protocol id => exact hservice (e := .drained protocol id) trivial he
    | limiter e => exact hservice (e := .limiter e) trivial he
  | sessions registries =>
    cases he
    exact hs
  | restart =>
    simp only [serve] at he
    split at he
    · cases he
    · cases he
      exact sound_initial hs.wellFormed hs.valid _

/-- Records that their validators accept make a candidate. -/
theorem exists_runtimeSpec {db : Database} (h : db.Valid lib) (revision : Nat) :
    ∃ spec, buildRuntimeSpec (checks lib) db.listSites db.listCertificates db.settings revision =
      .ok spec := by
  obtain ⟨sites, hsites, -⟩ := h.validated
  exact ⟨_, buildRuntimeSpec_of_validated hsites h.settings db.listCertificates revision⟩

end Runs

/-- A service with its console, at any point of its life on tables that were valid at first. -/
def Served {φ : Type} (lib : Libraries φ) (s : Services) : Prop :=
  ∃ start runtime es, start.world = World.initial start.world.database runtime ∧
    start.world.database.WellFormed ∧ start.world.database.Valid lib ∧
      Run.run (serve lib) start es = some s

theorem Served.sound {φ : Type} {lib : Libraries φ} {s : Services} (h : Served lib s) :
    s.world.Sound lib := by
  obtain ⟨start, runtime, es, hstart, hdb, hvalid, hrun⟩ := h
  have hsound : start.world.Sound lib := by
    rw [hstart]
    exact sound_initial hdb hvalid runtime
  exact Run.run_inv (fun _ _ _ hs he => sound_serve hs he) hsound hrun

/-- In every run of the service with its console, whatever requests come and whatever fails, and
across restarts: the tables stay well formed, what is stored is valid, and no record keeps
`build_runtime_spec` from returning, as the first step of a reload or a restart. -/
theorem stored_valid {φ : Type} (lib : Libraries φ) (s : Services) (hs : Served lib s) :
    s.world.database.WellFormed ∧ s.world.database.Valid lib ∧
      ∀ revision, ∃ spec, buildRuntimeSpec (checks lib) s.world.database.listSites
        s.world.database.listCertificates s.world.database.settings revision = .ok spec :=
  ⟨hs.sound.wellFormed, hs.sound.valid, exists_runtimeSpec hs.sound.valid⟩

/-- A backup that one service has exported at any point of its life is read back by any other, unless
it has more records than an import takes. The candidate of the import is accepted exactly if that of a
restart of the first service is, and an import that returns leaves the records that were exported, in
their order, with the JSON columns in the form of `dump` and with ids of their own. -/
theorem backup_restores {φ : Type} (lib : Libraries φ) (s t : Services) (hs : Served lib s)
    (ht : Served lib t) (hfirst : s.world.database.revision ≠ 0)
    (hrevision : s.world.database.revision < 2 ^ 64) (env : Config.Env) (now : Int64)
    (encoded : String) (w : World)
    (hexport : exportConfiguration lib.codec env.sqlite now s.world = .ok encoded w) :
    ∃ normalized, s.world.database.listSites.mapM (canonicalizeJson lib.codec) = .ok normalized ∧
      decodeBackup lib encoded =
        (if maximumSites < s.world.database.listSites.length then
          .error "configuration backup cannot contain more than 10000 sites"
        else if maximumCertificates < s.world.database.listCertificates.length then
          .error "configuration backup cannot contain more than 1000 certificates"
        else .ok ⟨normalized.map (·.withoutId),
          s.world.database.listCertificates.map (·.withoutId), s.world.database.settings⟩) ∧
      (∃ spec, buildRuntimeSpec (checks lib)
          (numberSites t.world.database.nextSiteId (normalized.map (·.withoutId)))
          (s.world.database.listCertificates.map (·.withoutId)) s.world.database.settings
          (t.world.database.revision + 1) = .ok spec ∧
        ((∃ c, buildRuntimeConfig (checks lib) spec = .ok c) ↔
          ∃ c, Config.restart (checks lib) s.world.database = .ok c)) ∧
      ∀ (env' : Config.Env) (w' : World),
        perform (checks lib) env' (.importConfiguration encoded) t.world = .ok () w' →
          w'.database.listSites.map (·.withoutId) = normalized.map (·.withoutId) ∧
            w'.database.listCertificates.map (·.withoutId) =
              s.world.database.listCertificates.map (·.withoutId) ∧
            w'.database.settings = s.world.database.settings ∧
            w'.database.revision = t.world.database.revision + 1 := by
  obtain ⟨normalized, hnormalized, hdecode⟩ := exported_decodes hs.sound hrevision hexport
  refine ⟨normalized, hnormalized, hdecode, import_accepted_iff hs.sound.valid hfirst hnormalized _
    (Nat.succ_ne_zero _), fun env' w' himport => ?_⟩
  obtain ⟨backup, hbackup, hsites, hcertificates, hsettings, hrevision'⟩ :=
    restored_of_performed ht.sound.wellFormed himport
  rw [show (checks lib).decodeBackup encoded = decodeBackup lib encoded from rfl, hdecode] at hbackup
  split at hbackup
  · cases hbackup
  split at hbackup
  · cases hbackup
  cases hbackup
  refine ⟨?_, ?_, hsettings, hrevision'⟩
  · rw [hsites, List.map_map]
    rfl
  · -- the certificates were written in the order in which they are listed
    have hlisted := listed_map (f := fun c : CertificateRecord => c.withoutId) (fun _ => rfl)
      s.world.database.listCertificates
    rw [hcertificates, hlisted, List.map_map]
    exact congrArg (List.map CertificateRecord.withoutId) (listed_listed s.world.database.certificates)

/-! ## A console on a new file -/

namespace NewFile

/-- Whether an operation returns, and leaves a state with a property. -/
def returns {α : Type} (P : World → Prop) [DecidablePred P] : EStateM.Result Error World α → Bool
  | .ok _ w => P w
  | .error _ _ => false

theorem exists_of_returns {α : Type} {P : World → Prop} [DecidablePred P]
    {r : EStateM.Result Error World α} (h : returns P r = true) : ∃ a w, r = .ok a w ∧ P w := by
  cases r with
  | ok a w => exact ⟨a, w, rfl, of_decide_eq_true h⟩
  | error e w => cases h

def libraries : Libraries JsonText.Tenths := Console.environment.lib

theorem isName_guard : IsName (ascii "X-WebServer-Admin") := by decide

theorem isValue_guard : IsValue (ascii "1") := by decide

/-- A site for one domain. -/
def creation : Request where
  method := .post
  target := ascii "/api/sites"
  fields := Console.request.fields ++
    [⟨⟨ascii "X-WebServer-Admin", isName_guard⟩, ⟨ascii "1", isValue_guard⟩⟩]
  body := ascii ("\x7b\"name\":\"a\",\"domains\":[\"a.b\"],\"backend_address\":\"b\"," ++
    "\"backend_port\":1,\"hotlink_extensions\":[]\x7d")
  version := 11
  keepAlive := true

def certificate : CertificateRecord where
  id := 1
  name := "c"
  domains := ["a.b"]
  certificatePem := "c"
  privateKeyPem := "k"

/-- A service on a new file whose site is gone, with these certificates. -/
def started (certificates : List CertificateRecord) (sequence : Option Int) : Services where
  world := World.initial
    { Database.fresh with
      sites := []
      siteDomains := []
      certificates := certificates
      certificateSequence := sequence } emptyRuntime
  accounts := ⟨[], [(ascii "t", 2)], []⟩
  registries := {}
  backups := []
  probes := []

theorem served_of_run {certificates : List CertificateRecord} {sequence : Option Int} {s : Services}
    (hwell : CertificatesWellFormed certificates (sequence.getD 0))
    (hvalid : ∀ c ∈ certificates, validateAndNormalizeCertificate libraries c = .ok c)
    {es : List (ConsoleEvent JsonText.Tenths)}
    (hrun : Run.run (serve libraries) (started certificates sequence) es = some s) :
    Served libraries s := by
  refine ⟨started certificates sequence, emptyRuntime, es, rfl, ⟨?_, hwell⟩, ⟨?_, hvalid, ?_⟩, hrun⟩
  · have hsequence : (0 : Int) ≤ 1 := by decide
    exact ⟨hsequence, .nil, fun s hs => (by cases hs), fun d hd => (by cases hd), .nil⟩
  · exact fun site hsite => by cases hsite
  · show validateRuntimeSettings libraries {} = .ok {}
    decide

/-- A service without records that is restarted. -/
def emptied : Services :=
  ((serve libraries (started [] none) .restart)).getD (started [] none)

theorem served_emptied : Served libraries emptied := by
  have hsome : (serve libraries (started [] none) .restart).isSome = true := rfl
  obtain ⟨s, hs⟩ := Option.isSome_iff_exists.mp hsome
  have hrun : Run.run (serve libraries) (started [] none) [.restart] = some emptied := by
    rw [emptied, Run.run, hs]
    rfl
  exact served_of_run wellFormed_fresh.certificates (fun c hc => by cases hc) hrun

/-- A service that creates a site next to its certificate. -/
def shop : Services :=
  (answer Console.environment creation (ascii "127.0.0.1") (started [certificate] (some 1)) .handle).2

theorem served_shop : Served libraries shop := by
  refine served_of_run ⟨by decide, by decide, by decide, by decide, by decide⟩ (fun c hc => ?_)
    (show Run.run (serve libraries) (started [certificate] (some 1))
      [.request Console.environment creation (ascii "127.0.0.1") .handle] = some shop from rfl)
  rw [List.mem_singleton.mp hc]
  rfl

/-- The site that was created. -/
def site : SiteRecord where
  id := 2
  name := "a"
  domains := ["a.b"]
  backendAddress := "b"
  backendPort := 1
  urlAuthJson := "\x7b\"backup_key\":\"\",\"enabled\":false,\"primary_key\":\"\"," ++
    "\"protected_uris\":[],\"scope\":\"all\",\"validity_seconds\":1800\x7d"
  hotlinkExtensionsJson := "[]"

/-- The site as it is written into a backup. -/
def items : List (Json JsonText.Tenths) :=
  ([site].mapM (siteItem libraries.codec)).toOption.getD []

/-- What is written into the backup. -/
def contents : Contents := ⟨0, 3, [site], [certificate], {}⟩

def document : Json JsonText.Tenths := contents.document items

/-- The request is read, and the record that it asks for passes the validation as it is. -/
theorem creation_read :
    ((parseBody Console.environment creation).toOption.bind fun payload =>
      (parseSite libraries.codec payload).toOption) = some site.withoutId ∧
    (validateAndNormalize libraries site.withoutId).toOption = some site.withoutId :=
  ⟨by decide +kernel, by decide +kernel⟩

/-- What the shop stores. -/
theorem stored_shop : shop.world.database.revision = 3 ∧ shop.world.database.listSites = [site] ∧
    shop.world.database.listCertificates = [certificate] ∧ shop.world.database.settings = {} := by
  obtain ⟨hread, hvalid⟩ := creation_read
  obtain ⟨payload, hbody, hsite⟩ := Option.bind_eq_some_iff.mp hread
  have hattempt : attempt ((checks libraries).validateAndNormalize site.withoutId)
      (started [certificate] (some 1)).world =
        .ok site.withoutId (started [certificate] (some 1)).world := by
    rw [show (checks libraries).validateAndNormalize site.withoutId = .ok site.withoutId from
      Result.ok_of_toOption hvalid]
    rfl
  obtain ⟨created, w, hcreate, hstored⟩ : ∃ created w,
      createSite (checks libraries) Console.environment.config site.withoutId
        (started [certificate] (some 1)).world = .ok created w ∧
      (w.database.revision = 3 ∧ w.database.listSites = [site] ∧
        w.database.listCertificates = [certificate] ∧ w.database.settings = {}) := by
    rw [createSite, bind_of_ok hattempt]
    exact exists_of_returns (by decide +kernel)
  rwa [shop, world_createSite (ascii "127.0.0.1") (by decide) (by decide) (by decide)
    (Result.ok_of_toOption hbody) (Result.ok_of_toOption hsite) hcreate]

/-- The JSON columns of the site are read, they are laid out as they would be written, and the backup
is not too long. -/
theorem site_written : ([site].mapM (siteItem libraries.codec)).toOption.isSome = true ∧
    ([site].mapM (canonicalizeJson libraries.codec)).toOption = some [site] ∧
    (JsonText.print .indented 0 document).length ≤ 1000000 :=
  ⟨by decide +kernel, by decide +kernel, by decide +kernel⟩

theorem mapM_siteItem : [site].mapM (siteItem libraries.codec) = .ok items := by
  obtain ⟨hsome, -⟩ := site_written
  unfold items
  cases h : [site].mapM (siteItem libraries.codec) with
  | error e => rw [h] at hsome; cases hsome
  | ok items => rfl

theorem mapM_canonicalizeJson {normalized : List SiteRecord}
    (h : [site].mapM (canonicalizeJson libraries.codec) = .ok normalized) : normalized = [site] := by
  obtain ⟨-, hsite, -⟩ := site_written
  rw [h] at hsite
  exact Option.some.inj hsite

theorem utf8ByteSize_ofList_le (text : List Char) :
    (String.ofList text).utf8ByteSize ≤ 4 * text.length := by
  induction text with
  | nil => exact Nat.zero_le _
  | cons c text ih =>
    have hc := c.utf8Size_le_four
    rw [← List.singleton_append, String.ofList_append, String.utf8ByteSize_append,
      ← String.singleton_eq_ofList, String.utf8ByteSize_singleton, List.length_append]
    simp only [List.length_singleton]
    omega

theorem size_document : (libraries.codec.dumpIndented document).utf8ByteSize ≤
    maximumConfigurationBackupBytes := by
  refine (utf8ByteSize_ofList_le _).trans ((Nat.mul_le_mul_left 4 site_written.2.2).trans ?_)
  decide

theorem contents_shop : shop.world.database.contents 0 = contents := by
  obtain ⟨hrevision, hsites, hcertificates, hsettings⟩ := stored_shop
  rw [Database.contents, hrevision, hsites, hcertificates, hsettings]
  rfl

end NewFile

open NewFile in
/-- A site is created next to a certificate, and it is valid. -/
theorem stored_valid_created :
    shop.world.database.listSites = [site] ∧ shop.world.database.Valid libraries :=
  ⟨stored_shop.2.1, (stored_valid libraries shop served_shop).2.1⟩

open NewFile in
/-- A backup with a site and a certificate is exported, and another service imports it. -/
theorem backup_restores_shop : ∃ encoded w',
    exportConfiguration libraries.codec calm.sqlite 0 shop.world = .ok encoded shop.world ∧
      perform (checks libraries) calm (.importConfiguration encoded) emptied.world = .ok () w' ∧
      w'.database.listSites.map (·.withoutId) = [site.withoutId] ∧
      w'.database.listCertificates.map (·.withoutId) = [certificate.withoutId] := by
  obtain ⟨hrevision, hsites, hcertificates, hsettings⟩ := stored_shop
  have hexport := exportConfiguration_returns (show ∀ st, calm.sqlite st = none from fun _ => rfl) 0
    (show shop.world.database.listSites.mapM _ = Except.ok items from hsites ▸ mapM_siteItem)
    (by rw [contents_shop]; exact size_document)
  rw [contents_shop, show contents.document items = document from rfl] at hexport
  generalize libraries.codec.dumpIndented document = encoded at hexport
  obtain ⟨normalized, hnormalized, hdecode, -, hrestores⟩ := backup_restores libraries shop emptied
    served_shop served_emptied (by rw [hrevision]; decide) (by rw [hrevision]; decide) calm 0 encoded
    shop.world hexport
  rw [hsites] at hnormalized
  obtain rfl := mapM_canonicalizeJson hnormalized
  rw [hsites, hcertificates, hsettings, if_neg (by decide), if_neg (by decide)] at hdecode
  have hattempt : attempt ((checks libraries).decodeBackup encoded) emptied.world =
      .ok ⟨[site.withoutId], [certificate.withoutId], {}⟩ emptied.world := by
    rw [show (checks libraries).decodeBackup encoded = decodeBackup libraries encoded from rfl,
      hdecode]
    rfl
  obtain ⟨w', himport⟩ : ∃ w', perform (checks libraries) calm (.importConfiguration encoded)
      emptied.world = .ok () w' := by
    rw [show perform (checks libraries) calm (.importConfiguration encoded) emptied.world = _ from
      bind_of_ok hattempt]
    exact Demotion.exists_of_returns (by decide +kernel)
  obtain ⟨hsites', hcertificates', -⟩ := hrestores calm w' himport
  rw [hcertificates] at hcertificates'
  exact ⟨encoded, w', hexport, himport, hsites', hcertificates'⟩

end AdminApi
end WebServer
