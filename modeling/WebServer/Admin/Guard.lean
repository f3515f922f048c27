import WebServer.Admin.Api

/-!
# WebServer.Admin.Guard

What a request to the admin API has to bring along before it changes anything.

* `Untouched s s'`: neither the configuration service nor the accounts have changed, and no backup
  was exported and no backend probed.
* `Quiet m`: the action leaves everything untouched, whether it returns or throws. Views are quiet,
  and so is every route without the guard header (`quiet_handleAuthenticated`).
* `answer_protected`: the only ways to touch anything.
-/

namespace WebServer
namespace AdminApi

open Act Admin Config Http Registry

/-- The stored configuration, the published snapshot and the rest of the configuration service are
as they were, the administrators are the same, and there was no backup and no probe. -/
structure Untouched (s s' : Services) : Prop where
  world : s'.world = s.world
  users : s'.accounts.users = s.accounts.users
  backups : s'.backups = s.backups
  probes : s'.probes = s.probes

theorem untouched_refl (s : Services) : Untouched s s := ⟨rfl, rfl, rfl, rfl⟩

theorem Untouched.trans {s s' s'' : Services} (h : Untouched s s') (h' : Untouched s' s'') :
    Untouched s s'' :=
  ⟨h'.world.trans h.world, h'.users.trans h.users, h'.backups.trans h.backups,
    h'.probes.trans h.probes⟩

def Quiet {α : Type} (m : Api α) : Prop :=
  ∀ s, Spec (Untouched s) m (fun _ => Untouched s) (Untouched s)

/-! ## Quiet actions -/

section Rules

variable {φ : Type} {env : Environment φ} {α β : Type}

theorem quiet_pure (a : α) : Quiet (pure a : Api α) := fun _ => spec_pure fun _ h => h

theorem quiet_throw (e : Exception) : Quiet (throw e : Api α) := fun _ _ h => h

theorem quiet_get : Quiet (get : Api Services) := fun _ => spec_get fun _ h => h

theorem quiet_attempt (x : Except Exception α) : Quiet (attempt x) :=
  fun _ => spec_attempt (fun _ _ _ h => h) fun _ h => h

theorem Quiet.bind {m : Api α} {f : α → Api β} (hm : Quiet m) (hf : ∀ a, Quiet (f a)) :
    Quiet (m >>= f) := fun s => spec_bind (hm s) fun a => hf a s

theorem quiet_ite {p : Prop} [Decidable p] {m m' : Api α} (h : Quiet m) (h' : Quiet m') :
    Quiet (if p then m else m') := by
  split
  · exact h
  · exact h'

/-- A read of the configuration. -/
theorem quiet_read (st : Statement) (f : Database → α) :
    Quiet (onWorld env (onDatabase (query env.config.sqlite st f))) := by
  intro s₀ s hs
  unfold onWorld onDatabase onPart query
  cases env.config.sqlite st with
  | none => exact hs
  | some e => exact hs

theorem quiet_sitesOf : Quiet (sitesOf env) := quiet_read _ _

/-- An operation on the accounts that creates none. -/
theorem quiet_onAccounts {m : Auth α} (hm : KeepsUsers m) : Quiet (onAccounts m) := by
  intro s₀ s hs
  have hkept := hm s.accounts.users s.accounts rfl
  unfold onAccounts onPart
  cases hrun : m s.accounts with
  | ok a accounts =>
    rw [hrun] at hkept
    exact ⟨hs.world, hkept.trans hs.users, hs.backups, hs.probes⟩
  | error e accounts =>
    rw [hrun] at hkept
    exact ⟨hs.world, hkept.trans hs.users, hs.backups, hs.probes⟩

end Rules

/-! ## Views -/

section Routes

variable {φ : Type} {env : Environment φ} (request : Request)

theorem quiet_statusView : Quiet (statusView env request) :=
  quiet_sitesOf.bind fun _ => (quiet_read _ _).bind fun _ => quiet_get.bind fun _ => quiet_pure _

theorem quiet_connectionsView : Quiet (connectionsView env request) :=
  quiet_get.bind fun _ => (quiet_attempt _).bind fun _ => quiet_pure _

theorem quiet_httpConnectionsView : Quiet (httpConnectionsView env request) :=
  (quiet_attempt _).bind fun _ => quiet_get.bind fun _ => (quiet_attempt _).bind fun _ =>
    quiet_pure _

theorem quiet_metricsView : Quiet (metricsView env request) :=
  quiet_sitesOf.bind fun _ => quiet_pure _

theorem quiet_logsView (kind : LogKind) : Quiet (logsView env request kind) := by
  unfold logsView
  split
  · exact quiet_pure _
  · exact (quiet_attempt _).bind fun _ => (quiet_attempt _).bind fun _ =>
      (quiet_attempt _).bind fun _ => quiet_pure _

theorem quiet_sitesView : Quiet (sitesView env request) :=
  quiet_sitesOf.bind fun _ => (quiet_attempt _).bind fun _ => quiet_pure _

theorem quiet_certificatesView : Quiet (certificatesView env request) :=
  (quiet_read _ _).bind fun _ => quiet_pure _

theorem quiet_settingsView : Quiet (settingsView env request) :=
  (quiet_read _ _).bind fun _ => quiet_pure _

/-! ## Routes without the guard -/

variable {request} (hguard : hasMutationGuard request = false)
include hguard

theorem quiet_withMutationGuard (m : Api Response) : Quiet (withMutationGuard env request m) := by
  rw [withMutationGuard, hguard]
  exact quiet_pure _

theorem quiet_handleSites (path : Text) : Quiet (handleSites env request path) := by
  refine quiet_ite (quiet_settingsView request) ?_
  refine quiet_ite (quiet_withMutationGuard hguard _) ?_
  refine quiet_ite (quiet_withMutationGuard hguard _) ?_
  split
  · exact quiet_withMutationGuard hguard _
  · exact quiet_withMutationGuard hguard _
  · exact quiet_pure _

theorem quiet_handleCertificates (path : Text) : Quiet (handleCertificates env request path) := by
  refine quiet_ite (quiet_certificatesView request) ?_
  refine quiet_ite (quiet_withMutationGuard hguard _) ?_
  split
  · exact quiet_withMutationGuard hguard _
  · exact quiet_withMutationGuard hguard _
  · exact quiet_handleSites hguard path

theorem quiet_handleAuthenticated (path token : Text) :
    Quiet (handleAuthenticated env request path token) := by
  refine quiet_ite (quiet_withMutationGuard hguard _) ?_
  refine quiet_ite (quiet_statusView request) ?_
  refine quiet_ite (quiet_pure _) ?_
  refine quiet_ite (quiet_connectionsView request) ?_
  refine quiet_ite (quiet_httpConnectionsView request) ?_
  refine quiet_ite (quiet_metricsView request) ?_
  refine quiet_ite (quiet_withMutationGuard hguard _) ?_
  refine quiet_ite (quiet_withMutationGuard hguard _) ?_
  refine quiet_ite (quiet_logsView request .access) ?_
  refine quiet_ite (quiet_logsView request .error) ?_
  refine quiet_ite (quiet_withMutationGuard hguard _) ?_
  refine quiet_ite (quiet_sitesView request) ?_
  refine quiet_ite (quiet_withMutationGuard hguard _) ?_
  exact quiet_handleCertificates hguard path

end Routes

/-! ## Requests -/

/-- The requests that are answered without a session. -/
def Request.isPublic (request : Request) : Bool :=
  request.is (requestPath request) .get "/api/auth/setup-state" ||
    request.is (requestPath request) .post "/api/auth/setup" ||
    request.is (requestPath request) .post "/api/auth/login"

/-- The session of the request is one that `authorize` accepts. -/
def accepted {φ : Type} (env : Environment φ) (request : Request) (s : Services) : Bool :=
  s.accounts.accepts (env.auth.now 0) (sessionToken request)

/-- The two entry points. -/
inductive Entry where
  | handle
  | handleAsync

def answer {φ : Type} (env : Environment φ) (request : Request) (remoteIp : Text) (s : Services) :
    Entry → Response × Services
  | .handle => handle env request remoteIp s
  | .handleAsync => handleAsync env request remoteIp s

section Requests

variable {φ : Type} (env : Environment φ) (request : Request) (remoteIp : Text) (s : Services)

/-- Sessions are renewed and purged, and nothing else happens. -/
theorem authorizeRequest_eq :
    ∃ s', authorizeRequest env request s = .ok (accepted env request s) s' ∧ Untouched s s' := by
  obtain ⟨haccepted, hframe⟩ := authorize_eq env.auth (sessionToken request) s.accounts
  refine ⟨{ s with accounts := (authorize env.auth (sessionToken request) s.accounts).2 }, ?_, ?_⟩
  · rw [accepted, ← haccepted]
    rfl
  · exact ⟨rfl, by rw [hframe], rfl, rfl⟩

theorem quiet_loginRoute (username password : String) :
    Quiet (loginRoute env request username password remoteIp) := by
  intro s₀ s hs
  have hlogin := quiet_onAccounts (keepsUsers_login env.auth username password remoteIp)
    s₀ s hs
  unfold loginRoute
  revert hlogin
  cases onAccounts (login env.auth username password remoteIp) s with
  | ok token s' => exact id
  | error e s' =>
    intro hlogin
    cases e <;> exact hlogin

/-- The setup creates an account only where there is none. -/
theorem spec_setup :
    Spec (Untouched s) (withMutationGuard env request (do
        let (username, password) ← attempt (credentials env request)
        setupRoute env request username password remoteIp))
      (fun _ s' => Untouched s s' ∨ hasMutationGuard request = true ∧ s.accounts.users = [])
      (fun s' => Untouched s s' ∨ hasMutationGuard request = true ∧ s.accounts.users = []) := by
  cases hguard : hasMutationGuard request with
  | false =>
    exact spec_conseq (quiet_withMutationGuard hguard _ s) (fun _ h => h) (fun _ _ h => .inl h)
      fun _ h => .inl h
  | true =>
    rw [withMutationGuard, hguard]
    refine spec_bind (M := fun _ => Untouched s)
      (spec_attempt (fun _ _ _ h => h) fun _ h => .inl h) fun credentials => ?_
    refine spec_bind (M := fun _ s' => Untouched s s' ∨ true = true ∧ s.accounts.users = [])
      (spec_onPart fun s₁ hs₁ => ?_) fun token => spec_pure fun _ h => h
    refine spec_conseq (spec_createFirstAdmin env.auth s.accounts.users credentials.1
      credentials.2 remoteIp) ?_ ?_ ?_
    · rintro _ rfl
      exact hs₁.users
    · exact fun _ accounts h => h.imp (fun h => ⟨hs₁.world, h, hs₁.backups, hs₁.probes⟩)
        fun h => ⟨rfl, h⟩
    · exact fun accounts h => h.imp (fun h => ⟨hs₁.world, h, hs₁.backups, hs₁.probes⟩)
        fun h => ⟨rfl, h⟩

/-- What a request may touch, and why. -/
def MayTouch : Prop :=
  hasMutationGuard request = true ∧
    (accepted env request s = true ∨
      request.is (requestPath request) .post "/api/auth/setup" = true ∧ s.accounts.users = [])

/-- Behind the authorization, anything may happen only with the guard. -/
theorem spec_authorized {m : Api Response} (hm : hasMutationGuard request = false → Quiet m) :
    Spec (· = s) (do
        let accepted ← authorizeRequest env request
        if accepted then m else pure (unauthorized env request))
      (fun _ s' => Untouched s s' ∨ MayTouch env request s)
      (fun s' => Untouched s s' ∨ MayTouch env request s) := by
  obtain ⟨s₁, hrun, hs₁⟩ := authorizeRequest_eq env request s
  intro s' hs'
  rw [hs', bind_of_ok hrun]
  cases haccepted : accepted env request s with
  | false => exact .inl hs₁
  | true =>
    cases hguard : hasMutationGuard request with
    | true =>
      have htouch : MayTouch env request s := ⟨hguard, .inl haccepted⟩
      simp only [if_true]
      cases m s₁ with
      | ok response s' => exact .inr htouch
      | error e s' => exact .inr htouch
    | false =>
      have hquiet := hm hguard s s₁ hs₁
      simp only [if_true]
      cases hm : m s₁ with
      | ok response s' => rw [hm] at hquiet; exact .inl hquiet
      | error e s' => rw [hm] at hquiet; exact .inl hquiet

theorem spec_tryHandle :
    Spec (· = s) (tryHandle env request remoteIp)
      (fun _ s' => Untouched s s' ∨ MayTouch env request s)
      (fun s' => Untouched s s' ∨ MayTouch env request s) := by
  have hquiet : ∀ {m : Api Response}, Quiet m → Spec (· = s) m
      (fun _ s' => Untouched s s' ∨ MayTouch env request s)
      (fun s' => Untouched s s' ∨ MayTouch env request s) := fun hm =>
    spec_conseq (hm s) (by rintro _ rfl; exact untouched_refl _) (fun _ _ h => .inl h)
      fun _ h => .inl h
  unfold tryHandle
  simp only []
  split
  · exact hquiet ((quiet_onAccounts (keepsUsers_setupRequired env.auth)).bind fun _ => quiet_pure _)
  split
  · rename_i hsetup
    refine spec_conseq (spec_setup env request remoteIp s) (by rintro _ rfl; exact untouched_refl _) ?_ ?_
    · exact fun _ s' h => h.imp id fun h => ⟨h.1, .inr ⟨hsetup, h.2⟩⟩
    · exact fun s' h => h.imp id fun h => ⟨h.1, .inr ⟨hsetup, h.2⟩⟩
  split
  · refine hquiet ?_
    cases hguard : hasMutationGuard request with
    | false => exact quiet_withMutationGuard hguard _
    | true =>
      rw [withMutationGuard, hguard]
      exact (quiet_attempt _).bind fun _ => quiet_loginRoute env request remoteIp _ _
  · exact spec_authorized env request s fun hguard => quiet_handleAuthenticated hguard _ _

theorem answer_touched (entry : Entry) :
    Untouched s (answer env request remoteIp s entry).2 ∨ MayTouch env request s := by
  have hhandle : Untouched s (handle env request remoteIp s).2 ∨ MayTouch env request s := by
    have h := spec_tryHandle env request remoteIp s s rfl
    unfold handle
    cases htry : tryHandle env request remoteIp s with
    | ok response s' => rw [htry] at h; exact h
    | error e s' => rw [htry] at h; exact h
  cases entry with
  | handle => exact hhandle
  | handleAsync =>
    simp only [answer, handleAsync]
    split
    · have h := spec_authorized env request s
        (m := withMutationGuard env request (probeRoute env request))
        (fun hguard => quiet_withMutationGuard hguard _) s rfl
      rw [← tryProbe] at h
      cases htry : tryProbe env request s with
      | ok response s' => rw [htry] at h; exact h
      | error e s' => rw [htry] at h; exact h
    · exact hhandle

/-- Without a session a request that is not public gets nowhere. -/
theorem answer_refused (haccepted : accepted env request s = false)
    (hpublic : request.isPublic = false) (entry : Entry) :
    (answer env request remoteIp s entry).1 = unauthorized env request ∧
      Untouched s (answer env request remoteIp s entry).2 := by
  obtain ⟨s₁, hrun, hs₁⟩ := authorizeRequest_eq env request s
  rw [haccepted] at hrun
  simp only [Request.isPublic, Bool.or_eq_false_iff] at hpublic
  have htry : tryHandle env request remoteIp s = .ok (unauthorized env request) s₁ := by
    simp only [tryHandle, hpublic, Bool.false_eq_true, if_false]
    rw [bind_of_ok hrun]
    rfl
  have hprobe : tryProbe env request s = .ok (unauthorized env request) s₁ := by
    rw [tryProbe, bind_of_ok hrun]
    rfl
  cases entry with
  | handle =>
    simp only [answer, handle, htry]
    exact ⟨trivial, hs₁⟩
  | handleAsync =>
    simp only [answer, handleAsync, handle, htry, hprobe, ite_self]
    exact ⟨trivial, hs₁⟩

end Requests

/-- Through either entry point, in any state: what touches anything carries the guard header and an
accepted session, or is the setup where there is no administrator; and without an accepted session
every request but the public ones is answered alike, whatever the rest of the program is. -/
theorem answer_protected {φ : Type} (env : Environment φ) (request : Request) (remoteIp : Text)
    (s : Services) (entry : Entry) :
    (¬ Untouched s (answer env request remoteIp s entry).2 →
      hasMutationGuard request = true ∧
        (accepted env request s = true ∨
          request.is (requestPath request) .post "/api/auth/setup" = true ∧
            s.accounts.users = [])) ∧
      (accepted env request s = false → request.isPublic = false →
        (answer env request remoteIp s entry).1.status = 401 ∧
          ∀ (env' : Environment φ) (remoteIp' : Text) (s' : Services),
            env'.lib = env.lib → accepted env' request s' = false →
              (answer env' request remoteIp' s' entry).1 =
                (answer env request remoteIp s entry).1) := by
  refine ⟨fun htouched =>
    (answer_touched env request remoteIp s entry).resolve_left htouched, ?_⟩
  intro haccepted hpublic
  obtain ⟨hanswer, -⟩ := answer_refused env request remoteIp s haccepted hpublic entry
  rw [hanswer]
  refine ⟨rfl, fun env' remoteIp' s' hlib haccepted' => ?_⟩
  obtain ⟨hanswer', -⟩ := answer_refused env' request remoteIp' s' haccepted' hpublic entry
  rw [hanswer', unauthorized, unauthorized, errorResponse, errorResponse, jsonResponse, jsonResponse,
    hlib]

end AdminApi
end WebServer
