import WebServer.Admin.Auth
import WebServer.Lib.Run
import Mathlib.Data.List.Perm.Basic
import Mathlib.Data.List.Count

/-!
# WebServer.Admin.Sessions

The life of an admin session, over every run of logins, authorizations and logouts.

The history of a run is what an observer of the service writes down: which token was issued, used,
logged out or lost, and when. `lastUse` reads the life of one token off the history alone; it knows
nothing of the table. `Tracked` ties the table to the history, and `session_lifecycle` says that the
table answers as the history demands.

`sessions_` is an unordered map: `rehash` puts its entries in any order between two calls, so
nothing here depends on which of several sessions used equally long ago is found first.
-/

namespace WebServer
namespace Admin

open Act Http Run

inductive Entry where
  | issued (token : Text) (now : Int)
  | used (token : Text) (now : Int)
  | loggedOut (token : Text)
  | evicted (token : Text) (now : Int)
  deriving DecidableEq

/-- When the token was issued or last used, unless it was never issued, logged out or evicted. The
newest entry comes first. -/
def lastUse (token : Text) : List Entry → Option Int
  | [] => none
  | .issued t now :: older => if t = token then some now else lastUse token older
  | .used t now :: older =>
    if t = token then (lastUse token older).map fun _ => now else lastUse token older
  | .loggedOut t :: older => if t = token then none else lastUse token older
  | .evicted t _ :: older => if t = token then none else lastUse token older

/-- The tokens that were ever issued. -/
def issuedTokens (history : List Entry) : List Text :=
  history.filterMap fun entry =>
    match entry with
    | .issued token _ => some token
    | _ => none

/-- The token was last used less than a lifetime ago. -/
def Live (options : AuthSessionOptions) (history : List Entry) (now : Int) (token : Text) : Prop :=
  ∃ last, lastUse token history = some last ∧ now < last + options.lifetime

/-- Evicting `victim` at `now` was right: as many sessions were live as there may be, and no other
of them was used longer ago. -/
structure Overfull (options : AuthSessionOptions) (history : List Entry) (now : Int)
    (victim : Text) (live : List Text) : Prop where
  nodup : live.Nodup
  full : live.length = options.maximumActiveSessions
  exact : ∀ token, token ∈ live ↔ Live options history now token
  member : victim ∈ live
  oldest : ∀ token ∈ live, ∀ last first, lastUse token history = some last →
    lastUse victim history = some first → first ≤ last

structure Service where
  accounts : Accounts
  /-- the latest reading of the clock -/
  clock : Int
  history : List Entry

/-- A service that was just constructed. -/
def Service.start (users : List AdminUserRecord) (clock : Int) : Service :=
  ⟨⟨users, [], []⟩, clock, []⟩

inductive Call where
  | createFirstAdmin (env : AuthEnv) (username password : String) (remoteIp : Text)
  | login (env : AuthEnv) (username password : String) (remoteIp : Text)
  | authorize (env : AuthEnv) (token : Text)
  | logout (token : Text)
  | rehash (sessions : List (Text × Int))

/-- The tokens of the sessions that have not expired. -/
def unexpired (now : Int) (sessions : List (Text × Int)) : List Text :=
  (sessions.filter fun session => now < session.2).map Prod.fst

/-- The sessions that have not expired and are gone nevertheless. -/
def lost (now : Int) (before after : List (Text × Int)) : List Text :=
  (unexpired now before).filter fun token => token ∉ after.map Prod.fst

/-- A session was issued at `now`. -/
def Service.issued (s : Service) (now : Int) : EStateM.Result Exception Accounts Text → Option Service
  | .ok token accounts => some
      { accounts := accounts, clock := now
        history := .issued token now ::
          ((lost now s.accounts.sessions accounts.sessions).map fun t => .evicted t now) ++ s.history }
  | .error _ _ => none

def Service.step (s : Service) : Call → Option Service
  | .createFirstAdmin env username password remoteIp =>
    s.issued (env.now 1) (createFirstAdmin env username password remoteIp s.accounts)
  | .login env username password remoteIp =>
    s.issued (env.now 2) (login env username password remoteIp s.accounts)
  | .authorize env token =>
    let (accepted, accounts) := authorize env token s.accounts
    some ⟨accounts, env.now 0, if accepted then .used token (env.now 0) :: s.history else s.history⟩
  | .logout token => some { s with
      accounts := logout token s.accounts, history := .loggedOut token :: s.history }
  | .rehash sessions =>
    if sessions.Perm s.accounts.sessions then
      some { s with accounts := { s.accounts with sessions := sessions } }
    else none

/-- The call uses the options of the service and the clock does not go back. -/
def Timely (options : AuthSessionOptions) (s : Service) (env : AuthEnv) (now : Int) : Prop :=
  env.options = options ∧ s.clock ≤ now

/-- The random bytes are as many as were asked for, and make a token that was never issued. -/
def Fresh (s : Service) (env : AuthEnv) : Prop :=
  ∀ bytes, env.randomBytes 1 tokenBytes = .ok bytes →
    bytes.length = tokenBytes ∧ toHex bytes ∉ issuedTokens s.history

def Ordinary (options : AuthSessionOptions) (s : Service) : Call → Prop
  | .createFirstAdmin env _ _ _ => Timely options s env (env.now 1) ∧ Fresh s env
  | .login env _ _ _ => Timely options s env (env.now 2) ∧ Fresh s env
  | .authorize env _ => Timely options s env (env.now 0)
  | .logout _ => True
  | .rehash _ => True

deriving instance DecidableEq for AuthSessionOptions

instance (options : AuthSessionOptions) (s : Service) (env : AuthEnv) (now : Int) :
    Decidable (Timely options s env now) := inferInstanceAs (Decidable (_ ∧ _))

instance (s : Service) (env : AuthEnv) : Decidable (Fresh s env) :=
  match h : env.randomBytes 1 tokenBytes with
  | .ok bytes => decidable_of_iff (bytes.length = tokenBytes ∧ toHex bytes ∉ issuedTokens s.history)
      ⟨fun hb b heq => by rw [h] at heq; cases heq; exact hb, fun hf => hf bytes h⟩
  | .error _ => isTrue fun b heq => by rw [h] at heq; cases heq

instance (options : AuthSessionOptions) (s : Service) : ∀ call, Decidable (Ordinary options s call)
  | .createFirstAdmin _ _ _ _ => inferInstanceAs (Decidable (_ ∧ _))
  | .login _ _ _ _ => inferInstanceAs (Decidable (_ ∧ _))
  | .authorize env _ => inferInstanceAs (Decidable (Timely options s env (env.now 0)))
  | .logout _ => isTrue trivial
  | .rehash _ => isTrue trivial

/-! ## The history of one token -/

theorem lastUse_issued {token : Text} {last : Int} {history : List Entry}
    (h : lastUse token history = some last) : token ∈ issuedTokens history := by
  induction history generalizing last with
  | nil => cases h
  | cons entry history ih =>
    -- an entry about another token passes the question on to the older ones
    have holder : ∀ last, lastUse token history = some last →
        token ∈ issuedTokens (entry :: history) := by
      intro last h
      obtain ⟨e, he, htoken⟩ := List.mem_filterMap.mp (ih h)
      exact List.mem_filterMap.mpr ⟨e, List.mem_cons_of_mem _ he, htoken⟩
    cases entry with
    | issued t now =>
      simp only [lastUse] at h
      split at h
      · rename_i ht
        exact List.mem_filterMap.mpr ⟨.issued t now, by simp, congrArg some ht⟩
      · exact holder last h
    | used t now =>
      simp only [lastUse] at h
      split at h
      · obtain ⟨last', h', -⟩ := Option.map_eq_some_iff.mp h
        exact holder last' h'
      · exact holder last h
    | loggedOut t =>
      simp only [lastUse] at h
      split at h
      · cases h
      · exact holder last h
    | evicted t now =>
      simp only [lastUse] at h
      split at h
      · cases h
      · exact holder last h

theorem toHex_ne_nil {bytes : Text} (h : bytes.length = tokenBytes) : toHex bytes ≠ [] := by
  cases bytes with
  | nil => cases h
  | cons b bytes => simp [toHex]

/-! ## The table -/

section Table

variable {env : AuthEnv} {s s' : Accounts} {token : Text} {now : Int}

/-- The session found expires no later than any other. -/
theorem oldestSession_spec {sessions : List (Text × Int)} (h : sessions ≠ []) :
    ∃ oldest ∈ sessions, oldestSession sessions = some oldest ∧
      ∀ other ∈ sessions, oldest.2 ≤ other.2 := by
  induction sessions with
  | nil => exact absurd rfl h
  | cons session sessions ih =>
    by_cases hs : sessions = []
    · subst hs
      exact ⟨session, by simp, rfl, by simp⟩
    obtain ⟨oldest, hmem, holdest, hle⟩ := ih hs
    simp only [oldestSession, holdest]
    split
    · rename_i hlt
      refine ⟨oldest, List.mem_cons_of_mem _ hmem, rfl, ?_⟩
      intro other hother
      rcases List.mem_cons.mp hother with rfl | hother
      · exact le_of_lt hlt
      · exact hle other hother
    · rename_i hge
      refine ⟨session, by simp, rfl, ?_⟩
      intro other hother
      rcases List.mem_cons.mp hother with rfl | hother
      · exact le_refl _
      · exact le_trans (not_lt.mp hge) (hle other hother)

/-- Either there is room, or one session that expires no later than the others makes some. -/
theorem evictSession_cases (hmax : 0 < env.options.maximumActiveSessions) (s : Accounts) :
    ((evictSession env s).sessions = s.sessions ∧
      s.sessions.length < env.options.maximumActiveSessions) ∨
    ∃ oldest ∈ s.sessions, (∀ other ∈ s.sessions, oldest.2 ≤ other.2) ∧
      env.options.maximumActiveSessions ≤ s.sessions.length ∧
      (evictSession env s).sessions = s.sessions.filter fun session => session.1 != oldest.1 := by
  unfold evictSession
  split
  · rename_i hfull
    have hne : s.sessions ≠ [] := List.ne_nil_of_length_pos (lt_of_lt_of_le hmax hfull)
    obtain ⟨oldest, hmem, holdest, hle⟩ := oldestSession_spec hne
    right
    exact ⟨oldest, hmem, hle, hfull, by rw [holdest]⟩
  · rename_i hroom
    exact .inl ⟨rfl, not_le.mp hroom⟩

theorem issueSession_ok (h : issueSession env now s = .ok token s') :
    ∃ bytes, env.randomBytes 1 tokenBytes = .ok bytes ∧ token = toHex bytes ∧
      s'.sessions = (token, now + env.options.lifetime) ::
        (evictSession env (purgeExpiredSessions now s)).sessions.filter fun session =>
          session.1 != token := by
  obtain ⟨⟨⟩, s₁, h₁, h⟩ := bind_eq_ok h
  cases h₁
  obtain ⟨⟨⟩, s₂, h₂, h⟩ := bind_eq_ok h
  cases h₂
  obtain ⟨t, s₃, h₃, h⟩ := bind_eq_ok h
  obtain ⟨hbytes, rfl⟩ := attempt_eq_ok h₃
  obtain ⟨⟨⟩, s₄, h₄, h⟩ := bind_eq_ok h
  cases h₄
  cases h
  cases hrandom : env.randomBytes 1 tokenBytes with
  | error e => rw [hrandom] at hbytes; cases hbytes
  | ok bytes =>
    rw [hrandom] at hbytes
    cases hbytes
    exact ⟨bytes, rfl, rfl, rfl⟩

theorem checkRateLimit_sessions {remoteIp : Text} {u : Unit}
    (h : checkRateLimit now remoteIp s = .ok u s') : s'.sessions = s.sessions := by
  obtain ⟨s₀, s₁, h₁, h⟩ := bind_eq_ok h
  cases h₁
  cases hentry : s.failures.lookup remoteIp with
  | none =>
    simp only [hentry] at h
    cases h
    rfl
  | some entry =>
    simp only [hentry] at h
    by_cases hlong : fiveMinutes < now - entry.windowStarted
    · rw [if_pos hlong] at h
      cases h
      rfl
    · rw [if_neg hlong] at h
      rw [failing_eq_ok h]

theorem authorize_cases (env : AuthEnv) (token : Text) (s : Accounts) :
    authorize env token s = (false, s) ∨
    (token ≠ [] ∧ token ∈ (purgeExpiredSessions (env.now 0) s).sessions.map Prod.fst ∧
      authorize env token s = (true, { purgeExpiredSessions (env.now 0) s with
        sessions := (purgeExpiredSessions (env.now 0) s).sessions.map fun session =>
          if session.1 = token then (token, env.now 0 + env.options.lifetime) else session })) ∨
    authorize env token s = (false, purgeExpiredSessions (env.now 0) s) := by
  unfold authorize
  split
  · exact .inl rfl
  · rename_i hnew
    right
    dsimp only
    split
    · rename_i hany
      obtain ⟨session, hmem, hkey⟩ := List.any_eq_true.mp hany
      exact .inl ⟨hnew, List.mem_map.mpr ⟨session, hmem, by simpa using hkey⟩, rfl⟩
    · exact .inr rfl

/-- What is done before a session is issued leaves the sessions alone. -/
theorem login_ok {username password : String} {remoteIp : Text}
    (h : login env username password remoteIp s = .ok token s') :
    ∃ s₁ : Accounts, s₁.sessions = s.sessions ∧ issueSession env (env.now 2) s₁ = .ok token s' := by
  obtain ⟨⟨⟩, s₁, h₁, h⟩ := bind_eq_ok h
  have hsessions := checkRateLimit_sessions h₁
  obtain ⟨s₂, s₃, h₂, h⟩ := bind_eq_ok h
  cases h₂
  cases hpassword : checkPassword env username password s₁ with
  | ok u =>
    simp only [hpassword] at h
    obtain ⟨⟨⟩, s₄, h₄, h⟩ := bind_eq_ok h
    cases h₄
    exact ⟨clearFailures remoteIp s₁, hsessions, h⟩
  | error e =>
    simp only [hpassword] at h
    cases e with
    | invalidArgument what =>
      obtain ⟨⟨⟩, s₄, -, h⟩ := bind_eq_ok h
      cases h
    | json => cases h
    | logicError what => cases h
    | runtimeError what => cases h

theorem createFirstAdmin_ok {username password : String} {remoteIp : Text}
    (h : createFirstAdmin env username password remoteIp s = .ok token s') :
    ∃ s₁ : Accounts, s₁.sessions = s.sessions ∧ issueSession env (env.now 1) s₁ = .ok token s' := by
  obtain ⟨⟨⟩, s₁, h₁, h⟩ := bind_eq_ok h
  obtain ⟨⟨⟩, s₂, h₂, h⟩ := bind_eq_ok h
  have hsessions := checkRateLimit_sessions h₂
  rw [(attempt_eq_ok h₁).2] at hsessions
  obtain ⟨count, s₃, h₃, h⟩ := bind_eq_ok h
  have hcount : s₃ = s₂ := by
    obtain ⟨⟨⟩, s₄, h₄, h₃⟩ := bind_eq_ok h₃
    rw [← failing_eq_ok h₄]
    cases h₃
    rfl
  obtain ⟨⟨⟩, s₄, h₄, h⟩ := bind_eq_ok h
  obtain ⟨salt, s₅, h₅, h⟩ := bind_eq_ok h
  obtain ⟨hash, s₆, h₆, h⟩ := bind_eq_ok h
  obtain ⟨⟨⟩, s₇, h₇, h⟩ := bind_eq_ok h
  obtain ⟨⟨⟩, s₈, h₈, h⟩ := bind_eq_ok h
  obtain ⟨⟨⟩, s₉, h₉, h⟩ := bind_eq_ok h
  cases h₈
  cases h₉
  refine ⟨_, ?_, h⟩
  change s₇.sessions = _
  rw [failing_eq_ok h₇, (attempt_eq_ok h₆).2, (attempt_eq_ok h₅).2, failing_eq_ok h₄, hcount]
  exact hsessions

end Table

/-! ## The table follows the history -/

/-- Every eviction of the history was right when it happened. -/
def Justified (options : AuthSessionOptions) (history : List Entry) : Prop :=
  ∀ newer victim now older, history = newer ++ .evicted victim now :: older →
    ∃ live, Overfull options older now victim live

structure Tracked (options : AuthSessionOptions) (s : Service) : Prop where
  nodup : (s.accounts.sessions.map Prod.fst).Nodup
  bounded : s.accounts.sessions.length ≤ options.maximumActiveSessions
  known : ∀ session ∈ s.accounts.sessions, session.1 ≠ [] ∧
    ∃ last, lastUse session.1 s.history = some last ∧ session.2 = last + options.lifetime
  /-- a live token has its session; only expired ones were purged -/
  kept : ∀ token last, lastUse token s.history = some last →
    (token, last + options.lifetime) ∈ s.accounts.sessions ∨ last + options.lifetime ≤ s.clock
  justified : Justified options s.history

section Tracked

variable {options : AuthSessionOptions} {s : Service} {now : Int} {token : Text}

theorem Justified.cons {entry : Entry} {history : List Entry} (h : Justified options history)
    (hentry : ∀ victim now, entry = .evicted victim now →
      ∃ live, Overfull options history now victim live) : Justified options (entry :: history) := by
  intro newer victim now older heq
  cases newer with
  | nil =>
    obtain ⟨rfl, rfl⟩ := List.cons.inj heq
    exact hentry victim now rfl
  | cons e newer =>
    obtain ⟨-, heq⟩ := List.cons.inj heq
    exact h newer victim now older heq

theorem tracked_start (options : AuthSessionOptions) (users : List AdminUserRecord) (clock : Int) :
    Tracked options (Service.start users clock) where
  nodup := List.nodup_nil
  bounded := Nat.zero_le _
  known := by simp [Service.start]
  kept := by simp [Service.start, lastUse]
  justified := by
    intro newer victim now older heq
    exact absurd heq.symm (by simp [Service.start])

theorem mem_unexpired {sessions : List (Text × Int)} :
    token ∈ unexpired now sessions ↔ ∃ expires, (token, expires) ∈ sessions ∧ now < expires := by
  simp [unexpired]

/-- The sessions that have not expired are those of the live tokens. -/
theorem Tracked.mem_unexpired_iff (h : Tracked options s) (hnow : s.clock ≤ now) :
    token ∈ unexpired now s.accounts.sessions ↔ Live options s.history now token := by
  rw [mem_unexpired]
  constructor
  · rintro ⟨expires, hmem, hlt⟩
    obtain ⟨-, last, hlast, hexpires⟩ := h.known _ hmem
    exact ⟨last, hlast, lt_of_lt_of_eq hlt hexpires⟩
  · rintro ⟨last, hlast, hlt⟩
    rcases h.kept token last hlast with hmem | hpast
    · exact ⟨_, hmem, hlt⟩
    · exact absurd (lt_of_lt_of_le hlt hpast) (not_lt.mpr hnow)

theorem Tracked.live_ne_nil (h : Tracked options s) (hnow : s.clock ≤ now)
    (hlive : Live options s.history now token) : token ≠ [] := by
  obtain ⟨expires, hmem, -⟩ := mem_unexpired.mp ((h.mem_unexpired_iff hnow).mpr hlive)
  exact (h.known _ hmem).1

theorem accepts_iff {accounts : Accounts} :
    accounts.accepts now token = true ↔ token ≠ [] ∧ token ∈ unexpired now accounts.sessions := by
  simp [Accounts.accepts, unexpired]

/-- A token is accepted while it is live. -/
theorem Tracked.authorize_iff (h : Tracked options s) {env : AuthEnv}
    (hnow : s.clock ≤ env.now 0) :
    (authorize env token s.accounts).1 = true ↔ Live options s.history (env.now 0) token := by
  rw [(authorize_eq env token s.accounts).1, accepts_iff, h.mem_unexpired_iff hnow]
  exact ⟨And.right, fun hlive => ⟨h.live_ne_nil hnow hlive, hlive⟩⟩

theorem Tracked.token_issued (h : Tracked options s) {session : Text × Int}
    (hmem : session ∈ s.accounts.sessions) : session.1 ∈ issuedTokens s.history := by
  obtain ⟨-, last, hlast, -⟩ := h.known session hmem
  exact lastUse_issued hlast

/-! ## Calls -/

theorem Tracked.logout (h : Tracked options s) (token : Text) :
    Tracked options { s with
      accounts := Admin.logout token s.accounts, history := .loggedOut token :: s.history } where
  nodup := (List.filter_sublist.map Prod.fst).nodup h.nodup
  bounded := le_trans (List.length_filter_le _ _) h.bounded
  known := by
    intro session hmem
    obtain ⟨hmem, hne⟩ := List.mem_filter.mp hmem
    have hne : token ≠ session.1 := fun heq => by simp [heq] at hne
    simp only [lastUse, if_neg hne]
    exact h.known session hmem
  kept := by
    intro t last hlast
    simp only [lastUse] at hlast
    split at hlast
    · cases hlast
    · rename_i hne
      rcases h.kept t last hlast with hmem | hpast
      · exact .inl (List.mem_filter.mpr ⟨hmem, by simpa using fun heq => hne heq.symm⟩)
      · exact .inr hpast
  justified := h.justified.cons fun _ _ heq => nomatch heq

theorem Tracked.rehash (h : Tracked options s) {sessions : List (Text × Int)}
    (hperm : sessions.Perm s.accounts.sessions) :
    Tracked options { s with accounts := { s.accounts with sessions := sessions } } where
  nodup := (hperm.map Prod.fst).nodup_iff.mpr h.nodup
  bounded := hperm.length_eq ▸ h.bounded
  known := fun session hmem => h.known session (hperm.mem_iff.mp hmem)
  kept := by
    intro t last hlast
    rcases h.kept t last hlast with hmem | hpast
    · exact .inl (hperm.mem_iff.mpr hmem)
    · exact .inr hpast
  justified := h.justified

/-- Forgetting what has expired. -/
theorem Tracked.purge (h : Tracked options s) (hnow : s.clock ≤ now) :
    Tracked options { s with accounts := purgeExpiredSessions now s.accounts, clock := now } where
  nodup := (List.filter_sublist.map Prod.fst).nodup h.nodup
  bounded := le_trans (List.length_filter_le _ _) h.bounded
  known := fun session hmem => h.known session (List.mem_filter.mp hmem).1
  kept := by
    intro t last hlast
    rcases h.kept t last hlast with hmem | hpast
    · by_cases hlt : now < last + options.lifetime
      · exact .inl (List.mem_filter.mpr ⟨hmem, by simpa using hlt⟩)
      · exact .inr (not_lt.mp hlt)
    · exact .inr (le_trans hpast hnow)
  justified := h.justified

/-- A session that is used expires a lifetime later. -/
theorem Tracked.extend (h : Tracked options s) {last : Int}
    (hlast : lastUse token s.history = some last) (hnew : token ≠ [])
    (htoken : token ∈ s.accounts.sessions.map Prod.fst) :
    Tracked options { s with
      accounts := { s.accounts with sessions := s.accounts.sessions.map fun session =>
        if session.1 = token then (token, now + options.lifetime) else session }
      history := .used token now :: s.history } where
  nodup := by
    rw [List.map_map]
    convert h.nodup using 2
    funext session
    simp only [Function.comp_apply]
    split
    · rename_i heq; exact heq.symm
    · rfl
  bounded := by simpa using h.bounded
  known := by
    intro session hmem
    obtain ⟨old, hold, rfl⟩ := List.mem_map.mp hmem
    simp only [lastUse]
    split
    · exact ⟨hnew, now, by simp [hlast], rfl⟩
    · rename_i hne
      rw [if_neg fun heq => hne heq.symm]
      exact h.known old hold
  kept := by
    intro t last' hlast'
    simp only [lastUse] at hlast'
    split at hlast'
    · rename_i heq
      subst heq
      rw [hlast] at hlast'
      cases hlast'
      obtain ⟨session, hmem, hkey⟩ := List.mem_map.mp htoken
      exact .inl (List.mem_map.mpr ⟨session, hmem, by simp [hkey]⟩)
    · rename_i hne
      rcases h.kept t last' hlast' with hmem | hpast
      · exact .inl (List.mem_map.mpr ⟨_, hmem, if_neg fun heq => hne heq.symm⟩)
      · exact .inr hpast
  justified := h.justified.cons fun _ _ heq => nomatch heq

theorem Tracked.authorize (h : Tracked options s) {env : AuthEnv} (henv : env.options = options)
    (hnow : s.clock ≤ env.now 0) (token : Text) :
    Tracked options ⟨(Admin.authorize env token s.accounts).2, env.now 0,
      if (Admin.authorize env token s.accounts).1 then .used token (env.now 0) :: s.history
      else s.history⟩ := by
  have hpurged := h.purge hnow
  have haccepted : (Admin.authorize env token s.accounts).1 = true ↔ _ := h.authorize_iff hnow
  rcases authorize_cases env token s.accounts with heq | ⟨hnew, htoken, heq⟩ | heq
  · rw [heq]
    -- nothing is purged here; the sessions that expired meanwhile stay for now
    exact ⟨h.nodup, h.bounded, h.known, fun t last hlast => (h.kept t last hlast).imp_right
      fun hpast => le_trans hpast hnow, h.justified⟩
  · rw [heq] at haccepted ⊢
    obtain ⟨last, hlast, -⟩ := haccepted.mp rfl
    rw [henv]
    exact hpurged.extend hlast hnew htoken
  · rw [heq]
    exact hpurged

theorem lastUse_evicted (gone : List Text) (history : List Entry) :
    lastUse token ((gone.map fun t => .evicted t now) ++ history) =
      if token ∈ gone then none else lastUse token history := by
  induction gone with
  | nil => rfl
  | cons t gone ih =>
    simp only [List.map_cons, List.cons_append, lastUse, ih, List.mem_cons]
    by_cases ht : t = token
    · simp [ht]
    · have ht' : token ≠ t := fun heq => ht heq.symm
      simp [ht, ht']

/-- A new session in a table that has room for it, where at most one other made that room. -/
theorem Tracked.insert (h : Tracked options s) (hnew : token ≠ [])
    (hfresh : token ∉ issuedTokens s.history) {rest : List (Text × Int)} {gone : List Text}
    {accounts : Accounts} (hsessions : accounts.sessions = (token, now + options.lifetime) :: rest)
    (hrest : rest = s.accounts.sessions.filter fun session => session.1 ∉ gone)
    (hroom : rest.length < options.maximumActiveSessions) (hclock : s.clock = now)
    (hgone : gone = [] ∨ ∃ victim live, gone = [victim] ∧ Overfull options s.history now victim live) :
    Tracked options ⟨accounts, now,
      .issued token now :: (gone.map fun t => .evicted t now) ++ s.history⟩ where
  nodup := by
    rw [hsessions, List.map_cons, List.nodup_cons, hrest]
    refine ⟨fun hmem => ?_, (List.filter_sublist.map Prod.fst).nodup h.nodup⟩
    obtain ⟨session, hsession, heq⟩ := List.mem_map.mp hmem
    have heq : session.1 = token := heq
    exact hfresh (heq ▸ h.token_issued (List.mem_filter.mp hsession).1)
  bounded := by
    rw [hsessions]
    exact hroom
  known := by
    intro session hmem
    rw [hsessions] at hmem
    rcases List.mem_cons.mp hmem with rfl | hmem
    · exact ⟨hnew, now, by simp [lastUse], rfl⟩
    · rw [hrest] at hmem
      obtain ⟨hmem, hstays⟩ := List.mem_filter.mp hmem
      have hne : token ≠ session.1 := fun heq => hfresh (heq ▸ h.token_issued hmem)
      rw [List.cons_append, lastUse, if_neg hne, lastUse_evicted, if_neg (by simpa using hstays)]
      exact h.known session hmem
  kept := by
    intro t last hlast
    rw [List.cons_append, lastUse] at hlast
    rw [hsessions]
    split at hlast
    · rename_i heq
      cases hlast
      exact .inl (by simp [heq])
    · rw [lastUse_evicted] at hlast
      split at hlast
      · cases hlast
      · rename_i hstays
        rcases h.kept t last hlast with hmem | hpast
        · refine .inl (List.mem_cons_of_mem _ ?_)
          rw [hrest]
          exact List.mem_filter.mpr ⟨hmem, by simpa using hstays⟩
        · exact .inr (hclock ▸ hpast)
  justified := by
    refine Justified.cons ?_ fun _ _ heq => nomatch heq
    rcases hgone with rfl | ⟨victim, live, rfl, hoverfull⟩
    · exact h.justified
    · refine h.justified.cons fun t at_ heq => ?_
      cases heq
      exact ⟨live, hoverfull⟩

/-- Of a table without expired sessions that is full, one that expires first was used longest ago. -/
theorem Tracked.overfull (h : Tracked options s)
    (hunexpired : unexpired s.clock s.accounts.sessions = s.accounts.sessions.map Prod.fst)
    {oldest : Text × Int} (hmem : oldest ∈ s.accounts.sessions)
    (hle : ∀ other ∈ s.accounts.sessions, oldest.2 ≤ other.2)
    (hfull : options.maximumActiveSessions ≤ s.accounts.sessions.length) :
    Overfull options s.history s.clock oldest.1 (s.accounts.sessions.map Prod.fst) where
  nodup := h.nodup
  full := by
    rw [List.length_map]
    exact le_antisymm h.bounded hfull
  exact := fun t => hunexpired ▸ h.mem_unexpired_iff (le_refl _)
  member := List.mem_map_of_mem hmem
  oldest := by
    intro t ht last first hlast hfirst
    obtain ⟨session, hsession, rfl⟩ := List.mem_map.mp ht
    obtain ⟨-, last', hlast', hexpires⟩ := h.known session hsession
    obtain ⟨-, first', hfirst', hexpires'⟩ := h.known oldest hmem
    rw [hlast] at hlast'
    rw [hfirst] at hfirst'
    cases hlast'
    cases hfirst'
    have := hle session hsession
    omega

/-- All but one of the tokens are found in what is left. -/
theorem filter_lost {sessions : List (Text × Int)} {victim : Text} {expires : Int}
    (hnodup : (sessions.map Prod.fst).Nodup) (hvictim : victim ∈ sessions.map Prod.fst)
    (hne : ∀ session ∈ sessions, session.1 ≠ token) :
    ((sessions.map Prod.fst).filter fun t => decide (t ∉ ((token, expires) ::
      sessions.filter fun session => session.1 ∉ [victim]).map Prod.fst)) = [victim] := by
  have hstays : ∀ t ∈ sessions.map Prod.fst, decide (t ∉ ((token, expires) ::
      sessions.filter fun session => session.1 ∉ [victim]).map Prod.fst) = (t == victim) := by
    intro t ht
    obtain ⟨session, hmem, rfl⟩ := List.mem_map.mp ht
    rw [Bool.eq_iff_iff]
    simp only [List.map_cons, List.mem_cons, List.mem_map, List.mem_filter, List.not_mem_nil,
      or_false, decide_eq_true_eq, beq_iff_eq]
    constructor
    · intro hgone
      by_contra hother
      exact hgone (.inr ⟨session, ⟨hmem, hother⟩, rfl⟩)
    · rintro hvictim (heq | ⟨other, ⟨-, hother⟩, heq⟩)
      · exact hne session hmem heq
      · exact hother (heq.trans hvictim)
  rw [List.filter_congr hstays, List.filter_beq, List.count_eq_one_of_mem hnodup hvictim]
  rfl

theorem length_filter_key_lt {sessions : List (Text × Int)} {oldest : Text × Int} {n : Nat}
    (hlength : sessions.length ≤ n) (hmem : oldest ∈ sessions) :
    (sessions.filter fun session => session.1 ∉ [oldest.1]).length < n := by
  refine lt_of_lt_of_le (List.length_filter_lt_length_iff_exists.mpr ⟨oldest, hmem, ?_⟩) hlength
  simp

/-- Issuing a session: nothing but what has expired goes, or the table was full and one of the
sessions used longest ago goes. -/
theorem Tracked.issue (h : Tracked options s) {env : AuthEnv}
    (hmax : 0 < options.maximumActiveSessions) (htimely : Timely options s env now)
    (hfresh : Fresh s env) {s₁ accounts : Accounts} (hs₁ : s₁.sessions = s.accounts.sessions)
    (hissue : issueSession env now s₁ = .ok token accounts) :
    Tracked options ⟨accounts, now, .issued token now ::
      ((lost now s.accounts.sessions accounts.sessions).map fun t => .evicted t now) ++
        s.history⟩ := by
  obtain ⟨rfl, hnow⟩ := htimely
  obtain ⟨bytes, hrandom, rfl, hsessions⟩ := issueSession_ok hissue
  obtain ⟨hlength, hunissued⟩ := hfresh bytes hrandom
  have hpurged := h.purge hnow
  have hsame : (purgeExpiredSessions now s₁).sessions =
      (purgeExpiredSessions now s.accounts).sessions := by simp [purgeExpiredSessions, hs₁]
  have hne : ∀ session ∈ (purgeExpiredSessions now s.accounts).sessions,
      session.1 ≠ toHex bytes := by
    intro session hmem heq
    exact hunissued (heq ▸ hpurged.token_issued hmem)
  -- the tokens that may be lost are those of the purged table
  have htokens : unexpired now s.accounts.sessions =
      (purgeExpiredSessions now s.accounts).sessions.map Prod.fst := rfl
  have hunexpired : unexpired now (purgeExpiredSessions now s.accounts).sessions =
      (purgeExpiredSessions now s.accounts).sessions.map Prod.fst := by
    simp [unexpired, purgeExpiredSessions, List.filter_filter]
  have hcases := evictSession_cases hmax (purgeExpiredSessions now s₁)
  rw [hsame] at hcases
  rcases hcases with ⟨heq, hroom⟩ | ⟨oldest, hmem, hle, hfull, heq⟩
  · rw [heq, List.filter_eq_self.mpr fun session hmem => by simpa using hne session hmem] at hsessions
    have hlost : lost now s.accounts.sessions accounts.sessions = [] := by
      rw [lost, htokens, hsessions]
      exact List.filter_eq_nil_iff.mpr fun t ht => by simp [ht]
    rw [hlost]
    exact hpurged.insert (toHex_ne_nil hlength) hunissued hsessions
      (List.filter_eq_self.mpr fun _ _ => rfl).symm hroom rfl (.inl rfl)
  · have hrest : ((purgeExpiredSessions now s.accounts).sessions.filter fun session =>
        session.1 != oldest.1).filter (fun session => session.1 != toHex bytes) =
        (purgeExpiredSessions now s.accounts).sessions.filter fun session => session.1 ∉ [oldest.1] := by
      rw [List.filter_eq_self.mpr fun session hmem => by
        simpa using hne session (List.mem_filter.mp hmem).1]
      exact List.filter_congr fun session _ => by simp [bne, Bool.beq_eq_decide_eq]
    rw [heq, hrest] at hsessions
    have hlost : lost now s.accounts.sessions accounts.sessions = [oldest.1] := by
      rw [lost, htokens, hsessions]
      exact filter_lost hpurged.nodup (List.mem_map_of_mem hmem) hne
    have hoverfull := hpurged.overfull hunexpired hmem hle hfull
    rw [hlost]
    exact hpurged.insert (toHex_ne_nil hlength) hunissued hsessions rfl
      (length_filter_key_lt hpurged.bounded hmem) rfl (.inr ⟨oldest.1, _, rfl, hoverfull⟩)

theorem issued_eq_some {s s' : Service} {result : EStateM.Result Exception Accounts Text}
    (h : s.issued now result = some s') : ∃ token accounts, result = .ok token accounts ∧
      s' = ⟨accounts, now, .issued token now ::
        ((lost now s.accounts.sessions accounts.sessions).map fun t => .evicted t now) ++
          s.history⟩ := by
  cases result with
  | ok token accounts => exact ⟨token, accounts, rfl, (Option.some.inj h).symm⟩
  | error e accounts => cases h

theorem tracked_step (hmax : 0 < options.maximumActiveSessions) {s s' : Service} {call : Call}
    (h : Tracked options s) (hcall : Ordinary options s call) (hs : s.step call = some s') :
    Tracked options s' := by
  cases call with
  | createFirstAdmin env username password remoteIp =>
    obtain ⟨token, accounts, hok, rfl⟩ := issued_eq_some hs
    obtain ⟨s₁, hs₁, hissue⟩ := createFirstAdmin_ok hok
    exact h.issue hmax hcall.1 hcall.2 hs₁ hissue
  | login env username password remoteIp =>
    obtain ⟨token, accounts, hok, rfl⟩ := issued_eq_some hs
    obtain ⟨s₁, hs₁, hissue⟩ := login_ok hok
    exact h.issue hmax hcall.1 hcall.2 hs₁ hissue
  | authorize env token =>
    cases hs
    exact h.authorize hcall.1 hcall.2 token
  | logout token =>
    cases hs
    exact h.logout token
  | rehash sessions =>
    simp only [Service.step] at hs
    split at hs
    · rename_i hperm
      cases hs
      exact h.rehash hperm
    · cases hs

end Tracked

/-- In every state a run reaches, there are no more sessions than there may be, a token is accepted
exactly while it is live, and every eviction of the run was right when it happened. -/
theorem session_lifecycle {options : AuthSessionOptions} {users : List AdminUserRecord}
    {clock : Int} {calls : List Call} {s : Service} (hmax : 0 < options.maximumActiveSessions)
    (hcalls : Along Service.step (Ordinary options) (Service.start users clock) calls)
    (hrun : run Service.step (Service.start users clock) calls = some s) :
    s.accounts.sessions.length ≤ options.maximumActiveSessions ∧
      (∀ env token, s.clock ≤ env.now 0 →
        ((authorize env token s.accounts).1 = true ↔ Live options s.history (env.now 0) token)) ∧
      Justified options s.history := by
  have h : Tracked options s := run_inv_along (fun s call s' h hcall hs => tracked_step hmax h hcall hs)
    (tracked_start options users clock) hcalls hrun
  exact ⟨h.bounded, fun env token hnow => h.authorize_iff hnow, h.justified⟩

/-- Everything succeeds at one time, and the random bytes are all the same. -/
def AuthEnv.succeeding (now : Int) (byte : UInt8) : AuthEnv where
  options := ⟨100, 2⟩
  now := fun _ => now
  randomBytes := fun _ size => .ok (List.replicate size byte)
  derivePassword := fun _ _ _ size => .ok (List.replicate size 0)
  countUsers := none
  findUser := none
  insertUser := none

/-- The second of two sessions goes, as the first was used meanwhile. -/
def thirdLogin : List Call :=
  [.createFirstAdmin (AuthEnv.succeeding 1 1) "admin" "correct horse battery staple" [],
    .login (AuthEnv.succeeding 2 2) "admin" "correct horse battery staple" [],
    .authorize (AuthEnv.succeeding 3 0) (toHex (List.replicate tokenBytes 1)),
    .login (AuthEnv.succeeding 4 3) "admin" "correct horse battery staple" []]

theorem session_lifecycle_thirdLogin :
    ∃ s, run Service.step (Service.start [] 0) thirdLogin = some s ∧
      .evicted (toHex (List.replicate tokenBytes 2)) 4 ∈ s.history ∧
      s.accounts.sessions.length ≤ 2 ∧
      (∀ env token, s.clock ≤ env.now 0 →
        ((authorize env token s.accounts).1 = true ↔ Live ⟨100, 2⟩ s.history (env.now 0) token)) ∧
      Justified ⟨100, 2⟩ s.history := by
  have hevicted : (run Service.step (Service.start [] 0) thirdLogin).any (fun s =>
      decide (.evicted (toHex (List.replicate tokenBytes 2)) 4 ∈ s.history)) = true := by
    decide
  obtain ⟨s, hrun, hevicted⟩ := (Option.any_eq_true _ _).mp hevicted
  have hmax : 0 < (⟨100, 2⟩ : AuthSessionOptions).maximumActiveSessions := by decide
  have hcalls : Along Service.step (Ordinary ⟨100, 2⟩) (Service.start [] 0) thirdLogin := by
    decide
  exact ⟨s, hrun, of_decide_eq_true hevicted, session_lifecycle hmax hcalls hrun⟩

end Admin
end WebServer
