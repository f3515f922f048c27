import WebServer.Lib.Act
import WebServer.Lib.Wire

/-!
# WebServer.Admin.Auth

`AuthService`: the administrator accounts, the sessions and the failed logins.

Every operation but `validate_credentials` holds `mutex_`. The clock is read anew wherever the source
does so; random bytes, the derived password and the statements of the database are inputs of an
operation, and each of them may fail.

* `keepsUsers_login`, `spec_createFirstAdmin`: an account is created only where there was none.
* `authorize_eq`: which tokens are accepted, and that only sessions change.
-/

namespace WebServer
namespace Admin

open Act Http

/-- The classes of exceptions that the handlers of the API tell apart. -/
inductive Exception where
  | json
  | invalidArgument (what : String)
  | logicError (what : String)
  | runtimeError (what : String)
  deriving DecidableEq

structure AdminUserRecord where
  username : String
  passwordSalt : Text
  passwordHash : Text
  passwordIterations : Nat
  deriving DecidableEq

structure FailureBucket where
  failures : Nat
  windowStarted : Int
  deriving DecidableEq

/-- The times are those of the steady clock, in nanoseconds. -/
structure Accounts where
  users : List AdminUserRecord
  /-- `sessions_`: tokens and when they expire -/
  sessions : List (Text × Int)
  failures : List (Text × FailureBucket)
  deriving DecidableEq

structure AuthSessionOptions where
  lifetime : Int
  maximumActiveSessions : Nat

/-- What one operation is given by the libraries and the database. -/
structure AuthEnv where
  options : AuthSessionOptions
  /-- the clock, reading by reading -/
  now : Nat → Int
  /-- `random_bytes`, call by call -/
  randomBytes : Nat → Nat → Except Exception Text
  derivePassword : String → Text → Nat → Nat → Except Exception Text
  /-- the failure of the next statement on `admin_users`, if it fails -/
  countUsers : Option Exception
  findUser : Option Exception
  insertUser : Option Exception

abbrev Auth := EStateM Exception Accounts

def passwordIterations : Nat := 310000
def saltBytes : Nat := 16
def hashBytes : Nat := 32
def tokenBytes : Nat := 32

def fiveMinutes : Int := 5 * 60 * 1000000000

/-! ## Operations -/

def isUsernameByte (c : Char) : Bool := c.isAlphanum || c == '_' || c == '-'

def validateCredentials (username password : String) : Except Exception Unit := do
  if username.utf8ByteSize < 3 ∨ 64 < username.utf8ByteSize ∨
      username.toList.all isUsernameByte = false then
    throw (.invalidArgument
      "username must contain 3 to 64 letters, numbers, hyphens or underscores")
  if password.utf8ByteSize < 12 ∨ 256 < password.utf8ByteSize then
    throw (.invalidArgument "password must contain 12 to 256 characters")

def toHex (bytes : Text) : Text :=
  bytes.flatMap fun b => [hexDigit (b.toNat / 16), hexDigit (b.toNat % 16)]

section Operations

variable (env : AuthEnv)

def adminUserCount : Auth Nat := do
  failing env.countUsers
  let s ← get
  pure s.users.length

def setupRequired : Auth Bool := do
  let count ← adminUserCount env
  pure (count == 0)

def checkRateLimit (now : Int) (remoteIp : Text) : Auth Unit := do
  let s ← get
  match s.failures.lookup remoteIp with
  | none => pure ()
  | some entry =>
    if fiveMinutes < now - entry.windowStarted then
      modify fun s => { s with failures := s.failures.filter fun f => f.1 != remoteIp }
    else
      failing (if 5 ≤ entry.failures then
        some (.runtimeError "too many login attempts; retry later") else none)

def recordFailure (now : Int) (remoteIp : Text) (s : Accounts) : Accounts :=
  let bucket := (s.failures.lookup remoteIp).getD ⟨0, 0⟩
  let bucket := if bucket.failures = 0 ∨ fiveMinutes < now - bucket.windowStarted then ⟨1, now⟩
    else { bucket with failures := bucket.failures + 1 }
  { s with failures := (remoteIp, bucket) :: s.failures.filter fun f => f.1 != remoteIp }

def clearFailures (remoteIp : Text) (s : Accounts) : Accounts :=
  { s with failures := s.failures.filter fun f => f.1 != remoteIp }

def purgeExpiredSessions (now : Int) (s : Accounts) : Accounts :=
  { s with sessions := s.sessions.filter fun session => now < session.2 }

/-- The first of the sessions that expire first. -/
def oldestSession : List (Text × Int) → Option (Text × Int)
  | [] => none
  | session :: sessions =>
    match oldestSession sessions with
    | none => some session
    | some oldest => if oldest.2 < session.2 then some oldest else some session

/-- One session makes room when there are too many. -/
def evictSession (s : Accounts) : Accounts :=
  if env.options.maximumActiveSessions ≤ s.sessions.length then
    match oldestSession s.sessions with
    | none => s
    | some oldest => { s with sessions := s.sessions.filter fun session => session.1 != oldest.1 }
  else s

def issueSession (now : Int) : Auth Text := do
  modify (purgeExpiredSessions now)
  modify (evictSession env)
  let token ← attempt ((env.randomBytes 1 tokenBytes).map toHex)
  modify fun s => { s with
    sessions := (token, now + env.options.lifetime) ::
      s.sessions.filter fun session => session.1 != token }
  pure token

def createFirstAdmin (username password : String) (remoteIp : Text) : Auth Text := do
  attempt (validateCredentials username password)
  checkRateLimit (env.now 0) remoteIp
  let count ← adminUserCount env
  failing (if count != 0 then
    some (.logicError "administrator setup has already been completed") else none)
  let salt ← attempt (env.randomBytes 0 saltBytes)
  let hash ← attempt (env.derivePassword password salt passwordIterations hashBytes)
  failing env.insertUser
  modify fun s => { s with users := s.users ++ [⟨username, salt, hash, passwordIterations⟩] }
  modify (clearFailures remoteIp)
  issueSession env (env.now 1)

/-- `username = ? COLLATE NOCASE` -/
def sameUsername (a b : String) : Bool := a.toList.map Char.toLower == b.toList.map Char.toLower

/-- The `try` block of `login`: whether the password is the one of the account. -/
def checkPassword (username password : String) (s : Accounts) : Except Exception Unit := do
  match env.findUser with
  | some e => throw e
  | none =>
    match s.users.find? fun user => sameUsername user.username username with
    | none => throw (.invalidArgument "invalid username or password")
    | some user => do
      let candidate ← env.derivePassword password user.passwordSalt user.passwordIterations
        user.passwordHash.length
      if candidate ≠ user.passwordHash then
        throw (.invalidArgument "invalid username or password")

def login (username password : String) (remoteIp : Text) : Auth Text := do
  checkRateLimit (env.now 0) remoteIp
  let s ← get
  match checkPassword env username password s with
  | .ok () => do
    modify (clearFailures remoteIp)
    issueSession env (env.now 2)
  | .error (.invalidArgument _) => do
    modify (recordFailure (env.now 1) remoteIp)
    throw (.invalidArgument "invalid username or password")
  | .error e => throw e

/-- The session is there and has not expired. -/
def Accounts.accepts (s : Accounts) (now : Int) (token : Text) : Bool :=
  token != [] && s.sessions.any fun session => session.1 == token && decide (now < session.2)

def authorize (token : Text) (s : Accounts) : Bool × Accounts :=
  if token = [] then (false, s)
  else
    let s := purgeExpiredSessions (env.now 0) s
    if s.sessions.any fun session => session.1 == token then
      (true, { s with sessions := s.sessions.map fun session =>
        if session.1 = token then (token, env.now 0 + env.options.lifetime) else session })
    else (false, s)

def logout (token : Text) (s : Accounts) : Accounts :=
  { s with sessions := s.sessions.filter fun session => session.1 != token }

end Operations

def sessionCookie (token : Text) : Text :=
  ascii "ws_admin_session=" ++ token ++
    ascii "; Path=/; HttpOnly; SameSite=Strict; Max-Age=28800"

def expiredSessionCookie : Text :=
  ascii "ws_admin_session=; Path=/; HttpOnly; SameSite=Strict; Max-Age=0"

/-! ## What happens to the accounts -/

section Users

variable (env : AuthEnv) {α : Type}

/-- The operation creates no account and removes none. -/
def KeepsUsers (m : Auth α) : Prop :=
  ∀ users, Spec (·.users = users) m (fun _ s => s.users = users) (·.users = users)

theorem keepsUsers_modify {f : Accounts → Accounts} (h : ∀ s, (f s).users = s.users) :
    KeepsUsers (modify f) := fun _ => spec_modify fun s hs => (h s).trans hs

theorem keepsUsers_attempt (x : Except Exception α) : KeepsUsers (attempt x) :=
  fun _ => spec_attempt (fun _ _ _ h => h) fun _ h => h

theorem keepsUsers_failing (failure : Option Exception) : KeepsUsers (failing failure) :=
  fun _ => spec_failing (fun _ h => h) fun _ h => h

theorem KeepsUsers.bind {β : Type} {m : Auth α} {f : α → Auth β} (hm : KeepsUsers m)
    (hf : ∀ a, KeepsUsers (f a)) : KeepsUsers (m >>= f) :=
  fun users => spec_bind (hm users) fun a => hf a users

theorem keepsUsers_pure (a : α) : KeepsUsers (pure a) := fun _ => spec_pure fun _ h => h

theorem keepsUsers_throw (e : Exception) : KeepsUsers (throw e : Auth α) := fun _ _ h => h

theorem keepsUsers_get : KeepsUsers (get : Auth Accounts) := fun _ => spec_get fun _ h => h

theorem keepsUsers_checkRateLimit (now : Int) (remoteIp : Text) :
    KeepsUsers (checkRateLimit now remoteIp) := by
  refine keepsUsers_get.bind fun s => ?_
  split
  · exact keepsUsers_pure ()
  · split
    · exact keepsUsers_modify fun _ => rfl
    · exact keepsUsers_failing _

theorem keepsUsers_adminUserCount : KeepsUsers (adminUserCount env) :=
  (keepsUsers_failing _).bind fun _ => keepsUsers_get.bind fun _ => keepsUsers_pure _

theorem keepsUsers_setupRequired : KeepsUsers (setupRequired env) :=
  (keepsUsers_adminUserCount env).bind fun _ => keepsUsers_pure _

theorem evictSession_users (s : Accounts) : (evictSession env s).users = s.users := by
  unfold evictSession
  split
  · split
    · rfl
    · rfl
  · rfl

theorem keepsUsers_issueSession (now : Int) : KeepsUsers (issueSession env now) := by
  refine (keepsUsers_modify (f := purgeExpiredSessions now) fun _ => rfl).bind fun _ =>
    (keepsUsers_modify (evictSession_users env)).bind fun _ => (keepsUsers_attempt _).bind fun _ => ?_
  exact KeepsUsers.bind (keepsUsers_modify fun _ => rfl) fun _ => keepsUsers_pure _

theorem keepsUsers_login (username password : String) (remoteIp : Text) :
    KeepsUsers (login env username password remoteIp) := by
  refine (keepsUsers_checkRateLimit _ remoteIp).bind fun _ => keepsUsers_get.bind fun s => ?_
  split
  · exact (keepsUsers_modify (f := clearFailures remoteIp) fun _ => rfl).bind fun _ =>
      keepsUsers_issueSession env _
  · exact (keepsUsers_modify (f := recordFailure (env.now 1) remoteIp) fun _ => rfl).bind fun _ =>
      keepsUsers_throw _
  · exact keepsUsers_throw _

/-- An account is created only where there was none. -/
theorem spec_createFirstAdmin (users : List AdminUserRecord) (username password : String)
    (remoteIp : Text) :
    Spec (·.users = users) (createFirstAdmin env username password remoteIp)
      (fun _ s => s.users = users ∨ users = []) (fun s => s.users = users ∨ users = []) := by
  have hweak : ∀ {α : Type} {m : Auth α}, KeepsUsers m →
      Spec (·.users = users) m (fun _ s => s.users = users) (fun s => s.users = users ∨ users = []) :=
    fun hm => spec_conseq (hm users) (fun _ h => h) (fun _ _ h => h) fun _ h => .inl h
  refine spec_bind (hweak (keepsUsers_attempt _)) fun _ =>
    spec_bind (hweak (keepsUsers_checkRateLimit _ remoteIp)) fun _ => ?_
  refine spec_bind (M := fun count s => count = users.length ∧ s.users = users) ?_ fun count => ?_
  · refine spec_bind (hweak (keepsUsers_failing _)) fun _ =>
      spec_bind (M := fun s s' => s = s' ∧ s'.users = users) (spec_get fun s h => ⟨rfl, h⟩) fun s => ?_
    refine spec_pure fun s' h => ?_
    rw [h.1]
    exact ⟨congrArg List.length h.2, h.2⟩
  refine spec_fact fun hcount => ?_
  subst hcount
  cases users with
  | cons user users =>
    refine spec_bind (M := fun _ _ => False) ?_ fun _ _ h => h.elim
    exact fun s h => .inl h
  | nil =>
    refine spec_conseq (Q := fun _ _ => True) (E := fun _ => True) ?_ (fun s h => h)
      (fun _ _ _ => .inr rfl) fun _ _ => .inr rfl
    intro s _
    split <;> trivial

/-- What is accepted has a session that has not expired, and only sessions change. -/
theorem authorize_eq (token : Text) (s : Accounts) :
    (authorize env token s).1 = s.accepts (env.now 0) token ∧
      (authorize env token s).2 = { s with sessions := (authorize env token s).2.sessions } := by
  unfold authorize Accounts.accepts
  split
  · rename_i htoken
    exact ⟨by simp [htoken], rfl⟩
  · rename_i htoken
    have hany : (purgeExpiredSessions (env.now 0) s).sessions.any (fun session =>
        session.1 == token) = s.sessions.any fun session =>
          session.1 == token && decide (env.now 0 < session.2) := by
      simp only [purgeExpiredSessions, List.any_filter, Bool.and_comm]
    simp only [hany]
    split
    · rename_i haccepted
      exact ⟨by simp [htoken, haccepted], rfl⟩
    · rename_i haccepted
      exact ⟨by simp [haccepted], rfl⟩

end Users

end Admin
end WebServer
