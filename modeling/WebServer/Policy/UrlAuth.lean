import WebServer.Lib.Result
import WebServer.Policy.RequestPolicy

/-!
# WebServer.Policy.UrlAuth

`UrlAuthenticator`: which signed URLs a site may be configured to ask for, and which of them it
accepts.

* `UrlAuthenticator.make` is the constructor.
* `UrlAuthenticator.authenticate` is `none` when a signed 64-bit expression overflows.
* `authenticate_signed`: what an accepted URL was signed for, and when it may be used.

MD5 is a parameter; it may fail, as the calls into OpenSSL may.
-/

namespace WebServer
namespace Policy

open Http Routing

inductive UrlAuthScope where
  | all
  | specified
  deriving DecidableEq

inductive UrlAuthMatch where
  | exact
  | pathPrefix
  deriving DecidableEq

structure UrlAuthUriSpec where
  path : Text := ascii "/"
  matchKind : UrlAuthMatch := .exact
  deriving DecidableEq

structure UrlAuthSpec where
  enabled : Bool := false
  scope : UrlAuthScope := .all
  primaryKey : Text := []
  backupKey : Text := []
  validitySeconds : ℕ := 1800
  protectedUris : List UrlAuthUriSpec := []
  deriving DecidableEq

structure UrlAuthenticator where
  spec : UrlAuthSpec
  deriving DecidableEq

def maxProtectedUris : ℕ := 200

def maximumValiditySeconds : ℕ := 31536000

def validKey (key : Text) : Bool :=
  key = [] || (6 ≤ key.length && key.length ≤ 128 && key.all isAlnum)

def validPath (path : Text) : Bool :=
  path.length ≤ maxUriLength && path.head? == some 47 && !path.contains 63 && !path.contains 35 &&
    path.all fun b => !(b ≤ 32 || b == 127)

/-- The rules are distinct: two with one path differ in their match. -/
def addUriRule (unique : List UrlAuthUriSpec) (rule : UrlAuthUriSpec) :
    Except Text (List UrlAuthUriSpec) :=
  if !validPath rule.path then
    .error (ascii "URL authentication protected URI must be a valid encoded absolute path")
  else if rule ∈ unique then .error (ascii "URL authentication contains a duplicate URI rule")
  else .ok (rule :: unique)

def UrlAuthenticator.make (spec : UrlAuthSpec) : Except Text UrlAuthenticator := do
  if spec.validitySeconds = 0 ∨ maximumValiditySeconds < spec.validitySeconds then
    throw (ascii "URL authentication validity must be between 1 and 31536000 seconds")
  if !validKey spec.primaryKey || !validKey spec.backupKey then
    throw (ascii "URL authentication keys must contain 6 to 128 letters or digits")
  if spec.enabled = true ∧ spec.primaryKey = [] ∧ spec.backupKey = [] then
    throw (ascii "URL authentication requires a primary or backup key")
  if maxProtectedUris < spec.protectedUris.length then
    throw (ascii "URL authentication cannot contain more than 200 protected URI rules")
  let _ ← spec.protectedUris.foldlM addUriRule []
  if spec.enabled = true ∧ spec.scope = .specified ∧ spec.protectedUris = [] then
    throw (ascii "specified URL authentication requires at least one protected URI")
  return ⟨spec⟩

/-! ## The query -/

structure ParsedQuery where
  authKey : Text := []
  retainedParameters : List Text := []
  authKeyCount : ℕ := 0
  deriving DecidableEq

/-- The name of a parameter, and the value if there is an equals sign. -/
def splitParameter (parameter : Text) : Text × Option Text :=
  match cut 61 parameter with
  | none => (parameter, none)
  | some (name, value) => (name, some value)

def addParameter (result : ParsedQuery) (parameter : Text) : ParsedQuery :=
  let (name, value) := splitParameter parameter
  if name = ascii "auth_key" then
    { result with
      authKey := value.getD result.authKey
      authKeyCount := result.authKeyCount + 1 }
  else if name ≠ ascii "sign" ∧ name ≠ ascii "time" ∧ parameter ≠ [] then
    { result with retainedParameters := result.retainedParameters ++ [parameter] }
  else result

/-- An empty parameter changes nothing, so it does not matter that the loop of the source stops
before one at the end. -/
def parseQuery (query : Text) : ParsedQuery := (query.splitOn 38).foldl addParameter {}

def cleanedTarget (path : Text) (parameters : List Text) : Text :=
  if parameters = [] then path else path ++ [63] ++ [38].intercalate parameters

/-! ## The signature -/

structure AuthKey where
  timestamp : Text
  random : Text
  uid : Text
  digest : Text
  deriving DecidableEq

/-- The four parts between exactly three hyphens. -/
def splitAuthKey (authKey : Text) : Option AuthKey :=
  match cut 45 authKey with
  | none => none
  | some (timestamp, rest) =>
    match cut 45 rest with
    | none => none
    | some (random, rest) =>
      match cut 45 rest with
      | none => none
      | some (uid, digest) =>
        if digest.contains 45 then none else some ⟨timestamp, random, uid, digest⟩

def lowerHexDigest (value : Text) : Bool :=
  value.length = 32 && value.all fun b => isDigit b || (97 ≤ b && b ≤ 102)

def AuthKey.wellFormed (a : AuthKey) : Bool :=
  a.timestamp.length = 10 && a.random ≠ [] && a.uid ≠ [] && a.timestamp.all isDigit &&
    lowerHexDigest a.digest

/-- The one `auth_key` of a target, with the parsed query. -/
def suppliedKey (target : Text) : Option (ParsedQuery × AuthKey) :=
  match cut 63 target with
  | none => none
  | some (_, query) =>
    let parsed := parseQuery query
    if parsed.authKeyCount ≠ 1 ∨ parsed.authKey = [] then none
    else
      match splitAuthKey parsed.authKey with
      | none => none
      | some a => if a.wellFormed then some (parsed, a) else none

def signingText (path : Text) (a : AuthKey) (key : Text) : Text :=
  path ++ [45] ++ a.timestamp ++ [45] ++ a.random ++ [45] ++ a.uid ++ [45] ++ key

def matchesKey (md5 : Text → Option Text) (path : Text) (a : AuthKey) (key : Text) : Bool :=
  key ≠ [] && (match md5 (signingText path a key) with
    | none => false
    | some expected => a.digest = expected)

/-! ## The time window -/

/-- A signed 64-bit expression; `none` when it overflows. -/
def int64 (value : Int) : Option Int :=
  if -2 ^ 63 ≤ value ∧ value < 2 ^ 63 then some value else none

/-- `std::from_chars` on a text of digits. -/
def digitsValue (text : Text) : Option Int :=
  int64 (Nat.ofDigits 10 (text.reverse.map fun b => b.toNat - 48))

def maximumFutureClockSkewSeconds : Int := 300

/-- `timestamp > now && timestamp - now > maximum_future_clock_skew_seconds` -/
def tooFarAhead (timestamp now : Int) : Option Bool :=
  if now < timestamp then
    (int64 (timestamp - now)).map fun ahead => decide (maximumFutureClockSkewSeconds < ahead)
  else some false

/-- The tests on the time, in the order of the source. -/
def outsideWindow (timestamp now : Int) (validitySeconds : ℕ) : Option Bool :=
  if timestamp < 0 ∨ now < 0 then some true
  else
    match tooFarAhead timestamp now with
    | none => none
    | some true => some true
    | some false =>
      match int64 (2 ^ 63 - 1 - validitySeconds) with
      | none => none
      | some latest =>
        if latest < timestamp then some true
        else (int64 (timestamp + validitySeconds)).map fun expires => decide (expires < now)

/-! ## The decision -/

structure UrlAuthResult where
  allowed : Bool := true
  authenticationApplied : Bool := false
  rewrittenTarget : Text := []
  deriving DecidableEq

namespace UrlAuthenticator

def protects (u : UrlAuthenticator) (path : Text) : Bool :=
  match u.spec.scope with
  | .all => true
  | .specified => u.spec.protectedUris.any fun rule =>
    match rule.matchKind with
    | .exact => path = rule.path
    | .pathPrefix => rule.path <+: path

def denied : UrlAuthResult := ⟨false, true, []⟩

def authenticate (u : UrlAuthenticator) (md5 : Text → Option Text) (target : Text)
    (nowUnixSeconds : Int64) : Option UrlAuthResult :=
  let path := (splitTarget target).1
  if !u.spec.enabled || !u.protects path then some {}
  else
    match suppliedKey target with
    | none => some denied
    | some (parsed, a) =>
      match digitsValue a.timestamp with
      | none => some denied
      | some timestamp =>
        match outsideWindow timestamp nowUnixSeconds.toInt u.spec.validitySeconds with
        | none => none
        | some true => some denied
        | some false =>
          if matchesKey md5 path a u.spec.primaryKey || matchesKey md5 path a u.spec.backupKey then
            some ⟨true, true, cleanedTarget path parsed.retainedParameters⟩
          else some denied

end UrlAuthenticator

/-! ## What was signed -/

theorem suppliedKey_parts {target : Text} {parsed : ParsedQuery} {a : AuthKey}
    (h : suppliedKey target = some (parsed, a)) :
    45 ∉ a.timestamp ∧ 45 ∉ a.random ∧ 45 ∉ a.uid ∧ a.timestamp.length = 10 ∧
      a.timestamp.all isDigit = true := by
  unfold suppliedKey at h
  split at h
  · cases h
  · dsimp only at h
    split at h
    · cases h
    · split at h
      · cases h
      · rename_i a' hsplit
        obtain ⟨hwell, heq⟩ := Option.ite_none_right_eq_some.mp h
        cases heq
        simp only [AuthKey.wellFormed, Bool.and_eq_true, decide_eq_true_eq] at hwell
        unfold splitAuthKey at hsplit
        split at hsplit
        · cases hsplit
        · rename_i htimestamp
          split at hsplit
          · cases hsplit
          · rename_i hrandom
            split at hsplit
            · cases hsplit
            · rename_i huid
              obtain ⟨-, heq⟩ := Option.ite_none_left_eq_some.mp hsplit
              cases heq
              exact ⟨cut_some_not_mem htimestamp, cut_some_not_mem hrandom, cut_some_not_mem huid,
                hwell.1.1.1.1, hwell.1.2⟩

theorem hyphen_not_mem_key {key : Text} (h : validKey key = true) : (45 : UInt8) ∉ key := by
  intro hm
  simp only [validKey, Bool.or_eq_true, decide_eq_true_eq, Bool.and_eq_true, List.all_eq_true] at h
  rcases h with rfl | h
  · cases hm
  · exact absurd (h.2 45 hm) (by decide)

/-- The path may contain hyphens, but the four parts after it do not. -/
theorem signingText_inj {path path' key key' : Text} {a a' : AuthKey}
    (ha : 45 ∉ a.timestamp ∧ 45 ∉ a.random ∧ 45 ∉ a.uid)
    (ha' : 45 ∉ a'.timestamp ∧ 45 ∉ a'.random ∧ 45 ∉ a'.uid) (hkey : 45 ∉ key)
    (hkey' : 45 ∉ key') (h : signingText path a key = signingText path' a' key') :
    path = path' ∧ a.timestamp = a'.timestamp ∧ a.random = a'.random ∧ a.uid = a'.uid ∧
      key = key' := by
  have hsep : ∀ l r : Text, l ++ [45] ++ r = l ++ 45 :: r := fun l r => by simp
  unfold signingText at h
  rw [hsep (_ ++ a.uid), hsep (_ ++ a'.uid)] at h
  obtain ⟨h, hkey⟩ := append_cons_inj_last hkey hkey' h
  rw [hsep (_ ++ a.random), hsep (_ ++ a'.random)] at h
  obtain ⟨h, huid⟩ := append_cons_inj_last ha.2.2 ha'.2.2 h
  rw [hsep (_ ++ a.timestamp), hsep (_ ++ a'.timestamp)] at h
  obtain ⟨h, hrandom⟩ := append_cons_inj_last ha.2.1 ha'.2.1 h
  rw [hsep path, hsep path'] at h
  obtain ⟨hpath, htimestamp⟩ := append_cons_inj_last ha.1 ha'.1 h
  exact ⟨hpath, htimestamp, hrandom, huid, hkey⟩

theorem matchesKey_iff {md5 : Text → Option Text} {path key : Text} {a : AuthKey} :
    matchesKey md5 path a key = true ↔ key ≠ [] ∧ md5 (signingText path a key) = some a.digest := by
  unfold matchesKey
  cases md5 (signingText path a key) with
  | none => simp
  | some expected =>
    rw [Option.some.injEq, Bool.and_eq_true, decide_eq_true_eq, decide_eq_true_eq,
      eq_comm (a := expected)]

/-! ## The window is exact -/

theorem int64_of_mem {value : Int} (h : -2 ^ 63 ≤ value ∧ value < 2 ^ 63) :
    int64 value = some value := if_pos h

theorem tooFarAhead_eq {timestamp now : Int} (htimestamp : timestamp < 2 ^ 63) (hnow : 0 ≤ now) :
    tooFarAhead timestamp now = some (decide (now + 300 < timestamp)) := by
  unfold tooFarAhead maximumFutureClockSkewSeconds
  split
  · rw [int64_of_mem (by omega), Option.map_some, Option.some.injEq, decide_eq_decide]
    omega
  · rw [Option.some.injEq, eq_comm, decide_eq_false_iff_not]
    omega

/-- Nothing overflows, and a timestamp that passes is in the window. -/
theorem outsideWindow_returns {timestamp : Int} (now : Int) {validitySeconds : ℕ}
    (htimestamp : timestamp < 2 ^ 63) (hvalidity : validitySeconds < 2 ^ 32) :
    ∃ outside, outsideWindow timestamp now validitySeconds = some outside ∧
      (outside = false → timestamp - 300 ≤ now ∧ now ≤ timestamp + validitySeconds) := by
  unfold outsideWindow
  by_cases hneg : timestamp < 0 ∨ now < 0
  · exact ⟨true, if_pos hneg, by simp⟩
  rw [if_neg hneg, tooFarAhead_eq htimestamp (by omega)]
  by_cases hfar : now + 300 < timestamp
  · exact ⟨true, by rw [decide_eq_true hfar], by simp⟩
  rw [decide_eq_false hfar, int64_of_mem (by omega)]
  dsimp only
  by_cases hlate : 2 ^ 63 - 1 - (validitySeconds : Int) < timestamp
  · exact ⟨true, if_pos hlate, by simp⟩
  · rw [if_neg hlate, int64_of_mem (by omega)]
    refine ⟨_, rfl, fun h => ?_⟩
    have h := decide_eq_false_iff_not.mp h
    omega

theorem digitsValue_some {text : Text} {timestamp : Int} (h : digitsValue text = some timestamp) :
    timestamp < 2 ^ 63 := by
  obtain ⟨hfits, heq⟩ := Option.ite_none_right_eq_some.mp h
  cases heq
  exact hfits.2

/-! ## Accepted URLs -/

theorem make_spec {spec : UrlAuthSpec} {u : UrlAuthenticator} (h : UrlAuthenticator.make spec = .ok u) :
    u.spec = spec ∧ spec.validitySeconds ≤ maximumValiditySeconds ∧
      validKey spec.primaryKey = true ∧ validKey spec.backupKey = true := by
  unfold UrlAuthenticator.make at h
  obtain ⟨hvalidity, h⟩ := Result.guard_ok h
  obtain ⟨hkeys, h⟩ := Result.guard_ok h
  obtain ⟨-, h⟩ := Result.guard_ok h
  obtain ⟨-, h⟩ := Result.guard_ok h
  obtain ⟨_, -, h⟩ := Result.bind_ok h
  obtain ⟨-, h⟩ := Result.guard_ok h
  cases h
  simp only [Bool.or_eq_true, Bool.not_eq_true', not_or, Bool.not_eq_false] at hkeys
  exact ⟨rfl, by omega, hkeys⟩

namespace UrlAuthenticator

variable {u : UrlAuthenticator} {md5 : Text → Option Text} {target : Text} {now : Int64}

/-- The URL carries this signature, made with one of the keys, and its time has come. -/
structure Signed (u : UrlAuthenticator) (md5 : Text → Option Text) (target : Text) (now : Int64)
    (a : AuthKey) : Prop where
  supplied : ∃ parsed, suppliedKey target = some (parsed, a)
  matched : matchesKey md5 (splitTarget target).1 a u.spec.primaryKey = true ∨
    matchesKey md5 (splitTarget target).1 a u.spec.backupKey = true
  window : ∃ timestamp, digitsValue a.timestamp = some timestamp ∧
    timestamp - 300 ≤ now.toInt ∧ now.toInt ≤ timestamp + u.spec.validitySeconds

/-- Every path through `authenticate`. -/
theorem authenticate_cases (hvalidity : u.spec.validitySeconds < 2 ^ 32) (md5 : Text → Option Text)
    (target : Text) (now : Int64) :
    (u.spec.enabled && u.protects (splitTarget target).1) = false ∧
      u.authenticate md5 target now = some {} ∨
    u.authenticate md5 target now = some denied ∨
    ∃ a rewritten, u.Signed md5 target now a ∧
      u.authenticate md5 target now = some ⟨true, true, rewritten⟩ := by
  unfold authenticate
  dsimp only
  by_cases hbypass : (!u.spec.enabled || !u.protects (splitTarget target).1) = true
  · exact .inl ⟨by simpa [← Bool.not_and] using hbypass, if_pos hbypass⟩
  rw [if_neg hbypass]
  cases hkey : suppliedKey target with
  | none => exact .inr (.inl rfl)
  | some supplied =>
    obtain ⟨parsed, a⟩ := supplied
    dsimp only
    cases htimestamp : digitsValue a.timestamp with
    | none => exact .inr (.inl rfl)
    | some timestamp =>
      obtain ⟨outside, houtside, hwindow⟩ :=
        outsideWindow_returns now.toInt (digitsValue_some htimestamp) hvalidity
      dsimp only
      rw [houtside]
      cases outside with
      | true => exact .inr (.inl rfl)
      | false =>
        dsimp only
        split
        · rename_i hmatch
          exact .inr (.inr ⟨a, _, ⟨⟨parsed, hkey⟩, Bool.or_eq_true_iff.mp hmatch, timestamp,
            htimestamp, hwindow rfl⟩, rfl⟩)
        · exact .inr (.inl rfl)

end UrlAuthenticator

/-- MD5 tells these texts apart. -/
def Distinguishes (md5 : Text → Option Text) (texts : Set Text) : Prop :=
  ∀ t ∈ texts, ∀ t' ∈ texts, ∀ digest, md5 t = some digest → md5 t' = some digest → t = t'

/-- The texts that are hashed when a URL with this signature is checked. -/
def UrlAuthSpec.signingTexts (spec : UrlAuthSpec) (target : Text) (a : AuthKey) : Set Text :=
  { t | ∃ key, (key = spec.primaryKey ∨ key = spec.backupKey) ∧
    t = signingText (splitTarget target).1 a key }

section Transplant

variable {u : UrlAuthenticator} {md5 : Text → Option Text}

theorem signed_of_accepted (hvalidity : u.spec.validitySeconds < 2 ^ 32) {target : Text}
    {now : Int64} {r : UrlAuthResult} {parsed : ParsedQuery} {a : AuthKey}
    (h : u.authenticate md5 target now = some r) (hallowed : r.allowed = true)
    (happlied : r.authenticationApplied = true) (hkey : suppliedKey target = some (parsed, a)) :
    u.Signed md5 target now a := by
  rcases UrlAuthenticator.authenticate_cases hvalidity md5 target now with
    ⟨-, hbypass⟩ | hdenied | ⟨a', rewritten, hsigned, -⟩
  · rw [hbypass] at h
    cases h
    cases happlied
  · rw [hdenied] at h
    cases h
    cases hallowed
  · obtain ⟨parsed', hkey'⟩ := hsigned.supplied
    rw [hkey] at hkey'
    cases hkey'
    exact hsigned

/-- Two signatures with one digest were made from one text. -/
theorem transplant_fixed (hprimary : validKey u.spec.primaryKey = true)
    (hbackup : validKey u.spec.backupKey = true) {target target' : Text} {a a' : AuthKey}
    {parsed parsed' : ParsedQuery} (hkey : suppliedKey target = some (parsed, a))
    (hkey' : suppliedKey target' = some (parsed', a'))
    (hmd5 : Distinguishes md5 (u.spec.signingTexts target a ∪ u.spec.signingTexts target' a'))
    (hdigest : a.digest = a'.digest) {key key' : Text}
    (hmem : key = u.spec.primaryKey ∨ key = u.spec.backupKey)
    (hmem' : key' = u.spec.primaryKey ∨ key' = u.spec.backupKey)
    (hmatch : matchesKey md5 (splitTarget target).1 a key = true)
    (hmatch' : matchesKey md5 (splitTarget target').1 a' key' = true) :
    (splitTarget target).1 = (splitTarget target').1 ∧ a.timestamp = a'.timestamp ∧
      a.random = a'.random ∧ a.uid = a'.uid ∧ key = key' := by
  have hhyphen : ∀ k, k = u.spec.primaryKey ∨ k = u.spec.backupKey → (45 : UInt8) ∉ k := by
    rintro k (rfl | rfl)
    · exact hyphen_not_mem_key hprimary
    · exact hyphen_not_mem_key hbackup
  have hsame := hmd5 _ (.inl ⟨key, hmem, rfl⟩) _ (.inr ⟨key', hmem', rfl⟩) a.digest
    (matchesKey_iff.mp hmatch).2 (hdigest ▸ (matchesKey_iff.mp hmatch').2)
  obtain ⟨ht, hr, hu, -⟩ := suppliedKey_parts hkey
  obtain ⟨ht', hr', hu', -⟩ := suppliedKey_parts hkey'
  exact signingText_inj ⟨ht, hr, hu⟩ ⟨ht', hr', hu'⟩ (hhyphen key hmem) (hhyphen key' hmem') hsame

theorem UrlAuthenticator.Signed.exists_key {target : Text} {now : Int64} {a : AuthKey}
    (h : u.Signed md5 target now a) : ∃ key, (key = u.spec.primaryKey ∨ key = u.spec.backupKey) ∧
      matchesKey md5 (splitTarget target).1 a key = true := by
  rcases h.matched with h | h
  · exact ⟨_, .inl rfl, h⟩
  · exact ⟨_, .inr rfl, h⟩

end Transplant

/-- `authenticate` never overflows. A URL on a protected path is allowed only in its time window. Two
URLs accepted with one digest have the same path, timestamp, random part and user, and were signed
with the same key. -/
theorem authenticate_signed (md5 : Text → Option Text) (spec : UrlAuthSpec) (u : UrlAuthenticator)
    (hspec : UrlAuthenticator.make spec = .ok u) :
    (∀ target now, (u.authenticate md5 target now).isSome = true) ∧
    (∀ target now r, u.authenticate md5 target now = some r → r.allowed = true →
      spec.enabled = true → u.protects (splitTarget target).1 = true →
      ∃ parsed a timestamp, suppliedKey target = some (parsed, a) ∧
        digitsValue a.timestamp = some timestamp ∧
        timestamp - 300 ≤ now.toInt ∧ now.toInt ≤ timestamp + spec.validitySeconds) ∧
    ∀ target now r parsed a target' now' r' parsed' a',
      u.authenticate md5 target now = some r → r.allowed = true → r.authenticationApplied = true →
      u.authenticate md5 target' now' = some r' → r'.allowed = true →
      r'.authenticationApplied = true →
      suppliedKey target = some (parsed, a) → suppliedKey target' = some (parsed', a') →
      Distinguishes md5 (spec.signingTexts target a ∪ spec.signingTexts target' a') →
      a.digest = a'.digest →
      (splitTarget target).1 = (splitTarget target').1 ∧ a.timestamp = a'.timestamp ∧
        a.random = a'.random ∧ a.uid = a'.uid ∧
        ∃ key, (key = spec.primaryKey ∨ key = spec.backupKey) ∧
          matchesKey md5 (splitTarget target).1 a key = true ∧
          matchesKey md5 (splitTarget target').1 a' key = true ∧
          ∀ key', (key' = spec.primaryKey ∨ key' = spec.backupKey) →
            matchesKey md5 (splitTarget target).1 a key' = true ∨
              matchesKey md5 (splitTarget target').1 a' key' = true → key' = key := by
  obtain ⟨rfl, hvalidity, hprimary, hbackup⟩ := make_spec hspec
  have hvalidity : u.spec.validitySeconds < 2 ^ 32 := by
    unfold maximumValiditySeconds at hvalidity
    omega
  have hcases := UrlAuthenticator.authenticate_cases hvalidity md5
  refine ⟨fun target now => ?_, fun target now r h hallowed henabled hprotects => ?_, ?_⟩
  · rcases hcases target now with ⟨-, h⟩ | h | ⟨_, _, -, h⟩
    all_goals rw [h]; rfl
  · rcases hcases target now with ⟨hbypass, -⟩ | hdenied | ⟨a, rewritten, hsigned, -⟩
    · rw [henabled, hprotects] at hbypass
      cases hbypass
    · rw [hdenied] at h
      cases h
      cases hallowed
    · obtain ⟨parsed, hkey⟩ := hsigned.supplied
      obtain ⟨timestamp, hwindow⟩ := hsigned.window
      exact ⟨parsed, a, timestamp, hkey, hwindow⟩
  · intro target now r parsed a target' now' r' parsed' a' h hallowed happlied h' hallowed' happlied'
      hkey hkey' hmd5 hdigest
    obtain ⟨key, hmem, hmatch⟩ := (signed_of_accepted hvalidity h hallowed happlied hkey).exists_key
    obtain ⟨key', hmem', hmatch'⟩ :=
      (signed_of_accepted hvalidity h' hallowed' happlied' hkey').exists_key
    obtain ⟨hpath, htimestamp, hrandom, huid, rfl⟩ :=
      transplant_fixed hprimary hbackup hkey hkey' hmd5 hdigest hmem hmem' hmatch hmatch'
    refine ⟨hpath, htimestamp, hrandom, huid, key, hmem, hmatch, hmatch', fun k hk hor => ?_⟩
    rcases hor with hor | hor
    · exact (transplant_fixed hprimary hbackup hkey hkey' hmd5 hdigest hk hmem hor hmatch').2.2.2.2
    · exact (transplant_fixed hprimary hbackup hkey hkey' hmd5 hdigest hmem hk hmatch
        hor).2.2.2.2.symm

/-- The example of the tests: the digest is that of the text signed with the key. -/
def videoSpec : UrlAuthSpec := { enabled := true, primaryKey := ascii "aliyuncdnexp1234" }

def videoMd5 (t : Text) : Option Text :=
  if t = ascii "/video/standard/test.mp4-1444435200-0-0-aliyuncdnexp1234" then
    some (ascii "23bf85053008f5c0e791667a313e28ce")
  else none

def videoKey : AuthKey :=
  ⟨ascii "1444435200", ascii "0", ascii "0", ascii "23bf85053008f5c0e791667a313e28ce"⟩

def videoTarget : Text := ascii
  "/video/standard/test.mp4?auth_key=1444435200-0-0-23bf85053008f5c0e791667a313e28ce&download=1"

def videoTarget' : Text := ascii
  "/video/standard/test.mp4?quality=hd&auth_key=1444435200-0-0-23bf85053008f5c0e791667a313e28ce"

theorem authenticate_signed_video :
    ∃ key, (key = videoSpec.primaryKey ∨ key = videoSpec.backupKey) ∧
      matchesKey videoMd5 (splitTarget videoTarget).1 videoKey key = true ∧
      matchesKey videoMd5 (splitTarget videoTarget').1 videoKey key = true := by
  have hmd5 : Distinguishes videoMd5
      (videoSpec.signingTexts videoTarget videoKey ∪ videoSpec.signingTexts videoTarget' videoKey) := by
    intro t _ t' _ digest h h'
    obtain ⟨ht, -⟩ := Option.ite_none_right_eq_some.mp h
    obtain ⟨ht', -⟩ := Option.ite_none_right_eq_some.mp h'
    rw [ht, ht']
  have hkey : suppliedKey videoTarget =
      some (⟨ascii "1444435200-0-0-23bf85053008f5c0e791667a313e28ce", [ascii "download=1"], 1⟩,
        videoKey) := by decide +kernel
  have hkey' : suppliedKey videoTarget' =
      some (⟨ascii "1444435200-0-0-23bf85053008f5c0e791667a313e28ce", [ascii "quality=hd"], 1⟩,
        videoKey) := by decide +kernel
  obtain ⟨-, -, hsame⟩ := authenticate_signed videoMd5 videoSpec ⟨videoSpec⟩ (by decide)
  obtain ⟨-, -, -, -, key, hmem, hmatch, hmatch', -⟩ := hsame videoTarget 1444435200
    ⟨true, true, ascii "/video/standard/test.mp4?download=1"⟩ _ videoKey videoTarget' 1444437000
    ⟨true, true, ascii "/video/standard/test.mp4?quality=hd"⟩ _ videoKey (by decide +kernel) rfl rfl
    (by decide +kernel) rfl rfl hkey hkey' hmd5 rfl
  exact ⟨key, hmem, hmatch, hmatch'⟩

end Policy
end WebServer
