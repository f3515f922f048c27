import WebServer.Policy.UrlAuth
import WebServer.Routing.HostGrammar

/-!
# WebServer.Routing.LongestMatch

Which virtual host a name is routed to, in terms of the configurations alone.

The constructor of `VirtualHostRouter` adds the domains one by one and then sorts the wildcards by
the length of their suffix. Sorting is not stable; `Built` leaves the order of suffixes of one length
open.

* `checkConfig`: the tests of the constructor that do not concern the domains.
* `foldlM_addHost_ok_iff`: what the constructor accepts, and what it has added then.
* `find_eq_some_iff`: the search through a sorted table.
* `longest_match`: the result, and that the order of the configurations decides nothing.
-/

namespace WebServer
namespace Routing

open Http
open Network (AddressText)
open Policy (Re2 RequestPolicy SitePolicySpec UrlAuthSpec UrlAuthenticator)

/-! ## Configurations -/

inductive BackendProtocol where
  | http
  | https
  deriving DecidableEq

structure BackendConfig where
  address : String
  port : ℕ
  protocol : BackendProtocol := .http
  host : String := ""
  tlsSni : String := ""
  tlsVerifyCertificate : Bool := true
  connectTimeoutSeconds : ℕ := 5
  responseTimeoutSeconds : ℕ := 60
  keepAlive : Bool := true

structure BackendOverloadConfig where
  siteId : ℤ := 0
  siteName : String := ""
  maximumActiveConnections : ℕ := 200
  maximumQueue : ℕ := 1000
  queueTimeoutSeconds : ℕ := 5

structure VirtualHostConfig where
  name : String
  domains : List String
  backend : BackendConfig
  policy : SitePolicySpec := {}
  overload : BackendOverloadConfig := {}
  urlAuth : UrlAuthSpec := {}

def validTimeout (seconds : ℕ) : Bool := seconds ≠ 0 && seconds ≤ 86400

def checkLimits (backend : BackendConfig) (overload : BackendOverloadConfig) : Except String Unit := do
  if backend.port = 0 then throw "backend port cannot be zero"
  if !validTimeout backend.connectTimeoutSeconds || !validTimeout backend.responseTimeoutSeconds then
    throw "backend timeouts must be between 1 and 86400 seconds"
  if overload.maximumActiveConnections = 0 ∨ 100000 < overload.maximumActiveConnections then
    throw "backend maximum active connections must be between 1 and 100000"
  if 1000000 < overload.maximumQueue then throw "backend maximum queue cannot exceed 1000000"
  if !validTimeout overload.queueTimeoutSeconds then
    throw "backend queue timeout must be between 1 and 86400 seconds"

def checkNames (lib : AddressText) (backend : BackendConfig) : Except String Unit := do
  if (lib.makeAddress (utf8 backend.address)).isNone ∧
      (normalizeDomain (utf8 backend.address)).isNone then
    throw ("invalid backend address: " ++ backend.address)
  if backend.host ≠ "" ∧ (normalizeAuthority (utf8 backend.host)).isNone then
    throw ("invalid backend Host: " ++ backend.host)
  if backend.tlsSni ≠ "" ∧ (normalizeDomain (utf8 backend.tlsSni)).isNone then
    throw ("invalid backend TLS SNI: " ++ backend.tlsSni)
  if backend.protocol = .http ∧ backend.tlsSni ≠ "" then
    throw "backend TLS SNI requires HTTPS protocol"

/-- The policy and the authenticator are made as well; they throw for themselves. -/
def checkConfig (re2 : Re2) (lib : AddressText) (config : VirtualHostConfig) :
    Except String Unit := do
  if config.name = "" then throw "virtual host name cannot be empty"
  if config.domains = [] then throw "virtual host must bind at least one domain"
  checkLimits config.backend config.overload
  checkNames lib config.backend
  let _ ← (RequestPolicy.make re2 lib config.policy (config.domains.map utf8)).mapError asciiString
  let _ ← (UrlAuthenticator.make config.urlAuth).mapError asciiString

/-! ## Tables -/

namespace HostTable

variable {α : Type}

def entries (t : HostTable α) : Bool → List (Text × α)
  | false => t.exact
  | true => t.wildcard

def add (t : HostTable α) (wildcard : Bool) (e : Text × α) : HostTable α :=
  match wildcard with
  | false => { t with exact := t.exact ++ [e] }
  | true => { t with wildcard := t.wildcard ++ [e] }

def keys (t : HostTable α) : List (Bool × Text) :=
  t.exact.map (fun e => (false, e.1)) ++ t.wildcard.map fun e => (true, e.1)

theorem keys_add (t : HostTable α) (wildcard : Bool) (e : Text × α) :
    (t.add wildcard e).keys.Perm (t.keys ++ [(wildcard, e.1)]) := by
  cases wildcard with
  | false =>
    simp only [keys, add, List.map_append, List.map_cons, List.map_nil, List.append_assoc]
    exact List.perm_append_comm.append_left _
  | true => simp [keys, add]

theorem mem_keys {t : HostTable α} {wildcard : Bool} {d : Text} :
    (wildcard, d) ∈ t.keys ↔ ∃ a, (d, a) ∈ t.entries wildcard := by
  cases wildcard <;> simp [keys, entries]

theorem nodup_entries {t : HostTable α} (h : t.keys.Nodup) (wildcard : Bool) :
    ((t.entries wildcard).map Prod.fst).Nodup := by
  cases wildcard with
  | false =>
    refine List.Nodup.of_map (fun d => (false, d)) ?_
    rw [List.map_map]
    exact h.of_append_left
  | true =>
    refine List.Nodup.of_map (fun d => (true, d)) ?_
    rw [List.map_map]
    exact h.of_append_right

theorem mem_entries_add {t : HostTable α} {wildcard w : Bool} {e e' : Text × α} :
    e ∈ (t.add wildcard e').entries w ↔ e ∈ t.entries w ∨ (w = wildcard ∧ e = e') := by
  cases wildcard <;> cases w <;> simp [entries, add]

/-- The outcome of `std::sort` with the comparison by length. -/
structure Sorts (t t' : HostTable α) : Prop where
  exact : t'.exact = t.exact
  perm : t'.wildcard.Perm t.wildcard
  sorted : t'.wildcard.Pairwise fun a b => b.1.length ≤ a.1.length

theorem sorts_sorted (t : HostTable α) : t.Sorts t.sorted := by
  refine ⟨rfl, List.mergeSort_perm _ _, ?_⟩
  have hsorted : t.sorted.wildcard.Pairwise fun a b => decide (b.1.length ≤ a.1.length) = true :=
    List.pairwise_mergeSort
    (fun a b c hab hbc => by simp only [decide_eq_true_eq] at *; omega)
    (fun a b => by simp only [Bool.or_eq_true, decide_eq_true_eq]; omega) t.wildcard
  exact hsorted.imp (by simp)

/-- The first match in a sorted list comes before every other one. -/
theorem find?_sorted {β : Type} {R : β → β → Prop} {l : List β} (hl : l.Pairwise R) {p : β → Bool}
    {e : β} (h : l.find? p = some e) : ∀ e' ∈ l, p e' = true → e' = e ∨ R e e' := by
  obtain ⟨-, before, after, rfl, hbefore⟩ := List.find?_eq_some_iff_append.mp h
  intro e' he' hp
  rcases List.mem_append.mp he' with he' | he'
  · have hnot := hbefore e' he'
    rw [hp] at hnot
    cases hnot
  · rcases List.mem_cons.mp he' with rfl | he'
    · exact .inl rfl
    · exact .inr ((List.pairwise_cons.mp (List.pairwise_append.mp hl).2.1).1 e' he')

/-- The longest suffix among the wildcards that match. -/
def Longest (t : HostTable α) (host : Text) (a : α) : Prop :=
  ∃ s, (s, a) ∈ t.wildcard ∧ (subdomain s host).isSome = true ∧
    ∀ s' b, (s', b) ∈ t.wildcard → (subdomain s' host).isSome = true → s'.length ≤ s.length

theorem find?_eq_some_iff_longest {t : HostTable α} (hkeys : (t.wildcard.map Prod.fst).Nodup)
    (hsorted : t.wildcard.Pairwise fun a b => b.1.length ≤ a.1.length) {host : Text} {a : α} :
    (t.wildcard.find? fun e => (subdomain e.1 host).isSome).map Prod.snd = some a ↔
      t.Longest host a := by
  constructor
  · intro h
    obtain ⟨⟨s, b⟩, hfind, rfl⟩ := Option.map_eq_some_iff.mp h
    refine ⟨s, List.mem_of_find?_eq_some hfind, by simpa using List.find?_some hfind, ?_⟩
    intro s' b' hmem hmatch
    rcases find?_sorted hsorted hfind (s', b') hmem hmatch with heq | hle
    · cases heq
      exact le_rfl
    · exact hle
  · rintro ⟨s, hmem, hmatch, hlongest⟩
    cases hfind : t.wildcard.find? fun e => (subdomain e.1 host).isSome with
    | none =>
      rw [List.find?_eq_none] at hfind
      exact absurd hmatch (hfind (s, a) hmem)
    | some e =>
      have he := List.mem_of_find?_eq_some hfind
      have hematch : (subdomain e.1 host).isSome = true := by simpa using List.find?_some hfind
      have hlength : e.1.length = s.length := by
        refine le_antisymm (hlongest e.1 e.2 he hematch) ?_
        rcases find?_sorted hsorted hfind (s, a) hmem hmatch with heq | hle
        · rw [← heq]
        · exact hle
      have hsuffix := subdomain_suffix_unique hematch hmatch hlength
      have heq : e = (s, a) := List.inj_on_of_nodup_map hkeys he hmem hsuffix
      rw [heq]
      rfl

theorem lookup_eq_some_iff {t : HostTable α} (hkeys : (t.exact.map Prod.fst).Nodup) {host : Text}
    {a : α} : t.exact.lookup host = some a ↔ (host, a) ∈ t.exact := by
  constructor
  · exact mem_exact_of_lookup
  · intro h
    obtain ⟨b, hb⟩ := Option.isSome_iff_exists.mp (lookup_isSome_of_mem h)
    have heq : (host, b) = (host, a) :=
      List.inj_on_of_nodup_map hkeys (mem_exact_of_lookup hb) h rfl
    cases heq
    exact hb

theorem find_eq_some_iff {t : HostTable α} (hkeys : t.keys.Nodup)
    (hsorted : t.wildcard.Pairwise fun a b => b.1.length ≤ a.1.length) {host : Text} {a : α} :
    VirtualHostRouter.find t host = some a ↔
      (host, a) ∈ t.exact ∨ (∀ b, (host, b) ∉ t.exact) ∧ t.Longest host a := by
  have hexact : ∀ b, t.exact.lookup host = some b ↔ (host, b) ∈ t.exact :=
    fun b => lookup_eq_some_iff (nodup_entries hkeys false)
  have hwild : (t.wildcard.find? fun e => (subdomain e.1 host).isSome).map Prod.snd = some a ↔
      t.Longest host a := find?_eq_some_iff_longest (nodup_entries hkeys true) hsorted
  unfold VirtualHostRouter.find find
  cases hlookup : t.exact.lookup host with
  | some b =>
    have hb : (host, b) ∈ t.exact := (hexact b).mp hlookup
    rw [← hexact a, hlookup]
    constructor
    · exact .inl
    · rintro (h | ⟨h, -⟩)
      · exact h
      · exact absurd hb (h b)
  | none =>
    have hnone : ∀ b, (host, b) ∉ t.exact := by
      intro b hb
      rw [(hexact b).mpr hb] at hlookup
      cases hlookup
    simp only [Option.any_true]
    rw [hwild]
    constructor
    · exact fun h => .inr ⟨hnone, h⟩
    · rintro (h | ⟨-, h⟩)
      · exact absurd h (hnone a)
      · exact h

end HostTable

/-! ## The constructor -/

namespace VirtualHostRouter

open HostTable

variable {α : Type} {check : α → Except String Unit} {domains : α → List String}

/-- The kind of a pattern and its domain. -/
def key (pattern : String) : Bool × Text :=
  (isWildcard (utf8 pattern), (patternDomain (utf8 pattern)).getD [])

def ValidPattern (pattern : String) : Prop :=
  ∃ domain, patternDomain (utf8 pattern) = some domain ∧
    (isWildcard (utf8 pattern) = true → 46 ∈ domain)

def put (t : HostTable α) (e : α × String) : HostTable α := t.add (key e.2).1 ((key e.2).2, e.1)

theorem addPattern_ok_iff (host : α) (t t' : HostTable α) (pattern : String) :
    addPattern host t pattern = .ok t' ↔
      ValidPattern pattern ∧ key pattern ∉ t.keys ∧ t' = put t (host, pattern) := by
  unfold addPattern
  cases hdomain : patternDomain (utf8 pattern) with
  | none => simp [ValidPattern, hdomain]
  | some domain =>
    have hkey : key pattern = (isWildcard (utf8 pattern), domain) := by simp [key, hdomain]
    have hmem : ∀ l : List (Text × α), (l.any fun e => e.1 == domain) = true ↔
        ∃ a, (domain, a) ∈ l := by
      intro l
      rw [List.any_eq_true]
      constructor
      · rintro ⟨⟨d, a⟩, he, hd⟩
        rw [beq_iff_eq] at hd
        exact ⟨a, hd ▸ he⟩
      · rintro ⟨a, ha⟩
        exact ⟨_, ha, by simp⟩
    simp only [ValidPattern, hdomain, Option.some.injEq, exists_eq_left', put, hkey, mem_keys]
    cases hwild : isWildcard (utf8 pattern) with
    | true =>
      simp only [if_true, true_implies, entries, add]
      by_cases hdot : 46 ∈ domain
      · rw [if_neg (not_not.mpr hdot)]
        by_cases hdup : ∃ a, (domain, a) ∈ t.wildcard
        · rw [if_pos ((hmem _).mpr hdup)]
          exact ⟨fun h => (by cases h), fun h => absurd hdup h.2.1⟩
        · rw [if_neg fun h => hdup ((hmem _).mp h), Except.ok.injEq]
          exact ⟨fun h => ⟨hdot, hdup, h.symm⟩, fun h => h.2.2.symm⟩
      · rw [if_pos hdot]
        exact ⟨fun h => (by cases h), fun h => absurd h.1 hdot⟩
    | false =>
      simp only [Bool.false_eq_true, if_false, false_implies, true_and, entries, add]
      by_cases hdup : ∃ a, (domain, a) ∈ t.exact
      · rw [if_pos ((hmem _).mpr hdup)]
        exact ⟨fun h => (by cases h), fun h => absurd hdup h.1⟩
      · rw [if_neg fun h => hdup ((hmem _).mp h), Except.ok.injEq]
        exact ⟨fun h => ⟨hdup, h.symm⟩, fun h => h.2.symm⟩

/-- Every pattern with its host, in the order of the loops. -/
def patterns (domains : α → List String) (hosts : List α) : List (α × String) :=
  hosts.flatMap fun host => (domains host).map (host, ·)

theorem foldlM_addHost_eq (hosts : List α) (t t' : HostTable α) :
    hosts.foldlM (addHost check domains) t = .ok t' ↔
      (∀ host ∈ hosts, check host = .ok ()) ∧
        (patterns domains hosts).foldlM (fun t e => addPattern e.1 t e.2) t = .ok t' := by
  induction hosts generalizing t with
  | nil => simp [patterns]
  | cons host hosts ih =>
    have hpatterns : patterns domains (host :: hosts) =
        (domains host).map (host, ·) ++ patterns domains hosts := rfl
    rw [List.foldlM_cons, Result.bind_ok_iff, hpatterns, List.foldlM_append, Result.bind_ok_iff,
      List.foldlM_map, List.forall_mem_cons]
    constructor
    · rintro ⟨t₁, hadd, hrest⟩
      obtain ⟨u, hcheck, hadd⟩ := Result.bind_ok hadd
      obtain ⟨hchecks, hrest⟩ := (ih t₁).mp hrest
      exact ⟨⟨hcheck, hchecks⟩, t₁, hadd, hrest⟩
    · rintro ⟨⟨hcheck, hchecks⟩, t₁, hadd, hrest⟩
      refine ⟨t₁, ?_, (ih t₁).mpr ⟨hchecks, hrest⟩⟩
      rw [addHost, hcheck]
      exact hadd

/-- What the constructor accepts: the order of the hosts does not matter. -/
structure Accepts (check : α → Except String Unit) (domains : α → List String) (hosts : List α) :
    Prop where
  checks : ∀ host ∈ hosts, check host = .ok ()
  valid : ∀ e ∈ patterns domains hosts, ValidPattern e.2
  distinct : ((patterns domains hosts).map fun e => key e.2).Nodup

theorem foldlM_addHost_ok_iff {hosts : List α} {t : HostTable α} :
    hosts.foldlM (addHost check domains) .empty = .ok t ↔
      Accepts check domains hosts ∧ t = (patterns domains hosts).foldl put .empty := by
  have hloop : (patterns domains hosts).foldlM (fun t e => addPattern e.1 t e.2) .empty = .ok t ↔
      (∀ e ∈ patterns domains hosts, ValidPattern e.2) ∧
        (keys (.empty : HostTable α) ++ (patterns domains hosts).map fun e => key e.2).Nodup ∧
        t = (patterns domains hosts).foldl put .empty := by
    have hadd : ∀ (t : HostTable α) (e : α × String) (t' : HostTable α), addPattern e.1 t e.2 = .ok t' ↔
        ValidPattern e.2 ∧ key e.2 ∉ keys t ∧ t' = put t e :=
      fun t e t' => addPattern_ok_iff e.1 t t' e.2
    have hkeys : ∀ (t : HostTable α) (e : α × String),
        (keys (put t e)).Perm (keys t ++ [key e.2]) := fun t e => keys_add t _ _
    exact Result.foldlM_put_ok_iff hadd hkeys List.nodup_nil
  rw [foldlM_addHost_eq, hloop]
  constructor
  · rintro ⟨hchecks, hvalid, hdistinct, ht⟩
    exact ⟨⟨hchecks, hvalid, hdistinct⟩, ht⟩
  · rintro ⟨h, ht⟩
    exact ⟨h.checks, h.valid, h.distinct, ht⟩

theorem Accepts.perm {hosts hosts' : List α} (h : Accepts check domains hosts)
    (hp : hosts.Perm hosts') : Accepts check domains hosts' := by
  have hpatterns : (patterns domains hosts).Perm (patterns domains hosts') := hp.flatMap_right _
  exact ⟨fun host hm => h.checks host (hp.mem_iff.mpr hm),
    fun e he => h.valid e (hpatterns.mem_iff.mpr he),
    (hpatterns.map _).nodup_iff.mp h.distinct⟩

theorem keys_foldl_put (l : List (α × String)) (t : HostTable α) :
    (l.foldl put t).keys.Perm (t.keys ++ l.map fun e => key e.2) := by
  induction l generalizing t with
  | nil => simp
  | cons e l ih =>
    rw [List.foldl_cons, List.map_cons]
    have happend := (keys_add t (key e.2).1 ((key e.2).2, e.1)).append_right (l.map fun e => key e.2)
    rw [List.append_assoc, List.singleton_append] at happend
    exact (ih (put t e)).trans happend

theorem mem_foldl_put {l : List (α × String)} {t : HostTable α} {wildcard : Bool} {d : Text} {a : α} :
    (d, a) ∈ (l.foldl put t).entries wildcard ↔
      (d, a) ∈ t.entries wildcard ∨ ∃ p, (a, p) ∈ l ∧ key p = (wildcard, d) := by
  induction l generalizing t with
  | nil => simp
  | cons e l ih =>
    rw [List.foldl_cons, ih, put, mem_entries_add, or_assoc]
    refine or_congr_right ?_
    constructor
    · rintro (⟨rfl, he⟩ | ⟨p, hp, hkey⟩)
      · cases he
        exact ⟨e.2, by simp, rfl⟩
      · exact ⟨p, by simp [hp], hkey⟩
    · rintro ⟨p, hp, hkey⟩
      rcases List.mem_cons.mp hp with rfl | hp
      · exact .inl (by simp [hkey])
      · exact .inr ⟨p, hp, hkey⟩

/-! ## Owners -/

/-- The host has this domain, after normalization, as a name or as a wildcard. -/
def Owns (domains : α → List String) (wildcard : Bool) (host : α) (domain : Text) : Prop :=
  ∃ p ∈ domains host, isWildcard (utf8 p) = wildcard ∧ patternDomain (utf8 p) = some domain

/-- The name ends with a dot and the suffix, and something stands before them. -/
def Covers (suffix name : Text) : Prop := ∃ label, label ≠ [] ∧ name = label ++ 46 :: suffix

/-- What the routing of a name should be. -/
inductive Routed (domains : α → List String) (hosts : List α) (name : Text) (host : α) : Prop where
  | exact (hmem : host ∈ hosts) (howns : Owns domains false host name)
  | wildcard {suffix : Text} (hmem : host ∈ hosts)
    (hnone : ∀ other ∈ hosts, ¬ Owns domains false other name)
    (howns : Owns domains true host suffix) (hcovers : Covers suffix name)
    (hlongest : ∀ other ∈ hosts, ∀ suffix', Owns domains true other suffix' → Covers suffix' name →
      suffix'.length ≤ suffix.length)

theorem Routed.perm {hosts hosts' : List α} (hp : hosts.Perm hosts') {name : Text} {host : α}
    (h : Routed domains hosts name host) : Routed domains hosts' name host := by
  cases h with
  | exact hmem howns => exact .exact (hp.mem_iff.mp hmem) howns
  | wildcard hmem hnone howns hcovers hlongest =>
    exact .wildcard (hp.mem_iff.mp hmem) (fun other ho => hnone other (hp.mem_iff.mpr ho)) howns
      hcovers fun other ho => hlongest other (hp.mem_iff.mpr ho)

theorem Accepts.mem_entries_iff {hosts : List α} (h : Accepts check domains hosts) (wildcard : Bool)
    {d : Text} {host : α} :
    (d, host) ∈ ((patterns domains hosts).foldl put .empty).entries wildcard ↔
      host ∈ hosts ∧ Owns domains wildcard host d := by
  have hempty : (d, host) ∉ (HostTable.empty : HostTable α).entries wildcard := by
    cases wildcard <;> simp [HostTable.empty, entries]
  rw [mem_foldl_put, or_iff_right hempty]
  have hmem : ∀ p, (host, p) ∈ patterns domains hosts ↔ host ∈ hosts ∧ p ∈ domains host := by
    intro p
    simp only [patterns, List.mem_flatMap, List.mem_map, Prod.mk.injEq]
    constructor
    · rintro ⟨host', hhost, p', hp, rfl, rfl⟩
      exact ⟨hhost, hp⟩
    · rintro ⟨hhost, hp⟩
      exact ⟨host, hhost, p, hp, rfl, rfl⟩
  constructor
  · rintro ⟨p, hp, hkey⟩
    obtain ⟨domain, hdomain, -⟩ := h.valid _ hp
    simp only [key, hdomain, Option.getD_some, Prod.mk.injEq] at hkey
    obtain ⟨hwild, rfl⟩ := hkey
    exact ⟨((hmem p).mp hp).1, p, ((hmem p).mp hp).2, hwild, hdomain⟩
  · rintro ⟨hhost, p, hp, hwild, hdomain⟩
    exact ⟨p, (hmem p).mpr ⟨hhost, hp⟩, by simp [key, hwild, hdomain]⟩

/-- The tables that the constructor may leave behind. -/
def Built (check : α → Except String Unit) (domains : α → List String) (hosts : List α)
    (t : HostTable α) : Prop :=
  ∃ t₀, hosts.foldlM (addHost check domains) .empty = .ok t₀ ∧ t₀.Sorts t

theorem exists_built_iff {hosts : List α} :
    (∃ t, Built check domains hosts t) ↔ Accepts check domains hosts := by
  constructor
  · rintro ⟨t, t₀, h, -⟩
    exact (foldlM_addHost_ok_iff.mp h).1
  · intro h
    exact ⟨_, _, foldlM_addHost_ok_iff.mpr ⟨h, rfl⟩, sorts_sorted _⟩

/-- The search through any of the tables, for a name that does not start with a dot. -/
theorem Built.find_eq_some_iff {hosts : List α} {t : HostTable α} (h : Built check domains hosts t)
    {name : Text} (hname : name.head? ≠ some 46) {host : α} :
    find t name = some host ↔ Routed domains hosts name host := by
  obtain ⟨t₀, hfold, hsorts⟩ := h
  obtain ⟨haccepts, rfl⟩ := foldlM_addHost_ok_iff.mp hfold
  have hexact : ∀ other, (name, other) ∈ t.exact ↔ other ∈ hosts ∧ Owns domains false other name := by
    intro other
    rw [hsorts.exact]
    exact haccepts.mem_entries_iff false
  have hwild : ∀ suffix other, (suffix, other) ∈ t.wildcard ↔
      other ∈ hosts ∧ Owns domains true other suffix := by
    intro suffix other
    rw [hsorts.perm.mem_iff]
    exact haccepts.mem_entries_iff true
  have hcovers : ∀ suffix, (subdomain suffix name).isSome = true ↔ Covers suffix name := by
    intro suffix
    rw [subdomain_isSome_iff]
    constructor
    · rintro ⟨label, rfl⟩
      refine ⟨label, ?_, rfl⟩
      rintro rfl
      exact hname rfl
    · rintro ⟨label, -, rfl⟩
      exact ⟨label, rfl⟩
  have hkeys : t.keys.Nodup := by
    have hperm : t.keys.Perm ((patterns domains hosts).foldl put .empty).keys := by
      simp only [keys, hsorts.exact]
      exact (hsorts.perm.map _).append_left _
    rw [hperm.nodup_iff, (keys_foldl_put _ _).nodup_iff]
    exact haccepts.distinct
  rw [HostTable.find_eq_some_iff hkeys hsorts.sorted, hexact]
  constructor
  · rintro (⟨hmem, howns⟩ | ⟨hnone, suffix, hmem, hmatch, hlongest⟩)
    · exact .exact hmem howns
    · obtain ⟨hmem, howns⟩ := (hwild suffix host).mp hmem
      refine .wildcard hmem (fun other ho howns => hnone other ((hexact other).mpr ⟨ho, howns⟩)) howns
        ((hcovers suffix).mp hmatch) ?_
      intro other ho suffix' howns' hcovers'
      exact hlongest suffix' other ((hwild suffix' other).mpr ⟨ho, howns'⟩)
        ((hcovers suffix').mpr hcovers')
  · intro h
    cases h with
    | exact hmem howns => exact .inl ⟨hmem, howns⟩
    | @wildcard suffix hmem hnone howns hcover hlongest =>
      refine .inr ⟨fun other ho => ?_, suffix, (hwild suffix host).mpr ⟨hmem, howns⟩,
        (hcovers suffix).mpr hcover, fun suffix' other hmem' hmatch' => ?_⟩
      · obtain ⟨ho, howns'⟩ := (hexact other).mp ho
        exact hnone other ho howns'
      · obtain ⟨ho, howns'⟩ := (hwild suffix' other).mp hmem'
        exact hlongest other ho suffix' howns' ((hcovers suffix').mp hmatch')

end VirtualHostRouter

/-! ## Normalized names -/

/-- A name that `HostNormalizer` returns. -/
def Normalized (name : Text) : Prop := ∃ authority, normalizeAuthority authority = some name

theorem LooseQuad.head?_ne {t : Text} (h : LooseQuad t) : t.head? ≠ some 46 := by
  have hquad : ∀ {q : Text}, Quad q → q.head? ≠ some 46 := by
    rintro q ⟨octets, hcount, hoctets, rfl⟩
    have hne : octets ≠ [] := by rintro rfl; cases hcount
    exact (Octet.pieces hne hoctets).head?_ne
  rcases h with h | ⟨q, h, rfl⟩
  · exact hquad h
  · rw [List.head?_append_of_ne_nil _ h.ne_nil]
    exact hquad h

theorem Groups.head?_ne {t : Text} {n : ℕ} (h : Groups LooseQuad t n) : t.head? ≠ some 46 := by
  cases h with
  | @hex groups hgroups =>
    intro hhead
    exact Groups.dot_not_mem (.hex hgroups) (List.mem_of_head? hhead)
  | @tail groups q hgroups hq =>
    cases groups with
    | nil => simpa using hq.head?_ne
    | cons g groups =>
      rw [List.cons_append, Joined.intercalate_cons (by simp),
        List.head?_append_of_ne_nil _ (hgroups g (by simp)).nonempty]
      intro hhead
      exact (hgroups g (by simp)).free.2 (List.mem_of_head? hhead)

theorem Normalized.head?_ne {name : Text} (h : Normalized name) : name.head? ≠ some 46 := by
  have hlower : ∀ {t : Text}, t.head? ≠ some 46 → (t.map lower).head? ≠ some 46 := by
    intro t ht hhead
    rw [List.head?_map, Option.map_eq_some_iff] at hhead
    obtain ⟨b, hb, hdot⟩ := hhead
    exact ht (eq_of_lower_eq_dot hdot ▸ hb)
  have hdns : ∀ {t : Text}, DnsName t → t.head? ≠ some 46 := by
    rintro t ⟨labels, hne, hlabels, rfl, -⟩
    exact (Label.pieces hne hlabels).head?_ne
  obtain ⟨authority, hauthority⟩ := h
  obtain ⟨t, part, hhost, -, -⟩ := normalizeAuthority_eq_some_iff.mp hauthority
  cases hhost with
  | name h => exact hlower (hdns h)
  | dotted h => exact hlower (hdns h)
  | ipv6 h =>
    refine hlower ?_
    cases h with
    | full h => exact h.head?_ne
    | @compressed l r m n hl hr hlt =>
      cases l with
      | nil => simp
      | cons b l =>
        intro hhead
        cases hhead
        exact hl.dot_not_mem (by simp)

/-- The constructor accepts a list of configurations in every order or in none. A normalized name is
routed to the owner of the name itself, else to the owner of the longest wildcard suffix of it; the
order of the configurations, and the order that the sort gives to suffixes of one length, decide
nothing. -/
theorem longest_match (re2 : Re2) (lib : AddressText) (configs configs' : List VirtualHostConfig)
    (hp : configs.Perm configs') :
    ((∃ t, VirtualHostRouter.Built (checkConfig re2 lib) (·.domains) configs t) ↔
      ∃ t, VirtualHostRouter.Built (checkConfig re2 lib) (·.domains) configs' t) ∧
    ∀ t, VirtualHostRouter.Built (checkConfig re2 lib) (·.domains) configs t →
      ∀ name, Normalized name →
        (∀ config, VirtualHostRouter.find t name = some config ↔
          VirtualHostRouter.Routed (·.domains) configs name config) ∧
        ∀ t', VirtualHostRouter.Built (checkConfig re2 lib) (·.domains) configs' t' →
          VirtualHostRouter.find t' name = VirtualHostRouter.find t name := by
  constructor
  · rw [VirtualHostRouter.exists_built_iff, VirtualHostRouter.exists_built_iff]
    exact ⟨fun h => h.perm hp, fun h => h.perm hp.symm⟩
  · intro t ht name hname
    refine ⟨fun config => ht.find_eq_some_iff hname.head?_ne, fun t' ht' => ?_⟩
    refine Option.ext fun config => ?_
    rw [ht.find_eq_some_iff hname.head?_ne, ht'.find_eq_some_iff hname.head?_ne]
    exact ⟨fun h => h.perm hp.symm, fun h => h.perm hp⟩

/-! ## A wildcard inside another one -/

namespace Nested

def noRegex : Re2 := ⟨fun _ _ => false, fun _ _ _ => false⟩

def outer : VirtualHostConfig where
  name := "outer"
  domains := ["a.test", "*.a.test"]
  backend := { address := "192.0.2.1", port := 8080 }

def inner : VirtualHostConfig where
  name := "inner"
  domains := ["*.B.a.test."]
  backend := { address := "192.0.2.2", port := 8080 }

/-- The longer suffix comes first here already. -/
def table : HostTable VirtualHostConfig where
  exact := [(ascii "a.test", outer)]
  wildcard := [(ascii "b.a.test", inner), (ascii "a.test", outer)]

end Nested

open Nested in
theorem longest_match_nested :
    ∃ t, VirtualHostRouter.Built (checkConfig noRegex .dotted) (·.domains) [outer, Nested.inner] t ∧
      VirtualHostRouter.find t (ascii "x.b.a.test") = some Nested.inner := by
  have hbuilt : VirtualHostRouter.Built (checkConfig noRegex .dotted) (·.domains) [Nested.inner, outer]
      table := by
    refine ⟨table, by rfl, rfl, .refl _, ?_⟩
    simp only [table, List.pairwise_cons]
    decide
  obtain ⟨hexists, hfind⟩ := longest_match noRegex .dotted [Nested.inner, outer] [outer, Nested.inner]
    (List.Perm.swap _ _ _)
  obtain ⟨t, ht⟩ := hexists.mp ⟨_, hbuilt⟩
  refine ⟨t, ht, ?_⟩
  rw [(hfind _ hbuilt (ascii "x.b.a.test") ⟨ascii "X.b.a.test:80", by decide⟩).2 t ht]
  rfl

end Routing
end WebServer
