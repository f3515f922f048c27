import WebServer.Config.Runtime
import WebServer.Routing.Router

/-!
# WebServer.Tls.Contexts

`TlsContextManager`: the certificate for a server name.

A certificate is bound to domains. A wildcard covers exactly one more label, in the selection
(`find`) as in the match (`matchesDomain`). What OpenSSL makes of the certificate itself is a
parameter. Certificates come as PEM texts; those in files, which no caller configures, are left out.
-/

namespace WebServer
namespace Tls

open Http
open Config (TlsCertificateConfig Error)
open Routing

/-- `SslContextHolder`: `config` is what the context was made from. -/
structure ContextHolder where
  config : TlsCertificateConfig
  exactDomains : List Text
  wildcardDomains : List Text

structure ContextManager where
  contexts : List ContextHolder
  table : HostTable ContextHolder
  defaultContext : Option ContextHolder
  rejectUnknownSni : Bool

/-- `TlsConnectionState` -/
structure ConnectionState where
  selectedContext : Option ContextHolder
  sniHost : Option Text

/-- A wildcard stands for one label. -/
def oneLabel (label : Text) : Bool := 46 ∉ label

namespace ContextHolder

structure Patterns where
  exact : List Text
  wildcard : List Text

def addDomain (name : String) (ps : Patterns) (pattern : String) : Except Error Patterns :=
  match patternDomain (utf8 pattern) with
  | none => .error ("invalid TLS certificate domain: " ++ pattern)
  | some domain =>
    if isWildcard (utf8 pattern) then
      if 46 ∉ domain then .error ("TLS wildcard domain is too broad: " ++ pattern)
      else if domain ∈ ps.wildcard then
        .error ("duplicate domain on TLS certificate '" ++ name ++ "': " ++ pattern)
      else .ok { ps with wildcard := ps.wildcard ++ [domain] }
    else if domain ∈ ps.exact then
      .error ("duplicate domain on TLS certificate '" ++ name ++ "': " ++ pattern)
    else .ok { ps with exact := ps.exact ++ [domain] }

def normalizeDomains (config : TlsCertificateConfig) : Except Error Patterns :=
  if config.domains = [] then
    .error ("TLS certificate '" ++ config.name ++ "' must bind at least one domain")
  else config.domains.foldlM (addDomain config.name) ⟨[], []⟩

/-- `openssl` loads the certificate, checks it against the domains and sets up the context. The paths
of a certificate without PEM texts are empty. -/
def make (openssl : TlsCertificateConfig → Patterns → Except Error Unit)
    (config : TlsCertificateConfig) : Except Error ContextHolder := do
  if config.name = "" then throw "TLS certificate name cannot be empty"
  let inlinePem := config.certificateChainPem ≠ "" ∨ config.privateKeyPem ≠ ""
  if inlinePem ∧ (config.certificateChainPem = "" ∨ config.privateKeyPem = "") then
    throw ("TLS certificate '" ++ config.name ++
      "' must provide both certificate PEM and private key PEM")
  if ¬ inlinePem then
    throw ("TLS certificate and private-key paths cannot be empty for '" ++ config.name ++ "'")
  let ps ← normalizeDomains config
  openssl config ps
  return ⟨config, ps.exact, ps.wildcard⟩

def matchesDomain (c : ContextHolder) (normalizedHost : Text) : Bool :=
  normalizedHost ∈ c.exactDomains ||
    c.wildcardDomains.any fun suffix => (subdomain suffix normalizedHost).any oneLabel

end ContextHolder

namespace ContextManager

def addExact (holder : ContextHolder) (t : HostTable ContextHolder) (domain : Text) :
    Except Error (HostTable ContextHolder) :=
  if t.exact.any (fun e => e.1 == domain) then
    .error ("duplicate TLS certificate domain: " ++ asciiString domain)
  else .ok { t with exact := t.exact ++ [(domain, holder)] }

def addWildcard (holder : ContextHolder) (t : HostTable ContextHolder) (suffix : Text) :
    Except Error (HostTable ContextHolder) :=
  if t.wildcard.any (fun e => e.1 == suffix) then
    .error ("duplicate TLS certificate domain: *." ++ asciiString suffix)
  else .ok { t with wildcard := t.wildcard ++ [(suffix, holder)] }

/-- The first name that has been seen before. -/
def firstDuplicate (seen : List String) : List String → Option String
  | [] => none
  | n :: rest => if n ∈ seen then some n else firstDuplicate (n :: seen) rest

/-- `noDefault`: no certificate is marked, and the first one is the default. -/
def addCertificate (openssl : TlsCertificateConfig → ContextHolder.Patterns → Except Error Unit)
    (noDefault : Bool) (m : ContextManager) (config : TlsCertificateConfig) :
    Except Error ContextManager := do
  let holder ← ContextHolder.make openssl config
  let t ← holder.exactDomains.foldlM (addExact holder) m.table
  let t ← holder.wildcardDomains.foldlM (addWildcard holder) t
  return {
    m with
    contexts := m.contexts ++ [holder]
    table := t
    defaultContext :=
      if config.isDefault || (m.defaultContext.isNone && noDefault) then some holder
      else m.defaultContext }

def make (openssl : TlsCertificateConfig → ContextHolder.Patterns → Except Error Unit)
    (certificates : List TlsCertificateConfig) (rejectUnknownSni : Bool) :
    Except Error ContextManager := do
  if certificates = [] then throw "HTTPS listener requires at least one TLS certificate"
  match firstDuplicate [] (certificates.map (·.name)) with
  | some n => throw ("duplicate TLS certificate name: " ++ n)
  | none => pure ()
  if 1 < certificates.countP (·.isDefault) then
    throw "only one TLS certificate can be the default"
  let m ← certificates.foldlM (addCertificate openssl (certificates.all fun c => !c.isDefault))
    ⟨[], .empty, none, rejectUnknownSni⟩
  return { m with table := m.table.sorted }

def find (m : ContextManager) (normalizedHost : Text) : Option ContextHolder :=
  m.table.find oneLabel normalizedHost

def canServeDomain (m : ContextManager) (pattern : Text) : Bool :=
  match patternDomain pattern with
  | none => false
  | some normalized =>
    if isWildcard pattern then m.contexts.any fun c => normalized ∈ c.wildcardDomains
    else (m.find normalized).any fun c => c.matchesDomain normalized

/-- `none` ends the handshake with an alert. -/
def serverNameCallback (m : ContextManager) (serverName : Option Text) : Option ConnectionState :=
  match serverName with
  | none => some ⟨m.defaultContext, none⟩
  | some name =>
    let normalized := normalizeDomain name
    match normalized.bind m.find with
    | none => if m.rejectUnknownSni then none else some ⟨m.defaultContext, normalized⟩
    | some selected => some ⟨some selected, normalized⟩

end ContextManager

/-! ## Selection and match agree -/

namespace ContextManager

/-- The table has the domains of the contexts, no more and no less. -/
structure Coherent (contexts : List ContextHolder) (t : HostTable ContextHolder) : Prop where
  exact : ∀ d c, (d, c) ∈ t.exact ↔ c ∈ contexts ∧ d ∈ c.exactDomains
  wildcard : ∀ d c, (d, c) ∈ t.wildcard ↔ c ∈ contexts ∧ d ∈ c.wildcardDomains

variable {openssl : TlsCertificateConfig → ContextHolder.Patterns → Except Error Unit}

theorem foldlM_addExact {holder : ContextHolder} {domains : List Text}
    {t t' : HostTable ContextHolder} (h : domains.foldlM (addExact holder) t = .ok t') :
    t' = { t with exact := t.exact ++ domains.map fun d => (d, holder) } := by
  induction domains generalizing t with
  | nil => cases h; simp
  | cons d domains ih =>
    rw [List.foldlM_cons] at h
    unfold addExact at h
    split at h
    · cases h
    · rw [ih h]
      simp

theorem foldlM_addWildcard {holder : ContextHolder} {suffixes : List Text}
    {t t' : HostTable ContextHolder} (h : suffixes.foldlM (addWildcard holder) t = .ok t') :
    t' = { t with wildcard := t.wildcard ++ suffixes.map fun d => (d, holder) } := by
  induction suffixes generalizing t with
  | nil => cases h; simp
  | cons d suffixes ih =>
    rw [List.foldlM_cons] at h
    unfold addWildcard at h
    split at h
    · cases h
    · rw [ih h]
      simp

/-- What adding one certificate does. -/
theorem addCertificate_ok {noDefault : Bool} {m m' : ContextManager} {config : TlsCertificateConfig}
    (h : addCertificate openssl noDefault m config = .ok m') :
    ∃ holder, ContextHolder.make openssl config = .ok holder ∧
      m' = { m with
        contexts := m.contexts ++ [holder]
        table := ⟨m.table.exact ++ holder.exactDomains.map fun d => (d, holder),
          m.table.wildcard ++ holder.wildcardDomains.map fun d => (d, holder)⟩
        defaultContext := if config.isDefault || (m.defaultContext.isNone && noDefault) then
          some holder else m.defaultContext } := by
  unfold addCertificate at h
  cases hh : ContextHolder.make openssl config with
  | error e => rw [hh] at h; cases h
  | ok holder =>
    simp only [hh, bind, Except.bind] at h
    refine ⟨holder, rfl, ?_⟩
    split at h
    · cases h
    · rename_i t ht
      split at h
      · cases h
      · rename_i t' ht'
        cases h
        rw [foldlM_addWildcard ht', foldlM_addExact ht]

theorem Coherent.addCertificate {noDefault : Bool} {m m' : ContextManager}
    {config : TlsCertificateConfig} (hm : Coherent m.contexts m.table)
    (h : ContextManager.addCertificate openssl noDefault m config = .ok m') :
    Coherent m'.contexts m'.table := by
  obtain ⟨holder, -, rfl⟩ := addCertificate_ok h
  constructor
  · intro d c
    simp only [List.mem_append, hm.exact d c, List.mem_map, Prod.mk.injEq, List.mem_singleton]
    constructor
    · rintro (⟨hc, hd⟩ | ⟨d', hd', rfl, rfl⟩)
      · exact ⟨.inl hc, hd⟩
      · exact ⟨.inr rfl, hd'⟩
    · rintro ⟨hc | rfl, hd⟩
      · exact .inl ⟨hc, hd⟩
      · exact .inr ⟨d, hd, rfl, rfl⟩
  · intro d c
    simp only [List.mem_append, hm.wildcard d c, List.mem_map, Prod.mk.injEq, List.mem_singleton]
    constructor
    · rintro (⟨hc, hd⟩ | ⟨d', hd', rfl, rfl⟩)
      · exact ⟨.inl hc, hd⟩
      · exact ⟨.inr rfl, hd'⟩
    · rintro ⟨hc | rfl, hd⟩
      · exact .inl ⟨hc, hd⟩
      · exact .inr ⟨d, hd, rfl, rfl⟩

/-- The constructor is its loop, once the tests before it are passed. -/
theorem make_ok {certificates : List TlsCertificateConfig} {reject : Bool} {m : ContextManager}
    (h : make openssl certificates reject = .ok m) :
    ∃ m₀, certificates.foldlM (ContextManager.addCertificate openssl
        (certificates.all fun c => !c.isDefault)) ⟨[], .empty, none, reject⟩ = .ok m₀ ∧
      m = { m₀ with table := m₀.table.sorted } := by
  unfold make at h
  simp only [bind, Except.bind, pure, Except.pure] at h
  split at h
  · cases h
  · split at h
    · cases h
    · split at h
      · cases h
      · split at h
        · cases h
        · rename_i m₀ hm₀
          cases h
          exact ⟨m₀, hm₀, rfl⟩

theorem coherent_make {certificates : List TlsCertificateConfig} {reject : Bool}
    {m : ContextManager} (h : make openssl certificates reject = .ok m) :
    Coherent m.contexts m.table := by
  obtain ⟨m₀, hfold, rfl⟩ := make_ok h
  have hm₀ : Coherent m₀.contexts m₀.table :=
    Result.foldlM_ok (P := fun m => Coherent m.contexts m.table)
      (fun _ _ _ _ hs hadd => hs.addCertificate hadd)
      ⟨by simp [HostTable.empty], by simp [HostTable.empty]⟩ hfold
  exact ⟨hm₀.exact, fun d c => HostTable.mem_sorted_wildcard.trans (hm₀.wildcard d c)⟩

theorem matchesDomain_iff {c : ContextHolder} {host : Text} :
    c.matchesDomain host = true ↔ host ∈ c.exactDomains ∨
      ∃ suffix ∈ c.wildcardDomains, ∃ label, host = label ++ 46 :: suffix ∧ oneLabel label = true := by
  unfold ContextHolder.matchesDomain
  simp only [Bool.or_eq_true, decide_eq_true_eq, List.any_eq_true, Option.any_eq_true,
    subdomain_eq_some_iff]

/-- A context that is found matches. -/
theorem matches_of_find {m : ContextManager} (hm : Coherent m.contexts m.table) {host : Text}
    {c : ContextHolder} (h : m.find host = some c) : c.matchesDomain host = true := by
  rw [matchesDomain_iff]
  rcases HostTable.find_eq_some h with h | ⟨-, suffix, label, h, hhost, hlabel⟩
  · exact .inl ((hm.exact _ _).mp h).2
  · exact .inr ⟨suffix, ((hm.wildcard _ _).mp h).2, label, hhost, hlabel⟩

/-- Some context is found exactly when some context matches. -/
theorem find_isSome_iff {m : ContextManager} (hm : Coherent m.contexts m.table) {host : Text} :
    (m.find host).isSome ↔ ∃ c ∈ m.contexts, c.matchesDomain host = true := by
  rw [find, HostTable.find_isSome_iff]
  simp only [matchesDomain_iff, hm.exact, hm.wildcard]
  constructor
  · rintro (⟨c, hc, hd⟩ | ⟨suffix, label, c, ⟨hc, hd⟩, hhost, hlabel⟩)
    · exact ⟨c, hc, .inl hd⟩
    · exact ⟨c, hc, .inr ⟨suffix, hd, label, hhost, hlabel⟩⟩
  · rintro ⟨c, hc, hd | ⟨suffix, hd, label, hhost, hlabel⟩⟩
    · exact .inl ⟨c, hc, hd⟩
    · exact .inr ⟨suffix, label, c, ⟨hc, hd⟩, hhost, hlabel⟩

/-! ### The domains of a certificate -/

/-- The pattern stands for the host; a wildcard does for one more label. -/
def Covers (pattern : Text) (host : Text) : Prop :=
  (isWildcard pattern = false ∧ patternDomain pattern = some host) ∨
    (isWildcard pattern = true ∧ ∃ suffix label, patternDomain pattern = some suffix ∧
      host = label ++ 46 :: suffix ∧ oneLabel label = true)

/-- The domains of these patterns, sorted by kind. -/
structure Collected (patterns : List String) (ps : ContextHolder.Patterns) : Prop where
  exact : ∀ d, d ∈ ps.exact ↔ ∃ p ∈ patterns,
    isWildcard (utf8 p) = false ∧ patternDomain (utf8 p) = some d
  wildcard : ∀ d, d ∈ ps.wildcard ↔ ∃ p ∈ patterns,
    isWildcard (utf8 p) = true ∧ patternDomain (utf8 p) = some d

theorem collected_foldlM {name : String} {patterns before : List String}
    {ps ps' : ContextHolder.Patterns} (hps : Collected before ps)
    (h : patterns.foldlM (ContextHolder.addDomain name) ps = .ok ps') :
    Collected (before ++ patterns) ps' := by
  induction patterns generalizing before ps with
  | nil => cases h; simpa using hps
  | cons p patterns ih =>
    rw [List.foldlM_cons] at h
    have hone : ∀ ps₁, ContextHolder.addDomain name ps p = .ok ps₁ → Collected (before ++ [p]) ps₁ := by
      intro ps₁ h₁
      unfold ContextHolder.addDomain at h₁
      split at h₁
      · cases h₁
      · rename_i domain hdomain
        have hd : ∀ d, patternDomain (utf8 p) = some d ↔ d = domain := by
          intro d
          rw [hdomain, Option.some.injEq, eq_comm]
        split at h₁
        · rename_i hwild
          split at h₁
          · cases h₁
          · split at h₁
            · cases h₁
            · cases h₁
              refine ⟨fun d => ?_, fun d => ?_⟩
              · simp [hps.exact d, or_and_right, exists_or, hwild]
              · simp [hps.wildcard d, or_and_right, exists_or, hwild, hd]
        · rename_i hwild
          split at h₁
          · cases h₁
          · cases h₁
            refine ⟨fun d => ?_, fun d => ?_⟩
            · simp [hps.exact d, or_and_right, exists_or, hwild, hd]
            · simp [hps.wildcard d, or_and_right, exists_or, hwild]
    cases hp : ContextHolder.addDomain name ps p with
    | error e => rw [hp] at h; cases h
    | ok ps₁ =>
      rw [hp] at h
      have := ih (hone ps₁ hp) h
      rwa [List.append_assoc] at this

/-- The context of a certificate has its domains. -/
structure MadeFrom (config : TlsCertificateConfig) (c : ContextHolder) : Prop where
  config_eq : c.config = config
  domains : Collected config.domains ⟨c.exactDomains, c.wildcardDomains⟩

theorem holder_make_ok {config : TlsCertificateConfig} {c : ContextHolder}
    (h : ContextHolder.make openssl config = .ok c) :
    ∃ ps, config.domains.foldlM (ContextHolder.addDomain config.name) ⟨[], []⟩ = .ok ps ∧
      c = ⟨config, ps.exact, ps.wildcard⟩ := by
  unfold ContextHolder.make at h
  obtain ⟨-, h⟩ := Result.guard_ok h
  obtain ⟨-, h⟩ := Result.guard_ok h
  obtain ⟨-, h⟩ := Result.guard_ok h
  obtain ⟨ps, hps, h⟩ := Result.bind_ok h
  obtain ⟨_, -, h⟩ := Result.bind_ok h
  cases h
  unfold ContextHolder.normalizeDomains at hps
  split at hps
  · cases hps
  · exact ⟨ps, hps, rfl⟩

theorem madeFrom_make {config : TlsCertificateConfig} {c : ContextHolder}
    (h : ContextHolder.make openssl config = .ok c) : MadeFrom config c := by
  obtain ⟨ps, hps, rfl⟩ := holder_make_ok h
  have hempty : Collected [] ⟨[], []⟩ := ⟨by simp, by simp⟩
  exact ⟨rfl, collected_foldlM hempty hps⟩

theorem MadeFrom.matches_iff {config : TlsCertificateConfig} {c : ContextHolder}
    (h : MadeFrom config c) {host : Text} :
    c.matchesDomain host = true ↔ ∃ p ∈ config.domains, Covers (utf8 p) host := by
  rw [matchesDomain_iff]
  have hexact := h.domains.exact host
  have hwild := h.domains.wildcard
  simp only at hexact hwild
  rw [hexact]
  constructor
  · rintro (⟨p, hp, hw, hd⟩ | ⟨suffix, hs, label, hhost, hlabel⟩)
    · exact ⟨p, hp, .inl ⟨hw, hd⟩⟩
    · obtain ⟨p, hp, hw, hd⟩ := (hwild suffix).mp hs
      exact ⟨p, hp, .inr ⟨hw, suffix, label, hd, hhost, hlabel⟩⟩
  · rintro ⟨p, hp, ⟨hw, hd⟩ | ⟨hw, suffix, label, hd, hhost, hlabel⟩⟩
    · exact .inl ⟨p, hp, hw, hd⟩
    · exact .inr ⟨suffix, (hwild suffix).mpr ⟨p, hp, hw, hd⟩, label, hhost, hlabel⟩

theorem foldlM_contexts {noDefault : Bool} {certificates : List TlsCertificateConfig}
    {m m' : ContextManager}
    (h : certificates.foldlM (ContextManager.addCertificate openssl noDefault) m = .ok m') :
    ∃ holders, m'.contexts = m.contexts ++ holders ∧ List.Forall₂ MadeFrom certificates holders := by
  induction certificates generalizing m with
  | nil => cases h; exact ⟨[], by simp, .nil⟩
  | cons config certificates ih =>
    rw [List.foldlM_cons] at h
    cases hadd : ContextManager.addCertificate openssl noDefault m config with
    | error e => rw [hadd] at h; cases h
    | ok m₁ =>
      rw [hadd] at h
      obtain ⟨holder, hmade, rfl⟩ := addCertificate_ok hadd
      obtain ⟨holders, hcontexts, hall⟩ := ih h
      exact ⟨holder :: holders, by simp [hcontexts], .cons (madeFrom_make hmade) hall⟩

theorem contexts_make {certificates : List TlsCertificateConfig} {reject : Bool}
    {m : ContextManager} (h : make openssl certificates reject = .ok m) :
    List.Forall₂ MadeFrom certificates m.contexts := by
  obtain ⟨m₀, hfold, rfl⟩ := make_ok h
  obtain ⟨holders, hcontexts, hall⟩ := foldlM_contexts hfold
  simpa [hcontexts] using hall

theorem forall₂_mem {α β : Type} {R : α → β → Prop} {l : List α} {l' : List β}
    (h : List.Forall₂ R l l') : (∀ a ∈ l, ∃ b ∈ l', R a b) ∧ ∀ b ∈ l', ∃ a ∈ l, R a b := by
  induction h with
  | nil => simp
  | cons hab _ ih =>
    simp only [List.mem_cons, forall_eq_or_imp, exists_eq_or_imp]
    exact ⟨⟨.inl hab, fun a ha => .inr (ih.1 a ha)⟩, .inl hab, fun b hb => .inr (ih.2 b hb)⟩

/-- A context is found exactly for the hosts that a certificate covers. -/
theorem find_isSome_iff_covers {certificates : List TlsCertificateConfig} {reject : Bool}
    {m : ContextManager} (h : make openssl certificates reject = .ok m) {host : Text} :
    (m.find host).isSome ↔ ∃ cert ∈ certificates, ∃ p ∈ cert.domains, Covers (utf8 p) host := by
  rw [find_isSome_iff (coherent_make h)]
  have hall := contexts_make h
  constructor
  · rintro ⟨c, hc, hmatch⟩
    obtain ⟨cert, hcert, hmade⟩ := (forall₂_mem hall).2 c hc
    exact ⟨cert, hcert, hmade.matches_iff.mp hmatch⟩
  · rintro ⟨cert, hcert, hcover⟩
    obtain ⟨c, hc, hmade⟩ := (forall₂_mem hall).1 cert hcert
    exact ⟨c, hc, hmade.matches_iff.mpr hcover⟩

/-! ### The context that is selected -/

theorem mem_of_find {m : ContextManager} (hm : Coherent m.contexts m.table) {host : Text}
    {c : ContextHolder} (h : m.find host = some c) : c ∈ m.contexts := by
  rcases HostTable.find_eq_some h with h | ⟨-, suffix, label, h, -, -⟩
  · exact ((hm.exact _ _).mp h).1
  · exact ((hm.wildcard _ _).mp h).1

theorem default_mem {certificates : List TlsCertificateConfig} {reject : Bool} {m : ContextManager}
    (h : make openssl certificates reject = .ok m) : ∀ c, m.defaultContext = some c → c ∈ m.contexts := by
  obtain ⟨m₀, hfold, rfl⟩ := make_ok h
  refine Result.foldlM_ok (P := fun m => ∀ c, m.defaultContext = some c → c ∈ m.contexts) ?_
    (by simp) hfold
  intro m config m' _ hm hadd c hc
  obtain ⟨holder, -, rfl⟩ := addCertificate_ok hadd
  dsimp only at hc ⊢
  split at hc
  · cases hc
    exact List.mem_append_right _ (List.mem_singleton_self _)
  · exact List.mem_append_left _ (hm c hc)

/-- Whatever name a handshake has, its context is made from one of the certificates. -/
theorem madeFrom_of_callback {certificates : List TlsCertificateConfig} {reject : Bool}
    {m : ContextManager} (h : make openssl certificates reject = .ok m) {serverName : Option Text}
    {state : ConnectionState} (hstate : m.serverNameCallback serverName = some state)
    {c : ContextHolder} (hc : state.selectedContext = some c) :
    ∃ cert ∈ certificates, MadeFrom cert c := by
  refine (forall₂_mem (contexts_make h)).2 c ?_
  unfold serverNameCallback at hstate
  split at hstate
  · cases hstate
    exact default_mem h c hc
  · dsimp only at hstate
    split at hstate
    · split at hstate
      · cases hstate
      · cases hstate
        exact default_mem h c hc
    · rename_i selected hselected
      cases hstate
      cases hc
      obtain ⟨host, -, hfind⟩ := Option.bind_eq_some_iff.mp hselected
      exact mem_of_find (coherent_make h) hfind

/-- The name of a handshake is kept normalized. -/
theorem sniHost_of_callback {m : ContextManager} {name : Text} {state : ConnectionState}
    (hstate : m.serverNameCallback (some name) = some state) :
    state.sniHost = normalizeDomain name := by
  unfold serverNameCallback at hstate
  dsimp only at hstate
  split at hstate
  · split at hstate
    · cases hstate
    · cases hstate
      rfl
  · cases hstate
    rfl

end ContextManager

end Tls
end WebServer
