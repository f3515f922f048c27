import WebServer.Tls.Contexts

/-!
# WebServer.Config.Coverage

Which hosts of an HTTPS listener have a certificate.

The constructor of `RuntimeConfig` asks `can_serve_domain` about every domain of an HTTPS site. A
wildcard of a site stands for names of any depth (`VirtualHostRouter::find`), a wildcard of a
certificate for one more label.

* `runtimeChecks` puts the router and the TLS contexts in the place of two fields of `Checks`.
* `covered_exact`, `covered_oneLabel`: what the test at the start gives.
* `served_iff`: when a routed host can be served.
-/

namespace WebServer
namespace Config

open Http
open Routing
open Tls (ContextManager ContextHolder oneLabel)

abbrev OpenSsl := TlsCertificateConfig → ContextHolder.Patterns → Except Error Unit

/-- `check` are the tests on the backend, the policy and the URL authentication of a host. -/
def checkHost (check : VirtualHostConfig → Except Error Unit) (host : VirtualHostConfig) :
    Except Error Unit := do
  if host.name = "" then throw "virtual host name cannot be empty"
  if host.domains = [] then throw "virtual host must bind at least one domain"
  check host

def makeRouter (check : VirtualHostConfig → Except Error Unit) (hosts : List VirtualHostConfig) :
    Except Error (HostTable VirtualHostConfig) :=
  VirtualHostRouter.make (checkHost check) (·.domains) hosts

def checkDomain (m : ContextManager) (domain : String) : Except Error Unit :=
  if m.canServeDomain (utf8 domain) then .ok ()
  else .error ("no TLS certificate covers HTTPS domain " ++ domain)

/-- The part of the constructor that builds the contexts and asks about every HTTPS domain. -/
def checkContexts (openssl : OpenSsl) (spec : RuntimeConfigSpec) : Except Error Unit := do
  let m ← ContextManager.make openssl spec.tlsCertificates spec.rejectUnknownSni
  (spec.sites.filter (·.httpsEnabled)).forM fun site =>
    site.virtualHost.domains.forM (checkDomain m)

def runtimeChecks (base : Checks) (check : VirtualHostConfig → Except Error Unit)
    (openssl : OpenSsl) : Checks :=
  { base with
    virtualHostRouter := fun hosts => (makeRouter check hosts).map fun _ => ()
    tlsContexts := checkContexts openssl }

/-! ## An accepted specification -/

theorem checkRuntimeSpec_ok {chk : Checks} {spec : RuntimeConfigSpec} {http https : List Nat}
    (h : checkRuntimeSpec chk spec http https = .ok ()) :
    (∀ port ∈ http,
      chk.virtualHostRouter (hostsOn spec.sites (·.httpEnabled) (·.httpPort) port) = .ok ()) ∧
    (∀ port ∈ https,
      chk.virtualHostRouter (hostsOn spec.sites (·.httpsEnabled) (·.httpsPort) port) = .ok ()) ∧
    (https ≠ [] → chk.tlsContexts spec = .ok ()) := by
  unfold checkRuntimeSpec at h
  obtain ⟨_, -, h⟩ := Result.bind_ok h
  -- the tests of the settings, of the listeners and of the shared ports
  obtain ⟨-, h⟩ := Result.guard_ok h
  obtain ⟨-, h⟩ := Result.guard_ok h
  obtain ⟨-, h⟩ := Result.guard_ok h
  obtain ⟨-, h⟩ := Result.guard_ok h
  dsimp only at h
  split at h
  · cases h
  split at h
  · cases h
  obtain ⟨_, hhttp, h⟩ := Result.bind_ok h
  obtain ⟨_, hhttps, h⟩ := Result.bind_ok h
  refine ⟨Result.forM_ok hhttp, Result.forM_ok hhttps, ?_⟩
  intro hne
  simpa [hne] using h

theorem buildRuntimeConfig_ok {chk : Checks} {spec : RuntimeConfigSpec} {c : RuntimeConfig}
    (h : buildRuntimeConfig chk spec = .ok c) :
    c.spec = spec ∧ checkRuntimeSpec chk spec c.httpPorts c.httpsPorts = .ok () := by
  simp only [buildRuntimeConfig] at h
  split at h
  · cases h
  · rename_i hc
    cases h
    exact ⟨rfl, hc⟩

/-! ## The hosts that are served -/

section Served

variable {base : Checks} {check : VirtualHostConfig → Except Error Unit} {openssl : OpenSsl}
variable {spec : RuntimeConfigSpec} {c : RuntimeConfig} {m : ContextManager}

def httpsRouter (check : VirtualHostConfig → Except Error Unit) (spec : RuntimeConfigSpec)
    (port : Nat) : Except Error (HostTable VirtualHostConfig) :=
  makeRouter check (hostsOn spec.sites (·.httpsEnabled) (·.httpsPort) port)

/-- `RequestDispatcher::start` answers 421: the certificate is not for the host, or the server name
leads to another site. `virtualHost` is the one of the host. -/
def misdirected {α : Type} [DecidableEq α] (find : Text → Option α) (certificateMatches : Bool)
    (sniHost : Option Text) (virtualHost : Option α) : Bool :=
  let sniVirtualHost := match sniHost with
    | some sni => find sni
    | none => virtualHost
  !certificateMatches || sniVirtualHost.isNone || sniVirtualHost ≠ virtualHost

theorem misdirected_eq_false_iff {α : Type} [DecidableEq α] {find : Text → Option α}
    {certificateMatches : Bool} {sniHost : Option Text} {a : α} :
    misdirected find certificateMatches sniHost (some a) = false ↔
      certificateMatches = true ∧ ∀ sni, sniHost = some sni → find sni = some a := by
  cases sniHost with
  | none => simp [misdirected]
  | some sni =>
    simp only [misdirected, Bool.or_eq_false_iff, Bool.not_eq_false', decide_eq_false_iff_not,
      not_not, Option.some.injEq, forall_eq']
    constructor
    · rintro ⟨⟨hcertificate, -⟩, hsni⟩
      exact ⟨hcertificate, hsni⟩
    · rintro ⟨hcertificate, hsni⟩
      exact ⟨⟨hcertificate, by rw [hsni]; rfl⟩, hsni⟩

/-- A context is found and matches, and a client that names the host in the handshake and in the
request is neither refused nor misdirected. -/
def Served (m : ContextManager) (router : HostTable VirtualHostConfig) (host : Text) : Prop :=
  (∃ ctx, m.find host = some ctx ∧ ctx.matchesDomain host = true) ∧
    ∀ name, normalizeDomain name = some host →
      ∃ state, m.serverNameCallback (some name) = some state ∧
        misdirected (VirtualHostRouter.find router)
          (state.selectedContext.any fun ctx => ctx.matchesDomain host) state.sniHost
          (VirtualHostRouter.find router host) = false

/-- What the constructor leaves behind: a router for every port, and contexts for every domain. -/
theorem exists_contexts (h : buildRuntimeConfig (runtimeChecks base check openssl) spec = .ok c)
    {port : Nat} (hport : port ∈ c.httpsPorts) :
    (∃ router, httpsRouter check spec port = .ok router) ∧
    ∃ m, ContextManager.make openssl spec.tlsCertificates spec.rejectUnknownSni = .ok m ∧
      ∀ site ∈ spec.sites, site.httpsEnabled = true → ∀ d ∈ site.virtualHost.domains,
        m.canServeDomain (utf8 d) = true := by
  obtain ⟨-, hcheck⟩ := buildRuntimeConfig_ok h
  obtain ⟨-, hrouters, htls⟩ := checkRuntimeSpec_ok hcheck
  constructor
  · have hrouter := hrouters port hport
    simp only [runtimeChecks] at hrouter
    unfold httpsRouter
    cases hmake : makeRouter check (hostsOn spec.sites (·.httpsEnabled) (·.httpsPort) port) with
    | error e => rw [hmake] at hrouter; cases hrouter
    | ok router => exact ⟨router, rfl⟩
  · obtain ⟨m, hm, hsites⟩ := Result.bind_ok (htls (List.ne_nil_of_mem hport))
    refine ⟨m, hm, fun site hsite hon d hd => ?_⟩
    have hdomain := Result.forM_ok (Result.forM_ok hsites site (by simp [hsite, hon])) d hd
    unfold checkDomain at hdomain
    split at hdomain
    · assumption
    · cases hdomain

theorem served_of_find (hm : ContextManager.Coherent m.contexts m.table)
    {router : HostTable VirtualHostConfig} {host : Text}
    (hroute : (VirtualHostRouter.find router host).isSome) (h : (m.find host).isSome) :
    Served m router host := by
  obtain ⟨ctx, hctx⟩ := Option.isSome_iff_exists.mp h
  have hmatch := ContextManager.matches_of_find hm hctx
  refine ⟨⟨ctx, hctx, hmatch⟩, fun name hname => ⟨⟨some ctx, some host⟩, ?_, ?_⟩⟩
  · simp [ContextManager.serverNameCallback, hname, hctx]
  · obtain ⟨vh, hvh⟩ := Option.isSome_iff_exists.mp hroute
    rw [hvh, misdirected_eq_false_iff]
    refine ⟨by simpa using hmatch, fun sni hsni => ?_⟩
    rw [← hvh, Option.some.inj hsni]

/-- The domain of a site is covered by a certificate where its own wildcards stand for one label. -/
theorem covered_of_canServe
    (hm : ContextManager.make openssl spec.tlsCertificates spec.rejectUnknownSni = .ok m)
    {pattern : Text} (hserve : m.canServeDomain pattern = true) {host : Text}
    (hcover : ContextManager.Covers pattern host) : (m.find host).isSome := by
  rcases hcover with ⟨hw, hd⟩ | ⟨hw, suffix, label, hd, hhost, hlabel⟩
  · simp only [ContextManager.canServeDomain, hd, hw, Bool.false_eq_true, if_false] at hserve
    cases hfind : m.find host with
    | none => rw [hfind] at hserve; cases hserve
    | some ctx => rfl
  · simp only [ContextManager.canServeDomain, hd, hw, if_true, List.any_eq_true,
      decide_eq_true_eq] at hserve
    obtain ⟨ctx, hctx, hsuffix⟩ := hserve
    rw [ContextManager.find_isSome_iff (ContextManager.coherent_make hm)]
    exact ⟨ctx, hctx, ContextManager.matchesDomain_iff.mpr
      (.inr ⟨suffix, hsuffix, label, hhost, hlabel⟩)⟩

/-- Some HTTPS site has the host as a domain, or has a wildcard one label above it. -/
def SiteCovers (spec : RuntimeConfigSpec) (host : Text) : Prop :=
  ∃ site ∈ spec.sites, site.httpsEnabled = true ∧
    ∃ d ∈ site.virtualHost.domains, ContextManager.Covers (utf8 d) host

/-- Some certificate has. -/
def CertificateCovers (spec : RuntimeConfigSpec) (host : Text) : Prop :=
  ∃ cert ∈ spec.tlsCertificates, ∃ d ∈ cert.domains, ContextManager.Covers (utf8 d) host

/-- A host that is routed by its name is the domain of a site. -/
theorem siteCovers_of_exact {port : Nat} {router : HostTable VirtualHostConfig}
    (hrouter : httpsRouter check spec port = .ok router) {host : Text} {vh : VirtualHostConfig}
    (h : (host, vh) ∈ router.exact) : SiteCovers spec host := by
  obtain ⟨hvh, d, hd, hw, hdomain⟩ := (VirtualHostRouter.sound_make hrouter).exact host vh h
  simp only [hostsOn, List.mem_map, List.mem_filter, Bool.and_eq_true] at hvh
  obtain ⟨site, ⟨hsite, hon, -⟩, rfl⟩ := hvh
  exact ⟨site, hsite, hon, d, hd, .inl ⟨hw, hdomain⟩⟩

/-- A routed host is served exactly when it is a domain of an HTTPS site or one label below a wildcard
of one, or when a certificate covers it anyway. -/
theorem served_iff (base : Checks) (check : VirtualHostConfig → Except Error Unit)
    (openssl : OpenSsl) (spec : RuntimeConfigSpec) (c : RuntimeConfig)
    (h : buildRuntimeConfig (runtimeChecks base check openssl) spec = .ok c) (port : Nat)
    (hport : port ∈ c.httpsPorts) :
    ∃ router m, httpsRouter check spec port = .ok router ∧
      ContextManager.make openssl spec.tlsCertificates spec.rejectUnknownSni = .ok m ∧
      ∀ host, (VirtualHostRouter.find router host).isSome →
        (Served m router host ↔ SiteCovers spec host ∨ CertificateCovers spec host) ∧
        ∀ vh, (host, vh) ∈ router.exact → SiteCovers spec host := by
  obtain ⟨⟨router, hrouter⟩, m, hm, hserve⟩ := exists_contexts h hport
  refine ⟨router, m, hrouter, hm, fun host hroute => ⟨⟨fun hserved => ?_, fun hcover => ?_⟩,
    fun vh => siteCovers_of_exact hrouter⟩⟩
  · obtain ⟨⟨ctx, hctx, -⟩, -⟩ := hserved
    exact .inr ((ContextManager.find_isSome_iff_covers hm).mp (by rw [hctx]; rfl))
  · refine served_of_find (ContextManager.coherent_make hm) hroute ?_
    rcases hcover with ⟨site, hsite, hon, d, hd, hcover⟩ | hcover
    · exact covered_of_canServe hm (hserve site hsite hon d hd) hcover
    · exact (ContextManager.find_isSome_iff_covers hm).mpr hcover

end Served

/-! ## A name two labels below a wildcard -/

namespace Deep

def permissive : Checks where
  validateAndNormalize := .ok
  validateAndNormalizeCertificate := .ok
  validateRuntimeSettings := .ok
  decodeBackup _ := .error "configuration backup is not valid JSON"
  clientIpResolver _ := .ok ()
  virtualHostRouter _ := .ok ()
  tlsContexts _ := .ok ()

/-- A site and a certificate for the same two domains. -/
def spec : RuntimeConfigSpec where
  revision := 1
  sites := [{
    virtualHost := ⟨"a", ["a.test", "*.a.test"], ⟨1, "a", 200, 1000, 5⟩, { name := "a" }⟩
    httpEnabled := false
    httpPort := 80
    httpsEnabled := true
    httpsPort := 443 }]
  tlsCertificates := [⟨"a", ["a.test", "*.a.test"], true, "certificate", "key"⟩]
  rejectUnknownSni := true
  settings := {}

def config : RuntimeConfig := ⟨spec, [], [443]⟩

theorem accepted : buildRuntimeConfig
    (runtimeChecks permissive (fun _ => .ok ()) (fun _ _ => .ok ())) spec = .ok config := by
  decide

end Deep

theorem served_oneLabel : ∃ router m,
    httpsRouter (fun _ => .ok ()) Deep.spec 443 = .ok router ∧
    (VirtualHostRouter.find router (ascii "x.a.test")).isSome ∧
    Served m router (ascii "x.a.test") := by
  obtain ⟨router, m, hrouter, -, h⟩ := served_iff Deep.permissive (fun _ => .ok ())
    (fun _ _ => .ok ()) Deep.spec Deep.config Deep.accepted 443 (by decide)
  have hfind : (VirtualHostRouter.find router (ascii "x.a.test")).isSome := by
    have : ((httpsRouter (fun _ => .ok ()) Deep.spec 443).toOption.bind fun r =>
        VirtualHostRouter.find r (ascii "x.a.test")).isSome = true := by decide +kernel
    rw [hrouter] at this
    exact this
  refine ⟨router, m, hrouter, hfind, (h _ hfind).1.mpr (.inl ⟨_, by simp [Deep.spec]; rfl, rfl, "*.a.test",
    by simp, .inr ⟨by decide, ascii "a.test", ascii "x", by decide, rfl, by decide⟩⟩)⟩

/-- `x.y.a.test` is routed to the site, and no context is found for it. -/
theorem deep_host_not_served :
    buildRuntimeConfig (runtimeChecks Deep.permissive (fun _ => .ok ()) (fun _ _ => .ok ()))
      Deep.spec = .ok Deep.config ∧ 443 ∈ Deep.config.httpsPorts ∧
    normalizeAuthority (ascii "X.Y.a.test:443") = some (ascii "x.y.a.test") ∧
    ∃ router m, httpsRouter (fun _ => .ok ()) Deep.spec 443 = .ok router ∧
      ContextManager.make (fun _ _ => .ok ()) Deep.spec.tlsCertificates true = .ok m ∧
      (VirtualHostRouter.find router (ascii "x.y.a.test")).isSome ∧
      m.find (ascii "x.y.a.test") = none ∧
      m.serverNameCallback (some (ascii "x.y.a.test")) = none ∧
      ¬ Served m router (ascii "x.y.a.test") := by
  obtain ⟨⟨router, hrouter⟩, m, hm, -⟩ := exists_contexts Deep.accepted
    (by decide : 443 ∈ Deep.config.httpsPorts)
  have hfind : (VirtualHostRouter.find router (ascii "x.y.a.test")).isSome := by
    have : ((httpsRouter (fun _ => .ok ()) Deep.spec 443).toOption.bind fun r =>
        VirtualHostRouter.find r (ascii "x.y.a.test")).isSome = true := by decide +kernel
    rw [hrouter] at this
    exact this
  have hnone : m.find (ascii "x.y.a.test") = none ∧
      m.serverNameCallback (some (ascii "x.y.a.test")) = none := by
    have : (ContextManager.make (fun _ _ => .ok ()) Deep.spec.tlsCertificates true).toOption.all
        (fun m => (m.find (ascii "x.y.a.test")).isNone &&
          (m.serverNameCallback (some (ascii "x.y.a.test"))).isNone) = true := by decide +kernel
    rw [show Deep.spec.rejectUnknownSni = true from rfl] at hm
    rw [hm] at this
    simpa [Except.toOption] using this
  refine ⟨Deep.accepted, by decide, by decide, router, m, hrouter, hm, hfind, hnone.1, hnone.2, ?_⟩
  rintro ⟨⟨ctx, hctx, -⟩, -⟩
  rw [hnone.1] at hctx
  cases hctx

end Config
end WebServer
