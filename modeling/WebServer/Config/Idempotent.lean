import WebServer.Config.Validation
import WebServer.Lib.JsonText
import WebServer.Routing.HostGrammar

/-!
# WebServer.Config.Idempotent

What becomes of a site that was validated when it is validated once more.

The domains, the address and the server name of the backend are rewritten by `normalize_domain`. A
name is a fixed point of it, an IPv6 literal is not: it loses its brackets and is refused without
them. Among the domains a literal does not get that far, since the policy of the site is made from the
rewritten domains. The address is looked at as an address first. The server name is left.

* `siteDomains_stable`: the domains of an accepted site.
* `Stable`: the condition on the two names. `validate_again_iff`: the result.
-/

namespace WebServer
namespace Config

open Http Routing Policy

section Domains

variable {φ : Type} {lib : Libraries φ} {site s : SiteRecord}

theorem checkPolicy_ok (h : checkPolicy lib site = .ok ()) :
    ∃ spec p, RequestPolicy.make lib.re2 lib.address spec (site.domains.map utf8) = .ok p := by
  obtain ⟨⟨p, _⟩, hcompile, -⟩ := Result.bind_ok h
  obtain ⟨spec, -, hmake⟩ := SitePolicy.compile_ok hcompile
  exact ⟨spec, p, hmake⟩

theorem domains_of_make {re2 : Re2} {address : Network.AddressText} {spec : SitePolicySpec}
    {domains : List Text} {p : RequestPolicy} (h : RequestPolicy.make re2 address spec domains = .ok p) :
    ∀ d ∈ domains, ∃ q, normalizedHostPattern d = .ok q := by
  unfold RequestPolicy.make at h
  obtain ⟨_, -, h⟩ := Result.bind_ok h
  obtain ⟨out, hdomains, -⟩ := Result.bind_ok h
  intro d hd
  obtain ⟨q, -, hq⟩ := Result.mapM_ok_mem hdomains d hd
  exact ⟨q, hq⟩

theorem normalizedHostPattern_ok {pattern q : Text} (h : normalizedHostPattern pattern = .ok q) :
    ∃ domain, patternDomain pattern = some domain ∧ (isWildcard pattern = true → 46 ∈ domain) := by
  unfold normalizedHostPattern at h
  split at h
  · cases h
  · rename_i domain hdomain
    refine ⟨domain, hdomain, fun hwild => ?_⟩
    rw [if_pos hwild] at h
    split at h
    · cases h
    · rename_i hdot
      exact not_not.mp hdot

/-- The policy of the site has looked at every domain in its new form. -/
theorem siteDomains_stable (hnormal : s.names.Normal lib) (hpolicy : checkPolicy lib s = .ok ()) :
    ∀ d ∈ s.domains, normalizeSiteDomain d = .ok d := by
  intro d hd
  obtain ⟨spec, p, hp⟩ := checkPolicy_ok hpolicy
  obtain ⟨q, hq⟩ := domains_of_make hp (utf8 d) (List.mem_map_of_mem hd)
  obtain ⟨domain, hdomain, hbroad⟩ := normalizedHostPattern_ok hq
  obtain ⟨pattern, hpattern⟩ := hnormal.domains d hd
  have hagain := normalizePattern_again hpattern (by rw [hdomain]; rfl)
  rw [normalizePattern, hdomain, Option.map_some, Option.some.injEq] at hagain
  unfold normalizeSiteDomain
  simp only [hdomain]
  rw [if_neg fun h => h.2 (hbroad h.1), hagain]

end Domains

/-! ## Names of the backend -/

/-- The server name is no literal; an address in brackets is an address without them. -/
structure Stable {φ : Type} (lib : Libraries φ) (site : SiteRecord) : Prop where
  sni : (utf8 site.backendTlsSni).head? ≠ some 91
  address : (utf8 site.backendAddress).head? = some 91 → isAddress lib site.backendAddress = true ∨
    isAddress lib (asciiString (unbracketed (utf8 site.backendAddress))) = true

section Backend

variable {φ : Type} {lib : Libraries φ}

theorem normalizeAddress_self {address : String} (h : isAddress lib address = true) :
    normalizeAddress lib address = .ok address := by
  rw [normalizeAddress, if_pos h]

theorem normalizeAddress_again_iff {address stored : String}
    (h : normalizeAddress lib address = .ok stored) :
    normalizeAddress lib stored = .ok stored ↔
      ((utf8 address).head? = some 91 → isAddress lib address = true ∨
        isAddress lib (asciiString (unbracketed (utf8 address))) = true) := by
  rcases normalizeAddress_ok h with ⟨haddress, rfl⟩ | ⟨haddress, d, hd, rfl⟩
  · exact iff_of_true (normalizeAddress_self haddress) fun _ => .inl haddress
  · have hbytes := utf8_asciiString (normalize_bytes hd)
    by_cases hbracket : (utf8 address).head? = some 91
    · obtain ⟨hunbracketed, -, hnone⟩ := normalizeDomain_bracketed hd hbracket
      constructor
      · intro hagain _
        rw [← hunbracketed]
        rcases normalizeAddress_ok hagain with ⟨hstored, -⟩ | ⟨-, n, hn, -⟩
        · exact .inr hstored
        · rw [hbytes, hnone] at hn
          cases hn
      · intro hkept
        have hstored := (hkept hbracket).resolve_left haddress
        rw [← hunbracketed] at hstored
        exact normalizeAddress_self hstored
    · refine iff_of_true ?_ fun h => absurd h hbracket
      unfold normalizeAddress
      split
      · rfl
      · simp only [hbytes, normalizeDomain_stable hd hbracket]

theorem normalizeSni_again_iff {sni stored : String} (h : normalizeSni sni = .ok stored) :
    normalizeSni stored = .ok stored ↔ (utf8 sni).head? ≠ some 91 := by
  rcases normalizeSni_ok h with ⟨rfl, rfl⟩ | ⟨hne, d, hd, rfl⟩
  · refine iff_of_true rfl ?_
    decide
  · have hbytes := utf8_asciiString (normalize_bytes hd)
    by_cases hbracket : (utf8 sni).head? = some 91
    · obtain ⟨-, hcolon, hnone⟩ := normalizeDomain_bracketed hd hbracket
      refine iff_of_false (fun hagain => ?_) fun h => h hbracket
      rcases normalizeSni_ok hagain with ⟨hempty, -⟩ | ⟨-, n, hn, -⟩
      · rw [hempty] at hbytes
        rw [← hbytes] at hcolon
        cases hcolon
      · rw [hbytes, hnone] at hn
        cases hn
    · refine iff_of_true ?_ hbracket
      unfold normalizeSni
      split
      · rfl
      · simp only [hbytes, normalizeDomain_stable hd hbracket]

end Backend

/-! ## Sites -/

section Sites

variable {φ : Type} {lib : Libraries φ} {site s : SiteRecord}

/-- The tests of the names, one by one. -/
structure NamesAccepted (lib : Libraries φ) (site : SiteRecord) (names : Names) : Prop where
  protocol : names.backendProtocol = asciiToLower site.backendProtocol
  scheme : names.backendProtocol = "http" ∨ names.backendProtocol = "https"
  address : normalizeAddress lib site.backendAddress = .ok names.backendAddress
  host : ¬ (site.backendHost ≠ "" ∧ normalizeAuthority (utf8 site.backendHost) = none)
  sni : normalizeSni site.backendTlsSni = .ok names.backendTlsSni
  tls : ¬ (names.backendProtocol = "http" ∧ names.backendTlsSni ≠ "")
  domains : uniquePatterns normalizeSiteDomain "duplicate site domain: " site.domains =
    .ok names.domains

theorem normalizeNames_ok_iff {names : Names} :
    normalizeNames lib site = .ok names ↔ NamesAccepted lib site names := by
  constructor
  · intro h
    have hscheme := (normalizeNames_ok h).scheme
    unfold normalizeNames at h
    obtain ⟨-, h⟩ := Result.guard_ok h
    obtain ⟨address, haddress, h⟩ := Result.bind_ok h
    obtain ⟨hhost, h⟩ := Result.guard_ok h
    obtain ⟨sni, hsni, h⟩ := Result.bind_ok h
    obtain ⟨htls, h⟩ := Result.guard_ok h
    obtain ⟨domains, hdomains, h⟩ := Result.bind_ok h
    cases h
    exact ⟨rfl, hscheme, haddress, hhost, hsni, htls, hdomains⟩
  · intro h
    obtain ⟨protocol, address, sni, domains⟩ := names
    obtain ⟨rfl, hscheme, haddress, hhost, hsni, htls, hdomains⟩ := h
    unfold normalizeNames
    dsimp only at hscheme htls ⊢
    rw [if_neg fun hne => hscheme.elim hne.1 hne.2]
    refine Result.bind_ok_iff.mpr ⟨address, haddress, ?_⟩
    rw [if_neg hhost]
    refine Result.bind_ok_iff.mpr ⟨sni, hsni, ?_⟩
    rw [if_neg htls]
    exact Result.bind_ok_iff.mpr ⟨domains, hdomains, rfl⟩

/-- Besides the number of domains, nothing that was rewritten is tested first. -/
theorem checkSite_withNames {names : Names} (h : checkSite site = .ok ())
    (hlength : names.domains.length = site.domains.length) (codec : Codec φ) (json : PolicyJson φ) :
    checkSite ((site.withNames names).withJson codec json) = .ok () := by
  unfold checkSite at h ⊢
  obtain ⟨hname, h⟩ := Result.guard_ok h
  obtain ⟨hdomains, h⟩ := Result.guard_ok h
  have hdomains' : ¬ (names.domains = [] ∨ 50 < names.domains.length) := by
    rw [← List.length_eq_zero_iff, hlength, List.length_eq_zero_iff]
    exact hdomains
  exact (if_neg hname).trans ((if_neg hdomains').trans h)

/-- A site that was accepted is accepted again, without a change, exactly when the names of its
backend are no IPv6 literals in brackets that mean nothing without them. -/
theorem validate_again_iff (lib : Libraries φ) (site s : SiteRecord)
    (h : validateAndNormalize lib site = .ok s) :
    validateAndNormalize lib s = .ok s ↔ Stable lib site := by
  obtain ⟨names, json, hv⟩ := validate_ok_iff.mp h
  have hnormal := validate_normal h
  have hnames := normalizeNames_ok_iff.mp hv.renamed
  have haddress := normalizeAddress_again_iff hnames.address
  have hsni := normalizeSni_again_iff hnames.sni
  obtain rfl := hv.eq
  constructor
  · intro hagain
    obtain ⟨names', json', hv'⟩ := validate_ok_iff.mp hagain
    have hnames' := normalizeNames_ok_iff.mp hv'.renamed
    obtain rfl : names' = names := (normalizeNames_ok hv'.renamed).again hnormal
    exact ⟨hsni.mp hnames'.sni, haddress.mp hnames'.address⟩
  · intro hstable
    have hdomains := siteDomains_stable hnormal hv.policy
    have hlength : names.domains.length = site.domains.length :=
      Result.mapM_ok_length (uniquePatterns_ok_iff.mp hnames.domains).1
    have hnames' : NamesAccepted lib ((site.withNames names).withJson lib.codec json) names :=
      ⟨hnormal.protocol.symm, hnames.scheme, haddress.mpr hstable.address, hnames.host,
        hsni.mpr hstable.sni, hnames.tls,
        uniquePatterns_self hdomains (uniquePatterns_ok_iff.mp hnames.domains).2⟩
    exact validate_ok_iff.mpr ⟨names, json, checkSite_withNames hv.fields hlength _ _,
      normalizeNames_ok_iff.mpr hnames', hv.columns.again _, rfl, hv.policy⟩

end Sites

/-! ## Two server names -/

namespace Revalidated

def libraries : Libraries JsonText.Tenths where
  codec := JsonText.codec
  re2 := ⟨fun _ _ => false, fun _ _ _ => false⟩
  address := .dotted
  openssl _ _ := .ok ()

def site (sni : String) : SiteRecord where
  name := "a"
  domains := ["A.test.", "*.a.test"]
  backendAddress := "Backend.test"
  backendPort := 8443
  backendProtocol := "HTTPS"
  backendTlsSni := sni
  urlAuthJson := "\x7b\x7d"
  hotlinkExtensionsJson := "[]"

end Revalidated

theorem validate_again_name :
    ∃ s, validateAndNormalize Revalidated.libraries (Revalidated.site "Backend.test") = .ok s ∧
      validateAndNormalize Revalidated.libraries s = .ok s := by
  have hok : (validateAndNormalize Revalidated.libraries
      (Revalidated.site "Backend.test")).isOk = true := by decide
  cases hs : validateAndNormalize Revalidated.libraries (Revalidated.site "Backend.test") with
  | error e => rw [hs] at hok; cases hok
  | ok s =>
    refine ⟨s, rfl, (validate_again_iff _ _ s hs).mpr ⟨?_, ?_⟩⟩
    · decide
    · decide

/-- An IPv6 literal is accepted as a server name, and refused in the form in which it is stored. -/
theorem validate_again_literal :
    ∃ s, validateAndNormalize Revalidated.libraries (Revalidated.site "[::1]") = .ok s ∧
      s.backendTlsSni = "::1" ∧
      validateAndNormalize Revalidated.libraries s = .error "invalid backend TLS SNI" := by
  have hfacts : (validateAndNormalize Revalidated.libraries (Revalidated.site "[::1]")).map
      (fun s => (s.backendTlsSni, validateAndNormalize Revalidated.libraries s)) =
        .ok ("::1", .error "invalid backend TLS SNI") := by decide
  cases hs : validateAndNormalize Revalidated.libraries (Revalidated.site "[::1]") with
  | error e => rw [hs] at hfacts; cases hfacts
  | ok s =>
    rw [hs] at hfacts
    obtain ⟨hsni, hagain⟩ := Prod.mk.inj (Except.ok.inj hfacts)
    exact ⟨s, rfl, hsni, hagain⟩

end Config
end WebServer
