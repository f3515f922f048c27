import WebServer.Routing.LongestMatch

/-!
# WebServer.Routing.Hotlink

The hotlink protection of a site and the routing of its names.

`evaluate_hotlink` reads the host out of the `Referer`, and compares it with patterns of its own: the
domains of the site and the hosts that are allowed besides, normalized as `normalized_host_pattern`
does it. The router normalizes the same domains for its tables.

* `RefererParts`: a referer around its first `://` and the delimiter after that.
* `refererHost_eq_some_iff`: the host that is read is that of these parts.
* `Listed`: the host is one of the names, or under one of the wildcards.
* `hotlink_agrees`: the names of a site pass its own hotlink protection, and nothing passes that is
  not listed.
-/

namespace WebServer
namespace Routing

open Http Policy
open Network (AddressText)

/-! ## The referer -/

structure RefererParts (referer scheme authority tail : Text) : Prop where
  eq : referer = scheme ++ ascii "://" ++ (authority ++ tail)
  first : ∀ l r, referer = l ++ ascii "://" ++ r → scheme.length ≤ l.length
  closed : ∀ b ∈ authority, Reference.isDelimiter b = false
  next : ∀ b ∈ tail.head?, Reference.isDelimiter b = true

/-- `http` or `https`, in any case. -/
def IsHttp (scheme : Text) : Prop :=
  asciiLower scheme = ascii "http" ∨ asciiLower scheme = ascii "https"

theorem cutScheme_eq_some_iff {t scheme rest : Text} :
    cutScheme t = some (scheme, rest) ↔ t = scheme ++ ascii "://" ++ rest ∧
      ∀ l r, t = l ++ ascii "://" ++ r → scheme.length ≤ l.length := by
  induction t generalizing scheme with
  | nil => simp [cutScheme, ascii]
  | cons b t ih =>
    unfold cutScheme
    by_cases hnow : ascii "://" <+: b :: t
    · rw [if_pos hnow]
      obtain ⟨r, hr⟩ := hnow
      have hdrop : t.drop 2 = r := by
        have hcut := congrArg (List.drop 3) hr
        simpa [ascii] using hcut.symm
      rw [hdrop]
      constructor
      · intro h
        cases h
        exact ⟨hr.symm, by simp⟩
      · rintro ⟨heq, hfirst⟩
        obtain rfl := List.length_eq_zero_iff.mp (Nat.le_zero.mp (hfirst [] r hr.symm))
        rw [List.append_cancel_left (hr.trans heq)]
    · rw [if_neg hnow]
      constructor
      · intro h
        obtain ⟨⟨scheme', rest'⟩, hcut, heq⟩ := Option.map_eq_some_iff.mp h
        cases heq
        obtain ⟨ht, hfirst⟩ := ih.mp hcut
        refine ⟨by rw [ht]; rfl, fun l r hlr => ?_⟩
        cases l with
        | nil => exact absurd ⟨r, hlr.symm⟩ hnow
        | cons c l => exact Nat.succ_le_succ (hfirst l r (List.cons.inj hlr).2)
      · rintro ⟨heq, hfirst⟩
        cases scheme with
        | nil => exact absurd ⟨rest, heq.symm⟩ hnow
        | cons c scheme =>
          obtain ⟨rfl, ht⟩ := List.cons.inj heq
          have hrest : ∀ l r, t = l ++ ascii "://" ++ r → scheme.length ≤ l.length := by
            intro l r hlr
            exact Nat.succ_le_succ_iff.mp (hfirst (b :: l) r (by rw [hlr]; rfl))
          rw [ih.mpr ⟨ht, hrest⟩]
          rfl

theorem refererHost_eq_some_iff {referer host : Text} :
    refererHost referer = some host ↔ ∃ scheme authority tail,
      RefererParts referer scheme authority tail ∧ IsHttp scheme ∧
        normalizeAuthority authority = some host := by
  constructor
  · intro h
    unfold refererHost at h
    split at h
    · cases h
    · rename_i scheme rest hcut
      split at h
      · rename_i hscheme
        obtain ⟨heq, hfirst⟩ := cutScheme_eq_some_iff.mp hcut
        have hclosed : ∀ b ∈ Reference.segment rest, Reference.isDelimiter b = false := by
          intro b hb
          simpa using List.mem_takeWhile_imp hb
        refine ⟨scheme, Reference.segment rest,
          rest.dropWhile fun b => !Reference.isDelimiter b, ⟨?_, hfirst, hclosed, ?_⟩, hscheme, h⟩
        · rw [Reference.segment, List.takeWhile_append_dropWhile]
          exact heq
        · intro b hb
          have hnot := List.head?_dropWhile_not (fun b => !Reference.isDelimiter b) rest
          rw [Option.mem_def.mp hb] at hnot
          simpa using hnot
      · cases h
  · rintro ⟨scheme, authority, tail, hparts, hscheme, hhost⟩
    have hsegment : Reference.segment (authority ++ tail) = authority := by
      rw [Reference.segment, List.takeWhile_append_of_pos fun b hb => by simp [hparts.closed b hb]]
      cases tail with
      | nil => simp
      | cons b tail => simp [hparts.next b (by simp)]
    unfold refererHost
    rw [cutScheme_eq_some_iff.mpr ⟨hparts.eq, hparts.first⟩]
    simp only [hsegment]
    exact (if_pos hscheme).trans hhost

/-- No `://` can start in a scheme that is `http` or `https`. -/
theorem RefererParts.of_http {referer scheme authority tail host : Text} (hscheme : IsHttp scheme)
    (heq : referer = scheme ++ ascii "://" ++ (authority ++ tail))
    (hauthority : normalizeAuthority authority = some host)
    (htail : ∀ b ∈ tail.head?, Reference.isDelimiter b = true) :
    RefererParts referer scheme authority tail := by
  have hcolon : (58 : UInt8) ∉ scheme := by
    intro hmem
    have hlower : (58 : UInt8) ∈ asciiLower scheme := List.mem_map.mpr ⟨58, hmem, by decide⟩
    rcases hscheme with hscheme | hscheme
    · rw [hscheme] at hlower
      exact absurd hlower (by decide)
    · rw [hscheme] at hlower
      exact absurd hlower (by decide)
  refine ⟨heq, fun l r hlr => ?_, fun b hb => ?_, htail⟩
  · by_contra hlt
    rw [heq, List.append_assoc, List.append_assoc] at hlr
    rcases List.append_eq_append_iff.mp hlr with ⟨more, hl, -⟩ | ⟨more, hs, hrest⟩
    · rw [hl, List.length_append] at hlt
      omega
    · cases more with
      | nil =>
        rw [hs, List.append_nil] at hlt
        exact hlt le_rfl
      | cons c more =>
        have hc : (58 : UInt8) = c := (List.cons.inj hrest).1
        exact hcolon (by rw [hs, hc]; simp)
  · have hfinite : ∀ n < 256, isAuthorityByte (UInt8.ofNat n) = true →
        Reference.isDelimiter (UInt8.ofNat n) = false := by decide +kernel
    have hbyte := normalize_authorityBytes hauthority b hb
    simpa using hfinite b.toNat b.toNat_lt (by simpa using hbyte)

/-! ## The patterns -/

/-- The host is the name that the pattern stands for, or under its wildcard. -/
def PatternHolds (pattern host : Text) : Prop :=
  ∃ domain, patternDomain pattern = some domain ∧
    if isWildcard pattern then VirtualHostRouter.Covers domain host else host = domain

/-- The domains of the site and the hosts that it allows. -/
def Listed (config : VirtualHostConfig) (host : Text) : Prop :=
  ∃ pattern ∈ config.domains.map utf8 ++ config.policy.hotlink.allowedHosts, PatternHolds pattern host

theorem wildcardHostMatches_iff {pattern normalized host : Text}
    (h : normalizedHostPattern pattern = .ok normalized) (hhost : host.head? ≠ some 46) :
    wildcardHostMatches normalized host = true ↔ PatternHolds pattern host := by
  unfold normalizedHostPattern at h
  unfold PatternHolds
  cases hdomain : patternDomain pattern with
  | none => simp [hdomain] at h
  | some domain =>
    rw [hdomain] at h
    simp only [Option.some.injEq, exists_eq_left']
    by_cases hwild : isWildcard pattern = true
    · simp only [if_pos hwild] at h ⊢
      split at h
      · cases h
      · cases h
        have hstar : isWildcard (ascii "*." ++ domain) = true := by simp [isWildcard]
        have hdrop : (ascii "*." ++ domain).drop 2 = domain := rfl
        rw [wildcardHostMatches, if_pos hstar, hdrop, subdomain_isSome_iff]
        constructor
        · rintro ⟨label, rfl⟩
          refine ⟨label, ?_, rfl⟩
          rintro rfl
          exact hhost rfl
        · rintro ⟨label, -, rfl⟩
          exact ⟨label, rfl⟩
    · simp only [if_neg hwild] at h ⊢
      cases h
      have hplain := isWildcard_hostBytes (normalize_bytes hdomain)
      rw [wildcardHostMatches, hplain, if_neg (by simp), beq_iff_eq]
      exact eq_comm

section Site

variable {re2 : Re2} {lib : AddressText} {config : VirtualHostConfig} {p : RequestPolicy}

theorem make_hotlink {spec : SitePolicySpec} {domains : List Text}
    (h : RequestPolicy.make re2 lib spec domains = .ok p) :
    p.spec = spec ∧ ∃ own allowed, domains.mapM normalizedHostPattern = .ok own ∧
      spec.hotlink.allowedHosts.mapM normalizedHostPattern = .ok allowed ∧
      p.hotlinkHosts = own ++ allowed := by
  unfold RequestPolicy.make at h
  obtain ⟨limiter, -, h⟩ := Result.bind_ok h
  obtain ⟨own, hown, h⟩ := Result.bind_ok h
  obtain ⟨allowed, hallowed, h⟩ := Result.bind_ok h
  obtain ⟨extensions, -, h⟩ := Result.bind_ok h
  obtain ⟨-, h⟩ := Result.guard_ok h
  obtain ⟨-, h⟩ := Result.guard_ok h
  obtain ⟨acl, -, h⟩ := Result.bind_ok h
  obtain ⟨redirects, -, h⟩ := Result.bind_ok h
  cases h
  exact ⟨rfl, own, allowed, hown, hallowed, rfl⟩

/-- What the compiled patterns let pass is what is listed. -/
theorem any_hotlinkHosts_iff
    (hp : RequestPolicy.make re2 lib config.policy (config.domains.map utf8) = .ok p) {host : Text}
    (hhost : host.head? ≠ some 46) :
    (p.hotlinkHosts.any (wildcardHostMatches · host)) = true ↔ Listed config host := by
  obtain ⟨-, own, allowed, hown, hallowed, hhosts⟩ := make_hotlink hp
  rw [hhosts, List.any_append, Bool.or_eq_true, List.any_eq_true, List.any_eq_true]
  constructor
  · rintro (⟨q, hq, hmatch⟩ | ⟨q, hq, hmatch⟩)
    · obtain ⟨pattern, hmem, hpattern⟩ := Result.mapM_ok hown q hq
      exact ⟨pattern, List.mem_append_left _ hmem, (wildcardHostMatches_iff hpattern hhost).mp hmatch⟩
    · obtain ⟨pattern, hmem, hpattern⟩ := Result.mapM_ok hallowed q hq
      exact ⟨pattern, List.mem_append_right _ hmem, (wildcardHostMatches_iff hpattern hhost).mp hmatch⟩
  · rintro ⟨pattern, hmem, hholds⟩
    rcases List.mem_append.mp hmem with hmem | hmem
    · obtain ⟨q, hq, hpattern⟩ := Result.mapM_ok_mem hown pattern hmem
      exact .inl ⟨q, hq, (wildcardHostMatches_iff hpattern hhost).mpr hholds⟩
    · obtain ⟨q, hq, hpattern⟩ := Result.mapM_ok_mem hallowed pattern hmem
      exact .inr ⟨q, hq, (wildcardHostMatches_iff hpattern hhost).mpr hholds⟩

/-- A host that a router sends to the site is one of the site's domains. -/
theorem listed_of_find {configs : List VirtualHostConfig} {t : HostTable VirtualHostConfig}
    (hbuilt : VirtualHostRouter.Built (checkConfig re2 lib) (·.domains) configs t) {host : Text}
    (hhost : host.head? ≠ some 46) (h : VirtualHostRouter.find t host = some config) :
    Listed config host := by
  have hlisted : ∀ pattern ∈ config.domains, PatternHolds (utf8 pattern) host →
      Listed config host := fun pattern hmem hholds =>
    ⟨utf8 pattern, List.mem_append_left _ (List.mem_map_of_mem hmem), hholds⟩
  cases (hbuilt.find_eq_some_iff hhost).mp h with
  | exact _ howns =>
    obtain ⟨pattern, hmem, hwild, hdomain⟩ := howns
    exact hlisted pattern hmem ⟨host, hdomain, by simp [hwild]⟩
  | @wildcard suffix _ _ howns hcovers _ =>
    obtain ⟨pattern, hmem, hwild, hdomain⟩ := howns
    exact hlisted pattern hmem ⟨suffix, hdomain, by simpa [hwild] using hcovers⟩

theorem evaluateHotlink_none_iff {request : RequestView}
    (hp : RequestPolicy.make re2 lib config.policy (config.domains.map utf8) = .ok p)
    (henabled : config.policy.hotlink.enabled = true)
    (hextension : targetExtension request.target ∈ p.hotlinkExtensions)
    (hreferer : request.referer ≠ []) :
    p.evaluateHotlink request = none ↔
      ∃ host, refererHost request.referer = some host ∧ Listed config host := by
  have hspec := (make_hotlink hp).1
  have hallowed : p.evaluateHotlink request = none ↔ p.allowedReferer request.referer = true := by
    unfold RequestPolicy.evaluateHotlink
    rw [hspec, if_neg (by simp [henabled, hextension])]
    split
    · rename_i h
      simp [h]
    · rename_i h
      simp only [h, Bool.false_eq_true, iff_false]
      split <;> simp
  rw [hallowed, RequestPolicy.allowedReferer, if_neg hreferer]
  cases hhost : refererHost request.referer with
  | none => simp
  | some host =>
    obtain ⟨_, authority, _, -, -, hauthority⟩ := refererHost_eq_some_iff.mp hhost
    have hname : host.head? ≠ some 46 := Normalized.head?_ne ⟨authority, hauthority⟩
    simp only [Option.any_some, any_hotlinkHosts_iff hp hname, Option.some.injEq, exists_eq_left']

/-- A configuration that is accepted among others is accepted alone. -/
theorem Accepts.single {configs : List VirtualHostConfig} (hmem : config ∈ configs)
    (h : VirtualHostRouter.Accepts (checkConfig re2 lib) (·.domains) configs) :
    VirtualHostRouter.Accepts (checkConfig re2 lib) (·.domains) [config] := by
  obtain ⟨before, after, rfl⟩ := List.append_of_mem hmem
  have hsub : (VirtualHostRouter.patterns (·.domains) [config]).Sublist
      (VirtualHostRouter.patterns (·.domains) (before ++ config :: after)) := by
    simp only [VirtualHostRouter.patterns, List.flatMap_append, List.flatMap_cons, List.flatMap_nil,
      List.append_nil]
    exact (List.sublist_append_left _ _).trans (List.sublist_append_right _ _)
  exact ⟨fun c hc => h.checks c (by simp [List.mem_singleton.mp hc]),
    fun e he => h.valid e (hsub.subset he), h.distinct.sublist (hsub.map _)⟩

theorem make_of_check (h : checkConfig re2 lib config = .ok ()) :
    ∃ p, RequestPolicy.make re2 lib config.policy (config.domains.map utf8) = .ok p := by
  unfold checkConfig at h
  obtain ⟨-, h⟩ := Result.guard_ok h
  obtain ⟨-, h⟩ := Result.guard_ok h
  obtain ⟨-, -, h⟩ := Result.bind_ok h
  obtain ⟨-, -, h⟩ := Result.bind_ok h
  obtain ⟨p, hp, -⟩ := Result.bind_ok h
  cases hmake : RequestPolicy.make re2 lib config.policy (config.domains.map utf8) with
  | error e =>
    rw [hmake] at hp
    cases hp
  | ok p => exact ⟨p, rfl⟩

end Site

/-- The policy of a site that the router accepts, and the router of that site alone. A referer with
one of the names of the site passes; one that passes has a name that is listed. -/
theorem hotlink_agrees (re2 : Re2) (lib : AddressText) {configs : List VirtualHostConfig}
    {t : HostTable VirtualHostConfig}
    (hbuilt : VirtualHostRouter.Built (checkConfig re2 lib) (·.domains) configs t)
    {config : VirtualHostConfig} (hmem : config ∈ configs)
    (henabled : config.policy.hotlink.enabled = true) :
    ∃ p own, RequestPolicy.make re2 lib config.policy (config.domains.map utf8) = .ok p ∧
      VirtualHostRouter.Built (checkConfig re2 lib) (·.domains) [config] own ∧
      ∀ request : RequestView, targetExtension request.target ∈ p.hotlinkExtensions →
        (∀ scheme authority tail host, IsHttp scheme →
          request.referer = scheme ++ ascii "://" ++ (authority ++ tail) →
          (∀ b ∈ tail.head?, Reference.isDelimiter b = true) →
          normalizeAuthority authority = some host →
          VirtualHostRouter.find own host = some config ∨
            VirtualHostRouter.find t host = some config →
          p.evaluateHotlink request = none) ∧
        (request.referer ≠ [] → p.evaluateHotlink request = none →
          ∃ scheme authority tail host, RefererParts request.referer scheme authority tail ∧
            IsHttp scheme ∧ normalizeAuthority authority = some host ∧ Listed config host) := by
  have haccepts := VirtualHostRouter.exists_built_iff.mp ⟨t, hbuilt⟩
  obtain ⟨own, hown⟩ := VirtualHostRouter.exists_built_iff.mpr (Accepts.single hmem haccepts)
  obtain ⟨p, hp⟩ := make_of_check (haccepts.checks config hmem)
  refine ⟨p, own, hp, hown, fun request hextension => ⟨?_, fun hreferer hpass => ?_⟩⟩
  · intro scheme authority tail host hscheme heq htail hauthority hfind
    have hname : host.head? ≠ some 46 := Normalized.head?_ne ⟨authority, hauthority⟩
    have hlisted : Listed config host :=
      hfind.elim (listed_of_find hown hname) (listed_of_find hbuilt hname)
    have hreferer : request.referer ≠ [] := by
      rw [heq]
      simp [ascii]
    refine (evaluateHotlink_none_iff hp henabled hextension hreferer).mpr ⟨host, ?_, hlisted⟩
    exact refererHost_eq_some_iff.mpr
      ⟨scheme, authority, tail, .of_http hscheme heq hauthority htail, hscheme, hauthority⟩
  · obtain ⟨host, hhost, hlisted⟩ :=
      (evaluateHotlink_none_iff hp henabled hextension hreferer).mp hpass
    obtain ⟨scheme, authority, tail, hparts, hscheme, hauthority⟩ :=
      refererHost_eq_some_iff.mp hhost
    exact ⟨scheme, authority, tail, host, hparts, hscheme, hauthority, hlisted⟩


/-! ## A picture on the site's own page -/

namespace Gallery

def noRegex : Re2 := ⟨fun _ _ => false, fun _ _ _ => false⟩

def config : VirtualHostConfig where
  name := "gallery"
  domains := ["a.test", "*.a.test"]
  backend := { address := "192.0.2.1", port := 8080 }
  policy := { hotlink := { enabled := true, protectedExtensions := [ascii "jpg"] } }

def table : HostTable VirtualHostConfig where
  exact := [(ascii "a.test", config)]
  wildcard := [(ascii "a.test", config)]

def request : RequestView where
  method := ascii "GET"
  target := ascii "/p.JPG?w=1"
  userAgent := []
  referer := ascii "HTTPS://Img.A.test:8443/page?q"
  headerValue := fun _ => []

theorem built : VirtualHostRouter.Built (checkConfig noRegex .dotted) (·.domains) [config] table :=
  ⟨table, by rfl, rfl, .refl _, List.pairwise_singleton _ _⟩

end Gallery

theorem hotlink_agrees_gallery :
    ∃ p, RequestPolicy.make Gallery.noRegex .dotted Gallery.config.policy
        (Gallery.config.domains.map utf8) = .ok p ∧
      p.evaluateHotlink Gallery.request = none := by
  obtain ⟨p, own, hp, -, hrequests⟩ := hotlink_agrees Gallery.noRegex .dotted Gallery.built
    (List.mem_singleton.mpr rfl) rfl
  have hextension : targetExtension Gallery.request.target ∈ p.hotlinkExtensions := by
    have hmake : (RequestPolicy.make Gallery.noRegex .dotted Gallery.config.policy
        (Gallery.config.domains.map utf8)).map (·.hotlinkExtensions) = .ok [ascii "jpg"] := by rfl
    rw [hp] at hmake
    have hextensions : p.hotlinkExtensions = [ascii "jpg"] := Except.ok.inj hmake
    rw [hextensions]
    decide
  refine ⟨p, hp, (hrequests Gallery.request hextension).1 (ascii "HTTPS") (ascii "Img.A.test:8443")
    (ascii "/page?q") (ascii "img.a.test") ?_ ?_ ?_ ?_ (.inr rfl)⟩
  · exact .inr (by decide)
  · decide
  · intro b hb
    have hhead : (ascii "/page?q").head? = some 47 := by decide
    rw [hhead, Option.mem_some_iff] at hb
    exact hb ▸ by decide
  · decide

end Routing
end WebServer
