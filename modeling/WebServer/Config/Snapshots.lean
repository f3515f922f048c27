import WebServer.Config.Coverage
import WebServer.Config.SitePolicy
import WebServer.Policy.RateBound
import WebServer.Policy.Redirects

/-!
# WebServer.Config.Snapshots

The virtual hosts of the published snapshots, and the rate limit of a site.

A `VirtualHostRouter` makes a `VirtualHost` with a `RequestPolicy` of its own for every site that it
routes to. There is a router for every protocol and port, and new ones for every snapshot. A request
is evaluated by the policy that the router of its listener has in the snapshot that it loaded.

* `makeVirtualHost_of_compiled`: the policy is the one that was compiled when the site was validated.
* `run` gives, for a run of publications and requests, the requests that a rate limiter has decided.
* `hits_at`: the decisions at one policy are those of one limiter.
* `undivided_decisions`: when the decisions at all policies of a site are those of one limiter.
-/

namespace WebServer
namespace Snapshots

open Http (Text ascii)
open Config
open Policy
open Routing
open Network (AddressText)

/-- RE2 and Asio's addresses, the rules that a site has in JSON, the other tests of a virtual host
and those of a runtime configuration. -/
structure Environment where
  re2 : Re2
  lib : AddressText
  rules : SiteRecord → SitePolicySpec
  check : Config.VirtualHostConfig → Except Error Unit
  checks : Checks

def rateLimitOf (site : SiteRecord) : RateLimitSpec :=
  ⟨site.rateLimitEnabled, site.rateLimitWindowSeconds, site.rateLimitMaxRequests,
    site.rateLimitBanSeconds⟩

def runtimePolicy (rules : SiteRecord → SitePolicySpec) (site : SiteRecord) : SitePolicySpec :=
  { rules site with
    forceHttps := site.forceHttps
    httpsPort := site.httpsPort
    rateLimit := rateLimitOf site }

structure VirtualHost where
  config : Config.VirtualHostConfig
  requestPolicy : RequestPolicy

def VirtualHost.siteId (vh : VirtualHost) : Int := vh.config.overload.siteId

/-- The second component points to the virtual host. -/
abbrev Router := HostTable (Config.VirtualHostConfig × ℕ)

inductive ListenerProtocol where
  | http
  | https
  deriving DecidableEq

structure Snapshot where
  http : List (ℕ × Router)
  https : List (ℕ × Router)

/-- All virtual hosts that were made, and all snapshots that were published, oldest first. -/
structure Store where
  virtualHosts : List VirtualHost
  snapshots : List Snapshot

def Store.empty : Store := ⟨[], []⟩

section Model

variable (env : Environment)

/-! ## Publication -/

def makeVirtualHost (config : Config.VirtualHostConfig) : Except Error VirtualHost :=
  match RequestPolicy.make env.re2 env.lib (runtimePolicy env.rules config.site)
      (config.domains.map utf8) with
  | .error e => .error (asciiString e)
  | .ok policy => .ok ⟨config, policy⟩

def buildRouter (configs : List Config.VirtualHostConfig) (virtualHosts : List VirtualHost) :
    Except Error (Router × List VirtualHost) := do
  let made ← configs.mapM (makeVirtualHost env)
  let router ← VirtualHostRouter.make (fun e : Config.VirtualHostConfig × ℕ => checkHost env.check e.1)
    (fun e => e.1.domains) (configs.zipIdx virtualHosts.length)
  return (router, virtualHosts ++ made)

def buildRouters (hostsAt : ℕ → List Config.VirtualHostConfig) : List ℕ → List VirtualHost →
    Except Error (List (ℕ × Router) × List VirtualHost)
  | [], virtualHosts => .ok ([], virtualHosts)
  | port :: ports, virtualHosts => do
    let (router, virtualHosts) ← buildRouter env (hostsAt port) virtualHosts
    let (routers, virtualHosts) ← buildRouters hostsAt ports virtualHosts
    return ((port, router) :: routers, virtualHosts)

def buildSnapshot (spec : RuntimeConfigSpec) (virtualHosts : List VirtualHost) :
    Except Error (Snapshot × List VirtualHost) := do
  let config ← buildRuntimeConfig env.checks spec
  let (http, virtualHosts) ← buildRouters env
    (hostsOn spec.sites (·.httpEnabled) (·.httpPort)) config.httpPorts virtualHosts
  let (https, virtualHosts) ← buildRouters env
    (hostsOn spec.sites (·.httpsEnabled) (·.httpsPort)) config.httpsPorts virtualHosts
  return (⟨http, https⟩, virtualHosts)

/-- A candidate that is refused changes nothing. -/
def Store.publish (s : Store) (spec : RuntimeConfigSpec) : Store :=
  match buildSnapshot env spec s.virtualHosts with
  | .error _ => s
  | .ok (snapshot, virtualHosts) => ⟨virtualHosts, s.snapshots ++ [snapshot]⟩

/-! ## Requests -/

/-- A request that the dispatcher has got to the policy. `snapshot` is the one that it loaded. -/
structure Incoming where
  snapshot : ℕ
  protocol : ListenerProtocol
  port : ℕ
  host : Text
  view : RequestView
  clientIp : Text
  now : ℕ

def Snapshot.routers (s : Snapshot) : ListenerProtocol → List (ℕ × Router)
  | .http => s.http
  | .https => s.https

def ListenerProtocol.scheme : ListenerProtocol → Text
  | .http => ascii "http"
  | .https => ascii "https"

def Store.route (s : Store) (r : Incoming) : Option ℕ := do
  let snapshot ← s.snapshots[r.snapshot]?
  let router ← (snapshot.routers r.protocol).lookup r.port
  let e ← VirtualHostRouter.find router r.host
  return e.2

/-- Nothing is decided before the rate limit. -/
def reaches (p : RequestPolicy) (r : Incoming) : Bool :=
  match p.evaluateFirst env.re2 env.lib r.view r.clientIp r.host with
  | .ok none => true
  | _ => false

/-- The answer is that of the rate limit. -/
def rateLimited (answer : Except Text (Option PolicyDecision)) : Option ℕ :=
  match answer with
  | .ok (some decision) =>
    if decision.status = 429 ∧ decision.body = ascii "Rate limit exceeded" then
      some decision.retryAfterSeconds
    else none
  | _ => none

/-- A request that a rate limiter has decided: the site, the policy and what the answer was. -/
structure Hit where
  siteId : Int
  policy : ℕ
  call : Call
  decision : Option ℕ

def evaluateAt (vh : VirtualHost) (r : Incoming) :
    RequestPolicy × Except Text (Option PolicyDecision) :=
  vh.requestPolicy.evaluate env.re2 env.lib r.view r.clientIp r.host r.protocol.scheme r.now

def Store.request (s : Store) (r : Incoming) : Store × Option Hit :=
  match s.route r with
  | none => (s, none)
  | some pointer =>
    match s.virtualHosts[pointer]? with
    | none => (s, none)
    | some vh =>
      let (policy, answer) := evaluateAt env vh r
      ({ s with virtualHosts := s.virtualHosts.set pointer { vh with requestPolicy := policy } },
        if reaches env vh.requestPolicy r then
          some ⟨vh.siteId, pointer, ⟨r.clientIp, r.now⟩, rateLimited answer⟩
        else none)

inductive Event where
  | publish (spec : RuntimeConfigSpec)
  | request (r : Incoming)

def run : Store → List Event → List Hit
  | _, [] => []
  | s, .publish spec :: events => run (s.publish env spec) events
  | s, .request r :: events =>
    (s.request env r).2.toList ++ run (s.request env r).1 events

end Model

def siteHits (siteId : Int) (hits : List Hit) : List Hit := hits.filter fun h => h.siteId = siteId

/-- Every publication leaves the rate limit of the site as it is. -/
def Unchanged (siteId : Int) (spec : RateLimitSpec) (events : List Event) : Prop :=
  ∀ published, .publish published ∈ events → ∀ site ∈ published.sites,
    site.virtualHost.overload.siteId = siteId → rateLimitOf site.virtualHost.site = spec

/-! ## One policy -/

section Policies

variable {env : Environment}

theorem rateLimited_other {decision : PolicyDecision}
    (h : decision.body ≠ ascii "Rate limit exceeded") : rateLimited (.ok (some decision)) = none := by
  simp [rateLimited, h]

theorem rateLimited_acl (rule : AclRuleSpec) : rateLimited (aclDecision rule) = none := by
  unfold aclDecision checkedStatus
  cases rule.action with
  | allow => rfl
  | redirect =>
    simp only
    split
    · rfl
    · exact rateLimited_other (by decide : ([] : Text) ≠ _)
  | deny =>
    simp only
    split
    · rfl
    · exact rateLimited_other (by decide : ascii "Request denied by ACL" ≠ _)
  | returnStatus =>
    simp only
    split
    · rfl
    · exact rateLimited_other (by decide : ascii "Request blocked by ACL" ≠ _)

theorem rateLimited_postAcl (p : RequestPolicy) (view : RequestView) (host scheme : Text) :
    rateLimited (.ok (p.evaluatePostAcl view host scheme)) = none := by
  have hempty : ([] : Text) ≠ ascii "Rate limit exceeded" := by decide
  unfold RequestPolicy.evaluatePostAcl
  split
  · exact rateLimited_other hempty
  · split
    · rename_i decision hredirect
      unfold evaluateRedirects at hredirect
      simp only [Option.map_eq_some_iff] at hredirect
      obtain ⟨rule, -, rfl⟩ := hredirect
      exact rateLimited_other hempty
    · unfold RequestPolicy.evaluateHotlink
      split
      · rfl
      · split
        · rfl
        · split
          · exact rateLimited_other hempty
          · exact rateLimited_other (by decide)

theorem rateLimited_rest (p : RequestPolicy) (view : RequestView) (clientIp host scheme : Text) :
    rateLimited (p.evaluateRest env.re2 env.lib view clientIp host scheme) = none := by
  unfold RequestPolicy.evaluateRest
  rw [evaluateAcl_eq]
  split
  · rfl
  · rename_i decision hacl
    split at hacl
    · cases hacl
    · rename_i rule _
      rw [← hacl]
      exact rateLimited_acl rule.spec
  · exact rateLimited_postAcl p view host scheme

/-- The policy uses its limiter when nothing is decided before, and answers what that says. -/
theorem evaluate_limiter (env : Environment) (vh : VirtualHost) (r : Incoming) :
    (evaluateAt env vh r).1 = (if reaches env vh.requestPolicy r then
        { vh.requestPolicy with
          rateLimiter := (vh.requestPolicy.rateLimiter.check r.clientIp r.now).1 }
      else vh.requestPolicy) ∧
    (reaches env vh.requestPolicy r = true → rateLimited (evaluateAt env vh r).2 =
      (vh.requestPolicy.rateLimiter.check r.clientIp r.now).2) := by
  unfold evaluateAt RequestPolicy.evaluate reaches
  split
  · rename_i e he; simp [he]
  · rename_i d hd; simp [hd]
  · rename_i hnone
    simp only [hnone, if_true]
    cases hcheck : (vh.requestPolicy.rateLimiter.check r.clientIp r.now).2 with
    | some seconds => simp [rateLimited]
    | none => simp [rateLimited_rest]

/-! ## New virtual hosts -/

/-- A virtual host of a site in the list, with a limiter that has seen no request. -/
def Fresh (configs : List Config.VirtualHostConfig) (vh : VirtualHost) : Prop :=
  vh.config ∈ configs ∧
    RateLimiter.make (rateLimitOf vh.config.site) = .ok vh.requestPolicy.rateLimiter

theorem make_rateLimiter {re2 : Re2} {lib : AddressText} {spec : SitePolicySpec}
    {domains : List Text} {p : RequestPolicy} (h : RequestPolicy.make re2 lib spec domains = .ok p) :
    RateLimiter.make spec.rateLimit = .ok p.rateLimiter := by
  unfold RequestPolicy.make at h
  obtain ⟨limiter, hlimiter, h⟩ := Result.bind_ok h
  obtain ⟨domains', -, h⟩ := Result.bind_ok h
  obtain ⟨hosts, -, h⟩ := Result.bind_ok h
  obtain ⟨extensions, -, h⟩ := Result.bind_ok h
  obtain ⟨-, h⟩ := Result.guard_ok h
  obtain ⟨-, h⟩ := Result.guard_ok h
  obtain ⟨acl, -, h⟩ := Result.bind_ok h
  obtain ⟨redirects, -, h⟩ := Result.bind_ok h
  cases h
  cases hmake : RateLimiter.make spec.rateLimit with
  | error e => rw [hmake] at hlimiter; cases hlimiter
  | ok l => rw [hmake] at hlimiter; cases hlimiter; rfl

theorem makeVirtualHost_ok {config : Config.VirtualHostConfig} {vh : VirtualHost}
    (h : makeVirtualHost env config = .ok vh) : Fresh [config] vh := by
  unfold makeVirtualHost at h
  split at h
  · cases h
  · rename_i policy hpolicy
    cases h
    exact ⟨by simp, make_rateLimiter hpolicy⟩

/-- With the rules that are parsed from its JSON columns, a site gets the policy that was compiled when
it was validated. -/
theorem makeVirtualHost_of_compiled {φ : Type} {codec : Codec φ} {site : SiteRecord}
    (hrules : SitePolicy.runtimePolicy codec site = .ok (env.rules site)) {policy : RequestPolicy}
    {authenticator : UrlAuthenticator}
    (hcompile : SitePolicy.compile codec env.re2 env.lib site = .ok (policy, authenticator)) :
    makeVirtualHost env (runtimeSite site).virtualHost =
      .ok ⟨(runtimeSite site).virtualHost, policy⟩ := by
  obtain ⟨spec, hspec, hmake⟩ := SitePolicy.compile_ok hcompile
  rw [hrules] at hspec
  cases hspec
  obtain ⟨hforce, hport, hlimit⟩ := SitePolicy.runtimePolicy_ok hrules
  have hsame : runtimePolicy env.rules site = env.rules site := by
    unfold runtimePolicy rateLimitOf
    rw [← hforce, ← hport, ← hlimit]
  have hmade : RequestPolicy.make env.re2 env.lib
      (runtimePolicy env.rules (runtimeSite site).virtualHost.site)
      ((runtimeSite site).virtualHost.domains.map utf8) = .ok policy := by
    rw [show (runtimeSite site).virtualHost.site = site from rfl, hsame]
    exact hmake
  rw [makeVirtualHost, hmade]

theorem buildRouter_ok {configs : List Config.VirtualHostConfig} {vhs vhs' : List VirtualHost}
    {router : Router} (h : buildRouter env configs vhs = .ok (router, vhs')) :
    ∃ made, vhs' = vhs ++ made ∧ ∀ vh ∈ made, Fresh configs vh := by
  unfold buildRouter at h
  obtain ⟨made, hmade, h⟩ := Result.bind_ok h
  obtain ⟨router', -, h⟩ := Result.bind_ok h
  cases h
  refine ⟨made, rfl, fun vh hvh => ?_⟩
  obtain ⟨config, hconfig, hmake⟩ := Result.mapM_ok hmade vh hvh
  obtain ⟨hm, hlimiter⟩ := makeVirtualHost_ok hmake
  rw [List.mem_singleton] at hm
  exact ⟨hm ▸ hconfig, hlimiter⟩

theorem buildRouters_ok {hostsAt : ℕ → List Config.VirtualHostConfig} {ports : List ℕ}
    {vhs vhs' : List VirtualHost} {routers : List (ℕ × Router)}
    (h : buildRouters env hostsAt ports vhs = .ok (routers, vhs')) :
    ∃ made, vhs' = vhs ++ made ∧ ∀ vh ∈ made, ∃ port, Fresh (hostsAt port) vh := by
  induction ports generalizing vhs routers with
  | nil => cases h; exact ⟨[], by simp, by simp⟩
  | cons port ports ih =>
    rw [buildRouters] at h
    obtain ⟨⟨router, vhs₁⟩, hrouter, h⟩ := Result.bind_ok h
    obtain ⟨⟨routers₁, vhs₂⟩, hrouters, h⟩ := Result.bind_ok h
    cases h
    obtain ⟨made₁, rfl, h₁⟩ := buildRouter_ok hrouter
    obtain ⟨made₂, rfl, h₂⟩ := ih hrouters
    refine ⟨made₁ ++ made₂, by simp, fun vh hvh => ?_⟩
    rcases List.mem_append.mp hvh with hvh | hvh
    · exact ⟨port, h₁ vh hvh⟩
    · exact h₂ vh hvh

theorem Fresh.of_hostsOn {sites : List RuntimeSiteConfig} {enabled : RuntimeSiteConfig → Bool}
    {portOf : RuntimeSiteConfig → ℕ} {port : ℕ} {vh : VirtualHost}
    (h : Fresh (hostsOn sites enabled portOf port) vh) :
    Fresh (sites.map (·.virtualHost)) vh := by
  obtain ⟨hm, hlimiter⟩ := h
  refine ⟨?_, hlimiter⟩
  simp only [hostsOn, List.mem_map, List.mem_filter] at hm ⊢
  obtain ⟨site, ⟨hsite, -⟩, hconfig⟩ := hm
  exact ⟨site, hsite, hconfig⟩

theorem buildSnapshot_ok {spec : RuntimeConfigSpec} {vhs vhs' : List VirtualHost}
    {snapshot : Snapshot} (h : buildSnapshot env spec vhs = .ok (snapshot, vhs')) :
    ∃ made, vhs' = vhs ++ made ∧ ∀ vh ∈ made, Fresh (spec.sites.map (·.virtualHost)) vh := by
  unfold buildSnapshot at h
  obtain ⟨config, -, h⟩ := Result.bind_ok h
  obtain ⟨⟨http, vhs₁⟩, hhttp, h⟩ := Result.bind_ok h
  obtain ⟨⟨https, vhs₂⟩, hhttps, h⟩ := Result.bind_ok h
  cases h
  obtain ⟨made₁, rfl, h₁⟩ := buildRouters_ok hhttp
  obtain ⟨made₂, rfl, h₂⟩ := buildRouters_ok hhttps
  refine ⟨made₁ ++ made₂, by simp, fun vh hvh => ?_⟩
  rcases List.mem_append.mp hvh with hvh | hvh
  · obtain ⟨port, hfresh⟩ := h₁ vh hvh
    exact hfresh.of_hostsOn
  · obtain ⟨port, hfresh⟩ := h₂ vh hvh
    exact hfresh.of_hostsOn

/-! ## Runs -/

variable {siteId : Int} {l : RateLimiter} {limiters : ℕ → RateLimiter} {s : Store}

/-- `limiters` has the limiter of every policy of the site; the policies to come start with `l`. -/
structure Tracked (siteId : Int) (l : RateLimiter) (limiters : ℕ → RateLimiter) (s : Store) :
    Prop where
  limiter : ∀ pointer vh, s.virtualHosts[pointer]? = some vh → vh.siteId = siteId →
    vh.requestPolicy.rateLimiter = limiters pointer
  later : ∀ pointer, s.virtualHosts.length ≤ pointer → limiters pointer = l

theorem Tracked.publish {spec : RateLimitSpec} (h : Tracked siteId l limiters s)
    (hl : RateLimiter.make spec = .ok l) {published : RuntimeConfigSpec}
    (hsettings : ∀ site ∈ published.sites, site.virtualHost.overload.siteId = siteId →
      rateLimitOf site.virtualHost.site = spec) :
    Tracked siteId l limiters (s.publish env published) := by
  unfold Store.publish
  split
  · exact h
  · rename_i snapshot vhs hbuild
    obtain ⟨made, rfl, hmade⟩ := buildSnapshot_ok hbuild
    refine ⟨fun pointer vh hvh hsite => ?_, fun pointer hle => ?_⟩
    · simp only [List.getElem?_append] at hvh
      split at hvh
      · exact h.limiter pointer vh hvh hsite
      · rename_i hnew
        obtain ⟨hconfig, hlimiter⟩ := hmade vh (List.mem_of_getElem? hvh)
        obtain ⟨site, hm, hsame⟩ := List.mem_map.mp hconfig
        have hspec := hsettings site hm (by rw [hsame]; exact hsite)
        rw [hsame] at hspec
        rw [hspec, hl] at hlimiter
        cases hlimiter
        exact (h.later pointer (by omega)).symm
    · simp only [List.length_append] at hle
      exact h.later pointer (by omega)

/-- The limiters after a request: the one that was hit has one more call. -/
def advance (siteId : Int) (limiters : ℕ → RateLimiter) : Option Hit → ℕ → RateLimiter
  | none => limiters
  | some hit =>
    if hit.siteId = siteId then
      Function.update limiters hit.policy
        ((limiters hit.policy).check hit.call.clientIp hit.call.now).1
    else limiters

theorem Tracked.request (h : Tracked siteId l limiters s) (env : Environment) (r : Incoming) :
    Tracked siteId l (advance siteId limiters (s.request env r).2) (s.request env r).1 ∧
    ∀ hit ∈ (s.request env r).2, hit.siteId = siteId →
      hit.decision = ((limiters hit.policy).check hit.call.clientIp hit.call.now).2 := by
  unfold Store.request
  split
  · exact ⟨h, by simp⟩
  · rename_i pointer hroute
    split
    · exact ⟨h, by simp⟩
    · rename_i vh hvh
      obtain ⟨hpolicy, hdecision⟩ := evaluate_limiter env vh r
      have hlt : pointer < s.virtualHosts.length := (List.getElem?_eq_some_iff.mp hvh).1
      simp only
      cases hreach : reaches env vh.requestPolicy r with
      | false =>
        rw [hreach] at hpolicy
        refine ⟨⟨fun pointer' vh' hvh' hsite => ?_, fun pointer' hle => ?_⟩, by simp⟩
        · simp only [List.getElem?_set] at hvh'
          split at hvh'
          · rename_i hsame
            subst hsame
            simp only [Option.some.injEq] at hvh'
            subst hvh'
            simp only [hpolicy, Bool.false_eq_true, if_false]
            exact h.limiter pointer vh hvh hsite
          · exact h.limiter pointer' vh' hvh' hsite
        · exact h.later pointer' (by simpa using hle)
      | true =>
        rw [hreach] at hpolicy
        have hown := h.limiter pointer vh hvh
        refine ⟨⟨fun pointer' vh' hvh' hsite => ?_, fun pointer' hle => ?_⟩, fun hit hhit hsite => ?_⟩
        · simp only [List.getElem?_set] at hvh'
          split at hvh'
          · rename_i hsame
            subst hsame
            simp only [Option.some.injEq] at hvh'
            subst hvh'
            have hsite : vh.siteId = siteId := hsite
            simp [advance, hsite, hpolicy, hown hsite]
          · rename_i hne
            simp only [if_true, advance]
            split
            · rw [Function.update_of_ne (Ne.symm hne)]
              exact h.limiter pointer' vh' hvh' hsite
            · exact h.limiter pointer' vh' hvh' hsite
        · have hne : pointer' ≠ pointer := by
            simp only [List.length_set] at hle
            omega
          simp only [if_true, advance]
          split
          · rw [Function.update_of_ne hne]
            exact h.later pointer' (by simpa using hle)
          · exact h.later pointer' (by simpa using hle)
        · simp only [if_true, Option.mem_def, Option.some.injEq] at hhit
          subst hhit
          simp only [hdecision hreach, hown hsite]

/-- The decisions at one policy of the site are those of its limiter. -/
theorem hits_at (env : Environment) {spec : RateLimitSpec} (hl : RateLimiter.make spec = .ok l) {events : List Event}
    (hsettings : Unchanged siteId spec events) (h : Tracked siteId l limiters s) (pointer : ℕ) :
    ((siteHits siteId (run env s events)).filter fun hit => hit.policy = pointer).map Hit.decision =
      (limiters pointer).decisions
        (((siteHits siteId (run env s events)).filter fun hit => hit.policy = pointer).map
          Hit.call) := by
  induction events generalizing s limiters with
  | nil => rfl
  | cons event events ih =>
    have hrest : Unchanged siteId spec events := fun published hm => hsettings published (by simp [hm])
    cases event with
    | publish published => exact ih hrest (h.publish hl (hsettings published (by simp)))
    | request r =>
      obtain ⟨hnext, hdecision⟩ := h.request env r
      have ih := ih hrest hnext
      rw [run]
      cases hhit : (s.request env r).2 with
      | none =>
        rw [hhit] at ih
        exact ih
      | some hit =>
        rw [hhit] at ih hdecision
        simp only [siteHits, Option.toList_some, List.singleton_append] at ih ⊢
        by_cases hsite : hit.siteId = siteId
        · by_cases hp : hit.policy = pointer
          · subst hp
            simp only [advance, hsite, if_true, Function.update_self] at ih
            simp only [List.filter_cons, hsite, decide_true, if_true, List.map_cons,
              RateLimiter.decisions]
            rw [ih, hdecision hit rfl hsite]
          · rw [advance, if_pos hsite, Function.update_of_ne (Ne.symm hp)] at ih
            simpa [List.filter_cons, hsite, hp] using ih
        · rw [advance, if_neg hsite] at ih
          simpa [List.filter_cons, hsite] using ih

/-! ## One limiter for the site -/

/-- The outcomes of a client among the hits. -/
def clientTrace (hits : List Hit) (ip : Text) : List (ℕ × Option ℕ) :=
  (hits.filter fun hit => hit.call.clientIp = ip).map fun hit => (hit.call.now, hit.decision)

theorem clientTrace_of_decisions {hits : List Hit}
    (h : hits.map Hit.decision = l.decisions (hits.map Hit.call)) (ip : Text) :
    clientTrace hits ip = l.trace (hits.map Hit.call) ip := by
  rw [clientTrace, RateLimiter.trace, ← h, List.zip_map', List.filter_map, List.map_map]
  rfl

/-- Outcomes that agree for every client agree. -/
theorem decisions_of_clientTrace {hits : List Hit}
    (h : ∀ ip, clientTrace hits ip = l.trace (hits.map Hit.call) ip) :
    hits.map Hit.decision = l.decisions (hits.map Hit.call) := by
  induction hits generalizing l with
  | nil => rfl
  | cons hit hits ih =>
    have hcons : ∀ ip, clientTrace (hit :: hits) ip =
        (if hit.call.clientIp = ip then [(hit.call.now, hit.decision)] else []) ++
          clientTrace hits ip := by
      intro ip
      simp only [clientTrace, List.filter_cons, decide_eq_true_eq]
      split <;> rfl
    have hstep : ∀ ip, hit.decision = (l.check hit.call.clientIp hit.call.now).2 ∧
        clientTrace hits ip =
          (l.check hit.call.clientIp hit.call.now).1.trace (hits.map Hit.call) ip := by
      have hown := h hit.call.clientIp
      rw [hcons, List.map_cons, trace_cons, if_pos rfl, if_pos rfl] at hown
      simp only [List.singleton_append, List.cons.injEq, Prod.mk.injEq, true_and] at hown
      intro ip
      refine ⟨hown.1, ?_⟩
      by_cases hip : hit.call.clientIp = ip
      · rw [← hip]; exact hown.2
      · have hother := h ip
        rw [hcons, List.map_cons, trace_cons, if_neg hip, if_neg hip] at hother
        simpa using hother
    simp only [List.map_cons, RateLimiter.decisions]
    rw [ih fun ip => (hstep ip).2, (hstep []).1]

theorem ordered_sublist {calls calls' : List Call} {t : ℕ} (h : Ordered t calls)
    (hsub : calls'.Sublist calls) : Ordered t calls' := by
  induction hsub generalizing t with
  | slnil => trivial
  | cons c hsub ih =>
    rename_i calls₁ calls₂
    refine ih ?_
    cases calls₂ with
    | nil => trivial
    | cons c' calls₂ => exact ⟨h.1.trans h.2.1, h.2.2⟩
  | cons_cons c hsub ih => exact ⟨h.1, ih h.2⟩

/-- The requests of the site reach one policy, or those of each client do and no limiter runs out of
places. -/
def Undivided (hits : List Hit) : Prop :=
  (∀ hit ∈ hits, ∀ hit' ∈ hits, hit.policy = hit'.policy) ∨
  ((∀ hit ∈ hits, ∀ hit' ∈ hits, hit.call.clientIp = hit'.call.clientIp →
      hit.policy = hit'.policy) ∧
    Ordered 0 (hits.map Hit.call) ∧
    (hits.map fun hit => hit.call.clientIp).toFinset.card ≤ maxRateLimitEntries)

/-- A client's outcomes at a limiter that no client is evicted from. -/
theorem trace_eq_bucketTrace {spec : RateLimitSpec} (hspec : spec.Valid) (hon : spec.enabled = true)
    {clients : Finset Text} (hcard : clients.card ≤ maxRateLimitEntries) {calls : List Call}
    (hcalls : ∀ c ∈ calls, c.clientIp ∈ clients) (horder : Ordered 0 calls) (ip : Text) :
    RateLimiter.trace ⟨spec, ∅, [], 0⟩ calls ip =
      bucketTrace spec none ((calls.filter fun c => c.clientIp = ip).map Call.now) := by
  refine trace_eq (l := ⟨spec, ∅, [], 0⟩) hspec hon horder (tracks_empty spec) ?_
  exact neverEvicted_of_card hcard hcalls (by simp) ip

theorem tracked_empty (siteId : Int) (l : RateLimiter) : Tracked siteId l (fun _ => l) Store.empty :=
  ⟨by simp [Store.empty], fun _ _ => rfl⟩

/-- In every run whose requests to a site are undivided, the site has one rate limit: publications
that leave its settings alone change nothing. -/
theorem undivided_decisions (env : Environment) (events : List Event) (siteId : Int)
    (spec : RateLimitSpec) (l : RateLimiter) (hl : RateLimiter.make spec = .ok l)
    (hon : spec.enabled = true) (hsettings : Unchanged siteId spec events)
    (hundivided : Undivided (siteHits siteId (run env .empty events))) :
    (siteHits siteId (run env .empty events)).map Hit.decision =
      l.decisions ((siteHits siteId (run env .empty events)).map Hit.call) := by
  have hat := hits_at env hl hsettings (tracked_empty siteId l)
  generalize siteHits siteId (run env .empty events) = hits at hundivided hat ⊢
  obtain ⟨rfl, hvalid⟩ := RateLimiter.make_ok hl
  rcases hundivided with hone | ⟨hone, horder, hcard⟩
  · -- all hits are at one policy, whose limiter is the reference
    cases hhits : hits with
    | nil => rfl
    | cons hit rest =>
      have hall : hits.filter (fun h => h.policy = hit.policy) = hits := by
        rw [List.filter_eq_self]
        intro h hm
        simp [hone h hm hit (by simp [hhits])]
      have := hat hit.policy
      rw [hall] at this
      rw [← hhits]
      exact this
  · -- each client is at one policy, and its outcomes depend on its own times only
    refine decisions_of_clientTrace fun ip => ?_
    obtain ⟨pointer, hown⟩ : ∃ pointer, hits.filter (fun h => h.call.clientIp = ip) =
        (hits.filter fun h => h.policy = pointer).filter fun h => h.call.clientIp = ip := by
      by_cases hip : ∃ hit ∈ hits, hit.call.clientIp = ip
      · obtain ⟨hit, hm, rfl⟩ := hip
        refine ⟨hit.policy, ?_⟩
        rw [List.filter_filter]
        refine List.filter_congr fun h hh => ?_
        by_cases hc : h.call.clientIp = hit.call.clientIp
        · simp [hc, hone h hh hit hm hc]
        · simp [hc]
      · push Not at hip
        refine ⟨0, ?_⟩
        rw [List.filter_eq_nil_iff.mpr (by simpa using hip), List.filter_eq_nil_iff.mpr]
        intro h hm
        simpa using hip h (List.mem_filter.mp hm).1
    have hsub : ((hits.filter fun h => h.policy = pointer).map Hit.call).Sublist
        (hits.map Hit.call) := List.filter_sublist.map _
    have hmem : ∀ c ∈ hits.map Hit.call,
        c.clientIp ∈ (hits.map fun hit => hit.call.clientIp).toFinset := by
      intro c hc
      obtain ⟨h, hh, rfl⟩ := List.mem_map.mp hc
      exact List.mem_toFinset.mpr (List.mem_map.mpr ⟨h, hh, rfl⟩)
    have htimes : ∀ hits' : List Hit, ((hits'.map Hit.call).filter fun c => c.clientIp = ip).map
        Call.now = (hits'.filter fun h => h.call.clientIp = ip).map fun h => h.call.now := by
      intro hits'
      rw [List.filter_map, List.map_map]
      rfl
    calc clientTrace hits ip
        = clientTrace (hits.filter fun h => h.policy = pointer) ip := by
          rw [clientTrace, clientTrace, hown]
      _ = _ := clientTrace_of_decisions (hat pointer) ip
      _ = _ := trace_eq_bucketTrace (hvalid hon) hon hcard (fun c hc => hmem c (hsub.subset hc))
          (ordered_sublist horder hsub) ip
      _ = bucketTrace spec none (((hits.map Hit.call).filter fun c => c.clientIp = ip).map
          Call.now) := by rw [htimes, htimes, hown]
      _ = _ := (trace_eq_bucketTrace (hvalid hon) hon hcard hmem horder ip).symm

end Policies

/-! ## A site with two listeners -/

namespace Twice

def environment : Environment :=
  ⟨Moved.noRegex, .dotted, fun _ => {}, fun _ => .ok (), Deep.permissive⟩

/-- One request in ten seconds. -/
def rateLimit : RateLimitSpec := ⟨true, 10, 1, 60⟩

def record : SiteRecord where
  id := 1
  name := "a"
  domains := ["a.test"]
  httpsEnabled := true
  rateLimitEnabled := true
  rateLimitMaxRequests := 1

def spec (revision : ℕ) : RuntimeConfigSpec :=
  ⟨revision, [runtimeSite record], [], true, {}⟩

def request (snapshot : ℕ) (protocol : ListenerProtocol) (port : ℕ) : Event :=
  .request ⟨snapshot, protocol, port, ascii "a.test", Moved.request (ascii "/"), ascii "192.0.2.1", 1⟩

def oneListener : List Event :=
  [.publish (spec 1), request 0 .http 80, request 0 .http 80]

def twoListeners : List Event :=
  [.publish (spec 1), request 0 .http 80, request 0 .https 443]

def republished : List Event :=
  [.publish (spec 1), request 0 .http 80, .publish (spec 2), request 1 .http 80]

theorem unchanged {events : List Event}
    (h : ∀ published, .publish published ∈ events → ∃ revision, published = spec revision) :
    Unchanged 1 rateLimit events := by
  intro published hm site hsite _
  obtain ⟨revision, rfl⟩ := h published hm
  rw [List.mem_singleton.mp hsite]
  rfl

end Twice

theorem undivided_oneListener :
    (siteHits 1 (run Twice.environment .empty Twice.oneListener)).map Hit.decision =
      [none, some 60] := by
  have h := undivided_decisions Twice.environment Twice.oneListener 1 Twice.rateLimit
    ⟨Twice.rateLimit, ∅, [], 0⟩ rfl rfl
    (Twice.unchanged (by simp [Twice.oneListener, Twice.request])) (.inl (by decide))
  rw [h]
  decide +kernel

/-- A second request is let through on the other listener, and after a publication that changes
nothing but the revision. -/
theorem second_limiter_refills :
    RateLimiter.make Twice.rateLimit = .ok ⟨Twice.rateLimit, ∅, [], 0⟩ ∧
    Unchanged 1 Twice.rateLimit Twice.twoListeners ∧ Unchanged 1 Twice.rateLimit Twice.republished ∧
    (siteHits 1 (run Twice.environment .empty Twice.twoListeners)).map Hit.decision = [none, none] ∧
    RateLimiter.decisions ⟨Twice.rateLimit, ∅, [], 0⟩
      ((siteHits 1 (run Twice.environment .empty Twice.twoListeners)).map Hit.call) =
        [none, some 60] ∧
    (siteHits 1 (run Twice.environment .empty Twice.republished)).map Hit.decision = [none, none] ∧
    RateLimiter.decisions ⟨Twice.rateLimit, ∅, [], 0⟩
      ((siteHits 1 (run Twice.environment .empty Twice.republished)).map Hit.call) =
        [none, some 60] := by
  refine ⟨rfl, Twice.unchanged ?_, Twice.unchanged ?_, by decide +kernel, by decide +kernel,
    by decide +kernel, by decide +kernel⟩
  · simp [Twice.twoListeners, Twice.request]
  · simp [Twice.republished, Twice.request]

end Snapshots
end WebServer
