import WebServer.Lib.Result
import WebServer.Policy.RequestPolicy

/-!
# WebServer.Policy.Redirects

Where a redirect of the policy leads.

A `Location` is the configured destination with parts of the request appended to it. The origin it
denotes is that of the destination, as long as the destination does not end where an authority starts.

* `firing` is the action that answers a request, `location_evaluate` the `Location` of the answer.
* `RedirectRuleSpec.location_eq`, `segment_location`: what a rule appends, and what of it can be seen
  in the authority.
* `originKept_iff`: when two requests are sent to one origin.
-/

namespace WebServer
namespace Policy

open Http
open Http.Reference (isDelimiter segment authority resolve Origin isNetworkPath)
open Network (AddressText)
open Routing

/-! ## What construction leaves behind -/

/-- Every rule and every destination of the policy has passed its check. -/
structure RequestPolicy.Compiled (p : RequestPolicy) : Prop where
  denies : ∀ rule ∈ p.preRateLimitAclRules, rule.spec.action = .deny
  acl : ∀ rule ∈ p.preRateLimitAclRules ++ p.aclRules, checkAclRule rule.spec = .ok ()
  destination : ∀ rule ∈ p.redirects, validRedirectDestination rule.destination = true
  hotlink : p.spec.hotlink.redirectLocation ≠ [] →
    validRedirectDestination p.spec.hotlink.redirectLocation = true

section Policy

variable {re2 : Re2} {lib : AddressText}

theorem compileAclRule_ok {rule : AclRuleSpec} {c : CompiledAclRule}
    (h : compileAclRule re2 lib rule = .ok c) : checkAclRule c.spec = .ok () := by
  unfold compileAclRule at h
  obtain ⟨u, hcheck, h⟩ := Result.bind_ok h
  obtain ⟨conditions, -, h⟩ := Result.bind_ok h
  cases h
  exact hcheck

theorem compileRedirect_ok {rule rule' : RedirectRuleSpec} (h : compileRedirect rule = .ok rule') :
    validRedirectDestination rule'.destination = true := by
  unfold compileRedirect at h
  split at h
  · cases h
  · rename_i hc
    simp only [not_or, Bool.not_eq_false, ne_eq, not_not] at hc
    split at h
    · cases h
      exact hc.2.2.2.2.2
    · cases hn : normalizedHostPattern rule.sourceHost with
      | error e => rw [hn] at h; cases h
      | ok host =>
        rw [hn] at h
        cases h
        exact hc.2.2.2.2.2

theorem compiled_make {spec : SitePolicySpec} {domains : List Text} {p : RequestPolicy}
    (h : RequestPolicy.make re2 lib spec domains = .ok p) : p.Compiled := by
  unfold RequestPolicy.make at h
  obtain ⟨limiter, -, h⟩ := Result.bind_ok h
  obtain ⟨domains', -, h⟩ := Result.bind_ok h
  obtain ⟨hosts, -, h⟩ := Result.bind_ok h
  obtain ⟨extensions, -, h⟩ := Result.bind_ok h
  obtain ⟨-, h⟩ := Result.guard_ok h
  obtain ⟨hhotlink, h⟩ := Result.guard_ok h
  obtain ⟨⟨first, rest⟩, hacl, h⟩ := Result.bind_ok h
  obtain ⟨redirects, hredirects, h⟩ := Result.bind_ok h
  cases h
  unfold compileAcl at hacl
  obtain ⟨-, hacl⟩ := Result.guard_ok hacl
  obtain ⟨compiled, hcompiled, hacl⟩ := Result.bind_ok hacl
  cases hacl
  unfold compileRedirects at hredirects
  obtain ⟨-, hredirects⟩ := Result.guard_ok hredirects
  refine ⟨?_, ?_, ?_, ?_⟩
  · intro rule hm
    have := (List.mem_filter.mp hm).2
    simp only [isPreRateLimitIpDeny, Bool.and_eq_true, beq_iff_eq] at this
    exact this.1
  · intro rule hm
    have hm : rule ∈ compiled := by
      rcases List.mem_append.mp hm with hm | hm
      · exact (List.mem_filter.mp hm).1
      · exact (List.mem_filter.mp hm).1
    obtain ⟨spec', -, hc⟩ := Result.mapM_ok hcompiled rule hm
    exact compileAclRule_ok hc
  · intro rule hm
    obtain ⟨rule', -, hc⟩ := Result.mapM_ok hredirects rule hm
    exact compileRedirect_ok hc
  · intro hne
    simpa [hne] using hhotlink

/-! ## What fires -/

/-- What answers a request with a `Location`. -/
inductive Action where
  | acl (rule : AclRuleSpec)
  | forceHttps
  | redirectRule (rule : RedirectRuleSpec)
  | hotlink
  deriving DecidableEq

def RequestPolicy.firingPostAcl (p : RequestPolicy) (request : RequestView) (host scheme : Text) :
    Option Action :=
  if p.spec.forceHttps = true ∧ scheme = ascii "http" then some .forceHttps
  else
    match p.redirects.find? fun rule => rule.fits request.target host with
    | some rule => some (.redirectRule rule)
    | none => if (p.evaluateHotlink request).any (·.location ≠ []) then some .hotlink else none

/-- The action that answers the request, `none` when something else does or nothing. -/
def RequestPolicy.firing (re2 : Re2) (lib : AddressText) (p : RequestPolicy) (request : RequestView)
    (clientIp host scheme : Text) (now : ℕ) : Option Action :=
  match p.evaluateFirst re2 lib request clientIp host with
  | .ok none =>
    match (p.rateLimiter.check clientIp now).2 with
    | some _ => none
    | none =>
      match p.aclRules.find? (ruleMatches re2 lib request clientIp host) with
      | none => p.firingPostAcl request host scheme
      | some rule =>
        match rule.spec.action with
        | .allow => p.firingPostAcl request host scheme
        | .redirect => some (.acl rule.spec)
        | .deny => none
        | .returnStatus => none
  | _ => none

def Action.location (p : RequestPolicy) (host target : Text) : Action → Text
  | .acl rule => rule.redirectLocation
  | .forceHttps => ascii "https://" ++ p.spec.httpsAuthority host ++ target
  | .redirectRule rule => rule.location target
  | .hotlink => p.spec.hotlink.redirectLocation

/-- The `Location` of the answer, empty when there is none. -/
def answerLocation (answer : Except Text (Option PolicyDecision)) : Text :=
  match answer with
  | .ok (some decision) => decision.location
  | _ => []

theorem evaluateAcl_eq (request : RequestView) (clientIp host : Text)
    (rules : List CompiledAclRule) : evaluateAcl re2 lib request clientIp host rules =
      match rules.find? (ruleMatches re2 lib request clientIp host) with
      | none => .ok none
      | some rule => aclDecision rule.spec := by
  induction rules with
  | nil => rfl
  | cons rule rules ih =>
    simp only [evaluateAcl, List.find?_cons]
    cases ruleMatches re2 lib request clientIp host rule with
    | true => rfl
    | false => exact ih

theorem aclDecision_redirect {rule : AclRuleSpec} (h : checkAclRule rule = .ok ())
    (haction : rule.action = .redirect) :
    validRedirectDestination rule.redirectLocation = true ∧
      aclDecision rule = .ok (some ⟨rule.status, [], rule.redirectLocation, 0⟩) := by
  unfold checkAclRule at h
  split at h
  · cases h
  · split at h
    · rename_i hvalid
      simp only [Bool.and_eq_true, validRedirectStatus, Bool.or_eq_true, beq_iff_eq] at hvalid
      refine ⟨hvalid.2, ?_⟩
      have hstatus : ¬ (rule.status < 300 ∨ 599 < rule.status) := by omega
      simp [aclDecision, haction, checkedStatus, hstatus, Except.map]
    · cases h

/-- A rule that blocks answers without a `Location`. -/
theorem aclDecision_blocks {rule : AclRuleSpec} (h : checkAclRule rule = .ok ())
    (haction : rule.action = .deny ∨ rule.action = .returnStatus) :
    ∃ decision, aclDecision rule = .ok (some decision) ∧ decision.location = [] := by
  unfold checkAclRule at h
  split at h
  · cases h
  · rcases haction with haction | haction
    all_goals
      simp only [haction, reduceCtorEq, if_false, ne_eq, not_false_eq_true, true_and] at h
      split at h
      · cases h
      · rename_i hs
        have hstatus : ¬ (rule.status < 300 ∨ 599 < rule.status) := by omega
        exact ⟨_, by simp [aclDecision, haction, checkedStatus, hstatus, Except.map]; rfl, rfl⟩

theorem location_evaluateFirst {p : RequestPolicy} (hp : p.Compiled) (request : RequestView)
    (clientIp host : Text) :
    answerLocation (p.evaluateFirst re2 lib request clientIp host) = [] := by
  unfold RequestPolicy.evaluateFirst
  simp only
  split
  · rfl
  · split
    · rfl
    · rw [evaluateAcl_eq]
      split
      · rfl
      · rename_i rule hfind
        have hm := List.mem_of_find?_eq_some hfind
        obtain ⟨decision, hdecision, hlocation⟩ :=
          aclDecision_blocks (hp.acl rule (by simp [hm])) (.inl (hp.denies rule hm))
        rw [hdecision]
        exact hlocation

theorem location_postAcl (p : RequestPolicy) (request : RequestView) (host scheme : Text) :
    answerLocation (.ok (p.evaluatePostAcl request host scheme)) =
      ((p.firingPostAcl request host scheme).map (Action.location p host request.target)).getD [] := by
  unfold RequestPolicy.evaluatePostAcl RequestPolicy.firingPostAcl
  split
  · rfl
  · unfold evaluateRedirects
    cases p.redirects.find? fun rule => rule.fits request.target host with
    | some rule => rfl
    | none =>
      change answerLocation (.ok (p.evaluateHotlink request)) = _
      unfold RequestPolicy.evaluateHotlink
      split
      · rfl
      · split
        · rfl
        · split
          · rename_i hne
            simp [answerLocation, Action.location, hne]
          · rfl

/-- The answer has the location of the action that fires, and none when nothing does. -/
theorem location_evaluate {p : RequestPolicy} (hp : p.Compiled) (request : RequestView)
    (clientIp host scheme : Text) (now : ℕ) :
    answerLocation (p.evaluate re2 lib request clientIp host scheme now).2 =
      ((p.firing re2 lib request clientIp host scheme now).map
        (Action.location p host request.target)).getD [] := by
  have hfirst : answerLocation (p.evaluateFirst re2 lib request clientIp host) = [] :=
    location_evaluateFirst hp request clientIp host
  unfold RequestPolicy.evaluate RequestPolicy.firing
  split
  · rename_i e he; simp [he, answerLocation]
  · rename_i d hd; rw [hd] at hfirst; simpa [hd] using hfirst
  · rename_i hnone
    simp only [hnone]
    cases (p.rateLimiter.check clientIp now).2 with
    | some seconds => rfl
    | none =>
      simp only [RequestPolicy.evaluateRest, evaluateAcl_eq]
      cases hfind : p.aclRules.find? (ruleMatches re2 lib request clientIp host) with
      | none => exact location_postAcl p request host scheme
      | some rule =>
        have hcheck := hp.acl rule (by simp [List.mem_of_find?_eq_some hfind])
        cases haction : rule.spec.action with
        | allow =>
          simp only [aclDecision, haction]
          exact location_postAcl p request host scheme
        | redirect =>
          simp only [(aclDecision_redirect hcheck haction).2, haction]
          rfl
        | deny =>
          obtain ⟨decision, hdecision, hlocation⟩ := aclDecision_blocks hcheck (.inl haction)
          simp only [hdecision, haction]
          exact hlocation
        | returnStatus =>
          obtain ⟨decision, hdecision, hlocation⟩ := aclDecision_blocks hcheck (.inr haction)
          simp only [hdecision, haction]
          exact hlocation

/-! ## The text of a location -/

theorem query_not_mem_path (target : Text) : (63 : UInt8) ∉ (splitTarget target).1 := by
  unfold splitTarget
  cases h : cut 63 target with
  | none => exact cut_none_not_mem h
  | some p => exact cut_some_not_mem (l := p.1) h

/-- The path without a slash at its start. -/
def stripSlash (path : Text) : Text := if path.head? = some 47 then path.tail else path

theorem appendPath_eq {destination path : Text} (hd : destination ≠ []) (hp : path ≠ []) :
    appendPath destination path =
      destination ++ ((if destination.getLast? = some 47 then [] else [47]) ++ stripSlash path) := by
  unfold appendPath stripSlash
  rw [if_neg hp]
  by_cases hlast : destination.getLast? = some 47
  · by_cases hhead : path.head? = some 47
    · rw [if_pos ⟨hlast, hhead⟩, if_pos hlast, if_pos hhead]
      obtain ⟨front, rfl⟩ := List.getLast?_eq_some_iff.mp hlast
      cases path with
      | nil => exact absurd rfl hp
      | cons b path =>
        simp only [List.head?_cons, Option.some.injEq] at hhead
        subst hhead
        simp
    · simp [hlast, hhead]
  · by_cases hhead : path.head? = some 47
    · rw [if_neg (by simp [hlast]), if_neg (by simp [hhead]), if_neg hlast, if_pos hhead]
      cases path with
      | nil => exact absurd rfl hp
      | cons b path =>
        simp only [List.head?_cons, Option.some.injEq] at hhead
        subst hhead
        rfl
    · simp [hlast, hhead, hd]

namespace RedirectRuleSpec

variable (rule : RedirectRuleSpec) (target : Text)

/-- The part of the path of the request that goes into the location. -/
def keptPath : Text := if rule.preservePath then rule.preserved (splitTarget target).1 else []

/-- What follows the destination, up to the query. -/
def tail : Text :=
  if rule.keptPath target = [] then []
  else (if rule.destination.getLast? = some 47 then [] else [47]) ++ stripSlash (rule.keptPath target)

theorem query_not_mem_keptPath : (63 : UInt8) ∉ rule.keptPath target := by
  unfold keptPath preserved
  split
  · split
    · exact query_not_mem_path target
    · exact fun h => query_not_mem_path target (List.mem_of_mem_drop h)
  · simp

theorem query_not_mem_tail : (63 : UInt8) ∉ rule.tail target := by
  have hkept := rule.query_not_mem_keptPath target
  unfold tail stripSlash
  split
  · simp
  · have : (63 : UInt8) ∉ (if (rule.keptPath target).head? = some 47 then (rule.keptPath target).tail
        else rule.keptPath target) := by
      split
      · exact fun h => hkept (List.mem_of_mem_tail h)
      · exact hkept
    split
    · simpa using this
    · simpa using this

/-- The location is the destination, what is kept of the path, and the query behind a `?`, or behind
an `&` when the destination has a query of its own. -/
theorem location_eq (hd : rule.destination ≠ []) : ∃ query,
    rule.location target = rule.destination ++ (rule.tail target ++ query) ∧
    (query.head? = none ∨ query.head? = some 63 ∨ 63 ∈ rule.destination) := by
  have hpath : (if rule.preservePath then
      appendPath rule.destination (rule.preserved (splitTarget target).1) else rule.destination) =
      rule.destination ++ rule.tail target := by
    unfold tail keptPath
    cases rule.preservePath with
    | false => simp
    | true =>
      simp only [if_true]
      split
      · rename_i hnil; simp [hnil, appendPath]
      · rename_i hne; exact appendPath_eq hd hne
  unfold location
  simp only [hpath]
  split
  · refine ⟨_, by rw [appendQuery, List.append_assoc, List.append_assoc], ?_⟩
    by_cases hq : 63 ∈ rule.destination
    · exact .inr (.inr hq)
    · have : 63 ∉ rule.destination ++ rule.tail target := by
        simp [hq, rule.query_not_mem_tail target]
      simp [this]
  · exact ⟨[], by simp, .inl rfl⟩

/-- After a scheme or two slashes: the authority is that of the destination. Only when the destination
ends there, it is the first segment of the path that is kept. -/
theorem segment_location {f r : Text} (hlast : f.getLast? = some 47) (hfront : 63 ∉ f)
    (hd : rule.destination = f ++ r) : ∃ rest, rule.location target = f ++ rest ∧
      segment rest = if r = [] then segment (stripSlash (rule.keptPath target)) else segment r := by
  have hne : rule.destination ≠ [] := by
    rintro h
    rw [h] at hd
    have := (List.append_eq_nil_iff.mp hd.symm).1
    simp [this] at hlast
  obtain ⟨query, hlocation, hquery⟩ := rule.location_eq target hne
  refine ⟨r ++ (rule.tail target ++ query), by rw [hlocation, hd, List.append_assoc], ?_⟩
  by_cases hr : r = []
  · subst hr
    rw [if_pos rfl]
    have hopen : ∀ b ∈ query.head?, isDelimiter b = true := by
      intro b hb
      rw [Option.mem_def] at hb
      rcases hquery with h | h | h
      · rw [h] at hb; cases hb
      · rw [h] at hb; cases hb; rfl
      · rw [hd, List.append_nil] at h; exact absurd h hfront
    rw [List.nil_append, Reference.segment_append_opened hopen]
    unfold tail
    split
    · rename_i hnil; simp [hnil, stripSlash]
    · rw [hd, List.append_nil, if_pos hlast, List.nil_append]
  · rw [if_neg hr]
    have hlast_eq : rule.destination.getLast? = r.getLast? := by
      rw [hd, List.getLast?_append]
      cases h : r.getLast? with
      | none => exact absurd (List.getLast?_eq_none_iff.mp h) hr
      | some b => rfl
    by_cases hq : 63 ∈ r
    · exact Reference.segment_append_closed ⟨63, hq, rfl⟩ _
    · have hquery : query.head? = none ∨ query.head? = some 63 := by
        rcases hquery with h | h | h
        · exact .inl h
        · exact .inr h
        · rw [hd, List.mem_append] at h
          rcases h with h | h
          · exact absurd h hfront
          · exact absurd h hq
      have hopen : ∀ b ∈ query.head?, isDelimiter b = true := by
        intro b hb
        rw [Option.mem_def] at hb
        rcases hquery with h | h
        · rw [h] at hb; cases hb
        · rw [h] at hb; cases hb; rfl
      by_cases hslash : r.getLast? = some 47
      · exact Reference.segment_append_closed ⟨47, List.mem_of_getLast? hslash, rfl⟩ _
      · refine Reference.segment_append_opened ?_ _
        unfold tail
        rw [hlast_eq, if_neg hslash]
        split
        · exact hopen
        · intro b hb; simp at hb; subst hb; rfl

end RedirectRuleSpec

/-! ## Where a location leads -/

/-- `valid_reverse_proxy_target` of the dispatcher. -/
def validReverseProxyTarget (request : RequestView) : Bool :=
  if request.target = [] then false
  else if request.target = ascii "*" then request.method == ascii "OPTIONS"
  else request.target.head? == some 47

/-- A request that the dispatcher lets through and that the action answers, at any state of the rate
limiter. -/
structure Redirected (re2 : Re2) (lib : AddressText) (p : RequestPolicy) (host scheme : Text)
    (a : Action) where
  request : RequestView
  clientIp : Text
  rateLimiter : RateLimiter
  now : ℕ
  admitted : validReverseProxyTarget request = true
  fires : RequestPolicy.firing re2 lib { p with rateLimiter := rateLimiter } request clientIp host
    scheme now = some a

/-- The `Location` of the answer. -/
def Redirected.location {p : RequestPolicy} {host scheme : Text} {a : Action}
    (r : Redirected re2 lib p host scheme a) : Text :=
  answerLocation (RequestPolicy.evaluate re2 lib { p with rateLimiter := r.rateLimiter } r.request
    r.clientIp host scheme r.now).2

/-- A destination with a single slash stays a path, an absolute one keeps its authority. -/
def KeepsDestination (destination location : Text) : Prop :=
  (destination.head? = some 47 → isNetworkPath destination = false →
    isNetworkPath location = false) ∧
  ((Reference.scheme destination).isSome → authority location = authority destination)

def Action.Configured (p : RequestPolicy) (host : Text) (location : Text) : Action → Prop
  | .acl rule => KeepsDestination rule.redirectLocation location
  | .forceHttps =>
    ∀ base, resolve base location = ⟨ascii "https", some (p.spec.httpsAuthority host)⟩
  | .redirectRule rule => KeepsDestination rule.destination location
  | .hotlink => KeepsDestination p.spec.hotlink.redirectLocation location

/-- Two answers of one action lead to one origin, which is the configured one. -/
structure OriginKept (p : RequestPolicy) (host : Text) (a : Action) (location₁ location₂ : Text) :
    Prop where
  same : ∀ base, resolve base location₁ = resolve base location₂
  first : a.Configured p host location₁
  second : a.Configured p host location₂

/-- The first segment of the path that a rule keeps. -/
def RedirectRuleSpec.firstSegment (rule : RedirectRuleSpec) (target : Text) : Text :=
  segment (stripSlash (rule.keptPath target))

/-- The destination of the rule does not end where an authority starts, or what the requests bring
there is harmless. -/
def RedirectRuleSpec.Harmless (rule : RedirectRuleSpec) (target₁ target₂ : Text) : Prop :=
  (rule.destination = ascii "/" → isNetworkPath (rule.keptPath target₁) = false ∧
    isNetworkPath (rule.keptPath target₂) = false) ∧
  (rule.destination = ascii "http://" ∨ rule.destination = ascii "https://" →
    rule.firstSegment target₁ = [] ∧ rule.firstSegment target₂ = []) ∧
  (rule.destination = ascii "//" → rule.firstSegment target₁ = rule.firstSegment target₂)

instance (rule : RedirectRuleSpec) (target₁ target₂ : Text) :
    Decidable (rule.Harmless target₁ target₂) :=
  inferInstanceAs (Decidable (_ ∧ _ ∧ _))

def Action.Harmless (target₁ target₂ : Text) : Action → Prop
  | .acl _ => True
  | .forceHttps => target₁ ≠ ascii "*" ∧ target₂ ≠ ascii "*"
  | .redirectRule rule => rule.Harmless target₁ target₂
  | .hotlink => True

section Origins

variable {p : RequestPolicy} {host scheme : Text} {a : Action}

theorem Redirected.location_eq (hp : p.Compiled) (r : Redirected re2 lib p host scheme a) :
    r.location = a.location p host r.request.target := by
  have hp' : RequestPolicy.Compiled { p with rateLimiter := r.rateLimiter } :=
    ⟨hp.denies, hp.acl, hp.destination, hp.hotlink⟩
  rw [Redirected.location, location_evaluate hp', r.fires]
  cases a <;> rfl

theorem Redirected.target_cases (r : Redirected re2 lib p host scheme a) :
    r.request.target = ascii "*" ∨ ∃ rest, r.request.target = 47 :: rest := by
  have h := r.admitted
  unfold validReverseProxyTarget at h
  split at h
  · cases h
  · split at h
    · rename_i hstar; exact .inl hstar
    · cases ht : r.request.target with
      | nil => simp [ht] at h
      | cons b rest => simp [ht] at h; exact .inr ⟨rest, by rw [h]⟩

/-- A location that does not depend on the request. -/
theorem originKept_fixed {destination : Text} (h : ∀ location, a.Configured p host location ↔
    KeepsDestination destination location) : OriginKept p host a destination destination :=
  ⟨fun _ => rfl, (h _).mpr ⟨fun _ h => h, fun _ => rfl⟩, (h _).mpr ⟨fun _ h => h, fun _ => rfl⟩⟩

/-! ### Force-HTTPS -/

theorem decimal_digits (n : ℕ) : ∀ b ∈ decimal n, isDigit b = true := by
  intro b hb
  unfold decimal at hb
  split at hb
  · rw [List.mem_singleton.mp hb]; rfl
  · obtain ⟨d, hd, rfl⟩ := List.mem_map.mp hb
    have hlt := Nat.digits_lt_base (by decide) (List.mem_reverse.mp hd)
    have hall : ∀ d < 10, isDigit (UInt8.ofNat (48 + d)) = true := by decide
    exact hall d hlt

theorem hostByte_not_delimiter : ∀ n < 256, isHostByte (UInt8.ofNat n) = true →
    isDelimiter (UInt8.ofNat n) = false := by decide +kernel

theorem httpsAuthority_bytes (spec : SitePolicySpec) (hhost : ∀ b ∈ host, isHostByte b = true) :
    ∀ b ∈ spec.httpsAuthority host, isDelimiter b = false := by
  have hplain : ∀ b, isHostByte b = true → isDelimiter b = false := by
    intro b hb
    have := hostByte_not_delimiter b.toNat b.toNat_lt
    rw [UInt8.ofNat_toNat] at this
    exact this hb
  intro b hb
  unfold SitePolicySpec.httpsAuthority at hb
  rcases List.mem_append.mp hb with hb | hb
  · split at hb
    · simp only [List.mem_append, List.mem_singleton] at hb
      rcases hb with (rfl | hb) | rfl
      · rfl
      · exact hplain b (hhost b hb)
      · rfl
    · exact hplain b (hhost b hb)
  · split at hb
    · rcases List.mem_append.mp hb with hb | hb
      · rw [List.mem_singleton.mp hb]; rfl
      · exact hplain b (isHostByte_of_digit (decimal_digits _ b hb))
    · cases hb

theorem resolve_https (base : Origin) (rest : Text) :
    resolve base (ascii "https://" ++ rest) = ⟨ascii "https", some (segment rest)⟩ :=
  Reference.resolve_absolute (by decide : ascii "https" ≠ []) (by decide) base rest

/-- The target ends the authority when it is a path. -/
theorem forceHttps_configured (hhost : ∀ b ∈ host, isHostByte b = true)
    (r : Redirected re2 lib p host scheme .forceHttps) :
    Action.Configured p host (Action.location p host r.request.target .forceHttps) .forceHttps ↔
      r.request.target ≠ ascii "*" := by
  have hplain := httpsAuthority_bytes p.spec hhost
  simp only [Action.Configured, Action.location, List.append_assoc, resolve_https, Origin.mk.injEq,
    true_and, Option.some.injEq]
  rcases r.target_cases with htarget | ⟨rest, htarget⟩
  · rw [htarget]
    have hstar : ∀ b ∈ p.spec.httpsAuthority host ++ ascii "*", isDelimiter b = false := by
      intro b hb
      rcases List.mem_append.mp hb with hb | hb
      · exact hplain b hb
      · rw [List.mem_singleton.mp hb]; rfl
    rw [Reference.segment_of_plain hstar]
    exact iff_of_false (fun h => by simpa [ascii] using h ⟨[], none⟩) (by simp)
  · rw [htarget, Reference.segment_append_opened (by simp [isDelimiter]), Reference.segment_of_plain hplain]
    simp [ascii]

/-! ### Redirect rules -/

theorem destination_cases {d : Text} (h : validRedirectDestination d = true) :
    (∃ rest, d = 47 :: rest ∧ rest.head? ≠ some 47) ∨ (∃ rest, d = ascii "//" ++ rest) ∨
    (∃ rest, d = ascii "http://" ++ rest) ∨ ∃ rest, d = ascii "https://" ++ rest := by
  unfold validRedirectDestination at h
  split at h
  · cases h
  · simp only [Bool.or_eq_true, decide_eq_true_eq] at h
    rcases h with (⟨rest, rfl⟩ | ⟨rest, rfl⟩) | ⟨rest, rfl⟩
    · by_cases hr : rest.head? = some 47
      · cases rest with
        | nil => cases hr
        | cons b rest =>
          cases hr
          exact .inr (.inl ⟨rest, rfl⟩)
      · exact .inl ⟨rest, rfl, hr⟩
    · exact .inr (.inr (.inl ⟨rest, rfl⟩))
    · exact .inr (.inr (.inr ⟨rest, rfl⟩))

variable {rule : RedirectRuleSpec}

theorem isNetworkPath_cons (b : UInt8) (t : Text) :
    isNetworkPath (b :: t) = true ↔ b = 47 ∧ t.head? = some 47 := by
  cases t with
  | nil => simp [isNetworkPath, ascii]
  | cons c t =>
    rw [isNetworkPath, decide_eq_true_eq]
    constructor
    · rintro ⟨rest, h⟩
      cases h
      exact ⟨rfl, rfl⟩
    · rintro ⟨rfl, h⟩
      cases h
      exact ⟨t, rfl⟩

/-- The root as destination: two slashes at the start of the path stay there. -/
theorem isNetworkPath_root (hd : rule.destination = ascii "/") (target : Text) :
    isNetworkPath (rule.location target) = isNetworkPath (rule.keptPath target) := by
  obtain ⟨query, hlocation, hquery⟩ := rule.location_eq target (by rw [hd]; decide)
  have hquery : query.head? ≠ some 47 := by
    rcases hquery with h | h | h
    · simp [h]
    · simp [h]
    · rw [hd] at h; exact absurd h (by decide)
  rw [hlocation, hd, Bool.eq_iff_iff]
  change isNetworkPath (47 :: (rule.tail target ++ query)) = true ↔ _
  rw [isNetworkPath_cons, RedirectRuleSpec.tail, hd]
  cases hkept : rule.keptPath target with
  | nil => simp [hquery, isNetworkPath, ascii]
  | cons b kept =>
    rw [isNetworkPath_cons, stripSlash]
    by_cases hb : b = 47
    · cases kept with
      | nil => simp [hb, hquery, ascii]
      | cons c kept => simp [hb, ascii]
    · simp [hb, ascii]

theorem location_path {c : UInt8} {rest : Text} (hd : rule.destination = 47 :: c :: rest)
    (target : Text) : ∃ rest', rule.location target = 47 :: c :: rest' := by
  obtain ⟨query, hlocation, -⟩ := rule.location_eq target (by rw [hd]; simp)
  exact ⟨rest ++ (rule.tail target ++ query), by rw [hlocation, hd]; rfl⟩

/-- A destination that is a path. -/
theorem originKept_path {rest : Text} (hd : rule.destination = 47 :: rest)
    (hrest : rest.head? ≠ some 47) (target₁ target₂ : Text) :
    OriginKept p host (.redirectRule rule) (rule.location target₁) (rule.location target₂) ↔
      (rest = [] → isNetworkPath (rule.keptPath target₁) = false ∧
        isNetworkPath (rule.keptPath target₂) = false) := by
  have hlocation : ∀ target, ∃ rest', rule.location target = 47 :: rest' := by
    intro target
    obtain ⟨query, hlocation, -⟩ := rule.location_eq target (by rw [hd]; simp)
    exact ⟨_, by rw [hlocation, hd, List.cons_append]⟩
  have hnetwork : ∀ target, isNetworkPath (rule.location target) = true ↔
      rest = [] ∧ isNetworkPath (rule.keptPath target) = true := by
    intro target
    cases rest with
    | nil => simp [isNetworkPath_root hd]
    | cons c rest =>
      obtain ⟨rest', hr⟩ := location_path hd target
      rw [hr, isNetworkPath_cons]
      simpa using hrest
  have hresolve : ∀ target, isNetworkPath (rule.location target) = false → ∀ base,
      resolve base (rule.location target) = base := by
    intro target hpath base
    obtain ⟨rest', hr⟩ := hlocation target
    rw [hr] at hpath ⊢
    refine Reference.resolve_path (fun hslash => ?_) base
    rw [(isNetworkPath_cons 47 rest').mpr ⟨rfl, hslash⟩] at hpath
    cases hpath
  have hdestination : isNetworkPath rule.destination = false := by
    rw [← Bool.not_eq_true, hd, isNetworkPath_cons]
    simp [hrest]
  constructor
  · rintro ⟨-, hfirst, hsecond⟩ hnil
    have h₁ := hfirst.1 (by rw [hd]; rfl) hdestination
    have h₂ := hsecond.1 (by rw [hd]; rfl) hdestination
    rw [← Bool.not_eq_true, hnetwork] at h₁ h₂
    exact ⟨by simpa [hnil] using h₁, by simpa [hnil] using h₂⟩
  · intro h
    have hpath : ∀ target, target = target₁ ∨ target = target₂ →
        isNetworkPath (rule.location target) = false := by
      intro target ht
      rw [← Bool.not_eq_true, hnetwork]
      rintro ⟨hnil, hkept⟩
      obtain ⟨h₁, h₂⟩ := h hnil
      rcases ht with rfl | rfl
      · rw [h₁] at hkept; cases hkept
      · rw [h₂] at hkept; cases hkept
    have hscheme : Reference.scheme rule.destination = none := by
      rw [hd, Reference.scheme_slash]
    have h₁ := hpath target₁ (.inl rfl)
    have h₂ := hpath target₂ (.inr rfl)
    refine ⟨fun base => ?_, ⟨fun _ _ => h₁, by simp [hscheme]⟩, ⟨fun _ _ => h₂, by simp [hscheme]⟩⟩
    rw [hresolve _ h₁, hresolve _ h₂]

theorem originKept_network {r : Text} (hd : rule.destination = 47 :: 47 :: r)
    (target₁ target₂ : Text) :
    OriginKept p host (.redirectRule rule) (rule.location target₁) (rule.location target₂) ↔
      (r = [] → rule.firstSegment target₁ = rule.firstSegment target₂) := by
  have hlocation := fun target => rule.segment_location target (f := [47, 47]) rfl (by decide) hd
  obtain ⟨rest₁, h₁, hs₁⟩ := hlocation target₁
  obtain ⟨rest₂, h₂, hs₂⟩ := hlocation target₂
  have hscheme : Reference.scheme rule.destination = none := by
    rw [hd, Reference.scheme_slash]
  have hpath : isNetworkPath rule.destination = true := by
    rw [hd, isNetworkPath_cons]
    exact ⟨rfl, rfl⟩
  have hkeeps : ∀ location, KeepsDestination rule.destination location := by
    intro location
    exact ⟨by simp [hpath], by simp [hscheme]⟩
  have hresolve : (∀ base, resolve base (rule.location target₁) =
      resolve base (rule.location target₂)) ↔ segment rest₁ = segment rest₂ := by
    rw [h₁, h₂]
    simp only [List.cons_append, List.nil_append, Reference.resolve_network, Origin.mk.injEq,
      true_and, Option.some.injEq]
    exact ⟨fun h => h ⟨[], none⟩, fun h _ => h⟩
  constructor
  · rintro ⟨hsame, -, -⟩ hr
    have := hresolve.mp hsame
    rwa [hs₁, hs₂, if_pos hr, if_pos hr] at this
  · intro h
    refine ⟨hresolve.mpr ?_, hkeeps _, hkeeps _⟩
    rw [hs₁, hs₂]
    by_cases hr : r = []
    · rw [if_pos hr, if_pos hr]; exact h hr
    · rw [if_neg hr, if_neg hr]

theorem originKept_absolute {name r : Text} (hne : name ≠ [])
    (hname : name.all Reference.isSchemeByte = true)
    (hd : rule.destination = name ++ 58 :: 47 :: 47 :: r) (target₁ target₂ : Text) :
    OriginKept p host (.redirectRule rule) (rule.location target₁) (rule.location target₂) ↔
      (r = [] → rule.firstSegment target₁ = [] ∧ rule.firstSegment target₂ = []) := by
  have hquery : (63 : UInt8) ∉ name ++ [58, 47, 47] := by
    intro h
    rcases List.mem_append.mp h with h | h
    · exact absurd (List.all_eq_true.mp hname 63 h) (by decide)
    · exact absurd h (by decide)
  have hlocation : ∀ target, ∃ rest, rule.location target = name ++ 58 :: 47 :: 47 :: rest ∧
      segment rest = if r = [] then rule.firstSegment target else segment r := by
    intro target
    obtain ⟨rest, hrest, hs⟩ := rule.segment_location target (f := name ++ [58, 47, 47])
      (by simp) hquery (show rule.destination = (name ++ [58, 47, 47]) ++ r by rw [hd]; simp)
    exact ⟨rest, by rw [hrest]; simp, hs⟩
  have hscheme : (Reference.scheme rule.destination).isSome := by
    rw [hd, Reference.scheme_colon hne hname]; rfl
  have hhead : rule.destination.head? ≠ some 47 := by
    rw [hd]
    cases name with
    | nil => exact absurd rfl hne
    | cons b name =>
      intro h
      cases h
      exact absurd hname (by simp [Reference.isSchemeByte, isDelimiter])
  have hkeeps : ∀ target, KeepsDestination rule.destination (rule.location target) ↔
      (r = [] → rule.firstSegment target = []) := by
    intro target
    obtain ⟨rest, hr, hs⟩ := hlocation target
    simp only [KeepsDestination, hhead, hscheme, false_implies, true_and, true_implies]
    rw [hr, hd, Reference.authority_absolute hne hname, Reference.authority_absolute hne hname, hs,
      Option.some.injEq]
    by_cases hnil : r = []
    · simp [hnil, Reference.segment]
    · simp [hnil]
  constructor
  · rintro ⟨-, hfirst, hsecond⟩ hr
    exact ⟨(hkeeps target₁).mp hfirst hr, (hkeeps target₂).mp hsecond hr⟩
  · intro h
    refine ⟨fun base => ?_, (hkeeps target₁).mpr fun hr => (h hr).1,
      (hkeeps target₂).mpr fun hr => (h hr).2⟩
    obtain ⟨rest₁, h₁, hs₁⟩ := hlocation target₁
    obtain ⟨rest₂, h₂, hs₂⟩ := hlocation target₂
    rw [h₁, h₂, Reference.resolve_absolute hne hname, Reference.resolve_absolute hne hname, hs₁, hs₂]
    by_cases hr : r = []
    · rw [if_pos hr, if_pos hr, (h hr).1, (h hr).2]
    · rw [if_neg hr, if_neg hr]

theorem redirectRule_originKept (hvalid : validRedirectDestination rule.destination = true)
    (target₁ target₂ : Text) :
    OriginKept p host (.redirectRule rule) (rule.location target₁) (rule.location target₂) ↔
      rule.Harmless target₁ target₂ := by
  unfold RedirectRuleSpec.Harmless
  rcases destination_cases hvalid with ⟨r, hd, hr⟩ | ⟨r, hd⟩ | ⟨r, hd⟩ | ⟨r, hd⟩
  · rw [originKept_path hd hr, hd]
    have hne : r ≠ [47] := by
      rintro rfl
      exact hr rfl
    simp [hne, ascii]
  · rw [originKept_network hd, hd]
    simp [ascii]
  · rw [originKept_absolute (by decide : ascii "http" ≠ []) (by decide) hd, hd]
    simp [ascii]
  · rw [originKept_absolute (by decide : ascii "https" ≠ []) (by decide) hd, hd]
    simp [ascii]

/-- What has fired: a rule of the ACL, or what comes after it. -/
theorem firing_cases {request : RequestView} {clientIp : Text} {now : ℕ}
    (h : p.firing re2 lib request clientIp host scheme now = some a) :
    (∃ rule ∈ p.aclRules, rule.spec.action = .redirect ∧ a = .acl rule.spec) ∨
      p.firingPostAcl request host scheme = some a := by
  unfold RequestPolicy.firing at h
  split at h
  · split at h
    · cases h
    · split at h
      · exact .inr h
      · rename_i rule hfind
        split at h
        · exact .inr h
        · rename_i haction
          cases h
          exact .inl ⟨rule, List.mem_of_find?_eq_some hfind, haction, rfl⟩
        · cases h
        · cases h
  · cases h

theorem firingPostAcl_cases {request : RequestView}
    (h : p.firingPostAcl request host scheme = some a) :
    a = .forceHttps ∨ (∃ rule ∈ p.redirects, a = .redirectRule rule) ∨
      (a = .hotlink ∧ p.spec.hotlink.redirectLocation ≠ []) := by
  unfold RequestPolicy.firingPostAcl at h
  split at h
  · cases h
    exact .inl rfl
  · split at h
    · rename_i rule hfind
      cases h
      exact .inr (.inl ⟨rule, List.mem_of_find?_eq_some hfind, rfl⟩)
    · split at h
      · rename_i hlocation
        cases h
        refine .inr (.inr ⟨rfl, fun hnil => ?_⟩)
        unfold RequestPolicy.evaluateHotlink at hlocation
        split at hlocation
        · cases hlocation
        · split at hlocation
          · cases hlocation
          · simp [hnil] at hlocation
      · cases h

theorem mem_of_firing {request : RequestView} {clientIp : Text} {now : ℕ}
    (h : p.firing re2 lib request clientIp host scheme now = some (.redirectRule rule)) :
    rule ∈ p.redirects := by
  rcases firing_cases h with ⟨_, _, _, h⟩ | h
  · cases h
  · rcases firingPostAcl_cases h with h | ⟨rule', hm, h⟩ | ⟨h, -⟩
    · cases h
    · cases h; exact hm
    · cases h

/-- An action fires exactly when the answer has a `Location`. -/
theorem firing_isSome_iff (hp : p.Compiled) (request : RequestView) (clientIp : Text) (now : ℕ) :
    (p.firing re2 lib request clientIp host scheme now).isSome ↔
      answerLocation (p.evaluate re2 lib request clientIp host scheme now).2 ≠ [] := by
  rw [location_evaluate hp]
  cases hfiring : p.firing re2 lib request clientIp host scheme now with
  | none => simp
  | some a =>
    simp only [Option.isSome_some, Option.map_some, Option.getD_some, true_iff]
    have hvalid : ∀ d, validRedirectDestination d = true → d ≠ [] := by
      rintro d hd rfl
      cases hd
    rcases firing_cases hfiring with ⟨rule, hm, haction, rfl⟩ | hpost
    · exact hvalid _ (aclDecision_redirect (hp.acl rule (by simp [hm])) haction).1
    · rcases firingPostAcl_cases hpost with rfl | ⟨rule, hm, rfl⟩ | ⟨rfl, hne⟩
      · simp [Action.location, ascii]
      · have hne := hvalid _ (hp.destination rule hm)
        obtain ⟨query, hlocation, -⟩ := rule.location_eq request.target hne
        simp [Action.location, hlocation, hne]
      · exact hne

/-- The requests cannot choose the origin exactly when what they bring is harmless. -/
theorem originKept_iff (re2 : Re2) (lib : AddressText) (spec : SitePolicySpec) (domains : List Text)
    (p : RequestPolicy) (hp : RequestPolicy.make re2 lib spec domains = .ok p) (name host : Text)
    (hhost : normalizeAuthority name = some host) (scheme : Text) (a : Action)
    (r₁ r₂ : Redirected re2 lib p host scheme a) :
    OriginKept p host a r₁.location r₂.location ↔
      a.Harmless r₁.request.target r₂.request.target := by
  have hcompiled := compiled_make hp
  rw [r₁.location_eq hcompiled, r₂.location_eq hcompiled]
  cases a with
  | acl rule => exact iff_of_true (originKept_fixed fun _ => Iff.rfl) trivial
  | hotlink => exact iff_of_true (originKept_fixed fun _ => Iff.rfl) trivial
  | redirectRule rule =>
    have hm : rule ∈ p.redirects :=
      mem_of_firing (p := { p with rateLimiter := r₁.rateLimiter }) r₁.fires
    exact redirectRule_originKept (hcompiled.destination rule hm) _ _
  | forceHttps =>
    have hbytes := normalize_bytes hhost
    have h₁ := forceHttps_configured hbytes r₁
    have h₂ := forceHttps_configured hbytes r₂
    constructor
    · rintro ⟨-, hfirst, hsecond⟩
      exact ⟨h₁.mp hfirst, h₂.mp hsecond⟩
    · rintro ⟨ht₁, ht₂⟩
      have hfirst := h₁.mpr ht₁
      have hsecond := h₂.mpr ht₂
      exact ⟨fun base => (hfirst base).trans (hsecond base).symm, hfirst, hsecond⟩

end Origins

end Policy

/-! ## A path with two slashes -/

namespace Moved

/-- Everything under `/old` moves to the destination. -/
def rule (destination : Text) : RedirectRuleSpec where
  name := ascii "moved"
  sourcePath := ascii "/old"
  matchKind := .pathPrefix
  destination := destination
  preservePath := true

def spec (destination : Text) : SitePolicySpec := { redirects := [rule destination] }

def policy (destination : Text) : RequestPolicy where
  spec := spec destination
  rateLimiter := ⟨⟨false, 10, 100, 60⟩, ∅, [], 0⟩
  preRateLimitAclRules := []
  aclRules := []
  redirects := [rule destination]
  hotlinkExtensions := []
  hotlinkHosts := [ascii "a.test"]

def noRegex : Re2 := ⟨fun _ _ => false, fun _ _ _ => false⟩

def request (target : Text) : RequestView := ⟨ascii "GET", target, [], [], fun _ => []⟩

def toNew (target : Text) (h : target = ascii "/old/a" ∨ target = ascii "/old//b.test?q=1") :
    Redirected noRegex .dotted (policy (ascii "https://new.test/")) (ascii "a.test") (ascii "http")
      (.redirectRule (rule (ascii "https://new.test/"))) where
  request := request target
  clientIp := ascii "192.0.2.1"
  rateLimiter := (policy []).rateLimiter
  now := 0
  admitted := by rcases h with rfl | rfl <;> decide
  fires := by rcases h with rfl | rfl <;> decide

def toRoot (target : Text) (h : target = ascii "/old/a" ∨ target = ascii "/old//b.test") :
    Redirected noRegex .dotted (policy (ascii "/")) (ascii "a.test") (ascii "http")
      (.redirectRule (rule (ascii "/"))) where
  request := request target
  clientIp := ascii "192.0.2.1"
  rateLimiter := (policy []).rateLimiter
  now := 0
  admitted := by rcases h with rfl | rfl <;> decide
  fires := by rcases h with rfl | rfl <;> decide

end Moved

theorem originKept_absoluteDestination :
    OriginKept (Moved.policy (ascii "https://new.test/")) (ascii "a.test")
      (.redirectRule (Moved.rule (ascii "https://new.test/")))
      (Moved.toNew (ascii "/old/a") (.inl rfl)).location
      (Moved.toNew (ascii "/old//b.test?q=1") (.inr rfl)).location :=
  (originKept_iff Moved.noRegex .dotted (Moved.spec (ascii "https://new.test/")) [ascii "a.test"]
    (Moved.policy (ascii "https://new.test/")) (by rfl) (ascii "A.test:80") (ascii "a.test")
    (by decide) (ascii "http") _ (Moved.toNew _ (.inl rfl)) (Moved.toNew _ (.inr rfl))).mpr
    (by change RedirectRuleSpec.Harmless _ _ _; decide)

/-- With the root as destination `/old//b.test` is sent to the host `b.test`. -/
theorem network_path_redirect :
    RequestPolicy.make Moved.noRegex .dotted (Moved.spec (ascii "/")) [ascii "a.test"] =
      .ok (Moved.policy (ascii "/")) ∧
    normalizeAuthority (ascii "a.test") = some (ascii "a.test") ∧
    (Moved.toRoot (ascii "/old/a") (.inl rfl)).location = ascii "/a" ∧
    (Moved.toRoot (ascii "/old//b.test") (.inr rfl)).location = ascii "//b.test" ∧
    isNetworkPath (ascii "//b.test") = true ∧
    ¬ OriginKept (Moved.policy (ascii "/")) (ascii "a.test") (.redirectRule (Moved.rule (ascii "/")))
      (Moved.toRoot (ascii "/old/a") (.inl rfl)).location
      (Moved.toRoot (ascii "/old//b.test") (.inr rfl)).location := by
  have hlocation : (Moved.toRoot (ascii "/old//b.test") (.inr rfl)).location = ascii "//b.test" := by
    decide
  refine ⟨by rfl, by decide, by decide, hlocation, by decide, ?_⟩
  rintro ⟨-, -, hsecond⟩
  rw [hlocation] at hsecond
  have := hsecond.1 (by decide) (by decide)
  exact absurd this (by decide)

end Policy
end WebServer
