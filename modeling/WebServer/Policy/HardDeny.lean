import Mathlib.Data.List.Find
import WebServer.Policy.Redirects

/-!
# WebServer.Policy.HardDeny

The ACL rules that deny addresses, and nothing else, come before the rate limit.

`compile_acl` splits the list of rules in two. Seen from the list as it was written, the first rule
that denies the address of the client decides, and where there is none the other rules decide as if
the rules that deny addresses were not there.

* `AclRuleSpec.hardDeny`, `AclRuleSpec.deniesIp`: these rules, and when one of them matches a client.
* `compileAcl_ok`: what the two compiled lists have to do with the written one.
* `hardDeny_decides`: the result, for every state of the rate limiter.
-/

namespace WebServer
namespace Policy

open Http
open Network (AddressText)

/-! ## Written rules -/

def AclConditionSpec.onAddress (condition : AclConditionSpec) : Bool :=
  condition.field == .ip &&
    (condition.operation == .equal || condition.operation == .inCidr ||
      condition.operation == .notInCidr)

def AclRuleSpec.hardDeny (rule : AclRuleSpec) : Bool :=
  rule.enabled && rule.action == .deny && rule.conditions.all AclConditionSpec.onAddress

/-- The client is in the range that the condition names; `none` if one of the two is no address. -/
def AclConditionSpec.holdsClient (lib : AddressText) (condition : AclConditionSpec) (clientIp : Text) :
    Option Bool := do
  let address ← lib.makeAddress clientIp
  let range ← (parseAclCidr lib condition.value).toOption
  return Network.contains range address

def AclConditionSpec.matchesIp (lib : AddressText) (condition : AclConditionSpec) (clientIp : Text) :
    Bool :=
  match condition.operation with
  | .inCidr => condition.holdsClient lib clientIp == some true
  | .notInCidr => condition.holdsClient lib clientIp == some false
  | _ =>
    if condition.caseSensitive then clientIp == condition.value
    else asciiLower clientIp == asciiLower condition.value

/-- The rule denies the client, by its address alone. -/
def AclRuleSpec.deniesIp (lib : AddressText) (clientIp : Text) (rule : AclRuleSpec) : Bool :=
  rule.hardDeny && rule.conditions.all (·.matchesIp lib clientIp)

/-! ## Compiled rules -/

section Compiled

variable {re2 : Re2} {lib : AddressText}

theorem compileCondition_ok {condition : AclConditionSpec} {c : CompiledCondition}
    (h : compileCondition re2 lib condition = .ok c) :
    c.spec = condition ∧ ((condition.operation = .inCidr ∨ condition.operation = .notInCidr) →
      c.cidr = (parseAclCidr lib condition.value).toOption) := by
  unfold compileCondition at h
  split_ifs at h with _ _ hregex _ hcidr
  · cases h
    refine ⟨rfl, fun hoperation => ?_⟩
    rw [hregex] at hoperation
    rcases hoperation with hoperation | hoperation <;> cases hoperation
  · cases hparse : parseAclCidr lib condition.value with
    | error e => rw [hparse] at h; cases h
    | ok range =>
      rw [hparse] at h
      cases h
      exact ⟨rfl, fun _ => rfl⟩
  · cases h
    exact ⟨rfl, fun hoperation => absurd hoperation hcidr⟩

theorem matchCondition_onAddress {condition : AclConditionSpec} {c : CompiledCondition}
    (h : compileCondition re2 lib condition = .ok c) (haddress : condition.onAddress = true)
    (clientIp : Text) :
    matchCondition re2 lib c clientIp = condition.matchesIp lib clientIp := by
  obtain ⟨rfl, hcidr⟩ := compileCondition_ok h
  simp only [AclConditionSpec.onAddress, Bool.and_eq_true, Bool.or_eq_true, beq_iff_eq] at haddress
  rcases haddress.2 with (hoperation | hoperation) | hoperation
  · simp only [matchCondition, AclConditionSpec.matchesIp, hoperation, matchText]
    split <;> rfl
  · have hrange : inRange lib c clientIp = c.spec.holdsClient lib clientIp := by
      rw [inRange, hcidr (.inl hoperation)]
      rfl
    simp only [matchCondition, AclConditionSpec.matchesIp, hoperation, hrange]
    cases c.spec.holdsClient lib clientIp <;> rfl
  · have hrange : inRange lib c clientIp = c.spec.holdsClient lib clientIp := by
      rw [inRange, hcidr (.inr hoperation)]
      rfl
    simp only [matchCondition, AclConditionSpec.matchesIp, hoperation, hrange]
    cases c.spec.holdsClient lib clientIp <;> rfl

theorem compileAclRule_conditions {rule : AclRuleSpec} {c : CompiledAclRule}
    (h : compileAclRule re2 lib rule = .ok c) :
    c.spec = rule ∧ rule.conditions.mapM (compileCondition re2 lib) = .ok c.conditions := by
  unfold compileAclRule at h
  obtain ⟨-, -, h⟩ := Result.bind_ok h
  obtain ⟨conditions, hconditions, h⟩ := Result.bind_ok h
  cases h
  exact ⟨rfl, hconditions⟩

/-- Whether a rule comes before the rate limit can be read off the written rule. -/
theorem isPreRateLimitIpDeny_eq {c : CompiledAclRule} (h : compileAclRule re2 lib c.spec = .ok c)
    (henabled : c.spec.enabled = true) : isPreRateLimitIpDeny c = c.spec.hardDeny := by
  have hspecs := Result.mapM_ok_map (fun _ _ hc => (compileCondition_ok hc).1)
    (compileAclRule_conditions h).2
  simp only [isPreRateLimitIpDeny, AclRuleSpec.hardDeny, henabled, Bool.true_and]
  rw [← hspecs, List.all_map]
  rfl

theorem ruleMatches_hardDeny {c : CompiledAclRule} (h : compileAclRule re2 lib c.spec = .ok c)
    (hdeny : c.spec.hardDeny = true) (request : RequestView) (clientIp host : Text) :
    ruleMatches re2 lib request clientIp host c = c.spec.deniesIp lib clientIp := by
  have hconditions := (compileAclRule_conditions h).2
  have hspecs := Result.mapM_ok_map (fun _ _ hc => (compileCondition_ok hc).1) hconditions
  simp only [AclRuleSpec.deniesIp, hdeny, Bool.true_and, ruleMatches]
  simp only [AclRuleSpec.hardDeny, Bool.and_eq_true] at hdeny
  have haddress := hdeny.2
  rw [← hspecs, List.all_map] at haddress ⊢
  rw [Bool.eq_iff_iff, List.all_eq_true, List.all_eq_true]
  refine forall₂_congr fun condition hcondition => ?_
  obtain ⟨spec, hspec, hcompiled⟩ := Result.mapM_ok hconditions condition hcondition
  obtain rfl := (compileCondition_ok hcompiled).1
  have hon := List.all_eq_true.mp haddress condition hcondition
  have hfield : fieldValue request condition.spec clientIp host = clientIp := by
    simp only [Function.comp_apply, AclConditionSpec.onAddress, Bool.and_eq_true, beq_iff_eq] at hon
    simp only [fieldValue, hon.1]
  rw [hfield, matchCondition_onAddress hcompiled hon clientIp]
  rfl

/-- The compiled lists, in terms of the written one. -/
structure Split (re2 : Re2) (lib : AddressText) (rules : List AclRuleSpec)
    (compiled first rest : List CompiledAclRule) : Prop where
  length : rules.length ≤ 200
  specs : compiled.map (·.spec) = rules.filter (·.enabled)
  each : ∀ c ∈ compiled, compileAclRule re2 lib c.spec = .ok c
  first : first = compiled.filter (·.spec.hardDeny)
  rest : rest = compiled.filter fun c => !c.spec.hardDeny

theorem compileAcl_ok {rules : List AclRuleSpec} {first rest : List CompiledAclRule}
    (h : compileAcl re2 lib rules = .ok (first, rest)) :
    ∃ compiled, Split re2 lib rules compiled first rest := by
  unfold compileAcl at h
  obtain ⟨hlength, h⟩ := Result.guard_ok h
  obtain ⟨compiled, hcompiled, h⟩ := Result.bind_ok h
  have hspecs := Result.mapM_ok_map (fun _ _ hc => (compileAclRule_conditions hc).1) hcompiled
  have heach : ∀ c ∈ compiled, compileAclRule re2 lib c.spec = .ok c := by
    intro c hc
    obtain ⟨rule, -, hrule⟩ := Result.mapM_ok hcompiled c hc
    obtain rfl := (compileAclRule_conditions hrule).1
    exact hrule
  have hpre : ∀ c ∈ compiled, isPreRateLimitIpDeny c = c.spec.hardDeny := by
    intro c hc
    have hmem : c.spec ∈ rules.filter (·.enabled) := hspecs ▸ List.mem_map_of_mem hc
    exact isPreRateLimitIpDeny_eq (heach c hc) (List.mem_filter.mp hmem).2
  cases h
  refine ⟨compiled, by omega, hspecs, heach, List.filter_congr hpre, ?_⟩
  exact List.filter_congr fun c hc => by rw [hpre c hc]

/-- The written rules without those that deny addresses compile to the second list. -/
theorem Split.compileAcl_others {rules : List AclRuleSpec}
    {compiled first rest : List CompiledAclRule} (h : Split re2 lib rules compiled first rest) :
    compileAcl re2 lib (rules.filter fun rule => !rule.hardDeny) = .ok ([], rest) := by
  have hrules : (rules.filter fun rule => !rule.hardDeny).filter (·.enabled) =
      rest.map (·.spec) := by
    rw [List.filter_comm, ← h.specs, h.rest, List.filter_map]
    rfl
  have hmapM : (rest.map (·.spec)).mapM (compileAclRule re2 lib) = .ok rest := by
    refine Result.mapM_map_ok fun c hc => h.each c ?_
    rw [h.rest] at hc
    exact (List.mem_filter.mp hc).1
  have hnot : ∀ c ∈ rest, isPreRateLimitIpDeny c = false := by
    intro c hc
    rw [h.rest, List.mem_filter] at hc
    have hmem : c.spec ∈ rules.filter (·.enabled) := h.specs ▸ List.mem_map_of_mem hc.1
    rw [isPreRateLimitIpDeny_eq (h.each c hc.1) (List.mem_filter.mp hmem).2]
    simpa using hc.2
  have hlength : ¬ 200 < (rules.filter fun rule => !rule.hardDeny).length := by
    have := List.length_filter_le (fun rule : AclRuleSpec => !rule.hardDeny) rules
    have := h.length
    omega
  unfold compileAcl
  rw [if_neg hlength, hrules, hmapM]
  have hfirst : rest.filter isPreRateLimitIpDeny = [] := by
    rw [List.filter_eq_nil_iff]
    intro c hc
    simp [hnot c hc]
  have hrest : (rest.filter fun c => !isPreRateLimitIpDeny c) = rest := by
    rw [List.filter_eq_self]
    intro c hc
    simp [hnot c hc]
  change Except.ok (rest.filter isPreRateLimitIpDeny,
    rest.filter fun c => !isPreRateLimitIpDeny c) = _
  rw [hfirst, hrest]

/-- The first rule of the first list that matches is the first written rule that denies the client. -/
theorem Split.find?_first {rules : List AclRuleSpec} {compiled first rest : List CompiledAclRule}
    (h : Split re2 lib rules compiled first rest) (request : RequestView) (clientIp host : Text) :
    (first.find? (ruleMatches re2 lib request clientIp host)).map (·.spec) =
      rules.find? (·.deniesIp lib clientIp) := by
  have hwritten : rules.find? (·.deniesIp lib clientIp) =
      (rules.filter (·.enabled)).find? (·.deniesIp lib clientIp) := by
    rw [List.find?_filter]
    refine List.find?_congr fun rule _ => ?_
    rw [Bool.eq_iff_iff, decide_eq_true_eq]
    simp only [AclRuleSpec.deniesIp, AclRuleSpec.hardDeny, Bool.and_eq_true]
    tauto
  rw [hwritten, ← h.specs, List.find?_map, h.first, List.find?_filter]
  refine congrArg _ (List.find?_congr fun c hc => ?_)
  cases hdeny : c.spec.hardDeny with
  | true => simp [ruleMatches_hardDeny (h.each c hc) hdeny]
  | false => simp [AclRuleSpec.deniesIp, hdeny]

/-! ## The decision -/

/-- The rules of a policy may be replaced by others that compile. -/
theorem make_withRules {spec : SitePolicySpec} {domains : List Text} {p : RequestPolicy}
    (h : RequestPolicy.make re2 lib spec domains = .ok p) :
    p.spec = spec ∧
      compileAcl re2 lib spec.aclRules = .ok (p.preRateLimitAclRules, p.aclRules) ∧
      ∀ rules first rest, compileAcl re2 lib rules = .ok (first, rest) →
        RequestPolicy.make re2 lib { spec with aclRules := rules } domains =
          .ok { p with
            spec := { spec with aclRules := rules }
            preRateLimitAclRules := first
            aclRules := rest } := by
  unfold RequestPolicy.make at h
  obtain ⟨limiter, hlimiter, h⟩ := Result.bind_ok h
  obtain ⟨domains', hdomains, h⟩ := Result.bind_ok h
  obtain ⟨hosts, hhosts, h⟩ := Result.bind_ok h
  obtain ⟨extensions, hextensions, h⟩ := Result.bind_ok h
  obtain ⟨hprotected, h⟩ := Result.guard_ok h
  obtain ⟨hlocation, h⟩ := Result.guard_ok h
  obtain ⟨⟨first, rest⟩, hacl, h⟩ := Result.bind_ok h
  obtain ⟨redirects, hredirects, h⟩ := Result.bind_ok h
  cases h
  refine ⟨rfl, hacl, fun rules first' rest' hacl' => ?_⟩
  unfold RequestPolicy.make
  simp only [hlimiter, hdomains, hhosts, hextensions, hacl', hredirects, Result.ok_bind]
  rw [if_neg hprotected, if_neg hlocation]
  rfl

theorem aclDecision_deny {rule : AclRuleSpec} (h : checkAclRule rule = .ok ())
    (haction : rule.action = .deny) :
    aclDecision rule = .ok (some ⟨rule.status, ascii "Request denied by ACL", [], 0⟩) := by
  unfold checkAclRule at h
  split at h
  · cases h
  · simp only [haction, reduceCtorEq, if_false, ne_eq, not_false_eq_true, true_and] at h
    split at h
    · cases h
    · have hstatus : ¬ (rule.status < 300 ∨ 599 < rule.status) := by omega
      simp [aclDecision, haction, checkedStatus, hstatus, Except.map]

/-- The request is answered by a rule or by the rate limit, not by its method or its length. -/
structure Admissible (request : RequestView) : Prop where
  method : asciiLower request.method ≠ ascii "trace" ∧ asciiLower request.method ≠ ascii "track"
  target : request.target.length ≤ maxUriLength

theorem evaluateFirst_admissible {request : RequestView} (h : Admissible request) (p : RequestPolicy)
    (clientIp host : Text) :
    p.evaluateFirst re2 lib request clientIp host =
      evaluateAcl re2 lib request clientIp host p.preRateLimitAclRules := by
  have hmethod : ¬ (asciiLower request.method = ascii "trace" ∨
      asciiLower request.method = ascii "track") := not_or.mpr h.method
  simp only [RequestPolicy.evaluateFirst, if_neg hmethod, if_neg (not_lt.mpr h.target)]

/-- What the rules before the rate limit decide. -/
theorem Split.evaluateAcl_first {rules : List AclRuleSpec}
    {compiled first rest : List CompiledAclRule} (h : Split re2 lib rules compiled first rest)
    (request : RequestView) (clientIp host : Text) :
    evaluateAcl re2 lib request clientIp host first =
      .ok ((rules.find? (·.deniesIp lib clientIp)).map fun rule =>
        ⟨rule.status, ascii "Request denied by ACL", [], 0⟩) := by
  rw [evaluateAcl_eq, ← h.find?_first request clientIp host]
  cases hfind : first.find? (ruleMatches re2 lib request clientIp host) with
  | none => rfl
  | some c =>
    have hc := List.mem_of_find?_eq_some hfind
    rw [h.first, List.mem_filter] at hc
    have haction : c.spec.action = .deny := by
      have hdeny := hc.2
      simp only [AclRuleSpec.hardDeny, Bool.and_eq_true, beq_iff_eq] at hdeny
      exact hdeny.1.2
    exact aclDecision_deny (compileAclRule_ok (h.each c hc.1)) haction

end Compiled

/-- With every policy that compiles, in every state of its rate limiter: the first written rule that
denies the address of the client decides, and the rate limiter does not see the request. Where no
rule denies the address, the policy without these rules decides the same and leaves the rate limiter
in the same state. -/
theorem hardDeny_decides (re2 : Re2) (lib : AddressText) (spec : SitePolicySpec)
    (domains : List Text) (p : RequestPolicy)
    (hp : RequestPolicy.make re2 lib spec domains = .ok p) (limiter : RateLimiter)
    (request : RequestView) (hrequest : Admissible request) (clientIp host scheme : Text) (now : ℕ) :
    (∀ rule, spec.aclRules.find? (·.deniesIp lib clientIp) = some rule →
      { p with rateLimiter := limiter }.evaluate re2 lib request clientIp host scheme now =
        ({ p with rateLimiter := limiter },
          .ok (some ⟨rule.status, ascii "Request denied by ACL", [], 0⟩))) ∧
    (spec.aclRules.find? (·.deniesIp lib clientIp) = none →
      ∃ q, RequestPolicy.make re2 lib
          { spec with aclRules := spec.aclRules.filter fun rule => !rule.hardDeny } domains = .ok q ∧
        ({ q with rateLimiter := limiter }.evaluate re2 lib request clientIp host scheme now).2 =
          ({ p with rateLimiter := limiter }.evaluate re2 lib request clientIp host scheme now).2 ∧
        ({ q with rateLimiter := limiter }.evaluate re2 lib request clientIp host scheme
            now).1.rateLimiter =
          ({ p with rateLimiter := limiter }.evaluate re2 lib request clientIp host scheme
            now).1.rateLimiter) := by
  obtain ⟨rfl, hacl, hreplace⟩ := make_withRules hp
  obtain ⟨compiled, hsplit⟩ := compileAcl_ok hacl
  have hfirst := hsplit.evaluateAcl_first request clientIp host
  constructor
  · intro rule hrule
    rw [hrule] at hfirst
    simp only [RequestPolicy.evaluate, evaluateFirst_admissible hrequest, hfirst, Option.map_some]
  · intro hnone
    rw [hnone] at hfirst
    refine ⟨_, hreplace _ _ _ hsplit.compileAcl_others, ?_⟩
    simp only [RequestPolicy.evaluate, evaluateFirst_admissible hrequest, hfirst, evaluateAcl,
      Option.map_none]
    -- both policies now ask the same limiter, and then the same rules
    cases (RateLimiter.check limiter clientIp now).2 with
    | some seconds => exact ⟨rfl, rfl⟩
    | none => exact ⟨rfl, rfl⟩

/-! ## A rule behind an allowing one -/

namespace Blocked

def network : AclRuleSpec where
  name := ascii "network"
  status := 404
  conditions := [{ field := .ip, operation := .inCidr, value := ascii "192.0.2.0/24" }]

/-- The site allows everything first. The second rule denies one network, the third one client. -/
def spec : SitePolicySpec where
  aclRules :=
    [ { name := ascii "all", action := .allow,
        conditions := [{ field := .uri, operation := .startsWith, value := ascii "/" }] },
      network,
      { name := ascii "client",
        conditions := [{ field := .ip, operation := .equal, value := ascii "192.0.2.1" }] } ]

end Blocked

theorem hardDeny_decides_blocked :
    ∃ p, RequestPolicy.make Moved.noRegex .dotted Blocked.spec [ascii "a.test"] = .ok p ∧
      p.evaluate Moved.noRegex .dotted (Moved.request (ascii "/")) (ascii "192.0.2.1")
          (ascii "a.test") (ascii "http") 0 =
        (p, .ok (some ⟨404, ascii "Request denied by ACL", [], 0⟩)) := by
  have hmake : (RequestPolicy.make Moved.noRegex .dotted Blocked.spec
      [ascii "a.test"]).isOk = true := by decide
  cases hp : RequestPolicy.make Moved.noRegex .dotted Blocked.spec [ascii "a.test"] with
  | error e => rw [hp] at hmake; cases hmake
  | ok p =>
    refine ⟨p, rfl, ?_⟩
    have hrequest : Admissible (Moved.request (ascii "/")) := by
      refine ⟨by decide, ?_⟩
      decide
    exact (hardDeny_decides Moved.noRegex .dotted Blocked.spec [ascii "a.test"] p hp p.rateLimiter
      (Moved.request (ascii "/")) hrequest (ascii "192.0.2.1") (ascii "a.test") (ascii "http") 0).1
      Blocked.network (by decide)

end Policy
end WebServer
