import WebServer.Lib.Reference
import WebServer.Network.Address
import WebServer.Policy.RateLimiter
import WebServer.Routing.Router

/-!
# WebServer.Policy.RequestPolicy

`RequestPolicy`: what a site does with a request before it goes to the backend. The order is the rules
that deny addresses, the rate limit, the other ACL rules, force-HTTPS, the redirect rules and the
hotlink protection.

* `RequestPolicy.make` checks and compiles a `SitePolicySpec`.
* `RequestPolicy.evaluate` is the chain. The policy it returns differs in its rate limiter only.

Regular expressions are those of RE2, addresses those of Asio; both are parameters.
-/

namespace WebServer
namespace Policy

open Http
open Network (Address AddressText Range)
open Routing

inductive AclField where
  | ip
  | uri
  | host
  | method
  | userAgent
  | referer
  | header
  deriving DecidableEq

inductive MatchOperator where
  | equal
  | notEqual
  | contains
  | notContains
  | startsWith
  | endsWith
  | regex
  | inCidr
  | notInCidr
  deriving DecidableEq

inductive AclAction where
  | allow
  | deny
  | redirect
  | returnStatus
  deriving DecidableEq

structure AclConditionSpec where
  field : AclField := .uri
  operation : MatchOperator := .contains
  value : Text := []
  headerName : Text := []
  caseSensitive : Bool := false
  deriving DecidableEq

structure AclRuleSpec where
  name : Text := []
  enabled : Bool := true
  conditions : List AclConditionSpec := []
  action : AclAction := .deny
  status : ℕ := 403
  redirectLocation : Text := []
  deriving DecidableEq

structure HotlinkSpec where
  enabled : Bool := false
  protectedExtensions : List Text := []
  allowedHosts : List Text := []
  allowEmptyReferer : Bool := true
  redirectLocation : Text := []
  deriving DecidableEq

inductive RedirectMatch where
  | exact
  | pathPrefix
  deriving DecidableEq

structure RedirectRuleSpec where
  name : Text := []
  enabled : Bool := true
  sourceHost : Text := []
  sourcePath : Text := ascii "/"
  matchKind : RedirectMatch := .exact
  destination : Text := []
  status : ℕ := 301
  preservePath : Bool := false
  preserveQuery : Bool := true
  deriving DecidableEq

structure SitePolicySpec where
  forceHttps : Bool := false
  httpsPort : ℕ := 443
  aclRules : List AclRuleSpec := []
  rateLimit : RateLimitSpec := ⟨false, 10, 100, 60⟩
  hotlink : HotlinkSpec := {}
  redirects : List RedirectRuleSpec := []
  deriving DecidableEq

structure PolicyDecision where
  status : ℕ
  body : Text
  location : Text
  retryAfterSeconds : ℕ
  deriving DecidableEq

structure RequestView where
  method : Text
  target : Text
  userAgent : Text
  referer : Text
  headerValue : Text → Text

/-- `re2::RE2`: `ok` and `PartialMatch` for a pattern and its option `case_sensitive`. -/
structure Re2 where
  ok : Text → Bool → Bool
  partialMatch : Text → Bool → Text → Bool

def maxUriLength : ℕ := 8192

/-! ## Texts -/

def asciiLower (t : Text) : Text := t.map lower

def wildcardHostMatches (pattern host : Text) : Bool :=
  if isWildcard pattern then (subdomain (pattern.drop 2) host).isSome else pattern == host

def normalizedHostPattern (pattern : Text) : Except Text Text :=
  match patternDomain pattern with
  | none => .error (ascii "invalid policy host pattern: " ++ pattern)
  | some domain =>
    if isWildcard pattern then
      if 46 ∉ domain then .error (ascii "invalid policy host pattern: " ++ pattern)
      else .ok (ascii "*." ++ domain)
    else .ok domain

def splitTarget (target : Text) : Text × Text := (cut 63 target).getD (target, [])

/-- What follows the last dot, when no slash comes after it. -/
def targetExtension (target : Text) : Text :=
  let path := (splitTarget target).1
  let rest := (path.reverse.takeWhile (· != 46)).reverse
  if 46 ∉ path ∨ 47 ∈ rest then [] else asciiLower rest

/-- The bytes before the first `://`, and those after it. -/
def cutScheme : Text → Option (Text × Text)
  | [] => none
  | b :: rest =>
    if ascii "://" <+: b :: rest then some ([], rest.drop 2)
    else (cutScheme rest).map fun p => (b :: p.1, p.2)

def refererHost (referer : Text) : Option Text :=
  match cutScheme referer with
  | none => none
  | some (scheme, rest) =>
    if asciiLower scheme = ascii "http" ∨ asciiLower scheme = ascii "https" then
      normalizeAuthority (Reference.segment rest)
    else none

def checkedStatus (value : ℕ) (context : String) : Except Text ℕ :=
  if value < 300 ∨ 599 < value then .error (ascii (context ++ " status is out of range"))
  else .ok value

def validRedirectStatus (status : ℕ) : Bool :=
  status == 301 || status == 302 || status == 307 || status == 308

def validRedirectDestination (destination : Text) : Bool :=
  if destination = [] ∨ 4096 < destination.length ∨
      destination.any (fun b => b ≤ 0x20 || 0x7f ≤ b) = true then false
  else
    decide (ascii "/" <+: destination) || decide (ascii "http://" <+: destination) ||
      decide (ascii "https://" <+: destination)

def validHeaderName (name : Text) : Bool :=
  name ≠ [] && name.length ≤ 128 &&
    name.all fun b => isAlnum b || (ascii "!#$%&'*+-.^_`|~").contains b

/-- A slash between the two, and only one. -/
def appendPath (destination path : Text) : Text :=
  if path = [] then destination
  else if destination.getLast? = some 47 ∧ path.head? = some 47 then destination.dropLast ++ path
  else if destination ≠ [] ∧ destination.getLast? ≠ some 47 ∧ path.head? ≠ some 47 then
    destination ++ [47] ++ path
  else destination ++ path

/-- `std::to_string` -/
def decimal (n : ℕ) : Text :=
  if n = 0 then [48] else (Nat.digits 10 n).reverse.map fun d => UInt8.ofNat (48 + d)

/-! ## The compiled policy -/

structure CompiledCondition where
  spec : AclConditionSpec
  cidr : Option Range
  deriving DecidableEq

structure CompiledAclRule where
  spec : AclRuleSpec
  conditions : List CompiledCondition
  deriving DecidableEq

structure RequestPolicy where
  spec : SitePolicySpec
  rateLimiter : RateLimiter
  preRateLimitAclRules : List CompiledAclRule
  aclRules : List CompiledAclRule
  redirects : List RedirectRuleSpec
  hotlinkExtensions : List Text
  hotlinkHosts : List Text

section Compile

variable (re2 : Re2) (lib : AddressText)

def parseAclCidr (text : Text) : Except Text Range :=
  match cut 47 text with
  | none => .error (ascii "ACL CIDR must use address/prefix notation")
  | some (addressText, prefixText) =>
    if addressText = [] ∨ prefixText = [] ∨ 47 ∈ prefixText then
      .error (ascii "ACL CIDR must use address/prefix notation")
    else
      match lib.makeAddress addressText with
      | none => .error (ascii "ACL contains an invalid CIDR address")
      | some network =>
        match Network.fromChars prefixText with
        | none => .error (ascii "ACL contains an invalid CIDR prefix")
        | some n =>
          if (if network.isV4 then 32 else 128) < n then
            .error (ascii "ACL contains an invalid CIDR prefix")
          else .ok ⟨network, n⟩

def compileCondition (condition : AclConditionSpec) : Except Text CompiledCondition :=
  if condition.value = [] ∨ 4096 < condition.value.length then
    .error (ascii "ACL condition value must contain 1 to 4096 characters")
  else if condition.field = .header ∧ validHeaderName condition.headerName = false then
    .error (ascii "ACL Header match requires a valid header name")
  else if condition.operation = .regex then
    if re2.ok condition.value condition.caseSensitive then .ok ⟨condition, none⟩
    else .error (ascii "ACL contains an invalid or unsupported RE2 expression")
  else if condition.operation = .inCidr ∨ condition.operation = .notInCidr then
    if condition.field ≠ .ip then
      .error (ascii "ACL CIDR operators are only valid for the IP field")
    else (parseAclCidr lib condition.value).map fun range => ⟨condition, some range⟩
  else .ok ⟨condition, none⟩

def checkAclRule (rule : AclRuleSpec) : Except Text Unit :=
  if rule.name = [] ∨ 128 < rule.name.length ∨ rule.conditions = [] ∨ 8 < rule.conditions.length then
    .error (ascii "invalid ACL rule name or condition count")
  else if rule.action = .redirect then
    if validRedirectStatus rule.status && validRedirectDestination rule.redirectLocation then .ok ()
    else .error (ascii "invalid ACL redirect action")
  else if rule.action ≠ .allow ∧ rule.status ≠ 403 ∧ rule.status ≠ 404 ∧ rule.status ≠ 429 then
    .error (ascii "ACL status must be 403, 404, or 429")
  else .ok ()

def compileAclRule (rule : AclRuleSpec) : Except Text CompiledAclRule := do
  checkAclRule rule
  let conditions ← rule.conditions.mapM (compileCondition re2 lib)
  return ⟨rule, conditions⟩

def isPreRateLimitIpDeny (rule : CompiledAclRule) : Bool :=
  rule.spec.action == .deny && rule.conditions.all fun condition =>
    condition.spec.field == .ip &&
      (condition.spec.operation == .equal || condition.spec.operation == .inCidr ||
        condition.spec.operation == .notInCidr)

/-- The rules before the rate limit, and those after it. -/
def compileAcl (rules : List AclRuleSpec) :
    Except Text (List CompiledAclRule × List CompiledAclRule) := do
  if 200 < rules.length then throw (ascii "a site cannot contain more than 200 ACL rules")
  let compiled ← (rules.filter (·.enabled)).mapM (compileAclRule re2 lib)
  return (compiled.filter isPreRateLimitIpDeny, compiled.filter fun r => !isPreRateLimitIpDeny r)

def compileRedirect (rule : RedirectRuleSpec) : Except Text RedirectRuleSpec :=
  if rule.name = [] ∨ 128 < rule.name.length ∨ rule.sourcePath.head? ≠ some 47 ∨
      maxUriLength < rule.sourcePath.length ∨ validRedirectStatus rule.status = false ∨
      validRedirectDestination rule.destination = false then
    .error (ascii "invalid redirect rule")
  else if rule.sourceHost = [] then .ok rule
  else (normalizedHostPattern rule.sourceHost).map fun host => { rule with sourceHost := host }

def compileRedirects (rules : List RedirectRuleSpec) : Except Text (List RedirectRuleSpec) := do
  if 100 < rules.length then throw (ascii "a site cannot contain more than 100 redirect rules")
  (rules.filter (·.enabled)).mapM compileRedirect

def normalizeExtension (extension : Text) : Except Text Text :=
  let extension := asciiLower (if extension.head? = some 46 then extension.tail else extension)
  if extension = [] ∨ 16 < extension.length ∨ extension.all isAlnum = false then
    .error (ascii "invalid hotlink-protected extension")
  else .ok extension

def RequestPolicy.make (spec : SitePolicySpec) (siteDomains : List Text) :
    Except Text RequestPolicy := do
  let rateLimiter ← (RateLimiter.make spec.rateLimit).mapError ascii
  let domains ← siteDomains.mapM normalizedHostPattern
  let hosts ← spec.hotlink.allowedHosts.mapM normalizedHostPattern
  let extensions ← spec.hotlink.protectedExtensions.mapM normalizeExtension
  if spec.hotlink.enabled = true ∧ extensions = [] then
    throw (ascii "hotlink protection requires at least one extension")
  if spec.hotlink.redirectLocation ≠ [] ∧
      validRedirectDestination spec.hotlink.redirectLocation = false then
    throw (ascii "invalid hotlink redirect destination")
  let (preRateLimitAclRules, aclRules) ← compileAcl re2 lib spec.aclRules
  let redirects ← compileRedirects spec.redirects
  return ⟨spec, rateLimiter, preRateLimitAclRules, aclRules, redirects, extensions, domains ++ hosts⟩

end Compile

/-! ## Evaluation -/

section Evaluate

variable (re2 : Re2) (lib : AddressText)

def fieldValue (request : RequestView) (condition : AclConditionSpec) (clientIp host : Text) : Text :=
  match condition.field with
  | .ip => clientIp
  | .uri => request.target
  | .host => host
  | .method => request.method
  | .userAgent => request.userAgent
  | .referer => request.referer
  | .header => request.headerValue condition.headerName

def matchText (operation : MatchOperator) (value expected : Text) : Bool :=
  match operation with
  | .equal => value == expected
  | .notEqual => value != expected
  | .contains => expected <:+: value
  | .notContains => !decide (expected <:+: value)
  | .startsWith => expected <+: value
  | .endsWith => expected <:+ value
  | .regex => false
  | .inCidr => false
  | .notInCidr => false

/-- `none` when the text is no address; the range is there for every CIDR condition. -/
def inRange (condition : CompiledCondition) (candidate : Text) : Option Bool := do
  let address ← lib.makeAddress candidate
  let range ← condition.cidr
  return Network.contains range address

def matchCondition (condition : CompiledCondition) (candidate : Text) : Bool :=
  let spec := condition.spec
  match spec.operation with
  | .regex => re2.partialMatch spec.value spec.caseSensitive candidate
  | .inCidr => (inRange lib condition candidate).any (· == true)
  | .notInCidr => (inRange lib condition candidate).any (· == false)
  | operation =>
    let normalize (t : Text) := if spec.caseSensitive then t else asciiLower t
    matchText operation (normalize candidate) (normalize spec.value)

def ruleMatches (request : RequestView) (clientIp host : Text) (rule : CompiledAclRule) : Bool :=
  rule.conditions.all fun condition =>
    matchCondition re2 lib condition (fieldValue request condition.spec clientIp host)

/-- What a rule that matches decides; `none` lets the request pass. -/
def aclDecision (rule : AclRuleSpec) : Except Text (Option PolicyDecision) :=
  match rule.action with
  | .allow => .ok none
  | .redirect => (checkedStatus rule.status "ACL redirect").map fun status =>
      some ⟨status, [], rule.redirectLocation, 0⟩
  | .deny => (checkedStatus rule.status "ACL").map fun status =>
      some ⟨status, ascii "Request denied by ACL", [], 0⟩
  | .returnStatus => (checkedStatus rule.status "ACL").map fun status =>
      some ⟨status, ascii "Request blocked by ACL", [], 0⟩

def evaluateAcl (request : RequestView) (clientIp host : Text) :
    List CompiledAclRule → Except Text (Option PolicyDecision)
  | [] => .ok none
  | rule :: rules =>
    if ruleMatches re2 lib request clientIp host rule then aclDecision rule.spec
    else evaluateAcl request clientIp host rules

/-- What stays of the path of the request. -/
def RedirectRuleSpec.preserved (rule : RedirectRuleSpec) (path : Text) : Text :=
  match rule.matchKind with
  | .exact => path
  | .pathPrefix => path.drop rule.sourcePath.length

def RedirectRuleSpec.pathMatches (rule : RedirectRuleSpec) (path : Text) : Bool :=
  match rule.matchKind with
  | .exact => path == rule.sourcePath
  | .pathPrefix => rule.sourcePath <+: path

def RedirectRuleSpec.fits (rule : RedirectRuleSpec) (target host : Text) : Bool :=
  (rule.sourceHost == [] || wildcardHostMatches rule.sourceHost host) &&
    rule.pathMatches (splitTarget target).1

def appendQuery (location query : Text) : Text :=
  location ++ [if 63 ∈ location then 38 else 63] ++ query

def RedirectRuleSpec.location (rule : RedirectRuleSpec) (target : Text) : Text :=
  let (path, query) := splitTarget target
  let location := if rule.preservePath then appendPath rule.destination (rule.preserved path)
    else rule.destination
  if rule.preserveQuery = true ∧ query ≠ [] then appendQuery location query else location

def evaluateRedirects (rules : List RedirectRuleSpec) (request : RequestView) (host : Text) :
    Option PolicyDecision :=
  (rules.find? fun rule => rule.fits request.target host).map fun rule =>
    ⟨rule.status, [], rule.location request.target, 0⟩

/-- The referer is one of those that may use the protected files. -/
def RequestPolicy.allowedReferer (p : RequestPolicy) (referer : Text) : Bool :=
  if referer = [] then p.spec.hotlink.allowEmptyReferer
  else (refererHost referer).any fun host => p.hotlinkHosts.any (wildcardHostMatches · host)

def RequestPolicy.evaluateHotlink (p : RequestPolicy) (request : RequestView) :
    Option PolicyDecision :=
  if p.spec.hotlink.enabled = false ∨ targetExtension request.target ∉ p.hotlinkExtensions then none
  else if p.allowedReferer request.referer then none
  else if p.spec.hotlink.redirectLocation ≠ [] then
    some ⟨302, [], p.spec.hotlink.redirectLocation, 0⟩
  else some ⟨403, ascii "Hotlink protection denied the request", [], 0⟩

/-- The authority of the site's HTTPS listener, under the name that was asked for. -/
def SitePolicySpec.httpsAuthority (spec : SitePolicySpec) (host : Text) : Text :=
  (if 58 ∈ host then [91] ++ host ++ [93] else host) ++
    (if spec.httpsPort ≠ 443 then [58] ++ decimal spec.httpsPort else [])

def RequestPolicy.evaluatePostAcl (p : RequestPolicy) (request : RequestView) (host scheme : Text) :
    Option PolicyDecision :=
  if p.spec.forceHttps = true ∧ scheme = ascii "http" then
    some ⟨308, [], ascii "https://" ++ p.spec.httpsAuthority host ++ request.target, 0⟩
  else
    match evaluateRedirects p.redirects request host with
    | some decision => some decision
    | none => p.evaluateHotlink request

/-- The rules after the rate limit, and all that follows them. -/
def RequestPolicy.evaluateRest (p : RequestPolicy) (request : RequestView)
    (clientIp host scheme : Text) : Except Text (Option PolicyDecision) :=
  match evaluateAcl re2 lib request clientIp host p.aclRules with
  | .error e => .error e
  | .ok (some decision) => .ok (some decision)
  | .ok none => .ok (p.evaluatePostAcl request host scheme)

/-- What is decided before the rate limit. -/
def RequestPolicy.evaluateFirst (p : RequestPolicy) (request : RequestView) (clientIp host : Text) :
    Except Text (Option PolicyDecision) :=
  let method := asciiLower request.method
  if method = ascii "trace" ∨ method = ascii "track" then
    .ok (some ⟨405, ascii "Method is not allowed", [], 0⟩)
  else if maxUriLength < request.target.length then
    .ok (some ⟨414, ascii "Request target is too long", [], 0⟩)
  else evaluateAcl re2 lib request clientIp host p.preRateLimitAclRules

/-- `now` is the time that the rate limiter reads. -/
def RequestPolicy.evaluate (p : RequestPolicy) (request : RequestView) (clientIp host scheme : Text)
    (now : ℕ) : RequestPolicy × Except Text (Option PolicyDecision) :=
  match p.evaluateFirst re2 lib request clientIp host with
  | .error e => (p, .error e)
  | .ok (some decision) => (p, .ok (some decision))
  | .ok none =>
    let (rateLimiter, retryAfter) := p.rateLimiter.check clientIp now
    let p := { p with rateLimiter := rateLimiter }
    match retryAfter with
    | some seconds => (p, .ok (some ⟨429, ascii "Rate limit exceeded", [], seconds⟩))
    | none => (p, p.evaluateRest re2 lib request clientIp host scheme)

end Evaluate

end Policy
end WebServer
