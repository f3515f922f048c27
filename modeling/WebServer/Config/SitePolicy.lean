import WebServer.Config.Runtime
import WebServer.Lib.Json
import WebServer.Lib.Result
import WebServer.Policy.UrlAuth

/-!
# WebServer.Config.SitePolicy

What a site has in its JSON columns: the rules of its policy and its URL authentication.

The validator catches the exceptions of the JSON library and puts one message in their place. Its
own exceptions pass, so the two are told apart (`Thrown`).
-/

namespace WebServer
namespace Config
namespace SitePolicy

open Http Policy Routing
open Network (AddressText)

inductive Thrown where
  | json (what : Error)
  | invalidArgument (what : Error)

abbrev Parsed := Except Thrown

variable {φ : Type} (codec : Codec φ)

def ofJson {α : Type} (x : Except String α) : Parsed α := x.mapError .json

def refuse {α : Type} (what : Error) : Parsed α := .error (.invalidArgument what)

def parse (encoded : String) : Parsed (Json φ) := ofJson (codec.parse encoded)

def checkedU32 (value minimum maximum : Nat) (name : String) : Except Error Nat :=
  if value < minimum ∨ maximum < value then
    .error (name ++ " must be between " ++ toString minimum ++ " and " ++ toString maximum)
  else .ok value

section Access

variable (source : Json φ) (key : String)

def stringAt : Parsed String := source.stringAt .json key

def stringOr (fallback : String) : Parsed String := source.stringOr .json key fallback

def boolOr (fallback : Bool) : Parsed Bool := source.boolOr .json key fallback

end Access

/-! ## Access rules -/

def parseAclField (value : String) : Parsed AclField :=
  match value with
  | "ip" => .ok .ip
  | "uri" => .ok .uri
  | "host" => .ok .host
  | "method" => .ok .method
  | "user_agent" => .ok .userAgent
  | "referer" => .ok .referer
  | "header" => .ok .header
  | _ => refuse ("unsupported ACL field: " ++ value)

def parseMatchOperator (value : String) : Parsed MatchOperator :=
  match value with
  | "equal" => .ok .equal
  | "not_equal" => .ok .notEqual
  | "contains" => .ok .contains
  | "not_contains" => .ok .notContains
  | "starts_with" => .ok .startsWith
  | "ends_with" => .ok .endsWith
  | "regex" => .ok .regex
  | "in_cidr" => .ok .inCidr
  | "not_in_cidr" => .ok .notInCidr
  | _ => refuse ("unsupported ACL operator: " ++ value)

def parseAclAction (value : String) : Parsed AclAction :=
  match value with
  | "allow" => .ok .allow
  | "deny" => .ok .deny
  | "redirect" => .ok .redirect
  | "return" => .ok .returnStatus
  | _ => refuse ("unsupported ACL action: " ++ value)

def parseAclCondition (source : Json φ) : Parsed AclConditionSpec := do
  let field ← stringAt source "field" >>= parseAclField
  let operation ← stringAt source "operator" >>= parseMatchOperator
  let value ← stringAt source "value"
  let headerName ← stringOr source "header_name" ""
  let caseSensitive ← boolOr source "case_sensitive" false
  return ⟨field, operation, utf8 value, utf8 headerName, caseSensitive⟩

/-- A rule without a list of conditions is its own condition. -/
def parseAclRule (item : Json φ) : Parsed AclRuleSpec := do
  let name ← stringAt item "name"
  let enabled ← boolOr item "enabled" true
  let conditions ←
    if item.contains "conditions" then do
      let source ← ofJson (item.field "conditions")
      source.elements.mapM parseAclCondition
    else do
      let condition ← parseAclCondition item
      pure [condition]
  let action ← stringOr item "action" "deny" >>= parseAclAction
  let status ← ofJson (item.value (Json.getUInt32 codec.truncate) "status"
    (if action = .redirect then 302 else 403))
  let redirectLocation ← stringOr item "redirect_location" ""
  return ⟨utf8 name, enabled, conditions, action, status, utf8 redirectLocation⟩

def parseAclRules (encoded : String) : Parsed (List AclRuleSpec) := do
  let source ← parse codec encoded
  if !source.isArray then refuse "ACL rules must be a JSON array"
  source.elements.mapM (parseAclRule codec)

/-! ## Redirects and hotlink protection -/

def parseRedirectMatch (value : String) : Parsed RedirectMatch :=
  match value with
  | "exact" => .ok .exact
  | "prefix" => .ok .pathPrefix
  | _ => refuse "redirect match must be exact or prefix"

def parseRedirectRule (item : Json φ) : Parsed RedirectRuleSpec := do
  let name ← stringAt item "name"
  let enabled ← boolOr item "enabled" true
  let sourceHost ← stringOr item "source_host" ""
  let sourcePath ← stringOr item "source_path" "/"
  let matchKind ← stringOr item "match" "exact" >>= parseRedirectMatch
  let destination ← stringAt item "destination"
  let status ← ofJson (item.value (Json.getUInt32 codec.truncate) "status" 301)
  let preservePath ← boolOr item "preserve_path" false
  let preserveQuery ← boolOr item "preserve_query" true
  return ⟨utf8 name, enabled, utf8 sourceHost, utf8 sourcePath, matchKind, utf8 destination, status,
    preservePath, preserveQuery⟩

def parseRedirectRules (encoded : String) : Parsed (List RedirectRuleSpec) := do
  let source ← parse codec encoded
  if !source.isArray then refuse "redirect rules must be a JSON array"
  source.elements.mapM (parseRedirectRule codec)

def parseStringArray (encoded name : String) (maximum : Nat) : Parsed (List String) := do
  let source ← parse codec encoded
  if !source.isArray ∨ maximum < source.elements.length then
    refuse (name ++ " must be a JSON array with at most " ++ toString maximum ++ " entries")
  ofJson source.getStrings

/-! ## URL authentication -/

def parseUrlAuthScope (value : String) : Parsed UrlAuthScope :=
  match value with
  | "all" => .ok .all
  | "specified" => .ok .specified
  | _ => refuse "URL authentication scope must be all or specified"

def parseUrlAuthMatch (value : String) : Parsed UrlAuthMatch :=
  match value with
  | "exact" => .ok .exact
  | "prefix" => .ok .pathPrefix
  | _ => refuse "URL authentication URI match must be exact or prefix"

def parseUrlAuthUri (item : Json φ) : Parsed UrlAuthUriSpec := do
  let path ← stringAt item "path"
  let matchKind ← stringOr item "match" "exact" >>= parseUrlAuthMatch
  return ⟨utf8 path, matchKind⟩

def parseUrlAuth (encoded : String) : Parsed UrlAuthSpec := do
  let source ← parse codec encoded
  if !source.isObject then refuse "URL authentication configuration must be a JSON object"
  let enabled ← boolOr source "enabled" false
  let scope ← stringOr source "scope" "all" >>= parseUrlAuthScope
  let primaryKey ← stringOr source "primary_key" ""
  let backupKey ← stringOr source "backup_key" ""
  let validity ← ofJson (source.value (Json.getInt64 codec.truncate) "validity_seconds" 1800)
  if validity < 0 ∨ 2 ^ 32 ≤ validity then refuse "URL authentication validity is out of range"
  let protectedUris ← ofJson (source.value .ok "protected_uris" (.arr []))
  if !protectedUris.isArray then refuse "URL authentication protected URIs must be an array"
  if 200 < protectedUris.elements.length then
    refuse "URL authentication cannot contain more than 200 protected URI rules"
  let rules ← protectedUris.elements.mapM parseUrlAuthUri
  return ⟨enabled, scope, utf8 primaryKey, utf8 backupKey, validity.toNat, rules⟩

/-! ## The policy of a site -/

def ofCheck {α : Type} (x : Except Error α) : Parsed α := x.mapError .invalidArgument

def runtimePolicy (site : SiteRecord) : Parsed SitePolicySpec := do
  let aclRules ← parseAclRules codec site.aclRulesJson
  let windowSeconds ← ofCheck (checkedU32 site.rateLimitWindowSeconds 1 3600 "rate limit window")
  let maxRequests ← ofCheck (checkedU32 site.rateLimitMaxRequests 1 1000000 "rate limit maximum")
  let banSeconds ← ofCheck (checkedU32 site.rateLimitBanSeconds 0 86400 "rate limit ban")
  let protectedExtensions ←
    parseStringArray codec site.hotlinkExtensionsJson "hotlink extensions" 50
  let allowedHosts ←
    parseStringArray codec site.hotlinkAllowedHostsJson "hotlink allowed hosts" 100
  let redirects ← parseRedirectRules codec site.redirectRulesJson
  return {
    forceHttps := site.forceHttps
    httpsPort := site.httpsPort
    aclRules := aclRules
    rateLimit := ⟨site.rateLimitEnabled, windowSeconds, maxRequests, banSeconds⟩
    hotlink :=
      { enabled := site.hotlinkEnabled
        protectedExtensions := protectedExtensions.map utf8
        allowedHosts := allowedHosts.map utf8
        allowEmptyReferer := site.hotlinkAllowEmptyReferer
        redirectLocation := utf8 site.hotlinkRedirectLocation }
    redirects := redirects }

def runtimeUrlAuth (site : SiteRecord) : Parsed UrlAuthSpec := parseUrlAuth codec site.urlAuthJson

/-- The policy and the authenticator that a site would get. -/
def compile (re2 : Re2) (address : AddressText) (site : SiteRecord) :
    Parsed (RequestPolicy × UrlAuthenticator) := do
  let spec ← runtimePolicy codec site
  let policy ← ofCheck ((RequestPolicy.make re2 address spec (site.domains.map utf8)).mapError
    asciiString)
  let urlAuth ← runtimeUrlAuth codec site
  let authenticator ← ofCheck ((UrlAuthenticator.make urlAuth).mapError asciiString)
  return (policy, authenticator)

/-! ## What is compiled -/

theorem checkedU32_ok {value minimum maximum n : Nat} {name : String}
    (h : checkedU32 value minimum maximum name = .ok n) : n = value ∧ value ≤ maximum := by
  unfold checkedU32 at h
  split at h
  · cases h
  · rename_i hrange
    cases h
    exact ⟨rfl, by omega⟩

section Compiled

variable {codec : Codec φ} {site : SiteRecord}

/-- The columns that are no JSON are taken over. -/
theorem runtimePolicy_ok {spec : SitePolicySpec} (h : runtimePolicy codec site = .ok spec) :
    spec.forceHttps = site.forceHttps ∧ spec.httpsPort = site.httpsPort ∧
      spec.rateLimit = ⟨site.rateLimitEnabled, site.rateLimitWindowSeconds,
        site.rateLimitMaxRequests, site.rateLimitBanSeconds⟩ := by
  have hnumber : ∀ {value minimum maximum n : Nat} {name : String},
      ofCheck (checkedU32 value minimum maximum name) = .ok n → n = value := by
    intro value minimum maximum n name hn
    cases hchecked : checkedU32 value minimum maximum name with
    | error e => rw [hchecked] at hn; cases hn
    | ok m =>
      rw [hchecked] at hn
      cases hn
      exact (checkedU32_ok hchecked).1
  unfold runtimePolicy at h
  obtain ⟨_, -, h⟩ := Result.bind_ok h
  obtain ⟨window, hwindow, h⟩ := Result.bind_ok h
  obtain ⟨maximum, hmaximum, h⟩ := Result.bind_ok h
  obtain ⟨ban, hban, h⟩ := Result.bind_ok h
  iterate 3 obtain ⟨_, -, h⟩ := Result.bind_ok h
  cases h
  rw [hnumber hwindow, hnumber hmaximum, hnumber hban]
  exact ⟨rfl, rfl, rfl⟩

theorem compile_ok {re2 : Re2} {address : AddressText} {policy : RequestPolicy}
    {authenticator : UrlAuthenticator}
    (h : compile codec re2 address site = .ok (policy, authenticator)) :
    ∃ spec, runtimePolicy codec site = .ok spec ∧
      RequestPolicy.make re2 address spec (site.domains.map utf8) = .ok policy := by
  unfold compile at h
  obtain ⟨spec, hspec, h⟩ := Result.bind_ok h
  obtain ⟨p, hp, h⟩ := Result.bind_ok h
  obtain ⟨_, -, h⟩ := Result.bind_ok h
  obtain ⟨_, -, h⟩ := Result.bind_ok h
  cases h
  refine ⟨spec, hspec, ?_⟩
  cases hmake : RequestPolicy.make re2 address spec (site.domains.map utf8) with
  | error e => rw [hmake] at hp; cases hp
  | ok q => rw [hmake] at hp; cases hp; rfl

end Compiled

end SitePolicy
end Config
end WebServer
