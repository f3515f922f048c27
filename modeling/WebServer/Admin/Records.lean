import WebServer.Admin.Auth
import WebServer.Config.Backup

/-!
# WebServer.Admin.Records

The records of the configuration as the admin API reads and shows them, and the backend of a probe.

A number is read as `int` or as a 64-bit integer and then checked, so that a float or a boolean is
taken where the library converts it. The JSON columns of a site are written with `dump`.
-/

namespace WebServer
namespace Admin

open Config Http Routing

variable {φ : Type}

/-- An accessor of the library that throws a `json::exception`. -/
def accessing {α : Type} (x : Except String α) : Except Exception α := x.mapError fun _ => .json

section Parse

variable (codec : Codec φ)

/-- `json::parse` of the body; an ill-formed text is not JSON. -/
def parseJson (text : String) : Except Exception (Json φ) := accessing (codec.parse text)

def parsePort (source : Json φ) (key : String) (fallback : Nat) : Except Exception Nat :=
  if source.contains key then do
    let found ← accessing (source.field key)
    let value ← accessing (found.getInt codec.truncate)
    if value ≤ 0 ∨ 65535 < value then
      throw (.invalidArgument (key ++ " must be between 1 and 65535"))
    return value.toNat
  else .ok fallback

def parseU32 (source : Json φ) (key : String) (fallback : Nat) : Except Exception Nat :=
  if source.contains key then do
    let found ← accessing (source.field key)
    let value ← accessing (found.getInt64 codec.truncate)
    if value < 0 ∨ 2 ^ 32 ≤ value then
      throw (.invalidArgument (key ++ " is out of range"))
    return value.toNat
  else .ok fallback

def requiredString (source : Json φ) (key : String) : Except Exception String :=
  source.stringAt (fun _ => .json) key

def requiredStrings (source : Json φ) (key : String) : Except Exception (List String) :=
  accessing (source.field key >>= Json.getStrings)

def boolOr (source : Json φ) (key : String) (fallback : Bool) : Except Exception Bool :=
  source.boolOr (fun _ => .json) key fallback

def stringOr (source : Json φ) (key : String) (fallback : String) : Except Exception String :=
  source.stringOr (fun _ => .json) key fallback

/-- `source.value(key, fallback)` with a JSON value as it is. -/
def itemOr (source : Json φ) (key : String) (fallback : Json φ) : Except Exception (Json φ) :=
  accessing (source.value .ok key fallback)

def parseUrlAuth (source : Json φ) : Except Exception (Json φ) := do
  let enabled ← boolOr source "url_auth_enabled" false
  let scope ← stringOr source "url_auth_scope" "all"
  let primaryKey ← stringOr source "url_auth_primary_key" ""
  let backupKey ← stringOr source "url_auth_backup_key" ""
  let validitySeconds ← parseU32 codec source "url_auth_validity_seconds" 1800
  let protectedUris ← itemOr source "url_auth_protected_uris" (.arr [])
  return .ofFields [("enabled", .bool enabled), ("scope", .str scope),
    ("primary_key", .str primaryKey), ("backup_key", .str backupKey),
    ("validity_seconds", number validitySeconds), ("protected_uris", protectedUris)]

def parseSite (source : Json φ) : Except Exception SiteRecord := do
  let name ← requiredString source "name"
  let enabled ← boolOr source "enabled" true
  let domains ← requiredStrings source "domains"
  let backendAddress ← requiredString source "backend_address"
  let backendPort ← parsePort codec source "backend_port" 0
  let backendProtocol ← stringOr source "backend_protocol" "http"
  let backendHost ← stringOr source "backend_host" ""
  let backendTlsSni ← stringOr source "backend_tls_sni" ""
  let backendTlsVerifyCertificate ← boolOr source "backend_tls_verify_certificate" true
  let backendConnectTimeoutSeconds ← parseU32 codec source "backend_connect_timeout_seconds" 5
  let backendResponseTimeoutSeconds ← parseU32 codec source "backend_response_timeout_seconds" 60
  let backendKeepAlive ← boolOr source "backend_keep_alive" true
  let urlAuth ← parseUrlAuth codec source
  let httpEnabled ← boolOr source "http_enabled" true
  let httpPort ← parsePort codec source "http_port" 80
  let httpsEnabled ← boolOr source "https_enabled" false
  let httpsPort ← parsePort codec source "https_port" 443
  let forceHttps ← boolOr source "force_https" false
  let aclRules ← itemOr source "acl_rules" (.arr [])
  let rateLimitEnabled ← boolOr source "rate_limit_enabled" false
  let rateLimitWindowSeconds ← parseU32 codec source "rate_limit_window_seconds" 10
  let rateLimitMaxRequests ← parseU32 codec source "rate_limit_max_requests" 100
  let rateLimitBanSeconds ← parseU32 codec source "rate_limit_ban_seconds" 60
  let hotlinkEnabled ← boolOr source "hotlink_enabled" false
  let hotlinkExtensions ← itemOr source "hotlink_extensions"
    (strings ["jpg", "jpeg", "png", "gif", "webp", "mp4", "zip"])
  let hotlinkAllowedHosts ← itemOr source "hotlink_allowed_hosts" (.arr [])
  let hotlinkAllowEmptyReferer ← boolOr source "hotlink_allow_empty_referer" true
  let hotlinkRedirectLocation ← stringOr source "hotlink_redirect_location" ""
  let redirectRules ← itemOr source "redirect_rules" (.arr [])
  let backendMaxActiveConnections ← parseU32 codec source "backend_max_active_connections" 200
  let backendMaxQueue ← parseU32 codec source "backend_max_queue" 1000
  let backendQueueTimeoutSeconds ← parseU32 codec source "backend_queue_timeout_seconds" 5
  return {
    name, enabled, domains, backendAddress, backendPort
    backendProtocol := asciiToLower backendProtocol
    backendHost, backendTlsSni, backendTlsVerifyCertificate, backendConnectTimeoutSeconds
    backendResponseTimeoutSeconds, backendKeepAlive
    urlAuthJson := codec.dump urlAuth
    httpEnabled, httpPort, httpsEnabled, httpsPort, forceHttps
    aclRulesJson := codec.dump aclRules
    rateLimitEnabled, rateLimitWindowSeconds, rateLimitMaxRequests, rateLimitBanSeconds
    hotlinkEnabled
    hotlinkExtensionsJson := codec.dump hotlinkExtensions
    hotlinkAllowedHostsJson := codec.dump hotlinkAllowedHosts
    hotlinkAllowEmptyReferer, hotlinkRedirectLocation
    redirectRulesJson := codec.dump redirectRules
    backendMaxActiveConnections, backendMaxQueue, backendQueueTimeoutSeconds }

def parseCertificate (source : Json φ) : Except Exception CertificateRecord := do
  let name ← requiredString source "name"
  let enabled ← boolOr source "enabled" true
  let isDefault ← boolOr source "is_default" false
  let domains ← requiredStrings source "domains"
  let certificatePem ← stringOr source "certificate_pem" ""
  let privateKeyPem ← stringOr source "private_key_pem" ""
  return { name, enabled, isDefault, domains, certificatePem, privateKeyPem }

def parseSettings (source : Json φ) : Except Exception RuntimeSettingsRecord := do
  let trustedProxyCidrs ← accessing (source.value Json.getStrings "trusted_proxy_cidrs" [])
  let realIpHeaders ← accessing (source.value Json.getStrings "real_ip_headers"
    ["EO-Connecting-IP", "CF-Connecting-IP", "True-Client-IP", "X-Forwarded-For"])
  let maxUploadBytes ← accessing (source.value (Json.getUInt64 codec.truncate) "max_upload_bytes"
    (64 * 1024 * 1024))
  let backendKeepAlive ← boolOr source "backend_keep_alive" true
  let backendPoolSize ← parseU32 codec source "backend_pool_size" 32
  let clientHeaderTimeoutSeconds ← parseU32 codec source "client_header_timeout_seconds" 15
  let clientBodyTimeoutSeconds ← parseU32 codec source "client_body_timeout_seconds" 120
  let clientWriteTimeoutSeconds ← parseU32 codec source "client_write_timeout_seconds" 60
  let backendConnectTimeoutSeconds ← parseU32 codec source "backend_connect_timeout_seconds" 5
  let backendResponseTimeoutSeconds ← parseU32 codec source "backend_response_timeout_seconds" 60
  let backendIdleTimeoutSeconds ← parseU32 codec source "backend_idle_timeout_seconds" 60
  let backendIdleConnectionTtlSeconds ←
    parseU32 codec source "backend_idle_connection_ttl_seconds" 60
  return {
    trustedProxyCidrs, realIpHeaders, maxUploadBytes, backendKeepAlive, backendPoolSize,
    clientHeaderTimeoutSeconds, clientBodyTimeoutSeconds, clientWriteTimeoutSeconds,
    backendConnectTimeoutSeconds, backendResponseTimeoutSeconds, backendIdleTimeoutSeconds,
    backendIdleConnectionTtlSeconds }

end Parse

/-! ## Records as JSON -/

section Show

variable (codec : Codec φ)

def siteJson (site : SiteRecord) : Except Exception (Json φ) := do
  let urlAuth ← parseJson codec site.urlAuthJson
  let urlAuthEnabled ← boolOr urlAuth "enabled" false
  let urlAuthScope ← stringOr urlAuth "scope" "all"
  let urlAuthPrimaryKey ← stringOr urlAuth "primary_key" ""
  let urlAuthBackupKey ← stringOr urlAuth "backup_key" ""
  let urlAuthValiditySeconds ← accessing
    (urlAuth.value (Json.getInt codec.truncate) "validity_seconds" 1800)
  let urlAuthProtectedUris ← itemOr urlAuth "protected_uris" (.arr [])
  let aclRules ← parseJson codec site.aclRulesJson
  let hotlinkExtensions ← parseJson codec site.hotlinkExtensionsJson
  let hotlinkAllowedHosts ← parseJson codec site.hotlinkAllowedHostsJson
  let redirectRules ← parseJson codec site.redirectRulesJson
  return .ofFields
    [("id", .int site.id), ("name", .str site.name), ("enabled", .bool site.enabled),
      ("domains", strings site.domains), ("backend_address", .str site.backendAddress),
      ("backend_port", number site.backendPort), ("backend_protocol", .str site.backendProtocol),
      ("backend_host", .str site.backendHost), ("backend_tls_sni", .str site.backendTlsSni),
      ("backend_tls_verify_certificate", .bool site.backendTlsVerifyCertificate),
      ("backend_connect_timeout_seconds", number site.backendConnectTimeoutSeconds),
      ("backend_response_timeout_seconds", number site.backendResponseTimeoutSeconds),
      ("backend_keep_alive", .bool site.backendKeepAlive),
      ("url_auth_enabled", .bool urlAuthEnabled), ("url_auth_scope", .str urlAuthScope),
      ("url_auth_primary_key", .str urlAuthPrimaryKey),
      ("url_auth_backup_key", .str urlAuthBackupKey),
      ("url_auth_validity_seconds", .int urlAuthValiditySeconds),
      ("url_auth_protected_uris", urlAuthProtectedUris),
      ("http_enabled", .bool site.httpEnabled), ("http_port", number site.httpPort),
      ("https_enabled", .bool site.httpsEnabled), ("https_port", number site.httpsPort),
      ("force_https", .bool site.forceHttps), ("acl_rules", aclRules),
      ("rate_limit_enabled", .bool site.rateLimitEnabled),
      ("rate_limit_window_seconds", number site.rateLimitWindowSeconds),
      ("rate_limit_max_requests", number site.rateLimitMaxRequests),
      ("rate_limit_ban_seconds", number site.rateLimitBanSeconds),
      ("hotlink_enabled", .bool site.hotlinkEnabled), ("hotlink_extensions", hotlinkExtensions),
      ("hotlink_allowed_hosts", hotlinkAllowedHosts),
      ("hotlink_allow_empty_referer", .bool site.hotlinkAllowEmptyReferer),
      ("hotlink_redirect_location", .str site.hotlinkRedirectLocation),
      ("redirect_rules", redirectRules),
      ("backend_max_active_connections", number site.backendMaxActiveConnections),
      ("backend_max_queue", number site.backendMaxQueue),
      ("backend_queue_timeout_seconds", number site.backendQueueTimeoutSeconds)]

end Show

/-- The private key is not shown. -/
def certificateJson (certificate : CertificateRecord) : Json φ :=
  .ofFields [("id", .int certificate.id), ("name", .str certificate.name),
    ("enabled", .bool certificate.enabled), ("is_default", .bool certificate.isDefault),
    ("domains", strings certificate.domains), ("certificate_pem", .str certificate.certificatePem),
    ("has_private_key", .bool (certificate.privateKeyPem != ""))]

def settingsJson (settings : RuntimeSettingsRecord) : Json φ := settingsItem settings

/-! ## Probes -/

inductive BackendProtocol where
  | http
  | https
  deriving DecidableEq

structure BackendConfig where
  address : String
  port : Nat
  protocol : BackendProtocol
  host : String
  tlsSni : String
  tlsVerifyCertificate : Bool
  connectTimeoutSeconds : Nat
  deriving DecidableEq

structure BackendProbeResult (φ : Type) where
  success : Bool
  protocol : String
  remoteAddress : String
  remotePort : Nat
  latencyMs : φ
  tlsVerified : Bool
  error : String

section Probe

variable (lib : Libraries φ)

def probeProtocol (protocol : String) : Except Exception BackendProtocol :=
  if protocol = "https" then .ok .https
  else if protocol = "http" then .ok .http
  else .error (.invalidArgument "backend protocol must be http or https")

def checkProbe (backend : BackendConfig) : Except Exception BackendConfig := do
  if backend.connectTimeoutSeconds = 0 ∨ 86400 < backend.connectTimeoutSeconds then
    throw (.invalidArgument "backend connect timeout must be between 1 and 86400 seconds")
  if isAddress lib backend.address = false ∧ normalizeDomain (utf8 backend.address) = none then
    throw (.invalidArgument "backend address must be an IP address or DNS hostname")
  if backend.host ≠ "" ∧ normalizeAuthority (utf8 backend.host) = none then
    throw (.invalidArgument "invalid backend Host")
  if backend.tlsSni ≠ "" ∧ normalizeDomain (utf8 backend.tlsSni) = none then
    throw (.invalidArgument "invalid backend TLS SNI")
  if backend.protocol = .http ∧ backend.tlsSni ≠ "" then
    throw (.invalidArgument "backend TLS SNI requires HTTPS protocol")
  return backend

def parseBackendProbe (payload : Json φ) : Except Exception BackendConfig := do
  let address ← requiredString payload "backend_address"
  let port ← parsePort lib.codec payload "backend_port" 0
  let protocol ← stringOr payload "backend_protocol" "http"
  let protocol ← probeProtocol (asciiToLower protocol)
  let host ← stringOr payload "backend_host" ""
  let tlsSni ← stringOr payload "backend_tls_sni" ""
  let tlsVerifyCertificate ← boolOr payload "backend_tls_verify_certificate" true
  let connectTimeoutSeconds ← parseU32 lib.codec payload "backend_connect_timeout_seconds" 5
  checkProbe lib { address, port, protocol, host, tlsSni, tlsVerifyCertificate, connectTimeoutSeconds }

end Probe

def probeJson (result : BackendProbeResult φ) : Json φ :=
  .ofFields [("success", .bool result.success), ("protocol", .str result.protocol),
    ("remote_address", .str result.remoteAddress), ("remote_port", number result.remotePort),
    ("latency_ms", .float result.latencyMs), ("tls_verified", .bool result.tlsVerified),
    ("error", .str result.error)]

end Admin
end WebServer
