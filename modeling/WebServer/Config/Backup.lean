import WebServer.Config.Service
import WebServer.Config.Validation

/-!
# WebServer.Config.Backup

The configuration as one JSON document: `export_configuration` writes it and `import_configuration`
reads it, validates every record and refuses duplicates.

* `exportConfiguration`, `decodeBackup`: the two directions.
* `checks lib`: the checks of the service, with the libraries as their only parameters.
* `decodeSite_siteFields`, `decodeSettings_settingsItem`: a record is read back as it was written.
-/

namespace WebServer
namespace Config

open Act
open SitePolicy (Parsed)

def maximumConfigurationBackupBytes : Nat := 16 * 1024 * 1024

/-! ## Export -/

section Export

variable {φ : Type}

def number (n : Nat) : Json φ := .int n

def strings (l : List String) : Json φ := .arr (l.map .str)

def siteFields (site : SiteRecord) (json : PolicyJson φ) : List (String × Json φ) :=
  [("name", .str site.name),
    ("enabled", .bool site.enabled),
    ("domains", strings site.domains),
    ("backend_address", .str site.backendAddress),
    ("backend_port", number site.backendPort),
    ("backend_protocol", .str site.backendProtocol),
    ("backend_host", .str site.backendHost),
    ("backend_tls_sni", .str site.backendTlsSni),
    ("backend_tls_verify_certificate", .bool site.backendTlsVerifyCertificate),
    ("backend_connect_timeout_seconds", number site.backendConnectTimeoutSeconds),
    ("backend_response_timeout_seconds", number site.backendResponseTimeoutSeconds),
    ("backend_keep_alive", .bool site.backendKeepAlive),
    ("url_auth", json.urlAuth),
    ("http_enabled", .bool site.httpEnabled),
    ("http_port", number site.httpPort),
    ("https_enabled", .bool site.httpsEnabled),
    ("https_port", number site.httpsPort),
    ("force_https", .bool site.forceHttps),
    ("acl_rules", json.acl),
    ("rate_limit_enabled", .bool site.rateLimitEnabled),
    ("rate_limit_window_seconds", number site.rateLimitWindowSeconds),
    ("rate_limit_max_requests", number site.rateLimitMaxRequests),
    ("rate_limit_ban_seconds", number site.rateLimitBanSeconds),
    ("hotlink_enabled", .bool site.hotlinkEnabled),
    ("hotlink_extensions", json.extensions),
    ("hotlink_allowed_hosts", json.allowedHosts),
    ("hotlink_allow_empty_referer", .bool site.hotlinkAllowEmptyReferer),
    ("hotlink_redirect_location", .str site.hotlinkRedirectLocation),
    ("redirect_rules", json.redirects),
    ("backend_max_active_connections", number site.backendMaxActiveConnections),
    ("backend_max_queue", number site.backendMaxQueue),
    ("backend_queue_timeout_seconds", number site.backendQueueTimeoutSeconds)]

def siteItem (codec : Codec φ) (site : SiteRecord) : Except Error (Json φ) := do
  let urlAuth ← codec.parse site.urlAuthJson
  let acl ← codec.parse site.aclRulesJson
  let extensions ← codec.parse site.hotlinkExtensionsJson
  let allowedHosts ← codec.parse site.hotlinkAllowedHostsJson
  let redirects ← codec.parse site.redirectRulesJson
  return .ofFields (siteFields site ⟨acl, redirects, extensions, allowedHosts, urlAuth⟩)

def certificateFields (certificate : CertificateRecord) : List (String × Json φ) :=
  [("name", .str certificate.name),
    ("enabled", .bool certificate.enabled),
    ("is_default", .bool certificate.isDefault),
    ("domains", strings certificate.domains),
    ("certificate_pem", .str certificate.certificatePem),
    ("private_key_pem", .str certificate.privateKeyPem)]

def certificateItem (certificate : CertificateRecord) : Json φ :=
  .ofFields (certificateFields certificate)

def settingsFields (settings : RuntimeSettingsRecord) : List (String × Json φ) :=
  [("trusted_proxy_cidrs", strings settings.trustedProxyCidrs),
    ("real_ip_headers", strings settings.realIpHeaders),
    ("max_upload_bytes", number settings.maxUploadBytes),
    ("backend_keep_alive", .bool settings.backendKeepAlive),
    ("backend_pool_size", number settings.backendPoolSize),
    ("client_header_timeout_seconds", number settings.clientHeaderTimeoutSeconds),
    ("client_body_timeout_seconds", number settings.clientBodyTimeoutSeconds),
    ("client_write_timeout_seconds", number settings.clientWriteTimeoutSeconds),
    ("backend_connect_timeout_seconds", number settings.backendConnectTimeoutSeconds),
    ("backend_response_timeout_seconds", number settings.backendResponseTimeoutSeconds),
    ("backend_idle_timeout_seconds", number settings.backendIdleTimeoutSeconds),
    ("backend_idle_connection_ttl_seconds", number settings.backendIdleConnectionTtlSeconds)]

def settingsItem (settings : RuntimeSettingsRecord) : Json φ := .ofFields (settingsFields settings)

/-- `exportedAt` is the time of day in seconds. -/
def documentFields (exportedAt : Int64) (revision : Nat) (siteItems : List (Json φ))
    (certificates : List CertificateRecord) (settings : RuntimeSettingsRecord) :
    List (String × Json φ) :=
  [("format", .str "webserver-config-backup"),
    ("version", .int 1),
    ("exported_at_unix", .int exportedAt.toInt),
    ("config_revision", number revision),
    ("sites", .arr siteItems),
    ("certificates", .arr (certificates.map certificateItem)),
    ("settings", settingsItem settings)]

def exportConfiguration (codec : Codec φ) (io : Sqlite) (now : Int64) : Service String := do
  let sites ← onDatabase (listSites io)
  let siteItems ← attempt (sites.mapM (siteItem codec))
  let certificates ← onDatabase (listCertificates io)
  let settings ← onDatabase (runtimeSettings io)
  let revision ← onDatabase (configRevision io)
  let encoded := codec.dumpIndented
    (.ofFields (documentFields now revision siteItems certificates settings))
  require (encoded.utf8ByteSize ≤ maximumConfigurationBackupBytes)
    "configuration backup exceeds the 16 MiB import limit"
  pure encoded

end Export

/-! ## Import -/

section Import

variable {φ : Type} (codec : Codec φ)

def foundU32 (key : String) (found : Json φ) : Except Error Nat := do
  let value ← found.getInt64 codec.truncate
  if value < 0 ∨ 2 ^ 32 ≤ value then
    throw ("configuration backup numeric value is out of range: " ++ key)
  return value.toNat

def backupU32 (item : Json φ) (key : String) (fallback : Nat) : Except Error Nat :=
  match item.find? key with
  | none => .ok fallback
  | some found => foundU32 codec key found

def backupPort (item : Json φ) (key : String) (fallback : Nat) : Except Error Nat := do
  let value ← backupU32 codec item key fallback
  if value = 0 ∨ 65535 < value then
    throw ("configuration backup port is out of range: " ++ key)
  return value

/-- The JSON that a site has when the backup does not say. -/
def defaultUrlAuth : Json φ :=
  .ofFields [("enabled", .bool false), ("scope", .str "all"), ("primary_key", .str ""),
    ("backup_key", .str ""), ("validity_seconds", .int 1800), ("protected_uris", .arr [])]

def jsonOr (item : Json φ) (key : String) (fallback : Json φ) : Except Error String := do
  let v ← item.value .ok key fallback
  return codec.dump v

def decodeSite (item : Json φ) : Except Error SiteRecord := do
  if !item.isObject then throw "configuration backup site entries must be objects"
  let name ← item.field "name" >>= Json.getString
  let enabled ← item.value Json.getBool "enabled" true
  let domains ← item.field "domains" >>= Json.getStrings
  let backendAddress ← item.field "backend_address" >>= Json.getString
  let backendPort ← backupPort codec item "backend_port" 0
  let backendProtocol ← item.value Json.getString "backend_protocol" "http"
  let backendHost ← item.value Json.getString "backend_host" ""
  let backendTlsSni ← item.value Json.getString "backend_tls_sni" ""
  let backendTlsVerifyCertificate ← item.value Json.getBool "backend_tls_verify_certificate" true
  let backendConnectTimeoutSeconds ← backupU32 codec item "backend_connect_timeout_seconds" 5
  let backendResponseTimeoutSeconds ← backupU32 codec item "backend_response_timeout_seconds" 60
  let backendKeepAlive ← item.value Json.getBool "backend_keep_alive" true
  let urlAuthJson ← jsonOr codec item "url_auth" defaultUrlAuth
  let httpEnabled ← item.value Json.getBool "http_enabled" true
  let httpPort ← backupPort codec item "http_port" 80
  let httpsEnabled ← item.value Json.getBool "https_enabled" false
  let httpsPort ← backupPort codec item "https_port" 443
  let forceHttps ← item.value Json.getBool "force_https" false
  let aclRulesJson ← jsonOr codec item "acl_rules" (.arr [])
  let rateLimitEnabled ← item.value Json.getBool "rate_limit_enabled" false
  let rateLimitWindowSeconds ← backupU32 codec item "rate_limit_window_seconds" 10
  let rateLimitMaxRequests ← backupU32 codec item "rate_limit_max_requests" 100
  let rateLimitBanSeconds ← backupU32 codec item "rate_limit_ban_seconds" 60
  let hotlinkEnabled ← item.value Json.getBool "hotlink_enabled" false
  let hotlinkExtensionsJson ← jsonOr codec item "hotlink_extensions"
    (strings ["jpg", "jpeg", "png", "gif", "webp", "mp4", "zip"])
  let hotlinkAllowedHostsJson ← jsonOr codec item "hotlink_allowed_hosts" (.arr [])
  let hotlinkAllowEmptyReferer ← item.value Json.getBool "hotlink_allow_empty_referer" true
  let hotlinkRedirectLocation ← item.value Json.getString "hotlink_redirect_location" ""
  let redirectRulesJson ← jsonOr codec item "redirect_rules" (.arr [])
  let backendMaxActiveConnections ← backupU32 codec item "backend_max_active_connections" 200
  let backendMaxQueue ← backupU32 codec item "backend_max_queue" 1000
  let backendQueueTimeoutSeconds ← backupU32 codec item "backend_queue_timeout_seconds" 5
  return {
    name, enabled, domains, backendAddress, backendPort, backendProtocol, backendHost,
    backendTlsSni, backendTlsVerifyCertificate, backendConnectTimeoutSeconds,
    backendResponseTimeoutSeconds, backendKeepAlive, urlAuthJson, httpEnabled, httpPort,
    httpsEnabled, httpsPort, forceHttps, aclRulesJson, rateLimitEnabled, rateLimitWindowSeconds,
    rateLimitMaxRequests, rateLimitBanSeconds, hotlinkEnabled, hotlinkExtensionsJson,
    hotlinkAllowedHostsJson, hotlinkAllowEmptyReferer, hotlinkRedirectLocation, redirectRulesJson,
    backendMaxActiveConnections, backendMaxQueue, backendQueueTimeoutSeconds }

def decodeSettings (item : Json φ) : Except Error RuntimeSettingsRecord := do
  if !item.isObject then throw "configuration backup settings must be an object"
  let trustedProxyCidrs ← item.value Json.getStrings "trusted_proxy_cidrs" []
  let realIpHeaders ← item.value Json.getStrings "real_ip_headers"
    ["EO-Connecting-IP", "CF-Connecting-IP", "True-Client-IP", "X-Forwarded-For"]
  let maxUploadBytes ← item.value (Json.getUInt64 codec.truncate) "max_upload_bytes"
    (64 * 1024 * 1024)
  let backendKeepAlive ← item.value Json.getBool "backend_keep_alive" true
  let backendPoolSize ← backupU32 codec item "backend_pool_size" 32
  let clientHeaderTimeoutSeconds ← backupU32 codec item "client_header_timeout_seconds" 15
  let clientBodyTimeoutSeconds ← backupU32 codec item "client_body_timeout_seconds" 120
  let clientWriteTimeoutSeconds ← backupU32 codec item "client_write_timeout_seconds" 60
  let backendConnectTimeoutSeconds ← backupU32 codec item "backend_connect_timeout_seconds" 5
  let backendResponseTimeoutSeconds ← backupU32 codec item "backend_response_timeout_seconds" 60
  let backendIdleTimeoutSeconds ← backupU32 codec item "backend_idle_timeout_seconds" 60
  let backendIdleConnectionTtlSeconds ←
    backupU32 codec item "backend_idle_connection_ttl_seconds" 60
  return {
    trustedProxyCidrs, realIpHeaders, maxUploadBytes, backendKeepAlive, backendPoolSize,
    clientHeaderTimeoutSeconds, clientBodyTimeoutSeconds, clientWriteTimeoutSeconds,
    backendConnectTimeoutSeconds, backendResponseTimeoutSeconds, backendIdleTimeoutSeconds,
    backendIdleConnectionTtlSeconds }

end Import

section Decoder

variable {φ : Type} (lib : Libraries φ)

/-- `global_domains.emplace(domain).second` -/
def addGlobalDomain (domains : List String) (domain : String) : Except Error (List String) :=
  if domain ∈ domains then
    .error ("duplicate site domain in configuration backup: " ++ domain)
  else .ok (domains ++ [domain])

structure ImportedSites where
  sites : List SiteRecord
  globalDomains : List String

def importSite (imported : ImportedSites) (item : Json φ) : Except Error ImportedSites := do
  let site ← decodeSite lib.codec item
  let site ← validateAndNormalize lib site
  let globalDomains ← site.domains.foldlM addGlobalDomain imported.globalDomains
  return ⟨imported.sites ++ [site], globalDomains⟩

structure ImportedCertificates where
  certificates : List CertificateRecord
  names : List String
  defaultCount : Nat

def importCertificate (imported : ImportedCertificates) (item : Json φ) :
    Except Error ImportedCertificates := do
  if !item.isObject then throw "configuration backup certificate entries must be objects"
  let name ← item.field "name" >>= Json.getString
  let enabled ← item.value Json.getBool "enabled" true
  let isDefault ← item.value Json.getBool "is_default" false
  let defaultCount := if isDefault then imported.defaultCount + 1 else imported.defaultCount
  if isDefault = true ∧ 1 < defaultCount then
    throw "configuration backup contains multiple default TLS certificates"
  let domains ← item.field "domains" >>= Json.getStrings
  let certificatePem ← item.field "certificate_pem" >>= Json.getString
  let privateKeyPem ← item.field "private_key_pem" >>= Json.getString
  let certificate ← validateAndNormalizeCertificate lib
    { name, enabled, isDefault, domains, certificatePem, privateKeyPem }
  if certificate.name ∈ imported.names then
    throw ("duplicate TLS certificate name: " ++ certificate.name)
  return ⟨imported.certificates ++ [certificate], imported.names ++ [certificate.name], defaultCount⟩

def maximumSites : Nat := 10000

def maximumCertificates : Nat := 1000

/-- The part of `import_configuration` before it takes the lock. -/
def decodeBackup (encoded : String) : Except Error Backup := do
  if encoded = "" ∨ maximumConfigurationBackupBytes < encoded.utf8ByteSize then
    throw "configuration backup must be between 1 byte and 16 MiB"
  let source ← lib.codec.parse encoded
  if !source.isObject then throw "unsupported configuration backup format or version"
  let format ← source.value Json.getString "format" ""
  if format ≠ "webserver-config-backup" then
    throw "unsupported configuration backup format or version"
  let version ← source.value (Json.getInt lib.codec.truncate) "version" 0
  if version ≠ 1 then throw "unsupported configuration backup format or version"
  if !source.contains "sites" || !source.contains "certificates" || !source.contains "settings" then
    throw "configuration backup is missing required sections"
  let siteItems ← source.field "sites"
  let certificateItems ← source.field "certificates"
  if !siteItems.isArray ∨ maximumSites < siteItems.elements.length then
    throw "configuration backup cannot contain more than 10000 sites"
  if !certificateItems.isArray ∨ maximumCertificates < certificateItems.elements.length then
    throw "configuration backup cannot contain more than 1000 certificates"
  let sites ← siteItems.elements.foldlM (importSite lib) ⟨[], []⟩
  let certificates ← certificateItems.elements.foldlM (importCertificate lib) ⟨[], [], 0⟩
  let settings ← source.field "settings" >>= decodeSettings lib.codec
  let settings ← validateRuntimeSettings lib settings
  return ⟨sites.sites, certificates.certificates, settings⟩

/-- The checks of the service. -/
def checks : Checks :=
  runtimeChecks
    { validateAndNormalize := validateAndNormalize lib
      validateAndNormalizeCertificate := validateAndNormalizeCertificate lib
      validateRuntimeSettings := validateRuntimeSettings lib
      decodeBackup := decodeBackup lib
      clientIpResolver := clientIpResolver lib
      virtualHostRouter := fun _ => .ok ()
      tlsContexts := fun _ => .ok () }
    (checkVirtualHost lib) lib.openssl

end Decoder

/-! ## Records are read back -/

/-- Ids are not written. -/
def SiteRecord.withoutId (site : SiteRecord) : SiteRecord := { site with id := 0 }

def CertificateRecord.withoutId (certificate : CertificateRecord) : CertificateRecord :=
  { certificate with id := 0 }

section Read

variable {φ : Type} {codec : Codec φ} {site : SiteRecord} {json : PolicyJson φ} {item : Json φ}

theorem siteFields_nodup (site : SiteRecord) (json : PolicyJson φ) :
    ((siteFields site json).map Prod.fst).Nodup := by
  have hkeys : (siteFields site json).map Prod.fst =
      (siteFields {} ⟨.null, .null, .null, .null, .null⟩ : List (String × Json Unit)).map Prod.fst :=
    rfl
  rw [hkeys]
  decide

theorem getInt64_number {n : Nat} (h : n < 2 ^ 32) :
    (number n : Json φ).getInt64 codec.truncate = .ok (n : Int) := by
  have hn : n < 4294967296 := h
  have hmod : (n : Int).bmod (2 ^ 64) = n := Int.bmod_eq_of_le (by omega) (by omega)
  unfold Json.getInt64 number Json.getNumber
  rw [Except.map, hmod]

theorem foundU32_number {n : Nat} (h : n < 2 ^ 32) (key : String) :
    foundU32 codec key (number n) = .ok n := by
  have hrange : ¬ ((n : Int) < 0 ∨ 2 ^ 32 ≤ (n : Int)) := by omega
  refine Result.bind_ok_iff.mpr ⟨n, getInt64_number h, ?_⟩
  rw [if_neg hrange]
  rfl

/-- The numbers of a record fit into their types. -/
structure SiteRecord.Fits (site : SiteRecord) : Prop where
  backendPort : site.backendPort < 2 ^ 16
  httpPort : site.httpPort < 2 ^ 16
  httpsPort : site.httpsPort < 2 ^ 16
  backendConnectTimeoutSeconds : site.backendConnectTimeoutSeconds < 2 ^ 32
  backendResponseTimeoutSeconds : site.backendResponseTimeoutSeconds < 2 ^ 32
  rateLimitWindowSeconds : site.rateLimitWindowSeconds < 2 ^ 32
  rateLimitMaxRequests : site.rateLimitMaxRequests < 2 ^ 32
  rateLimitBanSeconds : site.rateLimitBanSeconds < 2 ^ 32
  backendMaxActiveConnections : site.backendMaxActiveConnections < 2 ^ 32
  backendMaxQueue : site.backendMaxQueue < 2 ^ 32
  backendQueueTimeoutSeconds : site.backendQueueTimeoutSeconds < 2 ^ 32

/-- A number of a record is read back. -/
theorem backupU32_number {key : String} {n fallback : Nat}
    (hfind : item.find? key = some (number n)) (h : n < 2 ^ 32) :
    backupU32 codec item key fallback = .ok n := by
  unfold backupU32
  rw [hfind]
  exact foundU32_number h key

theorem backupPort_number {key : String} {n fallback : Nat}
    (hfind : item.find? key = some (number n)) (h : n < 2 ^ 16) (hpos : n ≠ 0) :
    backupPort codec item key fallback = .ok n := by
  have hrange : ¬ (n = 0 ∨ 65535 < n) := by omega
  refine Result.bind_ok_iff.mpr ⟨n, backupU32_number hfind (by omega), ?_⟩
  rw [if_neg hrange]
  rfl

theorem jsonOr_found {key : String} {v fallback : Json φ} (hfind : item.find? key = some v) :
    jsonOr codec item key fallback = .ok (codec.dump v) := by
  unfold jsonOr
  rw [Json.value_of_find? hfind]
  rfl

/-- A site is read back with its id gone and its JSON columns dumped anew. -/
theorem decodeSite_siteFields (hfits : site.Fits) (hbackend : site.backendPort ≠ 0)
    (hhttp : site.httpPort ≠ 0) (hhttps : site.httpsPort ≠ 0) :
    decodeSite codec (.ofFields (siteFields site json)) =
      .ok (site.withoutId.withJson codec json) := by
  have hobject : (Json.ofFields (siteFields site json)).isObject = true := Json.isObject_ofFields _
  have hfind := Json.find?_ofFields (siteFields_nodup site json)
  generalize Json.ofFields (siteFields site json) = item at hobject hfind
  simp only [siteFields, List.forall_mem_cons] at hfind
  obtain ⟨hname, henabled, hdomains, haddress, hport, hprotocol, hhost, hsni, hverify, hconnect,
    hresponse, hkeepAlive, hurlAuth, hhttpEnabled, hhttpPort, hhttpsEnabled, hhttpsPort, hforce, hacl,
    hlimit, hwindow, hrequests, hban, hhotlink, hextensions, hallowed, hempty, hlocation, hredirects,
    hactive, hqueue, hqueueTimeout, -⟩ := hfind
  simp only [decodeSite, hobject, Bool.not_true, Bool.false_eq_true, if_false, Result.ok_bind,
    Json.getString_field hname, Json.getBool_value henabled, Json.getStrings_field hdomains,
    Json.getString_field haddress, backupPort_number hport hfits.backendPort hbackend,
    Json.getString_value hprotocol, Json.getString_value hhost, Json.getString_value hsni,
    Json.getBool_value hverify, backupU32_number hconnect hfits.backendConnectTimeoutSeconds,
    backupU32_number hresponse hfits.backendResponseTimeoutSeconds, Json.getBool_value hkeepAlive,
    jsonOr_found hurlAuth, Json.getBool_value hhttpEnabled,
    backupPort_number hhttpPort hfits.httpPort hhttp, Json.getBool_value hhttpsEnabled,
    backupPort_number hhttpsPort hfits.httpsPort hhttps, Json.getBool_value hforce,
    jsonOr_found hacl, Json.getBool_value hlimit,
    backupU32_number hwindow hfits.rateLimitWindowSeconds,
    backupU32_number hrequests hfits.rateLimitMaxRequests,
    backupU32_number hban hfits.rateLimitBanSeconds, Json.getBool_value hhotlink,
    jsonOr_found hextensions, jsonOr_found hallowed, Json.getBool_value hempty,
    Json.getString_value hlocation, jsonOr_found hredirects,
    backupU32_number hactive hfits.backendMaxActiveConnections,
    backupU32_number hqueue hfits.backendMaxQueue,
    backupU32_number hqueueTimeout hfits.backendQueueTimeoutSeconds]
  rfl

structure RuntimeSettingsRecord.Fits (settings : RuntimeSettingsRecord) : Prop where
  maxUploadBytes : settings.maxUploadBytes < 2 ^ 64
  backendPoolSize : settings.backendPoolSize < 2 ^ 32
  clientHeaderTimeoutSeconds : settings.clientHeaderTimeoutSeconds < 2 ^ 32
  clientBodyTimeoutSeconds : settings.clientBodyTimeoutSeconds < 2 ^ 32
  clientWriteTimeoutSeconds : settings.clientWriteTimeoutSeconds < 2 ^ 32
  backendConnectTimeoutSeconds : settings.backendConnectTimeoutSeconds < 2 ^ 32
  backendResponseTimeoutSeconds : settings.backendResponseTimeoutSeconds < 2 ^ 32
  backendIdleTimeoutSeconds : settings.backendIdleTimeoutSeconds < 2 ^ 32
  backendIdleConnectionTtlSeconds : settings.backendIdleConnectionTtlSeconds < 2 ^ 32

theorem settingsFields_nodup (settings : RuntimeSettingsRecord) :
    ((settingsFields settings : List (String × Json φ)).map Prod.fst).Nodup := by
  have hkeys : (settingsFields settings : List (String × Json φ)).map Prod.fst =
      (settingsFields {} : List (String × Json Unit)).map Prod.fst := rfl
  rw [hkeys]
  decide

theorem getUInt64_number {n : Nat} (h : n < 2 ^ 64) :
    (number n : Json φ).getUInt64 codec.truncate = .ok n := by
  have hn : n < 18446744073709551616 := h
  have hmod : ((n : Int) % 2 ^ 64).toNat = n := by omega
  unfold Json.getUInt64 number Json.getArithmetic Json.getNumber
  rw [Except.map, hmod]

theorem decodeSettings_settingsItem {settings : RuntimeSettingsRecord} (hfits : settings.Fits) :
    decodeSettings codec (settingsItem settings) = .ok settings := by
  have hobject : (settingsItem settings : Json φ).isObject = true := Json.isObject_ofFields _
  have hfind := Json.find?_ofFields (settingsFields_nodup (φ := φ) settings)
  change ∀ f ∈ settingsFields settings, (settingsItem settings : Json φ).find? f.1 = some f.2 at hfind
  generalize (settingsItem settings : Json φ) = item at hobject hfind
  simp only [settingsFields, List.forall_mem_cons] at hfind
  obtain ⟨hcidrs, hheaders, hupload, hkeepAlive, hpool, hheader, hbody, hwrite, hconnect, hresponse,
    hidle, httl, -⟩ := hfind
  simp only [decodeSettings, hobject, Bool.not_true, Bool.false_eq_true, if_false, Result.ok_bind,
    Json.getStrings_value hcidrs, Json.getStrings_value hheaders, Json.value_of_find? hupload,
    getUInt64_number hfits.maxUploadBytes, Json.getBool_value hkeepAlive,
    backupU32_number hpool hfits.backendPoolSize,
    backupU32_number hheader hfits.clientHeaderTimeoutSeconds,
    backupU32_number hbody hfits.clientBodyTimeoutSeconds,
    backupU32_number hwrite hfits.clientWriteTimeoutSeconds,
    backupU32_number hconnect hfits.backendConnectTimeoutSeconds,
    backupU32_number hresponse hfits.backendResponseTimeoutSeconds,
    backupU32_number hidle hfits.backendIdleTimeoutSeconds,
    backupU32_number httl hfits.backendIdleConnectionTtlSeconds]
  rfl

theorem certificateFields_nodup (certificate : CertificateRecord) :
    ((certificateFields certificate : List (String × Json φ)).map Prod.fst).Nodup := by
  have hkeys : (certificateFields certificate : List (String × Json φ)).map Prod.fst =
      (certificateFields {} : List (String × Json Unit)).map Prod.fst := rfl
  rw [hkeys]
  decide

/-- A certificate that is valid, has a new name and is not a second default one. -/
theorem importCertificate_certificateItem {lib : Libraries φ} {certificate : CertificateRecord}
    {imported : ImportedCertificates}
    (hvalid : validateAndNormalizeCertificate lib certificate.withoutId =
      .ok certificate.withoutId)
    (hname : certificate.name ∉ imported.names)
    (hdefault : certificate.isDefault = true → imported.defaultCount = 0) :
    importCertificate lib imported (certificateItem certificate) =
      .ok ⟨imported.certificates ++ [certificate.withoutId],
        imported.names ++ [certificate.name],
        if certificate.isDefault then imported.defaultCount + 1 else imported.defaultCount⟩ := by
  have hobject : (certificateItem certificate : Json φ).isObject = true := Json.isObject_ofFields _
  have hfind := Json.find?_ofFields (certificateFields_nodup (φ := φ) certificate)
  change ∀ f ∈ certificateFields certificate,
    (certificateItem certificate : Json φ).find? f.1 = some f.2 at hfind
  generalize (certificateItem certificate : Json φ) = item at hobject hfind
  simp only [certificateFields, List.forall_mem_cons] at hfind
  obtain ⟨hnameField, henabled, hisDefault, hdomains, hpem, hkey, -⟩ := hfind
  have hone : ¬ (certificate.isDefault = true ∧
      1 < if certificate.isDefault then imported.defaultCount + 1 else imported.defaultCount) := by
    rintro ⟨hd, hlt⟩
    rw [if_pos hd, hdefault hd] at hlt
    omega
  simp only [importCertificate, hobject, Bool.not_true, Bool.false_eq_true, if_false,
    Result.ok_bind, Json.getString_field hnameField, Json.getBool_value henabled,
    Json.getBool_value hisDefault, if_neg hone, Json.getStrings_field hdomains,
    Json.getString_field hpem, Json.getString_field hkey]
  change (validateAndNormalizeCertificate lib certificate.withoutId >>= _) = _
  rw [hvalid, Result.ok_bind, if_neg (show certificate.withoutId.name ∉ imported.names from hname)]
  rfl

end Read

/-! ## Documents are read back -/

section Documents

variable {φ : Type} {lib : Libraries φ} {site s : SiteRecord} {json : PolicyJson φ}

theorem siteItem_of_columns {codec : Codec φ} (h : ColumnsParsed codec site.columns json) :
    siteItem codec site = .ok (.ofFields (siteFields site json)) := by
  unfold siteItem
  refine Result.bind_ok_iff.mpr ⟨json.urlAuth, h.urlAuth, ?_⟩
  refine Result.bind_ok_iff.mpr ⟨json.acl, h.acl, ?_⟩
  refine Result.bind_ok_iff.mpr ⟨json.extensions, h.extensions, ?_⟩
  refine Result.bind_ok_iff.mpr ⟨json.allowedHosts, h.allowedHosts, ?_⟩
  exact Result.bind_ok_iff.mpr ⟨json.redirects, h.redirects, rfl⟩

theorem canonical_number {n : Nat} (h : n < 2 ^ 64) : (number n : Json φ).Canonical := by
  have hn : n < 18446744073709551616 := h
  exact .int (by omega) (by omega)

theorem canonical_siteFields {codec : Codec φ} {columns : Columns} (hfits : site.Fits)
    (h : ColumnsParsed codec columns json) : ∀ f ∈ siteFields site json, f.2.Canonical := by
  have h16 : ∀ {n : Nat}, n < 2 ^ 16 → (number n : Json φ).Canonical := fun h =>
    canonical_number (by omega)
  have h32 : ∀ {n : Nat}, n < 2 ^ 32 → (number n : Json φ).Canonical := fun h =>
    canonical_number (by omega)
  simp only [siteFields, List.forall_mem_cons]
  exact ⟨.str, .bool, Json.canonical_strings _, .str, h16 hfits.backendPort, .str, .str, .str, .bool,
    h32 hfits.backendConnectTimeoutSeconds, h32 hfits.backendResponseTimeoutSeconds, .bool,
    codec.parse_canonical h.urlAuth, .bool, h16 hfits.httpPort, .bool, h16 hfits.httpsPort, .bool,
    codec.parse_canonical h.acl, .bool, h32 hfits.rateLimitWindowSeconds,
    h32 hfits.rateLimitMaxRequests, h32 hfits.rateLimitBanSeconds, .bool,
    codec.parse_canonical h.extensions, codec.parse_canonical h.allowedHosts, .bool, .str,
    codec.parse_canonical h.redirects, h32 hfits.backendMaxActiveConnections,
    h32 hfits.backendMaxQueue, h32 hfits.backendQueueTimeoutSeconds, by simp⟩

/-- A stored site that can be written and is accepted when it is read back. -/
structure SiteRecord.Exportable (lib : Libraries φ) (site : SiteRecord) : Prop where
  fits : site.Fits
  normal : site.names.Normal lib
  httpPort : site.httpPort ≠ 0
  httpsPort : site.httpsPort ≠ 0

theorem addGlobalDomains_ok {domains before : List String} (h : (before ++ domains).Nodup) :
    domains.foldlM addGlobalDomain before = .ok (before ++ domains) := by
  induction domains generalizing before with
  | nil => simp [pure, Except.pure]
  | cons d domains ih =>
    have hnew : d ∉ before := fun hd =>
      List.disjoint_of_nodup_append h hd (by simp)
    rw [List.foldlM_cons, addGlobalDomain, if_neg hnew, Result.ok_bind, ih (by simpa using h)]
    simp

theorem backendPort_ne_zero (h : validateAndNormalize lib site = .ok s) : site.backendPort ≠ 0 := by
  obtain ⟨names, json, h⟩ := validate_ok_iff.mp h
  have hfields := h.fields
  unfold checkSite at hfields
  obtain ⟨-, hfields⟩ := Result.guard_ok hfields
  obtain ⟨-, hfields⟩ := Result.guard_ok hfields
  exact (Result.guard_ok hfields).1

theorem importSite_siteItem (hsite : site.Exportable lib)
    (hvalid : validateAndNormalize lib site = .ok s) :
    ∃ item, siteItem lib.codec site = .ok item ∧ item.Canonical ∧
      ∀ imported : ImportedSites, (imported.globalDomains ++ s.domains).Nodup →
        importSite lib imported item = .ok
          ⟨imported.sites ++ [s.withoutId], imported.globalDomains ++ s.domains⟩ := by
  obtain ⟨json, hjson, hs⟩ :=
    canonicalizeJson_ok_iff.mp (validate_eq_canonicalizeJson hsite.normal hvalid)
  refine ⟨_, siteItem_of_columns hjson, Json.canonical_ofFields (canonical_siteFields hsite.fits hjson),
    fun imported hnodup => ?_⟩
  have hdecoded : decodeSite lib.codec (.ofFields (siteFields site json)) =
      .ok s.withoutId := by
    rw [decodeSite_siteFields hsite.fits (backendPort_ne_zero hvalid) hsite.httpPort hsite.httpsPort, hs]
    rfl
  have hagain : validateAndNormalize lib s.withoutId = .ok s.withoutId :=
    validate_withId (validate_canonical hsite.normal hvalid) 0
  refine Result.bind_ok_iff.mpr ⟨_, hdecoded, Result.bind_ok_iff.mpr ⟨_, hagain, ?_⟩⟩
  exact Result.bind_ok_iff.mpr ⟨_, addGlobalDomains_ok hnodup, rfl⟩

/-- The sites of a document are read back, in their normal form and without ids. -/
theorem importSites_siteItems {sites normalized : List SiteRecord}
    (hsites : ∀ site ∈ sites, site.Exportable lib)
    (hvalid : sites.mapM (validateAndNormalize lib) = .ok normalized) :
    ∃ items, sites.mapM (siteItem lib.codec) = .ok items ∧ items.length = sites.length ∧
      (∀ item ∈ items, item.Canonical) ∧
      ∀ imported : ImportedSites,
        (imported.globalDomains ++ normalized.flatMap (·.domains)).Nodup →
        items.foldlM (importSite lib) imported = .ok
          ⟨imported.sites ++ normalized.map (·.withoutId),
            imported.globalDomains ++ normalized.flatMap (·.domains)⟩ := by
  induction sites generalizing normalized with
  | nil =>
    cases hvalid
    exact ⟨[], rfl, rfl, by simp, fun imported _ => by simp [pure, Except.pure]⟩
  | cons site sites ih =>
    rw [List.mapM_cons] at hvalid
    obtain ⟨s, hs, hvalid⟩ := Result.bind_ok hvalid
    obtain ⟨rest, hrest, hvalid⟩ := Result.bind_ok hvalid
    cases hvalid
    obtain ⟨items, hitems, hlength, hcanonical, himport⟩ := ih (fun s hs => hsites s (by simp [hs])) hrest
    obtain ⟨item, hitem, hcanonical', himport'⟩ := importSite_siteItem (hsites site (by simp)) hs
    refine ⟨item :: items, ?_, by simp [hlength], ?_, fun imported hnodup => ?_⟩
    · rw [List.mapM_cons, hitem, hitems]
      rfl
    · simpa using ⟨hcanonical', hcanonical⟩
    · rw [List.flatMap_cons, ← List.append_assoc] at hnodup
      rw [List.foldlM_cons, himport' imported (hnodup.sublist (List.sublist_append_left _ _)),
        Result.ok_bind, himport _ hnodup]
      simp

/-- The certificates of a document are read back without ids. -/
theorem importCertificates_certificateItems {certificates : List CertificateRecord}
    (hvalid : ∀ c ∈ certificates, validateAndNormalizeCertificate lib c.withoutId =
      .ok c.withoutId)
    (imported : ImportedCertificates)
    (hnames : (imported.names ++ certificates.map (·.name)).Nodup)
    (hdefault : imported.defaultCount + certificates.countP (·.isDefault) ≤ 1) :
    ∃ names count, (certificates.map certificateItem).foldlM (importCertificate lib) imported =
      .ok ⟨imported.certificates ++ certificates.map (·.withoutId), names, count⟩ := by
  induction certificates generalizing imported with
  | nil => exact ⟨imported.names, imported.defaultCount, by simp [pure, Except.pure]⟩
  | cons c certificates ih =>
    have hnew : c.name ∉ imported.names := fun hc =>
      List.disjoint_of_nodup_append hnames hc (by simp)
    rw [List.countP_cons] at hdefault
    have hone : c.isDefault = true → imported.defaultCount = 0 := by
      intro hc
      rw [if_pos hc] at hdefault
      omega
    have hdefault' : (if c.isDefault then imported.defaultCount + 1 else imported.defaultCount) +
        certificates.countP (·.isDefault) ≤ 1 := by
      split at hdefault
      · rename_i hc; rw [if_pos hc]; omega
      · rename_i hc; rw [if_neg hc]; omega
    obtain ⟨names, count, hrest⟩ := ih (fun d hd => hvalid d (by simp [hd]))
      ⟨imported.certificates ++ [c.withoutId], imported.names ++ [c.name],
        if c.isDefault then imported.defaultCount + 1 else imported.defaultCount⟩
      (by simpa using hnames) hdefault'
    refine ⟨names, count, ?_⟩
    rw [List.map_cons, List.foldlM_cons,
      importCertificate_certificateItem (hvalid c (by simp)) hnew hone, Result.ok_bind, hrest]
    simp

theorem canonical_certificateItem (certificate : CertificateRecord) :
    (certificateItem certificate : Json φ).Canonical := by
  refine Json.canonical_ofFields ?_
  simp only [certificateFields, List.forall_mem_cons]
  exact ⟨.str, .bool, .bool, Json.canonical_strings _, .str, .str, by simp⟩

theorem canonical_settingsItem {settings : RuntimeSettingsRecord} (hfits : settings.Fits) :
    (settingsItem settings : Json φ).Canonical := by
  have h32 : ∀ {n : Nat}, n < 2 ^ 32 → (number n : Json φ).Canonical := fun h =>
    canonical_number (by omega)
  refine Json.canonical_ofFields ?_
  simp only [settingsFields, List.forall_mem_cons]
  exact ⟨Json.canonical_strings _, Json.canonical_strings _, canonical_number hfits.maxUploadBytes,
    .bool, h32 hfits.backendPoolSize, h32 hfits.clientHeaderTimeoutSeconds,
    h32 hfits.clientBodyTimeoutSeconds, h32 hfits.clientWriteTimeoutSeconds,
    h32 hfits.backendConnectTimeoutSeconds, h32 hfits.backendResponseTimeoutSeconds,
    h32 hfits.backendIdleTimeoutSeconds, h32 hfits.backendIdleConnectionTtlSeconds, by simp⟩

/-- What is written into one document. -/
structure Contents where
  exportedAt : Int64
  revision : Nat
  sites : List SiteRecord
  certificates : List CertificateRecord
  settings : RuntimeSettingsRecord

/-- The records can be written, and are accepted when they are read back: `normalized` are the sites
then. -/
structure Contents.Exportable (lib : Libraries φ) (c : Contents) (normalized : List SiteRecord) :
    Prop where
  revision : c.revision < 2 ^ 64
  sites : ∀ site ∈ c.sites, site.Exportable lib
  valid : c.sites.mapM (validateAndNormalize lib) = .ok normalized
  domains : (normalized.flatMap (·.domains)).Nodup
  certificates : ∀ d ∈ c.certificates,
    validateAndNormalizeCertificate lib d.withoutId = .ok d.withoutId
  names : (c.certificates.map (·.name)).Nodup
  oneDefault : c.certificates.countP (·.isDefault) ≤ 1
  settings : c.settings.Fits
  settingsValid : validateRuntimeSettings lib c.settings = .ok c.settings

def Contents.document (c : Contents) (siteItems : List (Json φ)) : Json φ :=
  .ofFields (documentFields c.exportedAt c.revision siteItems c.certificates c.settings)

theorem documentFields_nodup (c : Contents) (siteItems : List (Json φ)) :
    ((documentFields c.exportedAt c.revision siteItems c.certificates c.settings).map
      Prod.fst).Nodup := by
  have hkeys : (documentFields c.exportedAt c.revision siteItems c.certificates c.settings).map
      Prod.fst = (documentFields 0 0 [] [] {} : List (String × Json Unit)).map Prod.fst := rfl
  rw [hkeys]
  decide

theorem canonical_document {c : Contents} {siteItems : List (Json φ)} (hrevision : c.revision < 2 ^ 64)
    (hsettings : c.settings.Fits) (h : ∀ item ∈ siteItems, item.Canonical) :
    (c.document siteItems).Canonical := by
  have hnow := c.exportedAt.toInt_lt
  have hnow' := c.exportedAt.le_toInt
  refine Json.canonical_ofFields ?_
  simp only [documentFields, List.forall_mem_cons]
  refine ⟨.str, .int (by decide) (by decide), .int (by omega) (by omega), canonical_number hrevision,
    .arr h, .arr fun v hv => ?_, canonical_settingsItem hsettings, by simp⟩
  obtain ⟨certificate, -, rfl⟩ := List.mem_map.mp hv
  exact canonical_certificateItem certificate

/-- A document within the limits of the import is read back; one outside them is refused. -/
theorem decodeBackup_document {c : Contents} {normalized : List SiteRecord}
    (h : c.Exportable lib normalized) {siteItems : List (Json φ)}
    (hitems : c.sites.mapM (siteItem lib.codec) = .ok siteItems)
    (hsize : (lib.codec.dumpIndented (c.document siteItems)).utf8ByteSize ≤
      maximumConfigurationBackupBytes) :
    decodeBackup lib (lib.codec.dumpIndented (c.document siteItems)) =
      if maximumSites < c.sites.length then
        .error "configuration backup cannot contain more than 10000 sites"
      else if maximumCertificates < c.certificates.length then
        .error "configuration backup cannot contain more than 1000 certificates"
      else .ok ⟨normalized.map (·.withoutId), c.certificates.map (·.withoutId),
        c.settings⟩ := by
  obtain ⟨items, hitems', hlength, hcanonical, himport⟩ := importSites_siteItems h.sites h.valid
  rw [hitems, Except.ok.injEq] at hitems'
  subst hitems'
  have hparse := lib.codec.parse_dumpIndented (canonical_document h.revision h.settings hcanonical)
  have hne : lib.codec.dumpIndented (c.document siteItems) ≠ "" := fun hempty =>
    lib.codec.parse_empty _ (hempty ▸ hparse)
  have hobject : (c.document siteItems).isObject = true := Json.isObject_ofFields _
  have hfind : ∀ f ∈ documentFields c.exportedAt c.revision siteItems c.certificates c.settings,
      (c.document siteItems).find? f.1 = some f.2 := Json.find?_ofFields (documentFields_nodup c siteItems)
  generalize c.document siteItems = doc at hparse hne hobject hfind hsize ⊢
  simp only [documentFields, List.forall_mem_cons] at hfind
  obtain ⟨hformat, hversion, -, -, hsites, hcertificates, hsettings, -⟩ := hfind
  have hone : (doc.value (Json.getInt lib.codec.truncate) "version" 0) = .ok 1 :=
    Json.value_of_find? hversion
  have hcontains : doc.contains "sites" = true ∧ doc.contains "certificates" = true ∧
      doc.contains "settings" = true := by
    simp only [Json.contains, hsites, hcertificates, hsettings, Option.isSome_some, and_self]
  obtain ⟨names, count, hcertificates'⟩ := importCertificates_certificateItems
    h.certificates ⟨[], [], 0⟩ (by simpa using h.names) (by simpa using h.oneDefault)
  have hsites' := himport ⟨[], []⟩ (by simpa using h.domains)
  unfold decodeBackup
  rw [if_neg (by simp [hne, hsize]), hparse, Result.ok_bind]
  simp only [hobject, Bool.not_true, Bool.false_eq_true, if_false, Json.getString_value hformat, Result.ok_bind,
    ne_eq, not_true_eq_false, hone, hcontains, Bool.or_self, Json.field_of_find? hsites, Json.field_of_find? hcertificates,
    Json.field_of_find? hsettings, Json.isArray, Json.elements, false_or, hlength, List.length_map]
  split
  · rfl
  split
  · rfl
  · rw [hsites', Result.ok_bind, hcertificates', Result.ok_bind,
      decodeSettings_settingsItem h.settings, Result.ok_bind, h.settingsValid]
    rfl

/-- Every record of a backup has passed its validator. -/
theorem decodeBackup_ok {encoded : String} {backup : Backup}
    (h : decodeBackup lib encoded = .ok backup) :
    (∀ s ∈ backup.sites, ∃ item site, decodeSite lib.codec item = .ok site ∧
      validateAndNormalize lib site = .ok s) ∧
      ∀ c ∈ backup.certificates, ∃ certificate,
        validateAndNormalizeCertificate lib certificate = .ok c := by
  unfold decodeBackup at h
  obtain ⟨-, h⟩ := Result.guard_ok h
  obtain ⟨source, -, h⟩ := Result.bind_ok h
  obtain ⟨-, h⟩ := Result.guard_ok h
  obtain ⟨format, -, h⟩ := Result.bind_ok h
  obtain ⟨-, h⟩ := Result.guard_ok h
  obtain ⟨version, -, h⟩ := Result.bind_ok h
  obtain ⟨-, h⟩ := Result.guard_ok h
  obtain ⟨-, h⟩ := Result.guard_ok h
  obtain ⟨siteItems, -, h⟩ := Result.bind_ok h
  obtain ⟨certificateItems, -, h⟩ := Result.bind_ok h
  obtain ⟨-, h⟩ := Result.guard_ok h
  obtain ⟨-, h⟩ := Result.guard_ok h
  obtain ⟨sites, hsites, h⟩ := Result.bind_ok h
  obtain ⟨certificates, hcertificates, h⟩ := Result.bind_ok h
  obtain ⟨settings, -, h⟩ := Result.bind_ok h
  obtain ⟨settings', -, h⟩ := Result.bind_ok h
  cases h
  constructor
  · refine Result.foldlM_ok (P := fun imported : ImportedSites => ∀ s ∈ imported.sites, ∃ item site,
      decodeSite lib.codec item = .ok site ∧ validateAndNormalize lib site = .ok s)
      (fun imported item imported' _ hall hitem => ?_) (by simp) hsites
    obtain ⟨site, hsite, hitem⟩ := Result.bind_ok hitem
    obtain ⟨s, hs, hitem⟩ := Result.bind_ok hitem
    obtain ⟨domains, -, hitem⟩ := Result.bind_ok hitem
    cases hitem
    intro t ht
    rcases List.mem_append.mp ht with ht | ht
    · exact hall t ht
    · rw [List.mem_singleton.mp ht]
      exact ⟨item, site, hsite, hs⟩
  · refine Result.foldlM_ok (P := fun imported : ImportedCertificates =>
      ∀ c ∈ imported.certificates, ∃ certificate,
        validateAndNormalizeCertificate lib certificate = .ok c)
      (fun imported item imported' _ hall hitem => ?_) (by simp) hcertificates
    unfold importCertificate at hitem
    obtain ⟨-, hitem⟩ := Result.guard_ok hitem
    obtain ⟨_, -, hitem⟩ := Result.bind_ok hitem
    obtain ⟨_, -, hitem⟩ := Result.bind_ok hitem
    obtain ⟨_, -, hitem⟩ := Result.bind_ok hitem
    obtain ⟨-, hitem⟩ := Result.guard_ok hitem
    obtain ⟨_, -, hitem⟩ := Result.bind_ok hitem
    obtain ⟨_, -, hitem⟩ := Result.bind_ok hitem
    obtain ⟨_, -, hitem⟩ := Result.bind_ok hitem
    obtain ⟨c, hc, hitem⟩ := Result.bind_ok hitem
    obtain ⟨-, hitem⟩ := Result.guard_ok hitem
    cases hitem
    intro d hd
    rcases List.mem_append.mp hd with hd | hd
    · exact hall d hd
    · rw [List.mem_singleton.mp hd]
      exact ⟨_, hc⟩

end Documents

end Config
end WebServer
