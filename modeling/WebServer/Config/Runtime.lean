import Mathlib.Data.List.Sort
import Mathlib.Data.List.Dedup

/-!
# WebServer.Config.Runtime

The stored records, and the runtime configuration that is built from them.

* `SiteRecord`, `CertificateRecord`, `RuntimeSettingsRecord`: the rows of the database.
* `buildRuntimeSpec`: `ConfigService::build_runtime_spec`, the candidate for a set of records.
* `buildRuntimeConfig`: `RuntimeConfig::RuntimeConfig`, which checks the candidate and derives the
  ports to listen on.

The checks that rest on JSON, on IP addresses, on TLS or on the policy compiler are gathered in
`Checks`. What a `RuntimeSiteConfig` holds of its backend, its policy and its URL authentication
depends on the site record alone, and is represented by that record.
-/

namespace WebServer
namespace Config

abbrev Error := String

/-! ## Records -/

structure SiteRecord where
  id : Int := 0
  name : String := ""
  enabled : Bool := true
  domains : List String := []
  backendAddress : String := ""
  backendPort : Nat := 0
  backendProtocol : String := "http"
  backendHost : String := ""
  backendTlsSni : String := ""
  backendTlsVerifyCertificate : Bool := true
  backendConnectTimeoutSeconds : Nat := 5
  backendResponseTimeoutSeconds : Nat := 60
  backendKeepAlive : Bool := true
  urlAuthJson : String :=
    "\x7b\"enabled\":false,\"scope\":\"all\",\"primary_key\":\"\",\"backup_key\":\"\"," ++
      "\"validity_seconds\":1800,\"protected_uris\":[]\x7d"
  httpEnabled : Bool := true
  httpPort : Nat := 80
  httpsEnabled : Bool := false
  httpsPort : Nat := 443
  forceHttps : Bool := false
  aclRulesJson : String := "[]"
  rateLimitEnabled : Bool := false
  rateLimitWindowSeconds : Nat := 10
  rateLimitMaxRequests : Nat := 100
  rateLimitBanSeconds : Nat := 60
  hotlinkEnabled : Bool := false
  hotlinkExtensionsJson : String :=
    "[\"jpg\",\"jpeg\",\"png\",\"gif\",\"webp\",\"mp4\",\"zip\"]"
  hotlinkAllowedHostsJson : String := "[]"
  hotlinkAllowEmptyReferer : Bool := true
  hotlinkRedirectLocation : String := ""
  redirectRulesJson : String := "[]"
  backendMaxActiveConnections : Nat := 200
  backendMaxQueue : Nat := 1000
  backendQueueTimeoutSeconds : Nat := 5
  deriving DecidableEq

structure CertificateRecord where
  id : Int := 0
  name : String := ""
  enabled : Bool := true
  isDefault : Bool := false
  domains : List String := []
  certificatePem : String := ""
  privateKeyPem : String := ""
  deriving DecidableEq

structure RuntimeSettingsRecord where
  trustedProxyCidrs : List String := []
  realIpHeaders : List String :=
    ["EO-Connecting-IP", "CF-Connecting-IP", "True-Client-IP", "X-Forwarded-For"]
  maxUploadBytes : Nat := 64 * 1024 * 1024
  backendKeepAlive : Bool := true
  backendPoolSize : Nat := 32
  clientHeaderTimeoutSeconds : Nat := 15
  clientBodyTimeoutSeconds : Nat := 120
  clientWriteTimeoutSeconds : Nat := 60
  backendConnectTimeoutSeconds : Nat := 5
  backendResponseTimeoutSeconds : Nat := 60
  backendIdleTimeoutSeconds : Nat := 60
  backendIdleConnectionTtlSeconds : Nat := 60
  deriving DecidableEq

/-! ## The candidate -/

structure BackendOverloadConfig where
  siteId : Int
  siteName : String
  maximumActiveConnections : Nat
  maximumQueue : Nat
  queueTimeoutSeconds : Nat
  deriving DecidableEq

/-- `site` stands for what the backend, the policy and the URL authentication are made from. -/
structure VirtualHostConfig where
  name : String
  domains : List String
  overload : BackendOverloadConfig
  site : SiteRecord
  deriving DecidableEq

structure RuntimeSiteConfig where
  virtualHost : VirtualHostConfig
  httpEnabled : Bool
  httpPort : Nat
  httpsEnabled : Bool
  httpsPort : Nat
  deriving DecidableEq

/-- Without the paths of files, which `build_runtime_spec` leaves empty. -/
structure TlsCertificateConfig where
  name : String
  domains : List String
  isDefault : Bool
  certificateChainPem : String
  privateKeyPem : String
  deriving DecidableEq

/-- `RuntimeSettings` has the fields of the stored record. -/
structure RuntimeConfigSpec where
  revision : Nat
  sites : List RuntimeSiteConfig
  tlsCertificates : List TlsCertificateConfig
  rejectUnknownSni : Bool
  settings : RuntimeSettingsRecord
  deriving DecidableEq

/-- The snapshot that is published. -/
structure RuntimeConfig where
  spec : RuntimeConfigSpec
  httpPorts : List Nat
  httpsPorts : List Nat
  deriving DecidableEq

def RuntimeConfig.revision (c : RuntimeConfig) : Nat := c.spec.revision

/-- What an imported backup holds, decoded and with every record validated. -/
structure Backup where
  sites : List SiteRecord
  certificates : List CertificateRecord
  settings : RuntimeSettingsRecord

/-- The validators of `ConfigService`, the decoder of backups, and the constructors that a runtime
configuration calls on its parts. -/
structure Checks where
  validateAndNormalize : SiteRecord → Except Error SiteRecord
  validateAndNormalizeCertificate : CertificateRecord → Except Error CertificateRecord
  validateRuntimeSettings : RuntimeSettingsRecord → Except Error RuntimeSettingsRecord
  decodeBackup : String → Except Error Backup
  clientIpResolver : RuntimeSettingsRecord → Except Error Unit
  virtualHostRouter : List VirtualHostConfig → Except Error Unit
  tlsContexts : RuntimeConfigSpec → Except Error Unit

def runtimeSite (site : SiteRecord) : RuntimeSiteConfig where
  virtualHost :=
    { name := site.name
      domains := site.domains
      overload :=
        { siteId := site.id
          siteName := site.name
          maximumActiveConnections := site.backendMaxActiveConnections
          maximumQueue := site.backendMaxQueue
          queueTimeoutSeconds := site.backendQueueTimeoutSeconds }
      site := site }
  httpEnabled := site.httpEnabled
  httpPort := site.httpPort
  httpsEnabled := site.httpsEnabled
  httpsPort := site.httpsPort

def runtimeCertificate (certificate : CertificateRecord) : TlsCertificateConfig where
  name := certificate.name
  domains := certificate.domains
  isDefault := certificate.isDefault
  certificateChainPem := certificate.certificatePem
  privateKeyPem := certificate.privateKeyPem

section Build

variable (chk : Checks)

/-- Every site is validated once more; the disabled ones are then left out. -/
def buildRuntimeSpec (sites : List SiteRecord) (certificates : List CertificateRecord)
    (storedSettings : RuntimeSettingsRecord) (revision : Nat) : Except Error RuntimeConfigSpec := do
  let sites ← sites.mapM chk.validateAndNormalize
  let settings ← chk.validateRuntimeSettings storedSettings
  pure
    { revision := revision
      sites := (sites.filter (·.enabled)).map runtimeSite
      tlsCertificates := (certificates.filter (·.enabled)).map runtimeCertificate
      rejectUnknownSni := true
      settings := settings }

def validTimeout (value : Nat) : Bool := 1 ≤ value && value ≤ 86400

def validTimeouts (s : RuntimeSettingsRecord) : Bool :=
  [s.clientHeaderTimeoutSeconds, s.clientBodyTimeoutSeconds, s.clientWriteTimeoutSeconds,
    s.backendConnectTimeoutSeconds, s.backendResponseTimeoutSeconds, s.backendIdleTimeoutSeconds,
    s.backendIdleConnectionTtlSeconds].all validTimeout

def sortedPorts (ports : List Nat) : List Nat := ports.dedup.insertionSort (· ≤ ·)

/-- The virtual hosts of the sites that listen on the port. -/
def hostsOn (sites : List RuntimeSiteConfig) (enabled : RuntimeSiteConfig → Bool)
    (portOf : RuntimeSiteConfig → Nat) (port : Nat) : List VirtualHostConfig :=
  (sites.filter fun s => enabled s && portOf s == port).map (·.virtualHost)

/-- The checks of the constructor, in its order. -/
def checkRuntimeSpec (spec : RuntimeConfigSpec) (http https : List Nat) : Except Error Unit := do
  chk.clientIpResolver spec.settings
  if spec.revision = 0 then throw "runtime configuration revision cannot be zero"
  if spec.settings.maxUploadBytes = 0 ∨ 16 * 1024 * 1024 * 1024 < spec.settings.maxUploadBytes then
    throw "maximum upload size must be between 1 byte and 16 GiB"
  if 1024 < spec.settings.backendPoolSize then
    throw "backend connection pool size cannot exceed 1024"
  if !validTimeouts spec.settings then throw "timeouts must be between 1 and 86400 seconds"
  match spec.sites.find? fun s => !s.httpEnabled && !s.httpsEnabled with
  | some s => throw ("runtime site must enable at least one listener: " ++ s.virtualHost.name)
  | none => pure ()
  match http.find? fun port => port != 0 && https.contains port with
  | some port => throw ("HTTP and HTTPS cannot share listener port " ++ toString port)
  | none => pure ()
  http.forM fun port => chk.virtualHostRouter (hostsOn spec.sites (·.httpEnabled) (·.httpPort) port)
  https.forM fun port =>
    chk.virtualHostRouter (hostsOn spec.sites (·.httpsEnabled) (·.httpsPort) port)
  if !https.isEmpty then chk.tlsContexts spec

def buildRuntimeConfig (spec : RuntimeConfigSpec) : Except Error RuntimeConfig :=
  let http := sortedPorts ((spec.sites.filter (·.httpEnabled)).map (·.httpPort))
  let https := sortedPorts ((spec.sites.filter (·.httpsEnabled)).map (·.httpsPort))
  match checkRuntimeSpec chk spec http https with
  | .error e => .error e
  | .ok _ => .ok { spec := spec, httpPorts := http, httpsPorts := https }

theorem buildRuntimeSpec_revision {sites : List SiteRecord} {certificates : List CertificateRecord}
    {settings : RuntimeSettingsRecord} {revision : Nat} {spec : RuntimeConfigSpec}
    (h : buildRuntimeSpec chk sites certificates settings revision = .ok spec) :
    spec.revision = revision := by
  unfold buildRuntimeSpec at h
  cases hs : sites.mapM chk.validateAndNormalize with
  | error e => rw [hs] at h; cases h
  | ok normalized =>
    rw [hs] at h
    cases ht : chk.validateRuntimeSettings settings with
    | error e => rw [ht] at h; cases h
    | ok t => rw [ht] at h; cases h; rfl

theorem buildRuntimeConfig_revision {spec : RuntimeConfigSpec} {c : RuntimeConfig}
    (h : buildRuntimeConfig chk spec = .ok c) : c.revision = spec.revision := by
  simp only [buildRuntimeConfig] at h
  split at h <;> cases h
  rfl

end Build

end Config
end WebServer
