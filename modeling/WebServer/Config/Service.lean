import WebServer.Config.Repository
import WebServer.Core.Reload
import WebServer.Lib.Run

/-!
# WebServer.Config.Service

`ConfigService`: changes of the configuration that reach the database, the listeners and the
published snapshot together or not at all.

Every operation holds `mutex_` from its first read to its last effect, so operations follow one
another. They share one shape (`applyChange`): the candidate is built from the records as they
would be stored, the reload is prepared, the change is written in one transaction, and only then is
the prepared reload activated, which cannot fail. An exception in between destroys the prepared
reload.

* `perform chk env op`: one operation, in an environment that decides what fails.
* `Unchanged`, `Done`: what an operation leaves behind when it throws and when it returns.
* `step`: the life of the service, with the other users of the server state.
-/

namespace WebServer
namespace Config

open Act WebServer.Core

structure World where
  database : Database
  activeRevision : Nat
  reloadHandler : Bool
  server : Server

/-- What fails in one execution, besides what the checks reject. -/
structure Env where
  sqlite : Sqlite
  preflight : Option Error
  network : Network

abbrev Service := EStateM Error World

section Operations

variable (chk : Checks) (env : Env)

def onDatabase {α : Type} (m : Query α) : Service α :=
  onPart (·.database) (fun w db => { w with database := db }) m

def onServer {α : Type} (m : EStateM Error Server α) : Service α :=
  onPart (·.server) (fun w s => { w with server := s }) m

/-- Whether there is an activation; the one of the server is never empty. -/
def prepareCandidateLocked (candidate : RuntimeConfigSpec) : Service Bool := do
  let _ ← attempt (buildRuntimeConfig chk candidate)
  failing env.preflight
  let w ← get
  if w.reloadHandler then do
    onServer (prepareReload chk env.network candidate)
    pure true
  else pure false

def commitCandidateLocked (activation : Bool) (revision : Nat) (w : World) : World :=
  if activation then { w with server := activate w.server, activeRevision := revision } else w

/-- An activation that is not run is destroyed with what it holds. -/
def destroyActivation (w : World) : World := { w with server := destroyPrepared w.server }

def applyChange {α : Type} (sites : List SiteRecord) (certificates : List CertificateRecord)
    (settings : RuntimeSettingsRecord) (revision : Nat) (write : Query α) : Service α := do
  let candidate ← attempt (buildRuntimeSpec chk sites certificates settings revision)
  let activation ← prepareCandidateLocked chk env candidate
  let a ← guarded destroyActivation (onDatabase write)
  modify (commitCandidateLocked activation revision)
  pure a

def require (condition : Bool) (e : Error) : Service Unit :=
  failing (if condition then none else some e)

def createSite (site : SiteRecord) : Service SiteRecord := do
  let site ← attempt (chk.validateAndNormalize site)
  let stored ← onDatabase (configRevision env.sqlite)
  let id ← onDatabase (nextSiteId env.sqlite)
  let sites ← onDatabase (listSites env.sqlite)
  let certificates ← onDatabase (listCertificates env.sqlite)
  let settings ← onDatabase (runtimeSettings env.sqlite)
  let id ← applyChange chk env (sites ++ [{ site with id := id }]) certificates settings
    (stored + 1) (Repository.createSite env.sqlite { site with id := id })
  pure { site with id := id }

/-- The first record with the same id is replaced. -/
def replaceSite (site : SiteRecord) : List SiteRecord → List SiteRecord
  | [] => []
  | s :: sites => if s.id == site.id then site :: sites else s :: replaceSite site sites

def updateSite (site : SiteRecord) : Service SiteRecord := do
  require (0 < site.id) "site id must be positive"
  let site ← attempt (chk.validateAndNormalize site)
  let stored ← onDatabase (configRevision env.sqlite)
  let sites ← onDatabase (listSites env.sqlite)
  require (sites.any fun s => s.id == site.id) "site does not exist"
  let certificates ← onDatabase (listCertificates env.sqlite)
  let settings ← onDatabase (runtimeSettings env.sqlite)
  applyChange chk env (replaceSite site sites) certificates settings (stored + 1)
    (Repository.updateSite env.sqlite site)
  pure site

def deleteSite (id : Int) : Service Unit := do
  require (0 < id) "site id must be positive"
  let stored ← onDatabase (configRevision env.sqlite)
  let sites ← onDatabase (listSites env.sqlite)
  require (sites.any fun s => s.id == id) "site does not exist"
  let certificates ← onDatabase (listCertificates env.sqlite)
  let settings ← onDatabase (runtimeSettings env.sqlite)
  applyChange chk env (sites.filter fun s => s.id != id) certificates settings (stored + 1)
    (Repository.deleteSite env.sqlite id)

def createCertificate (certificate : CertificateRecord) : Service CertificateRecord := do
  let certificate ← attempt (chk.validateAndNormalizeCertificate certificate)
  let stored ← onDatabase (configRevision env.sqlite)
  let certificates ← onDatabase (listCertificates env.sqlite)
  let sites ← onDatabase (listSites env.sqlite)
  let settings ← onDatabase (runtimeSettings env.sqlite)
  let others := if certificate.isDefault then
    certificates.map fun c => { c with isDefault := false } else certificates
  let id ← applyChange chk env sites (others ++ [certificate]) settings (stored + 1)
    (Repository.createCertificate env.sqlite certificate)
  pure { certificate with id := id }

def updateCertificate (certificate : CertificateRecord) : Service CertificateRecord := do
  require (0 < certificate.id) "TLS certificate id must be positive"
  let certificate ← attempt (chk.validateAndNormalizeCertificate certificate)
  let certificates ← onDatabase (listCertificates env.sqlite)
  require (certificates.any fun c => c.id == certificate.id) "TLS certificate does not exist"
  let stored ← onDatabase (configRevision env.sqlite)
  let sites ← onDatabase (listSites env.sqlite)
  let settings ← onDatabase (runtimeSettings env.sqlite)
  let records := certificates.map fun c =>
    if c.id == certificate.id then certificate
    else if certificate.isDefault then { c with isDefault := false } else c
  applyChange chk env sites records settings (stored + 1)
    (Repository.updateCertificate env.sqlite certificate)
  pure certificate

def deleteCertificate (id : Int) : Service Unit := do
  require (0 < id) "TLS certificate id must be positive"
  let certificates ← onDatabase (listCertificates env.sqlite)
  require (certificates.any fun c => c.id == id) "TLS certificate does not exist"
  let stored ← onDatabase (configRevision env.sqlite)
  let sites ← onDatabase (listSites env.sqlite)
  let settings ← onDatabase (runtimeSettings env.sqlite)
  applyChange chk env sites (certificates.filter fun c => c.id != id) settings (stored + 1)
    (Repository.deleteCertificate env.sqlite id)

def updateRuntimeSettings (settings : RuntimeSettingsRecord) : Service RuntimeSettingsRecord := do
  let settings ← attempt (chk.validateRuntimeSettings settings)
  let stored ← onDatabase (configRevision env.sqlite)
  let sites ← onDatabase (listSites env.sqlite)
  let certificates ← onDatabase (listCertificates env.sqlite)
  applyChange chk env sites certificates settings (stored + 1)
    (Repository.updateRuntimeSettings env.sqlite settings)
  pure settings

/-- Imported sites get the next ids, in order. -/
def numberSites (next : Int) (sites : List SiteRecord) : List SiteRecord :=
  sites.zipIdx.map fun s => { s.1 with id := next + s.2 }

def importConfiguration (encoded : String) : Service Unit := do
  let backup ← attempt (chk.decodeBackup encoded)
  let next ← onDatabase (nextSiteId env.sqlite)
  let stored ← onDatabase (configRevision env.sqlite)
  let sites := numberSites next backup.sites
  applyChange chk env sites backup.certificates backup.settings (stored + 1)
    (Repository.replaceConfiguration env.sqlite sites backup.certificates backup.settings)

/-- The operations that change the configuration. -/
inductive Op where
  | createSite (site : SiteRecord)
  | updateSite (site : SiteRecord)
  | deleteSite (id : Int)
  | createCertificate (certificate : CertificateRecord)
  | updateCertificate (certificate : CertificateRecord)
  | deleteCertificate (id : Int)
  | updateRuntimeSettings (settings : RuntimeSettingsRecord)
  | importConfiguration (encoded : String)

def perform : Op → Service Unit
  | .createSite site => do let _ ← createSite chk env site; pure ()
  | .updateSite site => do let _ ← updateSite chk env site; pure ()
  | .deleteSite id => deleteSite chk env id
  | .createCertificate certificate => do
    let _ ← createCertificate chk env certificate
    pure ()
  | .updateCertificate certificate => do
    let _ ← updateCertificate chk env certificate
    pure ()
  | .deleteCertificate id => deleteCertificate chk env id
  | .updateRuntimeSettings settings => do
    let _ ← updateRuntimeSettings chk env settings
    pure ()
  | .importConfiguration encoded => importConfiguration chk env encoded

/-! ## The other operations -/

def reloadRuntime : Service Unit := do
  let w ← get
  require w.reloadHandler "runtime hot reload is not configured"
  let revision ← onDatabase (configRevision env.sqlite)
  let sites ← onDatabase (listSites env.sqlite)
  let certificates ← onDatabase (listCertificates env.sqlite)
  let settings ← onDatabase (runtimeSettings env.sqlite)
  let candidate ← attempt (buildRuntimeSpec chk sites certificates settings revision)
  let activation ← prepareCandidateLocked chk env candidate
  modify (commitCandidateLocked activation revision)

/-- Before the first snapshot there is no activation, and the revision counts as active. -/
def commitSeed (activation : Bool) (revision : Nat) (w : World) : World :=
  if activation then commitCandidateLocked activation revision w
  else { w with activeRevision := revision }

def seedCertificate (certificate : CertificateRecord) : Service Unit := do
  let certificate ← attempt (chk.validateAndNormalizeCertificate { certificate with isDefault := true })
  let stored ← onDatabase (configRevision env.sqlite)
  let sites ← onDatabase (listSites env.sqlite)
  let settings ← onDatabase (runtimeSettings env.sqlite)
  let candidate ← attempt (buildRuntimeSpec chk sites [certificate] settings (stored + 1))
  let activation ← prepareCandidateLocked chk env candidate
  let _ ← guarded destroyActivation
    (onDatabase (Repository.createCertificate env.sqlite certificate))
  modify (commitSeed activation (stored + 1))

def seedDefaultCertificate (certificate : CertificateRecord) : Service Unit := do
  let count ← onDatabase (certificateCount env.sqlite)
  if count != 0 then pure () else seedCertificate chk env certificate

end Operations

/-! ## Runs -/

/-- The service after `initialize`, with a server that was constructed from the stored records and
has not been started. -/
def World.initial (db : Database) (runtime : RuntimeConfig) : World where
  database := db
  activeRevision := db.revision
  reloadHandler := false
  server :=
    { runtime := runtime
      http := ⟨[], []⟩
      tls := ⟨[], []⟩
      listeners := []
      limiter := Limiter.State.init
      started := false
      stopping := false
      controlLocked := false
      prepared := none }

inductive Event where
  | change (op : Op) (env : Env)
  | reloadRuntime (env : Env)
  | seedDefaultCertificate (certificate : CertificateRecord) (env : Env)
  | setReloadHandler
  | markRuntimeUnavailable
  | startServer (env : Network)
  | stopServer
  | drained (protocol : Protocol) (id : Nat)
  | limiter (e : Limiter.Event)

/-- The state that an operation leaves behind, whether it returns or throws. -/
def after {σ : Type} (m : EStateM Error σ Unit) (s : σ) : σ :=
  match m s with
  | .ok _ s' => s'
  | .error _ s' => s'

def step (chk : Checks) (w : World) : Event → Option World
  | .change op env => some (after (perform chk env op) w)
  | .reloadRuntime env => some (after (reloadRuntime chk env) w)
  | .seedDefaultCertificate certificate env =>
    some (after (seedDefaultCertificate chk env certificate) w)
  | .setReloadHandler => some { w with reloadHandler := true }
  | .markRuntimeUnavailable => some { w with activeRevision := 0, reloadHandler := false }
  | .startServer env => some { w with server := after (startServer env) w.server }
  | .stopServer => some { w with server := stopServer w.server }
  | .drained protocol id => some { w with server := onDrained protocol id w.server }
  | .limiter e =>
    (Limiter.step w.server.limiter e).map fun l =>
      { w with server := { w.server with limiter := l } }

end Config
end WebServer
