import WebServer.Config.Runtime
import WebServer.Lib.Act

/-!
# WebServer.Config.Repository

`ConfigRepository`: the tables of the configuration database and the operations on them.

Every change is a `Transaction`: `BEGIN IMMEDIATE`, some statements, `increment_revision`, `COMMIT`,
and `ROLLBACK` when an exception leaves the scope. SQLite makes the transaction atomic, so a
rolled back one leaves the tables as they were. Any statement may fail for reasons of its own
(`Sqlite`), besides the constraints of the schema: hostnames and certificate names are unique, and
at most one certificate is the default one.

Tables are lists in the order of their row ids. The domains of a site are rows of their own, and a
row of `sites` has none.
-/

namespace WebServer
namespace Config

open Act

structure Database where
  sites : List SiteRecord
  siteDomains : List (Int × String)
  siteSequence : Option Int
  certificates : List CertificateRecord
  certificateSequence : Option Int
  settings : RuntimeSettingsRecord
  revision : Nat
  deriving DecidableEq

/-- The statements that an operation of the repository executes. -/
inductive Statement where
  | readRevision
  | readNextSiteId
  | readSites
  | readCertificates
  | readSettings
  | countCertificates
  | begin
  | commit
  | clear
  | site (i : Nat)
  | domains (i : Nat)
  | domain (i j : Nat)
  | certificate (i : Nat)
  | settings
  | revision
  deriving DecidableEq

/-- Which statements fail in this execution, and with what message. -/
abbrev Sqlite := Statement → Option Error

abbrev Query := EStateM Error Database

/-! ## Reads -/

def maxId (ids : List Int) : Int := ids.foldl max 0

/-- `AUTOINCREMENT`: larger than every id that was ever in the table. -/
def autoIncrement (sequence : Option Int) (ids : List Int) : Int :=
  max (sequence.getD 0) (maxId ids) + 1

def Database.listSites (db : Database) : List SiteRecord :=
  db.sites.map fun row =>
    { row with domains := (db.siteDomains.filter fun d => d.1 == row.id).map (·.2) }

/-- `ORDER BY is_default DESC, id`. -/
def Database.listCertificates (db : Database) : List CertificateRecord :=
  db.certificates.filter (·.isDefault) ++ db.certificates.filter (!·.isDefault)

def Database.nextSiteId (db : Database) : Int :=
  match db.siteSequence with
  | some seq => seq + 1
  | none => maxId (db.sites.map (·.id)) + 1

section Statements

variable (io : Sqlite)

/-- A statement that changes nothing. -/
def query {α : Type} (st : Statement) (f : Database → α) : Query α := fun db =>
  match io st with
  | some e => .error e db
  | none => .ok (f db) db

def configRevision : Query Nat := query io .readRevision (·.revision)
def nextSiteId : Query Int := query io .readNextSiteId (·.nextSiteId)
def listSites : Query (List SiteRecord) := query io .readSites (·.listSites)
def listCertificates : Query (List CertificateRecord) :=
  query io .readCertificates (·.listCertificates)
def runtimeSettings : Query RuntimeSettingsRecord := query io .readSettings (·.settings)
def certificateCount : Query Nat := query io .countCertificates (·.certificates.length)

/-! ## Writes -/

/-- A statement that changes the tables, or violates a constraint. -/
def execute {α : Type} (st : Statement) (f : Database → Except Error (α × Database)) : Query α :=
  fun db =>
    match io st with
    | some e => .error e db
    | none =>
      match f db with
      | .error e => .error e db
      | .ok (a, db') => .ok a db'

def transaction {α : Type} (body : Query α) : Query α := fun db =>
  match io .begin with
  | some e => .error e db
  | none =>
    match body db with
    | .error e _ => .error e db
    | .ok a db' =>
      match io .commit with
      | some e => .error e db
      | none => .ok a db'

def Database.insertSite (site : SiteRecord) (db : Database) : Except Error (Int × Database) :=
  let id := autoIncrement db.siteSequence (db.sites.map (·.id))
  .ok (id, { db with
    sites := db.sites ++ [{ site with id := id, domains := [] }]
    siteSequence := some id })

def Database.insertDomain (siteId : Int) (hostname : String) (db : Database) :
    Except Error (Unit × Database) :=
  if db.siteDomains.any fun d => d.2 == hostname then
    .error "cannot insert site domain: UNIQUE constraint failed: site_domains.hostname"
  else .ok ((), { db with siteDomains := db.siteDomains ++ [(siteId, hostname)] })

def Database.rewriteSite (site : SiteRecord) (db : Database) : Except Error (Unit × Database) :=
  if db.sites.any fun row => row.id == site.id then
    .ok ((), { db with
      sites := db.sites.map fun row =>
        if row.id == site.id then { site with domains := [] } else row })
  else .error "site does not exist"

def Database.clearDomains (siteId : Int) (db : Database) : Except Error (Unit × Database) :=
  .ok ((), { db with siteDomains := db.siteDomains.filter fun d => d.1 != siteId })

/-- The domains of the site go with it: `ON DELETE CASCADE`. -/
def Database.removeSite (id : Int) (db : Database) : Except Error (Unit × Database) :=
  if db.sites.any fun row => row.id == id then
    .ok ((), { db with
      sites := db.sites.filter fun row => row.id != id
      siteDomains := db.siteDomains.filter fun d => d.1 != id })
  else .error "site does not exist"

def Database.clearDefault (keep : Int → Bool) (db : Database) : Except Error (Unit × Database) :=
  .ok ((), { db with
    certificates := db.certificates.map fun row =>
      if row.isDefault && !keep row.id then { row with isDefault := false } else row })

/-- The constraints on the row of a certificate, against the other rows. -/
def certificateConflict (others : List CertificateRecord) (row : CertificateRecord) :
    Option Error :=
  if others.any fun c => c.name == row.name then
    some "UNIQUE constraint failed: tls_certificates.name"
  else if row.isDefault && others.any (·.isDefault) then
    some "UNIQUE constraint failed: tls_certificates.is_default"
  else none

def Database.insertCertificate (operation : String) (certificate : CertificateRecord)
    (db : Database) : Except Error (Int × Database) :=
  let id := autoIncrement db.certificateSequence (db.certificates.map (·.id))
  match certificateConflict db.certificates certificate with
  | some e => .error (operation ++ ": " ++ e)
  | none => .ok (id, { db with
      certificates := db.certificates ++ [{ certificate with id := id }]
      certificateSequence := some id })

def Database.rewriteCertificate (certificate : CertificateRecord) (db : Database) :
    Except Error (Unit × Database) :=
  if db.certificates.any fun row => row.id == certificate.id then
    match certificateConflict (db.certificates.filter fun row => row.id != certificate.id)
        certificate with
    | some e => .error ("cannot update TLS certificate: " ++ e)
    | none => .ok ((), { db with
        certificates := db.certificates.map fun row =>
          if row.id == certificate.id then certificate else row })
  else .error "TLS certificate does not exist"

def Database.removeCertificate (id : Int) (db : Database) : Except Error (Unit × Database) :=
  if db.certificates.any fun row => row.id == id then
    .ok ((), { db with certificates := db.certificates.filter fun row => row.id != id })
  else .error "TLS certificate does not exist"

def Database.writeSettings (settings : RuntimeSettingsRecord) (db : Database) :
    Except Error (Unit × Database) :=
  .ok ((), { db with settings := settings })

/-- `DELETE FROM site_domains; DELETE FROM sites; DELETE FROM tls_certificates;` -/
def Database.clearAll (db : Database) : Except Error (Unit × Database) :=
  .ok ((), { db with sites := [], siteDomains := [], certificates := [] })

def insertDomains (i : Nat) (siteId : Int) (domains : List String) : Query Unit :=
  loop (fun d => execute io (.domain i d.2) (Database.insertDomain siteId d.1)) domains.zipIdx

def incrementRevision : Query Unit :=
  execute io .revision fun db => .ok ((), { db with revision := db.revision + 1 })

/-- The statements that a change makes before it counts the revision and commits. -/
def change {α : Type} (body : Query α) : Query α :=
  transaction io do
    let a ← body
    incrementRevision io
    pure a

def insertSiteAndDomains (i : Nat) (site : SiteRecord) : Query Int := do
  let id ← execute io (.site i) (Database.insertSite site)
  insertDomains io i id site.domains
  pure id

/-- Only a certificate that is to be the default one takes the mark from the others. -/
def takeDefault (isDefault : Bool) (keep : Int → Bool) : Query Unit :=
  if isDefault then execute io .clear (Database.clearDefault keep) else pure ()

namespace Repository

def createSite (site : SiteRecord) : Query Int := change io (insertSiteAndDomains io 0 site)

def updateSite (site : SiteRecord) : Query Unit :=
  change io do
    execute io (.site 0) (Database.rewriteSite site)
    execute io (.domains 0) (Database.clearDomains site.id)
    insertDomains io 0 site.id site.domains

def deleteSite (id : Int) : Query Unit := change io (execute io (.site 0) (Database.removeSite id))

def createCertificate (certificate : CertificateRecord) : Query Int :=
  change io do
    takeDefault io certificate.isDefault fun _ => false
    execute io (.certificate 0)
      (Database.insertCertificate "cannot create TLS certificate" certificate)

def updateCertificate (certificate : CertificateRecord) : Query Unit :=
  change io do
    takeDefault io certificate.isDefault (· == certificate.id)
    execute io (.certificate 0) (Database.rewriteCertificate certificate)

def deleteCertificate (id : Int) : Query Unit :=
  change io (execute io (.certificate 0) (Database.removeCertificate id))

def updateRuntimeSettings (settings : RuntimeSettingsRecord) : Query Unit :=
  change io (execute io .settings (Database.writeSettings settings))

def replaceConfiguration (sites : List SiteRecord) (certificates : List CertificateRecord)
    (settings : RuntimeSettingsRecord) : Query Unit :=
  change io do
    execute io .clear Database.clearAll
    loop (fun s => do let _ ← insertSiteAndDomains io s.2 s.1; pure ()) sites.zipIdx
    loop (fun c => do
      let _ ← execute io (.certificate c.2)
        (Database.insertCertificate "cannot restore TLS certificate" c.1)
      pure ()) certificates.zipIdx
    execute io .settings (Database.writeSettings settings)

end Repository

end Statements

/-! ## What a change does to the revision -/

section Revision

variable (io : Sqlite) {α : Type}

theorem spec_query (db : Database) (st : Statement) (f : Database → α) :
    Spec (· = db) (query io st f) (fun a db' => a = f db ∧ db' = db) (· = db) := by
  rintro _ rfl
  unfold query
  cases io st with
  | none => exact ⟨rfl, rfl⟩
  | some e => rfl

/-- A statement keeps the revision. -/
def KeepsRevision (f : Database → Except Error (α × Database)) : Prop :=
  ∀ db a db', f db = .ok (a, db') → db'.revision = db.revision

theorem spec_execute {f : Database → Except Error (α × Database)} (hf : KeepsRevision f) (n : Nat)
    (st : Statement) :
    Spec (·.revision = n) (execute io st f) (fun _ db => db.revision = n) (fun _ => True) := by
  intro db hdb
  unfold execute
  cases io st with
  | some e => trivial
  | none =>
    cases hr : f db with
    | error e => trivial
    | ok r => exact (hf db r.1 r.2 hr).trans hdb

/-- The body of a change leaves the revision to `increment_revision`. -/
def Plain (body : Query α) : Prop :=
  ∀ n, Spec (·.revision = n) body (fun _ db => db.revision = n) (fun _ => True)

theorem spec_incrementRevision (n : Nat) :
    Spec (·.revision = n) (incrementRevision io) (fun _ db => db.revision = n + 1)
      (fun _ => True) := by
  rintro db rfl
  unfold incrementRevision execute
  cases io .revision with
  | some e => trivial
  | none => rfl

/-- A change that returns has counted one revision; one that throws has changed nothing. -/
theorem spec_change {body : Query α} (hbody : Plain body) (db : Database) :
    Spec (· = db) (change io body) (fun _ db' => db'.revision = db.revision + 1) (· = db) := by
  have hall : Spec (·.revision = db.revision)
      (do let a ← body; incrementRevision io; pure a : Query α)
      (fun _ db' => db'.revision = db.revision + 1) (fun _ => True) :=
    spec_bind (hbody db.revision) fun _ =>
      spec_bind (spec_incrementRevision io db.revision) fun _ => spec_pure fun _ h => h
  rintro _ rfl
  have h := hall _ rfl
  unfold change transaction
  cases io .begin with
  | some e => rfl
  | none =>
    revert h
    cases (do let a ← body; incrementRevision io; pure a : Query α) _ with
    | error e db' => intro _; rfl
    | ok a db' =>
      intro h
      cases io .commit with
      | some e => rfl
      | none => exact h

theorem plain_execute {f : Database → Except Error (α × Database)} (hf : KeepsRevision f)
    (st : Statement) : Plain (execute io st f) := fun n => spec_execute io hf n st

theorem Plain.bind {β : Type} {m : Query α} {f : α → Query β} (hm : Plain m)
    (hf : ∀ a, Plain (f a)) : Plain (m >>= f) := fun n => spec_bind (hm n) fun a => hf a n

theorem plain_pure (a : α) : Plain (pure a : Query α) := fun _ => spec_pure fun _ h => h

theorem Plain.loop {β : Type} {body : β → Query Unit} (h : ∀ b, Plain (body b)) (bs : List β) :
    Plain (loop body bs) := fun n => spec_loop (fun b => h b n) bs

theorem keepsRevision_insertDomain (siteId : Int) (hostname : String) :
    KeepsRevision (Database.insertDomain siteId hostname) := by
  intro db a db' h
  unfold Database.insertDomain at h
  split at h <;> cases h
  rfl

theorem plain_insertDomains (i : Nat) (siteId : Int) (domains : List String) :
    Plain (insertDomains io i siteId domains) :=
  Plain.loop (fun d : String × Nat =>
    plain_execute io (keepsRevision_insertDomain siteId d.1) (.domain i d.2)) _

theorem plain_insertSiteAndDomains (i : Nat) (site : SiteRecord) :
    Plain (insertSiteAndDomains io i site) := by
  refine (plain_execute io ?_ _).bind fun id =>
    (plain_insertDomains io i id site.domains).bind fun _ => plain_pure id
  rintro db a db' ⟨⟩
  rfl

theorem keepsRevision_insertCertificate (operation : String) (certificate : CertificateRecord) :
    KeepsRevision (Database.insertCertificate operation certificate) := by
  intro db a db' h
  simp only [Database.insertCertificate] at h
  split at h <;> cases h
  rfl

/-- Every operation that changes the repository counts one revision, or changes nothing. -/
def Counts (op : Query α) : Prop :=
  ∀ db, Spec (· = db) op (fun _ db' => db'.revision = db.revision + 1) (· = db)

namespace Repository

theorem counts_createSite (site : SiteRecord) : Counts (createSite io site) :=
  spec_change io (plain_insertSiteAndDomains io 0 site)

theorem counts_updateSite (site : SiteRecord) : Counts (updateSite io site) := by
  refine spec_change io ((plain_execute io ?_ _).bind fun _ =>
    (plain_execute io ?_ _).bind fun _ => plain_insertDomains io 0 site.id site.domains)
  · intro db a db' h
    unfold Database.rewriteSite at h
    split at h <;> cases h
    rfl
  · rintro db a db' ⟨⟩
    rfl

theorem counts_deleteSite (id : Int) : Counts (deleteSite io id) := by
  refine spec_change io (plain_execute io ?_ _)
  intro db a db' h
  unfold Database.removeSite at h
  split at h <;> cases h
  rfl

theorem plain_takeDefault (isDefault : Bool) (keep : Int → Bool) :
    Plain (takeDefault io isDefault keep) := by
  unfold takeDefault
  split
  · refine plain_execute io ?_ _
    rintro db a db' ⟨⟩
    rfl
  · exact plain_pure ()

theorem counts_createCertificate (certificate : CertificateRecord) :
    Counts (createCertificate io certificate) :=
  spec_change io ((plain_takeDefault io certificate.isDefault _).bind fun _ =>
    plain_execute io (keepsRevision_insertCertificate _ certificate) _)

theorem counts_updateCertificate (certificate : CertificateRecord) :
    Counts (updateCertificate io certificate) := by
  refine spec_change io ((plain_takeDefault io certificate.isDefault _).bind fun _ =>
    plain_execute io ?_ _)
  intro db a db' h
  unfold Database.rewriteCertificate at h
  split at h
  · split at h <;> cases h
    rfl
  · cases h

theorem counts_deleteCertificate (id : Int) : Counts (deleteCertificate io id) := by
  refine spec_change io (plain_execute io ?_ _)
  intro db a db' h
  unfold Database.removeCertificate at h
  split at h <;> cases h
  rfl

theorem keepsRevision_writeSettings (settings : RuntimeSettingsRecord) :
    KeepsRevision (Database.writeSettings settings) := by
  rintro db a db' ⟨⟩
  rfl

theorem counts_updateRuntimeSettings (settings : RuntimeSettingsRecord) :
    Counts (updateRuntimeSettings io settings) :=
  spec_change io (plain_execute io (keepsRevision_writeSettings settings) _)

theorem counts_replaceConfiguration (sites : List SiteRecord)
    (certificates : List CertificateRecord) (settings : RuntimeSettingsRecord) :
    Counts (replaceConfiguration io sites certificates settings) := by
  refine spec_change io ((plain_execute io ?_ _).bind fun _ => (Plain.loop ?_ _).bind fun _ =>
    (Plain.loop ?_ _).bind fun _ => plain_execute io (keepsRevision_writeSettings settings) _)
  · rintro db a db' ⟨⟩
    rfl
  · exact fun s => (plain_insertSiteAndDomains io s.2 s.1).bind fun _ => plain_pure ()
  · exact fun c => (plain_execute io (keepsRevision_insertCertificate _ c.1) _).bind fun _ =>
      plain_pure ()

end Repository

end Revision

end Config
end WebServer
