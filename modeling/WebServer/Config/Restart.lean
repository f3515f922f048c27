import WebServer.Config.Coverage
import WebServer.Config.Stored
import WebServer.Tls.Order

/-!
# WebServer.Config.Restart

Is what was published what a restart would load?

An operation publishes the configuration that it built from records in memory. A restart builds one
from the records that it reads. Sites, settings and revision agree (`Reads`), and the certificates
agree up to their order: the candidate keeps the order of the listing before the change, in which
the default certificate came first.

* `Accepted`: what an operation that returned had announced.
* `Stored`: the tables that a service may find, over any number of restarts.
* `published_iff_restart`: the two configurations behave alike unless the operation takes the mark from
  the default certificate, leaves it in use, marks no other one that is in use, and an older
  certificate is in use.
-/

namespace WebServer
namespace Config

open Act WebServer.Core
open Tls (ContextManager)

/-! ## Operations that have returned -/

section Returned

variable {chk : Checks} {env : Env} {w w' : World} {α : Type}

theorem onDatabase_ok {m : Query α} {a : α} (h : onDatabase m w = .ok a w') :
    m w.database = .ok a w'.database ∧ w' = { w with database := w'.database } := by
  obtain ⟨db, hm, rfl⟩ := onPart_eq_ok h
  exact ⟨hm, rfl⟩

theorem read_ok {io : Sqlite} {st : Statement} {f : Database → α} {a : α}
    (h : onDatabase (query io st f) w = .ok a w') : a = f w.database ∧ w' = w := by
  obtain ⟨hm, hw⟩ := onDatabase_ok h
  obtain ⟨ha, hdb⟩ := query_ok hm
  exact ⟨ha, by rw [hw, hdb]⟩

/-- A read in front of the rest has returned. -/
theorem read_bind_ok {β : Type} {io : Sqlite} {st : Statement} {f : Database → α} {k : α → Service β}
    {b : β} (h : (onDatabase (query io st f) >>= k) w = .ok b w') :
    k (f w.database) w = .ok b w' := by
  obtain ⟨a, w₁, hread, hk⟩ := bind_eq_ok h
  obtain ⟨rfl, rfl⟩ := read_ok hread
  exact hk

theorem check_bind_ok {β : Type} {x : Except Error α} {k : α → Service β} {b : β}
    (h : (attempt x >>= k) w = .ok b w') : ∃ a, x = .ok a ∧ k a w = .ok b w' := by
  obtain ⟨a, w₁, hx, hk⟩ := bind_eq_ok h
  obtain ⟨ha, rfl⟩ := attempt_eq_ok hx
  exact ⟨a, ha, hk⟩

theorem require_bind_ok {β : Type} {condition : Bool} {e : Error} {k : Unit → Service β} {b : β}
    (h : (require condition e >>= k) w = .ok b w') : condition = true ∧ k () w = .ok b w' := by
  obtain ⟨a, w₁, hx, hk⟩ := bind_eq_ok h
  cases condition with
  | false => cases hx
  | true => cases hx; exact ⟨rfl, hk⟩

/-- The candidate was built; with a reload handler its snapshot is prepared. -/
theorem prepareCandidateLocked_ok {candidate : RuntimeConfigSpec} {activation : Bool}
    (h : prepareCandidateLocked chk env candidate w = .ok activation w') :
    ∃ c, buildRuntimeConfig chk candidate = .ok c ∧ w' = { w with server := w'.server } ∧
      activation = w.reloadHandler ∧ (activation = true → Holds c w'.server) := by
  unfold prepareCandidateLocked at h
  obtain ⟨c, hc, hrest⟩ := check_bind_ok h
  obtain ⟨_, w₁, hfail, hget⟩ := bind_eq_ok hrest
  obtain rfl := failing_eq_ok hfail
  obtain ⟨v, w₂, hv, hbranch⟩ := bind_eq_ok hget
  cases hv
  split at hbranch
  · rename_i hhandler
    obtain ⟨_, w₃, hprepare, hpure⟩ := bind_eq_ok hbranch
    cases hpure
    obtain ⟨s, hs, rfl⟩ := onPart_eq_ok hprepare
    obtain ⟨next, hnext, hholds⟩ := prepareReload_ok hs
    rw [hc, Except.ok.injEq] at hnext
    subst hnext
    exact ⟨c, hc, rfl, hhandler.symm, fun _ => hholds⟩
  · rename_i hhandler
    cases hbranch
    exact ⟨c, hc, rfl, by simpa using hhandler, fun h => by cases h⟩

theorem commitCandidateLocked_database (activation : Bool) (revision : Nat) (w : World) :
    (commitCandidateLocked activation revision w).database = w.database := by
  cases activation <;> rfl

/-- The records were built, written and, with a reload handler, published. -/
theorem applyChange_ok {sites : List SiteRecord} {certificates : List CertificateRecord}
    {settings : RuntimeSettingsRecord} {revision : Nat} {write : Query α} {a : α}
    (h : applyChange chk env sites certificates settings revision write w = .ok a w') :
    write w.database = .ok a w'.database ∧
      ∃ spec c, buildRuntimeSpec chk sites certificates settings revision = .ok spec ∧
        buildRuntimeConfig chk spec = .ok c ∧
        (w.reloadHandler = true → w'.server.runtime = c) := by
  unfold applyChange at h
  obtain ⟨spec, hspec, hrest⟩ := check_bind_ok h
  obtain ⟨activation, w₁, hprepare, hrest⟩ := bind_eq_ok hrest
  obtain ⟨b, w₂, hwrite, hrest⟩ := bind_eq_ok hrest
  obtain ⟨_, w₃, hmodify, hpure⟩ := bind_eq_ok hrest
  cases hpure
  cases hmodify
  obtain ⟨c, hc, hframe, hactivation, hholds⟩ := prepareCandidateLocked_ok hprepare
  obtain ⟨hdb, hframe'⟩ := onDatabase_ok (guarded_eq_ok hwrite)
  refine ⟨?_, spec, c, hspec, hc, fun hhandler => ?_⟩
  · rw [commitCandidateLocked_database]
    rw [hframe] at hdb
    exact hdb
  · have hact : activation = true := hactivation.trans hhandler
    have hserver : w₂.server = w₁.server := by rw [hframe']
    rw [commitCandidateLocked, if_pos hact]
    simp only [hserver]
    exact (hholds hact).activate

end Returned

/-! ## What an operation announces -/

/-- The order of `list_certificates`. -/
def listed (rows : List CertificateRecord) : List CertificateRecord :=
  rows.filter (·.isDefault) ++ rows.filter (!·.isDefault)

/-- The sites, certificates and settings that an operation has announced when it returns, and the
rows of the certificates that it leaves. -/
inductive Accepted (chk : Checks) (db : Database) : Op → List SiteRecord → List CertificateRecord →
    RuntimeSettingsRecord → List CertificateRecord → Prop where
  | createSite {site s : SiteRecord} : chk.validateAndNormalize site = .ok s →
      Accepted chk db (.createSite site) (db.listSites ++ [{ s with id := db.nextSiteId }])
        (listed db.certificates) db.settings db.certificates
  | updateSite {site s : SiteRecord} : chk.validateAndNormalize site = .ok s →
      Accepted chk db (.updateSite site) (replaceSite s db.listSites)
        (listed db.certificates) db.settings db.certificates
  | deleteSite {id : Int} :
      Accepted chk db (.deleteSite id) (db.listSites.filter fun s => s.id != id)
        (listed db.certificates) db.settings db.certificates
  | createCertificate {certificate c : CertificateRecord} :
      chk.validateAndNormalizeCertificate certificate = .ok c →
      Accepted chk db (.createCertificate certificate) db.listSites
        ((listed db.certificates).map (replacedBy (db.numbered c)) ++ [c]) db.settings
        (db.certificates.map (replacedBy (db.numbered c)) ++ [db.numbered c])
  | updateCertificate {certificate c : CertificateRecord} :
      chk.validateAndNormalizeCertificate certificate = .ok c →
      (∃ row ∈ db.certificates, row.id = c.id) →
      Accepted chk db (.updateCertificate certificate) db.listSites
        ((listed db.certificates).map (replacedBy c)) db.settings
        (db.certificates.map (replacedBy c))
  | deleteCertificate {id : Int} :
      Accepted chk db (.deleteCertificate id) db.listSites
        ((listed db.certificates).filter fun c => c.id != id) db.settings
        (db.certificates.filter fun c => c.id != id)
  | updateRuntimeSettings {settings s : RuntimeSettingsRecord} :
      chk.validateRuntimeSettings settings = .ok s →
      Accepted chk db (.updateRuntimeSettings settings) db.listSites (listed db.certificates) s
        db.certificates
  | importConfiguration {encoded : String} {backup : Backup} :
      chk.decodeBackup encoded = .ok backup →
      Accepted chk db (.importConfiguration encoded) (numberSites db.nextSiteId backup.sites)
        backup.certificates backup.settings
        (numberCertificates (db.certificateSequence.getD 0 + 1) backup.certificates)

/-- An operation has returned: what it announced is what is stored, and what was built from it is
what is published. -/
structure Performed (chk : Checks) (w w' : World) (op : Op) (sites : List SiteRecord)
    (certificates : List CertificateRecord) (settings : RuntimeSettingsRecord)
    (rows : List CertificateRecord) (spec : RuntimeConfigSpec) (c : RuntimeConfig) : Prop where
  accepted : Accepted chk w.database op sites certificates settings rows
  reads : Reads w'.database sites rows settings (w.database.revision + 1)
  spec_eq : buildRuntimeSpec chk sites certificates settings (w.database.revision + 1) = .ok spec
  config_eq : buildRuntimeConfig chk spec = .ok c
  published : w.reloadHandler = true → w'.server.runtime = c

section Performed

variable {chk : Checks} {env : Env} {w w' : World}

theorem numberSites_numberSites (next : Int) (sites : List SiteRecord) :
    numberSites next (numberSites next sites) = numberSites next sites := by
  induction sites generalizing next with
  | nil => rfl
  | cons s sites ih => rw [numberSites_cons, numberSites_cons, ih]

/-- The shared part: the change is applied to these records. -/
theorem performed_applyChange {α : Type} {op : Op} {sites : List SiteRecord}
    {certificates : List CertificateRecord} {settings : RuntimeSettingsRecord}
    {rows : List CertificateRecord} {write : Query α} {a : α}
    (haccepted : Accepted chk w.database op sites certificates settings rows)
    (hreads : ∀ db', write w.database = .ok a db' →
      Reads db' sites rows settings (w.database.revision + 1))
    (h : applyChange chk env sites certificates settings (w.database.revision + 1) write w =
      .ok a w') :
    ∃ sites certificates settings rows spec c,
      Performed chk w w' op sites certificates settings rows spec c := by
  obtain ⟨hwrite, spec, c, hspec, hc, hpublished⟩ := applyChange_ok h
  exact ⟨_, _, _, _, spec, c, haccepted, hreads _ hwrite, hspec, hc, hpublished⟩

theorem mem_listed {rows : List CertificateRecord} {c : CertificateRecord} :
    c ∈ listed rows ↔ c ∈ rows := by
  simp only [listed, List.mem_append, List.mem_filter]
  cases c.isDefault <;> simp

/-- No row has the id of a new certificate: the others only lose the mark to it. -/
theorem unmarked_eq_replaced {db : Database} (hdb : db.WellFormed) (c : CertificateRecord) :
    (if c.isDefault then (listed db.certificates).map fun d => { d with isDefault := false }
      else listed db.certificates) = (listed db.certificates).map (replacedBy (db.numbered c)) := by
  have hfresh : ∀ d ∈ listed db.certificates, d.id ≠ (db.numbered c).id := fun d hd =>
    hdb.certificates.fresh d (mem_listed.mp hd)
  have hnumbered : (db.numbered c).isDefault = c.isDefault := rfl
  cases hdefault : c.isDefault with
  | true =>
    refine List.map_congr_left fun d hd => ?_
    rw [replacedBy, if_neg (hfresh d hd), hnumbered, if_pos hdefault]
  | false =>
    refine (List.map_id _).symm.trans (List.map_congr_left fun d hd => ?_)
    rw [replacedBy, if_neg (hfresh d hd), hnumbered, if_neg (by simp [hdefault])]
    rfl

theorem records_eq_replaced (db : Database) (c : CertificateRecord) :
    (db.listCertificates.map fun d => if d.id == c.id then c
      else if c.isDefault then { d with isDefault := false } else d) =
        (listed db.certificates).map (replacedBy c) := by
  refine List.map_congr_left fun d _ => ?_
  simp only [replacedBy, beq_iff_eq]

theorem perform_ok (hdb : w.database.WellFormed) {op : Op} {u : Unit}
    (h : perform chk env op w = .ok u w') :
    ∃ sites certificates settings rows spec c,
      Performed chk w w' op sites certificates settings rows spec c := by
  cases op with
  | createSite site =>
    obtain ⟨_, w₁, h, hpure⟩ := bind_eq_ok h
    cases hpure
    obtain ⟨s, hs, h⟩ := check_bind_ok h
    iterate 5 replace h := read_bind_ok h
    obtain ⟨id, w₂, h, hpure⟩ := bind_eq_ok h
    cases hpure
    exact performed_applyChange (.createSite hs)
      (fun db' hwrite => Repository.createSite_ok hdb hwrite) h
  | updateSite site =>
    obtain ⟨_, w₁, h, hpure⟩ := bind_eq_ok h
    cases hpure
    obtain ⟨s, hs, h⟩ := check_bind_ok (require_bind_ok h).2
    iterate 2 replace h := read_bind_ok h
    replace h := (require_bind_ok h).2
    iterate 2 replace h := read_bind_ok h
    obtain ⟨_, w₂, h, hpure⟩ := bind_eq_ok h
    cases hpure
    exact performed_applyChange (.updateSite hs)
      (fun db' hwrite => Repository.updateSite_ok hdb hwrite) h
  | deleteSite id =>
    replace h := (require_bind_ok h).2
    iterate 2 replace h := read_bind_ok h
    replace h := (require_bind_ok h).2
    iterate 2 replace h := read_bind_ok h
    exact performed_applyChange .deleteSite
      (fun db' hwrite => Repository.deleteSite_ok hdb hwrite) h
  | createCertificate certificate =>
    obtain ⟨_, w₁, h, hpure⟩ := bind_eq_ok h
    cases hpure
    obtain ⟨c, hc, h⟩ := check_bind_ok h
    iterate 4 replace h := read_bind_ok h
    obtain ⟨id, w₂, h, hpure⟩ := bind_eq_ok h
    cases hpure
    have happly : applyChange chk env w.database.listSites
        ((listed w.database.certificates).map (replacedBy (w.database.numbered c)) ++ [c])
        w.database.settings (w.database.revision + 1) (Repository.createCertificate env.sqlite c) w =
          .ok id w' := by
      rw [← unmarked_eq_replaced hdb]
      exact h
    exact performed_applyChange (.createCertificate hc)
      (fun db' hwrite => Repository.createCertificate_ok hdb hwrite) happly
  | updateCertificate certificate =>
    obtain ⟨_, w₁, h, hpure⟩ := bind_eq_ok h
    cases hpure
    obtain ⟨c, hc, h⟩ := check_bind_ok (require_bind_ok h).2
    replace h := read_bind_ok h
    obtain ⟨hexists, h⟩ := require_bind_ok h
    iterate 3 replace h := read_bind_ok h
    obtain ⟨_, w₂, h, hpure⟩ := bind_eq_ok h
    cases hpure
    rw [records_eq_replaced] at h
    obtain ⟨row, hrow, hid⟩ := List.any_eq_true.mp hexists
    exact performed_applyChange (.updateCertificate hc ⟨row, mem_listed.mp hrow, by simpa using hid⟩)
      (fun db' hwrite => Repository.updateCertificate_ok hdb hwrite) h
  | deleteCertificate id =>
    replace h := (require_bind_ok h).2
    replace h := read_bind_ok h
    replace h := (require_bind_ok h).2
    iterate 3 replace h := read_bind_ok h
    exact performed_applyChange .deleteCertificate
      (fun db' hwrite => Repository.deleteCertificate_ok hdb hwrite) h
  | updateRuntimeSettings settings =>
    obtain ⟨_, w₁, h, hpure⟩ := bind_eq_ok h
    cases hpure
    obtain ⟨s, hs, h⟩ := check_bind_ok h
    iterate 3 replace h := read_bind_ok h
    obtain ⟨_, w₂, h, hpure⟩ := bind_eq_ok h
    cases hpure
    exact performed_applyChange (.updateRuntimeSettings hs)
      (fun db' hwrite => Repository.updateRuntimeSettings_ok hdb hwrite) h
  | importConfiguration encoded =>
    obtain ⟨backup, hbackup, h⟩ := check_bind_ok h
    iterate 2 replace h := read_bind_ok h
    refine performed_applyChange (.importConfiguration hbackup) (fun db' hwrite => ?_) h
    have hreads := Repository.replaceConfiguration_ok hdb hwrite
    rwa [numberSites_numberSites] at hreads

end Performed

/-! ## The certificates in use -/

/-- The certificates of a runtime configuration. -/
def inUse (records : List CertificateRecord) : List TlsCertificateConfig :=
  (records.filter (·.enabled)).map runtimeCertificate

section InUse

variable {rows records : List CertificateRecord}

theorem inUse_append (rows records : List CertificateRecord) :
    inUse (rows ++ records) = inUse rows ++ inUse records := by simp [inUse]

theorem listed_perm (rows : List CertificateRecord) : (listed rows).Perm rows := by
  exact List.filter_append_perm CertificateRecord.isDefault rows

theorem inUse_perm (h : rows.Perm records) : (inUse rows).Perm (inUse records) :=
  (h.filter _).map _

/-- Ids do not show in the certificates in use. -/
theorem inUse_numberCertificates (next : Int) (records : List CertificateRecord) :
    inUse (numberCertificates next records) = inUse records := by
  induction records generalizing next with
  | nil => rfl
  | cons c records ih =>
    have hone : inUse [{ c with id := next }] = inUse [c] := by
      cases henabled : c.enabled <;> simp [inUse, runtimeCertificate, henabled]
    rw [numberCertificates, ← List.singleton_append, inUse_append, ih, hone, ← inUse_append]
    rfl

theorem defaultCertificate_of_unmarked {certificates : List TlsCertificateConfig}
    (h : ∀ c ∈ certificates, c.isDefault = false) :
    ContextManager.defaultCertificate certificates = certificates.head? := by
  unfold ContextManager.defaultCertificate
  rw [if_pos (by simpa using h)]

theorem defaultCertificate_of_marked {certificates : List TlsCertificateConfig}
    {c : TlsCertificateConfig} (hc : c ∈ certificates) (hmark : c.isDefault = true) :
    ContextManager.defaultCertificate certificates = certificates.find? (·.isDefault) := by
  unfold ContextManager.defaultCertificate
  rw [if_neg]
  simp only [List.all_eq_true, Bool.not_eq_true', not_forall]
  exact ⟨c, hc, by simp [hmark]⟩

/-- The same certificates with one mark have the same default one. -/
theorem defaultCertificate_eq_of_perm {certificates certificates' : List TlsCertificateConfig}
    (hp : certificates.Perm certificates') (hone : certificates.countP (·.isDefault) ≤ 1)
    {c : TlsCertificateConfig} (hc : c ∈ certificates) (hmark : c.isDefault = true) :
    ContextManager.defaultCertificate certificates =
      ContextManager.defaultCertificate certificates' := by
  rw [defaultCertificate_of_marked hc hmark, defaultCertificate_of_marked (hp.mem_iff.mp hc) hmark]
  refine Routing.HostTable.find?_eq_of_perm hp fun a ha b hb hma hmb => ?_
  by_contra hne
  have hsub : [a, b].Subperm certificates :=
    List.subperm_of_subset (by simpa using hne) (by simp [ha, hb])
  have := hsub.countP_le (·.isDefault)
  simp [hma, hmb] at this
  omega

/-- Among unmarked rows the listing keeps the order of the ids. -/
theorem filter_listed {p : CertificateRecord → Bool}
    (h : ∀ c ∈ rows, p c = true → c.isDefault = false) : (listed rows).filter p = rows.filter p := by
  have hfirst : (rows.filter (·.isDefault)).filter p = [] := by
    simp only [List.filter_filter, List.filter_eq_nil_iff, Bool.and_eq_true, not_and]
    intro c hc hp hmark
    rw [h c hc hp] at hmark
    cases hmark
  rw [listed, List.filter_append, hfirst, List.nil_append, List.filter_filter]
  refine List.filter_congr fun c hc => ?_
  cases hp : p c with
  | false => simp
  | true => simp [h c hc hp]

/-- The order of the listing does not matter when the rows are read. -/
theorem defaultCertificate_listed (rows : List CertificateRecord) :
    ContextManager.defaultCertificate (inUse (listed rows)) =
      ContextManager.defaultCertificate (inUse rows) := by
  by_cases hmarked : ∃ c ∈ rows, c.enabled = true ∧ c.isDefault = true
  · obtain ⟨c, hc, henabled, hmark⟩ := hmarked
    have hmem : runtimeCertificate c ∈ inUse rows :=
      List.mem_map_of_mem (List.mem_filter.mpr ⟨hc, henabled⟩)
    rw [defaultCertificate_of_marked hmem hmark,
      defaultCertificate_of_marked ((inUse_perm (listed_perm rows)).mem_iff.mpr hmem) hmark]
    -- both searches run over the marked rows, in the same order
    have hnone : ((rows.filter (!·.isDefault)).filter (·.enabled)).find? (·.isDefault) = none := by
      simp
    have hsame : ∀ l : List CertificateRecord, (inUse l).find? (·.isDefault) =
        ((l.filter (·.enabled)).find? (·.isDefault)).map runtimeCertificate := fun l => by
      rw [inUse, List.find?_map]
      rfl
    rw [hsame, hsame, listed, List.filter_append, List.find?_append, hnone, Option.or_none]
    congr 1
    simp only [List.find?_filter, List.filter_filter]
    congr 1
    funext c
    cases c.isDefault <;> simp
  · have hunmarked : ∀ c ∈ rows, c.enabled = true → c.isDefault = false := by
      intro c hc henabled
      cases hmark : c.isDefault with
      | false => rfl
      | true => exact absurd ⟨c, hc, henabled, hmark⟩ hmarked
    rw [inUse, inUse, filter_listed hunmarked]

end InUse

/-! ## The default certificate that is demoted -/

/-- Storing the certificate takes the mark from the default one and leaves that in use; no
certificate in use gets the mark, and one with a lower id is in use. -/
def Demotes (rows : List CertificateRecord) (certificate : CertificateRecord) : Prop :=
  ¬ (certificate.enabled = true ∧ certificate.isDefault = true) ∧
    ∃ d ∈ rows, d.isDefault = true ∧ (replacedBy certificate d).enabled = true ∧
      (replacedBy certificate d).isDefault = false ∧
      ∃ o ∈ rows, (replacedBy certificate o).enabled = true ∧ o.id < d.id

instance (rows : List CertificateRecord) (certificate : CertificateRecord) :
    Decidable (Demotes rows certificate) := by
  unfold Demotes
  infer_instance

section Demotes

variable {rows new : List CertificateRecord} {sequence : Int} {certificate : CertificateRecord}

theorem inUse_map (g : CertificateRecord → CertificateRecord) (l : List CertificateRecord) :
    inUse (l.map g) = (l.filter fun c => (g c).enabled).map fun c => runtimeCertificate (g c) := by
  simp only [inUse, List.filter_map, List.map_map]
  rfl

/-- Which of the two orders comes first when no certificate is marked. -/
theorem head?_inUse_iff (hrows : CertificatesWellFormed rows sequence)
    {g : CertificateRecord → CertificateRecord}
    (hnames : ((inUse (rows.map g)).map (·.name)).Nodup) :
    (inUse ((listed rows).map g) ++ inUse new).head? = (inUse (rows.map g) ++ inUse new).head? ↔
      ¬ ∃ d ∈ rows, d.isDefault = true ∧ (g d).enabled = true ∧
        ∃ o ∈ rows, (g o).enabled = true ∧ o.id < d.id := by
  rw [inUse_map] at hnames
  simp only [inUse_map]
  cases hfirst : (rows.filter (·.isDefault)).filter fun c => (g c).enabled with
  | nil =>
    have hnone : ∀ c ∈ rows, (g c).enabled = true → c.isDefault = false := by
      intro c hc henabled
      cases hmark : c.isDefault with
      | false => rfl
      | true =>
        have : c ∈ (rows.filter (·.isDefault)).filter fun c => (g c).enabled := by
          simp [hc, hmark, henabled]
        rw [hfirst] at this
        cases this
    rw [filter_listed hnone]
    simp only [true_iff]
    rintro ⟨d, hd, hmark, henabled, -⟩
    rw [hnone d hd henabled] at hmark
    cases hmark
  | cons d rest =>
    have hd : d ∈ rows ∧ d.isDefault = true ∧ (g d).enabled = true := by
      have : d ∈ (rows.filter (·.isDefault)).filter fun c => (g c).enabled := by simp [hfirst]
      simpa only [List.mem_filter, and_assoc] using this
    have hdmem : d ∈ rows.filter fun c => (g c).enabled := List.mem_filter.mpr ⟨hd.1, hd.2.2⟩
    -- the oldest certificate in use
    obtain ⟨r, older, hr⟩ : ∃ r older, rows.filter (fun c => (g c).enabled) = r :: older :=
      List.exists_cons_of_ne_nil (List.ne_nil_of_mem hdmem)
    have hrmem : r ∈ rows.filter fun c => (g c).enabled := by simp [hr]
    have hsorted : ∀ o ∈ rows, (g o).enabled = true → r.id ≤ o.id := by
      intro o ho henabled
      have hom : o ∈ r :: older := hr ▸ List.mem_filter.mpr ⟨ho, henabled⟩
      have hpair : ((r :: older).map (·.id)).Pairwise (· < ·) :=
        hr ▸ hrows.ids.sublist (List.filter_sublist.map _)
      rcases List.mem_cons.mp hom with rfl | hom
      · exact le_rfl
      · rw [List.map_cons, List.pairwise_cons] at hpair
        exact le_of_lt (hpair.1 o.id (List.mem_map_of_mem hom))
    have hhead : (((listed rows).filter fun c => (g c).enabled).map
        fun c => runtimeCertificate (g c)) ++ inUse new =
          runtimeCertificate (g d) :: (rest.map (fun c => runtimeCertificate (g c)) ++
            ((rows.filter (!·.isDefault)).filter fun c => (g c).enabled).map
              (fun c => runtimeCertificate (g c)) ++ inUse new) := by
      rw [listed, List.filter_append, hfirst]
      simp
    rw [hhead, hr, List.head?_cons, List.map_cons, List.cons_append, List.head?_cons,
      Option.some.injEq]
    have hsame : runtimeCertificate (g d) = runtimeCertificate (g r) ↔ d.id ≤ r.id := by
      constructor
      · intro heq
        rw [List.map_map] at hnames
        have := List.inj_on_of_nodup_map hnames hdmem hrmem (congrArg (·.name) heq)
        rw [this]
      · intro hle
        have hge := hsorted d hd.1 hd.2.2
        rw [eq_of_id_eq hrows.ids hd.1 (List.mem_of_mem_filter hrmem) (le_antisymm hle hge)]
    rw [hsame]
    constructor
    · rintro hle ⟨d', hd', hmark, -, o, ho, hused, hlt⟩
      have := hrows.oneDefault d hd.1 d' hd' hd.2.1 hmark
      have := hsorted o ho hused
      omega
    · intro hnot
      by_contra hlt
      exact hnot ⟨d, hd.1, hd.2.1, hd.2.2, r, List.mem_of_mem_filter hrmem,
        (List.mem_filter.mp hrmem).2, by omega⟩

/-- A mark that is in use afterwards is the new one, or one that was not taken away. -/
theorem not_demotes_of_marked (hrows : CertificatesWellFormed rows sequence)
    (hnew : ∀ c ∈ new, c.enabled = certificate.enabled ∧ c.isDefault = certificate.isDefault)
    {c : CertificateRecord} (hc : c ∈ rows.map (replacedBy certificate) ++ new)
    (henabled : c.enabled = true) (hmark : c.isDefault = true) : ¬ Demotes rows certificate := by
  rintro ⟨hself, d, hd, hdmark, -, hdafter, -⟩
  rcases List.mem_append.mp hc with hc | hc
  · obtain ⟨row, hrow, rfl⟩ := List.mem_map.mp hc
    rcases replacedBy_isDefault hmark with ⟨hcdefault, hid⟩ | ⟨-, hrowmark⟩
    · rw [replacedBy, if_pos hid] at henabled
      exact hself ⟨henabled, hcdefault⟩
    · have hsame := eq_of_id_eq hrows.ids hrow hd (hrows.oneDefault row hrow d hd hrowmark hdmark)
      rw [hsame, hdafter] at hmark
      cases hmark
  · obtain ⟨he, hm⟩ := hnew c hc
    exact hself ⟨he ▸ henabled, hm ▸ hmark⟩

/-- Without a mark in use, the rest of the condition is about the order alone. -/
theorem demotes_iff_of_unmarked (hstored : (∃ row ∈ rows, row.id = certificate.id) ∨ certificate ∈ new)
    (hunmarked : ∀ c ∈ rows.map (replacedBy certificate) ++ new, c.enabled = true →
      c.isDefault = false) :
    Demotes rows certificate ↔ ∃ d ∈ rows, d.isDefault = true ∧
      (replacedBy certificate d).enabled = true ∧
        ∃ o ∈ rows, (replacedBy certificate o).enabled = true ∧ o.id < d.id := by
  constructor
  · rintro ⟨-, d, hd, hmark, henabled, -, holder⟩
    exact ⟨d, hd, hmark, henabled, holder⟩
  · rintro ⟨d, hd, hmark, henabled, holder⟩
    refine ⟨?_, d, hd, hmark, henabled, ?_, holder⟩
    · rintro ⟨he, hm⟩
      have hmem : certificate ∈ rows.map (replacedBy certificate) ++ new := by
        rcases hstored with ⟨row, hrow, hid⟩ | hnew
        · refine List.mem_append_left _ (List.mem_map.mpr ⟨row, hrow, ?_⟩)
          rw [replacedBy, if_pos hid]
        · exact List.mem_append_right _ hnew
      rw [hunmarked certificate hmem he] at hm
      cases hm
    · exact hunmarked _ (List.mem_append_left _ (List.mem_map_of_mem hd)) henabled

/-- The two orders agree on the default certificate unless one is demoted. -/
theorem defaultCertificate_replaced_iff (hrows : CertificatesWellFormed rows sequence)
    (hnew : ∀ c ∈ new, c.enabled = certificate.enabled ∧ c.isDefault = certificate.isDefault)
    (hstored : (∃ row ∈ rows, row.id = certificate.id) ∨ certificate ∈ new)
    (hone : (inUse ((listed rows).map (replacedBy certificate) ++ new)).countP (·.isDefault) ≤ 1)
    (hnames : ((inUse ((listed rows).map (replacedBy certificate) ++ new)).map (·.name)).Nodup) :
    ContextManager.defaultCertificate (inUse ((listed rows).map (replacedBy certificate) ++ new)) =
        ContextManager.defaultCertificate (inUse (rows.map (replacedBy certificate) ++ new)) ↔
      ¬ Demotes rows certificate := by
  have hperm : (inUse ((listed rows).map (replacedBy certificate) ++ new)).Perm
      (inUse (rows.map (replacedBy certificate) ++ new)) :=
    inUse_perm (((listed_perm rows).map _).append_right new)
  by_cases hmarked : ∃ c ∈ rows.map (replacedBy certificate) ++ new,
      c.enabled = true ∧ c.isDefault = true
  · obtain ⟨c, hc, henabled, hmark⟩ := hmarked
    have hmem : runtimeCertificate c ∈ inUse (rows.map (replacedBy certificate) ++ new) :=
      List.mem_map_of_mem (List.mem_filter.mpr ⟨hc, henabled⟩)
    exact iff_of_true (defaultCertificate_eq_of_perm hperm hone (hperm.mem_iff.mpr hmem) hmark)
      (not_demotes_of_marked hrows hnew hc henabled hmark)
  · have hunmarked : ∀ c ∈ rows.map (replacedBy certificate) ++ new, c.enabled = true →
        c.isDefault = false := by
      intro c hc henabled
      cases hmark : c.isDefault with
      | false => rfl
      | true => exact absurd ⟨c, hc, henabled, hmark⟩ hmarked
    have hconfig : ∀ c ∈ inUse (rows.map (replacedBy certificate) ++ new), c.isDefault = false := by
      refine List.forall_mem_map.mpr fun c hc => ?_
      exact hunmarked c (List.mem_of_mem_filter hc) (List.mem_filter.mp hc).2
    rw [defaultCertificate_of_unmarked hconfig, defaultCertificate_of_unmarked
      fun c hc => hconfig c (hperm.mem_iff.mp hc), demotes_iff_of_unmarked hstored hunmarked,
      inUse_append, inUse_append]
    refine head?_inUse_iff hrows ?_
    have hnodup := (hperm.map (·.name)).nodup_iff.mp hnames
    rw [inUse_append, List.map_append] at hnodup
    exact (List.nodup_append.mp hnodup).1

end Demotes

/-- The operation demotes the default certificate. -/
def Op.Demotes (chk : Checks) (db : Database) : Op → Prop
  | .createCertificate certificate => ∃ c, chk.validateAndNormalizeCertificate certificate = .ok c ∧
      Config.Demotes db.certificates (db.numbered c)
  | .updateCertificate certificate => ∃ c, chk.validateAndNormalizeCertificate certificate = .ok c ∧
      Config.Demotes db.certificates c
  | _ => False

section Accepted

variable {chk : Checks} {db : Database} {op : Op} {sites : List SiteRecord}
  {certificates rows : List CertificateRecord} {settings : RuntimeSettingsRecord}

theorem inUse_numbered (db : Database) (c : CertificateRecord) : inUse [db.numbered c] = inUse [c] := by
  cases henabled : c.enabled <;> simp [inUse, runtimeCertificate, Database.numbered, henabled]

theorem Accepted.perm (h : Accepted chk db op sites certificates settings rows) :
    (inUse certificates).Perm (inUse (listed rows)) := by
  have hlisted := (inUse_perm (listed_perm rows)).symm
  cases h with
  | createSite _ => rfl
  | updateSite _ => rfl
  | deleteSite => rfl
  | @createCertificate certificate c _ =>
    refine List.Perm.trans ?_ hlisted
    rw [inUse_append, inUse_append, inUse_numbered]
    exact (inUse_perm ((listed_perm _).map _)).append_right _
  | updateCertificate _ _ => exact (inUse_perm ((listed_perm _).map _)).trans hlisted
  | deleteCertificate => exact (inUse_perm ((listed_perm _).filter _)).trans hlisted
  | updateRuntimeSettings _ => rfl
  | importConfiguration _ =>
    refine List.Perm.trans ?_ hlisted
    rw [inUse_numberCertificates]

/-- What is published and what is read back have the same default certificate, unless the operation
demotes it. -/
theorem Accepted.defaultCertificate_iff (hdb : db.WellFormed)
    (h : Accepted chk db op sites certificates settings rows)
    (hone : (inUse certificates).countP (·.isDefault) ≤ 1)
    (hnames : ((inUse certificates).map (·.name)).Nodup) :
    ContextManager.defaultCertificate (inUse certificates) =
      ContextManager.defaultCertificate (inUse (listed rows)) ↔ ¬ op.Demotes chk db := by
  cases h with
  | createSite _ => exact iff_of_true rfl id
  | updateSite _ => exact iff_of_true rfl id
  | deleteSite => exact iff_of_true rfl id
  | @createCertificate certificate c hc =>
    have hlast : inUse ((listed db.certificates).map (replacedBy (db.numbered c)) ++ [c]) =
        inUse ((listed db.certificates).map (replacedBy (db.numbered c)) ++ [db.numbered c]) := by
      rw [inUse_append, inUse_append, inUse_numbered]
    rw [hlast] at hone hnames ⊢
    rw [defaultCertificate_listed, defaultCertificate_replaced_iff hdb.certificates (by simp)
      (.inr (by simp)) hone hnames]
    simp [Op.Demotes, hc]
  | @updateCertificate certificate c hc hexists =>
    rw [← List.append_nil ((listed db.certificates).map (replacedBy c))] at hone hnames
    have hiff := defaultCertificate_replaced_iff hdb.certificates (by simp) (.inl hexists) hone hnames
    rw [List.append_nil, List.append_nil] at hiff
    rw [defaultCertificate_listed, hiff]
    simp [Op.Demotes, hc]
  | deleteCertificate =>
    refine iff_of_true ?_ id
    have hlisted : ∀ p : CertificateRecord → Bool,
        (listed db.certificates).filter p = listed (db.certificates.filter p) := fun p => by
      simp only [listed, List.filter_append, List.filter_filter, Bool.and_comm]
    rw [hlisted]
  | updateRuntimeSettings _ => exact iff_of_true rfl id
  | importConfiguration _ =>
    refine iff_of_true ?_ id
    rw [defaultCertificate_listed, inUse_numberCertificates]

/-- Only certificates are written by an operation that demotes one. -/
theorem Accepted.sites_of_demotes (h : Accepted chk db op sites certificates settings rows)
    (hop : op.Demotes chk db) : sites = db.listSites := by
  cases h with
  | createCertificate _ => rfl
  | updateCertificate _ _ => rfl
  | deleteCertificate => rfl
  | updateRuntimeSettings _ => rfl
  | createSite _ => exact hop.elim
  | updateSite _ => exact hop.elim
  | deleteSite => exact hop.elim
  | importConfiguration _ => exact hop.elim

end Accepted

/-! ## The configuration that a restart builds -/

/-- `load_runtime_config`, and the snapshot that is built from it. -/
def restart (chk : Checks) (db : Database) : Except Error RuntimeConfig := do
  let spec ← buildRuntimeSpec chk db.listSites db.listCertificates db.settings db.revision
  buildRuntimeConfig chk spec

/-- The same revision, sites, settings and ports, and for every client the same answer to its server
name, or to the lack of one. -/
structure SameBehaviour (openssl : OpenSsl) (c c' : RuntimeConfig) : Prop where
  revision : c.revision = c'.revision
  sites : c.spec.sites = c'.spec.sites
  settings : c.spec.settings = c'.spec.settings
  httpPorts : c.httpPorts = c'.httpPorts
  httpsPorts : c.httpsPorts = c'.httpsPorts
  answers : c.httpsPorts ≠ [] → ∃ m m',
    ContextManager.make openssl c.spec.tlsCertificates c.spec.rejectUnknownSni = .ok m ∧
    ContextManager.make openssl c'.spec.tlsCertificates c'.spec.rejectUnknownSni = .ok m' ∧
    ∀ serverName, m.serverNameCallback serverName = m'.serverNameCallback serverName

/-- Some site that is in use has an HTTPS listener. -/
def ServesHttps (chk : Checks) (sites : List SiteRecord) : Prop :=
  ∃ site ∈ sites, ∃ s, chk.validateAndNormalize site = .ok s ∧ s.enabled = true ∧
    s.httpsEnabled = true

section Restart

variable {chk : Checks} {sites : List SiteRecord} {certificates : List CertificateRecord}
  {settings : RuntimeSettingsRecord} {revision : Nat} {spec : RuntimeConfigSpec}

theorem buildRuntimeSpec_ok
    (h : buildRuntimeSpec chk sites certificates settings revision = .ok spec) :
    (∃ normalized, sites.mapM chk.validateAndNormalize = .ok normalized ∧
      spec.sites = (normalized.filter (·.enabled)).map runtimeSite) ∧
    spec.tlsCertificates = inUse certificates ∧
    ∀ records, buildRuntimeSpec chk sites records settings revision =
      .ok { spec with tlsCertificates := inUse records } := by
  unfold buildRuntimeSpec at h ⊢
  obtain ⟨normalized, hsites, h⟩ := Result.bind_ok h
  obtain ⟨t, hsettings, h⟩ := Result.bind_ok h
  cases h
  refine ⟨⟨normalized, hsites, rfl⟩, rfl, fun records => ?_⟩
  rw [hsites, hsettings]
  rfl

theorem sortedPorts_eq_nil {ports : List Nat} : sortedPorts ports = [] ↔ ports = [] := by
  unfold sortedPorts
  rw [← List.length_eq_zero_iff, List.length_insertionSort, List.length_eq_zero_iff]
  exact List.dedup_eq_nil ports

theorem httpsPorts_ne_nil_iff {c : RuntimeConfig}
    (hspec : buildRuntimeSpec chk sites certificates settings revision = .ok spec)
    (hc : buildRuntimeConfig chk spec = .ok c) : c.httpsPorts ≠ [] ↔ ServesHttps chk sites := by
  obtain ⟨⟨normalized, hsites, hspecSites⟩, -, -⟩ := buildRuntimeSpec_ok hspec
  have hports : c.httpsPorts =
      sortedPorts ((spec.sites.filter (·.httpsEnabled)).map (·.httpsPort)) := by
    simp only [buildRuntimeConfig] at hc
    split at hc <;> cases hc
    rfl
  rw [hports, Ne, sortedPorts_eq_nil, List.map_eq_nil_iff, hspecSites]
  constructor
  · intro hne
    obtain ⟨r, hr⟩ := List.exists_mem_of_ne_nil _ hne
    simp only [List.mem_filter, List.mem_map] at hr
    obtain ⟨⟨s, ⟨hs, henabled⟩, rfl⟩, hhttps⟩ := hr
    obtain ⟨site, hsite, hvalid⟩ := Result.mapM_ok hsites s hs
    exact ⟨site, hsite, s, hvalid, henabled, hhttps⟩
  · rintro ⟨site, hsite, s, hvalid, henabled, hhttps⟩
    obtain ⟨s', hs', hvalid'⟩ := Result.mapM_ok_mem hsites site hsite
    rw [hvalid, Except.ok.injEq] at hvalid'
    subst hvalid'
    refine List.ne_nil_of_mem (a := runtimeSite s) ?_
    simp only [List.mem_filter, List.mem_map]
    exact ⟨⟨s, ⟨hs', henabled⟩, rfl⟩, hhttps⟩

variable {base : Checks} {check : VirtualHostConfig → Except Error Unit} {openssl : OpenSsl}

/-- The test of the HTTPS domains does not depend on the order of the certificates. -/
theorem checkContexts_perm {l : List TlsCertificateConfig} (hp : spec.tlsCertificates.Perm l)
    (h : checkContexts openssl spec = .ok ()) :
    checkContexts openssl { spec with tlsCertificates := l } = .ok () := by
  unfold checkContexts at h ⊢
  obtain ⟨m, hm, hsites⟩ := Result.bind_ok h
  obtain ⟨m', hm'⟩ := ContextManager.make_perm hp hm
  have hsame : checkDomain m' = checkDomain m := by
    funext domain
    unfold checkDomain
    rw [ContextManager.canServeDomain_eq_of_perm hp hm hm']
  dsimp only
  rw [hm']
  change (spec.sites.filter (·.httpsEnabled)).forM _ = _
  rw [hsame]
  exact hsites

theorem buildRuntimeConfig_perm {c : RuntimeConfig} {l : List TlsCertificateConfig}
    (hp : spec.tlsCertificates.Perm l)
    (h : buildRuntimeConfig (runtimeChecks base check openssl) spec = .ok c) :
    buildRuntimeConfig (runtimeChecks base check openssl) { spec with tlsCertificates := l } =
      .ok { c with spec := { spec with tlsCertificates := l } } := by
  obtain ⟨hspec, hcheck⟩ := buildRuntimeConfig_ok h
  have htls := (checkRuntimeSpec_ok hcheck).2.2
  have hcheck' : checkRuntimeSpec (runtimeChecks base check openssl)
      { spec with tlsCertificates := l } c.httpPorts c.httpsPorts = .ok () := by
    rw [← hcheck]
    unfold checkRuntimeSpec
    by_cases hports : c.httpsPorts = []
    · simp only [hports, List.isEmpty_nil, Bool.not_true, Bool.false_eq_true, if_false]
    · have hok := htls hports
      simp only [runtimeChecks] at hok ⊢
      simp only [hok, checkContexts_perm hp hok]
  simp only [buildRuntimeConfig] at h ⊢
  split at h
  · cases h
  · cases h
    rw [hcheck']

end Restart

section Published

variable {base : Checks} {check : VirtualHostConfig → Except Error Unit} {openssl : OpenSsl}
  {spec : RuntimeConfigSpec} {c : RuntimeConfig}

/-- The contexts of a configuration with an HTTPS listener. -/
theorem exists_make (h : buildRuntimeConfig (runtimeChecks base check openssl) spec = .ok c)
    (hports : c.httpsPorts ≠ []) :
    ∃ m, ContextManager.make openssl spec.tlsCertificates spec.rejectUnknownSni = .ok m := by
  obtain ⟨port, hport⟩ := List.exists_mem_of_ne_nil _ hports
  obtain ⟨-, m, hm, -⟩ := exists_contexts h hport
  exact ⟨m, hm⟩

/-- The certificates in another order behave alike when the default one is the same, or when nobody
asks. -/
theorem sameBehaviour_perm_iff {l : List TlsCertificateConfig} (hp : spec.tlsCertificates.Perm l)
    (h : buildRuntimeConfig (runtimeChecks base check openssl) spec = .ok c) :
    SameBehaviour openssl c { c with spec := { spec with tlsCertificates := l } } ↔
      (c.httpsPorts ≠ [] → ContextManager.defaultCertificate spec.tlsCertificates =
        ContextManager.defaultCertificate l) := by
  obtain ⟨hspec, -⟩ := buildRuntimeConfig_ok h
  constructor
  · intro hsame hports
    obtain ⟨m, m', hm, hm', hanswers⟩ := hsame.answers hports
    rw [hspec] at hm
    exact (ContextManager.sameAnswers_iff hp hm hm').mp hanswers
  · intro hdefault
    refine ⟨?_, ?_, ?_, rfl, rfl, fun hports => ?_⟩
    · rw [RuntimeConfig.revision, hspec]; rfl
    · rw [hspec]
    · rw [hspec]
    · obtain ⟨m, hm⟩ := exists_make h hports
      obtain ⟨m', hm'⟩ := ContextManager.make_perm hp hm
      rw [hspec]
      exact ⟨m, m', hm, hm', (ContextManager.sameAnswers_iff hp hm hm').mpr (hdefault hports)⟩

/-- One operation: what is published against what is read back. -/
theorem Performed.sameBehaviour_iff {w w' : World} {op : Op} {sites : List SiteRecord}
    {certificates rows : List CertificateRecord} {settings : RuntimeSettingsRecord}
    (hdb : w.database.WellFormed) (h : Performed (runtimeChecks base check openssl) w w' op sites
      certificates settings rows spec c) :
    ∃ c', restart (runtimeChecks base check openssl) w'.database = .ok c' ∧
      (SameBehaviour openssl c c' ↔
        ¬ (ServesHttps (runtimeChecks base check openssl) w.database.listSites ∧
          op.Demotes (runtimeChecks base check openssl) w.database)) := by
  obtain ⟨-, htls, hspec'⟩ := buildRuntimeSpec_ok h.spec_eq
  have hp : spec.tlsCertificates.Perm (inUse (listed rows)) := htls ▸ h.accepted.perm
  have hlisted : w'.database.listCertificates = listed rows := by
    rw [← h.reads.certificates]
    rfl
  refine ⟨{ c with spec := { spec with tlsCertificates := inUse (listed rows) } }, ?_, ?_⟩
  · unfold restart
    rw [h.reads.sites, hlisted, h.reads.settings, h.reads.revision, hspec']
    exact buildRuntimeConfig_perm hp h.config_eq
  · rw [sameBehaviour_perm_iff hp h.config_eq]
    have hports := httpsPorts_ne_nil_iff h.spec_eq h.config_eq
    have hdefault : c.httpsPorts ≠ [] →
        (ContextManager.defaultCertificate spec.tlsCertificates =
          ContextManager.defaultCertificate (inUse (listed rows)) ↔
            ¬ op.Demotes (runtimeChecks base check openssl) w.database) := by
      intro hne
      obtain ⟨m, hm⟩ := exists_make h.config_eq hne
      have haccepted := (ContextManager.make_ok_iff.mp hm).1
      rw [htls] at haccepted ⊢
      exact h.accepted.defaultCertificate_iff hdb haccepted.oneDefault haccepted.names
    constructor
    · rintro hsame ⟨hhttps, hop⟩
      rw [← h.accepted.sites_of_demotes hop] at hhttps
      have hne := hports.mpr hhttps
      exact (hdefault hne).mp (hsame hne) hop
    · intro hnot hne
      refine (hdefault hne).mpr fun hop => hnot ⟨?_, hop⟩
      rw [← h.accepted.sites_of_demotes hop]
      exact hports.mp hne

end Published

/-! ## Reachable states -/

/-- What `migrate` and `seed_default_site` leave in a new file. -/
def Database.fresh : Database where
  sites := [{
    id := 1
    name := "Example site"
    backendAddress := "127.0.0.1"
    backendPort := 8090
    httpPort := 80
    httpsEnabled := true
    httpsPort := 443 }]
  siteDomains := [(1, "example.com"), (1, "www.example.com")]
  siteSequence := some 1
  certificates := []
  certificateSequence := none
  settings := {}
  revision := 2

/-- The tables that a service finds when it starts: new ones, or what a service has left. -/
inductive Stored : Database → Prop where
  | fresh : Stored Database.fresh
  | left {chk : Checks} {db : Database} {runtime : RuntimeConfig} {es : List Event} {w : World} :
      Stored db → Run.run (step chk) (World.initial db runtime) es = some w → Stored w.database

theorem wellFormed_fresh : Database.fresh.WellFormed :=
  ⟨⟨by decide, by decide, by decide, by decide, by decide⟩,
    ⟨by decide, by decide, by decide, by decide, by decide⟩⟩

section Reachable

variable {chk : Checks} {env : Env} {w w' : World}

/-- A throw leaves the tables as they were. -/
theorem database_after {P : Database → Prop} {m : Service Unit} {Q : Unit → World → Prop}
    (hw : P w.database) (hspec : Spec (· = w) m Q (Unchanged w))
    (hok : ∀ u w', m w = .ok u w' → P w'.database) : P (after m w).database := by
  have h := hspec w rfl
  unfold after
  cases hm : m w with
  | ok u w' => exact hok u w' hm
  | error e w' =>
    rw [hm] at h
    have hdb : w'.database = w.database := by rw [h.frame]
    rw [hdb]
    exact hw

theorem reloadRuntime_ok {u : Unit} (h : reloadRuntime chk env w = .ok u w') :
    w'.database = w.database := by
  obtain ⟨v, w₁, hget, h⟩ := bind_eq_ok h
  cases hget
  replace h := (require_bind_ok h).2
  iterate 4 replace h := read_bind_ok h
  obtain ⟨candidate, -, h⟩ := check_bind_ok h
  obtain ⟨activation, w₂, hprepare, hmodify⟩ := bind_eq_ok h
  cases hmodify
  obtain ⟨c, -, hframe, -⟩ := prepareCandidateLocked_ok hprepare
  rw [commitCandidateLocked_database, hframe]

/-- The first certificate is stored as the default one. -/
theorem seedDefaultCertificate_ok (hw : w.database.WellFormed) {certificate : CertificateRecord}
    {u : Unit} (h : seedDefaultCertificate chk env certificate w = .ok u w') :
    w'.database = w.database ∨
      ∃ c, chk.validateAndNormalizeCertificate { certificate with isDefault := true } = .ok c ∧
        Reads w'.database w.database.listSites
          (w.database.certificates.map (replacedBy (w.database.numbered c)) ++
            [w.database.numbered c]) w.database.settings (w.database.revision + 1) := by
  replace h := read_bind_ok h
  split at h
  · cases h
    exact .inl rfl
  · obtain ⟨c, hc, h⟩ := check_bind_ok h
    iterate 3 replace h := read_bind_ok h
    obtain ⟨candidate, -, h⟩ := check_bind_ok h
    obtain ⟨activation, w₁, hprepare, h⟩ := bind_eq_ok h
    obtain ⟨id, w₂, hwrite, hmodify⟩ := bind_eq_ok h
    cases hmodify
    obtain ⟨_, -, hframe, -⟩ := prepareCandidateLocked_ok hprepare
    obtain ⟨hcreate, -⟩ := onDatabase_ok (guarded_eq_ok hwrite)
    have hkeep : ∀ r, (commitSeed activation r w₂).database = w₂.database := by
      intro r
      cases activation <;> rfl
    rw [hframe] at hcreate
    rw [hkeep]
    exact .inr ⟨c, hc, Repository.createCertificate_ok hw hcreate⟩

theorem wellFormed_step {e : Event} (hidle : Idle w.server) (hw : w.database.WellFormed)
    (hs : step chk w e = some w') : w'.database.WellFormed := by
  cases e with
  | change op env =>
    cases hs
    refine database_after hw (spec_perform chk env hidle op) fun u w' hm => ?_
    obtain ⟨_, _, _, _, _, _, hperformed⟩ := perform_ok hw hm
    exact hperformed.reads.wellFormed
  | reloadRuntime env =>
    cases hs
    exact database_after hw (spec_reloadRuntime chk env hidle) fun u w' hm =>
      (reloadRuntime_ok hm).symm ▸ hw
  | seedDefaultCertificate certificate env =>
    cases hs
    refine database_after hw (spec_seedDefaultCertificate chk env hidle certificate)
      fun u w' hm => ?_
    rcases seedDefaultCertificate_ok hw hm with hsame | ⟨c, -, hreads⟩
    · exact hsame.symm ▸ hw
    · exact hreads.wellFormed
  | setReloadHandler => cases hs; exact hw
  | markRuntimeUnavailable => cases hs; exact hw
  | startServer env => cases hs; exact hw
  | stopServer => cases hs; exact hw
  | drained protocol id => cases hs; exact hw
  | limiter e =>
    simp only [step, Option.map_eq_some_iff] at hs
    obtain ⟨l, -, rfl⟩ := hs
    exact hw

theorem wellFormed_run {db : Database} {runtime : RuntimeConfig} {es : List Event}
    (hdb : db.WellFormed) (hr : Run.run (step chk) (World.initial db runtime) es = some w) :
    w.database.WellFormed :=
  (Run.run_inv (P := fun w => Idle w.server ∧ w.database.WellFormed)
    (fun _ _ _ h hs => ⟨idle_step chk h.1 hs, wellFormed_step h.1 h.2 hs⟩)
    ⟨⟨rfl, rfl, by simp [World.initial]⟩, hdb⟩ hr).2

/-- Over any number of restarts the tables stay well formed. -/
theorem Stored.wellFormed {db : Database} (h : Stored db) : db.WellFormed := by
  induction h with
  | fresh => exact wellFormed_fresh
  | left _ hr ih => exact wellFormed_run ih hr

end Reachable

/-- In every state that the service reaches, for every operation that returns: a restart can load
what is stored, and behaves as what is published exactly when the operation does not demote the
default certificate while a site serves HTTPS. -/
theorem published_iff_restart (base : Checks) (check : VirtualHostConfig → Except Error Unit)
    (openssl : OpenSsl) (db : Database) (hdb : Stored db) (runtime : RuntimeConfig)
    (es : List Event) (w : World)
    (hr : Run.run (step (runtimeChecks base check openssl)) (World.initial db runtime) es = some w)
    (hh : w.reloadHandler = true) (op : Op) (env : Env) (w' : World)
    (hop : perform (runtimeChecks base check openssl) env op w = .ok () w') :
    ∃ c, restart (runtimeChecks base check openssl) w'.database = .ok c ∧
      (SameBehaviour openssl w'.server.runtime c ↔
        ¬ (ServesHttps (runtimeChecks base check openssl) w.database.listSites ∧
          op.Demotes (runtimeChecks base check openssl) w.database)) := by
  have hwell := wellFormed_run hdb.wellFormed hr
  obtain ⟨_, _, _, _, _, c, hperformed⟩ := perform_ok hwell hop
  rw [hperformed.published hh]
  exact hperformed.sameBehaviour_iff hwell

/-! ## A default certificate that loses its mark -/

namespace Demotion

def chk : Checks := runtimeChecks lenient (fun _ => .ok ()) (fun _ _ => .ok ())

/-- The certificate that a new installation is seeded with. -/
def seeded : CertificateRecord :=
  { name := "seeded"
    domains := ["example.com", "www.example.com"]
    certificatePem := "certificate"
    privateKeyPem := "key" }

def second (isDefault : Bool) : CertificateRecord :=
  { id := 2
    name := "second"
    isDefault := isDefault
    domains := ["other.test"]
    certificatePem := "certificate"
    privateKeyPem := "key" }

def events : List Event :=
  [.seedDefaultCertificate seeded calm, .setReloadHandler,
    .change (.createCertificate (second true)) calm]

/-- Two certificates, the second of which is the default one. -/
def reached : World :=
  (Run.run (step chk) (World.initial Database.fresh emptyRuntime) events).getD
    (World.initial Database.fresh emptyRuntime)

theorem run_events :
    Run.run (step chk) (World.initial Database.fresh emptyRuntime) events = some reached := rfl

theorem exists_of_returns {w : World} {m : Service Unit} (h : returns (m w) = true) :
    ∃ w', m w = .ok () w' := by
  cases hm : m w with
  | ok u w' => exact ⟨w', rfl⟩
  | error e w' => rw [hm] at h; cases h

def third : CertificateRecord :=
  { name := "third"
    domains := ["third.test"]
    certificatePem := "certificate"
    privateKeyPem := "key" }

/-- The names of the default certificates, published and after a restart. -/
def defaults (op : Op) : Option String × Option String :=
  match perform chk calm op reached with
  | .error _ _ => (none, none)
  | .ok _ w =>
    ((ContextManager.defaultCertificate w.server.runtime.spec.tlsCertificates).map (·.name),
      (restart chk w.database).toOption.bind fun c =>
        (ContextManager.defaultCertificate c.spec.tlsCertificates).map (·.name))

end Demotion

/-- A third certificate leaves the default one alone. -/
theorem published_third : ∃ w' c,
    perform Demotion.chk calm (.createCertificate Demotion.third) Demotion.reached = .ok () w' ∧
    restart Demotion.chk w'.database = .ok c ∧
    SameBehaviour (fun _ _ => .ok ()) w'.server.runtime c := by
  obtain ⟨w', hop⟩ := Demotion.exists_of_returns
    (m := perform Demotion.chk calm (.createCertificate Demotion.third)) (w := Demotion.reached)
    (by decide)
  obtain ⟨c, hc, hiff⟩ := published_iff_restart lenient (fun _ => .ok ()) (fun _ _ => .ok ())
    Database.fresh .fresh emptyRuntime Demotion.events Demotion.reached Demotion.run_events
    (by decide) (.createCertificate Demotion.third) calm w' hop
  refine ⟨w', c, hop, hc, hiff.mpr ?_⟩
  rintro ⟨-, c, hvalid, hdemotes⟩
  cases hvalid
  exact absurd hdemotes (by decide)

/-- The second certificate is updated and is no longer the default one. It stays so in the published
configuration, and after a restart the first one is. -/
theorem demoted_default_differs : ∃ w' c,
    Run.run (step Demotion.chk) (World.initial Database.fresh emptyRuntime) Demotion.events =
      some Demotion.reached ∧ Demotion.reached.reloadHandler = true ∧
    perform Demotion.chk calm (.updateCertificate (Demotion.second false)) Demotion.reached =
      .ok () w' ∧
    restart Demotion.chk w'.database = .ok c ∧
    (ContextManager.defaultCertificate w'.server.runtime.spec.tlsCertificates).map (·.name) =
      some "second" ∧
    (ContextManager.defaultCertificate c.spec.tlsCertificates).map (·.name) = some "seeded" ∧
    ¬ SameBehaviour (fun _ _ => .ok ()) w'.server.runtime c := by
  have hhandler : Demotion.reached.reloadHandler = true := by decide
  obtain ⟨w', hop⟩ := Demotion.exists_of_returns
    (m := perform Demotion.chk calm (.updateCertificate (Demotion.second false)))
    (w := Demotion.reached) (by decide)
  have hwell := wellFormed_run wellFormed_fresh Demotion.run_events
  obtain ⟨_, _, _, _, _, c, hperformed⟩ := perform_ok hwell hop
  obtain ⟨c', hc', hiff⟩ := hperformed.sameBehaviour_iff hwell
  have hnames : Demotion.defaults (.updateCertificate (Demotion.second false)) =
      (some "second", some "seeded") := by decide
  unfold Demotion.defaults at hnames
  rw [hop] at hnames
  have hrestart : restart Demotion.chk w'.database = .ok c' := hc'
  simp only [hrestart, Except.toOption, Option.bind_some, Prod.mk.injEq] at hnames
  refine ⟨w', c', Demotion.run_events, hhandler, hop, hc', hnames.1, hnames.2, ?_⟩
  rw [hperformed.published hhandler]
  refine fun hsame => hiff.mp hsame ⟨?_, Demotion.second false, rfl, by decide⟩
  have hsites : ∃ site ∈ Demotion.reached.database.listSites,
      site.enabled = true ∧ site.httpsEnabled = true := by decide
  obtain ⟨site, hsite, henabled, hhttps⟩ := hsites
  exact ⟨site, hsite, site, rfl, henabled, hhttps⟩

end Config
end WebServer
