import WebServer.Config.Valid

/-!
# WebServer.Config.RoundTrip

A backup that was exported by one service and is imported by another, or by the same one later.

The document has the records as they are stored. An import validates them again, numbers them anew
and builds a candidate from them. Both services have gone through changes of their own: `World.Sound`
is all that is known of them.

* `exportable_of_valid`: what is stored can be written so that it is read back.
* `exported_decodes`: an exported document is refused for its length or read back.
* `restored_of_performed`: what an import that returns has stored.
* `import_accepted_iff`: its candidate is accepted exactly if the one of the exporting service is, since
  no test of a candidate reads an id (`buildRuntimeConfig_erased`).
-/

namespace WebServer
namespace Config

open Act WebServer.Core Routing
open Tls (ContextManager)

/-! ## Candidates without ids -/

def VirtualHostConfig.withoutId (host : VirtualHostConfig) : VirtualHostConfig :=
  { host with overload := { host.overload with siteId := 0 }, site := host.site.withoutId }

def RuntimeSiteConfig.withoutId (site : RuntimeSiteConfig) : RuntimeSiteConfig :=
  { site with virtualHost := site.virtualHost.withoutId }

/-- The candidate with another revision and without ids. -/
def RuntimeConfigSpec.erased (spec : RuntimeConfigSpec) : RuntimeConfigSpec :=
  { spec with revision := 1, sites := spec.sites.map (·.withoutId) }

section Erased

variable {φ : Type} {lib : Libraries φ}

theorem hostsOn_withoutId (sites : List RuntimeSiteConfig) {enabled : RuntimeSiteConfig → Bool}
    {portOf : RuntimeSiteConfig → Nat} (henabled : ∀ s, enabled s.withoutId = enabled s)
    (hport : ∀ s, portOf s.withoutId = portOf s) (port : Nat) :
    hostsOn (sites.map (·.withoutId)) enabled portOf port =
      (hostsOn sites enabled portOf port).map (·.withoutId) := by
  unfold hostsOn
  simp only [List.filter_map, Function.comp_def, henabled, hport, List.map_map]
  rfl

/-- The router accepts the hosts with their ids or without. -/
theorem virtualHostRouter_withoutId (hosts : List VirtualHostConfig) :
    (checks lib).virtualHostRouter (hosts.map (·.withoutId)) = (checks lib).virtualHostRouter hosts :=
  (VirtualHostRouter.make_map (fun _ => rfl) (fun _ => rfl) hosts).symm

theorem checkContexts_withoutId (spec : RuntimeConfigSpec) :
    checkContexts lib.openssl spec.erased = checkContexts lib.openssl spec := by
  unfold checkContexts
  simp only [RuntimeConfigSpec.erased, List.filter_map, List.forM_eq_forM, List.forM_map]
  rfl

theorem checkRuntimeSpec_erased {spec : RuntimeConfigSpec} (hrevision : spec.revision ≠ 0)
    (http https : List Nat) :
    checkRuntimeSpec (checks lib) spec.erased http https =
      checkRuntimeSpec (checks lib) spec http https := by
  have hsettings : spec.erased.settings = spec.settings := rfl
  have hrevision' : spec.erased.revision ≠ 0 := one_ne_zero
  have hsites : spec.erased.sites = spec.sites.map (·.withoutId) := rfl
  have htls : (checks lib).tlsContexts spec.erased = (checks lib).tlsContexts spec :=
    checkContexts_withoutId spec
  have hhttp : ∀ port, (checks lib).virtualHostRouter
      (hostsOn spec.erased.sites (·.httpEnabled) (·.httpPort) port) =
        (checks lib).virtualHostRouter (hostsOn spec.sites (·.httpEnabled) (·.httpPort) port) := by
    intro port
    rw [hsites, hostsOn_withoutId _ (fun _ => rfl) (fun _ => rfl), virtualHostRouter_withoutId]
  have hhttps : ∀ port, (checks lib).virtualHostRouter
      (hostsOn spec.erased.sites (·.httpsEnabled) (·.httpsPort) port) =
        (checks lib).virtualHostRouter (hostsOn spec.sites (·.httpsEnabled) (·.httpsPort) port) := by
    intro port
    rw [hsites, hostsOn_withoutId _ (fun _ => rfl) (fun _ => rfl), virtualHostRouter_withoutId]
  have hfind : (spec.erased.sites.find? fun s => !s.httpEnabled && !s.httpsEnabled) =
      (spec.sites.find? fun s => !s.httpEnabled && !s.httpsEnabled).map (·.withoutId) := by
    rw [hsites, List.find?_map]
    rfl
  unfold checkRuntimeSpec
  simp only [hsettings, hfind, hhttp, hhttps, htls, if_neg hrevision, if_neg hrevision']
  cases spec.sites.find? fun s => !s.httpEnabled && !s.httpsEnabled with
  | none => rfl
  | some s => rfl

/-- No test reads an id, and of the revision only whether there is one. -/
theorem buildRuntimeConfig_erased {spec : RuntimeConfigSpec} (hrevision : spec.revision ≠ 0) :
    (∃ c, buildRuntimeConfig (checks lib) spec.erased = .ok c) ↔
      ∃ c, buildRuntimeConfig (checks lib) spec = .ok c := by
  have hhttp : (spec.erased.sites.filter (·.httpEnabled)).map (·.httpPort) =
      (spec.sites.filter (·.httpEnabled)).map (·.httpPort) := by
    simp only [RuntimeConfigSpec.erased, List.filter_map, List.map_map]
    rfl
  have hhttps : (spec.erased.sites.filter (·.httpsEnabled)).map (·.httpsPort) =
      (spec.sites.filter (·.httpsEnabled)).map (·.httpsPort) := by
    simp only [RuntimeConfigSpec.erased, List.filter_map, List.map_map]
    rfl
  unfold buildRuntimeConfig
  simp only [hhttp, hhttps, checkRuntimeSpec_erased hrevision]
  split
  · simp
  · simp

end Erased

/-! ## What is exported -/

section Exported

variable {φ : Type} {lib : Libraries φ} {db : Database} {w w' : World}

theorem validateTimeout_le {value : Nat} {name : String} {u : Unit}
    (h : validateTimeout value name = .ok u) : value ≤ 86400 := by
  unfold validateTimeout validTimeout at h
  split at h
  · rename_i hvalid
    simp only [Bool.and_eq_true, decide_eq_true_eq] at hvalid
    exact hvalid.2
  · cases h

/-- A site that is kept can be written into a document. -/
theorem SiteRecord.Kept.exportable {site : SiteRecord} (h : site.Kept lib) : site.Exportable lib := by
  obtain ⟨s, hs⟩ := h.accepted
  obtain ⟨names, json, hv⟩ := validate_ok_iff.mp hs
  have hfields := hv.fields
  unfold checkSite at hfields
  iterate 7 obtain ⟨-, hfields⟩ := Result.guard_ok hfields
  obtain ⟨_, hactive, hfields⟩ := Result.bind_ok hfields
  obtain ⟨_, hqueue, hfields⟩ := Result.bind_ok hfields
  obtain ⟨_, htimeout, hfields⟩ := Result.bind_ok hfields
  obtain ⟨_, hconnect, hfields⟩ := Result.bind_ok hfields
  obtain ⟨_, hresponse, -⟩ := Result.bind_ok hfields
  replace hactive := (SitePolicy.checkedU32_ok hactive).2
  replace hqueue := (SitePolicy.checkedU32_ok hqueue).2
  replace htimeout := (SitePolicy.checkedU32_ok htimeout).2
  replace hconnect := (SitePolicy.checkedU32_ok hconnect).2
  replace hresponse := (SitePolicy.checkedU32_ok hresponse).2
  have hread := h.read
  refine ⟨⟨hread.backend, hread.http.2, hread.https.2, ?_, ?_, hread.window, hread.maxRequests,
    hread.ban, ?_, ?_, ?_⟩, h.normal, hread.http.1, hread.https.1⟩
  all_goals omega

/-- The tests of the settings leave no number that is too large. -/
theorem fits_of_validated {settings s : RuntimeSettingsRecord}
    (h : validateRuntimeSettings lib settings = .ok s) : settings.Fits := by
  unfold validateRuntimeSettings at h
  obtain ⟨-, h⟩ := Result.guard_ok h
  obtain ⟨_, -, h⟩ := Result.bind_ok h
  obtain ⟨hupload, h⟩ := Result.guard_ok h
  obtain ⟨hpool, h⟩ := Result.guard_ok h
  obtain ⟨-, h⟩ := Result.guard_ok h
  obtain ⟨_, -, h⟩ := Result.bind_ok h
  obtain ⟨_, h₁, h⟩ := Result.bind_ok h
  obtain ⟨_, h₂, h⟩ := Result.bind_ok h
  obtain ⟨_, h₃, h⟩ := Result.bind_ok h
  obtain ⟨_, h₄, h⟩ := Result.bind_ok h
  obtain ⟨_, h₅, h⟩ := Result.bind_ok h
  obtain ⟨_, h₆, h⟩ := Result.bind_ok h
  obtain ⟨_, h₇, -⟩ := Result.bind_ok h
  replace h₁ := validateTimeout_le h₁
  replace h₂ := validateTimeout_le h₂
  replace h₃ := validateTimeout_le h₃
  replace h₄ := validateTimeout_le h₄
  replace h₅ := validateTimeout_le h₅
  replace h₆ := validateTimeout_le h₆
  replace h₇ := validateTimeout_le h₇
  constructor
  all_goals omega

/-- The sites share no domain. -/
theorem nodup_domains (hdb : db.WellFormed) : (db.listSites.flatMap (·.domains)).Nodup := by
  rw [listSites_eq, List.flatMap_map, List.nodup_flatMap]
  constructor
  · intro site _
    exact hdb.sites.hostnames.sublist (List.filter_sublist.map _)
  · refine (List.pairwise_map.mp hdb.sites.ids).imp fun {site site'} hlt => ?_
    intro d hd hd'
    obtain ⟨row, hrow, rfl⟩ := List.mem_map.mp hd
    obtain ⟨row', hrow', hsame⟩ := List.mem_map.mp hd'
    obtain ⟨hrow, hid⟩ := List.mem_filter.mp hrow
    obtain ⟨hrow', hid'⟩ := List.mem_filter.mp hrow'
    have heq : row' = row := List.inj_on_of_nodup_map hdb.sites.hostnames hrow' hrow hsame
    rw [heq, beq_iff_eq] at hid'
    rw [beq_iff_eq] at hid
    omega

/-- Of the sites that are kept, validation changes the layout of the JSON columns at most. -/
theorem canonical_of_validated {sites normalized : List SiteRecord}
    (hsites : ∀ site ∈ sites, site.names.Normal lib)
    (h : sites.mapM (validateAndNormalize lib) = .ok normalized) :
    sites.mapM (canonicalizeJson lib.codec) = .ok normalized := by
  induction sites generalizing normalized with
  | nil =>
    cases h
    rfl
  | cons site sites ih =>
    rw [List.mapM_cons] at h ⊢
    obtain ⟨s, hs, h⟩ := Result.bind_ok h
    obtain ⟨rest, hrest, h⟩ := Result.bind_ok h
    cases h
    rw [validate_eq_canonicalizeJson (hsites site (by simp)) hs,
      ih (fun s hs => hsites s (List.mem_cons_of_mem site hs)) hrest]
    rfl

theorem Database.Valid.validated (hvalid : db.Valid lib) :
    ∃ normalized, db.listSites.mapM (validateAndNormalize lib) = .ok normalized ∧
      db.listSites.mapM (canonicalizeJson lib.codec) = .ok normalized := by
  obtain ⟨normalized, hnormalized, -⟩ :=
    Result.mapM_of_forall fun site hsite => (hvalid.sites site hsite).accepted
  have hnormal : ∀ site ∈ db.listSites, site.names.Normal lib := fun site hsite =>
    (hvalid.sites site hsite).normal
  exact ⟨normalized, hnormalized, canonical_of_validated hnormal hnormalized⟩

theorem domains_of_canonical {codec : Codec φ} {sites normalized : List SiteRecord}
    (h : sites.mapM (canonicalizeJson codec) = .ok normalized) :
    normalized.flatMap (·.domains) = sites.flatMap (·.domains) := by
  induction sites generalizing normalized with
  | nil =>
    cases h
    rfl
  | cons site sites ih =>
    rw [List.mapM_cons] at h
    obtain ⟨s, hs, h⟩ := Result.bind_ok h
    obtain ⟨rest, hrest, h⟩ := Result.bind_ok h
    cases h
    obtain ⟨json, -, hs⟩ := canonicalizeJson_ok_iff.mp hs
    rw [List.flatMap_cons, List.flatMap_cons, ih hrest, hs]
    rfl

/-- The contents of a document are those of the tables. -/
def Database.contents (db : Database) (exportedAt : Int64) : Contents :=
  ⟨exportedAt, db.revision, db.listSites, db.listCertificates, db.settings⟩

theorem countP_default {certificates : List CertificateRecord}
    (hids : (certificates.map (·.id)).Nodup)
    (hone : ∀ c ∈ certificates, ∀ d ∈ certificates, c.isDefault = true → d.isDefault = true →
      c.id = d.id) : certificates.countP (·.isDefault) ≤ 1 := by
  induction certificates with
  | nil => exact Nat.zero_le 1
  | cons c certificates ih =>
    rw [List.map_cons, List.nodup_cons] at hids
    have hrest := ih hids.2 fun a ha b hb =>
      hone a (List.mem_cons_of_mem c ha) b (List.mem_cons_of_mem c hb)
    rw [List.countP_cons]
    split
    · rename_i hdefault
      have hnone : certificates.countP (·.isDefault) = 0 := by
        rw [List.countP_eq_zero]
        intro d hd hmark
        have hid := hone c (by simp) d (List.mem_cons_of_mem c hd) hdefault hmark
        exact hids.1 (List.mem_map.mpr ⟨d, hd, hid.symm⟩)
      omega
    · exact hrest

theorem exportable_of_valid (hdb : db.WellFormed) (hvalid : db.Valid lib)
    (hrevision : db.revision < 2 ^ 64) (exportedAt : Int64) :
    ∃ normalized, db.listSites.mapM (canonicalizeJson lib.codec) = .ok normalized ∧
      (db.contents exportedAt).Exportable lib normalized := by
  obtain ⟨normalized, hnormalized, hcanonical⟩ := hvalid.validated
  have hperm : db.listCertificates.Perm db.certificates := listed_perm db.certificates
  refine ⟨normalized, hcanonical, hrevision, fun site hsite => (hvalid.sites site hsite).exportable,
    hnormalized, ?_, fun c hc => ?_, ?_, ?_, fits_of_validated hvalid.settings, hvalid.settings⟩
  · rw [domains_of_canonical hcanonical]
    exact nodup_domains hdb
  · have haccepted := hvalid.certificates c (hperm.mem_iff.mp hc)
    exact validateCertificate_again haccepted 0 c.enabled c.isDefault
  · exact (hperm.map _).nodup_iff.mpr hdb.certificates.names
  · refine (hperm.countP_eq _).trans_le (countP_default ?_ hdb.certificates.oneDefault)
    exact hdb.certificates.ids.imp fun h => h.ne

theorem exportConfiguration_ok {codec : Codec φ} {io : Sqlite} {now : Int64} {encoded : String}
    (h : exportConfiguration codec io now w = .ok encoded w') :
    ∃ items, w.database.listSites.mapM (siteItem codec) = .ok items ∧
      encoded = codec.dumpIndented ((w.database.contents now).document items) ∧
      encoded.utf8ByteSize ≤ maximumConfigurationBackupBytes := by
  unfold exportConfiguration at h
  replace h := read_bind_ok h
  obtain ⟨items, hitems, h⟩ := check_bind_ok h
  iterate 3 replace h := read_bind_ok h
  obtain ⟨hsize, h⟩ := require_bind_ok h
  cases h
  exact ⟨items, hitems, rfl, of_decide_eq_true hsize⟩

theorem read_of_works {α : Type} {io : Sqlite} {st : Statement} (hio : io st = none)
    (f : Database → α) (w : World) : onDatabase (query io st f) w = .ok (f w.database) w := by
  unfold onDatabase onPart query
  rw [hio]

/-- An export returns when the statements work and the document is not too large. -/
theorem exportConfiguration_returns {codec : Codec φ} {io : Sqlite} (hio : ∀ st, io st = none)
    (now : Int64) {items : List (Json φ)}
    (hitems : w.database.listSites.mapM (siteItem codec) = .ok items)
    (hsize : (codec.dumpIndented ((w.database.contents now).document items)).utf8ByteSize ≤
      maximumConfigurationBackupBytes) :
    exportConfiguration codec io now w =
      .ok (codec.dumpIndented ((w.database.contents now).document items)) w := by
  have hattempt : attempt (w.database.listSites.mapM (siteItem codec)) w = .ok items w := by
    rw [hitems]
    rfl
  have hrequire : require (decide ((codec.dumpIndented
      ((w.database.contents now).document items)).utf8ByteSize ≤ maximumConfigurationBackupBytes))
      "configuration backup exceeds the 16 MiB import limit" w = .ok () w := by
    rw [decide_eq_true hsize]
    rfl
  unfold exportConfiguration
  rw [listSites, bind_of_ok (read_of_works (hio _) _ w), bind_of_ok hattempt,
    listCertificates, bind_of_ok (read_of_works (hio _) _ w), runtimeSettings,
    bind_of_ok (read_of_works (hio _) _ w), configRevision, bind_of_ok (read_of_works (hio _) _ w)]
  exact bind_of_ok hrequire

/-- The limits of the import on the number of records are all that stands between an exported document
and its records. -/
theorem exported_decodes (hw : w.Sound lib) (hrevision : w.database.revision < 2 ^ 64) {io : Sqlite}
    {now : Int64} {encoded : String} (h : exportConfiguration lib.codec io now w = .ok encoded w') :
    ∃ normalized, w.database.listSites.mapM (canonicalizeJson lib.codec) = .ok normalized ∧
      decodeBackup lib encoded =
        if maximumSites < w.database.listSites.length then
          .error "configuration backup cannot contain more than 10000 sites"
        else if maximumCertificates < w.database.listCertificates.length then
          .error "configuration backup cannot contain more than 1000 certificates"
        else .ok ⟨normalized.map (·.withoutId), w.database.listCertificates.map (·.withoutId),
          w.database.settings⟩ := by
  obtain ⟨items, hitems, rfl, hsize⟩ := exportConfiguration_ok h
  obtain ⟨normalized, hnormalized, hexportable⟩ :=
    exportable_of_valid hw.wellFormed hw.valid hrevision now
  exact ⟨normalized, hnormalized, decodeBackup_document hexportable hitems hsize⟩

end Exported

/-! ## What is restored -/

section Restored

variable {chk : Checks} {env : Env} {v v' : World} {encoded : String}

theorem withoutId_numberSites (next : Int) (sites : List SiteRecord) :
    (numberSites next sites).map (·.withoutId) = sites.map (·.withoutId) := by
  induction sites generalizing next with
  | nil => rfl
  | cons s sites ih =>
    rw [numberSites_cons, List.map_cons, List.map_cons, ih]
    rfl

theorem withoutId_numberCertificates (next : Int) (certificates : List CertificateRecord) :
    (numberCertificates next certificates).map (·.withoutId) = certificates.map (·.withoutId) := by
  induction certificates generalizing next with
  | nil => rfl
  | cons c certificates ih =>
    rw [numberCertificates, List.map_cons, List.map_cons, ih]
    rfl

/-- The order of a list of certificates that was listed before. -/
theorem listed_listed (rows : List CertificateRecord) : listed (listed rows) = listed rows := by
  simp only [listed, List.filter_append, List.filter_filter]
  simp

theorem listed_map {f : CertificateRecord → CertificateRecord}
    (hf : ∀ c, (f c).isDefault = c.isDefault) (rows : List CertificateRecord) :
    listed (rows.map f) = (listed rows).map f := by
  simp only [listed, List.filter_map, List.map_append, Function.comp_def, hf]

/-- What an import that returns has stored. -/
theorem restored_of_performed (hv : v.database.WellFormed) {u : Unit}
    (h : perform chk env (.importConfiguration encoded) v = .ok u v') :
    ∃ backup, chk.decodeBackup encoded = .ok backup ∧
      v'.database.listSites.map (·.withoutId) = backup.sites.map (·.withoutId) ∧
      v'.database.listCertificates.map (·.withoutId) =
        (listed backup.certificates).map (·.withoutId) ∧
      v'.database.settings = backup.settings ∧ v'.database.revision = v.database.revision + 1 := by
  obtain ⟨_, _, _, _, _, _, hperformed⟩ := perform_ok hv h
  cases hperformed.accepted with
  | @importConfiguration _ backup hdecode =>
    have hlisted : v'.database.listCertificates = listed v'.database.certificates := rfl
    have hmap := listed_map (f := fun c : CertificateRecord => c.withoutId) fun _ => rfl
    refine ⟨backup, hdecode, ?_, ?_, hperformed.reads.settings, hperformed.reads.revision⟩
    · rw [hperformed.reads.sites, withoutId_numberSites]
    · rw [hlisted, hperformed.reads.certificates, ← hmap, withoutId_numberCertificates, hmap]

end Restored

/-! ## The candidate of an import -/

section Candidate

variable {φ : Type} {lib : Libraries φ} {db : Database} {sites sites' : List SiteRecord}
  {certificates certificates' : List CertificateRecord}

theorem erased_sites (h : sites.map (·.withoutId) = sites'.map (·.withoutId)) :
    ((sites.filter (·.enabled)).map runtimeSite).map (·.withoutId) =
      ((sites'.filter (·.enabled)).map runtimeSite).map (·.withoutId) := by
  have hcut : ∀ l : List SiteRecord, ((l.filter (·.enabled)).map runtimeSite).map (·.withoutId) =
      ((l.map (·.withoutId)).filter (·.enabled)).map fun s => (runtimeSite s).withoutId := by
    intro l
    simp only [List.filter_map, List.map_map]
    rfl
  rw [hcut, hcut, h]

theorem erased_certificates (h : certificates.map (·.withoutId) = certificates'.map (·.withoutId)) :
    (certificates.filter (·.enabled)).map runtimeCertificate =
      (certificates'.filter (·.enabled)).map runtimeCertificate := by
  have hcut : ∀ l : List CertificateRecord, (l.filter (·.enabled)).map runtimeCertificate =
      ((l.map (·.withoutId)).filter (·.enabled)).map runtimeCertificate := by
    intro l
    simp only [List.filter_map, List.map_map]
    rfl
  rw [hcut, hcut certificates', h]

theorem accepted_of_erased {spec spec' : RuntimeConfigSpec} (hrevision : spec.revision ≠ 0)
    (hrevision' : spec'.revision ≠ 0) (h : spec.erased = spec'.erased) :
    (∃ c, buildRuntimeConfig (checks lib) spec = .ok c) ↔
      ∃ c, buildRuntimeConfig (checks lib) spec' = .ok c := by
  rw [← buildRuntimeConfig_erased hrevision, h, buildRuntimeConfig_erased hrevision']

theorem buildRuntimeSpec_of_validated {settings : RuntimeSettingsRecord}
    (hsites : sites.mapM (validateAndNormalize lib) = .ok sites')
    (hsettings : validateRuntimeSettings lib settings = .ok settings)
    (certificates : List CertificateRecord) (revision : Nat) :
    buildRuntimeSpec (checks lib) sites certificates settings revision =
      .ok ⟨revision, (sites'.filter (·.enabled)).map runtimeSite,
        (certificates.filter (·.enabled)).map runtimeCertificate, true, settings⟩ :=
  Result.bind_ok_iff.mpr ⟨_, hsites, Result.bind_ok_iff.mpr ⟨_, hsettings, rfl⟩⟩

/-- The candidate for the records that an import has read is accepted exactly if the one for the
original records is. -/
theorem import_accepted_iff (hvalid : db.Valid lib) (hrevision : db.revision ≠ 0)
    {normalized : List SiteRecord}
    (hnormalized : db.listSites.mapM (canonicalizeJson lib.codec) = .ok normalized) (next : Int)
    {revision : Nat} (hnext : revision ≠ 0) :
    ∃ spec, buildRuntimeSpec (checks lib) (numberSites next (normalized.map (·.withoutId)))
        (db.listCertificates.map (·.withoutId)) db.settings revision = .ok spec ∧
      ((∃ c, buildRuntimeConfig (checks lib) spec = .ok c) ↔
        ∃ c, restart (checks lib) db = .ok c) := by
  obtain ⟨validated, hvalidated, hsame⟩ := hvalid.validated
  rw [hnormalized, Except.ok.injEq] at hsame
  subst hsame
  have hagain : (numberSites next (normalized.map (·.withoutId))).mapM (validateAndNormalize lib) =
      .ok (numberSites next (normalized.map (·.withoutId))) := by
    refine Result.mapM_ok_self fun s hs => ?_
    obtain ⟨t, ht, hst⟩ := mem_numberSites hs
    obtain ⟨s', hs', rfl⟩ := List.mem_map.mp ht
    obtain ⟨site, hsite, hok⟩ := Result.mapM_ok hvalidated s' hs'
    rw [hst]
    exact validate_withId (validate_canonical (hvalid.sites site hsite).normal hok) s.id
  have hrestart : restart (checks lib) db = buildRuntimeConfig (checks lib)
      ⟨db.revision, (normalized.filter (·.enabled)).map runtimeSite,
        (db.listCertificates.filter (·.enabled)).map runtimeCertificate, true, db.settings⟩ := by
    have hspec := buildRuntimeSpec_of_validated hvalidated hvalid.settings db.listCertificates
      db.revision
    exact (congrArg (· >>= buildRuntimeConfig (checks lib)) hspec).trans rfl
  refine ⟨_, buildRuntimeSpec_of_validated hagain hvalid.settings _ revision, ?_⟩
  -- the two candidates differ in ids and in the revision
  rw [hrestart]
  refine accepted_of_erased hnext hrevision ?_
  have hsites : (numberSites next (normalized.map (·.withoutId))).map (·.withoutId) =
      normalized.map (·.withoutId) := by
    rw [withoutId_numberSites, List.map_map]
    rfl
  have hcertificates : (db.listCertificates.map (·.withoutId)).map (·.withoutId) =
      db.listCertificates.map (·.withoutId) := by
    rw [List.map_map]
    rfl
  simp only [RuntimeConfigSpec.erased, erased_sites hsites, erased_certificates hcertificates]

end Candidate

end Config
end WebServer
