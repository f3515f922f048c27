import WebServer.Config.Backup
import WebServer.Config.Restart

/-!
# WebServer.Config.Valid

What the stored records have gone through.

A record is validated before it is written. The sites are validated once more, with all the others,
when the candidate is built in which they would be published, and nothing is written before that.
The range of a number is tested where it is read, by `parse_port`, `parse_u32` and their siblings for a
backup: a validator accepts a listener that is switched off with any port, and a rate limit that is
switched off with any numbers.

* `Database.Valid`: names are normal, numbers are in range, and every validator accepts its records.
* `World.Sound`: the invariant of the service, with what it needs of the tables and of the server.
* `sound_perform`, `sound_step`: every operation keeps it.
-/

namespace WebServer
namespace Config

open Act Http WebServer.Core

/-! ## Numbers -/

/-- What `parse_port` and `backup_port` let through. -/
def IsPort (n : Nat) : Prop := n ≠ 0 ∧ n < 2 ^ 16

/-- The numbers of a site that has been read, as far as no validator tests them. -/
structure SiteRecord.Read (site : SiteRecord) : Prop where
  backend : site.backendPort < 2 ^ 16
  http : IsPort site.httpPort
  https : IsPort site.httpsPort
  window : site.rateLimitWindowSeconds < 2 ^ 32
  maxRequests : site.rateLimitMaxRequests < 2 ^ 32
  ban : site.rateLimitBanSeconds < 2 ^ 32

/-- The records of the operation have been read. -/
def Op.Read : Op → Prop
  | .createSite site => site.Read
  | .updateSite site => site.Read
  | _ => True

section Numbers

variable {φ : Type} {lib : Libraries φ} {site s : SiteRecord}

theorem SiteRecord.Read.withId (h : site.Read) (id : Int) : ({ site with id := id } : SiteRecord).Read :=
  ⟨h.backend, h.http, h.https, h.window, h.maxRequests, h.ban⟩

theorem backupPort_ok {codec : Codec φ} {item : Json φ} {key : String} {fallback n : Nat}
    (h : backupPort codec item key fallback = .ok n) : IsPort n := by
  obtain ⟨m, -, h⟩ := Result.bind_ok h
  obtain ⟨hrange, h⟩ := Result.guard_ok h
  cases h
  rw [not_or, not_lt] at hrange
  exact ⟨hrange.1, Nat.lt_succ_of_le hrange.2⟩

theorem foundU32_lt {codec : Codec φ} {key : String} {found : Json φ} {n : Nat}
    (h : foundU32 codec key found = .ok n) : n < 2 ^ 32 := by
  obtain ⟨value, -, h⟩ := Result.bind_ok h
  obtain ⟨hrange, h⟩ := Result.guard_ok h
  cases h
  omega

theorem backupU32_lt {codec : Codec φ} {item : Json φ} {key : String} {fallback n : Nat}
    (hfallback : fallback < 2 ^ 32) (h : backupU32 codec item key fallback = .ok n) : n < 2 ^ 32 := by
  unfold backupU32 at h
  split at h
  · cases h
    exact hfallback
  · exact foundU32_lt h

theorem decodeSite_read {codec : Codec φ} {item : Json φ} (h : decodeSite codec item = .ok site) :
    site.Read := by
  unfold decodeSite at h
  obtain ⟨-, h⟩ := Result.guard_ok h
  iterate 4 obtain ⟨_, -, h⟩ := Result.bind_ok h
  obtain ⟨backendPort, hbackend, h⟩ := Result.bind_ok h
  iterate 9 obtain ⟨_, -, h⟩ := Result.bind_ok h
  obtain ⟨httpPort, hhttp, h⟩ := Result.bind_ok h
  obtain ⟨_, -, h⟩ := Result.bind_ok h
  obtain ⟨httpsPort, hhttps, h⟩ := Result.bind_ok h
  iterate 3 obtain ⟨_, -, h⟩ := Result.bind_ok h
  obtain ⟨window, hwindow, h⟩ := Result.bind_ok h
  obtain ⟨maxRequests, hmaxRequests, h⟩ := Result.bind_ok h
  obtain ⟨ban, hban, h⟩ := Result.bind_ok h
  iterate 9 obtain ⟨_, -, h⟩ := Result.bind_ok h
  cases h
  exact ⟨(backupPort_ok hbackend).2, backupPort_ok hhttp, backupPort_ok hhttps,
    backupU32_lt (by decide) hwindow, backupU32_lt (by decide) hmaxRequests,
    backupU32_lt (by decide) hban⟩

/-- No validator changes a number. -/
theorem validate_read (h : validateAndNormalize lib site = .ok s) (hread : site.Read) : s.Read := by
  obtain ⟨names, json, h⟩ := validate_ok_iff.mp h
  rw [h.eq]
  exact ⟨hread.backend, hread.http, hread.https, hread.window, hread.maxRequests, hread.ban⟩

end Numbers

/-! ## The invariant -/

structure SiteRecord.Kept {φ : Type} (lib : Libraries φ) (site : SiteRecord) : Prop where
  read : site.Read
  normal : site.names.Normal lib
  accepted : ∃ s, validateAndNormalize lib site = .ok s

structure Database.Valid {φ : Type} (lib : Libraries φ) (db : Database) : Prop where
  sites : ∀ site ∈ db.listSites, site.Kept lib
  certificates : ∀ c ∈ db.certificates, validateAndNormalizeCertificate lib c = .ok c
  settings : validateRuntimeSettings lib db.settings = .ok db.settings

structure World.Sound {φ : Type} (lib : Libraries φ) (w : World) : Prop where
  idle : Idle w.server
  wellFormed : w.database.WellFormed
  valid : w.database.Valid lib

section Operations

variable {φ : Type} {lib : Libraries φ} {db : Database} {op : Op} {sites : List SiteRecord}
  {certificates rows : List CertificateRecord} {settings : RuntimeSettingsRecord}

theorem mem_replaceSite {site s : SiteRecord} {sites : List SiteRecord}
    (h : s ∈ replaceSite site sites) : s = site ∨ s ∈ sites := by
  induction sites with
  | nil => cases h
  | cons t sites ih =>
    simp only [replaceSite] at h
    split at h
    · exact (List.mem_cons.mp h).imp_right (List.mem_cons_of_mem t)
    · rcases List.mem_cons.mp h with rfl | h
      · exact .inr (by simp)
      · exact (ih h).imp_right (List.mem_cons_of_mem t)

theorem mem_numberSites {next : Int} {s : SiteRecord} {sites : List SiteRecord}
    (h : s ∈ numberSites next sites) : ∃ t ∈ sites, s = { t with id := s.id } := by
  obtain ⟨⟨t, i⟩, ht, rfl⟩ := List.mem_map.mp h
  exact ⟨t, (List.mem_zipIdx' ht).2 ▸ List.getElem_mem _, rfl⟩

theorem mem_numberCertificates {next : Int} {c : CertificateRecord}
    {certificates : List CertificateRecord} (h : c ∈ numberCertificates next certificates) :
    ∃ d ∈ certificates, c = { d with id := c.id } := by
  induction certificates generalizing next with
  | nil => cases h
  | cons d certificates ih =>
    rcases List.mem_cons.mp h with rfl | h
    · exact ⟨d, by simp, rfl⟩
    · obtain ⟨e, he, hc⟩ := ih h
      exact ⟨e, by simp [he], hc⟩

/-- The sites that an operation announces have been read and have normal names. -/
theorem Accepted.sites_normal (hdb : db.Valid lib) (hop : op.Read)
    (h : Accepted (checks lib) db op sites certificates settings rows) :
    ∀ s ∈ sites, s.Read ∧ s.names.Normal lib := by
  have hold : ∀ s ∈ db.listSites, s.Read ∧ s.names.Normal lib := fun s hs =>
    ⟨(hdb.sites s hs).read, (hdb.sites s hs).normal⟩
  have hnew : ∀ {site s : SiteRecord}, (checks lib).validateAndNormalize site = .ok s →
      site.Read → s.Read ∧ s.names.Normal lib := fun hs hread =>
    ⟨validate_read hs hread, validate_normal hs⟩
  cases h with
  | createSite hs =>
    intro t ht
    rcases List.mem_append.mp ht with ht | ht
    · exact hold t ht
    · rw [List.mem_singleton.mp ht]
      obtain ⟨hread, hnormal⟩ := hnew hs hop
      exact ⟨hread.withId _, hnormal⟩
  | updateSite hs =>
    intro t ht
    rcases mem_replaceSite ht with rfl | ht
    · exact hnew hs hop
    · exact hold t ht
  | deleteSite => exact fun t ht => hold t (List.mem_of_mem_filter ht)
  | createCertificate _ => exact hold
  | updateCertificate _ _ => exact hold
  | deleteCertificate => exact hold
  | updateRuntimeSettings _ => exact hold
  | importConfiguration hbackup =>
    intro t ht
    obtain ⟨s, hs, heq⟩ := mem_numberSites ht
    obtain ⟨item, site, hdecode, hvalid⟩ := (decodeBackup_ok hbackup).1 s hs
    obtain ⟨hread, hnormal⟩ := hnew hvalid (decodeSite_read hdecode)
    rw [heq]
    exact ⟨hread.withId _, hnormal⟩

/-- A certificate takes the place of a row, or takes the mark from it. -/
theorem replacedBy_accepted {certificate row : CertificateRecord}
    (hcertificate : validateAndNormalizeCertificate lib certificate = .ok certificate)
    (hrow : validateAndNormalizeCertificate lib row = .ok row) :
    validateAndNormalizeCertificate lib (replacedBy certificate row) =
      .ok (replacedBy certificate row) := by
  unfold replacedBy
  split
  · exact hcertificate
  · split
    · exact validateCertificate_again hrow row.id row.enabled false
    · exact hrow

/-- An accepted certificate is accepted with the id of its row. -/
theorem numbered_accepted {certificate c : CertificateRecord}
    (h : validateAndNormalizeCertificate lib certificate = .ok c) (db : Database) :
    validateAndNormalizeCertificate lib (db.numbered c) = .ok (db.numbered c) :=
  validateCertificate_again h _ c.enabled c.isDefault

/-- The rows once an accepted certificate is stored. -/
theorem created_accepted (hdb : db.Valid lib) {certificate c : CertificateRecord}
    (h : validateAndNormalizeCertificate lib certificate = .ok c) :
    ∀ d ∈ db.certificates.map (replacedBy (db.numbered c)) ++ [db.numbered c],
      validateAndNormalizeCertificate lib d = .ok d := by
  have hnumbered := numbered_accepted h db
  intro d hd
  rcases List.mem_append.mp hd with hd | hd
  · obtain ⟨row, hrow, rfl⟩ := List.mem_map.mp hd
    exact replacedBy_accepted hnumbered (hdb.certificates row hrow)
  · rw [List.mem_singleton.mp hd]
    exact hnumbered

theorem Accepted.certificates_accepted (hdb : db.Valid lib)
    (h : Accepted (checks lib) db op sites certificates settings rows) :
    ∀ c ∈ rows, validateAndNormalizeCertificate lib c = .ok c := by
  cases h with
  | createSite _ => exact hdb.certificates
  | updateSite _ => exact hdb.certificates
  | deleteSite => exact hdb.certificates
  | createCertificate hc => exact created_accepted hdb hc
  | updateCertificate hc _ =>
    intro d hd
    obtain ⟨row, hrow, rfl⟩ := List.mem_map.mp hd
    exact replacedBy_accepted (validateCertificate_again hc _ _ _) (hdb.certificates row hrow)
  | deleteCertificate => exact fun c hc => hdb.certificates c (List.mem_of_mem_filter hc)
  | updateRuntimeSettings _ => exact hdb.certificates
  | importConfiguration hbackup =>
    intro c hc
    obtain ⟨d, hd, heq⟩ := mem_numberCertificates hc
    obtain ⟨certificate, hvalid⟩ := (decodeBackup_ok hbackup).2 d hd
    rw [heq]
    exact validateCertificate_again hvalid _ _ _

/-- What was announced and could be built is valid once it is stored. -/
theorem Performed.valid {w w' : World} {spec : RuntimeConfigSpec} {c : RuntimeConfig}
    (hdb : w.database.Valid lib) (hop : op.Read)
    (h : Performed (checks lib) w w' op sites certificates settings rows spec c) :
    w'.database.Valid lib := by
  obtain ⟨normalized, hnormalized, hspec⟩ := Result.bind_ok h.spec_eq
  obtain ⟨s, hsettings, -⟩ := Result.bind_ok hspec
  have hsame : s = settings := validateRuntimeSettings_ok hsettings
  refine ⟨?_, ?_, ?_⟩
  · rw [h.reads.sites]
    intro site hsite
    obtain ⟨hread, hnormal⟩ := h.accepted.sites_normal hdb hop site hsite
    obtain ⟨s, -, hs⟩ := Result.mapM_ok_mem hnormalized site hsite
    exact ⟨hread, hnormal, s, hs⟩
  · rw [h.reads.certificates]
    exact h.accepted.certificates_accepted hdb
  · rw [h.reads.settings, ← hsame]
    rw [← hsame] at hsettings
    exact hsettings

end Operations

/-! ## Runs -/

section Runs

variable {φ : Type} {lib : Libraries φ} {w w' : World} {env : Env}

theorem World.Sound.of_unchanged (h : w.Sound lib) (hw : Unchanged w w') : w'.Sound lib := by
  have hdb : w'.database = w.database := by rw [hw.frame]
  exact ⟨hw.idle, hdb ▸ h.wellFormed, hdb ▸ h.valid⟩

theorem sound_perform {op : Op} (hop : op.Read) :
    Spec (World.Sound lib) (perform (checks lib) env op) (fun _ => World.Sound lib)
      (World.Sound lib) := by
  intro w hw
  have hspec := spec_perform (checks lib) env hw.idle op w rfl
  cases hrun : perform (checks lib) env op w with
  | ok u w' =>
    rw [hrun] at hspec
    obtain ⟨_, _, _, _, _, _, hperformed⟩ := perform_ok hw.wellFormed hrun
    exact ⟨hspec.idle, hperformed.reads.wellFormed, hperformed.valid hw.valid hop⟩
  | error e w' =>
    rw [hrun] at hspec
    exact hw.of_unchanged hspec

theorem sound_reloadRuntime :
    Spec (World.Sound lib) (reloadRuntime (checks lib) env) (fun _ => World.Sound lib)
      (World.Sound lib) := by
  intro w hw
  have hspec := spec_reloadRuntime (checks lib) env hw.idle w rfl
  cases hrun : reloadRuntime (checks lib) env w with
  | ok u w' =>
    rw [hrun] at hspec
    have hdb := reloadRuntime_ok hrun
    exact ⟨hspec, hdb ▸ hw.wellFormed, hdb ▸ hw.valid⟩
  | error e w' =>
    rw [hrun] at hspec
    exact hw.of_unchanged hspec

theorem sound_seedDefaultCertificate (certificate : CertificateRecord) :
    Spec (World.Sound lib) (seedDefaultCertificate (checks lib) env certificate)
      (fun _ => World.Sound lib) (World.Sound lib) := by
  intro w hw
  have hspec := spec_seedDefaultCertificate (checks lib) env hw.idle certificate w rfl
  cases hrun : seedDefaultCertificate (checks lib) env certificate w with
  | ok u w' =>
    rw [hrun] at hspec
    rcases seedDefaultCertificate_ok hw.wellFormed hrun with hsame | ⟨c, hc, hreads⟩
    · exact ⟨hspec, hsame ▸ hw.wellFormed, hsame ▸ hw.valid⟩
    · refine ⟨hspec, hreads.wellFormed, ?_, ?_, ?_⟩
      · rw [hreads.sites]
        exact hw.valid.sites
      · rw [hreads.certificates]
        exact created_accepted hw.valid hc
      · rw [hreads.settings]
        exact hw.valid.settings
  | error e w' =>
    rw [hrun] at hspec
    exact hw.of_unchanged hspec

theorem World.Sound.after {m : Service Unit}
    (hm : Spec (World.Sound lib) m (fun _ => World.Sound lib) (World.Sound lib))
    (hw : w.Sound lib) : (after m w).Sound lib := by
  have h := hm w hw
  unfold Config.after
  cases hrun : m w with
  | ok u w' => rw [hrun] at h; exact h
  | error e w' => rw [hrun] at h; exact h

/-- The operation of a change has been read. -/
def Event.Read : Event → Prop
  | .change op _ => op.Read
  | _ => True

theorem sound_step {e : Event} (he : e.Read) (hw : w.Sound lib)
    (hs : step (checks lib) w e = some w') : w'.Sound lib := by
  have hidle := idle_step (checks lib) hw.idle hs
  cases e with
  | change op env => cases hs; exact hw.after (sound_perform he)
  | reloadRuntime env => cases hs; exact hw.after sound_reloadRuntime
  | seedDefaultCertificate certificate env =>
    cases hs
    exact hw.after (sound_seedDefaultCertificate certificate)
  | setReloadHandler => cases hs; exact ⟨hidle, hw.wellFormed, hw.valid⟩
  | markRuntimeUnavailable => cases hs; exact ⟨hidle, hw.wellFormed, hw.valid⟩
  | startServer env => cases hs; exact ⟨hidle, hw.wellFormed, hw.valid⟩
  | stopServer => cases hs; exact ⟨hidle, hw.wellFormed, hw.valid⟩
  | drained protocol id => cases hs; exact ⟨hidle, hw.wellFormed, hw.valid⟩
  | limiter e =>
    simp only [step, Option.map_eq_some_iff] at hs
    obtain ⟨l, -, rfl⟩ := hs
    exact ⟨hidle, hw.wellFormed, hw.valid⟩

end Runs

end Config
end WebServer
