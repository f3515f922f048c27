import WebServer.Config.Atomic

/-!
# WebServer.Config.Stored

What the operations leave in the tables.

* `Database.WellFormed`: rows are in the order of their ids, the sequences are ahead of all ids,
  every domain belongs to a site, hostnames and the names of certificates are unique, and at most
  one certificate is the default one.
* `Repository.…_ok`: the rows after an operation that has returned. The records that are read back
  are the ones that were written, and the sites get the ids that `next_site_id` predicted.
* `Repository.replaceConfiguration_returns`: what is asked of an import besides working statements.
-/

namespace WebServer
namespace Config

open Act

/-! ## Statements that have returned -/

section Returned

variable {io : Sqlite} {α : Type} {db db' : Database} {a : α}

theorem query_ok {st : Statement} {f : Database → α} (h : query io st f db = .ok a db') :
    a = f db ∧ db' = db := by
  unfold query at h
  cases hio : io st with
  | some e => rw [hio] at h; cases h
  | none => rw [hio] at h; cases h; exact ⟨rfl, rfl⟩

theorem execute_ok {st : Statement} {f : Database → Except Error (α × Database)}
    (h : execute io st f db = .ok a db') : f db = .ok (a, db') := by
  unfold execute at h
  cases hio : io st with
  | some e => rw [hio] at h; cases h
  | none =>
    rw [hio] at h
    cases hf : f db with
    | error e => rw [hf] at h; cases h
    | ok r => rw [hf] at h; cases h; rfl

def Database.counted (db : Database) : Database := { db with revision := db.revision + 1 }

theorem change_ok {body : Query α} (h : change io body db = .ok a db') :
    ∃ db₁, body db = .ok a db₁ ∧ db' = db₁.counted := by
  unfold change transaction at h
  cases hbegin : io .begin with
  | some e => rw [hbegin] at h; cases h
  | none =>
    rw [hbegin] at h
    cases hbody : (do let a ← body; incrementRevision io; pure a : Query α) db with
    | error e db₁ => rw [hbody] at h; cases h
    | ok b db₂ =>
      rw [hbody] at h
      cases hcommit : io .commit with
      | some e => rw [hcommit] at h; cases h
      | none =>
        rw [hcommit] at h
        cases h
        obtain ⟨b', db₁, hb, hrest⟩ := bind_eq_ok hbody
        obtain ⟨u, db₃, hinc, hpure⟩ := bind_eq_ok hrest
        cases hpure
        cases execute_ok hinc
        exact ⟨db₁, hb, rfl⟩

/-- A domain that was inserted is the only one of its name. -/
theorem insertDomain_ok {siteId : Int} {hostname : String} {u : Unit}
    (h : Database.insertDomain siteId hostname db = .ok (u, db')) :
    hostname ∉ db.siteDomains.map (·.2) ∧
      db' = { db with siteDomains := db.siteDomains ++ [(siteId, hostname)] } := by
  unfold Database.insertDomain at h
  split at h
  · cases h
  · rename_i hany
    cases h
    refine ⟨fun hmem => hany ?_, rfl⟩
    obtain ⟨d, hd, hname⟩ := List.mem_map.mp hmem
    exact List.any_eq_true.mpr ⟨d, hd, beq_iff_eq.mpr hname⟩

theorem insertDomains_ok {i : Nat} {siteId : Int} {domains : List String} {u : Unit}
    (h : insertDomains io i siteId domains db = .ok u db') :
    db' = { db with siteDomains := db.siteDomains ++ domains.map fun d => (siteId, d) } ∧
      ((db.siteDomains.map (·.2)).Nodup → (db.siteDomains.map (·.2) ++ domains).Nodup) := by
  unfold insertDomains at h
  generalize (0 : Nat) = k at h
  induction domains generalizing db k with
  | nil => cases h; simp
  | cons d domains ih =>
    rw [List.zipIdx_cons] at h
    obtain ⟨db₁, hd, hrest⟩ := loop_cons_eq_ok h
    obtain ⟨hnew, rfl⟩ := insertDomain_ok (execute_ok hd)
    obtain ⟨hdb', hnodup⟩ := ih _ hrest
    refine ⟨by rw [hdb']; simp, fun hall => ?_⟩
    have hone : (db.siteDomains.map (·.2) ++ [d]).Nodup := by
      rw [← List.concat_eq_append, List.nodup_concat]
      exact ⟨hnew, hall⟩
    simpa using hnodup (by simpa using hone)

end Returned

/-! ## Well-formed tables -/

structure SitesWellFormed (sites : List SiteRecord) (domains : List (Int × String))
    (sequence : Int) : Prop where
  nonneg : 0 ≤ sequence
  ids : (sites.map (·.id)).Pairwise (· < ·)
  bound : ∀ s ∈ sites, s.id ≤ sequence
  owned : ∀ d ∈ domains, ∃ s ∈ sites, s.id = d.1
  hostnames : (domains.map (·.2)).Nodup

structure CertificatesWellFormed (certificates : List CertificateRecord) (sequence : Int) :
    Prop where
  nonneg : 0 ≤ sequence
  ids : (certificates.map (·.id)).Pairwise (· < ·)
  bound : ∀ c ∈ certificates, c.id ≤ sequence
  oneDefault : ∀ c ∈ certificates, ∀ d ∈ certificates, c.isDefault = true → d.isDefault = true →
    c.id = d.id
  names : (certificates.map (·.name)).Nodup

structure Database.WellFormed (db : Database) : Prop where
  sites : SitesWellFormed db.sites db.siteDomains (db.siteSequence.getD 0)
  certificates : CertificatesWellFormed db.certificates (db.certificateSequence.getD 0)

theorem maxId_le {ids : List Int} {n : Int} (hn : 0 ≤ n) (h : ∀ i ∈ ids, i ≤ n) : maxId ids ≤ n := by
  unfold maxId
  generalize (0 : Int) = k at hn
  induction ids generalizing k with
  | nil => exact hn
  | cons i ids ih =>
    exact ih (fun j hj => h j (by simp [hj])) (max k i) (max_le hn (h i (by simp)))

theorem maxId_nonneg (ids : List Int) : 0 ≤ maxId ids := by
  unfold maxId
  have hle : ∀ k : Int, k ≤ ids.foldl max k := by
    induction ids with
    | nil => exact fun k => le_rfl
    | cons i ids ih => exact fun k => (le_max_left k i).trans (ih (max k i))
  exact hle 0

theorem autoIncrement_eq {sequence : Option Int} {ids : List Int} (hn : 0 ≤ sequence.getD 0)
    (h : ∀ i ∈ ids, i ≤ sequence.getD 0) : autoIncrement sequence ids = sequence.getD 0 + 1 := by
  unfold autoIncrement
  rw [max_eq_left (maxId_le hn h)]

/-- A new row comes last. -/
theorem pairwise_append_next {ids : List Int} {n : Int} (h : ids.Pairwise (· < ·))
    (hb : ∀ i ∈ ids, i ≤ n) : (ids ++ [n + 1]).Pairwise (· < ·) := by
  refine List.pairwise_append.mpr ⟨h, List.pairwise_singleton _ _, fun i hi j hj => ?_⟩
  rw [List.mem_singleton.mp hj]
  exact Int.lt_add_one_of_le (hb i hi)

theorem eq_of_id_eq {α : Type} {id : α → Int} {l : List α} (h : (l.map id).Pairwise (· < ·)) {a b : α}
    (ha : a ∈ l) (hb : b ∈ l) (hab : id a = id b) : a = b :=
  List.inj_on_of_nodup_map (h.imp fun hlt => ne_of_lt hlt) ha hb hab

namespace Database

variable {db db' : Database}

/-- The id that the next site gets. -/
theorem WellFormed.siteId (h : db.WellFormed) :
    autoIncrement db.siteSequence (db.sites.map (·.id)) = db.siteSequence.getD 0 + 1 :=
  autoIncrement_eq h.sites.nonneg (List.forall_mem_map.mpr h.sites.bound)

/-- `next_site_id` predicts it. -/
theorem WellFormed.nextSiteId (h : db.WellFormed) :
    db.nextSiteId = db.siteSequence.getD 0 + 1 := by
  unfold Database.nextSiteId
  cases hs : db.siteSequence with
  | some n => rfl
  | none =>
    -- no site was ever stored, so there is no id above 0
    have hbound : ∀ i ∈ db.sites.map (·.id), i ≤ 0 := by
      have := h.sites.bound
      rw [hs] at this
      exact List.forall_mem_map.mpr this
    have hmax := le_antisymm (maxId_le le_rfl hbound) (maxId_nonneg _)
    simp only [hmax, Option.getD_none]

end Database

/-! ## Sites -/

section Sites

variable {io : Sqlite} {db db' : Database}

/-- The domains that `list_sites` reads for a site. -/
def domainsOf (rows : List (Int × String)) (id : Int) : List String :=
  (rows.filter fun d => d.1 == id).map (·.2)

theorem domainsOf_append (rows rows' : List (Int × String)) (id : Int) :
    domainsOf (rows ++ rows') id = domainsOf rows id ++ domainsOf rows' id := by
  simp [domainsOf]

theorem domainsOf_eq_nil {rows : List (Int × String)} {id : Int} (h : ∀ d ∈ rows, d.1 ≠ id) :
    domainsOf rows id = [] := by
  simpa [domainsOf] using h

theorem domainsOf_inserted (domains : List String) (owner id : Int) :
    domainsOf (domains.map fun d => (owner, d)) id = if owner = id then domains else [] := by
  split
  · simp [domainsOf, List.filter_map, Function.comp_def, *]
  · simp [domainsOf, List.filter_map, Function.comp_def, *]

theorem domainsOf_cleared (rows : List (Int × String)) (gone id : Int) :
    domainsOf (rows.filter fun d => d.1 != gone) id = if id = gone then [] else domainsOf rows id := by
  split
  · rename_i h
    refine domainsOf_eq_nil fun d hd => ?_
    simp only [List.mem_filter, bne_iff_ne] at hd
    rw [h]
    exact hd.2
  · rename_i h
    simp only [domainsOf, List.filter_filter]
    refine congrArg _ (List.filter_congr fun d _ => ?_)
    by_cases hd : d.1 = id
    · simp [hd, h]
    · simp [hd]

theorem listSites_eq (db : Database) :
    db.listSites = db.sites.map fun row => { row with domains := domainsOf db.siteDomains row.id } :=
  rfl

/-- What one site and its domains add to the tables. -/
structure SiteAdded (db : Database) (site : SiteRecord) (id : Int) (db' : Database) : Prop where
  id_eq : id = db.siteSequence.getD 0 + 1
  listed : db'.listSites = db.listSites ++ [{ site with id := id }]
  sequence : db'.siteSequence = some id
  frame : db' = { db with
    sites := db'.sites, siteDomains := db'.siteDomains, siteSequence := db'.siteSequence }
  wellFormed : SitesWellFormed db'.sites db'.siteDomains (db'.siteSequence.getD 0)

theorem insertSiteAndDomains_ok (hdb : db.WellFormed) {i : Nat} {site : SiteRecord} {id : Int}
    (h : insertSiteAndDomains io i site db = .ok id db') : SiteAdded db site id db' := by
  obtain ⟨id', db₁, hsite, hrest⟩ := bind_eq_ok h
  obtain ⟨u, db₂, hdomains, hpure⟩ := bind_eq_ok hrest
  cases hpure
  cases execute_ok hsite
  have hid := hdb.siteId
  have hb := hdb.sites.bound
  obtain ⟨hdb', hnodup⟩ := insertDomains_ok hdomains
  rw [hdb']
  refine ⟨hid, ?_, rfl, rfl, ?_, ?_, ?_, ?_, ?_⟩
  · -- the domains of the other sites and those of the new one do not mix
    have hold : ∀ d ∈ db.siteDomains, d.1 ≠ db.siteSequence.getD 0 + 1 := by
      intro d hd
      obtain ⟨s, hs, hsd⟩ := hdb.sites.owned d hd
      have := hb s hs
      omega
    simp only [listSites_eq, hid, List.map_append, List.map_cons, List.map_nil, domainsOf_append,
      domainsOf_inserted, domainsOf_eq_nil hold, if_true, List.nil_append]
    refine congrArg (· ++ _) (List.map_congr_left fun s hs => ?_)
    have := hb s hs
    rw [if_neg (by omega), List.append_nil]
  · have := hdb.sites.nonneg
    simp only [hid, Option.getD_some]
    omega
  · simp only [hid, List.map_append, List.map_cons, List.map_nil]
    exact pairwise_append_next hdb.sites.ids (List.forall_mem_map.mpr hb)
  · simp only [hid, List.mem_append, List.mem_singleton, Option.getD_some]
    rintro s (hs | rfl)
    · have := hb s hs
      omega
    · exact le_rfl
  · simp only [List.mem_append, List.mem_map, List.mem_singleton]
    rintro d (hd | ⟨name, -, rfl⟩)
    · obtain ⟨s, hs, hsd⟩ := hdb.sites.owned d hd
      exact ⟨s, .inl hs, hsd⟩
    · exact ⟨_, .inr rfl, rfl⟩
  · simpa [Function.comp_def] using hnodup hdb.sites.hostnames

end Sites

/-- What is read from the tables. -/
structure Reads (db : Database) (sites : List SiteRecord) (certificates : List CertificateRecord)
    (settings : RuntimeSettingsRecord) (revision : Nat) : Prop where
  sites : db.listSites = sites
  certificates : db.certificates = certificates
  settings : db.settings = settings
  revision : db.revision = revision
  wellFormed : db.WellFormed

namespace Repository

variable {io : Sqlite} {db db' : Database}

theorem createSite_ok (hdb : db.WellFormed) {site : SiteRecord} {id : Int}
    (h : createSite io site db = .ok id db') :
    Reads db' (db.listSites ++ [{ site with id := db.nextSiteId }]) db.certificates db.settings
      (db.revision + 1) := by
  obtain ⟨db₁, hbody, rfl⟩ := change_ok h
  have hadded := insertSiteAndDomains_ok hdb hbody
  have hid := hadded.id_eq.trans hdb.nextSiteId.symm
  have hframe := hadded.frame
  refine ⟨hid ▸ hadded.listed, ?_, ?_, ?_, hadded.wellFormed, ?_⟩
  · rw [Database.counted, hframe]
  · rw [Database.counted, hframe]
  · rw [Database.counted, hframe]
  · rw [Database.counted, hframe]
    exact hdb.certificates

theorem replaceSite_eq_map {site : SiteRecord} {sites : List SiteRecord}
    (h : (sites.map (·.id)).Pairwise (· < ·)) :
    replaceSite site sites = sites.map fun s => if s.id = site.id then site else s := by
  induction sites with
  | nil => rfl
  | cons s sites ih =>
    rw [List.map_cons, List.pairwise_cons] at h
    simp only [replaceSite, beq_iff_eq, List.map_cons]
    split
    · rename_i hs
      refine congrArg _ ((List.map_id _).symm.trans (List.map_congr_left fun t ht => ?_))
      have hlt := h.1 t.id (List.mem_map_of_mem ht)
      rw [if_neg (by omega)]
      rfl
    · rw [ih h.2]

theorem listSites_ids (db : Database) : db.listSites.map (·.id) = db.sites.map (·.id) := by
  simp [listSites_eq, Function.comp_def]

theorem updateSite_ok (hdb : db.WellFormed) {site : SiteRecord} {u : Unit}
    (h : updateSite io site db = .ok u db') :
    Reads db' (replaceSite site db.listSites) db.certificates db.settings (db.revision + 1) := by
  obtain ⟨db₁, hbody, rfl⟩ := change_ok h
  obtain ⟨_, db₂, hrow, hrest⟩ := bind_eq_ok hbody
  obtain ⟨_, db₃, hclear, hinsert⟩ := bind_eq_ok hrest
  have hrow := execute_ok hrow
  unfold Database.rewriteSite at hrow
  split at hrow
  · rename_i hany
    cases hrow
    cases execute_ok hclear
    obtain ⟨hdb', hnodup⟩ := insertDomains_ok hinsert
    rw [hdb']
    have hids : (db.sites.map fun row =>
        if row.id = site.id then { site with domains := [] } else row).map (·.id) =
          db.sites.map (·.id) := by
      rw [List.map_map]
      refine List.map_congr_left fun s _ => ?_
      simp only [Function.comp_apply]
      split
      · exact Eq.symm ‹_›
      · rfl
    refine ⟨?_, rfl, rfl, rfl, ⟨hdb.sites.nonneg, ?_, ?_, ?_, ?_⟩, hdb.certificates⟩
    · rw [replaceSite_eq_map (by rw [listSites_ids]; exact hdb.sites.ids)]
      simp only [listSites_eq, Database.counted, List.map_map, domainsOf_append,
        domainsOf_inserted, domainsOf_cleared, beq_iff_eq]
      refine List.map_congr_left fun s _ => ?_
      by_cases hs : s.id = site.id
      · simp [hs]
      · simp [hs, Ne.symm hs]
    · simp only [Database.counted, beq_iff_eq, hids]
      exact hdb.sites.ids
    · have hb : ∀ i ∈ db.sites.map (·.id), i ≤ db.siteSequence.getD 0 :=
        List.forall_mem_map.mpr hdb.sites.bound
      rw [← hids] at hb
      simpa only [Database.counted, beq_iff_eq] using List.forall_mem_map.mp hb
    · have hmem : ∀ d, (∃ s ∈ db.sites, s.id = d) → ∃ s ∈ db.sites.map fun row =>
          if row.id = site.id then { site with domains := [] } else row, s.id = d := by
        intro d hd
        rw [← List.mem_map (f := SiteRecord.id)] at hd ⊢
        rw [hids]
        exact hd
      simp only [Database.counted, beq_iff_eq, List.mem_append, List.mem_filter, List.mem_map]
      rintro d (⟨hd, -⟩ | ⟨name, -, rfl⟩)
      · simpa only [List.mem_map] using hmem _ (hdb.sites.owned d hd)
      · obtain ⟨s, hs, hsid⟩ := List.any_eq_true.mp hany
        simpa only [List.mem_map] using hmem _ ⟨s, hs, by simpa using hsid⟩
    · have hkept := hnodup (hdb.sites.hostnames.sublist (List.filter_sublist.map _))
      simpa [Database.counted, Function.comp_def] using hkept
  · cases hrow

theorem deleteSite_ok (hdb : db.WellFormed) {id : Int} {u : Unit}
    (h : deleteSite io id db = .ok u db') :
    Reads db' (db.listSites.filter fun s => s.id != id) db.certificates db.settings
      (db.revision + 1) := by
  obtain ⟨db₁, hbody, rfl⟩ := change_ok h
  have hrow := execute_ok hbody
  unfold Database.removeSite at hrow
  split at hrow
  · cases hrow
    refine ⟨?_, rfl, rfl, rfl, ⟨hdb.sites.nonneg, ?_, ?_, ?_, ?_⟩, hdb.certificates⟩
    · simp only [listSites_eq, Database.counted, domainsOf_cleared, List.filter_map,
        Function.comp_def]
      refine List.map_congr_left fun s hs => ?_
      simp only [List.mem_filter, bne_iff_ne] at hs
      rw [if_neg hs.2]
    · exact hdb.sites.ids.sublist (List.filter_sublist.map _)
    · exact fun s hs => hdb.sites.bound s (List.mem_of_mem_filter hs)
    · intro d hd
      simp only [Database.counted, List.mem_filter, bne_iff_ne] at hd ⊢
      obtain ⟨s, hs, hsd⟩ := hdb.sites.owned d hd.1
      exact ⟨s, ⟨hs, hsd ▸ hd.2⟩, hsd⟩
    · exact hdb.sites.hostnames.sublist (List.filter_sublist.map _)
  · cases hrow

end Repository

/-! ## Certificates -/

/-- A row once the certificate is stored: it is replaced when the ids agree, and otherwise loses the
mark to a new default one. -/
def replacedBy (certificate row : CertificateRecord) : CertificateRecord :=
  if row.id = certificate.id then certificate
  else if certificate.isDefault then { row with isDefault := false } else row

/-- The row of a certificate that is created. -/
def Database.numbered (db : Database) (certificate : CertificateRecord) : CertificateRecord :=
  { certificate with id := db.certificateSequence.getD 0 + 1 }

section Certificates

variable {io : Sqlite} {db db' : Database} {rows : List CertificateRecord} {sequence : Int}

theorem replacedBy_id (certificate row : CertificateRecord) :
    (replacedBy certificate row).id = row.id := by
  unfold replacedBy
  split
  · exact Eq.symm ‹_›
  · split <;> rfl

theorem map_replacedBy_ids (certificate : CertificateRecord) (rows : List CertificateRecord) :
    (rows.map (replacedBy certificate)).map (·.id) = rows.map (·.id) := by
  simp [Function.comp_def, replacedBy_id]

/-- Who is marked once the certificate is stored. -/
theorem replacedBy_isDefault {certificate row : CertificateRecord}
    (h : (replacedBy certificate row).isDefault = true) :
    (certificate.isDefault = true ∧ row.id = certificate.id) ∨
      (certificate.isDefault = false ∧ row.isDefault = true) := by
  unfold replacedBy at h
  split at h
  · exact .inl ⟨h, ‹_›⟩
  · split at h
    · cases h
    · rename_i hdefault
      exact .inr ⟨by simpa using hdefault, h⟩

theorem replacedBy_name (certificate row : CertificateRecord) :
    (replacedBy certificate row).name =
      if row.id = certificate.id then certificate.name else row.name := by
  unfold replacedBy
  split
  · rfl
  · split <;> rfl

/-- The name of the certificate is not the name of another row. -/
theorem CertificatesWellFormed.replaced (h : CertificatesWellFormed rows sequence)
    {certificate : CertificateRecord}
    (hname : ∀ row ∈ rows, row.id ≠ certificate.id → row.name ≠ certificate.name) :
    CertificatesWellFormed (rows.map (replacedBy certificate)) sequence := by
  refine ⟨h.nonneg, by rw [map_replacedBy_ids]; exact h.ids, ?_, ?_, ?_⟩
  · refine List.forall_mem_map.mpr fun row hrow => ?_
    rw [replacedBy_id]
    exact h.bound row hrow
  · refine List.forall_mem_map.mpr fun c hc => List.forall_mem_map.mpr fun d hd hcd hdd => ?_
    rw [replacedBy_id, replacedBy_id]
    rcases replacedBy_isDefault hcd with ⟨hmark, hcid⟩ | ⟨hmark, hcdefault⟩
    · rcases replacedBy_isDefault hdd with ⟨-, hdid⟩ | ⟨hnot, -⟩
      · rw [hcid, hdid]
      · rw [hmark] at hnot; cases hnot
    · rcases replacedBy_isDefault hdd with ⟨hnot, -⟩ | ⟨-, hddefault⟩
      · rw [hmark] at hnot; cases hnot
      · exact h.oneDefault c hc d hd hcdefault hddefault
  · rw [List.map_map]
    refine List.Nodup.map_on (fun x hx y hy hxy => ?_) h.names.of_map
    simp only [Function.comp_apply, replacedBy_name] at hxy
    by_cases hxid : x.id = certificate.id
    · by_cases hyid : y.id = certificate.id
      · exact eq_of_id_eq h.ids hx hy (hxid.trans hyid.symm)
      · rw [if_pos hxid, if_neg hyid] at hxy
        exact absurd hxy.symm (hname y hy hyid)
    · by_cases hyid : y.id = certificate.id
      · rw [if_neg hxid, if_pos hyid] at hxy
        exact absurd hxy (hname x hx hxid)
      · rw [if_neg hxid, if_neg hyid] at hxy
        exact List.inj_on_of_nodup_map h.names hx hy hxy

theorem CertificatesWellFormed.append (h : CertificatesWellFormed rows sequence)
    {certificate : CertificateRecord} (hid : certificate.id = sequence + 1)
    (hname : ∀ c ∈ rows, c.name ≠ certificate.name)
    (hdefault : certificate.isDefault = true → ∀ c ∈ rows, c.isDefault = false) :
    CertificatesWellFormed (rows ++ [certificate]) (sequence + 1) := by
  refine ⟨by have := h.nonneg; omega, ?_, ?_, ?_, ?_⟩
  · rw [List.map_append, List.map_cons, List.map_nil, hid]
    exact pairwise_append_next h.ids (List.forall_mem_map.mpr h.bound)
  · simp only [List.mem_append, List.mem_singleton]
    rintro c (hc | rfl)
    · have := h.bound c hc
      omega
    · exact le_of_eq hid
  · simp only [List.mem_append, List.mem_singleton]
    rintro c (hc | rfl) d (hd | rfl) hcd hdd
    · exact h.oneDefault c hc d hd hcd hdd
    · rw [hdefault hdd c hc] at hcd; cases hcd
    · rw [hdefault hcd d hd] at hdd; cases hdd
    · rfl
  · rw [List.map_append, List.map_cons, List.map_nil, ← List.concat_eq_append, List.nodup_concat]
    refine ⟨fun hmem => ?_, h.names⟩
    obtain ⟨c, hc, hcname⟩ := List.mem_map.mp hmem
    exact hname c hc hcname

theorem Database.WellFormed.certificateId (h : db.WellFormed) :
    autoIncrement db.certificateSequence (db.certificates.map (·.id)) =
      db.certificateSequence.getD 0 + 1 :=
  autoIncrement_eq h.certificates.nonneg (List.forall_mem_map.mpr h.certificates.bound)

/-- A new id is the id of no row. -/
theorem CertificatesWellFormed.fresh (h : CertificatesWellFormed rows sequence) :
    ∀ row ∈ rows, row.id ≠ sequence + 1 := fun row hrow => by
  have := h.bound row hrow
  omega

theorem certificateConflict_none {others : List CertificateRecord} {row : CertificateRecord}
    (h : certificateConflict others row = none) :
    (∀ c ∈ others, c.name ≠ row.name) ∧
      (row.isDefault = true → ∀ c ∈ others, c.isDefault = false) := by
  unfold certificateConflict at h
  split at h
  · cases h
  · rename_i hname
    split at h
    · cases h
    · rename_i hnone
      refine ⟨fun c hc heq => hname ?_, fun hdefault c hc => ?_⟩
      · exact List.any_eq_true.mpr ⟨c, hc, beq_iff_eq.mpr heq⟩
      · simp only [hdefault, Bool.true_and, Bool.not_eq_true, List.any_eq_false] at hnone
        simpa using hnone c hc

theorem takeDefault_ok {isDefault : Bool} {keep : Int → Bool} {u : Unit}
    (h : takeDefault io isDefault keep db = .ok u db') :
    db' = { db with certificates := db.certificates.map fun row =>
      if isDefault && !keep row.id then { row with isDefault := false } else row } := by
  unfold takeDefault at h
  cases isDefault with
  | false => cases h; simp
  | true =>
    rw [if_pos rfl] at h
    cases execute_ok h
    refine congrArg (fun rows => { db with certificates := rows }) (List.map_congr_left fun row _ => ?_)
    cases hrow : row.isDefault with
    | true => simp
    | false =>
      have hsame : { row with isDefault := false } = row := by rw [← hrow]
      simp [hsame]

namespace Repository

theorem createCertificate_ok (hdb : db.WellFormed) {certificate : CertificateRecord} {id : Int}
    (h : createCertificate io certificate db = .ok id db') :
    Reads db' db.listSites
      (db.certificates.map (replacedBy (db.numbered certificate)) ++ [db.numbered certificate])
      db.settings (db.revision + 1) := by
  obtain ⟨db₁, hbody, rfl⟩ := change_ok h
  obtain ⟨_, db₂, htake, hinsert⟩ := bind_eq_ok hbody
  have hids : db₂.certificates.map (·.id) = db.certificates.map (·.id) := by
    rw [takeDefault_ok htake]
    simp only [List.map_map]
    exact List.map_congr_left fun row _ => by simp only [Function.comp_apply]; split <;> rfl
  have hrows : db₂.certificates =
      db.certificates.map (replacedBy (db.numbered certificate)) := by
    rw [takeDefault_ok htake]
    refine List.map_congr_left fun row hrow => ?_
    rw [replacedBy, Database.numbered, if_neg (hdb.certificates.fresh row hrow)]
    simp
  have hsequence : db₂.certificateSequence = db.certificateSequence := by rw [takeDefault_ok htake]
  have hinsert := execute_ok hinsert
  simp only [Database.insertCertificate, hids, hsequence, hdb.certificateId] at hinsert
  split at hinsert
  · cases hinsert
  · rename_i hnone
    cases hinsert
    have hrest : db₂ = { db with certificates := db₂.certificates } := by
      rw [takeDefault_ok htake]
    refine ⟨?_, ?_, ?_, ?_, ?_, ?_⟩
    · rw [hrest]; rfl
    · rw [← hrows]; rfl
    · rw [hrest]; rfl
    · rw [hrest]; rfl
    · rw [hrest]; exact hdb.sites
    · obtain ⟨hname, hdefault⟩ := certificateConflict_none hnone
      rw [hrows] at hname hdefault
      have hkept : ∀ row ∈ db.certificates, row.id ≠ (db.numbered certificate).id →
          row.name ≠ (db.numbered certificate).name := by
        intro row hrow hid
        have := hname _ (List.mem_map_of_mem hrow)
        rwa [replacedBy_name, if_neg hid] at this
      have hnew : CertificatesWellFormed (_ ++ [db.numbered certificate]) _ :=
        (hdb.certificates.replaced hkept).append rfl hname hdefault
      rw [← hrows] at hnew
      exact hnew

theorem updateCertificate_ok (hdb : db.WellFormed) {certificate : CertificateRecord} {u : Unit}
    (h : updateCertificate io certificate db = .ok u db') :
    Reads db' db.listSites (db.certificates.map (replacedBy certificate)) db.settings
      (db.revision + 1) := by
  obtain ⟨db₁, hbody, rfl⟩ := change_ok h
  obtain ⟨_, db₂, htake, hwrite⟩ := bind_eq_ok hbody
  have hwrite := execute_ok hwrite
  unfold Database.rewriteCertificate at hwrite
  split at hwrite
  · split at hwrite
    · cases hwrite
    · rename_i hnone
      cases hwrite
      have hrows : (db₂.certificates.map fun row =>
          if row.id == certificate.id then certificate else row) =
            db.certificates.map (replacedBy certificate) := by
        rw [takeDefault_ok htake]
        simp only [List.map_map]
        refine List.map_congr_left fun row _ => ?_
        by_cases hid : row.id = certificate.id
        · simp [replacedBy, hid]
        · simp only [Function.comp_apply, replacedBy, hid, beq_iff_eq, if_false]
          split <;> simp_all
      have hrest : db₂ = { db with certificates := db₂.certificates } := by
        rw [takeDefault_ok htake]
      refine ⟨?_, hrows, ?_, ?_, ?_, ?_⟩
      · rw [hrest]; rfl
      · rw [hrest]; rfl
      · rw [hrest]; rfl
      · rw [hrest]; exact hdb.sites
      · simp only [Database.counted, hrows]
        rw [hrest]
        refine hdb.certificates.replaced fun row hrow hid => ?_
        have hothers := (certificateConflict_none hnone).1
        rw [takeDefault_ok htake] at hothers
        have hrow' := hothers _ (List.mem_filter.mpr ⟨List.mem_map_of_mem hrow, by
          split
          · exact bne_iff_ne.mpr hid
          · exact bne_iff_ne.mpr hid⟩)
        split at hrow'
        · exact hrow'
        · exact hrow'
  · cases hwrite

theorem deleteCertificate_ok (hdb : db.WellFormed) {id : Int} {u : Unit}
    (h : deleteCertificate io id db = .ok u db') :
    Reads db' db.listSites (db.certificates.filter fun c => c.id != id) db.settings
      (db.revision + 1) := by
  obtain ⟨db₁, hbody, rfl⟩ := change_ok h
  have hrow := execute_ok hbody
  unfold Database.removeCertificate at hrow
  split at hrow
  · cases hrow
    have hmem : ∀ c ∈ db.certificates.filter fun row => row.id != id, c ∈ db.certificates :=
      fun c hc => List.mem_of_mem_filter hc
    exact ⟨rfl, rfl, rfl, rfl, hdb.sites, hdb.certificates.nonneg,
      hdb.certificates.ids.sublist (List.filter_sublist.map _),
      fun c hc => hdb.certificates.bound c (hmem c hc),
      fun c hc d hd => hdb.certificates.oneDefault c (hmem c hc) d (hmem d hd),
      hdb.certificates.names.sublist (List.filter_sublist.map _)⟩
  · cases hrow

theorem updateRuntimeSettings_ok (hdb : db.WellFormed) {settings : RuntimeSettingsRecord} {u : Unit}
    (h : updateRuntimeSettings io settings db = .ok u db') :
    Reads db' db.listSites db.certificates settings (db.revision + 1) := by
  obtain ⟨db₁, hbody, rfl⟩ := change_ok h
  cases execute_ok hbody
  exact ⟨rfl, rfl, rfl, rfl, hdb.sites, hdb.certificates⟩

end Repository

end Certificates

/-! ## Imports -/

section Imports

variable {io : Sqlite} {db db' : Database}

theorem numberSites_cons (next : Int) (site : SiteRecord) (sites : List SiteRecord) :
    numberSites next (site :: sites) = { site with id := next } :: numberSites (next + 1) sites := by
  have hshift : ∀ k : Nat, next + ((k + 1 : Nat) : Int) = next + 1 + (k : Int) := fun k => by omega
  simp only [numberSites, List.zipIdx_cons', List.map_cons, List.map_map, Function.comp_def,
    Prod.map, hshift]
  simp

/-- Restored certificates get the next ids, in order. -/
def numberCertificates (next : Int) : List CertificateRecord → List CertificateRecord
  | [] => []
  | c :: certificates => { c with id := next } :: numberCertificates (next + 1) certificates

/-- The sites of a backup are added one after the other. -/
theorem restoreSites_ok (hdb : db.WellFormed) {sites : List (SiteRecord × Nat)} {u : Unit}
    (h : loop (fun s => do let _ ← insertSiteAndDomains io s.2 s.1; pure ()) sites db = .ok u db') :
    db'.listSites = db.listSites ++ numberSites (db.siteSequence.getD 0 + 1) (sites.map (·.1)) ∧
      db' = { db with
        sites := db'.sites, siteDomains := db'.siteDomains, siteSequence := db'.siteSequence } ∧
      db'.WellFormed := by
  induction sites generalizing db with
  | nil =>
    cases h
    exact ⟨by simp [numberSites], rfl, hdb⟩
  | cons s sites ih =>
    obtain ⟨db₁, hone, hrest⟩ := loop_cons_eq_ok h
    obtain ⟨id, db₂, hinsert, hpure⟩ := bind_eq_ok hone
    cases hpure
    have hadded := insertSiteAndDomains_ok hdb hinsert
    have hframe := hadded.frame
    have hdb₁ : db₁.WellFormed := ⟨hadded.wellFormed, by rw [hframe]; exact hdb.certificates⟩
    obtain ⟨hlisted, hrestFrame, hwell⟩ := ih hdb₁ hrest
    refine ⟨?_, ?_, hwell⟩
    · rw [hlisted, hadded.listed, hadded.sequence, List.map_cons, numberSites_cons, hadded.id_eq]
      simp
    · rw [hrestFrame, hframe]

theorem restoreCertificates_ok (hdb : db.WellFormed) {certificates : List (CertificateRecord × Nat)}
    {u : Unit}
    (h : loop (fun c => do
      let _ ← execute io (.certificate c.2)
        (Database.insertCertificate "cannot restore TLS certificate" c.1)
      pure ()) certificates db = .ok u db') :
    db'.certificates = db.certificates ++
        numberCertificates (db.certificateSequence.getD 0 + 1) (certificates.map (·.1)) ∧
      db' = { db with
        certificates := db'.certificates, certificateSequence := db'.certificateSequence } ∧
      db'.WellFormed := by
  induction certificates generalizing db with
  | nil =>
    cases h
    exact ⟨by simp [numberCertificates], rfl, hdb⟩
  | cons c certificates ih =>
    obtain ⟨db₁, hone, hrest⟩ := loop_cons_eq_ok h
    obtain ⟨id, db₂, hinsert, hpure⟩ := bind_eq_ok hone
    cases hpure
    have hinsert := execute_ok hinsert
    simp only [Database.insertCertificate, hdb.certificateId] at hinsert
    split at hinsert
    · cases hinsert
    · rename_i hnone
      cases hinsert
      obtain ⟨hname, hdefault⟩ := certificateConflict_none hnone
      have hwell : CertificatesWellFormed (db.certificates ++ [db.numbered c.1]) _ :=
        hdb.certificates.append rfl hname hdefault
      have hnext := fun hwell => ih hwell hrest
      obtain ⟨hlisted, hrestFrame, hwell'⟩ := hnext ⟨hdb.sites, hwell⟩
      refine ⟨?_, ?_, hwell'⟩
      · rw [hlisted]
        simp [numberCertificates]
      · rw [hrestFrame]

theorem Repository.replaceConfiguration_ok (hdb : db.WellFormed) {sites : List SiteRecord}
    {certificates : List CertificateRecord} {settings : RuntimeSettingsRecord} {u : Unit}
    (h : replaceConfiguration io sites certificates settings db = .ok u db') :
    Reads db' (numberSites db.nextSiteId sites)
      (numberCertificates (db.certificateSequence.getD 0 + 1) certificates) settings
      (db.revision + 1) := by
  obtain ⟨db₁, hbody, rfl⟩ := change_ok h
  obtain ⟨_, db₂, hclear, hrest⟩ := bind_eq_ok hbody
  obtain ⟨_, db₃, hsites, hrest⟩ := bind_eq_ok hrest
  obtain ⟨_, db₄, hcertificates, hsettings⟩ := bind_eq_ok hrest
  cases execute_ok hclear
  cases execute_ok hsettings
  have hempty : ({ db with sites := [], siteDomains := [], certificates := [] } : Database).WellFormed :=
    ⟨⟨hdb.sites.nonneg, by simp, by simp, by simp, by simp⟩,
      hdb.certificates.nonneg, by simp, by simp, by simp, by simp⟩
  obtain ⟨hlisted, hframe, hwell⟩ := restoreSites_ok hempty hsites
  obtain ⟨hrows, hframe', hwell'⟩ := restoreCertificates_ok hwell hcertificates
  rw [List.zipIdx_map_fst] at hlisted hrows
  refine ⟨?_, ?_, rfl, ?_, hwell'.sites, hwell'.certificates⟩
  · rw [hdb.nextSiteId]
    rw [hframe']
    exact hlisted
  · rw [hframe] at hrows
    exact hrows
  · rw [hframe', hframe]
    rfl

end Imports

/-! ## An import that no statement fails -/

section Returns

variable {io : Sqlite} (hio : ∀ st, io st = none) {db : Database}
include hio

theorem execute_returns {α : Type} {st : Statement} {f : Database → Except Error (α × Database)} {a : α}
    {db' : Database} (h : f db = .ok (a, db')) : execute io st f db = .ok a db' := by
  unfold execute
  rw [hio, h]

theorem change_returns {α : Type} {body : Query α} {a : α} {db' : Database}
    (h : body db = .ok a db') : change io body db = .ok a db'.counted := by
  have hcounted : incrementRevision io db' = .ok () db'.counted := execute_returns hio rfl
  unfold change transaction
  rw [hio]
  dsimp only
  rw [bind_of_ok h, bind_of_ok hcounted, hio]
  rfl

theorem insertDomains_returns {i : Nat} {siteId : Int} {domains : List String}
    (h : (db.siteDomains.map (·.2) ++ domains).Nodup) :
    insertDomains io i siteId domains db =
      .ok () { db with siteDomains := db.siteDomains ++ domains.map fun d => (siteId, d) } := by
  unfold insertDomains
  generalize (0 : Nat) = k
  induction domains generalizing db k with
  | nil => simp [loop, pure, EStateM.pure]
  | cons d domains ih =>
    have hnew : d ∉ db.siteDomains.map (·.2) := fun hd =>
      List.disjoint_of_nodup_append h hd (by simp)
    have hinsert : Database.insertDomain siteId d db =
        .ok ((), { db with siteDomains := db.siteDomains ++ [(siteId, d)] }) := by
      unfold Database.insertDomain
      rw [if_neg]
      intro hany
      obtain ⟨row, hrow, hname⟩ := List.any_eq_true.mp hany
      exact hnew (List.mem_map.mpr ⟨row, hrow, beq_iff_eq.mp hname⟩)
    rw [List.zipIdx_cons]
    refine (loop_cons_of_ok (b := (d, k)) (execute_returns hio hinsert)).trans ?_
    rw [ih (by simpa using h)]
    simp

theorem insertSiteAndDomains_returns {i : Nat} {site : SiteRecord}
    (h : (db.siteDomains.map (·.2) ++ site.domains).Nodup) :
    ∃ id db', insertSiteAndDomains io i site db = .ok id db' ∧
      db'.siteDomains.map (·.2) = db.siteDomains.map (·.2) ++ site.domains ∧
      db'.certificates = db.certificates := by
  let id := autoIncrement db.siteSequence (db.sites.map (·.id))
  let db₁ : Database := { db with
    sites := db.sites ++ [{ site with id := id, domains := [] }], siteSequence := some id }
  have hsite : execute io (.site i) (Database.insertSite site) db = .ok id db₁ :=
    execute_returns hio rfl
  have hdomains : insertDomains io i id site.domains db₁ = _ := insertDomains_returns hio h
  refine ⟨id, { db₁ with siteDomains := db₁.siteDomains ++ site.domains.map fun d => (id, d) },
    (bind_of_ok hsite).trans (bind_of_ok hdomains), ?_, rfl⟩
  simp [db₁, Function.comp_def]

theorem restoreSites_returns {sites : List (SiteRecord × Nat)}
    (h : (db.siteDomains.map (·.2) ++ sites.flatMap (·.1.domains)).Nodup) :
    ∃ db', loop (fun s => do let _ ← insertSiteAndDomains io s.2 s.1; pure ()) sites db = .ok () db' ∧
      db'.certificates = db.certificates := by
  induction sites generalizing db with
  | nil => exact ⟨db, rfl, rfl⟩
  | cons s sites ih =>
    rw [List.flatMap_cons, ← List.append_assoc] at h
    obtain ⟨id, db₁, hone, hnames, hrows⟩ := insertSiteAndDomains_returns hio (i := s.2)
      (h.sublist (List.sublist_append_left _ _))
    have hone' : (db₁.siteDomains.map (·.2) ++ sites.flatMap (·.1.domains)).Nodup := by
      rw [hnames]
      exact h
    obtain ⟨db₂, hrest, hrows'⟩ := ih hone'
    have hbody : (do let _ ← insertSiteAndDomains io s.2 s.1; pure () : Query Unit) db = .ok () db₁ :=
      bind_of_ok hone
    refine ⟨db₂, Eq.trans ?_ hrest, hrows'.trans hrows⟩
    exact loop_cons_of_ok hbody

theorem restoreCertificates_returns {certificates : List (CertificateRecord × Nat)}
    (hnames : (db.certificates.map (·.name) ++ certificates.map (·.1.name)).Nodup)
    (hdefault : db.certificates.countP (·.isDefault) + certificates.countP (·.1.isDefault) ≤ 1) :
    ∃ db', loop (fun c => do
      let _ ← execute io (.certificate c.2)
        (Database.insertCertificate "cannot restore TLS certificate" c.1)
      pure ()) certificates db = .ok () db' := by
  induction certificates generalizing db with
  | nil => exact ⟨db, rfl⟩
  | cons c certificates ih =>
    have hname : ∀ d ∈ db.certificates, d.name ≠ c.1.name := fun d hd heq =>
      List.disjoint_of_nodup_append hnames (List.mem_map_of_mem hd) (by simp [heq])
    rw [List.countP_cons] at hdefault
    have hconflict : certificateConflict db.certificates c.1 = none := by
      unfold certificateConflict
      rw [if_neg, if_neg]
      · rw [Bool.and_eq_true]
        rintro ⟨hc, hany⟩
        obtain ⟨d, hd, hmark⟩ := List.any_eq_true.mp hany
        have : 0 < db.certificates.countP (·.isDefault) := List.countP_pos_iff.mpr ⟨d, hd, hmark⟩
        rw [if_pos hc] at hdefault
        omega
      · intro hany
        obtain ⟨d, hd, heq⟩ := List.any_eq_true.mp hany
        exact hname d hd (beq_iff_eq.mp heq)
    let id := autoIncrement db.certificateSequence (db.certificates.map (·.id))
    let db₁ : Database := { db with
      certificates := db.certificates ++ [{ c.1 with id := id }], certificateSequence := some id }
    have hinsert : Database.insertCertificate "cannot restore TLS certificate" c.1 db = .ok (id, db₁) := by
      unfold Database.insertCertificate
      rw [hconflict]
    have hnames' : (db₁.certificates.map (·.name) ++ certificates.map (·.1.name)).Nodup := by
      simpa [db₁] using hnames
    have hdefault' : db₁.certificates.countP (·.isDefault) +
        certificates.countP (·.1.isDefault) ≤ 1 := by
      simp only [db₁, List.countP_append, List.countP_singleton]
      split at hdefault
      · rename_i hc; rw [if_pos hc]; omega
      · rename_i hc; rw [if_neg hc]; omega
    obtain ⟨db₂, hrest⟩ := ih hnames' hdefault'
    have hbody : (do
        let _ ← execute io (.certificate c.2)
          (Database.insertCertificate "cannot restore TLS certificate" c.1)
        pure () : Query Unit) db = .ok () db₁ := bind_of_ok (execute_returns hio hinsert)
    refine ⟨db₂, Eq.trans ?_ hrest⟩
    exact loop_cons_of_ok hbody

theorem Repository.replaceConfiguration_returns {sites : List SiteRecord}
    {certificates : List CertificateRecord} {settings : RuntimeSettingsRecord}
    (hdomains : (sites.flatMap (·.domains)).Nodup) (hnames : (certificates.map (·.name)).Nodup)
    (hdefault : certificates.countP (·.isDefault) ≤ 1) :
    ∃ db', replaceConfiguration io sites certificates settings db = .ok () db' := by
  have hclear : execute io .clear Database.clearAll db =
      .ok () { db with sites := [], siteDomains := [], certificates := [] } := execute_returns hio rfl
  have hdomains' : ((({ db with sites := [], siteDomains := [], certificates := [] } : Database)
      ).siteDomains.map (·.2) ++ sites.zipIdx.flatMap (·.1.domains)).Nodup := by
    rw [← List.zipIdx_map_fst 0 sites, List.flatMap_map] at hdomains
    simpa using hdomains
  obtain ⟨db₁, hsites, hrows⟩ := restoreSites_returns hio hdomains'
  have hnames' : (db₁.certificates.map (·.name) ++ certificates.zipIdx.map (·.1.name)).Nodup := by
    rw [← List.zipIdx_map_fst 0 certificates, List.map_map] at hnames
    rw [hrows]
    exact hnames
  have hdefault' : db₁.certificates.countP (·.isDefault) +
      certificates.zipIdx.countP (·.1.isDefault) ≤ 1 := by
    rw [← List.zipIdx_map_fst 0 certificates, List.countP_map] at hdefault
    rw [hrows, List.countP_nil, Nat.zero_add]
    exact hdefault
  obtain ⟨db₂, hcertificates⟩ := restoreCertificates_returns hio hnames' hdefault'
  have hsettings : execute io .settings (Database.writeSettings settings) db₂ =
      .ok () { db₂ with settings := settings } := execute_returns hio rfl
  have hbody := bind_of_ok (f := fun _ => execute io .settings (Database.writeSettings settings))
    hcertificates
  refine ⟨Database.counted { db₂ with settings := settings }, change_returns hio ?_⟩
  refine (bind_of_ok hclear).trans ((bind_of_ok hsites).trans ?_)
  exact hbody.trans hsettings

end Returns

end Config
end WebServer
