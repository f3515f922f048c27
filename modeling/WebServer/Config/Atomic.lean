import WebServer.Config.Service

/-!
# WebServer.Config.Atomic

Changes of the configuration are all or nothing.

`spec_applyChange` is the shared part of the operations: from a state in which no reload is under
way, it throws with everything as it was, but for listeners that it bound and stopped, or returns
with one more revision that is stored, active and published. The operations add reads and checks in
front of it, which change nothing (`spec_read`, `spec_check`). `idle_run` is the invariant that makes
this available in every state that the service reaches.
-/

namespace WebServer
namespace Config

open Act WebServer.Core

/-- After a throw: everything is as it was, and listeners of the attempt were told to stop. -/
structure Unchanged (w₀ w : World) : Prop where
  frame : w = { w₀ with server := w.server }
  server : RolledBack w₀.server w.server

/-- After a return: no reload is under way, and with a reload handler the new revision is stored,
active and published. -/
structure Done (w₀ w : World) : Prop where
  idle : Idle w.server
  revision : w₀.reloadHandler = true →
    w.database.revision = w₀.database.revision + 1 ∧ w.activeRevision = w.database.revision ∧
      w.server.runtime.revision = w.database.revision

theorem unchanged_refl {w : World} (hw : Idle w.server) : Unchanged w w :=
  ⟨rfl, rolledBack_refl hw⟩

theorem Unchanged.idle {w₀ w : World} (h : Unchanged w₀ w) : Idle w.server := h.server.idle

section Rules

variable {w₀ : World} (hw : Idle w₀.server) {α β : Type} {Q : β → World → Prop}
include hw

/-- A read in front of the rest. -/
theorem spec_read {io : Sqlite} {st : Statement} {f : Database → α} {k : α → Service β}
    (hk : Spec (· = w₀) (k (f w₀.database)) Q (Unchanged w₀)) :
    Spec (· = w₀) (onDatabase (query io st f) >>= k) Q (Unchanged w₀) := by
  refine spec_bind (M := fun a w => a = f w₀.database ∧ w = w₀)
    (spec_onPart fun w hw₀ => ?_) fun a => ?_
  · subst hw₀
    exact spec_conseq (spec_query io w.database st f) (fun db h => h)
      (fun a db h => ⟨h.1, by rw [h.2]⟩) fun db h => by rw [h]; exact unchanged_refl hw
  · exact fun w h => by
      obtain ⟨rfl, hw₀⟩ := h
      exact hk w hw₀

/-- A check in front of the rest. -/
theorem spec_check {x : Except Error α} {k : α → Service β}
    (hk : ∀ a, x = .ok a → Spec (· = w₀) (k a) Q (Unchanged w₀)) :
    Spec (· = w₀) (attempt x >>= k) Q (Unchanged w₀) := by
  refine spec_bind (M := fun a w => x = .ok a ∧ w = w₀)
    (spec_attempt (fun a ha w hw₀ => ⟨ha, hw₀⟩) fun w hw₀ => ?_) fun a w h => hk a h.1 w h.2
  subst hw₀
  exact unchanged_refl hw

theorem spec_require {condition : Bool} {e : Error} {k : Unit → Service β}
    (hk : Spec (· = w₀) (k ()) Q (Unchanged w₀)) :
    Spec (· = w₀) (require condition e >>= k) Q (Unchanged w₀) := by
  refine spec_bind (M := fun _ w => w = w₀) (spec_failing (fun w hw₀ => hw₀) fun w hw₀ => ?_)
    fun _ => hk
  subst hw₀
  exact unchanged_refl hw

end Rules

/-- With a reload handler the reload is prepared, without one nothing has happened. -/
def Candidate (w₀ : World) (revision : Nat) (activation : Bool) (w : World) : Prop :=
  activation = w₀.reloadHandler ∧ w = { w₀ with server := w.server } ∧
    if activation then Building w₀.server revision w.server else w.server = w₀.server

/-- The same, with the change written. -/
def Written (w₀ : World) (revision : Nat) (activation : Bool) (w : World) : Prop :=
  activation = w₀.reloadHandler ∧
    w = { w₀ with database := w.database, server := w.server } ∧
    w.database.revision = w₀.database.revision + 1 ∧
    if activation then Building w₀.server revision w.server else w.server = w₀.server

section Change

variable (chk : Checks) (env : Env) {w₀ : World} (hw : Idle w₀.server)
include hw

theorem spec_prepareCandidateLocked (candidate : RuntimeConfigSpec) :
    Spec (· = w₀) (prepareCandidateLocked chk env candidate)
      (Candidate w₀ candidate.revision) (Unchanged w₀) := by
  have hsame : ∀ w, w = w₀ → Unchanged w₀ w := by rintro _ rfl; exact unchanged_refl hw
  refine spec_check hw fun _ _ => spec_bind (M := fun _ w => w = w₀)
    (spec_failing (fun w hw₀ => hw₀) hsame) fun _ =>
    spec_bind (M := fun v w => v = w₀ ∧ w = w₀) (spec_get fun w hw₀ => ⟨hw₀, hw₀⟩) fun v =>
    spec_fact fun hv => ?_
  subst hv
  split
  · rename_i hh
    refine spec_bind (M := fun _ => Candidate v candidate.revision true)
      (spec_onPart fun w hv => ?_) fun _ => spec_pure fun w h => h
    subst hv
    exact spec_conseq (spec_prepareReload chk env.network candidate hw) (fun s h => h)
      (fun _ s h => ⟨hh.symm, rfl, h⟩) fun s h => ⟨rfl, h⟩
  · rename_i hh
    refine spec_pure fun w hv => ⟨by simpa using hh, ?_, ?_⟩
    · rw [hv]
    · rw [hv]; rfl

/-- What was prepared is undone when its activation is not run. -/
theorem Candidate.destroy {revision : Nat} {activation : Bool} {w : World}
    (h : Candidate w₀ revision activation w) : Unchanged w₀ (destroyActivation w) := by
  obtain ⟨-, hframe, hserver⟩ := h
  refine ⟨by rw [destroyActivation, hframe], ?_⟩
  cases activation with
  | true => exact Building.destroy hw hserver
  | false =>
    have hs : w.server = w₀.server := hserver
    have hd : destroyPrepared w₀.server = w₀.server := by simp [destroyPrepared, hw.unprepared]
    rw [destroyActivation, hs, hd]
    exact rolledBack_refl hw

/-- The write adds a revision to the database and keeps what was prepared. -/
theorem spec_write {α : Type} {write : Query α} (hwrite : Counts write) (revision : Nat)
    (activation : Bool) :
    Spec (Candidate w₀ revision activation) (guarded destroyActivation (onDatabase write))
      (fun _ => Written w₀ revision activation) (Unchanged w₀) := by
  refine spec_guarded (spec_onPart fun w h => ?_)
  have hdb : w.database = w₀.database := by rw [h.2.1]
  refine spec_conseq (hwrite w.database) (fun db hd => hd) (fun _ db hd => ?_) fun db hd => ?_
  · exact ⟨h.1, by rw [h.2.1], by rw [← hdb]; exact hd, h.2.2⟩
  · have hsame : ({ w with database := db } : World) = w := by rw [hd]
    rw [hsame]
    exact h.destroy hw

theorem Written.commit {revision : Nat} {activation : Bool} {w : World}
    (h : Written w₀ revision activation w) (hrev : revision = w₀.database.revision + 1) :
    Done w₀ (commitCandidateLocked activation revision w) := by
  obtain ⟨hh, hframe, hdb, hserver⟩ := h
  cases activation with
  | true =>
    obtain ⟨hruntime, hidle⟩ := Building.activate hserver
    refine ⟨hidle, fun _ => ⟨hdb, ?_, ?_⟩⟩
    · exact hrev.trans hdb.symm
    · exact hruntime.trans (hrev.trans hdb.symm)
  | false =>
    have hs : w.server = w₀.server := hserver
    exact ⟨by rw [commitCandidateLocked, if_neg (by simp), hs]; exact hw, by simp [← hh]⟩

/-- The candidate is stored, active and published, or nothing has changed. -/
theorem spec_applyChange {α : Type} {sites : List SiteRecord}
    {certificates : List CertificateRecord} {settings : RuntimeSettingsRecord} {write : Query α}
    (hwrite : Counts write) :
    Spec (· = w₀) (applyChange chk env sites certificates settings (w₀.database.revision + 1) write)
      (fun _ => Done w₀) (Unchanged w₀) := by
  refine spec_check hw fun candidate hc => ?_
  have hrev := buildRuntimeSpec_revision chk hc
  refine spec_bind (spec_prepareCandidateLocked chk env hw candidate) fun activation =>
    spec_bind (spec_write hw hwrite candidate.revision activation) fun a =>
    spec_bind (M := fun _ => Done w₀) (spec_modify fun w h => ?_) fun _ => spec_pure fun w h => h
  rw [← hrev]
  exact h.commit hw hrev

end Change

/-! ## The operations -/

section Operations

variable (chk : Checks) (env : Env) {w₀ : World} (hw : Idle w₀.server)
include hw

theorem spec_createSite (site : SiteRecord) :
    Spec (· = w₀) (createSite chk env site) (fun _ => Done w₀) (Unchanged w₀) :=
  spec_check hw fun _ _ => spec_read hw <| spec_read hw <| spec_read hw <| spec_read hw <|
    spec_read hw <| spec_bind (spec_applyChange chk env hw (Repository.counts_createSite _ _))
      fun _ => spec_pure fun _ h => h

theorem spec_updateSite (site : SiteRecord) :
    Spec (· = w₀) (updateSite chk env site) (fun _ => Done w₀) (Unchanged w₀) :=
  spec_require hw <| spec_check hw fun _ _ => spec_read hw <| spec_read hw <| spec_require hw <|
    spec_read hw <| spec_read hw <|
      spec_bind (spec_applyChange chk env hw (Repository.counts_updateSite _ _))
        fun _ => spec_pure fun _ h => h

theorem spec_deleteSite (id : Int) :
    Spec (· = w₀) (deleteSite chk env id) (fun _ => Done w₀) (Unchanged w₀) :=
  spec_require hw <| spec_read hw <| spec_read hw <| spec_require hw <| spec_read hw <|
    spec_read hw <| spec_applyChange chk env hw (Repository.counts_deleteSite _ _)

theorem spec_createCertificate (certificate : CertificateRecord) :
    Spec (· = w₀) (createCertificate chk env certificate) (fun _ => Done w₀) (Unchanged w₀) :=
  spec_check hw fun _ _ => spec_read hw <| spec_read hw <| spec_read hw <| spec_read hw <|
    spec_bind (spec_applyChange chk env hw (Repository.counts_createCertificate _ _))
      fun _ => spec_pure fun _ h => h

theorem spec_updateCertificate (certificate : CertificateRecord) :
    Spec (· = w₀) (updateCertificate chk env certificate) (fun _ => Done w₀) (Unchanged w₀) :=
  spec_require hw <| spec_check hw fun _ _ => spec_read hw <| spec_require hw <| spec_read hw <|
    spec_read hw <| spec_read hw <|
      spec_bind (spec_applyChange chk env hw (Repository.counts_updateCertificate _ _))
        fun _ => spec_pure fun _ h => h

theorem spec_deleteCertificate (id : Int) :
    Spec (· = w₀) (deleteCertificate chk env id) (fun _ => Done w₀) (Unchanged w₀) :=
  spec_require hw <| spec_read hw <| spec_require hw <| spec_read hw <| spec_read hw <|
    spec_read hw <| spec_applyChange chk env hw (Repository.counts_deleteCertificate _ _)

theorem spec_updateRuntimeSettings (settings : RuntimeSettingsRecord) :
    Spec (· = w₀) (updateRuntimeSettings chk env settings) (fun _ => Done w₀) (Unchanged w₀) :=
  spec_check hw fun _ _ => spec_read hw <| spec_read hw <| spec_read hw <|
    spec_bind (spec_applyChange chk env hw (Repository.counts_updateRuntimeSettings _ _))
      fun _ => spec_pure fun _ h => h

theorem spec_importConfiguration (encoded : String) :
    Spec (· = w₀) (importConfiguration chk env encoded) (fun _ => Done w₀) (Unchanged w₀) :=
  spec_check hw fun _ _ => spec_read hw <| spec_read hw <|
    spec_applyChange chk env hw (Repository.counts_replaceConfiguration _ _ _ _)

theorem spec_perform (op : Op) :
    Spec (· = w₀) (perform chk env op) (fun _ => Done w₀) (Unchanged w₀) := by
  have hdrop : ∀ {α : Type} {m : Service α}, Spec (· = w₀) m (fun _ => Done w₀) (Unchanged w₀) →
      Spec (· = w₀) (do let _ ← m; pure ()) (fun _ => Done w₀) (Unchanged w₀) :=
    fun hm => spec_bind hm fun _ => spec_pure fun _ h => h
  cases op with
  | createSite site => exact hdrop (spec_createSite chk env hw site)
  | updateSite site => exact hdrop (spec_updateSite chk env hw site)
  | deleteSite id => exact spec_deleteSite chk env hw id
  | createCertificate certificate => exact hdrop (spec_createCertificate chk env hw certificate)
  | updateCertificate certificate => exact hdrop (spec_updateCertificate chk env hw certificate)
  | deleteCertificate id => exact spec_deleteCertificate chk env hw id
  | updateRuntimeSettings settings => exact hdrop (spec_updateRuntimeSettings chk env hw settings)
  | importConfiguration encoded => exact spec_importConfiguration chk env hw encoded

/-- The latest revision is active again, or nothing has changed. -/
theorem spec_reloadRuntime :
    Spec (· = w₀) (reloadRuntime chk env) (fun _ w => Idle w.server) (Unchanged w₀) := by
  refine spec_bind (M := fun _ w => w = w₀) (spec_get fun w h => h) fun _ =>
    spec_require hw <| spec_read hw <| spec_read hw <| spec_read hw <| spec_read hw <|
    spec_check hw fun candidate _ =>
    spec_bind (spec_prepareCandidateLocked chk env hw candidate) fun activation =>
    spec_modify fun w h => ?_
  obtain ⟨-, -, hserver⟩ := h
  cases activation with
  | true => exact (Building.activate hserver).2
  | false =>
    have hs : w.server = w₀.server := hserver
    rw [commitCandidateLocked, if_neg (by simp), hs]
    exact hw

theorem spec_seedDefaultCertificate (certificate : CertificateRecord) :
    Spec (· = w₀) (seedDefaultCertificate chk env certificate) (fun _ w => Idle w.server)
      (Unchanged w₀) := by
  refine spec_read hw ?_
  split
  · refine spec_pure fun w h => ?_
    rw [h]
    exact hw
  · refine spec_check hw fun certificate _ => spec_read hw <| spec_read hw <| spec_read hw <|
      spec_check hw fun candidate hc => ?_
    have hrev := buildRuntimeSpec_revision chk hc
    refine spec_bind (spec_prepareCandidateLocked chk env hw candidate) fun activation =>
      spec_bind (spec_write hw (Repository.counts_createCertificate _ _) _ activation) fun _ =>
      spec_modify fun w h => ?_
    cases activation with
    | true =>
      have := (h.commit hw hrev).idle
      rwa [hrev] at this
    | false =>
      have hs : w.server = w₀.server := h.2.2.2
      change Idle w.server
      rw [hs]
      exact hw

end Operations

/-! ## Runs -/

theorem idle_after {w : World} {m : Service Unit}
    (h : Spec (· = w) m (fun _ w' => Idle w'.server) (Unchanged w)) : Idle (after m w).server := by
  have h := h w rfl
  unfold after
  cases hm : m w with
  | ok a w' => rw [hm] at h; exact h
  | error e w' => rw [hm] at h; exact h.idle

theorem idle_step (chk : Checks) {w w' : World} {e : Event} (hw : Idle w.server)
    (hs : step chk w e = some w') : Idle w'.server := by
  cases e with
  | change op env =>
    cases hs
    exact idle_after (spec_conseq (spec_perform chk env hw op) (fun _ h => h)
      (fun _ _ h => h.idle) fun _ h => h)
  | reloadRuntime env => cases hs; exact idle_after (spec_reloadRuntime chk env hw)
  | seedDefaultCertificate certificate env =>
    cases hs; exact idle_after (spec_seedDefaultCertificate chk env hw certificate)
  | setReloadHandler => cases hs; exact hw
  | markRuntimeUnavailable => cases hs; exact hw
  | startServer env =>
    cases hs
    have h := spec_startServer env w.server hw
    unfold after
    cases hm : startServer env w.server with
    | ok a s' => rw [hm] at h; exact h
    | error e s' => rw [hm] at h; exact h
  | stopServer => cases hs; exact idle_stopServer hw
  | drained protocol id => cases hs; exact idle_onDrained hw protocol id
  | limiter e =>
    simp only [step, Option.map_eq_some_iff] at hs
    obtain ⟨l, -, rfl⟩ := hs
    exact ⟨hw.unlocked, hw.unprepared, hw.ids⟩

/-- Between two operations no reload is under way. -/
theorem idle_run (chk : Checks) {db : Database} {runtime : RuntimeConfig} {w : World}
    {es : List Event} (hr : Run.run (step chk) (World.initial db runtime) es = some w) :
    Idle w.server :=
  Run.run_inv (fun _ _ _ hw hs => idle_step chk hw hs) ⟨rfl, rfl, by simp [World.initial]⟩ hr

/-- What an operation that was started in `w` may leave behind. -/
inductive AllOrNothing (w : World) : EStateM.Result Error World Unit → Prop where
  | threw {e : Error} {w' : World} :
      w'.database = w.database → w'.activeRevision = w.activeRevision →
      w'.server.runtime = w.server.runtime → w'.server.http = w.server.http →
      w'.server.tls = w.server.tls → w'.server.limiter = w.server.limiter →
      w'.server.controlLocked = false →
      (∃ bound, w'.server.listeners = w.server.listeners ++ bound ∧
        ∀ l ∈ bound, l.stopped = true) →
      AllOrNothing w (.error e w')
  | returned {w' : World} :
      w'.database.revision = w.database.revision + 1 →
      w'.activeRevision = w'.database.revision →
      w'.server.runtime.revision = w'.database.revision →
      AllOrNothing w (.ok () w')

/-- In every state that the service reaches, whatever the checks reject and whatever fails: an
operation that throws has changed nothing, has stopped the listeners that it bound and has released
the control lock; one that returns has stored, activated and published the next revision. -/
theorem all_or_nothing (chk : Checks) (db : Database) (runtime : RuntimeConfig) (es : List Event)
    (w : World) (hr : Run.run (step chk) (World.initial db runtime) es = some w)
    (hh : w.reloadHandler = true) (op : Op) (env : Env) :
    AllOrNothing w (perform chk env op w) := by
  have h := spec_perform chk env (idle_run chk hr) op w rfl
  cases hp : perform chk env op w with
  | ok a w' =>
    rw [hp] at h
    obtain ⟨hstored, hactive, hpublished⟩ := h.revision hh
    exact .returned hstored hactive hpublished
  | error e w' =>
    rw [hp] at h
    obtain ⟨hframe, hserver⟩ := h
    have hs := hserver.frame
    have hdb : w'.database = w.database := by rw [hframe]
    have hactive : w'.activeRevision = w.activeRevision := by rw [hframe]
    refine .threw hdb hactive ?_ ?_ ?_ ?_ hserver.idle.unlocked hserver.bound <;> rw [hs]

/-- Checks that accept every record, and no backup. -/
def lenient : Checks where
  validateAndNormalize := .ok
  validateAndNormalizeCertificate := .ok
  validateRuntimeSettings := .ok
  decodeBackup _ := .error "configuration backup is not valid JSON"
  clientIpResolver _ := .ok ()
  virtualHostRouter _ := .ok ()
  tlsContexts _ := .ok ()

/-- Nothing fails by itself. -/
def calm : Env where
  sqlite _ := none
  preflight := none
  network := ⟨none, none, fun _ _ => none, fun _ _ => none⟩

/-- A disabled site owns the domain `a.test`. -/
def parkedDatabase : Database where
  sites := [{ id := 1, name := "parked", enabled := false, backendPort := 8090 }]
  siteDomains := [(1, "a.test")]
  siteSequence := some 1
  certificates := []
  certificateSequence := none
  settings := {}
  revision := 3

def emptyRuntime : RuntimeConfig := ⟨⟨3, [], [], true, {}⟩, [], []⟩

def running : World :=
  { World.initial parkedDatabase emptyRuntime with
    reloadHandler := true
    server := after (startServer calm.network) (World.initial parkedDatabase emptyRuntime).server }

def siteFor (domain : String) (port : Nat) : SiteRecord :=
  { name := domain, domains := [domain], backendPort := 8090, httpPort := port }

def returns {σ : Type} : EStateM.Result Error σ Unit → Bool
  | .ok _ _ => true
  | .error _ _ => false

/-- A site with a domain of its own is created. One that reuses the domain of the disabled site
passes the runtime builder, binds its listener and is then rejected by the database. -/
theorem all_or_nothing_reusedDomain :
    returns (perform lenient calm (.createSite (siteFor "b.test" 8080)) running) = true ∧
    AllOrNothing running (perform lenient calm (.createSite (siteFor "b.test" 8080)) running) ∧
    returns (perform lenient calm (.createSite (siteFor "a.test" 8081)) running) = false ∧
    AllOrNothing running (perform lenient calm (.createSite (siteFor "a.test" 8081)) running) := by
  have hrun : Run.run (step lenient) (World.initial parkedDatabase emptyRuntime)
      [.setReloadHandler, .startServer calm.network] = some running := rfl
  refine ⟨by decide +kernel, ?_, by decide +kernel, ?_⟩
  · exact all_or_nothing lenient _ _ _ running hrun rfl (.createSite (siteFor "b.test" 8080)) calm
  · exact all_or_nothing lenient _ _ _ running hrun rfl (.createSite (siteFor "a.test" 8081)) calm

end Config
end WebServer
