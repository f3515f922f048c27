import WebServer.Http.Server
import WebServer.Policy.RateBound

/-!
# WebServer.Http.Backend

What the backends get, over all sessions and through all publications.

A connection keeps the certificate of its handshake, and each request is routed with the configuration
of its own time. What has been asked of the rate limiters is one sequence of events, in the order of
the clock, so that the bound of one limiter is a bound on what one client gets through to a backend.

* `tls_isolated`: the certificate of a connection covers the host of every request that it carries to
  a backend, and the name of the handshake leads to the same virtual host.
* `backend_bound`: no client gets more than two fillings of the bucket of a policy to a backend within
  a window.
-/

namespace WebServer
namespace HttpSession

open Http Policy Run
open Snapshots (Hit Incoming Store siteHits)

section Grown

variable {env : Dispatcher.Environment} {openssl : Config.OpenSsl} {sv₀ sv sv' : Server}
variable {es : List Event} {spec : Config.RuntimeConfigSpec}

/-! ## What has been published and asked -/

theorem grown_run (h : sv.Good env openssl) (hrun : run (step env openssl) sv es = some sv') :
    ∃ added, sv'.shared.desk.consulted = sv.shared.desk.consulted ++ added ∧
      ∀ a ∈ added, ∃ e ∈ es, e.admits a := by
  induction es generalizing sv with
  | nil =>
    cases hrun
    exact ⟨[], by simp, by simp⟩
  | cons e es ih =>
    obtain ⟨sv₁, hs, hrun⟩ := run_cons hrun
    obtain ⟨hgood, first, hfirst, hadmits⟩ := kept_step h hs
    obtain ⟨rest, hrest, hadmitted⟩ := ih hgood hrun
    refine ⟨first ++ rest, by rw [hrest, hfirst, List.append_assoc], fun a ha => ?_⟩
    rcases List.mem_append.mp ha with ha | ha
    · exact ⟨e, List.mem_cons_self .., hadmits a ha⟩
    · obtain ⟨e', he', hadmit⟩ := hadmitted a ha
      exact ⟨e', List.mem_cons_of_mem _ he', hadmit⟩

theorem make_consulted (h : Server.make env openssl spec = some sv) :
    sv.shared.desk.consulted = [.publish spec] := by
  unfold Server.make at h
  split at h
  · cases h
    rfl
  · cases h

theorem published_of_run (hmake : Server.make env openssl spec = some sv₀)
    (hrun : run (step env openssl) sv₀ es = some sv) {published : Config.RuntimeConfigSpec}
    (hm : .publish published ∈ sv.shared.desk.consulted) :
    published = spec ∨ .publish published ∈ es := by
  obtain ⟨added, hadded, hadmits⟩ := grown_run (good_make hmake) hrun
  rw [hadded, make_consulted hmake, List.singleton_append, List.mem_cons] at hm
  rcases hm with hm | hm
  · exact .inl (Snapshots.Event.publish.inj hm)
  · obtain ⟨e, he, rfl⟩ := hadmits _ hm
    exact .inr he

/-- The clock does not go back from event to event. -/
def Clocked : ℕ → List Event → Prop
  | _, [] => True
  | t, e :: es =>
    match e.time with
    | none => Clocked t es
    | some now => t ≤ now ∧ Clocked now es

def askedAt : Snapshots.Event → Option ℕ
  | .publish _ => none
  | .request r => some r.now

/-- The requests have been asked about in the order of the clock, none after `t`. -/
def Asked (t : ℕ) (consulted : List Snapshots.Event) : Prop :=
  (consulted.filterMap askedAt).Pairwise (· ≤ ·) ∧ ∀ now ∈ consulted.filterMap askedAt, now ≤ t

theorem Asked.append {t now : ℕ} {consulted added : List Snapshots.Event} (h : Asked t consulted)
    (ht : t ≤ now) (hadded : ∀ now' ∈ added.filterMap askedAt, now' = now) :
    Asked now (consulted ++ added) := by
  unfold Asked
  simp only [List.filterMap_append, List.pairwise_append, List.mem_append]
  refine ⟨⟨h.1, ?_, fun a ha b hb => ?_⟩, ?_⟩
  · refine List.Pairwise.imp_of_mem (R := fun _ _ => True) (fun ha hb _ => ?_)
      (List.pairwise_of_forall fun _ _ => trivial)
    rw [hadded _ ha, hadded _ hb]
  · rw [hadded b hb]
    exact (h.2 a ha).trans ht
  · rintro now' (hm | hm)
    · exact (h.2 now' hm).trans ht
    · exact (hadded now' hm).le

theorem asked_run {t : ℕ} (h : sv.Good env openssl) (hasked : Asked t sv.shared.desk.consulted)
    (hclock : Clocked t es) (hrun : run (step env openssl) sv es = some sv') :
    ∃ t', Asked t' sv'.shared.desk.consulted := by
  induction es generalizing sv t with
  | nil =>
    cases hrun
    exact ⟨t, hasked⟩
  | cons e es ih =>
    obtain ⟨sv₁, hs, hrun⟩ := run_cons hrun
    obtain ⟨hgood, added, hadded, hadmits⟩ := kept_step h hs
    have htimes : ∀ now ∈ added.filterMap askedAt, e.time = some now := by
      intro now hnow
      obtain ⟨a, ha, hat⟩ := List.mem_filterMap.mp hnow
      cases a with
      | publish published => cases hat
      | request r =>
        cases hat
        exact hadmits _ ha
    unfold Clocked at hclock
    split at hclock
    · rename_i htime
      refine ih hgood (t := t) ?_ hclock hrun
      rw [hadded]
      refine hasked.append (Nat.le_refl _) fun now hnow => ?_
      rw [htimes now hnow] at htime
      cases htime
    · rename_i now htime
      refine ih hgood (t := now) ?_ hclock.2 hrun
      rw [hadded]
      refine hasked.append hclock.1 fun now' hnow' => ?_
      exact Option.some.inj ((htimes now' hnow').symm.trans htime)

end Grown

/-! ## The bound of a policy -/

section Hits

variable {env : Snapshots.Environment} {store : Store}

theorem call_of_request {r : Incoming} {hit : Hit} (h : (store.request env r).2 = some hit) :
    hit.call = ⟨r.clientIp, r.now⟩ := by
  unfold Store.request at h
  split at h
  · cases h
  · split at h
    · cases h
    · dsimp only at h
      split at h
      · cases h
        rfl
      · cases h

/-- The checks are those of the requests that were asked about, in order. -/
theorem calls_sublist (events : List Snapshots.Event) (store : Store) :
    ((Snapshots.run env store events).map fun hit => hit.call.now).Sublist
      (events.filterMap askedAt) := by
  induction events generalizing store with
  | nil => exact List.Sublist.refl _
  | cons event events ih =>
    cases event with
    | publish spec => exact ih _
    | request r =>
      rw [Snapshots.run, List.map_append, List.filterMap_cons]
      dsimp only [askedAt]
      cases hhit : (store.request env r).2 with
      | none => exact (ih _).cons _
      | some hit =>
        have hnow : hit.call.now = r.now := by rw [call_of_request hhit]
        simp only [Option.toList_some, List.map_cons, List.map_nil, hnow, List.singleton_append]
        exact (ih _).cons_cons _

theorem clients_of_run {events : List Snapshots.Event} {hit : Hit}
    (h : hit ∈ Snapshots.run env store events) :
    ∃ r, .request r ∈ events ∧ hit.call.clientIp = r.clientIp := by
  induction events generalizing store with
  | nil => cases h
  | cons event events ih =>
    cases event with
    | publish spec =>
      obtain ⟨r, hr, hip⟩ := ih h
      exact ⟨r, List.mem_cons_of_mem _ hr, hip⟩
    | request r =>
      rcases List.mem_append.mp h with h | h
      · refine ⟨r, List.mem_cons_self .., ?_⟩
        rw [call_of_request (Option.mem_toList.mp h)]
      · obtain ⟨r', hr', hip⟩ := ih h
        exact ⟨r', List.mem_cons_of_mem _ hr', hip⟩

theorem ordered_of_pairwise {calls : List Policy.Call} {t : ℕ}
    (h : (calls.map Policy.Call.now).Pairwise (· ≤ ·)) (ht : ∀ c ∈ calls, t ≤ c.now) :
    Ordered t calls := by
  induction calls generalizing t with
  | nil => trivial
  | cons c calls ih =>
    rw [List.map_cons, List.pairwise_cons] at h
    refine ⟨ht c (List.mem_cons_self ..), ih h.2 fun c' hc' => ?_⟩
    exact h.1 c'.now (List.mem_map.mpr ⟨c', hc', rfl⟩)

/-- A request of this client to this policy of the site, within the window from `s` on. -/
def Counts (siteId : Int) (pointer : ℕ) (ip : Text) (s w : ℕ) (key : Key) : Bool :=
  key.1 = siteId ∧ key.2.1 = some pointer ∧ key.2.2.clientIp = ip ∧ s ≤ key.2.2.now ∧
    key.2.2.now ≤ s + w

theorem admittedIn_clientTrace (hits : List Hit) (siteId : Int) (pointer : ℕ) (ip : Text) (s w : ℕ) :
    admittedIn (Snapshots.clientTrace
        ((siteHits siteId hits).filter fun hit => hit.policy = pointer) ip) s w =
      ((hits.filter fun hit => hit.decision = none).map hitKey).countP
        (Counts siteId pointer ip s w) := by
  rw [admittedIn, Snapshots.clientTrace, siteHits, List.countP_map, List.countP_map,
    List.countP_filter, List.countP_filter, List.countP_filter, List.countP_filter]
  refine List.countP_congr fun hit _ => ?_
  simp only [Counts, hitKey, Function.comp, Bool.and_eq_true, decide_eq_true_eq, Option.some.injEq]
  tauto

/-- What one limiter lets pass, of all that has been asked. -/
theorem admitted_bound {siteId : Int} {limit : RateLimitSpec} {l : RateLimiter}
    (hl : RateLimiter.make limit = .ok l) (hon : limit.enabled = true) (hcap : limit.Capped)
    {events : List Snapshots.Event} (hsettings : Snapshots.Unchanged siteId limit events) {t : ℕ}
    (hasked : Asked t events) {clients : Finset Text} (hcard : clients.card ≤ maxRateLimitEntries)
    (hclients : ∀ r, .request r ∈ events → r.clientIp ∈ clients) (pointer : ℕ) (ip : Text) (s : ℕ) :
    (admitted env events).countP (Counts siteId pointer ip s (seconds limit.windowSeconds)) ≤
      2 * limit.maxRequests := by
  have hat := Snapshots.hits_at env hl hsettings (Snapshots.tracked_empty siteId l) pointer
  obtain ⟨rfl, hvalid⟩ := RateLimiter.make_ok hl
  unfold admitted
  rw [← admittedIn_clientTrace, Snapshots.clientTrace_of_decisions hat]
  have hsub : (((siteHits siteId (Snapshots.run env .empty events)).filter
      fun hit => hit.policy = pointer)).Sublist (Snapshots.run env .empty events) :=
    List.filter_sublist.trans List.filter_sublist
  refine bounded_of_capped (hvalid hon) hon hcap _ ip s ?_ ?_
  · refine ordered_of_pairwise ?_ fun c _ => Nat.zero_le _
    rw [List.map_map]
    exact hasked.1.sublist ((hsub.map _).trans (calls_sublist events .empty))
  · refine neverEvicted_of_card hcard (fun c hc => ?_) (fun k hk => ?_) ip
    · obtain ⟨hit, hhit, rfl⟩ := List.mem_map.mp hc
      obtain ⟨r, hr, hip⟩ := clients_of_run (hsub.subset hhit)
      exact hip ▸ hclients r hr
    · simp at hk

end Hits

section Results

variable {env : Dispatcher.Environment} {openssl : Config.OpenSsl} {sv₀ sv : Server}
variable {es : List Event} {spec : Config.RuntimeConfigSpec}

/-- While the published configurations agree on the rate limit of a site, and no more clients than the
table holds ask, a client gets at most two fillings of the bucket through to a backend in a window, at
each policy of the site, over all its connections and through all publications. -/
theorem backend_bound (hmake : Server.make env openssl spec = some sv₀)
    (hrun : run (step env openssl) sv₀ es = some sv) (hclock : Clocked 0 es)
    (siteId : Int) (limit : RateLimitSpec) (l : RateLimiter) (hl : RateLimiter.make limit = .ok l)
    (hon : limit.enabled = true) (hcap : limit.Capped)
    (hsettings : ∀ published, published = spec ∨ .publish published ∈ es →
      ∀ site ∈ published.sites, site.virtualHost.overload.siteId = siteId →
        Snapshots.rateLimitOf site.virtualHost.site = limit)
    (clients : Finset Text) (hcard : clients.card ≤ maxRateLimitEntries)
    (hclients : ∀ r, .request r ∈ sv.shared.desk.consulted → r.clientIp ∈ clients)
    (pointer : ℕ) (ip : Text) (s : ℕ) :
    (sv.shared.desk.handed.countP fun h => h.handoff.virtualHost.overload.siteId = siteId ∧
        h.pointer = some pointer ∧ h.dispatcher.clientIp = ip ∧ s ≤ h.now ∧
        h.now ≤ s + seconds limit.windowSeconds) ≤ 2 * limit.maxRequests := by
  have hgood := good_of_run hmake hrun
  have hstart : Asked 0 sv₀.shared.desk.consulted := by
    rw [make_consulted hmake]
    exact ⟨List.Pairwise.nil, by simp [askedAt]⟩
  obtain ⟨t, hasked⟩ := asked_run (good_make hmake) hstart hclock hrun
  have hunchanged : Snapshots.Unchanged siteId limit sv.shared.desk.consulted :=
    fun published hm => hsettings published (published_of_run hmake hrun hm)
  have hkeys : (sv.shared.desk.handed.countP fun h =>
      h.handoff.virtualHost.overload.siteId = siteId ∧ h.pointer = some pointer ∧
        h.dispatcher.clientIp = ip ∧ s ≤ h.now ∧ h.now ≤ s + seconds limit.windowSeconds) =
      (sv.shared.desk.handed.map Handed.key).countP
        (Counts siteId pointer ip s (seconds limit.windowSeconds)) := by
    rw [List.countP_map]
    rfl
  rw [hkeys]
  exact (hgood.desk.counted.countP_le).trans
    (admitted_bound hl hon hcap hunchanged hasked hcard hclients pointer ip s)

theorem backend_bound_relaying : ∃ sv, Single.last 7 = some sv ∧
    (sv.shared.desk.handed.countP fun h => h.handoff.virtualHost.overload.siteId = 1 ∧
        h.pointer = some 1 ∧ h.dispatcher.clientIp = ascii "0.0.0.1" ∧ 0 ≤ h.now ∧
        h.now ≤ 0 + seconds Snapshots.Twice.rateLimit.windowSeconds) ≤ 2 := by
  obtain ⟨sv₀, sv, hmake, hrun, hlast⟩ := Single.runs 7
  obtain ⟨-, -, hfew, -⟩ := Single.seen
  rw [hlast, Option.all_some, decide_eq_true_eq] at hfew
  let ips : List Text := sv.shared.desk.consulted.map fun
    | .publish _ => []
    | .request r => r.clientIp
  refine ⟨sv, hlast, backend_bound hmake hrun ?_ 1 Snapshots.Twice.rateLimit
    ⟨Snapshots.Twice.rateLimit, ∅, [], 0⟩ rfl rfl (by decide) ?_ ips.toFinset ?_ ?_ 1
    (ascii "0.0.0.1") 0⟩
  · simp [Clocked, Event.time, Single.events, Single.asked, Single.lost, Single.io]
  · rintro published (rfl | hm) site hsite -
    · rw [List.mem_singleton.mp hsite]
      rfl
    · simp [Single.events] at hm
  · refine (List.toFinset_card_le ips).trans ?_
    rw [List.length_map]
    exact hfew.trans (by decide)
  · exact fun r hr => List.mem_toFinset.mpr (List.mem_map.mpr ⟨_, hr, rfl⟩)

/-- A request that came over TLS goes to the virtual host that its host leads to when it is dispatched,
and the name of the handshake leads there as well. The certificate of the handshake was bound, by a
configuration that had been published by then, to a domain that covers the host, however often the
configuration has changed since. -/
theorem tls_isolated (hmake : Server.make env openssl spec = some sv₀)
    (hrun : run (step env openssl) sv₀ es = some sv) :
    ∀ h ∈ sv.shared.desk.handed, h.scheme = .https →
      ∃ host pointer vh, h.dispatcher.request.normalizedHost = some host ∧
        h.store.route (h.dispatcher.incoming host h.now) = some pointer ∧
        h.store.virtualHosts[pointer]? = some vh ∧ vh.config = h.handoff.virtualHost ∧
        (∀ name sni, h.serverName = some name → Routing.normalizeDomain name = some sni →
          h.store.route (h.dispatcher.incoming sni h.now) = some pointer) ∧
        ∃ published cert c, (published = spec ∨ .publish published ∈ es) ∧
          cert ∈ published.tlsCertificates ∧ h.tlsState.selectedContext = some c ∧
          c.config = cert ∧ ∃ p ∈ cert.domains, Tls.ContextManager.Covers (Routing.utf8 p) host := by
  intro h hm hscheme
  obtain ⟨⟨host, pointer, hdirected⟩, hshaken⟩ := (good_of_run hmake hrun).desk.checked h hm
  obtain ⟨vh, hvh, hconfig⟩ := hdirected.virtualHost
  obtain ⟨m, -, ⟨published, hpublished, hcontexts⟩, hcallback⟩ := hshaken hscheme
  have hsecurity := hdirected.security
  rw [hscheme] at hsecurity
  have hmatch := hdirected.directed
  unfold Dispatcher.RequestDispatcher.misdirected at hmatch
  rw [hsecurity] at hmatch
  simp only [security] at hmatch
  obtain ⟨hcertificate, hsni⟩ := Config.misdirected_eq_false_iff.mp hmatch
  rw [Option.any_map] at hcertificate
  obtain ⟨c, hc, hmatches⟩ := Option.any_eq_true .. |>.mp hcertificate
  obtain ⟨cert, hcert, hmade⟩ := Tls.ContextManager.madeFrom_of_callback hcontexts hcallback hc
  refine ⟨host, pointer, vh, hdirected.normalizedHost, hdirected.routed, hvh, hconfig, ?_, published,
    cert, c, published_of_run hmake hrun hpublished, hcert, hc, hmade.config_eq,
    hmade.matches_iff.mp hmatches⟩
  intro name sni hname hnormalized
  rw [hname] at hcallback
  exact hsni sni (by rw [Tls.ContextManager.sniHost_of_callback hcallback, hnormalized])

theorem tls_isolated_relaying : ∃ sv h, Single.last 7 = some sv ∧ h ∈ sv.shared.desk.handed ∧
    h.scheme = .https ∧ ∃ host pointer, h.dispatcher.request.normalizedHost = some host ∧
      h.store.route (h.dispatcher.incoming host h.now) = some pointer := by
  obtain ⟨sv₀, sv, hmake, hrun, hlast⟩ := Single.runs 7
  obtain ⟨-, -, -, htls, -⟩ := Single.seen
  rw [hlast, Option.all_some] at htls
  obtain ⟨h, hm, hscheme⟩ := List.any_eq_true.mp htls
  have hscheme : h.scheme = .https := of_decide_eq_true hscheme
  obtain ⟨host, pointer, vh, hhost, hroute, -⟩ := tls_isolated hmake hrun h hm hscheme
  exact ⟨sv, h, hlast, hm, hscheme, host, pointer, hhost, hroute⟩

end Results

end HttpSession
end WebServer
