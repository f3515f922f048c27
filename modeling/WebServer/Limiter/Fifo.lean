import WebServer.Limiter.Queue

/-!
# WebServer.Limiter.Fifo

The limiter is first come, first served and leaves no slot idle while a request waits.

* `conserving_step`: after every operation a site with a queue has no free slot.
* `granted_within`: what one operation grants is ahead of everything still queued and leaves
  `active` within the limit then in force.
-/

namespace WebServer
namespace Limiter

open Run

/-! ## No slot is free while a request waits -/

def Full (site : SiteState) : Prop := site.queue ≠ [] → site.maximumActive ≤ site.active

theorem full_of_nil {site : SiteState} (h : site.queue = []) : Full site := fun hne => absurd h hne

theorem Full.reclaim {site : SiteState} (h : Full site) : Full (site.reclaim.getD {}) := by
  unfold SiteState.reclaim
  split
  · exact full_of_nil rfl
  · exact h

theorem conserving_set {s t : State} {id : Int} {o : Option SiteState} (h : Conserving s)
    (ht : t.sites = s.sites.set id o) (ho : Full (o.getD {})) : Conserving t := by
  intro id'
  show Full (t.entry id')
  by_cases hid : id' = id
  · subst hid; simpa [State.entry, ht] using ho
  · have hs : t.entry id' = s.entry id' := by simp [State.entry, ht, getD_lookup_set, hid]
    rw [hs]; exact h id'

theorem promote_full {s : State} (hi : Inv s) (id : Int) {site : SiteState}
    (hq : site.queue = (s.entry id).queue) : Full (s.promoteSite id site).1 := by
  have hspec := promote_spec site.maximumActive (hq ▸ hi.sorted id) site.active s.pending
    (hq ▸ hi.queued id)
  rcases hspec.full with hn | hm
  · exact full_of_nil hn
  · exact fun _ => hm

theorem conserving_accept {s t : State} {id : Int} {site : SiteState} {w : Nat} (h : Conserving s)
    (hs : Full site) (ht : t.sites = s.sites.set id (some site)) :
    Conserving (t.accept id site w) := by
  have h1 : Conserving t := conserving_set h ht hs
  unfold State.accept
  split
  · rename_i hfree; exact conserving_set (o := some _) h1 rfl (full_of_nil hfree.1)
  split
  · exact conserving_set (o := some { site with rejected := site.rejected + 1 }) h1 rfl hs
  · rename_i hfree _
    refine conserving_set (o := some { site with queue := site.queue ++ [w] }) h1 rfl ?_
    intro _
    simp only [Option.getD_some]
    by_contra hlt
    -- the loop stopped with an empty queue, so the new request would have been granted
    have hq : site.queue = [] := by
      by_contra hne; exact hlt (hs hne)
    exact hfree ⟨hq, by omega⟩

theorem full_remove {site : SiteState} {w : Nat} (h : Full site) :
    Full { site with queue := site.queue.erase w } :=
  fun hne => h fun hn => hne (by simp [hn])

theorem conserving_release {s : State} (hi : Inv s) (h : Conserving s) (id : Int) (ho : HandOff) :
    Conserving (release s id ho) := by
  rcases release_eq hi id ho with ⟨_, he⟩ | ⟨site, hl, hc, he⟩ | ⟨site, w, queue, hl, hle, hq, he⟩
  · rw [he]; exact h
  · rw [he]
    refine conserving_set (o := SiteState.reclaim _) h rfl (Full.reclaim fun hne => ?_)
    have hf := h id
    rw [entry_of_lookup hl] at hf
    rcases hc with hc | hc
    · simp only at *; omega
    · exact absurd hc hne
  · rw [he]
    have hf := h id
    rw [entry_of_lookup hl] at hf
    have hfull : Full { site with queue := queue } := fun _ => hf (by simp [hq])
    cases ho <;> exact conserving_set (o := some { site with queue := queue }) h rfl hfull

theorem conserving_step {s s' : State} {e : Event} (hi : Inv s) (h : Conserving s)
    (hs : step s e = some s') : Conserving s' := by
  cases e with
  | asyncAcquire id siteName backend m n q =>
    cases hs
    rw [asyncAcquire_eq]
    have hc : Conserving (s.arrive id) := by
      intro id'; rw [arrive_entry]; exact h id'
    exact conserving_accept hc (promote_full (hi.arrive id) id (refresh_queue _ _ _ _ _)) rfl
  | destroyPermit i ho =>
    simp only [step] at hs
    split at hs <;> cases hs
    exact conserving_release (hi.erasePermit i) h _ ho
  | updateLimits id m n =>
    cases hs
    unfold updateLimits
    split
    · exact h
    · rename_i site hl
      exact conserving_set (o := some _) h rfl (promote_full hi id (by simp [entry_of_lookup hl]))
  | retainSites ids =>
    cases hs
    intro id hne
    obtain ⟨⟨hq, ha⟩, hr⟩ := retain_entry s ids id
    rw [hq] at hne
    rcases hr with hr | hr | hr
    · rw [hr]; exact h id hne
    · exact absurd hr hne
    · rw [hr, ha]; exact h id hne
  | cancel w =>
    simp only [step] at hs
    split at hs <;> cases hs
    unfold cancelPending
    split
    · exact h
    rename_i site hl
    split
    · split
      · exact h
      · have hf : Full site := entry_of_lookup hl ▸ h _
        exact conserving_set (o := SiteState.reclaim _) h rfl (full_remove hf).reclaim
    · exact h
  | timeout w =>
    simp only [step] at hs
    split at hs <;> cases hs
    unfold timeoutPending
    split
    · exact h
    rename_i site hl
    split
    · split
      · exact h
      · have hf : Full site := entry_of_lookup hl ▸ h _
        exact conserving_set (o := SiteState.reclaim _) h rfl
          (Full.reclaim fun hne => hf fun hn => hne (by simp [hn]))
    · exact h
  | clear => cases hs; intro id; simp [clear, State.entry]
  | run i ho =>
    simp only [step] at hs
    split at hs
    · rename_i t ht
      cases hs
      cases t with
      | release id slot =>
        exact conserving_release (hi.eraseTask i) h id ho
      | unwind w id epoch =>
        have hclaimed := hi.claimed _ (List.mem_of_getElem? ht) w rfl
        exact conserving_release ((hi.eraseTask i).refusing hclaimed id none) h id ho
      | _ => exact h
    · cases hs

/-! ## What one operation grants -/

/-- Every grant between `s` and `s'` is ahead of what is still queued, and leaves `active` within
the limit then in force. -/
def GrantsWithin (s s' : State) : Prop :=
  ∃ new, s'.trace = new ++ s.trace ∧
    ∀ id w waiting, Note.decided id w (.result .granted) waiting ∈ new →
      (∀ x ∈ (s'.entry id).queue, w < x) ∧
      ∃ site, s'.sites.lookup id = some site ∧ site.active ≤ site.maximumActive

theorem grantsWithin_of_none {s s' : State} {l : List Note} (ht : s'.trace = l ++ s.trace)
    (hn : ∀ id w waiting, Note.decided id w (.result .granted) waiting ∉ l) :
    GrantsWithin s s' := ⟨l, ht, fun id w waiting hm => absurd hm (hn id w waiting)⟩

theorem grantsWithin_refl (s : State) : GrantsWithin s s :=
  grantsWithin_of_none (l := []) rfl (by simp)

theorem create_trace (s : State) (id : Int) :
    ∃ new, (s.create id).trace = new ++ s.trace ∧
      ∀ id' w o waiting, Note.decided id' w o waiting ∉ new := by
  unfold State.create
  split
  · exact ⟨[], rfl, by simp⟩
  · exact ⟨[.created id], rfl, by simp⟩

theorem mem_granted {id id' : Int} {w : Nat} {waiting : List Nat} {ps : List (Nat × List Nat)} :
    Note.decided id' w (.result .granted) waiting ∈
      (ps.map fun p => Note.decided id p.1 (.result .granted) p.2).reverse ↔
      id' = id ∧ (w, waiting) ∈ ps := by
  simp only [List.mem_reverse, List.mem_map, Note.decided.injEq, true_and]
  constructor
  · rintro ⟨p, hp, rfl, rfl, rfl⟩; exact ⟨rfl, hp⟩
  · rintro ⟨rfl, hp⟩; exact ⟨_, hp, rfl, rfl, rfl⟩

/-- What the promotion loop grants was waiting in the site's queue. -/
theorem promote_grants {s : State} (hi : Inv s) (id : Int) {y : SiteState}
    (hq : y.queue = (s.entry id).queue) :
    ∃ new, (s.promoteSite id y).2.trace = new ++ s.trace ∧
      ∀ id' w waiting, Note.decided id' w (.result .granted) waiting ∈ new →
        w ∈ (s.entry id).queue ∧
        (∀ x ∈ ((s.promoteSite id y).2.entry id').queue, w < x) ∧
        ∃ y', (s.promoteSite id y).2.sites.lookup id' = some y' ∧
          y'.active ≤ y'.maximumActive := by
  have hspec := promote_spec y.maximumActive (hq ▸ hi.sorted id) y.active s.pending
    (hq ▸ hi.queued id)
  refine ⟨_, rfl, fun id' w waiting hm => ?_⟩
  obtain ⟨rfl, hp⟩ := mem_granted.mp hm
  have hne : (promote y.maximumActive y.queue y.active s.pending).promoted ≠ [] :=
    List.ne_nil_of_mem hp
  refine ⟨?_, fun x hx => ?_, _, by simp [State.promoteSite, State.grantAll]; rfl, ?_⟩
  · rw [← hq, ← hspec.split]
    exact List.mem_append_left _ (List.mem_map_of_mem (f := Prod.fst) hp)
  · simp only [State.promoteSite, State.grantAll, State.entry, Table.lookup_set_self,
      Option.getD_some] at hx
    exact hspec.fifo _ hp x (hspec.behind _ hp x hx)
  · exact hspec.within.resolve_left hne

/-- The new request is younger than everything that is granted before it. -/
theorem accept_grantsWithin {s t : State} {id : Int} {site : SiteState} {w : Nat} {l : List Note}
    (htr : t.trace = l ++ s.trace)
    (hl : ∀ id w waiting, Note.decided id w (.result .granted) waiting ∈ l →
      (∀ x ∈ (t.entry id).queue, w < x) ∧
      ∃ site, t.sites.lookup id = some site ∧ site.active ≤ site.maximumActive)
    (ht : t.sites.lookup id = some site)
    (hold : ∀ id x waiting, Note.decided id x (.result .granted) waiting ∈ l → x < w) :
    GrantsWithin s (t.accept id site w) := by
  unfold State.accept
  split
  · rename_i hfree
    refine ⟨.decided id w (.result .granted) site.queue :: l, by simp [State.grantAll, htr], ?_⟩
    intro id' x waiting hm
    simp only [State.grantAll, State.entry, Table.lookup_set]
    rcases List.mem_cons.mp hm with hm | hm
    · cases hm
      simp [hfree.1]; omega
    · obtain ⟨h1, site', hx, h2⟩ := hl id' x waiting hm
      split
      · simp [hfree.1]; omega
      · exact ⟨h1, site', hx, h2⟩
  split
  · refine ⟨.decided id w (.result .queueFull) site.queue :: l, by simp [htr], ?_⟩
    intro id' x waiting hm
    simp only [State.entry, Table.lookup_set]
    obtain ⟨h1, site', hx, h2⟩ := hl id' x waiting (by simpa using hm)
    split
    · rename_i hid
      subst hid
      rw [ht] at hx; cases hx
      exact ⟨by simpa [State.entry, ht] using h1, _, rfl, h2⟩
    · exact ⟨h1, site', hx, h2⟩
  · refine ⟨l, by simp [htr], ?_⟩
    intro id' x waiting hm
    simp only [State.entry, Table.lookup_set]
    obtain ⟨h1, site', hx, h2⟩ := hl id' x waiting hm
    split
    · rename_i hid
      subst hid
      rw [ht] at hx; cases hx
      refine ⟨fun y hy => ?_, _, rfl, h2⟩
      simp only [Option.getD_some, List.mem_append, List.mem_singleton] at hy
      rcases hy with hy | rfl
      · exact h1 y (by simpa [State.entry, ht] using hy)
      · exact hold id' x waiting hm
    · exact ⟨h1, site', hx, h2⟩

theorem acquire_grantsWithin {s : State} (hi : Inv s) (id : Int) (siteName backend : String)
    (m n q : Nat) : GrantsWithin s (asyncAcquire s id siteName backend m n q) := by
  rw [asyncAcquire_eq]
  obtain ⟨new, htr, hnew⟩ := promote_grants (hi.arrive id) id
    (refresh_queue (s := s) siteName backend m n q)
  obtain ⟨made, hmade, hnone⟩ := create_trace s id
  have hin : ∀ id' w waiting, Note.decided id' w (.result .granted) waiting ∈ new ++ made →
      Note.decided id' w (.result .granted) waiting ∈ new := by
    intro id' w waiting hm
    exact (List.mem_append.mp hm).resolve_right (hnone id' w _ waiting)
  refine accept_grantsWithin (l := new ++ made) ?_ ?_ ?_ ?_
  · rw [htr, List.append_assoc]; exact congrArg (new ++ ·) hmade
  · intro id' w waiting hm; exact (hnew id' w waiting (hin _ _ _ hm)).2
  · simp [State.promoteSite, State.grantAll]
  · intro id' w waiting hm
    have hq := (hnew id' w waiting (hin _ _ _ hm)).1
    rw [arrive_entry] at hq
    exact hi.lt_next hq

theorem release_grantsWithin {s : State} (hi : Inv s) (id : Int) (ho : HandOff) :
    GrantsWithin s (release s id ho) := by
  rcases release_eq hi id ho with ⟨_, he⟩ | ⟨site, _, _, he⟩ | ⟨site, w, queue, hl, hle, hq, he⟩
  · rw [he]; exact grantsWithin_refl s
  · rw [he]; exact grantsWithin_of_none (l := []) rfl (by simp)
  · rw [he]
    have hs := hi.sorted id
    rw [entry_of_lookup hl, hq] at hs
    have hlt := (List.pairwise_cons.mp hs).1
    have hgrant : ∀ t : State, t.sites = s.sites.set id (some { site with queue := queue }) →
        t.trace = .decided id w (.result .granted) queue :: s.trace → GrantsWithin s t := by
      intro t ht htr
      refine ⟨[.decided id w (.result .granted) queue], by simpa using htr, ?_⟩
      intro id' x waiting hm
      simp only [List.mem_singleton, Note.decided.injEq] at hm
      obtain ⟨rfl, hx, -, hq'⟩ := hm
      subst hx hq'
      exact ⟨by simpa [State.entry, ht] using hlt, { site with queue := waiting }, by simp [ht], hle⟩
    cases ho with
    | posted => exact hgrant _ rfl (by simp [State.passOn, State.grantAll])
    | called => exact hgrant _ rfl rfl
    | noPermit | noControlBlock =>
      exact grantsWithin_of_none (l := [.decided id w (.result .queueFull) queue]) rfl (by simp)

theorem granted_within {s s' : State} {e : Event} (hi : Inv s) (hs : step s e = some s') :
    GrantsWithin s s' := by
  cases e with
  | asyncAcquire id siteName backend m n q =>
    cases hs; exact acquire_grantsWithin hi id siteName backend m n q
  | destroyPermit i ho =>
    simp only [step] at hs
    split at hs <;> cases hs
    exact release_grantsWithin (hi.erasePermit i) _ ho
  | updateLimits id m n =>
    cases hs
    unfold updateLimits
    split
    · exact grantsWithin_refl s
    · rename_i site hl
      obtain ⟨new, htr, hnew⟩ := promote_grants hi id (y := { site with
        retired := false, maximumActive := m, maximumQueue := n }) (by simp [entry_of_lookup hl])
      exact ⟨new, htr, fun id' w waiting hm => (hnew id' w waiting hm).2⟩
  | retainSites ids => cases hs; exact grantsWithin_of_none (l := []) rfl (by simp)
  | cancel w =>
    simp only [step] at hs
    split at hs <;> cases hs
    unfold cancelPending
    split
    · exact grantsWithin_refl s
    split
    · split
      · exact grantsWithin_refl s
      · exact grantsWithin_of_none (l := [_]) rfl (by simp)
    · exact grantsWithin_refl s
  | timeout w =>
    simp only [step] at hs
    split at hs <;> cases hs
    unfold timeoutPending
    split
    · exact grantsWithin_refl s
    split
    · split
      · exact grantsWithin_refl s
      · exact grantsWithin_of_none (l := [_]) rfl (by simp)
    · exact grantsWithin_refl s
  | clear => cases hs; exact grantsWithin_of_none rfl (by simp)
  | run i ho =>
    simp only [step] at hs
    split at hs
    · rename_i t ht
      cases hs
      have hinvoke : ∀ (t : State) (w : Nat) (r : BackendAcquireResult), t.trace = s.trace →
          ∃ new, (invoke t w r).trace = new ++ s.trace ∧
            ∀ id w waiting, Note.decided id w (.result .granted) waiting ∉ new := by
        intro t w r htr
        simp only [invoke, htr]
        split
        · exact ⟨[.called w r], rfl, by simp⟩
        · exact ⟨[], rfl, by simp⟩
      cases t with
      | post w r => exact grantsWithin_of_none (l := []) rfl (by simp)
      | invoke w r => obtain ⟨new, htr, hn⟩ := hinvoke _ w r rfl; exact grantsWithin_of_none htr hn
      | drop w => exact grantsWithin_of_none (l := []) rfl (by simp)
      | refuse w id slot =>
        obtain ⟨new, htr, hn⟩ := hinvoke _ w .queueFull rfl
        exact grantsWithin_of_none htr hn
      | release id slot =>
        exact release_grantsWithin (hi.eraseTask i) id ho
      | unwind w id epoch =>
        have hclaimed := hi.claimed _ (List.mem_of_getElem? ht) w rfl
        exact release_grantsWithin ((hi.eraseTask i).refusing hclaimed id none) id ho
    · cases hs

/-! ## Over every run -/

theorem inv_run {es : List Event} {s : State} (h : run step State.init es = some s) : Inv s :=
  run_inv (fun _ _ _ hi hs => inv_step hi hs) inv_init h

theorem conserving_run {es : List Event} {s : State} (h : run step State.init es = some s) :
    Conserving s :=
  (run_inv (P := fun s => Inv s ∧ Conserving s)
    (fun _ _ _ hi hs => ⟨inv_step hi.1 hs, conserving_step hi.1 hi.2 hs⟩)
    ⟨inv_init, conserving_init⟩ h).2

/-- In every reachable state a site with a queue has no free slot and its queue is increasing in
`waiter_id`. No request was ever granted while an older one of its site was queued, and what the
next operation grants is older than everything it leaves in the queue. -/
theorem fifo_and_work_conserving {es : List Event} {s : State}
    (h : run step State.init es = some s) :
    (∀ id site, s.sites.lookup id = some site →
      (site.queue ≠ [] → site.maximumActive ≤ site.active) ∧ site.queue.Pairwise (· < ·)) ∧
    (∀ id w waiting, Note.decided id w (.result .granted) waiting ∈ s.trace →
      ∀ x ∈ waiting, w < x) ∧
    (∀ e s', step s e = some s' → ∃ new, s'.trace = new ++ s.trace ∧
      ∀ id w waiting, Note.decided id w (.result .granted) waiting ∈ new →
        ∀ site, s'.sites.lookup id = some site → ∀ x ∈ site.queue, w < x) := by
  have hi := inv_run h
  refine ⟨fun id site hl => ?_, hi.fifo, fun e s' hs => ?_⟩
  · rw [← entry_of_lookup hl]; exact ⟨conserving_run h id, hi.sorted id⟩
  · obtain ⟨new, htr, hnew⟩ := granted_within hi hs
    refine ⟨new, htr, fun id w waiting hm site hl => ?_⟩
    rw [← entry_of_lookup hl]; exact (hnew id w waiting hm).1

/-- The queue `[2, 3, 4]` behind a limit of 1 loses its middle, then its head is promoted. -/
def cancelledRun : List Event :=
  [.asyncAcquire 7 "shop" "10.0.0.1:80" 1 5 30, .asyncAcquire 7 "shop" "10.0.0.1:80" 1 5 30,
    .asyncAcquire 7 "shop" "10.0.0.1:80" 1 5 30, .asyncAcquire 7 "shop" "10.0.0.1:80" 1 5 30,
    .cancel 3, .destroyPermit 0 .posted]

theorem fifo_and_work_conserving_cancelledRun :
    ∃ s, run step State.init cancelledRun = some s ∧
      (s.sites.lookup 7).map (·.queue) = some [4] ∧
      ∀ site, s.sites.lookup 7 = some site → site.maximumActive ≤ site.active := by
  obtain ⟨s, hs⟩ := Option.isSome_iff_exists.mp
    (show (run step State.init cancelledRun).isSome = true by decide)
  have hq : (run step State.init cancelledRun).map (fun s => (s.sites.lookup 7).map (·.queue)) =
      some (some [4]) := by decide
  rw [hs, Option.map_some, Option.some.injEq] at hq
  refine ⟨s, hs, hq, fun site hl => ((fifo_and_work_conserving hs).1 7 site hl).1 ?_⟩
  rw [hl, Option.map_some, Option.some.injEq] at hq
  simp [hq]

end Limiter
end WebServer
