import WebServer.Limiter.Fifo

/-!
# WebServer.Limiter.Slots

Where the slots of a site are, over any run.

`held P s` counts the slots taken by live permits, and by hand-offs whose permit could not be
allocated and whose slot is about to be released again. When it is the `shared_ptr` of the permit
that could not be allocated, that slot is released a second time: such a release has no slot
(`State.released?`). `Effect` says once what a step does to the entries and to the slots; the
accounting results are read off it:

* `active_le_held`: `active` never exceeds the slots held.
* `slot_accounting`: without `clear` and with every permit allocated, `active` is the number of
  live permits of the site.
-/

namespace WebServer
namespace Limiter

open Run

/-- The site and the epoch of the slot a task still holds. -/
def Task.slot? : Task → Option (Int × Nat)
  | .refuse _ id slot => slot.map fun epoch => (id, epoch)
  | .release id slot => slot.map fun epoch => (id, epoch)
  | .unwind _ id epoch => some (id, epoch)
  | _ => none

/-- The site a task calls `release` for, and the slot that is returned by it, if there is one. -/
def Task.releases? : Task → Option (Int × Option Nat)
  | .release id slot => some (id, slot)
  | .unwind _ id epoch => some (id, some epoch)
  | _ => none

/-- Whether a task belongs to a hand-off whose permit could not be allocated. -/
def Task.isRecovery : Task → Bool
  | .refuse _ _ _ | .release _ _ | .unwind _ _ _ => true
  | _ => false

/-- The slots of the sites and epochs in `P` that are taken. -/
def held (P : Int → Nat → Bool) (s : State) : Nat :=
  s.permits.countP (fun p => P p.siteId p.epoch) +
    s.tasks.countP (fun t => t.slot?.any fun x => P x.1 x.2)

/-- The live permits of a site. -/
def livePermits (id : Int) (s : State) : Nat := s.permits.countP fun p => p.siteId = id

/-- A slot of site `id`, by its epoch, as counted by `held P`. -/
def unit (P : Int → Nat → Bool) (id : Int) (slot : Option Nat) : Nat :=
  if slot.any (P id) then 1 else 0

/-- The site an event calls `release` for, and the epoch of the slot it returns, if there is one. -/
def State.released? (s : State) : Event → Option (Int × Option Nat)
  | .destroyPermit i _ => (s.permits[i]?).map fun p => (p.siteId, some p.epoch)
  | .run i _ => (s.tasks[i]?).bind Task.releases?
  | _ => none

/-- The site an event asks a slot for. -/
def Event.acquire? : Event → Option Int
  | .asyncAcquire id _ _ _ _ _ => some id
  | _ => none

/-- The site whose limit an event sets, and the limit. -/
def Event.limit? : Event → Option (Int × Nat)
  | .asyncAcquire id _ _ m _ _ => some (id, m)
  | .updateLimits id m _ => some (id, m)
  | _ => none

/-- What a step does to the entries and to the slots. -/
inductive Effect (s : State) (e : Event) (s' : State) : Prop where
  /-- nothing -/
  | idle (hsites : s'.sites = s.sites) (hepoch : s'.epoch = s.epoch)
      (hheld : ∀ P, held P s' = held P s) (he : e.acquire? = none)
  /-- new limits, and `g` grants -/
  | raised (id : Int) (site : SiteState) (g : Nat)
      (hsites : ∀ id', s'.sites.lookup id' = if id' = id then some site else s.sites.lookup id')
      (hepoch : s'.epoch = s.epoch)
      (hret : site.retired = false) (hactive : site.active = (s.entry id).active + g)
      (hle : g = 0 ∨ site.active ≤ site.maximumActive)
      (hheld : ∀ P, held P s' = held P s + g * unit P id (some s.epoch))
      (he : e.limit? = some (id, site.maximumActive))
      (hacq : e.acquire? = none → (s.sites.lookup id).isSome = true)
  /-- a slot of a site without an entry is forgotten -/
  | ignored (id : Int) (slot : Option Nat) (hl : s.sites.lookup id = none)
      (hsites : s'.sites = s.sites) (hepoch : s'.epoch = s.epoch)
      (hheld : ∀ P, held P s' + unit P id slot = held P s)
      (he : s.released? e = some (id, slot))
  /-- a slot is returned -/
  | returned (id : Int) (slot : Option Nat) (site : SiteState) (hl : s.sites.lookup id = some site)
      (hq : site.maximumActive < site.active ∨ site.queue = [])
      (hsites : s'.sites = s.sites.set id ({ site with active := site.active - 1 }).reclaim)
      (hepoch : s'.epoch = s.epoch) (hheld : ∀ P, held P s' + unit P id slot = held P s)
      (he : s.released? e = some (id, slot))
  /-- a slot is passed to the first waiter -/
  | passed (id : Int) (slot : Option Nat) (site : SiteState) (w : Nat) (queue : List Nat)
      (hl : s.sites.lookup id = some site) (hle : site.active ≤ site.maximumActive)
      (hq : site.queue = w :: queue)
      (hsites : s'.sites = s.sites.set id (some { site with queue := queue }))
      (hepoch : s'.epoch = s.epoch)
      (hheld : ∀ P, held P s' + unit P id slot = held P s + unit P id (some s.epoch))
      (he : s.released? e = some (id, slot))
  /-- a waiter leaves the queue without a slot -/
  | removed (id : Int) (site site' : SiteState) (hl : s.sites.lookup id = some site)
      (hsites : s'.sites = s.sites.set id site'.reclaim) (hepoch : s'.epoch = s.epoch)
      (hactive : site'.active = site.active) (hret : site'.retired = site.retired)
      (hmax : site'.maximumActive = site.maximumActive)
      (hheld : ∀ P, held P s' = held P s) (he : e.acquire? = none)
  | retained (ids : List Int) (hsites : s'.sites = (retainSites s ids).sites)
      (hepoch : s'.epoch = s.epoch) (hheld : ∀ P, held P s' = held P s)
      (he : e = .retainSites ids)
  | cleared (hsites : s'.sites = ∅) (hepoch : s'.epoch = s.epoch + 1)
      (hheld : ∀ P, held P s' = held P s) (he : e = .clear)

/-! ## Counting -/

section Count

variable (P : Int → Nat → Bool)

theorem held_congr {s s' : State} (hp : s'.permits = s.permits) (ht : s'.tasks = s.tasks) :
    held P s' = held P s := by rw [held, held, hp, ht]

theorem held_task (s : State) {t : Task} (ht : t.slot? = none) {s' : State}
    (hp : s'.permits = s.permits) (hs : s'.tasks = s.tasks ++ [t]) : held P s' = held P s := by
  simp [held, hp, hs, ht]

theorem held_grantAll (s : State) (id : Int) (ps : List (Nat × List Nat)) :
    held P (s.grantAll id ps) = held P s + ps.length * unit P id (some s.epoch) := by
  have hp : (ps.map fun _ => (⟨id, s.epoch⟩ : Permit)).countP (fun p => P p.siteId p.epoch) =
      ps.length * unit P id (some s.epoch) := by
    simp only [List.countP_map, Function.comp_def, unit, Option.any_some]
    by_cases h : P id s.epoch = true <;> simp [h]
  have ht : (ps.map fun p => Task.post p.1 .granted).countP
      (fun t => t.slot?.any fun x => P x.1 x.2) = 0 := by
    simp [List.countP_eq_zero, Task.slot?]
  simp only [held, State.grantAll, List.countP_append, hp, ht]
  omega

theorem held_passOn (s : State) (id : Int) (w : Nat) (queue : List Nat) (h : HandOff) :
    held P (s.passOn id w queue h) = held P s + unit P id (some s.epoch) := by
  cases h with
  | posted => simp only [State.passOn, held_grantAll, List.length_singleton, Nat.one_mul]
  | called =>
    simp only [State.passOn, held, List.countP_append, List.countP_singleton, Task.slot?, unit]
    simp only [Option.any_none, Option.any_some, Bool.false_eq_true, if_false]
    omega
  | noPermit =>
    simp only [State.passOn, held, List.countP_append, List.countP_singleton, Task.slot?, unit,
      Option.map_some, Option.any_some]
    omega
  | noControlBlock =>
    simp only [State.passOn, held, List.countP_append, List.countP_singleton, Task.slot?, unit,
      Option.any_some]
    omega

theorem countP_eraseIdx {α : Type*} (f : α → Bool) {l : List α} {i : Nat} {a : α}
    (h : l[i]? = some a) : (l.eraseIdx i).countP f + (if f a then 1 else 0) = l.countP f := by
  induction l generalizing i with
  | nil => simp at h
  | cons b l ih =>
    cases i with
    | zero =>
      simp only [List.getElem?_cons_zero, Option.some.injEq] at h
      subst h
      simp [List.countP_cons]
    | succ i =>
      have := ih (by simpa using h)
      simp only [List.eraseIdx_cons_succ, List.countP_cons]
      omega

theorem held_erasePermit {s : State} {i : Nat} {p : Permit} (h : s.permits[i]? = some p) :
    held P { s with permits := s.permits.eraseIdx i } + unit P p.siteId (some p.epoch) =
      held P s := by
  have := countP_eraseIdx (fun p : Permit => P p.siteId p.epoch) h
  simp only [held, unit, Option.any_some] at this ⊢
  omega

/-- A task that holds no slot. -/
theorem held_eraseTask {s : State} {i : Nat} {t : Task} (h : s.tasks[i]? = some t)
    (ht : t.slot? = none) : held P { s with tasks := s.tasks.eraseIdx i } = held P s := by
  have := countP_eraseIdx (fun t : Task => t.slot?.any fun x => P x.1 x.2) h
  simp only [ht, Option.any_none, Bool.false_eq_true, if_false] at this
  simp only [held] at this ⊢
  omega

theorem held_eraseSlot {s : State} {i : Nat} {t : Task} (h : s.tasks[i]? = some t) {id : Int}
    {slot : Option Nat} (ht : t.slot? = slot.map fun epoch => (id, epoch)) :
    held P { s with tasks := s.tasks.eraseIdx i } + unit P id slot = held P s := by
  have := countP_eraseIdx (fun t : Task => t.slot?.any fun x => P x.1 x.2) h
  have hany : (t.slot?.any fun x => P x.1 x.2) = slot.any (P id) := by
    rw [ht]; cases slot <;> rfl
  rw [hany] at this
  simp only [held, unit] at this ⊢
  omega

theorem held_clear (s : State) : held P (clear s) = held P s := by
  have ht : ((claimAll s.queuedWaiters s.pending).1.map fun x => Task.drop x.2).countP
      (fun t => t.slot?.any fun x => P x.1 x.2) = 0 := by
    simp [List.countP_eq_zero, Task.slot?]
  simp only [clear, held, List.countP_append, ht]
  omega

variable {P} in
theorem held_mono {Q : Int → Nat → Bool} (h : ∀ id epoch, P id epoch = true → Q id epoch = true)
    (s : State) : held P s ≤ held Q s := by
  refine Nat.add_le_add (List.countP_mono_left fun p _ hp => h _ _ hp)
    (List.countP_mono_left fun t _ ht => ?_)
  cases hs : t.slot? with
  | none => rw [hs] at ht; cases ht
  | some x =>
    rw [hs] at ht
    exact h _ _ (by simpa using ht)

end Count

/-! ## Every step has an effect -/

section Effects

variable {s : State} {id : Int}

/-- What the promotion loop does to the entry and to the slots. -/
theorem promote_effect (hi : Inv s) (id : Int) {x : SiteState}
    (hq : x.queue = (s.entry id).queue) :
    ∃ g, (s.promoteSite id x).1.active = x.active + g ∧
      (g = 0 ∨ (s.promoteSite id x).1.active ≤ x.maximumActive) ∧
      ∀ P, held P (s.promoteSite id x).2 = held P s + g * unit P id (some s.epoch) := by
  have hspec := promote_spec x.maximumActive (hq ▸ hi.sorted id) x.active s.pending
    (hq ▸ hi.queued id)
  refine ⟨_, hspec.active, ?_, fun P => ?_⟩
  · rcases hspec.within with h | h
    · exact .inl (by simp [h])
    · exact .inr h
  · exact held_grantAll P _ id _

theorem accept_effect (t : State) (id : Int) (site : SiteState) (w : Nat) :
    ∃ (site' : SiteState) (g : Nat), (t.accept id site w).sites = t.sites.set id (some site') ∧
      (t.accept id site w).epoch = t.epoch ∧ site'.retired = site.retired ∧
      site'.maximumActive = site.maximumActive ∧ site'.active = site.active + g ∧
      (g = 0 ∨ site'.active ≤ site.maximumActive) ∧
      ∀ P, held P (t.accept id site w) = held P t + g * unit P id (some t.epoch) := by
  unfold State.accept
  split
  · rename_i hfree
    refine ⟨{ site with active := site.active + 1 }, 1, rfl, rfl, rfl, rfl, rfl, .inr hfree.2,
      fun P => ?_⟩
    exact held_grantAll P _ id _
  split
  · refine ⟨{ site with rejected := site.rejected + 1 }, 0, rfl, rfl, rfl, rfl, rfl, .inl rfl,
      fun P => ?_⟩
    rw [Nat.zero_mul, Nat.add_zero]
    exact held_task P t (t := .post w .queueFull) rfl rfl rfl
  · refine ⟨{ site with queue := site.queue ++ [w] }, 0, rfl, rfl, rfl, rfl, rfl, .inl rfl,
      fun P => ?_⟩
    rw [Nat.zero_mul, Nat.add_zero]
    exact held_congr P rfl rfl

theorem arrive_epoch : (s.arrive id).epoch = s.epoch := by
  simp only [State.arrive, State.create]; split <;> rfl

theorem held_arrive (P : Int → Nat → Bool) : held P (s.arrive id) = held P s := by
  refine held_congr P ?_ ?_ <;> simp only [State.arrive, State.create] <;> split <;> rfl

theorem lookup_arrive {id' : Int} (h : id' ≠ id) :
    (s.arrive id).sites.lookup id' = s.sites.lookup id' := by
  simp only [State.arrive, State.create]
  split
  · rfl
  · exact Table.lookup_set_ne h _ _

theorem acquire_effect (hi : Inv s) (id : Int) (siteName backend : String) (m n q : Nat) :
    Effect s (.asyncAcquire id siteName backend m n q) (asyncAcquire s id siteName backend m n q) := by
  rw [asyncAcquire_eq]
  obtain ⟨g, hg, hgle, hgheld⟩ := promote_effect (hi.arrive id) id
    (refresh_queue (s := s) siteName backend m n q)
  generalize hr : (s.arrive id).promoteSite id (refresh (s.sites.lookup id) siteName backend m n q)
    = r at hg hgle hgheld
  obtain ⟨site', g', hsites, hepoch, hret, hmax, hact, hle, hheld⟩ :=
    accept_effect r.2 id r.1 s.nextWaiterId
  have hre : r.2.epoch = s.epoch := by rw [← hr]; exact arrive_epoch
  have hrm : r.1.maximumActive = m := by rw [← hr]; rfl
  have hrr : r.1.retired = false := by rw [← hr]; rfl
  have hrs : r.2.sites = (s.arrive id).sites.set id (some r.1) := by rw [← hr]; rfl
  refine .raised id site' (g + g') (fun id' => ?_) (hepoch.trans hre) (hret.trans hrr) ?_ ?_
    (fun P => ?_) (by simp only [Event.limit?, hmax, hrm]) (fun h => by cases h)
  · rw [hsites, Table.lookup_set]
    split
    · rfl
    · rename_i hid; rw [hrs, Table.lookup_set_ne hid, lookup_arrive hid]
  · rw [hact, hg]
    simp only [refresh, State.entry]
    omega
  · rw [hmax, hrm]
    rw [hrm] at hle
    have hgle : g = 0 ∨ r.1.active ≤ m := hgle
    omega
  · rw [hheld, hgheld, hre, arrive_epoch, held_arrive, Nat.add_mul]
    omega

theorem updateLimits_effect (hi : Inv s) (id : Int) (m n : Nat) :
    Effect s (.updateLimits id m n) (updateLimits s id m n) := by
  unfold updateLimits
  split
  · exact .idle rfl rfl (fun _ => rfl) rfl
  · rename_i site hl
    obtain ⟨g, hg, hgle, hgheld⟩ := promote_effect hi id (x := { site with
        retired := false, maximumActive := m, maximumQueue := n }) (by simp [entry_of_lookup hl])
    refine .raised id _ g (fun id' => Table.lookup_set _ _ _ _) rfl rfl ?_ hgle hgheld rfl
      (fun _ => by simp [hl])
    rw [entry_of_lookup hl]; exact hg

/-- A call of `release` for `id`, in the state `s₁` that no longer holds the slot. -/
theorem release_effect {s₁ : State} (hi : Inv s₁) {e : Event} {slot : Option Nat}
    (he : s.released? e = some (id, slot)) (hsites : s₁.sites = s.sites)
    (hepoch : s₁.epoch = s.epoch) (hheld : ∀ P, held P s₁ + unit P id slot = held P s)
    (ho : HandOff) : Effect s e (release s₁ id ho) := by
  rcases release_eq hi id ho with ⟨hl, hr⟩ | ⟨site, hl, hc, hr⟩ | ⟨site, w, queue, hl, hle, hq, hr⟩
  · rw [hr]; exact .ignored id slot (hsites ▸ hl) hsites hepoch hheld he
  · rw [hr]
    exact .returned id slot site (hsites ▸ hl) hc (by simp only [hsites]) hepoch hheld he
  · rw [hr]
    refine .passed id slot site w queue (hsites ▸ hl) hle hq ?_ ?_ (fun P => ?_) he
    · rw [← hsites]; cases ho <;> rfl
    · rw [← hepoch]; cases ho <;> rfl
    · rw [held_passOn, ← hepoch, ← hheld P]
      simp only [held]
      omega

/-- A step that releases a slot is a call of `release` in the state without it. -/
theorem released_step {e : Event} {slot : Option Nat} (hi : Inv s)
    (he : s.released? e = some (id, slot)) :
    ∃ s₁ ho, step s e = some (release s₁ id ho) ∧ Inv s₁ ∧ s₁.sites = s.sites ∧
      s₁.epoch = s.epoch ∧ ∀ P, held P s₁ + unit P id slot = held P s := by
  cases e with
  | destroyPermit i ho =>
    simp only [State.released?, Option.map_eq_some_iff, Prod.mk.injEq] at he
    obtain ⟨p, hp, rfl, rfl⟩ := he
    refine ⟨{ s with permits := s.permits.eraseIdx i }, ho, by simp only [step, hp], ?_, rfl, rfl,
      fun P => held_erasePermit P hp⟩
    exact hi.erasePermit i
  | run i ho =>
    simp only [State.released?, Option.bind_eq_some_iff] at he
    obtain ⟨t, ht, he⟩ := he
    cases t with
    | release id' slot' =>
      cases he
      exact ⟨{ s with tasks := s.tasks.eraseIdx i }, ho, by simp only [step, ht, perform],
        hi.eraseTask i, rfl, rfl, fun P => held_eraseSlot P ht rfl⟩
    | unwind w id' epoch =>
      cases he
      have hclaimed := hi.claimed _ (List.mem_of_getElem? ht) w rfl
      refine ⟨{ s with tasks := s.tasks.eraseIdx i ++ [.refuse w id none] }, ho,
        by simp only [step, ht, perform], (hi.eraseTask i).refusing hclaimed id none, rfl, rfl,
        fun P => ?_⟩
      have htask : held P { s with tasks := s.tasks.eraseIdx i ++ [.refuse w id none] } =
          held P { s with tasks := s.tasks.eraseIdx i } :=
        held_task P _ (t := .refuse w id none) rfl rfl rfl
      rw [htask]
      exact held_eraseSlot P ht rfl
    | _ => cases he
  | _ => cases he

/-- Running a task other than a release moves no slot. -/
theorem run_effect {i : Nat} {ho : HandOff} {t : Task} (ht : s.tasks[i]? = some t)
    (hr : s.released? (.run i ho) = none) :
    Effect s (.run i ho) (perform { s with tasks := s.tasks.eraseIdx i } ho t) := by
  cases t with
  | post w r =>
    refine .idle rfl rfl (fun P => ?_) rfl
    rw [← held_eraseTask P ht rfl]
    exact held_task P _ (t := .invoke w r) rfl rfl rfl
  | invoke w r => exact .idle rfl rfl (fun P => held_eraseTask P ht rfl) rfl
  | drop w => exact .idle rfl rfl (fun P => held_eraseTask P ht rfl) rfl
  | refuse w id slot =>
    refine .idle rfl rfl (fun P => ?_) rfl
    rw [← held_eraseSlot P ht (show _ = slot.map _ from rfl)]
    cases slot <;>
      simp only [perform, invoke, held, List.countP_append, List.countP_singleton, Task.slot?,
        Option.map_none, Option.map_some, Option.any_none, Option.any_some, unit] <;> omega
  | release id slot => simp [State.released?, ht, Task.releases?] at hr
  | unwind w id epoch => simp [State.released?, ht, Task.releases?] at hr

theorem effect_step {s s' : State} {e : Event} (hi : Inv s) (hs : step s e = some s') :
    Effect s e s' := by
  cases hrel : s.released? e with
  | some x =>
    obtain ⟨s₁, ho, hst, hi₁, hsites, hepoch, hheld⟩ := released_step hi hrel
    rw [hst] at hs
    cases hs
    exact release_effect hi₁ hrel hsites hepoch hheld ho
  | none =>
    cases e with
    | asyncAcquire id siteName backend m n q => cases hs; exact acquire_effect hi id _ _ m n q
    | destroyPermit i ho =>
      simp only [step] at hs
      split at hs
      · rename_i p hp; simp [State.released?, hp] at hrel
      · cases hs
    | updateLimits id m n => cases hs; exact updateLimits_effect hi id m n
    | retainSites ids => cases hs; exact .retained ids rfl rfl (fun _ => rfl) rfl
    | cancel w =>
      simp only [step] at hs
      split at hs <;> cases hs
      unfold cancelPending
      split
      · exact .idle rfl rfl (fun _ => rfl) rfl
      rename_i site hl
      split
      · split
        · exact .idle rfl rfl (fun _ => rfl) rfl
        · refine .removed _ site _ hl rfl rfl rfl rfl rfl (fun P => ?_) rfl
          exact held_task P s (t := .drop w) rfl rfl rfl
      · exact .idle rfl rfl (fun _ => rfl) rfl
    | timeout w =>
      simp only [step] at hs
      split at hs <;> cases hs
      unfold timeoutPending
      split
      · exact .idle rfl rfl (fun _ => rfl) rfl
      rename_i site hl
      split
      · split
        · exact .idle rfl rfl (fun _ => rfl) rfl
        · refine .removed _ site _ hl rfl rfl rfl rfl rfl (fun P => ?_) rfl
          exact held_task P s (t := .post w .queueTimeout) rfl rfl rfl
      · exact .idle rfl rfl (fun _ => rfl) rfl
    | clear =>
      cases hs
      exact .cleared rfl rfl (fun P => held_clear P s) rfl
    | run i ho =>
      simp only [step] at hs
      split at hs
      · rename_i t ht; cases hs; exact run_effect ht hrel
      · cases hs

end Effects

/-! ## The entries after a step -/

theorem entry_set {s s' : State} {id : Int} {o : Option SiteState}
    (h : s'.sites = s.sites.set id o) (id' : Int) :
    s'.entry id' = if id' = id then o.getD {} else s.entry id' := by
  simp only [State.entry, h, getD_lookup_set]

theorem lookup_of_set {s s' : State} {id : Int} {o : Option SiteState}
    (h : s'.sites = s.sites.set id o) (id' : Int) :
    s'.sites.lookup id' = if id' = id then o else s.sites.lookup id' := by
  rw [h, Table.lookup_set]

theorem entry_raised {s s' : State} {id : Int} {site : SiteState}
    (h : ∀ id', s'.sites.lookup id' = if id' = id then some site else s.sites.lookup id')
    (id' : Int) : s'.entry id' = if id' = id then site else s.entry id' := by
  simp only [State.entry, h id']
  split <;> rfl

theorem retain_active {s s' : State} {ids : List Int} (h : s'.sites = (retainSites s ids).sites)
    (id : Int) : (s'.entry id).active = (s.entry id).active := by
  simp only [State.entry, h]
  exact (retain_entry s ids id).1.2

/-! ## `active` and the slots of the current epoch -/

/-- The slots of a site taken since the last `clear`. -/
def current (s : State) (id : Int) : Nat :=
  held (fun id' epoch => id' = id ∧ epoch = s.epoch) s

/-- No slot is from an epoch to come. -/
def PastOnly (s : State) : Prop := held (fun _ epoch => s.epoch < epoch) s = 0

/-- `active` is the number of the site's slots taken since the last `clear`. -/
def Balanced (s : State) : Prop := ∀ id, (s.entry id).active = current s id

/-- A slot from before the last `clear`, or one that was returned already, is released only for a
site without an entry, or with an idle one. -/
def StaleIdle (s : State) (e : Event) : Prop :=
  ∀ id slot, s.released? e = some (id, slot) → slot ≠ some s.epoch →
    (s.entry id).active = 0 ∧ (s.entry id).queue = []

theorem pastOnly_init : PastOnly State.init := rfl

theorem balanced_init : Balanced State.init := fun _ => rfl

theorem pastOnly_step {s s' : State} {e : Event} (hi : Inv s) (h : PastOnly s)
    (hs : step s e = some s') : PastOnly s' := by
  simp only [PastOnly] at h ⊢
  cases effect_step hi hs with
  | idle _ hepoch hheld => rw [hepoch, hheld, h]
  | raised id site g _ hepoch _ _ _ hheld => rw [hepoch, hheld, h]; simp [unit]
  | ignored id slot _ _ hepoch hheld =>
    have := hheld fun _ ep => s.epoch < ep
    rw [hepoch]; omega
  | returned id slot site _ _ _ hepoch hheld =>
    have := hheld fun _ ep => s.epoch < ep
    rw [hepoch]; omega
  | passed id slot site w queue _ _ _ _ hepoch hheld =>
    have := hheld fun _ ep => s.epoch < ep
    have hu : unit (fun _ ep => s.epoch < ep) id (some s.epoch) = 0 := by simp [unit]
    rw [hepoch]; omega
  | removed id site site' _ _ hepoch _ _ _ hheld => rw [hepoch, hheld, h]
  | retained ids _ hepoch hheld => rw [hepoch, hheld, h]
  | cleared _ hepoch hheld =>
    have := held_mono (P := fun _ ep => s.epoch + 1 < ep) (Q := fun _ ep => s.epoch < ep)
      (by simp; omega) s
    rw [hepoch, hheld]; omega

theorem balanced_clear {s : State} (hp : PastOnly s) : Balanced (clear s) := by
  intro id
  have hle := held_mono (P := fun i ep => i = id ∧ ep = s.epoch + 1)
    (Q := fun _ ep => s.epoch < ep) (by simp) s
  have hz : current (clear s) id = 0 := by
    have hepoch : (clear s).epoch = s.epoch + 1 := rfl
    rw [current, held_clear, hepoch]
    simp only [PastOnly] at hp
    omega
  rw [hz]; rfl

/-- One slot of `id'`, as `current` of site `id` counts it. -/
theorem unit_current (s : State) (id id' : Int) (slot : Option Nat) :
    unit (fun i ep => i = id ∧ ep = s.epoch) id' slot =
      if id' = id ∧ slot = some s.epoch then 1 else 0 := by cases slot <;> simp [unit]

theorem balanced_step {s s' : State} {e : Event} (hi : Inv s) (hp : PastOnly s) (h : Balanced s)
    (hc : StaleIdle s e) (hs : step s e = some s') : Balanced s' := by
  intro id'
  have hb := h id'
  simp only [current] at hb ⊢
  cases effect_step hi hs with
  | idle hsites hepoch hheld => rw [State.entry, hsites, hepoch, hheld]; exact hb
  | raised id site g hsites hepoch _ hactive _ hheld =>
    rw [entry_raised hsites, hepoch, hheld, unit_current]
    split
    · rename_i hid; subst hid; simp [hactive, hb]
    · rename_i hid; simp [Ne.symm hid, hb]
  | ignored id slot hl hsites hepoch hheld he =>
    have hu := hheld fun i ep => i = id' ∧ ep = s.epoch
    rw [unit_current] at hu
    rw [State.entry, hsites, hepoch]
    show (s.entry id').active = _
    split at hu
    · rename_i hid
      -- an absent site holds no slot of this epoch
      rw [← hid.1, State.entry, hl] at hb
      simp only [Option.getD_none] at hb
      rw [hid.1] at hb; omega
    · omega
  | returned id slot site hl hq hsites hepoch hheld he =>
    have hu := hheld fun i ep => i = id' ∧ ep = s.epoch
    rw [unit_current] at hu
    rw [entry_set hsites, hepoch]
    split
    · rename_i hid
      subst hid
      rw [entry_of_lookup hl] at hb
      rw [reclaim_active]
      simp only
      by_cases hep : slot = some s.epoch
      · simp only [hep, and_self, if_true] at hu; omega
      · have hidle := (hc id' slot he hep).1
        rw [entry_of_lookup hl] at hidle
        simp only [hep, and_false, if_false] at hu; omega
    · rename_i hid
      simp only [Ne.symm hid, false_and, if_false] at hu; omega
  | passed id slot site w queue hl hle hq hsites hepoch hheld he =>
    have hu := hheld fun i ep => i = id' ∧ ep = s.epoch
    rw [unit_current, unit_current] at hu
    have hcur : slot = some s.epoch := by
      by_contra hep
      have hidle := (hc id slot he hep).2
      rw [entry_of_lookup hl, hq] at hidle
      cases hidle
    rw [entry_set hsites, hepoch]
    simp only [hcur] at hu
    split
    · rename_i hid
      subst hid
      rw [entry_of_lookup hl] at hb
      simp only [Option.getD_some]; omega
    · omega
  | removed id site site' hl hsites hepoch hactive _ _ hheld =>
    rw [entry_set hsites, hepoch, hheld]
    split
    · rename_i hid
      subst hid
      rw [reclaim_active, hactive, ← hb, entry_of_lookup hl]
    · exact hb
  | retained ids hsites hepoch hheld => rw [retain_active hsites, hepoch, hheld]; exact hb
  | cleared hsites hepoch hheld he =>
    subst he
    cases hs
    exact balanced_clear hp id'

/-! ## Without `clear`, and with every permit allocated -/

/-- No hand-off is left without its permit. -/
def Settled (s : State) : Prop := ∀ t ∈ s.tasks, t.isRecovery = false

theorem slot?_of_settled {t : Task} (h : t.isRecovery = false) : t.slot? = none := by
  cases t <;> first | rfl | cases h

theorem releases?_of_settled {t : Task} (h : t.isRecovery = false) : t.releases? = none := by
  cases t <;> first | rfl | cases h

theorem Settled.append {s : State} (h : Settled s) {l : List Task}
    (hl : ∀ t ∈ l, t.isRecovery = false) {s' : State} (hs : s'.tasks = s.tasks ++ l) :
    Settled s' := by
  intro t ht
  rw [hs] at ht
  exact (List.mem_append.mp ht).elim (h t) (hl t)

theorem Settled.grantAll {s : State} (h : Settled s) (id : Int) (ps : List (Nat × List Nat)) :
    Settled (s.grantAll id ps) := by
  refine h.append (fun t ht => ?_) rfl
  obtain ⟨p, -, rfl⟩ := List.mem_map.mp ht
  rfl

theorem Settled.release {s : State} (h : Settled s) (id : Int) {ho : HandOff}
    (hh : ho.allocated = true) : Settled (release s id ho) := by
  unfold Limiter.release
  split
  · exact h
  split
  · exact h
  split
  · cases ho with
    | posted => exact Settled.grantAll h id _
    | called => exact Settled.append h (l := [.invoke _ .granted]) (by simp [Task.isRecovery]) rfl
    | noPermit => cases hh
    | noControlBlock => cases hh
  · exact h

theorem settled_step {s s' : State} {e : Event} (h : Settled s) (he : e.permitAllocated)
    (hs : step s e = some s') : Settled s' := by
  cases e with
  | asyncAcquire id siteName backend m n q =>
    cases hs
    rw [asyncAcquire_eq]
    have hp : Settled ((s.arrive id).promoteSite id
        (refresh (s.sites.lookup id) siteName backend m n q)).2 := by
      refine Settled.grantAll ?_ id _
      intro t ht
      refine h t ?_
      simp only [State.arrive, State.create] at ht
      split at ht <;> exact ht
    simp only [State.accept]
    split
    · exact Settled.grantAll hp id _
    split
    · exact Settled.append hp (l := [.post _ .queueFull]) (by simp [Task.isRecovery]) rfl
    · exact hp
  | destroyPermit i ho =>
    simp only [step] at hs
    split at hs <;> cases hs
    exact Settled.release (s := { s with permits := s.permits.eraseIdx i }) h _ he
  | updateLimits id m n =>
    cases hs
    unfold updateLimits
    split
    · exact h
    · exact Settled.grantAll h id _
  | retainSites ids => cases hs; exact h
  | cancel w =>
    simp only [step] at hs
    split at hs <;> cases hs
    unfold cancelPending
    split
    · exact h
    split
    · split
      · exact h
      · exact h.append (l := [.drop w]) (by simp [Task.isRecovery]) rfl
    · exact h
  | timeout w =>
    simp only [step] at hs
    split at hs <;> cases hs
    unfold timeoutPending
    split
    · exact h
    split
    · split
      · exact h
      · exact h.append (l := [.post w .queueTimeout]) (by simp [Task.isRecovery]) rfl
    · exact h
  | clear =>
    cases hs
    refine h.append (fun t ht => ?_) rfl
    obtain ⟨x, -, rfl⟩ := List.mem_map.mp ht
    rfl
  | run i ho =>
    simp only [step] at hs
    split at hs
    · rename_i t ht
      cases hs
      have hrec := h t (List.mem_of_getElem? ht)
      have h' : Settled { s with tasks := s.tasks.eraseIdx i } :=
        fun t' hm => h t' (List.mem_of_mem_eraseIdx hm)
      cases t with
      | post w r => exact h'.append (l := [.invoke w r]) (by simp [Task.isRecovery]) rfl
      | invoke w r => exact h'
      | drop w => exact h'
      | refuse w id slot => cases hrec
      | release id slot => cases hrec
      | unwind w id epoch => cases hrec
    · cases hs

/-- Before the first `clear` every slot is of the current epoch, and no release lacks one. -/
theorem staleIdle_of_epoch_zero {s : State} (hi : Inv s) (hp : PastOnly s) (hs : Settled s)
    (h0 : s.epoch = 0) (e : Event) : StaleIdle s e := by
  intro id slot he hne
  obtain ⟨s₁, ho, -, -, -, -, hheld⟩ := released_step hi he
  cases slot with
  | none =>
    cases e with
    | run i ho =>
      simp only [State.released?, Option.bind_eq_some_iff] at he
      obtain ⟨t, ht, he⟩ := he
      rw [releases?_of_settled (hs t (List.mem_of_getElem? ht))] at he
      cases he
    | destroyPermit i ho =>
      simp [State.released?] at he
    | _ => cases he
  | some epoch =>
    have hu := hheld fun _ ep => s.epoch < ep
    have hlt : s.epoch < epoch := by
      rw [h0] at hne ⊢
      exact Nat.pos_of_ne_zero fun hz => hne (by rw [hz])
    rw [hp, unit, Option.any_some, if_pos (decide_eq_true hlt)] at hu
    omega

theorem current_eq_livePermits {s : State} (h0 : s.epoch = 0) (hp : PastOnly s) (hs : Settled s)
    (id : Int) : current s id = livePermits id s := by
  have htasks : s.tasks.countP (fun t => t.slot?.any fun x =>
      (fun id' epoch => decide (id' = id ∧ epoch = s.epoch)) x.1 x.2) = 0 := by
    rw [List.countP_eq_zero]
    intro t ht
    simp [slot?_of_settled (hs t ht)]
  have hepoch : ∀ p ∈ s.permits, p.epoch = 0 := by
    intro p hm
    have hz : s.permits.countP (fun p => s.epoch < p.epoch) = 0 := by
      simp only [PastOnly, held] at hp; omega
    have := List.countP_eq_zero.mp hz p hm
    simp only [h0, decide_eq_true_eq] at this
    omega
  simp only [current, held, livePermits, htasks, Nat.add_zero]
  refine List.countP_congr fun p hm => ?_
  simp [hepoch p hm, h0]

structure Accounted (s : State) : Prop where
  inv : Inv s
  epoch : s.epoch = 0
  past : PastOnly s
  balanced : Balanced s
  settled : Settled s

theorem accounted_step {s s' : State} {e : Event} (h : Accounted s)
    (he : e ≠ .clear ∧ e.permitAllocated) (hs : step s e = some s') : Accounted s' where
  inv := inv_step h.inv hs
  epoch := by
    rw [← h.epoch]
    cases effect_step h.inv hs with
    | cleared _ _ _ hc => exact absurd hc he.1
    | _ => assumption
  past := pastOnly_step h.inv h.past hs
  balanced := balanced_step h.inv h.past h.balanced
    (staleIdle_of_epoch_zero h.inv h.past h.settled h.epoch e) hs
  settled := settled_step h.settled he.2 hs

theorem accounted_run {es : List Event} {s : State}
    (hes : ∀ e ∈ es, e ≠ .clear ∧ e.permitAllocated) (h : run step State.init es = some s) :
    Accounted s :=
  run_inv_along (G := fun _ e => e ≠ .clear ∧ e.permitAllocated)
    (fun _ _ _ ha he hs => accounted_step ha he hs)
    ⟨inv_init, rfl, pastOnly_init, balanced_init, fun t ht => by cases ht⟩ (along_of_forall hes) h

/-- Without `clear` and with every permit allocated, `active` is the number of the site's live
permits, a site without an entry has none, and a step that grants leaves `active` within the
limit then in force. -/
theorem slot_accounting {es : List Event} {s : State}
    (hes : ∀ e ∈ es, e ≠ .clear ∧ e.permitAllocated) (h : run step State.init es = some s) :
    (∀ id site, s.sites.lookup id = some site → site.active = livePermits id s) ∧
    (∀ id, s.sites.lookup id = none → livePermits id s = 0) ∧
    (∀ e s', e ≠ .clear ∧ e.permitAllocated → step s e = some s' →
      ∃ new, s'.trace = new ++ s.trace ∧
        ∀ id w waiting, Note.decided id w (.result .granted) waiting ∈ new →
          ∃ site, s'.sites.lookup id = some site ∧ site.active ≤ site.maximumActive) := by
  have ha := accounted_run hes h
  have hlive : ∀ id, (s.entry id).active = livePermits id s := fun id => by
    rw [ha.balanced id, current_eq_livePermits ha.epoch ha.past ha.settled]
  refine ⟨fun id site hl => ?_, fun id hl => ?_, fun e s' _ hs => ?_⟩
  · rw [← hlive, entry_of_lookup hl]
  · rw [← hlive, State.entry, hl]; rfl
  · obtain ⟨new, htr, hnew⟩ := granted_within ha.inv hs
    exact ⟨new, htr, fun id w waiting hm => (hnew id w waiting hm).2⟩

/-- Limit 1 and three requests; the limit is raised, lowered and the site retired meanwhile. -/
def busyRun : List Event :=
  [.asyncAcquire 7 "shop" "10.0.0.1:80" 1 5 30, .asyncAcquire 7 "shop" "10.0.0.1:80" 1 5 30,
    .asyncAcquire 7 "shop" "10.0.0.1:80" 1 5 30, .updateLimits 7 2 5, .retainSites [],
    .updateLimits 7 1 5, .destroyPermit 0 .posted, .destroyPermit 0 .called]

theorem slot_accounting_busyRun :
    ∃ s, run step State.init busyRun = some s ∧ livePermits 7 s = 1 ∧
      ∀ site, s.sites.lookup 7 = some site → site.active = 1 := by
  obtain ⟨s, hs⟩ := Option.isSome_iff_exists.mp
    (show (run step State.init busyRun).isSome = true by decide)
  have hlive : (run step State.init busyRun).map (livePermits 7) = some 1 := by decide
  rw [hs, Option.map_some, Option.some.injEq] at hlive
  refine ⟨s, hs, hlive, fun site hl => ?_⟩
  rw [(slot_accounting (by decide) hs).1 7 site hl, hlive]

end Limiter
end WebServer
