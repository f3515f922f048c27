import WebServer.Limiter.Model
import Mathlib.Data.List.Nodup

/-!
# WebServer.Limiter.Queue

The queue discipline of the limiter, over every run and with every operation.

* `Inv`: the waiters with an unclaimed `completed` flag are exactly the queued ones, each in the
  queue of its own site, and every queue is increasing in `waiter_id`.
* `promote_spec`, `popLive_eq`, `claimAll_eq`: in such a state the compare-exchange in front of
  each removal never fails, so the loops take the waiters from the front of the queue.
* `Conserving`: a request waits only while its site has no free slot.
-/

namespace WebServer
namespace Limiter

/-- The entry of a site, or a blank one. -/
def State.entry (s : State) (id : Int) : SiteState := (s.sites.lookup id).getD {}

theorem entry_of_lookup {s : State} {id : Int} {site : SiteState}
    (h : s.sites.lookup id = some site) : s.entry id = site := by simp [State.entry, h]

theorem getD_lookup_set (t : Table Int SiteState) (id id' : Int) (o : Option SiteState) :
    ((t.set id o).lookup id').getD {} = if id' = id then o.getD {} else (t.lookup id').getD {} := by
  rw [Table.lookup_set]; split <;> rfl

@[simp] theorem reclaim_queue (site : SiteState) : (site.reclaim.getD {}).queue = site.queue := by
  unfold SiteState.reclaim
  split
  · rename_i h; simp [h.2.2]
  · rfl

@[simp] theorem reclaim_active (site : SiteState) : (site.reclaim.getD {}).active = site.active := by
  unfold SiteState.reclaim
  split
  · rename_i h; simp [h.2.1]
  · rfl

theorem eq_of_reclaim {site site' : SiteState} (h : site.reclaim = some site') : site' = site := by
  unfold SiteState.reclaim at h
  split at h
  · cases h
  · exact (Option.some.inj h).symm

/-! ## Claiming waiters -/

/-- The flags of the waiters `ws` set. -/
def mark (ws : List Nat) (heap : Heap) : Heap :=
  fun w => if w ∈ ws then (heap w).map fun p => { p with completed := true } else heap w

@[simp] theorem mark_nil (heap : Heap) : mark [] heap = heap := by funext w; simp [mark]

theorem mark_of_not_mem {ws : List Nat} {heap : Heap} {w : Nat} (h : w ∉ ws) :
    mark ws heap w = heap w := by simp [mark, h]

theorem mark_mark (w : Nat) (ws : List Nat) (heap : Heap) :
    mark ws (mark [w] heap) = mark (w :: ws) heap := by
  funext x
  by_cases h1 : x = w <;> by_cases h2 : x ∈ ws <;>
    simp [mark, h1, h2, Option.map_map, Function.comp_def]

theorem claim_eq {heap : Heap} {w : Nat} {id : Int} (h : heap w = some ⟨id, false, true⟩) :
    claim heap w = some (mark [w] heap) := by
  simp only [claim, h, Bool.false_eq_true, if_false, Option.some.injEq]
  funext x
  by_cases hx : x = w
  · subst hx; simp [mark, h]
  · simp [mark, hx]

/-- The `completed` flag of `w` is set. -/
def Claimed (heap : Heap) (w : Nat) : Prop := ∃ p, heap w = some p ∧ p.completed = true

theorem Claimed.mark {heap : Heap} {w : Nat} (h : Claimed heap w) (ws : List Nat) :
    Claimed (mark ws heap) w := by
  obtain ⟨p, hp, hc⟩ := h
  by_cases hw : w ∈ ws
  · exact ⟨{ p with completed := true }, by simp [Limiter.mark, hw, hp], rfl⟩
  · exact ⟨p, by rw [mark_of_not_mem hw]; exact hp, hc⟩

theorem claimed_mark {heap : Heap} {ws : List Nat} {w : Nat} (hw : w ∈ ws) {p : PendingState}
    (hp : heap w = some p) : Claimed (mark ws heap) w :=
  ⟨{ p with completed := true }, by simp [mark, hw, hp], rfl⟩

structure Promotion.Spec (m : Nat) (queue : List Nat) (active : Nat) (heap : Heap)
    (r : Promotion) : Prop where
  split : r.promoted.map Prod.fst ++ r.queue = queue
  active : r.active = active + r.promoted.length
  heap : r.heap = mark (r.promoted.map Prod.fst) heap
  full : r.queue = [] ∨ m ≤ r.active
  within : r.promoted = [] ∨ r.active ≤ m
  fifo : ∀ x ∈ r.promoted, ∀ y ∈ x.2, x.1 < y
  behind : ∀ x ∈ r.promoted, ∀ y ∈ r.queue, y ∈ x.2

theorem promote_spec {id : Int} (m : Nat) {queue : List Nat} (hs : queue.Pairwise (· < ·)) :
    ∀ (active : Nat) (heap : Heap), (∀ w ∈ queue, heap w = some ⟨id, false, true⟩) →
      (promote m queue active heap).Spec m queue active heap := by
  induction queue with
  | nil => intro active heap _; constructor <;> simp [promote]
  | cons w queue ih =>
    intro active heap hq
    obtain ⟨hw, hs⟩ := List.pairwise_cons.mp hs
    simp only [promote]
    split
    · rename_i hlt
      rw [claim_eq (hq w (by simp))]
      have hq' : ∀ x ∈ queue, mark [w] heap x = some ⟨id, false, true⟩ := by
        intro x hx
        rw [mark_of_not_mem (by have := hw x hx; simp; omega)]
        exact hq x (by simp [hx])
      obtain ⟨h1, h2, h3, h4, h5, h6, h7⟩ := ih hs (active + 1) (mark [w] heap) hq'
      refine ⟨by simp [h1], by simp [h2]; omega, by simp [h3, mark_mark], h4, .inr ?_, ?_, ?_⟩
      · rcases h5 with h5 | h5
        · simp only [h5, List.length_nil] at h2; simp only [h2]; omega
        · exact h5
      · intro x hx
        rcases List.mem_cons.mp hx with rfl | hx
        · exact hw
        · exact h6 x hx
      · intro x hx y hy
        rcases List.mem_cons.mp hx with rfl | hx
        · simp only; rw [← h1]; exact List.mem_append_right _ hy
        · exact h7 x hx y hy
    · rename_i hlt
      exact ⟨by simp, by simp, by simp, .inr (by simpa using hlt), by simp, by simp, by simp⟩

theorem popLive_eq {id : Int} {w : Nat} {queue : List Nat} {heap : Heap}
    (h : heap w = some ⟨id, false, true⟩) :
    popLive (w :: queue) heap = (some w, queue, mark [w] heap) := by
  simp [popLive, claim_eq h]

theorem claimAll_eq {xs : List (Int × Nat)} (hn : (xs.map Prod.snd).Nodup) :
    ∀ heap : Heap, (∀ x ∈ xs, heap x.2 = some ⟨x.1, false, true⟩) →
      claimAll xs heap = (xs, mark (xs.map Prod.snd) heap) := by
  induction xs with
  | nil => intro heap _; simp [claimAll]
  | cons x xs ih =>
    intro heap hx
    simp only [List.map_cons, List.nodup_cons] at hn
    have hx' : ∀ y ∈ xs, mark [x.2] heap y.2 = some ⟨y.1, false, true⟩ := by
      intro y hy
      have hne : y.2 ≠ x.2 := fun he => hn.1 (he ▸ List.mem_map_of_mem hy)
      rw [mark_of_not_mem (by simpa using hne)]
      exact hx y (by simp [hy])
    simp [claimAll, claim_eq (hx x (by simp)), ih hn.2 _ hx', mark_mark]

/-! ## The invariant -/

structure Inv (s : State) : Prop where
  fresh : ∀ w, s.nextWaiterId ≤ w → s.pending w = none
  queued : ∀ id, ∀ w ∈ (s.entry id).queue, s.pending w = some ⟨id, false, true⟩
  waiting : ∀ w p, s.pending w = some p → p.completed = false → w ∈ (s.entry p.siteId).queue
  sorted : ∀ id, (s.entry id).queue.Pairwise (· < ·)
  claimed : ∀ t ∈ s.tasks, ∀ w, t.waiter? = some w → Claimed s.pending w
  fifo : ∀ id w waiting, Note.decided id w (.result .granted) waiting ∈ s.trace →
    ∀ x ∈ waiting, w < x

/-- A site with a queue has no free slot. -/
def Conserving (s : State) : Prop :=
  ∀ id, (s.entry id).queue ≠ [] → (s.entry id).maximumActive ≤ (s.entry id).active

theorem Inv.lt_next {s : State} (h : Inv s) {id : Int} {w : Nat} (hw : w ∈ (s.entry id).queue) :
    w < s.nextWaiterId := by
  by_contra hlt
  have := h.queued id w hw
  rw [h.fresh w (by omega)] at this
  cases this

theorem inv_init : Inv State.init := by
  constructor <;> simp [State.init, State.entry]

theorem conserving_init : Conserving State.init := by simp [Conserving, State.init, State.entry]

/-- What the invariant reads of the state; new tasks are about claimed waiters, and new grants
are ahead of the queue. -/
theorem Inv.congr {s s' : State} (h : Inv s) (hn : s'.nextWaiterId = s.nextWaiterId)
    (hp : s'.pending = s.pending) (he : ∀ id, (s'.entry id).queue = (s.entry id).queue)
    (hc : ∀ t ∈ s'.tasks, t ∈ s.tasks ∨ ∀ w, t.waiter? = some w → Claimed s.pending w)
    (ht : ∀ id w waiting, Note.decided id w (.result .granted) waiting ∈ s'.trace →
      Note.decided id w (.result .granted) waiting ∈ s.trace ∨ ∀ x ∈ waiting, w < x) : Inv s' := by
  refine ⟨?_, ?_, ?_, ?_, ?_, ?_⟩
  · intro w hw; rw [hp]; exact h.fresh w (hn ▸ hw)
  · intro id w hw; rw [hp]; rw [he] at hw; exact h.queued id w hw
  · intro w p hw hc; rw [he]; rw [hp] at hw; exact h.waiting w p hw hc
  · intro id; rw [he]; exact h.sorted id
  · intro t hm w hw
    rw [hp]
    rcases hc t hm with hm | hm
    · exact h.claimed t hm w hw
    · exact hm w hw
  · intro id w waiting hm
    rcases ht id w waiting hm with hm | hm
    · exact h.fifo id w waiting hm
    · exact hm

/-- The invariant does not read the permits. -/
theorem Inv.erasePermit {s : State} (h : Inv s) (i : Nat) :
    Inv { s with permits := s.permits.eraseIdx i } :=
  h.congr rfl rfl (fun _ => rfl) (fun _ hm => .inl hm) (fun _ _ _ hm => .inl hm)

theorem Inv.eraseTask {s : State} (h : Inv s) (i : Nat) :
    Inv { s with tasks := s.tasks.eraseIdx i } :=
  h.congr rfl rfl (fun _ => rfl) (fun _ hm => .inl (List.mem_of_mem_eraseIdx hm))
    (fun _ _ _ hm => .inl hm)

theorem Inv.grantAll {s : State} (h : Inv s) (id : Int) {ps : List (Nat × List Nat)}
    (hcl : ∀ x ∈ ps, Claimed s.pending x.1) (hps : ∀ x ∈ ps, ∀ y ∈ x.2, x.1 < y) :
    Inv (s.grantAll id ps) := by
  refine h.congr rfl rfl (fun _ => rfl) ?_ ?_
  · intro t hm
    simp only [State.grantAll, List.mem_append, List.mem_map] at hm
    rcases hm with hm | ⟨x, hx, rfl⟩
    · exact .inl hm
    · refine .inr fun w hw => ?_
      cases hw; exact hcl x hx
  · intro id' w waiting hm
    simp only [State.grantAll, List.mem_append, List.mem_reverse, List.mem_map] at hm
    rcases hm with ⟨x, hx, he⟩ | hm
    · cases he; exact .inr (hps x hx)
    · exact .inl hm

/-- Taking the waiters `ws` out of the queue of `id` and claiming them keeps the invariant. -/
theorem Inv.take {s s' : State} (h : Inv s) (id : Int) (ws : List Nat)
    (hn : s'.nextWaiterId = s.nextWaiterId) (ht : s'.trace = s.trace) (hk : s'.tasks = s.tasks)
    (hp : s'.pending = mark ws s.pending)
    (hsub : ∀ w ∈ ws, w ∈ (s.entry id).queue)
    (hne : ∀ id', id' ≠ id → (s'.entry id').queue = (s.entry id').queue)
    (hq : (s'.entry id).queue.Sublist (s.entry id).queue)
    (hmem : ∀ w ∈ (s.entry id).queue, (w ∈ (s'.entry id).queue ↔ w ∉ ws)) : Inv s' := by
  have hws : ∀ w ∈ ws, s.pending w = some ⟨id, false, true⟩ := fun w hw => h.queued id w (hsub w hw)
  refine ⟨?_, ?_, ?_, ?_, ?_, ?_⟩
  · intro w hw
    rw [hp, mark_of_not_mem]
    · exact h.fresh w (hn ▸ hw)
    · intro hmem
      have := hws w hmem
      rw [h.fresh w (hn ▸ hw)] at this; cases this
  · intro id' w hw
    by_cases hid : id' = id
    · subst hid
      have hw' := hq.subset hw
      rw [hp, mark_of_not_mem ((hmem w hw').mp hw)]
      exact h.queued id' w hw'
    · rw [hne id' hid] at hw
      have hpw := h.queued id' w hw
      rw [hp, mark_of_not_mem]
      · exact hpw
      · intro hmem
        rw [hws w hmem] at hpw
        exact hid (by cases hpw; rfl)
  · intro w p hw hc
    rw [hp] at hw
    by_cases hmw : w ∈ ws
    · rw [mark, if_pos hmw, hws w hmw] at hw
      cases hw; cases hc
    · rw [mark_of_not_mem hmw] at hw
      have hin := h.waiting w p hw hc
      by_cases hid : p.siteId = id
      · rw [hid] at hin ⊢; exact (hmem w hin).mpr hmw
      · rw [hne _ hid]; exact hin
  · intro id'
    by_cases hid : id' = id
    · subst hid; exact (h.sorted id').sublist hq
    · rw [hne id' hid]; exact h.sorted id'
  · intro t hm w hw
    rw [hk] at hm; rw [hp]
    exact (h.claimed t hm w hw).mark ws
  · intro id' w waiting hm
    rw [ht] at hm; exact h.fifo id' w waiting hm

/-! ## Each operation keeps the invariant -/

section Operations

variable {s : State} {id : Int}

theorem Inv.promoteSite (h : Inv s) (id : Int) {site : SiteState} (hq : site.queue = (s.entry id).queue) :
    Inv (s.promoteSite id site).2 := by
  have hspec := promote_spec site.maximumActive (hq ▸ h.sorted id) site.active s.pending
    (hq ▸ h.queued id)
  have hsub : ∀ w ∈ (promote site.maximumActive site.queue site.active
      s.pending).promoted.map Prod.fst, w ∈ (s.entry id).queue := by
    intro w hw; rw [← hq, ← hspec.split]; exact List.mem_append_left _ hw
  refine Inv.grantAll ?_ id ?_ hspec.fifo
  swap
  · intro x hx
    have hx := List.mem_map_of_mem (f := Prod.fst) hx
    simp only
    rw [hspec.heap]
    exact claimed_mark hx (h.queued id _ (hsub _ hx))
  refine h.take id _ rfl rfl rfl hspec.heap hsub ?_ ?_ ?_
  · intro id' hid; simp [State.entry, getD_lookup_set, hid]
  · rw [← hq]; simp only [State.entry, getD_lookup_set, if_true, Option.getD_some]
    nth_rewrite 2 [← hspec.split]; exact List.sublist_append_right _ _
  · intro w hw
    simp only [State.entry, getD_lookup_set, if_true, Option.getD_some]
    rw [← hq, ← hspec.split] at hw
    have hnd : (site.queue).Nodup := hq ▸ (h.sorted id).imp Nat.ne_of_lt
    rw [← hspec.split, List.nodup_append] at hnd
    constructor
    · intro hw1 hw2; exact hnd.2.2 w hw2 w hw1 rfl
    · intro hw1; exact (List.mem_append.mp hw).resolve_left hw1

theorem Inv.not_queued (h : Inv s) {w : Nat} (hnone : s.pending w = none) (id : Int) :
    w ∉ (s.entry id).queue := by
  intro hm
  have := h.queued id w hm
  rw [hnone] at this
  cases this

theorem Inv.claimed_update (h : Inv s) {w : Nat} (hnone : s.pending w = none) (q : PendingState) :
    ∀ t ∈ s.tasks, ∀ x, t.waiter? = some x →
      Claimed (Function.update s.pending w (some q)) x := by
  intro t hm x hx
  obtain ⟨p, hp, hc⟩ := h.claimed t hm x hx
  have hxw : x ≠ w := fun hxw => by rw [hxw, hnone] at hp; cases hp
  exact ⟨p, by rw [Function.update_of_ne hxw]; exact hp, hc⟩

/-- A request that is decided at once enters no queue. -/
theorem Inv.decideNew {s' : State} (h : Inv s) {w : Nat} (hw : w < s.nextWaiterId)
    (hnone : s.pending w = none) (hn : s'.nextWaiterId = s.nextWaiterId)
    (ht : s'.trace = s.trace) (hk : s'.tasks = s.tasks)
    (hp : s'.pending = Function.update s.pending w (some ⟨id, true, true⟩))
    (hq : ∀ id', (s'.entry id').queue = (s.entry id').queue) : Inv s' := by
  refine ⟨?_, ?_, ?_, ?_, ?_, ?_⟩
  · intro x hx; rw [hp, Function.update_of_ne (by omega)]; exact h.fresh x (by omega)
  · intro id' x hx
    rw [hq] at hx
    rw [hp, Function.update_of_ne (fun hxw : x = w => h.not_queued hnone id' (hxw ▸ hx))]
    exact h.queued id' x hx
  · intro x p hx hc
    rw [hp] at hx
    by_cases hxw : x = w
    · subst hxw; rw [Function.update_self] at hx; cases hx; cases hc
    · rw [Function.update_of_ne hxw] at hx; rw [hq]; exact h.waiting x p hx hc
  · intro id'; rw [hq]; exact h.sorted id'
  · intro t hm x hx; rw [hk] at hm; rw [hp]; exact h.claimed_update hnone _ t hm x hx
  · intro id' x waiting hm; rw [ht] at hm; exact h.fifo id' x waiting hm

/-- A request that waits goes behind every waiter of its site. -/
theorem Inv.enqueue (h : Inv s) {site : SiteState} {w : Nat} (he : s.entry id = site)
    (hw : w < s.nextWaiterId) (hnone : s.pending w = none) (hlt : ∀ x ∈ site.queue, x < w) :
    Inv { s with
      sites := s.sites.set id (some { site with queue := site.queue ++ [w] })
      pending := Function.update s.pending w (some ⟨id, false, true⟩) } := by
  refine ⟨?_, ?_, ?_, ?_, h.claimed_update hnone _, h.fifo⟩
  · intro x hx
    simp only at hx ⊢
    rw [Function.update_of_ne (by omega)]; exact h.fresh x hx
  · intro id' x hx
    simp only [State.entry, getD_lookup_set] at hx ⊢
    split at hx
    · rename_i hid
      subst hid
      simp only [Option.getD_some, List.mem_append, List.mem_singleton] at hx
      rcases hx with hx | rfl
      · rw [Function.update_of_ne (Nat.ne_of_lt (hlt x hx))]; exact h.queued id' x (he ▸ hx)
      · rw [Function.update_self]
    · rw [Function.update_of_ne (fun hxw : x = w => h.not_queued hnone id' (hxw ▸ hx))]
      exact h.queued id' x hx
  · intro x p hx hc
    simp only [State.entry, getD_lookup_set] at hx ⊢
    by_cases hxw : x = w
    · subst hxw; rw [Function.update_self] at hx; cases hx; simp
    · rw [Function.update_of_ne hxw] at hx
      have hin := h.waiting x p hx hc
      split
      · rename_i hid; rw [hid, he] at hin; simp [hin]
      · exact hin
  · intro id'
    simp only [State.entry, getD_lookup_set]
    split
    · have hs := h.sorted id
      rw [he] at hs
      simpa [List.pairwise_append] using ⟨hs, hlt⟩
    · exact h.sorted id'

theorem Inv.accept (h : Inv s) {site : SiteState} {w : Nat} (he : s.entry id = site)
    (hw : w < s.nextWaiterId) (hnone : s.pending w = none) (hlt : ∀ x ∈ site.queue, x < w) :
    Inv (s.accept id site w) := by
  unfold State.accept
  split
  · rename_i hfree
    refine Inv.grantAll ?_ id (by simp [Claimed]) (by simp [hfree.1])
    refine h.decideNew hw hnone rfl rfl rfl rfl fun id' => ?_
    by_cases hid : id' = id
    · subst hid; simp [State.entry, ← he]
    · simp [State.entry, getD_lookup_set, hid]
  split
  · have hd : Inv { s with
        sites := s.sites.set id (some { site with rejected := site.rejected + 1 })
        pending := Function.update s.pending w (some ⟨id, true, true⟩) } := by
      refine h.decideNew hw hnone rfl rfl rfl rfl fun id' => ?_
      by_cases hid : id' = id
      · subst hid; simp [State.entry, ← he]
      · simp [State.entry, getD_lookup_set, hid]
    refine hd.congr rfl rfl (fun _ => rfl) ?_ ?_
    · intro t hm
      simp only [List.mem_append, List.mem_singleton] at hm
      rcases hm with hm | rfl
      · exact .inl hm
      · refine .inr fun x hx => ?_
        cases hx; exact ⟨⟨id, true, true⟩, by simp, rfl⟩
    · intro id' x waiting hm
      exact .inl (by simpa using hm)
  · exact h.enqueue he hw hnone hlt

theorem Inv.create (h : Inv s) : Inv (s.create id) := by
  unfold State.create
  split
  · exact h
  · rename_i hnone
    refine h.congr rfl rfl (fun id' => ?_) (fun _ hm => .inl hm)
      (fun id' w waiting hm => .inl (by simpa using hm))
    by_cases hid : id' = id
    · subst hid; simp [State.entry, hnone]
    · simp [State.entry, getD_lookup_set, hid]

theorem create_entry (id' : Int) : (s.create id).entry id' = s.entry id' := by
  unfold State.create
  split
  · rfl
  · rename_i hnone
    by_cases hid : id' = id
    · subst hid; simp [State.entry, hnone]
    · simp [State.entry, getD_lookup_set, hid]

@[simp] theorem create_pending : (s.create id).pending = s.pending := by
  unfold State.create; split <;> rfl

/-- `async_acquire` before its promotion loop: the entry exists and the request has its id. -/
def State.arrive (s : State) (id : Int) : State :=
  { s.create id with nextWaiterId := s.nextWaiterId + 1 }

theorem asyncAcquire_eq (s : State) (id : Int) (siteName backend : String) (m n q : Nat) :
    asyncAcquire s id siteName backend m n q =
      let r := (s.arrive id).promoteSite id (refresh (s.sites.lookup id) siteName backend m n q)
      r.2.accept id r.1 s.nextWaiterId := rfl

theorem arrive_entry (id' : Int) : (s.arrive id).entry id' = s.entry id' := create_entry id'

@[simp] theorem arrive_pending : (s.arrive id).pending = s.pending := create_pending

theorem refresh_queue (siteName backend : String) (m n q : Nat) :
    (refresh (s.sites.lookup id) siteName backend m n q).queue =
      ((s.arrive id).entry id).queue := by
  rw [arrive_entry]; rfl

theorem Inv.arrive (h : Inv s) (id : Int) : Inv (s.arrive id) := by
  refine ⟨fun w hw => ?_, h.create.queued, h.create.waiting, h.create.sorted, h.create.claimed,
    h.create.fifo⟩
  rw [arrive_pending]
  exact h.fresh w (by simp only [State.arrive] at hw; omega)

theorem Inv.asyncAcquire (h : Inv s) (id : Int) (siteName backend : String) (m n q : Nat) :
    Inv (asyncAcquire s id siteName backend m n q) := by
  rw [asyncAcquire_eq]
  have hq : (refresh (s.sites.lookup id) siteName backend m n q).queue =
      ((s.arrive id).entry id).queue := refresh_queue siteName backend m n q
  generalize refresh (s.sites.lookup id) siteName backend m n q = site at hq ⊢
  have hspec := promote_spec site.maximumActive (hq ▸ (h.arrive id).sorted id) site.active
    s.pending (by rw [hq, arrive_entry]; exact h.queued id)
  have hnew : s.pending s.nextWaiterId = none := h.fresh _ (Nat.le_refl _)
  refine ((h.arrive id).promoteSite id hq).accept ?_ ?_ ?_ ?_
  · simp [State.promoteSite, State.grantAll, State.entry]
  · simp [State.promoteSite, State.grantAll, State.arrive]
  · simp only [State.promoteSite, State.grantAll, arrive_pending]
    rw [hspec.heap, mark]
    simp [hnew]
  · intro x hx
    simp only [State.promoteSite, arrive_pending] at hx
    refine @Inv.lt_next s h id x ?_
    rw [← arrive_entry, ← hq, ← hspec.split]
    exact List.mem_append_right _ hx

theorem Inv.updateLimits (h : Inv s) (id : Int) (m n : Nat) : Inv (updateLimits s id m n) := by
  unfold Limiter.updateLimits
  split
  · exact h
  · rename_i site hl
    exact h.promoteSite id (by simp [entry_of_lookup hl])

/-- Removing one waiter from a queue, as `cancel`, a timeout and a hand-off do; the only new
task is about that waiter. -/
theorem Inv.remove (h : Inv s) {site : SiteState} {w : Nat} {t : State}
    (hl : s.sites.lookup id = some site) (hw : w ∈ site.queue)
    (hn : t.nextWaiterId = s.nextWaiterId) (hp : t.pending = mark [w] s.pending)
    {o : Option SiteState} (hsites : t.sites = s.sites.set id o)
    (ho : (o.getD {}).queue = site.queue.erase w)
    {k : Task} (hk : t.tasks = s.tasks ++ [k]) (hkw : k.waiter? = some w)
    (ht : ∀ id w waiting, Note.decided id w (.result .granted) waiting ∈ t.trace →
      Note.decided id w (.result .granted) waiting ∈ s.trace ∨ ∀ x ∈ waiting, w < x) : Inv t := by
  have he := entry_of_lookup hl
  have hnd : site.queue.Nodup := (he ▸ h.sorted id).imp Nat.ne_of_lt
  have hid : (t.entry id).queue = site.queue.erase w := by simp [State.entry, hsites, ho]
  have h1 : Inv { t with trace := s.trace, tasks := s.tasks } := by
    refine h.take id [w] hn rfl rfl hp ?_ ?_ ?_ ?_
    · intro x hx; simp only [List.mem_singleton] at hx; rw [he, hx]; exact hw
    · intro id' hne; simp [State.entry, hsites, getD_lookup_set, hne]
    · show (t.entry id).queue.Sublist _
      rw [he, hid]; exact List.erase_sublist
    · intro x hx
      show x ∈ (t.entry id).queue ↔ _
      rw [hid, hnd.mem_erase_iff]
      rw [he] at hx
      simp [hx]
  refine h1.congr rfl rfl (fun _ => rfl) ?_ ht
  · intro t' hm
    rw [hk] at hm
    simp only [List.mem_append, List.mem_singleton] at hm
    rcases hm with hm | rfl
    · exact .inl hm
    · refine .inr fun x hx => ?_
      rw [hkw] at hx; cases hx
      simp only
      rw [hp]
      exact claimed_mark (by simp) (h.queued id w (he ▸ hw))

theorem Inv.cancelPending (h : Inv s) (id : Int) (w : Nat) : Inv (cancelPending s id w) := by
  unfold Limiter.cancelPending
  split
  · exact h
  rename_i site hl
  split
  · rename_i hw
    rw [claim_eq (h.queued id w (entry_of_lookup hl ▸ hw))]
    exact h.remove hl hw rfl rfl rfl (by simp) rfl rfl (fun _ _ _ hm => .inl (by simpa using hm))
  · exact h

theorem Inv.timeoutPending (h : Inv s) (id : Int) (w : Nat) : Inv (timeoutPending s id w) := by
  unfold Limiter.timeoutPending
  split
  · exact h
  rename_i site hl
  split
  · rename_i hw
    rw [claim_eq (h.queued id w (entry_of_lookup hl ▸ hw))]
    exact h.remove hl hw rfl rfl rfl (by simp) rfl rfl (fun _ _ _ hm => .inl (by simpa using hm))
  · exact h

/-- What `release` does in a state with the invariant, by the entry it finds: nothing, return
the slot, or pass it to the first waiter. -/
theorem release_eq (h : Inv s) (id : Int) (ho : HandOff) :
    (s.sites.lookup id = none ∧ release s id ho = s) ∨
    (∃ site, s.sites.lookup id = some site ∧
      (site.maximumActive < site.active ∨ site.queue = []) ∧
      release s id ho =
        { s with sites := s.sites.set id ({ site with active := site.active - 1 }).reclaim }) ∨
    (∃ site w queue, s.sites.lookup id = some site ∧ site.active ≤ site.maximumActive ∧
      site.queue = w :: queue ∧
      release s id ho = State.passOn { s with
        sites := s.sites.set id (some { site with queue := queue })
        pending := mark [w] s.pending } id w queue ho) := by
  unfold release
  split
  · rename_i hl; exact .inl ⟨hl, rfl⟩
  rename_i site hl
  split
  · rename_i hlt; exact .inr (.inl ⟨site, hl, .inl hlt, rfl⟩)
  rename_i hge
  cases hq : site.queue with
  | nil =>
    refine .inr (.inl ⟨site, hl, .inr hq, ?_⟩)
    have ha : (if site.active ≠ 0 then site.active - 1 else site.active) = site.active - 1 := by
      split <;> omega
    simp only [popLive, ha]
    congr 3
    rw [← hq]
  | cons w queue =>
    refine .inr (.inr ⟨site, w, queue, hl, by omega, hq, ?_⟩)
    have hw : w ∈ (s.entry id).queue := by rw [entry_of_lookup hl, hq]; simp
    rw [popLive_eq (h.queued id w hw)]

theorem Inv.release (h : Inv s) (id : Int) (ho : HandOff) : Inv (release s id ho) := by
  rcases release_eq h id ho with ⟨_, he⟩ | ⟨site, hl, _, he⟩ | ⟨site, w, queue, hl, _, hq, he⟩
  · rw [he]; exact h
  · rw [he]
    refine h.congr rfl rfl (fun id' => ?_) (fun _ hm => .inl hm) (fun _ _ _ hm => .inl hm)
    by_cases hid : id' = id
    · subst hid; simp [State.entry, hl]
    · simp [State.entry, getD_lookup_set, hid]
  · have hs := h.sorted id
    rw [entry_of_lookup hl, hq] at hs
    have hlt := (List.pairwise_cons.mp hs).1
    have hmem : w ∈ site.queue := by simp [hq]
    have hqe : queue = site.queue.erase w := by simp [hq]
    rw [he]
    cases ho with
    | posted =>
      refine h.remove (o := some { site with queue := queue }) hl hmem rfl rfl rfl hqe rfl rfl (fun id' x waiting hm => ?_)
      simp only [State.passOn, State.grantAll, List.map_cons, List.map_nil, List.reverse_singleton,
        List.singleton_append, List.mem_cons, Note.decided.injEq] at hm
      rcases hm with ⟨-, rfl, -, rfl⟩ | hm
      · exact .inr hlt
      · exact .inl hm
    | called =>
      refine h.remove (o := some { site with queue := queue }) hl hmem rfl rfl rfl hqe rfl rfl (fun id' x waiting hm => ?_)
      simp only [State.passOn, List.mem_cons, Note.decided.injEq] at hm
      rcases hm with ⟨-, rfl, -, rfl⟩ | hm
      · exact .inr hlt
      · exact .inl hm
    | noPermit | noControlBlock =>
      exact h.remove (o := some { site with queue := queue }) hl hmem rfl rfl rfl hqe rfl rfl
        (fun id' x waiting hm => .inl (by simpa [State.passOn] using hm))

theorem retain_entry (s : State) (ids : List Int) (id : Int) :
    (((retainSites s ids).entry id).queue = (s.entry id).queue ∧
      ((retainSites s ids).entry id).active = (s.entry id).active) ∧
    ((retainSites s ids).entry id = s.entry id ∨ (s.entry id).queue = [] ∨
      ((retainSites s ids).entry id).maximumActive = (s.entry id).maximumActive) := by
  simp only [State.entry, retainSites, Table.lookup_mapFilter]
  cases hl : s.sites.lookup id with
  | none => simp
  | some site =>
    simp only [Option.bind_some]
    split
    · simp
    · refine ⟨by simp, .inr ?_⟩
      unfold SiteState.reclaim
      split
      · rename_i hr; exact .inl (by simpa using hr.2.2)
      · exact .inr rfl

theorem Inv.retainSites (h : Inv s) (ids : List Int) : Inv (retainSites s ids) :=
  h.congr rfl rfl (fun id => (retain_entry s ids id).1.1) (fun _ hm => .inl hm)
    (fun _ _ _ hm => .inl hm)

theorem mem_queuedWaiters {x : Int × Nat} :
    x ∈ s.queuedWaiters ↔ x.2 ∈ (s.entry x.1).queue := by
  simp only [State.queuedWaiters, List.mem_flatMap, List.mem_map, State.entry]
  constructor
  · rintro ⟨⟨id, site⟩, he, w, hw, rfl⟩
    rw [Table.mem_entries_iff.mp he]; exact hw
  · intro hx
    cases hl : s.sites.lookup x.1 with
    | none => simp [hl] at hx
    | some site =>
      exact ⟨⟨x.1, site⟩, Table.mem_entries_iff.mpr hl, x.2, by simpa [hl] using hx, rfl⟩

/-- A waiter is in one queue only, once. -/
theorem Inv.queuedWaiters_nodup (h : Inv s) : (s.queuedWaiters.map Prod.snd).Nodup := by
  simp only [State.queuedWaiters, List.map_flatMap, List.map_map, Function.comp_def, List.map_id']
  rw [List.nodup_flatMap]
  refine ⟨fun e he => ?_, ?_⟩
  · have hl := Table.mem_entries_iff.mp he
    have hs := h.sorted e.1
    rw [entry_of_lookup hl] at hs
    exact hs.imp Nat.ne_of_lt
  · have hk : s.sites.entries.Pairwise fun a b => a.1 ≠ b.1 :=
      List.pairwise_map.mp s.sites.nodupKeys
    refine List.Pairwise.imp_of_mem ?_ hk
    intro a b ha hb hne w hwa hwb
    have h1 := h.queued a.1 w (by rw [entry_of_lookup (Table.mem_entries_iff.mp ha)]; exact hwa)
    have h2 := h.queued b.1 w (by rw [entry_of_lookup (Table.mem_entries_iff.mp hb)]; exact hwb)
    rw [h1] at h2
    exact hne (congrArg (fun o => (o.map PendingState.siteId).getD 0) h2)

theorem Inv.claimAll_eq (h : Inv s) : claimAll s.queuedWaiters s.pending =
    (s.queuedWaiters, mark (s.queuedWaiters.map Prod.snd) s.pending) :=
  Limiter.claimAll_eq h.queuedWaiters_nodup _ fun x hx => h.queued x.1 x.2 (mem_queuedWaiters.mp hx)

theorem Inv.clear (h : Inv s) : Inv (clear s) := by
  have hmem : ∀ w, w ∈ s.queuedWaiters.map Prod.snd → ∃ id, s.pending w = some ⟨id, false, true⟩ := by
    intro w hw
    obtain ⟨x, hx, rfl⟩ := List.mem_map.mp hw
    exact ⟨x.1, h.queued x.1 x.2 (mem_queuedWaiters.mp hx)⟩
  refine ⟨?_, ?_, ?_, ?_, ?_, ?_⟩
  · intro w hw
    simp only [Limiter.clear, h.claimAll_eq] at hw ⊢
    rw [mark_of_not_mem]
    · exact h.fresh w hw
    · intro hm; obtain ⟨id, hp⟩ := hmem w hm
      rw [h.fresh w hw] at hp; cases hp
  · intro id w hw; simp [Limiter.clear, State.entry] at hw
  · intro w p hp hc
    simp only [Limiter.clear, h.claimAll_eq] at hp
    by_cases hw : w ∈ s.queuedWaiters.map Prod.snd
    · obtain ⟨id, hpw⟩ := hmem w hw
      rw [mark, if_pos hw, hpw] at hp
      cases hp; cases hc
    · rw [mark_of_not_mem hw] at hp
      exact absurd (List.mem_map.mpr ⟨(p.siteId, w), mem_queuedWaiters.mpr (h.waiting w p hp hc), rfl⟩) hw
  · intro id; simp [Limiter.clear, State.entry]
  · intro t hm w hw
    simp only [Limiter.clear, h.claimAll_eq, List.mem_append, List.mem_map] at hm ⊢
    rcases hm with hm | ⟨x, hx, rfl⟩
    · exact (h.claimed t hm w hw).mark _
    · cases hw
      exact claimed_mark (List.mem_map_of_mem hx) (h.queued x.1 x.2 (mem_queuedWaiters.mp hx))
  · intro id w waiting hm
    refine h.fifo id w waiting ?_
    simpa [Limiter.clear] using hm

/-- Clearing the handler of a claimed waiter touches no queued one. -/
theorem Inv.clearHandler (h : Inv s) {w : Nat} (hw : Claimed s.pending w) :
    Inv { s with pending := clearHandler s.pending w } := by
  obtain ⟨q, hq, hqc⟩ := hw
  have hsame : ∀ x, x ≠ w → Limiter.clearHandler s.pending w x = s.pending x := fun x hx => by
    simp [Limiter.clearHandler, hx]
  have hself : Limiter.clearHandler s.pending w w = some { q with handler := false } := by
    simp [Limiter.clearHandler, hq]
  refine ⟨?_, ?_, ?_, h.sorted, ?_, h.fifo⟩
  · intro x hx
    have hxw : x ≠ w := fun hxw => by rw [← hxw, h.fresh x hx] at hq; cases hq
    simp only [hsame x hxw]; exact h.fresh x hx
  · intro id x hx
    have hx' := h.queued id x hx
    have hxw : x ≠ w := fun hxw => by rw [hxw, hq] at hx'; cases hx'; cases hqc
    simp only [hsame x hxw]; exact hx'
  · intro x p hx hc
    by_cases hxw : x = w
    · subst hxw
      simp only [hself] at hx
      cases hx; rw [hqc] at hc; cases hc
    · simp only [hsame x hxw] at hx; exact h.waiting x p hx hc
  · intro t hm x hx
    by_cases hxw : x = w
    · subst hxw; exact ⟨_, hself, hqc⟩
    · obtain ⟨p, hp, hc⟩ := h.claimed t hm x hx
      exact ⟨p, by simp only [hsame x hxw]; exact hp, hc⟩

theorem Inv.invoke (h : Inv s) {w : Nat} (hw : Claimed s.pending w) (r : BackendAcquireResult) :
    Inv (invoke s w r) := by
  refine (h.clearHandler hw).congr rfl rfl (fun _ => rfl) (fun _ hm => .inl hm)
    (fun id x waiting hm => .inl ?_)
  simp only [Limiter.invoke] at hm
  split at hm
  · simpa using hm
  · exact hm

/-- A waiter that was claimed is to be refused. -/
theorem Inv.refusing (h : Inv s) {w : Nat} (hw : Claimed s.pending w) (id : Int) (slot : Option Nat) :
    Inv { s with tasks := s.tasks ++ [.refuse w id slot] } := by
  refine h.congr rfl rfl (fun _ => rfl) (fun t hm => ?_) (fun _ _ _ hm => .inl hm)
  rcases List.mem_append.mp hm with hm | hm
  · exact .inl hm
  · rw [List.mem_singleton.mp hm]
    refine .inr fun x hx => ?_
    cases hx
    exact hw

theorem Inv.perform (h : Inv s) {t : Task} (ht : ∀ w, t.waiter? = some w → Claimed s.pending w)
    (ho : HandOff) : Inv (perform s ho t) := by
  cases t with
  | post w r =>
    refine h.congr rfl rfl (fun _ => rfl) (fun t hm => ?_) (fun _ _ _ hm => .inl hm)
    simp only [Limiter.perform, List.mem_append, List.mem_singleton] at hm
    rcases hm with hm | rfl
    · exact .inl hm
    · exact .inr ht
  | invoke w r => exact h.invoke (ht w rfl) r
  | drop w => exact h.clearHandler (ht w rfl)
  | refuse w id slot =>
    refine (h.invoke (ht w rfl) .queueFull).congr rfl rfl (fun _ => rfl) (fun t hm => ?_)
      (fun _ _ _ hm => .inl hm)
    simp only [Limiter.perform, List.mem_append, List.mem_singleton] at hm
    rcases hm with hm | rfl
    · exact .inl hm
    · exact .inr fun w hw => by cases hw
  | release id slot => exact h.release id ho
  | unwind w id epoch => exact (h.refusing (ht w rfl) id none).release id ho

end Operations

theorem inv_step {s s' : State} {e : Event} (h : Inv s) (hs : step s e = some s') : Inv s' := by
  cases e with
  | asyncAcquire id siteName backend m n q => cases hs; exact h.asyncAcquire id siteName backend m n q
  | destroyPermit i ho =>
    simp only [step] at hs
    split at hs
    · cases hs
      exact (h.erasePermit i).release _ ho
    · cases hs
  | updateLimits id m n => cases hs; exact h.updateLimits id m n
  | retainSites ids => cases hs; exact h.retainSites ids
  | cancel w =>
    simp only [step] at hs
    split at hs <;> cases hs
    exact h.cancelPending _ w
  | timeout w =>
    simp only [step] at hs
    split at hs <;> cases hs
    exact h.timeoutPending _ w
  | clear => cases hs; exact h.clear
  | run i ho =>
    simp only [step] at hs
    split at hs
    · rename_i t ht
      cases hs
      refine (h.eraseTask i).perform ?_ ho
      exact h.claimed t (List.mem_of_getElem? ht)
    · cases hs

end Limiter
end WebServer
