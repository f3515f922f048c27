import WebServer.Limiter.Fifo

/-!
# WebServer.Limiter.Outcome

What becomes of a request, over any run with any interleaving of the work outside the lock.

* `Life`: the stages of one request, read off its `Pending::State`, the trace and the tasks that
  are about it. `lives_step` says that a step moves every request along them.
* `Counted`: `rejected` and `timeouts` of an entry against the trace since it was created. The
  step that breaks it is a hand-off whose permit, or its `shared_ptr`, could not be allocated.
* `one_outcome`: a request has at most one outcome, exactly one once it has left the queue, and
  its handler is called at most once, with that outcome.
-/

namespace WebServer
namespace Limiter

open Run

/-- The outcome a note records for waiter `w`. -/
def Note.outcome? (w : Nat) : Note → Option Outcome
  | .decided _ w' o _ => if w' = w then some o else none
  | _ => none

/-- The handler call a note records for waiter `w`. -/
def Note.call? (w : Nat) : Note → Option BackendAcquireResult
  | .called w' r => if w' = w then some r else none
  | _ => none

def Task.job? (w : Nat) (t : Task) : Option Task := if t.waiter? = some w then some t else none

/-- The outcome that a task carries to its waiter. -/
def Task.reports : Task → Option Outcome
  | .post _ r => some (.result r)
  | .invoke _ r => some (.result r)
  | .drop _ => some .withdrawn
  | .refuse _ _ _ => some (.result .queueFull)
  | .release _ _ => none
  | .unwind _ _ _ => some (.result .queueFull)

def outcomes (w : Nat) (s : State) : List Outcome := s.trace.filterMap (Note.outcome? w)

def calls (w : Nat) (s : State) : List BackendAcquireResult := s.trace.filterMap (Note.call? w)

def jobs (w : Nat) (s : State) : List Task := s.tasks.filterMap (Task.job? w)

/-- The stages of a request: its `Pending::State`, its outcomes, its handler's calls and the
tasks about it. -/
inductive Life :
    Option PendingState → List Outcome → List BackendAcquireResult → List Task → Prop where
  | absent : Life none [] [] []
  | waiting (id : Int) : Life (some ⟨id, false, true⟩) [] [] []
  | due (id : Int) (o : Outcome) (t : Task) (ht : t.reports = some o) :
      Life (some ⟨id, true, true⟩) [o] [] [t]
  | called (id : Int) (r : BackendAcquireResult) :
      Life (some ⟨id, true, false⟩) [.result r] [r] []
  | dropped (id : Int) : Life (some ⟨id, true, false⟩) [.withdrawn] [] []

theorem Life.of_none {os : List Outcome} {cs : List BackendAcquireResult} {js : List Task}
    (h : Life none os cs js) : os = [] ∧ cs = [] ∧ js = [] := by
  cases h; exact ⟨rfl, rfl, rfl⟩

theorem Life.of_waiting {id : Int} {b : Bool} {os : List Outcome} {cs : List BackendAcquireResult}
    {js : List Task} (h : Life (some ⟨id, false, b⟩) os cs js) : os = [] ∧ cs = [] ∧ js = [] := by
  cases h; exact ⟨rfl, rfl, rfl⟩

theorem Life.of_job {p : Option PendingState} {os : List Outcome} {cs : List BackendAcquireResult}
    {js : List Task} {t : Task} (h : Life p os cs js) (ht : t ∈ js) :
    ∃ id o, p = some ⟨id, true, true⟩ ∧ os = [o] ∧ cs = [] ∧ t.reports = some o ∧ js = [t] := by
  cases h with
  | due id o t' ht' =>
    cases List.mem_singleton.mp ht
    exact ⟨id, o, rfl, rfl, rfl, ht', rfl⟩
  | _ => cases ht

def Lives (s : State) : Prop := ∀ w, Life (s.pending w) (outcomes w s) (calls w s) (jobs w s)

/-! ## Lists with one entry about a waiter -/

section Lists

variable {α β : Type*} {f : α → Option β}

theorem filterMap_unique {xs : List α} {x : α} {b : β} (hnd : xs.Nodup) (hx : x ∈ xs)
    (hfx : f x = some b) (hne : ∀ y ∈ xs, y ≠ x → f y = none) : xs.filterMap f = [b] := by
  induction xs with
  | nil => cases hx
  | cons y xs ih =>
    obtain ⟨hy, hnd⟩ := List.nodup_cons.mp hnd
    by_cases hyx : y = x
    · subst hyx
      have hnil : xs.filterMap f = [] := List.filterMap_eq_nil_iff.mpr fun z hz =>
        hne z (by simp [hz]) fun hzy => hy (hzy ▸ hz)
      rw [List.filterMap_cons_some hfx, hnil]
    · rw [List.filterMap_cons_none (hne y (by simp) hyx)]
      exact ih hnd ((List.mem_cons.mp hx).resolve_left (Ne.symm hyx))
        fun z hz => hne z (by simp [hz])

theorem filterMap_eraseIdx_none {l : List α} {i : Nat} {a : α} (h : l[i]? = some a)
    (ha : f a = none) : (l.eraseIdx i).filterMap f = l.filterMap f := by
  induction l generalizing i with
  | nil => simp at h
  | cons b l ih =>
    cases i with
    | zero => simp only [List.getElem?_cons_zero, Option.some.injEq] at h; subst h; simp [ha]
    | succ i =>
      have := ih (by simpa using h)
      simp only [List.eraseIdx_cons_succ, List.filterMap_cons, this]

theorem filterMap_eraseIdx_some {l : List α} {i : Nat} {a : α} (h : l[i]? = some a) {b c : β}
    (ha : f a = some b) (hl : l.filterMap f = [c]) :
    b = c ∧ (l.eraseIdx i).filterMap f = [] := by
  induction l generalizing i with
  | nil => simp at h
  | cons d l ih =>
    cases i with
    | zero =>
      simp only [List.getElem?_cons_zero, Option.some.injEq] at h
      subst h
      rw [List.filterMap_cons_some ha, List.cons.injEq] at hl
      exact ⟨hl.1, by simpa using hl.2⟩
    | succ i =>
      have hi : l[i]? = some a := by simpa using h
      cases hd : f d with
      | none =>
        rw [List.filterMap_cons_none hd] at hl
        simpa [List.filterMap_cons_none hd] using ih hi hl
      | some x =>
        -- then `d` is the only entry, yet `a` is one too
        rw [List.filterMap_cons_some hd, List.cons.injEq] at hl
        have := List.filterMap_eq_nil_iff.mp hl.2 a (List.mem_of_getElem? hi)
        rw [ha] at this; cases this

end Lists

/-! ## The ways in which a request moves on -/

section Moves

variable {s s' : State}

theorem Lives.congr (h : Lives s) (hp : s'.pending = s.pending) (hj : ∀ w, jobs w s' = jobs w s)
    (ho : ∀ w, outcomes w s' = outcomes w s) (hc : ∀ w, calls w s' = calls w s) : Lives s' := by
  intro w; rw [hp, hj, ho, hc]; exact h w

/-- A new request joins a queue. -/
theorem Lives.arrive (h : Lives s) {w : Nat} {id : Int} (hw : s.pending w = none)
    (hp : s'.pending = Function.update s.pending w (some ⟨id, false, true⟩))
    (ht : s'.tasks = s.tasks) (htr : s'.trace = s.trace) : Lives s' := by
  intro x
  have hx := h x
  simp only [outcomes, calls, jobs, ht, htr] at hx ⊢
  by_cases hxw : x = w
  · subst hxw
    rw [hw] at hx
    obtain ⟨ho, hc, hj⟩ := hx.of_none
    rw [hp, Function.update_self, ho, hc, hj]
    exact .waiting id
  · rw [hp, Function.update_of_ne hxw]; exact hx

/-- The waiters of `xs` leave their queues with the outcome `o`, each with a task to report it. -/
theorem Lives.settle {α : Type*} (h : Lives s) (xs : List α) (wt : α → Nat)
    (hnd : (xs.map wt).Nodup) (hw : ∀ x ∈ xs, ∃ id, s.pending (wt x) = some ⟨id, false, true⟩)
    (task : α → Task) (note : α → Note) (o : Outcome)
    (htask : ∀ x, (task x).waiter? = some (wt x) ∧ (task x).reports = some o)
    (hnote : ∀ x, ∃ id q, note x = .decided id (wt x) o q)
    (hp : s'.pending = mark (xs.map wt) s.pending) (ht : s'.tasks = s.tasks ++ xs.map task)
    (htr : s'.trace = (xs.map note).reverse ++ s.trace) : Lives s' := by
  intro w
  have hlife := h w
  have hcalls : calls w s' = calls w s := by
    have hnil : (xs.map note).reverse.filterMap (Note.call? w) = [] := by
      rw [List.filterMap_eq_nil_iff]
      intro n hn
      obtain ⟨x, -, rfl⟩ := List.mem_map.mp (List.mem_reverse.mp hn)
      obtain ⟨id, q, hx⟩ := hnote x
      rw [hx]; rfl
    rw [calls, htr, List.filterMap_append, hnil]; rfl
  have hout : outcomes w s' = (xs.filterMap fun x => (note x).outcome? w).reverse ++ outcomes w s := by
    rw [outcomes, htr, List.filterMap_append, List.filterMap_reverse, List.filterMap_map]; rfl
  have hjob : jobs w s' = jobs w s ++ xs.filterMap fun x => (task x).job? w := by
    rw [jobs, ht, List.filterMap_append, List.filterMap_map]; rfl
  have hnone : ∀ x, wt x ≠ w → (note x).outcome? w = none ∧ (task x).job? w = none := by
    intro x hx
    obtain ⟨id, q, hn⟩ := hnote x
    exact ⟨by simp [hn, Note.outcome?, hx], by simp [Task.job?, (htask x).1, hx]⟩
  by_cases hmem : w ∈ xs.map wt
  · obtain ⟨x, hx, rfl⟩ := List.mem_map.mp hmem
    have hne : ∀ y ∈ xs, y ≠ x → wt y ≠ wt x := fun y hy hyx he =>
      hyx (List.inj_on_of_nodup_map hnd hy hx he)
    obtain ⟨id, hpend⟩ := hw x hx
    obtain ⟨id', q, hn⟩ := hnote x
    have h1 : (xs.filterMap fun y => (note y).outcome? (wt x)) = [o] :=
      filterMap_unique (List.Nodup.of_map wt hnd) hx (by simp [hn, Note.outcome?])
        fun y hy hyx => (hnone y (hne y hy hyx)).1
    have h2 : (xs.filterMap fun y => (task y).job? (wt x)) = [task x] :=
      filterMap_unique (List.Nodup.of_map wt hnd) hx (by simp [Task.job?, (htask x).1])
        fun y hy hyx => (hnone y (hne y hy hyx)).2
    rw [hpend] at hlife
    obtain ⟨ho, hc, hj⟩ := hlife.of_waiting
    rw [hcalls, hout, hjob, h1, h2, hp, mark, if_pos hmem, hpend, ho, hc, hj]
    exact .due id o (task x) (htask x).2
  · have h1 : (xs.filterMap fun y => (note y).outcome? w) = [] :=
      List.filterMap_eq_nil_iff.mpr fun y hy => (hnone y fun he =>
        hmem (List.mem_map.mpr ⟨y, hy, he⟩)).1
    have h2 : (xs.filterMap fun y => (task y).job? w) = [] :=
      List.filterMap_eq_nil_iff.mpr fun y hy => (hnone y fun he =>
        hmem (List.mem_map.mpr ⟨y, hy, he⟩)).2
    rw [hcalls, hout, hjob, h1, h2, hp, mark_of_not_mem hmem]
    simpa using hlife

/-- A task about `w` that is about to run: the waiter's only one, not yet reported. -/
theorem Lives.running (h : Lives s) {i w : Nat} {t : Task} (ht : s.tasks[i]? = some t)
    (hw : t.waiter? = some w) :
    ∃ id o, s.pending w = some ⟨id, true, true⟩ ∧ outcomes w s = [o] ∧ calls w s = [] ∧
      t.reports = some o ∧ (s.tasks.eraseIdx i).filterMap (Task.job? w) = [] ∧
      ∀ x, x ≠ w → (s.tasks.eraseIdx i).filterMap (Task.job? x) = jobs x s := by
  have hjob : t.job? w = some t := by simp [Task.job?, hw]
  have hmem : t ∈ jobs w s := List.mem_filterMap.mpr ⟨t, List.mem_of_getElem? ht, hjob⟩
  have hother : ∀ x, x ≠ w → (s.tasks.eraseIdx i).filterMap (Task.job? x) = jobs x s :=
    fun x hx => filterMap_eraseIdx_none ht (by simp [Task.job?, hw, Ne.symm hx])
  obtain ⟨id, o, hp, ho, hc, hr, hj⟩ := (h w).of_job hmem
  exact ⟨id, o, hp, ho, hc, hr, (filterMap_eraseIdx_some ht hjob hj).2, hother⟩

end Moves

/-! ## Every operation moves requests along -/

section Operations

variable {s : State}

theorem mark_update (heap : Heap) (w : Nat) (id : Int) :
    mark [w] (Function.update heap w (some ⟨id, false, true⟩)) =
      Function.update heap w (some ⟨id, true, true⟩) := by
  funext x
  by_cases hx : x = w
  · subst hx; simp [mark]
  · simp [mark, hx]

theorem Lives.promoteSite (h : Lives s) (hi : Inv s) (id : Int) {site : SiteState}
    (hq : site.queue = (s.entry id).queue) : Lives (s.promoteSite id site).2 := by
  have hspec := promote_spec site.maximumActive (hq ▸ hi.sorted id) site.active s.pending
    (hq ▸ hi.queued id)
  have hnd : site.queue.Nodup := hq ▸ (hi.sorted id).imp Nat.ne_of_lt
  rw [← hspec.split] at hnd
  refine h.settle _ Prod.fst (List.nodup_append.mp hnd).1 ?_ (fun p => .post p.1 .granted)
    (fun p => .decided id p.1 (.result .granted) p.2) (.result .granted) (fun _ => ⟨rfl, rfl⟩)
    (fun p => ⟨id, p.2, rfl⟩) hspec.heap rfl rfl
  intro x hx
  refine ⟨id, hi.queued id _ ?_⟩
  rw [← hq, ← hspec.split]
  exact List.mem_append_left _ (List.mem_map_of_mem hx)

theorem Lives.accept (h : Lives s) (id : Int) (site : SiteState) {w : Nat}
    (hw : s.pending w = none) : Lives (s.accept id site w) := by
  have hq : Lives { s with
      pending := Function.update s.pending w (some ⟨id, false, true⟩) } := h.arrive hw rfl rfl rfl
  unfold State.accept
  split
  · exact hq.settle [(w, site.queue)] Prod.fst (by simp) (by simp)
      (fun p => .post p.1 .granted) (fun p => .decided id p.1 (.result .granted) p.2)
      (.result .granted) (fun _ => ⟨rfl, rfl⟩) (fun p => ⟨id, p.2, rfl⟩)
      (mark_update s.pending w id).symm rfl rfl
  split
  · exact hq.settle [w] (fun x => x) (by simp) (by simp) (fun x => .post x .queueFull)
      (fun x => .decided id x (.result .queueFull) site.queue) (.result .queueFull)
      (fun _ => ⟨rfl, rfl⟩) (fun _ => ⟨id, site.queue, rfl⟩) (mark_update s.pending w id).symm rfl rfl
  · exact hq.congr rfl (fun _ => rfl) (fun _ => rfl) (fun _ => rfl)

theorem Lives.arriving (h : Lives s) (id : Int) : Lives (s.arrive id) := by
  refine h.congr arrive_pending ?_ ?_ ?_ <;> intro w <;>
    simp only [jobs, outcomes, calls, State.arrive, State.create] <;> split <;> rfl

/-- The waiter `w` leaves the queue of `id`, with one task to report the outcome `o`. -/
theorem Lives.one (h : Lives s) {w : Nat} {id : Int} (hw : s.pending w = some ⟨id, false, true⟩)
    {s' : State} {t : Task} {o : Outcome} {q : List Nat} (htw : t.waiter? = some w)
    (hto : t.reports = some o) (hp : s'.pending = mark [w] s.pending)
    (ht : s'.tasks = s.tasks ++ [t]) (htr : s'.trace = .decided id w o q :: s.trace) : Lives s' :=
  h.settle [()] (fun _ => w) (by simp) (fun _ _ => ⟨id, hw⟩) (fun _ => t)
    (fun _ => .decided id w o q) o (fun _ => ⟨htw, hto⟩) (fun _ => ⟨id, q, rfl⟩) hp ht htr

theorem Lives.release (h : Lives s) (hi : Inv s) (id : Int) (ho : HandOff) :
    Lives (release s id ho) := by
  rcases release_eq hi id ho with ⟨_, he⟩ | ⟨site, _, _, he⟩ | ⟨site, w, queue, hl, _, hq, he⟩
  · rw [he]; exact h
  · rw [he]; exact h.congr rfl (fun _ => rfl) (fun _ => rfl) (fun _ => rfl)
  · rw [he]
    have hw := hi.queued id w (by rw [entry_of_lookup hl, hq]; simp)
    cases ho with
    | posted => exact h.one hw (t := .post w .granted) rfl rfl rfl rfl rfl
    | called => exact h.one hw (t := .invoke w .granted) rfl rfl rfl rfl rfl
    | noPermit => exact h.one hw (t := .refuse w id (some s.epoch)) rfl rfl rfl rfl rfl
    | noControlBlock => exact h.one hw (t := .unwind w id s.epoch) rfl rfl rfl rfl rfl

theorem Lives.clear (h : Lives s) (hi : Inv s) : Lives (clear s) := by
  refine h.settle s.queuedWaiters Prod.snd hi.queuedWaiters_nodup
    (fun x hx => ⟨x.1, hi.queued x.1 x.2 (mem_queuedWaiters.mp hx)⟩) (fun x => .drop x.2)
    (fun x => .decided x.1 x.2 .withdrawn []) .withdrawn (fun _ => ⟨rfl, rfl⟩)
    (fun x => ⟨x.1, [], rfl⟩) ?_ ?_ ?_ <;> simp only [Limiter.clear, hi.claimAll_eq]

/-- A task about `w` leads to another one with the same report. -/
theorem Lives.replace (h : Lives s) {i w : Nat} {t t' : Task} (ht : s.tasks[i]? = some t)
    (hw : t.waiter? = some w) (hw' : t'.waiter? = some w) (hr : t'.reports = t.reports) :
    Lives { s with tasks := s.tasks.eraseIdx i ++ [t'] } := by
  obtain ⟨id, o, hp, hout, hcalls, hrep, hnil, hother⟩ := h.running ht hw
  intro x
  simp only [jobs, List.filterMap_append]
  by_cases hx : x = w
  · subst hx
    rw [hnil, hp]
    show Life _ (outcomes x s) (calls x s) _
    rw [hout, hcalls]
    simpa [Task.job?, hw'] using Life.due id o t' (hr.trans hrep)
  · rw [hother x hx]
    show Life _ (outcomes x s) (calls x s) _
    simpa [Task.job?, hw', Ne.symm hx] using h x

/-- Running the task `t` about `w`: what it does to `w`'s handler, calls and tasks. -/
theorem Lives.perform (h : Lives s) (hi : Inv s) {i w : Nat} {t : Task}
    (ht : s.tasks[i]? = some t) (hw : t.waiter? = some w) (ho : HandOff) :
    Lives (perform { s with tasks := s.tasks.eraseIdx i } ho t) := by
  obtain ⟨id, o, hp, hout, hcalls, hrep, hnil, hother⟩ := h.running ht hw
  -- the handler of a waiter whose outcome is still to be reported is set
  have hinvoke : ∀ r s', t.reports = some (.result r) →
      s'.pending = clearHandler s.pending w → s'.trace = .called w r :: s.trace →
      (∀ x, jobs x s' = (s.tasks.eraseIdx i).filterMap (Task.job? x)) → Lives s' := by
    intro r s' hr hp' htr hj x
    rw [hr, Option.some.injEq] at hrep
    simp only [outcomes, calls] at hout hcalls
    simp only [outcomes, calls, hj, hp', clearHandler, htr]
    by_cases hx : x = w
    · subst hx
      rw [hnil, Function.update_self, hp, List.filterMap_cons_none rfl, hout, ← hrep,
        List.filterMap_cons_some (show Note.call? x (.called x r) = some r by simp [Note.call?]),
        hcalls]
      exact .called id r
    · rw [hother x hx, Function.update_of_ne hx, List.filterMap_cons_none rfl,
        List.filterMap_cons_none (by simp [Note.call?, Ne.symm hx])]
      exact h x
  cases t with
  | post w' r =>
    cases hw
    exact h.replace ht rfl rfl rfl
  | invoke w' r =>
    cases hw
    refine hinvoke r _ rfl rfl ?_ fun _ => rfl
    simp [Limiter.perform, invoke, hp]
  | drop w' =>
    cases hw
    cases hrep
    intro x
    simp only [Limiter.perform, jobs, clearHandler]
    by_cases hx : x = w
    · subst hx
      rw [hnil, Function.update_self, hp]
      show Life _ (outcomes x s) (calls x s) _
      rw [hout, hcalls]
      exact .dropped id
    · rw [hother x hx, Function.update_of_ne hx]; exact h x
  | refuse w' id' slot =>
    cases hw
    refine hinvoke .queueFull _ rfl rfl ?_ fun x => ?_
    · simp [Limiter.perform, invoke, hp]
    · simp [Limiter.perform, jobs, Task.job?, Task.waiter?]
  | release id' slot => cases hw
  | unwind w' id' epoch =>
    cases hw
    have hj : Lives { s with tasks := s.tasks.eraseIdx i ++ [.refuse w id' none] } :=
      h.replace ht rfl rfl rfl
    exact hj.release ((hi.eraseTask i).refusing ⟨_, hp, rfl⟩ id' none) id' ho

end Operations

theorem lives_step {s s' : State} {e : Event} (hi : Inv s) (h : Lives s)
    (hs : step s e = some s') : Lives s' := by
  cases e with
  | asyncAcquire id siteName backend m n q =>
    cases hs
    rw [asyncAcquire_eq]
    refine ((h.arriving id).promoteSite (hi.arrive id) id (refresh_queue siteName backend m n q)).accept
      id _ ?_
    have hspec := promote_spec m (hi.sorted id)
      (refresh (s.sites.lookup id) siteName backend m n q).active s.pending (hi.queued id)
    simp only [State.promoteSite, State.grantAll, arrive_pending]
    rw [show (refresh (s.sites.lookup id) siteName backend m n q).queue = (s.entry id).queue from rfl,
      show (refresh (s.sites.lookup id) siteName backend m n q).maximumActive = m from rfl,
      hspec.heap, mark, hi.fresh _ (Nat.le_refl _)]
    split <;> rfl
  | destroyPermit i ho =>
    simp only [step] at hs
    split at hs <;> cases hs
    exact Lives.release (s := { s with permits := s.permits.eraseIdx i })
      (h.congr rfl (fun _ => rfl) (fun _ => rfl) (fun _ => rfl)) (hi.erasePermit i) _ ho
  | updateLimits id m n =>
    cases hs
    unfold updateLimits
    split
    · exact h
    · rename_i site hl; exact h.promoteSite hi id (by simp [entry_of_lookup hl])
  | retainSites ids => cases hs; exact h.congr rfl (fun _ => rfl) (fun _ => rfl) (fun _ => rfl)
  | cancel w =>
    simp only [step] at hs
    split at hs <;> cases hs
    unfold cancelPending
    split
    · exact h
    rename_i site hl
    split
    · rename_i hw
      have hp := hi.queued _ w (entry_of_lookup hl ▸ hw)
      rw [claim_eq hp]
      exact h.one hp (t := .drop w) rfl rfl rfl rfl rfl
    · exact h
  | timeout w =>
    simp only [step] at hs
    split at hs <;> cases hs
    unfold timeoutPending
    split
    · exact h
    rename_i site hl
    split
    · rename_i hw
      have hp := hi.queued _ w (entry_of_lookup hl ▸ hw)
      rw [claim_eq hp]
      exact h.one hp (t := .post w .queueTimeout) rfl rfl rfl rfl rfl
    · exact h
  | clear => cases hs; exact h.clear hi
  | run i ho =>
    simp only [step] at hs
    split at hs
    · rename_i t ht
      cases hs
      cases hw : t.waiter? with
      | some w => exact h.perform hi ht hw ho
      | none =>
        cases t with
        | release id slot =>
          refine Lives.release (s := { s with tasks := s.tasks.eraseIdx i })
            (h.congr rfl (fun w => ?_) (fun _ => rfl) (fun _ => rfl)) ?_ id ho
          · exact filterMap_eraseIdx_none ht rfl
          · exact hi.eraseTask i
        | _ => cases hw
    · cases hs

theorem lives_run {es : List Event} {s : State} (h : run step State.init es = some s) : Lives s :=
  (run_inv (P := fun s => Inv s ∧ Lives s)
    (fun _ _ _ hi hs => ⟨inv_step hi.1 hs, lives_step hi.1 hi.2 hs⟩)
    ⟨inv_init, fun _ => .absent⟩ h).2

/-! ## The counters of an entry -/

/-- The outcomes of site `id` with a result in `p`, since its entry was created. -/
def tally (id : Int) (p : BackendAcquireResult → Bool) : List Note → Nat
  | [] => 0
  | .created id' :: trace => if id' = id then 0 else tally id p trace
  | .decided id' _ (.result r) _ :: trace =>
    (if id' = id ∧ p r = true then 1 else 0) + tally id p trace
  | .decided _ _ .withdrawn _ :: trace => tally id p trace
  | .called _ _ :: trace => tally id p trace

def BackendAcquireResult.isRejection (r : BackendAcquireResult) : Bool :=
  r = .queueFull ∨ r = .queueTimeout

def BackendAcquireResult.isTimeout (r : BackendAcquireResult) : Bool := r = .queueTimeout

/-- A note that no counter counts. -/
def Note.quiet : Note → Bool
  | .created _ => false
  | .decided _ _ (.result r) _ => r = .granted
  | .decided _ _ .withdrawn _ => true
  | .called _ _ => true

theorem tally_quiet (id : Int) {p : BackendAcquireResult → Bool} (hp : p .granted = false)
    {new : List Note} (hn : ∀ n ∈ new, n.quiet = true) (trace : List Note) :
    tally id p (new ++ trace) = tally id p trace := by
  induction new with
  | nil => rfl
  | cons n new ih =>
    have ih := ih fun x hx => hn x (by simp [hx])
    have hq := hn n (by simp)
    cases n with
    | created id' => cases hq
    | decided id' w o q =>
      cases o with
      | result r =>
        have hr : r = .granted := by simpa [Note.quiet] using hq
        simp [tally, ih, hr, hp]
      | withdrawn => simpa [tally] using ih
    | called w r => simpa [tally] using ih

structure Counts (id : Int) (site : SiteState) (trace : List Note) : Prop where
  rejected : site.rejected = tally id BackendAcquireResult.isRejection trace
  timeouts : site.timeouts = tally id BackendAcquireResult.isTimeout trace

/-- `rejected` and `timeouts` are what was recorded since the entry was created. -/
def Counted (s : State) : Prop :=
  ∀ id site, s.sites.lookup id = some site → Counts id site s.trace

/-- The counters of every entry are those it had in `s`. -/
def KeepsCounters (s s' : State) : Prop :=
  ∀ id site', s'.sites.lookup id = some site' → ∃ site, s.sites.lookup id = some site ∧
    site'.rejected = site.rejected ∧ site'.timeouts = site.timeouts

theorem Counted.keep {s s' : State} (h : Counted s) {l : List Note}
    (htr : s'.trace = l ++ s.trace) (hn : ∀ n ∈ l, n.quiet = true)
    (hk : KeepsCounters s s') : Counted s' := by
  intro id site' hl'
  obtain ⟨site, hl, hr, ht⟩ := hk id site' hl'
  obtain ⟨h1, h2⟩ := h id site hl
  rw [htr]
  exact ⟨by rw [hr, h1, tally_quiet id rfl hn], by rw [ht, h2, tally_quiet id rfl hn]⟩

theorem keepsCounters_refl {s s' : State} (h : s'.sites = s.sites) : KeepsCounters s s' :=
  fun _ site' hl => ⟨site', h ▸ hl, rfl, rfl⟩

theorem keepsCounters_set {s s' : State} {id : Int} {o : Option SiteState} {site : SiteState}
    (h : s'.sites = s.sites.set id o) (hl : s.sites.lookup id = some site)
    (ho : ∀ site', o = some site' →
      site'.rejected = site.rejected ∧ site'.timeouts = site.timeouts) : KeepsCounters s s' := by
  intro id' site' hl'
  rw [h, Table.lookup_set] at hl'
  split at hl'
  · rename_i hid; subst hid; exact ⟨site, hl, ho site' hl'⟩
  · exact ⟨site', hl', rfl, rfl⟩

/-- A rejection is counted when it is recorded. -/
theorem Counted.reject {s s' : State} (h : Counted s) {id : Int} {site site' : SiteState} {w : Nat}
    {r : BackendAcquireResult} {q : List Nat} (hl : s.sites.lookup id = some site)
    (hs : s'.sites = s.sites.set id site'.reclaim ∨ s'.sites = s.sites.set id (some site'))
    (htr : s'.trace = .decided id w (.result r) q :: s.trace) (hr : r.isRejection = true)
    (hrej : site'.rejected = site.rejected + 1)
    (htime : site'.timeouts = site.timeouts + if r.isTimeout then 1 else 0) : Counted s' := by
  have hlook : ∀ id' x, s'.sites.lookup id' = some x →
      (id' = id ∧ x = site') ∨ (id' ≠ id ∧ s.sites.lookup id' = some x) := by
    intro id' x hx
    by_cases hid : id' = id
    · subst hid
      rcases hs with hs | hs <;> rw [hs, Table.lookup_set_self] at hx
      · exact .inl ⟨rfl, eq_of_reclaim hx⟩
      · exact .inl ⟨rfl, (Option.some.inj hx).symm⟩
    · rcases hs with hs | hs <;> rw [hs, Table.lookup_set_ne hid] at hx <;> exact .inr ⟨hid, hx⟩
  intro id' x hx
  rw [htr]
  rcases hlook id' x hx with ⟨rfl, rfl⟩ | ⟨hid, hx⟩
  · obtain ⟨h1, h2⟩ := h id' site hl
    constructor
    · rw [hrej, h1]; simp [tally, hr]; omega
    · rw [htime, h2]; simp [tally]; omega
  · obtain ⟨h1, h2⟩ := h id' x hx
    constructor
    · rw [h1]; simp [tally, Ne.symm hid]
    · rw [h2]; simp [tally, Ne.symm hid]

section Counters

variable {s : State}

theorem granted_quiet (id : Int) (ps : List (Nat × List Nat)) :
    ∀ n ∈ (ps.map fun p => Note.decided id p.1 (.result .granted) p.2).reverse, n.quiet = true := by
  intro n hn
  obtain ⟨p, -, rfl⟩ := List.mem_map.mp (List.mem_reverse.mp hn)
  rfl

theorem lookup_arrive_self (s : State) (id : Int) :
    (s.arrive id).sites.lookup id = some (s.entry id) := by
  simp only [State.arrive, State.create, State.entry]
  split
  · rename_i site hl; simp [hl]
  · rename_i hl; simp [hl]

theorem Counted.arrive (h : Counted s) (id : Int) : Counted (s.arrive id) := by
  intro id' site hl'
  simp only [State.arrive, State.create] at hl' ⊢
  split at hl'
  · exact h id' site hl'
  · simp only [Table.lookup_set] at hl'
    split at hl'
    · rename_i hid
      cases hl'
      exact ⟨by simp [tally, hid], by simp [tally, hid]⟩
    · rename_i hid
      obtain ⟨h1, h2⟩ := h id' site hl'
      exact ⟨by simp [tally, Ne.symm hid, h1], by simp [tally, Ne.symm hid, h2]⟩

theorem Counted.promoteSite (h : Counted s) {id : Int} {site old : SiteState}
    (hl : s.sites.lookup id = some old) (hr : site.rejected = old.rejected)
    (ht : site.timeouts = old.timeouts) : Counted (s.promoteSite id site).2 :=
  h.keep rfl (granted_quiet id _) (keepsCounters_set (o := some (s.promoteSite id site).1) rfl hl
    fun _ he => by cases he; exact ⟨hr, ht⟩)

theorem Counted.accept (h : Counted s) {id : Int} {site : SiteState}
    (hl : s.sites.lookup id = some site) (w : Nat) : Counted (s.accept id site w) := by
  unfold State.accept
  split
  · exact h.keep rfl (granted_quiet id _) (keepsCounters_set
      (o := some { site with active := site.active + 1 }) rfl hl fun _ he => by cases he; exact ⟨rfl, rfl⟩)
  split
  · exact h.reject (r := .queueFull) hl (.inr rfl) rfl rfl rfl rfl
  · exact h.keep (l := []) rfl (by simp) (keepsCounters_set
      (o := some { site with queue := site.queue ++ [w] }) rfl hl fun _ he => by cases he; exact ⟨rfl, rfl⟩)

theorem Counted.release (h : Counted s) (hi : Inv s) (id : Int) {ho : HandOff}
    (hh : ho.allocated = true) : Counted (release s id ho) := by
  rcases release_eq hi id ho with ⟨_, he⟩ | ⟨site, hl, _, he⟩ | ⟨site, w, queue, hl, _, hq, he⟩
  · rw [he]; exact h
  · rw [he]
    refine h.keep (l := []) rfl (by simp) (keepsCounters_set (o := SiteState.reclaim _) rfl hl ?_)
    intro site' hr; rw [eq_of_reclaim hr]; exact ⟨rfl, rfl⟩
  · rw [he]
    have hk : ∀ t : State, t.sites = s.sites.set id (some { site with queue := queue }) →
        t.trace = [.decided id w (.result .granted) queue] ++ s.trace → Counted t :=
      fun t ht htr => h.keep htr (by simp [Note.quiet]) (keepsCounters_set ht hl
        fun _ he => by cases he; exact ⟨rfl, rfl⟩)
    cases ho with
    | posted => exact hk _ rfl rfl
    | called => exact hk _ rfl rfl
    | noPermit => cases hh
    | noControlBlock => cases hh

end Counters

theorem counted_step {s s' : State} {e : Event} (hi : Inv s) (h : Counted s)
    (he : e.permitAllocated) (hs : step s e = some s') : Counted s' := by
  cases e with
  | asyncAcquire id siteName backend m n q =>
    cases hs
    rw [asyncAcquire_eq]
    have hp : Counted ((s.arrive id).promoteSite id
        (refresh (s.sites.lookup id) siteName backend m n q)).2 :=
      (h.arrive id).promoteSite (lookup_arrive_self s id) rfl rfl
    exact hp.accept (Table.lookup_set_self _ _ _) _
  | destroyPermit i ho =>
    simp only [step] at hs
    split at hs <;> cases hs
    exact Counted.release (s := { s with permits := s.permits.eraseIdx i }) h
      (hi.erasePermit i) _ he
  | updateLimits id m n =>
    cases hs
    unfold updateLimits
    split
    · exact h
    · rename_i site hl; exact h.promoteSite hl rfl rfl
  | retainSites ids =>
    cases hs
    refine h.keep (l := []) rfl (by simp) fun id site' hl' => ?_
    rw [show (retainSites s ids).sites.lookup id = _ from Table.lookup_mapFilter _ _ _,
      Option.bind_eq_some_iff] at hl'
    obtain ⟨site, hl, hl'⟩ := hl'
    refine ⟨site, hl, ?_⟩
    split at hl'
    · cases hl'; exact ⟨rfl, rfl⟩
    · rw [eq_of_reclaim hl']; exact ⟨rfl, rfl⟩
  | cancel w =>
    simp only [step] at hs
    split at hs <;> cases hs
    unfold cancelPending
    split
    · exact h
    rename_i site hl
    split
    · split
      · exact h
      · refine h.keep (l := [_]) rfl (by simp [Note.quiet])
          (keepsCounters_set (o := SiteState.reclaim _) rfl hl ?_)
        intro site' hr; rw [eq_of_reclaim hr]; exact ⟨rfl, rfl⟩
    · exact h
  | timeout w =>
    simp only [step] at hs
    split at hs <;> cases hs
    unfold timeoutPending
    split
    · exact h
    rename_i site hl
    split
    · split
      · exact h
      · exact h.reject (r := .queueTimeout) hl (.inl rfl) rfl rfl rfl rfl
    · exact h
  | clear => cases hs; intro id site hl; cases hl
  | run i ho =>
    simp only [step] at hs
    split at hs
    · rename_i t ht
      cases hs
      have hinvoke : ∀ (t : State) (w : Nat) (r : BackendAcquireResult), t.sites = s.sites →
          t.trace = s.trace → Counted (invoke t w r) := by
        intro t w r hsites htr
        have hk : KeepsCounters s (invoke t w r) := keepsCounters_refl hsites
        by_cases hc : (t.pending w).any (·.handler) = true
        · exact h.keep (l := [.called w r]) (by simp [invoke, hc, htr]) (by simp [Note.quiet]) hk
        · exact h.keep (l := []) (by simp [invoke, hc, htr]) (by simp) hk
      cases t with
      | post w r => exact h
      | invoke w r => exact hinvoke _ w r rfl rfl
      | drop w => exact h
      | refuse w id slot => exact hinvoke { s with tasks := s.tasks.eraseIdx i } w .queueFull rfl rfl
      | release id slot =>
        exact Counted.release (s := { s with tasks := s.tasks.eraseIdx i }) h
          (hi.eraseTask i) id he
      | unwind w id epoch =>
        exact Counted.release
          (s := { s with tasks := s.tasks.eraseIdx i ++ [.refuse w id none] }) h
          ((hi.eraseTask i).refusing (hi.claimed _ (List.mem_of_getElem? ht) w rfl) id none) id he
    · cases hs

theorem counted_run {es : List Event} {s : State} (hes : ∀ e ∈ es, e.permitAllocated)
    (h : run step State.init es = some s) : Counted s :=
  (run_inv_along (P := fun s => Inv s ∧ Counted s) (G := fun _ e => e.permitAllocated)
    (fun _ _ _ hi he hs => ⟨inv_step hi.1 hs, counted_step hi.1 hi.2 he hs⟩)
    ⟨inv_init, fun _ _ hl => by cases hl⟩ (along_of_forall hes) h).2

/-- In every reachable state a request has at most one outcome, and exactly one once it is no
longer queued; its handler is called at most once, with the result that is its outcome, so never
after it was withdrawn, and an outcome that was not reported yet is on its way. While `release`
can allocate every permit and its `shared_ptr`, `rejected` and `timeouts` of an entry are the
outcomes recorded since it was created. The allocations outside `release` are assumed to succeed,
as everywhere in this model. -/
theorem one_outcome {es : List Event} {s : State} (h : run step State.init es = some s) :
    (∀ w, (outcomes w s).length ≤ 1) ∧
    (∀ w p, s.pending w = some p → w ∉ (s.entry p.siteId).queue → ∃ o, outcomes w s = [o]) ∧
    (∀ w, (calls w s).length ≤ 1 ∧ ∀ r ∈ calls w s, outcomes w s = [.result r]) ∧
    (∀ w r, outcomes w s = [.result r] → calls w s = [r] ∨
      ∃ t ∈ s.tasks, t.waiter? = some w ∧ t.reports = some (.result r)) ∧
    ((∀ e ∈ es, e.permitAllocated) → ∀ id site, s.sites.lookup id = some site →
      site.rejected = tally id BackendAcquireResult.isRejection s.trace ∧
      site.timeouts = tally id BackendAcquireResult.isTimeout s.trace) := by
  have hi := inv_run h
  have hl := lives_run h
  refine ⟨fun w => ?_, fun w p hp hq => ?_, fun w => ?_, fun w r ho => ?_,
    fun hes id site hs => ?_⟩
  · have hw := hl w
    generalize s.pending w = p, outcomes w s = os, calls w s = cs, jobs w s = js at hw
    cases hw <;> simp
  · have hw := hl w
    rw [hp] at hw
    have hc : p.completed = true := by
      by_contra hc; exact hq (hi.waiting w p hp (by simpa using hc))
    generalize outcomes w s = os, calls w s = cs, jobs w s = js at hw
    cases hw with
    | waiting id => cases hc
    | due id o t ht => exact ⟨o, rfl⟩
    | called id r => exact ⟨_, rfl⟩
    | dropped id => exact ⟨_, rfl⟩
  · have hw := hl w
    generalize s.pending w = p, outcomes w s = os, calls w s = cs, jobs w s = js at hw
    cases hw <;> simp
  · have hw := hl w
    have hj : ∀ t ∈ jobs w s, t ∈ s.tasks ∧ t.waiter? = some w := by
      intro t ht
      obtain ⟨t', hm, hj⟩ := List.mem_filterMap.mp ht
      simp only [Task.job?, Option.ite_none_right_eq_some, Option.some.injEq] at hj
      exact ⟨hj.2 ▸ hm, hj.2 ▸ hj.1⟩
    generalize s.pending w = p, outcomes w s = os, calls w s = cs, jobs w s = js at hw ho hj
    cases hw with
    | absent => cases ho
    | waiting id => cases ho
    | due id o t ht => cases ho; exact .inr ⟨t, (hj t (by simp)).1, (hj t (by simp)).2, ht⟩
    | called id r' => cases ho; exact .inl rfl
    | dropped id => cases ho
  · exact ⟨(counted_run hes h id site hs).rejected, (counted_run hes h id site hs).timeouts⟩

/-- One request is granted, one times out and one is rejected. -/
def rejectedRun : List Event :=
  [.asyncAcquire 7 "shop" "10.0.0.1:80" 1 1 30, .asyncAcquire 7 "shop" "10.0.0.1:80" 1 1 30,
    .asyncAcquire 7 "shop" "10.0.0.1:80" 1 1 30, .timeout 2, .run 0 .posted, .run 2 .posted]

theorem one_outcome_rejectedRun :
    ∃ s, run step State.init rejectedRun = some s ∧ outcomes 1 s = [.result .granted] ∧
      calls 1 s = [.granted] ∧
      ∀ site, s.sites.lookup 7 = some site → site.rejected = 2 ∧ site.timeouts = 1 := by
  have hrun : (run step State.init rejectedRun).map (fun s => (outcomes 1 s, calls 1 s,
      tally 7 BackendAcquireResult.isRejection s.trace, tally 7 BackendAcquireResult.isTimeout s.trace)) =
      some ([.result .granted], [.granted], 2, 1) := by decide
  obtain ⟨s, hs, hq⟩ := Option.map_eq_some_iff.mp hrun
  simp only [Prod.mk.injEq] at hq
  refine ⟨s, hs, hq.1, hq.2.1, fun site hl => ?_⟩
  have hc := (one_outcome hs).2.2.2.2 (by decide) 7 site hl
  rw [hq.2.2.1, hq.2.2.2] at hc
  exact hc

/-- A permit that cannot be allocated ends a request with `queue_full`, which no counter counts. -/
theorem refusal_not_counted :
    ¬ ∀ (es : List Event) (s : State), run step State.init es = some s →
      ∀ id site, s.sites.lookup id = some site →
        site.rejected = tally id BackendAcquireResult.isRejection s.trace := by
  intro h
  have hrun : (run step State.init [.asyncAcquire 7 "shop" "10.0.0.1:80" 1 1 30,
      .asyncAcquire 7 "shop" "10.0.0.1:80" 1 1 30, .destroyPermit 0 .noPermit]).map (fun s =>
        ((s.sites.lookup 7).map (·.rejected), tally 7 BackendAcquireResult.isRejection s.trace)) =
      some (some 0, 1) := by decide
  obtain ⟨s, hs, hq⟩ := Option.map_eq_some_iff.mp hrun
  simp only [Prod.mk.injEq, Option.map_eq_some_iff] at hq
  obtain ⟨⟨site, hl, hr⟩, ht⟩ := hq
  have := h _ s hs 7 site hl
  omega

end Limiter
end WebServer
