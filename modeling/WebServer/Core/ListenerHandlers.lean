import WebServer.Core.Listeners
import WebServer.Network.Listener

/-!
# WebServer.Core.ListenerHandlers

`Network.Listener` follows a listener call by call, and the server across reloads (`Core.Listening`)
only what reloads and other listeners can see of it. This module says that the first refines the
second.

* `Shows`: what is seen of a listener between two of its handlers.
* `Dispatches`: the calls that `Core.Listeners` assumes to succeed do.
* `handler_runs`: every handler of a listener is a run of the server's steps that changes nothing but
  the listener's own `Core.Party`.
-/

namespace WebServer
namespace Network
namespace Listener

open Act WebServer.Core

structure Shows (q : Party) (l : Listener) : Prop where
  retired : q.retired = l.retired
  onDrained : q.onDrained = l.onDrained
  sessions : q.sessions = l.sessions
  accepting : q.accepting = false
  notified : q.posted + q.erased = l.drained
  created : q.created = l.made
  fresh : ∀ session ∈ q.sessions, session < q.created

/-- Other threads can dispatch, `on_drained_` can post, and `recover_accept_noexcept` succeeds. -/
structure Dispatches (io : Io) : Prop where
  other : ∀ n c stopping, io.other n c ≠ .emergency stopping
  posts : ∀ n, io.fails n .onDrained = false
  recovers : ∀ c, io.fails 2 c = false

def Event.Dispatches : Event → Prop
  | .accept io _ | .retry io _ | .replaced io _ | .closed io _ | .retire io => Listener.Dispatches io
  | .stop => True
  | .other o => ∀ stopping, o ≠ .emergency stopping

/-- The revision that a handler reads. -/
def Event.revision? : Event → Option ℕ
  | .accept io _ => some io.revision
  | _ => none

/-! ## What a handler shows -/

section Handlers

variable {q : Party} {l : Listener} {io : Io} {n : ℕ} {E : Listener → Prop}

theorem Shows.interrupted (h : Shows q l) {o : Other} (ho : ∀ stopping, o ≠ .emergency stopping) :
    Shows q (l.interrupted o) := by
  cases o with
  | nothing => exact h
  | stop => exact ⟨h.retired, h.onDrained, h.sessions, h.accepting, h.notified, h.created, h.fresh⟩
  | emergency stopping => exact absurd rfl (ho stopping)

theorem shows_meanwhile (hio : Dispatches io) (c : Call) :
    Spec (Shows q) (meanwhile io n c) (fun _ => Shows q) E :=
  spec_modify fun _ h => h.interrupted (hio.other n c)

theorem shows_call (hio : Dispatches io) {c : Call}
    (hE : io.fails n c = true → ∀ l, Shows q l → E l) :
    Spec (Shows q) (call io n c) (fun _ => Shows q) E := by
  refine spec_bind (shows_meanwhile hio c) fun _ => ?_
  intro l h
  cases hfails : io.fails n c with
  | false => exact h
  | true => exact hE hfails l h

/-- The listener has nobody to notify. -/
def Settled (q : Party) : Prop := q.onDrained = true → q.sessions ≠ []

theorem Settled.notifyIfDrained (hq : Settled q) : q.notifyIfDrained = q := by
  unfold Party.notifyIfDrained
  rw [if_pos]
  cases hset : q.onDrained with
  | false => simp
  | true => simp [hq hset]

theorem shows_notifyIfDrained (hq : Settled q) :
    Spec (Shows q) (Listener.notifyIfDrained io n) (fun _ => Shows q) E := by
  refine spec_notifyIfDrained fun l h => ?_
  unfold Waiting
  rw [← h.onDrained, ← h.sessions]
  exact hq

theorem shows_acceptNext (hio : Dispatches io) (hq : Settled q)
    (hE : ∀ c, io.fails n c = true → ∀ l, Shows q l → E l) :
    Spec (Shows q) (acceptNext io n) (fun _ => Shows q) E := by
  refine spec_read fun l h => ?_
  apply spec_ite
  · intro _
    refine spec_bind (spec_at (shows_call hio (hE _)) h) fun _ => ?_
    exact spec_modify fun l h =>
      ⟨h.retired, h.onDrained, h.sessions, h.accepting, h.notified, h.created, h.fresh⟩
  · intro _
    exact spec_at (shows_notifyIfDrained hq) h

theorem shows_scheduleAcceptRetry (hio : Dispatches io) (hq : Settled q)
    (hE : ∀ c, io.fails n c = true → ∀ l, Shows q l → E l) :
    Spec (Shows q) (scheduleAcceptRetry io n) (fun _ => Shows q) E := by
  refine spec_read fun l h => ?_
  apply spec_ite
  · intro _
    refine spec_bind (spec_at (shows_call hio (hE _)) h) fun _ => ?_
    refine spec_bind (M := fun _ => Shows q) ?_ fun _ => ?_
    · exact spec_modify fun l h =>
        ⟨h.retired, h.onDrained, h.sessions, h.accepting, h.notified, h.created, h.fresh⟩
    · refine spec_bind (shows_call hio (hE _)) fun _ => ?_
      exact spec_modify fun l h =>
        ⟨h.retired, h.onDrained, h.sessions, h.accepting, h.notified, h.created, h.fresh⟩
  · intro _
    exact spec_at (shows_notifyIfDrained hq) h

/-- What one of these parties shows. -/
def Among (ps : Party → Prop) (l : Listener) : Prop := ∃ q, ps q ∧ Settled q ∧ Shows q l

variable {ps : Party → Prop}

theorem among_spec {α : Type} {m : EStateM Unit Listener α}
    (h : ∀ q, Settled q → Spec (Shows q) m (fun _ => Shows q) (Shows q)) :
    Spec (Among ps) m (fun _ => Among ps) (Among ps) := by
  rintro l ⟨q, hq, hsettled, hshows⟩
  have hm := h q hsettled l hshows
  cases hr : m l with
  | ok a l' => rw [hr] at hm; exact ⟨q, hq, hsettled, hm⟩
  | error e l' => rw [hr] at hm; exact ⟨q, hq, hsettled, hm⟩

/-- What becomes of a handler's exception is not seen. -/
theorem among_guarded (hio : Dispatches io) {P : Listener → Prop} {m : Program Unit}
    (hm : Spec P m (fun _ => Among ps) (Among ps)) (h : P l) :
    Among ps (after (guardedHandler io m) l) := by
  have hrecovered : ∀ l, Among ps l → Among ps (recoverAccept io l) := by
    rintro l ⟨q, hq, hsettled, hshows⟩
    have hspec := shows_scheduleAcceptRetry (E := fun _ => False) hio hsettled
      (fun c hfails => by rw [hio.recovers c] at hfails; cases hfails) l hshows
    unfold recoverAccept
    cases hr : scheduleAcceptRetry io 2 l with
    | ok u l' => rw [hr] at hspec; exact ⟨q, hq, hsettled, hspec⟩
    | error e l' => rw [hr] at hspec; exact hspec.elim
  have hspec : Spec P (guardedHandler io m) (fun _ => Among ps) fun _ => False :=
    spec_caught (spec_conseq hm (fun _ h => h) (fun _ _ h => h) hrecovered)
  have hspec := hspec l h
  unfold after
  cases hr : guardedHandler io m l with
  | ok u l' => rw [hr] at hspec; exact hspec
  | error e l' => rw [hr] at hspec; exact hspec.elim

/-! ## `on_accept` -/

/-- What may have become of the socket once the gate was open. -/
def Admitted (q : Party) : Listener → Prop := Among fun q' => ∃ a, q' = q.settle a

theorem admitted_of_shows {a : Admission} (hset : q.onDrained = false) (h : Shows (q.settle a) l) :
    Admitted q l := by
  refine ⟨q.settle a, ⟨a, rfl⟩, fun honDrained => ?_, h⟩
  have hkept : (q.settle a).onDrained = q.onDrained := by cases a <;> rfl
  rw [hkept, hset] at honDrained
  cases honDrained

/-- A session that closes before `start` returns leaves what one leaves that could not be started. -/
def Begun (q : Party) (l : Listener) : Prop :=
  Shows (q.settle .admitted) l ∨ Shows (q.settle .failed) l

theorem shows_erase (hfresh : ∀ session ∈ q.sessions, session < q.created) (h : Begun q l) :
    Shows (q.settle .failed) { l with sessions := l.sessions.erase q.created } := by
  rcases h with h | h
  · refine ⟨h.retired, h.onDrained, ?_, h.accepting, h.notified, h.created, ?_⟩
    · show q.sessions = l.sessions.erase q.created
      rw [← h.sessions]
      exact (List.erase_cons_head _ _).symm
    · exact fun session hsession => h.fresh session (List.mem_cons_of_mem _ hsession)
  · refine ⟨h.retired, h.onDrained, ?_, h.accepting, h.notified, h.created, h.fresh⟩
    show q.sessions = l.sessions.erase q.created
    rw [← h.sessions]
    exact (List.erase_of_not_mem fun hmem => Nat.lt_irrefl _ (hfresh _ hmem)).symm

theorem spec_startSession_shows (hio : Dispatches io) (hset : q.onDrained = false)
    (hfresh : ∀ session ∈ q.sessions, session < q.created) :
    Spec (Shows (q.settle .admitted)) (startSession io q.created) (fun _ => Begun q) (Begun q) := by
  have hnotify : Spec (Shows (q.settle .failed)) (Listener.notifyIfDrained io 0) (fun _ => Begun q)
      (Begun q) := by
    refine spec_conseq (shows_notifyIfDrained (E := Begun q) fun honDrained => ?_) (fun _ h => h)
      (fun _ _ h => .inr h) fun _ h => h
    rw [show (q.settle .failed).onDrained = q.onDrained from rfl, hset] at honDrained
    cases honDrained
  refine spec_bind (M := fun _ => Begun q) ?_ fun _ => ?_
  · apply spec_ite
    · intro _
      refine spec_bind (M := fun _ => Shows (q.settle .failed)) ?_ fun _ => hnotify
      exact spec_modify fun l h => shows_erase hfresh (.inl h)
    · intro _
      exact spec_pure fun _ h => .inl h
  · intro l h
    rcases h with h | h
    · exact spec_conseq (shows_call hio fun _ _ h => h) (fun _ h => h) (fun _ _ h => .inl h)
        (fun _ h => .inl h) l h
    · exact spec_conseq (shows_call hio fun _ _ h => h) (fun _ h => h) (fun _ _ h => .inr h)
        (fun _ h => .inr h) l h

theorem spec_admitSession_shows (hio : Dispatches io) (hset : q.onDrained = false) :
    Spec (Shows q) (admitSession io) (fun _ => Admitted q) (Admitted q) := by
  have hsettled : Settled q := fun honDrained => by rw [hset] at honDrained; cases honDrained
  have hrefused : ∀ l, Shows q l → Admitted q l := fun l h =>
    admitted_of_shows (a := .refused) hset h
  have hcall : ∀ c, Spec (Shows q) (call io 0 c) (fun _ => Shows q) (Admitted q) := fun c =>
    shows_call hio fun _ => hrefused
  have hidle : ∀ {m : Program Unit}, Spec (Shows q) m (fun _ => Shows q) (Admitted q) →
      Spec (Shows q) (do m; pure false) (fun _ => Admitted q) (Admitted q) := fun hm =>
    spec_bind hm fun _ => spec_pure hrefused
  refine spec_bind (hcall _) fun _ => ?_
  apply spec_ite
  · intro _
    refine spec_read fun l h => ?_
    have hfresh := h.fresh
    apply spec_ite
    · intro _
      refine spec_bind (spec_at (hcall _) h) fun _ => ?_
      refine spec_bind (hcall _) fun _ => ?_
      refine spec_bind (M := fun _ => Shows (q.settle .admitted)) ?_ fun _ => ?_
      · apply spec_modify
        intro l h
        refine ⟨h.retired, h.onDrained, ?_, h.accepting, h.notified, ?_, ?_⟩
        · rw [← h.created, ← h.sessions]
          rfl
        · rw [← h.created]
          rfl
        · intro session hsession
          rcases List.mem_cons.mp hsession with rfl | hsession
          · exact Nat.lt_succ_self _
          · exact Nat.lt_succ_of_lt (h.fresh session hsession)
      · rw [← h.created]
        refine spec_bind (M := fun _ => Begun q) ?_ fun _ => ?_
        · apply spec_guarded
          exact spec_conseq (spec_startSession_shows hio hset hfresh) (fun _ h => h)
            (fun _ _ h => h) fun l h => admitted_of_shows hset (shows_erase hfresh h)
        · exact spec_pure fun l h => h.elim (admitted_of_shows hset) (admitted_of_shows hset)
    · intro _
      exact spec_at (hidle (shows_acceptNext hio hsettled fun _ _ => hrefused)) h
  · intro _
    exact hidle (shows_scheduleAcceptRetry hio hsettled fun _ _ => hrefused)

/-- What a handler shows that runs after an accept: the gate is only passed by a listener that is neither
stopping nor retired, and only when it is open. -/
def Accepted (q : Party) (stopping : Bool) (closed : Prop) : Listener → Prop :=
  Among fun q' => q' = q ∨ stopping = false ∧ q.retired = false ∧ ¬ closed ∧ ∃ a, q' = q.settle a

theorem spec_onAccept_shows (hio : Dispatches io) (hsettled : Settled q)
    (hset : q.retired = false → q.onDrained = false) {stopping : Bool} {minimum : ℕ} :
    Spec (fun l => Shows q l ∧ l.stopping = stopping ∧ l.minimumRevision = minimum)
      (onAccept io .success) (fun _ => Accepted q stopping (io.revision < minimum))
      (Accepted q stopping (io.revision < minimum)) := by
  have hsame : ∀ l, Shows q l → Accepted q stopping (io.revision < minimum) l := fun l h =>
    ⟨q, .inl rfl, hsettled, h⟩
  refine spec_read fun l₀ ⟨h, hstopping, hminimum⟩ => ?_
  rw [if_pos rfl]
  refine spec_bind (M := fun _ => Shows q) ?_ fun _ => ?_
  · apply spec_modify
    rintro l rfl
    exact ⟨h.retired, h.onDrained, h.sessions, h.accepting, h.notified, h.created, h.fresh⟩
  apply spec_ite
  · intro _
    exact spec_conseq (shows_notifyIfDrained (E := fun _ => False) hsettled) (fun _ h => h)
      (fun _ => hsame) fun _ h => h.elim
  · intro hserving
    simp only [Bool.or_eq_true, not_or, Bool.not_eq_true] at hserving
    refine spec_bind (shows_call hio fun _ => hsame) fun _ => ?_
    apply spec_ite
    · intro _
      exact spec_conseq (shows_scheduleAcceptRetry hio hsettled fun _ _ _ h => h) (fun _ h => h)
        (fun _ => hsame) hsame
    · intro hopen
      have hretired : q.retired = false := h.retired.trans hserving.2
      have hpassed : ∀ l, Admitted q l → Accepted q stopping (io.revision < minimum) l := by
        rintro l ⟨q', ha, hq'⟩
        exact ⟨q', .inr ⟨hstopping ▸ hserving.1, hretired, hminimum ▸ hopen, ha⟩, hq'⟩
      have hretry : ∀ n, Spec (Admitted q) (scheduleAcceptRetry io n) (fun _ => Admitted q)
          (Admitted q) := fun n => among_spec fun q' hq' =>
        shows_scheduleAcceptRetry hio hq' fun _ _ _ h => h
      refine spec_conseq (Q := fun _ => Admitted q) (E := Admitted q) ?_ (fun _ h => h)
        (fun _ => hpassed) hpassed
      refine spec_bind (M := fun _ => Admitted q) ?_ fun started => ?_
      · refine spec_rescued (spec_admitSession_shows hio (hset hretired)) ?_
        refine spec_bind ?_ fun _ => spec_pure fun _ h => h
        exact spec_bind (among_spec fun _ _ => shows_meanwhile hio _) fun _ => hretry 1
      · cases started with
        | false => exact spec_pure fun _ h => h
        | true => exact spec_rescued (among_spec fun q' hq' =>
            shows_acceptNext hio hq' fun _ _ _ h => h) (hretry 1)

theorem spec_acceptFailed_shows (hio : Dispatches io) (hsettled : Settled q) (ending : Ending) :
    Spec (Shows q) (acceptFailed io ending) (fun _ => Shows q) (Shows q) := by
  refine spec_read fun l h => ?_
  apply spec_ite
  · intro _
    refine spec_bind (spec_at (shows_meanwhile hio _) h) fun _ => ?_
    exact shows_scheduleAcceptRetry hio hsettled fun _ _ _ h => h
  · intro _
    exact spec_pure fun l hl => hl ▸ h

theorem spec_onAccept_failed (hio : Dispatches io) (hsettled : Settled q) {ending : Ending}
    (hending : ending ≠ .success) :
    Spec (Shows q) (onAccept io ending) (fun _ => Shows q) (Shows q) := by
  refine spec_read fun l h => ?_
  rw [if_neg hending]
  refine spec_bind (spec_at (spec_acceptFailed_shows hio hsettled ending) h) fun _ => ?_
  exact shows_notifyIfDrained hsettled

theorem spec_onAcceptRetry_shows (hio : Dispatches io) (hsettled : Settled q) (ending : Ending) :
    Spec (Shows q) (onAcceptRetry io ending) (fun _ => Shows q) (Shows q) := by
  apply spec_ite
  · intro _
    exact shows_acceptNext hio hsettled fun _ _ _ h => h
  · intro _
    exact spec_pure fun _ h => h

/-! ## The handlers that may drain the listener -/

theorem shows_notified (hio : Dispatches io) :
    Spec (Shows q) (Listener.notifyIfDrained io n) (fun _ => Shows q.notifyIfDrained)
      fun _ => False := by
  refine spec_read fun l h => ?_
  apply spec_ite
  · intro hdrained
    refine spec_bind (M := fun _ => Shows q.notifyIfDrained) ?_ fun _ => ?_
    · apply spec_modify
      rintro l rfl
      rw [← h.retired, ← h.sessions, ← h.onDrained] at hdrained
      simp only [Bool.and_eq_true] at hdrained
      have hposted : q.notifyIfDrained = { q with onDrained := false, posted := q.posted + 1 } := by
        simp [Party.notifyIfDrained, hdrained.1.1, hdrained.1.2, hdrained.2]
      rw [hposted]
      refine ⟨h.retired, rfl, h.sessions, h.accepting, ?_, h.created, h.fresh⟩
      simp only [← h.notified]
      omega
    · exact shows_call hio fun hfails => by rw [hio.posts n] at hfails; cases hfails
  · intro hwaiting
    apply spec_pure
    rintro l rfl
    rw [← h.retired, ← h.sessions, ← h.onDrained] at hwaiting
    have hsame : q.notifyIfDrained = q := by
      unfold Party.notifyIfDrained
      rw [if_pos]
      revert hwaiting
      cases q.retired <;> cases q.sessions.isEmpty <;> cases q.onDrained <;> simp
    rw [hsame]
    exact h

theorem shows_sessionClosed (hio : Dispatches io) (session : ℕ) :
    Spec (Shows q) (sessionClosed io 0 session) (fun _ => Shows (q.closeSession session))
      fun _ => False := by
  refine spec_bind (M := fun _ => Shows { q with sessions := q.sessions.erase session }) ?_
    fun _ => shows_notified hio
  apply spec_modify
  intro l h
  refine ⟨h.retired, h.onDrained, ?_, h.accepting, h.notified, h.created, ?_⟩
  · simp only [h.sessions]
  · exact fun x hx => h.fresh x (List.mem_of_mem_erase hx)

theorem shows_retireOnExecutor (hio : Dispatches io) :
    Spec (Shows q) (retireOnExecutor io) (fun _ => Shows q.retireOnExecutor) fun _ => False := by
  refine spec_bind (M := fun _ => Shows { q with
    retiring := q.retiring - 1, retired := true, onDrained := true }) ?_ fun _ => shows_notified hio
  exact spec_modify fun l h => ⟨rfl, rfl, h.sessions, h.accepting, h.notified, h.created, h.fresh⟩

theorem shows_after {q' : Party} {m : Program Unit}
    (hm : Spec (Shows q) m (fun _ => Shows q') fun _ => False) (h : Shows q l) :
    Shows q' (after m l) := by
  have hspec := hm l h
  unfold after
  cases hr : m l with
  | ok u l' => rw [hr] at hspec; exact hspec
  | error e l' => rw [hr] at hspec; exact hspec.elim

end Handlers

/-! ## The refinement -/

section Refinement

variable {chk : Config.Checks} {s : Listening} {c : Core.Listener} {l l' : Listener} {e : Event}

/-- An accept that passes the gate, as the server takes it. -/
theorem run_accept (hc : s.server.listeners[c.id]? = some c)
    (haccepting : (s.party c.id).accepting = false) (hretired : (s.party c.id).retired = false)
    (hstopped : c.stopped = false) (hopen : ¬ s.server.runtime.revision < c.minimumRuntimeRevision)
    (a : Admission) :
    Run.run (Core.step chk) s [.accept c.id, .gate c.id a] =
      some (s.setParty c.id ((s.party c.id).settle a)) := by
  have hfirst : Core.step chk s (.accept c.id) =
      some (s.setParty c.id { s.party c.id with accepting := true }) := by
    simp only [Core.step, haccepting, if_true, hc, Option.map_some, Core.onAccept, hstopped, hretired,
      Bool.or_self, Bool.false_eq_true, if_false]
  have hback : ({ s.party c.id with accepting := false } : Party) = s.party c.id := by
    rw [← haccepting]
  have hsecond : Core.step chk (s.setParty c.id { s.party c.id with accepting := true })
      (.gate c.id a) = some (s.setParty c.id ((s.party c.id).settle a)) := by
    simp only [Core.step, Listening.setParty, Function.update_self, if_true, hc, Option.map_some, onGate,
      hopen, if_false, hback, Function.update_idem]
  rw [Run.run, hfirst]
  exact Run.run_single.mpr hsecond

/-- A handler of a listener is a run of the server's steps, none where nothing is seen of it. -/
theorem handler_runs (chk : Config.Checks) (hc : s.server.listeners[c.id]? = some c)
    (hshows : Shows (s.party c.id) l) (hrested : l.Rested) (hstopped : c.stopped = l.stopping)
    (hminimum : c.minimumRuntimeRevision = l.minimumRevision) (he : e.Dispatches)
    (hrevision : ∀ revision, e.revision? = some revision → revision = s.server.runtime.revision)
    (hretire : (∃ io, e = .retire io) → 0 < (s.party c.id).retiring) (hs : step l e = some l') :
    ∃ events q, Run.run (Core.step chk) s events = some (s.setParty c.id q) ∧ Shows q l' := by
  have hsettled : Settled (s.party c.id) := by
    unfold Settled
    rw [hshows.onDrained, hshows.sessions]
    exact hrested.waiting
  have hset : (s.party c.id).retired = false → (s.party c.id).onDrained = false := fun hretired => by
    rw [hshows.onDrained]
    exact (hrested.unretired (hshows.retired ▸ hretired)).1
  have hnothing : Shows (s.party c.id) l' →
      ∃ events q, Run.run (Core.step chk) s events = some (s.setParty c.id q) ∧ Shows q l' :=
    fun h => ⟨[], s.party c.id, by simp [Run.run, Listening.setParty], h⟩
  have hpending : ∀ accepts waits replaced, Shows (s.party c.id)
      { l with accepts := accepts, waits := waits, replaced := replaced } := fun _ _ _ =>
    ⟨hshows.retired, hshows.onDrained, hshows.sessions, hshows.accepting, hshows.notified,
      hshows.created, hshows.fresh⟩
  have hquiet : ∀ {io : Io} {m : Program Unit} {l₁ : Listener}, Dispatches io →
      Spec (Shows (s.party c.id)) m (fun _ => Shows (s.party c.id)) (Shows (s.party c.id)) →
      Shows (s.party c.id) l₁ → Shows (s.party c.id) (after (guardedHandler io m) l₁) := by
    intro io m l₁ hio hm h
    have hsame : ∀ l, Shows (s.party c.id) l → Among (· = s.party c.id) l := fun l h =>
      ⟨_, rfl, hsettled, h⟩
    obtain ⟨q, rfl, -, hq⟩ := among_guarded hio
      (spec_conseq hm (fun _ h => h) (fun _ => hsame) hsame) h
    exact hq
  cases e with
  | accept io ending =>
    obtain ⟨-, hs⟩ := Option.ite_none_right_eq_some.mp hs
    cases hs
    by_cases hending : ending = .success
    · subst hending
      obtain ⟨q, hq, -, hshown⟩ := among_guarded he (spec_onAccept_shows he hsettled hset)
        ⟨hpending (l.accepts - 1) l.waits l.replaced, rfl, rfl⟩
      rcases hq with rfl | ⟨hserving, hretired, hopen, a, rfl⟩
      · exact hnothing hshown
      · rw [hrevision _ rfl] at hopen
        exact ⟨_, _, run_accept hc hshows.accepting hretired (hstopped.trans hserving)
          (hminimum ▸ hopen) a, hshown⟩
    · exact hnothing (hquiet he (spec_onAccept_failed he hsettled hending) (hpending _ _ _))
  | retry io ending =>
    obtain ⟨-, hs⟩ := Option.ite_none_right_eq_some.mp hs
    cases hs
    exact hnothing (hquiet he (spec_onAcceptRetry_shows he hsettled ending) (hpending _ _ _))
  | replaced io ending =>
    obtain ⟨-, hs⟩ := Option.ite_none_right_eq_some.mp hs
    cases hs
    exact hnothing (hquiet he (spec_onAcceptRetry_shows he hsettled ending) (hpending _ _ _))
  | closed io session =>
    cases hs
    have hclosed := shows_after (shows_sessionClosed he session) hshows
    by_cases hsession : session ∈ (s.party c.id).sessions
    · refine ⟨[.closeSession c.id session], _, Run.run_single.mpr ?_, hclosed⟩
      simp only [Core.step, hsession, hshows.accepting, and_self, if_true]
    · refine hnothing ?_
      have hsame : (s.party c.id).closeSession session = s.party c.id := by
        unfold Party.closeSession
        rw [List.erase_of_not_mem hsession]
        exact hsettled.notifyIfDrained
      rw [hsame] at hclosed
      exact hclosed
  | retire io =>
    cases hs
    refine ⟨[.retireOnExecutor c.id], (s.party c.id).retireOnExecutor, Run.run_single.mpr ?_, ?_⟩
    · simp only [Core.step, hretire ⟨io, rfl⟩, hshows.accepting, and_self, if_true]
    · refine shows_after (spec_caught ?_) hshows
      exact spec_conseq (shows_retireOnExecutor he) (fun _ h => h) (fun _ _ h => h) fun _ h => h.elim
  | stop =>
    obtain ⟨-, hs⟩ := Option.ite_none_right_eq_some.mp hs
    cases hs
    exact hnothing ⟨hshows.retired, hshows.onDrained, hshows.sessions, hshows.accepting,
      hshows.notified, hshows.created, hshows.fresh⟩
  | other o =>
    cases hs
    exact hnothing (hshows.interrupted he)

/-- A listener that has been started shows nothing yet. -/
theorem shows_started {kind : ListenerKind} {minimumRevision : ℕ} {io : Io} (hio : Dispatches io)
    (h : started kind minimumRevision io = some l) : Shows {} l := by
  have hfirst : Shows {} { kind := kind, minimumRevision := minimumRevision } :=
    ⟨rfl, rfl, rfl, rfl, rfl, rfl, by simp⟩
  have hspec := shows_acceptNext (n := 0) (E := fun _ => True) hio (fun h => by cases h)
    (fun _ _ _ _ => trivial) _ hfirst
  unfold started at h
  cases hr : acceptNext io 0 { kind := kind, minimumRevision := minimumRevision } with
  | ok u l₁ =>
    rw [hr] at h hspec
    cases h
    exact hspec
  | error e l₁ =>
    rw [hr] at h
    cases h

end Refinement

end Listener
end Network
end WebServer
