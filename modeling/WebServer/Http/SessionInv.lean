import WebServer.Http.Session
import WebServer.Proxy.Progress

/-!
# WebServer.Http.SessionInv

What the handlers of a session keep.

The invariant is in three parts. `Sound` holds at every point, also where a call throws; it is all
that `abort_noexcept` needs. `Settled` holds between two events: a session that is open has exactly
one operation in flight, or a transaction that is running. `Handling` holds in a handler whose
operation has been taken out.
-/

namespace WebServer
namespace HttpSession

open Act Http Registry
open Dispatcher (Handoff RequestDispatcher Resolved HandedOver)
open Snapshots (Store)

/-! ## The ids of a table -/

structure Ids where
  ids : List ℕ
  nextId : ℕ

def Ids.remove (t : Ids) (id : ℕ) : Ids := { t with ids := t.ids.filter fun i => i != id }

def Ids.add (t : Ids) : Ids := ⟨t.ids ++ [t.nextId], t.nextId + 1⟩

section Tables

variable {ι : Type}

def idsOf (t : Registry.Table ι) : Ids := ⟨t.entries.map fun e => e.1, t.nextId⟩

@[simp] theorem idsOf_update (t : Registry.Table ι) (id : ℕ) (f : ι → ι) :
    idsOf (t.update id f) = idsOf t := by
  have hkeys : ∀ e : ℕ × Stored ι,
      (if e.1 = id then (e.1, { e.2 with info := f e.2.info }) else e).1 = e.1 := by
    intro e
    split <;> rfl
  simp only [idsOf, Registry.Table.update, List.map_map, Ids.mk.injEq, and_true]
  exact List.map_congr_left fun e _ => hkeys e

@[simp] theorem idsOf_remove (t : Registry.Table ι) (id : ℕ) :
    idsOf (t.remove id) = (idsOf t).remove id := by
  simp only [idsOf, Registry.Table.remove, Ids.remove, Ids.mk.injEq, and_true, List.filter_map]
  rfl

@[simp] theorem idsOf_add (t : Registry.Table ι) (now : Now) (info : ℕ → ι) :
    idsOf (t.add now info) = (idsOf t).add := by
  simp [idsOf, Registry.Table.add, Ids.add]

end Tables

/-- The ids of a table are those of the others and at most one more. -/
structure Owned (others : ℕ → Prop) (own : ℕ) (t : Ids) : Prop where
  mem : ∀ id, id ≠ own → (id ∈ t.ids ↔ others id)
  apart : ¬ others own
  nodup : t.ids.Nodup
  bound : ∀ id ∈ t.ids, 0 < id ∧ id < t.nextId
  fresh : own < t.nextId

section Ownership

variable {others : ℕ → Prop} {own : ℕ} {t : Ids}

theorem Ids.mem_remove {id own : ℕ} : id ∈ (t.remove own).ids ↔ id ∈ t.ids ∧ id ≠ own := by
  simp [Ids.remove]

theorem Owned.remove (h : Owned others own t) : Owned others own (t.remove own) where
  mem id hid := by
    rw [Ids.mem_remove, ← h.mem id hid]
    exact ⟨fun hm => hm.1, fun hm => ⟨hm, hid⟩⟩
  apart := h.apart
  nodup := h.nodup.filter _
  bound id hid := h.bound id (Ids.mem_remove.mp hid).1
  fresh := h.fresh

/-- The id `0` is in no table. -/
theorem Owned.zero (h : Owned others own t) : 0 ∉ t.ids := fun hm => absurd (h.bound 0 hm).1 (by omega)

theorem Owned.release (h : Owned others own t) : Owned others 0 (t.remove own) where
  mem id hid := by
    rw [Ids.mem_remove]
    by_cases hown : id = own
    · rw [hown]
      exact ⟨fun hm => absurd rfl hm.2, fun hm => absurd hm h.apart⟩
    · rw [← h.mem id hown]
      exact ⟨fun hm => hm.1, fun hm => ⟨hm, hown⟩⟩
  apart hm := by
    by_cases hown : 0 = own
    · exact h.apart (hown ▸ hm)
    · exact h.zero ((h.mem 0 hown).mpr hm)
  nodup := h.nodup.filter _
  bound id hid := h.bound id (Ids.mem_remove.mp hid).1
  fresh := Nat.lt_of_le_of_lt (Nat.zero_le _) h.fresh

theorem Owned.add (h : Owned others 0 t) : Owned others t.nextId t.add where
  mem id hid := by
    simp only [Ids.add, List.mem_append, List.mem_singleton, hid, or_false]
    by_cases hzero : id = 0
    · rw [hzero]
      exact ⟨fun hm => absurd hm h.zero, fun hm => absurd hm h.apart⟩
    · exact h.mem id hzero
  apart hm := by
    have hpos := h.fresh
    have hmem := (h.mem t.nextId (by omega)).mpr hm
    exact absurd (h.bound _ hmem).2 (Nat.lt_irrefl _)
  nodup := by
    refine h.nodup.append (List.nodup_singleton _) ?_
    rintro id hid hone
    rw [List.mem_singleton.mp hone] at hid
    exact absurd (h.bound _ hid).2 (Nat.lt_irrefl _)
  bound id hid := by
    rcases List.mem_append.mp hid with hid | hid
    · exact ⟨(h.bound id hid).1, Nat.lt_succ_of_lt (h.bound id hid).2⟩
    · rw [List.mem_singleton.mp hid]
      exact ⟨h.fresh, Nat.lt_succ_self _⟩
  fresh := Nat.lt_succ_self _

theorem Ids.mem_add : t.nextId ∈ t.add.ids := by simp [Ids.add]

end Ownership

/-! ## The invariant -/

/-- A world, as far as the invariant is about it. -/
structure View where
  connections : Ids
  requests : Ids
  desk : Desk
  session : Session

def World.view (w : World) : View :=
  ⟨idsOf w.shared.registries.connections, idsOf w.shared.registries.requests, w.shared.desk, w.session⟩

/-- What is outside a session: the ids of the others, the id that it was given itself, a bound below
the ids that are still to be given, what had been published and asked, and the time. -/
structure Outside where
  connections : ℕ → Prop
  requests : ℕ → Prop
  own : ℕ
  floor : ℕ
  consulted : List Snapshots.Event
  now : ℕ

def Session.running (s : Session) : ℕ := s.transactions.countP fun t => !t.2.completed

/-- The operations in flight and the transactions that are running. -/
def Session.busy (s : Session) : ℕ := s.inFlight.length + s.running

/-- What holds at every point. -/
structure Session.Tidy (s : Session) : Prop where
  narrow : s.busy ≤ 1
  lively : ∀ t ∈ s.transactions, Proxy.Lively t.2
  older : ∀ t ∈ s.transactions.tail, t.2.completed = true
  parser : .onHeaderRead ∈ s.inFlight ∨ 0 < s.running → s.parser = true
  logged : s.accessLog.map Logged.dispatch = List.range s.accessLog.length
  dispatched : s.accessLog.length ≤ s.dispatches.length ∧
    s.dispatches.length ≤ s.accessLog.length + 1
  closes : s.closes = if s.onClose then 0 else 1

structure Sound (env : Dispatcher.Environment) (openssl : Config.OpenSsl) (o : Outside) (v : View) :
    Prop extends v.session.Tidy where
  connections : Owned o.connections v.session.connectionId v.connections
  requests : Owned o.requests v.session.httpRequestId v.requests
  requested : v.session.httpRequestId ≠ 0 → v.session.httpRequestId ∈ v.requests.ids
  own : v.session.connectionId = o.own
  floor : o.floor ≤ v.connections.nextId
  grown : ∃ rs : List Snapshots.Incoming, v.desk.consulted = o.consulted ++ rs.map .request ∧
    ∀ r ∈ rs, r.now = o.now
  shaken : v.desk.Shaken openssl v.session.scheme v.session.tlsContexts v.session.serverName
    v.session.tlsState
  desk : v.desk.Good env openssl

/-- Whether the session is closed agrees with what it holds. -/
structure Session.Coherent (s : Session) : Prop where
  onClose : s.onClose = !s.closed
  socketOpen : s.socketOpen = !s.closed
  requestId : s.closed = true → s.httpRequestId = 0
  aborted : s.closed = false → s.aborted = false

structure Consistent (v : View) : Prop extends v.session.Coherent where
  listed : v.session.connectionId ∈ v.connections.ids ↔ v.session.closed = false

/-- A request that was dispatched has not been logged. -/
def Session.unlogged (s : Session) : Prop := s.accessLog.length < s.dispatches.length

/-- What holds between two events. -/
structure Session.Rested (s : Session) : Prop extends s.Coherent where
  busy : s.closed = false → s.busy = 1
  closing : s.closed = false → s.closing = true → s.inFlight = [.onShutdown]
  dispatcher : s.dispatcher = true → s.proxyOperation = true ∧ s.completed = false ∧ s.unlogged
  proxy : s.proxyOperation = true → s.running = 1
  asked : s.closed = false → 0 < s.running → s.httpRequestId ≠ 0
  log : s.unlogged → s.aborted = true ∨ s.dispatcher = true
  waiting : .onHeaderRead ∈ s.inFlight ∨ .onHandshake ∈ s.inFlight → s.httpRequestId = 0

structure Settled (env : Dispatcher.Environment) (openssl : Config.OpenSsl) (o : Outside) (v : View) :
    Prop extends Sound env openssl o v, Consistent v, v.session.Rested

/-- Nothing is left that `close` would have to cancel. -/
structure Closable (env : Dispatcher.Environment) (openssl : Config.OpenSsl) (o : Outside) (v : View) :
    Prop extends Sound env openssl o v, Consistent v where
  dispatcher : v.session.dispatcher = false
  proxy : v.session.proxyOperation = false
  log : v.session.unlogged → v.session.aborted = true
  waiting : .onHeaderRead ∈ v.session.inFlight ∨ .onHandshake ∈ v.session.inFlight →
    v.session.httpRequestId = 0

structure Handling (env : Dispatcher.Environment) (openssl : Config.OpenSsl) (o : Outside) (v : View) :
    Prop extends Closable env openssl o v where
  idle : v.session.busy = 0
  closing : v.session.closed = false → v.session.closing = false

/-- The last request has been dispatched and not been logged. -/
structure Pending (env : Dispatcher.Environment) (openssl : Config.OpenSsl) (o : Outside) (v : View) :
    Prop extends Sound env openssl o v, Consistent v where
  idle : v.session.busy = 0
  closing : v.session.closed = false → v.session.closing = false
  proxy : v.session.proxyOperation = false
  unlogged : v.session.dispatches.length = v.session.accessLog.length + 1

structure Dispatched (env : Dispatcher.Environment) (openssl : Config.OpenSsl) (o : Outside)
    (d : RequestDispatcher) (v : View) : Prop extends Pending env openssl o v where
  parsed : v.session.parser = true
  live : v.session.closed = false → v.session.dispatcher = true ∧ v.session.handlers.onProxy = true ∧
    v.session.handlers.onComplete = true
  asked : v.session.closed = false → v.session.httpRequestId ≠ 0
  dead : v.session.closed = true → v.session.dispatcher = false ∧ v.session.aborted = true
  secure : d.security = security v.session.scheme v.session.tlsState

/-- The dispatcher has not completed. -/
structure Dispatching (env : Dispatcher.Environment) (openssl : Config.OpenSsl) (o : Outside)
    (d : RequestDispatcher) (v : View) : Prop extends Dispatched env openssl o d v where
  completed : v.session.completed = false

/-- An answer is there. -/
structure Answering (env : Dispatcher.Environment) (openssl : Config.OpenSsl) (o : Outside) (v : View) :
    Prop extends Sound env openssl o v, Consistent v where
  idle : v.session.busy = 0
  closing : v.session.closed = false → v.session.closing = false
  proxy : v.session.proxyOperation = false
  log : v.session.unlogged → v.session.aborted = true

/-- A transaction has completed, or is about to be cancelled. -/
structure Streamed (env : Dispatcher.Environment) (openssl : Config.OpenSsl) (o : Outside) (v : View) :
    Prop extends Sound env openssl o v, Consistent v where
  idle : v.session.busy = 0
  closing : v.session.closed = false → v.session.closing = false
  dispatcher : v.session.dispatcher = true → v.session.completed = false ∧ v.session.unlogged
  log : v.session.unlogged → v.session.aborted = true ∨ v.session.dispatcher = true

theorem Sound.consulted {env : Dispatcher.Environment} {openssl : Config.OpenSsl} {o : Outside}
    {v : View} (h : Sound env openssl o v) : o.consulted ⊆ v.desk.consulted := by
  obtain ⟨rs, heq, -⟩ := h.grown
  exact heq ▸ List.subset_append_left _ _

/-! ## Steps that the invariant does not see -/

section Programs

variable {env : Dispatcher.Environment} {openssl : Config.OpenSsl} {o : Outside}
variable {P : View → Prop} {io : Io}

abbrev At (P : View → Prop) : World → Prop := fun w => P w.view

theorem Session.running_eq_zero {s : Session} (h : s.busy = 0) : s.running = 0 := by
  unfold Session.busy at h
  omega

theorem Session.inFlight_nil {s : Session} (h : s.busy = 0) : s.inFlight = [] :=
  List.eq_nil_of_length_eq_zero (by unfold Session.busy at h; omega)

theorem spec_call {E : View → Prop} (hP : ∀ v, P v → E v) (c : Call) :
    Spec (At P) (call io c) (fun _ => At P) (At E) :=
  spec_failing (fun _ h => h) fun w h => hP w.view h

theorem spec_modifyConnections {f : ℕ → Registry.Table ConnectionInfo → Registry.Table ConnectionInfo}
    (hf : ∀ id t, idsOf (f id t) = idsOf t) {E : World → Prop} :
    Spec (At P) (modifyConnections f) (fun _ => At P) E := by
  refine spec_modify fun w h => ?_
  simp only [At, World.view, hf]
  exact h

theorem spec_modifyRequests
    {f : ℕ → Registry.Table HttpRequestInfo → Registry.Table HttpRequestInfo}
    (hf : ∀ id t, idsOf (f id t) = idsOf t) {E : World → Prop} :
    Spec (At P) (modifyRequests f) (fun _ => At P) E := by
  refine spec_modify fun w h => ?_
  simp only [At, World.view, hf]
  exact h

theorem spec_updateStatus (hP : ∀ v, P v → Sound env openssl o v) (stage : Stage) :
    Spec (At P) (updateStatus io stage) (fun _ => At P) (At (Sound env openssl o)) := by
  unfold updateStatus
  refine spec_bind (spec_call hP _) fun _ => ?_
  refine spec_bind (spec_modifyConnections fun id t => idsOf_update t id _) fun _ => ?_
  refine spec_read fun w hw => spec_ite (fun _ => ?_) fun _ => ?_
  · refine spec_bind (spec_at (spec_call hP _) hw) fun _ => ?_
    exact spec_modifyRequests fun id t => idsOf_update t id _
  · exact spec_pure fun w' h => h ▸ hw

/-! ## Aborting -/

/-- `clear_http_request` -/
def View.clear (v : View) : View :=
  if v.session.httpRequestId = 0 then v
  else
    { v with
      requests := v.requests.remove v.session.httpRequestId
      session.httpRequestId := 0 }

def View.removeConnection (v : View) : View :=
  { v with connections := v.connections.remove v.session.connectionId }

@[simp] theorem view_clearHttpRequest (w : World) : (clearHttpRequest w).view = w.view.clear := by
  unfold clearHttpRequest View.clear
  split
  · rename_i h
    rw [if_pos (by exact h)]
  · rename_i h
    rw [if_neg (by exact h)]
    simp only [World.view, idsOf_remove]

@[simp] theorem view_removeConnection (w : World) :
    (removeConnection w).view = w.view.removeConnection := by
  simp only [removeConnection, World.view, idsOf_remove, View.removeConnection]

theorem View.clear_session (v : View) : v.clear.session = { v.session with httpRequestId := 0 } := by
  unfold View.clear
  split
  · rename_i h
    rw [← h]
  · rfl

theorem Sound.clear {v : View} (h : Sound env openssl o v) : Sound env openssl o v.clear := by
  unfold View.clear
  split
  · exact h
  · exact { h with
      requests := h.requests.release
      requested := fun hne => absurd rfl hne }

theorem Sound.removeConnection {v : View} (h : Sound env openssl o v) :
    Sound env openssl o v.removeConnection :=
  { h with connections := h.connections.remove }

theorem View.not_listed (v : View) :
    v.removeConnection.session.connectionId ∉ v.removeConnection.connections.ids := by
  simp [View.removeConnection, Ids.mem_remove]

theorem mode_completions {t : Proxy.State} (h : Proxy.Mode t) :
    (t.completed = false → t.completions = []) ∧ (t.completed = true → t.completions.length = 1) := by
  have hlive : t.completed = false → t.completions = [] →
      (t.completed = false → t.completions = []) ∧
        (t.completed = true → t.completions.length = 1) := by
    intro hr hn
    simp [hr, hn]
  cases h with
  | acquiring hc hs hu hstream hconn hd hr hn => exact hlive hr hn
  | connecting h => exact hlive h.completed h.completions
  | setup h => exact hlive h.completed h.completions
  | awaiting u h => exact hlive h.completed h.completions
  | relaying u h => exact hlive h.completed h.completions
  | switching h => exact hlive h.completed h.completions
  | tunnelling h => exact hlive h.completed h.completions
  | failing a b u n h => exact hlive h.completed h.completions
  | draining d h => exact hlive h.completed h.completions
  | done r hc hcl hb hr hp hn => simp [hr, hn]

/-- A transaction that has taken a step goes on or has completed. -/
structure Advanced (s s' : Session) : Prop where
  same : s' = { s with transactions := s'.transactions }
  lively : ∀ t ∈ s'.transactions, Proxy.Lively t.2
  older : ∀ t ∈ s'.transactions.tail, t.2.completed = true
  cases : s'.completions.length = s.completions.length ∧ s'.running = s.running ∨
    s.completions.length < s'.completions.length ∧ s.running = 1 ∧ s'.running = 0

theorem running_cons {t : Proxy.Config × Proxy.State} {rest : List (Proxy.Config × Proxy.State)}
    (hrest : ∀ t ∈ rest, t.2.completed = true) :
    (t :: rest).countP (fun t => !t.2.completed) = if t.2.completed then 0 else 1 := by
  have hzero : rest.countP (fun t => !t.2.completed) = 0 := by
    rw [List.countP_eq_zero]
    intro t ht
    simp [hrest t ht]
  rw [List.countP_cons, hzero]
  cases t.2.completed <;> rfl

theorem running_eq {s : Session} {t : Proxy.Config × Proxy.State}
    {rest : List (Proxy.Config × Proxy.State)} (hts : s.transactions = t :: rest)
    (hrest : ∀ t ∈ rest, t.2.completed = true) : s.running = if t.2.completed then 0 else 1 := by
  rw [Session.running, hts]
  exact running_cons hrest

theorem completions_eq {s : Session} {t : Proxy.Config × Proxy.State}
    {rest : List (Proxy.Config × Proxy.State)} (hts : s.transactions = t :: rest) :
    s.completions = t.2.completions := by
  rw [Session.completions, hts]
  rfl

/-- A step of the newest transaction. -/
theorem advanced_head {s : Session} {c : Proxy.Config} {t t' : Proxy.State}
    {rest : List (Proxy.Config × Proxy.State)} (hts : s.transactions = (c, t) :: rest)
    (hlively : ∀ t ∈ s.transactions, Proxy.Lively t.2)
    (holder : ∀ t ∈ s.transactions.tail, t.2.completed = true) (hnext : Proxy.Lively t')
    (hkeep : t.completed = true → t'.completed = true) :
    Advanced s { s with transactions := (c, t') :: rest } := by
  rw [hts] at hlively holder
  replace holder : ∀ t ∈ rest, t.2.completed = true := holder
  have hlive : Proxy.Lively t := hlively (c, t) (List.mem_cons_self ..)
  have hold := mode_completions hlive.mode
  have hnew := mode_completions hnext.mode
  refine ⟨rfl, fun t₁ ht₁ => ?_, holder, ?_⟩
  · rcases List.mem_cons.mp ht₁ with rfl | ht₁
    · exact hnext
    · exact hlively t₁ (List.mem_cons_of_mem _ ht₁)
  · rw [running_eq hts holder, completions_eq hts,
      running_eq (s := { s with transactions := (c, t') :: rest }) rfl holder,
      completions_eq (s := { s with transactions := (c, t') :: rest }) rfl]
    dsimp only
    cases hr : t.completed with
    | true => simp [hold.2 hr, hkeep hr, hnew.2 (hkeep hr)]
    | false =>
      cases hr' : t'.completed with
      | true => simp [hold.1 hr, hnew.2 hr']
      | false => simp [hold.1 hr, hnew.1 hr']

/-- A step of an older transaction, which has completed. -/
theorem advanced_tail {s : Session} {head : Proxy.Config × Proxy.State} {c : Proxy.Config}
    {t' : Proxy.State} {rest : List (Proxy.Config × Proxy.State)} (k : ℕ)
    (hts : s.transactions = head :: rest) (hlively : ∀ t ∈ s.transactions, Proxy.Lively t.2)
    (holder : ∀ t ∈ s.transactions.tail, t.2.completed = true) (hnext : Proxy.Lively t')
    (hdone : t'.completed = true) :
    Advanced s { s with transactions := head :: rest.set k (c, t') } := by
  rw [hts] at hlively holder
  replace holder : ∀ t ∈ rest, t.2.completed = true := holder
  have holder' : ∀ t ∈ rest.set k (c, t'), t.2.completed = true := fun t₁ ht₁ => by
    rcases List.mem_or_eq_of_mem_set ht₁ with ht₁ | rfl
    · exact holder t₁ ht₁
    · exact hdone
  refine ⟨rfl, fun t₁ ht₁ => ?_, holder', .inl ⟨?_, ?_⟩⟩
  · rcases List.mem_cons.mp ht₁ with rfl | ht₁
    · exact hlively _ (List.mem_cons_self ..)
    · rcases List.mem_or_eq_of_mem_set ht₁ with ht₁ | rfl
      · exact hlively t₁ (List.mem_cons_of_mem _ ht₁)
      · exact hnext
  · rw [completions_eq hts,
      completions_eq (s := { s with transactions := head :: rest.set k (c, t') }) rfl]
  · rw [running_eq hts holder,
      running_eq (s := { s with transactions := head :: rest.set k (c, t') }) rfl holder']

theorem cancelTransaction_cases {s : Session} (hlively : ∀ t ∈ s.transactions, Proxy.Lively t.2)
    (holder : ∀ t ∈ s.transactions.tail, t.2.completed = true) :
    Advanced s s.cancelTransaction := by
  cases hts : s.transactions with
  | nil =>
    have hsame : s.cancelTransaction = s := by
      unfold Session.cancelTransaction
      rw [hts, List.modifyHead_nil, ← hts]
    rw [hsame]
    exact ⟨rfl, hlively, holder, .inl ⟨rfl, rfl⟩⟩
  | cons t rest =>
    have hnew : s.cancelTransaction =
        { s with transactions := (t.1, Proxy.cancelOnExecutor t.2) :: rest } := by
      simp only [Session.cancelTransaction, hts, List.modifyHead_cons]
    have hlive := hlively t (by simp [hts])
    rw [hnew]
    refine advanced_head hts hlively holder (Proxy.lively_cancel hlive) fun hr => ?_
    rw [Proxy.cancelOnExecutor, if_pos hr]
    exact hr

theorem Advanced.sound {v : View} {s' : Session} (ha : Advanced v.session s')
    (h : Sound env openssl o v) : Sound env openssl o { v with session := s' } := by
  obtain ⟨hsame, hlively, holder, hcases⟩ := ha
  have hle : s'.running ≤ v.session.running := by
    rcases hcases with ⟨-, heq⟩ | ⟨-, hone, hzero⟩ <;> omega
  rw [hsame]
  refine { h with lively := hlively, older := holder, narrow := ?_, parser := ?_ }
  · exact (Nat.add_le_add_left hle _).trans h.narrow
  · rintro (hread | hrun)
    · exact h.parser (.inl hread)
    · exact h.parser (.inr (Nat.lt_of_lt_of_le hrun hle))

theorem Sound.cancelTransaction {v : View} (h : Sound env openssl o v) :
    Sound env openssl o { v with session := v.session.cancelTransaction } :=
  (cancelTransaction_cases h.lively h.older).sound h

theorem Sound.abortTransaction {v : View} (h : Sound env openssl o v) :
    Sound env openssl o { v with session := abortTransaction v.session } := by
  have hcancelled := h.cancelTransaction
  refine { hcancelled with parser := fun hneeded => ?_ }
  have hparser : v.session.parser = true := hcancelled.parser hneeded
  rcases (cancelTransaction_cases h.lively h.older).cases with ⟨hlength, -⟩ | ⟨-, hone, hzero⟩
  · simp [HttpSession.abortTransaction, hparser, hlength]
  · -- the transaction was all that was left
    have hnarrow : v.session.inFlight.length + v.session.running ≤ 1 := h.narrow
    rcases hneeded with hread | hrun
    · have := List.length_pos_of_mem hread
      change 0 < v.session.inFlight.length at this
      omega
    · change 0 < v.session.cancelTransaction.running at hrun
      omega

/-- Nothing else is touched. -/
theorem cancelActive_fields (io : Io) (s : Session) :
    (s.cancelActive io).connectionId = s.connectionId ∧ (s.cancelActive io).closed = s.closed ∧
      (s.cancelActive io).httpRequestId = s.httpRequestId ∧ (s.cancelActive io).dispatcher = false ∧
      (s.cancelActive io).proxyOperation = false := by
  unfold Session.cancelActive
  dsimp only
  split
  · split
    · exact ⟨rfl, rfl, rfl, rfl, rfl⟩
    · rename_i hproxy
      exact ⟨rfl, rfl, rfl, rfl, by simpa using hproxy⟩
  · split
    · exact ⟨rfl, rfl, rfl, rfl, rfl⟩
    · rename_i hproxy
      exact ⟨rfl, rfl, rfl, rfl, by simpa using hproxy⟩

theorem Sound.cancelActive {v : View} (h : Sound env openssl o v) (io : Io) :
    Sound env openssl o { v with session := v.session.cancelActive io } := by
  have hsilent : ∀ s : Session, Sound env openssl o { v with session := s } →
      Sound env openssl o { v with session := { s with dispatcher := false } } :=
    fun s hs => { hs with }
  unfold Session.cancelActive
  dsimp only
  split
  · split
    · exact (hsilent { v.session with handlers := {} } { h with }).abortTransaction
    · exact hsilent { v.session with handlers := {} } { h with }
  · split
    · exact (hsilent v.session h).abortTransaction
    · exact hsilent v.session h

theorem Sound.shut {v : View} (h : Sound env openssl o v)
    (hlisted : v.session.connectionId ∉ v.connections.ids) (hclosed : v.session.closed = true)
    (hid : v.session.httpRequestId = 0) (hdispatcher : v.session.dispatcher = false)
    (hproxy : v.session.proxyOperation = false) :
    Settled env openssl o { v with session := v.session.shut } :=
  have hopen : ¬ v.session.shut.closed = false := by
    simp [Session.shut, hclosed]
  { h with
    closes := by
      simp only [Session.shut, h.closes]
      cases v.session.onClose <;> rfl
    listed := ⟨fun hm => absurd hm hlisted, fun hc => absurd hc hopen⟩
    onClose := by simp [Session.shut, hclosed]
    socketOpen := by simp [Session.shut, hclosed]
    requestId := fun _ => hid
    aborted := fun hc => absurd hc hopen
    busy := fun hc => absurd hc hopen
    closing := fun hc => absurd hc hopen
    dispatcher := fun hd => absurd hd (by simp [Session.shut, hdispatcher])
    proxy := fun hp => absurd hp (by simp [Session.shut, hproxy])
    asked := fun hc => absurd hc hopen
    log := fun _ => .inl rfl
    waiting := fun _ => hid }

/-- An exception is enough to close the session, whatever has been done before. -/
theorem abort_settled {w : World} (h : Sound env openssl o w.view) (io : Io) :
    Settled env openssl o (abortNoexcept io w).view := by
  have hleft : Sound env openssl o (removeConnection (clearHttpRequest
      { w with session.closed := true, session.closing := true })).view := by
    rw [view_removeConnection, view_clearHttpRequest]
    exact Sound.removeConnection (Sound.clear { h with })
  have hlisted := View.not_listed (clearHttpRequest
    { w with session.closed := true, session.closing := true }).view
  rw [← view_removeConnection] at hlisted
  have hsession : (removeConnection (clearHttpRequest
      { w with session.closed := true, session.closing := true })).session =
        { w.session with closed := true, closing := true, httpRequestId := 0 } := by
    have hclear := View.clear_session
      (World.view { w with session.closed := true, session.closing := true })
    rw [← view_clearHttpRequest] at hclear
    exact hclear
  unfold abortNoexcept
  generalize removeConnection (clearHttpRequest
    { w with session.closed := true, session.closing := true }) = w₁ at hleft hlisted hsession
  obtain ⟨hconn, hclosed, hid, hdispatcher, hproxy⟩ := cancelActive_fields io w₁.session
  refine (hleft.cancelActive io).shut ?_ ?_ ?_ hdispatcher hproxy
  · change (w₁.session.cancelActive io).connectionId ∉ w₁.view.connections.ids
    rw [hconn]
    exact hlisted
  · exact hclosed.trans (by rw [hsession])
  · exact hid.trans (by rw [hsession])

/-- What a guarded handler leaves behind. -/
theorem spec_invokeGuarded {m : Program Unit} {Q : View → Prop}
    (h : Spec (At P) m (fun _ => At Q) (At (Sound env openssl o)))
    (hQ : ∀ v, Settled env openssl o v → Q v) {E : World → Prop} :
    Spec (At P) (invokeGuarded io m) (fun _ => At Q) E :=
  spec_caught (spec_conseq h (fun _ h => h) (fun _ _ h => h) fun _ h => hQ _ (abort_settled h io))

theorem spec_modifySession {f : Session → Session} {Q : View → Prop}
    (h : ∀ v, P v → Q { v with session := f v.session }) {E : World → Prop} :
    Spec (At P) (modifySession f) (fun _ => At Q) E :=
  spec_modify fun w hw => h w.view hw

theorem spec_clearHttpRequest {Q : View → Prop} (h : ∀ v, P v → Q v.clear) {E : World → Prop} :
    Spec (At P) (modify clearHttpRequest : Program Unit) (fun _ => At Q) E := by
  refine spec_modify fun w hw => ?_
  rw [At, view_clearHttpRequest]
  exact h w.view hw

theorem spec_removeConnection {Q : View → Prop} (h : ∀ v, P v → Q v.removeConnection)
    {E : World → Prop} : Spec (At P) (modify removeConnection : Program Unit) (fun _ => At Q) E := by
  refine spec_modify fun w hw => ?_
  rw [At, view_removeConnection]
  exact h w.view hw

end Programs

end HttpSession
end WebServer
