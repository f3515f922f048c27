import WebServer.Http.SessionInv

/-!
# WebServer.Http.SessionSteps

What each handler of a session makes of the invariant, function by function: from `Handling`, where
nothing is in flight, to `Settled`, where an open session has exactly one operation in flight or a
transaction that is running. A throw leaves `Sound`, and `abort_noexcept` needs no more.
-/

namespace WebServer
namespace HttpSession

open Act Http Registry
open Dispatcher (Handoff RequestDispatcher Resolved)

section Programs

variable {env : Dispatcher.Environment} {openssl : Config.OpenSsl} {o : Outside}
variable {P : View → Prop} {io : Io}

/-! ## Starting an operation -/

theorem Closable.clear {v : View} (h : Closable env openssl o v) : Closable env openssl o v.clear := by
  have hsound := h.toSound.clear
  unfold View.clear at hsound ⊢
  split
  · exact h
  · rename_i hid
    rw [if_neg hid] at hsound
    exact { hsound, h with
      requestId := fun _ => rfl
      waiting := fun _ => rfl }

theorem Handling.clear {v : View} (h : Handling env openssl o v) :
    Handling env openssl o v.clear ∧ v.clear.session.httpRequestId = 0 := by
  refine ⟨{ h.toClosable.clear with idle := ?_, closing := ?_ }, ?_⟩
  · rw [View.clear_session]
    exact h.idle
  · rw [View.clear_session]
    exact h.closing
  · rw [View.clear_session]

theorem Closable.begin {v : View} (h : Closable env openssl o v) (hidle : v.session.busy = 0) {op : Op}
    (hread : op = .onHeaderRead → v.session.parser = true)
    (hwait : op = .onHeaderRead ∨ op = .onHandshake → v.session.httpRequestId = 0)
    (hclosing : v.session.closed = false → v.session.closing = true → op = .onShutdown) :
    Settled env openssl o { v with session.inFlight := op :: v.session.inFlight } := by
  have hnil := Session.inFlight_nil hidle
  have hrunning := Session.running_eq_zero hidle
  have hbusy : Session.busy { v.session with inFlight := op :: v.session.inFlight } = 1 := by
    change (op :: v.session.inFlight).length + v.session.running = 1
    rw [hnil, hrunning]
    rfl
  exact { h with
    narrow := hbusy.le
    parser := by
      rintro (hm | hrun)
      · refine hread ?_
        simpa [hnil, eq_comm] using hm
      · exact h.parser (.inr hrun)
    busy := fun _ => hbusy
    closing := fun hopen hcl => by
      rw [hnil, hclosing hopen hcl]
    dispatcher := fun hd => absurd (h.dispatcher.symm.trans hd) (by simp)
    proxy := fun hp => absurd (h.proxy.symm.trans hp) (by simp)
    asked := fun _ hrun => absurd hrun (by
      change ¬ 0 < v.session.running
      rw [hrunning]
      exact Nat.lt_irrefl 0)
    log := fun hu => .inl (h.log hu)
    waiting := fun hm => hwait (by simpa [hnil, eq_comm] using hm) }

theorem spec_readRequest :
    Spec (At (Handling env openssl o)) (readRequest io) (fun _ => At (Settled env openssl o))
      (At (Sound env openssl o)) := by
  let Q : View → Prop := fun v => Handling env openssl o v ∧ v.session.httpRequestId = 0
  have hQ : ∀ v, Q v → Sound env openssl o v := fun v h => h.1.toSound
  unfold readRequest
  refine spec_bind (spec_clearHttpRequest fun v h => (h.clear : Q v.clear)) fun _ => ?_
  refine spec_bind (spec_call hQ _) fun _ => ?_
  refine spec_bind (spec_modifyConnections fun id t => idsOf_update t id _) fun _ => ?_
  refine spec_bind (spec_call hQ _) fun _ => ?_
  let R : View → Prop := fun v => Q v ∧ v.session.parser = true
  have hR : ∀ v, R v → Sound env openssl o v := fun v h => hQ v h.1
  have hparser : ∀ v, Q v → R { v with session.parser := true } := fun v h =>
    ⟨⟨{ h.1 with parser := fun _ => rfl }, h.2⟩, rfl⟩
  refine spec_bind (spec_modifySession hparser) fun _ => ?_
  refine spec_bind (spec_call hR _) fun _ => ?_
  refine spec_bind (spec_call hR _) fun _ => ?_
  refine spec_modifySession fun v h => ?_
  refine h.1.1.begin h.1.1.idle (fun _ => h.2) (fun _ => h.1.2) fun hopen hclosing => ?_
  exact absurd ((h.1.1.closing hopen).symm.trans hclosing) (by simp)

theorem spec_writeResponse (response : Dispatcher.Response) :
    Spec (At (Handling env openssl o)) (writeResponse io response)
      (fun _ => At (Settled env openssl o)) (At (Sound env openssl o)) := by
  have hsound : ∀ v, Handling env openssl o v → Sound env openssl o v := fun v h => h.toSound
  have hresponse : ∀ v, Handling env openssl o v →
      Handling env openssl o { v with session.response := some response } := fun v h => { h with }
  unfold writeResponse
  refine spec_bind (spec_call hsound _) fun _ => ?_
  refine spec_bind (spec_modifySession hresponse) fun _ => ?_
  refine spec_bind (spec_call hsound _) fun _ => ?_
  refine spec_bind (spec_call hsound _) fun _ => ?_
  refine spec_modifySession fun v h => ?_
  refine h.begin h.idle (fun hop => nomatch hop) (by simp) fun hopen hclosing => ?_
  exact absurd ((h.closing hopen).symm.trans hclosing) (by simp)

/-! ## Closing -/

/-- The session has been marked as closed. -/
structure Departing (env : Dispatcher.Environment) (openssl : Config.OpenSsl) (o : Outside) (v : View) :
    Prop extends Sound env openssl o v where
  closed : v.session.closed = true
  dispatcher : v.session.dispatcher = false
  proxy : v.session.proxyOperation = false
  log : v.session.unlogged → v.session.aborted = true

/-- It has left the registries. -/
structure Leaving (env : Dispatcher.Environment) (openssl : Config.OpenSsl) (o : Outside) (v : View) :
    Prop extends Departing env openssl o v where
  unlisted : v.session.connectionId ∉ v.connections.ids
  requestId : v.session.httpRequestId = 0

theorem Closable.settled {v : View} (h : Closable env openssl o v) (hclosed : v.session.closed = true) :
    Settled env openssl o v :=
  { h with
    busy := fun hopen => absurd (hclosed.symm.trans hopen) (by simp)
    closing := fun hopen => absurd (hclosed.symm.trans hopen) (by simp)
    dispatcher := fun hd => absurd (h.dispatcher.symm.trans hd) (by simp)
    proxy := fun hp => absurd (h.proxy.symm.trans hp) (by simp)
    asked := fun hopen => absurd (hclosed.symm.trans hopen) (by simp)
    log := fun hu => .inl (h.log hu) }

theorem Handling.over {v : View} (h : Handling env openssl o v)
    (hover : (v.session.closed || v.session.closing) = true) : Settled env openssl o v := by
  refine h.toClosable.settled ?_
  by_contra hopen
  have hopen : v.session.closed = false := Bool.eq_false_of_not_eq_true hopen
  simp [hopen, h.closing hopen] at hover

theorem Departing.clear {v : View} (h : Departing env openssl o v) :
    Departing env openssl o v.clear ∧ v.clear.session.httpRequestId = 0 := by
  have hsession := View.clear_session v
  refine ⟨{ h.toSound.clear with closed := ?_, dispatcher := ?_, proxy := ?_, log := ?_ }, ?_⟩
  · rw [hsession]
    exact h.closed
  · rw [hsession]
    exact h.dispatcher
  · rw [hsession]
    exact h.proxy
  · rw [hsession]
    exact h.log
  · rw [hsession]

theorem spec_leave {m : Program Unit} {Q : View → Prop}
    (hm : Spec (At (Leaving env openssl o)) m (fun _ => At Q) (At (Sound env openssl o))) :
    Spec (At (Departing env openssl o)) (do modify clearHttpRequest; modify removeConnection; m)
      (fun _ => At Q) (At (Sound env openssl o)) := by
  let C : View → Prop := fun v => Departing env openssl o v ∧ v.session.httpRequestId = 0
  refine spec_bind (spec_clearHttpRequest (Q := C) fun v h => h.clear) fun _ => ?_
  refine spec_bind (spec_removeConnection fun v h => ?_) fun _ => hm
  exact { h.1.toSound.removeConnection, h.1 with
    unlisted := v.not_listed
    requestId := h.2 }

theorem spec_releaseActive (hP : ∀ v, P v → v.session.dispatcher = false ∧ v.session.proxyOperation = false)
    {E : World → Prop} : Spec (At P) (releaseActive io) (fun _ => At P) E := by
  unfold releaseActive
  refine spec_read fun w hw => ?_
  obtain ⟨hdispatcher, hproxy⟩ := hP w.view hw
  have hdispatcher : w.session.dispatcher = false := hdispatcher
  have hproxy : w.session.proxyOperation = false := hproxy
  simp only [hdispatcher, hproxy, Bool.false_eq_true, if_false]
  exact spec_pure fun w' h => h ▸ hw

theorem spec_callOnClose :
    Spec (At fun v => Leaving env openssl o v ∧ v.session.socketOpen = false) (callOnClose io)
      (fun _ => At (Settled env openssl o)) (At (Sound env openssl o)) := by
  have hsettled : ∀ v, Leaving env openssl o v → v.session.socketOpen = false →
      v.session.onClose = false → Settled env openssl o v := fun v h hsocket hclose =>
    have hopen : ¬ v.session.closed = false := by simp [h.closed]
    { h with
      listed := ⟨fun hm => absurd hm h.unlisted, fun hc => absurd hc hopen⟩
      onClose := by rw [hclose, h.closed]; rfl
      socketOpen := by rw [hsocket, h.closed]; rfl
      requestId := fun _ => h.requestId
      aborted := fun hc => absurd hc hopen
      busy := fun hc => absurd hc hopen
      closing := fun hc => absurd hc hopen
      dispatcher := fun hd => absurd (h.dispatcher.symm.trans hd) (by simp)
      proxy := fun hp => absurd (h.proxy.symm.trans hp) (by simp)
      asked := fun hc => absurd hc hopen
      log := fun hu => .inl (h.log hu)
      waiting := fun _ => h.requestId }
  unfold callOnClose
  refine spec_read fun w hw => spec_ite (fun hset => ?_) fun hset => ?_
  · let Q : View → Prop := fun v =>
      Leaving env openssl o v ∧ v.session.socketOpen = false ∧ v.session.onClose = false
    have hcalled : ∀ v, (Leaving env openssl o v ∧ v.session.socketOpen = false) ∧
        v.session.onClose = true → Q { v with session :=
          { v.session with onClose := false, closes := v.session.closes + 1 } } := by
      rintro v ⟨⟨h, hsocket⟩, honClose⟩
      have hcloses := h.closes
      rw [honClose, if_pos rfl] at hcloses
      refine ⟨{ h with closes := ?_ }, hsocket, rfl⟩
      change v.session.closes + 1 = 1
      rw [hcloses]
    refine spec_at (P := At fun v => (Leaving env openssl o v ∧ v.session.socketOpen = false) ∧
      v.session.onClose = true) ?_ ⟨hw, hset⟩
    refine spec_bind (spec_modifySession hcalled) fun _ => ?_
    refine spec_conseq (spec_call (P := Q) (fun v h => h.1.toSound) _) (fun _ h => h) (fun _ w' h => ?_)
      fun _ h => h
    exact hsettled w'.view h.1 h.2.1 h.2.2
  · refine spec_pure fun w' h => ?_
    subst h
    exact hsettled w'.view hw.1 hw.2 (Bool.eq_false_of_not_eq_true hset)

/-- The socket is closed and the session leaves the manager. -/
theorem spec_shut :
    Spec (At (Leaving env openssl o))
      (do
        call io .expiresNever
        modifySession fun s => { s with socketOpen := false }
        callOnClose io)
      (fun _ => At (Settled env openssl o)) (At (Sound env openssl o)) := by
  refine spec_bind (spec_call (fun v h => h.toSound) _) fun _ => ?_
  exact spec_bind (spec_modifySession fun v h => ⟨{ h with }, rfl⟩) fun _ => spec_callOnClose

theorem spec_closeHttp :
    Spec (At (Closable env openssl o)) (closeHttp io) (fun _ => At (Settled env openssl o))
      (At (Sound env openssl o)) := by
  unfold closeHttp
  refine spec_read fun w hw => spec_ite (fun hclosed => ?_) fun hclosed => ?_
  · exact spec_pure fun w' h => h ▸ Closable.settled hw hclosed
  · refine spec_at (P := At (Closable env openssl o)) ?_ hw
    refine spec_bind (spec_modifySession fun v h => ({ h with closed := rfl } :
      Departing env openssl o _)) fun _ => spec_leave ?_
    exact spec_bind (spec_releaseActive fun v h => ⟨h.dispatcher, h.proxy⟩) fun _ => spec_shut

theorem spec_closeSocket :
    Spec (At (Closable env openssl o)) (closeSocket io) (fun _ => At (Settled env openssl o))
      (At (Sound env openssl o)) := by
  unfold closeSocket
  refine spec_read fun w hw => spec_ite (fun hclosed => ?_) fun hclosed => ?_
  · exact spec_pure fun w' h => h ▸ Closable.settled hw hclosed
  · refine spec_at (P := At (Closable env openssl o)) ?_ hw
    refine spec_bind (spec_modifySession fun v h => ({ h with closed := rfl } :
      Departing env openssl o _)) fun _ => spec_leave spec_shut

theorem spec_closeTls :
    Spec (At (Handling env openssl o)) (closeTls io) (fun _ => At (Settled env openssl o))
      (At (Sound env openssl o)) := by
  unfold closeTls
  refine spec_read fun w hw => spec_ite (fun hclosed => ?_) fun hclosed => ?_
  · exact spec_pure fun w' h => h ▸ Handling.over hw hclosed
  · let Q : View → Prop := fun v => Closable env openssl o v ∧ v.session.busy = 0
    have hQ : ∀ v, Q v → Sound env openssl o v := fun v h => h.1.toSound
    refine spec_at (P := At (Handling env openssl o)) ?_ hw
    refine spec_bind (spec_modifySession (Q := Q) fun v h => ⟨{ h with }, h.idle⟩) fun _ => ?_
    refine spec_bind (spec_call hQ _) fun _ => ?_
    refine spec_bind (spec_modifyConnections fun id t => idsOf_update t id _) fun _ => ?_
    refine spec_bind (spec_releaseActive fun v h => ⟨h.1.dispatcher, h.1.proxy⟩) fun _ => ?_
    refine spec_read fun w' hw' => spec_ite (fun _ => ?_) fun _ => ?_
    · exact spec_at spec_closeSocket hw'.1
    · refine spec_at (P := At Q) ?_ hw'
      refine spec_bind (spec_call hQ _) fun _ => ?_
      refine spec_bind (spec_call hQ _) fun _ => ?_
      exact spec_modifySession fun v h => h.1.begin h.2 (by simp) (by simp) fun _ _ => rfl

theorem spec_close :
    Spec (At (Handling env openssl o)) (close io) (fun _ => At (Settled env openssl o))
      (At (Sound env openssl o)) := by
  unfold close
  refine spec_read fun w hw => ?_
  cases w.session.scheme with
  | http => exact spec_at spec_closeHttp hw.toClosable
  | https => exact spec_at spec_closeTls hw

/-! ## Answers -/

theorem Answering.handling {v : View} (h : Answering env openssl o v) :
    Handling env openssl o { v with session.dispatcher := false } :=
  { h with
    dispatcher := rfl
    waiting := fun hm => by
      change .onHeaderRead ∈ v.session.inFlight ∨ .onHandshake ∈ v.session.inFlight at hm
      simp [Session.inFlight_nil h.idle] at hm }

theorem Answering.settled {v : View} (h : Answering env openssl o v) (hclosed : v.session.closed = true)
    (hdispatcher : v.session.dispatcher = false) : Settled env openssl o v :=
  Closable.settled { h with
    dispatcher := hdispatcher
    waiting := fun _ => h.requestId hclosed } hclosed

theorem spec_onProxyResponse (response : Dispatcher.Response) :
    Spec (At (Answering env openssl o)) (onProxyResponse io response)
      (fun _ => At (Settled env openssl o)) (At (Sound env openssl o)) := by
  unfold onProxyResponse
  refine spec_bind (spec_modifySession fun v h => h.handling) fun _ => ?_
  refine spec_read fun w hw => spec_ite (fun hover => ?_) fun hover => ?_
  · exact spec_pure fun w' h => h ▸ Handling.over hw hover
  · refine spec_at (P := At (Handling env openssl o)) ?_ hw
    exact spec_bind (spec_updateStatus (fun v h => h.toSound) _) fun _ => spec_writeResponse _

section Dispatch

variable {d : RequestDispatcher}

theorem Pending.log {v : View} (h : Pending env openssl o v) (status bytes : ℕ)
    (handlers : Handlers) :
    Answering env openssl o { v with session :=
      { v.session with
        accessLog := v.session.accessLog ++ [⟨v.session.dispatches.length - 1, status, bytes⟩]
        handlers := handlers } } :=
  { h with
    logged := by
      simp only [List.map_append, h.logged, List.map_cons, List.map_nil, List.length_append,
        List.length_cons, List.length_nil, List.range_succ, h.unlogged, Nat.add_sub_cancel]
    dispatched := by
      simp only [List.length_append, List.length_cons, List.length_nil, h.unlogged]
      omega
    log := fun hu => by
      simp only [Session.unlogged, List.length_append, List.length_cons, List.length_nil,
        h.unlogged] at hu
      omega }

/-- The answer of a dispatcher is logged before the session has it. -/
theorem spec_complete (response : Dispatcher.Response) :
    Spec (At (Dispatching env openssl o d)) (complete io response)
      (fun _ => At (Settled env openssl o)) (At (Sound env openssl o)) := by
  let Q : View → Prop := fun v => Answering env openssl o v ∧
    (v.session.closed = true ∧ v.session.dispatcher = false ∨ v.session.handlers.onComplete = true)
  have hsound : ∀ v, Dispatched env openssl o d v → Sound env openssl o v := fun v h => h.toSound
  unfold complete
  refine spec_read fun w hw => spec_ite (fun hdone => ?_) fun _ => ?_
  · exact absurd (hdone.symm.trans hw.completed) (by simp)
  · refine spec_at (P := At (Dispatching env openssl o d)) ?_ hw
    refine spec_bind (spec_modifySession fun v h => ({ h with } :
      Dispatched env openssl o d _)) fun _ => ?_
    dsimp only
    refine spec_bind (spec_call hsound _) fun _ => ?_
    refine spec_bind (spec_call hsound _) fun _ => ?_
    refine spec_bind (spec_modifySession (Q := Q) fun v h => ⟨h.toPending.log _ _ _, ?_⟩) fun _ => ?_
    · by_cases hclosed : v.session.closed = true
      · exact .inl ⟨hclosed, (h.dead hclosed).1⟩
      · exact .inr (h.live (Bool.eq_false_of_not_eq_true hclosed)).2.2
    refine spec_read fun w' hw' => spec_ite (fun _ => ?_) fun honComplete => ?_
    · refine spec_at (P := At Q) ?_ hw'
      refine spec_bind (spec_modifySession fun v h => ({ h.1 with } :
        Answering env openssl o _)) fun _ => ?_
      exact spec_invokeGuarded (spec_onProxyResponse _) fun _ h => h
    · refine spec_pure fun w'' h => ?_
      subst h
      rcases hw'.2 with ⟨hclosed, hdispatcher⟩ | hset
      · exact hw'.1.settled hclosed hdispatcher
      · exact absurd hset honComplete

/-- A transaction is started, also in a session that an exception has closed meanwhile. -/
theorem Dispatching.begin {v : View} (h : Dispatching env openssl o d v) {handoff : Handoff}
    (hready : v.desk.Ready env openssl (v.session.handing io v.desk d handoff)) :
    Settled env openssl o
      { v with
        desk.handed := v.desk.handed ++ [v.session.handing io v.desk d handoff]
        session.transactions :=
          (io.transaction, Proxy.State.init io.transaction) :: v.session.transactions
        session.proxyOperation := true } := by
  have hnil := Session.inFlight_nil h.idle
  have hover : ∀ t ∈ v.session.transactions, t.2.completed = true := by
    intro t ht
    have hnone := List.countP_eq_zero.mp (Session.running_eq_zero h.idle) t ht
    simpa using hnone
  have hrunning : Session.running { v.session with
      transactions := (io.transaction, Proxy.State.init io.transaction) :: v.session.transactions
      proxyOperation := true } = 1 := running_cons hover
  have hbusy : Session.busy { v.session with
      transactions := (io.transaction, Proxy.State.init io.transaction) :: v.session.transactions
      proxyOperation := true } = 1 := by
    rw [Session.busy, hrunning, hnil]
    rfl
  exact { h with
    desk := hready.hand
    shaken := h.shaken
    narrow := hbusy.le
    lively := fun t ht => by
      rcases List.mem_cons.mp ht with rfl | ht
      · exact Proxy.lively_init _
      · exact h.lively t ht
    older := hover
    parser := fun _ => h.parsed
    busy := fun _ => hbusy
    closing := fun hopen hclosing => absurd ((h.closing hopen).symm.trans hclosing) (by simp)
    dispatcher := fun _ => ⟨rfl, h.completed, by
      rw [Session.unlogged, h.unlogged]
      exact Nat.lt_succ_self _⟩
    proxy := fun _ => hrunning
    asked := fun hopen _ => h.asked hopen
    log := fun _ => by
      by_cases hclosed : v.session.closed = true
      · exact .inl (h.dead hclosed).2
      · exact .inr (h.live (Bool.eq_false_of_not_eq_true hclosed)).1
    waiting := fun hm => by
      change .onHeaderRead ∈ v.session.inFlight ∨ .onHandshake ∈ v.session.inFlight at hm
      simp [hnil] at hm }

theorem spec_startProxy (handoff : Handoff) :
    Spec (At fun v => Dispatching env openssl o d v ∧
        v.desk.Ready env openssl (v.session.handing io v.desk d handoff))
      (startProxy io d handoff) (fun _ => At (Settled env openssl o)) (At (Sound env openssl o)) := by
  unfold startProxy
  refine spec_bind (spec_updateStatus (fun v h => h.1.toSound) _) fun _ => ?_
  refine spec_bind (spec_call (fun v h => h.1.toSound) _) fun _ => ?_
  exact spec_modify fun w h => h.1.begin h.2

theorem cancelActive_of_idle {s : Session} (h : s.proxyOperation = false) :
    ∃ handlers, s.cancelActive io = { s with
      handlers := handlers
      dispatcher := false } := by
  unfold Session.cancelActive
  dsimp only
  split
  · exact ⟨{}, by simp [h]⟩
  · exact ⟨s.handlers, by simp [h]⟩

/-- The session is closed in the middle of the dispatch. -/
theorem Dispatching.abort {w : World} (h : Dispatching env openssl o d w.view) (io : Io) :
    Dispatching env openssl o d (abortNoexcept io w).view := by
  have hsettled := abort_settled h.toSound io
  have hclear := View.clear_session
    (World.view { w with session.closed := true, session.closing := true })
  rw [← view_clearHttpRequest] at hclear
  have hidle : w.session.proxyOperation = false := h.proxy
  have hsession : ∃ handlers, (abortNoexcept io w).view.session = { w.session with
      closed := true
      closing := true
      httpRequestId := 0
      handlers := handlers
      dispatcher := false
      socketOpen := false
      closes := w.session.closes + if w.session.onClose then 1 else 0
      onClose := false
      aborted := true } := by
    obtain ⟨handlers, hcancel⟩ := @cancelActive_of_idle io
      { w.session with closed := true, closing := true, httpRequestId := 0 } hidle
    refine ⟨handlers, ?_⟩
    change (Session.cancelActive io (clearHttpRequest
      { w with session.closed := true, session.closing := true }).view.session).shut = _
    rw [hclear]
    change (Session.cancelActive io
      { w.session with closed := true, closing := true, httpRequestId := 0 }).shut = _
    rw [hcancel]
    rfl
  obtain ⟨handlers, hsession⟩ := hsession
  have hopen : ¬ (abortNoexcept io w).view.session.closed = false := by simp [hsession]
  refine { hsettled with
    idle := ?_
    closing := fun hc => absurd hc hopen
    proxy := ?_
    unlogged := ?_
    parsed := ?_
    live := fun hc => absurd hc hopen
    asked := fun hc => absurd hc hopen
    dead := fun _ => ?_
    secure := ?_
    completed := ?_ }
  all_goals rw [hsession]
  · exact h.idle
  · exact hidle
  · exact h.unlogged
  · exact h.parsed
  · exact ⟨rfl, rfl⟩
  · exact h.secure
  · exact h.completed

theorem spec_callOnSiteResolved {E : World → Prop} (site : Option Resolved) :
    Spec (At (Dispatching env openssl o d)) (callOnSiteResolved io site)
      (fun _ => At (Dispatching env openssl o d)) E := by
  let P := Dispatching env openssl o d
  have hprogram : ∀ site, Spec (At P) (onSiteResolved io site) (fun _ => At P) (At P) := by
    intro site
    unfold onSiteResolved
    refine spec_read fun w hw => spec_ite (fun _ => ?_) fun _ => ?_
    · refine spec_bind (spec_at (spec_call (fun v h => h) _) hw) fun _ => ?_
      exact spec_modifyRequests fun id t => idsOf_update t id _
    · exact spec_pure fun w' h => h ▸ hw
  unfold callOnSiteResolved
  refine spec_read fun w hw => ?_
  cases site with
  | none => exact spec_pure fun w' h => h ▸ hw
  | some site =>
    refine spec_ite (fun _ => spec_at (P := At P) ?_ hw) fun _ => spec_pure fun w' h => h ▸ hw
    exact spec_caught (spec_conseq (hprogram site) (fun _ h => h) (fun _ _ h => h)
      fun w h => h.abort io)

/-- The desk has decided, and is ready for a request that it has handed over. -/
theorem spec_startDispatcher (hnow : o.now = io.now) :
    Spec (At (Dispatching env openssl o d)) (startDispatcher env io d)
      (fun _ => At (Settled env openssl o)) (At (Sound env openssl o)) := by
  let P := Dispatching env openssl o d
  have hanswer : ∀ response, Spec (At P) (complete io response) (fun _ => At (Settled env openssl o))
      (At (Sound env openssl o)) := fun response => spec_complete response
  unfold startDispatcher
  refine spec_read fun w hw => ?_
  refine spec_bind (spec_at (spec_callOnSiteResolved _) hw) fun _ => ?_
  refine spec_read fun w₁ h₁ => ?_
  obtain ⟨hgood, hready⟩ := good_decide h₁.desk d io.now io.wall
  let D : View → Prop := fun v => P v ∧
    ∀ handoff, (d.start env w₁.shared.desk.store io.now io.wall).verdict = .handOver handoff →
      v.desk.Ready env openssl (v.session.handing io v.desk d handoff)
  refine spec_bind (M := fun _ => At D) (spec_modify ?_) fun _ => ?_
  · rintro w rfl
    have hsub : w.shared.desk.consulted ⊆ (w.shared.desk.decide env d io.now io.wall).consulted :=
      List.subset_append_left _ _
    refine ⟨{ h₁ with
      desk := hgood
      shaken := h₁.shaken.mono hsub
      grown := ?_ }, fun handoff hverdict => ?_⟩
    · obtain ⟨rs, heq, hrs⟩ := h₁.grown
      refine ⟨rs ++ (d.consulted w.shared.desk.store io.now).toList, ?_, fun r hr => ?_⟩
      · change w.shared.desk.consulted ++ _ = _
        have heq : w.shared.desk.consulted = o.consulted ++ rs.map .request := heq
        rw [heq, List.map_append, List.append_assoc]
      · rcases List.mem_append.mp hr with hr | hr
        · exact hrs r hr
        · rw [hnow]
          exact Dispatcher.consulted_now (Option.mem_toList.mp hr)
    exact hready handoff hverdict _ rfl rfl rfl rfl h₁.secure h₁.shaken
  · cases hverdict : (d.start env w₁.shared.desk.store io.now io.wall).verdict with
    | throws => exact fun w h => h.1.toSound
    | answer response =>
      refine spec_conseq (P := At P) ?_ (fun w h => h.1) (fun _ _ h => h) fun _ h => h
      exact spec_bind (spec_call (fun v h => h.toSound) _) fun _ => hanswer response
    | handOver handoff =>
      refine spec_read fun w₂ h₂ => spec_ite (fun _ => ?_) fun _ => spec_at (hanswer _) h₂.1
      exact spec_at (spec_invokeGuarded (spec_startProxy handoff) fun _ h => h)
        ⟨h₂.1, h₂.2 handoff hverdict⟩

/-- The request is in the registry, and a dispatcher is made for it. -/
theorem Handling.dispatch {v : View} (h : Handling env openssl o v) (hopen : v.session.closed = false)
    (hparser : v.session.parser = true) (hid : v.session.httpRequestId ≠ 0) {handlers : Handlers}
    (hhandlers : handlers.onProxy = true ∧ handlers.onComplete = true)
    (hsecure : d.security = security v.session.scheme v.session.tlsState) :
    Dispatching env openssl o d { v with session :=
      { v.session with
        dispatches := v.session.dispatches ++ [d]
        handlers := handlers
        completed := false
        dispatcher := true } } := by
  have hlogged : v.session.accessLog.length = v.session.dispatches.length := by
    refine Nat.le_antisymm h.dispatched.1 (Nat.le_of_not_lt fun hu => ?_)
    exact absurd ((h.aborted hopen).symm.trans (h.log hu)) (by simp)
  have hlength : (v.session.dispatches ++ [d]).length = v.session.accessLog.length + 1 := by
    rw [List.length_append, hlogged]
    rfl
  exact { h with
    dispatched := by
      change v.session.accessLog.length ≤ (v.session.dispatches ++ [d]).length ∧
        (v.session.dispatches ++ [d]).length ≤ v.session.accessLog.length + 1
      omega
    parsed := hparser
    unlogged := hlength
    live := fun _ => ⟨rfl, hhandlers⟩
    asked := fun _ => hid
    dead := fun hclosed => absurd (hclosed.symm.trans hopen) (by simp)
    secure := hsecure
    completed := rfl }

end Dispatch

/-! ## Handlers -/

/-- A handler of the session starts with its operation taken out. -/
structure Reading (env : Dispatcher.Environment) (openssl : Config.OpenSsl) (o : Outside) (v : View) :
    Prop extends Handling env openssl o v where
  parsed : v.session.parser = true
  unasked : v.session.httpRequestId = 0

theorem spec_sendPayloadTooLarge :
    Spec (At (Handling env openssl o)) (sendPayloadTooLarge io) (fun _ => At (Settled env openssl o))
      (At (Sound env openssl o)) := by
  have hsound : ∀ v, Handling env openssl o v → Sound env openssl o v := fun v h => h.toSound
  unfold sendPayloadTooLarge
  refine spec_read fun w hw => ?_
  dsimp only
  refine spec_bind (spec_at (spec_call hsound _) hw) fun _ => spec_ite (fun _ => ?_) fun _ => ?_
  · refine spec_bind (spec_call hsound _) fun _ => ?_
    refine spec_bind (spec_modifyConnections fun id t => idsOf_update t id _) fun _ => ?_
    exact spec_writeResponse _
  · exact spec_writeResponse _

theorem spec_dispatchRequest (hnow : o.now = io.now) (peer : Network.Address) :
    Spec (At fun v => Reading env openssl o v ∧ v.session.closed = false)
      (dispatchRequest env io peer) (fun _ => At (Settled env openssl o)) (At (Sound env openssl o)) := by
  let P : View → Prop := fun v => Reading env openssl o v ∧ v.session.closed = false
  let Q : View → Prop := fun v => Handling env openssl o v ∧ v.session.closed = false ∧
    v.session.parser = true ∧ v.session.httpRequestId ≠ 0
  have hP : ∀ v, P v → Sound env openssl o v := fun v h => h.1.toSound
  have hQ : ∀ v, Q v → Sound env openssl o v := fun v h => h.1.toSound
  unfold dispatchRequest
  refine spec_read fun w hw => spec_at (P := At P) ?_ hw
  dsimp only
  refine spec_bind (spec_call hP _) fun _ => ?_
  refine spec_bind (spec_modifyConnections fun id t => idsOf_update t id _) fun _ => ?_
  refine spec_bind (spec_call hP _) fun _ => ?_
  refine spec_bind (spec_call hP _) fun _ => ?_
  refine spec_bind (M := fun _ => At Q) (spec_modify fun w₁ h₁ => ?_) fun _ => ?_
  · obtain ⟨h, hopen⟩ := h₁
    have howned : Owned o.requests 0 w₁.view.requests := h.unasked ▸ h.requests
    have hadd : Owned o.requests w₁.shared.registries.requests.nextId
        (idsOf w₁.shared.registries.requests).add := howned.add
    simp only [At, World.view, HttpRequestRegistry.add, idsOf_add]
    exact ⟨{ h with
      requests := hadd
      requested := fun _ => Ids.mem_add
      requestId := fun hclosed => absurd (hclosed.symm.trans hopen) (by simp)
      waiting := fun hm => by
        change .onHeaderRead ∈ w₁.view.session.inFlight ∨ .onHandshake ∈ w₁.view.session.inFlight at hm
        simp [Session.inFlight_nil h.idle] at hm }, hopen, h.parsed, Nat.ne_of_gt howned.fresh⟩
  refine spec_bind (spec_call hQ _) fun _ => ?_
  refine spec_read fun w₂ h₂ => ?_
  generalize hd : newDispatcher io w.shared.desk.runtime w₂.session _ = d
  have hsecure : d.security = security w₂.session.scheme w₂.session.tlsState := by
    rw [← hd]
    rfl
  refine spec_at (P := At fun v => Q v ∧ d.security = security v.session.scheme v.session.tlsState) ?_
    ⟨h₂, hsecure⟩
  refine spec_bind (spec_modifySession fun v h => ?_) fun _ => spec_startDispatcher (d := d) hnow
  exact h.1.1.dispatch h.1.2.1 h.1.2.2.1 h.1.2.2.2 ⟨rfl, rfl⟩ h.2

theorem spec_onHeaderRead (hnow : o.now = io.now) :
    Spec (At (Reading env openssl o)) (onHeaderRead env io) (fun _ => At (Settled env openssl o))
      (At (Sound env openssl o)) := by
  have hclose : ∀ w, Reading env openssl o w.view → Spec (· = w) (close io)
      (fun _ => At (Settled env openssl o)) (At (Sound env openssl o)) := fun w hw =>
    spec_at spec_close hw.toHandling
  unfold onHeaderRead
  refine spec_read fun w hw => ?_
  cases io.error with
  | some error =>
    refine spec_ite (fun _ => hclose w hw) fun _ => spec_ite (fun _ => ?_) fun _ => ?_
    · exact spec_at spec_sendPayloadTooLarge hw.toHandling
    · dsimp only
      refine spec_ite (fun _ => ?_) fun _ => hclose w hw
      exact spec_bind (spec_at (spec_call (fun v h => h.toSound) _) hw.toHandling) fun _ => spec_close
  | none =>
    cases io.peer with
    | none => exact hclose w hw
    | some peer =>
      refine spec_ite (fun _ => hclose w hw) fun hsocket => ?_
      refine spec_at (spec_dispatchRequest hnow peer) ⟨hw, ?_⟩
      have hconsistent : w.session.socketOpen = !w.session.closed := hw.socketOpen
      cases hclosed : w.session.closed with
      | false => exact hclosed
      | true => simp [hconsistent, hclosed] at hsocket

theorem spec_onWrite (keepAlive : Bool) :
    Spec (At (Handling env openssl o)) (onWrite io keepAlive) (fun _ => At (Settled env openssl o))
      (At (Sound env openssl o)) := by
  unfold onWrite
  cases io.error with
  | some error =>
    dsimp only
    refine spec_ite (fun _ => ?_) fun _ => spec_close
    exact spec_bind (spec_call (fun v h => h.toSound) _) fun _ => spec_close
  | none =>
    have hunparsed : ∀ v, Handling env openssl o v → Handling env openssl o { v with session :=
        { v.session with response := none, parser := false } } := fun v h => { h with
      parser := fun hneeded => by
        change .onHeaderRead ∈ v.session.inFlight ∨ 0 < v.session.running at hneeded
        simp [Session.inFlight_nil h.idle, Session.running_eq_zero h.idle] at hneeded }
    refine spec_bind (spec_modifySession hunparsed) fun _ => ?_
    refine spec_bind (spec_clearHttpRequest fun v h => h.clear.1) fun _ => ?_
    exact spec_ite (fun _ => spec_close) fun _ => spec_readRequest

theorem spec_onHandshake :
    Spec (At (Handling env openssl o)) (onHandshake io) (fun _ => At (Settled env openssl o))
      (At (Sound env openssl o)) := by
  have hclose : Spec (At (Handling env openssl o)) (closeSocket io)
      (fun _ => At (Settled env openssl o)) (At (Sound env openssl o)) :=
    spec_conseq spec_closeSocket (fun w h => h.toClosable) (fun _ _ h => h) fun _ h => h
  unfold onHandshake
  cases io.error with
  | some error =>
    dsimp only
    refine spec_ite (fun _ => ?_) fun _ => hclose
    exact spec_bind (spec_call (fun v h => h.toSound) _) fun _ => hclose
  | none =>
    refine spec_bind (spec_modifySession fun v h => ?_) fun _ => spec_readRequest
    exact { h with }

/-! ## The end of a transaction -/

/-- The dispatcher logs what was streamed. -/
theorem spec_completeStream (status bytes : ℕ) :
    Spec (At fun v => Pending env openssl o v ∧ v.session.completed = false)
      (completeStream io status bytes) (fun _ => At (Answering env openssl o))
      (At (Sound env openssl o)) := by
  unfold completeStream
  refine spec_read fun w hw => spec_ite (fun hdone => ?_) fun _ => ?_
  · exact absurd (hdone.symm.trans hw.2) (by simp)
  · refine spec_at (P := At (Pending env openssl o)) ?_ hw.1
    refine spec_bind (spec_modifySession fun v h => ({ h with } :
      Pending env openssl o _)) fun _ => ?_
    refine spec_bind (spec_call (fun v h => h.toSound) _) fun _ => ?_
    exact spec_modifySession fun v h => h.log _ _ _

theorem spec_streamCompleted (r : Proxy.Completed) :
    Spec (At (Streamed env openssl o)) (streamCompleted io r) (fun _ => At (Handling env openssl o))
      (At (Sound env openssl o)) := by
  let P : View → Prop := fun v => Streamed env openssl o v ∧ v.session.proxyOperation = false
  have hreset : ∀ v, Streamed env openssl o v → P { v with session :=
      { v.session with proxyOperation := false, parser := false } } := fun v h => ⟨{ h with
    parser := fun hneeded => by
      change .onHeaderRead ∈ v.session.inFlight ∨ 0 < v.session.running at hneeded
      simp [Session.inFlight_nil h.idle, Session.running_eq_zero h.idle] at hneeded }, rfl⟩
  have hrest : Spec (At (Answering env openssl o)) (do
        modifySession fun s => { s with dispatcher := false }
        modify clearHttpRequest : Program Unit)
      (fun _ => At (Handling env openssl o)) (At (Sound env openssl o)) :=
    spec_bind (spec_modifySession fun v h => h.handling) fun _ =>
      spec_clearHttpRequest fun v h => h.clear.1
  unfold streamCompleted
  refine spec_bind (spec_modifySession hreset) fun _ => ?_
  refine spec_read fun w hw => ?_
  dsimp only
  refine spec_ite (fun hdispatcher => ?_) fun hdispatcher => ?_
  · obtain ⟨hcompleted, hunlogged⟩ := hw.1.dispatcher hdispatcher
    refine spec_bind (spec_at (spec_completeStream _ _) ⟨?_, hcompleted⟩) fun _ => hrest
    exact { hw.1 with
      proxy := hw.2
      unlogged := Nat.le_antisymm hw.1.dispatched.2 hunlogged }
  · refine spec_at hrest ?_
    exact { hw.1 with
      proxy := hw.2
      log := fun hu => (hw.1.log hu).resolve_right hdispatcher }

theorem spec_onStreamComplete (r : Proxy.Completed) :
    Spec (At (Streamed env openssl o)) (onStreamComplete io r) (fun _ => At (Settled env openssl o))
      (At (Sound env openssl o)) := by
  unfold onStreamComplete
  refine spec_bind (spec_streamCompleted r) fun _ => ?_
  refine spec_read fun w hw => spec_ite (fun hover => ?_) fun _ => spec_ite (fun _ => ?_) fun _ => ?_
  · exact spec_pure fun w' h => h ▸ Handling.over hw hover
  · exact spec_at spec_close hw
  · exact spec_at spec_readRequest hw

/-- The transaction goes on, or its completion finds nothing in flight. -/
theorem Advanced.settled {v : View} {s' : Session} (ha : Advanced v.session s')
    (h : Settled env openssl o v) :
    (¬ v.session.completions.length < s'.completions.length →
        Settled env openssl o { v with session := s' }) ∧
      (v.session.completions.length < s'.completions.length →
        Streamed env openssl o { v with session := s' }) := by
  have hsound := ha.sound h.toSound
  obtain ⟨hsame, hlively, holder, hcases⟩ := ha
  generalize s'.transactions = ts at hsame hlively holder
  subst hsame
  refine ⟨fun hkept => ?_, fun hgrown => ?_⟩
  · have hrunning : Session.running { v.session with transactions := ts } = v.session.running := by
      rcases hcases with ⟨-, heq⟩ | ⟨hlt, -⟩
      · exact heq
      · exact absurd hlt hkept
    have hbusy : Session.busy { v.session with transactions := ts } = v.session.busy := by
      rw [Session.busy, hrunning]
      rfl
    exact { hsound, h with
      busy := fun hopen => hbusy.trans (h.busy hopen)
      proxy := fun hp => hrunning.trans (h.proxy hp)
      asked := fun hopen hrun => h.asked hopen (hrunning ▸ hrun) }
  · obtain ⟨hone, hzero⟩ : v.session.running = 1 ∧
        Session.running { v.session with transactions := ts } = 0 := by
      rcases hcases with ⟨heq, -⟩ | ⟨-, hone, hzero⟩
      · omega
      · exact ⟨hone, hzero⟩
    have hnil : v.session.inFlight = [] := by
      have hnarrow := h.narrow
      unfold Session.busy at hnarrow
      exact List.eq_nil_of_length_eq_zero (by omega)
    exact { hsound, h with
      idle := by
        rw [Session.busy, hzero]
        exact congrArg List.length hnil
      closing := fun hopen => Bool.eq_false_of_not_eq_true fun hclosing => by
        have hshutdown := h.closing hopen hclosing
        simp [hnil] at hshutdown
      dispatcher := fun hd => (h.dispatcher hd).2 }

theorem spec_cancelProxy {E : World → Prop} :
    Spec (At (Settled env openssl o)) (cancelProxy io (onStreamComplete io))
      (fun _ => At (Settled env openssl o)) E := by
  unfold cancelProxy
  refine spec_read fun w hw => ?_
  obtain ⟨hkept, hgrown⟩ := (cancelTransaction_cases hw.lively hw.older).settled hw
  let C : World → Prop := fun w' => w'.view = { w.view with session := w.session.cancelTransaction }
  refine spec_bind (M := fun _ => C) (spec_modify fun w' h => h ▸ rfl) fun _ => ?_
  refine spec_read fun w' hw' => ?_
  have hview : w'.view = { w.view with session := w.session.cancelTransaction } := hw'
  have hsession : w'.session = w.session.cancelTransaction := congrArg View.session hview
  rw [hsession]
  refine spec_ite (fun hlt => ?_) fun hlt => ?_
  · have hstreamed : Streamed env openssl o w'.view := hview ▸ hgrown hlt
    cases hlast : w.session.cancelTransaction.completions with
    | nil =>
      rw [hlast] at hlt
      exact absurd hlt (Nat.not_lt_zero _)
    | cons r _ =>
      exact spec_at (spec_invokeGuarded (spec_onStreamComplete r) fun _ h => h) hstreamed
  · have hsettled : Settled env openssl o w'.view := hview ▸ hkept hlt
    exact spec_pure fun w'' h => h ▸ hsettled

theorem Settled.closable {v : View} (h : Settled env openssl o v)
    (hproxy : v.session.proxyOperation = false) : Closable env openssl o v :=
  have hdispatcher : v.session.dispatcher = false := Bool.eq_false_of_not_eq_true fun hd =>
    absurd ((h.dispatcher hd).1.symm.trans hproxy) (by simp)
  { h with
    dispatcher := hdispatcher
    proxy := hproxy
    log := fun hu => (h.log hu).resolve_right (by simp [hdispatcher]) }

theorem spec_stopOnExecutor :
    Spec (At (Settled env openssl o)) (stopOnExecutor io) (fun _ => At (Settled env openssl o))
      (At (Sound env openssl o)) := by
  unfold stopOnExecutor
  refine spec_read fun w hw => spec_ite (fun _ => spec_at spec_cancelProxy hw) fun hproxy => ?_
  have hclosable := hw.closable (Bool.eq_false_of_not_eq_true hproxy)
  have hdispatcher : w.session.dispatcher = false := hclosable.dispatcher
  simp only [hdispatcher, Bool.false_eq_true, if_false]
  refine spec_ite (fun _ => ?_) fun _ => spec_pure fun w' h => h ▸ hw
  cases w.session.scheme with
  | http => exact spec_at spec_closeHttp hclosable
  | https => exact spec_at spec_closeSocket hclosable

theorem spec_start :
    Spec (At fun v => Handling env openssl o v ∧ v.session.httpRequestId = 0) (start io)
      (fun _ => At (Settled env openssl o)) (At (Sound env openssl o)) := by
  let P : View → Prop := fun v => Handling env openssl o v ∧ v.session.httpRequestId = 0
  have hP : ∀ v, P v → Sound env openssl o v := fun v h => h.1.toSound
  unfold start
  refine spec_read fun w hw => ?_
  cases w.session.scheme with
  | http => exact spec_at spec_readRequest hw.1
  | https =>
    refine spec_bind (spec_at (spec_call hP _) hw) fun _ => ?_
    refine spec_bind (spec_call hP _) fun _ => ?_
    refine spec_modifySession fun v h => ?_
    refine h.1.begin h.1.idle (by simp) (fun _ => h.2) fun hopen hclosing => ?_
    exact absurd ((h.1.closing hopen).symm.trans hclosing) (by simp)

end Programs

end HttpSession
end WebServer
