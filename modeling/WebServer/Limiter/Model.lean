import Mathlib.Algebra.Group.Nat.Defs
import WebServer.Lib.Run
import WebServer.Lib.Table

/-!
# WebServer.Limiter.Model

`BackendConcurrencyLimiter`: per-site slots for backend connections with a FIFO queue of waiting
requests.

Every public operation is one section under `impl_->mutex`, an atomic step here, followed by work
outside the lock: cancelling a timer, posting a handler, clearing it. That work is a `Task`, run
by its own event, so that other threads may act in between; a posted handler becomes a task of
the executor. Timers may fire at any time after they were armed (cancelling one races with its
expiry), a permit may be destroyed at any time after its slot was reserved, and `Pending::cancel`
may be called at any time.

`release` recovers from a failed allocation of the `Permit`, of its `shared_ptr` and of the posted
handler; which of its four paths is taken is part of the event (`HandOff`). Every other allocation
succeeds: those of `async_acquire`, `update_limits`, `cancel_pending`, `timeout_pending` and `clear`,
among them the permits of the waiters that a raised limit promotes.
`active`, `rejected`, `timeouts` and `next_waiter_id` are natural numbers: the source's 64-bit
counters do not wrap before 2^64 requests.

`permits`, `epoch` and `trace` are not in the source: the permits whose slot is reserved, the
number of `clear` calls so far, and what happened, newest first.
-/

namespace WebServer
namespace Limiter

inductive BackendAcquireResult where
  | granted
  | queueFull
  | queueTimeout
  deriving DecidableEq, Repr

/-- How an `async_acquire` call ended: its handler's argument, or withdrawn by `cancel` or
`clear`. -/
inductive Outcome where
  | result (r : BackendAcquireResult)
  | withdrawn
  deriving DecidableEq, Repr

/-- `Pending::State`; `handler` says whether the handler is still set. -/
structure PendingState where
  siteId : Int
  completed : Bool := false
  handler : Bool := true
  deriving DecidableEq, Repr

/-- The `Pending::State` objects by `waiter_id`. -/
abbrev Heap := Nat → Option PendingState

/-- `completed.compare_exchange_strong(false, true)`; `none` when it fails. -/
def claim (heap : Heap) (w : Nat) : Option Heap :=
  match heap w with
  | some p =>
    if p.completed then none
    else some (Function.update heap w (some { p with completed := true }))
  | none => none

/-- `handler = {}`. -/
def clearHandler (heap : Heap) (w : Nat) : Heap :=
  Function.update heap w ((heap w).map fun p => { p with handler := false })

structure SiteState where
  siteName : String := ""
  backend : String := ""
  maximumActive : Nat := 0
  maximumQueue : Nat := 0
  queueTimeoutSeconds : Nat := 0
  active : Nat := 0
  rejected : Nat := 0
  timeouts : Nat := 0
  queue : List Nat := []
  retired : Bool := false
  deriving DecidableEq, Repr

/-- `if (site.retired && site.active == 0 && site.queue.empty()) sites.erase(found);` -/
def SiteState.reclaim (site : SiteState) : Option SiteState :=
  if site.retired = true ∧ site.active = 0 ∧ site.queue = [] then none else some site

structure Permit where
  siteId : Int
  epoch : Nat
  deriving DecidableEq, Repr

/-- What a thread still has to do after it left the lock, or an executor after `asio::post`. -/
inductive Task where
  /-- `asio::post` of the handler call -/
  | post (waiterId : Nat) (result : BackendAcquireResult)
  /-- the handler call itself -/
  | invoke (waiterId : Nat) (result : BackendAcquireResult)
  /-- `handler = {}` after a cancel or a clear -/
  | drop (waiterId : Nat)
  /-- `release` could not allocate the permit: report `queue_full`, then release the slot; there is
  none (`slot`) when the permit has released it already -/
  | refuse (waiterId : Nat) (siteId : Int) (slot : Option Nat)
  /-- the nested `release(site_id)` of that path -/
  | release (siteId : Int) (slot : Option Nat)
  /-- the `shared_ptr` of the permit could not be allocated: `~Permit` releases the slot before the
  exception leads to the same path -/
  | unwind (waiterId : Nat) (siteId : Int) (epoch : Nat)
  deriving DecidableEq, Repr

/-- The waiter whose handler a task is about. -/
def Task.waiter? : Task → Option Nat
  | .post w _ => some w
  | .invoke w _ => some w
  | .drop w => some w
  | .refuse w _ _ => some w
  | .release _ _ => none
  | .unwind w _ _ => some w

/-- The four ways in which `release` passes a slot on. -/
inductive HandOff where
  /-- the handler is posted to the waiter's executor -/
  | posted
  /-- `asio::post` threw: the handler is called by the releasing thread -/
  | called
  /-- the allocation of the `Permit` threw -/
  | noPermit
  /-- the allocation of the control block of its `shared_ptr` threw -/
  | noControlBlock
  deriving DecidableEq, Repr

def HandOff.allocated : HandOff → Bool
  | .posted | .called => true
  | .noPermit | .noControlBlock => false

inductive Note where
  /-- a site entry was created -/
  | created (siteId : Int)
  /-- the outcome of a request, with the site's queue at that moment -/
  | decided (siteId : Int) (waiterId : Nat) (outcome : Outcome) (waiting : List Nat)
  /-- a handler was called -/
  | called (waiterId : Nat) (result : BackendAcquireResult)
  deriving DecidableEq, Repr

structure State where
  sites : Table Int SiteState
  nextWaiterId : Nat
  pending : Heap
  tasks : List Task
  permits : List Permit
  epoch : Nat
  trace : List Note

def State.init : State :=
  { sites := ∅, nextWaiterId := 1, pending := fun _ => none, tasks := [], permits := [],
    epoch := 0, trace := [] }

/-! ## The promotion loop of `async_acquire` and `update_limits` -/

structure Promotion where
  queue : List Nat
  active : Nat
  heap : Heap
  /-- the promoted waiters, each with the queue it left behind -/
  promoted : List (Nat × List Nat)

/-- `while (site.active < maximum_active && !site.queue.empty())`. -/
def promote (maximumActive : Nat) : List Nat → Nat → Heap → Promotion
  | [], active, heap => ⟨[], active, heap, []⟩
  | w :: queue, active, heap =>
    if active < maximumActive then
      match claim heap w with
      | none => promote maximumActive queue active heap
      | some heap' =>
        let r := promote maximumActive queue (active + 1) heap'
        { r with promoted := (w, queue) :: r.promoted }
    else ⟨w :: queue, active, heap, []⟩

/-- The loop over `promoted` after the lock: a permit and a posted handler for each. -/
def State.grantAll (s : State) (siteId : Int) (ps : List (Nat × List Nat)) : State :=
  { s with
    permits := s.permits ++ ps.map fun _ => ⟨siteId, s.epoch⟩
    tasks := s.tasks ++ ps.map fun p => .post p.1 .granted
    trace := (ps.map fun p => Note.decided siteId p.1 (.result .granted) p.2).reverse ++ s.trace }

/-- The promotion loop on the entry `site` of `siteId`, and the loop over `promoted` after the
lock. Returns the entry as the loop leaves it. -/
def State.promoteSite (s : State) (siteId : Int) (site : SiteState) : SiteState × State :=
  let p := promote site.maximumActive site.queue site.active s.pending
  let site := { site with queue := p.queue, active := p.active }
  (site, { s with sites := s.sites.set siteId (some site), pending := p.heap }.grantAll siteId
    p.promoted)

/-! ## The operations -/

/-- `auto& site = impl_->sites[site_id]` and the assignments that follow it. -/
def refresh (found : Option SiteState) (siteName backend : String)
    (maximumActive maximumQueue queueTimeout : Nat) : SiteState :=
  { found.getD {} with
    retired := false
    siteName := siteName
    backend := backend
    maximumActive := maximumActive
    maximumQueue := maximumQueue
    queueTimeoutSeconds := queueTimeout % 2 ^ 32 }

/-- What `async_acquire` does with the new request itself: grant, reject or queue it. -/
def State.accept (s : State) (siteId : Int) (site : SiteState) (w : Nat) : State :=
  if site.queue = [] ∧ site.active < site.maximumActive then
    { s with
      sites := s.sites.set siteId (some { site with active := site.active + 1 })
      pending := Function.update s.pending w (some ⟨siteId, true, true⟩) }.grantAll siteId
        [(w, site.queue)]
  else if site.maximumQueue ≤ site.queue.length then
    { s with
      sites := s.sites.set siteId (some { site with rejected := site.rejected + 1 })
      pending := Function.update s.pending w (some ⟨siteId, true, true⟩)
      tasks := s.tasks ++ [.post w .queueFull]
      trace := .decided siteId w (.result .queueFull) site.queue :: s.trace }
  else
    { s with
      sites := s.sites.set siteId (some { site with queue := site.queue ++ [w] })
      pending := Function.update s.pending w (some ⟨siteId, false, true⟩) }

/-- The entry under `siteId`, created when absent, as `impl_->sites[site_id]` does. -/
def State.create (s : State) (siteId : Int) : State :=
  match s.sites.lookup siteId with
  | some _ => s
  | none =>
    { s with sites := s.sites.set siteId (some {}), trace := .created siteId :: s.trace }

def asyncAcquire (s : State) (siteId : Int) (siteName backend : String)
    (maximumActive maximumQueue queueTimeout : Nat) : State :=
  let site :=
    refresh (s.sites.lookup siteId) siteName backend maximumActive maximumQueue queueTimeout
  let w := s.nextWaiterId
  -- an older waiter profits from a raised limit before the new request does
  let r := State.promoteSite { s.create siteId with nextWaiterId := w + 1 } siteId site
  r.2.accept siteId r.1 w

/-- The loop of `release`: the first waiter whose `completed` it can claim. -/
def popLive : List Nat → Heap → Option Nat × List Nat × Heap
  | [], heap => (none, [], heap)
  | w :: queue, heap =>
    match claim heap w with
    | some heap' => (some w, queue, heap')
    | none => popLive queue heap

/-- `release` after the lock: the slot of the released permit goes to the claimed waiter `w`. -/
def State.passOn (s : State) (siteId : Int) (w : Nat) (queue : List Nat) : HandOff → State
  | .posted => s.grantAll siteId [(w, queue)]
  | .called =>
    { s with
      permits := s.permits ++ [⟨siteId, s.epoch⟩]
      tasks := s.tasks ++ [.invoke w .granted]
      trace := .decided siteId w (.result .granted) queue :: s.trace }
  | .noPermit =>
    { s with
      tasks := s.tasks ++ [.refuse w siteId (some s.epoch)]
      trace := .decided siteId w (.result .queueFull) queue :: s.trace }
  | .noControlBlock =>
    { s with
      tasks := s.tasks ++ [.unwind w siteId s.epoch]
      trace := .decided siteId w (.result .queueFull) queue :: s.trace }

def release (s : State) (siteId : Int) (h : HandOff) : State :=
  match s.sites.lookup siteId with
  | none => s
  | some site =>
    if site.maximumActive < site.active then
      { s with sites := s.sites.set siteId ({ site with active := site.active - 1 }).reclaim }
    else
      match popLive site.queue s.pending with
      | (some w, queue, heap) =>
        State.passOn { s with
          sites := s.sites.set siteId (some { site with queue := queue })
          pending := heap } siteId w queue h
      | (none, queue, heap) =>
        let site := { site with
          queue := queue, active := if site.active ≠ 0 then site.active - 1 else site.active }
        { s with sites := s.sites.set siteId site.reclaim, pending := heap }

def cancelPending (s : State) (siteId : Int) (w : Nat) : State :=
  match s.sites.lookup siteId with
  | none => s
  | some site =>
    if w ∈ site.queue then
      match claim s.pending w with
      | none => s
      | some heap =>
        { s with
          sites := s.sites.set siteId ({ site with queue := site.queue.erase w }).reclaim
          pending := heap
          tasks := s.tasks ++ [.drop w]
          trace := .decided siteId w .withdrawn (site.queue.erase w) :: s.trace }
    else s

def timeoutPending (s : State) (siteId : Int) (w : Nat) : State :=
  match s.sites.lookup siteId with
  | none => s
  | some site =>
    if w ∈ site.queue then
      match claim s.pending w with
      | none => s
      | some heap =>
        { s with
          sites := s.sites.set siteId ({ site with
            queue := site.queue.erase w
            rejected := site.rejected + 1
            timeouts := site.timeouts + 1 }).reclaim
          pending := heap
          tasks := s.tasks ++ [.post w .queueTimeout]
          trace := .decided siteId w (.result .queueTimeout) (site.queue.erase w) :: s.trace }
    else s

def updateLimits (s : State) (siteId : Int) (maximumActive maximumQueue : Nat) : State :=
  match s.sites.lookup siteId with
  | none => s
  | some site =>
    (s.promoteSite siteId { site with
      retired := false
      maximumActive := maximumActive
      maximumQueue := maximumQueue }).2

def retainSites (s : State) (activeSiteIds : List Int) : State :=
  { s with sites := s.sites.mapFilter fun id site =>
      if id ∈ activeSiteIds then some site else ({ site with retired := true }).reclaim }

/-- The waiters of `clear`'s loop that it claims, with their sites. -/
def claimAll : List (Int × Nat) → Heap → List (Int × Nat) × Heap
  | [], heap => ([], heap)
  | x :: xs, heap =>
    match claim heap x.2 with
    | some heap' =>
      let r := claimAll xs heap'
      (x :: r.1, r.2)
    | none => claimAll xs heap

/-- Every queued waiter with the site it waits for. -/
def State.queuedWaiters (s : State) : List (Int × Nat) :=
  s.sites.entries.flatMap fun e => e.2.queue.map fun w => (e.1, w)

def clear (s : State) : State :=
  let r := claimAll s.queuedWaiters s.pending
  { s with
    sites := ∅
    pending := r.2
    tasks := s.tasks ++ r.1.map fun x => .drop x.2
    trace := (r.1.map fun x => Note.decided x.1 x.2 .withdrawn []).reverse ++ s.trace
    epoch := s.epoch + 1 }

/-! ## Work outside the lock -/

/-- `if (state->handler) state->handler(result, permit); state->handler = {};` -/
def invoke (s : State) (w : Nat) (r : BackendAcquireResult) : State :=
  { s with
    pending := clearHandler s.pending w
    trace := if (s.pending w).any (·.handler) then .called w r :: s.trace else s.trace }

def perform (s : State) (h : HandOff) : Task → State
  | .post w r => { s with tasks := s.tasks ++ [.invoke w r] }
  | .invoke w r => invoke s w r
  | .drop w => { s with pending := clearHandler s.pending w }
  | .refuse w siteId slot =>
    { invoke s w .queueFull with tasks := s.tasks ++ [.release siteId slot] }
  | .release siteId _ => release s siteId h
  | .unwind w siteId _ => release { s with tasks := s.tasks ++ [.refuse w siteId none] } siteId h

/-! ## Events -/

inductive Event where
  | asyncAcquire (siteId : Int) (siteName backend : String)
      (maximumActive maximumQueue queueTimeout : Nat)
  /-- the `i`-th live permit is destroyed -/
  | destroyPermit (i : Nat) (h : HandOff)
  | updateLimits (siteId : Int) (maximumActive maximumQueue : Nat)
  | retainSites (activeSiteIds : List Int)
  /-- `Pending::cancel`, also called by its destructor -/
  | cancel (waiterId : Nat)
  /-- the waiter's timer expires -/
  | timeout (waiterId : Nat)
  | clear
  /-- the `i`-th outstanding task is run -/
  | run (i : Nat) (h : HandOff)
  deriving DecidableEq, Repr

def step (s : State) : Event → Option State
  | .asyncAcquire siteId siteName backend maximumActive maximumQueue queueTimeout =>
    some (asyncAcquire s siteId siteName backend maximumActive maximumQueue queueTimeout)
  | .destroyPermit i h =>
    match s.permits[i]? with
    | some p => some (release { s with permits := s.permits.eraseIdx i } p.siteId h)
    | none => none
  | .updateLimits siteId maximumActive maximumQueue =>
    some (updateLimits s siteId maximumActive maximumQueue)
  | .retainSites activeSiteIds => some (retainSites s activeSiteIds)
  | .cancel w =>
    match s.pending w with
    | some p => some (cancelPending s p.siteId w)
    | none => none
  | .timeout w =>
    match s.pending w with
    | some p => some (timeoutPending s p.siteId w)
    | none => none
  | .clear => some (clear s)
  | .run i h =>
    match s.tasks[i]? with
    | some t => some (perform { s with tasks := s.tasks.eraseIdx i } h t)
    | none => none

/-- The hand-off an event carries, if it can release a slot. -/
def Event.handOff? : Event → Option HandOff
  | .destroyPermit _ h => some h
  | .run _ h => some h
  | _ => none

/-- No allocation of a `Permit` or of its `shared_ptr` fails in this event. -/
def Event.permitAllocated (e : Event) : Prop := e.handOff?.all HandOff.allocated = true

instance (e : Event) : Decidable e.permitAllocated := inferInstanceAs (Decidable (_ = true))

end Limiter
end WebServer
