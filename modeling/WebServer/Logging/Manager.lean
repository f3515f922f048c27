import Mathlib.Data.List.Basic
import WebServer.Lib.Run

/-!
# WebServer.Logging.Manager

`LogManager`: a bounded queue of log events, filled by any thread and emptied by one writer thread.

Every section under `mutex_` is an atomic step, and so is the writing of a line to a file. A write or
a rotation may throw at any time; the exception ends the writer, whose handler takes the lock once
more. `push_back` may throw too, and then the event is counted in a section of its own. The counters
are natural numbers: the source's 64-bit counters do not wrap before 2^64 events.

`called` and `written` are not in the source: the events whose fate was decided so far, in the order
of the lock, and the events in the log files, in the order in which they were written.

* `conserved_iff`: the counters are right in every state of a run exactly if the writer never throws
  away an event that was accepted.
-/

namespace WebServer
namespace Logging

open Run

/-- `AccessLogEntry` or `ErrorLogEntry`, each with its time. -/
inductive Event (α β : Type) where
  | access (entry : α)
  | error (entry : β)
  deriving DecidableEq, Repr

variable {α β : Type}

def isAccess : Event α β → Bool
  | .access _ => true
  | .error _ => false

@[simp] theorem isAccess_access (entry : α) : isAccess (.access entry : Event α β) = true := rfl

@[simp] theorem isAccess_error (entry : β) : isAccess (.error entry : Event α β) = false := rfl

inductive Writer (α β : Type) where
  /-- in `ready_.wait` -/
  | waiting
  | writing (event : Event α β)
  /-- after `write_event` -/
  | wrote
  /-- in `write_drop_summary`, before the lock; `last` says whether the writer is to stop -/
  | summing (last : Bool)
  /-- writing the line of the summary -/
  | reporting (last : Bool)
  /-- before the lock that ends the pass -/
  | flushed (last : Bool)
  /-- in the handler, before the lock -/
  | failed
  | returned

structure State (α β : Type) where
  queue : List (Event α β) := []
  acceptedAccess : Nat := 0
  acceptedError : Nat := 0
  droppedAccess : Nat := 0
  droppedError : Nat := 0
  reportedDroppedAccess : Nat := 0
  reportedDroppedError : Nat := 0
  writerBusy : Bool := false
  stopping : Bool := false
  writer : Writer α β := .waiting
  /-- events whose `push_back` threw, not counted yet -/
  unwinding : List (Event α β) := []
  called : List (Event α β) := []
  written : List (Event α β) := []

namespace State

/-- The event is counted as dropped. -/
def drop (s : State α β) (e : Event α β) : State α β :=
  match e with
  | .access _ => { s with droppedAccess := s.droppedAccess + 1, called := s.called ++ [e] }
  | .error _ => { s with droppedError := s.droppedError + 1, called := s.called ++ [e] }

def accept (s : State α β) (e : Event α β) : State α β :=
  match e with
  | .access _ => { s with
      queue := s.queue ++ [e], acceptedAccess := s.acceptedAccess + 1, called := s.called ++ [e] }
  | .error _ => { s with
      queue := s.queue ++ [e], acceptedError := s.acceptedError + 1, called := s.called ++ [e] }

/-- The oldest access event makes room. -/
def evict (s : State α β) : State α β :=
  { s with
    queue := s.queue.eraseP isAccess
    acceptedAccess := s.acceptedAccess - 1
    droppedAccess := s.droppedAccess + 1 }

/-- `queue_.push_back` and the count, or the way into the handler. -/
def push (s : State α β) (e : Event α β) (allocated : Bool) : State α β :=
  if allocated then s.accept e else { s with unwinding := e :: s.unwinding }

def enqueue (capacity : Nat) (s : State α β) (e : Event α β) (allocated : Bool) : State α β :=
  if s.stopping then s.drop e
  else if capacity ≤ s.queue.length then
    if isAccess e then s.drop e
    else if s.queue.any isAccess then s.evict.push e allocated
    else s.drop e
  else s.push e allocated

/-- The event that the writer has taken out of the queue. -/
def writing (s : State α β) : List (Event α β) :=
  match s.writer with
  | .writing e => [e]
  | _ => []

/-- The events written, being written or still queued. -/
def retained (s : State α β) : List (Event α β) := s.written ++ (s.writing ++ s.queue)

end State

inductive Step (α β : Type) where
  /-- `log_access` or `log_error`; `allocated` says whether `push_back` throws -/
  | log (event : Event α β) (allocated : Bool)
  /-- the handler of `enqueue` -/
  | unwound (event : Event α β)
  /-- the wait of the writer ends -/
  | take
  | write
  /-- `queue_empty = queue_.empty()` -/
  | look
  /-- the section of `write_drop_summary` -/
  | sum
  | report
  /-- the section that ends a pass of the writer -/
  | rest
  /-- a write or a rotation throws -/
  | throw
  /-- the section after the handlers -/
  | giveUp
  /-- the destructor sets `stopping_` -/
  | stop

variable [DecidableEq α] [DecidableEq β] (capacity : Nat)

def step (s : State α β) : Step α β → Option (State α β)
  | .log e allocated => some (s.enqueue capacity e allocated)
  | .unwound e =>
    if e ∈ s.unwinding then some ({ s with unwinding := s.unwinding.erase e }.drop e) else none
  | .take =>
    match s.writer, s.queue with
    | .waiting, e :: queue =>
      some { s with queue := queue, writerBusy := true, writer := .writing e }
    | .waiting, [] =>
      if s.stopping then some { s with writerBusy := true, writer := .summing true } else none
    | _, _ => none
  | .write =>
    match s.writer with
    | .writing e => some { s with writer := .wrote, written := s.written ++ [e] }
    | _ => none
  | .look =>
    match s.writer with
    | .wrote =>
      some { s with writer := if s.queue.isEmpty then .summing false else .flushed false }
    | _ => none
  | .sum =>
    match s.writer with
    | .summing last =>
      if s.droppedAccess = s.reportedDroppedAccess ∧ s.droppedError = s.reportedDroppedError then
        some { s with writer := .flushed last }
      else
        some { s with
          reportedDroppedAccess := s.droppedAccess
          reportedDroppedError := s.droppedError
          writer := .reporting last }
    | _ => none
  | .report =>
    match s.writer with
    | .reporting last => some { s with writer := .flushed last }
    | _ => none
  | .rest =>
    match s.writer with
    | .flushed last =>
      some { s with writerBusy := false, writer := if last then .returned else .waiting }
    | _ => none
  | .throw =>
    match s.writer with
    | .writing _ | .reporting _ => some { s with writer := .failed }
    | _ => none
  | .giveUp =>
    match s.writer with
    | .failed =>
      some { s with queue := [], writerBusy := false, stopping := true, writer := .returned }
    | _ => none
  | .stop => some { s with stopping := true }

/-! ## Conservation -/

/-- An accepted event is written, being written or queued, every other one is counted as dropped, and
nothing is written out of order. -/
structure Conserved (s : State α β) : Prop where
  bounded : s.queue.length ≤ capacity
  fair : ∀ entry s', step capacity s (.log (.error entry) true) = some s' → s.stopping = false →
    s'.droppedError ≠ s.droppedError → ∀ e ∈ s.queue, isAccess e = false
  order : s.retained.Sublist s.called
  acceptedAccess : s.acceptedAccess = s.retained.countP isAccess
  acceptedError : s.acceptedError = s.retained.countP fun e => !isAccess e
  access : s.acceptedAccess + s.droppedAccess = s.called.countP isAccess
  error : s.acceptedError + s.droppedError = s.called.countP fun e => !isAccess e

/-- The writer does not throw away an accepted event. -/
def KeepsAccepted (s : State α β) : Step α β → Prop
  | .throw => s.writing = []
  | .giveUp => s.writer = .failed → s.queue = []
  | _ => True

variable {capacity} {s s' : State α β}

theorem fair_step (s : State α β) (entry : β) (s' : State α β)
    (h : step capacity s (.log (.error entry) true) = some s') (hstop : s.stopping = false)
    (hdropped : s'.droppedError ≠ s.droppedError) : ∀ e ∈ s.queue, isAccess e = false := by
  cases h
  unfold State.enqueue at hdropped
  rw [hstop] at hdropped
  simp only [Bool.false_eq_true, if_false, isAccess] at hdropped
  split at hdropped
  · split at hdropped
    · exact absurd rfl hdropped
    · rename_i hany
      intro e he
      cases hacc : isAccess e with
      | false => rfl
      | true => exact absurd (List.any_eq_true.mpr ⟨e, he, hacc⟩) hany
  · exact absurd rfl hdropped

/-- A step of the writer that moves no event. -/
theorem Conserved.same (h : Conserved capacity s) (hqueue : s'.queue.length ≤ s.queue.length)
    (hretained : s'.retained = s.retained) (hcalled : s'.called = s.called)
    (haccess : s'.acceptedAccess = s.acceptedAccess ∧ s'.droppedAccess = s.droppedAccess)
    (herror : s'.acceptedError = s.acceptedError ∧ s'.droppedError = s.droppedError) :
    Conserved capacity s' := by
  refine ⟨Nat.le_trans hqueue h.bounded, fair_step s', ?_, ?_, ?_, ?_, ?_⟩
  · rw [hretained, hcalled]; exact h.order
  · rw [hretained, haccess.1]; exact h.acceptedAccess
  · rw [hretained, herror.1]; exact h.acceptedError
  · rw [hcalled, haccess.1, haccess.2]; exact h.access
  · rw [hcalled, herror.1, herror.2]; exact h.error

theorem Conserved.drop (h : Conserved capacity s) (e : Event α β) :
    Conserved capacity (s.drop e) := by
  have horder : s.retained.Sublist (s.called ++ [e]) := h.order.trans (List.sublist_append_left _ _)
  have haccess := h.access
  have herror := h.error
  cases e with
  | access entry =>
    refine ⟨h.bounded, fair_step _, horder, h.acceptedAccess, h.acceptedError, ?_, ?_⟩
    · simp [State.drop]; omega
    · simp [State.drop]; omega
  | error entry =>
    refine ⟨h.bounded, fair_step _, horder, h.acceptedAccess, h.acceptedError, ?_, ?_⟩
    · simp [State.drop]; omega
    · simp [State.drop]; omega

omit [DecidableEq α] [DecidableEq β] in
theorem retained_push {s' : State α β} {e : Event α β} (hwritten : s'.written = s.written)
    (hwriter : s'.writer = s.writer) (hqueue : s'.queue = s.queue ++ [e]) :
    s'.retained = s.retained ++ [e] := by
  simp [State.retained, State.writing, hwritten, hwriter, hqueue]

theorem Conserved.accept (h : Conserved capacity s) (hroom : s.queue.length < capacity)
    (e : Event α β) : Conserved capacity (s.accept e) := by
  have hretained : (s.accept e).retained = s.retained ++ [e] := by
    cases e <;> exact retained_push rfl rfl rfl
  have hcalled : (s.accept e).called = s.called ++ [e] := by cases e <;> rfl
  have hqueue : (s.accept e).queue = s.queue ++ [e] := by cases e <;> rfl
  have haccess := h.access
  have herror := h.error
  refine ⟨by rw [hqueue]; simp; omega, fair_step _, ?_, ?_, ?_, ?_, ?_⟩
  · rw [hretained, hcalled]
    exact h.order.append (List.Sublist.refl _)
  · rw [hretained]
    cases e <;> simp [State.accept, h.acceptedAccess]
  · rw [hretained]
    cases e <;> simp [State.accept, h.acceptedError]
  · rw [hcalled]
    cases e <;> simp [State.accept] <;> omega
  · rw [hcalled]
    cases e <;> simp [State.accept] <;> omega

theorem Conserved.push (h : Conserved capacity s) (hroom : s.queue.length < capacity)
    (e : Event α β) (allocated : Bool) : Conserved capacity (s.push e allocated) := by
  unfold State.push
  split
  · exact h.accept hroom e
  · exact h.same (Nat.le_refl _) rfl rfl ⟨rfl, rfl⟩ ⟨rfl, rfl⟩

/-- The evicted event was counted as accepted and is now counted as dropped. -/
theorem Conserved.evict (h : Conserved capacity s) (hany : s.queue.any isAccess = true) :
    Conserved capacity s.evict ∧ s.evict.queue.length + 1 = s.queue.length := by
  obtain ⟨e, he, hacc⟩ := List.any_eq_true.mp hany
  obtain ⟨a, front, back, -, ha, hqueue, herase⟩ := List.exists_of_eraseP he hacc
  have hretained : s.retained = s.written ++ (s.writing ++ (front ++ a :: back)) := by
    rw [State.retained, hqueue]
  have hevicted : s.evict.retained = s.written ++ (s.writing ++ (front ++ back)) := by
    rw [← herase]
    rfl
  have haccess := h.access
  have hacceptedAccess := h.acceptedAccess
  have hacceptedError := h.acceptedError
  have hbounded := h.bounded
  have horder := h.order
  rw [hretained] at hacceptedAccess hacceptedError horder
  simp only [List.countP_append, List.countP_cons, ha, if_true, Bool.not_true, Bool.false_eq_true,
    if_false] at hacceptedAccess hacceptedError
  have hlength : s.evict.queue.length + 1 = s.queue.length := by
    rw [State.evict, herase, hqueue]
    simp
    omega
  refine ⟨⟨by omega, fair_step _, ?_, ?_, ?_, ?_, h.error⟩, hlength⟩
  · rw [hevicted]
    refine List.Sublist.trans ?_ horder
    exact (List.Sublist.refl _).append ((List.Sublist.refl _).append
      ((List.Sublist.refl _).append (List.sublist_cons_self a back)))
  · rw [hevicted]
    simp only [State.evict, List.countP_append]
    omega
  · rw [hevicted]
    simp only [State.evict, List.countP_append]
    omega
  · simp only [State.evict]
    omega

theorem Conserved.enqueue (h : Conserved capacity s) (e : Event α β) (allocated : Bool) :
    Conserved capacity (s.enqueue capacity e allocated) := by
  unfold State.enqueue
  split
  · exact h.drop e
  · split
    · split
      · exact h.drop e
      · split
        · rename_i hany
          obtain ⟨hevict, hlength⟩ := h.evict hany
          have hbounded := h.bounded
          exact hevict.push (by omega) e allocated
        · exact h.drop e
    · exact h.push (by omega) e allocated

theorem throw_eq (h : step capacity s .throw = some s') : s' = { s with writer := .failed } := by
  simp only [step] at h
  split at h
  · exact (Option.some.inj h).symm
  · exact (Option.some.inj h).symm
  · cases h

theorem giveUp_eq (h : step capacity s .giveUp = some s') :
    s.writer = .failed ∧
      s' = { s with queue := [], writerBusy := false, stopping := true, writer := .returned } := by
  simp only [step] at h
  split at h
  · rename_i hwriter
    exact ⟨hwriter, (Option.some.inj h).symm⟩
  · cases h

theorem conserved_step {e : Step α β} (h : Conserved capacity s) (hkeeps : KeepsAccepted s e)
    (hstep : step capacity s e = some s') : Conserved capacity s' := by
  cases e with
  | log e allocated =>
    cases hstep
    exact h.enqueue e allocated
  | unwound e =>
    simp only [step] at hstep
    split at hstep
    · cases hstep
      refine Conserved.drop ?_ e
      exact h.same (Nat.le_refl _) rfl rfl ⟨rfl, rfl⟩ ⟨rfl, rfl⟩
    · cases hstep
  | take =>
    simp only [step] at hstep
    split at hstep
    · rename_i e queue hwriter hqueue
      cases hstep
      refine h.same ?_ ?_ rfl ⟨rfl, rfl⟩ ⟨rfl, rfl⟩
      · simp [hqueue]
      · simp [State.retained, State.writing, hwriter, hqueue]
    · rename_i hwriter hqueue
      split at hstep
      · cases hstep
        refine h.same (Nat.le_refl _) ?_ rfl ⟨rfl, rfl⟩ ⟨rfl, rfl⟩
        simp [State.retained, State.writing, hwriter]
      · cases hstep
    · cases hstep
  | write =>
    simp only [step] at hstep
    split at hstep
    · rename_i e hwriter
      cases hstep
      refine h.same (Nat.le_refl _) ?_ rfl ⟨rfl, rfl⟩ ⟨rfl, rfl⟩
      simp [State.retained, State.writing, hwriter]
    · cases hstep
  | look =>
    simp only [step] at hstep
    split at hstep
    · rename_i hwriter
      cases hstep
      refine h.same (Nat.le_refl _) ?_ rfl ⟨rfl, rfl⟩ ⟨rfl, rfl⟩
      cases s.queue.isEmpty <;> simp [State.retained, State.writing, hwriter]
    · cases hstep
  | sum =>
    simp only [step] at hstep
    split at hstep
    · rename_i last hwriter
      split at hstep
      · cases hstep
        refine h.same (Nat.le_refl _) ?_ rfl ⟨rfl, rfl⟩ ⟨rfl, rfl⟩
        simp [State.retained, State.writing, hwriter]
      · cases hstep
        refine h.same (Nat.le_refl _) ?_ rfl ⟨rfl, rfl⟩ ⟨rfl, rfl⟩
        simp [State.retained, State.writing, hwriter]
    · cases hstep
  | report =>
    simp only [step] at hstep
    split at hstep
    · rename_i last hwriter
      cases hstep
      refine h.same (Nat.le_refl _) ?_ rfl ⟨rfl, rfl⟩ ⟨rfl, rfl⟩
      simp [State.retained, State.writing, hwriter]
    · cases hstep
  | rest =>
    simp only [step] at hstep
    split at hstep
    · rename_i last hwriter
      cases hstep
      refine h.same (Nat.le_refl _) ?_ rfl ⟨rfl, rfl⟩ ⟨rfl, rfl⟩
      cases last <;> simp [State.retained, State.writing, hwriter]
    · cases hstep
  | throw =>
    have hwriting : s.writing = [] := hkeeps
    obtain rfl := throw_eq hstep
    refine h.same (Nat.le_refl _) ?_ rfl ⟨rfl, rfl⟩ ⟨rfl, rfl⟩
    rw [State.retained, State.retained, hwriting]
    rfl
  | giveUp =>
    obtain ⟨hwriter, rfl⟩ := giveUp_eq hstep
    have hqueue : s.queue = [] := hkeeps hwriter
    refine h.same (Nat.zero_le _) ?_ rfl ⟨rfl, rfl⟩ ⟨rfl, rfl⟩
    simp [State.retained, State.writing, hwriter, hqueue]
  | stop =>
    cases hstep
    exact h.same (Nat.le_refl _) rfl rfl ⟨rfl, rfl⟩ ⟨rfl, rfl⟩

/-- The counters know how many events are retained. -/
theorem Conserved.accepted (h : Conserved capacity s) :
    s.acceptedAccess + s.acceptedError = s.retained.length := by
  rw [h.acceptedAccess, h.acceptedError]
  have hlength := List.length_eq_countP_add_countP isAccess (l := s.retained)
  simp only [Bool.not_eq_true, Bool.decide_eq_false] at hlength
  exact hlength.symm

theorem keepsAccepted_of_conserved (h : Conserved capacity s) {e : Step α β}
    (h' : ∀ s', step capacity s e = some s' → Conserved capacity s') : KeepsAccepted s e := by
  cases e with
  | throw =>
    show s.writing = []
    cases hwriter : s.writer with
    | writing e =>
      -- the counters still count the event that was being written
      have hthrown := h' { s with writer := .failed } (by simp [step, hwriter])
      have hbefore := h.accepted
      have hafter := hthrown.accepted
      simp only [State.retained, State.writing, hwriter, List.length_append, List.length_cons,
        List.length_nil] at hbefore hafter
      omega
    | _ => simp [State.writing, hwriter]
  | giveUp =>
    intro hwriter
    have hcleared := h'
      { s with queue := [], writerBusy := false, stopping := true, writer := .returned }
      (by simp [step, hwriter])
    have hbefore := h.accepted
    have hafter := hcleared.accepted
    simp only [State.retained, State.writing, hwriter, List.length_append, List.length_nil]
      at hbefore hafter
    exact List.eq_nil_of_length_eq_zero (by omega)
  | _ => trivial

theorem conserved_init :
    Conserved capacity ({} : State α β) := by
  refine ⟨Nat.zero_le _, fair_step _, ?_, rfl, rfl, rfl, rfl⟩
  exact List.Sublist.refl _

/-- Every state of a run counts its events exactly if the writer throws away no accepted event in
it. -/
theorem conserved_iff (events : List (Step α β)) :
    (∀ events' s, events' <+: events → run (step capacity) {} events' = some s →
      Conserved capacity s) ↔ Along (step capacity) KeepsAccepted {} events :=
  along_iff (fun _ h => h) (fun _ _ _ h hkeeps hstep => conserved_step h hkeeps hstep)
    (fun _ _ h h' => keepsAccepted_of_conserved h h') conserved_init

/-- A write fails after two events were accepted: both are lost, and the counters still say that
two events were accepted and none was dropped. -/
theorem failedWrite_lost :
    ∃ s : State Nat Nat, run (step 2) {}
        [.log (.access 1) true, .log (.error 2) true, .take, .throw, .giveUp] = some s ∧
      s.acceptedAccess = 1 ∧ s.acceptedError = 1 ∧ s.droppedAccess = 0 ∧ s.droppedError = 0 ∧
      s.retained = [] ∧ ¬ Conserved 2 s := by
  refine ⟨_, rfl, rfl, rfl, rfl, rfl, rfl, ?_⟩
  intro h
  exact absurd h.acceptedAccess (by decide)

end Logging
end WebServer
