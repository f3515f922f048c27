import WebServer.Proxy.Attempts

/-!
# WebServer.Proxy.Buffers

Which memory the operations in flight use, in every run.

The block of the upload serves the response too, once the upload is over. A response that comes
earlier gets a block of its own, but only when it has a body to be read: `Apart` says that a response
without one leaves the block of the upload alone. That needs two facts about the HTTP library, which
`faithful` names: a parser is done or not until it reads on, and a serializer asks for a buffer only
while the body has more.
-/

namespace WebServer
namespace Proxy

open Run

/-- The operation reads into the buffer or writes from it. -/
def usesBuffer (s : State) (b : Buffer) : Op → Bool
  | .onRequestBodyRead | .onRequestBodyWritten => b = .httpTransfer
  | .onBodyRead | .onBodyWritten => s.responseData = some b
  | .onClientTunnelRead | .onBackendTunnelWritten => b = .clientToBackend
  | .onBackendTunnelRead | .onClientTunnelWritten => b = .backendToClient
  | _ => false

/-- What the parser and the serializer of the response report agrees with its body. -/
def faithful (s : State) : Event → Bool
  | .complete .onHeaderWritten io => io.responseDone = !s.responseMore
  | .complete .onBodyWritten io => io.error ≠ some .needBuffer || s.responseMore
  | _ => true

structure Apart (s : State) : Prop where
  own : ∀ b, s.responseData = some b →
    b = .responseTransfer ∨ b = .httpTransfer ∧ s.responseTransferBuffer = false
  reading : .onBodyRead ∈ s.inFlight → s.responseData ≠ none
  /-- while the upload goes on, the response has a block of its own or needs none -/
  apart : ∀ op ∈ s.inFlight, ∀ other ∈ s.inFlight, op.line = .relay → other.line = .upload →
    s.responseTransferBuffer = true ∨ s.responseMore = false ∧ s.responseData = none

theorem apart_init (c : Config) : Apart (State.init c) := by
  refine ⟨by simp [State.init], by simp [State.init], ?_⟩
  simp [State.init, Op.line]

/-! ## Steps -/

section Steps

variable {c : Config} {s t : State} {io : Io} {op : Op} {started : List Op}

/-- A relayed response and an upload in flight after a completion were in flight before it, or have
taken the place of what completed. -/
theorem Apart.before (h : Apart s) (hn : Narrow (shapeOf s.inFlight)) (hm : op ∈ s.inFlight)
    (hs : Starts io op started) (hanswer : .onHeaderWritten ∉ started) {r u : Op}
    (hr : r ∈ started ++ s.inFlight.erase op) (hu : u ∈ started ++ s.inFlight.erase op)
    (hrelay : r.line = .relay) (hupload : u.line = .upload) :
    s.responseTransferBuffer = true ∨ s.responseMore = false ∧ s.responseData = none := by
  -- the relayed response
  have hr' : r ∈ s.inFlight.erase op ∨ op.line = .relay := by
    rcases List.mem_append.mp hr with hr | hr
    · right
      have horigin := hs.origin hr
      cases r with
      | onHeaderWritten => exact absurd hr hanswer
      | onBodyRead => rcases horigin with ⟨rfl, -⟩ | ⟨rfl, -⟩ <;> rfl
      | onBodyWritten => exact horigin
      | _ => cases hrelay
    · exact .inl hr
  -- the upload; where it has just begun nothing is relayed
  have hu' : u ∈ s.inFlight.erase op ∨ op.line = .upload := by
    rcases List.mem_append.mp hu with hu | hu
    · right
      have hsending : u.sending = true := by simp [Op.sending, hupload]
      rcases starts_sending hs hu hsending with hop | ⟨rfl, -⟩
      · by_contra hline
        have hcontinue : op = .onContinueWritten := by simpa [Op.sending, hline] using hop
        subst hcontinue
        rcases hr' with hr' | hr'
        · rcases hn.alone hm rfl hr' with hside | hside <;> rw [hrelay] at hside <;> cases hside
        · cases hr'
      · rcases hr' with hr' | hr'
        · rcases hn.alone hm rfl hr' with hside | hside <;> rw [hrelay] at hside <;> cases hside
        · cases hr'
    · exact .inl hu
  rcases hr' with hr' | hr'
  · rcases hu' with hu' | hu'
    · exact h.apart r (List.mem_of_mem_erase hr') u (List.mem_of_mem_erase hu') hrelay hupload
    · exact h.apart r (List.mem_of_mem_erase hr') op hm hrelay hu'
  · rcases hu' with hu' | hu'
    · exact h.apart op hm u (List.mem_of_mem_erase hu') hr' hupload
    · rw [hr'] at hu'
      cases hu'

/-- A completion that leaves the body of the response alone. -/
theorem Apart.keep (h : Apart s) (hn : Narrow (shapeOf s.inFlight)) (hm : op ∈ s.inFlight)
    (hs : Starts io op started) (hf : t.inFlight = started ++ s.inFlight.erase op)
    (hengaged : t.responseTransferBuffer = s.responseTransferBuffer)
    (hdata : t.responseData = s.responseData) (hmore : t.responseMore = s.responseMore)
    (hread : .onBodyRead ∉ started) (hanswer : .onHeaderWritten ∉ started) : Apart t := by
  refine ⟨by rw [hengaged, hdata]; exact h.own, ?_, ?_⟩
  · intro hm'
    rw [hf] at hm'
    rw [hdata]
    rcases List.mem_append.mp hm' with hm' | hm'
    · exact absurd hm' hread
    · exact h.reading (List.mem_of_mem_erase hm')
  · intro r hr u hu hrelay hupload
    rw [hf] at hr hu
    rw [hengaged, hmore, hdata]
    exact h.before hn hm hs hanswer hr hu hrelay hupload

/-- The response goes on with another part of its body, in the block it was given. -/
theorem Apart.transfer (h : Apart s) (hn : Narrow (shapeOf s.inFlight)) (hm : op ∈ s.inFlight)
    (hs : Starts io op started) (hf : t.inFlight = started ++ s.inFlight.erase op)
    (hengaged : t.responseTransferBuffer = s.responseTransferBuffer)
    (hdata : t.responseData = some s.transfer) (hanswer : .onHeaderWritten ∉ started)
    (hmore : ¬ (s.responseMore = false ∧ s.responseData = none)) : Apart t := by
  refine ⟨?_, ?_, ?_⟩
  · intro b hb
    rw [hdata, State.transfer] at hb
    rw [hengaged]
    cases hown : s.responseTransferBuffer with
    | true =>
      simp only [hown, if_true, Option.some.injEq] at hb
      exact .inl hb.symm
    | false =>
      simp only [hown, Bool.false_eq_true, if_false, Option.some.injEq] at hb
      exact .inr ⟨hb.symm, rfl⟩
  · intro _
    simp [hdata]
  · intro r hr u hu hrelay hupload
    rw [hf] at hr hu
    rw [hengaged]
    exact .inl ((h.before hn hm hs hanswer hr hu hrelay hupload).resolve_right hmore)

/-- The response header is answered only while the transaction awaits it. -/
theorem Mode.uploading (h : Mode s) (hm : .onResponseHeader ∈ s.inFlight)
    (hclose : s.backendCloseRequested = false) (hr : s.completed = false) {u : Op}
    (hu : u ∈ s.inFlight) (hupload : u.line = .upload) : s.requestUploadComplete = false := by
  have hpos := get_pos_of_mem hm
  have hpos' := get_pos_of_mem hu
  rw [hupload] at hpos'
  cases h with
  | acquiring hc hs => simp [hs, Op.line, Shape.get] at hpos
  | connecting h hs => simp [hs, Op.line, Shape.get] at hpos
  | setup h hs => simp [hs, Op.line, Shape.get] at hpos
  | awaiting n h hs hconn hn hstop hup =>
    by_contra hdone
    have := hup (by simpa using hdone)
    simp [hs, this, Shape.get] at hpos'
  | relaying n h hs => simp [hs, Op.line, Shape.get] at hpos
  | switching h hs => simp [hs, Op.line, Shape.get] at hpos
  | tunnelling h hs => simp [hs, Op.line, Shape.get] at hpos
  | failing a b n e h hs hclosed =>
    rcases hclosed with hclosed | ⟨-, rfl, -⟩
    · exact absurd (hclose.symm.trans hclosed.requested) (by simp)
    · simp [hs, Op.line, Shape.get] at hpos
  | draining d h hd hp hclosed =>
    rcases hclosed with hclosed | hidle
    · exact absurd (hclose.symm.trans hclosed) (by simp)
    · have := sideCount_pos hm
      rw [show Op.onResponseHeader.side = .backend from rfl, ← h.counted.backend, hidle] at this
      cases this
  | done r hc hcl hb hdone => exact absurd (hr.symm.trans hdone) (by simp)

/-- The response header is answered, with a block of its own for a body that comes early. -/
theorem Apart.answered (hmode : Mode s) (hn : Narrow (shapeOf s.inFlight))
    (hm : .onResponseHeader ∈ s.inFlight) (hclose : s.backendCloseRequested = false)
    (hr : s.completed = false) {done : Bool}
    (hf : t.inFlight = [.onHeaderWritten] ++ s.inFlight.erase .onResponseHeader)
    (hengaged : t.responseTransferBuffer =
      (s.responseTransferBuffer || (!s.requestUploadComplete && !done)))
    (hdata : t.responseData = none) (hmore : t.responseMore = !done) : Apart t := by
  refine ⟨by simp [hdata], ?_, ?_⟩
  · intro hread
    rw [hf] at hread
    rcases List.mem_append.mp hread with hread | hread
    · simp at hread
    · exact absurd rfl (hn.header_or_relay hm (List.mem_of_mem_erase hread) rfl)
  · intro _ _ u hu _ hupload
    have hu : u ∈ s.inFlight := by
      rw [hf] at hu
      rcases List.mem_append.mp hu with hu | hu
      · rw [List.mem_singleton.mp hu] at hupload
        cases hupload
      · exact List.mem_of_mem_erase hu
    rw [hengaged, hmore, hdata, hmode.uploading hm hclose hr hu hupload]
    cases done with
    | true => exact .inr ⟨rfl, rfl⟩
    | false => exact .inl (by simp)

/-- A completion that is none of the response's. -/
theorem Apart.aside (h : Apart s) (hn : Narrow (shapeOf s.inFlight)) (hm : op ∈ s.inFlight)
    (hheader : op.line ≠ .header) (hrelay : op.line ≠ .relay) (hs : Starts io op started)
    {u : State} (hd : Does started u t) (hf : u.inFlight = s.inFlight.erase op)
    (hengaged : u.responseTransferBuffer = s.responseTransferBuffer)
    (hdata : u.responseData = s.responseData) (hmore : u.responseMore = s.responseMore) :
    Apart t := by
  refine h.keep hn hm hs (hd.inFlight.trans (by rw [hf])) (hd.engaged.trans hengaged)
    (hd.data.trans hdata) (hd.more.trans hmore) ?_ ?_
  · intro hread
    rcases hs.origin hread with ⟨rfl, -⟩ | ⟨rfl, -⟩ <;> exact hrelay rfl
  · intro hanswer
    exact hheader (hs.origin hanswer ▸ rfl)

theorem apart_responseHeader (h : Apart s) (hmode : Mode s) (hn : Narrow (shapeOf s.inFlight))
    (hm : .onResponseHeader ∈ s.inFlight) :
    Apart (onResponseHeader ((s.observe .onResponseHeader io).taken .onResponseHeader) io) := by
  rcases onResponseHeader_cases ((s.observe .onResponseHeader io).taken .onResponseHeader)
    io with
    hd | hd | ⟨early, hd⟩ | ⟨hclose, hr, hd⟩
  · exact h.keep hn hm (.nothing _ : Starts io _ _) hd.inFlight hd.engaged hd.data hd.more nofun nofun
  · exact h.keep hn hm (.again : Starts io _ _) hd.inFlight hd.engaged hd.data hd.more (by simp) (by simp)
  · exact h.keep hn hm (.error rfl : Starts io _ _) hd.inFlight hd.engaged hd.data hd.more (by simp)
      (by simp)
  · exact Apart.answered hmode hn hm hclose hr hd.inFlight hd.engaged hd.data hd.more

theorem apart_headerWritten (h : Apart s) (hn : Narrow (shapeOf s.inFlight))
    (hm : .onHeaderWritten ∈ s.inFlight) (hio : faithful s (.complete .onHeaderWritten io) = true) :
    Apart (onHeaderWritten c ((s.observe .onHeaderWritten io).taken .onHeaderWritten) io) := by
  rcases onHeaderWritten_cases c ((s.observe .onHeaderWritten io).taken .onHeaderWritten)
    io with hd | hd | ⟨hmore, hd⟩
  · exact h.keep hn hm (.nothing _ : Starts io _ _) hd.inFlight hd.engaged hd.data hd.more nofun nofun
  · exact h.keep hn hm (.writeBody rfl : Starts io _ _) hd.inFlight hd.engaged hd.data hd.more (by simp)
      (by simp)
  · refine h.transfer hn hm (.readBody (.inl ⟨rfl, hmore⟩)) hd.inFlight hd.engaged hd.data (by simp) ?_
    rintro ⟨hdone, -⟩
    simp [faithful, hmore, hdone] at hio

theorem apart_bodyRead (h : Apart s) (hn : Narrow (shapeOf s.inFlight))
    (hm : .onBodyRead ∈ s.inFlight) :
    Apart (onBodyRead ((s.observe .onBodyRead io).taken .onBodyRead) io) := by
  rcases onBodyRead_cases ((s.observe .onBodyRead io).taken .onBodyRead) io with hd | hd
  · exact h.keep hn hm (.nothing _ : Starts io _ _) hd.inFlight hd.engaged hd.data hd.more nofun nofun
  · refine h.transfer hn hm (.writeBody rfl : Starts io _ _) hd.inFlight hd.engaged hd.data (by simp) ?_
    rintro ⟨-, hnone⟩
    exact h.reading hm hnone

theorem apart_bodyWritten (h : Apart s) (hn : Narrow (shapeOf s.inFlight))
    (hm : .onBodyWritten ∈ s.inFlight) (hio : faithful s (.complete .onBodyWritten io) = true) :
    Apart (onBodyWritten c ((s.observe .onBodyWritten io).taken .onBodyWritten) io) := by
  rcases onBodyWritten_cases c ((s.observe .onBodyWritten io).taken .onBodyWritten)
    io with hd | hd | ⟨hneed, hd⟩
  · exact h.keep hn hm (.nothing _ : Starts io _ _) hd.inFlight hd.engaged hd.data hd.more nofun nofun
  · exact h.keep hn hm (.writeBody rfl : Starts io _ _) hd.inFlight hd.engaged hd.data hd.more (by simp)
      (by simp)
  · refine h.transfer hn hm (.readBody (.inr ⟨rfl, hneed⟩)) hd.inFlight hd.engaged hd.data (by simp) ?_
    rintro ⟨hdone, -⟩
    simp [faithful, hneed, hdone] at hio

theorem apart_complete (h : Apart s) (hmode : Mode s) (hn : Narrow (shapeOf s.inFlight))
    (hm : op ∈ s.inFlight) (hio : faithful s (.complete op io) = true) :
    Apart (handle c ((s.observe op io).taken op) io op) := by
  by_cases hop : op.recorded = false
  · obtain ⟨started, hs, hd⟩ :=
      handle_handled c ((s.observe op io).taken op) io hop
    refine h.aside hn hm ?_ ?_ hs hd rfl rfl rfl rfl
    · intro hline
      cases op <;> first | (cases hline; done) | cases hop
    · intro hline
      cases op <;> first | (cases hline; done) | cases hop
  cases op with
  | onBackendPermit =>
    rcases onBackendPermit_cases c ((s.observe .onBackendPermit io).taken .onBackendPermit)
      io with
      hd | hd | ⟨-, -, hd⟩ | ⟨started, fromPool, hs, hd⟩
    · exact h.aside hn hm nofun nofun (.nothing _ : Starts io _ _) hd rfl rfl rfl rfl
    · exact h.aside hn hm nofun nofun (.error rfl : Starts io _ _) hd rfl rfl rfl rfl
    · exact h.aside hn hm nofun nofun (.pooled : Starts io _ _) hd rfl rfl rfl rfl
    · exact h.aside hn hm nofun nofun hs hd rfl rfl rfl rfl
  | onRequestHeaderWritten =>
    rcases onRequestHeaderWritten_cases c
      ((s.observe .onRequestHeaderWritten io).taken .onRequestHeaderWritten) io with
      hd | hd | ⟨-, started, hs, hd⟩ | ⟨-, -, -, started, hs, hd⟩
    · exact h.aside hn hm nofun nofun (.nothing _ : Starts io _ _) hd rfl rfl rfl rfl
    · exact h.aside hn hm nofun nofun (.error rfl : Starts io _ _) hd rfl rfl rfl rfl
    · exact h.aside hn hm nofun nofun hs hd rfl rfl rfl rfl
    · exact h.aside hn hm nofun nofun hs hd rfl rfl rfl rfl
  | onResponseHeader => exact apart_responseHeader h hmode hn hm
  | onHeaderWritten => exact apart_headerWritten h hn hm hio
  | onBodyRead => exact apart_bodyRead h hn hm
  | onBodyWritten => exact apart_bodyWritten h hn hm hio
  | _ => exact absurd rfl hop

theorem apart_step {s' : State} {e : Event} (h : Apart s) (hmode : Mode s)
    (hn : Narrow (shapeOf s.inFlight)) (hio : faithful s e = true) (hs : step c s e = some s') :
    Apart s' := by
  cases e with
  | cancel =>
    cases hs
    have hd := does_cancelOnExecutor s
    have hinFlight : (cancelOnExecutor s).inFlight = s.inFlight := hd.inFlight
    exact ⟨by rw [hd.engaged, hd.data]; exact h.own, by rw [hinFlight, hd.data]; exact h.reading,
      by rw [hinFlight, hd.engaged, hd.more, hd.data]; exact h.apart⟩
  | complete op io =>
    obtain ⟨hm, rfl⟩ := step_complete hs
    exact apart_complete h hmode hn hm hio

/-! ## Exclusive use -/

/-- The operations of one line use a buffer one at a time. -/
theorem countP_le_line {line : Line} (hline : line ≠ .timer) {p : Op → Bool}
    (hp : ∀ op ∈ s.inFlight, p op = true → op.line = line) :
    s.inFlight.countP p ≤ (shapeOf s.inFlight).get line := by
  rw [← countP_line hline]
  exact List.countP_mono_left fun op hm hop => by simpa using hp op hm hop

theorem Apart.exclusive (h : Apart s) (hn : Narrow (shapeOf s.inFlight)) (b : Buffer) :
    s.inFlight.countP (usesBuffer s b) ≤ 1 := by
  have hrelay : (∀ op ∈ s.inFlight, usesBuffer s b op = true → op.line = .relay) →
      s.inFlight.countP (usesBuffer s b) ≤ 1 := fun hp =>
    le_trans (countP_le_line (by simp) hp) (le_trans (Nat.le_add_left _ _) hn.response)
  have hupload : (∀ op ∈ s.inFlight, usesBuffer s b op = true → op.line = .upload) →
      s.inFlight.countP (usesBuffer s b) ≤ 1 := fun hp =>
    le_trans (countP_le_line (by simp) hp) (le_trans (Nat.le_add_left _ _) hn.upload)
  cases b with
  | httpTransfer =>
    -- the response reads into the block of the upload only when there is no upload
    by_cases hboth : ∃ r ∈ s.inFlight, r.line = .relay ∧ usesBuffer s .httpTransfer r = true
    · obtain ⟨r, hr, hline, huses⟩ := hboth
      have hdata : s.responseData = some .httpTransfer := by
        cases r <;> first | (cases hline; done) | (simp [usesBuffer] at huses; done) |
          simpa [usesBuffer] using huses
      refine hrelay fun op hm huses => ?_
      by_contra hne
      have hup : op.line = .upload := by
        cases op <;> first | rfl | exact absurd rfl hne | simp [usesBuffer] at huses
      rcases h.apart r hr op hm hline hup with hown | ⟨-, hnone⟩
      · rcases h.own _ hdata with hb | ⟨-, hnot⟩
        · cases hb
        · rw [hown] at hnot
          cases hnot
      · rw [hdata] at hnone
        cases hnone
    · refine hupload fun op hm huses => ?_
      by_contra hne
      refine hboth ⟨op, hm, ?_, huses⟩
      cases op <;> first | rfl | exact absurd rfl hne | simp [usesBuffer] at huses
  | responseTransfer =>
    refine hrelay fun op hm huses => ?_
    cases op <;> first | rfl | simp [usesBuffer] at huses
  | clientToBackend =>
    have hnot : s.responseData ≠ some .clientToBackend := fun hb => by
      rcases h.own _ hb with hb | ⟨hb, -⟩ <;> cases hb
    have hup : ∀ op ∈ s.inFlight, usesBuffer s .clientToBackend op = true → op.line = .up := by
      intro op hm huses
      cases op <;> first | rfl | simp [usesBuffer, hnot] at huses
    exact le_trans (countP_le_line (by simp) hup) (le_trans (Nat.le_add_left _ _) hn.up)
  | backendToClient =>
    have hnot : s.responseData ≠ some .backendToClient := fun hb => by
      rcases h.own _ hb with hb | ⟨hb, -⟩ <;> cases hb
    have hdown : ∀ op ∈ s.inFlight, usesBuffer s .backendToClient op = true → op.line = .down := by
      intro op hm huses
      cases op <;> first | rfl | simp [usesBuffer, hnot] at huses
    exact le_trans (countP_le_line (by simp) hdown) (le_trans (Nat.le_add_left _ _) hn.down)

end Steps

/-- In every run in which the HTTP library reports what it does, no buffer is used by two operations
in flight. -/
theorem buffers_exclusive {c : Config} {es : List Event} {s : State}
    (hio : Along (step c) (fun s e => faithful s e = true) (State.init c) es)
    (hrun : run (step c) (State.init c) es = some s) (b : Buffer) :
    s.inFlight.countP (usesBuffer s b) ≤ 1 := by
  have hinv : Mode s ∧ Narrow (shapeOf s.inFlight) ∧ Apart s :=
    run_inv_along (P := fun s => Mode s ∧ Narrow (shapeOf s.inFlight) ∧ Apart s)
      (fun s e s' h hio hs => ⟨(next_step h.1 hs).mode, narrow_step h.2.1 hs,
        apart_step h.2.2 h.1 h.2.1 hio hs⟩)
      ⟨mode_init c, narrow_init c, apart_init c⟩ hio hrun
  exact hinv.2.2.exclusive hinv.2.1 b

/-- The backend answers while a part of the body is still written to it, and the first part of its
response is read meanwhile. -/
def overlapped : List Event :=
  [.complete .startOnExecutor {}, .complete .onBackendPermit {}, .complete .onResolved {},
    .complete .onConnect {}, .complete .onRequestHeaderWritten {},
    .complete .onRequestBodyRead { produced := 5 }, .complete .onResponseHeader {},
    .complete .onHeaderWritten {}]

theorem buffers_exclusive_overlapped :
    ∃ s, run (step {}) (State.init {}) overlapped = some s ∧
      s.inFlight = [.onBodyRead, .onRequestBodyWritten, .onConnectTimeout] ∧
      s.responseData = some .responseTransfer ∧
      s.inFlight.countP (usesBuffer s .httpTransfer) ≤ 1 := by
  have hresult : (run (step {}) (State.init {}) overlapped).map (fun s => (s.inFlight, s.responseData)) =
      some ([.onBodyRead, .onRequestBodyWritten, .onConnectTimeout], some .responseTransfer) := by
    decide
  obtain ⟨s, hrun, hs⟩ := Option.map_eq_some_iff.mp hresult
  obtain ⟨hinFlight, hdata⟩ := Prod.mk.inj hs
  exact ⟨s, hrun, hinFlight, hdata, buffers_exclusive (by decide) hrun _⟩

end Proxy
end WebServer
