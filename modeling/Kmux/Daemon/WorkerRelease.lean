import Kmux.Daemon.WorkerHold

/-!
# Letting a worker's reader go

After the last release of a pane the `Release` is somewhere on its way: in the request queue, in
the writer's hand, on the socket. It cannot get stuck there. The request loop of a worker with a
hold is never blocked on the PTY, since no input goes out while a hold stands, so the two processes
bring the `Release` to the reader by steps of their own, even when the child reads nothing. Once the
child does read, the same argument brings every queued input to the PTY.

Both are by induction on the requests and inputs still to go, with a weight for how far along each
of them is.
-/

namespace Kmux

namespace WorkerHold

variable {ι : Type*}

/-- The steps that the daemon and the worker take unasked, with nothing from the PTY. -/
def Step.Own : Step ι → Prop
  | .finishCall => True
  | .readGate => True
  | .pollRequests => True
  | .pollChanged notified => notified = true
  | .pollInputs => True
  | .wakeWriter => True
  | .send => True
  | .serve => True
  | .reportHeld => True
  | .observeHold => True
  | _ => False

/-- The reader is in `park`, or about to be. -/
def ReaderPc.InPark : ReaderPc → Prop
  | .asked _ => True
  | .parked _ => True
  | _ => False

/-- Of the holds and releases asked for, the last is a release, or there was none. -/
def Line.Freed (l : Line ι) : Prop := standing none l.asked = none ∧ ∀ id, l.call ≠ .holding id

namespace State

/-- The two processes can take the reader out of `park`. -/
def LetsGo (room : ℕ) (s : State ι) : Prop :=
  ∃ es : List (Step ι), (∀ e ∈ es, e.Own) ∧ ¬ (Run.exec (step room) s es).reader.InPark

/-- Once the PTY takes input, the two processes can bring it every input that was accepted. -/
def Delivers (room : ℕ) (s : State ι) : Prop :=
  ∃ es : List (Step ι), (∀ e ∈ es, e.Own ∨ e = .typeInput) ∧
    (Run.exec (step room) s es).typed = s.accepted

variable {s : State ι} (room : ℕ)

/-- The gate is open, or a release is about to open it. -/
def Opening (s : State ι) : Prop := s.call = .releasing ∨ s.call = .idle ∧ s.inputHeld = false

theorem opening_of_freed (h : s.Inv) (hf : s.Freed) : s.Opening := by
  rcases hc : s.call with _ | id | _
  · have hheld := h.ordered.calls.idle hc
    rw [hf.1] at hheld
    exact .inr ⟨hc, hheld⟩
  · exact absurd hc (hf.2 id)
  · exact .inl hc

theorem standing_asked_of_opening (h : s.Inv) (ho : s.Opening) : standing none s.asked = none := by
  rcases ho with hc | ⟨hc, hheld⟩
  · exact h.ordered.calls.releasing hc
  · have hsome := h.ordered.calls.idle hc
    rw [hheld] at hsome
    exact Option.not_isSome_iff_eq_none.mp (Bool.eq_false_iff.mp hsome.symm)

/-! ## The writer's turn -/

/-- The writer's polls, more than once round its loop. A poll that is not the writer's next one does
nothing. -/
def writerTurn : List (Step ι) :=
  [.pollInputs, .wakeWriter, .pollRequests, .pollChanged true, .readGate, .pollRequests,
    .pollChanged true, .pollInputs, .wakeWriter, .pollRequests]

theorem own_writerTurn : ∀ e ∈ (writerTurn : List (Step ι)), e.Own := by
  simp [writerTurn, Step.Own]

/-- A writer that has not found the gate open takes the next request in hand. -/
theorem writerTurn_request {r : WorkerRequest ι} {rs : List (WorkerRequest ι)}
    (hreq : s.requests = r :: rs) (hhand : s.writer.inHand = []) (hopened : ¬ s.writer.Opened) :
    ∃ changed, Run.exec (step room) s writerTurn =
      { s with writer := .sending r, requests := rs, changed := changed } := by
  have hturn := hreq
  rcases hpc : s.writer with _ | o | o | o | o | r' | r'
  · simp [writerTurn, step, readGate, pollRequests, pollChanged, pollInputs, wakeWriter, hpc, hreq]
  · simp [writerTurn, step, readGate, pollRequests, pollChanged, pollInputs, wakeWriter, hpc, hreq]
  · rw [hpc] at hopened
    have ho : o = false := Bool.eq_false_iff.mpr hopened
    rcases hch : s.changed with _ | _ <;>
      simp [writerTurn, step, readGate, pollRequests, pollChanged, pollInputs, wakeWriter, hpc,
        hreq, hch, ho]
  · rw [hpc] at hopened
    have ho : o = false := Bool.eq_false_iff.mpr hopened
    simp [writerTurn, step, readGate, pollRequests, pollChanged, pollInputs, wakeWriter, hpc, hreq,
      ho]
  · simp [writerTurn, step, readGate, pollRequests, pollChanged, pollInputs, wakeWriter, hpc, hreq]
  · rw [hpc] at hhand
    exact absurd hhand (List.cons_ne_nil _ _)
  · rw [hpc] at hhand
    exact absurd hhand (List.cons_ne_nil _ _)

/-- What a turn with an open gate comes to: the next request or the next input is in hand. -/
def Takes (s s' : State ι) : Prop :=
  (∃ r rs changed, s.requests = r :: rs ∧
    s' = { s with writer := .sending r, requests := rs, changed := changed }) ∨
  ∃ i is changed, s.inputs = i :: is ∧
    s' = { s with writer := .sending (.input i), inputs := is, changed := changed }

/-- A writer that has found the gate open takes an input, or the request that came meanwhile. -/
private theorem writerTurn_opened {r : WorkerRequest ι} {rs : List (WorkerRequest ι)}
    (hreq : s.requests = r :: rs) (hopened : s.writer.Opened) :
    s.Takes (Run.exec (step room) s writerTurn) := by
  rcases hpc : s.writer with _ | o | o | o | o | r' | r' <;> rw [hpc] at hopened
  · exact absurd hopened id
  · exact absurd hopened id
  · have ho : o = true := hopened
    rcases hch : s.changed with _ | _
    · rcases hin : s.inputs with _ | ⟨i, is⟩
      · refine .inl ⟨r, rs, false, hreq, ?_⟩
        simp [writerTurn, step, readGate, pollRequests, pollChanged, pollInputs, wakeWriter, hpc,
          hreq, hch, hin, ho]
      · refine .inr ⟨i, is, false, hin, ?_⟩
        simp [writerTurn, step, readGate, pollRequests, pollChanged, pollInputs, wakeWriter, hpc,
          hreq, hch, hin, ho]
    · refine .inl ⟨r, rs, false, hreq, ?_⟩
      simp [writerTurn, step, readGate, pollRequests, pollChanged, pollInputs, wakeWriter, hpc,
        hreq, hch]
  · have ho : o = true := hopened
    rcases hin : s.inputs with _ | ⟨i, is⟩
    · refine .inl ⟨r, rs, s.changed, hreq, ?_⟩
      simp [writerTurn, step, readGate, pollRequests, pollChanged, pollInputs, wakeWriter, hpc,
        hreq, hin, ho]
    · refine .inr ⟨i, is, s.changed, hin, ?_⟩
      simp [writerTurn, step, readGate, pollRequests, pollChanged, pollInputs, wakeWriter, hpc,
        hreq, hin, ho]
  · refine .inl ⟨r, rs, s.changed, hreq, ?_⟩
    simp [writerTurn, step, readGate, pollRequests, pollChanged, pollInputs, wakeWriter, hpc, hreq]
  · exact absurd hopened id
  · exact absurd hopened id

/-- With no request to come first, an open gate lets the next input through. -/
private theorem writerTurn_input {i : ι} {is : List ι} (hreq : s.requests = [])
    (hin : s.inputs = i :: is) (hhand : s.writer.inHand = []) (hheld : s.inputHeld = false)
    (hseen : ∀ o, s.writer.gate? = some o → s.changed = false → o = true) :
    s.Takes (Run.exec (step room) s writerTurn) := by
  refine .inr ?_
  rcases hpc : s.writer with _ | o | o | o | o | r' | r' <;> rw [hpc] at hhand hseen
  · refine ⟨i, is, false, hin, ?_⟩
    simp [writerTurn, step, readGate, pollRequests, pollChanged, pollInputs, wakeWriter, hpc, hreq,
      hin, hheld]
  · refine ⟨i, is, false, hin, ?_⟩
    rcases hch : s.changed with _ | _
    · have ho : o = true := hseen o rfl hch
      simp [writerTurn, step, readGate, pollRequests, pollChanged, pollInputs, wakeWriter, hpc,
        hreq, hin, hch, ho]
    · simp [writerTurn, step, readGate, pollRequests, pollChanged, pollInputs, wakeWriter, hpc,
        hreq, hin, hch, hheld]
  · refine ⟨i, is, false, hin, ?_⟩
    rcases hch : s.changed with _ | _
    · have ho : o = true := hseen o rfl hch
      simp [writerTurn, step, readGate, pollRequests, pollChanged, pollInputs, wakeWriter, hpc,
        hreq, hin, hch, ho]
    · simp [writerTurn, step, readGate, pollRequests, pollChanged, pollInputs, wakeWriter, hpc,
        hreq, hin, hch, hheld]
  · rcases ho : o with _ | _
    · -- The gate was closed when it was read, so it has changed since.
      have hch : s.changed = true := by
        by_contra hch
        have hopen : o = true := hseen o rfl (Bool.eq_false_iff.mpr hch)
        exact Bool.noConfusion (ho.symm.trans hopen)
      refine ⟨i, is, false, hin, ?_⟩
      simp [writerTurn, step, readGate, pollRequests, pollChanged, pollInputs, wakeWriter, hpc,
        hreq, hin, hch, hheld, ho]
    · refine ⟨i, is, s.changed, hin, ?_⟩
      simp [writerTurn, step, readGate, pollRequests, pollChanged, pollInputs, wakeWriter, hpc,
        hreq, hin, ho]
  · refine ⟨i, is, false, hin, ?_⟩
    rcases hch : s.changed with _ | _
    · have ho : o = true := hseen o rfl hch
      simp [writerTurn, step, readGate, pollRequests, pollChanged, pollInputs, wakeWriter, hpc,
        hreq, hin, hch, ho]
    · simp [writerTurn, step, readGate, pollRequests, pollChanged, pollInputs, wakeWriter, hpc,
        hreq, hin, hch, hheld]
  · exact absurd hhand (List.cons_ne_nil _ _)
  · exact absurd hhand (List.cons_ne_nil _ _)

/-- **A writer with an open gate takes the next request or input in hand**, if there is one. -/
theorem writerTurn_takes (h : s.Inv) (hhand : s.writer.inHand = []) (hheld : s.inputHeld = false)
    (hmore : s.requests ≠ [] ∨ s.inputs ≠ []) :
    s.Takes (Run.exec (step room) s writerTurn) := by
  rcases hreq : s.requests with _ | ⟨r, rs⟩
  · obtain ⟨i, is, hin⟩ := List.exists_cons_of_ne_nil (hmore.resolve_left fun hne ↦ hne hreq)
    refine writerTurn_input room hreq hin hhand hheld fun o ho hch ↦ ?_
    rw [h.ordered.gate.seen o ho hch, hheld]
    rfl
  · by_cases hopened : s.writer.Opened
    · exact writerTurn_opened room hreq hopened
    · obtain ⟨changed, hexec⟩ := writerTurn_request room hreq hhand hopened
      exact .inl ⟨r, rs, changed, hreq, hexec⟩

/-! ## The way of a `Release` -/

/-- Before a run comes one step. -/
private theorem own_cons {P : Step ι → Prop} {e : Step ι} {es : List (Step ι)} (he : P e)
    (hes : ∀ e ∈ es, P e) : ∀ e' ∈ e :: es, P e' := by
  intro e' he'
  rcases List.mem_cons.mp he' with rfl | he'
  · exact he
  · exact hes e' he'

private theorem own_append {P : Step ι → Prop} {es fs : List (Step ι)} (hes : ∀ e ∈ es, P e)
    (hfs : ∀ e ∈ fs, P e) : ∀ e ∈ es ++ fs, P e := by
  intro e he
  rcases List.mem_append.mp he with he | he
  · exact hes e he
  · exact hfs e he

/-- The reader itself gets out of `park` once no hold stands. -/
theorem letsGo_of_hold (halive : s.alive = true) (hhold : s.hold = none) : s.LetsGo room := by
  rcases hpc : s.reader with _ | _ | _ | _ | id | id | _
  · exact ⟨[], by simp, by rw [Run.exec_nil, hpc]; exact fun h ↦ h⟩
  · exact ⟨[], by simp, by rw [Run.exec_nil, hpc]; exact fun h ↦ h⟩
  · exact ⟨[], by simp, by rw [Run.exec_nil, hpc]; exact fun h ↦ h⟩
  · exact ⟨[], by simp, by rw [Run.exec_nil, hpc]; exact fun h ↦ h⟩
  · refine ⟨[.reportHeld, .observeHold], by simp [Step.Own], ?_⟩
    simp [step, reportHeld, observeHold, halive, hhold, hpc, ReaderPc.InPark]
  · refine ⟨[.observeHold], by simp [Step.Own], ?_⟩
    simp [step, observeHold, halive, hhold, hpc, ReaderPc.InPark]
  · exact ⟨[], by simp, by rw [Run.exec_nil, hpc]; exact fun h ↦ h⟩

/-- How far the requests are from the worker. -/
def distance (s : State ι) : ℕ :=
  3 * s.requests.length + 2 * s.writer.inHand.length + s.socket.length

/-- What the next own steps do for a reader with a hold: a request gets nearer to it, and neither
the calls nor the gate change. -/
structure Nearer (s s' : State ι) : Prop where
  alive : s'.alive = true
  call : s'.call = s.call
  inputHeld : s'.inputHeld = s.inputHeld
  nearer : s'.distance < s.distance

theorem nearer_serve {r : WorkerRequest ι} {socket : List (WorkerRequest ι)}
    (halive : s.alive = true) (hw : s.writing = none) (hs : s.socket = r :: socket) :
    s.Nearer s.serve := by
  have hlt : 3 * s.requests.length + 2 * s.writer.inHand.length + socket.length < s.distance := by
    rw [distance, hs, List.length_cons]
    omega
  rw [serve, hw, hs]
  rcases r with id | _ | i | answered
  · exact ⟨halive, rfl, rfl, hlt⟩
  · exact ⟨halive, rfl, rfl, hlt⟩
  · exact ⟨halive, rfl, rfl, hlt⟩
  · rcases answered with _ | _
    · exact ⟨halive, rfl, rfl, hlt⟩
    · exact ⟨halive, rfl, rfl, hlt⟩

/-- An empty socket takes a frame. -/
theorem send_eq {r : WorkerRequest ι} (halive : s.alive = true) (hs : s.socket = [])
    (hpc : s.writer = .sending r) :
    s.send room = { s with writer := .top, socket := [r], written := s.written ++ [r] } := by
  simp [send, hpc, halive, hs]

theorem nearer_send {r : WorkerRequest ι} (halive : s.alive = true) (hs : s.socket = [])
    (hpc : s.writer = .sending r) : s.Nearer (s.send room) := by
  rw [send_eq room halive hs hpc]
  refine ⟨halive, rfl, rfl, ?_⟩
  rw [distance, distance, hpc, hs]
  simp [WriterPc.inHand]

/-- The writer of a running worker has nothing in hand that it cannot send. -/
theorem exists_sending (h : s.Inv) (halive : s.alive = true) (hhand : s.writer.inHand ≠ []) :
    ∃ r, s.writer = .sending r := by
  rcases hpc : s.writer with _ | o | o | o | o | r | r <;> rw [hpc] at hhand
  · exact absurd rfl hhand
  · exact absurd rfl hhand
  · exact absurd rfl hhand
  · exact absurd rfl hhand
  · exact absurd rfl hhand
  · exact ⟨r, rfl⟩
  · exact absurd (halive.symm.trans (h.ordered.pipe.failed r hpc)) (by decide)

/-- **Some own step brings the `Release` nearer** while a hold stands and nothing but a release was
asked for last. -/
theorem exists_nearer (h : s.Inv) (halive : s.alive = true) (ho : s.Opening)
    (hhold : s.hold ≠ none) :
    ∃ es : List (Step ι), (∀ e ∈ es, e.Own) ∧ s.Nearer (Run.exec (step room) s es) := by
  have hpipe := h.ordered.pipe
  have hw : s.writing = none := by
    by_contra hw
    exact hhold (hpipe.writing (Option.isSome_iff_ne_none.mpr hw))
  rcases hs : s.socket with _ | ⟨r, socket⟩
  · have hstand : standing none s.written ≠ none := by
      rwa [hpipe.written_eq, hs, List.append_nil, ← hpipe.hold_eq]
    have hopened : ¬ s.writer.Opened := fun hopened ↦ hstand (h.ordered.gate.opened hopened)
    by_cases hhand : s.writer.inHand = []
    · have hreq : s.requests ≠ [] := by
        intro hreq
        have hnone := standing_asked_of_opening h ho
        rw [Line.asked, hhand, hreq, List.append_nil, List.append_nil] at hnone
        exact hstand hnone
      obtain ⟨r, rs, hreq⟩ := List.exists_cons_of_ne_nil hreq
      obtain ⟨changed, hexec⟩ := writerTurn_request room hreq hhand hopened
      refine ⟨writerTurn, own_writerTurn, ?_⟩
      rw [hexec]
      refine ⟨halive, rfl, rfl, ?_⟩
      rw [distance, distance, hreq, hhand]
      simp only [WriterPc.inHand, List.length_cons, List.length_nil]
      omega
    · obtain ⟨r, hpc⟩ := exists_sending h halive hhand
      exact ⟨[.send], by simp [Step.Own], nearer_send room halive hs hpc⟩
  · refine ⟨[.serve], by simp [Step.Own], ?_⟩
    have hserve := nearer_serve halive hw hs
    rw [Run.exec_cons, Run.exec_nil, step, if_pos halive]
    exact hserve

theorem inv_exec (h : s.Inv) (es : List (Step ι)) : (Run.exec (step room) s es).Inv := by
  have hstep : ∀ (s : State ι) e, s.Inv → (s.step room e).Inv := fun _ e h ↦ inv_step room h e
  exact Run.invariant hstep es s h

/-- **A reader is not left parked.** -/
theorem letsGo_of_opening (h : s.Inv) (halive : s.alive = true) (ho : s.Opening) :
    s.LetsGo room := by
  generalize hn : s.distance = n
  induction n using Nat.strongRecOn generalizing s with
  | _ n ih =>
    by_cases hhold : s.hold = none
    · exact letsGo_of_hold room halive hhold
    · obtain ⟨es, hes, hnear⟩ := exists_nearer room h halive ho hhold
      have ho' : (Run.exec (step room) s es).Opening := by
        rw [Opening, hnear.call, hnear.inputHeld]
        exact ho
      obtain ⟨fs, hfs, hout⟩ :=
        ih _ (hn ▸ hnear.nearer) (inv_exec room h es) hnear.alive ho' rfl
      refine ⟨es ++ fs, own_append hes hfs, ?_⟩
      rwa [Run.exec_append]

/-! ## The way of the input -/

/-- How far the requests and the inputs are from being done. -/
def remaining (s : State ι) : ℕ :=
  4 * (s.requests.length + s.inputs.length) + 3 * s.writer.inHand.length + 2 * s.socket.length +
    s.writing.toList.length

/-- What the next steps do with an open gate: something gets done, and no input is lost. -/
structure Closer (s s' : State ι) : Prop where
  alive : s'.alive = true
  call : s'.call = s.call
  inputHeld : s'.inputHeld = s.inputHeld
  accepted : s'.accepted = s.accepted
  closer : s'.remaining < s.remaining

theorem closer_serve {r : WorkerRequest ι} {socket : List (WorkerRequest ι)}
    (halive : s.alive = true) (hw : s.writing = none) (hs : s.socket = r :: socket) :
    s.Closer s.serve := by
  have hlt : ∀ n ≤ 1, 4 * (s.requests.length + s.inputs.length) + 3 * s.writer.inHand.length +
      2 * socket.length + n < s.remaining := by
    intro n hn
    rw [remaining, hs, List.length_cons]
    omega
  rw [serve, hw, hs]
  rcases r with id | _ | i | answered
  · exact ⟨halive, rfl, rfl, rfl, hlt _ (by simp)⟩
  · exact ⟨halive, rfl, rfl, rfl, hlt _ (by simp)⟩
  · exact ⟨halive, rfl, rfl, rfl, hlt 1 (Nat.le_refl 1)⟩
  · rcases answered with _ | _
    · exact ⟨halive, rfl, rfl, rfl, hlt _ (by simp)⟩
    · exact ⟨halive, rfl, rfl, rfl, hlt _ (by simp)⟩

theorem closer_send {r : WorkerRequest ι} (halive : s.alive = true) (hs : s.socket = [])
    (hpc : s.writer = .sending r) : s.Closer (s.send room) := by
  rw [send_eq room halive hs hpc]
  refine ⟨halive, rfl, rfl, rfl, ?_⟩
  rw [remaining, remaining, hpc, hs]
  simp [WriterPc.inHand]

theorem closer_typeInput {i : ι} (halive : s.alive = true) (hw : s.writing = some i) :
    s.Closer s.typeInput := by
  rw [typeInput, hw]
  refine ⟨halive, rfl, rfl, rfl, ?_⟩
  rw [remaining, remaining, hw]
  simp

theorem closer_of_takes (halive : s.alive = true) (hhand : s.writer.inHand = []) {s' : State ι}
    (ht : s.Takes s') : s.Closer s' := by
  rcases ht with ⟨r, rs, changed, hreq, rfl⟩ | ⟨i, is, changed, hin, rfl⟩
  · refine ⟨halive, rfl, rfl, rfl, ?_⟩
    rw [remaining, remaining, hreq, hhand]
    simp only [WriterPc.inHand, List.length_cons, List.length_nil]
    omega
  · refine ⟨halive, rfl, rfl, rfl, ?_⟩
    rw [remaining, remaining, hin, hhand]
    simp only [WriterPc.inHand, List.length_cons, List.length_nil]
    omega

/-- **Some step gets a request or an input done** while there is any. -/
theorem exists_closer (h : s.Inv) (halive : s.alive = true) (hheld : s.inputHeld = false)
    (hmore : s.remaining ≠ 0) :
    ∃ es : List (Step ι), (∀ e ∈ es, e.Own ∨ e = .typeInput) ∧
      s.Closer (Run.exec (step room) s es) := by
  rcases hw : s.writing with _ | i
  · rcases hs : s.socket with _ | ⟨r, socket⟩
    · by_cases hhand : s.writer.inHand = []
      · have hleft : s.requests ≠ [] ∨ s.inputs ≠ [] := by
          by_contra hnone
          obtain ⟨hreq, hin⟩ := not_or.mp hnone
          refine hmore ?_
          rw [remaining, hhand, hs, hw, not_not.mp hreq, not_not.mp hin]
          rfl
        exact ⟨writerTurn, fun e he ↦ .inl (own_writerTurn e he),
          closer_of_takes halive hhand (writerTurn_takes room h hhand hheld hleft)⟩
      · obtain ⟨r, hpc⟩ := exists_sending h halive hhand
        exact ⟨[.send], by simp [Step.Own], closer_send room halive hs hpc⟩
    · refine ⟨[.serve], by simp [Step.Own], ?_⟩
      have hserve := closer_serve halive hw hs
      rw [Run.exec_cons, Run.exec_nil, step, if_pos halive]
      exact hserve
  · refine ⟨[.typeInput], by simp, ?_⟩
    have htype := closer_typeInput halive hw
    rw [Run.exec_cons, Run.exec_nil, step, if_pos halive]
    exact htype

theorem delivers_of_idle (h : s.Inv) (halive : s.alive = true) (hheld : s.inputHeld = false) :
    s.Delivers room := by
  generalize hn : s.remaining = n
  induction n using Nat.strongRecOn generalizing s with
  | _ n ih =>
    by_cases hzero : s.remaining = 0
    · refine ⟨[], by simp, ?_⟩
      have horder := h.ordered.pipe.order
      have hnone : s.underway = [] := by
        rw [remaining] at hzero
        have hw : s.writing.toList = [] := List.length_eq_zero_iff.mp (by omega)
        have hs : s.socket = [] := List.length_eq_zero_iff.mp (by omega)
        have hhand : s.writer.inHand = [] := List.length_eq_zero_iff.mp (by omega)
        have hin : s.inputs = [] := List.length_eq_zero_iff.mp (by omega)
        rw [Line.underway, hw, hs, hhand, hin]
        rfl
      rw [hnone, List.append_nil] at horder
      exact horder.symm
    · obtain ⟨es, hes, hclose⟩ := exists_closer room h halive hheld hzero
      obtain ⟨fs, hfs, htyped⟩ := ih _ (hn ▸ hclose.closer) (inv_exec room h es) hclose.alive
        (hclose.inputHeld.trans hheld) rfl
      refine ⟨es ++ fs, own_append hes hfs, ?_⟩
      rw [Run.exec_append, htyped, hclose.accepted]

/-- **Queued input flows again.** -/
theorem delivers_of_opening (h : s.Inv) (halive : s.alive = true) (ho : s.Opening) :
    s.Delivers room := by
  rcases ho with hc | ⟨_, hheld⟩
  · have hfin : s.finishCall = { s with call := .idle, inputHeld := false, changed := true } := by
      rw [finishCall, hc]
    have hinv : s.finishCall.Inv := inv_step room h .finishCall
    rw [hfin] at hinv
    obtain ⟨es, hes, htyped⟩ := delivers_of_idle room hinv halive rfl
    refine ⟨.finishCall :: es, own_cons (.inl trivial) hes, ?_⟩
    rw [Run.exec_cons, step, hfin]
    exact htyped
  · exact delivers_of_idle room h halive hheld

/-! ## What a hold promises -/

/-- What a hold leaves the daemon with after `n` reads: the events for all of them are applied, and
the reader is between two reads with a hold standing, so that its next poll takes it into `park`. -/
structure Settled (s : State ι) (n : ℕ) : Prop where
  reads_eq : s.reads = n
  flushed_eq : s.flushed = n
  applied_eq : s.applied = s.emitted
  between : s.reader.BetweenReads
  hold_isSome : s.hold.isSome = true

theorem settled_of_parked (h : s.Inv) {f : HoldFuture} (hf : f ∈ s.futures) {n : ℕ}
    (hn : f.outcome = .parked n) : s.Settled n := by
  have ha := h.answers
  have hbetween : s.reader.BetweenReads := ha.between f hf (.inr ⟨n, hn⟩)
  have hread : s.reader ≠ .read := by
    intro hpc
    rw [hpc] at hbetween
    exact hbetween
  have hreads : s.reads = n := ha.reads_eq f hf n hn
  have hmem : .hold f.id ∈ s.served := ha.resolved f hf ⟨n, hn⟩
  refine ⟨hreads, (ha.flushed_eq hread).trans hreads, ?_, hbetween,
    h.ordered.pipe.hold_isSome (h.ordered.unreleased f hf) hmem⟩
  rw [ha.emitted_eq, ha.applied f hf (.inr ⟨n, hn⟩), List.append_nil]

theorem LineOnly.futures {s' : State ι} (h : s.LineOnly s') : s'.futures = s.futures := by
  obtain ⟨l, rfl, _⟩ := h
  rfl

/-- A future that has resolved stays as it is. -/
theorem mem_modify_poll {f : HoldFuture} (hf : f ∈ s.futures) {n : ℕ}
    (hn : f.outcome = .parked n) (k : ℕ) :
    f ∈ s.futures.modify k (HoldFuture.poll s.parked s.reads) := by
  have hpoll : f.poll s.parked s.reads = f := by
    rw [HoldFuture.poll, if_neg]
    rw [hn]
    simp
  obtain ⟨j, hj⟩ := List.mem_iff_getElem?.mp hf
  refine List.mem_iff_getElem?.mpr ⟨j, ?_⟩
  rw [List.getElem?_modify, hj, Option.map_eq_map, Option.map_some]
  split
  · rw [hpoll]
  · rfl

private theorem mem_futures_alive {f : HoldFuture} (hf : f ∈ s.futures) {s' : State ι}
    (h : s'.futures = s.futures) : f ∈ (if s.alive then s' else s).futures := by
  split
  · rwa [h]
  · exact hf

/-- Only a release ends a future that has resolved. -/
theorem mem_futures_step {f : HoldFuture} (hf : f ∈ s.futures) {n : ℕ}
    (hn : f.outcome = .parked n) {e : Step ι} (he : e ≠ .release) :
    f ∈ (s.step room e).futures := by
  cases e with
  | hold => rw [step]; split <;> exact hf
  | release => exact absurd rfl he
  | finishCall =>
    rw [step, finishCall]
    split
    · exact hf
    · exact List.mem_append_left _ hf
    · exact hf
  | request answered => exact hf
  | enqueueInput i => rw [step]; split <;> exact hf
  | poll k => exact mem_modify_poll hf hn k
  | readGate => exact (lineOnly_readGate s).futures ▸ hf
  | pollRequests => exact (lineOnly_pollRequests s).futures ▸ hf
  | pollChanged notified => exact (lineOnly_pollChanged s notified).futures ▸ hf
  | pollInputs => exact (lineOnly_pollInputs s).futures ▸ hf
  | wakeWriter => exact (lineOnly_wakeWriter s).futures ▸ hf
  | send => exact (lineOnly_send room s).futures ▸ hf
  | applyEvent =>
    rw [step, applyEvent]
    split
    · exact hf
    · split <;> exact hf
  | giveUp => exact hf
  | serve =>
    refine mem_futures_alive hf ?_
    rw [serve]
    split
    · split
      · rfl
      · rfl
      · rfl
      · split <;> rfl
    · rfl
  | typeInput => exact mem_futures_alive hf (lineOnly_typeInput s).futures
  | pollHold =>
    refine mem_futures_alive hf ?_
    rw [pollHold]
    split
    · split <;> rfl
    · rfl
  | reportHeld =>
    refine mem_futures_alive hf ?_
    rw [reportHeld]
    split <;> rfl
  | observeHold =>
    refine mem_futures_alive hf ?_
    rw [observeHold]
    split
    · split <;> rfl
    · rfl
  | die => exact hf
  | readReady => exact mem_futures_alive hf (futures_read s _)
  | readPending => exact mem_futures_alive hf (futures_read s _)
  | tick title => exact mem_futures_alive hf (futures_read s _)
  | readEof => exact mem_futures_alive hf (futures_read s _)
  | tryRead => exact mem_futures_alive hf (futures_read s _)
  | feedEvent => exact mem_futures_alive hf (futures_read s _)
  | emitDiff changed => exact mem_futures_alive hf (futures_read s _)

theorem mem_futures_exec {f : HoldFuture} {n : ℕ} (hn : f.outcome = .parked n)
    (es : List (Step ι)) : ∀ {s : State ι}, f ∈ s.futures → .release ∉ es →
      f ∈ (Run.exec (step room) s es).futures := by
  induction es with
  | nil => exact fun hf _ ↦ hf
  | cons e es ih =>
    intro s hf hfree
    have he : e ≠ .release := fun he ↦ hfree (he ▸ List.mem_cons_self)
    exact ih (mem_futures_step room hf hn he) fun hmem ↦ hfree (List.mem_cons_of_mem e hmem)

/-- **The handshake, over every interleaving.** A hold that resolved because the worker parked
leaves all that was read applied, and nothing more is read until a release is sent; between a `Hold`
and its `Release` no input goes out; the inputs keep their order on the way and none is lost; and
when a release was the last call, the two processes take the reader out of `park` without the PTY's
help, and bring every input to a PTY that takes it. -/
theorem hold_handshake (room : ℕ) (es : List (Step ι)) :
    (∀ f ∈ (run room es).futures, ∀ n, f.outcome = .parked n →
      ∀ fs, .release ∉ fs → (run room (es ++ fs)).Settled n) ∧
    (∀ pre id mid i post, (run room es).written = pre ++ .hold id :: (mid ++ .input i :: post) →
      .release ∈ mid) ∧
    (run room es).accepted = (run room es).typed ++ (run room es).underway ∧
    ((run room es).alive = true → (run room es).Freed →
      (run room es).LetsGo room ∧ (run room es).Delivers room) := by
  have hinv : (run room es).Inv := inv_run room es
  refine ⟨fun f hf n hn fs hfs ↦ ?_, fun pre id mid i post hw ↦ ?_, hinv.ordered.pipe.order,
    fun halive hfreed ↦ ?_⟩
  · have hf' : f ∈ (run room (es ++ fs)).futures := by
      rw [run, Run.exec_append]
      exact mem_futures_exec room hn fs hf hfs
    exact settled_of_parked (inv_run room (es ++ fs)) hf' hn
  · have hgated := ((gated_append _ _ _).mp hinv.ordered.pipe.gated).1
    rw [hw] at hgated
    exact release_mem_of_gated hgated
  · have ho : (run room es).Opening := opening_of_freed hinv hfreed
    exact ⟨letsGo_of_opening room hinv halive ho, delivers_of_opening room hinv halive ho⟩

/-- A read whose diff is still on its way when the hold comes, with an input queued behind it. -/
def heldRun : List (Step ℕ) :=
  [.pollHold, .readReady, .hold, .finishCall, .enqueueInput 7, .emitDiff true, .readGate,
    .pollRequests, .send, .serve, .pollHold, .reportHeld, .applyEvent, .applyEvent, .poll 0]

theorem hold_handshake_heldRun :
    (run 0 (heldRun ++ [.readGate, .pollRequests])).Settled 1 ∧
      (run 0 heldRun).accepted = (run 0 heldRun).typed ++ (run 0 heldRun).underway ∧
      (run 0 (heldRun ++ [.release])).LetsGo 0 ∧ (run 0 (heldRun ++ [.release])).Delivers 0 := by
  have hmem : (⟨1, .parked 1⟩ : HoldFuture) ∈ (run 0 heldRun).futures := by decide
  have hfree : Step.release ∉ ([.readGate, .pollRequests] : List (Step ℕ)) := by decide
  have halive : (run 0 (heldRun ++ [.release])).alive = true := by decide
  have hstand : standing none (run 0 (heldRun ++ [.release])).asked = none := by decide
  have hcall : (run 0 (heldRun ++ [.release])).call = .releasing := by decide
  have hfreed : (run 0 (heldRun ++ [.release])).Freed := by
    refine ⟨hstand, fun id h ↦ ?_⟩
    rw [hcall] at h
    exact Call.noConfusion h
  refine ⟨(hold_handshake 0 heldRun).1 _ hmem 1 rfl _ hfree, (hold_handshake 0 heldRun).2.2.1, ?_⟩
  obtain ⟨_, _, _, hlast⟩ := hold_handshake 0 (heldRun ++ [.release])
  exact hlast halive hfreed

end State

end WorkerHold

end Kmux
