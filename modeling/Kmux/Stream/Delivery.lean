import Kmux.Client.PaneSession
import Kmux.Daemon.Relay
import Kmux.Stream.CellOps

/-!
# Delivering one dispatch

What a client that receives, in order, every frame of one cycle ends up with. Two facts are
separated. Sequence numbers: a dispatch numbers its frames consecutively from the pane's counter,
so a client expecting that number accepts them all (`receive_of_numbered`). Content: the frames
amount to the cell operations, the cursor report and the captured lines of that cycle, in either
emission order (`delivered_cycle`).
-/

namespace Kmux

open TerminalBackend

/-! ## Accepting a numbered stream -/

/-- The seqno of an incremental frame. -/
def ServerMessage.seqno? : ServerMessage → Option SequenceNo
  | .terminalUpdate _ seqno => some seqno
  | .cursorUpdate _ _ seqno => some seqno
  | .scrollbackAppend _ _ seqno => some seqno
  | _ => none

/-- The messages are frames numbered consecutively from `n` up to `n'`, and snapshots labelled with
the number before the next frame. -/
def Numbered : ℕ → List ServerMessage → ℕ → Prop
  | n, [], n' => n = n'
  | n, .terminalSnapshot _ label :: ms, n' => label + 1 = n ∧ Numbered n ms n'
  | n, m :: ms, n' => m.seqno? = some n ∧ Numbered (n + 1) ms n'

/-- The two shapes a numbered message has. -/
theorem numbered_cons {n n' : ℕ} {m : ServerMessage} {ms : List ServerMessage}
    (h : Numbered n (m :: ms) n') :
    (∃ s label, m = .terminalSnapshot s label ∧ label + 1 = n ∧ Numbered n ms n') ∨
      (m.seqno? = some n ∧ Numbered (n + 1) ms n') := by
  cases m with
  | terminalSnapshot s label => exact Or.inl ⟨s, label, rfl, h.1, h.2⟩
  | terminalUpdate diff seqno => exact Or.inr h
  | cursorUpdate cursor modes seqno => exact Or.inr h
  | scrollbackAppend firstIndex lines seqno => exact Or.inr h
  | gridDigest seqno hash => exact Or.inr h
  | syncReset => exact Or.inr h
  | lagged missedCount => exact Or.inr h
  | historyLines requestId firstIndex lines total => exact Or.inr h

theorem numbered_of_seqno? {n n' : ℕ} {m : ServerMessage} {ms : List ServerMessage}
    (hm : m.seqno? = some n) (hms : Numbered (n + 1) ms n') : Numbered n (m :: ms) n' := by
  cases m with
  | terminalSnapshot s label => exact absurd hm (by simp [ServerMessage.seqno?])
  | terminalUpdate diff seqno => exact ⟨hm, hms⟩
  | cursorUpdate cursor modes seqno => exact ⟨hm, hms⟩
  | scrollbackAppend firstIndex lines seqno => exact ⟨hm, hms⟩
  | gridDigest seqno hash => exact ⟨hm, hms⟩
  | syncReset => exact ⟨hm, hms⟩
  | lagged missedCount => exact ⟨hm, hms⟩
  | historyLines requestId firstIndex lines total => exact ⟨hm, hms⟩

theorem numbered_append {ms ms' : List ServerMessage} {n n₁ n₂ : ℕ} (h : Numbered n ms n₁)
    (h' : Numbered n₁ ms' n₂) : Numbered n (ms ++ ms') n₂ := by
  induction ms generalizing n with
  | nil =>
    obtain rfl : n = n₁ := h
    exact h'
  | cons m ms ih =>
    rcases numbered_cons h with ⟨s, label, rfl, hlabel, hrest⟩ | ⟨hm, hrest⟩
    · exact ⟨hlabel, ih hrest⟩
    · exact numbered_of_seqno? hm (ih hrest)

/-- A numbered stream is numbered up to any point and from there on. -/
theorem numbered_split {ms ms' : List ServerMessage} {n n' : ℕ} (h : Numbered n (ms ++ ms') n') :
    ∃ mid, Numbered n ms mid ∧ Numbered mid ms' n' := by
  induction ms generalizing n with
  | nil => exact ⟨n, rfl, h⟩
  | cons m ms ih =>
    rcases numbered_cons h with ⟨snapshot, label, rfl, hlabel, hrest⟩ | ⟨hm, hrest⟩
    · obtain ⟨mid, hms, hms'⟩ := ih hrest
      exact ⟨mid, ⟨hlabel, hms⟩, hms'⟩
    · obtain ⟨mid, hms, hms'⟩ := ih hrest
      exact ⟨mid, numbered_of_seqno? hm hms, hms'⟩

theorem Numbered.le {n n' : ℕ} {ms : List ServerMessage} (h : Numbered n ms n') : n ≤ n' := by
  induction ms generalizing n with
  | nil => exact Nat.le_of_eq h
  | cons m ms ih =>
    rcases numbered_cons h with ⟨s, label, rfl, -, hrest⟩ | ⟨-, hrest⟩
    · exact ih hrest
    · exact (Nat.le_succ n).trans (ih hrest)

/-- Every number lies below the end. -/
theorem Numbered.seqno_lt {n n' : ℕ} {ms : List ServerMessage} (h : Numbered n ms n') :
    ∀ m ∈ ms, ∀ k, m.seqno? = some k → k < n' := by
  induction ms generalizing n with
  | nil => exact fun m hm ↦ absurd hm List.not_mem_nil
  | cons f ms ih =>
    intro m hm k hk
    rcases numbered_cons h with ⟨s, label, rfl, -, hrest⟩ | ⟨hf, hrest⟩
    · rcases List.mem_cons.mp hm with rfl | hmem
      · exact absurd hk (by simp [ServerMessage.seqno?])
      · exact ih hrest m hmem k hk
    · rcases List.mem_cons.mp hm with rfl | hmem
      · obtain rfl : n = k := Option.some_inj.mp (hf.symm.trans hk)
        exact hrest.le
      · exact ih hrest m hmem k hk

/-- What a message of the stream does to the grid once it is accepted. -/
def GridContent.applyFrame (g : GridContent) : ServerMessage → GridContent
  | .terminalSnapshot snapshot _ => (g.applySnapshot snapshot).1
  | .terminalUpdate diff _ => (g.applyDiff diff).1
  | .cursorUpdate cursor modes _ => g.applyCursorUpdate cursor modes
  | .scrollbackAppend firstIndex lines _ => (g.applyScrollbackAppend firstIndex lines).1
  | _ => g

/-- Messages applied in order. -/
def GridContent.applyFrames (g : GridContent) (fs : List ServerMessage) : GridContent :=
  fs.foldl GridContent.applyFrame g

theorem GridContent.applyFrames_append (g : GridContent) (fs fs' : List ServerMessage) :
    g.applyFrames (fs ++ fs') = (g.applyFrames fs).applyFrames fs' := List.foldl_append

namespace PaneSession

/-- A client whose grid is `g`, which expects `n` next, and which has attached `k` times. -/
structure Following (s : PaneSession) (g : GridContent) (n : SequenceNo) (k : ℕ) : Prop where
  buffer : s.buffer = some g
  paneSync : s.paneSync = some (.synced n)
  attaches : s.attaches = k

/-- A fetch request is not an attach, and leaves grid and sync state alone. -/
theorem following_maybeFetchHistory {s : PaneSession} {g : GridContent} {n : SequenceNo} {k : ℕ}
    (h : s.Following g n k) : s.maybeFetchHistory.Following g n k := by
  rw [maybeFetchHistory]
  split
  · exact h
  · split
    · refine ⟨h.buffer, h.paneSync, ?_⟩
      rw [← h.attaches, attaches, attaches, send, List.countP_append]
      rfl
    · exact h

theorem checkPaneSync_of_following {s : PaneSession} {g : GridContent} {n : SequenceNo} {k : ℕ}
    (h : s.Following g n k) : s.checkPaneSync n = (s, true) := by
  rw [checkPaneSync, h.paneSync]
  exact if_neg (fun hne ↦ hne rfl)

/-- **Acceptance.** A frame carrying the expected seqno is applied, and no resync is asked for. -/
theorem following_handleServerMessage {s : PaneSession} {g : GridContent} {n : SequenceNo} {k : ℕ}
    {f : ServerMessage} (h : s.Following g n k) (hf : f.seqno? = some n) :
    (s.handleServerMessage f).Following (g.applyFrame f) (n + 1) k := by
  have happly : ∀ apply : GridContent → GridContent,
      ((s.modifyGrid apply).markSynced n).Following (apply g) (n + 1) k := by
    intro apply
    refine ⟨?_, rfl, h.attaches⟩
    change s.buffer.map apply = _
    rw [h.buffer, Option.map_some]
  cases f with
  | terminalUpdate diff seqno =>
    obtain rfl : seqno = n := Option.some_inj.mp hf
    rw [handleServerMessage, onTerminalUpdate, checkPaneSync_of_following h]
    exact following_maybeFetchHistory (happly _)
  | cursorUpdate cursor modes seqno =>
    obtain rfl : seqno = n := Option.some_inj.mp hf
    rw [handleServerMessage, onCursorUpdate, checkPaneSync_of_following h]
    exact happly _
  | scrollbackAppend firstIndex lines seqno =>
    obtain rfl : seqno = n := Option.some_inj.mp hf
    rw [handleServerMessage, onScrollbackAppend, checkPaneSync_of_following h]
    exact following_maybeFetchHistory (happly _)
  | terminalSnapshot snapshot seqno => exact absurd hf (by simp [ServerMessage.seqno?])
  | gridDigest seqno hash => exact absurd hf (by simp [ServerMessage.seqno?])
  | syncReset => exact absurd hf (by simp [ServerMessage.seqno?])
  | lagged missedCount => exact absurd hf (by simp [ServerMessage.seqno?])
  | historyLines rid first lines total => exact absurd hf (by simp [ServerMessage.seqno?])

/-- A snapshot puts the client in step with its label. -/
theorem following_onTerminalSnapshot (s : PaneSession) (snapshot : GridSnapshot)
    (seqno : SequenceNo) :
    (s.onTerminalSnapshot snapshot seqno).Following
      (((s.buffer.getD (GridContent.new 24 80)).applySnapshot snapshot).1) (seqno + 1)
      s.attaches :=
  ⟨rfl, rfl, rfl⟩

/-- Every frame with a sequence number is the one expected when it arrives. -/
def AcceptsAll : PaneSession → List ServerMessage → Prop
  | _, [] => True
  | s, m :: ms =>
    (∀ n, m.seqno? = some n → (s.checkPaneSync n).2 = true) ∧
      AcceptsAll (s.handleServerMessage m) ms

/-- **A numbered stream is accepted.** A client that expects its first number takes every frame,
never asks for a resync, and ends up expecting the number after the last. -/
theorem receive_of_numbered {ms : List ServerMessage} {s : PaneSession} {g : GridContent}
    {n n' k : ℕ} (h : s.Following g n k) (hms : Numbered n ms n') :
    s.AcceptsAll ms ∧ (s.receive ms).Following (g.applyFrames ms) n' k := by
  induction ms generalizing s g n with
  | nil =>
    obtain rfl : n = n' := hms
    exact ⟨trivial, h⟩
  | cons m ms ih =>
    rcases numbered_cons hms with ⟨snapshot, label, rfl, hlabel, hrest⟩ | ⟨hm, hrest⟩
    · have hsnap := following_onTerminalSnapshot s snapshot label
      rw [hlabel, h.buffer, h.attaches] at hsnap
      obtain ⟨haccept, hfollow⟩ := ih hsnap hrest
      exact ⟨⟨fun k hk ↦ absurd hk (by simp [ServerMessage.seqno?]), haccept⟩, hfollow⟩
    · obtain ⟨haccept, hfollow⟩ := ih (following_handleServerMessage h hm) hrest
      refine ⟨⟨fun k hk ↦ ?_, haccept⟩, hfollow⟩
      obtain rfl : n = k := Option.some_inj.mp (hm.symm.trans hk)
      rw [checkPaneSync_of_following h]

end PaneSession

/-! ## The frames of a dispatch -/

namespace Pane

section Dispatch

variable {B : Type*}

theorem Dispatched.numbered {p p' : Pane B} {r : DiffResult} {frames : List ServerMessage}
    (h : p.Dispatched r p' frames) : Numbered p.seqnoCounter frames p'.seqnoCounter := by
  cases h with
  | update diff => exact ⟨rfl, rfl⟩
  | updateAppend diff hlines hreset => exact ⟨rfl, rfl, rfl⟩
  | appendUpdate diff hlines hreset => exact ⟨rfl, rfl, rfl⟩
  | cursor cursor modes historyTotal hchanged => exact ⟨rfl, rfl⟩
  | same historyTotal => rfl
  | none => rfl

theorem Dispatched.seqnoCounter {p p' : Pane B} {r : DiffResult} {frames : List ServerMessage}
    (h : p.Dispatched r p' frames) : p'.seqnoCounter = p.seqnoCounter + frames.length := by
  cases h <;> rfl

/-- A dispatch numbers its frames from the counter, and advances the counter past them. -/
theorem numbered_dispatch (p : Pane B) (r : DiffResult) :
    Numbered p.seqnoCounter (p.dispatchDiffResult r).2.frames
      (p.dispatchDiffResult r).1.seqnoCounter :=
  (p.dispatched r).numbered

/-- One number per frame. -/
theorem dispatch_seqnoCounter (p : Pane B) (r : DiffResult) :
    (p.dispatchDiffResult r).1.seqnoCounter
      = p.seqnoCounter + (p.dispatchDiffResult r).2.frames.length :=
  (p.dispatched r).seqnoCounter

end Dispatch

variable {B : Type*} [TerminalBackend B]

theorem numbered_cycle (p : Pane B) (b : B) :
    Numbered p.seqnoCounter (p.cycle b).2.frames (p.cycle b).1.seqnoCounter :=
  numbered_dispatch { p with engine := (p.engine.feed b).computeDiff.1 }
    (p.engine.feed b).computeDiff.2

end Pane

/-! ## The content of a cycle -/

section Content

variable {B : Type*} [TerminalBackend B]

/-- The cycle that feeds `b` sends a frame: cells, captured lines or a wipe force one, and a
cursor or mode change does when both the engine and the loop see it as one. -/
def Reported (p : Pane B) (b : B) : Prop :=
  (p.engine.feed b).forcesCellDiff ∨
    (p.engine.feed b).cursorOrModesChanged ∧
      ((shown b p.engine.rows p.engine.cols).2.1 ≠ p.prevCursor ∨
        (shown b p.engine.rows p.engine.cols).2.2 ≠ p.prevModes)

instance (p : Pane B) (b : B) : Decidable (Reported p b) :=
  inferInstanceAs (Decidable (_ ∨ _ ∧ (_ ∨ _)))

/-- The client's scrollback after the lines, and the wipe if there was one, of a history step. -/
def followScrollback (sb : ScrollbackBuffer) (h : HistoryStep) : ScrollbackBuffer :=
  h.lines.foldl ScrollbackBuffer.pushLine (match h.scrollbackReset with
    | some base => sb.resetTo base
    | none => sb)

/-- What the frames of the cycle that feeds `b` do to a grid. -/
structure Delivered (p : Pane B) (b : B) (g g' : GridContent) : Prop where
  rows : g'.rows = g.rows
  cols : g'.cols = g.cols
  cells : g'.cells = GridContent.applyOps g.cols (p.engine.feed b).frameOps g.cells
  cursor_of_reported :
    Reported p b → g'.cursor = (shown b p.engine.rows p.engine.cols).2.1
  modes_of_reported :
    Reported p b → g'.modes = (shown b p.engine.rows p.engine.cols).2.2
  unchanged_of_not_reported : ¬Reported p b → g' = g
  scrollback : g'.scrollback = followScrollback g.scrollback (p.engine.feed b).historyStep

theorem followScrollback_historyTotal {sb : ScrollbackBuffer} (e : DiffEngine B)
    (h : sb.historyTotal = e.mirror.historyTotal) :
    (followScrollback sb e.historyStep).historyTotal
      = (e.historyStep.mirror.append e.historyStep.lines).historyTotal := by
  rw [followScrollback, ScrollbackBuffer.foldl_pushLine_historyTotal,
    ScrollbackMirror.append_historyTotal, e.historyStep_mirror_historyTotal]
  rcases e.historyStep_mirror with ⟨hr, -⟩ | ⟨hr, -⟩ <;> rw [hr]
  · rw [h]
  · rw [ScrollbackBuffer.resetTo_historyTotal]

/-- The grid a cell frame leads to, whichever way its messages are ordered. -/
private def cellTarget (e : DiffEngine B) (g : GridContent) : GridContent :=
  { g with
    cells := GridContent.applyOps g.cols e.frameOps g.cells
    cursor := e.frameDiff.cursor
    modes := e.frameDiff.modes
    scrollback := followScrollback g.scrollback e.historyStep }

/-- The index the captured lines are sent under is where the history ended before them. -/
private theorem firstIndex_eq (e : DiffEngine B) :
    e.frameDiff.historyTotal - e.historyStep.lines.length = e.mirror.historyTotal := by
  rw [DiffEngine.frameDiff, ScrollbackMirror.append_historyTotal,
    e.historyStep_mirror_historyTotal, Nat.add_sub_cancel]

private theorem sameContent_update {e : DiffEngine B} {g : GridContent}
    (hlines : e.historyStep.lines = []) :
    (cellTarget e g).SameContent (g.applyDiff e.frameDiff).1 := by
  obtain ⟨h₁, h₂, h₃, h₄, h₅, h₆⟩ := GridContent.sameContent_applyDiff g e.frameDiff
  refine ⟨h₁, h₂, h₃, h₄, h₅, h₆.trans ?_⟩
  rw [cellTarget, followScrollback, hlines]
  rfl

/-- Wipe first: the update anchors the client at the old end, where the append then starts. -/
private theorem sameContent_update_append {e : DiffEngine B} {g : GridContent}
    (hreset : e.historyStep.scrollbackReset = some e.mirror.historyTotal) :
    (cellTarget e g).SameContent ((g.applyDiff e.frameDiff).1.applyScrollbackAppend
      (e.frameDiff.historyTotal - e.historyStep.lines.length) e.historyStep.lines).1 := by
  obtain ⟨h₁, h₂, h₃, h₄, h₅, h₆⟩ := GridContent.sameContent_applyDiff g e.frameDiff
  have hsb : (g.applyDiff e.frameDiff).1.scrollback
      = g.scrollback.resetTo e.mirror.historyTotal := by
    rw [h₆, show e.frameDiff.scrollbackReset = _ from hreset]
  have hfirst : e.frameDiff.historyTotal - e.historyStep.lines.length
      = (g.applyDiff e.frameDiff).1.scrollback.historyTotal := by
    rw [firstIndex_eq, hsb, ScrollbackBuffer.resetTo_historyTotal]
  obtain ⟨k₁, k₂, k₃, k₄, k₅, k₆⟩ :=
    GridContent.sameContent_applyScrollbackAppend hfirst e.historyStep.lines
  refine ⟨k₁.trans h₁, k₂.trans h₂, k₃.trans h₃, k₄.trans h₄, k₅.trans h₅, k₆.trans ?_⟩
  rw [cellTarget, followScrollback, hreset, hsb]

/-- No wipe: the append starts at the client's own end, and the update then finds no gap. -/
private theorem sameContent_append_update {e : DiffEngine B} {g : GridContent}
    (h : g.scrollback.historyTotal = e.mirror.historyTotal)
    (hreset : e.historyStep.scrollbackReset = none) :
    (cellTarget e g).SameContent ((g.applyScrollbackAppend
      (e.frameDiff.historyTotal - e.historyStep.lines.length)
        e.historyStep.lines).1.applyDiff e.frameDiff).1 := by
  have hfirst : e.frameDiff.historyTotal - e.historyStep.lines.length
      = g.scrollback.historyTotal := by
    rw [firstIndex_eq, h]
  obtain ⟨k₁, k₂, k₃, k₄, k₅, k₆⟩ :=
    GridContent.sameContent_applyScrollbackAppend hfirst e.historyStep.lines
  obtain ⟨h₁, h₂, h₃, h₄, h₅, h₆⟩ := GridContent.sameContent_applyDiff
    (g.applyScrollbackAppend (e.frameDiff.historyTotal - e.historyStep.lines.length)
      e.historyStep.lines).1 e.frameDiff
  refine ⟨h₁.trans k₁, h₂.trans k₂, h₃.trans ?_, h₄, h₅, h₆.trans ?_⟩
  · change GridContent.applyOps _ e.frameOps _ = GridContent.applyOps g.cols e.frameOps g.cells
    rw [k₂, k₃]
  · rw [show e.frameDiff.scrollbackReset = none from hreset, cellTarget, followScrollback, hreset]
    exact k₆

/-- The frames of a cell diff lead to the target in either emission order. -/
private theorem sameContent_dispatch {p : Pane B} {e : DiffEngine B} {g : GridContent}
    (h : g.scrollback.historyTotal = e.mirror.historyTotal) :
    (cellTarget e g).SameContent (g.applyFrames
      (p.dispatchDiffResult (.cellDiff e.frameDiff e.historyStep.lines)).2.frames) := by
  rw [Pane.dispatchDiffResult]
  by_cases hlines : e.historyStep.lines = []
  · simp only [if_neg (not_not.mpr hlines)]
    exact sameContent_update hlines
  · simp only [if_pos (show e.historyStep.lines ≠ [] from hlines)]
    rcases e.historyStep_mirror with ⟨hreset, -⟩ | ⟨hreset, -⟩
    · rw [if_neg (by rw [show e.frameDiff.scrollbackReset = none from hreset]; decide)]
      exact sameContent_append_update h hreset
    · rw [if_pos (by rw [show e.frameDiff.scrollbackReset = _ from hreset]; rfl)]
      exact sameContent_update_append hreset

/-- Nothing captured and nothing wiped leaves the client's scrollback alone. -/
private theorem followScrollback_of_not_forced {e : DiffEngine B} (sb : ScrollbackBuffer)
    (hforced : ¬e.forcesCellDiff) : followScrollback sb e.historyStep = sb := by
  rw [DiffEngine.forcesCellDiff, not_or, not_or, not_not, not_not] at hforced
  obtain ⟨-, hlines, hreset⟩ := hforced
  rw [followScrollback, hlines, Option.not_isSome_iff_eq_none.mp hreset]
  rfl

/-- **Content of a cycle.** A client whose history ends where the mirror's does gets the cell
operations and the captured lines, and the cursor and modes whenever a frame was sent. -/
theorem delivered_cycle {p : Pane B} {g : GridContent} (b : B)
    (h : g.scrollback.historyTotal = p.engine.mirror.historyTotal) :
    Delivered p b g (g.applyFrames (p.cycle b).2.frames) := by
  set e := p.engine.feed b with he
  have hframes : (p.cycle b).2.frames
      = (Pane.dispatchDiffResult { p with engine := e.computeDiff.1 } e.computeDiff.2).2.frames :=
    rfl
  rw [hframes, e.computeDiff_snd]
  by_cases hcell : e.forcesCellDiff
  · rw [if_pos hcell]
    obtain ⟨h₁, h₂, h₃, h₄, h₅, h₆⟩ :=
      sameContent_dispatch (p := { p with engine := e.computeDiff.1 }) (e := e) h
    exact ⟨h₁, h₂, h₃, fun _ ↦ h₄, fun _ ↦ h₅, fun hr ↦ absurd (Or.inl hcell) hr, h₆⟩
  · rw [if_neg hcell]
    have hcells : g.cells = GridContent.applyOps g.cols e.frameOps g.cells := by
      rw [show e.frameOps = [] from by_contra fun hops ↦ hcell (Or.inl hops)]
      rfl
    have hscrollback := (followScrollback_of_not_forced g.scrollback hcell).symm
    by_cases hreported : Reported p b
    · obtain ⟨hcursor, hloop⟩ := hreported.resolve_left hcell
      change e.frameDiff.cursor ≠ p.prevCursor ∨ e.frameDiff.modes ≠ p.prevModes at hloop
      rw [if_pos hcursor, Pane.dispatchDiffResult, if_pos hloop]
      exact ⟨rfl, rfl, hcells, fun _ ↦ rfl, fun _ ↦ rfl, fun hr ↦ absurd hreported hr, hscrollback⟩
    · -- the engine or the loop sees no change, so nothing is sent
      have hsilent : (Pane.dispatchDiffResult { p with engine := e.computeDiff.1 }
          (if e.cursorOrModesChanged then .cursorOnly e.frameDiff.cursor e.frameDiff.modes
            e.frameDiff.historyTotal else .none)).2.frames = [] := by
        by_cases hcursor : e.cursorOrModesChanged
        · have hloop : ¬(e.frameDiff.cursor ≠ p.prevCursor ∨ e.frameDiff.modes ≠ p.prevModes) :=
            fun hloop ↦ hreported (Or.inr ⟨hcursor, hloop⟩)
          rw [if_pos hcursor, Pane.dispatchDiffResult, if_neg hloop]
        · rw [if_neg hcursor]
          rfl
      rw [hsilent]
      exact ⟨rfl, rfl, hcells, fun h ↦ absurd h hreported, fun h ↦ absurd h hreported,
        fun _ ↦ rfl, hscrollback⟩

end Content

end Kmux
