import Kmux.Client.Reanchor
import Kmux.Stream.Refinement
import Kmux.VtCore.MockBackend

/-!
# Frames that a snapshot already contains

A resync labels its snapshot with the seqno read before the snapshot is taken. Frames emitted in
between are in the snapshot and are forwarded again after it. The source counts on their absolute
cell writes: applied in order, they end at the same grid.

For the cells and the cursor this is so when nothing else has happened to the emulator meanwhile:
output fed since the last of the frames, or a resize, can leave the snapshot ahead of what the
frames carry. For the scrollback it is almost never so. A re-delivered append starts before the end
of the client's history, which the client takes for a gap and answers by dropping everything. Only
after a re-delivered wipe do the appends fall into place again, and then the client ends with every
line since the wipe, where the snapshot alone would have left it with at most five hundred.

`Harmless` is the property and `harmless_iff` the exact condition.
-/

namespace Kmux

open TerminalBackend GridContent

/-! ## What frames carry -/

namespace ServerMessage

def ops : ServerMessage → List DiffOp
  | .terminalUpdate diff _ => diff.ops
  | _ => []

def cursor? : ServerMessage → Option (CursorState × TermModes)
  | .terminalUpdate diff _ => some (diff.cursor, diff.modes)
  | .cursorUpdate cursor modes _ => some (cursor, modes)
  | _ => none

end ServerMessage

/-- The cursor and modes that frames report last. -/
def lastReported (fs : List ServerMessage) : Option (CursorState × TermModes) :=
  (fs.filterMap ServerMessage.cursor?).getLast?

/-- What frames say of the history: nothing; the lines since a wipe at `base`; or lines that do not
follow on what was said before. -/
inductive Told
  | silent
  | since (base : ℕ) (lines : List ScrollbackLine)
  | broken
  deriving DecidableEq

def Told.hear : Told → ServerMessage → Told
  | t, .terminalUpdate diff _ =>
      match diff.scrollbackReset with
      | some base => .since base []
      | none => t
  | t, .scrollbackAppend firstIndex lines _ =>
      if lines = [] then t
      else match t with
        | .since base said =>
            if firstIndex = base + said.length then .since base (said ++ lines) else .broken
        | _ => .broken
  | t, _ => t

def told (fs : List ServerMessage) : Told := fs.foldl Told.hear .silent

/-! ## The property and its condition -/

/-- Applying the frames after the snapshot leaves what the snapshot alone leaves. -/
structure Harmless (g : GridContent) (s : GridSnapshot) (fs : List ServerMessage) : Prop where
  cells : ((g.applySnapshot s).1.applyFrames fs).cells = (g.applySnapshot s).1.cells
  cursor : ((g.applySnapshot s).1.applyFrames fs).cursor = (g.applySnapshot s).1.cursor
  modes : ((g.applySnapshot s).1.applyFrames fs).modes = (g.applySnapshot s).1.modes
  scrollback :
    ((g.applySnapshot s).1.applyFrames fs).scrollback = (g.applySnapshot s).1.scrollback

/-- No cell the frames write has changed since. -/
def CellsCurrent (s : GridSnapshot) (fs : List ServerMessage) : Prop :=
  ∀ i < s.cells.length, ∀ c,
    lastWritten s.cols.toNat i (fs.flatMap ServerMessage.ops) = some c → s.cells[i]? = some c

/-- Neither cursor nor modes have changed since the frames reported them, if they did. -/
def CursorCurrent (s : GridSnapshot) (fs : List ServerMessage) : Prop :=
  ∀ c, lastReported fs = some c → c = (s.cursor, s.modes)

/-- The frames carry no history; or the lines after their last wipe are all of the history since,
fit into a snapshot's tail as far as the client can hold them, and end where the client's own
history does not go further. -/
def HistoryCurrent (g : GridContent) (s : GridSnapshot) (fs : List ServerMessage) : Prop :=
  match told fs with
  | .silent => True
  | .broken => False
  | .since base lines =>
      base + lines.length = s.historyTotal ∧
        min lines.length g.scrollback.maxLines ≤ snapshotTailLines ∧
        if lines = [] then g.scrollback.historyTotal ≤ s.historyTotal
        else g.scrollback.baseIndex < s.historyTotal

/-! ## Cells -/

theorem applyOps_eq_self_iff (cols : ℕ) (ops : List DiffOp) (cells : List CellState) :
    applyOps cols ops cells = cells ↔
      ∀ i < cells.length, ∀ c, lastWritten cols i ops = some c → cells[i]? = some c := by
  constructor
  · intro h i hi c hc
    rw [← h, getElem?_applyOps cols i ops cells hi, hc, Option.some_or]
  · intro h
    refine List.ext_getElem? fun i ↦ ?_
    by_cases hi : i < cells.length
    · rw [getElem?_applyOps cols i ops cells hi]
      cases hc : lastWritten cols i ops with
      | none => rw [Option.none_or]
      | some c => rw [Option.some_or, h i hi c hc]
    · rw [List.getElem?_eq_none (by rw [length_applyOps]; omega), List.getElem?_eq_none (by omega)]

/-! ## Frame by frame -/

/-- What a frame does to a scrollback buffer. -/
def ScrollbackBuffer.hear (sb : ScrollbackBuffer) : ServerMessage → ScrollbackBuffer
  | .terminalUpdate diff _ =>
      match diff.scrollbackReset with
      | some base => sb.resetTo base
      | none => sb
  | .scrollbackAppend firstIndex lines _ =>
      if lines = [] then sb
      else if firstIndex = sb.historyTotal then lines.foldl ScrollbackBuffer.pushLine sb
      else sb.clear
  | _ => sb

/-- What frames do to a grid, field by field. -/
structure Reapplied (fs : List ServerMessage) (g g' : GridContent) : Prop where
  cols : g'.cols = g.cols
  cells : g'.cells = applyOps g.cols (fs.flatMap ServerMessage.ops) g.cells
  cursor : (g'.cursor, g'.modes) = (lastReported fs).getD (g.cursor, g.modes)
  scrollback : g'.scrollback = fs.foldl ScrollbackBuffer.hear g.scrollback

/-- Any append, contiguous or not. -/
theorem sameContent_append (g : GridContent) (firstIndex : ℕ) (lines : List ScrollbackLine)
    (seqno : SequenceNo) :
    SameContent
      { g with scrollback := g.scrollback.hear (.scrollbackAppend firstIndex lines seqno) }
      (g.applyScrollbackAppend firstIndex lines).1 := by
  rw [applyScrollbackAppend, ScrollbackBuffer.hear]
  by_cases hlines : lines = []
  · rw [if_pos hlines, if_pos hlines]
    exact ⟨rfl, rfl, rfl, rfl, rfl, rfl⟩
  · rw [if_neg hlines, if_neg hlines, ScrollbackBuffer.appendWithIndex]
    by_cases hfirst : firstIndex = g.scrollback.historyTotal
    · rw [if_neg (not_not.mpr hfirst), if_pos hfirst]
      obtain ⟨h₁, h₂, h₃, h₄, h₅, h₆⟩ := sameContent_maybeClearHistoryGap
        { g with scrollback := lines.foldl ScrollbackBuffer.pushLine g.scrollback }
      exact ⟨h₁, h₂, h₃, h₄, h₅, h₆⟩
    · rw [if_pos hfirst, if_neg hfirst]
      obtain ⟨h₁, h₂, h₃, h₄, h₅, h₆⟩ := sameContent_maybeClearHistoryGap
        { g with scrollback := g.scrollback.clear }
      exact ⟨h₁, h₂, h₃, h₄, h₅, h₆⟩

theorem reapplied_applyFrame (g : GridContent) {f : ServerMessage} (hf : f.seqno?.isSome) :
    Reapplied [f] g (g.applyFrame f) := by
  cases f with
  | terminalUpdate diff seqno =>
    obtain ⟨h₁, h₂, h₃, h₄, h₅, h₆⟩ := sameContent_applyDiff g diff
    refine ⟨h₂, h₃.trans ?_, ?_, h₆⟩
    · rw [List.flatMap_singleton]
      rfl
    · exact Prod.ext h₄ h₅
  | cursorUpdate cursor modes seqno => exact ⟨rfl, rfl, rfl, rfl⟩
  | scrollbackAppend firstIndex lines seqno =>
    obtain ⟨h₁, h₂, h₃, h₄, h₅, h₆⟩ := sameContent_append g firstIndex lines seqno
    exact ⟨h₂, h₃, Prod.ext h₄ h₅, h₆⟩
  | terminalSnapshot snapshot seqno => exact absurd hf (by simp [ServerMessage.seqno?])
  | gridDigest seqno hash => exact absurd hf (by simp [ServerMessage.seqno?])
  | syncReset => exact absurd hf (by simp [ServerMessage.seqno?])
  | lagged missedCount => exact absurd hf (by simp [ServerMessage.seqno?])
  | historyLines rid first lines total => exact absurd hf (by simp [ServerMessage.seqno?])

theorem lastReported_append (fs fs' : List ServerMessage) :
    lastReported (fs ++ fs') = (lastReported fs').or (lastReported fs) := by
  rw [lastReported, lastReported, lastReported, List.filterMap_append, List.getLast?_append]

theorem Reapplied.trans {fs fs' : List ServerMessage} {g g' g'' : GridContent}
    (h : Reapplied fs g g') (h' : Reapplied fs' g' g'') : Reapplied (fs ++ fs') g g'' where
  cols := h'.cols.trans h.cols
  cells := by rw [h'.cells, h.cells, h.cols, List.flatMap_append, applyOps_append]
  cursor := by
    rw [h'.cursor, h.cursor, lastReported_append]
    cases lastReported fs' <;> rfl
  scrollback := by rw [h'.scrollback, h.scrollback, List.foldl_append]

theorem reapplied_applyFrames (fs : List ServerMessage) :
    ∀ g : GridContent, (∀ f ∈ fs, f.seqno?.isSome) → Reapplied fs g (g.applyFrames fs) := by
  induction fs with
  | nil => exact fun g _ ↦ ⟨rfl, rfl, rfl, rfl⟩
  | cons f fs ih =>
    intro g hfs
    have hf := reapplied_applyFrame g (hfs f List.mem_cons_self)
    exact hf.trans (ih (g.applyFrame f) fun f' hf' ↦ hfs f' (List.mem_cons_of_mem f hf'))

/-- The property, one field at a time. -/
theorem harmless_iff_reapplied (g : GridContent) (s : GridSnapshot) {fs : List ServerMessage}
    (hfs : ∀ f ∈ fs, f.seqno?.isSome) :
    Harmless g s fs ↔ CellsCurrent s fs ∧ CursorCurrent s fs ∧
      fs.foldl ScrollbackBuffer.hear (seedScrollback g.scrollback s)
        = seedScrollback g.scrollback s := by
  obtain ⟨-, hcols, hcells, hcursor, hmodes, hscrollback⟩ := sameContent_applySnapshot g s
  have h := reapplied_applyFrames fs (g.applySnapshot s).1 hfs
  have hreported : ((((g.applySnapshot s).1.applyFrames fs).cursor = (g.applySnapshot s).1.cursor ∧
      ((g.applySnapshot s).1.applyFrames fs).modes = (g.applySnapshot s).1.modes)) ↔
        CursorCurrent s fs := by
    rw [← Prod.mk.injEq, h.cursor, hcursor, hmodes, CursorCurrent]
    cases lastReported fs with
    | none => simp
    | some c => simp
  have hwritten : ((g.applySnapshot s).1.applyFrames fs).cells = (g.applySnapshot s).1.cells ↔
      CellsCurrent s fs := by
    rw [h.cells, hcols, hcells]
    exact applyOps_eq_self_iff _ _ _
  rw [← hwritten, ← hreported]
  constructor
  · rintro ⟨h₁, h₂, h₃, h₄⟩
    rw [h.scrollback, hscrollback] at h₄
    exact ⟨h₁, ⟨h₂, h₃⟩, h₄⟩
  · rintro ⟨h₁, ⟨h₂, h₃⟩, h₄⟩
    refine ⟨h₁, h₂, h₃, ?_⟩
    rw [h.scrollback, hscrollback]
    exact h₄

/-! ## What the mirror has recorded -/

/-- The frames lead the mirror from one state to another. A resize drains lines into the mirror
without telling anyone. -/
inductive Recorded : ScrollbackMirror → List ServerMessage → ScrollbackMirror → Prop
  | nil (m : ScrollbackMirror) : Recorded m [] m
  | cursor {m m' : ScrollbackMirror} {fs : List ServerMessage} (c : CursorState) (modes : TermModes)
      (n : SequenceNo) (h : Recorded m fs m') : Recorded m (.cursorUpdate c modes n :: fs) m'
  | update {m m' : ScrollbackMirror} {fs : List ServerMessage} {diff : TerminalDiff}
      (n : SequenceNo) (hreset : diff.scrollbackReset = none) (h : Recorded m fs m') :
      Recorded m (.terminalUpdate diff n :: fs) m'
  | wipe {m m' : ScrollbackMirror} {fs : List ServerMessage} {diff : TerminalDiff}
      (n : SequenceNo) (hreset : diff.scrollbackReset = some m.historyTotal)
      (h : Recorded m.reset fs m') : Recorded m (.terminalUpdate diff n :: fs) m'
  | append {m m' : ScrollbackMirror} {fs : List ServerMessage} {lines : List ScrollbackLine}
      (n : SequenceNo) (hlines : lines ≠ []) (h : Recorded (m.append lines) fs m') :
      Recorded m (.scrollbackAppend m.historyTotal lines n :: fs) m'
  | drained {m m' : ScrollbackMirror} {fs : List ServerMessage} (lines : List ScrollbackLine)
      (h : Recorded (m.append lines) fs m') : Recorded m fs m'

namespace Recorded

variable {m m' m'' : ScrollbackMirror} {fs fs' : List ServerMessage}

theorem trans (h : Recorded m fs m') (h' : Recorded m' fs' m'') : Recorded m (fs ++ fs') m'' := by
  induction h with
  | nil m => exact h'
  | cursor c modes n h ih => exact .cursor c modes n (ih h')
  | update n hreset h ih => exact .update n hreset (ih h')
  | wipe n hreset h ih => exact .wipe n hreset (ih h')
  | append n hlines h ih => exact .append n hlines (ih h')
  | drained lines h ih => exact .drained lines (ih h')

theorem cap (h : Recorded m fs m') : m'.cap = m.cap := by
  induction h with
  | nil m => rfl
  | cursor c modes n h ih => exact ih
  | update n hreset h ih => exact ih
  | wipe n hreset h ih => exact ih
  | append n hlines h ih => rw [ih, ScrollbackMirror.append_cap]
  | drained lines h ih => rw [ih, ScrollbackMirror.append_cap]

/-- Dropping frames from the front starts from a later mirror. -/
theorem drop (h : Recorded m fs m') (k : ℕ) : ∃ m₁, Recorded m₁ (fs.drop k) m' := by
  induction h generalizing k with
  | nil m =>
    rw [List.drop_nil]
    exact ⟨m, .nil m⟩
  | drained lines h ih => exact ih k
  | cursor c modes n h ih =>
    cases k with
    | zero => exact ⟨_, .cursor c modes n h⟩
    | succ k => exact ih k
  | update n hreset h ih =>
    cases k with
    | zero => exact ⟨_, .update n hreset h⟩
    | succ k => exact ih k
  | wipe n hreset h ih =>
    cases k with
    | zero => exact ⟨_, .wipe n hreset h⟩
    | succ k => exact ih k
  | append n hlines h ih =>
    cases k with
    | zero => exact ⟨_, .append n hlines h⟩
    | succ k => exact ih k

end Recorded

section Emitted

variable {B : Type*} [TerminalBackend B]

/-- The captured lines are sent under the index where the history ended before them. -/
private theorem appendIndex_eq (e : DiffEngine B) :
    e.frameDiff.historyTotal - e.historyStep.lines.length = e.historyStep.mirror.historyTotal := by
  rw [DiffEngine.frameDiff, ScrollbackMirror.append_historyTotal, Nat.add_sub_cancel]

private theorem recorded_update (e : DiffEngine B) (n : SequenceNo) {fs : List ServerMessage}
    {m : ScrollbackMirror} (h : Recorded e.historyStep.mirror fs m) :
    Recorded e.mirror (.terminalUpdate e.frameDiff n :: fs) m := by
  rcases e.historyStep_mirror with ⟨hreset, hmirror⟩ | ⟨hreset, hmirror⟩ <;> rw [hmirror] at h
  · exact .update n hreset h
  · exact .wipe n hreset h

private theorem recorded_append (e : DiffEngine B) (n : SequenceNo)
    (hlines : e.historyStep.lines ≠ [])
    {fs : List ServerMessage} {m : ScrollbackMirror}
    (h : Recorded (e.historyStep.mirror.append e.historyStep.lines) fs m) :
    Recorded e.historyStep.mirror (.scrollbackAppend
      (e.frameDiff.historyTotal - e.historyStep.lines.length) e.historyStep.lines n :: fs) m := by
  rw [appendIndex_eq]
  exact .append n hlines h

/-- A dispatch of an engine's result. -/
private theorem recorded_dispatched {p p' : Pane B} {r : DiffResult} {frames : List ServerMessage}
    (h : p.Dispatched r p' frames) (e : DiffEngine B) (hr : r = e.computeDiff.2) :
    Recorded e.mirror frames (e.historyStep.mirror.append e.historyStep.lines) := by
  rw [DiffEngine.computeDiff_snd] at hr
  by_cases hcell : e.forcesCellDiff
  · rw [if_pos hcell] at hr
    cases h with
    | update diff =>
      obtain ⟨rfl, hlines⟩ := DiffResult.cellDiff.inj hr
      rw [← hlines, ScrollbackMirror.append_nil]
      exact recorded_update e _ (.nil _)
    | updateAppend diff hlines hreset =>
      obtain ⟨rfl, rfl⟩ := DiffResult.cellDiff.inj hr
      exact recorded_update e _ (recorded_append e _ hlines (.nil _))
    | appendUpdate diff hlines hreset =>
      obtain ⟨rfl, rfl⟩ := DiffResult.cellDiff.inj hr
      -- without a wipe the mirror has not moved before the append
      obtain ⟨-, hmirror⟩ := e.historyStep_mirror.resolve_right fun h ↦ hreset (by
        rw [show e.frameDiff.scrollbackReset = _ from h.1]
        rfl)
      rw [← hmirror]
      exact recorded_append e _ hlines
        (.update _ (Option.not_isSome_iff_eq_none.mp hreset) (.nil _))
    | cursor cursor modes historyTotal hchanged => exact absurd hr (by simp)
    | same historyTotal => exact absurd hr (by simp)
    | none => exact absurd hr (by simp)
  · rw [if_neg hcell] at hr
    rw [DiffEngine.forcesCellDiff, not_or, not_or, not_not] at hcell
    obtain ⟨-, hlines, hreset⟩ := hcell
    have hmirror : e.historyStep.mirror.append e.historyStep.lines = e.mirror := by
      rw [not_not.mp hlines, ScrollbackMirror.append_nil]
      exact (e.historyStep_mirror.resolve_right fun h ↦ hreset (by rw [h.1]; rfl)).2
    rw [hmirror]
    cases h with
    | cursor cursor modes historyTotal hchanged => exact .cursor cursor modes _ (.nil _)
    | same historyTotal => exact .nil _
    | none => exact .nil _
    | update diff => split at hr <;> exact absurd hr (by simp)
    | updateAppend diff hlines hreset => split at hr <;> exact absurd hr (by simp)
    | appendUpdate diff hlines hreset => split at hr <;> exact absurd hr (by simp)

theorem recorded_cycle (p : Pane B) (b : B) :
    Recorded p.engine.mirror (p.cycle b).2.frames (p.cycle b).1.engine.mirror := by
  rw [Pane.cycle_mirror]
  exact recorded_dispatched (Pane.dispatched _ _) (p.engine.feed b) rfl

/-- The incremental frames a history emits. -/
def framesOf (p : Pane B) (es : List (PaneEvent B)) : List ServerMessage :=
  (p.emitted es).filter fun f ↦ f.seqno?.isSome

omit [TerminalBackend B] in
private theorem seqno_dispatched {p p' : Pane B} {r : DiffResult} {frames : List ServerMessage}
    (h : p.Dispatched r p' frames) : ∀ f ∈ frames, f.seqno?.isSome := by
  cases h <;> simp [ServerMessage.seqno?]

theorem framesOf_cycle_cons (p : Pane B) (b : B) (es : List (PaneEvent B)) :
    framesOf p (.cycle b :: es) = (p.cycle b).2.frames ++ framesOf (p.cycle b).1 es := by
  rw [framesOf, Pane.emitted, List.filter_append]
  congr 1
  exact List.filter_eq_self.mpr (seqno_dispatched (Pane.dispatched _ _))

theorem recorded_framesOf (es : List (PaneEvent B)) : ∀ p : Pane B,
    Recorded p.engine.mirror (framesOf p es) (p.run es).engine.mirror := by
  induction es with
  | nil => exact fun p ↦ .nil _
  | cons e es ih =>
    intro p
    cases e with
    | cycle b =>
      rw [framesOf_cycle_cons]
      exact (recorded_cycle p b).trans (ih (p.cycle b).1)
    | resize sz => exact .drained p.engine.resizeDrain (ih (p.resize sz).1)

end Emitted

/-! ## The client's scrollback beside the mirror -/

theorem ScrollbackMirror.append_lines_ne_nil {m : ScrollbackMirror} {lines : List ScrollbackLine}
    (h : m.lines ≠ [] ∨ lines ≠ []) : (m.append lines).lines ≠ [] := by
  have hcap := m.cap_pos
  have hpos : 0 < m.lines.length + lines.length := by
    rcases h with h | h
    · exact Nat.add_pos_left (List.length_pos_iff.mpr h) _
    · exact Nat.add_pos_right _ (List.length_pos_iff.mpr h)
  rw [← List.length_pos_iff, append_lines, List.length_drop, List.length_append]
  omega

theorem ScrollbackBuffer.ext_iff' {sb sb' : ScrollbackBuffer} (hmax : sb.maxLines = sb'.maxLines) :
    sb = sb' ↔ sb.lines = sb'.lines ∧ sb.baseIndex = sb'.baseIndex := by
  constructor
  · rintro rfl
    exact ⟨rfl, rfl⟩
  · obtain ⟨lines, maxLines, baseIndex, hpos, hle⟩ := sb
    obtain ⟨lines', maxLines', baseIndex', hpos', hle'⟩ := sb'
    rintro ⟨hlines, hbase⟩
    change lines = lines' at hlines
    change baseIndex = baseIndex' at hbase
    change maxLines = maxLines' at hmax
    subst hlines hbase hmax
    rfl

theorem ScrollbackBuffer.resetTo_congr {sb sb' : ScrollbackBuffer}
    (hmax : sb.maxLines = sb'.maxLines) (base : ℕ) : sb.resetTo base = sb'.resetTo base :=
  (ext_iff' (by exact hmax)).mpr ⟨rfl, rfl⟩

/-- Where a client that started from `sb₀` stands, after frames that told it `t` and led the mirror
to `m`. After an append that does not follow on, it has lost everything, or has gone past where it
started. -/
def Follows (sb₀ : ScrollbackBuffer) (m : ScrollbackMirror) (sb : ScrollbackBuffer) : Told → Prop
  | .silent => sb = sb₀
  | .since base lines =>
      sb = lines.foldl ScrollbackBuffer.pushLine (sb₀.resetTo base) ∧
        base + lines.length ≤ m.historyTotal ∧
        (base + lines.length = m.historyTotal →
          m.toWindow = Window.append m.cap ⟨base, []⟩ lines)
  | .broken =>
      m.lines ≠ [] ∧ sb.maxLines = sb₀.maxLines ∧
        (sb = sb₀.clear ∨ sb₀.historyTotal < sb.historyTotal)

variable {sb₀ sb : ScrollbackBuffer} {m m' : ScrollbackMirror} {t : Told}

theorem Follows.maxLines (h : Follows sb₀ m sb t) : sb.maxLines = sb₀.maxLines := by
  cases t with
  | silent => rw [show sb = sb₀ from h]
  | since base lines =>
    rw [h.1, ScrollbackBuffer.foldl_pushLine_maxLines, ScrollbackBuffer.resetTo_maxLines]
  | broken => exact h.2.1

/-- A wipe starts afresh at the end of the mirror's history. -/
theorem follows_wipe (h : Follows sb₀ m sb t) :
    Follows sb₀ m.reset (sb.resetTo m.historyTotal) (.since m.historyTotal []) :=
  ⟨ScrollbackBuffer.resetTo_congr h.maxLines _, le_rfl, fun _ ↦ rfl⟩

/-- Where the history is broken, an append leaves it broken. -/
private theorem follows_broken {lines : List ScrollbackLine} (hlines : lines ≠ [])
    (hmax : sb.maxLines = sb₀.maxLines)
    (h : m.historyTotal = sb.historyTotal → sb₀.historyTotal ≤ sb.historyTotal)
    (n : SequenceNo) :
    Follows sb₀ (m.append lines) (sb.hear (.scrollbackAppend m.historyTotal lines n)) .broken := by
  have hpos := List.length_pos_iff.mpr hlines
  refine ⟨ScrollbackMirror.append_lines_ne_nil (Or.inr hlines), ?_, ?_⟩ <;>
    rw [ScrollbackBuffer.hear, if_neg hlines]
  · by_cases hfirst : m.historyTotal = sb.historyTotal
    · rw [if_pos hfirst, ScrollbackBuffer.foldl_pushLine_maxLines, hmax]
    · rw [if_neg hfirst, ScrollbackBuffer.clear, ScrollbackBuffer.resetTo_maxLines, hmax]
  · by_cases hfirst : m.historyTotal = sb.historyTotal
    · right
      rw [if_pos hfirst, ScrollbackBuffer.foldl_pushLine_historyTotal]
      have := h hfirst
      omega
    · left
      rw [if_neg hfirst]
      exact ScrollbackBuffer.resetTo_congr hmax 0

theorem follows_append {lines : List ScrollbackLine} (hlines : lines ≠ []) (n : SequenceNo)
    (h : Follows sb₀ m sb t) :
    Follows sb₀ (m.append lines) (sb.hear (.scrollbackAppend m.historyTotal lines n))
      (t.hear (.scrollbackAppend m.historyTotal lines n)) := by
  have hmax := h.maxLines
  cases t with
  | silent =>
    have hhear : Told.silent.hear (.scrollbackAppend m.historyTotal lines n) = .broken :=
      if_neg hlines
    rw [hhear]
    exact follows_broken hlines hmax (fun _ ↦ by rw [show sb = sb₀ from h]) n
  | broken =>
    have hhear : Told.broken.hear (.scrollbackAppend m.historyTotal lines n) = .broken :=
      if_neg hlines
    rw [hhear]
    refine follows_broken hlines hmax (fun hfirst ↦ ?_) n
    rcases h.2.2 with hclear | hlt
    · -- a cleared buffer ends at zero, and the mirror holds something
      have hlen := List.length_pos_iff.mpr h.1
      rw [hclear, ScrollbackBuffer.clear, ScrollbackBuffer.resetTo_historyTotal,
        ScrollbackMirror.historyTotal] at hfirst
      omega
    · exact hlt.le
  | since base said =>
    obtain ⟨hsb, hle, hwindow⟩ := h
    have htotal : sb.historyTotal = base + said.length := by
      rw [hsb, ScrollbackBuffer.foldl_pushLine_historyTotal, ScrollbackBuffer.resetTo_historyTotal]
    rw [Told.hear, if_neg hlines]
    by_cases hfirst : m.historyTotal = base + said.length
    · simp only [if_pos hfirst]
      refine ⟨?_, ?_, fun _ ↦ ?_⟩
      · rw [ScrollbackBuffer.hear, if_neg hlines, if_pos (hfirst.trans htotal.symm), hsb,
          List.foldl_append]
      · rw [ScrollbackMirror.append_historyTotal, List.length_append]
        omega
      · rw [ScrollbackMirror.append_toWindow, hwindow hfirst.symm, ScrollbackMirror.append_cap,
          Window.append, Window.append, Window.append, List.foldl_append]
    · simp only [if_neg hfirst]
      exact follows_broken hlines hmax (fun h' ↦ absurd (h'.trans htotal) hfirst) n

/-- Lines the mirror gains in silence. -/
theorem follows_drained (lines : List ScrollbackLine) (h : Follows sb₀ m sb t) :
    Follows sb₀ (m.append lines) sb t := by
  cases t with
  | silent => exact h
  | since base said =>
    obtain ⟨hsb, hle, hwindow⟩ := h
    refine ⟨hsb, ?_, fun heq ↦ ?_⟩
    · rw [ScrollbackMirror.append_historyTotal]
      exact hle.trans (Nat.le_add_right _ _)
    · rw [ScrollbackMirror.append_historyTotal] at heq
      obtain rfl : lines = [] := List.length_eq_zero_iff.mp (by omega)
      exact hwindow (by rw [heq, List.length_nil, Nat.add_zero])
  | broken => exact ⟨ScrollbackMirror.append_lines_ne_nil (Or.inl h.1), h.2⟩

/-- **The client beside the mirror**, along any recorded frames. -/
theorem follows_recorded {fs : List ServerMessage} (hrec : Recorded m fs m') :
    ∀ {sb : ScrollbackBuffer} {t : Told}, Follows sb₀ m sb t →
      Follows sb₀ m' (fs.foldl ScrollbackBuffer.hear sb) (fs.foldl Told.hear t) := by
  induction hrec with
  | nil m => exact fun h ↦ h
  | cursor c modes n hrec ih => exact fun h ↦ ih h
  | update n hreset hrec ih =>
    intro sb t h
    rw [List.foldl_cons, List.foldl_cons, ScrollbackBuffer.hear, Told.hear, hreset]
    exact ih h
  | wipe n hreset hrec ih =>
    intro sb t h
    rw [List.foldl_cons, List.foldl_cons, ScrollbackBuffer.hear, Told.hear, hreset]
    exact ih (follows_wipe h)
  | append n hlines hrec ih => exact fun h ↦ ih (follows_append hlines n h)
  | drained lines hrec ih => exact fun h ↦ ih (follows_drained lines h)

/-! ## When the scrollback is as the snapshot left it -/

theorem seedScrollback_maxLines (sb : ScrollbackBuffer) (s : GridSnapshot) :
    (seedScrollback sb s).maxLines = sb.maxLines := by
  rw [seedScrollback]
  split
  · rw [ScrollbackBuffer.seedTail]
    split
    · rfl
    · split
      · rfl
      · rw [ScrollbackBuffer.foldl_pushLine_maxLines]
        rfl
  · rfl

/-- A snapshot never leaves a client behind it. -/
theorem le_seedScrollback_historyTotal {s : GridSnapshot} (hs : s.Anchored)
    (sb : ScrollbackBuffer) : s.historyTotal ≤ (seedScrollback sb s).historyTotal := by
  by_cases htail : s.scrollbackTail = []
  · rw [seedScrollback_of_tail_eq_nil hs htail, ScrollbackBuffer.evictBefore_historyTotal]
    exact le_max_right _ _
  · by_cases hbase : sb.baseIndex < s.historyTotal
    · exact (seedScrollback_historyTotal_of_base_lt hs htail hbase).ge
    · rw [seedScrollback_of_le_base hs htail (not_lt.mp hbase)]
      exact (not_lt.mp hbase).trans sb.baseIndex_le_historyTotal

section History

variable {B : Type*} [TerminalBackend B] {e : DiffEngine B} {base : ℕ} {lines : List ScrollbackLine}

/-- The mirror was wiped and holds nothing: the snapshot has no tail either. -/
private theorem history_iff_of_nil (sb : ScrollbackBuffer) (hlines : e.mirror.lines = []) :
    (seedScrollback sb e.snapshot).resetTo e.mirror.historyTotal = seedScrollback sb e.snapshot ↔
      sb.historyTotal ≤ e.mirror.historyTotal := by
  have htail : e.snapshot.scrollbackTail = [] := (e.mirror.tail_eq_nil_iff (by decide)).mpr hlines
  rw [seedScrollback_of_tail_eq_nil e.anchored_snapshot htail]
  change (sb.evictBefore e.mirror.historyTotal).resetTo e.mirror.historyTotal
    = sb.evictBefore e.mirror.historyTotal ↔ _
  constructor
  · intro h
    have htotal := sb.evictBefore_historyTotal e.mirror.historyTotal
    rw [← h, ScrollbackBuffer.resetTo_historyTotal] at htotal
    exact htotal ▸ le_max_left _ _
  · intro h
    rw [ScrollbackBuffer.historyTotal] at h
    refine (ScrollbackBuffer.ext_iff' (ScrollbackBuffer.resetTo_maxLines _ _)).mpr ⟨?_, ?_⟩
    · rw [ScrollbackBuffer.resetTo_lines, ScrollbackBuffer.evictBefore_lines,
        List.drop_eq_nil_of_le (by omega)]
    · rw [ScrollbackBuffer.resetTo_baseIndex, ScrollbackBuffer.evictBefore_baseIndex,
        max_eq_right (by omega)]

/-- The tail of the snapshot, as the end of the lines since the wipe. -/
private theorem tail_eq_drop (hcap : snapshotTailLines ≤ e.mirror.cap)
    (hwindow : e.mirror.toWindow = Window.append e.mirror.cap ⟨base, []⟩ lines) :
    e.snapshot.scrollbackTail = lines.drop (lines.length - snapshotTailLines) := by
  have hitems : e.mirror.lines = lines.drop (lines.length - e.mirror.cap) := by
    have h := Window.append_items e.mirror.cap_pos lines ⟨base, []⟩ (Nat.zero_le _)
    rw [← hwindow, List.nil_append, List.length_nil, Nat.zero_add] at h
    exact h
  change e.mirror.tail snapshotTailLines = _
  rw [ScrollbackMirror.tail, hitems, List.drop_drop, List.length_drop]
  refine congrArg (fun k ↦ lines.drop k) ?_
  omega

/-- Lines pushed onto an empty buffer. -/
private theorem pushed_lines (sb : ScrollbackBuffer) (base : ℕ) (lines : List ScrollbackLine) :
    (lines.foldl ScrollbackBuffer.pushLine (sb.resetTo base)).lines
        = lines.drop (lines.length - sb.maxLines) ∧
      (lines.foldl ScrollbackBuffer.pushLine (sb.resetTo base)).baseIndex
        = base + (lines.length - sb.maxLines) := by
  rw [ScrollbackBuffer.foldl_pushLine_lines, ScrollbackBuffer.foldl_pushLine_baseIndex]
  simp

/-- Keeping the last `M` of `n` lines is keeping the last `M` of the last `T` of them exactly when
no more than `T` are kept. -/
private theorem kept_eq_iff {n M T : ℕ} :
    n - (n - M) = n - (n - T + (min n T - M)) ↔ min n M ≤ T := by
  omega

private theorem first_kept_eq {base n M T : ℕ} (h : min n M ≤ T) :
    base + (n - M) = base + n - min n T + (min n T - M) := by
  omega

private theorem dropped_eq {n M T : ℕ} (h : min n M ≤ T) : n - M = n - T + (min n T - M) := by
  omega

/-- The mirror was wiped and has recorded lines since. -/
private theorem history_iff_of_lines (sb : ScrollbackBuffer)
    (hcap : snapshotTailLines ≤ e.mirror.cap) (hlines : lines ≠ [])
    (htotal : base + lines.length = e.mirror.historyTotal)
    (hwindow : e.mirror.toWindow = Window.append e.mirror.cap ⟨base, []⟩ lines) :
    lines.foldl ScrollbackBuffer.pushLine ((seedScrollback sb e.snapshot).resetTo base)
        = seedScrollback sb e.snapshot ↔
      min lines.length sb.maxLines ≤ snapshotTailLines ∧ sb.baseIndex < e.mirror.historyTotal := by
  have hpos := List.length_pos_iff.mpr hlines
  have hmax := sb.maxLines_pos
  have hseed := seedScrollback_maxLines sb e.snapshot
  have htail := tail_eq_drop hcap hwindow
  have htailpos : 0 < e.snapshot.scrollbackTail.length := by
    have : 0 < snapshotTailLines := by decide
    rw [htail, List.length_drop]
    omega
  have htaillen : e.snapshot.scrollbackTail.length = min lines.length snapshotTailLines := by
    rw [htail, List.length_drop]
    omega
  obtain ⟨hfrom, hbase⟩ := pushed_lines (seedScrollback sb e.snapshot) base lines
  rw [ScrollbackBuffer.ext_iff' (by rw [ScrollbackBuffer.foldl_pushLine_maxLines]; rfl), hfrom,
    hbase, hseed]
  by_cases hlt : sb.baseIndex < e.mirror.historyTotal
  · -- the snapshot's tail has replaced the buffer
    rw [seedScrollback_of_base_lt e.anchored_snapshot (List.length_pos_iff.mp htailpos) hlt]
    obtain ⟨htail_lines, htail_base⟩ := pushed_lines (sb.evictBefore e.snapshot.scrollbackBase)
      (e.snapshot.historyTotal - e.snapshot.scrollbackTail.length) e.snapshot.scrollbackTail
    rw [htail_lines, htail_base, ScrollbackBuffer.evictBefore_maxLines]
    change _ ∧ _ = e.mirror.historyTotal - _ + _ ↔ _
    rw [htaillen, htail, List.drop_drop, ← htotal]
    constructor
    · rintro ⟨hsame, -⟩
      have hlen := congrArg List.length hsame
      rw [List.length_drop, List.length_drop] at hlen
      exact ⟨kept_eq_iff.mp hlen, htotal ▸ hlt⟩
    · rintro ⟨hfit, -⟩
      exact ⟨congrArg (fun k ↦ lines.drop k) (dropped_eq hfit), first_kept_eq hfit⟩
  · -- the buffer starts past the snapshot's end and has not changed
    rw [seedScrollback_of_le_base e.anchored_snapshot (List.length_pos_iff.mp htailpos)
      (not_lt.mp hlt)]
    constructor
    · rintro ⟨-, hsame⟩
      omega
    · rintro ⟨-, hlt'⟩
      exact absurd hlt' hlt

/-- **The scrollback.** The frames leave it as the snapshot did exactly when they carry no history,
or all of it since a wipe and no more than a snapshot does. -/
theorem history_iff {g : GridContent} {fs : List ServerMessage}
    (hcap : snapshotTailLines ≤ e.mirror.cap)
    (h : Follows (seedScrollback g.scrollback e.snapshot) e.mirror
      (fs.foldl ScrollbackBuffer.hear (seedScrollback g.scrollback e.snapshot)) (told fs)) :
    fs.foldl ScrollbackBuffer.hear (seedScrollback g.scrollback e.snapshot)
        = seedScrollback g.scrollback e.snapshot ↔ HistoryCurrent g e.snapshot fs := by
  have hle := le_seedScrollback_historyTotal e.anchored_snapshot g.scrollback
  change e.mirror.historyTotal ≤ _ at hle
  rw [HistoryCurrent]
  cases htold : told fs with
  | silent =>
    rw [htold] at h
    exact iff_of_true h trivial
  | broken =>
    rw [htold] at h
    obtain ⟨hlines, -, hsb⟩ := h
    refine iff_of_false (fun heq ↦ ?_) id
    have hpos := List.length_pos_iff.mpr hlines
    rw [heq] at hsb
    rcases hsb with hclear | hlt
    · rw [hclear, ScrollbackBuffer.clear, ScrollbackBuffer.resetTo_historyTotal,
        ScrollbackMirror.historyTotal] at hle
      omega
    · exact lt_irrefl _ hlt
  | since base lines =>
    rw [htold] at h
    obtain ⟨hsb, hbound, hwindow⟩ := h
    change _ ↔ base + lines.length = e.mirror.historyTotal ∧
      min lines.length g.scrollback.maxLines ≤ snapshotTailLines ∧
        if lines = [] then g.scrollback.historyTotal ≤ e.mirror.historyTotal
        else g.scrollback.baseIndex < e.mirror.historyTotal
    rw [hsb]
    by_cases htotal : base + lines.length = e.mirror.historyTotal
    · rw [and_iff_right htotal]
      by_cases hlines : lines = []
      · subst hlines
        rw [List.length_nil, Nat.add_zero] at htotal
        have hempty : e.mirror.lines = [] := congrArg Window.items (hwindow htotal)
        rw [if_pos rfl, List.foldl_nil, htotal, history_iff_of_nil g.scrollback hempty]
        simp
      · rw [if_neg hlines]
        exact history_iff_of_lines g.scrollback hcap hlines htotal (hwindow htotal)
    · refine iff_of_false (fun heq ↦ htotal ?_) fun hall ↦ htotal hall.1
      have hend := congrArg ScrollbackBuffer.historyTotal heq
      rw [ScrollbackBuffer.foldl_pushLine_historyTotal,
        ScrollbackBuffer.resetTo_historyTotal] at hend
      omega

end History

/-! ## A quiet emulator

Between the frames and the snapshot nothing was fed and nothing was resized. Then the frames do end
at the snapshot's grid, as far as cells, cursor and modes go. -/

section Quiet

def ServerMessage.diff? : ServerMessage → Option TerminalDiff
  | .terminalUpdate diff _ => some diff
  | _ => none

theorem flatMap_ops (fs : List ServerMessage) :
    fs.flatMap ServerMessage.ops = (fs.filterMap ServerMessage.diff?).flatMap TerminalDiff.ops := by
  have hops : ∀ f : ServerMessage, f.ops = f.diff?.toList.flatMap TerminalDiff.ops := by
    intro f
    cases f with
    | terminalUpdate diff seqno => exact (List.append_nil diff.ops).symm
    | _ => rfl
  rw [List.filterMap_eq_flatMap_toList, List.flatMap_assoc]
  exact congrArg fs.flatMap (funext hops)

/-- Of a list in which one message carries something, a suffix has it all or nothing. -/
private theorem filterMap_drop {β : Type*} {f : ServerMessage → Option β} {fs : List ServerMessage}
    {x : β} (h : fs.filterMap f = [x]) (k : ℕ) :
    (fs.drop k).filterMap f = [] ∨ (fs.drop k).filterMap f = [x] ∧ k < fs.length := by
  rw [← List.take_append_drop k fs, List.filterMap_append, List.append_eq_singleton_iff] at h
  rcases h with ⟨-, hdrop⟩ | ⟨-, hdrop⟩
  · refine Or.inr ⟨hdrop, ?_⟩
    by_contra hk
    rw [List.drop_eq_nil_of_le (not_lt.mp hk)] at hdrop
    exact absurd hdrop (by simp)
  · exact Or.inl hdrop

private theorem filterMap_drop_nil {β : Type*} {f : ServerMessage → Option β}
    {fs : List ServerMessage} (h : fs.filterMap f = []) (k : ℕ) : (fs.drop k).filterMap f = [] := by
  rw [← List.take_append_drop k fs, List.filterMap_append, List.append_eq_nil_iff] at h
  exact h.2

variable {B : Type*} [TerminalBackend B]

omit [TerminalBackend B] in
/-- A cell diff is one update, whatever is sent beside it, and the loop takes note of its cursor. -/
private theorem dispatched_cellDiff (p : Pane B) (diff : TerminalDiff)
    (lines : List ScrollbackLine) :
    (p.dispatchDiffResult (.cellDiff diff lines)).2.frames.filterMap ServerMessage.diff? = [diff] ∧
      (p.dispatchDiffResult (.cellDiff diff lines)).2.frames.filterMap ServerMessage.cursor?
        = [(diff.cursor, diff.modes)] ∧
      (p.dispatchDiffResult (.cellDiff diff lines)).1.prevCursor = diff.cursor ∧
      (p.dispatchDiffResult (.cellDiff diff lines)).1.prevModes = diff.modes := by
  have h := p.dispatched (.cellDiff diff lines)
  generalize (p.dispatchDiffResult (.cellDiff diff lines)).1 = p' at h ⊢
  generalize (p.dispatchDiffResult (.cellDiff diff lines)).2.frames = frames at h ⊢
  cases h <;> exact ⟨rfl, rfl, rfl, rfl⟩

/-- A cycle of a loop in step with its engine, or one that is reported, leaves them in step. -/
private theorem cycle_frames (p : Pane B) (b : B) :
    ((p.cycle b).2.frames.filterMap ServerMessage.diff?
        = if (p.engine.feed b).forcesCellDiff then [(p.engine.feed b).frameDiff] else []) ∧
      ((p.cycle b).2.frames.filterMap ServerMessage.cursor?
        = [((p.engine.feed b).frameDiff.cursor, (p.engine.feed b).frameDiff.modes)] ∧
          LoopInStep (p.cycle b).1 ∨
        (p.cycle b).2.frames.filterMap ServerMessage.cursor? = [] ∧
          (LoopInStep p → LoopInStep (p.cycle b).1 ∧
            (p.cycle b).1.engine.prevCursor = p.engine.prevCursor ∧
            (p.cycle b).1.engine.prevModes = p.engine.prevModes)) := by
  have hobs := p.observed_cycle b
  set e := p.engine.feed b with he
  have hcycle : p.cycle b
      = Pane.dispatchDiffResult { p with engine := e.computeDiff.1 } e.computeDiff.2 := rfl
  by_cases hcell : e.forcesCellDiff
  · have hdisp := dispatched_cellDiff { p with engine := e.computeDiff.1 } e.frameDiff
      e.historyStep.lines
    have hsnd : e.computeDiff.2 = .cellDiff e.frameDiff e.historyStep.lines := by
      rw [e.computeDiff_snd, if_pos hcell]
    rw [← hsnd, ← hcycle] at hdisp
    obtain ⟨hdiff, hcursor, hloop, hmodes⟩ := hdisp
    refine ⟨by rw [hdiff, if_pos hcell], Or.inl ⟨hcursor, ?_, ?_⟩⟩
    · rw [hloop, hobs.prevCursor]
      rfl
    · rw [hmodes, hobs.prevModes]
      rfl
  · rw [if_neg hcell]
    by_cases hchanged : e.cursorOrModesChanged
    · have hsnd : e.computeDiff.2
          = .cursorOnly e.frameDiff.cursor e.frameDiff.modes e.frameDiff.historyTotal := by
        rw [e.computeDiff_snd, if_neg hcell, if_pos hchanged]
      rw [hsnd, Pane.dispatchDiffResult] at hcycle
      by_cases hloop : e.frameDiff.cursor ≠ p.prevCursor ∨ e.frameDiff.modes ≠ p.prevModes
      · rw [if_pos hloop] at hcycle
        rw [hcycle]
        refine ⟨rfl, Or.inl ⟨rfl, ?_, ?_⟩⟩
        · exact ((e.observed_computeDiff).prevCursor).symm
        · exact ((e.observed_computeDiff).prevModes).symm
      · rw [if_neg hloop] at hcycle
        rw [hcycle]
        -- the engine sees a change where the loop does not: they were out of step
        refine ⟨rfl, Or.inr ⟨rfl, fun hstep ↦ absurd ?_ hloop⟩⟩
        rw [hstep.prevCursor, hstep.prevModes]
        exact hchanged
    · have hsnd : e.computeDiff.2 = .none := by
        rw [e.computeDiff_snd, if_neg hcell, if_neg hchanged]
      rw [hsnd, Pane.dispatchDiffResult] at hcycle
      rw [DiffEngine.cursorOrModesChanged, not_or, not_not, not_not] at hchanged
      have hcursor : e.computeDiff.1.prevCursor = p.engine.prevCursor :=
        e.observed_computeDiff.prevCursor.trans hchanged.1
      have hmodes : e.computeDiff.1.prevModes = p.engine.prevModes :=
        e.observed_computeDiff.prevModes.trans hchanged.2
      rw [hcycle]
      exact ⟨rfl, Or.inr ⟨rfl, fun hstep ↦ ⟨⟨hstep.prevCursor.trans hcursor.symm,
        hstep.prevModes.trans hmodes.symm⟩, hcursor, hmodes⟩⟩⟩

/-! ### Cells -/

/-- A suffix of a cycle's frames carries all of its operations or none. -/
private theorem ops_cycle (p : Pane B) (b : B) :
    (p.cycle b).2.frames.flatMap ServerMessage.ops = (p.engine.feed b).frameOps ∧
      ∀ k, ((p.cycle b).2.frames.drop k).flatMap ServerMessage.ops = [] ∨
        ((p.cycle b).2.frames.drop k).flatMap ServerMessage.ops = (p.engine.feed b).frameOps ∧
          k < (p.cycle b).2.frames.length := by
  have hdiff := (cycle_frames p b).1
  by_cases hcell : (p.engine.feed b).forcesCellDiff
  · rw [if_pos hcell] at hdiff
    refine ⟨by rw [flatMap_ops, hdiff, List.flatMap_singleton]; rfl, fun k ↦ ?_⟩
    rw [flatMap_ops]
    rcases filterMap_drop hdiff k with hdrop | ⟨hdrop, hk⟩ <;> rw [hdrop]
    · exact Or.inl rfl
    · exact Or.inr ⟨by rw [List.flatMap_singleton]; rfl, hk⟩
  · rw [if_neg hcell] at hdiff
    have hops : (p.engine.feed b).frameOps = [] := by_contra fun h ↦ hcell (Or.inl h)
    refine ⟨by rw [flatMap_ops, hdiff, hops]; rfl, fun k ↦ Or.inl ?_⟩
    rw [flatMap_ops, filterMap_drop_nil hdiff k]
    rfl

/-- A cycle compares with what the frames up to it have drawn. -/
private theorem applyOps_cycle (p : Pane B) (b : B) :
    applyOps p.engine.cols.toNat (p.engine.feed b).frameOps p.engine.prevCells
        = (p.cycle b).1.engine.prevCells ∧ (p.cycle b).1.engine.cols = p.engine.cols := by
  have hobs := p.observed_cycle b
  exact ⟨((p.engine.feed b).applyOps_frameOps).trans hobs.prevCells.symm, hobs.cols⟩

private theorem cols_run (bs : List B) : ∀ p : Pane B,
    (p.run (cycles bs)).engine.cols = p.engine.cols := by
  induction bs with
  | nil => exact fun p ↦ rfl
  | cons b bs ih => exact fun p ↦ (ih (p.cycle b).1).trans (applyOps_cycle p b).2

/-- All frames, from the comparison state on. -/
private theorem applyOps_framesOf (bs : List B) : ∀ p : Pane B,
    applyOps p.engine.cols.toNat ((framesOf p (cycles bs)).flatMap ServerMessage.ops)
        p.engine.prevCells = (p.run (cycles bs)).engine.prevCells := by
  induction bs with
  | nil => exact fun p ↦ rfl
  | cons b bs ih =>
    intro p
    obtain ⟨hcells, hcols⟩ := applyOps_cycle p b
    rw [cycles, List.map_cons, framesOf_cycle_cons, List.flatMap_append, applyOps_append,
      (ops_cycle p b).1, hcells, ← hcols]
    exact ih (p.cycle b).1

/-- The last frames of a run draw its end over some earlier screen. -/
private theorem exists_applyOps_drop (bs : List B) : ∀ (p : Pane B) (k : ℕ),
    ∃ prev : List CellState, prev.length = (p.run (cycles bs)).engine.prevCells.length ∧
      applyOps (p.run (cycles bs)).engine.cols.toNat
          (((framesOf p (cycles bs)).drop k).flatMap ServerMessage.ops) prev
        = (p.run (cycles bs)).engine.prevCells := by
  induction bs with
  | nil =>
    intro p k
    refine ⟨p.engine.prevCells, rfl, ?_⟩
    rw [show framesOf p (cycles []) = [] from rfl, List.drop_nil]
    rfl
  | cons b bs ih =>
    intro p k
    rcases (ops_cycle p b).2 k with hnil | ⟨hops, hk⟩
    · obtain ⟨prev, hlen, hprev⟩ := ih (p.cycle b).1 (k - (p.cycle b).2.frames.length)
      refine ⟨prev, hlen, ?_⟩
      rw [cycles, List.map_cons, framesOf_cycle_cons, List.drop_append, List.flatMap_append, hnil,
        List.nil_append]
      exact hprev
    · -- the cycle's operations are among the frames, so all later frames are
      have hall := applyOps_framesOf (b :: bs) p
      refine ⟨p.engine.prevCells, ?_, ?_⟩
      · rw [← hall, length_applyOps]
      · rw [cols_run, ← hall, cycles, List.map_cons, framesOf_cycle_cons, List.drop_append,
          Nat.sub_eq_zero_of_le hk.le, List.drop_zero, List.flatMap_append, hops,
          List.flatMap_append, (ops_cycle p b).1]

/-! ### Cursor and modes -/

/-- A loop in step with its engine that reports nothing has seen no change. -/
private theorem unchanged_of_unreported (bs : List B) : ∀ {p : Pane B}, LoopInStep p →
    lastReported (framesOf p (cycles bs)) = none →
      (p.run (cycles bs)).engine.prevCursor = p.engine.prevCursor ∧
        (p.run (cycles bs)).engine.prevModes = p.engine.prevModes := by
  induction bs with
  | nil => exact fun _ _ ↦ ⟨rfl, rfl⟩
  | cons b bs ih =>
    intro p hstep hnone
    rw [cycles, List.map_cons, framesOf_cycle_cons, lastReported_append, Option.or_eq_none_iff]
      at hnone
    rcases (cycle_frames p b).2 with ⟨hsome, -⟩ | ⟨-, hquiet⟩
    · have hreport := hnone.2
      rw [lastReported, hsome] at hreport
      exact absurd hreport (by simp)
    · obtain ⟨hstep', hcursor, hmodes⟩ := hquiet hstep
      obtain ⟨hcursor', hmodes'⟩ := ih hstep' hnone.1
      exact ⟨hcursor'.trans hcursor, hmodes'.trans hmodes⟩

/-- What the last frames of a run report is what the engine saw last. -/
private theorem lastReported_drop (bs : List B) :
    ∀ (p : Pane B) (k : ℕ) (c : CursorState × TermModes),
    lastReported ((framesOf p (cycles bs)).drop k) = some c →
      c = ((p.run (cycles bs)).engine.prevCursor, (p.run (cycles bs)).engine.prevModes) := by
  induction bs with
  | nil =>
    intro p k c hc
    rw [show framesOf p (cycles []) = [] from rfl, List.drop_nil] at hc
    exact absurd hc (by simp [lastReported])
  | cons b bs ih =>
    intro p k c hc
    rw [cycles, List.map_cons, framesOf_cycle_cons, List.drop_append, lastReported_append] at hc
    cases hlater : lastReported ((framesOf (p.cycle b).1 (cycles bs)).drop
        (k - (p.cycle b).2.frames.length)) with
    | some c' =>
      rw [← cycles, hlater, Option.some_or] at hc
      rw [← Option.some_inj.mp hc]
      exact ih (p.cycle b).1 _ c' hlater
    | none =>
      rw [← cycles, hlater, Option.none_or] at hc
      have hobs := p.observed_cycle b
      rcases (cycle_frames p b).2 with ⟨hsome, hstep⟩ | ⟨hnone, -⟩
      · rcases filterMap_drop hsome k with hdrop | ⟨hdrop, hk⟩
        · rw [lastReported, hdrop] at hc
          exact absurd hc (by simp)
        · -- the cycle's report is the last one, so nothing changed after it
          rw [Nat.sub_eq_zero_of_le hk.le, List.drop_zero] at hlater
          obtain ⟨hcursor, hmodes⟩ := unchanged_of_unreported bs hstep hlater
          rw [lastReported, hdrop] at hc
          rw [← Option.some_inj.mp hc]
          exact Prod.ext (hobs.prevCursor.symm.trans hcursor.symm)
            (hobs.prevModes.symm.trans hmodes.symm)
      · rw [lastReported, filterMap_drop_nil hnone k] at hc
        exact absurd hc (by simp)

/-- The engine's comparison state is what the emulator shows, after any cycle. -/
private theorem shown_run {bs : List B} (hbs : bs ≠ []) : ∀ p : Pane B,
    shown (p.run (cycles bs)).engine.backend (p.run (cycles bs)).engine.rows
        (p.run (cycles bs)).engine.cols
      = ((p.run (cycles bs)).engine.prevCells, (p.run (cycles bs)).engine.prevCursor,
        (p.run (cycles bs)).engine.prevModes) := by
  induction bs with
  | nil => exact absurd rfl hbs
  | cons b bs ih =>
    intro p
    by_cases hnil : bs = []
    · subst hnil
      have hobs := p.observed_cycle b
      change shown (p.cycle b).1.engine.backend (p.cycle b).1.engine.rows (p.cycle b).1.engine.cols
        = ((p.cycle b).1.engine.prevCells, (p.cycle b).1.engine.prevCursor,
          (p.cycle b).1.engine.prevModes)
      rw [hobs.backend, hobs.rows, hobs.cols, hobs.prevCells, hobs.prevCursor, hobs.prevModes]
    · exact ih hnil (p.cycle b).1

/-- **A quiet emulator.** After cycles only, and with nothing fed since, the cells, cursor and modes
the frames carry are those of the snapshot. -/
theorem current_of_quiet (p : Pane B) (bs : List B) (k : ℕ) :
    CellsCurrent (p.run (cycles bs)).engine.snapshot ((framesOf p (cycles bs)).drop k) ∧
      CursorCurrent (p.run (cycles bs)).engine.snapshot ((framesOf p (cycles bs)).drop k) := by
  by_cases hbs : bs = []
  · subst hbs
    rw [show framesOf p (cycles []) = [] from rfl, List.drop_nil]
    refine ⟨fun i _ c hc ↦ absurd hc (by simp [lastWritten]), fun c hc ↦ ?_⟩
    exact absurd hc (by simp [lastReported])
  have hshown := shown_run hbs p
  refine ⟨fun i hi c hc ↦ ?_, fun c hc ↦ ?_⟩
  · obtain ⟨prev, hlen, hprev⟩ := exists_applyOps_drop bs p k
    have hcells : (p.run (cycles bs)).engine.snapshot.cells
        = (p.run (cycles bs)).engine.prevCells :=
      congrArg Prod.fst hshown
    rw [hcells] at hi ⊢
    change lastWritten (p.run (cycles bs)).engine.cols.toNat i _ = some c at hc
    rw [← hprev, getElem?_applyOps _ i _ prev (hlen ▸ hi), hc, Option.some_or]
  · rw [lastReported_drop bs p k c hc]
    exact (congrArg Prod.snd hshown).symm

end Quiet

/-! ## Re-delivery -/

variable {B : Type*} [TerminalBackend B]

/-- **Re-delivery after a resync.** A pane has any history. From there the relay emits frames, and a
snapshot is taken once it has, when the emulator may have been fed on to `b`. A client that applies
the snapshot and then any last part of the frames ends as the snapshot alone leaves it, exactly when
no cell, cursor or mode the frames carry has changed since, and the frames carry no scrollback, or
all of it since a wipe and no more than the snapshot does. The conditions on cells, cursor and modes
are met whenever nothing was fed or resized meanwhile. -/
theorem harmless_iff (b₀ : B) (pre es : List (PaneEvent B)) (k : ℕ) (b : B) (g : GridContent) :
    let p := (Pane.new b₀).run pre
    let s := ((p.run es).engine.feed b).snapshot
    let fs := (framesOf p es).drop k
    (Harmless g s fs ↔ CellsCurrent s fs ∧ CursorCurrent s fs ∧ HistoryCurrent g s fs) ∧
      ∀ bs : List B,
        CellsCurrent (p.run (cycles bs)).engine.snapshot ((framesOf p (cycles bs)).drop k) ∧
        CursorCurrent (p.run (cycles bs)).engine.snapshot ((framesOf p (cycles bs)).drop k) := by
  intro p s fs
  have hfs : ∀ f ∈ fs, f.seqno?.isSome := fun f hf ↦
    (List.mem_filter.mp (List.mem_of_mem_drop hf)).2
  have hcap : ((p.run es).engine.feed b).mirror.cap = mirrorCapacity :=
    (recorded_framesOf es p).cap.trans (recorded_framesOf pre (Pane.new b₀)).cap
  have hcap' : snapshotTailLines ≤ ((p.run es).engine.feed b).mirror.cap := by
    rw [hcap]
    decide
  refine ⟨?_, fun bs ↦ current_of_quiet p bs k⟩
  rw [harmless_iff_reapplied g s hfs]
  refine and_congr_right' (and_congr_right' (history_iff hcap' ?_))
  obtain ⟨m₁, hrec⟩ := (recorded_framesOf es p).drop k
  exact follows_recorded (t := .silent) hrec rfl

/-- A letter appears and a line scrolls off; the label is read before, the snapshot is taken after.
The client holds the line when it has applied the snapshot, and nothing once the two frames have
come again. -/
theorem not_harmless_of_append :
    let p := Pane.new (MockBackend.new 1 1)
    let next : MockBackend :=
      { MockBackend.new 1 1 with
        cells := [letterA], historyLen := 1, historyLines := [[default]] }
    let g := GridContent.new 1 1
    let s := (p.run [.cycle next]).engine.snapshot
    p.currentSeqno = 0 ∧ (framesOf p [.cycle next]).map ServerMessage.seqno? = [some 1, some 2] ∧
      (g.applySnapshot s).1.scrollback.lines = [[default]] ∧
      ((g.applySnapshot s).1.applyFrames (framesOf p [.cycle next])).scrollback.lines = [] ∧
      ¬ Harmless g s (framesOf p [.cycle next]) := by
  intro p next g s
  have hheld : (g.applySnapshot s).1.scrollback.lines = [[default]] := by decide +kernel
  have hlost : ((g.applySnapshot s).1.applyFrames (framesOf p [.cycle next])).scrollback.lines
      = [] := by decide +kernel
  refine ⟨rfl, by decide +kernel, hheld, hlost, fun h ↦ ?_⟩
  rw [h.scrollback, hheld] at hlost
  exact absurd hlost (by simp)

end Kmux
