import Kmux.Client.RoundTrip
import Kmux.Daemon.Worker
import Kmux.History.Backend

/-!
# Checkpoints of the two engines

A checkpoint asks a pane's engine for the grid and the last lines of the history. The in-process
engine reads them from its emulator. The worker engine has no emulator at hand and reads its mirror,
by absolute index: the window of the asked size that ends at the history's total, from its start up
to the first line that is not held.

The window is bounded by the total and not by the number of lines held. Once lines have been evicted
or wiped, a window of more lines than are held starts below the oldest of them, the first lookup
fails, and nothing is returned at all. `checkpoint_agrees_iff` is the exact condition. It also has a
clause for the alternate screen, on which the emulator reports no history and the mirror keeps it.

The range read that serves history requests starts at the oldest line held instead, and is that of
the in-process mirror, `mirrorRangeAndTotal_eq`.
-/

namespace Kmux

open TerminalBackend

/-! ## Reading by absolute index -/

/-- The lines from an absolute index on, at most `n`, up to the first one not held. -/
def ScrollbackBuffer.readFrom (s : ScrollbackBuffer) : ℕ → ℕ → List ScrollbackLine
  | _, 0 => []
  | abs, n + 1 =>
    match s.getAbsolute abs with
    | some line => line :: s.readFrom (abs + 1) n
    | none => []

theorem ScrollbackBuffer.readFrom_of_lt (s : ScrollbackBuffer) {abs : ℕ} (h : abs < s.baseIndex)
    (n : ℕ) : s.readFrom abs n = [] := by
  rcases n with _ | n
  · rfl
  · rw [readFrom, getAbsolute, if_pos h]

theorem ScrollbackBuffer.readFrom_of_le (s : ScrollbackBuffer) {abs : ℕ} (h : s.baseIndex ≤ abs)
    (n : ℕ) : s.readFrom abs n = (s.lines.drop (abs - s.baseIndex)).take n := by
  induction n generalizing abs with
  | zero => rw [readFrom, List.take_zero]
  | succ n ih =>
    rw [readFrom, getAbsolute, if_neg (Nat.not_lt.mpr h)]
    by_cases hlt : abs - s.baseIndex < s.lines.length
    · rw [List.getElem?_eq_getElem hlt, List.drop_eq_getElem_cons hlt, List.take_succ_cons,
        ← Nat.sub_add_comm h]
      exact congrArg _ (ih (Nat.le_succ_of_le h))
    · rw [List.getElem?_eq_none (Nat.not_lt.mp hlt), List.drop_eq_nil_of_le (Nat.not_lt.mp hlt),
        List.take_nil]

/-! ## The engines -/

namespace WorkerEngine

/-- The worker engine's checkpoint, from its mirror. -/
def checkpointGrid (mirror : GridContent) (maxLines : ℕ) : GridSnapshot × List ScrollbackLine :=
  let grid := mirror.toSnapshot
  let sb := mirror.scrollback
  let total := sb.historyTotal
  let want := min maxLines total
  let start := total - want
  (grid, sb.readFrom start (total - start))

/-- The worker engine's answer to a history request: first index, lines, total. -/
def mirrorRangeAndTotal (mirror : GridContent) (start count : ℕ) :
    ℕ × List ScrollbackLine × ℕ :=
  let sb := mirror.scrollback
  let first := max start sb.baseIndex
  (first, sb.readFrom first count, sb.historyTotal)

end WorkerEngine

namespace InProcessEngine

variable {B : Type*} [TerminalBackend B]

/-- The in-process engine's checkpoint, from its emulator. -/
def checkpointGrid (ts : DiffEngine B) (maxLines : ℕ) : GridSnapshot × List ScrollbackLine :=
  let grid := ts.snapshot
  let size := historySize ts.backend
  let start := size - maxLines
  let count := size - start
  (grid, if 0 < count then readHistoryLines ts.backend start count ts.cols.toNat else [])

/-- The in-process engine's answer to a history request. -/
def mirrorRangeAndTotal (ts : DiffEngine B) (start count : ℕ) : ℕ × List ScrollbackLine × ℕ :=
  let range := ts.mirror.range start count
  (range.1, range.2, ts.mirror.historyTotal)

end InProcessEngine

/-- The last lines of a history. -/
def lastLines (lines : List ScrollbackLine) (maxLines : ℕ) : List ScrollbackLine :=
  lines.drop (lines.length - min maxLines lines.length)

theorem lastLines_eq_drop (lines : List ScrollbackLine) (maxLines : ℕ) :
    lastLines lines maxLines = lines.drop (lines.length - maxLines) := by
  rw [lastLines]
  congr 1
  omega

theorem lastLines_eq_nil_iff (lines : List ScrollbackLine) (maxLines : ℕ) :
    lastLines lines maxLines = [] ↔ maxLines = 0 ∨ lines = [] := by
  rw [lastLines_eq_drop, List.drop_eq_nil_iff, ← List.length_eq_zero_iff]
  omega

/-- A history read is that of a mirror which holds the same lines. -/
theorem mirrorRangeAndTotal_eq {m : GridContent} {mirror : ScrollbackMirror}
    (hlines : mirror.lines = m.scrollback.lines)
    (hbase : mirror.baseIndex = m.scrollback.baseIndex) (start count : ℕ) :
    WorkerEngine.mirrorRangeAndTotal m start count =
      ((mirror.range start count).1, (mirror.range start count).2, mirror.historyTotal) := by
  have htotal : mirror.historyTotal = m.scrollback.historyTotal := by
    rw [ScrollbackMirror.historyTotal, hlines, hbase, ScrollbackBuffer.historyTotal]
  rw [WorkerEngine.mirrorRangeAndTotal, ScrollbackMirror.range_fst, hbase, htotal,
    ScrollbackBuffer.readFrom_of_le _ (le_max_right start _)]
  refine Prod.ext rfl (Prod.ext ?_ rfl)
  dsimp only
  rw [ScrollbackMirror.range, htotal, hbase, hlines]
  by_cases hnone : m.scrollback.historyTotal ≤ start ∨ count = 0
  · rw [if_pos hnone]
    rcases hnone with hpast | hzero
    · rw [ScrollbackBuffer.historyTotal] at hpast
      rw [List.drop_eq_nil_of_le (by omega), List.take_nil]
    · rw [hzero, List.take_zero]
  · rw [if_neg hnone]
    dsimp only
    -- the range stops at the end of the held lines, where `take` does by itself
    rw [List.take_eq_take_iff, List.length_drop]
    omega

/-! ## What each returns -/

/-- **The worker's window.** It comes back whole, or not at all. -/
theorem worker_lines (m : GridContent) (maxLines : ℕ) :
    (WorkerEngine.checkpointGrid m maxLines).2 =
      if maxLines ≤ m.scrollback.lines.length ∨ m.scrollback.baseIndex = 0 then
        lastLines m.scrollback.lines maxLines
      else [] := by
  rw [WorkerEngine.checkpointGrid, lastLines_eq_drop]
  dsimp only
  by_cases hfit : maxLines ≤ m.scrollback.lines.length ∨ m.scrollback.baseIndex = 0
  · rw [if_pos hfit,
      ScrollbackBuffer.readFrom_of_le _ (by rw [ScrollbackBuffer.historyTotal]; omega),
      List.take_of_length_le (by rw [List.length_drop, ScrollbackBuffer.historyTotal]; omega)]
    congr 1
    rw [ScrollbackBuffer.historyTotal]
    omega
  · rw [if_neg hfit]
    exact ScrollbackBuffer.readFrom_of_lt _ (by rw [ScrollbackBuffer.historyTotal]; omega) _

/-- What the worker returns is what was asked for. -/
theorem worker_lines_eq_iff (m : GridContent) (maxLines : ℕ) :
    (WorkerEngine.checkpointGrid m maxLines).2 = lastLines m.scrollback.lines maxLines ↔
      maxLines ≤ m.scrollback.lines.length ∨ m.scrollback.baseIndex = 0 ∨
        m.scrollback.lines = [] := by
  rw [worker_lines]
  by_cases hfit : maxLines ≤ m.scrollback.lines.length ∨ m.scrollback.baseIndex = 0
  · rw [if_pos hfit]
    exact iff_of_true rfl (hfit.imp_right .inl)
  · rw [if_neg hfit, eq_comm, lastLines_eq_nil_iff]
    refine ⟨fun h ↦ .inr (.inr (h.resolve_left fun hzero ↦ ?_)), fun h ↦ .inr ?_⟩
    · exact hfit (.inl (hzero ▸ Nat.zero_le _))
    · exact h.elim (fun hle ↦ absurd (.inl hle) hfit)
        fun h ↦ h.resolve_left fun hbase ↦ hfit (.inr hbase)

open HistoryBackend in
/-- The in-process engine returns the last lines of what its emulator keeps, if it shows it. -/
theorem inProcess_lines {B : Type*} [HistoryBackend B] (e : DiffEngine B) (maxLines : ℕ) :
    (InProcessEngine.checkpointGrid e maxLines).2 =
      if e.view.altScreen then [] else lastLines e.view.lines maxLines := by
  rw [InProcessEngine.checkpointGrid]
  dsimp only
  rw [historySize_eq, ← DiffEngine.view, lastLines_eq_drop]
  rcases halt : e.view.altScreen with _ | _
  · rw [HistoryView.size_of_main halt, readHistoryLines_eq _ _ _ _ halt, ← DiffEngine.view,
      if_neg Bool.false_ne_true]
    by_cases hcount : 0 < e.view.lines.length - (e.view.lines.length - maxLines)
    · rw [if_pos hcount, List.take_of_length_le (by rw [List.length_drop])]
    · rw [if_neg hcount, List.drop_eq_nil_of_le (by omega)]
  · rw [HistoryView.size_of_alt halt, if_pos rfl, if_neg (by omega)]

/-! ## One history for both

A pane's history reaches the daemon as events: lines pushed, and wipes. The mirror applies them; an
emulator of the same pane has seen the same happen to its own history. -/

/-- What an event tells of the history. -/
def WorkerEvent.told : WorkerEvent → List TermOutput
  | .diff d scrollbackLines =>
      (if d.scrollbackReset.isSome then [.wipe] else []) ++ scrollbackLines.map .scroll
  | .cursorOnly .. => []

/-- The history an emulator keeps of what some events tell. -/
def paneHistory (events : List WorkerEvent) : HistoryView :=
  (events.flatMap WorkerEvent.told).foldl HistoryView.after
    { lines := [], altScreen := false, cap := defaultScrollback, length_le := Nat.zero_le _ }

/-- What an event does to an engine's scrollback mirror. -/
def ScrollbackMirror.hear (m : ScrollbackMirror) : WorkerEvent → ScrollbackMirror
  | .diff d scrollbackLines =>
      (if d.scrollbackReset.isSome then m.reset else m).append scrollbackLines
  | .cursorOnly .. => m

theorem mirrorCapacity_pos : 0 < mirrorCapacity := by decide

/-- The scrollback mirror an engine has after some events. -/
def paneMirror (events : List WorkerEvent) : ScrollbackMirror :=
  events.foldl ScrollbackMirror.hear (ScrollbackMirror.new mirrorCapacity mirrorCapacity_pos)

/-- The daemon's grid after some events. -/
def gridAfter (rows cols : ℕ) (events : List WorkerEvent) : GridContent :=
  events.foldl handleEvent (GridContent.new rows cols)

/-- A buffer and an emulator's history hold the same lines, in the same room. -/
structure SameLines (sb : ScrollbackBuffer) (v : HistoryView) : Prop where
  lines : sb.lines = v.lines
  cap : sb.maxLines = v.cap
  main : v.altScreen = false

theorem SameLines.push {sb : ScrollbackBuffer} {v : HistoryView} (h : SameLines sb v)
    (line : ScrollbackLine) : SameLines (sb.pushLine line) (v.after (.scroll line)) := by
  have hpush := ScrollbackBuffer.foldl_pushLine_lines sb [line]
  rw [List.foldl_cons, List.foldl_nil, List.length_singleton, h.lines, h.cap] at hpush
  rw [HistoryView.after, h.main, if_neg Bool.false_ne_true]
  exact ⟨hpush, (sb.pushLine_maxLines line).trans h.cap, h.main⟩

theorem SameLines.pushAll {sb : ScrollbackBuffer} {v : HistoryView} (h : SameLines sb v)
    (lines : List ScrollbackLine) :
    SameLines (lines.foldl ScrollbackBuffer.pushLine sb)
      ((lines.map TermOutput.scroll).foldl HistoryView.after v) := by
  induction lines generalizing sb v with
  | nil => exact h
  | cons line lines ih => exact ih (h.push line)

/-- What holds between the daemon's grid, an emulator and an engine's mirror. -/
structure Agree (m : GridContent) (v : HistoryView) (mirror : ScrollbackMirror) : Prop where
  lines : SameLines m.scrollback v
  total : mirror.historyTotal = m.scrollback.historyTotal

/-- A diff, without its lines, whose wipe is anchored where the history ends. -/
theorem Agree.applyDiff {m : GridContent} {v : HistoryView} {mirror : ScrollbackMirror}
    (h : Agree m v mirror) {d : TerminalDiff}
    (hreset : d.scrollbackReset = none ∨ d.scrollbackReset = some m.scrollback.historyTotal) :
    Agree (m.applyDiff d).1
      ((if d.scrollbackReset.isSome then [TermOutput.wipe] else []).foldl HistoryView.after v)
      (if d.scrollbackReset.isSome then mirror.reset else mirror) := by
  have hscrollback := (GridContent.sameContent_applyDiff m d).scrollback
  rcases hreset with hnone | hsome
  · rw [hnone] at hscrollback ⊢
    rw [if_neg (by simp), if_neg (by simp)]
    exact ⟨hscrollback ▸ h.lines, by rw [h.total, hscrollback]⟩
  · rw [hsome] at hscrollback ⊢
    rw [if_pos Option.isSome_some, if_pos Option.isSome_some]
    refine ⟨?_, ?_⟩
    · rw [hscrollback]
      exact ⟨rfl, h.lines.cap, h.lines.main⟩
    · rw [ScrollbackMirror.reset_historyTotal, h.total, hscrollback]
      rfl

/-- An event that starts where the history ends. -/
theorem Agree.handleEvent {m : GridContent} {v : HistoryView} {mirror : ScrollbackMirror}
    (h : Agree m v mirror) {ev : WorkerEvent} {events : List WorkerEvent} {total : ℕ}
    (hchain : Chain m.scrollback.historyTotal (ev :: events) total) :
    Agree (Kmux.handleEvent m ev) (ev.told.foldl HistoryView.after v) (mirror.hear ev) := by
  match ev with
  | .cursorOnly _ _ _ => exact ⟨h.lines, h.total⟩
  | .diff d lines =>
    obtain ⟨hreset, htotal, -⟩ := hchain
    -- the wipe comes first
    have hwiped := h.applyDiff hreset
    have hfirst : d.historyTotal - lines.length = (m.applyDiff d).1.scrollback.historyTotal := by
      have hend := hwiped.total
      have hstart : (if d.scrollbackReset.isSome then mirror.reset else mirror).historyTotal =
          mirror.historyTotal := by
        split
        · exact mirror.reset_historyTotal
        · rfl
      rw [← hend, hstart, h.total, htotal, Nat.add_sub_cancel]
    have happend : (Kmux.handleEvent m (.diff d lines)).scrollback =
        lines.foldl ScrollbackBuffer.pushLine (m.applyDiff d).1.scrollback := by
      rw [Kmux.handleEvent]
      by_cases hlines : lines = []
      · rw [if_pos hlines, hlines]
        rfl
      · rw [if_neg hlines, (GridContent.sameContent_applyScrollbackAppend hfirst lines).scrollback]
    rw [WorkerEvent.told, List.foldl_append, ScrollbackMirror.hear]
    refine ⟨?_, ?_⟩
    · rw [happend]
      exact hwiped.lines.pushAll lines
    · rw [happend, ScrollbackBuffer.foldl_pushLine_historyTotal,
        ScrollbackMirror.append_historyTotal, hwiped.total]

theorem Agree.foldl {m : GridContent} {v : HistoryView} {mirror : ScrollbackMirror}
    (h : Agree m v mirror) {events : List WorkerEvent} {total : ℕ}
    (hchain : Chain m.scrollback.historyTotal events total) :
    Agree (events.foldl Kmux.handleEvent m)
      ((events.flatMap WorkerEvent.told).foldl HistoryView.after v)
      (events.foldl ScrollbackMirror.hear mirror) := by
  induction events generalizing m v mirror with
  | nil => exact h
  | cons ev events ih =>
    rw [List.flatMap_cons, List.foldl_append]
    exact ih (h.handleEvent hchain) (chain_handleEvent hchain)

/-- **One history.** After any events the daemon's grid, an emulator and an engine's mirror that
have seen them agree. -/
theorem agree_gridAfter (rows cols : ℕ) {events : List WorkerEvent} {total : ℕ}
    (hchain : Chain 0 events total) :
    Agree (gridAfter rows cols events) (paneHistory events) (paneMirror events) :=
  Agree.foldl ⟨⟨rfl, rfl, rfl⟩, rfl⟩ hchain

/-! ## The checkpoints compared -/

/-- The two engines stand at the same point of one pane's life: they show the same screen, and have
been told the same history. The emulator may be on the alternate screen. -/
structure SamePane {B : Type*} [HistoryBackend B] (m : GridContent) (events : List WorkerEvent)
    (e : DiffEngine B) : Prop where
  rows : m.rows = e.rows.toNat
  cols : m.cols = e.cols.toNat
  screen : (m.cells, m.cursor, m.modes) = shown e.backend e.rows e.cols
  history : e.view.lines = (paneHistory events).lines
  mirror : e.mirror = paneMirror events

/-- Two snapshots show the same grid, at the same point of the history. -/
structure SameGrid (s t : GridSnapshot) : Prop where
  rows : s.rows = t.rows
  cols : s.cols = t.cols
  cells : s.cells = t.cells
  cursor : s.cursor = t.cursor
  modes : s.modes = t.modes
  historyTotal : s.historyTotal = t.historyTotal

/-- The worker engine's checkpoint is its grid and its last lines, and that of the in-process
engine; its history reads are those of a mirror with the same lines. -/
structure CheckpointAgrees {B : Type*} [TerminalBackend B] (m : GridContent) (e : DiffEngine B)
    (maxLines : ℕ) : Prop where
  grid : (WorkerEngine.checkpointGrid m maxLines).1 = m.toSnapshot
  lines : (WorkerEngine.checkpointGrid m maxLines).2 = lastLines m.scrollback.lines maxLines
  same_grid : SameGrid (WorkerEngine.checkpointGrid m maxLines).1
    (InProcessEngine.checkpointGrid e maxLines).1
  same_lines : (WorkerEngine.checkpointGrid m maxLines).2 =
    (InProcessEngine.checkpointGrid e maxLines).2
  range : ∀ mirror : ScrollbackMirror, mirror.lines = m.scrollback.lines →
    mirror.baseIndex = m.scrollback.baseIndex → ∀ start count,
      WorkerEngine.mirrorRangeAndTotal m start count =
        ((mirror.range start count).1, (mirror.range start count).2, mirror.historyTotal)

/-- **Checkpoints.** For every history a pane can have, and every number of lines asked for: the
worker engine's checkpoint is as promised exactly if its mirror holds that many lines, or starts
with the pane's first line, or is empty, and if the main screen is shown unless no line is to be
returned. -/
theorem checkpoint_agrees_iff {B : Type*} [HistoryBackend B] (rows cols : ℕ)
    {events : List WorkerEvent} {total : ℕ} (hchain : Chain 0 events total) {e : DiffEngine B}
    (hsame : SamePane (gridAfter rows cols events) events e) (maxLines : ℕ) :
    CheckpointAgrees (gridAfter rows cols events) e maxLines ↔
      (maxLines ≤ (gridAfter rows cols events).scrollback.lines.length ∨
          (gridAfter rows cols events).scrollback.baseIndex = 0 ∨
          (gridAfter rows cols events).scrollback.lines = []) ∧
        (e.view.altScreen = false ∨ maxLines = 0 ∨
          (gridAfter rows cols events).scrollback.lines = []) := by
  have hagree := agree_gridAfter rows cols hchain
  revert hsame hagree
  generalize gridAfter rows cols events = m
  intro hsame hagree
  have hheld : e.view.lines = m.scrollback.lines := hsame.history.trans hagree.lines.lines.symm
  -- the in-process engine reads no history while the alternate screen is shown
  have hinprocess : lastLines m.scrollback.lines maxLines =
      (InProcessEngine.checkpointGrid e maxLines).2 ↔
        e.view.altScreen = false ∨ maxLines = 0 ∨ m.scrollback.lines = [] := by
    rw [inProcess_lines, hheld, ← lastLines_eq_nil_iff]
    rcases e.view.altScreen with _ | _ <;> simp
  constructor
  · intro h
    exact ⟨(worker_lines_eq_iff m maxLines).mp h.lines, hinprocess.mp (h.lines ▸ h.same_lines)⟩
  · rintro ⟨hworker, hmain⟩
    have hlines := (worker_lines_eq_iff m maxLines).mpr hworker
    refine ⟨rfl, hlines, ?_, hlines.trans (hinprocess.mpr hmain),
      fun mirror h h' ↦ mirrorRangeAndTotal_eq h h'⟩
    have hscreen := hsame.screen
    constructor
    · change m.rows.toUInt16 = e.rows
      rw [hsame.rows]
      exact UInt16.ofNat_toNat
    · change m.cols.toUInt16 = e.cols
      rw [hsame.cols]
      exact UInt16.ofNat_toNat
    · exact congrArg Prod.fst hscreen
    · exact congrArg (·.2.1) hscreen
    · exact congrArg (·.2.2) hscreen
    · change m.scrollback.historyTotal = e.mirror.historyTotal
      rw [hsame.mirror, hagree.total]

/-- An in-process engine that has been told some events, on a blank screen. -/
def engineAfter (rows cols : UInt16) (events : List WorkerEvent) : DiffEngine MockTerminal :=
  { DiffEngine.new { MockTerminal.new rows cols defaultScrollback with view := paneHistory events }
    with mirror := paneMirror events }

/-- A line scrolls off, after a wipe if there is one. -/
def pushed (historyTotal : ℕ) (scrollbackReset : Option ℕ) : WorkerEvent :=
  .diff
    { ops := []
      cursor := default
      modes := TermModes.empty
      historyTotal
      scrollbackReset }
    [[letterA]]

/-- One line, and the checkpoint asks for more than there are. -/
theorem checkpoint_agrees_one_line :
    CheckpointAgrees (gridAfter 1 1 [pushed 1 none]) (engineAfter 1 1 [pushed 1 none]) 10000 := by
  have hchain : Chain 0 [pushed 1 none] 1 := ⟨.inl rfl, rfl, rfl⟩
  have hsame : SamePane (gridAfter 1 1 [pushed 1 none]) [pushed 1 none]
      (engineAfter 1 1 [pushed 1 none]) := ⟨rfl, rfl, rfl, rfl, rfl⟩
  exact (checkpoint_agrees_iff 1 1 hchain hsame 10000).mpr ⟨.inr (.inl rfl), .inl rfl⟩

/-- The same line, wiped, and another one. The worker engine returns neither. -/
theorem not_checkpoint_agrees_wiped :
    Chain 0 [pushed 1 none, pushed 2 (some 1)] 2 ∧
      SamePane (gridAfter 1 1 [pushed 1 none, pushed 2 (some 1)])
        [pushed 1 none, pushed 2 (some 1)] (engineAfter 1 1 [pushed 1 none, pushed 2 (some 1)]) ∧
      ¬CheckpointAgrees (gridAfter 1 1 [pushed 1 none, pushed 2 (some 1)])
        (engineAfter 1 1 [pushed 1 none, pushed 2 (some 1)]) 10000 := by
  refine ⟨⟨.inl rfl, rfl, .inr rfl, rfl, rfl⟩, ⟨rfl, rfl, rfl, rfl, rfl⟩, fun h ↦ ?_⟩
  exact absurd h.lines (by decide)

end Kmux
