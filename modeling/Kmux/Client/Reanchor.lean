import Kmux.Client.Grid
import Kmux.VtCore.MockBackend

/-!
# Re-anchoring on a snapshot

A snapshot is meant to put the client's scrollback into the daemon's index space, whatever the
client held before. The eviction before the daemon's base and the guards of `seedTail` interact;
`seedScrollback_eq` says what they amount to. An empty tail drops what the daemon no longer serves
and keeps the rest, a tail that ends at or before the client's base is ignored, and any other tail
replaces the buffer.

The second case is the one that goes wrong. A respawned worker, or a new daemon run, counts its
history from zero, and a client that is further along keeps its old lines and its old total.
-/

namespace Kmux

namespace GridSnapshot

/-- The tail ends at the history total and starts no earlier than the base, and it is empty only
when the daemon holds nothing. Every snapshot an engine takes is anchored. -/
structure Anchored (s : GridSnapshot) : Prop where
  base_add_length_le : s.scrollbackBase + s.scrollbackTail.length ≤ s.historyTotal
  base_eq_of_tail_eq_nil : s.scrollbackTail = [] → s.scrollbackBase = s.historyTotal

/-- The tail, placed in the daemon's index space. -/
def tailWindow (s : GridSnapshot) : Window ScrollbackLine :=
  ⟨s.historyTotal - s.scrollbackTail.length, s.scrollbackTail⟩

end GridSnapshot

namespace DiffEngine

variable {B : Type*} [TerminalBackend B]

theorem anchored_snapshot (e : DiffEngine B) : e.snapshot.Anchored := by
  constructor
  · change e.mirror.baseIndex + (e.mirror.tail snapshotTailLines).length ≤ e.mirror.historyTotal
    rw [ScrollbackMirror.length_tail, ScrollbackMirror.historyTotal]
    omega
  · intro htail
    have hlines : e.mirror.lines = [] := (e.mirror.tail_eq_nil_iff (by decide)).mp htail
    change e.mirror.baseIndex = e.mirror.historyTotal
    rw [ScrollbackMirror.historyTotal, hlines, List.length_nil, Nat.add_zero]

/-- The tail of a snapshot is the end of the mirror, at the mirror's own indices. -/
theorem tailWindow_snapshot_sub (e : DiffEngine B) :
    e.snapshot.tailWindow.Sub e.mirror.toWindow := by
  set k := e.mirror.lines.length - min snapshotTailLines e.mirror.lines.length
  have hbase : e.mirror.historyTotal - (e.mirror.tail snapshotTailLines).length
      = e.mirror.baseIndex + k := by
    rw [ScrollbackMirror.length_tail, ScrollbackMirror.historyTotal]
    omega
  have heq : e.snapshot.tailWindow = ⟨e.mirror.baseIndex + k, e.mirror.lines.drop k⟩ := by
    rw [← hbase]
    rfl
  rw [heq]
  exact Window.sub_drop e.mirror.toWindow k

end DiffEngine

namespace GridContent

/-! ## What a snapshot does to the scrollback -/

theorem seedScrollback_of_tail_eq_nil {s : GridSnapshot} (hs : s.Anchored)
    (htail : s.scrollbackTail = []) (sb : ScrollbackBuffer) :
    seedScrollback sb s = sb.evictBefore s.historyTotal := by
  have hbase := hs.base_eq_of_tail_eq_nil htail
  have hle : s.historyTotal ≤ (sb.evictBefore s.historyTotal).historyTotal := by
    rw [ScrollbackBuffer.evictBefore_historyTotal]
    exact le_max_right _ _
  rw [seedScrollback, hbase]
  split
  · rw [ScrollbackBuffer.seedTail, if_pos ⟨htail, hle⟩]
  · rfl

/-- A tail that lies behind the client's base changes nothing at all. -/
theorem seedScrollback_of_le_base {s : GridSnapshot} (hs : s.Anchored)
    (htail : s.scrollbackTail ≠ []) {sb : ScrollbackBuffer} (h : s.historyTotal ≤ sb.baseIndex) :
    seedScrollback sb s = sb := by
  have hpos : 0 < s.scrollbackTail.length := List.length_pos_iff.mpr htail
  have hle := hs.base_add_length_le
  rw [seedScrollback, if_pos (Or.inl htail), ScrollbackBuffer.evictBefore_eq_self (by omega),
    ScrollbackBuffer.seedTail, if_neg (fun h ↦ htail h.1), if_pos h]

/-- Any other tail replaces the buffer. -/
theorem seedScrollback_of_base_lt {s : GridSnapshot} (hs : s.Anchored)
    (htail : s.scrollbackTail ≠ []) {sb : ScrollbackBuffer} (h : sb.baseIndex < s.historyTotal) :
    seedScrollback sb s = s.scrollbackTail.foldl ScrollbackBuffer.pushLine
      ((sb.evictBefore s.scrollbackBase).resetTo (s.historyTotal - s.scrollbackTail.length)) := by
  have hpos : 0 < s.scrollbackTail.length := List.length_pos_iff.mpr htail
  have hle := hs.base_add_length_le
  rw [seedScrollback, if_pos (Or.inl htail), ScrollbackBuffer.seedTail,
    if_neg (fun h ↦ htail h.1),
    if_neg (by rw [ScrollbackBuffer.evictBefore_baseIndex]; omega)]

/-- A replaced buffer ends where the snapshot does, and holds only lines of its tail. -/
theorem seedScrollback_historyTotal_of_base_lt {s : GridSnapshot} (hs : s.Anchored)
    (htail : s.scrollbackTail ≠ []) {sb : ScrollbackBuffer} (h : sb.baseIndex < s.historyTotal) :
    (seedScrollback sb s).historyTotal = s.historyTotal := by
  have hle := hs.base_add_length_le
  rw [seedScrollback_of_base_lt hs htail h, ScrollbackBuffer.foldl_pushLine_historyTotal,
    ScrollbackBuffer.resetTo_historyTotal]
  omega

theorem seedScrollback_sub_of_base_lt {s : GridSnapshot} (hs : s.Anchored)
    (htail : s.scrollbackTail ≠ []) {sb : ScrollbackBuffer} (h : sb.baseIndex < s.historyTotal) :
    (seedScrollback sb s).toWindow.Sub s.tailWindow := by
  rw [seedScrollback_of_base_lt hs htail h, ScrollbackBuffer.foldl_pushLine_toWindow]
  refine Window.sub_append (ScrollbackBuffer.maxLines_pos _) _ ?_
  exact ScrollbackBuffer.length_le _

/-- **Seeding a client that is not ahead.** It ends exactly where the daemon's history ends. -/
theorem seedScrollback_historyTotal_of_le {s : GridSnapshot} (hs : s.Anchored)
    {sb : ScrollbackBuffer} (h : sb.historyTotal ≤ s.historyTotal) :
    (seedScrollback sb s).historyTotal = s.historyTotal := by
  by_cases htail : s.scrollbackTail = []
  · rw [seedScrollback_of_tail_eq_nil hs htail, ScrollbackBuffer.evictBefore_historyTotal,
      max_eq_right h]
  · by_cases hbase : sb.baseIndex < s.historyTotal
    · exact seedScrollback_historyTotal_of_base_lt hs htail hbase
    · have hend := sb.baseIndex_le_historyTotal
      rw [seedScrollback_of_le_base hs htail (not_lt.mp hbase)]
      omega

/-! ## When a snapshot re-anchors the client -/

/-- What re-anchoring on a snapshot of `e` asks of the grid afterwards. -/
structure Reanchored {B : Type*} [TerminalBackend B] (e : DiffEngine B) (g : GridContent) :
    Prop where
  /-- With no gap pending the two histories end at the same index. -/
  historyTotal :
    g.pendingHistoryGap = none → g.scrollback.historyTotal = e.snapshot.historyTotal
  /-- A held line that the snapshot also carries is the snapshot's. -/
  tail : ∀ i line line', g.scrollback.getAbsolute i = some line →
    e.snapshot.tailWindow.get? i = some line' → line = line'
  /-- A held line, inside the served range or outside, is what the daemon has at that index. -/
  served : ∀ i line, g.scrollback.getAbsolute i = some line →
    e.mirror.toWindow.get? i = some line

/-- The client is not ahead of the snapshot, or the snapshot has a tail that reaches past the
client's base, or the client holds no line and is still waiting for one. -/
def ReanchorsOn {B : Type*} [TerminalBackend B] (e : DiffEngine B) (g : GridContent) : Prop :=
  g.scrollback.historyTotal ≤ e.mirror.historyTotal ∨
    (g.scrollback.baseIndex < e.mirror.historyTotal ∧ e.mirror.lines ≠ []) ∨
    (g.scrollback.lines = [] ∧ g.pendingHistoryGap.isSome)

section Exact

variable {B : Type*} [TerminalBackend B] {e : DiffEngine B} {g : GridContent}

private theorem snapshot_tail_ne_nil (h : e.mirror.lines ≠ []) : e.snapshot.scrollbackTail ≠ [] :=
  mt (e.mirror.tail_eq_nil_iff (by decide)).mp h

private theorem snapshot_tail_eq_nil (h : e.mirror.lines = []) : e.snapshot.scrollbackTail = [] :=
  (e.mirror.tail_eq_nil_iff (by decide)).mpr h

theorem applySnapshot_scrollback (g : GridContent) (s : GridSnapshot) :
    (g.applySnapshot s).1.scrollback = seedScrollback g.scrollback s :=
  (g.sameContent_applySnapshot s).scrollback

/-- The gap a snapshot leaves is the old marker read against the seeded scrollback. -/
theorem pendingHistoryGap_applySnapshot (g : GridContent) (s : GridSnapshot) :
    (g.applySnapshot s).1.pendingHistoryGap = g.pendingHistoryTotal.bind fun want ↦
      if (seedScrollback g.scrollback s).historyTotal < want then
        some ((seedScrollback g.scrollback s).historyTotal, want)
      else none :=
  pendingHistoryGap_maybeClearHistoryGap
    { g with
      rows := s.rows.toNat
      cols := s.cols.toNat
      cells := s.cells
      cursor := s.cursor
      modes := s.modes
      scrollback := seedScrollback g.scrollback s }

/-- It is enough that the histories end together and that every held line is the daemon's. -/
private theorem reanchored_of_sub (htotal : g.pendingHistoryGap = none →
      g.scrollback.historyTotal = e.mirror.historyTotal)
    (hsub : g.scrollback.toWindow.Sub e.mirror.toWindow) : Reanchored e g := by
  refine ⟨htotal, fun i line line' hheld hcarried ↦ ?_, fun i line hheld ↦ hsub i line hheld⟩
  have h := hsub i line hheld
  rw [e.tailWindow_snapshot_sub i line' hcarried] at h
  exact (Option.some_inj.mp h).symm

/-- A client further along than the snapshot, and out of reach of its tail, keeps its total. -/
private theorem seedScrollback_historyTotal_of_ahead {sb : ScrollbackBuffer}
    (hahead : e.mirror.historyTotal < sb.historyTotal)
    (hreach : sb.baseIndex < e.mirror.historyTotal → e.mirror.lines = []) :
    (seedScrollback sb e.snapshot).historyTotal = sb.historyTotal ∧
      (seedScrollback sb e.snapshot).baseIndex = max sb.baseIndex e.mirror.historyTotal := by
  by_cases hlines : e.mirror.lines = []
  · rw [seedScrollback_of_tail_eq_nil e.anchored_snapshot (snapshot_tail_eq_nil hlines)]
    exact ⟨by rw [ScrollbackBuffer.evictBefore_historyTotal]; exact max_eq_left hahead.le,
      ScrollbackBuffer.evictBefore_baseIndex _ _⟩
  · have hle : e.mirror.historyTotal ≤ sb.baseIndex := not_lt.mp fun h ↦ hlines (hreach h)
    rw [seedScrollback_of_le_base e.anchored_snapshot (snapshot_tail_ne_nil hlines) hle]
    exact ⟨rfl, (max_eq_left hle).symm⟩

/-- A client that is not ahead ends up with daemon lines only. -/
private theorem seedScrollback_sub_of_le {sb : ScrollbackBuffer}
    (h : sb.historyTotal ≤ e.mirror.historyTotal) :
    (seedScrollback sb e.snapshot).toWindow.Sub e.mirror.toWindow := by
  by_cases hbase : sb.baseIndex < e.mirror.historyTotal ∧ e.mirror.lines ≠ []
  · exact (seedScrollback_sub_of_base_lt e.anchored_snapshot (snapshot_tail_ne_nil hbase.2)
      hbase.1).trans e.tailWindow_snapshot_sub
  · apply Window.sub_of_items_eq_nil
    rw [ScrollbackBuffer.historyTotal] at h
    by_cases hlines : e.mirror.lines = []
    · rw [seedScrollback_of_tail_eq_nil e.anchored_snapshot (snapshot_tail_eq_nil hlines)]
      change ((sb.evictBefore e.mirror.historyTotal).lines) = []
      rw [ScrollbackBuffer.evictBefore_lines]
      exact List.drop_eq_nil_of_le (by omega)
    · have hle : e.mirror.historyTotal ≤ sb.baseIndex := not_lt.mp fun hlt ↦ hbase ⟨hlt, hlines⟩
      rw [seedScrollback_of_le_base e.anchored_snapshot (snapshot_tail_ne_nil hlines) hle]
      change sb.lines = []
      exact List.length_eq_zero_iff.mp (by omega)

private theorem reanchored_of_reanchorsOn (h : ReanchorsOn e g) :
    Reanchored e (g.applySnapshot e.snapshot).1 := by
  by_cases hle : g.scrollback.historyTotal ≤ e.mirror.historyTotal
  · refine reanchored_of_sub (fun _ ↦ ?_) ?_ <;> rw [applySnapshot_scrollback]
    · exact seedScrollback_historyTotal_of_le e.anchored_snapshot hle
    · exact seedScrollback_sub_of_le hle
  · by_cases hreach : g.scrollback.baseIndex < e.mirror.historyTotal ∧ e.mirror.lines ≠ []
    · have htail := snapshot_tail_ne_nil hreach.2
      refine reanchored_of_sub (fun _ ↦ ?_) ?_ <;> rw [applySnapshot_scrollback]
      · exact seedScrollback_historyTotal_of_base_lt e.anchored_snapshot htail hreach.1
      · exact (seedScrollback_sub_of_base_lt e.anchored_snapshot htail hreach.1).trans
          e.tailWindow_snapshot_sub
    · -- nothing is held and nothing is seeded: the client is still waiting for its own gap
      obtain ⟨hlines, hgap⟩ : g.scrollback.lines = [] ∧ g.pendingHistoryGap.isSome :=
        (h.resolve_left hle).resolve_left hreach
      obtain ⟨htotal, hbase⟩ := seedScrollback_historyTotal_of_ahead (not_le.mp hle)
        (fun hlt ↦ not_not.mp fun hne ↦ hreach ⟨hlt, hne⟩)
      refine reanchored_of_sub (fun hnone ↦ ?_) (Window.sub_of_items_eq_nil ?_)
      · rw [pendingHistoryGap_applySnapshot, htotal] at hnone
        change g.pendingHistoryGap = none at hnone
        rw [hnone] at hgap
        exact absurd hgap (by decide)
      · rw [applySnapshot_scrollback]
        rw [ScrollbackBuffer.historyTotal, hbase, ScrollbackBuffer.historyTotal, hlines,
          List.length_nil] at htotal
        exact List.length_eq_zero_iff.mp (by
          change (seedScrollback g.scrollback e.snapshot).lines.length = 0
          omega)

private theorem reanchorsOn_of_reanchored (h : Reanchored e (g.applySnapshot e.snapshot).1) :
    ReanchorsOn e g := by
  by_contra hnot
  rw [ReanchorsOn, not_or, not_or, not_le] at hnot
  obtain ⟨hahead, hreach, hwaiting⟩ := hnot
  obtain ⟨htotal, hbase⟩ := seedScrollback_historyTotal_of_ahead hahead
    (fun hlt ↦ not_not.mp fun hne ↦ hreach ⟨hlt, hne⟩)
  rw [← applySnapshot_scrollback] at htotal hbase
  by_cases hlines : g.scrollback.lines = []
  · -- nothing held: the totals disagree with no gap to excuse it
    have hnone : (g.applySnapshot e.snapshot).1.pendingHistoryGap = none := by
      rw [pendingHistoryGap_applySnapshot, ← applySnapshot_scrollback, htotal]
      exact Option.not_isSome_iff_eq_none.mp fun hgap ↦ hwaiting ⟨hlines, hgap⟩
    have heq : _ = e.mirror.historyTotal := h.historyTotal hnone
    omega
  · -- the newest line held lies beyond the end of the daemon's history
    have hpos : 0 < g.scrollback.lines.length := List.length_pos_iff.mpr hlines
    have hsize : g.scrollback.historyTotal = g.scrollback.baseIndex + g.scrollback.lines.length :=
      rfl
    obtain ⟨line, hline⟩ := Window.exists_get?_eq_some
      (w := (g.applySnapshot e.snapshot).1.scrollback.toWindow)
      (i := g.scrollback.historyTotal - 1)
      (by change (g.applySnapshot e.snapshot).1.scrollback.baseIndex ≤ _; omega)
      (by change _ < (g.applySnapshot e.snapshot).1.scrollback.historyTotal; omega)
    have hlt : g.scrollback.historyTotal - 1 < e.mirror.historyTotal :=
      (Window.lt_total_of_get?_eq_some (h.served _ line hline)).2
    omega

/-- **Re-anchoring.** Exactly when a snapshot puts the client into the daemon's index space. -/
theorem reanchored_applySnapshot_iff (e : DiffEngine B) (g : GridContent) :
    Reanchored e (g.applySnapshot e.snapshot).1 ↔ ReanchorsOn e g :=
  ⟨reanchorsOn_of_reanchored, reanchored_of_reanchorsOn⟩

end Exact

/-- A client that holds one line of a pane whose worker is then respawned: the blank emulator's
snapshot, with a history total of zero, leaves it holding that line. -/
theorem not_reanchored_of_respawn :
    ¬Reanchored (DiffEngine.new (MockBackend.new 1 1))
      (((GridContent.new 1 1).applyScrollbackAppend 0 [[default]]).1.applySnapshot
        (DiffEngine.new (MockBackend.new 1 1)).snapshot).1 := by
  intro h
  rcases reanchorsOn_of_reanchored h with hle | ⟨-, hlines⟩ | ⟨hlines, -⟩
  · exact absurd hle (by decide)
  · exact hlines rfl
  · exact absurd hlines (by decide)

end GridContent

end Kmux
