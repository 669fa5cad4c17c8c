import Kmux.Stream.Refinement

/-!
# Resizes in the stream

A resize blanks the engine's comparison buffer and its previous cursor, so that the next diff is
meant to cover the whole grid, and broadcasts a snapshot of the resized screen. The two do not fit:
the comparison is against blank cells while the client shows the snapshot. A cell that held text in
the snapshot and is blank at the next diff compares equal and is not sent; a cursor that moved to
where the comparison state or the loop's record already has it is not sent either.

The condition under which a cycle is safe is that it does not run into one of these two
(`Coherent`). It is imposed only on cycles: a resize is always safe in itself.
-/

namespace Kmux

open TerminalBackend

section Coherence

variable {B : Type*} [TerminalBackend B]

/-- The event does not run into a comparison against cells or a cursor the client does not show. -/
def Coherent (p : Pane B) : PaneEvent B → Prop
  | .cycle b => CellsCovered p b ∧ CursorCovered p b
  | .resize _ => True

instance (p : Pane B) : ∀ e : PaneEvent B, Decidable (Coherent p e)
  | .cycle _ => inferInstanceAs (Decidable (_ ∧ _))
  | .resize _ => inferInstanceAs (Decidable True)

/-- A resize broadcasts a full snapshot, which any client that is not ahead agrees with. -/
theorem agrees_resize {p : Pane B} {g : GridContent} (sz : BackendSize)
    (hg : g.scrollback.historyTotal = p.engine.mirror.historyTotal) :
    Agrees (p.resize sz).1 (g.applySnapshot (p.resize sz).1.engine.snapshot).1 := by
  refine agrees_snapshot ?_
  rw [hg]
  exact (p.before_step (.resize sz)).historyTotal_le

theorem showsCells_step {p : Pane B} {g : GridContent} {e : PaneEvent B} (h : ShowsCells p g)
    (hcursor : ShowsCursor p g) (he : Coherent p e) :
    ShowsCells (p.step e).1 (g.applyFrames (p.step e).2) ∧
      ShowsCursor (p.step e).1 (g.applyFrames (p.step e).2) := by
  cases e with
  | cycle b => exact ⟨showsCells_cycle h he.1, showsCursor_cycle h hcursor he.2⟩
  | resize sz =>
    have hagrees := agrees_resize sz h.historyTotal
    exact ⟨hagrees.toShowsCells, hagrees.cursor⟩

/-- Coherence that takes in the modes. -/
def Faithful (p : Pane B) : PaneEvent B → Prop
  | .cycle b => Coherent p (.cycle b) ∧ ModesCovered p b
  | .resize _ => True

instance (p : Pane B) : ∀ e : PaneEvent B, Decidable (Faithful p e)
  | .cycle _ => inferInstanceAs (Decidable (_ ∧ _))
  | .resize _ => inferInstanceAs (Decidable True)

theorem agrees_step {p : Pane B} {g : GridContent} {e : PaneEvent B} (h : Agrees p g)
    (he : Faithful p e) : Agrees (p.step e).1 (g.applyFrames (p.step e).2) := by
  cases e with
  | cycle b => exact agrees_cycle h he.1.1 he.1.2 he.2
  | resize sz => exact agrees_resize sz h.historyTotal

/-- **Resize coherence.** In every run of backend changes and resizes whose cycles are coherent, a
client that takes a snapshot anywhere and then everything that is sent shows the cells and the
cursor of the emulator, and never attaches again. -/
theorem resize_coherence (b₀ : B) (pre post : List (PaneEvent B)) (heard : List ServerMessage)
    (hheard : ∀ m ∈ heard, (Pane.new b₀).Said pre m)
    (hpost : Run.Ok (fun p e ↦ (Pane.step p e).1) Coherent ((Pane.new b₀).run pre) post) :
    let p := (Pane.new b₀).run pre
    let before := PaneSession.new.receive heard
    let client := (before.handleServerMessage p.snapshotMessage).receive (p.emitted post)
    let engine := (p.run post).engine
    client.attaches = before.attaches ∧
      ∃ g, client.buffer = some g ∧
        g.cells = (shown engine.backend engine.rows engine.cols).1 ∧
        g.cursor = (shown engine.backend engine.rows engine.cols).2.1 := by
  intro p before client engine
  have hpos : 0 < p.seqnoCounter := Pane.seqnoCounter_pos_run Nat.one_pos _
  obtain ⟨g₀, hheld, hfollow⟩ := Pane.following_attach hheard hpos
  obtain ⟨hcells, hcursor⟩ := applyFrames_emitted (P := fun p g ↦ ShowsCells p g ∧ ShowsCursor p g)
    (fun p g e h he ↦ showsCells_step h.1 h.2 he) post p _
    ⟨showsCells_snapshot hheld.historyTotal_le, showsCursor_snapshot⟩ hpost
  obtain ⟨-, hg⟩ :=
    PaneSession.receive_of_numbered hfollow (Pane.numbered_emitted post p hpos)
  exact ⟨hg.attaches, _, hg.buffer, hcells.cells, hcursor⟩

end Coherence

/-! ## Two runs

A screen of one cell shows a letter and is then widened to two cells. -/

/-- The widened screen then shows `cells`. -/
def widenedRun (cells : List CellState) : List (PaneEvent MockBackend) :=
  [.cycle { MockBackend.new 1 1 with cells := [letterA] }, .resize ⟨1, 2, 0, 0⟩,
    .cycle { MockBackend.new 1 1 with cells }]

/-- A client that attaches to the blank pane and receives all of it. -/
def widenedClient (cells : List CellState) : PaneSession :=
  (PaneSession.new.handleServerMessage (Pane.new (MockBackend.new 1 1)).snapshotMessage).receive
    ((Pane.new (MockBackend.new 1 1)).emitted (widenedRun cells))

/-- More text: every cell that compares equal to the blanked buffer was blank all along. -/
theorem resize_coherence_of_more_text :
    Run.Ok (fun p e ↦ (Pane.step p e).1) Coherent (Pane.new (MockBackend.new 1 1))
        (widenedRun [letterA, letterA]) ∧
      ∃ g, (widenedClient [letterA, letterA]).buffer = some g ∧
        g.cells = [letterA, letterA] := by
  have hok : Run.Ok (fun p e ↦ (Pane.step p e).1) Coherent (Pane.new (MockBackend.new 1 1))
      (widenedRun [letterA, letterA]) := by decide +kernel
  obtain ⟨-, g, hg, hcells, -⟩ := resize_coherence (MockBackend.new 1 1) []
    (widenedRun [letterA, letterA]) [] (by simp) hok
  exact ⟨hok, g, hg, hcells.trans (by decide +kernel)⟩

/-- The text erased: the blank cell compares equal to the blanked buffer, nothing is sent, and the
client keeps the text. -/
theorem not_resize_coherence_of_erased_cell :
    let engine := ((Pane.new (MockBackend.new 1 1)).run (widenedRun [default, default])).engine
    ¬∃ g, (widenedClient [default, default]).buffer = some g ∧
      g.cells = (shown engine.backend engine.rows engine.cols).1 ∧
      g.cursor = (shown engine.backend engine.rows engine.cols).2.1 := by
  rintro engine ⟨g, hg, hcells, -⟩
  have hclient : (widenedClient [default, default]).buffer.map GridContent.cells
      = some [letterA, default] := by decide +kernel
  have hscreen : (shown engine.backend engine.rows engine.cols).1 = [default, default] := by
    decide +kernel
  rw [hg, Option.map_some, hcells, hscreen] at hclient
  exact absurd hclient (by decide)

end Kmux
