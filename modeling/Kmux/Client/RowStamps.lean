import Kmux.Client.CellGrid
import Kmux.Stream.CellOps

/-!
# Row stamps

A renderer that drew the grid at some generation draws only those rows again whose stamp is past it.
For that to be sound a row with an older stamp must show the same cells, `Since`.

Snapshots, clears and resizes stamp every row, and an operation on the scrollback touches none. A
diff stamps the rows its operations name. What they write is found by a flat index, though, so a run
of cells that goes past the end of its row goes on in the next one, and a column past the last is a
column of a later row. Such a row is not stamped. `StampsWrites` asks of a diff that it writes
nothing new into a row that it does not stamp. This is exactly what soundness takes, on one step and
along a whole run, `row_stamps_sound_iff`.
-/

namespace Kmux

namespace GridContent

/-- The generation at which a live row last changed; zero if it never did, or there is no such
row. -/
def rowGeneration (g : GridContent) (row : ℕ) : ℕ := g.rowGens[row]?.getD 0

/-- The cells of a row. -/
def rowCells (g : GridContent) (row : ℕ) : List CellState :=
  (g.cells.drop (row * g.cols)).take g.cols

/-- One operation, without what it means for the view. -/
def step (g : GridContent) (op : ContentOp) : GridContent := (op.apply g).1

/-- The grid after the first `n` operations on a blank one. -/
def after (rows cols : ℕ) (ops : List ContentOp) (n : ℕ) : GridContent :=
  Run.exec step (new rows cols) (ops.take n)

/-- A diff stamps a row: it clears the screen, or one of its operations names the row. -/
def Stamped (ops : List DiffOp) (row : ℕ) : Prop :=
  .clear ∈ ops ∨ ∃ named ∈ changedRows ops, named.toNat = row

instance (ops : List DiffOp) (row : ℕ) : Decidable (Stamped ops row) :=
  inferInstanceAs (Decidable (_ ∨ ∃ named ∈ changedRows ops, named.toNat = row))

/-- A flat index is one of a row's cells. -/
def InRow (g : GridContent) (row i : ℕ) : Prop :=
  row * g.cols ≤ i ∧ i < row * g.cols + g.cols ∧ i < g.cells.length

/-- Whatever a diff writes into a row that it does not stamp was there before. Nothing is asked of
the other operations. -/
def StampsWrites (g : GridContent) : ContentOp → Prop
  | .diff diff => ∀ row < g.rows, ¬Stamped diff.ops row → ∀ i, g.InRow row i →
      ∀ c, lastWritten g.cols i diff.ops = some c → g.cells[i]? = some c
  | _ => True

/-- Rows that have not been stamped since an earlier grid are as they were in it. -/
structure Since (g₀ g : GridContent) : Prop where
  generation_le : g₀.cellsGeneration ≤ g.cellsGeneration
  same : ∀ row < g.rows, g.rowGeneration row ≤ g₀.cellsGeneration →
    g.rowCells row = g₀.rowCells row

/-- There is a stamp for every row, none of them ahead of the generation. -/
structure WellStamped (g : GridContent) : Prop where
  length : g.rowGens.length = g.rows
  le : ∀ stamp ∈ g.rowGens, stamp ≤ g.cellsGeneration

/-! ## Stamps -/

theorem WellStamped.rowGeneration_le {g : GridContent} (h : g.WellStamped) (row : ℕ) :
    g.rowGeneration row ≤ g.cellsGeneration := by
  rw [rowGeneration]
  rcases hget : g.rowGens[row]? with _ | stamp
  · exact Nat.zero_le _
  · exact h.le stamp (List.mem_of_getElem? hget)

theorem wellStamped_new (rows cols : ℕ) : (new rows cols).WellStamped where
  length := List.length_replicate
  le := fun _ hmem ↦ (List.eq_of_mem_replicate hmem).le

/-- Every row is stamped with the current generation. -/
def AllStamped (g : GridContent) : Prop := g.rowGens = List.replicate g.rows g.cellsGeneration

theorem AllStamped.wellStamped {g : GridContent} (h : g.AllStamped) : g.WellStamped where
  length := by rw [h, List.length_replicate]
  le := by
    rw [h]
    exact fun _ hmem ↦ (List.eq_of_mem_replicate hmem).le

/-- After every row was stamped with a new generation nothing is claimed of any. -/
theorem AllStamped.since {g₀ g : GridContent} (h : g.AllStamped)
    (hlt : g₀.cellsGeneration < g.cellsGeneration) : Since g₀ g where
  generation_le := hlt.le
  same := by
    intro row hrow hle
    rw [rowGeneration, h, List.getElem?_replicate_of_lt hrow, Option.getD_some] at hle
    omega

theorem length_foldl_set (named : List UInt16) (stamp : ℕ) (gens : List ℕ) :
    (named.foldl (fun gens row ↦ gens.set row.toNat stamp) gens).length = gens.length := by
  induction named generalizing gens with
  | nil => rfl
  | cons row named ih => rw [List.foldl_cons, ih, List.length_set]

theorem getElem?_foldl_set (named : List UInt16) (stamp : ℕ) {gens : List ℕ} {r : ℕ}
    (hr : r < gens.length) :
    (named.foldl (fun gens row ↦ gens.set row.toNat stamp) gens)[r]? =
      if ∃ row ∈ named, row.toNat = r then some stamp else gens[r]? := by
  induction named generalizing gens with
  | nil => rw [if_neg (by simp)]; rfl
  | cons row named ih =>
    rw [List.foldl_cons, ih (by rwa [List.length_set])]
    simp only [List.exists_mem_cons_iff]
    by_cases hlater : ∃ row ∈ named, row.toNat = r
    · rw [if_pos hlater, if_pos (.inr hlater)]
    · rw [if_neg hlater]
      by_cases hrow : row.toNat = r
      · rw [if_pos (.inl hrow), hrow, List.getElem?_set_self hr]
      · rw [if_neg (not_or.mpr ⟨hrow, hlater⟩), List.getElem?_set_ne hrow]

theorem length_stampRows (stamp : ℕ) (ops : List DiffOp) (gens : List ℕ) :
    (stampRows stamp ops gens).length = gens.length := by
  rw [stampRows, length_foldl_set]
  split
  · exact List.length_map _
  · rfl

/-- A diff puts its generation on the rows it stamps and leaves the others alone. -/
theorem getElem?_stampRows (stamp : ℕ) (ops : List DiffOp) {gens : List ℕ} {r : ℕ}
    (hr : r < gens.length) :
    (stampRows stamp ops gens)[r]? = if Stamped ops r then some stamp else gens[r]? := by
  rw [stampRows]
  by_cases hclear : DiffOp.clear ∈ ops
  · have hget : (gens.map fun _ ↦ stamp)[r]? = some stamp := by
      rw [List.getElem?_map, List.getElem?_eq_getElem hr, Option.map_some]
    rw [if_pos hclear, getElem?_foldl_set _ _ (by rwa [List.length_map]), hget, ite_self,
      if_pos (show Stamped ops r from .inl hclear)]
  · rw [if_neg hclear, getElem?_foldl_set _ _ hr]
    exact if_congr ((or_iff_right hclear).symm) rfl rfl

/-! ## What each operation does to the stamps -/

/-- An operation leaves screen and stamps alone. -/
structure Untouched (g g' : GridContent) : Prop where
  screen : SameScreen g g'
  rowGens : g'.rowGens = g.rowGens
  generation_le : g.cellsGeneration ≤ g'.cellsGeneration

theorem Untouched.trans {g₁ g₂ g₃ : GridContent} (h : Untouched g₁ g₂) (h' : Untouched g₂ g₃) :
    Untouched g₁ g₃ :=
  ⟨h.screen.trans h'.screen, h'.rowGens.trans h.rowGens, h.generation_le.trans h'.generation_le⟩

theorem untouched_maybeClearHistoryGap (g : GridContent) :
    Untouched g g.maybeClearHistoryGap := by
  refine ⟨sameScreen_maybeClearHistoryGap g, ?_, ?_⟩ <;> rw [maybeClearHistoryGap] <;> split
  · rfl
  · rfl
  · exact le_rfl
  · exact le_rfl

theorem untouched_applyScrollbackAppend (g : GridContent) (firstIndex : ℕ)
    (lines : List ScrollbackLine) :
    Untouched g (g.applyScrollbackAppend firstIndex lines).1 := by
  rw [applyScrollbackAppend]
  by_cases hlines : lines = []
  · rw [if_pos hlines]
    exact ⟨SameScreen.refl g, rfl, le_rfl⟩
  · rw [if_neg hlines]
    obtain ⟨⟨hrows, hcols, hcells⟩, hgens, hle⟩ := untouched_maybeClearHistoryGap
      { g with
        scrollback := if (g.scrollback.appendWithIndex firstIndex lines).2 then
          (g.scrollback.appendWithIndex firstIndex lines).1
        else (g.scrollback.appendWithIndex firstIndex lines).1.clear }
    exact ⟨⟨hrows, hcols, hcells⟩, hgens, Nat.le_succ_of_le hle⟩

theorem untouched_applyHistoryLines (g : GridContent) (firstIndex : ℕ)
    (lines : List ScrollbackLine) (historyTotal : ℕ) :
    Untouched g (g.applyHistoryLines firstIndex lines historyTotal) := by
  have hpush : ∀ sb : ScrollbackBuffer, Untouched g
      { g with scrollback := sb, cellsGeneration := g.cellsGeneration + 1 } :=
    fun _ ↦ ⟨⟨rfl, rfl, rfl⟩, rfl, Nat.le_succ _⟩
  have hself : Untouched g g := ⟨SameScreen.refl g, rfl, le_rfl⟩
  rw [applyHistoryLines]
  by_cases hlines : lines = []
  · rw [if_pos hlines]
    exact hself
  · rw [if_neg hlines]
    refine Untouched.trans ?_ (untouched_maybeClearHistoryGap _)
    dsimp only
    split
    · exact hpush _
    · split
      · split
        · exact hpush _
        · exact hself
      · exact hself

/-- The fields of a diff's result that stamps are about. -/
theorem applyDiff_stamps (g : GridContent) (diff : TerminalDiff) :
    g.cellsGeneration ≤ (g.applyDiff diff).1.cellsGeneration ∧
      (diff.ops ≠ [] → (g.applyDiff diff).1.cellsGeneration = g.cellsGeneration + 1) ∧
      (g.applyDiff diff).1.rowGens =
        stampRows (g.applyDiff diff).1.cellsGeneration diff.ops g.rowGens := by
  rw [applyDiff]
  dsimp only
  by_cases hops : diff.ops = []
  · have hstamp : ∀ stamp, stampRows stamp diff.ops g.rowGens = g.rowGens := by
      intro stamp
      rw [hops]
      rfl
    rw [hstamp, if_neg (not_not.mpr hops)]
    refine ⟨?_, fun h ↦ absurd hops h, rfl⟩
    split
    · exact Nat.le_succ _
    · exact le_rfl
  · rw [if_pos (.inl hops), if_pos hops]
    exact ⟨Nat.le_succ _, fun _ ↦ rfl, rfl⟩

/-- **What an operation can do.** It is a diff; or it stamps every row with a new generation; or it
leaves screen and stamps alone. -/
theorem step_cases (g : GridContent) (op : ContentOp) :
    (∃ diff, op = .diff diff) ∨
      (AllStamped (g.step op) ∧ g.cellsGeneration < (g.step op).cellsGeneration) ∨
      (Untouched g (g.step op) ∧ ∀ g' : GridContent, StampsWrites g' op) := by
  match op with
  | .diff diff => exact .inl ⟨diff, rfl⟩
  | .snapshot s =>
    have hle := (untouched_maybeClearHistoryGap
      { g with
        rows := s.rows.toNat
        cols := s.cols.toNat
        cells := s.cells
        cursor := s.cursor
        modes := s.modes
        scrollback := seedScrollback g.scrollback s }).generation_le
    exact .inr (.inl ⟨rfl, Nat.lt_succ_of_le hle⟩)
  | .clear | .resize _ _ => exact .inr (.inl ⟨rfl, Nat.lt_succ_self _⟩)
  | .cursor _ _ => exact .inr (.inr ⟨⟨⟨rfl, rfl, rfl⟩, rfl, le_rfl⟩, fun _ ↦ trivial⟩)
  | .scrollbackAppend firstIndex lines =>
    exact .inr (.inr ⟨untouched_applyScrollbackAppend g firstIndex lines, fun _ ↦ trivial⟩)
  | .historyLines firstIndex lines historyTotal =>
    exact .inr (.inr ⟨untouched_applyHistoryLines g firstIndex lines historyTotal,
      fun _ ↦ trivial⟩)

theorem generation_le_step (g : GridContent) (op : ContentOp) :
    g.cellsGeneration ≤ (g.step op).cellsGeneration := by
  rcases g.step_cases op with ⟨diff, rfl⟩ | ⟨-, hlt⟩ | ⟨hsame, -⟩
  · exact (applyDiff_stamps g diff).1
  · exact hlt.le
  · exact hsame.generation_le

/-- The stamp of a row after a diff. -/
theorem rowGeneration_applyDiff {g : GridContent} (hw : g.WellStamped) (diff : TerminalDiff)
    {row : ℕ} (hrow : row < g.rows) :
    (g.applyDiff diff).1.rowGeneration row =
      if Stamped diff.ops row then (g.applyDiff diff).1.cellsGeneration
      else g.rowGeneration row := by
  rw [rowGeneration, (applyDiff_stamps g diff).2.2,
    getElem?_stampRows _ _ (by rwa [hw.length]), rowGeneration]
  split <;> rfl

theorem WellStamped.step {g : GridContent} (hw : g.WellStamped) (op : ContentOp) :
    (g.step op).WellStamped := by
  rcases g.step_cases op with ⟨diff, rfl⟩ | ⟨hall, -⟩ | ⟨hsame, -⟩
  · obtain ⟨hle, -, hgens⟩ := applyDiff_stamps g diff
    change (g.applyDiff diff).1.WellStamped
    constructor
    · rw [hgens, length_stampRows, hw.length, (sameContent_applyDiff g diff).rows]
    · intro stamp hmem
      rw [hgens] at hmem
      obtain ⟨r, hr, hget⟩ := List.getElem_of_mem hmem
      rw [length_stampRows] at hr
      have hget' := getElem?_stampRows (g.applyDiff diff).1.cellsGeneration diff.ops hr
      rw [List.getElem?_eq_getElem (by rwa [length_stampRows]), hget] at hget'
      split at hget'
      · exact (Option.some.inj hget').le
      · exact (hw.le stamp (List.mem_of_getElem? hget'.symm)).trans hle
  · exact hall.wellStamped
  · constructor
    · rw [hsame.rowGens, hsame.screen.rows, hw.length]
    · rw [hsame.rowGens]
      exact fun stamp hmem ↦ (hw.le stamp hmem).trans hsame.generation_le

/-! ## The cells of a row -/

theorem getElem?_rowCells (g : GridContent) (row k : ℕ) :
    (g.rowCells row)[k]? = if k < g.cols then g.cells[row * g.cols + k]? else none := by
  rw [rowCells, List.getElem?_take]
  split
  · rw [List.getElem?_drop]
  · rfl

/-- A diff leaves a row as it was exactly if it writes nothing new into it. -/
theorem rowCells_applyDiff_iff (g : GridContent) (diff : TerminalDiff) (row : ℕ) :
    (g.applyDiff diff).1.rowCells row = g.rowCells row ↔
      ∀ i, g.InRow row i → ∀ c, lastWritten g.cols i diff.ops = some c → g.cells[i]? = some c := by
  have hsame := sameContent_applyDiff g diff
  have hget : ∀ k, ((g.applyDiff diff).1.rowCells row)[k]? =
      if k < g.cols then (applyOps g.cols diff.ops g.cells)[row * g.cols + k]? else none := by
    intro k
    rw [getElem?_rowCells, hsame.cols, hsame.cells]
  constructor
  · rintro h i ⟨hlo, hhi, hlen⟩ c hc
    have hk : ((g.applyDiff diff).1.rowCells row)[i - row * g.cols]? =
        (g.rowCells row)[i - row * g.cols]? := by rw [h]
    rw [hget, getElem?_rowCells, if_pos (by omega), if_pos (by omega),
      Nat.add_sub_cancel' hlo, getElem?_applyOps _ _ _ _ hlen, hc, Option.some_or] at hk
    exact hk.symm
  · intro h
    refine List.ext_getElem? fun k ↦ ?_
    rw [hget, getElem?_rowCells]
    by_cases hk : k < g.cols
    · rw [if_pos hk, if_pos hk]
      by_cases hlen : row * g.cols + k < g.cells.length
      · rw [getElem?_applyOps _ _ _ _ hlen]
        rcases hc : lastWritten g.cols (row * g.cols + k) diff.ops with _ | c
        · exact Option.none_or
        · rw [Option.some_or, h _ ⟨Nat.le_add_right _ k, by omega, hlen⟩ c hc]
      · rw [List.getElem?_eq_none (by rw [length_applyOps]; omega),
          List.getElem?_eq_none (by omega)]
    · rw [if_neg hk, if_neg hk]

theorem SameScreen.rowCells {g g' : GridContent} (h : SameScreen g g') (row : ℕ) :
    g'.rowCells row = g.rowCells row := by
  rw [GridContent.rowCells, GridContent.rowCells, h.cols, h.cells]

/-! ## One step -/

theorem Since.refl (g : GridContent) : Since g g := ⟨le_rfl, fun _ _ _ ↦ rfl⟩

/-- **Step.** An operation that stamps what it writes keeps stamps sound for every earlier grid. -/
theorem Since.step {g₀ g : GridContent} (h : Since g₀ g) (hw : g.WellStamped) {op : ContentOp}
    (hop : g.StampsWrites op) : Since g₀ (g.step op) := by
  rcases g.step_cases op with ⟨diff, rfl⟩ | ⟨hall, hlt⟩ | ⟨hsame, -⟩
  · obtain ⟨hle, hbump, -⟩ := applyDiff_stamps g diff
    refine ⟨h.generation_le.trans hle, fun row hrow hstamp ↦ ?_⟩
    change row < (g.applyDiff diff).1.rows at hrow
    rw [(sameContent_applyDiff g diff).rows] at hrow
    change (g.applyDiff diff).1.rowGeneration row ≤ _ at hstamp
    change (g.applyDiff diff).1.rowCells row = _
    rw [rowGeneration_applyDiff hw diff hrow] at hstamp
    by_cases hrowStamped : Stamped diff.ops row
    · -- a row stamped now is newer than the earlier grid
      have hops : diff.ops ≠ [] := by
        rintro hnil
        rw [hnil] at hrowStamped
        revert hrowStamped
        simp [Stamped, changedRows]
      rw [if_pos hrowStamped, hbump hops] at hstamp
      have := h.generation_le
      omega
    · rw [if_neg hrowStamped] at hstamp
      rw [(rowCells_applyDiff_iff g diff row).mpr (hop row hrow hrowStamped)]
      exact h.same row hrow hstamp
  · exact hall.since (lt_of_le_of_lt h.generation_le hlt)
  · refine ⟨h.generation_le.trans hsame.generation_le, fun row hrow hstamp ↦ ?_⟩
    rw [hsame.screen.rows] at hrow
    rw [rowGeneration, hsame.rowGens, ← rowGeneration] at hstamp
    rw [hsame.screen.rowCells]
    exact h.same row hrow hstamp

/-- An operation that does not stamp what it writes breaks them at once. -/
theorem stampsWrites_of_since {g : GridContent} (hw : g.WellStamped) {op : ContentOp}
    (h : Since g (g.step op)) : g.StampsWrites op := by
  match op with
  | .diff diff =>
    intro row hrow hnot
    refine (rowCells_applyDiff_iff g diff row).mp (h.same row ?_ ?_)
    · change row < (g.applyDiff diff).1.rows
      rwa [(sameContent_applyDiff g diff).rows]
    · change (g.applyDiff diff).1.rowGeneration row ≤ _
      rw [rowGeneration_applyDiff hw diff hrow, if_neg hnot]
      exact hw.rowGeneration_le row
  | .snapshot _ | .cursor _ _ | .scrollbackAppend _ _ | .historyLines _ _ _ | .clear
  | .resize _ _ => exact trivial

/-! ## Runs -/

theorem wellStamped_after (rows cols : ℕ) (ops : List ContentOp) (n : ℕ) :
    (after rows cols ops n).WellStamped :=
  Run.invariant (fun _ op hw ↦ hw.step op) _ _ (wellStamped_new rows cols)

theorem after_succ {rows cols : ℕ} {ops : List ContentOp} {n : ℕ} {op : ContentOp}
    (hop : ops[n]? = some op) :
    after rows cols ops (n + 1) = (after rows cols ops n).step op := by
  rw [after, List.take_add_one, hop, Option.toList_some, Run.exec_append, ← after]
  rfl

/-- **Row stamps.** Along a run from a blank grid, whatever two points of it are compared: a row
whose stamp at the later one is not past the generation at the earlier one has the cells it had
there. This is so exactly if every diff of the run stamps the rows it writes something new into. -/
theorem row_stamps_sound_iff (rows cols : ℕ) (ops : List ContentOp) :
    Run.Ok step StampsWrites (new rows cols) ops ↔
      ∀ i j, i ≤ j → ∀ row < (after rows cols ops j).rows,
        (after rows cols ops j).rowGeneration row ≤ (after rows cols ops i).cellsGeneration →
          (after rows cols ops j).rowCells row = (after rows cols ops i).rowCells row := by
  constructor
  · intro hok i j hij
    -- the run from the earlier point on
    obtain ⟨rest, hrest⟩ : ops.take i <+: ops.take j := List.take_prefix_take_left hij
    obtain ⟨tail, htail⟩ := List.take_prefix j ops
    rw [← htail, ← hrest, Run.ok_append, Run.ok_append] at hok
    have hafter : after rows cols ops j = Run.exec step (after rows cols ops i) rest := by
      rw [after, ← hrest, Run.exec_append, ← after]
    have hinv := Run.invariant_of_ok
      (fun g op (hg : g.WellStamped ∧ Since (after rows cols ops i) g) hop ↦
        ⟨hg.1.step op, hg.2.step hg.1 hop⟩) rest (after rows cols ops i)
      ⟨wellStamped_after rows cols ops i, Since.refl _⟩ hok.1.2
    rw [hafter]
    exact hinv.2.same
  · intro h
    refine (Run.ok_iff_forall _ _).mpr fun n op hop ↦ ?_
    change (after rows cols ops n).StampsWrites op
    refine stampsWrites_of_since (wellStamped_after rows cols ops n)
      ⟨generation_le_step _ op, ?_⟩
    rw [← after_succ hop]
    exact h n (n + 1) (Nat.le_succ n)

/-- Two rows of two columns, and an operation on the first that carries three cells. -/
def overrun : List ContentOp :=
  let x : CellState := { (default : CellState) with c := 'x' }
  [.diff ⟨[.row 0 0 [x, x, x]], default, TermModes.empty, 0, none⟩]

/-- The second row shows the third cell, and its stamp says that it never changed. -/
theorem not_row_stamps_sound_overrun :
    ¬∀ i j, i ≤ j → ∀ row < (after 2 2 overrun j).rows,
      (after 2 2 overrun j).rowGeneration row ≤ (after 2 2 overrun i).cellsGeneration →
        (after 2 2 overrun j).rowCells row = (after 2 2 overrun i).rowCells row :=
  fun h ↦ absurd (h 0 1 (by decide) 1 (by decide) (by decide)) (by decide)

end GridContent

end Kmux
