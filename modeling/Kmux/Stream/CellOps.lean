import Kmux.Client.Grid
import Kmux.VtCore.DiffEngine
import Mathlib.Tactic.Set

/-!
# Cell operations: what the engine encodes, the client decodes

The engine scans the grid row by row and emits one operation per run of changed cells; the client
replays the operations on its own flat buffer. The statement that makes the two ends fit is
`getElem?_applyOps_diffOps`: applied to *any* buffer of the right size, the operations put the
current cell wherever current and previous differ and leave the rest alone. Nothing is assumed
about the buffer, because after a resize the client does not hold the engine's previous cells.

Columns cross the wire as `UInt16`. The narrowing is harmless because they are below the grid's
own `UInt16` dimensions; `toNat_toUInt16` is where that is used.
-/

namespace Kmux

open GridContent

theorem toNat_toUInt16 {n : ℕ} {u : UInt16} (h : n < u.toNat) : n.toUInt16.toNat = n :=
  UInt16.toNat_ofNat_of_lt' (h.trans u.toNat_lt)

/-! ## Writing cells -/

@[simp] theorem length_writeCells (cs : List CellState) : ∀ (base : ℕ) (cells : List CellState),
    (writeCells base cs cells).length = cells.length := by
  induction cs with
  | nil => intro base cells; rfl
  | cons c cs ih => intro base cells; rw [writeCells, ih, List.length_set]

@[simp] theorem length_applyOp (cols : ℕ) (cells : List CellState) (op : DiffOp) :
    (applyOp cols cells op).length = cells.length := by
  cases op with
  | cell row col cell => rw [applyOp, List.length_set]
  | row row startCol cs => rw [applyOp, length_writeCells]
  | clear => rw [applyOp, List.length_map]

@[simp] theorem length_applyOps (cols : ℕ) (ops : List DiffOp) : ∀ cells : List CellState,
    (applyOps cols ops cells).length = cells.length := by
  induction ops with
  | nil => intro cells; rfl
  | cons op ops ih => intro cells; rw [applyOps, List.foldl_cons, ← applyOps, ih, length_applyOp]

theorem applyOps_append (cols : ℕ) (ops ops' : List DiffOp) (cells : List CellState) :
    applyOps cols (ops ++ ops') cells = applyOps cols ops' (applyOps cols ops cells) := by
  rw [applyOps, List.foldl_append, ← applyOps, ← applyOps]

/-! ## What operations write -/

/-- What an operation writes at a flat index. -/
def DiffOp.writesAt (cols i : ℕ) : DiffOp → Option CellState
  | .cell r col c => if r.toNat * cols + col.toNat = i then some c else none
  | .row r startCol cs =>
      if r.toNat * cols + startCol.toNat ≤ i then cs[i - (r.toNat * cols + startCol.toNat)]?
      else none
  | .clear => some default

/-- The cell that operations write last at a flat index. -/
def lastWritten (cols i : ℕ) (ops : List DiffOp) : Option CellState :=
  (ops.filterMap (DiffOp.writesAt cols i)).getLast?

theorem getElem?_writeCells_of_lt (cs : List CellState) : ∀ (base i : ℕ) (cells : List CellState),
    i < cells.length → (writeCells base cs cells)[i]?
      = (if base ≤ i then cs[i - base]? else none).or cells[i]? := by
  induction cs with
  | nil =>
    intro base i cells _
    rw [writeCells, List.getElem?_nil]
    split <;> rw [Option.none_or]
  | cons c cs ih =>
    intro base i cells hi
    rw [writeCells, ih (base + 1) i (cells.set base c) (by rwa [List.length_set])]
    rcases Nat.lt_trichotomy i base with hlt | heq | hgt
    · rw [if_neg (by omega), if_neg (by omega), List.getElem?_set_ne (by omega)]
    · subst heq
      rw [if_neg (by omega), if_pos le_rfl, Nat.sub_self, List.getElem?_cons_zero, Option.none_or,
        List.getElem?_set_self hi, Option.some_or]
    · rw [if_pos (by omega), if_pos (by omega), List.getElem?_set_ne (by omega),
        show i - base = i - (base + 1) + 1 by omega, List.getElem?_cons_succ]

/-- A run that fits is copied where it lies, and the rest stays. -/
theorem getElem?_writeCells (cs : List CellState) (base i : ℕ) (cells : List CellState)
    (hfit : base + cs.length ≤ cells.length) :
    (writeCells base cs cells)[i]?
      = if base ≤ i ∧ i < base + cs.length then cs[i - base]? else cells[i]? := by
  by_cases hi : i < cells.length
  · rw [getElem?_writeCells_of_lt cs base i cells hi]
    by_cases hin : base ≤ i ∧ i < base + cs.length
    · rw [if_pos hin, if_pos hin.1, List.getElem?_eq_getElem (by omega), Option.some_or]
    · rw [if_neg hin]
      by_cases hbase : base ≤ i
      · rw [if_pos hbase, List.getElem?_eq_none (by omega), Option.none_or]
      · rw [if_neg hbase, Option.none_or]
  · rw [if_neg (by omega), List.getElem?_eq_none (by rw [length_writeCells]; omega),
      List.getElem?_eq_none (by omega)]

theorem getElem?_applyOp (cols i : ℕ) (cells : List CellState) (op : DiffOp)
    (hi : i < cells.length) :
    (applyOp cols cells op)[i]? = (op.writesAt cols i).or cells[i]? := by
  cases op with
  | cell row col cell =>
    rw [applyOp, DiffOp.writesAt]
    by_cases h : row.toNat * cols + col.toNat = i
    · rw [if_pos h, h, List.getElem?_set_self hi, Option.some_or]
    · rw [if_neg h, List.getElem?_set_ne h, Option.none_or]
  | row row startCol cs => exact getElem?_writeCells_of_lt cs _ i cells hi
  | clear =>
    rw [applyOp, DiffOp.writesAt, List.getElem?_map, List.getElem?_eq_getElem hi]
    rfl

/-- Every cell ends as the last operation on it says. -/
theorem getElem?_applyOps (cols i : ℕ) (ops : List DiffOp) : ∀ cells : List CellState,
    i < cells.length →
    (applyOps cols ops cells)[i]? = (lastWritten cols i ops).or cells[i]? := by
  induction ops with
  | nil => intro cells _; rfl
  | cons op ops ih =>
    intro cells hi
    rw [applyOps, List.foldl_cons, ← applyOps, ih _ (by rwa [length_applyOp]),
      getElem?_applyOp cols i cells op hi, lastWritten, lastWritten, List.filterMap_cons]
    cases hop : op.writesAt cols i with
    | none => rw [Option.none_or]
    | some c =>
      rw [List.getLast?_cons, Option.some_or]
      cases (ops.filterMap (DiffOp.writesAt cols i)).getLast? <;> rfl

/-! ## One run -/

section Row

variable {cur prev g : List CellState}

/-- The inner loop stops inside the row, and everything it passed over changed. -/
theorem runEnd_spec (cur prev : List CellState) (base cols : ℕ) : ∀ fuel c : ℕ, c ≤ cols →
    c ≤ runEnd cur prev base cols fuel c ∧ runEnd cur prev base cols fuel c ≤ cols ∧
      ∀ k, c ≤ k → k < runEnd cur prev base cols fuel c → cur[base + k]? ≠ prev[base + k]? := by
  intro fuel
  induction fuel with
  | zero =>
    intro c hc
    rw [runEnd]
    exact ⟨le_refl c, hc, fun k hk hk' ↦ absurd hk' (by omega)⟩
  | succ fuel ih =>
    intro c hc
    rw [runEnd]
    by_cases h : c < cols ∧ cur[base + c]? ≠ prev[base + c]?
    · rw [if_pos h]
      obtain ⟨hle, hcols, hall⟩ := ih (c + 1) h.1
      refine ⟨by omega, hcols, fun k hk hk' ↦ ?_⟩
      rcases Nat.eq_or_lt_of_le hk with rfl | hlt
      · exact h.2
      · exact hall k hlt hk'
    · rw [if_neg h]
      exact ⟨le_refl c, hc, fun k hk hk' ↦ absurd hk' (by omega)⟩

/-- One run operation copies exactly the cells of its run. -/
theorem getElem?_applyOp_runOp {r cols start stop : ℕ}
    (hr : r.toUInt16.toNat = r) (hcol : start.toUInt16.toNat = start) (hlt : start < stop)
    (hcur : r * cols + stop ≤ cur.length) (hg : g.length = cur.length) (i : ℕ) :
    (applyOp cols g (runOp cur r cols start (stop - start)))[i]?
      = if r * cols + start ≤ i ∧ i < r * cols + stop then cur[i]? else g[i]? := by
  rw [runOp]
  by_cases htwo : 2 ≤ stop - start
  · have hlen : ((cur.drop (r * cols + start)).take (stop - start)).length = stop - start := by
      rw [List.length_take, List.length_drop]
      omega
    rw [if_pos htwo, applyOp, hr, hcol, getElem?_writeCells _ _ _ _ (by rw [hlen]; omega), hlen,
      show r * cols + start + (stop - start) = r * cols + stop by omega]
    by_cases hin : r * cols + start ≤ i ∧ i < r * cols + stop
    · rw [if_pos hin, if_pos hin, List.getElem?_take, if_pos (by omega), List.getElem?_drop,
        show r * cols + start + (i - (r * cols + start)) = i by omega]
    · rw [if_neg hin, if_neg hin]
  · have hidx : r * cols + start < cur.length := by omega
    rw [if_neg htwo, applyOp, hr, hcol, List.getElem?_set, hg, if_pos hidx]
    by_cases hin : r * cols + start = i
    · subst hin
      rw [if_pos rfl, if_pos (by omega), List.getD_eq_getElem?_getD,
        List.getElem?_eq_getElem hidx, Option.getD_some]
    · rw [if_neg hin, if_neg (by omega)]

/-! ## One row -/

/-- The scan of row `r` from column `c` on copies exactly the changed cells right of `c`. -/
theorem getElem?_applyOps_scanRow {r cols : ℕ} {u v : UInt16} (hr : r < u.toNat)
    (hcols : cols = v.toNat) (hcur : r * cols + cols ≤ cur.length) :
    ∀ (fuel c : ℕ) (g : List CellState), cols ≤ fuel + c → g.length = cur.length → ∀ i : ℕ,
      (applyOps cols (scanRow cur prev r cols fuel c).1 g)[i]?
        = if (r * cols + c ≤ i ∧ i < r * cols + cols) ∧ cur[i]? ≠ prev[i]? then cur[i]?
          else g[i]? := by
  intro fuel
  induction fuel with
  | zero =>
    intro c g hfuel _ i
    rw [scanRow, if_neg (by omega)]
    rfl
  | succ fuel ih =>
    intro c g hfuel hg i
    rw [scanRow]
    by_cases hc : c < cols
    · by_cases hsame : cur[r * cols + c]? = prev[r * cols + c]?
      · rw [if_pos hc, if_pos hsame, ih (c + 1) g (by omega) hg i]
        -- the two ranges differ in the unchanged cell at column `c`
        by_cases hi : r * cols + c = i
        · subst hi
          rw [if_neg (by omega), if_neg (fun h ↦ h.2 hsame)]
        · congr 1
          exact propext ⟨fun h ↦ ⟨by omega, h.2⟩, fun h ↦ ⟨by omega, h.2⟩⟩
      · obtain ⟨hstop, hstopcols, hall⟩ :=
          runEnd_spec cur prev (r * cols) cols cols (c + 1) hc
        rw [if_pos hc, if_neg hsame]
        set stop := runEnd cur prev (r * cols) cols cols (c + 1) with hstopdef
        have hop : (applyOp cols g (runOp cur r cols c (stop - c)))[i]?
            = if r * cols + c ≤ i ∧ i < r * cols + stop then cur[i]? else g[i]? :=
          getElem?_applyOp_runOp (toNat_toUInt16 hr) (toNat_toUInt16 (hcols ▸ hc)) (by omega)
            (by omega) hg i
        change (applyOps cols (scanRow cur prev r cols fuel stop).1
          (applyOp cols g (runOp cur r cols c (stop - c))))[i]? = _
        rw [ih stop _ (by omega) (by rw [length_applyOp, hg]) i, hop]
        -- every cell of the run changed, so the run and the rest make up the whole range
        by_cases hrun : r * cols + c ≤ i ∧ i < r * cols + stop
        · have hne : cur[i]? ≠ prev[i]? := by
            rcases Nat.eq_or_lt_of_le hrun.1 with heq | hlt
            · exact heq ▸ hsame
            · have := hall (i - r * cols) (by omega) (by omega)
              rwa [show r * cols + (i - r * cols) = i by omega] at this
          rw [if_neg (by omega), if_pos hrun, if_pos ⟨by omega, hne⟩]
        · rw [if_neg hrun]
          congr 1
          exact propext ⟨fun h ↦ ⟨by omega, h.2⟩, fun h ↦ ⟨by omega, h.2⟩⟩
    · rw [if_neg hc, if_neg (by omega)]
      rfl

/-! ## The whole grid -/

/-- The scan of the first `n` rows copies exactly their changed cells. -/
theorem getElem?_applyOps_scanRows {rows cols : UInt16}
    (hcur : cur.length = rows.toNat * cols.toNat) (hg : g.length = cur.length) :
    ∀ n ≤ rows.toNat, ∀ i : ℕ,
      (applyOps cols.toNat (scanRows n cols.toNat cur prev).1 g)[i]?
        = if i < n * cols.toNat ∧ cur[i]? ≠ prev[i]? then cur[i]? else g[i]? := by
  intro n
  induction n with
  | zero =>
    intro _ i
    rw [if_neg (by omega)]
    rfl
  | succ n ih =>
    intro hn i
    have hrow : n * cols.toNat + cols.toNat ≤ cur.length := by
      rw [hcur, ← Nat.succ_mul]
      exact Nat.mul_le_mul_right _ hn
    have hsplit : (scanRows (n + 1) cols.toNat cur prev).1
        = (scanRows n cols.toNat cur prev).1
          ++ (scanRow cur prev n cols.toNat cols.toNat 0).1 := by
      simp only [scanRows, List.range_succ, List.map_append, List.map_cons, List.map_nil,
        List.flatMap_append, List.flatMap_cons, List.flatMap_nil, List.append_nil]
    rw [hsplit, applyOps_append, getElem?_applyOps_scanRow (u := rows) (v := cols) (by omega) rfl
      hrow cols.toNat 0 _ (by omega) (by rw [length_applyOps, hg]), ih (by omega) i,
      Nat.succ_mul, Nat.add_zero]
    by_cases hne : cur[i]? = prev[i]?
    · rw [if_neg (fun h ↦ h.2 hne), if_neg (fun h ↦ h.2 hne), if_neg (fun h ↦ h.2 hne)]
    · by_cases hlt : i < n * cols.toNat
      · rw [if_neg (by omega), if_pos ⟨hlt, hne⟩, if_pos ⟨by omega, hne⟩]
      · by_cases hin : i < n * cols.toNat + cols.toNat
        · rw [if_pos ⟨⟨by omega, hin⟩, hne⟩, if_pos ⟨hin, hne⟩]
        · rw [if_neg (by omega), if_neg (by omega), if_neg (by omega)]

/-- **Decoding the encoder.** On any buffer of the grid's size, the operations of a frame put the
current cell wherever it differs from the previous one. Elsewhere they either leave the buffer
alone or, when the frame was collapsed into a clear, blank a cell that is blank now. -/
theorem getElem?_applyOps_diffOps {rows cols : UInt16} (prev : List CellState)
    (hcur : cur.length = rows.toNat * cols.toNat) (hg : g.length = cur.length) (i : ℕ) :
    (applyOps cols.toNat (diffOps rows.toNat cols.toNat cur prev) g)[i]?
        = (if cur[i]? = prev[i]? then g[i]? else cur[i]?) ∨
      (applyOps cols.toNat (diffOps rows.toNat cols.toNat cur prev) g)[i]? = cur[i]? := by
  rw [diffOps]
  split
  · rename_i hclear
    right
    have hblank : ∀ cell ∈ cur, cell = default := by
      intro cell hcell
      have hall := hclear.2.1
      rw [← hcur, List.take_length, List.all_eq_true] at hall
      exact of_decide_eq_true (hall cell hcell)
    change (g.map fun _ ↦ (default : CellState))[i]? = cur[i]?
    rw [List.getElem?_map]
    by_cases hi : i < cur.length
    · rw [List.getElem?_eq_getElem hi, List.getElem?_eq_getElem (hg ▸ hi), Option.map_some,
        hblank _ (List.getElem_mem hi)]
    · rw [List.getElem?_eq_none (by omega), List.getElem?_eq_none (by omega), Option.map_none]
  · left
    rw [getElem?_applyOps_scanRows hcur hg rows.toNat (le_refl _) i]
    by_cases hsame : cur[i]? = prev[i]?
    · rw [if_neg (fun h ↦ h.2 hsame), if_pos hsame]
    · by_cases hi : i < rows.toNat * cols.toNat
      · rw [if_pos ⟨hi, hsame⟩, if_neg hsame]
      · rw [if_neg (by omega), if_neg hsame, List.getElem?_eq_none (by omega),
          List.getElem?_eq_none (by omega)]

end Row

/-- The operations of a frame turn the comparison state into what is shown. -/
theorem DiffEngine.applyOps_frameOps {B : Type*} [TerminalBackend B] (e : DiffEngine B) :
    applyOps e.cols.toNat e.frameOps e.prevCells = (shown e.backend e.rows e.cols).1 := by
  refine List.ext_getElem? fun i ↦ ?_
  have hlen := length_shown e.backend e.rows e.cols
  rcases getElem?_applyOps_diffOps e.prevCells hlen (e.length_prevCells.trans hlen.symm) i with
    h | h
  · rw [DiffEngine.frameOps, h]
    split
    next heq => exact heq.symm
    next => rfl
  · exact h

end Kmux
