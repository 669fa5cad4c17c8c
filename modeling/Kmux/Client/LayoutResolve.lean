import Kmux.Session.LayoutInvariant

/-!
# Resolving a layout into cells

Every frontend turns the server's layout tree and its own content area into one rectangle per leaf,
and into the gutter strips between them that a pointer may drag. Both walks divide the extent of a
split in the same way: the gutters go first, and what is left is apportioned among the weights by
largest remainder, in cells.
-/

namespace Kmux

/-- A pane's rectangle in cells, within the content area. -/
structure PaneRect where
  paneIndex : ℕ
  col : ℕ
  row : ℕ
  cols : ℕ
  rows : ℕ
  deriving DecidableEq, Repr

structure LayoutConfig where
  /-- Divider width between children side by side. -/
  gutterCols : ℕ := 1
  /-- Divider height between children one above the other. -/
  gutterRows : ℕ := 1
  minCols : ℕ := 1
  minRows : ℕ := 1
  deriving DecidableEq, Repr

/-- A draggable boundary between two adjacent children of a split. -/
structure Divider where
  /-- Descent from the root to the split. -/
  path : List ℕ
  dir : SplitDir
  /-- The boundary is after this child. -/
  before : ℕ
  hitCol : ℕ
  hitRow : ℕ
  hitCols : ℕ
  hitRows : ℕ
  /-- Where the child before starts on the drag axis. -/
  pairStart : ℕ
  /-- The extents of the two children together, without the gutter. -/
  pairLen : ℕ
  deriving DecidableEq, Repr

/-- Addition of `u16` that stops at the largest value. -/
def satAdd (x y : ℕ) : ℕ := min (x + y) (2 ^ 16 - 1)

/-- Multiplication of `u16` that stops at the largest value. -/
def satMul (x y : ℕ) : ℕ := min (x * y) (2 ^ 16 - 1)

/-- Divide `total` cells among weights by largest remainder. -/
def apportion (total : ℕ) (ratios : List ℕ) : List ℕ :=
  if ratios = [] then []
  else
    let sum := max (u32 ratios.sum) 1
    let quotients := ratios.map fun r ↦ r * total / sum
    let remainders := ratios.mapIdx fun i r ↦ (i, r * total % sum)
    let leftover := total - u32 quotients.sum
    handOut leftover ((remainders.mergeSort remainderLe).map Prod.fst) (quotients.map u16)

/-- The lengths laid out one after the other from `pos`, a gutter between them. -/
def placeFrom (gutter : ℕ) : ℕ → List ℕ → List (ℕ × ℕ)
  | _, [] => []
  | pos, len :: lens => (pos, len) :: placeFrom gutter (satAdd (satAdd pos len) gutter) lens

/-- Start and length of each child of a split along its axis. The number of children is cast to
`u16`. -/
def childExtents (axisStart axisTotal : ℕ) (ratios : List ℕ) (gutter : ℕ) : List (ℕ × ℕ) :=
  if ratios = [] then []
  else
    let gutters := satMul (u16 (ratios.length + (2 ^ 16 - 1))) gutter
    placeFrom gutter axisStart (apportion (axisTotal - gutters) ratios)

namespace LayoutNode

mutual

/-- The rectangles of the leaves below a node that was given this rectangle. -/
def resolveInto (cfg : LayoutConfig) (col row cols rows : ℕ) : LayoutNode → List PaneRect
  | .leaf paneIndex =>
    [{ paneIndex, col, row, cols := max cols cfg.minCols, rows := max rows cfg.minRows }]
  | .split .horizontal ratios children =>
    resolveCols cfg row rows (childExtents col cols ratios cfg.gutterCols) children
  | .split .vertical ratios children =>
    resolveRows cfg col cols (childExtents row rows ratios cfg.gutterRows) children

/-- The loop over children side by side. -/
def resolveCols (cfg : LayoutConfig) (row rows : ℕ) : List (ℕ × ℕ) → List LayoutNode → List PaneRect
  | (x, w) :: extents, c :: cs =>
    resolveInto cfg x row w rows c ++ resolveCols cfg row rows extents cs
  | _, _ => []

/-- The loop over children one above the other. -/
def resolveRows (cfg : LayoutConfig) (col cols : ℕ) : List (ℕ × ℕ) → List LayoutNode → List PaneRect
  | (y, h) :: extents, c :: cs =>
    resolveInto cfg col y cols h c ++ resolveRows cfg col cols extents cs
  | _, _ => []

end

/-- One rectangle per leaf, for a content area. -/
def resolveLayout (root : LayoutNode) (areaCols areaRows : ℕ) (cfg : LayoutConfig) :
    List PaneRect := resolveInto cfg 0 0 areaCols areaRows root

/-- The boundaries of one split, side by side: a gutter strip after each child but the last. -/
def colDividers (gutter row rows : ℕ) (path : List ℕ) (extents : List (ℕ × ℕ)) (n : ℕ) :
    List Divider :=
  (List.range (n - 1)).map fun before ↦
    let (s0, l0) := extents.getD before (0, 0)
    let (_, l1) := extents.getD (before + 1) (0, 0)
    { path, dir := .horizontal, before, hitCol := satAdd s0 l0, hitRow := row, hitCols := gutter,
      hitRows := rows, pairStart := s0, pairLen := satAdd l0 l1 }

/-- The boundaries of one split, one above the other. -/
def rowDividers (gutter col cols : ℕ) (path : List ℕ) (extents : List (ℕ × ℕ)) (n : ℕ) :
    List Divider :=
  (List.range (n - 1)).map fun before ↦
    let (s0, l0) := extents.getD before (0, 0)
    let (_, l1) := extents.getD (before + 1) (0, 0)
    { path, dir := .vertical, before, hitCol := col, hitRow := satAdd s0 l0, hitCols := cols,
      hitRows := gutter, pairStart := s0, pairLen := satAdd l0 l1 }

mutual

/-- The dividers below a node that was given this rectangle: its own, then those of its children. -/
def dividersInto (cfg : LayoutConfig) (path : List ℕ) (col row cols rows : ℕ) :
    LayoutNode → List Divider
  | .leaf _ => []
  | .split .horizontal ratios children =>
    let extents := childExtents col cols ratios cfg.gutterCols
    colDividers cfg.gutterCols row rows path extents children.length
      ++ dividersCols cfg path row rows 0 extents children
  | .split .vertical ratios children =>
    let extents := childExtents row rows ratios cfg.gutterRows
    rowDividers cfg.gutterRows col cols path extents children.length
      ++ dividersRows cfg path col cols 0 extents children

def dividersCols (cfg : LayoutConfig) (path : List ℕ) (row rows : ℕ) :
    ℕ → List (ℕ × ℕ) → List LayoutNode → List Divider
  | i, (x, w) :: extents, c :: cs =>
    dividersInto cfg (path ++ [i]) x row w rows c
      ++ dividersCols cfg path row rows (i + 1) extents cs
  | _, _, _ => []

def dividersRows (cfg : LayoutConfig) (path : List ℕ) (col cols : ℕ) :
    ℕ → List (ℕ × ℕ) → List LayoutNode → List Divider
  | i, (y, h) :: extents, c :: cs =>
    dividersInto cfg (path ++ [i]) col y cols h c
      ++ dividersRows cfg path col cols (i + 1) extents cs
  | _, _, _ => []

end

/-- Every draggable divider of a layout resolved into a content area. -/
def resolveDividers (root : LayoutNode) (areaCols areaRows : ℕ) (cfg : LayoutConfig) :
    List Divider := dividersInto cfg [] 0 0 areaCols areaRows root

end LayoutNode

end Kmux
