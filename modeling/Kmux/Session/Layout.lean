import Kmux.Lib.Apportion
import Kmux.Lib.Run

/-!
# A tab's layout tree

The server's mutations of a tab's layout: splitting a leaf, removing one, setting the weights of a
split, swapping two panes, and regenerating the tree into a preset. Leaves reference panes by index;
the children of a split share its extent by weights in permille.

The source mutates the tree in place and reports whether it did anything. Here a mutation returns
the tree it leaves behind together with that report, so that what a refused mutation leaves behind
is a theorem and not a convention. Weights are `u16` and are added up as `u32`, and both wrap.
-/

namespace Kmux

/-- A value cast to `u16`. -/
def u16 (x : ℕ) : ℕ := x % 2 ^ 16

/-- A value computed in `u32`. -/
def u32 (x : ℕ) : ℕ := x % 2 ^ 32

inductive SplitDir
  | horizontal
  | vertical
  deriving DecidableEq, Repr

/-- A tiling layout. -/
inductive LayoutNode
  | leaf (paneIndex : ℕ)
  /-- Child weights in permille, and the children. -/
  | split (dir : SplitDir) (ratios : List ℕ) (children : List LayoutNode)

/-- Preset layouts. -/
inductive LayoutScheme
  | evenHorizontal
  | evenVertical
  | mainVertical
  | mainHorizontal
  /-- A scheme of a newer client. -/
  | unknown
  deriving DecidableEq, Repr

/-- Lowest permille weight a resize may give a child. -/
def minRatio : ℕ := 20

/-! ## Weights -/

/-- Add one unit to each position of `order` in turn, until `leftover` units are gone. -/
def handOut : ℕ → List ℕ → List ℕ → List ℕ
  | 0, _, ratios => ratios
  | _, [], ratios => ratios
  | leftover + 1, i :: order, ratios =>
    handOut leftover order (ratios.modify i fun r ↦ u16 (r + 1))

/-- Largest remainder first; ties go to the lower index. -/
def remainderLe (a b : ℕ × ℕ) : Bool := decide (b.2 < a.2 ∨ b.2 = a.2 ∧ a.1 ≤ b.1)

/-- Rescale weights so that they sum to 1000, by largest remainder. An all-zero input becomes an
equal split. -/
def normalize (ratios : List ℕ) : List ℕ :=
  if ratios = [] then []
  else
    let n := ratios.length
    let sum := u32 ratios.sum
    if sum = 0 then
      let base := 1000 / n
      handOut (1000 - base * n) (List.range n) (List.replicate n (u16 base))
    else
      let quotients := ratios.map fun r ↦ r * 1000 / sum
      let remainders := ratios.mapIdx fun i r ↦ (i, r * 1000 % sum)
      let leftover := 1000 - u32 quotients.sum
      handOut leftover ((remainders.mergeSort remainderLe).map Prod.fst) (quotients.map u16)

namespace LayoutNode

/-- The layout of a freshly created tab. -/
def single (paneIndex : ℕ) : LayoutNode := .leaf paneIndex

mutual

/-- The pane of every leaf, left to right. -/
def leaves : LayoutNode → List ℕ
  | .leaf paneIndex => [paneIndex]
  | .split _ _ children => leavesAll children

def leavesAll : List LayoutNode → List ℕ
  | [] => []
  | c :: cs => c.leaves ++ leavesAll cs

end

/-- Exactly the leaf of this pane. -/
def isLeaf (paneIndex : ℕ) : LayoutNode → Bool
  | .leaf p => decide (p = paneIndex)
  | .split .. => false

mutual

/-- The split that has the leaf of this pane among its children: its direction, its weights and the
position of the leaf. The first one in tree order, which is the one a mutation finds. -/
def parent (pane : ℕ) : LayoutNode → Option (SplitDir × List ℕ × ℕ)
  | .leaf _ => none
  | .split dir ratios children =>
    match children.findIdx? (isLeaf pane) with
    | some pos => some (dir, ratios, pos)
    | none => parentInChildren pane children

def parentInChildren (pane : ℕ) : List LayoutNode → Option (SplitDir × List ℕ × ℕ)
  | [] => none
  | c :: cs =>
    match parent pane c with
    | some found => some found
    | none => parentInChildren pane cs

end

/-- The node reached by descending `path` from the root. -/
def nodeAt : List ℕ → LayoutNode → Option LayoutNode
  | [], node => some node
  | _ :: _, .leaf _ => none
  | idx :: path, .split _ _ children =>
    match children[idx]? with
    | none => none
    | some child => nodeAt path child

/-! ## Splitting -/

mutual

/-- Split the leaf `fromPane` below this node. A parent that already splits in the same direction
takes the new pane as a sibling, with half the weight of the leaf; otherwise the leaf is nested. -/
def splitInSplit (fromPane newPane : ℕ) (dir : SplitDir) : LayoutNode → LayoutNode × Bool
  | .leaf p => (.leaf p, false)
  | .split myDir ratios children =>
    match children.findIdx? (isLeaf fromPane) with
    | some pos =>
      if myDir = dir then
        let share := ratios.getD pos 0
        let newShare := share / 2
        let halved := (ratios.set pos (share - newShare)).insertIdx (pos + 1) newShare
        (.split myDir (normalize halved) (children.insertIdx (pos + 1) (.leaf newPane)), true)
      else
        (.split myDir ratios (children.set pos
          (.split dir [500, 500] [.leaf fromPane, .leaf newPane])), true)
    | none =>
      let r := splitInChildren fromPane newPane dir children
      (.split myDir ratios r.1, r.2)

/-- The loop over the children: the first split that contains the leaf ends it. -/
def splitInChildren (fromPane newPane : ℕ) (dir : SplitDir) :
    List LayoutNode → List LayoutNode × Bool
  | [] => ([], false)
  | c :: cs =>
    let r := splitInSplit fromPane newPane dir c
    if r.2 then (r.1 :: cs, true)
    else
      let rest := splitInChildren fromPane newPane dir cs
      (r.1 :: rest.1, rest.2)

end

/-- Split the leaf `fromPane`, inserting `newPane` after it. -/
def splitPane (root : LayoutNode) (fromPane newPane : ℕ) (dir : SplitDir) : LayoutNode × Bool :=
  match root with
  | .leaf p =>
    if p = fromPane then (.split dir [500, 500] [.leaf p, .leaf newPane], true)
    else (.leaf p, false)
  | .split .. => splitInSplit fromPane newPane dir root

/-! ## Removing -/

mutual

/-- Remove the leaf `pane` below this node. A split left with one child becomes that child. -/
def removeInSplit (pane : ℕ) : LayoutNode → LayoutNode × Bool
  | .leaf p => (.leaf p, false)
  | .split dir ratios children =>
    match children.findIdx? (isLeaf pane) with
    | some pos =>
      match children.eraseIdx pos with
      | [only] => (only, true)
      | rest => (.split dir (normalize (ratios.eraseIdx pos)) rest, true)
    | none =>
      let r := removeInChildren pane children
      (.split dir ratios r.1, r.2)

def removeInChildren (pane : ℕ) : List LayoutNode → List LayoutNode × Bool
  | [] => ([], false)
  | c :: cs =>
    let r := removeInSplit pane c
    if r.2 then (r.1 :: cs, true)
    else
      let rest := removeInChildren pane cs
      (r.1 :: rest.1, rest.2)

end

/-- Remove the leaf `pane`. The only leaf of a tab is not removed: closing it closes the tab. -/
def removePane (root : LayoutNode) (pane : ℕ) : LayoutNode × Bool :=
  match root with
  | .leaf p => (.leaf p, false)
  | .split .. => removeInSplit pane root

/-! ## Weights of a split, swaps, presets -/

/-- Set the child weights of the split that `path` leads to. -/
def setRatios (newRatios : List ℕ) : List ℕ → LayoutNode → LayoutNode × Bool
  | [], .leaf p => (.leaf p, false)
  | [], .split dir ratios children =>
    if newRatios.length ≠ children.length then (.split dir ratios children, false)
    else (.split dir (normalize (newRatios.map (max minRatio))) children, true)
  | _ :: _, .leaf p => (.leaf p, false)
  | idx :: path, .split dir ratios children =>
    match children[idx]? with
    | none => (.split dir ratios children, false)
    | some child =>
      let r := setRatios newRatios path child
      (.split dir ratios (children.set idx r.1), r.2)

mutual

/-- Exchange the panes `a` and `b` at every leaf. -/
def renameLeaf (a b : ℕ) : LayoutNode → LayoutNode
  | .leaf p => .leaf (if p = a then b else if p = b then a else p)
  | .split dir ratios children => .split dir ratios (renameLeaves a b children)

def renameLeaves (a b : ℕ) : List LayoutNode → List LayoutNode
  | [] => []
  | c :: cs => renameLeaf a b c :: renameLeaves a b cs

end

/-- Swap the positions of two panes. -/
def swap (root : LayoutNode) (a b : ℕ) : LayoutNode × Bool :=
  if a = b then (root, false)
  else if a ∉ root.leaves ∨ b ∉ root.leaves then (root, false)
  else (root.renameLeaf a b, true)

/-- One flat split of all panes, evenly weighted. -/
def evenSplit (panes : List ℕ) (dir : SplitDir) : LayoutNode :=
  .split dir (normalize (List.replicate panes.length (u16 (1000 / panes.length))))
    (panes.map .leaf)

/-- The first pane at half the extent, the rest evenly arranged in the other half. -/
def mainSplit (panes : List ℕ) (outer inner : SplitDir) : LayoutNode :=
  let rest := panes.tail
  let stack := if rest.length = 1 then .leaf (rest.headD 0) else evenSplit rest inner
  .split outer [500, 500] [.leaf (panes.headD 0), stack]

/-- How a scheme arranges panes; `none` for a scheme this build does not know. -/
def arrange : LayoutScheme → Option (List ℕ → LayoutNode)
  | .evenHorizontal => some fun panes ↦ evenSplit panes .horizontal
  | .evenVertical => some fun panes ↦ evenSplit panes .vertical
  | .mainVertical => some fun panes ↦ mainSplit panes .horizontal .vertical
  | .mainHorizontal => some fun panes ↦ mainSplit panes .vertical .horizontal
  | .unknown => none

/-- Regenerate a tree from panes in order. -/
def applyScheme (panes : List ℕ) (scheme : LayoutScheme) : Option LayoutNode :=
  (arrange scheme).map fun arrange ↦
    match panes with
    | [] => single 0
    | [only] => single only
    | _ => arrange panes

/-! ## Focus -/

mutual

/-- Which pane gets the focus once `removed` is closed, from the tree before the removal: the
previous sibling, else the next. -/
def nextFocusAfterRemoval (removed : ℕ) : LayoutNode → Option ℕ
  | .leaf _ => none
  | .split _ _ children =>
    match children.findIdx? (isLeaf removed) with
    | some pos =>
      (if 0 < pos then children[pos - 1]? else children[pos + 1]?).bind fun s ↦ s.leaves.head?
    | none => nextFocusInChildren removed children

def nextFocusInChildren (removed : ℕ) : List LayoutNode → Option ℕ
  | [] => none
  | c :: cs =>
    match nextFocusAfterRemoval removed c with
    | some f => some f
    | none => nextFocusInChildren removed cs

end

end LayoutNode

/-- The mutations a client can ask for. -/
inductive LayoutOp
  | split (fromPane newPane : ℕ) (dir : SplitDir)
  | removePane (pane : ℕ)
  | setRatios (path : List ℕ) (newRatios : List ℕ)
  | swap (a b : ℕ)
  | applyScheme (scheme : LayoutScheme)
  deriving DecidableEq, Repr

namespace LayoutNode

/-- One mutation: the tree afterwards, and whether it took place. -/
def apply (t : LayoutNode) : LayoutOp → LayoutNode × Bool
  | .split fromPane newPane dir => t.splitPane fromPane newPane dir
  | .removePane pane => t.removePane pane
  | .setRatios path newRatios => t.setRatios newRatios path
  | .swap a b => t.swap a b
  | .applyScheme scheme =>
    match applyScheme t.leaves scheme with
    | some tree => (tree, true)
    | none => (t, false)

end LayoutNode

end Kmux
