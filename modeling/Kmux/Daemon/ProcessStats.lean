import Kmux.Lib.Traversal
import Mathlib.Data.List.Sort

/-!
# Process trees of panes

The daemon reads the process table of the machine and lists, for each pane, the shell of the pane
and what descends from it. The table is no tree: a process may name itself as its parent, or a
descendant, or a process that is not in the table. The walk marks what it has popped, so that it
ends all the same, and the list it makes is a tree again once the parent of the shell is left out.
-/

namespace Kmux.Processes

open Relation Traversal

-- a usage in percent is a float, which is only ever added up
variable {C : Type}

/-! ## The table -/

structure ProcRow (C : Type) where
  pid : ℤ
  ppid : Option ℤ
  name : String
  cmd : String
  cpuPercent : C
  memBytes : UInt64

/-- The process table, in the order in which the map yields its rows. Each row stands under its own
process id. -/
structure ProcTable (C : Type) where
  rows : List (ProcRow C)
  nodup : (rows.map ProcRow.pid).Nodup

namespace ProcTable

def get (table : ProcTable C) (pid : ℤ) : Option (ProcRow C) := table.rows.find? (·.pid = pid)

/-- The children filed under a parent. -/
def children (table : ProcTable C) (ppid : ℤ) : List ℤ :=
  (table.rows.filter (·.ppid = some ppid)).map ProcRow.pid

variable {table : ProcTable C}

theorem get_eq_some {pid : ℤ} {row : ProcRow C} :
    table.get pid = some row ↔ row ∈ table.rows ∧ row.pid = pid := by
  constructor
  · exact fun h ↦ ⟨List.mem_of_find?_eq_some h, by simpa using List.find?_some h⟩
  · rintro ⟨hmem, rfl⟩
    obtain ⟨found, hfound⟩ : ∃ found, table.get row.pid = some found :=
      Option.isSome_iff_exists.mp (List.find?_isSome.mpr ⟨row, hmem, by simp⟩)
    have hpid : found.pid = row.pid := by simpa using List.find?_some hfound
    rw [hfound, List.inj_on_of_nodup_map table.nodup (List.mem_of_find?_eq_some hfound) hmem hpid]

theorem mem_children {ppid pid : ℤ} :
    pid ∈ table.children ppid ↔ ∃ row ∈ table.rows, row.ppid = some ppid ∧ row.pid = pid := by
  simp [children, and_assoc]

end ProcTable

/-! ## Samples -/

structure ProcessSample (C : Type) where
  pid : ℤ
  ppid : Option ℤ
  name : String
  cmd : String
  cpuPercent : C
  memBytes : UInt64

structure PaneProcesses (C : Type) where
  paneId : String
  rootPid : Option ℤ
  processes : List (ProcessSample C)

/-- What is reported of a row. The parent of the root lies outside the pane. -/
def sample (root : ℤ) (row : ProcRow C) : ProcessSample C where
  pid := row.pid
  ppid := if row.pid = root then none else row.ppid
  name := row.name
  cmd := row.cmd
  cpuPercent := row.cpuPercent
  memBytes := row.memBytes

/-- The loop of one root. The top of the stack comes first; children are pushed one after another,
so that the last comes out on top. -/
def walk (table : ProcTable C) (root : ℤ) :
    ℕ → List ℤ → List (ProcessSample C) → List ℤ → Option (List (ProcessSample C))
  | 0, _, _, _ => none
  | _ + 1, _, processes, [] => some processes
  | fuel + 1, seen, processes, pid :: stack =>
    if pid ∈ seen then walk table root fuel seen processes stack
    else
      match table.get pid with
      | none => walk table root fuel (pid :: seen) processes stack
      | some row =>
        walk table root fuel (pid :: seen) (processes ++ [sample root row])
          ((table.children pid).reverse ++ stack)

def sortByPid (processes : List (ProcessSample C)) : List (ProcessSample C) :=
  processes.mergeSort fun p q ↦ decide (p.pid ≤ q.pid)

/-- The tree of one pane. -/
def paneTree (table : ProcTable C) (fuel : ℕ) (pane : String × Option ℤ) :
    Option (PaneProcesses C) :=
  (match pane.2 with
    | none => some []
    | some root => (walk table root fuel [] [] [root]).map sortByPid).map
    fun processes ↦ ⟨pane.1, pane.2, processes⟩

def buildPaneTrees (table : ProcTable C) (fuel : ℕ) (roots : List (String × Option ℤ)) :
    Option (List (PaneProcesses C)) := roots.mapM (paneTree table fuel)

/-! ## What a tree lists -/

/-- One process of the table is the parent of another. -/
def ChildLink (table : ProcTable C) (parent child : ℤ) : Prop :=
  (∃ row ∈ table.rows, row.pid = parent) ∧
    ∃ row ∈ table.rows, row.ppid = some parent ∧ row.pid = child

/-- Exactly the processes that can be reached from the root, each once, sorted by their ids. -/
structure ListsReachable (table : ProcTable C) (root : ℤ) (processes : List (ProcessSample C)) :
    Prop where
  sorted : processes.Pairwise (·.pid < ·.pid)
  mem_iff : ∀ p, p ∈ processes ↔
    ∃ row ∈ table.rows, ReflTransGen (ChildLink table) root row.pid ∧ p = sample root row

/-- The tree of a pane; one without a root has no processes. -/
structure IsTreeOf (table : ProcTable C) (pane : String × Option ℤ) (tree : PaneProcesses C) :
    Prop where
  paneId : tree.paneId = pane.1
  rootPid : tree.rootPid = pane.2
  processes : ∀ root, pane.2 = some root → ListsReachable table root tree.processes
  no_root : pane.2 = none → tree.processes = []

/-! ## The walk as a traversal -/

/-- What a process pushes, if it is there. -/
def childrenOf (table : ProcTable C) (pid : ℤ) : Option (List ℤ) :=
  (table.get pid).map fun _ ↦ (table.children pid).reverse

variable {table : ProcTable C} {root : ℤ}

theorem edge_childrenOf (parent child : ℤ) :
    Edge (childrenOf table) parent child ↔ ChildLink table parent child := by
  rw [Edge, ChildLink, ← ProcTable.mem_children]
  constructor
  · rintro ⟨pids, hpids, hmem⟩
    obtain ⟨row, hrow, rfl⟩ := Option.map_eq_some_iff.mp hpids
    exact ⟨⟨row, ProcTable.get_eq_some.mp hrow⟩, List.mem_reverse.mp hmem⟩
  · rintro ⟨⟨row, hrow⟩, hmem⟩
    refine ⟨_, ?_, List.mem_reverse.mpr hmem⟩
    rw [childrenOf, ProcTable.get_eq_some.mpr hrow, Option.map_some]

theorem childrenOf_isSome {pid : ℤ} :
    (childrenOf table pid).isSome ↔ ∃ row ∈ table.rows, row.pid = pid := by
  rw [childrenOf, Option.isSome_map, Option.isSome_iff_exists]
  exact exists_congr fun row ↦ ProcTable.get_eq_some

/-- The samples of a list of processes. -/
def samplesOf (table : ProcTable C) (root : ℤ) (pids : List ℤ) : List (ProcessSample C) :=
  pids.filterMap fun pid ↦ (table.get pid).map (sample root)

theorem walk_eq (fuel : ℕ) (seen found stack : List ℤ) :
    walk table root fuel seen (samplesOf table root found) stack =
      (visit (childrenOf table) fuel seen found stack).map (samplesOf table root) := by
  induction fuel generalizing seen found stack with
  | zero => rfl
  | succ fuel ih =>
    cases stack with
    | nil => rfl
    | cons pid stack =>
      rw [walk, visit]
      split_ifs with hseen
      · exact ih seen found stack
      · cases hget : table.get pid with
        | none => simpa [childrenOf, hget] using ih (pid :: seen) found stack
        | some row =>
          have hsamples : samplesOf table root (found ++ [pid]) =
              samplesOf table root found ++ [sample root row] := by
            simp [samplesOf, List.filterMap_append, hget]
          simp only [childrenOf, hget, Option.map_some]
          rw [← hsamples]
          exact ih _ _ _

theorem mem_samplesOf {pids : List ℤ} {p : ProcessSample C} :
    p ∈ samplesOf table root pids ↔
      ∃ row ∈ table.rows, row.pid ∈ pids ∧ p = sample root row := by
  simp only [samplesOf, List.mem_filterMap, Option.map_eq_some_iff, ProcTable.get_eq_some]
  constructor
  · rintro ⟨pid, hpid, row, ⟨hrow, rfl⟩, rfl⟩
    exact ⟨row, hrow, hpid, rfl⟩
  · rintro ⟨row, hrow, hpid, rfl⟩
    exact ⟨row.pid, hpid, row, ⟨hrow, rfl⟩, rfl⟩

theorem nodup_samplesOf {pids : List ℤ} (h : pids.Nodup) :
    ((samplesOf table root pids).map ProcessSample.pid).Nodup := by
  have hsublist : ((samplesOf table root pids).map ProcessSample.pid).Sublist pids := by
    induction pids with
    | nil => exact .slnil
    | cons pid pids ih =>
      have ih := ih h.of_cons
      cases hget : table.get pid with
      | none => simpa [samplesOf, hget] using ih.cons pid
      | some row =>
        have hpid : (sample root row).pid = pid := (ProcTable.get_eq_some.mp hget).2
        simpa [samplesOf, hget, hpid] using ih.cons_cons pid
  exact h.sublist hsublist

theorem sortByPid_perm (processes : List (ProcessSample C)) :
    (sortByPid processes).Perm processes := List.mergeSort_perm _ _

theorem sortByPid_sorted {processes : List (ProcessSample C)}
    (h : (processes.map ProcessSample.pid).Nodup) :
    (sortByPid processes).Pairwise (·.pid < ·.pid) := by
  have hle : (sortByPid processes).Pairwise fun p q ↦ decide (p.pid ≤ q.pid) = true :=
    List.pairwise_mergeSort (fun a b c ↦ by simpa using Int.le_trans)
      (fun a b ↦ by simpa using Int.le_total a.pid b.pid) processes
  have hne : (sortByPid processes).Pairwise (·.pid ≠ ·.pid) := by
    have hperm := ((sortByPid_perm processes).map ProcessSample.pid).nodup_iff.mpr h
    exact List.pairwise_map.mp hperm
  exact hle.imp₂ (fun p q hle hne ↦ lt_of_le_of_ne (by simpa using hle) hne) hne

/-- The walk of a root ends, with the processes that can be reached from it. -/
theorem walk_endsWith (table : ProcTable C) (root : ℤ) :
    ∃ processes, EndsWith (fun fuel ↦ (walk table root fuel [] [] [root]).map sortByPid) processes ∧
      ListsReachable table root processes := by
  have hnodes : ∀ pid, (childrenOf table pid).isSome → pid ∈ table.rows.map ProcRow.pid :=
    fun pid h ↦ List.mem_map.mpr (childrenOf_isSome.mp h)
  obtain ⟨out, henough⟩ := visit_endsWith hnodes root
  obtain ⟨enough, hout⟩ := id henough
  obtain ⟨hnodup, hmem⟩ := visit_spec (.init _ root) (hout enough (le_refl _))
  have hwalk : ∀ fuel, (walk table root fuel [] [] [root]).map sortByPid =
      (visit (childrenOf table) fuel [] [] [root]).map
        fun pids ↦ sortByPid (samplesOf table root pids) := by
    intro fuel
    rw [show ([] : List (ProcessSample C)) = samplesOf table root [] from rfl, walk_eq,
      Option.map_map]
    rfl
  refine ⟨sortByPid (samplesOf table root out), ?_, sortByPid_sorted (nodup_samplesOf hnodup),
    fun p ↦ ?_⟩
  · simp only [hwalk]
    exact henough.map _
  · rw [(sortByPid_perm _).mem_iff, mem_samplesOf]
    refine exists_congr fun row ↦ and_congr_right fun hrow ↦ and_congr_left fun _ ↦ ?_
    have hlinks : ReflTransGen (Edge (childrenOf table)) root row.pid ↔
        ReflTransGen (ChildLink table) root row.pid := by
      rw [show Edge (childrenOf table) = ChildLink table from
        funext₂ fun _ _ ↦ propext (edge_childrenOf _ _)]
    rw [hmem, hlinks, and_iff_right (childrenOf_isSome.mpr ⟨row, hrow, rfl⟩)]

/-- The trees of the panes are built, whatever the table. -/
theorem buildPaneTrees_endsWith (table : ProcTable C) (roots : List (String × Option ℤ)) :
    ∃ trees, EndsWith (buildPaneTrees table · roots) trees ∧
      List.Forall₂ (IsTreeOf table) roots trees := by
  refine endsWith_mapM fun pane _ ↦ ?_
  obtain ⟨paneId, root⟩ := pane
  cases root with
  | none =>
    refine ⟨⟨paneId, none, []⟩, ⟨0, fun _ _ ↦ rfl⟩, rfl, rfl, ?_, fun _ ↦ rfl⟩
    intro root h
    cases h
  | some root =>
    obtain ⟨processes, hends, hlists⟩ := walk_endsWith table root
    refine ⟨⟨paneId, some root, processes⟩, hends.map _, rfl, rfl, ?_, ?_⟩
    · intro root' h
      exact Option.some.inj h ▸ hlists
    · intro h
      cases h

end Kmux.Processes
