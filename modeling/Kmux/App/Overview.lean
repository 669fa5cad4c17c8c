import Kmux.Daemon.ProcessStats
import Kmux.Session.Layout
import Mathlib.Data.List.TakeWhile
import Mathlib.Data.UInt

/-!
# The process overview

A client joins its sessions with the process trees of the panes into one list of rows, in which a
row says by its depth what it hangs under. The rows of a pane's processes are found by a walk that
marks nothing. On a list of processes with a cycle among them it would not end; the lists of the
daemon are trees, and on these every process is pushed by its one parent.

Memory is added up in machine words, in whatever order, so that a pane and the rows under it have
the same sum.
-/

namespace Kmux.Overview

open Relation Traversal Processes

variable {C : Type}

/-! ## Rows -/

inductive OverviewRowKind
  | session
  | tab
  | pane
  | process
  deriving DecidableEq, Repr

structure OverviewRow (C : Type) where
  depth : ℕ
  kind : OverviewRowKind
  label : String
  detail : String
  cpuPercent : C
  memBytes : UInt64
  pid : Option ℤ
  peer : Option String

/-- A depth is a byte, and one more saturates. -/
def deeper (depth : ℕ) : ℕ := min 255 (depth + 1)

/-- The row of a process. -/
def processRow (depth : ℕ) (proc : ProcessSample C) : OverviewRow C where
  depth := depth
  kind := .process
  label := proc.name
  detail := proc.cmd
  cpuPercent := proc.cpuPercent
  memBytes := proc.memBytes
  pid := some proc.pid
  peer := none

/-! ## The rows of one tree -/

/-- The process under an id; of several, the last that was put into the map. -/
def byPid (processes : List (ProcessSample C)) (pid : ℤ) : Option (ProcessSample C) :=
  processes.reverse.find? (·.pid = pid)

def sortPids (pids : List ℤ) : List ℤ := pids.mergeSort fun p q ↦ decide (p ≤ q)

/-- The processes that name this parent. -/
def kidsOf (processes : List (ProcessSample C)) (ppid : Option ℤ) : List ℤ :=
  sortPids ((processes.filter (·.ppid = ppid)).map ProcessSample.pid)

/-- The loop over the stack, the top of which comes first. Children are pushed in reverse, so that
the smallest comes out on top. -/
def processLoop (processes : List (ProcessSample C)) :
    ℕ → List (OverviewRow C) → List (ℤ × ℕ) → Option (List (OverviewRow C))
  | 0, _, _ => none
  | _ + 1, rows, [] => some rows
  | fuel + 1, rows, (pid, depth) :: stack =>
    match byPid processes pid with
    | none => processLoop processes fuel rows stack
    | some proc =>
      processLoop processes fuel (rows ++ [processRow depth proc])
        ((kidsOf processes (some pid)).map (fun kid ↦ (kid, deeper depth)) ++ stack)

/-- The rows that the tree of a pane appends. -/
def pushProcessRows (fuel : ℕ) (tree : PaneProcesses C) : Option (List (OverviewRow C)) :=
  processLoop tree.processes fuel [] ((kidsOf tree.processes none).map fun pid ↦ (pid, 3))

/-! ## The rows of the sessions -/

structure PaneInfo where
  paneId : String
  paneIndex : ℕ
  program : String
  title : String

structure TabInfo where
  name : String
  layout : LayoutNode

structure SessionEntry where
  wordId : String
  name : String
  cwd : String
  panes : List PaneInfo
  tabs : List TabInfo
  peer : Option String

def formatPaneId (wordId : String) (paneIndex : ℕ) : String := wordId ++ "/" ++ toString paneIndex

/-- The window title, else the program, else the id. -/
def paneLabel (info : PaneInfo) : String :=
  if info.title ≠ "" then info.title
  else if info.program ≠ "" then info.program
  else info.paneId

/-- The tree of a pane; of several, the last that was put into the map. -/
def byPane (snapshot : List (PaneProcesses C)) (paneId : String) : Option (PaneProcesses C) :=
  snapshot.reverse.find? (·.paneId = paneId)

variable [Zero C] [Add C]

def treeTotals (tree : PaneProcesses C) : C × UInt64 :=
  tree.processes.foldl (fun total p ↦ (total.1 + p.cpuPercent, total.2 + p.memBytes)) (0, 0)

/-- The totals of several panes; those without a tree count for nothing. -/
def aggregatePaneIds (snapshot : List (PaneProcesses C)) (paneIds : List String) : C × UInt64 :=
  paneIds.foldl
    (fun total paneId ↦
      match byPane snapshot paneId with
      | some tree => (total.1 + (treeTotals tree).1, total.2 + (treeTotals tree).2)
      | none => total)
    (0, 0)

def paneRow (snapshot : List (PaneProcesses C)) (entry : SessionEntry) (paneIndex : ℕ) :
    OverviewRow C :=
  let paneId := formatPaneId entry.wordId paneIndex
  let info := entry.panes.find? (·.paneIndex = paneIndex)
  let tree := byPane snapshot paneId
  let totals := (tree.map treeTotals).getD (0, 0)
  { depth := 2, kind := .pane, label := (info.map paneLabel).getD paneId, detail := paneId,
    cpuPercent := totals.1, memBytes := totals.2, pid := tree.bind (·.rootPid), peer := none }

/-- The row of a pane and the rows of its processes. -/
def paneRows (snapshot : List (PaneProcesses C)) (fuel : ℕ) (entry : SessionEntry)
    (paneIndex : ℕ) : Option (List (OverviewRow C)) :=
  match byPane snapshot (formatPaneId entry.wordId paneIndex) with
  | none => some [paneRow snapshot entry paneIndex]
  | some tree => (pushProcessRows fuel tree).map (paneRow snapshot entry paneIndex :: ·)

def tabRow (snapshot : List (PaneProcesses C)) (entry : SessionEntry) (tab : TabInfo) :
    OverviewRow C :=
  let totals := aggregatePaneIds snapshot (tab.layout.leaves.map (formatPaneId entry.wordId))
  { depth := 1, kind := .tab, label := tab.name, detail := "", cpuPercent := totals.1,
    memBytes := totals.2, pid := none, peer := none }

/-- The row of a tab and the rows of its panes. -/
def tabRows (snapshot : List (PaneProcesses C)) (fuel : ℕ) (entry : SessionEntry) (tab : TabInfo) :
    Option (List (OverviewRow C)) :=
  (tab.layout.leaves.mapM (paneRows snapshot fuel entry)).map fun rows ↦
    tabRow snapshot entry tab :: rows.flatten

def sessionRow (snapshot : List (PaneProcesses C)) (entry : SessionEntry) : OverviewRow C :=
  let totals := aggregatePaneIds snapshot (entry.panes.map PaneInfo.paneId)
  { depth := 0, kind := .session, label := entry.name, detail := entry.cwd,
    cpuPercent := totals.1, memBytes := totals.2, pid := none, peer := entry.peer }

/-- The row of a session and the rows of its tabs. -/
def sessionRows (snapshot : List (PaneProcesses C)) (fuel : ℕ) (entry : SessionEntry) :
    Option (List (OverviewRow C)) :=
  (entry.tabs.mapM (tabRows snapshot fuel entry)).map fun rows ↦
    sessionRow snapshot entry :: rows.flatten

def buildOverviewRows (snapshot : List (PaneProcesses C)) (fuel : ℕ)
    (sessions : List SessionEntry) : Option (List (OverviewRow C)) :=
  (sessions.mapM (sessionRows snapshot fuel)).map List.flatten

/-! ## The walk as a descent -/

section Tree

omit [Zero C] [Add C]

/-- What a process pushes, if it is there. -/
def kids (processes : List (ProcessSample C)) (pid : ℤ) : Option (List ℤ) :=
  (byPid processes pid).map fun _ ↦ kidsOf processes (some pid)

/-- The processes popped, each with its depth. -/
def shown (processes : List (ProcessSample C)) (found : List (ℤ × ℕ)) :
    List (ProcessSample C × ℕ) :=
  found.filterMap fun p ↦ (byPid processes p.1).map fun proc ↦ (proc, p.2)

def rowsOf (order : List (ProcessSample C × ℕ)) : List (OverviewRow C) :=
  order.map fun p ↦ processRow p.2 p.1

theorem processLoop_eq (processes : List (ProcessSample C)) (fuel : ℕ)
    (found stack : List (ℤ × ℕ)) :
    processLoop processes fuel (rowsOf (shown processes found)) stack =
      (descend (kids processes) deeper fuel found stack).map fun found ↦
        rowsOf (shown processes found) := by
  induction fuel generalizing found stack with
  | zero => rfl
  | succ fuel ih =>
    rcases stack with _ | ⟨⟨pid, depth⟩, stack⟩
    · rfl
    · rw [processLoop, descend]
      cases hproc : byPid processes pid with
      | none => simpa [kids, hproc] using ih found stack
      | some proc =>
        have hrows : rowsOf (shown processes (found ++ [(pid, depth)])) =
            rowsOf (shown processes found) ++ [processRow depth proc] := by
          simp [rowsOf, shown, List.filterMap_append, hproc]
        simp only [kids, hproc, Option.map_some]
        rw [← hrows]
        exact ih _ _

theorem mem_sortPids {pids : List ℤ} {pid : ℤ} : pid ∈ sortPids pids ↔ pid ∈ pids :=
  (List.mergeSort_perm _ _).mem_iff

theorem mem_kidsOf {processes : List (ProcessSample C)} {ppid : Option ℤ} {pid : ℤ} :
    pid ∈ kidsOf processes ppid ↔ ∃ p ∈ processes, p.ppid = ppid ∧ p.pid = pid := by
  simp [kidsOf, mem_sortPids, and_assoc]

theorem nodup_kidsOf {processes : List (ProcessSample C)}
    (h : (processes.map ProcessSample.pid).Nodup) (ppid : Option ℤ) :
    (kidsOf processes ppid).Nodup :=
  ((List.mergeSort_perm _ _).nodup_iff).mpr
    (h.sublist ((List.filter_sublist (l := processes)).map ProcessSample.pid))

theorem byPid_eq_some {processes : List (ProcessSample C)}
    (h : (processes.map ProcessSample.pid).Nodup) {pid : ℤ} {p : ProcessSample C} :
    byPid processes pid = some p ↔ p ∈ processes ∧ p.pid = pid := by
  constructor
  · exact fun hfind ↦ ⟨List.mem_reverse.mp (List.mem_of_find?_eq_some hfind),
      by simpa using List.find?_some hfind⟩
  · rintro ⟨hmem, rfl⟩
    obtain ⟨found, hfound⟩ : ∃ found, byPid processes p.pid = some found :=
      Option.isSome_iff_exists.mp
        (List.find?_isSome.mpr ⟨p, List.mem_reverse.mpr hmem, by simp⟩)
    have hpid : found.pid = p.pid := by simpa using List.find?_some hfound
    have hfoundMem := List.mem_reverse.mp (List.mem_of_find?_eq_some hfound)
    rw [hfound, List.inj_on_of_nodup_map h hfoundMem hmem hpid]

variable {table : ProcTable C} {root : ℤ} {processes : List (ProcessSample C)}

theorem nodup_of_listsReachable (h : ListsReachable table root processes) :
    (processes.map ProcessSample.pid).Nodup :=
  List.pairwise_map.mpr (h.sorted.imp fun hlt ↦ ne_of_lt hlt)

/-- A process that is listed and is not the root is filed under its parent. -/
theorem ppid_of_mem (h : ListsReachable table root processes) {p : ProcessSample C}
    (hp : p ∈ processes) :
    (p.pid = root ∧ p.ppid = none) ∨
      p.pid ≠ root ∧ ∃ parent, p.ppid = some parent ∧ ChildLink table parent p.pid := by
  obtain ⟨row, hrow, hreach, rfl⟩ := (h.mem_iff p).mp hp
  by_cases hroot : row.pid = root
  · exact .inl ⟨hroot, if_pos hroot⟩
  · right
    refine ⟨hroot, ?_⟩
    rcases ReflTransGen.cases_tail hreach with heq | ⟨parent, -, hlink⟩
    · exact absurd heq hroot
    · obtain ⟨child, hchild, hppid, hpid⟩ := hlink.2
      rw [List.inj_on_of_nodup_map table.nodup hchild hrow hpid] at hppid
      exact ⟨parent, (if_neg hroot).trans hppid, hlink⟩

/-- Among the processes that are listed, the edges are the child links that do not lead back to the
root. -/
theorem edge_kids_iff (h : ListsReachable table root processes) {parent child : ℤ}
    (hparent : ReflTransGen (ChildLink table) root parent) :
    Edge (kids processes) parent child ↔ ChildLink table parent child ∧ child ≠ root := by
  have hnodup := nodup_of_listsReachable h
  constructor
  · rintro ⟨pids, hpids, hmem⟩
    obtain ⟨proc, hproc, rfl⟩ := Option.map_eq_some_iff.mp hpids
    obtain ⟨p, hp, hppid, rfl⟩ := mem_kidsOf.mp hmem
    rcases ppid_of_mem h hp with ⟨-, hnone⟩ | ⟨hne, parent', hsome, hlink⟩
    · simp [hppid] at hnone
    · rw [hppid] at hsome
      exact ⟨Option.some.inj hsome ▸ hlink, hne⟩
  · rintro ⟨hlink, hne⟩
    obtain ⟨⟨row, hrow, rfl⟩, child', hchild, hppid, rfl⟩ := hlink
    have hmem : sample root row ∈ processes := (h.mem_iff _).mpr ⟨row, hrow, hparent, rfl⟩
    have hlink : ChildLink table row.pid child'.pid :=
      ⟨⟨row, hrow, rfl⟩, child', hchild, hppid, rfl⟩
    have hmem' : sample root child' ∈ processes :=
      (h.mem_iff _).mpr ⟨child', hchild, hparent.tail hlink, rfl⟩
    refine ⟨_, ?_, mem_kidsOf.mpr ⟨_, hmem', (if_neg hne).trans hppid, rfl⟩⟩
    exact Option.map_eq_some_iff.mpr ⟨_, (byPid_eq_some hnodup).mpr ⟨hmem, rfl⟩, rfl⟩

/-- The root cannot be pushed again, and nothing else has two parents. -/
theorem isTree_kids (h : ListsReachable table root processes) : IsTree (kids processes) root where
  nodup pid pids hpids := by
    obtain ⟨proc, -, rfl⟩ := Option.map_eq_some_iff.mp hpids
    exact nodup_kidsOf (nodup_of_listsReachable h) _
  unique x x' y hx hx' := by
    obtain ⟨pids, hpids, hmem⟩ := hx
    obtain ⟨pids', hpids', hmem'⟩ := hx'
    obtain ⟨-, -, rfl⟩ := Option.map_eq_some_iff.mp hpids
    obtain ⟨-, -, rfl⟩ := Option.map_eq_some_iff.mp hpids'
    obtain ⟨p, hp, hppid, rfl⟩ := mem_kidsOf.mp hmem
    obtain ⟨p', hp', hppid', hpid⟩ := mem_kidsOf.mp hmem'
    rw [List.inj_on_of_nodup_map (nodup_of_listsReachable h) hp' hp hpid, hppid] at hppid'
    exact Option.some.inj hppid'
  root x hx := by
    obtain ⟨pids, hpids, hmem⟩ := hx
    obtain ⟨-, -, rfl⟩ := Option.map_eq_some_iff.mp hpids
    obtain ⟨p, hp, hppid, hpid⟩ := mem_kidsOf.mp hmem
    rcases ppid_of_mem h hp with ⟨-, hnone⟩ | ⟨hne, -⟩
    · simp [hppid] at hnone
    · exact hne hpid

/-- What can be reached in the table can be reached in the list. -/
theorem reach_kids (h : ListsReachable table root processes) {pid : ℤ}
    (hreach : ReflTransGen (ChildLink table) root pid) :
    ReflTransGen (Edge (kids processes)) root pid := by
  induction hreach with
  | refl => exact .refl
  | @tail parent child hparent hlink ih =>
    by_cases hchild : child = root
    · exact hchild ▸ .refl
    · exact ih.tail ((edge_kids_iff h hparent).mpr ⟨hlink, hchild⟩)

/-! ## What the rows show -/

/-- The order in which the rows show the processes of a tree, and the depth of each: every process
once, behind its parent, at its distance from the root. -/
structure Shows (table : ProcTable C) (root : ℤ) (processes : List (ProcessSample C))
    (order : List (ProcessSample C × ℕ)) : Prop where
  perm : (order.map Prod.fst).Perm processes
  depth : ∀ p ∈ order, ∃ n, IsDistance (ChildLink table) root p.1.pid n ∧ p.2 = min 255 (3 + n)
  parentFirst : ∀ front p back, order = front ++ p :: back → ∀ parent, p.1.ppid = some parent →
    ∃ q ∈ front, q.1.pid = parent

theorem mem_shown (h : ListsReachable table root processes) {found : List (ℤ × ℕ)}
    {p : ProcessSample C × ℕ} :
    p ∈ shown processes found ↔ p.1 ∈ processes ∧ (p.1.pid, p.2) ∈ found := by
  simp only [shown, List.mem_filterMap, Option.map_eq_some_iff,
    byPid_eq_some (nodup_of_listsReachable h)]
  constructor
  · rintro ⟨⟨pid, d⟩, hfound, proc, ⟨hproc, rfl⟩, rfl⟩
    exact ⟨hproc, hfound⟩
  · rintro ⟨hproc, hfound⟩
    exact ⟨_, hfound, p.1, ⟨hproc, rfl⟩, rfl⟩

theorem map_pid_shown {found : List (ℤ × ℕ)}
    (hfound : ∀ pid ∈ found.map Prod.fst, (byPid processes pid).isSome) :
    (shown processes found).map (·.1.pid) = found.map Prod.fst := by
  induction found with
  | nil => rfl
  | cons p found ih =>
    obtain ⟨proc, hproc⟩ := Option.isSome_iff_exists.mp (hfound p.1 (by simp))
    have hpid : proc.pid = p.1 := by simpa using List.find?_some hproc
    have ih := ih fun pid hpid ↦ hfound pid (List.mem_cons_of_mem _ hpid)
    simpa [shown, hproc, hpid] using ih

/-- A child link lengthens the distance by one. -/
theorem isDistance_child {parent child : ℤ} {n : ℕ}
    (h : IsDistance (ChildLink table) root parent n) (hlink : ChildLink table parent child)
    (hne : child ≠ root) : IsDistance (ChildLink table) root child (n + 1) := by
  refine h.tail hlink (fun parent' hlink' ↦ ?_) hne
  obtain ⟨row, hrow, hppid, hpid⟩ := hlink.2
  obtain ⟨row', hrow', hppid', hpid'⟩ := hlink'.2
  rw [List.inj_on_of_nodup_map table.nodup hrow' hrow (hpid'.trans hpid.symm), hppid] at hppid'
  exact (Option.some.inj hppid').symm

/-- The only process without a parent is the root. -/
theorem kidsOf_none (h : ListsReachable table root processes)
    (hroot : ∃ row ∈ table.rows, row.pid = root) : kidsOf processes none = [root] := by
  have hmem : ∀ pid, pid ∈ kidsOf processes none ↔ pid ∈ [root] := by
    intro pid
    rw [mem_kidsOf, List.mem_singleton]
    constructor
    · rintro ⟨p, hp, hppid, rfl⟩
      rcases ppid_of_mem h hp with ⟨hpid, -⟩ | ⟨-, parent, hsome, -⟩
      · exact hpid
      · simp [hppid] at hsome
    · rintro rfl
      obtain ⟨row, hrow, rfl⟩ := hroot
      exact ⟨sample row.pid row, (h.mem_iff _).mpr ⟨row, hrow, .refl, rfl⟩, if_pos rfl, rfl⟩
  have hperm := (List.perm_ext_iff_of_nodup (nodup_kidsOf (nodup_of_listsReachable h) none)
    (List.nodup_singleton root)).mpr hmem
  exact List.perm_singleton.mp hperm

/-- Without its root a tree is empty. -/
theorem eq_nil_of_no_root (h : ListsReachable table root processes)
    (hroot : ¬∃ row ∈ table.rows, row.pid = root) : processes = [] := by
  refine List.eq_nil_iff_forall_not_mem.mpr fun p hp ↦ ?_
  obtain ⟨row, hrow, hreach, -⟩ := (h.mem_iff p).mp hp
  rcases ReflTransGen.cases_head hreach with heq | ⟨child, hlink, -⟩
  · exact hroot ⟨row, hrow, heq.symm⟩
  · exact hroot hlink.1

theorem pushProcessRows_nil {tree : PaneProcesses C} (h : tree.processes = []) :
    EndsWith (pushProcessRows · tree) [] := by
  refine ⟨1, fun n hn ↦ ?_⟩
  obtain ⟨fuel, rfl⟩ : ∃ fuel, n = fuel + 1 := ⟨n - 1, by omega⟩
  have hnone : kidsOf ([] : List (ProcessSample C)) none = [] := by simp [kidsOf, sortPids]
  change pushProcessRows (fuel + 1) tree = _
  rw [pushProcessRows, h, hnone]
  rfl

/-- The rows of a tree of the daemon are made, and they show it. -/
theorem pushProcessRows_endsWith {tree : PaneProcesses C}
    (h : ListsReachable table root tree.processes) :
    ∃ order, EndsWith (pushProcessRows · tree) (rowsOf order) ∧
      Shows table root tree.processes order := by
  by_cases hroot : ∃ row ∈ table.rows, row.pid = root
  · have hnodes : ∀ pid, (kids tree.processes pid).isSome →
        pid ∈ tree.processes.map ProcessSample.pid := by
      intro pid hpid
      obtain ⟨proc, hproc⟩ := Option.isSome_iff_exists.mp (Option.isSome_map.symm.trans hpid)
      exact List.mem_map.mpr ⟨proc, (byPid_eq_some (nodup_of_listsReachable h)).mp hproc⟩
    obtain ⟨out, hends, hnodup, hmem, hfirst⟩ := descend_endsWith deeper (isTree_kids h)
      hnodes 3
    obtain ⟨enough, hout⟩ := id hends
    have hknown : ∀ pid ∈ out.map Prod.fst, (byPid tree.processes pid).isSome :=
      fun pid hpid ↦ Option.isSome_map.symm.trans ((hmem pid).mp hpid).1
    have hdepth : ∀ p ∈ out, ∃ n, IsDistance (ChildLink table) root p.1 n ∧
        p.2 = min 255 (3 + n) := by
      refine descend_forall (P := fun pid d ↦ ∃ n, IsDistance (ChildLink table) root pid n ∧
        d = min 255 (3 + n)) ?_ (by simp) ?_ (hout enough (le_refl _))
      · rintro parent d child ⟨n, hn, rfl⟩ hedge
        obtain ⟨hlink, hne⟩ := (edge_kids_iff h hn.reflTransGen).mp hedge
        refine ⟨n + 1, isDistance_child hn hlink hne, ?_⟩
        rw [deeper]
        omega
      · intro p hp
        rw [List.mem_singleton.mp hp]
        exact ⟨0, isDistance_refl _ root, rfl⟩
    refine ⟨shown tree.processes out, ?_, ?_, fun p hp ↦ ?_, fun front p back heq parent hppid ↦ ?_⟩
    · have hloop : ∀ fuel, pushProcessRows fuel tree =
          (descend (kids tree.processes) deeper fuel [] [(root, 3)]).map fun found ↦
            rowsOf (shown tree.processes found) := by
        intro fuel
        rw [pushProcessRows, kidsOf_none h hroot]
        exact processLoop_eq tree.processes fuel [] [(root, 3)]
      simp only [hloop]
      exact hends.map _
    · have hpids := map_pid_shown hknown
      have hshown : ((shown tree.processes out).map Prod.fst).Nodup := by
        refine List.Nodup.of_map ProcessSample.pid ?_
        rw [List.map_map]
        exact hpids ▸ hnodup
      have hprocesses := List.Nodup.of_map ProcessSample.pid (nodup_of_listsReachable h)
      refine (List.perm_ext_iff_of_nodup hshown hprocesses).mpr fun p ↦ ?_
      rw [List.mem_map]
      constructor
      · rintro ⟨q, hq, rfl⟩
        exact ((mem_shown h).mp hq).1
      · intro hp
        obtain ⟨row, hrow, hreach, rfl⟩ := (h.mem_iff p).mp hp
        have hsome : (kids tree.processes row.pid).isSome := by
          rw [kids, Option.isSome_map, Option.isSome_iff_exists]
          exact ⟨_, (byPid_eq_some (nodup_of_listsReachable h)).mpr ⟨hp, rfl⟩⟩
        obtain ⟨⟨pid, d⟩, hmemOut, rfl⟩ :=
          List.mem_map.mp ((hmem row.pid).mpr ⟨hsome, reach_kids h hreach⟩)
        exact ⟨(sample root row, d), (mem_shown h).mpr ⟨hp, hmemOut⟩, rfl⟩
    · exact hdepth _ ((mem_shown h).mp hp).2
    · have hp : p.1 ∈ tree.processes :=
        ((mem_shown h (p := p)).mp (heq ▸ List.mem_append_right _ List.mem_cons_self)).1
      have hpids := map_pid_shown hknown
      rw [heq, List.map_append, List.map_cons] at hpids
      rcases hfirst _ _ _ hpids.symm with hpid | ⟨q, hq, hedge⟩
      · rcases ppid_of_mem h hp with ⟨-, hnone⟩ | ⟨hne, -⟩
        · simp [hppid] at hnone
        · exact absurd hpid hne
      · obtain ⟨pids, hkids, hchild⟩ := hedge
        obtain ⟨-, -, rfl⟩ := Option.map_eq_some_iff.mp hkids
        obtain ⟨p', hp', hppid', hpid'⟩ := mem_kidsOf.mp hchild
        rw [List.inj_on_of_nodup_map (nodup_of_listsReachable h) hp' hp hpid', hppid] at hppid'
        rw [Option.some.inj hppid']
        exact List.mem_map.mp hq
  · have hnil := eq_nil_of_no_root h hroot
    refine ⟨[], pushProcessRows_nil hnil, ?_, by simp, by simp⟩
    rw [hnil]
    exact .refl _

end Tree

/-! ## Memory -/

theorem sum_perm {l l' : List UInt64} (h : l.Perm l') : l.sum = l'.sum := by
  induction h with
  | nil => rfl
  | cons a _ ih => rw [List.sum_cons, List.sum_cons, ih]
  | swap a b l => simp only [List.sum_cons, ← UInt64.add_assoc, UInt64.add_comm a b]
  | trans _ _ ih ih' => exact ih.trans ih'

theorem treeTotals_snd (tree : PaneProcesses C) :
    (treeTotals tree).2 = (tree.processes.map ProcessSample.memBytes).sum := by
  have hfold : ∀ (l : List (ProcessSample C)) (total : C × UInt64),
      (l.foldl (fun total p ↦ (total.1 + p.cpuPercent, total.2 + p.memBytes)) total).2 =
        total.2 + (l.map ProcessSample.memBytes).sum := by
    intro l
    induction l with
    | nil => intro total; exact (UInt64.add_zero _).symm
    | cons p l ih =>
      intro total
      rw [List.foldl_cons, ih, List.map_cons, List.sum_cons, UInt64.add_assoc]
  rw [treeTotals, hfold, UInt64.zero_add]

/-- The memory of a tree is the memory of the rows that show it. -/
theorem sum_rowsOf {table : ProcTable C} {root : ℤ} {tree : PaneProcesses C}
    {order : List (ProcessSample C × ℕ)} (h : Shows table root tree.processes order) :
    (treeTotals tree).2 = ((rowsOf order).map OverviewRow.memBytes).sum := by
  rw [treeTotals_snd, ← sum_perm (h.perm.map ProcessSample.memBytes), rowsOf, List.map_map,
    List.map_map]
  rfl

/-! ## Every pane row -/

def isProcess (row : OverviewRow C) : Bool := row.kind = .process

/-- Every pane row has the memory of the process rows that follow it. -/
def PaneSums (rows : List (OverviewRow C)) : Prop :=
  ∀ front row back, rows = front ++ row :: back → row.kind = .pane →
    row.memBytes = ((back.takeWhile isProcess).map OverviewRow.memBytes).sum

/-- Rows that can be put behind others: the first of them is no process row. -/
structure Block (rows : List (OverviewRow C)) : Prop where
  sums : PaneSums rows
  takeWhile : rows.takeWhile isProcess = []

section Block

omit [Zero C] [Add C]

theorem Block.nil : Block ([] : List (OverviewRow C)) where
  sums := by simp [PaneSums]
  takeWhile := rfl

theorem Block.append {rows rows' : List (OverviewRow C)} (h : Block rows) (h' : Block rows') :
    Block (rows ++ rows') where
  sums front row back heq hkind := by
    rcases List.append_eq_append_iff.mp heq with ⟨mid, hfront, hrest⟩ | ⟨mid, hrows, hrest⟩
    · exact h'.sums mid row back hrest hkind
    · cases mid with
      | nil =>
        rw [List.nil_append] at hrest
        exact h'.sums [] row back hrest.symm hkind
      | cons first mid =>
        rw [List.cons_append] at hrest
        obtain ⟨rfl, rfl⟩ := List.cons.inj hrest
        rw [h.sums front row mid hrows hkind, List.takeWhile_append, h'.takeWhile]
        split_ifs with hall
        · rw [List.append_nil, (List.takeWhile_sublist _).eq_of_length hall]
        · rfl
  takeWhile := by
    rw [List.takeWhile_append, h.takeWhile]
    split_ifs with hnil
    · rw [h'.takeWhile, List.append_nil]
      exact List.eq_nil_of_length_eq_zero hnil.symm
    · rfl

theorem Block.flatten {blocks : List (List (OverviewRow C))} (h : ∀ rows ∈ blocks, Block rows) :
    Block blocks.flatten := by
  induction blocks with
  | nil => exact .nil
  | cons rows blocks ih =>
    exact (h rows List.mem_cons_self).append
      (ih fun rows' hrows' ↦ h rows' (List.mem_cons_of_mem rows hrows'))

/-- A tab or session row in front. -/
theorem Block.cons {row : OverviewRow C} {rows : List (OverviewRow C)} (h : Block rows)
    (hpane : row.kind ≠ .pane) (hprocess : row.kind ≠ .process) : Block (row :: rows) where
  sums front other back heq hkind := by
    cases front with
    | nil =>
      obtain ⟨rfl, -⟩ := List.cons.inj heq
      exact absurd hkind hpane
    | cons first front => exact h.sums front other back (List.cons.inj heq).2 hkind
  takeWhile := by
    have hrow : isProcess row = false := by simp [isProcess, hprocess]
    rw [List.takeWhile_cons, hrow]
    rfl

/-- A pane row and the rows of its tree. -/
theorem Block.pane {row : OverviewRow C} (order : List (ProcessSample C × ℕ))
    (hkind : row.kind = .pane)
    (hmem : row.memBytes = ((rowsOf order).map OverviewRow.memBytes).sum) :
    Block (row :: rowsOf order) where
  sums front other back heq hother := by
    have hrows : ∀ r ∈ rowsOf order, isProcess r = true := by
      intro r hr
      obtain ⟨p, -, rfl⟩ := List.mem_map.mp hr
      rfl
    cases front with
    | nil =>
      obtain ⟨rfl, rfl⟩ := List.cons.inj heq
      rw [List.takeWhile_eq_self_iff.mpr hrows]
      exact hmem
    | cons first front =>
      have hmem : other ∈ rowsOf order := by
        rw [(List.cons.inj heq).2]
        simp
      have hprocess := hrows other hmem
      simp [isProcess, hother] at hprocess
  takeWhile := by
    have hrow : isProcess row = false := by simp [isProcess, hkind]
    rw [List.takeWhile_cons, hrow]
    rfl

theorem exists_of_forall₂ {β γ : Type} {R : β → γ → Prop} {l : List β} {l' : List γ}
    (h : List.Forall₂ R l l') : ∀ y ∈ l', ∃ x ∈ l, R x y := by
  induction h with
  | nil => simp
  | @cons x y l l' hxy _ ih =>
    intro z hz
    rcases List.mem_cons.mp hz with rfl | hz
    · exact ⟨x, List.mem_cons_self, hxy⟩
    · obtain ⟨x', hx', hR⟩ := ih z hz
      exact ⟨x', List.mem_cons_of_mem x hx', hR⟩

/-- Blocks that were made one for each entry. -/
theorem Block.flatten_of_forall₂ {β : Type} {l : List β} {blocks : List (List (OverviewRow C))}
    (h : List.Forall₂ (fun _ rows ↦ Block rows) l blocks) : Block blocks.flatten :=
  .flatten fun rows hrows ↦ (exists_of_forall₂ h rows hrows).elim fun _ hx ↦ hx.2

/-- A tree that some daemon has built; only its pane may have been given another name since. -/
def Built (tree : PaneProcesses C) : Prop :=
  tree.processes = [] ∨ ∃ table root, ListsReachable table root tree.processes

theorem built_of_isTreeOf {table : ProcTable C} {pane : String × Option ℤ} {tree : PaneProcesses C}
    (h : IsTreeOf table pane tree) : Built tree := by
  cases hroot : pane.2 with
  | none => exact .inl (h.no_root hroot)
  | some root => exact .inr ⟨table, root, h.processes root hroot⟩

end Block

variable {snapshot : List (PaneProcesses C)}

theorem paneRows_endsWith (hbuilt : ∀ tree ∈ snapshot, Built tree) (entry : SessionEntry)
    (paneIndex : ℕ) :
    ∃ rows, EndsWith (paneRows snapshot · entry paneIndex) rows ∧ Block rows := by
  cases htree : byPane snapshot (formatPaneId entry.wordId paneIndex) with
  | none =>
    have hmem : (paneRow snapshot entry paneIndex).memBytes = 0 := by simp [paneRow, htree]
    refine ⟨[paneRow snapshot entry paneIndex], ⟨0, fun n _ ↦ ?_⟩, .pane [] rfl hmem⟩
    simp only [paneRows, htree]
  | some tree =>
    have hmem : (paneRow snapshot entry paneIndex).memBytes = (treeTotals tree).2 := by
      simp [paneRow, htree]
    have hrows : ∀ order : List (ProcessSample C × ℕ),
        EndsWith (pushProcessRows · tree) (rowsOf order) →
        (treeTotals tree).2 = ((rowsOf order).map OverviewRow.memBytes).sum →
        ∃ rows, EndsWith (paneRows snapshot · entry paneIndex) rows ∧ Block rows := by
      intro order hends hsum
      refine ⟨paneRow snapshot entry paneIndex :: rowsOf order, ?_,
        .pane order rfl (hmem.trans hsum)⟩
      simp only [paneRows, htree]
      exact hends.map _
    rcases hbuilt tree (List.mem_reverse.mp (List.mem_of_find?_eq_some htree)) with
      hnil | ⟨table, root, hlists⟩
    · refine hrows [] (pushProcessRows_nil hnil) ?_
      rw [treeTotals_snd, hnil]
      rfl
    · obtain ⟨order, hends, hshows⟩ := pushProcessRows_endsWith hlists
      exact hrows order hends (sum_rowsOf hshows)

theorem tabRows_endsWith (hbuilt : ∀ tree ∈ snapshot, Built tree) (entry : SessionEntry)
    (tab : TabInfo) : ∃ rows, EndsWith (tabRows snapshot · entry tab) rows ∧ Block rows := by
  obtain ⟨rows, hends, hblocks⟩ := endsWith_mapM (R := fun _ rows ↦ Block rows)
    (f := fun fuel ↦ paneRows snapshot fuel entry) (l := tab.layout.leaves)
    fun paneIndex _ ↦ paneRows_endsWith hbuilt entry paneIndex
  refine ⟨_, hends.map _, .cons (.flatten_of_forall₂ hblocks) ?_ ?_⟩
  · exact fun h ↦ OverviewRowKind.noConfusion h
  · exact fun h ↦ OverviewRowKind.noConfusion h

theorem sessionRows_endsWith (hbuilt : ∀ tree ∈ snapshot, Built tree) (entry : SessionEntry) :
    ∃ rows, EndsWith (sessionRows snapshot · entry) rows ∧ Block rows := by
  obtain ⟨rows, hends, hblocks⟩ := endsWith_mapM (R := fun _ rows ↦ Block rows)
    (f := fun fuel ↦ tabRows snapshot fuel entry) (l := entry.tabs)
    fun tab _ ↦ tabRows_endsWith hbuilt entry tab
  refine ⟨_, hends.map _, .cons (.flatten_of_forall₂ hblocks) ?_ ?_⟩
  · exact fun h ↦ OverviewRowKind.noConfusion h
  · exact fun h ↦ OverviewRowKind.noConfusion h

/-- The overview is built, and every pane row has the memory of its process rows. -/
theorem buildOverviewRows_endsWith (hbuilt : ∀ tree ∈ snapshot, Built tree)
    (sessions : List SessionEntry) :
    ∃ rows, EndsWith (buildOverviewRows snapshot · sessions) rows ∧ PaneSums rows := by
  obtain ⟨rows, hends, hblocks⟩ := endsWith_mapM (R := fun _ rows ↦ Block rows)
    (f := fun fuel ↦ sessionRows snapshot fuel) (l := sessions)
    fun entry _ ↦ sessionRows_endsWith hbuilt entry
  exact ⟨_, hends.map _, (Block.flatten_of_forall₂ hblocks).sums⟩

/-- For every process table and all roots the trees are built, and each lists exactly what can be
reached from its root. On these lists the client's walk ends, with every process once, behind its
parent and at its distance from the root. Whatever snapshot is put together from such trees, every
pane row of the overview has the memory of its process rows. -/
theorem process_overview (table : ProcTable C) (roots : List (String × Option ℤ)) :
    ∃ trees, EndsWith (buildPaneTrees table · roots) trees ∧
      List.Forall₂ (IsTreeOf table) roots trees ∧
      (∀ tree ∈ trees, ∃ order, EndsWith (pushProcessRows · tree) (rowsOf order) ∧
        (∀ root, tree.rootPid = some root → Shows table root tree.processes order) ∧
        (tree.rootPid = none → order = []) ∧
        (treeTotals tree).2 = ((rowsOf order).map OverviewRow.memBytes).sum) ∧
      ∀ snapshot sessions, (∀ tree ∈ snapshot, tree ∈ trees) →
        ∃ rows, EndsWith (buildOverviewRows snapshot · sessions) rows ∧ PaneSums rows := by
  obtain ⟨trees, hends, htrees⟩ := buildPaneTrees_endsWith table roots
  refine ⟨trees, hends, htrees, fun tree htree ↦ ?_, fun snapshot sessions hsnapshot ↦ ?_⟩
  · obtain ⟨pane, -, hpane⟩ := exists_of_forall₂ htrees tree htree
    cases hroot : pane.2 with
    | none =>
      have hnil := hpane.no_root hroot
      refine ⟨[], pushProcessRows_nil hnil, fun root h ↦ ?_, fun _ ↦ rfl, ?_⟩
      · rw [hpane.rootPid, hroot] at h
        cases h
      · rw [treeTotals_snd, hnil]
        rfl
    | some root =>
      obtain ⟨order, hends, hshows⟩ := pushProcessRows_endsWith (hpane.processes root hroot)
      refine ⟨order, hends, fun root' h ↦ ?_, fun h ↦ ?_, sum_rowsOf hshows⟩
      · rw [hpane.rootPid, hroot] at h
        exact Option.some.inj h ▸ hshows
      · rw [hpane.rootPid, hroot] at h
        cases h
  · refine buildOverviewRows_endsWith (fun tree htree ↦ ?_) sessions
    obtain ⟨pane, -, hpane⟩ := exists_of_forall₂ htrees tree (hsnapshot tree htree)
    exact built_of_isTreeOf hpane

end Kmux.Overview
