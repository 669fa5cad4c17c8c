import Kmux.Lib.Inodes
import Kmux.Lib.Run
import Mathlib.Tactic.Common

/-!
# The rotating log

The daemon's log is rolled over by size: the older files shift up one, the file that is written is
moved aside, and a new one is started. Any of the renames may fail, and so may the opening of the
new file, after it was created or before. The writer then goes on with the file that it has open,
under whatever name that is by now, or under none.

What carries the order of the events over all of this is where the open file stands among the
names: no event lies in a file that is newer than it. So an event that is written to it comes last
even where the open file has been moved aside, and when the path is opened again at last, what is
there is empty.
-/

namespace Kmux.Log

open Inodes

/-! ## The writer -/

structure Rotation where
  maxBytes : ℕ
  keep : ℕ
  deriving DecidableEq, Repr

/-- The log at the path is under `0`, the rotated file `n` under `n`. -/
abbrev LogDir := Disk ℕ UInt8

/-- The file that is open, and the bytes counted since it was opened or rotated. -/
structure RotatingFile where
  file : ℕ
  len : ℕ
  rotation : Rotation

structure State where
  dir : LogDir
  log : RotatingFile

/-- How it goes when the path is opened: a file may have been created there and the call fail all
the same. -/
inductive OpenOutcome
  | opened
  | refused
  | uninspected
  deriving DecidableEq, Repr

/-- What goes wrong in one write. -/
structure Faults where
  /-- The path or the open file cannot be inspected. -/
  inspect : Bool
  /-- The path is opened because it leads to another file. -/
  follow : OpenOutcome
  /-- The file under this name cannot be renamed or removed. -/
  move : ℕ → Bool
  /-- The path is opened after a rotation. -/
  start : OpenOutcome

def Faults.none : Faults := ⟨false, .opened, fun _ ↦ false, .opened⟩

/-- Create the file at the path unless there is one. -/
def touch (dir : LogDir) : LogDir × ℕ :=
  match dir.entry 0 with
  | some i => (dir, i)
  | none => (dir.create 0, dir.next)

/-- Point at whatever is at the path. -/
def reopen (s : State) : OpenOutcome → State × Bool
  | .refused => (s, false)
  | .uninspected => ({ s with dir := (touch s.dir).1 }, false)
  | .opened =>
    let (dir, i) := touch s.dir
    ({ dir := dir, log := { s.log with file := i, len := (dir.content i).length } }, true)

def renameIfPresent (dir : LogDir) (source target : ℕ) : LogDir :=
  if (dir.entry source).isSome then dir.rename source target else dir

/-- Move the rotated files `n`, …, `1` up by one. -/
def shift (fails : ℕ → Bool) : ℕ → LogDir → LogDir × Bool
  | 0, dir => (dir, true)
  | n + 1, dir =>
    if fails (n + 1) then (dir, false)
    else shift fails n (renameIfPresent dir (n + 1) (n + 2))

/-- Shift the older files up one, move the current file to `1`, start a new one. -/
def rotate (s : State) (faults : Faults) : State × Bool :=
  let keep := s.log.rotation.keep
  if keep = 0 then
    if faults.move 0 ∨ s.dir.entry 0 = none then (s, false)
    else reopen { s with dir := s.dir.unlink 0 } faults.start
  else
    let (dir, ok) := shift faults.move (keep - 1) s.dir
    let s := { s with dir := dir }
    if ok = false then (s, false)
    else if faults.move 0 ∨ s.dir.entry 0 = none then (s, false)
    else reopen { s with dir := s.dir.rename 0 1 } faults.start

/-- The file must be rolled over before it takes this many bytes. -/
def RotatingFile.Full (log : RotatingFile) (incoming : ℕ) : Prop :=
  0 < log.rotation.maxBytes ∧ 0 < log.len ∧ log.rotation.maxBytes < log.len + incoming

instance (log : RotatingFile) (incoming : ℕ) : Decidable (log.Full incoming) :=
  inferInstanceAs (Decidable (_ ∧ _ ∧ _))

/-- Follow a file that was put at the path by someone else. -/
def follow (s : State) (faults : Faults) : State :=
  if faults.inspect = false ∧ s.dir.entry 0 = some s.log.file then s
  else (reopen s faults.follow).1

/-- Get ready to write: follow, then roll over. After a failed rotation the count starts anew. -/
def prepare (s : State) (incoming : ℕ) (faults : Faults) : State :=
  let s := follow s faults
  if s.log.Full incoming then
    let (s, ok) := rotate s faults
    if ok then s else { s with log := { s.log with len := 0 } }
  else s

/-- One whole event. -/
def writeAll (s : State) (event : List UInt8 × Faults) : State :=
  let s := prepare s event.1.length event.2
  { dir := s.dir.append s.log.file event.1
    log := { s.log with len := s.log.len + event.1.length } }

/-- The log of earlier runs: the events of each file that is there. -/
def ofFiles (keep : ℕ) (files : ℕ → Option (List (List UInt8))) : LogDir where
  entry n := if n ≤ keep ∧ (files n).isSome then some n else none
  content n := if n ≤ keep then ((files n).getD []).flatten else []
  next := keep + 1
  lt_next n i h := by
    split_ifs at h with hn
    exact Option.some.inj h ▸ Nat.lt_succ_of_le hn.1

/-- `RotatingFile::open`. -/
def openLog (rotation : Rotation) (dir : LogDir) : State :=
  (reopen ⟨dir, ⟨0, 0, rotation⟩⟩ .opened).1

/-! ## From the oldest file to the newest -/

/-- What the names `n`, …, `1`, `0` stand for, one after another. -/
def oldestFirst {α : Type} (f : ℕ → List α) : ℕ → List α
  | 0 => f 0
  | n + 1 => f (n + 1) ++ oldestFirst f n

section OldestFirst

variable {α β : Type} {f g : ℕ → List α}

theorem oldestFirst_congr {k : ℕ} (h : ∀ n, n ≤ k → f n = g n) :
    oldestFirst f k = oldestFirst g k := by
  induction k with
  | zero => exact h 0 (Nat.le_refl 0)
  | succ k ih =>
    rw [oldestFirst, oldestFirst, h (k + 1) (Nat.le_refl _),
      ih fun n hn ↦ h n (Nat.le_succ_of_le hn)]

theorem oldestFirst_eq_nil {k : ℕ} (h : ∀ n, n ≤ k → f n = []) : oldestFirst f k = [] := by
  induction k with
  | zero => exact h 0 (Nat.le_refl 0)
  | succ k ih =>
    rw [oldestFirst, h (k + 1) (Nat.le_refl _), ih fun n hn ↦ h n (Nat.le_succ_of_le hn)]
    rfl

theorem map_oldestFirst (φ : α → β) (f : ℕ → List α) (k : ℕ) :
    (oldestFirst f k).map φ = oldestFirst (fun n ↦ (f n).map φ) k := by
  induction k with
  | zero => rfl
  | succ k ih => rw [oldestFirst, List.map_append, ih, oldestFirst]

theorem flatten_oldestFirst (f : ℕ → List (List α)) (k : ℕ) :
    (oldestFirst f k).flatten = oldestFirst (fun n ↦ (f n).flatten) k := by
  induction k with
  | zero => rfl
  | succ k ih => rw [oldestFirst, List.flatten_append, ih, oldestFirst]

/-- A name moves up onto a name that has gone, or is dropped. -/
theorem oldestFirst_move {a : ℕ} (htarget : g (a + 1) = f a) (hsource : g a = [])
    (hrest : ∀ n, n ≠ a → n ≠ a + 1 → g n = f n) :
    oldestFirst f (a + 1) = f (a + 1) ++ oldestFirst g (a + 1) := by
  have hbelow : oldestFirst f a = f a ++ oldestFirst g a := by
    cases a with
    | zero =>
      rw [oldestFirst, oldestFirst, hsource, List.append_nil]
    | succ a =>
      rw [oldestFirst, oldestFirst, hsource, List.nil_append]
      exact congrArg (f (a + 1) ++ ·)
        (oldestFirst_congr fun n hn ↦ (hrest n (by omega) (by omega)).symm)
  rw [oldestFirst, hbelow, ← htarget]
  rfl

theorem oldestFirst_move_of_nil {a k : ℕ} (ha : a + 1 ≤ k) (htarget : g (a + 1) = f a)
    (hsource : g a = []) (hrest : ∀ n, n ≠ a → n ≠ a + 1 → g n = f n) (hfree : f (a + 1) = []) :
    oldestFirst f k = oldestFirst g k := by
  induction k with
  | zero => omega
  | succ k ih =>
    by_cases hk : k = a
    · rw [hk, oldestFirst_move htarget hsource hrest, hfree, List.nil_append]
    · rw [oldestFirst, oldestFirst, ih (by omega), hrest (k + 1) (by omega) (by omega)]

/-- What is added to the newest that is not empty comes last. -/
theorem oldestFirst_concat {a k : ℕ} {x : α} (ha : a ≤ k) (hat : g a = f a ++ [x])
    (hrest : ∀ n, n ≠ a → g n = f n) (hnewer : ∀ n, n < a → f n = []) :
    oldestFirst g k = oldestFirst f k ++ [x] := by
  induction k with
  | zero =>
    obtain rfl := Nat.le_zero.mp ha
    exact hat
  | succ k ih =>
    by_cases hk : a = k + 1
    · subst hk
      have hnil : oldestFirst f k = [] := oldestFirst_eq_nil fun n hn ↦ hnewer n (by omega)
      have hnil' : oldestFirst g k = [] :=
        oldestFirst_eq_nil fun n hn ↦ (hrest n (by omega)).trans (hnewer n (by omega))
      rw [oldestFirst, oldestFirst, hnil, hnil', hat, List.append_nil, List.append_nil]
    · rw [oldestFirst, oldestFirst, ih (by omega), hrest (k + 1) (Ne.symm hk), List.append_assoc]

end OldestFirst

/-! ## The events of a file -/

abbrev Event := List UInt8

/-- The events that were written to a file, in order. -/
def eventsIn (placed : List (Event × ℕ)) (i : ℕ) : List Event :=
  (placed.filter (·.2 = i)).map Prod.fst

/-- The events of the file under a name. -/
def block (placed : List (Event × ℕ)) (dir : LogDir) (n : ℕ) : List (Event × ℕ) :=
  placed.filter fun p ↦ dir.entry n = some p.2

theorem block_of_none {placed : List (Event × ℕ)} {dir : LogDir} {n : ℕ}
    (h : dir.entry n = none) : block placed dir n = [] := by
  simp [block, h]

theorem block_congr {placed : List (Event × ℕ)} {dir dir' : LogDir} {n m : ℕ}
    (h : dir'.entry n = dir.entry m) : block placed dir' n = block placed dir m := by
  simp only [block, h]

/-- The names lead to different files, which hold whole events, and from the oldest name to the
newest they hold the last events that were written. -/
structure Arranged (keep : ℕ) (placed : List (Event × ℕ)) (dir : LogDir) : Prop where
  content : ∀ i, dir.content i = (eventsIn placed i).flatten
  suffix : ∃ dropped, placed = dropped ++ oldestFirst (block placed dir) keep
  inj : ∀ n m i, dir.entry n = some i → dir.entry m = some i → n = m
  beyond : ∀ n, keep < n → dir.entry n = none
  known : ∀ p ∈ placed, p.2 < dir.next

/-- No event lies in a file newer than the one that is open. -/
structure Inv (keep : ℕ) (placed : List (Event × ℕ)) (dir : LogDir) (file : ℕ) : Prop
    extends Arranged keep placed dir where
  newer : ∀ m, (∀ n, n ≤ m → dir.entry n ≠ some file) → block placed dir m = []
  file_lt : file < dir.next

variable {keep file : ℕ} {placed : List (Event × ℕ)} {dir : LogDir}

/-- A file moves up by one name, onto a free name or in place of the oldest file. -/
theorem Inv.rename (h : Inv keep placed dir file) {n : ℕ} (hn : n + 1 ≤ keep)
    (hfree : dir.entry (n + 1) = none ∨ n + 1 = keep) :
    Inv keep placed (dir.rename n (n + 1)) file := by
  have hne : n ≠ n + 1 := by omega
  have hsource : (dir.rename n (n + 1)).entry n = none := Disk.rename_source
  have htarget : (dir.rename n (n + 1)).entry (n + 1) = dir.entry n := Disk.rename_target hne
  have hrest : ∀ m, m ≠ n → m ≠ n + 1 → (dir.rename n (n + 1)).entry m = dir.entry m :=
    fun m hm hm' ↦ Disk.rename_of_ne hm hm'
  have horigin : ∀ m i, (dir.rename n (n + 1)).entry m = some i →
      ∃ m', dir.entry m' = some i ∧ (m' = n ∧ m = n + 1 ∨ m' ≠ n ∧ m' = m) := by
    intro m i hm
    by_cases hmn : m = n
    · rw [hmn, hsource] at hm
      cases hm
    · by_cases hmn' : m = n + 1
      · rw [hmn', htarget] at hm
        exact ⟨n, hm, .inl ⟨rfl, hmn'⟩⟩
      · exact ⟨m, hrest m hmn hmn' ▸ hm, .inr ⟨hmn, rfl⟩⟩
  refine { content := h.content, suffix := ?_, inj := ?_, beyond := ?_, known := h.known,
           newer := ?_, file_lt := h.file_lt }
  · obtain ⟨dropped, hdropped⟩ := h.suffix
    have hmove : ∀ m, m ≠ n → m ≠ n + 1 →
        block placed (dir.rename n (n + 1)) m = block placed dir m :=
      fun m hm hm' ↦ block_congr (hrest m hm hm')
    rcases hfree with hnone | rfl
    · refine ⟨dropped, ?_⟩
      rw [← oldestFirst_move_of_nil hn (block_congr htarget) (block_of_none hsource) hmove
        (block_of_none hnone)]
      exact hdropped
    · refine ⟨dropped ++ block placed dir (n + 1), ?_⟩
      rw [List.append_assoc, ← oldestFirst_move (block_congr htarget) (block_of_none hsource) hmove]
      exact hdropped
  · intro m m' i hm hm'
    obtain ⟨k, hk, hcase⟩ := horigin m i hm
    obtain ⟨k', hk', hcase'⟩ := horigin m' i hm'
    have heq := h.inj k k' i hk hk'
    omega
  · intro m hm
    rw [hrest m (by omega) (by omega)]
    exact h.beyond m hm
  · intro m hm
    by_cases hmn : m = n
    · subst hmn
      exact block_of_none hsource
    · by_cases hmn' : m = n + 1
      · subst hmn'
        rw [block_congr htarget]
        refine h.newer n fun k hk hfile ↦ ?_
        by_cases hkn : k = n
        · exact hm (n + 1) (Nat.le_refl _) (htarget.trans (hkn ▸ hfile))
        · exact hm k (by omega) ((hrest k hkn (by omega)).trans hfile)
      · rw [block_congr (hrest m hmn hmn')]
        by_cases hlt : m < n
        · refine h.newer m fun k hk hfile ↦ ?_
          exact hm k hk ((hrest k (by omega) (by omega)).trans hfile)
        · -- the open file may be the oldest one, which has lost its name
          rcases hfree with hnone | rfl
          · refine h.newer m fun k hk hfile ↦ ?_
            by_cases hkn : k = n
            · exact hm (n + 1) (by omega) (htarget.trans (hkn ▸ hfile))
            · by_cases hkn' : k = n + 1
              · rw [hkn', hnone] at hfile
                cases hfile
              · exact hm k hk ((hrest k hkn hkn').trans hfile)
          · exact block_of_none (h.beyond m (by omega))

theorem Arranged.touch (h : Arranged keep placed dir) : Arranged keep placed (touch dir).1 := by
  cases hpath : dir.entry 0 with
  | some i =>
    rw [Log.touch, hpath]
    exact h
  | none =>
    have hentry : ∀ n, n ≠ 0 → (dir.create 0).entry n = dir.entry n :=
      fun n hn ↦ Disk.create_of_ne hn
    have hzero : (dir.create 0).entry 0 = some dir.next := Disk.create_self 0
    have hfresh : eventsIn placed dir.next = [] := by
      rw [eventsIn, List.map_eq_nil_iff, List.filter_eq_nil_iff]
      intro p hp
      simpa using Nat.ne_of_lt (h.known p hp)
    have hblock : ∀ n, block placed (dir.create 0) n = block placed dir n := by
      intro n
      by_cases hn : n = 0
      · subst hn
        rw [block_of_none hpath, block, List.filter_eq_nil_iff]
        intro p hp
        simpa using Nat.ne_of_gt (h.known p hp)
      · exact block_congr (hentry n hn)
    rw [Log.touch, hpath]
    refine { content := fun i ↦ ?_, suffix := ?_, inj := ?_, beyond := ?_, known := ?_ }
    · by_cases hi : i = dir.next
      · subst hi
        rw [hfresh]
        exact Function.update_self ..
      · exact (Function.update_of_ne hi ..).trans (h.content i)
    · rw [funext hblock]
      exact h.suffix
    · intro n m i hn hm
      by_cases hn0 : n = 0 <;> by_cases hm0 : m = 0
      · omega
      · rw [hn0, hzero] at hn
        rw [hentry m hm0] at hm
        exact absurd (dir.lt_next m i hm) (by simp [← Option.some.inj hn])
      · rw [hm0, hzero] at hm
        rw [hentry n hn0] at hn
        exact absurd (dir.lt_next n i hn) (by simp [← Option.some.inj hm])
      · rw [hentry n hn0] at hn
        rw [hentry m hm0] at hm
        exact h.inj n m i hn hm
    · intro n hn
      rw [hentry n (by omega)]
      exact h.beyond n hn
    · exact fun p hp ↦ Nat.lt_succ_of_lt (h.known p hp)

theorem touch_entry (dir : LogDir) : (touch dir).1.entry 0 = some (touch dir).2 := by
  cases hpath : dir.entry 0 with
  | some i => rw [touch, hpath]; exact hpath
  | none => rw [touch, hpath]; exact Disk.create_self 0

/-- The file at the path is the newest of all. -/
theorem Arranged.open (h : Arranged keep placed dir) {i : ℕ} (hpath : dir.entry 0 = some i) :
    Inv keep placed dir i where
  toArranged := h
  newer m hm := absurd hpath (hm 0 m.zero_le)
  file_lt := dir.lt_next 0 i hpath

theorem touch_next_le (dir : LogDir) : dir.next ≤ (touch dir).1.next := by
  cases hpath : dir.entry 0 with
  | some i => simp only [touch, hpath, Nat.le_refl]
  | none => rw [touch, hpath]; exact Nat.le_succ _

theorem touch_entry_of_ne (dir : LogDir) {n : ℕ} (hn : n ≠ 0) :
    (touch dir).1.entry n = dir.entry n := by
  cases hpath : dir.entry 0 with
  | some i => rw [touch, hpath]
  | none => rw [touch, hpath]; exact Disk.create_of_ne hn

theorem Inv.touch (h : Inv keep placed dir file) : Inv keep placed (touch dir).1 file := by
  cases hpath : dir.entry 0 with
  | some i =>
    rw [Log.touch, hpath]
    exact h
  | none =>
    refine { toArranged := h.toArranged.touch, newer := fun m hm ↦ ?_,
             file_lt := Nat.lt_of_lt_of_le h.file_lt (touch_next_le dir) }
    by_cases hm0 : m = 0
    · subst hm0
      rw [block, List.filter_eq_nil_iff]
      intro p hp
      rw [Log.touch, hpath]
      simpa using Nat.ne_of_gt (h.known p hp)
    · rw [block_congr (touch_entry_of_ne dir hm0)]
      refine h.newer m fun n hn hfile ↦ ?_
      by_cases hn0 : n = 0
      · rw [hn0, hpath] at hfile
        cases hfile
      · exact hm n hn ((touch_entry_of_ne dir hn0).trans hfile)

/-- An event at the end of the open file is the last of all that are kept, or of those dropped. -/
theorem Inv.append (h : Inv keep placed dir file) (event : Event) :
    Inv keep (placed ++ [(event, file)]) (dir.append file event) file := by
  have hblock : ∀ n, block (placed ++ [(event, file)]) (dir.append file event) n =
      block placed dir n ++ if dir.entry n = some file then [(event, file)] else [] := by
    intro n
    rw [block, List.filter_append, Disk.append_entry]
    by_cases hn : dir.entry n = some file <;> simp [block, hn]
  refine { content := fun i ↦ ?_, suffix := ?_, inj := h.inj, beyond := h.beyond,
           known := fun p hp ↦ ?_, newer := fun m hm ↦ ?_, file_lt := h.file_lt }
  · rw [eventsIn, List.filter_append, List.map_append, List.flatten_append, ← eventsIn,
      ← h.content i, Disk.append_content]
    by_cases hi : i = file
    · subst hi
      simp
    · simp [Function.update_of_ne hi, Ne.symm hi]
  · obtain ⟨dropped, hdropped⟩ := h.suffix
    by_cases hnamed : ∃ n, n ≤ keep ∧ dir.entry n = some file
    · obtain ⟨n, hn, hfile⟩ := hnamed
      refine ⟨dropped, ?_⟩
      have hother : ∀ m, m ≠ n → dir.entry m ≠ some file := fun m hm hm' ↦
        hm (h.inj m n file hm' hfile)
      rw [oldestFirst_concat (f := block placed dir) (x := (event, file)) hn, ← List.append_assoc,
        ← hdropped]
      · rw [hblock, if_pos hfile]
      · intro m hm
        rw [hblock, if_neg (hother m hm), List.append_nil]
      · exact fun m hm ↦ h.newer m fun k hk ↦ hother k (by omega)
    · -- the open file has no name left, and nothing is in the files that have one
      have hnone : ∀ n, dir.entry n ≠ some file := by
        intro n hfile
        by_cases hn : n ≤ keep
        · exact hnamed ⟨n, hn, hfile⟩
        · rw [h.beyond n (by omega)] at hfile
          cases hfile
      refine ⟨placed ++ [(event, file)], ?_⟩
      rw [oldestFirst_eq_nil, List.append_nil]
      intro n _
      rw [hblock, if_neg (hnone n), List.append_nil]
      exact h.newer n fun k _ ↦ hnone k
  · rcases List.mem_append.mp hp with hp | hp
    · exact h.known p hp
    · exact List.mem_singleton.mp hp ▸ h.file_lt
  · have hfile : dir.entry m ≠ some file := hm m (Nat.le_refl m)
    rw [hblock, if_neg hfile, List.append_nil]
    exact h.newer m hm

/-! ## One write -/

/-- The directory and the open file of a state. -/
def State.Inv (keep : ℕ) (placed : List (Event × ℕ)) (s : State) : Prop :=
  Log.Inv keep placed s.dir s.log.file

theorem Inv.renameIfPresent (h : Inv keep placed dir file) {n : ℕ} (hn : n + 1 ≤ keep)
    (hfree : dir.entry (n + 1) = none ∨ n + 1 = keep) :
    Inv keep placed (renameIfPresent dir n (n + 1)) file := by
  rw [Log.renameIfPresent]
  split_ifs
  · exact h.rename hn hfree
  · exact h

theorem renameIfPresent_source (dir : LogDir) (n : ℕ) :
    (renameIfPresent dir n (n + 1)).entry n = none := by
  rw [renameIfPresent]
  split_ifs with hpresent
  · exact Disk.rename_source
  · simpa using hpresent

/-- Each file moves onto the name that the one before it has left. -/
theorem Inv.shift (fails : ℕ → Bool) {n : ℕ} (h : Inv keep placed dir file) (hn : n + 1 ≤ keep)
    (hfree : dir.entry (n + 1) = none ∨ n + 1 = keep) :
    Inv keep placed (shift fails n dir).1 file ∧
      ((shift fails n dir).2 = true → (shift fails n dir).1.entry 1 = none ∨ 1 = keep) := by
  induction n generalizing dir with
  | zero => exact ⟨h, fun _ ↦ hfree⟩
  | succ n ih =>
    rw [Log.shift]
    split_ifs
    · exact ⟨h, fun hok ↦ nomatch hok⟩
    · exact ih (h.renameIfPresent hn hfree) (by omega) (.inl (renameIfPresent_source dir (n + 1)))

theorem State.Inv.reopen {s : State} (h : s.Inv keep placed) (outcome : OpenOutcome) :
    (Log.reopen s outcome).1.Inv keep placed := by
  cases outcome with
  | opened => exact (h.toArranged.touch).open (touch_entry s.dir)
  | refused => exact h
  | uninspected => exact Log.Inv.touch h

theorem reopen_rotation (s : State) (outcome : OpenOutcome) :
    (reopen s outcome).1.log.rotation = s.log.rotation := by
  cases outcome <;> rfl

theorem State.Inv.rotate {s : State} (h : s.Inv s.log.rotation.keep placed)
    (hkeep : 0 < s.log.rotation.keep) (faults : Faults) :
    (Log.rotate s faults).1.Inv s.log.rotation.keep placed := by
  obtain ⟨hshift, hfree⟩ := Inv.shift faults.move (n := s.log.rotation.keep - 1) h (by omega)
    (.inr (by omega))
  simp only [Log.rotate, if_neg (Nat.ne_of_gt hkeep)]
  split_ifs with hok hmove
  · exact hshift
  · exact hshift
  · have hrename := hshift.rename (n := 0) (by omega) (hfree (by simpa using hok))
    exact State.Inv.reopen (s := { dir := _, log := s.log }) hrename faults.start

theorem rotate_rotation (s : State) (faults : Faults) :
    (rotate s faults).1.log.rotation = s.log.rotation := by
  simp only [rotate]
  split_ifs <;> first | rfl | exact reopen_rotation _ _

theorem State.Inv.follow {s : State} (h : s.Inv keep placed) (faults : Faults) :
    (Log.follow s faults).Inv keep placed := by
  rw [Log.follow]
  split_ifs
  · exact h
  · exact h.reopen faults.follow

theorem follow_rotation (s : State) (faults : Faults) :
    (follow s faults).log.rotation = s.log.rotation := by
  rw [follow]
  split_ifs
  · rfl
  · exact reopen_rotation s faults.follow

theorem prepare_rotation (s : State) (incoming : ℕ) (faults : Faults) :
    (prepare s incoming faults).log.rotation = s.log.rotation := by
  simp only [prepare]
  split_ifs
  · exact (rotate_rotation _ faults).trans (follow_rotation s faults)
  · exact (rotate_rotation _ faults).trans (follow_rotation s faults)
  · exact follow_rotation s faults

theorem State.Inv.prepare {s : State} (h : s.Inv s.log.rotation.keep placed)
    (hkeep : 0 < s.log.rotation.keep) (incoming : ℕ) (faults : Faults) :
    (Log.prepare s incoming faults).Inv s.log.rotation.keep placed := by
  have hfollow := h.follow faults
  rw [← follow_rotation s faults] at hfollow hkeep ⊢
  simp only [Log.prepare]
  split_ifs
  · exact hfollow.rotate hkeep faults
  · exact hfollow.rotate hkeep faults
  · exact hfollow

/-- A write puts its event whole into the file that is open by then. -/
theorem State.Inv.writeAll {s : State} (h : s.Inv s.log.rotation.keep placed)
    (hkeep : 0 < s.log.rotation.keep) (event : Event × Faults) :
    (Log.writeAll s event).Inv s.log.rotation.keep
      (placed ++ [(event.1, (Log.writeAll s event).log.file)]) :=
  (h.prepare hkeep event.1.length event.2).append event.1

theorem writeAll_rotation (s : State) (event : Event × Faults) :
    (writeAll s event).log.rotation = s.log.rotation := prepare_rotation s _ _

/-! ## A run -/

/-- The events of the files of earlier runs, and where they are. -/
def earlier (files : ℕ → Option (List Event)) (keep : ℕ) : List (Event × ℕ) :=
  oldestFirst (fun n ↦ ((files n).getD []).map fun event ↦ (event, n)) keep

theorem filter_earlier (files : ℕ → Option (List Event)) (keep m : ℕ) :
    (earlier files keep).filter (·.2 = m) =
      if m ≤ keep then ((files m).getD []).map fun event ↦ (event, m) else [] := by
  have hone : ∀ n, (((files n).getD []).map fun event ↦ (event, n)).filter (·.2 = m) =
      if n = m then ((files m).getD []).map fun event ↦ (event, m) else [] := by
    intro n
    by_cases hn : n = m
    · subst hn
      simp [List.filter_map, Function.comp_def]
    · simp [List.filter_map, Function.comp_def, hn]
  induction keep with
  | zero =>
    rw [earlier, oldestFirst, hone]
    simp only [Nat.le_zero, eq_comm]
  | succ keep ih =>
    rw [earlier] at ih ⊢
    rw [oldestFirst, List.filter_append, hone, ih]
    by_cases hm : m ≤ keep
    · rw [if_neg (by omega), if_pos hm, if_pos (by omega), List.nil_append]
    · by_cases hm' : keep + 1 = m
      · rw [if_pos hm', if_neg hm, if_pos (by omega), List.append_nil]
      · rw [if_neg hm', if_neg hm, if_neg (by omega), List.append_nil]

theorem arranged_ofFiles (files : ℕ → Option (List Event)) (keep : ℕ) :
    Arranged keep (earlier files keep) (ofFiles keep files) where
  content i := by
    rw [eventsIn, filter_earlier]
    by_cases hi : i ≤ keep <;> simp [ofFiles, hi, Function.comp_def]
  suffix := by
    refine ⟨[], ?_⟩
    rw [List.nil_append]
    refine oldestFirst_congr fun n hn ↦ ?_
    cases hfile : files n with
    | none =>
      rw [block_of_none (by simp [ofFiles, hfile])]
      rfl
    | some events =>
      have hentry : (ofFiles keep files).entry n = some n := by simp [ofFiles, hn, hfile]
      have hfilter := filter_earlier files keep n
      rw [if_pos hn, hfile] at hfilter
      rw [block, hentry]
      simpa [eq_comm] using hfilter.symm
  inj n m i hn hm := by
    simp only [ofFiles] at hn hm
    split_ifs at hn hm
    exact (Option.some.inj hn).trans (Option.some.inj hm).symm
  beyond n hn := by simp [ofFiles, Nat.not_le.mpr hn]
  known p hp := by
    have hmem : p ∈ (earlier files keep).filter (·.2 = p.2) := by simp [hp]
    rw [filter_earlier] at hmem
    split_ifs at hmem with hle
    · exact Nat.lt_succ_of_le hle
    · cases hmem

theorem inv_openLog (rotation : Rotation) (files : ℕ → Option (List Event)) :
    (openLog rotation (ofFiles rotation.keep files)).Inv rotation.keep
      (earlier files rotation.keep) :=
  (arranged_ofFiles files rotation.keep).touch.open (touch_entry _)

/-- The events written in a run are placed one after another. -/
theorem inv_exec (events : List (Event × Faults)) {s : State} (hkeep : 0 < s.log.rotation.keep)
    (h : s.Inv s.log.rotation.keep placed) :
    ∃ placed', placed'.map Prod.fst = placed.map Prod.fst ++ events.map Prod.fst ∧
      (Run.exec writeAll s events).Inv s.log.rotation.keep placed' := by
  induction events generalizing s placed with
  | nil => exact ⟨placed, by simp, h⟩
  | cons event events ih =>
    have hrotation := writeAll_rotation s event
    have hwrite := h.writeAll hkeep event
    rw [← hrotation] at hkeep hwrite
    obtain ⟨placed', hplaced, hinv⟩ := ih hkeep hwrite
    refine ⟨placed', ?_, hrotation ▸ hinv⟩
    rw [hplaced, List.map_append, List.map_cons, List.append_assoc]
    rfl

/-! ## What is kept -/

/-- The bytes of the file under a name; a missing file has none. -/
def fileBytes (dir : LogDir) (n : ℕ) : List UInt8 := ((dir.entry n).map dir.content).getD []

theorem Arranged.fileBytes_eq (h : Arranged keep placed dir) (n : ℕ) :
    fileBytes dir n = ((block placed dir n).map Prod.fst).flatten := by
  cases hn : dir.entry n with
  | none => simp [fileBytes, block_of_none, hn]
  | some i =>
    have hblock : block placed dir n = placed.filter (·.2 = i) := by
      simp only [block, hn, Option.some.injEq, eq_comm]
    rw [fileBytes, hn, hblock, Option.map_some, Option.getD_some, h.content]
    rfl

/-- Every event that was written is whole in the one file it was written to, and the files from the
oldest rotated one to the one at the path hold, one after another, the last of the events, with no
rotated file beyond those to be kept. -/
def KeepsTail (keep : ℕ) (written : List Event) (dir : LogDir) : Prop :=
  ∃ (placed : List (Event × ℕ)) (dropped : List Event) (kept : ℕ → List Event),
    placed.map Prod.fst = written ∧
    (∀ i, dir.content i = (eventsIn placed i).flatten) ∧
    (∀ n, kept n = ((dir.entry n).map (eventsIn placed)).getD []) ∧
    written = dropped ++ oldestFirst kept keep ∧
    oldestFirst (fileBytes dir) keep = (oldestFirst kept keep).flatten ∧
    ∀ n, keep < n → dir.entry n = none

theorem Arranged.keepsTail (h : Arranged keep placed dir) :
    KeepsTail keep (placed.map Prod.fst) dir := by
  obtain ⟨dropped, hdropped⟩ := h.suffix
  refine ⟨placed, dropped.map Prod.fst, fun n ↦ (block placed dir n).map Prod.fst, rfl, h.content,
    fun n ↦ ?_, ?_, ?_, h.beyond⟩
  · cases hn : dir.entry n with
    | none => simp [block_of_none hn]
    | some i => simp [block, hn, eventsIn, eq_comm]
  · rw [← map_oldestFirst, ← List.map_append]
    exact congrArg (List.map Prod.fst) hdropped
  · rw [flatten_oldestFirst]
    exact oldestFirst_congr fun n _ ↦ h.fileBytes_eq n

/-- Whatever fails in the rotations, the log keeps the tail of what was written to it. -/
theorem log_keeps_tail (rotation : Rotation) (hkeep : 0 < rotation.keep)
    (files : ℕ → Option (List Event)) (events : List (Event × Faults)) :
    KeepsTail rotation.keep
      (oldestFirst (fun n ↦ (files n).getD []) rotation.keep ++ events.map Prod.fst)
      (Run.exec writeAll (openLog rotation (ofFiles rotation.keep files)) events).dir := by
  have hrotation : (openLog rotation (ofFiles rotation.keep files)).log.rotation = rotation :=
    reopen_rotation _ _
  have hstart := inv_openLog rotation files
  obtain ⟨placed, hplaced, hinv⟩ := inv_exec events (hrotation.symm ▸ hkeep)
    (hrotation.symm ▸ hstart)
  rw [hrotation] at hinv hplaced
  have hwritten : placed.map Prod.fst =
      oldestFirst (fun n ↦ (files n).getD []) rotation.keep ++ events.map Prod.fst := by
    rw [hplaced, earlier, map_oldestFirst]
    simp [Function.comp_def]
  exact hwritten ▸ hinv.toArranged.keepsTail

/-- The file that was moved aside takes an event while no new one can be opened. -/
theorem log_keeps_tail_refused :
    KeepsTail 1 [[1, 2, 3], [4, 5], [6]]
      (Run.exec writeAll (openLog ⟨4, 1⟩ (ofFiles 1 fun _ ↦ none))
        [([1, 2, 3], Faults.none), ([4, 5], { Faults.none with start := .refused }),
          ([6], Faults.none)]).dir :=
  log_keeps_tail ⟨4, 1⟩ (by decide) (fun _ ↦ none)
    [([1, 2, 3], Faults.none), ([4, 5], { Faults.none with start := .refused }), ([6], Faults.none)]

end Kmux.Log
