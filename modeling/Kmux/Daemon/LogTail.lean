import Kmux.Daemon.LogWriter
import Mathlib.Data.List.Nodup

/-!
# Following the log

A follower reads what is appended to the log, and switches to the file at the path once its own has
been moved away and read to its end. Writer and follower take their steps in any order: each rename
of a rotation, the opening of the new file and the write are steps of the one; the check, the read
and the opening are steps of the other.

The check comes before the read, so that nothing more is written to a file that was found moved and
then found at its end. What it cannot tell is how often the log was rotated since. The follower
opens whatever is at the path, and the files between its own and that one are never read. While it
passes over nothing but empty files and its buffer has room, what it has read is a prefix of what
was written, and once the writer stops, it gets to the end.
-/

namespace Kmux.Log

open Inodes

/-! ## The two parties -/

/-- Where the writer of an event is: with rotated files still to move up, with the path still to be
opened, or with the event still to be appended. -/
inductive WriterPhase
  | idle
  | shifting (n : ℕ) (event : Event)
  | opening (event : Event)
  | appending (event : Event)
  deriving DecidableEq, Repr

/-- Where a call of the follower is, with the size of its buffer. -/
inductive FollowerPhase
  | idle
  | checked (size : ℕ) (rotated : Bool)
  | opening (size : ℕ)
  | reading (size : ℕ)
  deriving DecidableEq, Repr

def FollowerPhase.isOpening : FollowerPhase → Bool
  | .opening _ => true
  | _ => false

/-- A follower and all that it has read. -/
structure Follower where
  file : ℕ
  offset : ℕ
  phase : FollowerPhase
  read : List UInt8

/-- The writer, the follower, and for the record the files that the writer has written to since the
follower started, with the bytes in them. -/
structure Scene where
  dir : LogDir
  log : RotatingFile
  writer : WriterPhase
  follower : Follower
  history : List ℕ
  written : List UInt8

inductive Action
  | write (event : Event)
  | work
  | call (size : ℕ)
  | proceed
  deriving DecidableEq, Repr

/-! ## The writer's steps -/

/-- The writer is handed an event. -/
def beginWrite (s : Scene) (event : Event) : Scene :=
  match s.writer with
  | .idle =>
    { s with
      writer :=
        if s.log.Full event.length then .shifting (s.log.rotation.keep - 1) event
        else .appending event }
  | _ => s

def work (s : Scene) : Scene :=
  match s.writer with
  | .idle => s
  | .shifting (n + 1) event =>
    { s with dir := renameIfPresent s.dir (n + 1) (n + 2), writer := .shifting n event }
  | .shifting 0 event =>
    { s with
      dir := if s.log.rotation.keep = 0 then s.dir.unlink 0 else s.dir.rename 0 1
      writer := .opening event }
  | .opening event =>
    let (dir, i) := touch s.dir
    { s with
      dir := dir
      log := { s.log with file := i, len := (dir.content i).length }
      writer := .appending event
      history := s.history ++ [i] }
  | .appending event =>
    { s with
      dir := s.dir.append s.log.file event
      log := { s.log with len := s.log.len + event.length }
      writer := .idle
      written := s.written ++ event }

/-! ## The follower's steps -/

/-- Read on in the file that is followed. -/
def Follower.fill (f : Follower) (dir : LogDir) (size : ℕ) : Follower × ℕ :=
  let chunk := ((dir.content f.file).drop f.offset).take size
  ({ f with offset := f.offset + chunk.length, read := f.read ++ chunk }, chunk.length)

/-- A call begins with the check. -/
def Follower.call (f : Follower) (dir : LogDir) (size : ℕ) : Follower :=
  match f.phase with
  | .idle => { f with phase := .checked size (decide (dir.entry 0 ≠ some f.file)) }
  | _ => f

def Follower.proceed (f : Follower) (dir : LogDir) : Follower :=
  match f.phase with
  | .idle => f
  | .checked size rotated =>
    let (f, n) := f.fill dir size
    { f with phase := if 0 < n ∨ rotated = false then .idle else .opening size }
  | .opening size =>
    match dir.entry 0 with
    | some i => { f with file := i, offset := 0, phase := .reading size }
    | none => { f with phase := .idle }
  | .reading size => { (f.fill dir size).1 with phase := .idle }

def step (s : Scene) : Action → Scene
  | .write event => beginWrite s event
  | .work => work s
  | .call size => { s with follower := s.follower.call s.dir size }
  | .proceed => { s with follower := s.follower.proceed s.dir }

/-- The follower starts at the beginning of the current file of a log that was just opened. -/
def Scene.start (rotation : Rotation) (dir : LogDir) : Scene :=
  let s := openLog rotation dir
  { dir := s.dir
    log := s.log
    writer := .idle
    follower := ⟨s.log.file, 0, .idle, []⟩
    history := [s.log.file]
    written := s.dir.content s.log.file }

/-! ## A write without the follower -/

theorem exec_shifting {n : ℕ} {event : Event} {s : Scene} (h : s.writer = .shifting n event) :
    Run.exec step s (List.replicate n .work) =
      { s with dir := (shift (fun _ ↦ false) n s.dir).1, writer := .shifting 0 event } := by
  induction n generalizing s with
  | zero =>
    rw [← h]
    rfl
  | succ n ih =>
    rw [List.replicate_succ, Run.exec_cons]
    have hstep : step s .work =
        { s with dir := renameIfPresent s.dir (n + 1) (n + 2), writer := .shifting n event } := by
      simp [step, work, h]
    rw [hstep, ih rfl]
    simp [shift]

theorem shift_ok (n : ℕ) (dir : LogDir) : (shift (fun _ ↦ false) n dir).2 = true := by
  induction n generalizing dir with
  | zero => rfl
  | succ n ih => simpa [shift] using ih _

theorem renameIfPresent_entry_zero (dir : LogDir) (n : ℕ) :
    (renameIfPresent dir (n + 1) (n + 2)).entry 0 = dir.entry 0 := by
  rw [renameIfPresent]
  split_ifs
  · exact Disk.rename_of_ne (by omega) (by omega)
  · rfl

theorem shift_entry_zero (fails : ℕ → Bool) (n : ℕ) (dir : LogDir) :
    (shift fails n dir).1.entry 0 = dir.entry 0 := by
  induction n generalizing dir with
  | zero => rfl
  | succ n ih =>
    rw [shift]
    split_ifs
    · rfl
    · exact (ih _).trans (renameIfPresent_entry_zero dir n)

/-- The writer's steps, one after another, are the write in which nothing fails. -/
theorem exec_write {s : Scene} (hidle : s.writer = .idle)
    (hpath : s.dir.entry 0 = some s.log.file) (event : Event) :
    let s' := Run.exec step s (.write event :: List.replicate (s.log.rotation.keep + 3) .work)
    (⟨s'.dir, s'.log⟩ : State) = writeAll ⟨s.dir, s.log⟩ (event, Faults.none) ∧
      s'.writer = .idle := by
  intro s'
  have hfollow : follow ⟨s.dir, s.log⟩ Faults.none = ⟨s.dir, s.log⟩ := by
    rw [follow, if_pos ⟨rfl, hpath⟩]
  have hmove : Faults.none.move = fun _ ↦ false := rfl
  have hstart : Faults.none.start = .opened := rfl
  by_cases hfull : s.log.Full event.length
  · cases hkeep : s.log.rotation.keep with
    | zero =>
      have hs' : s' = Run.exec step s (.write event :: List.replicate 3 .work) := by
        simp only [s', hkeep]
      rw [hs']
      simp [step, beginWrite, hidle, hfull, hkeep, work, writeAll, prepare, hfollow, rotate, hmove,
        hstart, hpath, reopen]
    | succ keep =>
      have hs' : s' = Run.exec step (step s (.write event))
          (List.replicate keep Action.work ++ List.replicate 4 Action.work) := by
        simp only [s', hkeep, ← List.replicate_add, Run.exec_cons]
      have hbegin : step s (.write event) = { s with writer := .shifting keep event } := by
        simp [step, beginWrite, hidle, hfull, hkeep]
      have hshift : Run.exec step { s with writer := .shifting keep event }
          (List.replicate keep .work) =
          { s with dir := (shift (fun _ ↦ false) keep s.dir).1, writer := .shifting 0 event } :=
        exec_shifting rfl
      have hzero := shift_entry_zero (fun _ ↦ false) keep s.dir
      rw [hs', Run.exec_append, hbegin, hshift]
      simp [step, work, writeAll, prepare, hfollow, rotate, hmove, hstart, hpath, reopen, hkeep,
        hfull, shift_ok, hzero]
  · have hs' : s' = Run.exec step s
        (.write event :: .work :: List.replicate (s.log.rotation.keep + 2) .work) := rfl
    have hidleWork : ∀ n (t : Scene), t.writer = .idle →
        Run.exec step t (List.replicate n .work) = t := by
      intro n t ht
      induction n with
      | zero => rfl
      | succ n ih =>
        have hstep : step t .work = t := by simp [step, work, ht]
        rw [List.replicate_succ, Run.exec_cons, hstep, ih]
    rw [hs', Run.exec_cons, Run.exec_cons,
      hidleWork _ _ (by simp [step, beginWrite, hidle, hfull, work])]
    simp [step, beginWrite, hidle, hfull, work, writeAll, prepare, hfollow]

/-! ## What holds of both parties -/

namespace Scene

/-- Nothing more is written to the file that is followed. -/
def Closed (s : Scene) : Prop :=
  s.follower.file ≠ s.log.file ∨ ∃ event, s.writer = .opening event

/-- The writer's side: its files hold what was written, the last of them is open, and it is the one
at the path but for the moment between the rename and the opening. -/
structure WriterInv (s : Scene) : Prop where
  nodup : s.history.Nodup
  last : s.history.getLast? = some s.log.file
  lt_next : ∀ i ∈ s.history, i < s.dir.next
  written : s.written = s.history.flatMap s.dir.content
  path : (∀ event, s.writer ≠ .opening event) → s.dir.entry 0 = some s.log.file
  no_path : ∀ event, s.writer = .opening event → s.dir.entry 0 = none

/-- The follower's side: it has read the files before its own and the start of its own. -/
structure FollowerInv (s : Scene) : Prop where
  place : ∃ front back, s.history = front ++ s.follower.file :: back ∧
    s.follower.read = front.flatMap s.dir.content ++
      (s.dir.content s.follower.file).take s.follower.offset
  offset_le : s.follower.offset ≤ (s.dir.content s.follower.file).length
  checked : ∀ size rotated, s.follower.phase = .checked size rotated →
    0 < size ∧ (rotated = true → s.Closed)
  opening : ∀ size, s.follower.phase = .opening size →
    s.Closed ∧ s.follower.offset = (s.dir.content s.follower.file).length

structure Inv (s : Scene) : Prop extends WriterInv s, FollowerInv s

/-- The files that are passed over when the path is opened now. -/
def skipped (s : Scene) : List ℕ :=
  ((s.history.dropWhile (· ≠ s.follower.file)).drop 1).dropLast

end Scene

/-- A buffer has room, and no file that is passed over holds anything. -/
def SkipsNothing (s : Scene) : Action → Prop
  | .call size => 0 < size
  | .proceed =>
    s.follower.phase.isOpening = true → s.dir.entry 0 ≠ none →
      s.skipped.flatMap s.dir.content = []
  | _ => True

instance : ∀ (s : Scene) (action : Action), Decidable (SkipsNothing s action)
  | _, .call _ => inferInstanceAs (Decidable (_ < _))
  | _, .proceed => inferInstanceAs (Decidable (_ → _ → _))
  | _, .write _ => inferInstanceAs (Decidable True)
  | _, .work => inferInstanceAs (Decidable True)

namespace Scene

theorem inv_start (rotation : Rotation) (dir : LogDir) : (Scene.start rotation dir).Inv where
  nodup := List.nodup_singleton _
  last := rfl
  lt_next i hi := by
    rw [List.mem_singleton.mp hi]
    exact (openLog rotation dir).dir.lt_next 0 _ (touch_entry dir)
  written := (List.flatMap_singleton ..).symm
  path _ := touch_entry dir
  no_path event h := by cases h
  place := ⟨[], [], rfl, rfl⟩
  offset_le := Nat.zero_le _
  checked size rotated h := by cases h
  opening size h := by cases h

variable {s : Scene}

theorem WriterInv.file_mem (h : s.WriterInv) : s.log.file ∈ s.history := List.mem_of_getLast? h.last

theorem FollowerInv.file_mem (h : s.FollowerInv) : s.follower.file ∈ s.history := by
  obtain ⟨front, back, hhistory, -⟩ := h.place
  rw [hhistory]
  simp

/-! ### The writer's steps -/

theorem Inv.beginWrite (h : s.Inv) (event : Event) : (Log.beginWrite s event).Inv := by
  rw [Log.beginWrite]
  cases hwriter : s.writer with
  | idle =>
    have hpath : s.dir.entry 0 = some s.log.file := h.path fun event ↦ by simp [hwriter]
    have hclosed : s.Closed → s.follower.file ≠ s.log.file := by
      rintro (hne | ⟨event, hopening⟩)
      · exact hne
      · simp [hwriter] at hopening
    have hnot : ∀ event', (if s.log.Full event.length then
        WriterPhase.shifting (s.log.rotation.keep - 1) event else .appending event) ≠
          .opening event' := by
      intro event'
      split_ifs <;> simp
    exact
      { nodup := h.nodup, last := h.last, lt_next := h.lt_next, written := h.written
        path := fun _ ↦ hpath
        no_path := fun event' hopening ↦ absurd hopening (hnot event')
        place := h.place, offset_le := h.offset_le
        checked := fun size rotated hphase ↦ ⟨(h.checked size rotated hphase).1,
          fun hrotated ↦ .inl (hclosed ((h.checked size rotated hphase).2 hrotated))⟩
        opening := fun size hphase ↦ ⟨.inl (hclosed (h.opening size hphase).1),
          (h.opening size hphase).2⟩ }
  | shifting n event => exact h
  | opening event => exact h
  | appending event => exact h

/-- A step that leaves all contents and the open file alone. -/
theorem Inv.of_same (h : s.Inv) {dir : LogDir} {writer : WriterPhase}
    (hcontent : dir.content = s.dir.content) (hnext : dir.next = s.dir.next)
    (hpath : (∀ event, writer ≠ .opening event) → dir.entry 0 = some s.log.file)
    (hno : ∀ event, writer = .opening event → dir.entry 0 = none)
    (hclosed : s.Closed → s.follower.file ≠ s.log.file ∨ ∃ event, writer = .opening event) :
    Inv { s with dir := dir, writer := writer } where
  nodup := h.nodup
  last := h.last
  lt_next i hi := hnext ▸ h.lt_next i hi
  written := hcontent ▸ h.written
  path := hpath
  no_path := hno
  place := hcontent ▸ h.place
  offset_le := hcontent ▸ h.offset_le
  checked size rotated hphase :=
    ⟨(h.checked size rotated hphase).1,
      fun hrotated ↦ hclosed ((h.checked size rotated hphase).2 hrotated)⟩
  opening size hphase := ⟨hclosed (h.opening size hphase).1, hcontent ▸ (h.opening size hphase).2⟩

theorem renameIfPresent_content (dir : LogDir) (source target : ℕ) :
    (renameIfPresent dir source target).content = dir.content := by
  rw [renameIfPresent]
  split_ifs <;> rfl

theorem renameIfPresent_next (dir : LogDir) (source target : ℕ) :
    (renameIfPresent dir source target).next = dir.next := by
  rw [renameIfPresent]
  split_ifs <;> rfl

/-- A rotated file moves up. -/
theorem Inv.shiftStep (h : s.Inv) {n : ℕ} {event : Event}
    (hwriter : s.writer = .shifting (n + 1) event) :
    Inv { s with dir := renameIfPresent s.dir (n + 1) (n + 2), writer := .shifting n event } := by
  refine h.of_same (renameIfPresent_content ..) (renameIfPresent_next ..) (fun _ ↦ ?_) (by simp) ?_
  · rw [renameIfPresent_entry_zero]
    exact h.path fun event ↦ by simp [hwriter]
  · rintro (hne | ⟨event, hopening⟩)
    · exact .inl hne
    · simp [hwriter] at hopening

/-- The log is moved aside. -/
theorem Inv.moveAside (h : s.Inv) (event : Event) :
    Inv { s with
      dir := if s.log.rotation.keep = 0 then s.dir.unlink 0 else s.dir.rename 0 1
      writer := .opening event } := by
  refine h.of_same ?_ ?_ (fun hnot ↦ absurd rfl (hnot event)) (fun _ _ ↦ ?_)
    fun _ ↦ .inr ⟨event, rfl⟩
  · split_ifs <;> rfl
  · split_ifs <;> rfl
  · split_ifs
    · simp
    · exact Disk.rename_source

/-- The path is opened, and there is a new file. -/
theorem Inv.openStep (h : s.Inv) {event : Event} (hwriter : s.writer = .opening event) :
    Inv { s with
      dir := (touch s.dir).1
      log := { s.log with
        file := (touch s.dir).2, len := ((touch s.dir).1.content (touch s.dir).2).length }
      writer := .appending event
      history := s.history ++ [(touch s.dir).2] } := by
  have htouch : touch s.dir = (s.dir.create 0, s.dir.next) := by
    rw [touch, h.no_path event hwriter]
  have hcontent : ∀ i ∈ s.history, (s.dir.create 0).content i = s.dir.content i := by
    intro i hi
    simp [Nat.ne_of_lt (h.lt_next i hi)]
  have hflat : ∀ l : List ℕ, (∀ i ∈ l, i ∈ s.history) →
      l.flatMap (s.dir.create 0).content = l.flatMap s.dir.content :=
    fun l hl ↦ List.flatMap_congr fun i hi ↦ hcontent i (hl i hi)
  have hclosed : s.follower.file ≠ s.dir.next :=
    Nat.ne_of_lt (h.lt_next _ h.toFollowerInv.file_mem)
  have hsame := hcontent _ h.toFollowerInv.file_mem
  rw [htouch]
  refine
    { nodup := ?_, last := List.getLast?_concat, lt_next := fun i hi ↦ ?_, written := ?_
      path := fun _ ↦ Disk.create_self 0, no_path := by simp, place := ?_, offset_le := ?_
      checked := fun size rotated hphase ↦ ⟨(h.checked size rotated hphase).1,
        fun _ ↦ .inl hclosed⟩
      opening := fun size hphase ↦ ⟨.inl hclosed, ?_⟩ }
  · refine h.nodup.append (List.nodup_singleton _) fun i hi hnew ↦ ?_
    rw [List.mem_singleton.mp hnew] at hi
    exact Nat.lt_irrefl _ (h.lt_next _ hi)
  · rcases List.mem_append.mp hi with hi | hi
    · exact Nat.lt_succ_of_lt (h.lt_next i hi)
    · rw [List.mem_singleton.mp hi]
      exact Nat.lt_succ_self _
  · change s.written = (s.history ++ [s.dir.next]).flatMap (s.dir.create 0).content
    rw [List.flatMap_append, hflat s.history fun _ hi ↦ hi, ← h.written]
    simp
  · obtain ⟨front, back, hhistory, hread⟩ := h.place
    refine ⟨front, back ++ [s.dir.next], by simp [hhistory], ?_⟩
    change s.follower.read = front.flatMap (s.dir.create 0).content ++
      ((s.dir.create 0).content s.follower.file).take s.follower.offset
    rw [hflat front fun i hi ↦ by simp [hhistory, hi], hsame]
    exact hread
  · change s.follower.offset ≤ ((s.dir.create 0).content s.follower.file).length
    rw [hsame]
    exact h.offset_le
  · change s.follower.offset = ((s.dir.create 0).content s.follower.file).length
    rw [hsame]
    exact (h.opening size hphase).2

/-- The event goes to the last file. -/
theorem Inv.appendStep (h : s.Inv) {event : Event} (hwriter : s.writer = .appending event) :
    Inv { s with
      dir := s.dir.append s.log.file event
      log := { s.log with len := s.log.len + event.length }
      writer := .idle
      written := s.written ++ event } := by
  have hpath : s.dir.entry 0 = some s.log.file := h.path fun event ↦ by simp [hwriter]
  have hother : ∀ i, i ≠ s.log.file → (s.dir.append s.log.file event).content i = s.dir.content i :=
    fun i hi ↦ by simp [hi]
  have hlast : (s.dir.append s.log.file event).content s.log.file =
      s.dir.content s.log.file ++ event := by simp
  have hclosed : s.Closed → s.follower.file ≠ s.log.file := by
    rintro (hne | ⟨event, hopening⟩)
    · exact hne
    · simp [hwriter] at hopening
  obtain ⟨init, hinit⟩ := List.getLast?_eq_some_iff.mp h.last
  have hfresh : s.log.file ∉ init := by
    have hnodup := h.nodup
    rw [hinit] at hnodup
    exact fun hmem ↦ List.disjoint_of_nodup_append hnodup hmem (List.mem_singleton_self _)
  have hflat : ∀ l : List ℕ, s.log.file ∉ l →
      l.flatMap (s.dir.append s.log.file event).content = l.flatMap s.dir.content :=
    fun l hl ↦ List.flatMap_congr fun i hi ↦ hother i fun heq ↦ hl (heq ▸ hi)
  refine
    { nodup := h.nodup, last := h.last, lt_next := h.lt_next, written := ?_
      path := fun _ ↦ hpath, no_path := by simp, place := ?_, offset_le := ?_
      checked := fun size rotated hphase ↦ ⟨(h.checked size rotated hphase).1,
        fun hrotated ↦ .inl (hclosed ((h.checked size rotated hphase).2 hrotated))⟩
      opening := fun size hphase ↦ ⟨.inl (hclosed (h.opening size hphase).1), ?_⟩ }
  · change s.written ++ event = s.history.flatMap (s.dir.append s.log.file event).content
    rw [h.written, hinit, List.flatMap_append, List.flatMap_append, hflat init hfresh,
      List.flatMap_singleton, List.flatMap_singleton, hlast, List.append_assoc]
  · obtain ⟨front, back, hhistory, hread⟩ := h.place
    refine ⟨front, back, hhistory, ?_⟩
    have hfront : s.log.file ∉ front := by
      intro hmem
      have hback : s.log.file ∈ s.follower.file :: back := by
        have hgetLast := h.last
        rw [hhistory, List.getLast?_append] at hgetLast
        simp only [List.getLast?_cons, Option.some_or] at hgetLast
        exact List.mem_of_getLast? (by simpa [List.getLast?_cons] using hgetLast)
      have hnodup := h.nodup
      rw [hhistory] at hnodup
      exact List.disjoint_of_nodup_append hnodup hmem hback
    change s.follower.read = front.flatMap (s.dir.append s.log.file event).content ++
      ((s.dir.append s.log.file event).content s.follower.file).take s.follower.offset
    rw [hflat front hfront, hread]
    by_cases hfile : s.follower.file = s.log.file
    · have hle := h.offset_le
      rw [hfile] at hle ⊢
      rw [hlast, List.take_append_of_le_length hle]
    · rw [hother _ hfile]
  · change s.follower.offset ≤ ((s.dir.append s.log.file event).content s.follower.file).length
    by_cases hfile : s.follower.file = s.log.file
    · have hle := h.offset_le
      rw [hfile] at hle ⊢
      rw [hlast, List.length_append]
      exact Nat.le_add_right_of_le hle
    · rw [hother _ hfile]
      exact h.offset_le
  · change s.follower.offset =
      ((s.dir.append s.log.file event).content s.follower.file).length
    rw [hother _ (hclosed (h.opening size hphase).1)]
    exact (h.opening size hphase).2

theorem Inv.work (h : s.Inv) : (Log.work s).Inv := by
  cases hwriter : s.writer with
  | idle => simpa only [Log.work, hwriter] using h
  | shifting n event =>
    cases n with
    | zero => simpa only [Log.work, hwriter] using h.moveAside event
    | succ n => simpa only [Log.work, hwriter] using h.shiftStep hwriter
  | opening event => simpa only [Log.work, hwriter] using h.openStep hwriter
  | appending event => simpa only [Log.work, hwriter] using h.appendStep hwriter

/-! ### The follower's steps -/

/-- A read that finds nothing in a buffer with room is at the end of the file. -/
theorem offset_eq_of_fill {f : Follower} {dir : LogDir} {size : ℕ} (hsize : 0 < size)
    (hle : f.offset ≤ (dir.content f.file).length) (hnone : ¬0 < (f.fill dir size).2) :
    f.offset = (dir.content f.file).length := by
  simp only [Follower.fill, List.length_take, List.length_drop] at hnone
  omega

theorem fill_read (f : Follower) (dir : LogDir) (size : ℕ) :
    (dir.content f.file).take (f.fill dir size).1.offset =
      (dir.content f.file).take f.offset ++ ((dir.content f.file).drop f.offset).take size := by
  rw [Follower.fill, List.take_add]
  congr 1
  rw [List.length_take, List.take_eq_take_iff]
  omega

theorem FollowerInv.fill (h : s.FollowerInv) (size : ℕ) {phase : FollowerPhase}
    (hchecked : ∀ size rotated, phase ≠ .checked size rotated)
    (hopening : ∀ size', phase = .opening size' → s.Closed ∧
      (s.follower.fill s.dir size).1.offset = (s.dir.content s.follower.file).length) :
    FollowerInv { s with follower := { (s.follower.fill s.dir size).1 with phase := phase } } where
  place := by
    obtain ⟨front, back, hhistory, hread⟩ := h.place
    refine ⟨front, back, hhistory, ?_⟩
    change s.follower.read ++ ((s.dir.content s.follower.file).drop s.follower.offset).take size =
      front.flatMap s.dir.content ++
        (s.dir.content s.follower.file).take (s.follower.fill s.dir size).1.offset
    rw [fill_read, hread, List.append_assoc]
  offset_le := by
    have hle := h.offset_le
    simp only [Follower.fill, List.length_take, List.length_drop]
    omega
  checked size rotated hphase := absurd hphase (hchecked size rotated)
  opening size' hphase := hopening size' hphase

theorem Inv.call (h : s.Inv) {size : ℕ} (hsize : 0 < size) :
    Inv { s with follower := s.follower.call s.dir size } := by
  rw [Follower.call]
  cases hphase : s.follower.phase with
  | idle =>
    refine { toWriterInv := ⟨h.nodup, h.last, h.lt_next, h.written, h.path, h.no_path⟩
             place := h.place, offset_le := h.offset_le
             checked := fun size' rotated hchecked ↦ ?_, opening := fun size' ho ↦ by cases ho }
    obtain ⟨rfl, rfl⟩ := FollowerPhase.checked.inj hchecked
    refine ⟨hsize, fun hrotated ↦ ?_⟩
    have hmoved : s.dir.entry 0 ≠ some s.follower.file := by simpa using hrotated
    by_cases hwriter : ∃ event, s.writer = .opening event
    · exact .inr hwriter
    · left
      intro hfile
      refine hmoved ?_
      rw [hfile]
      exact h.path fun event heq ↦ hwriter ⟨event, heq⟩
  | checked size rotated => exact h
  | opening size => exact h
  | reading size => exact h

/-- What is passed over lies between the file that is followed and the last. -/
theorem skipped_eq {front mid : List ℕ} {last : ℕ} (hnodup : s.history.Nodup)
    (hhistory : s.history = front ++ s.follower.file :: (mid ++ [last])) : s.skipped = mid := by
  have hfront : ∀ i ∈ front, decide (i ≠ s.follower.file) = true := by
    intro i hi
    rw [hhistory] at hnodup
    have hne := List.disjoint_of_nodup_append hnodup hi
    refine decide_eq_true fun heq ↦ hne ?_
    rw [heq]
    exact List.mem_cons_self
  rw [skipped, hhistory, List.dropWhile_append_of_pos hfront]
  simp

/-- The path is opened, and nothing that was written is passed over. -/
theorem Inv.switch (h : s.Inv) {size i : ℕ} (hphase : s.follower.phase = .opening size)
    (hpath : s.dir.entry 0 = some i) (hskips : s.skipped.flatMap s.dir.content = []) :
    Inv { s with
      follower := { s.follower with file := i, offset := 0, phase := .reading size } } := by
  have hnot : ∀ event, s.writer ≠ .opening event := by
    intro event hwriter
    rw [h.no_path event hwriter] at hpath
    cases hpath
  obtain ⟨hclosed, hoffset⟩ := h.opening size hphase
  obtain rfl : s.log.file = i := Option.some.inj ((h.path hnot).symm.trans hpath)
  have hne : s.follower.file ≠ s.log.file := by
    rcases hclosed with hne | ⟨event, hwriter⟩
    · exact hne
    · exact absurd hwriter (hnot event)
  refine { toWriterInv := ⟨h.nodup, h.last, h.lt_next, h.written, h.path, h.no_path⟩
           place := ?_, offset_le := Nat.zero_le _
           checked := fun size' rotated hchecked ↦ by cases hchecked
           opening := fun size' hopening ↦ by cases hopening }
  obtain ⟨front, back, hhistory, hread⟩ := h.place
  obtain ⟨mid, rfl⟩ : ∃ mid, back = mid ++ [s.log.file] := by
    have hlast := h.last
    rw [hhistory] at hlast
    rcases List.eq_nil_or_concat back with rfl | ⟨mid, last, rfl⟩
    · simp [hne] at hlast
    · refine ⟨mid, ?_⟩
      rw [List.concat_eq_append] at hlast ⊢
      rw [← List.cons_append, ← List.append_assoc, List.getLast?_concat] at hlast
      rw [Option.some.inj hlast]
  rw [skipped_eq h.nodup hhistory] at hskips
  refine ⟨front ++ s.follower.file :: mid, [], by simp [hhistory], ?_⟩
  change s.follower.read = (front ++ s.follower.file :: mid).flatMap s.dir.content ++
    (s.dir.content s.log.file).take 0
  rw [hread, hoffset, List.take_length, List.flatMap_append, List.flatMap_cons, hskips]
  simp

theorem Inv.proceed (h : s.Inv) (hskips : SkipsNothing s .proceed) :
    Inv { s with follower := s.follower.proceed s.dir } := by
  have hwriter : ∀ follower, WriterInv { s with follower := follower } := fun follower ↦
    ⟨h.nodup, h.last, h.lt_next, h.written, h.path, h.no_path⟩
  rw [Follower.proceed]
  cases hphase : s.follower.phase with
  | idle => exact h
  | checked size rotated =>
    obtain ⟨hsize, hclosed⟩ := h.checked size rotated hphase
    refine { toWriterInv := hwriter _
             toFollowerInv := h.toFollowerInv.fill size (fun size' rotated' ↦ ?_) fun size' ↦ ?_ }
    · split_ifs <;> simp
    · split_ifs with hmore
      · exact fun heq ↦ nomatch heq
      · intro _
        have hnone : ¬0 < (s.follower.fill s.dir size).2 := fun hpos ↦ hmore (.inl hpos)
        have hend := offset_eq_of_fill hsize h.offset_le hnone
        refine ⟨hclosed (by simpa using fun hfalse ↦ hmore (.inr hfalse)), ?_⟩
        have hzero : (s.follower.fill s.dir size).2 = 0 := by omega
        change s.follower.offset + (s.follower.fill s.dir size).2 = _
        rw [hzero, Nat.add_zero]
        exact hend
  | opening size =>
    cases hpath : s.dir.entry 0 with
    | none =>
      exact { toWriterInv := hwriter _, place := h.place, offset_le := h.offset_le
              checked := fun size' rotated hchecked ↦ by cases hchecked
              opening := fun size' hopening ↦ by cases hopening }
    | some i => exact h.switch hphase hpath (hskips (by rw [hphase]; rfl) (by simp [hpath]))
  | reading size =>
    exact { toWriterInv := hwriter _
            toFollowerInv := h.toFollowerInv.fill size (fun _ _ h ↦ nomatch h) fun _ h ↦ nomatch h }

theorem Inv.step (h : s.Inv) {action : Action} (hskips : SkipsNothing s action) :
    (Log.step s action).Inv := by
  cases action with
  | write event => exact h.beginWrite event
  | work => exact h.work
  | call size => exact h.call hskips
  | proceed => exact h.proceed hskips

theorem Inv.exec (h : s.Inv) {actions : List Action}
    (hok : Run.Ok Log.step SkipsNothing s actions) : (Run.exec Log.step s actions).Inv :=
  Run.invariant_of_ok (fun _ _ hinv hskips ↦ hinv.step hskips) actions s h hok

/-- What has been read is a prefix of what was written. -/
theorem Inv.read_prefix (h : s.Inv) : s.follower.read <+: s.written := by
  obtain ⟨front, back, hhistory, hread⟩ := h.place
  rw [h.written, hhistory, hread, List.flatMap_append, List.flatMap_cons,
    List.prefix_append_right_inj]
  exact (List.take_prefix _ _).trans (List.prefix_append _ _)

/-! ### After the writer has stopped -/

/-- What has been read, when the last file has been read to its end. -/
theorem Inv.read_eq (h : s.Inv) (hfile : s.follower.file = s.log.file)
    (hoffset : s.follower.offset = (s.dir.content s.follower.file).length) :
    s.follower.read = s.written := by
  obtain ⟨front, back, hhistory, hread⟩ := h.place
  have hback : back = [] := by
    have hlast := h.last
    have hnodup := h.nodup
    rw [hhistory] at hlast hnodup
    rcases List.eq_nil_or_concat back with rfl | ⟨mid, last, rfl⟩
    · rfl
    · rw [List.concat_eq_append] at hlast hnodup
      rw [← List.cons_append, ← List.append_assoc, List.getLast?_concat, Option.some.injEq,
        ← hfile] at hlast
      rw [hlast] at hnodup
      exact absurd hnodup (by simp [List.nodup_append])
  rw [h.written, hhistory, hread, hoffset, hback, List.take_length, List.flatMap_append]
  simp

end Scene

/-- The steps that a call takes after its check. -/
def settle : List Action := [.proceed, .proceed, .proceed]

/-- A whole call. -/
def callOf (size : ℕ) : List Action := .call size :: settle

/-- The call that may be under way, and then more calls, with no step of the writer. -/
def quiet (sizes : List ℕ) : List Action := settle ++ sizes.flatMap callOf

/-- A follower's steps alone. -/
def Follower.settle (f : Follower) (dir : LogDir) : Follower :=
  ((f.proceed dir).proceed dir).proceed dir

theorem exec_settle (s : Scene) :
    Run.exec step s settle = { s with follower := s.follower.settle s.dir } := rfl

theorem exec_callOf (s : Scene) (size : ℕ) :
    Run.exec step s (callOf size) =
      { s with follower := (s.follower.call s.dir size).settle s.dir } := rfl

theorem settle_phase (f : Follower) (dir : LogDir) : (f.settle dir).phase = .idle := by
  have hidle : ∀ f : Follower, f.phase = .idle → f.proceed dir = f := by
    intro f hf
    rw [Follower.proceed, hf]
  have hreading : ∀ (f : Follower) size, f.phase = .reading size →
      (f.proceed dir).phase = .idle := by
    intro f size hf
    rw [Follower.proceed, hf]
  have hopening : ∀ (f : Follower) size, f.phase = .opening size →
      (f.proceed dir).phase = .idle ∨ ∃ size', (f.proceed dir).phase = .reading size' := by
    intro f size hf
    rw [Follower.proceed, hf]
    cases dir.entry 0 with
    | none => exact .inl rfl
    | some i => exact .inr ⟨size, rfl⟩
  have hchecked : ∀ (f : Follower) size rotated, f.phase = .checked size rotated →
      (f.proceed dir).phase = .idle ∨ ∃ size', (f.proceed dir).phase = .opening size' := by
    intro f size rotated hf
    simp only [Follower.proceed, hf]
    split_ifs
    · exact .inl rfl
    · exact .inr ⟨size, rfl⟩
  rw [Follower.settle]
  cases hphase : f.phase with
  | idle => rw [hidle f hphase, hidle f hphase, hidle f hphase, hphase]
  | checked size rotated =>
    rcases hchecked f size rotated hphase with h | ⟨size', h⟩
    · rw [hidle _ h, hidle _ h, h]
    · rcases hopening _ size' h with h | ⟨size'', h⟩
      · rw [hidle _ h, h]
      · exact hreading _ size'' h
  | opening size =>
    rcases hopening f size hphase with h | ⟨size', h⟩
    · rw [hidle _ h, hidle _ h, h]
    · rw [hidle _ (hreading _ size' h)]
      exact hreading _ size' h
  | reading size =>
    have h := hreading f size hphase
    rw [hidle _ h, hidle _ h, h]

theorem proceed_read (f : Follower) (dir : LogDir) : f.read <+: (f.proceed dir).read := by
  rw [Follower.proceed]
  cases hphase : f.phase with
  | idle => exact List.prefix_rfl
  | checked size rotated => exact List.prefix_append _ _
  | opening size =>
    cases dir.entry 0 with
    | none => exact List.prefix_rfl
    | some i => exact List.prefix_rfl
  | reading size => exact List.prefix_append _ _

theorem settle_read (f : Follower) (dir : LogDir) : f.read <+: (f.settle dir).read :=
  ((proceed_read f dir).trans (proceed_read _ dir)).trans (proceed_read _ dir)

theorem length_fill (f : Follower) (dir : LogDir) (size : ℕ) :
    (f.fill dir size).1.read.length = f.read.length + (f.fill dir size).2 := by
  simp [Follower.fill]

namespace Scene

variable {s : Scene}

/-- With the writer at rest a call reads something, unless everything has been read. -/
theorem Inv.callOf (h : s.Inv) (hwriter : s.writer = .idle) (hidle : s.follower.phase = .idle)
    {size : ℕ} (hok : Run.Ok Log.step SkipsNothing s (callOf size)) :
    (Run.exec Log.step s (callOf size)).follower.read = s.written ∨
      s.follower.read.length < (Run.exec Log.step s (callOf size)).follower.read.length := by
  have hsize : 0 < size := hok.1
  have hpath : s.dir.entry 0 = some s.log.file := h.path fun event ↦ by simp [hwriter]
  have hprefix : (Run.exec Log.step s (Log.callOf size)).follower.read <+: s.written :=
    Inv.read_prefix (h.exec hok)
  have hcall : s.follower.call s.dir size =
      { s.follower with
        phase := .checked size (decide (s.dir.entry 0 ≠ some s.follower.file)) } := by
    rw [Follower.call, hidle]
  by_cases hmore : 0 < (s.follower.fill s.dir size).2
  · -- there was something left in the file
    right
    have hfirst : ((s.follower.call s.dir size).proceed s.dir).read.length =
        s.follower.read.length + (s.follower.fill s.dir size).2 := by
      rw [hcall]
      exact length_fill s.follower s.dir size
    have hrest := ((proceed_read ((s.follower.call s.dir size).proceed s.dir) s.dir).trans
      (proceed_read _ s.dir)).length_le
    rw [exec_callOf]
    exact Nat.lt_of_lt_of_le (by omega) hrest
  · have hend := offset_eq_of_fill hsize h.offset_le hmore
    by_cases hfile : s.follower.file = s.log.file
    · -- the last file was read before
      left
      refine hprefix.eq_of_length_le (List.IsPrefix.length_le ?_)
      rw [← h.read_eq hfile hend, exec_callOf, hcall]
      exact settle_read { s.follower with phase := .checked size _ } s.dir
    · -- the call switches to the last file
      have hmoved : s.dir.entry 0 ≠ some s.follower.file := by
        rw [hpath]
        exact fun heq ↦ hfile (Option.some.inj heq).symm
      have hfirst : (s.follower.call s.dir size).proceed s.dir =
          { (s.follower.fill s.dir size).1 with phase := .opening size } := by
        rw [hcall, decide_eq_true hmoved, Follower.proceed]
        have hneg : ¬(0 < (s.follower.fill s.dir size).2 ∨ true = false) := by simpa using hmore
        exact congrArg (fun phase ↦ { (s.follower.fill s.dir size).1 with phase := phase })
          (if_neg hneg)
      obtain ⟨second, hsecond⟩ : ∃ second, ((s.follower.call s.dir size).proceed s.dir).proceed
          s.dir = second := ⟨_, rfl⟩
      have hswitched : second.file = s.log.file ∧ second.offset = 0 ∧
          second.phase = .reading size ∧ s.follower.read <+: second.read := by
        rw [← hsecond, hfirst, Follower.proceed]
        simp only [hpath, true_and]
        exact List.prefix_append _ _
      obtain ⟨hsfile, hsoffset, hsphase, hsread⟩ := hswitched
      have hinv : Inv { s with follower := second } := by
        have hfront : Run.Ok Log.step SkipsNothing s [.call size, .proceed, .proceed] :=
          ((Run.ok_append s _ [Action.proceed]).mp hok).1
        rw [← hsecond]
        exact h.exec hfront
      have hthird : (Run.exec Log.step s (Log.callOf size)).follower =
          { (second.fill s.dir size).1 with phase := .idle } := by
        rw [exec_callOf]
        change (((s.follower.call s.dir size).proceed s.dir).proceed s.dir).proceed s.dir = _
        rw [hsecond, Follower.proceed, hsphase]
      by_cases hmore' : 0 < (second.fill s.dir size).2
      · right
        rw [hthird]
        have hlength := length_fill second s.dir size
        have hle := hsread.length_le
        change s.follower.read.length < (second.fill s.dir size).1.read.length
        omega
      · left
        refine hprefix.eq_of_length_le (List.IsPrefix.length_le ?_)
        have hend' := offset_eq_of_fill hsize hinv.offset_le hmore'
        rw [← hinv.read_eq hsfile hend', hthird]
        exact List.prefix_append _ _

/-- With the writer at rest as many calls as there are bytes left read all of them. -/
theorem Inv.calls (sizes : List ℕ) {s : Scene} (h : s.Inv) (hwriter : s.writer = .idle)
    (hidle : s.follower.phase = .idle)
    (hok : Run.Ok Log.step SkipsNothing s (sizes.flatMap Log.callOf))
    (henough : s.written.length ≤ s.follower.read.length + sizes.length) :
    (Run.exec Log.step s (sizes.flatMap Log.callOf)).follower.read = s.written := by
  induction sizes generalizing s with
  | nil => exact h.read_prefix.eq_of_length_le (by simpa using henough)
  | cons size sizes ih =>
    rw [List.flatMap_cons] at hok ⊢
    obtain ⟨hcall, hrest⟩ := (Run.ok_append s _ _).mp hok
    rw [Run.exec_append]
    have hinv := h.exec hcall
    have hstep := h.callOf hwriter hidle hcall
    refine ih hinv hwriter (settle_phase _ s.dir) hrest ?_
    change s.written.length ≤ _
    rcases hstep with hall | hmore
    · rw [hall]
      exact Nat.le_add_right _ _
    · rw [List.length_cons] at henough
      omega

end Scene

/-- While no call passes over a file that holds anything, what the follower has read is always a
prefix of what was written since it started; and from whenever the writer stops, finitely many calls
read all of it. -/
theorem follower_misses_nothing (rotation : Rotation) (dir : LogDir) (actions : List Action)
    (hok : Run.Ok step SkipsNothing (Scene.start rotation dir) actions) :
    let s := Run.exec step (Scene.start rotation dir) actions
    s.follower.read <+: s.written ∧
      (s.writer = .idle → ∃ enough, ∀ sizes : List ℕ, enough ≤ sizes.length →
        Run.Ok step SkipsNothing s (quiet sizes) →
          (Run.exec step s (quiet sizes)).follower.read = s.written) := by
  intro s
  have hinv : s.Inv := (Scene.inv_start rotation dir).exec hok
  refine ⟨hinv.read_prefix, fun hwriter ↦ ⟨s.written.length, fun sizes henough hquiet ↦ ?_⟩⟩
  obtain ⟨hsettle, hcalls⟩ := (Run.ok_append s _ _).mp hquiet
  rw [quiet, Run.exec_append]
  exact (hinv.exec hsettle).calls sizes hwriter (settle_phase _ s.dir) hcalls
    (Nat.le_trans henough (Nat.le_add_left _ _))

theorem follower_misses_nothing_once :
    let s := Run.exec step (Scene.start ⟨4, 1⟩ Disk.empty)
      [.write [1, 2, 3], .work, .call 2, .proceed, .write [4, 5, 6], .work, .work, .work, .call 2,
        .proceed, .work, .call 8, .proceed, .proceed, .proceed]
    s.follower.read <+: s.written ∧
      (s.writer = .idle → ∃ enough, ∀ sizes : List ℕ, enough ≤ sizes.length →
        Run.Ok step SkipsNothing s (quiet sizes) →
          (Run.exec step s (quiet sizes)).follower.read = s.written) :=
  follower_misses_nothing ⟨4, 1⟩ Disk.empty _ (by decide)

/-- With two rotations between two calls the file between them is never read. -/
theorem follower_misses_file :
    let s := Run.exec step (Scene.start ⟨4, 2⟩ Disk.empty)
      [.write [1, 2, 3], .work, .call 8, .proceed,
        .write [4, 5, 6], .work, .work, .work, .work, .write [7, 8, 9], .work, .work, .work, .work,
        .call 8, .proceed, .proceed, .proceed]
    s.follower.read = [1, 2, 3, 7, 8, 9] ∧ s.written = [1, 2, 3, 4, 5, 6, 7, 8, 9] ∧
      ¬s.follower.read <+: s.written := by
  decide

end Kmux.Log
