import Kmux.Lib.Inodes
import Kmux.Lib.Run
import Mathlib.Data.List.Basic

/-!
# The identity key of a machine

All processes of a user share one key file, and whichever comes first creates it. A call that finds
no file writes a key of its own to a staging file and links that to the path, which fails where
another call was faster; the loser reads what is at the path instead. Every step may be the last of
its process, and a staging file that is left behind stays.

A file that is being written has one name, the staging name of the call that writes it, and no other
live call has that name. So what gets linked to the path is a whole key that nothing is written to
any more, and what is at the path stays as it is.
-/

namespace Kmux.IdentityKey

open Inodes

/-- The names in the directory. A staging file is named after the process and a count in it. -/
inductive Name
  | path
  | staging (pid seq : ℕ)
  deriving DecidableEq, Repr

abbrev KeyDir := Disk Name UInt8

/-- Which of the two files a private write is for. -/
inductive Target
  | staging
  | path
  deriving DecidableEq, Repr

/-- What became of the write to the staging file and of the link. -/
inductive Linked
  | linked
  | alreadyExists
  | refused
  | unwritten
  deriving DecidableEq, Repr

/-- Where a call is. -/
inductive Phase (κ : Type)
  | reading
  | generating
  | creating (target : Target)
  | filling (target : Target) (file written : ℕ)
  | removing (target : Target)
  | linking
  | unlinking (result : Linked)
  | checking
  | adopting
  | succeeded (identity : κ)
  | failed
  | killed

/-- A call has a process, a number in it, and the key it would install. -/
structure Call (κ : Type) where
  pid : ℕ
  seq : ℕ
  key : List UInt8
  phase : Phase κ

/-- How a step goes: as it should, not at all, or for some bytes only. -/
inductive Outcome
  | ok
  | fail
  | chunk (n : ℕ)
  deriving DecidableEq, Repr

variable {κ : Type}

namespace Call

def staging (c : Call κ) : Name := .staging c.pid c.seq

def name (c : Call κ) : Target → Name
  | .staging => c.staging
  | .path => .path

/-- A call that may still take a step. -/
def Live (c : Call κ) : Prop :=
  match c.phase with
  | .succeeded _ | .failed | .killed => False
  | _ => True

instance (c : Call κ) : Decidable c.Live := by
  unfold Live
  split <;> infer_instance

end Call

/-! ## The steps of a call -/

section Steps

variable (fromPkcs8 : List UInt8 → Option κ) (hardLinks : Bool)

/-- The end of a call: the bytes are a key or they are not. -/
def finish (bytes : List UInt8) : Phase κ :=
  match fromPkcs8 bytes with
  | some identity => .succeeded identity
  | none => .failed

/-- After a private write. -/
def afterWrite (c : Call κ) : Target → Bool → Phase κ
  | .staging, true => .linking
  | .staging, false => .unlinking .unwritten
  | .path, true => finish fromPkcs8 c.key
  | .path, false => .checking

/-- After the staging name was removed. -/
def afterLink (c : Call κ) : Linked → Phase κ
  | .linked => finish fromPkcs8 c.key
  | .alreadyExists => .adopting
  | .refused => .creating .path
  | .unwritten => .failed

/-- Read the file at the path; with what was read. -/
def readPath (dir : KeyDir) (missing : Phase κ) (outcome : Outcome) :
    Phase κ × Option (List UInt8) :=
  match outcome, dir.entry .path with
  | .fail, _ => (.failed, none)
  | _, some i => (finish fromPkcs8 (dir.content i), some (dir.content i))
  | _, none => (missing, none)

/-- One step: the directory and the phase after it. -/
def advance (dir : KeyDir) (c : Call κ) (outcome : Outcome) : KeyDir × Phase κ :=
  match c.phase with
  | .reading => (dir, (readPath fromPkcs8 dir .generating outcome).1)
  | .generating => (dir, if outcome = .fail then .failed else .creating .staging)
  | .creating target =>
    if outcome = .fail ∨ dir.entry (c.name target) ≠ none then
      (dir, afterWrite fromPkcs8 c target false)
    else (dir.create (c.name target), .filling target dir.next 0)
  | .filling target file written =>
    match outcome with
    | .fail => (dir, .removing target)
    | .chunk n =>
      let chunk := (c.key.drop written).take n
      (dir.append file chunk, .filling target file (written + chunk.length))
    | .ok =>
      -- the rest is written and synced
      (dir.append file (c.key.drop written), afterWrite fromPkcs8 c target true)
  | .removing target =>
    (if outcome = .fail then dir else dir.unlink (c.name target),
      afterWrite fromPkcs8 c target false)
  | .linking =>
    if hardLinks = false ∨ dir.entry c.staging = none then (dir, .unlinking .refused)
    else if dir.entry .path ≠ none then (dir, .unlinking .alreadyExists)
    else (dir.link c.staging .path, .unlinking .linked)
  | .unlinking result =>
    (if outcome = .fail then dir else dir.unlink c.staging, afterLink fromPkcs8 c result)
  | .checking => (dir, if dir.entry .path ≠ none then .adopting else .failed)
  | .adopting => (dir, (readPath fromPkcs8 dir .failed outcome).1)
  | .succeeded identity => (dir, .succeeded identity)
  | .failed => (dir, .failed)
  | .killed => (dir, .killed)

/-- What a step reads of the file at the path. -/
def reads (dir : KeyDir) (c : Call κ) (outcome : Outcome) : Option (List UInt8) :=
  match c.phase with
  | .reading => (readPath fromPkcs8 dir .generating outcome).2
  | .adopting => (readPath fromPkcs8 dir .failed outcome).2
  | _ => none

end Steps

/-! ## Any number of processes -/

/-- The directory, all calls that were ever made, and all that was ever read of the file. -/
structure World (κ : Type) where
  dir : KeyDir
  calls : List (Call κ)
  seen : List (List UInt8)

/-- A call is made, takes a step, or is killed with its process. No two live calls have one number
in one process. -/
inductive Action
  | load (pid seq : ℕ) (key : List UInt8)
  | advance (call : ℕ) (outcome : Outcome)
  | kill (call : ℕ)

def World.start (dir : KeyDir) : World κ := ⟨dir, [], []⟩

/-- A live call has this staging name. -/
def World.Uses (w : World κ) (pid seq : ℕ) : Prop :=
  ∃ c ∈ w.calls, c.Live ∧ c.pid = pid ∧ c.seq = seq

instance (w : World κ) (pid seq : ℕ) : Decidable (w.Uses pid seq) :=
  inferInstanceAs (Decidable (∃ c ∈ w.calls, _))

def step (fromPkcs8 : List UInt8 → Option κ) (hardLinks : Bool) (w : World κ) :
    Action → World κ
  | .load pid seq key =>
    if w.Uses pid seq then w
    else { w with calls := w.calls ++ [{ pid := pid, seq := seq, key := key, phase := .reading }] }
  | .advance i outcome =>
    match w.calls[i]? with
    | none => w
    | some c =>
      let (dir, phase) := advance fromPkcs8 hardLinks w.dir c outcome
      { dir := dir
        calls := w.calls.set i { c with phase := phase }
        seen := w.seen ++ (reads fromPkcs8 w.dir c outcome).toList }
  | .kill i =>
    match w.calls[i]? with
    | none => w
    | some c =>
      if c.Live then { w with calls := w.calls.set i { c with phase := .killed } } else w

/-! ## What a step leaves alone -/

/-- The file at the path holds exactly these bytes. -/
def Holds (dir : KeyDir) (bytes : List UInt8) : Prop :=
  ∃ i, dir.entry .path = some i ∧ dir.content i = bytes

/-- A step of the call with this staging name: the other names stay, the file at the path stays, and
so do the contents and the only names of all files that have another name. -/
structure Spares (staging : Name) (dir dir' : KeyDir) : Prop where
  entry : ∀ name, name ≠ staging → name ≠ .path → dir'.entry name = dir.entry name
  path : ∀ i, dir.entry .path = some i → dir'.entry .path = some i
  content : ∀ name i, name ≠ staging → dir.entry name = some i → dir'.content i = dir.content i
  sole : ∀ name i, name ≠ staging → dir.entry name = some i →
    (∀ n, dir.entry n = some i → n = name) → ∀ n, dir'.entry n = some i → n = name

namespace Spares

variable {staging : Name} {dir dir' : KeyDir}

theorem refl (staging : Name) (dir : KeyDir) : Spares staging dir dir where
  entry _ _ _ := rfl
  path _ h := h
  content _ _ _ _ := rfl
  sole _ _ _ _ h := h

theorem holds (h : Spares staging dir dir') (hne : Name.path ≠ staging) {bytes : List UInt8}
    (hb : Holds dir bytes) : Holds dir' bytes := by
  obtain ⟨i, hpath, rfl⟩ := hb
  exact ⟨i, h.path i hpath, h.content .path i hne hpath⟩

theorem create (hne : Name.path ≠ staging) : Spares staging dir (dir.create staging) where
  entry name hname _ := Disk.create_of_ne hname
  path i h := (Disk.create_of_ne hne).trans h
  content name i _ h := by simp [Nat.ne_of_lt (dir.lt_next name i h)]
  sole name i hname h hsole n hn := by
    by_cases hstaging : n = staging
    · rw [hstaging, Disk.create_self] at hn
      exact absurd (dir.lt_next name i h) (by simp [Option.some.inj hn])
    · rw [Disk.create_of_ne hstaging] at hn
      exact hsole n hn

theorem append {file : ℕ} (hsole : ∀ name, dir.entry name = some file → name = staging)
    (bytes : List UInt8) : Spares staging dir (dir.append file bytes) where
  entry _ _ _ := rfl
  path _ h := h
  content name i hname h := by
    have hne : i ≠ file := fun heq ↦ hname (hsole name (heq ▸ h))
    simp [hne]
  sole _ _ _ _ h := h

theorem unlink (hne : Name.path ≠ staging) : Spares staging dir (dir.unlink staging) where
  entry name hname _ := by simp [hname]
  path i h := by simpa [hne] using h
  content _ _ _ _ := rfl
  sole name i _ _ hsole n hn := by
    by_cases hstaging : n = staging
    · simp [hstaging] at hn
    · exact hsole n (by simpa [hstaging] using hn)

theorem link (hfree : dir.entry .path = none) : Spares staging dir (dir.link staging .path) where
  entry name _ hname := by simp [hname]
  path i h := by
    rw [hfree] at h
    cases h
  content _ _ _ _ := rfl
  sole name i hname _ hsole n hn := by
    by_cases hpath : n = .path
    · subst hpath
      exact absurd (hsole staging (by simpa using hn)) (Ne.symm hname)
    · exact hsole n (by simpa [hpath] using hn)

end Spares

/-! ## One call -/

section Invariant

variable (fromPkcs8 : List UInt8 → Option κ)

/-- What is known of a call by its phase. The file it writes has no name but its staging name, and
what it has linked or read is at the path. -/
def CallInv (dir : KeyDir) (c : Call κ) : Prop :=
  match c.phase with
  | .filling .staging i n =>
    dir.entry c.staging = some i ∧ (∀ name, dir.entry name = some i → name = c.staging) ∧
      dir.content i = c.key.take n
  | .linking => ∃ i, dir.entry c.staging = some i ∧ dir.content i = c.key
  | .unlinking .linked => Holds dir c.key
  | .succeeded identity => ∃ bytes, Holds dir bytes ∧ fromPkcs8 bytes = some identity
  -- where links can be had, nothing is written at the path
  | .creating .path | .filling .path _ _ | .removing .path => False
  | .checking | .unlinking .refused => False
  | _ => True

variable {fromPkcs8} {dir dir' : KeyDir} {c : Call κ}

theorem path_ne_staging (c : Call κ) : Name.path ≠ c.staging := fun h ↦ nomatch h

theorem holds_finish {bytes : List UInt8} (h : Holds dir bytes) (c : Call κ) :
    CallInv fromPkcs8 dir { c with phase := finish fromPkcs8 bytes } := by
  rw [finish]
  cases hbytes : fromPkcs8 bytes with
  | none => trivial
  | some identity => exact ⟨bytes, h, hbytes⟩

/-- The step of another call changes nothing about this one. -/
theorem CallInv.spared (h : CallInv fromPkcs8 dir c) {staging : Name}
    (hs : Spares staging dir dir') (hpath : Name.path ≠ staging)
    (hne : c.Live → c.staging ≠ staging) : CallInv fromPkcs8 dir' c := by
  have hpath' : c.staging ≠ .path := (path_ne_staging c).symm
  rw [CallInv] at h ⊢
  cases hphase : c.phase with
  | filling target i n =>
    cases target with
    | staging =>
      have hlive : c.staging ≠ staging := hne (by simp [Call.Live, hphase])
      rw [hphase] at h
      obtain ⟨hentry, hsole, hcontent⟩ := h
      exact ⟨(hs.entry _ hlive hpath').trans hentry, hs.sole _ i hlive hentry hsole,
        (hs.content _ i hlive hentry).trans hcontent⟩
    | path =>
      rw [hphase] at h
      exact h
  | linking =>
    have hlive : c.staging ≠ staging := hne (by simp [Call.Live, hphase])
    rw [hphase] at h
    obtain ⟨i, hentry, hcontent⟩ := h
    exact ⟨i, (hs.entry _ hlive hpath').trans hentry,
      (hs.content _ i hlive hentry).trans hcontent⟩
  | unlinking result =>
    rw [hphase] at h
    cases result with
    | linked => exact hs.holds hpath h
    | alreadyExists => trivial
    | refused => exact h
    | unwritten => trivial
  | succeeded identity =>
    rw [hphase] at h
    obtain ⟨bytes, hb, hidentity⟩ := h
    exact ⟨bytes, hs.holds hpath hb, hidentity⟩
  | creating target =>
    rw [hphase] at h
    cases target <;> exact h
  | removing target =>
    rw [hphase] at h
    cases target <;> exact h
  | checking =>
    rw [hphase] at h
    exact h
  | reading => trivial
  | generating => trivial
  | adopting => trivial
  | failed => trivial
  | killed => trivial

/-- What one step of a call does: it spares the others, what is known of the call stays true, and a
file that is new at the path holds its key. -/
structure StepOk (fromPkcs8 : List UInt8 → Option κ) (dir : KeyDir) (c : Call κ)
    (next : KeyDir × Phase κ) : Prop where
  spares : Spares c.staging dir next.1
  inv : CallInv fromPkcs8 next.1 { c with phase := next.2 }
  path : ∀ i, next.1.entry .path = some i → dir.entry .path = some i ∨ next.1.content i = c.key

/-- A step that does not touch the directory. -/
theorem stepOk_same {phase : Phase κ} (h : CallInv fromPkcs8 dir { c with phase := phase }) :
    StepOk fromPkcs8 dir c (dir, phase) := ⟨.refl _ _, h, fun _ ↦ .inl⟩

theorem stepOk_readPath (c : Call κ) (outcome : Outcome) {missing : Phase κ}
    (hmissing : CallInv fromPkcs8 dir { c with phase := missing }) :
    StepOk fromPkcs8 dir c (dir, (readPath fromPkcs8 dir missing outcome).1) := by
  refine stepOk_same ?_
  unfold readPath
  split
  · trivial
  · next i _ hpath => exact holds_finish ⟨i, hpath, rfl⟩ c
  · exact hmissing

theorem stepOk_unlink {outcome : Outcome} {phase : Phase κ}
    (h : ∀ dir', Spares c.staging dir dir' → CallInv fromPkcs8 dir' { c with phase := phase }) :
    StepOk fromPkcs8 dir c (if outcome = .fail then dir else dir.unlink c.staging, phase) := by
  by_cases hfail : outcome = .fail
  · rw [if_pos hfail]
    exact stepOk_same (h dir (.refl _ _))
  · rw [if_neg hfail]
    have hspares : Spares c.staging dir (dir.unlink c.staging) := .unlink (path_ne_staging c)
    refine ⟨hspares, h _ hspares, fun i hi ↦ .inl ?_⟩
    simpa [path_ne_staging c] using hi

theorem CallInv.advance (h : CallInv fromPkcs8 dir c) (outcome : Outcome) :
    StepOk fromPkcs8 dir c (advance fromPkcs8 true dir c outcome) := by
  rw [CallInv] at h
  rw [IdentityKey.advance]
  cases hphase : c.phase with
  | reading => exact stepOk_readPath c outcome trivial
  | generating =>
    refine stepOk_same ?_
    split_ifs <;> trivial
  | creating target =>
    cases target with
    | path =>
      rw [hphase] at h
      exact h.elim
    | staging =>
      dsimp only
      split_ifs with hno
      · exact stepOk_same trivial
      · have hfree : dir.entry c.staging = none := by
          simpa [Call.name] using fun hne ↦ hno (.inr hne)
        refine ⟨.create (path_ne_staging c), ⟨Disk.create_self _, ?_, ?_⟩, fun i hi ↦ .inl ?_⟩
        · intro name hname
          by_contra hne
          have hold : dir.entry name = some dir.next := (Disk.create_of_ne hne).symm.trans hname
          exact Nat.lt_irrefl _ (dir.lt_next name _ hold)
        · simp [Call.name]
        · exact (Disk.create_of_ne (path_ne_staging c)).symm.trans hi
  | filling target i n =>
    cases target with
    | path =>
      rw [hphase] at h
      exact h.elim
    | staging =>
      rw [hphase] at h
      obtain ⟨hentry, hsole, hcontent⟩ := h
      have hpath : dir.entry .path ≠ some i := fun heq ↦ path_ne_staging c (hsole .path heq)
      cases outcome with
      | fail => exact stepOk_same trivial
      | chunk k =>
        refine ⟨.append hsole _, ⟨hentry, hsole, ?_⟩, fun j hj ↦ .inl hj⟩
        simp [hcontent, List.take_add, List.take_eq_take_iff]
      | ok =>
        refine ⟨.append hsole _, ⟨i, hentry, ?_⟩, fun j hj ↦ .inl hj⟩
        simp [hcontent]
  | removing target =>
    cases target with
    | path =>
      rw [hphase] at h
      exact h.elim
    | staging => exact stepOk_unlink fun _ _ ↦ trivial
  | linking =>
    rw [hphase] at h
    obtain ⟨i, hentry, hcontent⟩ := h
    have hlinks : ¬(true = false ∨ dir.entry c.staging = none) := by simp [hentry]
    dsimp only
    rw [if_neg hlinks]
    split_ifs with hexists
    · exact stepOk_same trivial
    · have hfree : dir.entry .path = none := by simpa using hexists
      refine ⟨.link hfree, ⟨i, by simp [hentry], hcontent⟩, fun j hj ↦ .inr ?_⟩
      have hij : i = j := by simpa [hentry] using hj
      exact hij ▸ hcontent
  | unlinking result =>
    rw [hphase] at h
    cases result with
    | linked =>
      exact stepOk_unlink fun dir' hs ↦ holds_finish (hs.holds (path_ne_staging c) h) c
    | alreadyExists => exact stepOk_unlink fun _ _ ↦ trivial
    | refused => exact h.elim
    | unwritten => exact stepOk_unlink fun _ _ ↦ trivial
  | checking =>
    rw [hphase] at h
    exact h.elim
  | adopting => exact stepOk_readPath c outcome trivial
  | succeeded identity =>
    rw [hphase] at h
    exact stepOk_same h
  | failed => exact stepOk_same trivial
  | killed => exact stepOk_same trivial

/-- What is read is the whole file at the path. -/
theorem holds_of_reads {outcome : Outcome} {bytes : List UInt8}
    (h : reads fromPkcs8 dir c outcome = some bytes) : Holds dir bytes := by
  have hread : ∀ missing : Phase κ,
      (readPath fromPkcs8 dir missing outcome).2 = some bytes → Holds dir bytes := by
    intro missing hsome
    unfold readPath at hsome
    split at hsome
    · cases hsome
    · next i _ hpath => exact ⟨i, hpath, Option.some.inj hsome⟩
    · cases hsome
  unfold reads at h
  split at h
  · exact hread _ h
  · exact hread _ h
  · cases h

end Invariant

/-! ## Any run -/

section Runs

variable (fromPkcs8 : List UInt8 → Option κ)

/-- The bytes are what was at the path at first, or the key of some call. -/
def World.Known (dir₀ : KeyDir) (w : World κ) (bytes : List UInt8) : Prop :=
  Holds dir₀ bytes ∨ ∃ c ∈ w.calls, c.key = bytes

/-- What holds of the directory and all calls after any run from `dir₀`. -/
structure World.Inv (dir₀ : KeyDir) (w : World κ) : Prop where
  calls : ∀ c ∈ w.calls, CallInv fromPkcs8 w.dir c
  distinct : ∀ (i j : ℕ) (c d : Call κ), w.calls[i]? = some c → w.calls[j]? = some d → c.Live →
    d.Live → c.staging = d.staging → i = j
  whole : ∀ i, w.dir.entry .path = some i → w.Known dir₀ (w.dir.content i)
  seen : ∀ bytes ∈ w.seen, Holds w.dir bytes

variable {fromPkcs8} {dir₀ : KeyDir} {w : World κ}

theorem World.inv_start (dir : KeyDir) : (World.start dir : World κ).Inv fromPkcs8 dir where
  calls _ h := by simp [World.start] at h
  distinct _ _ _ _ h := by simp [World.start] at h
  whole i h := .inl ⟨i, h, rfl⟩
  seen _ h := by simp [World.start] at h

/-- The calls of the world with one call in another phase. -/
theorem mem_set_phase {calls : List (Call κ)} {i : ℕ} {c d : Call κ} {phase : Phase κ}
    (hi : calls[i]? = some c) (hd : d ∈ calls.set i { c with phase := phase }) :
    d = { c with phase := phase } ∨ ∃ j, j ≠ i ∧ calls[j]? = some d := by
  obtain ⟨j, hj⟩ := List.mem_iff_getElem?.mp hd
  by_cases hij : i = j
  · subst hij
    rw [List.getElem?_set_self (List.getElem?_eq_some_iff.mp hi).1] at hj
    exact .inl (Option.some.inj hj).symm
  · exact .inr ⟨j, Ne.symm hij, by rwa [List.getElem?_set_ne hij] at hj⟩

/-- Another phase of a live call keeps the staging names apart. -/
theorem World.Inv.distinct_set (h : w.Inv fromPkcs8 dir₀) {i : ℕ} {c : Call κ} {phase : Phase κ}
    (hi : w.calls[i]? = some c) (hlive : c.Live) :
    ∀ (j k : ℕ) (d e : Call κ), (w.calls.set i { c with phase := phase })[j]? = some d →
      (w.calls.set i { c with phase := phase })[k]? = some e → d.Live → e.Live →
      d.staging = e.staging → j = k := by
  have hold : ∀ (j : ℕ) (d : Call κ),
      (w.calls.set i { c with phase := phase })[j]? = some d → d.Live →
      ∃ d', w.calls[j]? = some d' ∧ d'.Live ∧ d'.staging = d.staging := by
    intro j d hj hd
    by_cases hij : i = j
    · subst hij
      rw [List.getElem?_set_self (List.getElem?_eq_some_iff.mp hi).1] at hj
      obtain rfl := Option.some.inj hj
      exact ⟨c, hi, hlive, rfl⟩
    · rw [List.getElem?_set_ne hij] at hj
      exact ⟨d, hj, hd, rfl⟩
  intro j k d e hj hk hd he heq
  obtain ⟨d', hj', hd', hds⟩ := hold j d hj hd
  obtain ⟨e', hk', he', hes⟩ := hold k e hk he
  exact h.distinct j k d' e' hj' hk' hd' he' (hds.trans (heq.trans hes.symm))

theorem World.Known.set {bytes : List UInt8} (h : w.Known dir₀ bytes) {i : ℕ} {c : Call κ}
    (hi : w.calls[i]? = some c) (dir : KeyDir) (phase : Phase κ) (seen : List (List UInt8)) :
    World.Known dir₀ ⟨dir, w.calls.set i { c with phase := phase }, seen⟩ bytes := by
  refine h.imp_right ?_
  rintro ⟨d, hd, rfl⟩
  obtain ⟨j, hj⟩ := List.mem_iff_getElem?.mp hd
  by_cases hij : i = j
  · subst hij
    obtain rfl := Option.some.inj (hi.symm.trans hj)
    exact ⟨_, List.mem_set (List.getElem?_eq_some_iff.mp hi).1 _, rfl⟩
  · exact ⟨d, List.mem_iff_getElem?.mpr ⟨j, by rwa [List.getElem?_set_ne hij]⟩, rfl⟩

/-- A call that is over takes no step. -/
theorem advance_of_not_live (dir : KeyDir) {c : Call κ} (hdead : ¬c.Live) (outcome : Outcome) :
    advance fromPkcs8 true dir c outcome = (dir, c.phase) ∧
      reads fromPkcs8 dir c outcome = none := by
  cases hphase : c.phase with
  | succeeded identity => simp [advance, reads, hphase]
  | failed => simp [advance, reads, hphase]
  | killed => simp [advance, reads, hphase]
  | _ => exact absurd (by simp [Call.Live, hphase]) hdead

/-- The step of one live call. -/
theorem World.Inv.advance (h : w.Inv fromPkcs8 dir₀) {i : ℕ} {c : Call κ}
    (hi : w.calls[i]? = some c) (hlive : c.Live) {next : KeyDir × Phase κ}
    (hstep : StepOk fromPkcs8 w.dir c next) {seen : List (List UInt8)}
    (hseen : ∀ bytes ∈ seen, Holds w.dir bytes) :
    World.Inv fromPkcs8 dir₀
      ⟨next.1, w.calls.set i { c with phase := next.2 }, w.seen ++ seen⟩ where
  calls d hd := by
    obtain rfl | ⟨j, hji, hj⟩ := mem_set_phase hi hd
    · exact hstep.inv
    · have hne : d.Live → d.staging ≠ c.staging := fun hd heq ↦
        hji (h.distinct j i d c hj hi hd hlive heq)
      exact (h.calls d (List.mem_of_getElem? hj)).spared hstep.spares (path_ne_staging c) hne
  distinct := h.distinct_set hi hlive
  whole j hj := by
    obtain hold | hkey := hstep.path j hj
    · have hcontent : next.1.content j = w.dir.content j :=
        hstep.spares.content .path j (path_ne_staging c) hold
      exact (hcontent ▸ h.whole j hold).set hi _ _ _
    · exact .inr ⟨_, List.mem_set (List.getElem?_eq_some_iff.mp hi).1 _, hkey.symm⟩
  seen bytes hbytes := by
    refine hstep.spares.holds (path_ne_staging c) ?_
    exact (List.mem_append.mp hbytes).elim (h.seen bytes) (hseen bytes)

/-- A call is made. -/
theorem World.Inv.load (h : w.Inv fromPkcs8 dir₀) {pid seq : ℕ} (hfree : ¬w.Uses pid seq)
    (key : List UInt8) :
    World.Inv fromPkcs8 dir₀ { w with calls := w.calls ++ [⟨pid, seq, key, .reading⟩] } where
  calls c hc := by
    obtain hc | hc := List.mem_append.mp hc
    · exact h.calls c hc
    · obtain rfl := List.mem_singleton.mp hc
      trivial
  distinct i j c d hi hj hc hd heq := by
    have hold : ∀ (k : ℕ) (e : Call κ), (w.calls ++ [⟨pid, seq, key, .reading⟩])[k]? = some e →
        w.calls[k]? = some e ∨ k = w.calls.length ∧ e.staging = .staging pid seq := by
      intro k e hk
      obtain hlt | hle := Nat.lt_or_ge k w.calls.length
      · exact .inl (by rwa [List.getElem?_append_left hlt] at hk)
      · rw [List.getElem?_append_right hle, List.getElem?_singleton] at hk
        split_ifs at hk with hzero
        exact .inr ⟨by omega, Option.some.inj hk ▸ rfl⟩
    have hnew : ∀ (k : ℕ) (e : Call κ), w.calls[k]? = some e → e.Live →
        e.staging ≠ .staging pid seq := by
      intro k e hk he heq
      rw [Call.staging, Name.staging.injEq] at heq
      exact hfree ⟨e, List.mem_of_getElem? hk, he, heq⟩
    obtain hi | ⟨hi, hcs⟩ := hold i c hi <;> obtain hj | ⟨hj, hds⟩ := hold j d hj
    · exact h.distinct i j c d hi hj hc hd heq
    · exact absurd (heq.trans hds) (hnew i c hi hc)
    · exact absurd (heq.symm.trans hcs) (hnew j d hj hd)
    · exact hi.trans hj.symm
  whole i hi := (h.whole i hi).imp_right fun ⟨c, hc, hkey⟩ ↦
    ⟨c, List.mem_append_left _ hc, hkey⟩
  seen := h.seen

/-- A call is killed. -/
theorem World.Inv.kill (h : w.Inv fromPkcs8 dir₀) {i : ℕ} {c : Call κ}
    (hi : w.calls[i]? = some c) (hlive : c.Live) :
    World.Inv fromPkcs8 dir₀ { w with calls := w.calls.set i { c with phase := .killed } } := by
  have hok : StepOk fromPkcs8 w.dir c (w.dir, .killed) := stepOk_same trivial
  have hnothing : ∀ bytes ∈ ([] : List (List UInt8)), Holds w.dir bytes := by simp
  simpa using h.advance hi hlive hok hnothing

/-- The step lemma, and that what is at the path stays there. -/
theorem World.Inv.step (h : w.Inv fromPkcs8 dir₀) (action : Action) :
    (step fromPkcs8 true w action).Inv fromPkcs8 dir₀ ∧
      ∀ i, w.dir.entry .path = some i →
        (step fromPkcs8 true w action).dir.entry .path = some i ∧
          (step fromPkcs8 true w action).dir.content i = w.dir.content i := by
  cases action with
  | load pid seq key =>
    rw [IdentityKey.step]
    split_ifs with huses
    · exact ⟨h, fun i hi ↦ ⟨hi, rfl⟩⟩
    · exact ⟨h.load huses key, fun i hi ↦ ⟨hi, rfl⟩⟩
  | advance i outcome =>
    rw [IdentityKey.step]
    cases hi : w.calls[i]? with
    | none => exact ⟨h, fun i hi ↦ ⟨hi, rfl⟩⟩
    | some c =>
      by_cases hlive : c.Live
      · have hstep := (h.calls c (List.mem_of_getElem? hi)).advance outcome
        refine ⟨h.advance hi hlive hstep ?_, fun j hj ↦ ⟨hstep.spares.path j hj, ?_⟩⟩
        · intro bytes hbytes
          exact holds_of_reads (Option.mem_toList.mp hbytes)
        · exact hstep.spares.content .path j (path_ne_staging c) hj
      · obtain ⟨hadvance, hreads⟩ : _ = (w.dir, c.phase) ∧ reads fromPkcs8 w.dir c outcome = none :=
          advance_of_not_live w.dir hlive outcome
        have hset : w.calls.set i c = w.calls := by
          obtain ⟨hlt, rfl⟩ := List.getElem?_eq_some_iff.mp hi
          exact List.set_getElem_self hlt
        simp only [hadvance, hreads, hset, Option.toList_none, List.append_nil]
        exact ⟨h, fun i hi ↦ ⟨hi, trivial⟩⟩
  | kill i =>
    rw [IdentityKey.step]
    cases hi : w.calls[i]? with
    | none => exact ⟨h, fun i hi ↦ ⟨hi, rfl⟩⟩
    | some c =>
      dsimp only
      split_ifs with hlive
      · exact ⟨h.kill hi hlive, fun i hi ↦ ⟨hi, rfl⟩⟩
      · exact ⟨h, fun i hi ↦ ⟨hi, rfl⟩⟩

/-- The run lemma: the invariant holds after any run, and the file at the path is the same after any
more of it. -/
theorem World.Inv.exec (h : w.Inv fromPkcs8 dir₀) (actions : List Action) :
    (Run.exec (IdentityKey.step fromPkcs8 true) w actions).Inv fromPkcs8 dir₀ ∧
      ∀ i, w.dir.entry .path = some i →
        (Run.exec (IdentityKey.step fromPkcs8 true) w actions).dir.entry .path = some i ∧
          (Run.exec (IdentityKey.step fromPkcs8 true) w actions).dir.content i =
            w.dir.content i := by
  induction actions generalizing w with
  | nil => exact ⟨h, fun i hi ↦ ⟨hi, rfl⟩⟩
  | cons action actions ih =>
    obtain ⟨hnext, hkeeps⟩ := h.step action
    obtain ⟨hend, hrest⟩ := ih hnext
    refine ⟨hend, fun i hi ↦ ?_⟩
    obtain ⟨hpath, hcontent⟩ := hkeeps i hi
    exact ⟨(hrest i hpath).1, (hrest i hpath).2.trans hcontent⟩

end Runs

/-- On a file system with hard links, whatever the directory holds at first, after any steps of any
calls: a call that succeeded has the identity in the file at the path, all such calls have the same
one, the file stays as it is whatever follows, and all that was ever read of it is its whole
content, which is what was there at first or the whole key of a call. -/
theorem one_identity (fromPkcs8 : List UInt8 → Option κ) (dir : KeyDir) (actions : List Action) :
    let w := Run.exec (step fromPkcs8 true) (World.start dir) actions
    (∀ c ∈ w.calls, ∀ identity, c.phase = .succeeded identity →
      ∃ bytes, Holds w.dir bytes ∧ fromPkcs8 bytes = some identity) ∧
    (∀ c ∈ w.calls, ∀ d ∈ w.calls, ∀ k l, c.phase = .succeeded k → d.phase = .succeeded l →
      k = l) ∧
    (∀ more i, w.dir.entry .path = some i →
      (Run.exec (step fromPkcs8 true) w more).dir.entry .path = some i ∧
      (Run.exec (step fromPkcs8 true) w more).dir.content i = w.dir.content i) ∧
    ∀ bytes ∈ w.seen, Holds w.dir bytes ∧ w.Known dir bytes := by
  intro w
  have hinv : w.Inv fromPkcs8 dir := ((World.inv_start dir).exec actions).1
  have hsucceeded : ∀ c ∈ w.calls, ∀ identity, c.phase = .succeeded identity →
      ∃ bytes, Holds w.dir bytes ∧ fromPkcs8 bytes = some identity := by
    intro c hc identity hphase
    have hcall := hinv.calls c hc
    rwa [CallInv, hphase] at hcall
  refine ⟨hsucceeded, ?_, fun more ↦ (hinv.exec more).2, ?_⟩
  · intro c hc d hd k l hk hl
    obtain ⟨_, ⟨i, hi, rfl⟩, hkey⟩ := hsucceeded c hc k hk
    obtain ⟨_, ⟨j, hj, rfl⟩, hkey'⟩ := hsucceeded d hd l hl
    obtain rfl := Option.some.inj (hi.symm.trans hj)
    exact Option.some.inj (hkey.symm.trans hkey')
  · intro bytes hbytes
    obtain ⟨i, hi, rfl⟩ := hinv.seen bytes hbytes
    exact ⟨⟨i, hi, rfl⟩, hinv.whole i hi⟩

end Kmux.IdentityKey
