import Mathlib.Data.Nat.Notation
import Mathlib.Logic.Function.Basic
import Mathlib.Tactic.SplitIfs

/-!
# Names and files

A directory leads from names to files, and a file is known by its number. A file that loses its name
keeps its content for whoever has it open, so that the content is kept by number here, whether or
not a name is left. Numbers are given out in order and not used again.
-/

namespace Inodes

variable {ν β : Type*}

/-- A directory and the files that were ever in it. -/
structure Disk (ν β : Type*) where
  entry : ν → Option ℕ
  content : ℕ → List β
  next : ℕ
  lt_next : ∀ name i, entry name = some i → i < next

namespace Disk

def empty : Disk ν β where
  entry _ := none
  content _ := []
  next := 0
  lt_next _ _ h := nomatch h

/-- More bytes at the end of a file. -/
def append (d : Disk ν β) (i : ℕ) (bytes : List β) : Disk ν β where
  entry := d.entry
  content := Function.update d.content i (d.content i ++ bytes)
  next := d.next
  lt_next := d.lt_next

@[simp] theorem append_entry (d : Disk ν β) (i : ℕ) (bytes : List β) :
    (d.append i bytes).entry = d.entry := rfl

@[simp] theorem append_next (d : Disk ν β) (i : ℕ) (bytes : List β) :
    (d.append i bytes).next = d.next := rfl

@[simp] theorem append_content (d : Disk ν β) (i : ℕ) (bytes : List β) :
    (d.append i bytes).content = Function.update d.content i (d.content i ++ bytes) := rfl

variable [DecidableEq ν]

/-- Change one name. -/
private theorem lt_of_update {entry : ν → Option ℕ} {next : ℕ}
    (h : ∀ name i, entry name = some i → i < next) {name : ν} {target : Option ℕ}
    (htarget : ∀ i, target = some i → i < next) :
    ∀ name' i, Function.update entry name target name' = some i → i < next := by
  intro name' i hi
  rw [Function.update_apply] at hi
  split_ifs at hi
  · exact htarget i hi
  · exact h name' i hi

/-- A new, empty file under a name. -/
def create (d : Disk ν β) (name : ν) : Disk ν β where
  entry := Function.update d.entry name (some d.next)
  content := Function.update d.content d.next []
  next := d.next + 1
  lt_next := lt_of_update (fun name i h ↦ Nat.lt_succ_of_lt (d.lt_next name i h))
    fun _ h ↦ Option.some.inj h ▸ Nat.lt_succ_self _

/-- A name no longer leads anywhere. -/
def unlink (d : Disk ν β) (name : ν) : Disk ν β where
  entry := Function.update d.entry name none
  content := d.content
  next := d.next
  lt_next := lt_of_update d.lt_next fun _ h ↦ nomatch h

/-- A second name for a file. -/
def link (d : Disk ν β) (source target : ν) : Disk ν β where
  entry := Function.update d.entry target (d.entry source)
  content := d.content
  next := d.next
  lt_next := lt_of_update d.lt_next (d.lt_next source)

/-- Another name in place of the old one; what was under it loses it. -/
def rename (d : Disk ν β) (source target : ν) : Disk ν β := (d.link source target).unlink source

variable (d : Disk ν β) (name source target : ν)

@[simp] theorem create_entry :
    (d.create name).entry = Function.update d.entry name (some d.next) := rfl

@[simp] theorem create_content :
    (d.create name).content = Function.update d.content d.next [] := rfl

@[simp] theorem create_next : (d.create name).next = d.next + 1 := rfl

@[simp] theorem unlink_entry : (d.unlink name).entry = Function.update d.entry name none := rfl

@[simp] theorem unlink_content : (d.unlink name).content = d.content := rfl

@[simp] theorem unlink_next : (d.unlink name).next = d.next := rfl

@[simp] theorem link_entry :
    (d.link source target).entry = Function.update d.entry target (d.entry source) := rfl

@[simp] theorem link_content : (d.link source target).content = d.content := rfl

@[simp] theorem link_next : (d.link source target).next = d.next := rfl

@[simp] theorem rename_content : (d.rename source target).content = d.content := rfl

@[simp] theorem rename_next : (d.rename source target).next = d.next := rfl

variable {d source target}

theorem create_self : (d.create name).entry name = some d.next := by simp

theorem create_of_ne {name other : ν} (hne : other ≠ name) :
    (d.create name).entry other = d.entry other := by simp [hne]

theorem rename_source : (d.rename source target).entry source = none := by simp [rename]

theorem rename_target (hne : source ≠ target) :
    (d.rename source target).entry target = d.entry source := by
  simp [rename, hne.symm]

theorem rename_of_ne {name : ν} (hsource : name ≠ source) (htarget : name ≠ target) :
    (d.rename source target).entry name = d.entry name := by
  simp [rename, hsource, htarget]

end Disk

end Inodes
