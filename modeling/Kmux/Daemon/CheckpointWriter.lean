import Kmux.Lib.Run

/-!
# The checkpoint writer

One file is written by the periodic loop, by the shutdown path and by a handoff. They share a lock,
and under it the fingerprint of the last state written and a seal. A periodic write is refused by
the seal and skipped if the fingerprint is that of the state; a final write is neither, and sets the
seal. What keeps a second final write from replacing the first is not the seal but that the first
took the checkpointer, of which there is only one, and gave it back only if it failed.

A write replaces the file by a rename, the one step that touches it, and nothing after the rename
is an error. So a write either fails with the file as it was or succeeds with the file replaced, and
a fingerprint is recorded only with the file that has it. The lock makes each write one step here,
with all the states of the disk in between; the steps of the caller of a final write, which waits
for it without the lock, are steps of their own.
-/

namespace Kmux

namespace CheckpointWriter

/-! ## The file -/

/-- The checkpoint file and its `.tmp` sibling. -/
structure Disk where
  file : Option (List UInt8)
  tmp : Option (List UInt8)
  deriving DecidableEq, Repr

/-- What fails in a durable write, and why. -/
structure Faults where
  create : Option String
  /-- Fails after so many bytes. -/
  write : Option (ℕ × String)
  fsync : Option String
  rename : Option String
  syncDir : Option String
  deriving DecidableEq, Repr

def Faults.none : Faults := ⟨.none, .none, .none, .none, .none⟩

/-- What the writer is given: how a state is serialized, how bytes are told apart, and the names of
the two files. -/
structure Params (σ F : Type*) where
  serialize : σ → Except String (List UInt8)
  fingerprint : List UInt8 → F
  path : String
  tmpPath : String

variable {σ F : Type*}

/-- Replace the file: the states the disk goes through, and an error, or else whether the directory
could not be synced. -/
def writeDurable (P : Params σ F) (disk : Disk) (bytes : List UInt8) (faults : Faults) :
    List Disk × Except String (Option String) :=
  let failed (what e : String) := s!"checkpoint {what} of {P.tmpPath} failed: {e}"
  let created := { disk with tmp := some [] }
  let written := { disk with tmp := some bytes }
  match faults.create with
  | some e => ([], .error (failed "create" e))
  | none =>
    match faults.write with
    | some (n, e) =>
      ([created, { disk with tmp := some (bytes.take n) }], .error (failed "write" e))
    | none =>
      match faults.fsync with
      | some e => ([created, written], .error (failed "fsync" e))
      | none =>
        match faults.rename with
        | some e =>
          ([created, written], .error s!"failed to rename checkpoint file {P.path}: {e}")
        | none => ([created, written, { file := some bytes, tmp := none }], .ok faults.syncDir)

/-- The state of the disk after those it goes through. -/
def settle (disk : Disk) (passed : List Disk) : Disk := passed.getLast?.getD disk

/-! ## Under the lock -/

/-- What a periodic checkpoint write did. -/
inductive Written
  | wrote
  | unchanged
  | sealed
  deriving DecidableEq, Repr

structure WriterState (F : Type*) where
  /-- The last state written successfully. -/
  last : Option F
  /-- Set by a final write: nothing may replace it. -/
  sealed : Bool
  dirSyncWarned : Bool
  deriving DecidableEq, Repr

def WriterState.new : WriterState F := { last := none, sealed := false, dirSyncWarned := false }

/-- `PeriodicCheckpointer::write`, under the writer's lock. -/
def WriterState.write [DecidableEq F] (P : Params σ F) (w : WriterState F) (disk : Disk) (state : σ)
    (faults : Faults) : WriterState F × List Disk × Except String Written :=
  if w.sealed then (w, [], .ok .sealed)
  else
    match P.serialize state with
    | .error e => (w, [], .error s!"checkpoint serialization failed: {e}")
    | .ok bytes =>
      if w.last = some (P.fingerprint bytes) then (w, [], .ok .unchanged)
      else
        match writeDurable P disk bytes faults with
        | (passed, .error e) => (w, passed, .error e)
        | (passed, .ok refused) =>
          ({ w with last := some (P.fingerprint bytes)
                    dirSyncWarned := w.dirSyncWarned || refused.isSome },
            passed, .ok .wrote)

/-- `Checkpointer::write_final_in_background`, under the writer's lock. -/
def WriterState.writeFinal (P : Params σ F) (w : WriterState F) (disk : Disk) (state : σ)
    (faults : Faults) : WriterState F × List Disk × Except String Unit :=
  match P.serialize state with
  | .error e => (w, [], .error s!"checkpoint serialization failed: {e}")
  | .ok bytes =>
    match writeDurable P disk bytes faults with
    | (passed, .error e) => (w, passed, .error e)
    | (passed, .ok refused) =>
      ({ last := some (P.fingerprint bytes)
         sealed := true
         dirSyncWarned := w.dirSyncWarned || refused.isSome },
        passed, .ok ())

/-! ## The daemon -/

/-- Where the checkpointer is. There is one, and it is moved. -/
inductive Owner (σ : Type*)
  | slot
  /-- With a final write that waits for a thread or for the lock. -/
  | waiting (state : σ)
  /-- With a final write that is done, and whose caller has not been told. -/
  | done (state : σ) (result : Except String Unit)
  /-- In the hands of the caller, sealed. -/
  | sealed (state : σ)
  /-- Dropped with the checkpoint sealed. -/
  | dropped (state : σ)

structure World (σ F : Type*) where
  disk : Disk
  state : WriterState F
  owner : Owner σ

inductive Event (σ : Type*)
  /-- A periodic write has the lock, through any of the handles. -/
  | periodic (state : σ) (faults : Faults)
  /-- `write_final_from` is called, on a slot that has the checkpointer if there is one. -/
  | call (state : σ)
  /-- The final write has the lock. -/
  | final (faults : Faults)
  /-- The blocking task is lost before it runs. -/
  | lost (error : String)
  /-- The caller of the final write is told. -/
  | resume
  | unsealed
  /-- The sealed checkpoint is dropped. -/
  | dropped
  deriving DecidableEq, Repr

/-- What is reported in a step. -/
inductive Report (σ : Type*)
  | silent
  | periodic (state : σ) (result : Except String Written)
  /-- The result of the final write, under the lock. -/
  | final (state : σ) (result : Except String Unit)
  /-- The result of `write_final_from`. -/
  | returned (result : Except String Unit)

section Step

variable [DecidableEq F]

/-- The world after a step, the states of the disk it goes through, and what is reported. A step
that cannot be taken does nothing. -/
def advance (P : Params σ F) (w : World σ F) : Event σ → World σ F × List Disk × Report σ
  | .periodic state faults =>
    let (writer, passed, result) := w.state.write P w.disk state faults
    ({ w with disk := settle w.disk passed, state := writer }, passed, .periodic state result)
  | .call state =>
    match w.owner with
    | .slot => ({ w with owner := .waiting state }, [], .silent)
    | _ => (w, [], .returned (.error "the final checkpoint was already written"))
  | .final faults =>
    match w.owner with
    | .waiting state =>
      let (writer, passed, result) := w.state.writeFinal P w.disk state faults
      ({ disk := settle w.disk passed, state := writer, owner := .done state result }, passed,
        .final state result)
    | _ => (w, [], .silent)
  | .lost error =>
    match w.owner with
    | .waiting state => ({ w with owner := .done state (.error error) }, [], .silent)
    | _ => (w, [], .silent)
  | .resume =>
    match w.owner with
    | .done state (.ok ()) => ({ w with owner := .sealed state }, [], .returned (.ok ()))
    | .done _ (.error e) => ({ w with owner := .slot }, [], .returned (.error e))
    | _ => (w, [], .silent)
  | .unsealed =>
    match w.owner with
    | .sealed _ => ({ w with state.sealed := false, owner := .slot }, [], .silent)
    | _ => (w, [], .silent)
  | .dropped =>
    match w.owner with
    | .sealed state => ({ w with owner := .dropped state }, [], .silent)
    | _ => (w, [], .silent)

def step (P : Params σ F) (w : World σ F) (e : Event σ) : World σ F := (advance P w e).1

/-- The states of the disk within a step. -/
def passed (P : Params σ F) (w : World σ F) (e : Event σ) : List Disk := (advance P w e).2.1

def report (P : Params σ F) (w : World σ F) (e : Event σ) : Report σ := (advance P w e).2.2

/-- A daemon that has just started, with what the file holds. -/
def World.new (file tmp : Option (List UInt8)) : World σ F :=
  { disk := { file, tmp }, state := .new, owner := .slot }

/-- The state of a write that is reported to have succeeded. -/
def Report.success? : Report σ → Option σ
  | periodic state (.ok .wrote) => some state
  | final state (.ok ()) => some state
  | _ => none

/-- The states whose writes are reported to have succeeded, in a run. -/
def successes (P : Params σ F) : World σ F → List (Event σ) → List σ
  | _, [] => []
  | w, e :: es => (report P w e).success?.toList ++ successes P (step P w e) es

/-- An error is reported. -/
def Report.Failed : Report σ → Prop
  | periodic _ result => ∃ e, result = .error e
  | final _ result => ∃ e, result = .error e
  | returned result => ∃ e, result = .error e
  | silent => False

/-- The file holds the serialization of the state. -/
def Holds (P : Params σ F) (state : σ) (disk : Disk) : Prop :=
  ∃ bytes, P.serialize state = .ok bytes ∧ disk.file = some bytes

end Step

/-! ## One write -/

/-- A write that changes nothing but the `.tmp` sibling. -/
structure Kept (w w' : WriterState F) (disk : Disk) (passed : List Disk) : Prop where
  writer : w' = w
  file : ∀ d ∈ passed, d.file = disk.file

/-- A write that replaces the file and records what it holds. -/
structure Replaced (P : Params σ F) (state : σ) (w' : WriterState F) (disk : Disk)
    (passed : List Disk) : Prop where
  file : ∃ bytes, P.serialize state = .ok bytes ∧ (settle disk passed).file = some bytes ∧
    w'.last = some (P.fingerprint bytes)
  within : ∀ d ∈ passed, d.file = disk.file ∨ d.file = (settle disk passed).file

theorem settle_file {disk : Disk} {passed : List Disk} (h : ∀ d ∈ passed, d.file = disk.file) :
    (settle disk passed).file = disk.file := by
  rw [settle]
  cases hlast : passed.getLast? with
  | none => rfl
  | some d => exact h d (List.mem_of_getLast? hlast)

/-- An error is one before the rename, and after it there is none. -/
theorem writeDurable_cases (P : Params σ F) (disk : Disk) (bytes : List UInt8) (faults : Faults) :
    (∃ passed e, writeDurable P disk bytes faults = (passed, .error e) ∧
        ∀ d ∈ passed, d.file = disk.file) ∨
      ∃ passed refused, writeDurable P disk bytes faults = (passed, .ok refused) ∧
        (settle disk passed).file = some bytes ∧
        ∀ d ∈ passed, d.file = disk.file ∨ d.file = (settle disk passed).file := by
  rw [writeDurable]
  rcases faults with ⟨_ | e, _ | ⟨n, e⟩, _ | e, _ | e, syncDir⟩
  case none.none.none.none =>
    refine .inr ⟨_, _, rfl, rfl, fun d hd ↦ ?_⟩
    simp only [List.mem_cons, List.not_mem_nil, or_false] at hd
    rcases hd with rfl | rfl | rfl
    · exact .inl rfl
    · exact .inl rfl
    · exact .inr rfl
  all_goals
    refine .inl ⟨_, _, rfl, fun d hd ↦ ?_⟩
    simp only [List.mem_cons, List.not_mem_nil, or_false] at hd
    try rcases hd with rfl | rfl
    all_goals rfl

theorem write_cases [DecidableEq F] (P : Params σ F) (w : WriterState F) (disk : Disk) (state : σ)
    (faults : Faults) {w' : WriterState F} {passed : List Disk} {result : Except String Written}
    (h : w.write P disk state faults = (w', passed, result)) :
    (Kept w w' disk passed ∧ result ≠ .ok .wrote ∧
        (result = .ok .unchanged → ∃ bytes, P.serialize state = .ok bytes ∧
          w.last = some (P.fingerprint bytes))) ∨
      (Replaced P state w' disk passed ∧ result = .ok .wrote ∧ w.sealed = false ∧
        w'.sealed = false) := by
  rw [WriterState.write] at h
  by_cases hsealed : w.sealed
  · rw [if_pos hsealed] at h
    cases h
    exact .inl ⟨⟨rfl, by simp⟩, by simp, by simp⟩
  rw [if_neg hsealed] at h
  cases hser : P.serialize state with
  | error e =>
    simp only [hser] at h
    cases h
    exact .inl ⟨⟨rfl, by simp⟩, by simp, by simp⟩
  | ok bytes =>
    simp only [hser] at h
    split_ifs at h with hlast
    · cases h
      exact .inl ⟨⟨rfl, by simp⟩, by simp, fun _ ↦ ⟨bytes, rfl, hlast⟩⟩
    rcases writeDurable_cases P disk bytes faults with
      ⟨passed', e, hdurable, hfile⟩ | ⟨passed', refused, hdurable, hfile, hwithin⟩
    · rw [hdurable] at h
      cases h
      exact .inl ⟨⟨rfl, hfile⟩, by simp, by simp⟩
    · rw [hdurable] at h
      cases h
      have hopen : w.sealed = false := Bool.eq_false_iff.mpr hsealed
      exact .inr ⟨⟨⟨bytes, hser, hfile, rfl⟩, hwithin⟩, rfl, hopen, hopen⟩

theorem writeFinal_cases (P : Params σ F) (w : WriterState F) (disk : Disk) (state : σ)
    (faults : Faults) {w' : WriterState F} {passed : List Disk} {result : Except String Unit}
    (h : w.writeFinal P disk state faults = (w', passed, result)) :
    (Kept w w' disk passed ∧ ∃ e, result = .error e) ∨
      (Replaced P state w' disk passed ∧ result = .ok () ∧ w'.sealed = true) := by
  rw [WriterState.writeFinal] at h
  cases hser : P.serialize state with
  | error e =>
    simp only [hser] at h
    cases h
    exact .inl ⟨⟨rfl, by simp⟩, _, rfl⟩
  | ok bytes =>
    simp only [hser] at h
    rcases writeDurable_cases P disk bytes faults with
      ⟨passed', e, hdurable, hfile⟩ | ⟨passed', refused, hdurable, hfile, hwithin⟩
    · rw [hdurable] at h
      cases h
      exact .inl ⟨⟨rfl, hfile⟩, e, rfl⟩
    · rw [hdurable] at h
      cases h
      exact .inr ⟨⟨⟨bytes, hser, hfile, rfl⟩, hwithin⟩, rfl, rfl⟩

/-! ## One step -/

/-- The state of the final write that succeeded and has not been unsealed. -/
def Owner.final? : Owner σ → Option σ
  | done state (.ok ()) => some state
  | sealed state => some state
  | dropped state => some state
  | _ => none

/-- What a step can do. -/
inductive Move (P : Params σ F) (w : World σ F) :
    Event σ → World σ F → List Disk → Report σ → Prop
  /-- A periodic write that does not replace the file. -/
  | skipped {state : σ} {faults : Faults} {writer : WriterState F} {passed : List Disk}
      {result : Except String Written} (hkept : Kept w.state writer w.disk passed)
      (hresult : result ≠ .ok .wrote)
      (hunchanged : result = .ok .unchanged → ∃ bytes, P.serialize state = .ok bytes ∧
        w.state.last = some (P.fingerprint bytes)) :
      Move P w (.periodic state faults)
        { w with disk := settle w.disk passed, state := writer } passed (.periodic state result)
  | wrote {state : σ} {faults : Faults} {writer : WriterState F} {passed : List Disk}
      (hreplaced : Replaced P state writer w.disk passed) (hopen : w.state.sealed = false)
      (hopen' : writer.sealed = false) :
      Move P w (.periodic state faults)
        { w with disk := settle w.disk passed, state := writer } passed
        (.periodic state (.ok .wrote))
  | finalFailed {state : σ} {faults : Faults} {writer : WriterState F} {passed : List Disk}
      {error : String} (howner : w.owner = .waiting state)
      (hkept : Kept w.state writer w.disk passed) :
      Move P w (.final faults)
        { disk := settle w.disk passed, state := writer, owner := .done state (.error error) }
        passed (.final state (.error error))
  | finalWrote {state : σ} {faults : Faults} {writer : WriterState F} {passed : List Disk}
      (howner : w.owner = .waiting state) (hreplaced : Replaced P state writer w.disk passed)
      (hsealed : writer.sealed = true) :
      Move P w (.final faults)
        { disk := settle w.disk passed, state := writer, owner := .done state (.ok ()) }
        passed (.final state (.ok ()))
  /-- The checkpointer passes on, if anything changes at all. -/
  | handed {e : Event σ} {owner : Owner σ} {report : Report σ}
      (hfinal : owner.final? = w.owner.final?)
      (hreport : report = .silent ∨ report = .returned (.ok ()) ∨
        ∃ error, report = .returned (.error error) ∧ e = .resume ∧ owner = .slot) :
      Move P w e { w with owner } [] report
  /-- There is none in the slot. -/
  | refused {state : σ} {error : String} (howner : w.owner ≠ .slot) :
      Move P w (.call state) w [] (.returned (.error error))
  | unsealed :
      Move P w .unsealed { w with state.sealed := false, owner := .slot } [] .silent

/-! ## The invariant -/

/-- The file is as it was at the start, or holds one of the states. -/
def Accounted (P : Params σ F) (file : Option (List UInt8)) (states : List σ) (disk : Disk) :
    Prop :=
  disk.file = file ∨ ∃ state ∈ states, Holds P state disk

/-- Given what the file held at the start, and the states that have been written since. -/
structure Inv (P : Params σ F) (file : Option (List UInt8)) (states : List σ) (w : World σ F) :
    Prop where
  accounted : Accounted P file states w.disk
  last : ∀ print, w.state.last = some print →
    ∃ bytes, w.disk.file = some bytes ∧ P.fingerprint bytes = print
  sealed : w.state.sealed = w.owner.final?.isSome
  final : ∀ state, w.owner.final? = some state → Holds P state w.disk

theorem inv_new (P : Params σ F) (file tmp : Option (List UInt8)) :
    Inv P file [] (World.new file tmp) where
  accounted := .inl rfl
  last := fun _ h ↦ nomatch h
  sealed := rfl
  final := fun _ h ↦ nomatch h

theorem Holds.congr {P : Params σ F} {state : σ} {disk disk' : Disk} (h : Holds P state disk)
    (hfile : disk'.file = disk.file) : Holds P state disk' := by
  obtain ⟨bytes, hser, hbytes⟩ := h
  exact ⟨bytes, hser, hfile.trans hbytes⟩

theorem Accounted.congr {P : Params σ F} {file : Option (List UInt8)} {states : List σ}
    {disk disk' : Disk} (h : Accounted P file states disk) (hfile : disk'.file = disk.file) :
    Accounted P file states disk' :=
  h.imp hfile.trans fun ⟨state, hmem, hholds⟩ ↦ ⟨state, hmem, hholds.congr hfile⟩

theorem Accounted.mono {P : Params σ F} {file : Option (List UInt8)} {states states' : List σ}
    {disk : Disk} (h : Accounted P file states disk) (hsub : states ⊆ states') :
    Accounted P file states' disk :=
  h.imp_right fun ⟨state, hmem, hholds⟩ ↦ ⟨state, hsub hmem, hholds⟩

/-! ## One step keeps it -/

/-- The checkpoint is sealed exactly from the success of a final write to its unsealing. -/
theorem sealed_step {P : Params σ F} {w w' : World σ F} {e : Event σ} {passed : List Disk}
    {report : Report σ} (hmove : Move P w e w' passed report)
    (h : w.state.sealed = w.owner.final?.isSome) : w'.state.sealed = w'.owner.final?.isSome := by
  cases hmove with
  | skipped hkept => rw [hkept.writer, h]
  | wrote _ hopen hopen' => rw [hopen', ← h, hopen]
  | finalFailed howner hkept =>
    rw [hkept.writer, h, howner]
    rfl
  | finalWrote _ _ hsealed => exact hsealed
  | handed hfinal => rw [h, hfinal]
  | refused => exact h
  | unsealed => rfl

/-- The final write that counts changes only by a success or by an unsealing. -/
theorem final?_step {P : Params σ F} {w w' : World σ F} {e : Event σ} {passed : List Disk}
    {report : Report σ} (hmove : Move P w e w' passed report) :
    w'.owner.final? = w.owner.final? ∨ (e = .unsealed ∧ w'.owner.final? = none) ∨
      ∃ state, w.owner = .waiting state ∧ Replaced P state w'.state w.disk passed ∧
        w'.disk = settle w.disk passed ∧ w'.owner.final? = some state := by
  cases hmove with
  | skipped => exact .inl rfl
  | wrote => exact .inl rfl
  | finalFailed howner =>
    rw [howner]
    exact .inl rfl
  | finalWrote howner hreplaced => exact .inr (.inr ⟨_, howner, hreplaced, rfl, rfl⟩)
  | handed hfinal => exact .inl hfinal
  | refused => exact .inl rfl
  | unsealed => exact .inr (.inl ⟨rfl, rfl⟩)

/-- A step leaves the file and the fingerprint alone, or is reported as the success of a write that
replaces it, and then no final write counts. -/
theorem file_step {P : Params σ F} {w w' : World σ F} {e : Event σ} {passed : List Disk}
    {report : Report σ} (hmove : Move P w e w' passed report) :
    ((∀ d ∈ w'.disk :: passed, d.file = w.disk.file) ∧ w'.state.last = w.state.last ∧
        report.success? = none) ∨
      ∃ state, Replaced P state w'.state w.disk passed ∧ w'.disk = settle w.disk passed ∧
        report.success? = some state ∧ (w.owner.final? = none ∨ w.state.sealed = false) := by
  have hdisk : ∀ {writer : WriterState F}, Kept w.state writer w.disk passed →
      ∀ d ∈ settle w.disk passed :: passed, d.file = w.disk.file := by
    intro writer hkept d hd
    rcases List.mem_cons.mp hd with rfl | hd
    · exact settle_file hkept.file
    · exact hkept.file d hd
  cases hmove with
  | skipped hkept hresult =>
    refine .inl ⟨hdisk hkept, by rw [hkept.writer], ?_⟩
    rw [Report.success?]
    · exact fun _ heq ↦ hresult (Report.periodic.inj heq).2
    · exact fun _ heq ↦ nomatch heq
  | wrote hreplaced hopen => exact .inr ⟨_, hreplaced, rfl, rfl, .inr hopen⟩
  | finalFailed howner hkept => exact .inl ⟨hdisk hkept, by rw [hkept.writer], rfl⟩
  | finalWrote howner hreplaced =>
    exact .inr ⟨_, hreplaced, rfl, rfl, .inl (by rw [howner]; rfl)⟩
  | handed _ hreport =>
    refine .inl ⟨by simp, rfl, ?_⟩
    rcases hreport with rfl | rfl | ⟨error, rfl, -⟩
    · rfl
    · rfl
    · rfl
  | refused => exact .inl ⟨by simp, rfl, rfl⟩
  | unsealed => exact .inl ⟨by simp, rfl, rfl⟩

/-- While a final write counts, a step leaves the file alone. -/
theorem file_step_of_final {P : Params σ F} {w w' : World σ F} {e : Event σ} {passed : List Disk}
    {report : Report σ} (hmove : Move P w e w' passed report) {state : σ}
    (hsealed : w.state.sealed = w.owner.final?.isSome) (h : w.owner.final? = some state) :
    ∀ d ∈ w'.disk :: passed, d.file = w.disk.file := by
  rcases file_step hmove with ⟨hfile, -⟩ | ⟨_, -, -, -, hnone | hopen⟩
  · exact hfile
  · rw [hnone] at h
    cases h
  · rw [hopen, h] at hsealed
    cases hsealed

theorem Inv.step {P : Params σ F} {file : Option (List UInt8)} {states : List σ} {w w' : World σ F}
    {e : Event σ} {passed : List Disk} {report : Report σ} (h : Inv P file states w)
    (hmove : Move P w e w' passed report) : Inv P file (states ++ report.success?.toList) w' := by
  have hsealed := sealed_step hmove h.sealed
  rcases file_step hmove with ⟨hfile, hlast, hreport⟩ |
    ⟨state, ⟨⟨bytes, hser, hbytes, hprint⟩, -⟩, hdisk, hreport, -⟩
  · have hsame := hfile w'.disk List.mem_cons_self
    refine ⟨?_, ?_, hsealed, ?_⟩
    · rw [hreport, Option.toList_none, List.append_nil]
      exact h.accounted.congr hsame
    · intro print hprint
      rw [hsame]
      exact h.last print (hlast ▸ hprint)
    · intro state hstate
      rcases final?_step hmove with heq | ⟨-, hnone⟩ | ⟨state', -, hreplaced, hdisk, hsome⟩
      · exact (h.final state (heq ▸ hstate)).congr hsame
      · rw [hnone] at hstate
        cases hstate
      · obtain ⟨bytes, hser, hbytes, -⟩ := hreplaced.file
        rw [hsome] at hstate
        cases hstate
        exact ⟨bytes, hser, by rw [hdisk, hbytes]⟩
  · have hholds : Holds P state w'.disk := ⟨bytes, hser, by rw [hdisk, hbytes]⟩
    refine ⟨.inr ⟨state, ?_, hholds⟩, ?_, hsealed, ?_⟩
    · rw [hreport]
      exact List.mem_append_right _ (List.mem_singleton_self state)
    · intro print heq
      rw [hprint] at heq
      exact ⟨bytes, by rw [hdisk, hbytes], Option.some.inj heq⟩
    · intro state' hstate'
      rcases final?_step hmove with heq | ⟨-, hnone⟩ | ⟨state'', -, hreplaced, hdisk', hsome⟩
      · -- then a final write counted before, and the file could not be replaced
        rw [heq] at hstate'
        have hkept := file_step_of_final hmove h.sealed hstate' w'.disk List.mem_cons_self
        exact (h.final state' hstate').congr hkept
      · rw [hnone] at hstate'
        cases hstate'
      · obtain ⟨bytes', hser', hbytes', -⟩ := hreplaced.file
        rw [hsome] at hstate'
        cases hstate'
        exact ⟨bytes', hser', by rw [hdisk', hbytes']⟩

/-- An error leaves the file, the fingerprint and the seal as they were. -/
theorem step_of_failed {P : Params σ F} {w w' : World σ F} {e : Event σ} {passed : List Disk}
    {report : Report σ} (hmove : Move P w e w' passed report) (hfailed : report.Failed) :
    (∀ d ∈ w'.disk :: passed, d.file = w.disk.file) ∧ w'.state = w.state := by
  constructor
  · rcases file_step hmove with ⟨hfile, -⟩ | ⟨state, -, -, hreport, -⟩
    · exact hfile
    · -- a success is not a failure
      rcases report with _ | ⟨_, e | _⟩ | ⟨_, e | _⟩ | _
      · cases hreport
      · cases hreport
      · obtain ⟨e, he⟩ := hfailed
        cases he
      · cases hreport
      · obtain ⟨e, he⟩ := hfailed
        cases he
      · cases hreport
  · cases hmove with
    | skipped hkept => exact hkept.writer
    | wrote =>
      obtain ⟨e, he⟩ := hfailed
      cases he
    | finalFailed _ hkept => exact hkept.writer
    | finalWrote =>
      obtain ⟨e, he⟩ := hfailed
      cases he
    | handed => rfl
    | refused => rfl
    | unsealed => exact hfailed.elim

/-- A final write that is reported to have succeeded counts. -/
theorem final?_of_report {P : Params σ F} {w w' : World σ F} {e : Event σ} {passed : List Disk}
    {report : Report σ} (hmove : Move P w e w' passed report) {state : σ}
    (h : report = .final state (.ok ())) : w'.owner.final? = some state := by
  cases hmove with
  | skipped => cases h
  | wrote => cases h
  | finalFailed => cases h
  | finalWrote =>
    cases h
    rfl
  | handed _ hreport =>
    rw [h] at hreport
    rcases hreport with hreport | hreport | ⟨_, hreport, -⟩ <;> cases hreport
  | refused => cases h
  | unsealed => cases h

/-- Where the checkpointer is when `write_final_from` returns an error. -/
theorem owner_of_returned {P : Params σ F} {w w' : World σ F} {e : Event σ} {passed : List Disk}
    {report : Report σ} (hmove : Move P w e w' passed report) {error : String}
    (h : report = .returned (.error error)) :
    (e = .resume ∧ w'.owner = .slot) ∨ ((∃ state, e = .call state) ∧ w.owner ≠ .slot ∧ w' = w) := by
  cases hmove with
  | skipped => cases h
  | wrote => cases h
  | finalFailed => cases h
  | finalWrote => cases h
  | handed _ hreport =>
    rw [h] at hreport
    rcases hreport with hreport | hreport | ⟨_, -, hresume, hslot⟩
    · cases hreport
    · cases hreport
    · exact .inl ⟨hresume, hslot⟩
  | refused howner => exact .inr ⟨⟨_, rfl⟩, howner, rfl⟩
  | unsealed => cases h

/-- A state is found unchanged by its fingerprint. -/
theorem last_of_unchanged {P : Params σ F} {w w' : World σ F} {e : Event σ} {passed : List Disk}
    {report : Report σ} (hmove : Move P w e w' passed report) {state : σ}
    (h : report = .periodic state (.ok .unchanged)) :
    ∃ bytes, P.serialize state = .ok bytes ∧ w.state.last = some (P.fingerprint bytes) := by
  cases hmove with
  | skipped _ _ hunchanged =>
    cases h
    exact hunchanged rfl
  | wrote => cases h
  | finalFailed => cases h
  | finalWrote => cases h
  | handed _ hreport =>
    rw [h] at hreport
    rcases hreport with hreport | hreport | ⟨_, hreport, -⟩ <;> cases hreport
  | refused => cases h
  | unsealed => cases h

/-! ## Runs -/

section Runs

variable [DecidableEq F]

theorem move_advance (P : Params σ F) (w : World σ F) (e : Event σ) :
    Move P w e (step P w e) (passed P w e) (report P w e) := by
  rw [step, passed, report]
  have hidle : Move P w e w [] .silent := .handed rfl (.inl rfl)
  cases e with
  | periodic state faults =>
    rw [advance]
    rcases hwrite : w.state.write P w.disk state faults with ⟨writer, passed, result⟩
    rcases write_cases P w.state w.disk state faults hwrite with
      ⟨hkept, hresult, hunchanged⟩ | ⟨hreplaced, rfl, hopen, hopen'⟩
    · exact .skipped hkept hresult hunchanged
    · exact .wrote hreplaced hopen hopen'
  | call state =>
    rw [advance]
    split
    · rename_i howner
      exact .handed (by rw [howner]; rfl) (.inl rfl)
    · rename_i howner
      exact .refused howner
  | final faults =>
    rw [advance]
    split
    · rename_i state howner
      rcases hwrite : w.state.writeFinal P w.disk state faults with ⟨writer, passed, result⟩
      rcases writeFinal_cases P w.state w.disk state faults hwrite with
        ⟨hkept, e, rfl⟩ | ⟨hreplaced, rfl, hsealed⟩
      · exact .finalFailed howner hkept
      · exact .finalWrote howner hreplaced hsealed
    · exact hidle
  | lost error =>
    rw [advance]
    split
    · rename_i howner
      exact .handed (by rw [howner]; rfl) (.inl rfl)
    · exact hidle
  | resume =>
    rw [advance]
    split
    · rename_i howner
      exact .handed (by rw [howner]; rfl) (.inr (.inl rfl))
    · rename_i howner
      exact .handed (by rw [howner]; rfl) (.inr (.inr ⟨_, rfl, rfl, rfl⟩))
    · exact hidle
  | unsealed =>
    rw [advance]
    split
    · exact .unsealed
    · exact hidle
  | dropped =>
    rw [advance]
    split
    · rename_i howner
      exact .handed (by rw [howner]; rfl) (.inl rfl)
    · exact hidle

theorem Inv.exec {P : Params σ F} {file : Option (List UInt8)} (es : List (Event σ)) :
    ∀ {states : List σ} {w : World σ F}, Inv P file states w →
      Inv P file (states ++ successes P w es) (Run.exec (CheckpointWriter.step P) w es) := by
  induction es with
  | nil =>
    intro states w h
    rw [successes, List.append_nil]
    exact h
  | cons e es ih =>
    intro states w h
    rw [successes, ← List.append_assoc]
    exact ih (h.step (move_advance P w e))

theorem successes_concat (P : Params σ F) (es : List (Event σ)) (e : Event σ) :
    ∀ w : World σ F, successes P w (es ++ [e])
      = successes P w es ++ (report P (Run.exec (step P) w es) e).success?.toList := by
  induction es with
  | nil =>
    intro w
    rw [List.nil_append, successes, successes, successes, List.append_nil, List.nil_append,
      Run.exec_nil]
  | cons e' es ih =>
    intro w
    rw [List.cons_append, successes, ih, successes, List.append_assoc, Run.exec_cons]

/-- Within a step the file is as before it or as after it. -/
theorem file_passed (P : Params σ F) (w : World σ F) (e : Event σ) :
    ∀ d ∈ passed P w e, d.file = w.disk.file ∨ d.file = (step P w e).disk.file := by
  rcases file_step (move_advance P w e) with ⟨hfile, -⟩ | ⟨state, ⟨-, hwithin⟩, hdisk, -⟩
  · exact fun d hd ↦ .inl (hfile d (List.mem_cons_of_mem _ hd))
  · rw [hdisk]
    exact hwithin

/-- A final write counts, and the file stays, until it is unsealed. -/
theorem exec_of_final {P : Params σ F} {state : σ} (es : List (Event σ)) :
    ∀ {w : World σ F}, w.state.sealed = w.owner.final?.isSome → w.owner.final? = some state →
      .unsealed ∉ es →
        (Run.exec (step P) w es).owner.final? = some state ∧
          (Run.exec (step P) w es).state.sealed = (Run.exec (step P) w es).owner.final?.isSome ∧
          (Run.exec (step P) w es).disk.file = w.disk.file := by
  induction es with
  | nil => exact fun hsealed hfinal _ ↦ ⟨hfinal, hsealed, rfl⟩
  | cons e es ih =>
    intro w hsealed hfinal hes
    rw [List.mem_cons, not_or] at hes
    have hnext : (step P w e).owner.final? = some state := by
      rcases final?_step (move_advance P w e) with heq | ⟨rfl, -⟩ | ⟨state', howner, -⟩
      · rw [heq, hfinal]
      · exact absurd rfl hes.1
      · rw [howner] at hfinal
        cases hfinal
    have hmove := move_advance P w e
    obtain ⟨hfinal', hsealed', hfile'⟩ := ih (sealed_step hmove hsealed) hnext hes.2
    exact ⟨hfinal', hsealed', hfile'.trans
      (file_step_of_final hmove hsealed hfinal _ List.mem_cons_self)⟩

/-- What is wanted of a step after a run of a daemon that started with `file`. -/
structure StepSpec (P : Params σ F) (file tmp : Option (List UInt8)) (es : List (Event σ))
    (e : Event σ) (w : World σ F) : Prop where
  /-- At every moment the file is as it was at the start, or holds a state whose write is reported
  to have succeeded. -/
  accounted : ∀ d ∈ w.disk :: passed P w e,
    Accounted P file (successes P (World.new file tmp) (es ++ [e])) d
  /-- An error leaves the file, the fingerprint and the seal as they were. -/
  failed : (report P w e).Failed →
    (∀ d ∈ (step P w e).disk :: passed P w e, d.file = w.disk.file) ∧ (step P w e).state = w.state
  /-- A state is found unchanged only if the file holds it. -/
  unchanged : ∀ state, report P w e = .periodic state (.ok .unchanged) → Holds P state w.disk
  /-- From the success of a final write to its unsealing the file holds the state. -/
  final : ∀ state, report P w e = .final state (.ok ()) →
    ∀ (later : List (Event σ)) (next : Event σ), .unsealed ∉ later →
      ∀ d ∈ (Run.exec (step P) (step P w e) later).disk ::
          passed P (Run.exec (step P) (step P w e) later) next, Holds P state d
  /-- When `write_final_from` fails, the checkpointer it took is in the slot again, or there was
  none in the slot to take. -/
  returned : ∀ error, report P w e = .returned (.error error) →
    (e = .resume ∧ (step P w e).owner = .slot) ∨
      ((∃ state, e = .call state) ∧ w.owner ≠ .slot ∧ step P w e = w)

/-- **The checkpoint writer**, in every order of its steps and with a failure at any of them. -/
theorem stepSpec_exec (P : Params σ F) (hinj : Function.Injective P.fingerprint)
    (file tmp : Option (List UInt8)) (es : List (Event σ)) (e : Event σ) :
    StepSpec P file tmp es e (Run.exec (step P) (World.new file tmp) es) := by
  have hinv := (inv_new P file tmp).exec es
  rw [List.nil_append] at hinv
  have hmove := move_advance P (Run.exec (step P) (World.new file tmp) es) e
  have hnext := hinv.step hmove
  rw [← successes_concat] at hnext
  constructor
  · intro d hd
    rcases List.mem_cons.mp hd with rfl | hd
    · refine hinv.accounted.mono fun state hstate ↦ ?_
      rw [successes_concat]
      exact List.mem_append_left _ hstate
    · rcases file_passed P _ e d hd with hfile | hfile
      · refine (hinv.accounted.mono fun state hstate ↦ ?_).congr hfile
        rw [successes_concat]
        exact List.mem_append_left _ hstate
      · exact hnext.accounted.congr hfile
  · exact step_of_failed hmove
  · intro state hreport
    -- the fingerprint recorded is that of what the file holds
    obtain ⟨bytes, hser, hlast⟩ := last_of_unchanged hmove hreport
    obtain ⟨held, hfile, hprint⟩ := hinv.last _ hlast
    rw [hinj hprint] at hfile
    exact ⟨bytes, hser, hfile⟩
  · intro state hreport later next hlater d hd
    have hfinal := final?_of_report hmove hreport
    obtain ⟨hlater', hsealed, hfile⟩ := exec_of_final later hnext.sealed hfinal hlater
    have hholds := (hnext.final state hfinal).congr hfile
    rcases List.mem_cons.mp hd with rfl | hd
    · exact hholds
    · exact hholds.congr (file_step_of_final (move_advance P _ next) hsealed hlater' d
        (List.mem_cons_of_mem _ hd))
  · exact fun error ↦ owner_of_returned hmove

/-- Two states, of one byte each. -/
def oneByte : Params Bool (List UInt8) where
  serialize := fun state ↦ .ok [if state then 1 else 0]
  fingerprint := id
  path := "state.bin"
  tmpPath := "state.bin.tmp"

/-- A final write races a periodic one, and then is unsealed. -/
theorem stepSpec_exec_oneByte :
    StepSpec oneByte none none [.call true, .periodic false .none, .final .none, .resume] .unsealed
      (Run.exec (step oneByte) (World.new none none)
        [.call true, .periodic false .none, .final .none, .resume]) :=
  stepSpec_exec oneByte (fun _ _ h ↦ h) none none
    [.call true, .periodic false .none, .final .none, .resume] .unsealed

/-- After a final write the slot is empty, and a second one fails with the slot as it is. -/
theorem returned_empty :
    ¬∀ (es : List (Event Bool)) (e : Event Bool) (error : String),
      report oneByte (Run.exec (step oneByte) (World.new none none) es) e
          = .returned (.error error) →
        (Run.exec (step oneByte) (World.new none none) (es ++ [e])).owner = .slot := by
  intro h
  have hslot := h [.call true, .final .none, .resume] (.call false)
    "the final checkpoint was already written" rfl
  cases hslot

end Runs

end CheckpointWriter

end Kmux
