import Kmux.Client.Grid
import Kmux.Lib.Run
import Mathlib.Data.List.Nodup
import Mathlib.Logic.Function.Basic

/-!
# The apply worker

A client applies grid content off its UI thread. The owner enqueues jobs; the worker drains them in
batches, applies each to the content it holds, and publishes the content of every touched pane once
the batch is done, or when a barrier asks for it. What an apply means for the view goes back to the
owner as notes.

The reference is `Local`, the grid that applies in place. Three things could set the two apart: a
batch may end anywhere, so the published content may lag behind; a registration replaces a pane
whose content is still to be published; and forgetting a pane, or resetting, drops what is pending.
A job never sees any of this, `view_applyJob`, and a barrier leaves nothing pending, so after a
barrier what is published is what `Local` holds, `published_eq_local`.

Publication slots are shared cells. A registration comes with a fresh one, created by the owner when
it enqueues the job; the model keeps them in a list, and a slot is its position.
-/

namespace Kmux

/-! ## Jobs -/

/-- The mutations of a pane's content. -/
inductive ContentOp
  | snapshot (snapshot : GridSnapshot)
  | diff (diff : TerminalDiff)
  | cursor (cursor : CursorState) (modes : TermModes)
  | scrollbackAppend (firstIndex : ℕ) (lines : List ScrollbackLine)
  | historyLines (firstIndex : ℕ) (lines : List ScrollbackLine) (historyTotal : ℕ)
  | clear
  | resize (rows cols : UInt16)
  deriving DecidableEq, Repr

/-- The content after a mutation, and what the view has to do about it. -/
def ContentOp.apply (g : GridContent) : ContentOp → GridContent × ApplyEffect
  | .snapshot s => g.applySnapshot s
  | .diff d => g.applyDiff d
  | .cursor c modes => (g.applyCursorUpdate c modes, {})
  | .scrollbackAppend firstIndex lines => g.applyScrollbackAppend firstIndex lines
  | .historyLines firstIndex lines historyTotal =>
      (g.applyHistoryLines firstIndex lines historyTotal, {})
  | .clear => g.clear
  | .resize rows cols => g.resize rows cols

/-- A job. `σ` is what a registration carries for its slot: nothing while the owner has yet to
create one, its position afterwards. -/
inductive ApplyJob (σ P : Type*)
  | register (pane : P) (published : σ) (rows cols : ℕ)
  | op (pane : P) (order : ℕ) (op : ContentOp)
  | digest (pane : P) (seqno : SequenceNo) (hash : Fnv1a128)
  | forget (pane : P)
  | reset
  | barrier
  | shutdown

/-- What the worker reports back. -/
inductive WorkerNote (P : Type*)
  | effect (pane : P) (effect : ApplyEffect)
  | digestMismatch (pane : P) (seqno : SequenceNo)
  | seqnoGap (pane : P)
  deriving DecidableEq, Repr

variable {P σ : Type*}

/-- An effect is forwarded if it does anything. -/
def effectNotes (pane : P) (effect : ApplyEffect) : List (WorkerNote P) :=
  if effect.resetView || effect.scrollbackFixup.isSome then [.effect pane effect] else []

/-- The guard that jobs of a pane arrive contiguously. -/
def orderNotes (pane : P) (order expected : ℕ) : List (WorkerNote P) :=
  if order ≠ expected then [.seqnoGap pane] else []

/-- The verdict of a digest. A pane with a known gap is not compared. -/
def digestNotes (pane : P) (content : GridContent) (seqno : SequenceNo) (hash : Fnv1a128) :
    List (WorkerNote P) :=
  if content.pendingHistoryGap = none ∧ content.liveDigest ≠ hash then
    [.digestMismatch pane seqno]
  else []

/-! ## Views -/

/-- A position in scrollback and grid together; row zero is the oldest line held. -/
structure GridPos where
  row : ℕ
  col : ℕ
  deriving DecidableEq, Repr

/-- A selected range. -/
structure Selection where
  anchor : GridPos
  endPos : GridPos
  deriving DecidableEq, Repr

/-- Where the owner has scrolled to, and what it has selected. -/
structure GridView where
  scrollOffset : ℕ
  selection : Option Selection
  deriving DecidableEq, Repr

/-- Reconcile the view with an apply. -/
def GridView.applyEffect (v : GridView) (effect : ApplyEffect) : GridView :=
  let v' : GridView := if effect.resetView then { scrollOffset := 0, selection := none } else v
  match effect.scrollbackFixup with
  | some .cleared => { v' with selection := none }
  | some (.shifted evicted net) =>
    let shift (pos : GridPos) : GridPos := { pos with row := pos.row - evicted + net }
    { v' with selection := v'.selection.bind fun sel ↦
        if 0 < evicted ∧ sel.anchor.row < evicted then none
        else some ⟨shift sel.anchor, shift sel.endPos⟩ }
  | none => v'

/-- Applying in place hands every effect to the view; the worker only those it forwards. The ones it
keeps back do nothing. -/
theorem GridView.applyEffect_of_not_forwarded {pane : P} {effect : ApplyEffect}
    (h : effectNotes pane effect = []) (v : GridView) : v.applyEffect effect = v := by
  obtain ⟨resetView, fixup⟩ := effect
  cases resetView with
  | true => cases h
  | false =>
    cases fixup with
    | some fixup => cases h
    | none => rfl

/-! ## Applying in place -/

/-- Panes applied in place: the content of each, the order it expects next, and the notes so far. -/
structure Local (P : Type*) where
  panes : P → Option (GridContent × ℕ)
  notes : List (WorkerNote P)

namespace Local

variable [DecidableEq P]

def new : Local P := { panes := fun _ ↦ none, notes := [] }

/-- Apply a job at once. -/
def apply (l : Local P) : ApplyJob σ P → Local P
  | .register pane _ rows cols =>
      { l with panes := Function.update l.panes pane (some (GridContent.new rows cols, 0)) }
  | .op pane order op =>
      match l.panes pane with
      | some (content, expected) =>
        let done := op.apply content
        { panes := Function.update l.panes pane (some (done.1, order + 1))
          notes := l.notes ++ orderNotes pane order expected ++ effectNotes pane done.2 }
      | none => l
  | .digest pane seqno hash =>
      match l.panes pane with
      | some (content, _) => { l with notes := l.notes ++ digestNotes pane content seqno hash }
      | none => l
  | .forget pane => { l with panes := Function.update l.panes pane none }
  | .reset => { l with panes := fun _ ↦ none }
  | .barrier => l
  | .shutdown => l

end Local

/-! ## The worker -/

/-- A pane as the worker holds it. -/
structure PaneState where
  content : GridContent
  /-- The slot to publish to. -/
  published : ℕ
  nextOrder : ℕ

/-- The worker, and the slots it publishes to. -/
structure ApplyWorker (P : Type*) where
  panes : P → Option PaneState
  /-- Panes with content still to be published. -/
  touched : List P
  slots : List GridContent
  notes : List (WorkerNote P)
  running : Bool

namespace ApplyWorker

variable [DecidableEq P]

def new : ApplyWorker P :=
  { panes := fun _ ↦ none, touched := [], slots := [], notes := [], running := true }

/-- Store a pane's content in its slot. -/
def publishPane (panes : P → Option PaneState) (slots : List GridContent) (pane : P) :
    List GridContent :=
  match panes pane with
  | some ps => slots.set ps.published ps.content
  | none => slots

/-- Publish every touched pane. -/
def publishTouched (w : ApplyWorker P) : ApplyWorker P :=
  { w with slots := w.touched.foldl (publishPane w.panes) w.slots, touched := [] }

/-- Apply one job. -/
def applyJob (w : ApplyWorker P) : ApplyJob ℕ P → ApplyWorker P
  | .register pane published rows cols =>
      let ps : PaneState := { content := GridContent.new rows cols, published, nextOrder := 0 }
      { w with panes := Function.update w.panes pane (some ps) }
  | .op pane order op =>
      match w.panes pane with
      | some ps =>
        let done := op.apply ps.content
        let ps' : PaneState := { ps with content := done.1, nextOrder := order + 1 }
        { w with
          panes := Function.update w.panes pane (some ps')
          touched := w.touched.insert pane
          notes := w.notes ++ orderNotes pane order ps.nextOrder ++ effectNotes pane done.2 }
      | none => w
  | .digest pane seqno hash =>
      match w.panes pane with
      | some ps => { w with notes := w.notes ++ digestNotes pane ps.content seqno hash }
      | none => w
  | .forget pane =>
      { w with panes := Function.update w.panes pane none, touched := w.touched.erase pane }
  | .reset => { w with panes := fun _ ↦ none, touched := [] }
  | .barrier => w.publishTouched
  | .shutdown => { w with running := false }

end ApplyWorker

/-! ## Owner and worker -/

/-- The owner's side of the queue, the queue, and the worker. -/
structure ApplySystem (P : Type*) where
  /-- The slot that the owner reads a pane from. -/
  facades : P → Option ℕ
  queue : List (ApplyJob ℕ P)
  worker : ApplyWorker P

/-- What happens: the owner enqueues a job, the worker takes one and applies it, or its batch is at
an end. A batch is the jobs taken between two ends. -/
inductive ApplyEvent (P : Type*)
  | enqueue (job : ApplyJob Unit P)
  | take
  | endBatch

namespace ApplySystem

variable [DecidableEq P]

def new : ApplySystem P := { facades := fun _ ↦ none, queue := [], worker := .new }

/-- Enqueue a job; a registration is given a slot that shows a blank grid. -/
def enqueue (s : ApplySystem P) : ApplyJob Unit P → ApplySystem P
  | .register pane _ rows cols =>
      let published := s.worker.slots.length
      { facades := Function.update s.facades pane (some published)
        queue := s.queue ++ [.register pane published rows cols]
        worker := { s.worker with slots := s.worker.slots ++ [GridContent.new rows cols] } }
  | .op pane order op => { s with queue := s.queue ++ [.op pane order op] }
  | .digest pane seqno hash => { s with queue := s.queue ++ [.digest pane seqno hash] }
  | .forget pane =>
      { s with facades := Function.update s.facades pane none, queue := s.queue ++ [.forget pane] }
  | .reset => { s with facades := fun _ ↦ none, queue := s.queue ++ [.reset] }
  | .barrier => { s with queue := s.queue ++ [.barrier] }
  | .shutdown => { s with queue := s.queue ++ [.shutdown] }

/-- One event. Nothing is taken or published once the worker has shut down. -/
def step (s : ApplySystem P) : ApplyEvent P → ApplySystem P
  | .enqueue job => s.enqueue job
  | .take =>
      match s.worker.running, s.queue with
      | true, job :: queue => { s with queue, worker := s.worker.applyJob job }
      | _, _ => s
  | .endBatch => if s.worker.running then { s with worker := s.worker.publishTouched } else s

def run (s : ApplySystem P) (es : List (ApplyEvent P)) : ApplySystem P := Run.exec step s es

/-- The jobs enqueued along a run, in order. -/
def enqueued (es : List (ApplyEvent P)) : List (ApplyJob Unit P) :=
  es.filterMap fun
    | .enqueue job => some job
    | _ => none

end ApplySystem

/-! ## A job does to the worker what it does in place -/

namespace ApplyWorker

variable [DecidableEq P]

/-- The worker's panes, publication left out. -/
def view (w : ApplyWorker P) : Local P :=
  { panes := fun p ↦ (w.panes p).map fun ps ↦ (ps.content, ps.nextOrder), notes := w.notes }

theorem view_panes_update (f : P → Option PaneState) (pane : P) (ps : Option PaneState) :
    (fun p ↦ (Function.update f pane ps p).map fun ps ↦ (ps.content, ps.nextOrder)) =
      Function.update (fun p ↦ (f p).map fun ps ↦ (ps.content, ps.nextOrder)) pane
        (ps.map fun ps ↦ (ps.content, ps.nextOrder)) := by
  funext p
  by_cases hp : p = pane
  · rw [hp, Function.update_self, Function.update_self]
  · rw [Function.update_of_ne hp, Function.update_of_ne hp]

/-- **Simulation.** -/
theorem view_applyJob (w : ApplyWorker P) (job : ApplyJob ℕ P) :
    (w.applyJob job).view = w.view.apply job := by
  cases job with
  | register pane published rows cols =>
    simp only [applyJob, view, Local.apply, view_panes_update, Option.map_some]
  | op pane order op =>
    cases hp : w.panes pane with
    | none => simp only [applyJob, view, Local.apply, hp, Option.map_none]
    | some ps =>
      simp only [applyJob, view, Local.apply, hp, Option.map_some, view_panes_update]
  | digest pane seqno hash =>
    cases hp : w.panes pane with
    | none => simp only [applyJob, view, Local.apply, hp, Option.map_none]
    | some ps => simp only [applyJob, view, Local.apply, hp, Option.map_some]
  | forget pane => simp only [applyJob, view, Local.apply, view_panes_update, Option.map_none]
  | reset => rfl
  | barrier => rfl
  | shutdown => rfl

/-! ## Slots -/

omit [DecidableEq P] in
theorem length_publishAll (panes : P → Option PaneState) (touched : List P)
    (slots : List GridContent) :
    (touched.foldl (publishPane panes) slots).length = slots.length := by
  induction touched generalizing slots with
  | nil => rfl
  | cons q touched ih =>
    rw [List.foldl_cons, ih, publishPane]
    split
    · exact List.length_set
    · rfl

omit [DecidableEq P] in
/-- A slot that no pane publishes to is left alone. -/
theorem getElem?_publishAll_of_ne {panes : P → Option PaneState} {k : ℕ}
    (hk : ∀ p ps, panes p = some ps → ps.published ≠ k) (touched : List P)
    (slots : List GridContent) :
    (touched.foldl (publishPane panes) slots)[k]? = slots[k]? := by
  induction touched generalizing slots with
  | nil => rfl
  | cons q touched ih =>
    rw [List.foldl_cons, ih, publishPane]
    split
    next ps hps => exact List.getElem?_set_ne (hk q ps hps)
    next => rfl

omit [DecidableEq P] in
/-- Publishing shows the content of every pane that is touched or was shown. -/
theorem getElem?_publishAll {panes : P → Option PaneState}
    (hinj : ∀ p p' ps ps', panes p = some ps → panes p' = some ps' →
      ps.published = ps'.published → p = p')
    {p : P} {ps : PaneState} (hp : panes p = some ps) (touched : List P)
    (slots : List GridContent) (hlt : ps.published < slots.length)
    (h : p ∈ touched ∨ slots[ps.published]? = some ps.content) :
    (touched.foldl (publishPane panes) slots)[ps.published]? = some ps.content := by
  induction touched generalizing slots with
  | nil =>
    rcases h with hmem | hshown
    · cases hmem
    · exact hshown
  | cons q touched ih =>
    rw [List.foldl_cons]
    have hlen : (publishPane panes slots q).length = slots.length := by
      rw [publishPane]
      split
      · exact List.length_set
      · rfl
    refine ih _ (hlen ▸ hlt) ?_
    by_cases hq : q = p
    · right
      subst hq
      simp only [publishPane, hp]
      exact List.getElem?_set_self hlt
    · rcases h with hmem | hshown
      · exact .inl ((List.mem_cons.mp hmem).resolve_left fun heq ↦ hq heq.symm)
      · right
        rw [publishPane]
        split
        next qs hqs =>
          rw [List.getElem?_set_ne fun heq ↦ hq (hinj q p qs ps hqs hp heq), hshown]
        next => exact hshown

end ApplyWorker

namespace ApplyJob

/-- The slot a job registers. -/
def slot? : ApplyJob ℕ P → Option ℕ
  | .register _ published _ _ => some published
  | _ => none

variable [DecidableEq P]

/-- Where the panes are published after a job. -/
def own (m : P → Option ℕ) : ApplyJob ℕ P → P → Option ℕ
  | .register pane published _ _ => Function.update m pane (some published)
  | .forget pane => Function.update m pane none
  | .reset => fun _ ↦ none
  | _ => m

end ApplyJob

namespace ApplySystem

variable [DecidableEq P]

/-- What is left once the queue has been worked off in place. -/
def settled (s : ApplySystem P) : Local P := s.queue.foldl Local.apply s.worker.view

/-- How the slots stand: a pane's slot is its own, shows the pane unless the pane is touched, and a
slot yet to be registered is still blank. -/
structure Slots (s : ApplySystem P) : Prop where
  slot_lt : ∀ p ps, s.worker.panes p = some ps → ps.published < s.worker.slots.length
  slot_inj : ∀ p p' ps ps', s.worker.panes p = some ps → s.worker.panes p' = some ps' →
    ps.published = ps'.published → p = p'
  shown : ∀ p ps, s.worker.panes p = some ps →
    p ∈ s.worker.touched ∨ s.worker.slots[ps.published]? = some ps.content
  pending : ∀ pane k rows cols, ApplyJob.register pane k rows cols ∈ s.queue →
    k < s.worker.slots.length ∧ (∀ p ps, s.worker.panes p = some ps → ps.published ≠ k) ∧
      s.worker.slots[k]? = some (GridContent.new rows cols)
  distinct : (s.queue.filterMap ApplyJob.slot?).Nodup
  owned : s.facades = s.queue.foldl ApplyJob.own fun p ↦ (s.worker.panes p).map PaneState.published

/-! ## What is settled does not depend on the worker -/

theorem settled_enqueue (s : ApplySystem P) (job : ApplyJob Unit P) :
    (s.enqueue job).settled = s.settled.apply job := by
  cases job <;> exact List.foldl_append

/-- Taking a job or ending a batch changes nothing that is settled. -/
theorem settled_step (s : ApplySystem P) (e : ApplyEvent P) :
    (s.step e).settled = (enqueued [e]).foldl Local.apply s.settled := by
  cases e with
  | enqueue job => exact settled_enqueue s job
  | take =>
    rw [step]
    split
    next job queue _ hqueue =>
      rw [settled, ApplyWorker.view_applyJob, settled, hqueue]
      rfl
    next => rfl
  | endBatch =>
    rw [step]
    split <;> rfl

theorem settled_run (es : List (ApplyEvent P)) (s : ApplySystem P) :
    (s.run es).settled = (enqueued es).foldl Local.apply s.settled := by
  induction es generalizing s with
  | nil => rfl
  | cons e es ih =>
    have hsplit : enqueued (e :: es) = enqueued [e] ++ enqueued es := by
      rw [enqueued, enqueued, enqueued, ← List.filterMap_append]
      rfl
    rw [hsplit, List.foldl_append, ← settled_step, ← ih]
    rfl

/-! ## Slots along a run -/

theorem slots_new : Slots (new : ApplySystem P) where
  slot_lt := fun _ _ h ↦ nomatch h
  slot_inj := fun _ _ _ _ h ↦ nomatch h
  shown := fun _ _ h ↦ nomatch h
  pending := fun _ _ _ _ h ↦ nomatch h
  distinct := List.nodup_nil
  owned := rfl

/-- A job that registers nothing joins the queue. -/
private theorem slots_append {s : ApplySystem P} (h : Slots s) (job : ApplyJob ℕ P)
    (hslot : job.slot? = none) (s' : ApplySystem P) (hworker : s'.worker = s.worker)
    (hqueue : s'.queue = s.queue ++ [job]) (hfacades : s'.facades = job.own s.facades) :
    Slots s' where
  slot_lt := hworker ▸ h.slot_lt
  slot_inj := hworker ▸ h.slot_inj
  shown := hworker ▸ h.shown
  pending := by
    rw [hworker, hqueue]
    intro pane k rows cols hmem
    rcases List.mem_append.mp hmem with hmem | hmem
    · exact h.pending pane k rows cols hmem
    · rw [← List.mem_singleton.mp hmem] at hslot
      cases hslot
  distinct := by
    rw [hqueue, List.filterMap_append, List.filterMap_cons_none hslot, List.filterMap_nil,
      List.append_nil]
    exact h.distinct
  owned := by
    rw [hqueue, List.foldl_append, hworker, ← h.owned, hfacades]
    rfl

/-- A registration joins the queue with a slot of its own. -/
private theorem slots_register {s : ApplySystem P} (h : Slots s) (pane : P) (rows cols : ℕ) :
    Slots (s.enqueue (.register pane () rows cols)) where
  slot_lt := by
    intro p ps hp
    simp only [enqueue, List.length_append, List.length_singleton]
    exact Nat.lt_succ_of_lt (h.slot_lt p ps hp)
  slot_inj := h.slot_inj
  shown := by
    intro p ps hp
    refine (h.shown p ps hp).imp_right fun hshown ↦ ?_
    simp only [enqueue]
    rw [List.getElem?_append_left (h.slot_lt p ps hp), hshown]
  pending := by
    intro pane' k rows' cols' hmem
    simp only [enqueue, List.length_append, List.length_singleton]
    rcases List.mem_append.mp hmem with hmem | hmem
    · obtain ⟨hlt, hne, hblank⟩ := h.pending pane' k rows' cols' hmem
      exact ⟨Nat.lt_succ_of_lt hlt, hne, by rw [List.getElem?_append_left hlt, hblank]⟩
    · obtain ⟨-, rfl, rfl, rfl⟩ := ApplyJob.register.inj (List.mem_singleton.mp hmem)
      refine ⟨Nat.lt_succ_self _, fun p ps hp ↦ (h.slot_lt p ps hp).ne, ?_⟩
      rw [List.getElem?_append_right le_rfl, Nat.sub_self]
      rfl
  distinct := by
    simp only [enqueue, List.filterMap_append]
    refine List.Nodup.append h.distinct (List.nodup_singleton _) ?_
    intro k hk hk'
    obtain ⟨job, hjob, hslot⟩ := List.mem_filterMap.mp hk
    obtain rfl : k = s.worker.slots.length := List.mem_singleton.mp hk'
    cases job with
    | register pane' k rows' cols' =>
      have hlt := (h.pending pane' k rows' cols' hjob).1
      rw [← Option.some.inj hslot] at hlt
      exact Nat.lt_irrefl _ hlt
    | _ => cases hslot
  owned := by
    simp only [enqueue]
    rw [List.foldl_append, ← h.owned]
    rfl

theorem Slots.enqueue {s : ApplySystem P} (h : Slots s) (job : ApplyJob Unit P) :
    Slots (s.enqueue job) := by
  cases job with
  | register pane published rows cols => exact slots_register h pane rows cols
  | op pane order op => exact slots_append h (.op pane order op) rfl _ rfl rfl rfl
  | digest pane seqno hash => exact slots_append h (.digest pane seqno hash) rfl _ rfl rfl rfl
  | forget pane => exact slots_append h (.forget pane) rfl _ rfl rfl rfl
  | reset => exact slots_append h .reset rfl _ rfl rfl rfl
  | barrier => exact slots_append h .barrier rfl _ rfl rfl rfl
  | shutdown => exact slots_append h .shutdown rfl _ rfl rfl rfl

/-- The worker moves on without registering a pane. -/
private theorem slots_moved {s : ApplySystem P} (h : Slots s) (queue : List (ApplyJob ℕ P))
    (w : ApplyWorker P) (hsub : queue ⊆ s.queue)
    (hdistinct : (queue.filterMap ApplyJob.slot?).Nodup)
    (howned : s.facades = queue.foldl ApplyJob.own fun p ↦ (w.panes p).map PaneState.published)
    (hlen : w.slots.length = s.worker.slots.length)
    (hpanes : ∀ p ps, w.panes p = some ps →
      ∃ old, s.worker.panes p = some old ∧ old.published = ps.published)
    (hshown : ∀ p ps, w.panes p = some ps →
      p ∈ w.touched ∨ w.slots[ps.published]? = some ps.content)
    (hfree : ∀ k, (∀ p ps, s.worker.panes p = some ps → ps.published ≠ k) →
      w.slots[k]? = s.worker.slots[k]?) :
    Slots { s with queue, worker := w } where
  slot_lt := by
    intro p ps hp
    obtain ⟨old, hold, hpub⟩ := hpanes p ps hp
    rw [← hpub, hlen]
    exact h.slot_lt p old hold
  slot_inj := by
    intro p p' ps ps' hp hp' heq
    obtain ⟨old, hold, hpub⟩ := hpanes p ps hp
    obtain ⟨old', hold', hpub'⟩ := hpanes p' ps' hp'
    exact h.slot_inj p p' old old' hold hold' (hpub.trans (heq.trans hpub'.symm))
  shown := hshown
  pending := by
    intro pane k rows cols hmem
    obtain ⟨hlt, hne, hblank⟩ := h.pending pane k rows cols (hsub hmem)
    refine ⟨hlen ▸ hlt, fun p ps hp ↦ ?_, by rw [hfree k hne, hblank]⟩
    obtain ⟨old, hold, hpub⟩ := hpanes p ps hp
    rw [← hpub]
    exact hne p old hold
  distinct := hdistinct
  owned := howned

/-- The worker publishes. -/
private theorem slots_publishTouched {s : ApplySystem P} (h : Slots s)
    (queue : List (ApplyJob ℕ P)) (hsub : queue ⊆ s.queue)
    (hdistinct : (queue.filterMap ApplyJob.slot?).Nodup)
    (howned : s.facades =
      queue.foldl ApplyJob.own fun p ↦ (s.worker.panes p).map PaneState.published) :
    Slots { s with queue, worker := s.worker.publishTouched } := by
  refine slots_moved h queue _ hsub hdistinct howned (ApplyWorker.length_publishAll _ _ _)
    (fun p ps hp ↦ ⟨ps, hp, rfl⟩) (fun p ps hp ↦ .inr ?_)
    (fun k hk ↦ ApplyWorker.getElem?_publishAll_of_ne hk _ _)
  exact ApplyWorker.getElem?_publishAll h.slot_inj hp _ _ (h.slot_lt p ps hp) (h.shown p ps hp)

/-- An entry of an updated map is the new one or an old one elsewhere. -/
private theorem update_eq_some {α β : Type*} [DecidableEq α] {f : α → Option β} {a p : α}
    {v : Option β} {b : β} (h : Function.update f a v p = some b) :
    p = a ∧ v = some b ∨ p ≠ a ∧ f p = some b := by
  by_cases heq : p = a
  · rw [heq, Function.update_self] at h
    exact .inl ⟨heq, h⟩
  · rw [Function.update_of_ne heq] at h
    exact .inr ⟨heq, h⟩

/-- The worker takes a registration from the queue. -/
private theorem slots_take_register {s : ApplySystem P} (h : Slots s) (pane : P)
    (k rows cols : ℕ) (queue : List (ApplyJob ℕ P))
    (hqueue : s.queue = .register pane k rows cols :: queue) :
    Slots { s with queue, worker := s.worker.applyJob (.register pane k rows cols) } := by
  obtain ⟨hlt, hne, hblank⟩ := h.pending pane k rows cols (hqueue ▸ List.mem_cons_self)
  have hslot : (ApplyJob.register pane k rows cols).slot? = some k := rfl
  have hdistinct := h.distinct
  rw [hqueue, List.filterMap_cons_some hslot, List.nodup_cons] at hdistinct
  have hpanes : ∀ p ps, (s.worker.applyJob (.register pane k rows cols)).panes p = some ps →
      (p = pane ∧ ps = { content := GridContent.new rows cols, published := k, nextOrder := 0 }) ∨
        (p ≠ pane ∧ s.worker.panes p = some ps) := by
    intro p ps hp
    exact (update_eq_some hp).imp_left fun hnew ↦ ⟨hnew.1, (Option.some.inj hnew.2).symm⟩
  constructor
  · intro p ps hp
    rcases hpanes p ps hp with ⟨-, rfl⟩ | ⟨-, hold⟩
    · exact hlt
    · exact h.slot_lt p ps hold
  · intro p p' ps ps' hp hp' heq
    rcases hpanes p ps hp with ⟨rfl, rfl⟩ | ⟨-, hold⟩ <;>
      rcases hpanes p' ps' hp' with ⟨rfl, rfl⟩ | ⟨-, hold'⟩
    · rfl
    · exact absurd heq.symm (hne p' ps' hold')
    · exact absurd heq (hne p ps hold)
    · exact h.slot_inj p p' ps ps' hold hold' heq
  · intro p ps hp
    rcases hpanes p ps hp with ⟨-, rfl⟩ | ⟨-, hold⟩
    · exact .inr hblank
    · exact h.shown p ps hold
  · intro pane' k' rows' cols' hmem
    obtain ⟨hlt', hne', hblank'⟩ :=
      h.pending pane' k' rows' cols' (hqueue ▸ List.mem_cons_of_mem _ hmem)
    refine ⟨hlt', fun p ps hp ↦ ?_, hblank'⟩
    rcases hpanes p ps hp with ⟨-, rfl⟩ | ⟨-, hold⟩
    · -- the registrations left in the queue have other slots
      rintro rfl
      exact hdistinct.1 (List.mem_filterMap.mpr ⟨_, hmem, rfl⟩)
    · exact hne' p ps hold
  · exact hdistinct.2
  · rw [h.owned, hqueue, List.foldl_cons]
    congr 1
    funext p
    simp only [ApplyJob.own, ApplyWorker.applyJob]
    by_cases heq : p = pane
    · rw [heq, Function.update_self, Function.update_self, Option.map_some]
    · rw [Function.update_of_ne heq, Function.update_of_ne heq]

/-- The worker takes a job from the queue. -/
theorem Slots.take {s : ApplySystem P} (h : Slots s) (job : ApplyJob ℕ P)
    (queue : List (ApplyJob ℕ P)) (hqueue : s.queue = job :: queue) :
    Slots { s with queue, worker := s.worker.applyJob job } := by
  have hsub : queue ⊆ s.queue := hqueue ▸ List.subset_cons_self job queue
  have howned := h.owned
  rw [hqueue, List.foldl_cons] at howned
  have hdistinct : job.slot? = none → (queue.filterMap ApplyJob.slot?).Nodup := by
    intro hslot
    have hd := h.distinct
    rwa [hqueue, List.filterMap_cons_none hslot] at hd
  -- a job that touches no pane leaves the slots as they are
  have hsame : ∀ w : ApplyWorker P, job.slot? = none → w.panes = s.worker.panes →
      w.slots = s.worker.slots → w.touched = s.worker.touched →
      (ApplyJob.own (fun p ↦ (s.worker.panes p).map PaneState.published) job =
        fun p ↦ (s.worker.panes p).map PaneState.published) →
      Slots { s with queue, worker := w } := by
    intro w hslot hpanes hslots htouched hown
    rw [hown] at howned
    refine slots_moved h queue w hsub (hdistinct hslot) (by rw [hpanes, howned]) (by rw [hslots])
      (fun p ps hp ↦ ⟨ps, hpanes ▸ hp, rfl⟩) (fun p ps hp ↦ ?_) (fun k _ ↦ by rw [hslots])
    rw [htouched, hslots]
    exact h.shown p ps (hpanes ▸ hp)
  cases job with
  | register pane k rows cols => exact slots_take_register h pane k rows cols queue hqueue
  | op pane order op =>
    rw [ApplyWorker.applyJob]
    cases hpane : s.worker.panes pane with
    | none => exact hsame _ rfl rfl rfl rfl rfl
    | some ps =>
      -- the content changes, and the pane is touched
      have hmoved : ∀ p ps', Function.update s.worker.panes pane
          (some { ps with content := (op.apply ps.content).1, nextOrder := order + 1 }) p =
            some ps' →
          (p = pane ∧ ps'.published = ps.published) ∨ (p ≠ pane ∧ s.worker.panes p = some ps') := by
        intro p ps' hp
        exact (update_eq_some hp).imp_left fun hnew ↦ ⟨hnew.1, by rw [← Option.some.inj hnew.2]⟩
      refine slots_moved h queue _ hsub (hdistinct rfl) ?_ rfl (fun p ps' hp ↦ ?_)
        (fun p ps' hp ↦ ?_) (fun k _ ↦ rfl)
      · rw [howned]
        congr 1
        funext p
        simp only [ApplyJob.own]
        by_cases heq : p = pane
        · rw [heq, Function.update_self, hpane, Option.map_some, Option.map_some]
        · rw [Function.update_of_ne heq]
      · rcases hmoved p ps' hp with ⟨rfl, hpub⟩ | ⟨-, hold⟩
        · exact ⟨ps, hpane, hpub.symm⟩
        · exact ⟨ps', hold, rfl⟩
      · rcases hmoved p ps' hp with ⟨rfl, -⟩ | ⟨-, hold⟩
        · exact .inl (List.mem_insert_self)
        · exact (h.shown p ps' hold).imp_left fun hmem ↦ List.mem_insert_of_mem hmem
  | digest pane seqno hash =>
    rw [ApplyWorker.applyJob]
    cases s.worker.panes pane <;> exact hsame _ rfl rfl rfl rfl rfl
  | forget pane =>
    -- the pane goes, and with it the claim that its slot is current
    have hkept : ∀ p ps, Function.update s.worker.panes pane none p = some ps →
        p ≠ pane ∧ s.worker.panes p = some ps := by
      intro p ps hp
      exact (update_eq_some hp).resolve_left fun hnew ↦ absurd hnew.2 nofun
    refine slots_moved h queue _ hsub (hdistinct rfl) ?_ rfl
      (fun p ps hp ↦ ⟨ps, (hkept p ps hp).2, rfl⟩) (fun p ps hp ↦ ?_) (fun k _ ↦ rfl)
    · rw [howned]
      congr 1
      funext p
      simp only [ApplyJob.own, ApplyWorker.applyJob]
      by_cases heq : p = pane
      · rw [heq, Function.update_self, Function.update_self, Option.map_none]
      · rw [Function.update_of_ne heq, Function.update_of_ne heq]
    · obtain ⟨hne, hold⟩ := hkept p ps hp
      exact (h.shown p ps hold).imp_left (List.mem_erase_of_ne hne).mpr
  | reset =>
    exact slots_moved h queue _ hsub (hdistinct rfl) howned rfl (fun _ _ hp ↦ nomatch hp)
      (fun _ _ hp ↦ nomatch hp) (fun k _ ↦ rfl)
  | barrier => exact slots_publishTouched h queue hsub (hdistinct rfl) howned
  | shutdown => exact hsame _ rfl rfl rfl rfl rfl

theorem Slots.step {s : ApplySystem P} (h : Slots s) (e : ApplyEvent P) : Slots (s.step e) := by
  cases e with
  | enqueue job => exact h.enqueue job
  | take =>
    rw [ApplySystem.step]
    split
    next job queue _ hqueue => exact h.take job queue hqueue
    next => exact h
  | endBatch =>
    rw [ApplySystem.step]
    split
    · exact slots_publishTouched h s.queue (List.Subset.refl _) h.distinct h.owned
    · exact h

/-! ## After a barrier -/

/-- **Published equals local.** Whatever the owner enqueues, and however the worker batches it: when
the worker takes the barrier the owner waits for, every pane the owner holds shows the content that
applying in place ends with, no other pane is held, and the notes are those of applying in place, in
order. -/
theorem published_eq_local (es : List (ApplyEvent P))
    (hrunning : (run new es : ApplySystem P).worker.running = true)
    (hbarrier : (run new es : ApplySystem P).queue = [.barrier]) :
    let s := (run new es : ApplySystem P).step .take
    let l := (enqueued es).foldl Local.apply (Local.new : Local P)
    s.worker.notes = l.notes ∧
      ∀ p, (s.facades p).map (fun slot ↦ s.worker.slots[slot]?) =
        (l.panes p).map fun pane ↦ some pane.1 := by
  intro s l
  have hslots : Slots s :=
    (Run.invariant (fun s e (h : Slots s) ↦ h.step e) es new slots_new).step .take
  have hs : s =
      { run new es with
        queue := []
        worker := (run new es : ApplySystem P).worker.publishTouched } := by
    change ApplySystem.step _ _ = _
    rw [ApplySystem.step, hrunning, hbarrier]
    rfl
  have hl : s.worker.view = l := by
    have hsettled := settled_run es (new : ApplySystem P)
    rw [settled, hbarrier] at hsettled
    rw [hs]
    exact hsettled
  rw [← hl]
  refine ⟨rfl, fun p ↦ ?_⟩
  have howned := congrFun hslots.owned p
  have hqueue : s.queue = [] := by rw [hs]
  have htouched : s.worker.touched = [] := by rw [hs]; rfl
  rw [hqueue, List.foldl_nil] at howned
  rw [howned]
  simp only [ApplyWorker.view]
  cases hp : s.worker.panes p with
  | none => rfl
  | some ps =>
    have hshown := hslots.shown p ps hp
    rw [htouched, or_iff_right List.not_mem_nil] at hshown
    rw [Option.map_some, Option.map_some, Option.map_some, Option.map_some, hshown]

/-- Two mutations in two batches, the second of them cut off by the barrier. -/
def twoBatches : List (ApplyEvent ℕ) :=
  [.enqueue (.register 1 () 2 2), .enqueue (.op 1 0 .clear), .take, .take, .endBatch,
    .enqueue (.op 1 1 (.resize 1 3)), .enqueue .barrier, .take]

/-- What the owner reads then has the size it asked for. -/
theorem published_eq_local_two_batches :
    (run new twoBatches : ApplySystem ℕ).worker.running = true ∧
      (run new twoBatches : ApplySystem ℕ).queue = [.barrier] ∧
        ∃ g, (((run new twoBatches : ApplySystem ℕ).step .take).facades 1).map
          (fun slot ↦ ((run new twoBatches : ApplySystem ℕ).step .take).worker.slots[slot]?) =
            some (some g) ∧ g.rows = 1 ∧ g.cols = 3 := by
  refine ⟨rfl, rfl, _, (published_eq_local twoBatches rfl rfl).2 1, rfl, rfl⟩

end ApplySystem

end Kmux
