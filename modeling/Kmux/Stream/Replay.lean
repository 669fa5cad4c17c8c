import Kmux.Daemon.Attach
import Kmux.Stream.Resize

/-!
# Replaying a delta

A client that resumes is sent the diffs the replay buffer holds above its last sequence number. The
buffer keeps the update of every cell frame and a placeholder for every cursor report, but no
scrollback append, although appends are numbered from the same counter; and a resize changes the
grid without taking a number. `Replays` says which part of a stream is kept. While the part a
client missed is made of kept messages only, the delta is that part, renumbering included
(`since_eq`), and applying it does what the live frames would have done (`sameContent_replay`).
-/

namespace Kmux

/-! ## What the buffer keeps of a stream -/

/-- The buffered diffs of a stream, oldest first. -/
inductive Replays : List ServerMessage → List (SequenceNo × TerminalDiff) → Prop
  | nil : Replays [] []
  | update {ms ds} (diff : TerminalDiff) (n : SequenceNo) (h : Replays ms ds) :
      Replays (.terminalUpdate diff n :: ms) ((n, diff) :: ds)
  | cursor {ms ds} (cursor : CursorState) (modes : TermModes) (n : SequenceNo) (historyTotal : ℕ)
      (h : Replays ms ds) :
      Replays (.cursorUpdate cursor modes n :: ms)
        ((n, { ops := [], cursor, modes, historyTotal, scrollbackReset := none }) :: ds)
  | append {ms ds} (firstIndex : ℕ) (lines : List ScrollbackLine) (n : SequenceNo)
      (h : Replays ms ds) : Replays (.scrollbackAppend firstIndex lines n :: ms) ds
  | snapshot {ms ds} (s : GridSnapshot) (label : SequenceNo) (h : Replays ms ds) :
      Replays (.terminalSnapshot s label :: ms) ds

/-- The message is one the buffer keeps. -/
def ServerMessage.Retained : ServerMessage → Prop
  | .terminalUpdate .. => True
  | .cursorUpdate .. => True
  | _ => False

instance : ∀ m : ServerMessage, Decidable m.Retained
  | .terminalUpdate .. => inferInstanceAs (Decidable True)
  | .cursorUpdate .. => inferInstanceAs (Decidable True)
  | .terminalSnapshot .. => inferInstanceAs (Decidable False)
  | .scrollbackAppend .. => inferInstanceAs (Decidable False)
  | .gridDigest .. => inferInstanceAs (Decidable False)
  | .syncReset => inferInstanceAs (Decidable False)
  | .lagged _ => inferInstanceAs (Decidable False)
  | .historyLines .. => inferInstanceAs (Decidable False)

/-- The entries of a buffer without their cached sizes. -/
def DiffBuffer.entries (b : DiffBuffer) : List (SequenceNo × TerminalDiff) :=
  b.diffs.map fun entry ↦ (entry.1, entry.2.1)

namespace Replays

theorem append_append {ms ms' : List ServerMessage} {ds ds' : List (SequenceNo × TerminalDiff)}
    (h : Replays ms ds) (h' : Replays ms' ds') : Replays (ms ++ ms') (ds ++ ds') := by
  induction h with
  | nil => exact h'
  | update diff n h ih => exact .update diff n ih
  | cursor cursor modes n total h ih => exact .cursor cursor modes n total ih
  | append firstIndex lines n h ih => exact .append firstIndex lines n ih
  | snapshot s label h ih => exact .snapshot s label ih

/-- A stream can be cut anywhere, and the kept part with it. -/
theorem split {ms ms' : List ServerMessage} {ds : List (SequenceNo × TerminalDiff)}
    (h : Replays (ms ++ ms') ds) : ∃ d d', ds = d ++ d' ∧ Replays ms d ∧ Replays ms' d' := by
  induction ms generalizing ds with
  | nil => exact ⟨[], ds, rfl, .nil, h⟩
  | cons m ms ih =>
    cases h with
    | update diff n h =>
      obtain ⟨d, d', rfl, hd, hd'⟩ := ih h
      exact ⟨_ :: d, d', rfl, .update diff n hd, hd'⟩
    | cursor cursor modes n total h =>
      obtain ⟨d, d', rfl, hd, hd'⟩ := ih h
      exact ⟨_ :: d, d', rfl, .cursor cursor modes n total hd, hd'⟩
    | append firstIndex lines n h =>
      obtain ⟨d, d', rfl, hd, hd'⟩ := ih h
      exact ⟨d, d', rfl, .append firstIndex lines n hd, hd'⟩
    | snapshot s label h =>
      obtain ⟨d, d', rfl, hd, hd'⟩ := ih h
      exact ⟨d, d', rfl, .snapshot s label hd, hd'⟩

/-- Kept entries carry the numbers of the stream they come from. -/
theorem seqno_mem {ms : List ServerMessage} {ds : List (SequenceNo × TerminalDiff)} {n n' : ℕ}
    (h : Replays ms ds) (hms : Numbered n ms n') : ∀ entry ∈ ds, n ≤ entry.1 ∧ entry.1 < n' := by
  -- a frame takes the number `n`; what follows it is numbered above
  have hcons : ∀ {seqno : SequenceNo} {diff : TerminalDiff}
      {ms : List ServerMessage} {ds : List (SequenceNo × TerminalDiff)} {n : ℕ}, seqno = n →
      Numbered (n + 1) ms n' → (∀ entry ∈ ds, n + 1 ≤ entry.1 ∧ entry.1 < n') →
      ∀ entry ∈ (seqno, diff) :: ds, n ≤ entry.1 ∧ entry.1 < n' := by
    rintro seqno diff ms ds n rfl hms hds entry hentry
    rcases List.mem_cons.mp hentry with rfl | hmem
    · exact ⟨le_rfl, hms.le⟩
    · exact ⟨(Nat.le_succ _).trans (hds entry hmem).1, (hds entry hmem).2⟩
  induction h generalizing n with
  | nil => exact fun entry hentry ↦ absurd hentry List.not_mem_nil
  | update diff seqno h ih => exact hcons (Option.some_inj.mp hms.1) hms.2 (ih hms.2)
  | cursor cursor modes seqno total h ih =>
    exact hcons (Option.some_inj.mp hms.1) hms.2 (ih hms.2)
  | append firstIndex lines seqno h ih =>
    intro entry hentry
    have hmem := ih hms.2 entry hentry
    exact ⟨(Nat.le_succ n).trans hmem.1, hmem.2⟩
  | snapshot s label h ih => exact ih hms.2

/-- The replay of a stream of kept messages is numbered as the stream was. -/
theorem numbered_replay {ms : List ServerMessage} {ds : List (SequenceNo × TerminalDiff)}
    {n n' : ℕ} (h : Replays ms ds) (hms : Numbered n ms n') (hkept : ∀ m ∈ ms, m.Retained) :
    Numbered n (buildAttachReplay (.delta ds)) n' := by
  induction h generalizing n with
  | nil => exact hms
  | update diff seqno h ih => exact ⟨hms.1, ih hms.2 (List.forall_mem_cons.mp hkept).2⟩
  | cursor cursor modes seqno total h ih =>
    exact ⟨hms.1, ih hms.2 (List.forall_mem_cons.mp hkept).2⟩
  | append firstIndex lines seqno h ih => exact (List.forall_mem_cons.mp hkept).1.elim
  | snapshot s label h ih => exact (List.forall_mem_cons.mp hkept).1.elim

/-- Replaying kept messages leaves the content the live frames would have left. A cursor report
comes back as a diff without operations, which amounts to the same. -/
theorem sameContent_replay {ms : List ServerMessage} {ds : List (SequenceNo × TerminalDiff)}
    {g g' : GridContent} (h : Replays ms ds) (hkept : ∀ m ∈ ms, m.Retained)
    (hg : g.SameContent g') :
    (g.applyFrames ms).SameContent (g'.applyFrames (buildAttachReplay (.delta ds))) := by
  induction h generalizing g g' with
  | nil => exact hg
  | update diff seqno h ih =>
    exact ih (List.forall_mem_cons.mp hkept).2 (GridContent.sameContent_applyDiff_congr hg diff)
  | cursor cursor modes seqno total h ih =>
    exact ih (List.forall_mem_cons.mp hkept).2
      ⟨hg.rows, hg.cols, hg.cells, rfl, rfl, hg.scrollback⟩
  | append firstIndex lines seqno h ih => exact (List.forall_mem_cons.mp hkept).1.elim
  | snapshot s label h ih => exact (List.forall_mem_cons.mp hkept).1.elim

end Replays

/-! ## The buffer along a history -/

namespace Pane

section Dispatch

variable {B : Type*}

/-- Pushing one diff keeps the entries a suffix of what they were, with the new one behind. -/
private theorem entries_push (b : DiffBuffer) (n : SequenceNo) (diff : TerminalDiff) :
    (b.push n diff).entries <:+ b.entries ++ [(n, diff)] := by
  have h := (b.push_suffix n diff).map fun entry ↦ (entry.1, entry.2.1)
  rw [List.map_append] at h
  exact h

theorem replays_dispatched {p p' : Pane B} {r : DiffResult} {frames : List ServerMessage}
    (h : p.Dispatched r p' frames) :
    ∃ ds, Replays frames ds ∧ p'.scrollback.entries <:+ p.scrollback.entries ++ ds := by
  have hquiet : p.scrollback.entries <:+ p.scrollback.entries ++ [] :=
    ⟨[], (List.append_nil _).symm⟩
  cases h with
  | update diff => exact ⟨_, .update diff _ .nil, entries_push _ _ _⟩
  | updateAppend diff hlines hreset =>
    exact ⟨_, .update diff _ (.append _ _ _ .nil), entries_push _ _ _⟩
  | appendUpdate diff hlines hreset =>
    exact ⟨_, .append _ _ _ (.update diff _ .nil), entries_push _ _ _⟩
  | cursor cursor modes historyTotal hchanged =>
    exact ⟨_, .cursor cursor modes _ historyTotal .nil, entries_push _ _ _⟩
  | same historyTotal => exact ⟨[], .nil, hquiet⟩
  | none => exact ⟨[], .nil, hquiet⟩

end Dispatch

variable {B : Type*} [TerminalBackend B]

theorem replays_step (p : Pane B) (e : PaneEvent B) :
    ∃ ds, Replays (p.step e).2 ds ∧
      (p.step e).1.scrollback.entries <:+ p.scrollback.entries ++ ds := by
  cases e with
  | cycle b =>
    exact replays_dispatched (p := { p with engine := (p.engine.feed b).computeDiff.1 })
      (dispatched _ (p.engine.feed b).computeDiff.2)
  | resize sz => exact ⟨[], .snapshot _ _ .nil, [], (List.append_nil _).symm⟩

/-- **The buffer is the end of what was kept.** -/
theorem replays_emitted (es : List (PaneEvent B)) :
    ∀ p : Pane B, ∃ ds, Replays (p.emitted es) ds ∧
      (p.run es).scrollback.entries <:+ p.scrollback.entries ++ ds := by
  induction es with
  | nil => exact fun p ↦ ⟨[], .nil, [], (List.append_nil _).symm⟩
  | cons e es ih =>
    intro p
    obtain ⟨d, hd, t, ht⟩ := p.replays_step e
    obtain ⟨d', hd', hsuffix⟩ := ih (p.step e).1
    refine ⟨d ++ d', hd.append_append hd', hsuffix.trans ⟨t, ?_⟩⟩
    rw [← List.append_assoc, ht, List.append_assoc]

end Pane

/-- A buffer that ends with `new`, reaches back to `last`, and holds nothing else above it. -/
theorem DiffBuffer.since_eq {b : DiffBuffer} {old new : List (SequenceNo × TerminalDiff)}
    {oldest last : SequenceNo} (hsuffix : b.entries <:+ old ++ new)
    (hold : ∀ entry ∈ old, entry.1 ≤ last) (hnew : ∀ entry ∈ new, last < entry.1)
    (holdest : b.oldestSeqno = some oldest) (hle : oldest ≤ last) : b.since last = new := by
  have hsince : b.since last = b.entries.filter fun entry ↦ decide (last < entry.1) := by
    rw [since, entries, List.filter_map]
    rfl
  obtain ⟨t, ht⟩ := hsuffix
  rw [hsince]
  rcases List.append_eq_append_iff.mp ht with ⟨kept, rfl, hentries⟩ | ⟨extra, -, rfl⟩
  · rw [hentries, List.filter_append, List.filter_eq_nil_iff.mpr, List.nil_append,
      List.filter_eq_self.mpr]
    · exact fun entry hentry ↦ decide_eq_true (hnew entry hentry)
    · intro entry hentry
      rw [decide_eq_true_eq, not_lt]
      exact hold entry (List.mem_append_right t hentry)
  · -- the buffer would start above `last`
    obtain ⟨entry, hentry, rfl⟩ := Option.map_eq_some_iff.mp holdest
    have hmem : (entry.1, entry.2.1) ∈ b.entries :=
      List.mem_map.mpr ⟨entry, List.mem_of_mem_head? hentry, rfl⟩
    exact absurd (hnew _ (List.mem_append_right extra hmem)) (not_lt.mpr hle)

/-! ## Resuming -/

section Resume

variable {B : Type*} [TerminalBackend B]

theorem agrees_of_sameContent {p : Pane B} {g g' : GridContent} (h : Agrees p g)
    (hg : g.SameContent g') : Agrees p g' := by
  refine ⟨⟨?_, ?_, ?_, ?_⟩, ?_, ?_⟩
  · rw [hg.rows, h.rows]
  · rw [hg.cols, h.cols]
  · rw [hg.cells, h.cells]
  · rw [hg.scrollback, h.historyTotal]
  · exact hg.cursor.trans h.cursor
  · exact hg.modes.trans h.modes

/-- The delta for a client that missed `rest`, all of it kept, is the replay of `rest`. -/
private theorem replays_delta {b₀ : B} {pre post : List (PaneEvent B)}
    {took rest : List ServerMessage} {last : SequenceNo} {ds : List (SequenceNo × TerminalDiff)}
    (hsplit : ((Pane.new b₀).run pre).emitted post = took ++ rest)
    (htook : Numbered ((Pane.new b₀).run pre).seqnoCounter took (last + 1))
    (hrest : Numbered (last + 1) rest (((Pane.new b₀).run pre).run post).seqnoCounter)
    (hdelta : (((Pane.new b₀).run pre).run post).computeReplay (some last) = .delta ds) :
    Replays rest ds := by
  obtain ⟨dpre, hpre, hbuf⟩ := Pane.replays_emitted pre (Pane.new b₀)
  obtain ⟨dpost, hpost, hbuf'⟩ := Pane.replays_emitted post ((Pane.new b₀).run pre)
  rw [hsplit] at hpost
  obtain ⟨d, d', rfl, hd, hd'⟩ := hpost.split
  obtain ⟨rfl, oldest, holdest, hle⟩ := Pane.computeReplay_eq_delta hdelta
  have hsuffix : (((Pane.new b₀).run pre).run post).scrollback.entries <:+ (dpre ++ d) ++ d' := by
    obtain ⟨t, ht⟩ := hbuf
    refine hbuf'.trans ⟨t, ?_⟩
    rw [← List.append_assoc, ht, List.append_assoc, List.append_assoc]
    rfl
  have hprelt := hpre.seqno_mem (Pane.numbered_emitted pre (Pane.new b₀) Nat.one_pos)
  have hdlt := hd.seqno_mem htook
  have hd'gt := hd'.seqno_mem hrest
  rw [DiffBuffer.since_eq hsuffix _ (fun entry h ↦ (hd'gt entry h).1) holdest hle]
  · exact hd'
  · intro entry hentry
    rcases List.mem_append.mp hentry with h | h
    · exact Nat.le_of_lt_succ ((hprelt entry h).2.trans_le htook.le)
    · exact Nat.le_of_lt_succ (hdlt entry h).2

/-- **Delta replay.** A client attaches, follows a faithful run for a while and misses the rest. If
no frame it missed was a scrollback append and no resize came in between, then a delta it is
answered with is accepted frame by frame and leaves it in agreement with the pane. -/
theorem delta_replay (b₀ : B) (pre post : List (PaneEvent B)) (heard took rest : List ServerMessage)
    (last : SequenceNo) (ds : List (SequenceNo × TerminalDiff))
    (hheard : ∀ m ∈ heard, (Pane.new b₀).Said pre m)
    (hpost : Run.Ok (fun p e ↦ (Pane.step p e).1) Faithful ((Pane.new b₀).run pre) post)
    (hsplit : ((Pane.new b₀).run pre).emitted post = took ++ rest)
    (hrest : ∀ m ∈ rest, m.Retained)
    (hlast : (((PaneSession.new.receive heard).handleServerMessage
      ((Pane.new b₀).run pre).snapshotMessage).receive took).paneSync = some (.synced (last + 1)))
    (hdelta : (((Pane.new b₀).run pre).run post).computeReplay (some last) = .delta ds) :
    let pane := ((Pane.new b₀).run pre).run post
    let client := ((PaneSession.new.receive heard).handleServerMessage
      ((Pane.new b₀).run pre).snapshotMessage).receive took
    let resumed := client.receive (buildAttachReplay (.delta ds))
    client.AcceptsAll (buildAttachReplay (.delta ds)) ∧ resumed.attaches = client.attaches ∧
      ∃ g, resumed.buffer = some g ∧ Agrees pane g := by
  intro pane client resumed
  set p := (Pane.new b₀).run pre
  have hpos : 0 < p.seqnoCounter := Pane.seqnoCounter_pos_run Nat.one_pos _
  obtain ⟨g₀, hheld, hfollow⟩ := Pane.following_attach hheard hpos
  -- where the stream was cut
  have hnumbered := Pane.numbered_emitted post p hpos
  rw [hsplit] at hnumbered
  obtain ⟨n, htook, hmissed⟩ := numbered_split hnumbered
  obtain ⟨-, hclient⟩ := PaneSession.receive_of_numbered hfollow htook
  obtain rfl : n = last + 1 := by
    have hsync := hclient.paneSync.symm.trans hlast
    exact PaneSync.synced.inj (Option.some_inj.mp hsync)
  have hreplays := replays_delta hsplit htook hmissed hdelta
  -- the live stream would have led to agreement
  have hlive := applyFrames_emitted (fun p g e h he ↦ agrees_step h he) post p _
    (agrees_snapshot hheld.historyTotal_le) hpost
  rw [hsplit, GridContent.applyFrames_append] at hlive
  obtain ⟨haccept, hresumed⟩ :=
    PaneSession.receive_of_numbered hclient (hreplays.numbered_replay hmissed hrest)
  exact ⟨haccept, hresumed.attaches.trans hclient.attaches.symm, _, hresumed.buffer,
    agrees_of_sameContent hlive
      (hreplays.sameContent_replay hrest ⟨rfl, rfl, rfl, rfl, rfl, rfl⟩)⟩

end Resume

/-! ## Two resumes

A client attaches to a blank pane, sees a letter appear, and misses what happens next. -/

/-- The letter appears, and then the screen becomes `next`. -/
def missedRun (next : MockBackend) : List (PaneEvent MockBackend) :=
  [.cycle { MockBackend.new 1 1 with cells := [letterA] }, .cycle next]

/-- What the pane sends meanwhile. -/
def missedStream (next : MockBackend) : List ServerMessage :=
  (Pane.new (MockBackend.new 1 1)).emitted (missedRun next)

/-- The client that took the first frame only. -/
def interruptedClient (next : MockBackend) : PaneSession :=
  (PaneSession.new.handleServerMessage (Pane.new (MockBackend.new 1 1)).snapshotMessage).receive
    ((missedStream next).take 1)

/-- The letter is erased: the delta is the one update that was missed. -/
theorem delta_replay_of_erased_cell :
    let pane := (Pane.new (MockBackend.new 1 1)).run (missedRun (MockBackend.new 1 1))
    let ds := pane.scrollback.since 1
    pane.computeReplay (some 1) = .delta ds ∧
      (interruptedClient (MockBackend.new 1 1)).AcceptsAll (buildAttachReplay (.delta ds)) := by
  intro pane ds
  have hdelta : pane.computeReplay (some 1) = .delta ds := by decide +kernel
  refine ⟨hdelta, (delta_replay (MockBackend.new 1 1) [] (missedRun (MockBackend.new 1 1)) []
    ((missedStream (MockBackend.new 1 1)).take 1) ((missedStream (MockBackend.new 1 1)).drop 1) 1 ds
    (by simp) ?_ (List.take_append_drop 1 _).symm ?_ ?_ hdelta).1⟩
  · decide +kernel
  · decide +kernel
  · decide +kernel

/-- The letter is erased and a line scrolls off: the append takes a number that no diff carries, so
the delta jumps over it and the client resyncs. -/
theorem not_delta_replay_of_missed_append :
    let next : MockBackend :=
      { MockBackend.new 1 1 with historyLen := 1, historyLines := [[default]] }
    let pane := (Pane.new (MockBackend.new 1 1)).run (missedRun next)
    let ds := pane.scrollback.since 1
    pane.computeReplay (some 1) = .delta ds ∧
      (interruptedClient next).paneSync = some (.synced (1 + 1)) ∧
      ¬((interruptedClient next).AcceptsAll (buildAttachReplay (.delta ds)) ∧
        ((interruptedClient next).receive (buildAttachReplay (.delta ds))).attaches
          = (interruptedClient next).attaches) := by
  intro next pane ds
  refine ⟨by decide +kernel, by decide +kernel, ?_⟩
  rintro ⟨-, hattaches⟩
  have hresync : ((interruptedClient next).receive (buildAttachReplay (.delta ds))).attaches
      ≠ (interruptedClient next).attaches := by decide +kernel
  exact hresync hattaches

end Kmux
