import Kmux.Daemon.Graveyard
import Kmux.Lib.Ledger

/-!
# Every session word has one owner

A word that is not in the pool should belong to one live session or one graveyard entry. The
operations move it between the containers in several lock sections, so that is not true at every
instant, and by design: a close buries the session before it removes it, so that a crash in between
loses nothing, and a restore enters the live map before it clears the entry. Words on their way are
therefore accounted for by the call that carries them (`Task.holds`), and the two hand-overs by the
call that performs them (`Task.closing?`, `Task.inserted?`).

The accounts are a `Ledger` with the live map's words as live, the graveyard's as kept and the
words carried by calls as loose. They balance in every run of *clean* steps. A step that is not
clean loses or doubles an owner: a spawn that fails after the draw drops the word, a second close
buries it twice, and a prune or restore can act on an entry whose session is on its way.
-/

namespace Kmux

/-! ## What a call carries -/

/-- Words that have left one place and not yet reached the next. -/
def Task.holds : Task → List WordId
  | .restoreInner pending _ => pending
  | .loadGraveyard kept => kept.map ClosedSession.word
  | .createDrawn word => [word]
  | .closeEvicted _ evicted => evicted
  | .sweepEvicted evicted => evicted
  | _ => []

/-- The session a close has buried and not yet removed. -/
def Task.closing? : Task → Option WordId
  | .closePushed word | .closeEvicted word _ | .closeRetained word => some word
  | _ => none

/-- The session a close has found and not yet buried. -/
def Task.found? : Task → Option WordId
  | .closeFound word => some word
  | _ => none

/-- The session a restore has entered into the live map, its entry not yet cleared. -/
def Task.inserted? : Task → Option WordId
  | .restoreInserted word => some word
  | _ => none

namespace Daemon

def inFlight (s : Daemon) : List WordId := s.tasks.flatMap Task.holds

def closing (s : Daemon) : List WordId := s.tasks.filterMap Task.closing?

def found (s : Daemon) : List WordId := s.tasks.filterMap Task.found?

def inserted (s : Daemon) : List WordId := s.tasks.filterMap Task.inserted?

/-! ## The property -/

/-- Every word outside the pool has one owner, a live session or a graveyard entry. -/
structure ExactlyOwned (r : Retention) (s : Daemon) : Prop where
  available_nodup : s.available.Nodup
  mem_available : ∀ w, w ∈ s.available ↔ w ∈ r.wordlist ∧ w ∉ s.sessions ∧ w ∉ s.buried
  sessions_nodup : s.sessions.Nodup
  buried_nodup : s.buried.Nodup
  disjoint : ∀ w ∈ s.sessions, w ∉ s.buried

/-- The same with the calls in flight: a word one of them carries has that call as its one owner,
and a word is live and buried at once only while a close or a restore hands it over. -/
structure Accounted (r : Retention) (s : Daemon) : Prop where
  available_nodup : s.available.Nodup
  mem_available : ∀ w, w ∈ s.available ↔
    w ∈ r.wordlist ∧ w ∉ s.sessions ∧ w ∉ s.buried ∧ w ∉ s.inFlight
  sessions_nodup : s.sessions.Nodup
  buried_nodup : s.buried.Nodup
  inFlight_nodup : s.inFlight.Nodup
  inFlight_disjoint : ∀ w ∈ s.inFlight, w ∉ s.sessions ∧ w ∉ s.buried
  handedOver : ∀ w ∈ s.sessions, w ∈ s.buried → w ∈ s.closing ∨ w ∈ s.inserted

/-- Steps that keep the accounts: no spawn fails once the word is drawn; no session is buried that
has an entry or is still being restored; no entry is evicted whose session is live; and no session
is restored whose word has no owner left, or that a close is still removing. -/
def Clean (r : Retention) (s : Daemon) : WordEvent → Prop
  | .createSpawn word false => Task.createDrawn word ∉ s.tasks
  | .retainPush word _ =>
      Task.closeFound word ∈ s.tasks → word ∉ s.buried ∧ word ∉ s.inserted
  | .retainEvict word now =>
      Task.closePushed word ∈ s.tasks → ∀ w ∈ r.evicted now s.closedSessions, w ∉ s.sessions
  | .sweepEvict now => ∀ w ∈ r.evicted now s.closedSessions, w ∉ s.sessions
  | .restoreSpawn word true =>
      Task.restoreFound word ∈ s.tasks →
        (word ∈ s.sessions ∨ word ∈ s.buried) ∧ word ∉ s.closing
  | _ => True

instance decidableClean (r : Retention) (s : Daemon) : ∀ e, Decidable (Clean r s e)
  | .createSpawn _ false => inferInstanceAs (Decidable (_ ∉ _))
  | .retainPush _ _ => inferInstanceAs (Decidable (_ → _ ∧ _))
  | .retainEvict _ _ => inferInstanceAs (Decidable (_ → ∀ w ∈ _, _ ∉ _))
  | .sweepEvict _ => inferInstanceAs (Decidable (∀ w ∈ _, _ ∉ _))
  | .restoreSpawn _ true => inferInstanceAs (Decidable (_ → _ ∧ _))
  | .restart .. | .reserveUsed .. | .restoreNext .. | .reserveLoaded .. | .installLoaded ..
  | .checkpoint | .persistGraveyard | .createSession | .drawWord .. | .createSpawn _ true
  | .closeSession .. | .retainRelease .. | .closeRemove .. | .sweepRelease ..
  | .restoreSession .. | .restoreSpawn _ false | .restoreDrop .. =>
      inferInstanceAs (Decidable True)

end Daemon

/-! ## The pool's and the graveyard's arithmetic -/

theorem Retention.foldl_release (r : Retention) (words available : List WordId) :
    words.foldl r.release available = available ++ words.filter (· ∈ r.wordlist) := by
  induction words generalizing available with
  | nil => rw [List.foldl_nil, List.filter_nil, List.append_nil]
  | cons w words ih =>
    rw [List.foldl_cons, ih, Retention.release]
    by_cases h : w ∈ r.wordlist
    · rw [if_pos h, List.filter_cons_of_pos (by simpa using h), List.append_assoc,
        List.singleton_append]
    · rw [if_neg h, List.filter_cons_of_neg (by simpa using h)]

theorem foldl_reserve (words available : List WordId) :
    words.foldl reserve available = available.diff words :=
  (List.diff_eq_foldl available words).symm

/-- A prune splits the graveyard into what it leaves and what it evicts. -/
theorem Retention.perm_retained_evicted (r : Retention) (now : ℕ) (l : List ClosedSession) :
    (l.map ClosedSession.word).Perm
      ((r.retained now l).map ClosedSession.word ++ r.evicted now l) := by
  rw [Retention.retained, Retention.evicted]
  set fresh := l.filter fun c ↦ !r.expired now c with hfresh
  have hsplit : l.Perm (fresh ++ l.filter (r.expired now)) := by
    refine (List.filter_append_perm (r.expired now) l).symm.trans ?_
    exact List.perm_append_comm
  have hcap : fresh.Perm (fresh.drop (r.excess fresh) ++ fresh.take (r.excess fresh)) := by
    nth_rewrite 1 [← List.take_append_drop (r.excess fresh) fresh]
    exact List.perm_append_comm
  refine ((hsplit.trans (hcap.append_right _)).map ClosedSession.word).trans ?_
  rw [List.map_append, List.map_append, List.append_assoc]
  exact List.Perm.append_left _ List.perm_append_comm

/-- The loaded entries are, up to order, entries of the file that are not live. -/
theorem Retention.loaded_spec (r : Retention) (now : ℕ) (live : List WordId)
    {file : List ClosedSession} (h : (file.map ClosedSession.word).Nodup) :
    ((r.loaded now live file).map ClosedSession.word).Nodup ∧
      ∀ w ∈ (r.loaded now live file).map ClosedSession.word, w ∉ live := by
  rw [Retention.loaded]
  set kept := file.filter fun c ↦ decide (c.word ∉ live) && !r.expired now c with hkept
  set sorted := kept.insertionSort fun c d ↦ c.closedAtMs ≤ d.closedAtMs with hsorted
  have hperm : sorted.Perm kept := List.perm_insertionSort _ kept
  have hsub : (sorted.drop (r.excess sorted)).Sublist sorted := List.drop_sublist _ sorted
  constructor
  · have hnodup : (kept.map ClosedSession.word).Nodup := h.sublist (List.filter_sublist.map _)
    exact ((hperm.map _).nodup_iff.mpr hnodup).sublist (hsub.map _)
  · intro w hw
    obtain ⟨c, hc, rfl⟩ := List.mem_map.mp hw
    have := List.mem_filter.mp (hperm.mem_iff.mp (hsub.subset hc))
    simpa using (Bool.and_eq_true_iff.mp this.2).1

/-! ## Hand-overs -/

/-- Who is on the way between the live map and the graveyard. -/
structure Custody (live graves closing found inserted : List WordId) : Prop where
  shared : ∀ w ∈ live, w ∈ graves → w ∈ closing ∨ w ∈ inserted
  closing_nodup : closing.Nodup
  closing_both : ∀ w ∈ closing, w ∈ live ∧ w ∈ graves ∧ w ∉ inserted
  found_live : ∀ w ∈ found, w ∈ live
  inserted_live : ∀ w ∈ inserted, w ∈ live

namespace Custody

variable {live graves closing found inserted : List WordId} {w : WordId}

theorem perm {closing' found' inserted' : List WordId}
    (h : Custody live graves closing found inserted) (hc : closing.Perm closing')
    (hf : found.Perm found') (hi : inserted.Perm inserted') :
    Custody live graves closing' found' inserted' where
  shared := fun w hl hg ↦ by
    rw [← hc.mem_iff, ← hi.mem_iff]
    exact h.shared w hl hg
  closing_nodup := hc.nodup_iff.mp h.closing_nodup
  closing_both := fun w hw ↦ by
    rw [← hi.mem_iff]
    exact h.closing_both w (hc.mem_iff.mpr hw)
  found_live := fun w hw ↦ h.found_live w (hf.mem_iff.mpr hw)
  inserted_live := fun w hw ↦ h.inserted_live w (hi.mem_iff.mpr hw)

/-- Nothing is on the way, and the two places have no word in common. -/
theorem idle (h : ∀ w ∈ live, w ∉ graves) : Custody live graves [] [] [] where
  shared := fun w hl hg ↦ absurd hg (h w hl)
  closing_nodup := List.nodup_nil
  closing_both := by simp
  found_live := by simp
  inserted_live := by simp

/-- A session that has no entry goes live. -/
theorem enliven (h : Custody live graves closing found inserted) (hw : w ∉ graves) :
    Custody (live.insert w) graves closing found inserted where
  shared := fun v hl hg ↦ by
    rcases List.mem_insert_iff.mp hl with rfl | hl
    · exact absurd hg hw
    · exact h.shared v hl hg
  closing_nodup := h.closing_nodup
  closing_both := fun v hv ↦
    ⟨List.mem_insert_of_mem (h.closing_both v hv).1, (h.closing_both v hv).2⟩
  found_live := fun v hv ↦ List.mem_insert_of_mem (h.found_live v hv)
  inserted_live := fun v hv ↦ List.mem_insert_of_mem (h.inserted_live v hv)

/-- A close finds its session. -/
theorem find (h : Custody live graves closing found inserted) (hw : w ∈ live) :
    Custody live graves closing (w :: found) inserted where
  shared := h.shared
  closing_nodup := h.closing_nodup
  closing_both := h.closing_both
  found_live := fun v hv ↦ by
    rcases List.mem_cons.mp hv with rfl | hv
    · exact hw
    · exact h.found_live v hv
  inserted_live := h.inserted_live

/-- A close buries its session. -/
theorem bury (h : Custody live graves closing (w :: found) inserted) (hg : w ∉ graves)
    (hi : w ∉ inserted) : Custody live (graves ++ [w]) (w :: closing) found inserted where
  shared := fun v hl hv ↦ by
    rcases List.mem_append.mp hv with hv | hv
    · exact (h.shared v hl hv).imp_left (List.mem_cons_of_mem w)
    · rw [List.mem_singleton] at hv
      exact Or.inl (hv ▸ List.mem_cons_self)
  closing_nodup := List.nodup_cons.mpr
    ⟨fun hw ↦ hg (h.closing_both w hw).2.1, h.closing_nodup⟩
  closing_both := fun v hv ↦ by
    rcases List.mem_cons.mp hv with rfl | hv
    · exact ⟨h.found_live v List.mem_cons_self, by simp, hi⟩
    · obtain ⟨hl, hg', hi'⟩ := h.closing_both v hv
      exact ⟨hl, List.mem_append_left [w] hg', hi'⟩
  found_live := fun v hv ↦ h.found_live v (List.mem_cons_of_mem w hv)
  inserted_live := h.inserted_live

/-- Entries of sessions that are not live disappear. -/
theorem evict {graves' : List WordId} (h : Custody live graves closing found inserted)
    (hsub : ∀ v ∈ graves', v ∈ graves) (hlive : ∀ v ∈ live, v ∈ graves → v ∈ graves') :
    Custody live graves' closing found inserted where
  shared := fun v hl hv ↦ h.shared v hl (hsub v hv)
  closing_nodup := h.closing_nodup
  closing_both := fun v hv ↦ by
    obtain ⟨hl, hg, hi⟩ := h.closing_both v hv
    exact ⟨hl, hlive v hl hg, hi⟩
  found_live := h.found_live
  inserted_live := h.inserted_live

/-- A close removes its session; no other close can be looking at it then. -/
theorem retire (h : Custody live graves (w :: closing) [] inserted) (hnodup : live.Nodup) :
    Custody (live.erase w) graves closing [] inserted where
  shared := fun v hl hg ↦ by
    obtain ⟨hne, hl⟩ := hnodup.mem_erase_iff.mp hl
    rcases h.shared v hl hg with hv | hv
    · exact Or.inl ((List.mem_cons.mp hv).resolve_left hne)
    · exact Or.inr hv
  closing_nodup := (List.nodup_cons.mp h.closing_nodup).2
  closing_both := fun v hv ↦ by
    obtain ⟨hl, hg, hi⟩ := h.closing_both v (List.mem_cons_of_mem w hv)
    refine ⟨hnodup.mem_erase_iff.mpr ⟨?_, hl⟩, hg, hi⟩
    rintro rfl
    exact (List.nodup_cons.mp h.closing_nodup).1 hv
  found_live := by simp
  inserted_live := fun v hv ↦ by
    refine hnodup.mem_erase_iff.mpr ⟨?_, h.inserted_live v hv⟩
    rintro rfl
    exact (h.closing_both v List.mem_cons_self).2.2 hv

/-- A restore enters the live map. -/
theorem revive (h : Custody live graves closing found inserted) (hw : w ∉ closing) :
    Custody (live.insert w) graves closing found (w :: inserted) where
  shared := fun v hl hg ↦ by
    rcases List.mem_insert_iff.mp hl with rfl | hl
    · exact Or.inr List.mem_cons_self
    · exact (h.shared v hl hg).imp_right (List.mem_cons_of_mem w)
  closing_nodup := h.closing_nodup
  closing_both := fun v hv ↦ by
    obtain ⟨hl, hg, hi⟩ := h.closing_both v hv
    refine ⟨List.mem_insert_of_mem hl, hg, fun hv' ↦ ?_⟩
    rcases List.mem_cons.mp hv' with rfl | hv'
    · exact hw hv
    · exact hi hv'
  found_live := fun v hv ↦ List.mem_insert_of_mem (h.found_live v hv)
  inserted_live := fun v hv ↦ by
    rcases List.mem_cons.mp hv with rfl | hv
    · exact List.mem_insert_self
    · exact List.mem_insert_of_mem (h.inserted_live v hv)

/-- A restore clears its entry. -/
theorem unbury {graves' : List WordId} (h : Custody live graves closing found (w :: inserted))
    (hg : ∀ v, v ∈ graves' ↔ v ∈ graves ∧ v ≠ w) :
    Custody live graves' closing found inserted where
  shared := fun v hl hv ↦ by
    obtain ⟨hv, hne⟩ := (hg v).mp hv
    exact (h.shared v hl hv).imp_right fun hi ↦ (List.mem_cons.mp hi).resolve_left hne
  closing_nodup := h.closing_nodup
  closing_both := fun v hv ↦ by
    obtain ⟨hl, hg', hi⟩ := h.closing_both v hv
    refine ⟨hl, (hg v).mpr ⟨hg', ?_⟩, fun hv' ↦ hi (List.mem_cons_of_mem w hv')⟩
    rintro rfl
    exact hi List.mem_cons_self
  found_live := h.found_live
  inserted_live := fun v hv ↦ h.inserted_live v (List.mem_cons_of_mem w hv)

end Custody

/-! ## The invariant -/

/-- What a call of the start relies on. -/
def Task.Ready (sessions : List WordId) : Task → Prop
  | .restoreFrom state file =>
      sessions = [] ∧ state.sessions.Nodup ∧ state.usedWords = state.sessions ∧
        (file.map ClosedSession.word).Nodup
  | .restoreInner _ file => (file.map ClosedSession.word).Nodup
  | _ => True

namespace Daemon

/-- The accounts balance, and every file that a daemon can start from is sound. -/
structure Inv (r : Retention) (s : Daemon) : Prop where
  ledger : Ledger r.wordlist s.available s.sessions s.buried s.inFlight
  custody : Custody s.sessions s.buried s.closing s.found s.inserted
  checkpoints : ∀ c ∈ s.checkpoints, c.sessions.Nodup ∧ c.usedWords = c.sessions
  graveyards : ∀ file ∈ s.graveyards, (file.map ClosedSession.word).Nodup
  /-- The start is one call after another, with an empty graveyard, before anything else. -/
  boot : ∀ t ∈ s.tasks, t.boots = true →
    s.tasks = [t] ∧ s.closedSessions = [] ∧ t.Ready s.sessions

variable {r : Retention} {s : Daemon} {t : Task} {rest : List Task}

theorem inv_new (r : Retention) : (new r).Inv r where
  ledger := Ledger.full r.wordlist_nodup
  custody := Custody.idle (by simp [new])
  checkpoints := by simp [new]
  graveyards := by simp [new]
  boot := by simp [new]

theorem Inv.perm {tasks : List Task} (h : s.Inv r) (hp : s.tasks.Perm tasks) :
    Inv r { s with tasks := tasks } where
  ledger := h.ledger.perm_loose (hp.flatMap_right Task.holds)
  custody := h.custody.perm (hp.filterMap _) (hp.filterMap _) (hp.filterMap _)
  checkpoints := h.checkpoints
  graveyards := h.graveyards
  boot := fun t ht hb ↦ by
    obtain ⟨hs, hrest⟩ := h.boot t (hp.mem_iff.mpr ht) hb
    rw [hs] at hp
    exact ⟨List.perm_singleton.mp hp.symm, hrest⟩

/-- A lock section of a call in flight. -/
theorem Inv.resume {go : Daemon → Daemon} (h : s.Inv r)
    (hgo : ∀ rest, s.tasks.Perm (t :: rest) → Inv r { s with tasks := t :: rest } →
      Inv r (go { s with tasks := rest })) : Inv r (s.resume t go) := by
  rw [Daemon.resume]
  by_cases ht : t ∈ s.tasks
  · rw [if_pos ht]
    have hp := List.perm_cons_erase ht
    exact hgo (s.tasks.erase t) hp (h.perm hp)
  · rw [if_neg ht]
    exact h

theorem booting_eq_false : s.booting = false ↔ ∀ t ∈ s.tasks, t.boots = false := by
  rw [booting, List.any_eq_false]
  simp

theorem Inv.serve {go : Daemon → Daemon} (h : s.Inv r)
    (hgo : (∀ t ∈ s.tasks, t.boots = false) → Inv r (go s)) : Inv r (s.serve go) := by
  rw [Daemon.serve]
  by_cases hb : s.booting = true
  · rw [if_pos hb]
    exact h
  · rw [if_neg hb]
    exact hgo (booting_eq_false.mp (Bool.not_eq_true _ ▸ hb))

theorem Inv.write {go : Daemon → Daemon} (h : s.Inv r)
    (hgo : s.found = [] → Inv r (go s)) : Inv r (s.write go) := by
  rw [Daemon.write]
  by_cases hb : s.sessionsRead = true
  · rw [if_pos hb]
    exact h
  · rw [if_neg hb]
    refine hgo (List.filterMap_eq_nil_iff.mpr fun t ht ↦ ?_)
    have hread : ¬ t.readsSessions = true := fun hr ↦ hb (List.any_eq_true.mpr ⟨t, ht, hr⟩)
    cases t <;> first | rfl | exact absurd rfl hread

/-- A call that is not part of the start is in flight only once the start is over. -/
theorem Inv.served (h : Inv r { s with tasks := t :: rest }) (ht : t.boots = false) :
    ∀ t' ∈ rest, t'.boots = false := by
  intro t' ht'
  rw [← Bool.not_eq_true]
  intro hb
  obtain ⟨heq, -⟩ := h.boot t' (List.mem_cons_of_mem t ht') hb
  obtain ⟨rfl, -⟩ := List.cons_eq_cons.mp heq
  exact absurd hb (by rw [ht]; exact Bool.false_ne_true)

/-- A call of the start is alone. -/
theorem Inv.alone (h : Inv r { s with tasks := t :: rest }) (ht : t.boots = true) :
    rest = [] ∧ s.closedSessions = [] ∧ t.Ready s.sessions := by
  obtain ⟨heq, hrest⟩ := h.boot t List.mem_cons_self ht
  exact ⟨(List.cons_eq_cons.mp heq).2, hrest⟩

/-- Its words are the only loose ones. -/
theorem Inv.ledger_alone (h : Inv r { s with tasks := t :: rest }) (ht : t.boots = true) :
    Ledger r.wordlist s.available s.sessions [] t.holds := by
  obtain ⟨rfl, hclosed, -⟩ := h.alone ht
  have hledger := h.ledger
  rw [buried, hclosed, inFlight, List.flatMap_singleton] at hledger
  exact hledger

/-- Outside the start, the invariant is about the words and the files only. -/
theorem inv_of_served (hledger : Ledger r.wordlist s.available s.sessions s.buried s.inFlight)
    (hcustody : Custody s.sessions s.buried s.closing s.found s.inserted)
    (hcheckpoints : ∀ c ∈ s.checkpoints, c.sessions.Nodup ∧ c.usedWords = c.sessions)
    (hgraveyards : ∀ file ∈ s.graveyards, (file.map ClosedSession.word).Nodup)
    (hserved : ∀ t ∈ s.tasks, t.boots = false) : s.Inv r where
  ledger := hledger
  custody := hcustody
  checkpoints := hcheckpoints
  graveyards := hgraveyards
  boot := fun t ht hb ↦ absurd hb (by rw [hserved t ht]; exact Bool.false_ne_true)

/-! ## One lemma for each lock section -/

private theorem boots_cons {t : Task} (ht : t.boots = false)
    (hrest : ∀ t' ∈ rest, t'.boots = false) : ∀ t' ∈ t :: rest, t'.boots = false := by
  intro t' ht'
  rcases List.mem_cons.mp ht' with rfl | ht'
  · exact ht
  · exact hrest t' ht'

theorem inv_restart (h : s.Inv r) (state : PersistedDaemonState) (file : List ClosedSession) :
    (s.step r (.restart state file)).Inv r := by
  rw [step]
  by_cases hfiles : state ∈ s.checkpoints ∧ file ∈ s.graveyards
  · rw [if_pos hfiles]
    obtain ⟨hnodup, hused⟩ := h.checkpoints state hfiles.1
    refine ⟨Ledger.full r.wordlist_nodup, Custody.idle (by simp [Daemon.boot]), h.checkpoints,
      h.graveyards, fun t ht _ ↦ ?_⟩
    rw [Daemon.boot, List.mem_singleton] at ht
    rw [ht]
    exact ⟨rfl, rfl, rfl, hnodup, hused, h.graveyards file hfiles.2⟩
  · rw [if_neg hfiles]
    exact h

/-- The start goes on with one call. -/
private theorem inv_of_booting {t : Task}
    (hledger : Ledger r.wordlist s.available s.sessions [] t.holds)
    (htasks : s.tasks = [t]) (hclosed : s.closedSessions = [])
    (hcheckpoints : ∀ c ∈ s.checkpoints, c.sessions.Nodup ∧ c.usedWords = c.sessions)
    (hgraveyards : ∀ file ∈ s.graveyards, (file.map ClosedSession.word).Nodup)
    (hready : t.boots = true ∧ t.Ready s.sessions) : s.Inv r := by
  have hburied : s.buried = [] := by rw [buried, hclosed, List.map_nil]
  refine ⟨?_, ?_, hcheckpoints, hgraveyards, fun t' ht' _ ↦ ?_⟩
  · rw [hburied, inFlight, htasks, List.flatMap_singleton]
    exact hledger
  · rw [hburied, closing, found, inserted, htasks]
    have hb := hready.1
    cases t <;> first | exact Custody.idle (by simp) | exact absurd hb Bool.false_ne_true
  · rw [htasks, List.mem_singleton] at ht'
    rw [ht']
    exact ⟨htasks, hclosed, hready.2⟩

theorem inv_reserveUsed (h : s.Inv r) (state : PersistedDaemonState)
    (file : List ClosedSession) : (s.step r (.reserveUsed state file)).Inv r := by
  rw [step]
  refine h.resume fun rest _ h' ↦ ?_
  obtain ⟨rfl, hclosed, hsessions, hnodup, hused, hfile⟩ := h'.alone rfl
  refine inv_of_booting (t := .restoreInner state.sessions file) ?_ rfl hclosed h'.checkpoints
    h'.graveyards ⟨rfl, hfile⟩
  have hledger : Ledger r.wordlist s.available s.sessions [] [] := h'.ledger_alone rfl
  have hreserve := hledger.reserve hnodup fun w _ ↦ by
    refine ⟨?_, List.not_mem_nil, List.not_mem_nil⟩
    rw [hsessions]
    exact List.not_mem_nil
  rw [List.append_nil, ← foldl_reserve] at hreserve
  rw [hused]
  exact hreserve

theorem inv_restoreNext (h : s.Inv r) (word : WordId) (pending : List WordId)
    (file : List ClosedSession) (spawned : Bool) :
    (s.step r (.restoreNext word pending file spawned)).Inv r := by
  cases spawned with
  | true =>
    rw [step]
    refine h.resume fun rest _ h' ↦ ?_
    obtain ⟨rfl, hclosed, hfile⟩ := h'.alone rfl
    exact inv_of_booting (t := .restoreInner pending file) (h'.ledger_alone rfl).enliven rfl
      hclosed h'.checkpoints h'.graveyards ⟨rfl, hfile⟩
  | false =>
    rw [step]
    refine h.resume fun rest _ h' ↦ ?_
    obtain ⟨rfl, hclosed, hfile⟩ := h'.alone rfl
    refine inv_of_booting (t := .restoreInner pending file) ?_ rfl hclosed
      h'.checkpoints h'.graveyards ⟨rfl, hfile⟩
    rw [releaseAll, Retention.foldl_release]
    have hledger : Ledger r.wordlist s.available s.sessions [] ([word] ++ _) :=
      h'.ledger_alone rfl
    exact hledger.release

theorem inv_reserveLoaded (h : s.Inv r) (file : List ClosedSession) (now : ℕ) :
    (s.step r (.reserveLoaded file now)).Inv r := by
  rw [step]
  refine h.resume fun rest _ h' ↦ ?_
  obtain ⟨rfl, hclosed, hfile⟩ := h'.alone rfl
  obtain ⟨hnodup, hfresh⟩ := r.loaded_spec now s.sessions hfile
  refine inv_of_booting (t := .loadGraveyard (r.loaded now s.sessions file)) ?_ rfl hclosed
    h'.checkpoints h'.graveyards ⟨rfl, trivial⟩
  have hledger : Ledger r.wordlist s.available s.sessions [] [] := h'.ledger_alone rfl
  have hreserve := hledger.reserve hnodup fun w hw ↦
    ⟨hfresh w hw, List.not_mem_nil, List.not_mem_nil⟩
  rw [List.append_nil, ← foldl_reserve] at hreserve
  exact hreserve

theorem inv_installLoaded (h : s.Inv r) (kept : List ClosedSession) :
    (s.step r (.installLoaded kept)).Inv r := by
  rw [step]
  refine h.resume fun rest _ h' ↦ ?_
  obtain ⟨rfl, hclosed, -⟩ := h'.alone rfl
  have hledger := h'.ledger_alone rfl
  refine inv_of_served hledger.settle (Custody.idle fun w hl hk ↦ ?_) h'.checkpoints
    h'.graveyards (by simp)
  exact (hledger.loose_fresh w hk).1 hl

theorem inv_checkpoint (h : s.Inv r) : (s.step r .checkpoint).Inv r := by
  rw [step]
  refine h.serve fun hserved ↦ inv_of_served h.ledger h.custody (fun c hc ↦ ?_) h.graveyards hserved
  rcases List.mem_cons.mp hc with rfl | hc
  · exact ⟨h.ledger.live_nodup, rfl⟩
  · exact h.checkpoints c hc

theorem inv_persistGraveyard (h : s.Inv r) : (s.step r .persistGraveyard).Inv r := by
  rw [step]
  refine h.serve fun hserved ↦
    inv_of_served h.ledger h.custody h.checkpoints (fun g hg ↦ ?_) hserved
  rcases List.mem_cons.mp hg with rfl | hg
  · exact h.ledger.kept_nodup
  · exact h.graveyards g hg

theorem inv_createSession (h : s.Inv r) : (s.step r .createSession).Inv r := by
  rw [step]
  refine h.serve fun hserved ↦ ?_
  by_cases hlimit : s.sessions.length ≥ maxSessions
  · rw [if_pos hlimit]
    exact h
  · rw [if_neg hlimit]
    exact inv_of_served h.ledger h.custody h.checkpoints h.graveyards (boots_cons rfl hserved)

theorem inv_drawWord (h : s.Inv r) (index : ℕ) : (s.step r (.drawWord index)).Inv r := by
  rw [step]
  refine h.resume fun rest _ h' ↦ ?_
  have hserved := h'.served rfl
  cases hw : s.available[index]? with
  | none => exact inv_of_served h'.ledger h'.custody h'.checkpoints h'.graveyards hserved
  | some word =>
    have hmem : word ∈ s.available := List.mem_of_getElem? hw
    exact inv_of_served (h'.ledger.draw hmem) h'.custody h'.checkpoints h'.graveyards
      (boots_cons rfl hserved)

theorem inv_createSpawn (h : s.Inv r) (word : WordId) :
    (s.step r (.createSpawn word true)).Inv r := by
  rw [step]
  refine h.write fun _ ↦ ?_
  refine h.resume fun rest _ h' ↦ ?_
  have hfresh := h'.ledger.loose_fresh word (List.mem_cons_self (a := word))
  exact inv_of_served h'.ledger.enliven (h'.custody.enliven hfresh.2) h'.checkpoints
    h'.graveyards (h'.served rfl)

theorem inv_closeSession (h : s.Inv r) (word : WordId) :
    (s.step r (.closeSession word)).Inv r := by
  rw [step]
  refine h.serve fun hserved ↦ ?_
  by_cases hlive : word ∈ s.sessions
  · rw [if_pos hlive]
    exact inv_of_served h.ledger (h.custody.find hlive) h.checkpoints h.graveyards
      (boots_cons rfl hserved)
  · rw [if_neg hlive]
    exact h

theorem inv_retainPush (h : s.Inv r) (word : WordId) (closedAtMs : ℕ)
    (hclean : s.Clean r (.retainPush word closedAtMs)) :
    (s.step r (.retainPush word closedAtMs)).Inv r := by
  rw [step]
  refine h.resume fun rest hp h' ↦ ?_
  obtain ⟨hburied, hinserted⟩ := hclean (hp.mem_iff.mpr List.mem_cons_self)
  have hlive : word ∈ s.sessions := h'.custody.found_live word (List.mem_cons_self (a := word))
  have hburied' : buried ((bury { s with tasks := rest } ⟨word, closedAtMs⟩).spawnTask
      (.closePushed word)) = s.buried ++ [word] := List.map_append
  have hinserted' : word ∉ rest.filterMap Task.inserted? := fun hw ↦
    hinserted ((hp.filterMap Task.inserted?).mem_iff.mpr hw)
  refine inv_of_served ?_ ?_ h'.checkpoints h'.graveyards (boots_cons rfl (h'.served rfl))
  · rw [hburied']
    exact h'.ledger.keep hlive hburied
  · rw [hburied']
    exact h'.custody.bury hburied hinserted'

/-- The first half of a prune, for whichever call makes it. -/
private theorem evict_spec (hledger : Ledger r.wordlist s.available s.sessions s.buried s.inFlight)
    (hcustody : Custody s.sessions s.buried s.closing s.found s.inserted) {now : ℕ}
    (hclean : ∀ w ∈ r.evicted now s.closedSessions, w ∉ s.sessions) :
    Ledger r.wordlist s.available s.sessions (s.evict r now).buried
        (r.evicted now s.closedSessions ++ s.inFlight) ∧
      Custody s.sessions (s.evict r now).buried s.closing s.found s.inserted := by
  have hperm := r.perm_retained_evicted now s.closedSessions
  refine ⟨hledger.evict hperm hclean, hcustody.evict (fun v hv ↦ ?_) fun v hl hv ↦ ?_⟩
  · exact hperm.mem_iff.mpr (List.mem_append_left _ hv)
  · exact (List.mem_append.mp (hperm.mem_iff.mp hv)).resolve_right fun hv' ↦ hclean v hv' hl

theorem inv_retainEvict (h : s.Inv r) (word : WordId) (now : ℕ)
    (hclean : s.Clean r (.retainEvict word now)) : (s.step r (.retainEvict word now)).Inv r := by
  rw [step]
  refine h.resume fun rest hp h' ↦ ?_
  obtain ⟨hledger, hcustody⟩ := evict_spec h'.ledger h'.custody
    (hclean (hp.mem_iff.mpr List.mem_cons_self))
  exact inv_of_served hledger hcustody h'.checkpoints h'.graveyards
    (boots_cons rfl (h'.served rfl))

theorem inv_sweepEvict (h : s.Inv r) (now : ℕ) (hclean : s.Clean r (.sweepEvict now)) :
    (s.step r (.sweepEvict now)).Inv r := by
  rw [step]
  refine h.serve fun hserved ↦ ?_
  obtain ⟨hledger, hcustody⟩ := evict_spec h.ledger h.custody hclean
  exact inv_of_served hledger hcustody h.checkpoints h.graveyards (boots_cons rfl hserved)

theorem inv_retainRelease (h : s.Inv r) (word : WordId) (evicted : List WordId) :
    (s.step r (.retainRelease word evicted)).Inv r := by
  rw [step]
  refine h.resume fun rest _ h' ↦ ?_
  refine inv_of_served ?_ h'.custody h'.checkpoints h'.graveyards
    (boots_cons rfl (h'.served rfl))
  rw [releaseAll, Retention.foldl_release]
  exact h'.ledger.release

theorem inv_sweepRelease (h : s.Inv r) (evicted : List WordId) :
    (s.step r (.sweepRelease evicted)).Inv r := by
  rw [step]
  refine h.resume fun rest _ h' ↦ ?_
  refine inv_of_served ?_ h'.custody h'.checkpoints h'.graveyards (h'.served rfl)
  rw [releaseAll, Retention.foldl_release]
  exact h'.ledger.release

theorem inv_closeRemove (h : s.Inv r) (word : WordId) :
    (s.step r (.closeRemove word)).Inv r := by
  rw [step]
  refine h.write fun hfound ↦ ?_
  refine h.resume fun rest hp h' ↦ ?_
  obtain ⟨-, hburied, -⟩ := h'.custody.closing_both word (List.mem_cons_self (a := word))
  have hrest : rest.filterMap Task.found? = [] := by
    have := hp.filterMap Task.found?
    rw [← found, hfound] at this
    exact List.perm_nil.mp this.symm
  have hcustody : Custody s.sessions s.buried (word :: rest.filterMap Task.closing?)
      (rest.filterMap Task.found?) (rest.filterMap Task.inserted?) := h'.custody
  rw [hrest] at hcustody
  refine inv_of_served (h'.ledger.retire hburied) ?_ h'.checkpoints h'.graveyards (h'.served rfl)
  rw [found, hrest]
  exact hcustody.retire h'.ledger.live_nodup

theorem inv_restoreSession (h : s.Inv r) (word : WordId) :
    (s.step r (.restoreSession word)).Inv r := by
  rw [step]
  refine h.serve fun hserved ↦ ?_
  by_cases hburied : word ∈ s.buried
  · rw [if_pos hburied]
    exact inv_of_served h.ledger h.custody h.checkpoints h.graveyards (boots_cons rfl hserved)
  · rw [if_neg hburied]
    exact h

theorem inv_restoreSpawn (h : s.Inv r) (word : WordId) (spawned : Bool)
    (hclean : s.Clean r (.restoreSpawn word spawned)) :
    (s.step r (.restoreSpawn word spawned)).Inv r := by
  cases spawned with
  | true =>
    rw [step]
    refine h.write fun _ ↦ ?_
    refine h.resume fun rest hp h' ↦ ?_
    obtain ⟨howned, hclosing⟩ := hclean (hp.mem_iff.mpr List.mem_cons_self)
    have hclosing' : word ∉ rest.filterMap Task.closing? := fun hw ↦
      hclosing ((hp.filterMap Task.closing?).mem_iff.mpr hw)
    exact inv_of_served (h'.ledger.revive howned) (h'.custody.revive hclosing') h'.checkpoints
      h'.graveyards (boots_cons rfl (h'.served rfl))
  | false =>
    rw [step]
    refine h.resume fun rest _ h' ↦ ?_
    exact inv_of_served h'.ledger h'.custody h'.checkpoints h'.graveyards (h'.served rfl)

theorem inv_restoreDrop (h : s.Inv r) (word : WordId) :
    (s.step r (.restoreDrop word)).Inv r := by
  rw [step]
  refine h.resume fun rest _ h' ↦ ?_
  have hlive : word ∈ s.sessions :=
    h'.custody.inserted_live word (List.mem_cons_self (a := word))
  have hmem : ∀ v, v ∈ (s.closedSessions.filter fun c ↦ c.word ≠ word).map ClosedSession.word ↔
      v ∈ s.buried ∧ v ≠ word := by
    intro v
    simp only [buried, List.mem_map, List.mem_filter, decide_eq_true_eq]
    constructor
    · rintro ⟨c, ⟨hc, hne⟩, rfl⟩
      exact ⟨⟨c, hc, rfl⟩, hne⟩
    · rintro ⟨⟨c, hc, rfl⟩, hne⟩
      exact ⟨c, ⟨hc, hne⟩, rfl⟩
  have hnodup := h'.ledger.kept_nodup.sublist
    ((List.filter_sublist (p := fun c ↦ c.word ≠ word)).map ClosedSession.word)
  exact inv_of_served (h'.ledger.unkeep hlive hnodup hmem) (h'.custody.unbury hmem)
    h'.checkpoints h'.graveyards (h'.served rfl)

theorem inv_step (h : s.Inv r) (e : WordEvent) (hclean : s.Clean r e) : (s.step r e).Inv r := by
  cases e with
  | restart state file => exact inv_restart h state file
  | reserveUsed state file => exact inv_reserveUsed h state file
  | restoreNext word pending file spawned => exact inv_restoreNext h word pending file spawned
  | reserveLoaded file now => exact inv_reserveLoaded h file now
  | installLoaded kept => exact inv_installLoaded h kept
  | checkpoint => exact inv_checkpoint h
  | persistGraveyard => exact inv_persistGraveyard h
  | createSession => exact inv_createSession h
  | drawWord index => exact inv_drawWord h index
  | createSpawn word spawned =>
    cases spawned with
    | true => exact inv_createSpawn h word
    | false =>
      rw [step, resume, if_neg hclean]
      exact h
  | closeSession word => exact inv_closeSession h word
  | retainPush word closedAtMs => exact inv_retainPush h word closedAtMs hclean
  | retainEvict word now => exact inv_retainEvict h word now hclean
  | retainRelease word evicted => exact inv_retainRelease h word evicted
  | closeRemove word => exact inv_closeRemove h word
  | sweepEvict now => exact inv_sweepEvict h now hclean
  | sweepRelease evicted => exact inv_sweepRelease h evicted
  | restoreSession word => exact inv_restoreSession h word
  | restoreSpawn word spawned => exact inv_restoreSpawn h word spawned hclean
  | restoreDrop word => exact inv_restoreDrop h word

/-! ## Runs -/

theorem Inv.accounted (h : s.Inv r) : s.Accounted r where
  available_nodup := h.ledger.pool_nodup
  mem_available := h.ledger.mem_pool
  sessions_nodup := h.ledger.live_nodup
  buried_nodup := h.ledger.kept_nodup
  inFlight_nodup := h.ledger.loose_nodup
  inFlight_disjoint := h.ledger.loose_fresh
  handedOver := h.custody.shared

/-- With no call in flight the accounts name one owner each. -/
theorem Accounted.exactlyOwned (h : s.Accounted r) (hidle : s.tasks = []) :
    s.ExactlyOwned r where
  available_nodup := h.available_nodup
  mem_available := fun w ↦ by
    rw [h.mem_available, inFlight, hidle]
    simp
  sessions_nodup := h.sessions_nodup
  buried_nodup := h.buried_nodup
  disjoint := fun w hl hb ↦ by
    have := h.handedOver w hl hb
    rw [closing, inserted, hidle] at this
    simp at this

/-- **Word ownership.** After every clean run, through any number of restarts, the words are
accounted for; and whenever no call is in flight, every word outside the pool is owned by exactly
one live session or graveyard entry. -/
theorem accounted_of_clean_run (r : Retention) (es : List WordEvent)
    (h : Run.Ok (step r) (Clean r) (new r) es) :
    (Run.exec (step r) (new r) es).Accounted r ∧
      ((Run.exec (step r) (new r) es).tasks = [] →
        (Run.exec (step r) (new r) es).ExactlyOwned r) := by
  have hstep : ∀ s e, Inv r s → Clean r s e → Inv r (step r s e) :=
    fun s e hs hok ↦ inv_step hs e hok
  have hinv := Run.invariant_of_ok hstep es (new r) (inv_new r) h
  exact ⟨hinv.accounted, hinv.accounted.exactlyOwned⟩

/-- Two words, no age cap. -/
def twoWords (keep : ℕ) : Retention where
  wordlist := ["acorn", "badge"]
  wordlist_nodup := by decide
  keep := keep
  ttlMs := 0

/-- Create a session under the first word of the pool. -/
def created (word : WordId) : List WordEvent :=
  [.createSession, .drawWord 0, .createSpawn word true]

/-- Bury a session, which evicts `evicted`; its removal is still to come. -/
def retained (word : WordId) (closedAtMs : ℕ) (evicted : List WordId) : List WordEvent :=
  [.closeSession word, .retainPush word closedAtMs, .retainEvict word closedAtMs,
    .retainRelease word evicted]

/-- Two sessions are created and closed, the second close evicting the first; the second is
restored, a third is created, and a restart brings back what the checkpoint knew. -/
def wordLife : List WordEvent :=
  created "acorn" ++ created "badge" ++ retained "acorn" 5 [] ++ [.closeRemove "acorn"] ++
    retained "badge" 6 ["acorn"] ++ [.closeRemove "badge", .restoreSession "badge",
      .restoreSpawn "badge" true, .restoreDrop "badge", .checkpoint, .persistGraveyard] ++
    created "acorn" ++ [.restart ⟨["badge"], ["badge"]⟩ [],
      .reserveUsed ⟨["badge"], ["badge"]⟩ [], .restoreNext "badge" [] [] true,
      .reserveLoaded [] 7, .installLoaded []]

theorem accounted_wordLife :
    Run.Ok (step (twoWords 1)) (Clean (twoWords 1)) (new (twoWords 1)) wordLife ∧
      (Run.exec (step (twoWords 1)) (new (twoWords 1)) wordLife).sessions = ["badge"] ∧
      (Run.exec (step (twoWords 1)) (new (twoWords 1)) wordLife).ExactlyOwned (twoWords 1) := by
  have hok : Run.Ok (step (twoWords 1)) (Clean (twoWords 1)) (new (twoWords 1)) wordLife := by
    decide
  exact ⟨hok, by decide, (accounted_of_clean_run (twoWords 1) wordLife hok).2 (by decide)⟩

/-- At four points of four runs a word does not have one owner. By design: a session that is being
closed is live and buried at once. The others are not clean: a spawn that fails leaves its word with
nobody; two closes that find one session bury it twice; and a close whose own entry exceeds the
count cap releases the word of a session that is still live. -/
theorem not_exactlyOwned :
    ¬ (Run.exec (step (twoWords 1)) (new (twoWords 1))
        (created "acorn" ++ retained "acorn" 5 [])).ExactlyOwned (twoWords 1) ∧
      ¬ (Run.exec (step (twoWords 1)) (new (twoWords 1))
        [.createSession, .drawWord 0, .createSpawn "acorn" false]).ExactlyOwned (twoWords 1) ∧
      ¬ (Run.exec (step (twoWords 2)) (new (twoWords 2))
        (created "acorn" ++ retained "acorn" 5 [] ++ retained "acorn" 6 [] ++
          [.closeRemove "acorn", .closeRemove "acorn"])).ExactlyOwned (twoWords 2) ∧
      ¬ (Run.exec (step (twoWords 0)) (new (twoWords 0))
        (created "acorn" ++ retained "acorn" 5 ["acorn"])).ExactlyOwned (twoWords 0) := by
  refine ⟨fun h ↦ ?_, fun h ↦ ?_, fun h ↦ ?_, fun h ↦ ?_⟩
  · exact h.disjoint "acorn" (by decide) (by decide)
  · exact absurd ((h.mem_available "acorn").mpr (by decide)) (by decide)
  · exact absurd h.buried_nodup (by decide)
  · exact absurd ((h.mem_available "acorn").mp (by decide)) (by decide)

end Daemon

end Kmux
