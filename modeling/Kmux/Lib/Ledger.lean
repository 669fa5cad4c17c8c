import Mathlib.Data.List.Perm.Basic
import Mathlib.Data.List.Nodup
import Mathlib.Data.List.Dedup

/-!
# Names issued from a pool

A finite stock of names is handed out from a pool. A name that has left the pool is *live*, *kept*
or *loose*: live names are in use, kept names are put aside for a possible return to use, and loose
names are on their way between two of these places. `Ledger` says that the books balance: the pool
holds exactly the names that are nowhere else, and no name is twice in one place. A name may be both
live and kept, since a hand-over between those two writes the new place before it clears the old
one; a loose name is nowhere else.

The lemmas are the moves, one for each way a name changes its place.
-/

variable {α : Type*}

/-- The books balance over the stock `names`. -/
structure Ledger (names pool live kept loose : List α) : Prop where
  pool_nodup : pool.Nodup
  /-- The pool is what nobody holds. -/
  mem_pool : ∀ w, w ∈ pool ↔ w ∈ names ∧ w ∉ live ∧ w ∉ kept ∧ w ∉ loose
  live_nodup : live.Nodup
  kept_nodup : kept.Nodup
  loose_nodup : loose.Nodup
  loose_fresh : ∀ w ∈ loose, w ∉ live ∧ w ∉ kept

namespace Ledger

variable {names pool live kept loose : List α} {w : α}

/-- Before anything is handed out. -/
theorem full (h : names.Nodup) : Ledger names names [] [] [] where
  pool_nodup := h
  mem_pool := by simp
  live_nodup := List.nodup_nil
  kept_nodup := List.nodup_nil
  loose_nodup := List.nodup_nil
  loose_fresh := by simp

theorem perm_loose {loose' : List α} (h : Ledger names pool live kept loose)
    (hp : loose.Perm loose') : Ledger names pool live kept loose' where
  pool_nodup := h.pool_nodup
  mem_pool := fun w ↦ by rw [h.mem_pool, hp.mem_iff]
  live_nodup := h.live_nodup
  kept_nodup := h.kept_nodup
  loose_nodup := hp.nodup_iff.mp h.loose_nodup
  loose_fresh := fun w hw ↦ h.loose_fresh w (hp.mem_iff.mpr hw)

/-! ## Out of the pool and back -/

/-- Names nobody live or kept holds are taken out of the pool. Names that are not of the stock were
never in the pool, so removing them changes nothing. -/
theorem reserve [DecidableEq α] {ws : List α} (h : Ledger names pool live kept loose)
    (hws : ws.Nodup) (hfree : ∀ w ∈ ws, w ∉ live ∧ w ∉ kept ∧ w ∉ loose) :
    Ledger names (pool.diff ws) live kept (ws ++ loose) where
  pool_nodup := h.pool_nodup.diff
  mem_pool := fun w ↦ by
    rw [h.pool_nodup.mem_sdiff_iff, h.mem_pool, List.mem_append, not_or]
    tauto
  live_nodup := h.live_nodup
  kept_nodup := h.kept_nodup
  loose_nodup := List.nodup_append'.mpr ⟨hws, h.loose_nodup, fun w hw ↦ (hfree w hw).2.2⟩
  loose_fresh := fun w hw ↦ by
    rcases List.mem_append.mp hw with hw | hw
    · exact ⟨(hfree w hw).1, (hfree w hw).2.1⟩
    · exact h.loose_fresh w hw

/-- A name drawn from the pool. -/
theorem draw [DecidableEq α] (h : Ledger names pool live kept loose) (hw : w ∈ pool) :
    Ledger names (pool.erase w) live kept (w :: loose) := by
  have hfree := ((h.mem_pool w).mp hw).2
  have := h.reserve (List.nodup_singleton w) fun v hv ↦ by
    rw [List.mem_singleton] at hv
    exact hv ▸ hfree
  simpa using this

/-- Loose names go back to the pool; those that are not of the stock are dropped. -/
theorem release [DecidableEq α] {ws : List α} (h : Ledger names pool live kept (ws ++ loose)) :
    Ledger names (pool ++ ws.filter (· ∈ names)) live kept loose := by
  obtain ⟨hws, hloose, hdisj⟩ := List.nodup_append'.mp h.loose_nodup
  refine ⟨?_, fun w ↦ ?_, h.live_nodup, h.kept_nodup, hloose,
    fun w hw ↦ h.loose_fresh w (List.mem_append_right ws hw)⟩
  · refine List.nodup_append'.mpr ⟨h.pool_nodup, hws.filter _, fun w hw hw' ↦ ?_⟩
    exact ((h.mem_pool w).mp hw).2.2.2
      (List.mem_append_left loose (List.mem_filter.mp hw').1)
  · rw [List.mem_append, h.mem_pool, List.mem_filter, List.mem_append, not_or, decide_eq_true_iff]
    constructor
    · rintro (⟨hn, hl, hk, -, ho⟩ | ⟨hw, hn⟩)
      · exact ⟨hn, hl, hk, ho⟩
      · obtain ⟨hl, hk⟩ := h.loose_fresh w (List.mem_append_left loose hw)
        exact ⟨hn, hl, hk, hdisj hw⟩
    · rintro ⟨hn, hl, hk, ho⟩
      by_cases hw : w ∈ ws
      · exact Or.inr ⟨hw, hn⟩
      · exact Or.inl ⟨hn, hl, hk, hw, ho⟩

/-! ## Between the places -/

/-- A loose name is put to use. -/
theorem enliven [DecidableEq α] (h : Ledger names pool live kept (w :: loose)) :
    Ledger names pool (live.insert w) kept loose := by
  obtain ⟨hw, hloose⟩ := List.nodup_cons.mp h.loose_nodup
  refine ⟨h.pool_nodup, fun v ↦ ?_, h.live_nodup.insert, h.kept_nodup, hloose, fun v hv ↦ ?_⟩
  · rw [h.mem_pool, List.mem_cons, List.mem_insert_iff]
    tauto
  · obtain ⟨hl, hk⟩ := h.loose_fresh v (List.mem_cons_of_mem w hv)
    refine ⟨fun hv' ↦ ?_, hk⟩
    rcases List.mem_insert_iff.mp hv' with rfl | hv'
    · exact hw hv
    · exact hl hv'

/-- Loose names are put aside. -/
theorem settle {ws : List α} (h : Ledger names pool live [] ws) : Ledger names pool live ws [] where
  pool_nodup := h.pool_nodup
  mem_pool := fun w ↦ by
    rw [h.mem_pool]
    simp
  live_nodup := h.live_nodup
  kept_nodup := h.loose_nodup
  loose_nodup := List.nodup_nil
  loose_fresh := by simp

/-- A live name is put aside as well. -/
theorem keep (h : Ledger names pool live kept loose) (hl : w ∈ live) (hk : w ∉ kept) :
    Ledger names pool live (kept ++ [w]) loose := by
  refine ⟨h.pool_nodup, fun v ↦ ?_, h.live_nodup, ?_, h.loose_nodup, fun v hv ↦ ?_⟩
  · rw [h.mem_pool, List.mem_append, List.mem_singleton]
    constructor
    · rintro ⟨hn, hv, hk', ho⟩
      refine ⟨hn, hv, ?_, ho⟩
      rintro (hv' | rfl)
      · exact hk' hv'
      · exact hv hl
    · rintro ⟨hn, hv, hk', ho⟩
      exact ⟨hn, hv, fun hv' ↦ hk' (Or.inl hv'), ho⟩
  · refine List.nodup_append'.mpr ⟨h.kept_nodup, List.nodup_singleton w, fun v hv hv' ↦ ?_⟩
    rw [List.mem_singleton] at hv'
    exact hk (hv' ▸ hv)
  · obtain ⟨hl', hk'⟩ := h.loose_fresh v hv
    refine ⟨hl', fun hv' ↦ ?_⟩
    rcases List.mem_append.mp hv' with hv' | hv'
    · exact hk' hv'
    · rw [List.mem_singleton] at hv'
      exact hl' (hv' ▸ hl)

/-- A kept name goes out of use. -/
theorem retire [DecidableEq α] (h : Ledger names pool live kept loose) (hk : w ∈ kept) :
    Ledger names pool (live.erase w) kept loose := by
  refine ⟨h.pool_nodup, fun v ↦ ?_, h.live_nodup.erase w, h.kept_nodup, h.loose_nodup,
    fun v hv ↦ ⟨fun hv' ↦ (h.loose_fresh v hv).1 (List.mem_of_mem_erase hv'),
      (h.loose_fresh v hv).2⟩⟩
  rw [h.mem_pool, h.live_nodup.mem_erase_iff]
  constructor
  · rintro ⟨hn, hl, hk', ho⟩
    exact ⟨hn, fun hv ↦ hl hv.2, hk', ho⟩
  · rintro ⟨hn, hl, hk', ho⟩
    refine ⟨hn, fun hv ↦ hl ⟨?_, hv⟩, hk', ho⟩
    rintro rfl
    exact hk' hk

/-- A name that is kept, or in use already, is put to use. -/
theorem revive [DecidableEq α] (h : Ledger names pool live kept loose)
    (hw : w ∈ live ∨ w ∈ kept) : Ledger names pool (live.insert w) kept loose := by
  refine ⟨h.pool_nodup, fun v ↦ ?_, h.live_nodup.insert, h.kept_nodup, h.loose_nodup,
    fun v hv ↦ ?_⟩
  · rw [h.mem_pool, List.mem_insert_iff, not_or]
    constructor
    · rintro ⟨hn, hl, hk, ho⟩
      refine ⟨hn, ⟨?_, hl⟩, hk, ho⟩
      rintro rfl
      exact hw.elim hl hk
    · rintro ⟨hn, ⟨-, hl⟩, hk, ho⟩
      exact ⟨hn, hl, hk, ho⟩
  · obtain ⟨hl, hk⟩ := h.loose_fresh v hv
    refine ⟨fun hv' ↦ ?_, hk⟩
    rcases List.mem_insert_iff.mp hv' with rfl | hv'
    · exact hw.elim hl hk
    · exact hl hv'

/-- A live name is no longer put aside. -/
theorem unkeep {kept' : List α} (h : Ledger names pool live kept loose) (hl : w ∈ live)
    (hnodup : kept'.Nodup) (hkept : ∀ v, v ∈ kept' ↔ v ∈ kept ∧ v ≠ w) :
    Ledger names pool live kept' loose where
  pool_nodup := h.pool_nodup
  mem_pool := fun v ↦ by
    rw [h.mem_pool, hkept]
    constructor
    · rintro ⟨hn, hv, hk, ho⟩
      exact ⟨hn, hv, fun hv' ↦ hk hv'.1, ho⟩
    · rintro ⟨hn, hv, hk, ho⟩
      refine ⟨hn, hv, fun hv' ↦ hk ⟨hv', ?_⟩, ho⟩
      rintro rfl
      exact hv hl
  live_nodup := h.live_nodup
  kept_nodup := hnodup
  loose_nodup := h.loose_nodup
  loose_fresh := fun v hv ↦
    ⟨(h.loose_fresh v hv).1, fun hv' ↦ (h.loose_fresh v hv).2 ((hkept v).mp hv').1⟩

/-- Kept names that are not live are let go. -/
theorem evict {kept' ws : List α} (h : Ledger names pool live kept loose)
    (hp : kept.Perm (kept' ++ ws)) (hws : ∀ w ∈ ws, w ∉ live) :
    Ledger names pool live kept' (ws ++ loose) := by
  obtain ⟨hkept, hws', hdisj⟩ := List.nodup_append'.mp (hp.nodup_iff.mp h.kept_nodup)
  have hmem : ∀ v, v ∈ kept ↔ v ∈ kept' ∨ v ∈ ws := fun v ↦ by
    rw [hp.mem_iff, List.mem_append]
  refine ⟨h.pool_nodup, fun v ↦ ?_, h.live_nodup, hkept, ?_, fun v hv ↦ ?_⟩
  · rw [h.mem_pool, hmem, List.mem_append]
    tauto
  · refine List.nodup_append'.mpr ⟨hws', h.loose_nodup, fun v hv hv' ↦ ?_⟩
    exact (h.loose_fresh v hv').2 ((hmem v).mpr (Or.inr hv))
  · rcases List.mem_append.mp hv with hv | hv
    · exact ⟨hws v hv, fun hv' ↦ hdisj hv' hv⟩
    · exact ⟨(h.loose_fresh v hv).1, fun hv' ↦ (h.loose_fresh v hv).2 ((hmem v).mpr (Or.inl hv'))⟩

end Ledger
