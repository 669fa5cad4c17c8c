import Mathlib.Algebra.GroupWithZero.Nat
import Mathlib.Data.List.Nodup
import Mathlib.Data.List.Perm.Basic
import Mathlib.Logic.Relation

/-!
# Depth-first traversals

A graph is given by the successors of each of its nodes, and what is not a node has none. There are
two traversals with a stack. `visit` marks what it pops and passes over what is marked, which makes
it end on every finite graph. `descend` marks nothing and carries a depth along, and on a graph with
a cycle it would not end.

On a tree the marks are idle: every node is pushed by its one parent, so that nothing is popped a
second time. There `descend` pops the same nodes as `visit`, and what is known of the one carries
over to the other.
-/

namespace Traversal

open Relation

variable {α δ : Type*}

/-! ## Fuel -/

/-- With enough fuel a computation gives this result. -/
def EndsWith {β : Type*} (f : ℕ → Option β) (b : β) : Prop :=
  ∃ enough, ∀ n, enough ≤ n → f n = some b

theorem EndsWith.map {β γ : Type*} {f : ℕ → Option β} {b : β} (h : EndsWith f b) (g : β → γ) :
    EndsWith (fun n ↦ (f n).map g) (g b) := by
  obtain ⟨enough, h⟩ := h
  exact ⟨enough, fun n hn ↦ congrArg (Option.map g) (h n hn)⟩

theorem EndsWith.unique {β : Type*} {f : ℕ → Option β} {b b' : β} (h : EndsWith f b)
    (h' : EndsWith f b') : b = b' := by
  obtain ⟨enough, h⟩ := h
  obtain ⟨enough', h'⟩ := h'
  have heq := h (max enough enough') (Nat.le_max_left _ _)
  rw [h' _ (Nat.le_max_right _ _)] at heq
  exact (Option.some.inj heq).symm

/-- Finitely many computations end together. -/
theorem endsWith_mapM {β γ : Type*} {R : β → γ → Prop} {f : ℕ → β → Option γ} {l : List β}
    (h : ∀ x ∈ l, ∃ y, EndsWith (f · x) y ∧ R x y) :
    ∃ ys, EndsWith (fun n ↦ l.mapM (f n)) ys ∧ List.Forall₂ R l ys := by
  induction l with
  | nil => exact ⟨[], ⟨0, fun n _ ↦ rfl⟩, .nil⟩
  | cons x l ih =>
    obtain ⟨y, ⟨enough, hy⟩, hxy⟩ := h x List.mem_cons_self
    obtain ⟨ys, ⟨enough', hys⟩, hall⟩ := ih fun z hz ↦ h z (List.mem_cons_of_mem x hz)
    refine ⟨y :: ys, ⟨max enough enough', fun n hn ↦ ?_⟩, .cons hxy hall⟩
    have hy := hy n (Nat.le_trans (Nat.le_max_left _ _) hn)
    have hys := hys n (Nat.le_trans (Nat.le_max_right _ _) hn)
    simp [List.mapM_cons, hy, hys]

/-- There is an edge from a node to each of its successors. -/
def Edge (next : α → Option (List α)) (x y : α) : Prop := ∃ ys, next x = some ys ∧ y ∈ ys

/-! ## Distances -/

/-- A walk of a given length. -/
inductive Walk (r : α → α → Prop) (a : α) : ℕ → α → Prop
  | refl : Walk r a 0 a
  | tail {n : ℕ} {b c : α} : Walk r a n b → r b c → Walk r a (n + 1) c

/-- The length of a shortest walk. -/
def IsDistance (r : α → α → Prop) (a b : α) (n : ℕ) : Prop :=
  Walk r a n b ∧ ∀ m, Walk r a m b → n ≤ m

theorem isDistance_refl (r : α → α → Prop) (a : α) : IsDistance r a a 0 :=
  ⟨.refl, fun m _ ↦ m.zero_le⟩

/-- All walks to a node with one predecessor go through it. -/
theorem IsDistance.tail {r : α → α → Prop} {a x y : α} {n : ℕ} (h : IsDistance r a x n)
    (hxy : r x y) (hunique : ∀ x', r x' y → x' = x) (hne : y ≠ a) :
    IsDistance r a y (n + 1) := by
  refine ⟨.tail h.1 hxy, fun m hm ↦ ?_⟩
  cases hm with
  | refl => exact absurd rfl hne
  | tail hwalk hlast =>
    rw [hunique _ hlast] at hwalk
    exact Nat.succ_le_succ (h.2 _ hwalk)

theorem IsDistance.reflTransGen {r : α → α → Prop} {a b : α} {n : ℕ} (h : IsDistance r a b n) :
    ReflTransGen r a b := by
  have hwalk : ∀ {n b}, Walk r a n b → ReflTransGen r a b := by
    intro n b hwalk
    induction hwalk with
    | refl => exact .refl
    | tail _ hlast ih => exact ih.tail hlast
  exact hwalk h.1

variable {next : α → Option (List α)}

/-! ## With marks -/

/-- Pop a node, and unless it is marked, mark it, list it and push its successors. -/
def visit [DecidableEq α] (next : α → Option (List α)) :
    ℕ → List α → List α → List α → Option (List α)
  | 0, _, _, _ => none
  | _ + 1, _, found, [] => some found
  | fuel + 1, seen, found, x :: stack =>
    if x ∈ seen then visit next fuel seen found stack
    else
      match next x with
      | none => visit next fuel (x :: seen) found stack
      | some ys => visit next fuel (x :: seen) (found ++ [x]) (ys ++ stack)

/-- The edges out of nodes that are not marked yet. -/
def pending [DecidableEq α] (next : α → Option (List α)) (nodes seen : List α) : ℕ :=
  ((nodes.filter (· ∉ seen)).map fun x ↦ ((next x).getD []).length).sum

theorem pending_cons_le [DecidableEq α] (nodes seen : List α) (x : α) :
    pending next nodes (x :: seen) ≤ pending next nodes seen := by
  induction nodes with
  | nil => simp [pending]
  | cons y nodes ih =>
    simp only [pending, List.filter_cons] at ih ⊢
    by_cases hy : y ∈ seen
    · simpa [hy] using ih
    · by_cases hyx : y = x
      · simp only [hyx, List.mem_cons, true_or, not_true, decide_false]
        have hx : x ∉ seen := hyx ▸ hy
        simp only [hx, not_false_eq_true, decide_true, if_true, List.map_cons, List.sum_cons]
        simp only [List.mem_cons] at ih
        exact Nat.le_trans ih (Nat.le_add_left _ _)
      · simpa [hy, hyx] using ih

/-- What a node pushes was pending until then. -/
theorem pending_cons [DecidableEq α] {nodes seen ys : List α} {x : α} (hx : x ∈ nodes)
    (hseen : x ∉ seen) (hys : next x = some ys) :
    pending next nodes (x :: seen) + ys.length ≤ pending next nodes seen := by
  induction nodes with
  | nil => cases hx
  | cons y nodes ih =>
    by_cases hyx : y = x
    · subst hyx
      have hrest : pending next nodes (y :: seen) ≤ pending next nodes seen :=
        pending_cons_le nodes seen y
      simp only [pending, List.filter_cons, List.mem_cons, true_or, not_true, decide_false, hseen,
        not_false_eq_true, decide_true, if_true, List.map_cons, List.sum_cons, hys,
        Option.getD_some, Bool.false_eq_true, if_false] at hrest ⊢
      omega
    · have ih := ih ((List.mem_cons.mp hx).resolve_left (Ne.symm hyx))
      by_cases hy : y ∈ seen
      · simpa [pending, List.filter_cons, hy] using ih
      · simp only [pending, List.filter_cons, List.mem_cons, hyx, hy, or_self, not_false_eq_true,
          decide_true, if_true, List.map_cons, List.sum_cons] at ih ⊢
        omega

/-- A traversal of a finite graph ends. -/
theorem visit_isSome [DecidableEq α] {nodes : List α}
    (hnodes : ∀ x, (next x).isSome → x ∈ nodes) (fuel : ℕ) (seen found stack : List α)
    (hfuel : stack.length + pending next nodes seen < fuel) :
    (visit next fuel seen found stack).isSome := by
  induction fuel generalizing seen found stack with
  | zero => exact absurd hfuel (Nat.not_lt_zero _)
  | succ fuel ih =>
    cases stack with
    | nil => rfl
    | cons x stack =>
      rw [List.length_cons] at hfuel
      rw [visit]
      split_ifs with hx
      · exact ih _ _ _ (by omega)
      · cases hnext : next x with
        | none =>
          have hle : pending next nodes (x :: seen) ≤ pending next nodes seen :=
            pending_cons_le nodes seen x
          exact ih _ _ _ (by omega)
        | some ys =>
          have hle := pending_cons (hnodes x (by simp [hnext])) hx hnext
          refine ih _ _ _ ?_
          rw [List.length_append]
          omega

/-- More fuel changes nothing. -/
theorem visit_mono [DecidableEq α] {fuel more : ℕ} (hle : fuel ≤ more)
    {seen found stack out : List α} (h : visit next fuel seen found stack = some out) :
    visit next more seen found stack = some out := by
  induction fuel generalizing more seen found stack with
  | zero => cases h
  | succ fuel ih =>
    obtain ⟨more, rfl⟩ : ∃ k, more = k + 1 := ⟨more - 1, by omega⟩
    have hle : fuel ≤ more := Nat.le_of_succ_le_succ hle
    cases stack with
    | nil => exact h
    | cons x stack =>
      rw [visit] at h ⊢
      split_ifs at h ⊢ with hx
      · exact ih hle h
      · cases hnext : next x with
        | none =>
          rw [hnext] at h
          exact ih hle h
        | some ys =>
          rw [hnext] at h
          exact ih hle h

/-- A traversal of a finite graph ends, with one result. -/
theorem visit_endsWith [DecidableEq α] {nodes : List α} (hnodes : ∀ x, (next x).isSome → x ∈ nodes)
    (start : α) : ∃ out, EndsWith (visit next · [] [] [start]) out := by
  have hsome := visit_isSome hnodes _ [] [] [start] (Nat.lt_succ_self _)
  obtain ⟨out, hout⟩ := Option.isSome_iff_exists.mp hsome
  exact ⟨out, _, fun n hn ↦ visit_mono hn hout⟩

/-- What holds between two pops. -/
structure Visiting (next : α → Option (List α)) (start : α) (seen found stack : List α) : Prop where
  nodup : found.Nodup
  listed : ∀ x, x ∈ found ↔ x ∈ seen ∧ (next x).isSome
  closed : ∀ x ∈ found, ∀ y, Edge next x y → y ∈ seen ∨ y ∈ stack
  reached : ∀ x, x ∈ seen ∨ x ∈ stack → ReflTransGen (Edge next) start x
  start_mem : start ∈ seen ∨ start ∈ stack

namespace Visiting

variable {start x : α} {seen found stack ys : List α}

theorem init (next : α → Option (List α)) (start : α) : Visiting next start [] [] [start] where
  nodup := .nil
  listed := by simp
  closed := by simp
  reached := by
    simp only [List.not_mem_nil, List.mem_singleton, false_or]
    rintro x rfl
    exact .refl
  start_mem := by simp

theorem skip (h : Visiting next start seen found (x :: stack)) (hx : x ∈ seen) :
    Visiting next start seen found stack where
  nodup := h.nodup
  listed := h.listed
  closed z hz y hy := by
    rcases h.closed z hz y hy with hseen | hstack
    · exact .inl hseen
    · rcases List.mem_cons.mp hstack with rfl | hstack
      · exact .inl hx
      · exact .inr hstack
  reached z hz := h.reached z (hz.imp_right (List.mem_cons_of_mem x))
  start_mem := by
    rcases h.start_mem with hseen | hstack
    · exact .inl hseen
    · rcases List.mem_cons.mp hstack with rfl | hstack
      · exact .inl hx
      · exact .inr hstack

/-- What is popped goes from the stack to the marks, and the rest stays where it is. -/
private theorem move {z : α} (hz : z ∈ seen ∨ z ∈ x :: stack) : z ∈ x :: seen ∨ z ∈ stack := by
  simp only [List.mem_cons] at hz ⊢
  tauto

theorem absent (h : Visiting next start seen found (x :: stack)) (hnext : next x = none) :
    Visiting next start (x :: seen) found stack where
  nodup := h.nodup
  listed z := by
    rw [h.listed, List.mem_cons]
    constructor
    · exact fun hz ↦ ⟨.inr hz.1, hz.2⟩
    · rintro ⟨rfl | hz, hsome⟩
      · simp [hnext] at hsome
      · exact ⟨hz, hsome⟩
  closed z hz y hy := move (h.closed z hz y hy)
  reached z hz := h.reached z (by simp only [List.mem_cons] at hz ⊢; tauto)
  start_mem := move h.start_mem

theorem expand (h : Visiting next start seen found (x :: stack)) (hx : x ∉ seen)
    (hnext : next x = some ys) : Visiting next start (x :: seen) (found ++ [x]) (ys ++ stack) where
  nodup := by
    refine h.nodup.append (List.nodup_singleton x) fun z hz hzx ↦ hx ?_
    exact List.mem_singleton.mp hzx ▸ ((h.listed z).mp hz).1
  listed z := by
    rw [List.mem_append, List.mem_singleton, h.listed, List.mem_cons]
    constructor
    · rintro (⟨hz, hsome⟩ | rfl)
      · exact ⟨.inr hz, hsome⟩
      · exact ⟨.inl rfl, by simp [hnext]⟩
    · rintro ⟨rfl | hz, hsome⟩
      · exact .inr rfl
      · exact .inl ⟨hz, hsome⟩
  closed z hz y hy := by
    rcases List.mem_append.mp hz with hz | hz
    · exact (move (h.closed z hz y hy)).imp_right (List.mem_append_right _)
    · obtain ⟨ys', hys', hmem⟩ := hy
      rw [List.mem_singleton.mp hz, hnext] at hys'
      exact .inr (List.mem_append_left _ (Option.some.inj hys' ▸ hmem))
  reached z hz := by
    have hreached : ReflTransGen (Edge next) start x :=
      h.reached x (.inr List.mem_cons_self)
    simp only [List.mem_cons, List.mem_append] at hz
    rcases hz with (rfl | hz) | hz | hz
    · exact hreached
    · exact h.reached z (.inl hz)
    · exact hreached.tail ⟨ys, hnext, hz⟩
    · exact h.reached z (.inr (List.mem_cons_of_mem x hz))
  start_mem := (move h.start_mem).imp_right (List.mem_append_right _)

/-- With nothing left to pop, what is listed is what can be reached. -/
theorem mem_found_iff (h : Visiting next start seen found []) (z : α) :
    z ∈ found ↔ (next z).isSome ∧ ReflTransGen (Edge next) start z := by
  constructor
  · exact fun hz ↦ ⟨((h.listed z).mp hz).2, h.reached z (.inl ((h.listed z).mp hz).1)⟩
  · rintro ⟨hsome, hreach⟩
    have hseen : z ∈ seen := by
      clear hsome
      induction hreach with
      | refl => simpa using h.start_mem
      | tail _ hedge ih =>
        obtain ⟨ys, hys, hy⟩ := hedge
        simpa using h.closed _ ((h.listed _).mpr ⟨ih, by simp [hys]⟩) _ ⟨ys, hys, hy⟩
    exact (h.listed z).mpr ⟨hseen, hsome⟩

end Visiting

/-- A traversal lists the nodes that can be reached, each of them once. -/
theorem visit_spec [DecidableEq α] {start : α} {fuel : ℕ} {seen found stack out : List α}
    (hinv : Visiting next start seen found stack)
    (h : visit next fuel seen found stack = some out) :
    out.Nodup ∧ ∀ x, x ∈ out ↔ (next x).isSome ∧ ReflTransGen (Edge next) start x := by
  induction fuel generalizing seen found stack with
  | zero => cases h
  | succ fuel ih =>
    cases stack with
    | nil =>
      rw [visit] at h
      exact Option.some.inj h ▸ ⟨hinv.nodup, hinv.mem_found_iff⟩
    | cons x stack =>
      rw [visit] at h
      split_ifs at h with hx
      · exact ih (hinv.skip hx) h
      · cases hnext : next x with
        | none =>
          rw [hnext] at h
          exact ih (hinv.absent hnext) h
        | some ys =>
          rw [hnext] at h
          exact ih (hinv.expand hx hnext) h

/-! ## Without marks -/

/-- Pop a node with its depth, list it and push its successors one deeper. -/
def descend (next : α → Option (List α)) (deeper : δ → δ) :
    ℕ → List (α × δ) → List (α × δ) → Option (List (α × δ))
  | 0, _, _ => none
  | _ + 1, found, [] => some found
  | fuel + 1, found, (x, d) :: stack =>
    match next x with
    | none => descend next deeper fuel found stack
    | some ys =>
      descend next deeper fuel (found ++ [(x, d)]) (ys.map (fun y ↦ (y, deeper d)) ++ stack)

variable {deeper : δ → δ}

theorem descend_mono {fuel more : ℕ} (hle : fuel ≤ more) {found stack out : List (α × δ)}
    (h : descend next deeper fuel found stack = some out) :
    descend next deeper more found stack = some out := by
  induction fuel generalizing more found stack with
  | zero => cases h
  | succ fuel ih =>
    obtain ⟨more, rfl⟩ : ∃ k, more = k + 1 := ⟨more - 1, by omega⟩
    have hle : fuel ≤ more := Nat.le_of_succ_le_succ hle
    rcases stack with _ | ⟨⟨x, d⟩, stack⟩
    · exact h
    · rw [descend] at h ⊢
      cases hnext : next x with
      | none =>
        rw [hnext] at h
        exact ih hle h
      | some ys =>
        rw [hnext] at h
        exact ih hle h

/-- What a node and its depth pass on to its successors holds of all that is listed. -/
theorem descend_forall {P : α → δ → Prop}
    (hstep : ∀ x d y, P x d → Edge next x y → P y (deeper d)) {fuel : ℕ}
    {found stack out : List (α × δ)} (hfound : ∀ p ∈ found, P p.1 p.2)
    (hstack : ∀ p ∈ stack, P p.1 p.2) (h : descend next deeper fuel found stack = some out) :
    ∀ p ∈ out, P p.1 p.2 := by
  induction fuel generalizing found stack with
  | zero => cases h
  | succ fuel ih =>
    rcases stack with _ | ⟨⟨x, d⟩, stack⟩
    · rw [descend] at h
      exact Option.some.inj h ▸ hfound
    · have hx : P x d := hstack (x, d) List.mem_cons_self
      have hrest : ∀ p ∈ stack, P p.1 p.2 := fun p hp ↦ hstack p (List.mem_cons_of_mem _ hp)
      rw [descend] at h
      cases hnext : next x with
      | none =>
        rw [hnext] at h
        exact ih hfound hrest h
      | some ys =>
        rw [hnext] at h
        refine ih (fun p hp ↦ ?_) (fun p hp ↦ ?_) h
        · rcases List.mem_append.mp hp with hp | hp
          · exact hfound p hp
          · exact List.mem_singleton.mp hp ▸ hx
        · rcases List.mem_append.mp hp with hp | hp
          · obtain ⟨y, hy, rfl⟩ := List.mem_map.mp hp
            exact hstep x d y hx ⟨ys, hnext, hy⟩
          · exact hrest p hp

/-- Every node but the root stands behind a predecessor. -/
def ParentFirst (next : α → Option (List α)) (root : α) (nodes : List α) : Prop :=
  ∀ front x back, nodes = front ++ x :: back → x = root ∨ ∃ p ∈ front, Edge next p x

theorem ParentFirst.concat {root x : α} {nodes : List α} (h : ParentFirst next root nodes)
    (hx : x = root ∨ ∃ p ∈ nodes, Edge next p x) : ParentFirst next root (nodes ++ [x]) := by
  intro front y back heq
  rcases List.eq_nil_or_concat back with rfl | ⟨back, last, rfl⟩
  · obtain ⟨rfl, hy⟩ := List.append_inj' heq rfl
    cases hy
    exact hx
  · have heq : nodes ++ [x] = (front ++ y :: back) ++ [last] := by rw [heq]; simp
    exact h front y back (List.append_inj' heq rfl).1

theorem descend_parentFirst {root : α} {fuel : ℕ} {found stack out : List (α × δ)}
    (hfound : ParentFirst next root (found.map Prod.fst))
    (hstack : ∀ p ∈ stack, p.1 = root ∨ ∃ q ∈ found.map Prod.fst, Edge next q p.1)
    (h : descend next deeper fuel found stack = some out) :
    ParentFirst next root (out.map Prod.fst) := by
  induction fuel generalizing found stack with
  | zero => cases h
  | succ fuel ih =>
    rcases stack with _ | ⟨⟨x, d⟩, stack⟩
    · rw [descend] at h
      exact Option.some.inj h ▸ hfound
    · have hx := hstack (x, d) List.mem_cons_self
      rw [descend] at h
      cases hnext : next x with
      | none =>
        rw [hnext] at h
        exact ih hfound (fun p hp ↦ hstack p (List.mem_cons_of_mem _ hp)) h
      | some ys =>
        rw [hnext] at h
        refine ih ?_ (fun p hp ↦ ?_) h
        · rw [List.map_append]
          exact hfound.concat hx
        · rw [List.map_append]
          rcases List.mem_append.mp hp with hp | hp
          · obtain ⟨y, hy, rfl⟩ := List.mem_map.mp hp
            exact .inr ⟨x, by simp, ys, hnext, hy⟩
          · refine (hstack p (List.mem_cons_of_mem _ hp)).imp_right ?_
            rintro ⟨q, hq, hedge⟩
            exact ⟨q, List.mem_append_left _ hq, hedge⟩

/-! ## On a tree -/

/-- One parent for each node, and none for the root. -/
structure IsTree (next : α → Option (List α)) (root : α) : Prop where
  nodup : ∀ x ys, next x = some ys → ys.Nodup
  unique : ∀ x x' y, Edge next x y → Edge next x' y → x = x'
  root : ∀ x, ¬Edge next x root

/-- What has been pushed so far, popped or not, is the root and the successors of what was popped,
each once. -/
structure Growing (next : α → Option (List α)) (root : α) (seen stack : List α) : Prop where
  nodup : (seen ++ stack).Nodup
  pushed : ∀ y ∈ seen ++ stack, y = root ∨ ∃ x ∈ seen, Edge next x y

namespace Growing

variable {root x : α} {seen stack ys : List α}

theorem init (next : α → Option (List α)) (root : α) : Growing next root [] [root] where
  nodup := by simp
  pushed := by simp

theorem not_mem (h : Growing next root seen (x :: stack)) : x ∉ seen := fun hx ↦
  List.disjoint_of_nodup_append h.nodup hx List.mem_cons_self

theorem pop (h : Growing next root seen (x :: stack)) : Growing next root (x :: seen) stack where
  nodup := (List.perm_middle.nodup_iff).mp h.nodup
  pushed y hy := by
    have hy : y ∈ seen ++ x :: stack := (List.perm_middle.mem_iff).mpr hy
    refine (h.pushed y hy).imp_right ?_
    rintro ⟨z, hz, hedge⟩
    exact ⟨z, List.mem_cons_of_mem x hz, hedge⟩

theorem push (ht : IsTree next root) (h : Growing next root seen (x :: stack))
    (hnext : next x = some ys) : Growing next root (x :: seen) (ys ++ stack) where
  nodup := by
    have hfresh : ∀ y ∈ ys, y ∉ x :: seen ++ stack := by
      intro y hy hmem
      have hedge : Edge next x y := ⟨ys, hnext, hy⟩
      rcases h.pushed y ((List.perm_middle.mem_iff).mpr hmem) with rfl | ⟨z, hz, hedge'⟩
      · exact ht.root x hedge
      · exact h.not_mem (ht.unique z x y hedge' hedge ▸ hz)
    have hperm : (x :: seen ++ (ys ++ stack)).Perm (ys ++ (x :: seen ++ stack)) := by
      rw [← List.append_assoc, ← List.append_assoc]
      exact List.perm_append_comm.append_right stack
    rw [hperm.nodup_iff]
    exact (ht.nodup x ys hnext).append h.pop.nodup hfresh
  pushed y hy := by
    have hcases : y ∈ ys ∨ y ∈ x :: seen ++ stack := by
      simp only [List.mem_append] at hy ⊢
      tauto
    rcases hcases with hy | hy
    · exact .inr ⟨x, List.mem_cons_self, ys, hnext, hy⟩
    · exact h.pop.pushed y hy

end Growing

/-- On a tree the marks are idle. -/
theorem descend_eq_visit [DecidableEq α] {root : α} (ht : IsTree next root) (fuel : ℕ)
    {seen : List α} {found stack : List (α × δ)} (h : Growing next root seen (stack.map Prod.fst)) :
    (descend next deeper fuel found stack).map (List.map Prod.fst) =
      visit next fuel seen (found.map Prod.fst) (stack.map Prod.fst) := by
  induction fuel generalizing seen found stack with
  | zero => rfl
  | succ fuel ih =>
    rcases stack with _ | ⟨⟨x, d⟩, stack⟩
    · rfl
    · rw [List.map_cons] at h
      rw [List.map_cons, descend, visit, if_neg h.not_mem]
      cases hnext : next x with
      | none => exact ih h.pop
      | some ys =>
        have hmap : (ys.map (fun y ↦ (y, deeper d)) ++ stack).map Prod.fst =
            ys ++ stack.map Prod.fst := by
          rw [List.map_append, List.map_map]
          exact congrArg (· ++ _) (List.map_id ys)
        have hgrow : Growing next root (x :: seen)
            ((ys.map (fun y ↦ (y, deeper d)) ++ stack).map Prod.fst) := hmap ▸ h.push ht hnext
        dsimp only
        rw [ih hgrow, hmap, List.map_append]
        rfl

/-- A descent through a finite tree ends. It lists what can be reached from the root, each node once
and behind its parent. -/
theorem descend_endsWith [DecidableEq α] (deeper : δ → δ) {root : α} (ht : IsTree next root)
    {nodes : List α} (hnodes : ∀ x, (next x).isSome → x ∈ nodes) (d : δ) :
    ∃ out, EndsWith (descend next deeper · [] [(root, d)]) out ∧ (out.map Prod.fst).Nodup ∧
      (∀ x, x ∈ out.map Prod.fst ↔ (next x).isSome ∧ ReflTransGen (Edge next) root x) ∧
      ParentFirst next root (out.map Prod.fst) := by
  obtain ⟨pids, enough, hpids⟩ := visit_endsWith hnodes root
  have hvisit : visit next enough [] [] [root] = some pids := hpids enough (Nat.le_refl _)
  have heq : (descend next deeper enough [] [(root, d)]).map (List.map Prod.fst) =
      visit next enough [] [] [root] := descend_eq_visit ht enough (Growing.init next root)
  rw [hvisit] at heq
  obtain ⟨out, hout, rfl⟩ := Option.map_eq_some_iff.mp heq
  obtain ⟨hnodup, hmem⟩ := visit_spec (.init next root) hvisit
  refine ⟨out, ⟨enough, fun n hn ↦ descend_mono hn hout⟩, hnodup, hmem, ?_⟩
  refine descend_parentFirst (fun front x back h ↦ ?_) (fun p hp ↦ ?_) hout
  · simp at h
  · exact .inl (congrArg Prod.fst (List.mem_singleton.mp hp))

end Traversal
