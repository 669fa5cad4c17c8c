import Mathlib.Data.List.Basic
import Mathlib.Data.List.Forall2

/-!
# Attribution by barriers in an ordered pipeline

A sender groups what it puts into an ordered pipeline into *runs*, and sends a numbered *mark* down
the same pipeline to close a run. At the other end the oldest run is taken to be the one that the
next message belongs to, and when a mark comes through, the runs it closes are dropped. `Aligned`
says that this is right for everything still in the pipeline: it plays the pipeline forward, and
asks that each message find its own run at the front.

What a run is and when a message belongs to it are parameters, `barrier` and `Fits`. The lemmas are
the moves of such a scheme: something is appended, a run is opened, the last run is closed or
extended, a message leaves or loses a part of its claim on the run.
-/

namespace Barrier

variable {ρ μ : Type*}

/-- What travels through the pipeline. -/
inductive Item (μ : Type*)
  | mark (seq : ℕ)
  | msg (m : μ)

/-- The number of a mark. -/
def Item.seq? : Item μ → Option ℕ
  | .mark seq => some seq
  | .msg _ => none

section

variable (barrier : ρ → Option ℕ)

/-- Whether a run is still there when the mark `seq` has come through. -/
def outlasts (seq : ℕ) (run : ρ) : Bool := (barrier run).all fun b ↦ decide (seq < b)

/-- The runs left when the mark `seq` has come through. -/
def pass (seq : ℕ) (runs : List ρ) : List ρ := runs.dropWhile fun run ↦ !outlasts barrier seq run

/-- The runs left when everything in the pipeline has come through. -/
def after : List (Item μ) → List ρ → List ρ
  | [], runs => runs
  | .mark seq :: items, runs => after items (pass barrier seq runs)
  | .msg _ :: items, runs => after items runs

variable (Fits : ρ → μ → Prop)

/-- Each message finds a run it belongs to at the front when it comes through. -/
def Aligned : List (Item μ) → List ρ → Prop
  | [], _ => True
  | .mark seq :: items, runs => Aligned items (pass barrier seq runs)
  | .msg m :: items, runs => (∃ run, runs.head? = some run ∧ Fits run m) ∧ Aligned items runs

/-- Everything in the pipeline accounted for, at most one run is left, and it is open. -/
def Drained (items : List (Item μ)) (runs : List ρ) : Prop :=
  after barrier items runs = [] ∨ ∃ run, after barrier items runs = [run] ∧ barrier run = none

end

variable {barrier : ρ → Option ℕ} {Fits : ρ → μ → Prop} {items items' : List (Item μ)}
  {runs runs' : List ρ}

theorem outlasts_of_open {run : ρ} (h : barrier run = none) (seq : ℕ) :
    outlasts barrier seq run = true := by
  rw [outlasts, h, Option.all_none]

theorem outlasts_of_lt {run : ρ} {seq b : ℕ} (h : barrier run = some b) (hlt : seq < b) :
    outlasts barrier seq run = true := by
  rw [outlasts, h, Option.all_some]
  exact decide_eq_true hlt

theorem not_outlasts_self {run : ρ} {b : ℕ} (h : barrier run = some b) :
    outlasts barrier b run = false := by
  rw [outlasts, h, Option.all_some]
  exact decide_eq_false (Nat.lt_irrefl b)

theorem pass_suffix (seq : ℕ) (runs : List ρ) : pass barrier seq runs <:+ runs :=
  List.dropWhile_suffix _

theorem after_suffix (items : List (Item μ)) (runs : List ρ) :
    after barrier items runs <:+ runs := by
  induction items generalizing runs with
  | nil => exact List.suffix_refl runs
  | cons item items ih =>
    rcases item with seq | m
    · exact (ih _).trans (pass_suffix seq runs)
    · exact ih runs

/-! ## Appending -/

theorem after_append (items items' : List (Item μ)) (runs : List ρ) :
    after barrier (items ++ items') runs = after barrier items' (after barrier items runs) := by
  induction items generalizing runs with
  | nil => rfl
  | cons item items ih =>
    rcases item with seq | m
    · exact ih _
    · exact ih runs

theorem aligned_append : Aligned barrier Fits (items ++ items') runs ↔
    Aligned barrier Fits items runs ∧
      Aligned barrier Fits items' (after barrier items runs) := by
  induction items generalizing runs with
  | nil => exact (and_iff_right trivial).symm
  | cons item items ih =>
    rcases item with seq | m
    · exact ih
    · rw [List.cons_append, Aligned, ih, Aligned, and_assoc]
      rfl

theorem Aligned.append_mark (h : Aligned barrier Fits items runs) (seq : ℕ) :
    Aligned barrier Fits (items ++ [Item.mark seq]) runs :=
  aligned_append.mpr ⟨h, trivial⟩

/-- A message that the one run left over fits may follow. -/
theorem Aligned.append_msg (h : Aligned barrier Fits items runs) {run : ρ} {m : μ}
    (hafter : after barrier items runs = [run]) (hfits : Fits run m) :
    Aligned barrier Fits (items ++ [Item.msg m]) runs :=
  aligned_append.mpr ⟨h, ⟨run, by rw [hafter]; rfl, hfits⟩, trivial⟩

/-- Every message on its way has a run to belong to. -/
theorem Aligned.exists_fits {m : μ} (h : Aligned barrier Fits items runs)
    (hm : .msg m ∈ items) : ∃ run ∈ runs, Fits run m := by
  induction items generalizing runs with
  | nil => cases hm
  | cons item items ih =>
    rcases item with seq | m'
    · have hrest : .msg m ∈ items := by
        rcases List.mem_cons.mp hm with heq | hm
        · cases heq
        · exact hm
      obtain ⟨run, hrun, hfits⟩ := ih h hrest
      exact ⟨run, (pass_suffix seq runs).subset hrun, hfits⟩
    · obtain ⟨⟨run, hhead, hfits⟩, hrest⟩ := h
      rcases List.mem_cons.mp hm with heq | hm
      · obtain rfl := Item.msg.inj heq
        exact ⟨run, List.mem_of_mem_head? hhead, hfits⟩
      · exact ih hrest hm

/-- A message in the middle may be lost, or be replaced by one that fits wherever it did. -/
theorem Aligned.replace {m : μ} {new : List μ}
    (h : Aligned barrier Fits (items ++ Item.msg m :: items') runs)
    (hnew : ∀ m' ∈ new, ∀ run, Fits run m → Fits run m') :
    Aligned barrier Fits (items ++ (new.map Item.msg ++ items')) runs := by
  obtain ⟨hfirst, hfits, hrest⟩ := aligned_append.mp h
  refine aligned_append.mpr ⟨hfirst, ?_⟩
  induction new with
  | nil => exact hrest
  | cons m' new ih =>
    obtain ⟨run, hhead, hrun⟩ := hfits
    exact ⟨⟨run, hhead, hnew m' List.mem_cons_self run hrun⟩,
      ih fun m'' hm'' ↦ hnew m'' (List.mem_cons_of_mem m' hm'')⟩

/-! ## Opening a run -/

theorem pass_concat {run : ρ} (h : barrier run = none) (seq : ℕ) (runs : List ρ) :
    pass barrier seq (runs ++ [run]) = pass barrier seq runs ++ [run] := by
  rw [pass, List.dropWhile_append]
  by_cases hempty : (runs.dropWhile fun r ↦ !outlasts barrier seq r).isEmpty
  · rw [if_pos hempty, List.isEmpty_iff.mp hempty |> (pass.eq_def barrier seq runs).trans]
    rw [List.dropWhile_cons_of_neg, List.nil_append]
    rw [outlasts_of_open h]
    exact Bool.false_ne_true
  · rw [if_neg hempty]
    rfl

theorem after_concat {run : ρ} (h : barrier run = none) (items : List (Item μ))
    (runs : List ρ) :
    after barrier items (runs ++ [run]) = after barrier items runs ++ [run] := by
  induction items generalizing runs with
  | nil => rfl
  | cons item items ih =>
    rcases item with seq | m
    · rw [after, pass_concat h, ih, after]
    · exact ih runs

theorem Aligned.concat {run : ρ} (h : Aligned barrier Fits items runs)
    (hopen : barrier run = none) : Aligned barrier Fits items (runs ++ [run]) := by
  induction items generalizing runs with
  | nil => trivial
  | cons item items ih =>
    rcases item with seq | m
    · rw [Aligned, pass_concat hopen]
      exact ih h
    · obtain ⟨⟨front, hhead, hfits⟩, hrest⟩ := h
      refine ⟨⟨front, ?_, hfits⟩, ih hrest⟩
      rw [List.head?_append, hhead, Option.some_or]

/-- An open last run is what is left. -/
theorem Drained.eq_of_open {run : ρ} (h : Drained barrier items (runs ++ [run]))
    (hopen : barrier run = none) : after barrier items (runs ++ [run]) = [run] := by
  rw [Drained, after_concat hopen] at h
  rw [after_concat hopen]
  rcases h with h | ⟨run', h, -⟩
  · exact absurd h (by simp)
  · obtain ⟨hnil, -⟩ := List.append_inj' (h.trans (List.nil_append [run']).symm) rfl
    rw [hnil, List.nil_append]

/-- Without an open last run, nothing is. -/
theorem Drained.eq_nil (h : Drained barrier items runs)
    (hclosed : ∀ run, runs.getLast? = some run → barrier run ≠ none) :
    after barrier items runs = [] := by
  rcases h with h | ⟨run, h, hopen⟩
  · exact h
  · have hsuffix : after barrier items runs <:+ runs := after_suffix items runs
    obtain ⟨front, hfront⟩ := hsuffix
    refine absurd hopen (hclosed run ?_)
    rw [← hfront, h, List.getLast?_concat]

theorem Drained.concat {run : ρ} (h : after barrier items runs = []) (hopen : barrier run = none) :
    Drained barrier items (runs ++ [run]) :=
  .inr ⟨run, by rw [after_concat hopen, h, List.nil_append], hopen⟩

/-! ## Changing runs -/

private theorem pass_forall₂ {R : ρ → ρ → Prop} {seq : ℕ}
    (hseq : ∀ r r', R r r' → outlasts barrier seq r = outlasts barrier seq r')
    (h : List.Forall₂ R runs runs') :
    List.Forall₂ R (pass barrier seq runs) (pass barrier seq runs') := by
  induction h with
  | nil => exact .nil
  | @cons r r' l l' hr hl ih =>
    rw [pass, pass, List.dropWhile_cons, List.dropWhile_cons, hseq r r' hr]
    split
    · exact ih
    · exact .cons hr hl

/-- Runs may change in ways that no mark in the pipeline tells apart. -/
theorem after_forall₂ {R : ρ → ρ → Prop} (hR : ∀ r r', R r r' → ∀ item ∈ items,
      ∀ seq ∈ item.seq?, outlasts barrier seq r = outlasts barrier seq r')
    (h : List.Forall₂ R runs runs') :
    List.Forall₂ R (after barrier items runs) (after barrier items runs') := by
  induction items generalizing runs runs' with
  | nil => exact h
  | cons item items ih =>
    have hrest := fun r r' hr item' hitem' ↦ hR r r' hr item' (List.mem_cons_of_mem item hitem')
    rcases item with seq | m
    · refine ih hrest (pass_forall₂ (fun r r' hr ↦ ?_) h)
      exact hR r r' hr _ List.mem_cons_self seq rfl
    · exact ih hrest h

theorem Aligned.forall₂ {R : ρ → ρ → Prop} (hR : ∀ r r', R r r' → ∀ item ∈ items,
      ∀ seq ∈ item.seq?, outlasts barrier seq r = outlasts barrier seq r')
    (hfits : ∀ r r', R r r' → ∀ m, Fits r m → Fits r' m) (h : List.Forall₂ R runs runs')
    (haligned : Aligned barrier Fits items runs) : Aligned barrier Fits items runs' := by
  induction items generalizing runs runs' with
  | nil => trivial
  | cons item items ih =>
    have hrest := fun r r' hr item' hitem' ↦ hR r r' hr item' (List.mem_cons_of_mem item hitem')
    rcases item with seq | m
    · refine ih hrest (pass_forall₂ (fun r r' hr ↦ ?_) h) haligned
      exact hR r r' hr _ List.mem_cons_self seq rfl
    · obtain ⟨⟨front, hhead, hm⟩, hal⟩ := haligned
      refine ⟨?_, ih hrest h hal⟩
      cases h with
      | nil => cases hhead
      | @cons r r' l l' hr hl =>
        obtain rfl : r = front := Option.some.inj hhead
        exact ⟨r', rfl, hfits r r' hr m hm⟩

section

variable {last last' : ρ} (hlast : ∀ item ∈ items, ∀ seq ∈ item.seq?,
  outlasts barrier seq last = outlasts barrier seq last')
include hlast

omit hlast in
private theorem forall₂_last (runs : List ρ) (last last' : ρ) :
    List.Forall₂ (fun r r' ↦ r = r' ∨ r = last ∧ r' = last') (runs ++ [last])
      (runs ++ [last']) := by
  refine List.rel_append ?_ (.cons (.inr ⟨rfl, rfl⟩) .nil)
  exact List.forall₂_same.mpr fun _ _ ↦ .inl rfl

private theorem outlasts_last (r r' : ρ) (h : r = r' ∨ r = last ∧ r' = last') :
    ∀ item ∈ items, ∀ seq ∈ item.seq?, outlasts barrier seq r = outlasts barrier seq r' := by
  rcases h with rfl | ⟨rfl, rfl⟩
  · exact fun _ _ _ _ ↦ rfl
  · exact hlast

/-- The last run may be replaced by one that more messages fit. -/
theorem Aligned.replace_last (hfits : ∀ m, Fits last m → Fits last' m)
    (h : Aligned barrier Fits items (runs ++ [last])) :
    Aligned barrier Fits items (runs ++ [last']) := by
  refine h.forall₂ (outlasts_last hlast) (fun r r' hr m hm ↦ ?_) (forall₂_last runs last last')
  rcases hr with rfl | ⟨rfl, rfl⟩
  · exact hm
  · exact hfits m hm

theorem after_replace_last (h : after barrier items (runs ++ [last]) = [last]) :
    after barrier items (runs ++ [last']) = [last'] := by
  have hrel := after_forall₂ (outlasts_last hlast) (forall₂_last runs last last')
  rw [h] at hrel
  have hsuffix : after barrier items (runs ++ [last']) <:+ runs ++ [last'] := after_suffix _ _
  obtain ⟨run, hrun⟩ := List.length_eq_one_iff.mp hrel.length_eq.symm
  obtain ⟨front, hfront⟩ := hsuffix
  rw [hrun] at hfront ⊢
  obtain ⟨-, heq⟩ := List.append_inj' hfront rfl
  exact heq

/-- A mark closes the open last run, and nothing is left. -/
theorem after_close {seq : ℕ} (hclosed : barrier last' = some seq)
    (h : after barrier items (runs ++ [last]) = [last]) :
    after barrier (items ++ [Item.mark seq]) (runs ++ [last']) = [] := by
  rw [after_append, after_replace_last hlast h, after, after, pass,
    List.dropWhile_cons_of_pos, List.dropWhile_nil]
  rw [not_outlasts_self hclosed]
  rfl

end

end Barrier
