import Mathlib.Data.List.Basic

/-!
# Runs of a deterministic transition system

A system is a step function `step : σ → ε → σ`; a run from `s` is the left fold of `step` along a
list of events. Two things are wanted of a run: that an invariant survives it, and that it does so
under a condition which is imposed on every step in the state that step is taken from. The second
is `Run.Ok`, a recursive predicate rather than a quantifier over prefixes, so that both unfold
along the same list.
-/

namespace Run

variable {σ ε : Type*}

/-- The state a list of events leads to. -/
def exec (step : σ → ε → σ) (s : σ) (es : List ε) : σ := es.foldl step s

/-- Every step of the run meets `ok` in the state it is taken from. -/
def Ok (step : σ → ε → σ) (ok : σ → ε → Prop) : σ → List ε → Prop
  | _, [] => True
  | s, e :: es => ok s e ∧ Ok step ok (step s e) es

instance decidableOk {step : σ → ε → σ} {ok : σ → ε → Prop} [∀ s e, Decidable (ok s e)] :
    ∀ (s : σ) (es : List ε), Decidable (Ok step ok s es)
  | _, [] => inferInstanceAs (Decidable True)
  | s, e :: es =>
    have : Decidable (Ok step ok (step s e) es) := decidableOk (step s e) es
    inferInstanceAs (Decidable (_ ∧ _))

variable {step : σ → ε → σ} {ok : σ → ε → Prop} {Inv : σ → Prop}

@[simp] theorem exec_nil (s : σ) : exec step s [] = s := rfl

@[simp] theorem exec_cons (s : σ) (e : ε) (es : List ε) :
    exec step s (e :: es) = exec step (step s e) es := rfl

theorem exec_append (s : σ) (es fs : List ε) :
    exec step s (es ++ fs) = exec step (exec step s es) fs := by
  rw [exec, List.foldl_append, ← exec, ← exec]

theorem ok_append (s : σ) (es fs : List ε) :
    Ok step ok s (es ++ fs) ↔ Ok step ok s es ∧ Ok step ok (exec step s es) fs := by
  induction es generalizing s with
  | nil => exact (and_iff_right trivial).symm
  | cons e es ih => rw [List.cons_append, Ok, ih, Ok, exec_cons, and_assoc]

/-- Step by step. -/
theorem ok_iff_forall (s : σ) (es : List ε) :
    Ok step ok s es ↔ ∀ n e, es[n]? = some e → ok (exec step s (es.take n)) e := by
  induction es generalizing s with
  | nil => exact ⟨fun _ _ _ h ↦ (nomatch h), fun _ ↦ trivial⟩
  | cons e es ih =>
    rw [Ok, ih]
    constructor
    · rintro ⟨he, hes⟩ n e' hn
      rcases n with _ | n
      · rwa [← Option.some.inj hn]
      · exact hes n e' hn
    · exact fun h ↦ ⟨h 0 e rfl, fun n e' hn ↦ h (n + 1) e' hn⟩

/-- An invariant that every admissible step preserves holds at the end of every admissible run. -/
theorem invariant_of_ok (hstep : ∀ s e, Inv s → ok s e → Inv (step s e)) :
    ∀ (es : List ε) (s : σ), Inv s → Ok step ok s es → Inv (exec step s es) := by
  intro es
  induction es with
  | nil => intro s hs _; exact hs
  | cons e es ih =>
    intro s hs hok
    exact ih (step s e) (hstep s e hs hok.1) hok.2

/-- Two conditions agree on a run when they agree on every step from a state with the invariant,
and the invariant survives steps that meet the first. -/
theorem ok_iff_of_invariant {ok' : σ → ε → Prop} (hiff : ∀ s e, Inv s → (ok s e ↔ ok' s e))
    (hstep : ∀ s e, Inv s → ok s e → Inv (step s e)) (es : List ε) (s : σ) (hs : Inv s) :
    Ok step ok s es ↔ Ok step ok' s es := by
  induction es generalizing s with
  | nil => exact Iff.rfl
  | cons e es ih =>
    rw [Ok, Ok, ← hiff s e hs]
    exact and_congr_right fun hok ↦ ih (step s e) (hstep s e hs hok)

/-- When a step into a safe state is an admissible one, and the invariant is safe, the admissible
runs are exactly those with a safe state after every prefix. The events may be restricted to those
with `P`. -/
theorem ok_iff_safe {Safe : σ → Prop} {P : ε → Prop} (hsafe : ∀ s, Inv s → Safe s)
    (hstep : ∀ s e, P e → Inv s → ok s e → Inv (step s e))
    (hok : ∀ s e, P e → Inv s → Safe (step s e) → ok s e) (es : List ε) (hes : ∀ e ∈ es, P e)
    (s : σ) (hs : Inv s) : Ok step ok s es ↔ ∀ n, Safe (exec step s (es.take n)) := by
  induction es generalizing s with
  | nil => exact ⟨fun _ n ↦ by rw [List.take_nil]; exact hsafe s hs, fun _ ↦ trivial⟩
  | cons e es ih =>
    have hP : P e := hes e List.mem_cons_self
    have hrest : ∀ e' ∈ es, P e' := fun e' he' ↦ hes e' (List.mem_cons_of_mem e he')
    constructor
    · rintro ⟨he, hes⟩ n
      rcases n with _ | n
      · exact hsafe s hs
      · exact (ih hrest (step s e) (hstep s e hP hs he)).mp hes n
    · intro h
      have he : ok s e := hok s e hP hs (h 1)
      exact ⟨he, (ih hrest (step s e) (hstep s e hP hs he)).mpr fun n ↦ h (n + 1)⟩

/-- The unconditional case. -/
theorem invariant (hstep : ∀ s e, Inv s → Inv (step s e)) (es : List ε) (s : σ) (hs : Inv s) :
    Inv (exec step s es) := by
  induction es generalizing s with
  | nil => exact hs
  | cons e es ih => exact ih (step s e) (hstep s e hs)

/-- A relation that every pair of steps preserves relates the ends of the two runs. -/
theorem simulation {τ : Type*} {step' : τ → ε → τ} {R : σ → τ → Prop}
    (hstep : ∀ s t e, R s t → R (step s e) (step' t e)) (es : List ε) (s : σ) (t : τ)
    (h : R s t) : R (exec step s es) (exec step' t es) := by
  induction es generalizing s t with
  | nil => exact h
  | cons e es ih => exact ih (step s e) (step' t e) (hstep s t e h)

end Run
