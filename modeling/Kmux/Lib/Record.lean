import Kmux.Lib.Run

/-!
# Runs that leave a record

A step of the system does not only change the state, it also reports what happened. The record of a
run is the reports one after the other, and a property of the run that no single state shows, such
as what came between two things that happened, is a property of the record. Two forms are used
here: a relation between the record so far and the state, and a condition on each entry that may
look at the entries before it.
-/

namespace Record

variable {σ ε η : Type*}

/-- The step without its report. -/
def next (act : σ → ε → σ × List η) (s : σ) (e : ε) : σ := (act s e).1

/-- What a run reports. -/
def record (act : σ → ε → σ × List η) : σ → List ε → List η
  | _, [] => []
  | s, e :: es => (act s e).2 ++ record act (act s e).1 es

/-- Each of the entries, read after those in `r`, meets `P`. -/
def Lawful (P : List η → η → Prop) : List η → List η → Prop
  | _, [] => True
  | r, h :: hs => P r h ∧ Lawful P (r ++ [h]) hs

variable {P : List η → η → Prop}

@[simp] theorem lawful_nil (r : List η) : Lawful P r [] := trivial

@[simp] theorem lawful_cons (r : List η) (h : η) (hs : List η) :
    Lawful P r (h :: hs) ↔ P r h ∧ Lawful P (r ++ [h]) hs := Iff.rfl

theorem lawful_append (r hs hs' : List η) :
    Lawful P r (hs ++ hs') ↔ Lawful P r hs ∧ Lawful P (r ++ hs) hs' := by
  induction hs generalizing r with
  | nil => simp
  | cons h hs ih => simp [ih, and_assoc]

/-- Entry by entry. -/
theorem lawful_iff_forall (r hs : List η) :
    Lawful P r hs ↔ ∀ pre h post, hs = pre ++ h :: post → P (r ++ pre) h := by
  induction hs generalizing r with
  | nil => simp
  | cons h hs ih =>
    rw [lawful_cons, ih]
    constructor
    · rintro ⟨hh, hhs⟩ pre h' post heq
      rcases pre with _ | ⟨a, pre⟩
      · obtain ⟨rfl, -⟩ := List.cons.inj heq
        rwa [List.append_nil]
      · obtain ⟨rfl, htail⟩ := List.cons.inj heq
        have := hhs pre h' post htail
        rwa [List.append_assoc] at this
    · intro hall
      refine ⟨by simpa using hall [] h hs rfl, fun pre h' post heq ↦ ?_⟩
      have := hall (h :: pre) h' post (by rw [heq, List.cons_append])
      rwa [List.append_assoc]

/-- What relates the record to the state, and holds of each entry, when every admissible step
carries it on. -/
theorem lawful_record {act : σ → ε → σ × List η} {ok : σ → ε → Prop} {Inv : List η → σ → Prop}
    (hstep : ∀ r s e, Inv r s → ok s e →
      Inv (r ++ (act s e).2) (act s e).1 ∧ Lawful P r (act s e).2) :
    ∀ (es : List ε) (r : List η) (s : σ), Inv r s → Run.Ok (next act) ok s es →
      Inv (r ++ record act s es) (Run.exec (next act) s es) ∧ Lawful P r (record act s es) := by
  intro es
  induction es with
  | nil =>
    intro r s hs _
    exact ⟨by simpa [record] using hs, trivial⟩
  | cons e es ih =>
    intro r s hs hok
    obtain ⟨hinv, hlaw⟩ := hstep r s e hs hok.1
    obtain ⟨hinv', hlaw'⟩ := ih (r ++ (act s e).2) (act s e).1 hinv hok.2
    rw [List.append_assoc] at hinv'
    exact ⟨hinv', (lawful_append r _ _).mpr ⟨hlaw, hlaw'⟩⟩

end Record
