import Mathlib.Data.List.Basic

/-!
# Self-delimiting frames

A reader takes one frame off the front of a stream and leaves the rest. A stretch of the stream is a
frame of `a` when the reader takes exactly that stretch off, whatever follows it. Frames can then be
laid end to end: reading a concatenation of frames gives what each of them is a frame of, in order,
and ends where the stream does.
-/

/-- A reader of frames: it takes something off every stream it reads from, and finds no frame in the
empty one. -/
structure FrameReader (β α ε : Type*) where
  read : List β → Except ε (Option (α × List β))
  read_nil : read [] = .ok none
  length_lt : ∀ {bs : List β} {a : α} {rest : List β},
    read bs = .ok (some (a, rest)) → rest.length < bs.length

namespace FrameReader

variable {β α ε : Type*} (r : FrameReader β α ε)

/-- Read frames until there is none left. -/
def readAll (bs : List β) : Except ε (List α) :=
  match h : r.read bs with
  | .error e => .error e
  | .ok none => .ok []
  | .ok (some (a, rest)) =>
    have := r.length_lt h
    (readAll rest).map (a :: ·)
  termination_by bs.length

/-- `bs` is a frame of `a`. -/
def IsFrame (bs : List β) (a : α) : Prop := ∀ rest, r.read (bs ++ rest) = .ok (some (a, rest))

variable {r}

@[simp] theorem readAll_nil : r.readAll [] = .ok [] := by
  rw [readAll]
  split
  next h => rw [r.read_nil] at h; cases h
  · rfl
  next h => rw [r.read_nil] at h; cases h

/-- A frame in front is read first. -/
theorem readAll_append {bs : List β} {a : α} (h : r.IsFrame bs a) (rest : List β) :
    r.readAll (bs ++ rest) = (r.readAll rest).map (a :: ·) := by
  rw [readAll]
  split
  next h' => rw [h rest] at h'; cases h'
  next h' => rw [h rest] at h'; cases h'
  next h' => rw [h rest] at h'; cases h'; rfl

/-- **Frames laid end to end** are read back in order, and then the stream ends. -/
theorem readAll_flatten {ws : List (List β × α)} (h : ∀ w ∈ ws, r.IsFrame w.1 w.2) :
    r.readAll (ws.map Prod.fst).flatten = .ok (ws.map Prod.snd) := by
  induction ws with
  | nil => exact readAll_nil
  | cons w ws ih =>
    have hw : r.IsFrame w.1 w.2 := h w List.mem_cons_self
    rw [List.map_cons, List.flatten_cons, readAll_append hw,
      ih fun v hv ↦ h v (List.mem_cons_of_mem w hv), List.map_cons]
    rfl

/-- A frame on its own. -/
theorem readAll_frame {bs : List β} {a : α} (h : r.IsFrame bs a) : r.readAll bs = .ok [a] := by
  have hread := readAll_append h []
  rw [List.append_nil, readAll_nil] at hread
  exact hread

/-- One frame over and over. -/
theorem readAll_replicate {bs : List β} {a : α} (h : r.IsFrame bs a) (n : ℕ) :
    r.readAll (List.replicate n bs).flatten = .ok (List.replicate n a) := by
  have hall : ∀ w ∈ List.replicate n (bs, a), r.IsFrame w.1 w.2 := by
    intro w hw
    rw [List.eq_of_mem_replicate hw]
    exact h
  have hread := readAll_flatten hall
  rwa [List.map_replicate, List.map_replicate] at hread

end FrameReader
