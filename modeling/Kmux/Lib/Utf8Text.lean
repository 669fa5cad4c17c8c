import Mathlib.Algebra.GroupWithZero.Nat
import Mathlib.Data.List.Basic
import Mathlib.Data.List.DropRight

/-!
# Text addressed by UTF-8 byte offsets

A text is the list of its characters, and positions in it are byte offsets of its UTF-8 form. An
offset is usable only where a character starts or the text ends; a slice anywhere else has no
value, which is `none` here and a panic in the programs that address text this way.

One operation carries the others: `cut` splits a text at an offset. Its specification `cut_eq_some`
turns every question about offsets into one about two lists of characters, and the slices, the
insertion, the removal and the searches below are stated through it.
-/

namespace Utf8Text

/-! ## Offsets -/

/-- The bytes of a text. -/
def byteLen (s : List Char) : ℕ := (s.map Char.utf8Size).sum

@[simp] theorem byteLen_nil : byteLen [] = 0 := rfl

@[simp] theorem byteLen_cons (c : Char) (s : List Char) :
    byteLen (c :: s) = c.utf8Size + byteLen s := by
  rw [byteLen, List.map_cons, List.sum_cons, ← byteLen]

@[simp] theorem byteLen_append (s t : List Char) : byteLen (s ++ t) = byteLen s + byteLen t := by
  rw [byteLen, List.map_append, List.sum_append, ← byteLen, ← byteLen]

/-- The text before and after a byte offset; nothing where no character starts there. -/
def cut : List Char → ℕ → Option (List Char × List Char)
  | s, 0 => some ([], s)
  | [], _ + 1 => none
  | c :: s, i + 1 =>
    if c.utf8Size ≤ i + 1 then (cut s (i + 1 - c.utf8Size)).map fun p ↦ (c :: p.1, p.2) else none

@[simp] theorem cut_zero (s : List Char) : cut s 0 = some ([], s) := by
  rw [cut]

theorem cut_cons {c : Char} {s : List Char} {i : ℕ} (h : c.utf8Size ≤ i) :
    cut (c :: s) i = (cut s (i - c.utf8Size)).map fun p ↦ (c :: p.1, p.2) := by
  have hpos : 0 < c.utf8Size := c.utf8Size_pos
  obtain ⟨i, rfl⟩ := Nat.exists_eq_succ_of_ne_zero (show i ≠ 0 by omega)
  rw [cut, if_pos h]

theorem cut_cons_of_lt {c : Char} {s : List Char} {i : ℕ} (hpos : 0 < i) (h : i < c.utf8Size) :
    cut (c :: s) i = none := by
  obtain ⟨i, rfl⟩ := Nat.exists_eq_succ_of_ne_zero (show i ≠ 0 by omega)
  rw [cut, if_neg (by omega)]

/-- A cut falls after the characters that take up the offset. -/
theorem cut_byteLen (a b : List Char) : cut (a ++ b) (byteLen a) = some (a, b) := by
  induction a with
  | nil => exact cut_zero b
  | cons c a ih =>
    rw [List.cons_append, byteLen_cons, cut_cons (Nat.le_add_right ..), Nat.add_sub_cancel_left, ih]
    rfl

theorem cut_append (a b : List Char) (i : ℕ) :
    cut (a ++ b) (byteLen a + i) = (cut b i).map fun p ↦ (a ++ p.1, p.2) := by
  induction a with
  | nil => simp
  | cons c a ih =>
    have hsub : byteLen (c :: a) + i - c.utf8Size = byteLen a + i := by rw [byteLen_cons]; omega
    rw [List.cons_append, cut_cons (by rw [byteLen_cons]; omega), hsub, ih, Option.map_map]
    rfl

theorem cut_eq_some {s a b : List Char} {i : ℕ} :
    cut s i = some (a, b) ↔ s = a ++ b ∧ byteLen a = i := by
  constructor
  · intro h
    induction s generalizing i a with
    | nil =>
      cases i with
      | zero =>
        obtain ⟨rfl, rfl⟩ : [] = a ∧ [] = b := by simpa using h
        exact ⟨rfl, rfl⟩
      | succ i => simp [cut] at h
    | cons c s ih =>
      rcases Nat.eq_zero_or_pos i with rfl | hpos
      · obtain ⟨rfl, rfl⟩ : [] = a ∧ c :: s = b := by simpa using h
        exact ⟨rfl, rfl⟩
      · by_cases hc : c.utf8Size ≤ i
        · rw [cut_cons hc, Option.map_eq_some_iff] at h
          obtain ⟨⟨a', b'⟩, hcut, hp⟩ := h
          obtain ⟨rfl, rfl⟩ : c :: a' = a ∧ b' = b := by simpa using hp
          obtain ⟨rfl, hlen⟩ := ih hcut
          exact ⟨rfl, by rw [byteLen_cons]; omega⟩
        · rw [cut_cons_of_lt hpos (by omega)] at h
          exact absurd h (by simp)
  · rintro ⟨rfl, rfl⟩
    exact cut_byteLen a b

/-- Whether a character starts, or the text ends, at an offset. -/
def isCharBoundary (s : List Char) (i : ℕ) : Bool := (cut s i).isSome

theorem isCharBoundary_iff {s : List Char} {i : ℕ} :
    isCharBoundary s i = true ↔ ∃ a b, s = a ++ b ∧ byteLen a = i := by
  rw [isCharBoundary, Option.isSome_iff_exists]
  constructor
  · rintro ⟨⟨a, b⟩, h⟩
    exact ⟨a, b, cut_eq_some.mp h⟩
  · rintro ⟨a, b, h⟩
    exact ⟨(a, b), cut_eq_some.mpr h⟩

theorem isCharBoundary_byteLen (a b : List Char) : isCharBoundary (a ++ b) (byteLen a) = true :=
  isCharBoundary_iff.mpr ⟨a, b, rfl, rfl⟩

/-- No boundary falls inside a character. -/
theorem isCharBoundary_inside {a b : List Char} {c : Char} {i : ℕ} (hlow : byteLen a < i)
    (hhigh : i < byteLen a + c.utf8Size) : isCharBoundary (a ++ c :: b) i = false := by
  induction a generalizing i with
  | nil =>
    rw [byteLen_nil] at hlow hhigh
    rw [List.nil_append, isCharBoundary, cut_cons_of_lt hlow (by omega)]
    rfl
  | cons d a ih =>
    rw [byteLen_cons] at hlow hhigh
    have hrest : isCharBoundary (a ++ c :: b) (i - d.utf8Size) = false :=
      ih (by omega) (by omega)
    rw [List.cons_append, isCharBoundary, cut_cons (by omega), Option.isSome_map, ← isCharBoundary,
      hrest]

/-! ## Slices -/

/-- The slice from an offset to the end. -/
def sliceFrom (s : List Char) (i : ℕ) : Option (List Char) := (cut s i).map Prod.snd

/-- The slice from the start to an offset. -/
def sliceTo (s : List Char) (i : ℕ) : Option (List Char) := (cut s i).map Prod.fst

/-- The slice between two offsets. -/
def slice (s : List Char) (i j : ℕ) : Option (List Char) := (sliceTo s j).bind (sliceFrom · i)

@[simp] theorem sliceFrom_byteLen (a b : List Char) : sliceFrom (a ++ b) (byteLen a) = some b := by
  rw [sliceFrom, cut_byteLen]
  rfl

@[simp] theorem sliceTo_byteLen (a b : List Char) : sliceTo (a ++ b) (byteLen a) = some a := by
  rw [sliceTo, cut_byteLen]
  rfl

/-- Offsets past a part of the text are offsets into the rest. -/
theorem sliceFrom_append (a b : List Char) (i : ℕ) :
    sliceFrom (a ++ b) (byteLen a + i) = sliceFrom b i := by
  rw [sliceFrom, cut_append, Option.map_map, sliceFrom]
  rfl

/-- The slice after a character of one byte. -/
theorem sliceFrom_one (s : List Char) :
    sliceFrom s 1 =
      match s with
      | [] => none
      | c :: rest => if c.utf8Size = 1 then some rest else none := by
  cases s with
  | nil => rfl
  | cons c rest =>
    by_cases hc : c.utf8Size = 1
    · rw [sliceFrom, cut_cons (by omega), hc, Nat.sub_self, cut_zero]
      exact (if_pos hc).symm
    · have hpos : 0 < c.utf8Size := c.utf8Size_pos
      rw [sliceFrom, cut_cons_of_lt (by omega) (by omega)]
      exact (if_neg hc).symm

theorem slice_byteLen (a b c : List Char) :
    slice (a ++ b ++ c) (byteLen a) (byteLen (a ++ b)) = some b := by
  rw [slice, sliceTo_byteLen, Option.bind_some, sliceFrom_byteLen]

/-! ## Changes -/

/-- Insert a character at an offset. -/
def insert (s : List Char) (i : ℕ) (c : Char) : Option (List Char) :=
  (cut s i).map fun p ↦ p.1 ++ c :: p.2

/-- Put a text in place of the slice between two offsets. -/
def replaceRange (s : List Char) (i j : ℕ) (t : List Char) : Option (List Char) :=
  (cut s j).bind fun p ↦ (sliceTo p.1 i).map fun a ↦ a ++ t ++ p.2

theorem insert_byteLen (a b : List Char) (c : Char) :
    insert (a ++ b) (byteLen a) c = some (a ++ c :: b) := by
  rw [insert, cut_byteLen]
  rfl

theorem replaceRange_byteLen (a b c t : List Char) :
    replaceRange (a ++ b ++ c) (byteLen a) (byteLen (a ++ b)) t = some (a ++ t ++ c) := by
  rw [replaceRange, cut_byteLen, Option.bind_some, sliceTo_byteLen]
  rfl

/-! ## Searches -/

/-- The offset of the first character of a kind. -/
def find (p : Char → Bool) : List Char → Option ℕ
  | [] => none
  | c :: s => if p c then some 0 else (find p s).map (c.utf8Size + ·)

/-- The offset of the last character of a kind. -/
def rfind (p : Char → Bool) : List Char → Option ℕ
  | [] => none
  | c :: s =>
    match rfind p s with
    | some i => some (c.utf8Size + i)
    | none => if p c then some 0 else none

variable {p : Char → Bool}

theorem find_eq_none {s : List Char} : find p s = none ↔ ∀ c ∈ s, p c = false := by
  induction s with
  | nil => simp [find]
  | cons c s ih => by_cases hc : p c <;> simp [find, hc, ih]

theorem find_append {a : List Char} (ha : ∀ d ∈ a, p d = false) {c : Char} (hc : p c = true)
    (b : List Char) : find p (a ++ c :: b) = some (byteLen a) := by
  induction a with
  | nil => rw [List.nil_append, find, if_pos hc, byteLen_nil]
  | cons d a ih =>
    have hd : p d = false := ha d List.mem_cons_self
    rw [List.cons_append, find, hd, if_neg Bool.false_ne_true,
      ih fun e he ↦ ha e (List.mem_cons_of_mem _ he), byteLen_cons]
    rfl

theorem find_eq_some {s : List Char} {i : ℕ} (h : find p s = some i) :
    ∃ a c b, s = a ++ c :: b ∧ byteLen a = i ∧ p c = true ∧ ∀ d ∈ a, p d = false := by
  induction s generalizing i with
  | nil => simp [find] at h
  | cons d s ih =>
    by_cases hd : p d
    · rw [find, if_pos hd] at h
      exact ⟨[], d, s, rfl, Option.some.inj h, hd, by simp⟩
    · rw [find, if_neg hd, Option.map_eq_some_iff] at h
      obtain ⟨j, hj, rfl⟩ := h
      obtain ⟨a, c, b, rfl, rfl, hc, ha⟩ := ih hj
      exact ⟨d :: a, c, b, rfl, byteLen_cons d a, hc,
        List.forall_mem_cons.mpr ⟨Bool.eq_false_iff.mpr hd, ha⟩⟩

theorem rfind_eq_none {s : List Char} : rfind p s = none ↔ ∀ c ∈ s, p c = false := by
  induction s with
  | nil => simp [rfind]
  | cons c s ih =>
    rw [rfind, List.forall_mem_cons, ← ih]
    cases hs : rfind p s with
    | some i => simp
    | none => by_cases hc : p c <;> simp [hc]

theorem rfind_append {b : List Char} (hb : ∀ d ∈ b, p d = false) {c : Char} (hc : p c = true)
    (a : List Char) : rfind p (a ++ c :: b) = some (byteLen a) := by
  induction a with
  | nil => rw [List.nil_append, rfind, rfind_eq_none.mpr hb, byteLen_nil]; exact if_pos hc
  | cons d a ih => rw [List.cons_append, rfind, ih, byteLen_cons]

/-- The text on the two sides of the last occurrence of a character. -/
def rsplitOnce (c : Char) : List Char → Option (List Char × List Char)
  | [] => none
  | d :: s =>
    match rsplitOnce c s with
    | some (a, b) => some (d :: a, b)
    | none => if d = c then some ([], s) else none

theorem rsplitOnce_eq_none {c : Char} {s : List Char} : rsplitOnce c s = none ↔ c ∉ s := by
  induction s with
  | nil => simp [rsplitOnce]
  | cons d s ih =>
    rw [rsplitOnce, List.mem_cons, not_or, ← ih]
    cases hs : rsplitOnce c s with
    | some p => simp
    | none =>
      rw [eq_comm (a := c)]
      by_cases hd : d = c <;> simp [hd]

theorem rsplitOnce_append {c : Char} {b : List Char} (hb : c ∉ b) (a : List Char) :
    rsplitOnce c (a ++ c :: b) = some (a, b) := by
  induction a with
  | nil => rw [List.nil_append, rsplitOnce, rsplitOnce_eq_none.mpr hb]; exact if_pos rfl
  | cons d a ih => rw [List.cons_append, rsplitOnce, ih]

theorem rsplitOnce_eq_some {c : Char} {s a b : List Char} :
    rsplitOnce c s = some (a, b) ↔ s = a ++ c :: b ∧ c ∉ b := by
  constructor
  · intro h
    induction s generalizing a with
    | nil => simp [rsplitOnce] at h
    | cons d s ih =>
      rw [rsplitOnce] at h
      cases hs : rsplitOnce c s with
      | some p =>
        rw [hs] at h
        obtain ⟨rfl, rfl⟩ : d :: p.1 = a ∧ p.2 = b := by simpa using h
        obtain ⟨rfl, hb⟩ := ih hs
        exact ⟨rfl, hb⟩
      | none =>
        rw [hs] at h
        by_cases hd : d = c
        · obtain ⟨rfl, rfl⟩ : [] = a ∧ s = b := by simpa [hd] using h
          exact ⟨by rw [hd, List.nil_append], rsplitOnce_eq_none.mp hs⟩
        · simp [hd] at h
  · rintro ⟨rfl, hb⟩
    exact rsplitOnce_append hb a

/-- The text on the two sides of the first occurrence of a text. -/
def splitOnceText (t : List Char) : List Char → Option (List Char × List Char)
  | [] => if t = [] then some ([], []) else none
  | c :: s =>
    if t <+: c :: s then some ([], (c :: s).drop t.length)
    else (splitOnceText t s).map fun p ↦ (c :: p.1, p.2)

theorem eq_append_of_splitOnceText {t s a b : List Char} (h : splitOnceText t s = some (a, b)) :
    s = a ++ t ++ b := by
  induction s generalizing a with
  | nil =>
    rw [splitOnceText] at h
    split_ifs at h with ht
    obtain ⟨rfl, rfl⟩ : [] = a ∧ [] = b := by simpa using h
    rw [ht]
    rfl
  | cons c s ih =>
    rw [splitOnceText] at h
    split_ifs at h with ht
    · obtain ⟨rest, hrest⟩ := ht
      obtain ⟨rfl, rfl⟩ : [] = a ∧ (c :: s).drop t.length = b := by simpa using h
      rw [← hrest, List.drop_left, List.nil_append]
    · obtain ⟨⟨a', b'⟩, hsplit, heq⟩ := Option.map_eq_some_iff.mp h
      obtain ⟨rfl, rfl⟩ : c :: a' = a ∧ b' = b := by simpa using heq
      rw [ih hsplit]
      rfl

/-- What comes later does not move the first occurrence. -/
theorem splitOnceText_append {t s a b : List Char} (h : splitOnceText t s = some (a, b))
    (rest : List Char) : splitOnceText t (s ++ rest) = some (a, b ++ rest) := by
  induction s generalizing a with
  | nil =>
    rw [splitOnceText] at h
    split_ifs at h with ht
    obtain ⟨rfl, rfl⟩ : [] = a ∧ [] = b := by simpa using h
    cases rest with
    | nil => simp [splitOnceText, ht]
    | cons c rest => simp [splitOnceText, ht]
  | cons c s ih =>
    have heq := eq_append_of_splitOnceText h
    rw [splitOnceText] at h
    rw [List.cons_append, splitOnceText]
    split_ifs at h with ht
    · obtain ⟨rfl, rfl⟩ : [] = a ∧ (c :: s).drop t.length = b := by simpa using h
      have hprefix : t <+: c :: (s ++ rest) := ht.trans (List.prefix_append (c :: s) rest)
      rw [if_pos hprefix, ← List.cons_append, List.drop_append_of_le_length ht.length_le]
    · have hnot : ¬t <+: c :: (s ++ rest) := fun hprefix ↦ ht
        (List.prefix_of_prefix_length_le hprefix (List.prefix_append (c :: s) rest)
          (by rw [heq, List.length_append, List.length_append]; omega))
      obtain ⟨⟨a', b'⟩, hsplit, hpair⟩ := Option.map_eq_some_iff.mp h
      obtain ⟨rfl, rfl⟩ : c :: a' = a ∧ b' = b := by simpa using hpair
      rw [if_neg hnot, ih hsplit]
      rfl

theorem exists_splitOnceText {t s : List Char} (h : t <:+: s) :
    ∃ a b, splitOnceText t s = some (a, b) := by
  induction s with
  | nil => exact ⟨[], [], by rw [splitOnceText, if_pos (List.eq_nil_of_infix_nil h)]⟩
  | cons c s ih =>
    rw [splitOnceText]
    split_ifs with ht
    · exact ⟨_, _, rfl⟩
    · obtain ⟨a, b, hsplit⟩ := ih ((List.infix_cons_iff.mp h).resolve_left ht)
      exact ⟨c :: a, b, by rw [hsplit]; rfl⟩

/-- An occurrence of a text is on one side of a character that is not in the text. -/
theorem occurrence_cases {front back a t b : List Char} {sep : Char} (hsep : sep ∉ t)
    (h : front ++ sep :: back = a ++ t ++ b) :
    (∃ x, front = a ++ t ++ x ∧ b = x ++ sep :: back) ∨
      ∃ x, a = front ++ sep :: x ∧ back = x ++ t ++ b := by
  rcases List.append_eq_append_iff.mp h with ⟨r, hr, hback⟩ | ⟨x, hfront, hb⟩
  · cases r with
    | nil => exact .inl ⟨[], by simpa using hr.symm, by simpa using hback.symm⟩
    | cons d r =>
      obtain ⟨rfl, rfl⟩ : sep = d ∧ back = r ++ b := by simpa using hback
      rcases List.append_eq_append_iff.mp hr with ⟨x, -, ht⟩ | ⟨x, hx, ht⟩
      · exact absurd (ht ▸ List.mem_append_right x List.mem_cons_self) hsep
      · cases x with
        | nil =>
          rw [List.nil_append] at ht
          exact absurd (ht ▸ List.mem_cons_self) hsep
        | cons d x =>
          obtain ⟨rfl, rfl⟩ : sep = d ∧ r = x ++ t := by simpa using ht
          exact .inr ⟨x, hx, rfl⟩
  · exact .inl ⟨x, hfront, hb⟩

/-- The offset of the first occurrence of a text. -/
def findText (t s : List Char) : Option ℕ := (splitOnceText t s).map fun p ↦ byteLen p.1

/-- The offset of the last occurrence of a text. -/
def rfindText (t : List Char) : List Char → Option ℕ
  | [] => if t = [] then some 0 else none
  | c :: s =>
    match rfindText t s with
    | some i => some (c.utf8Size + i)
    | none => if t <+: c :: s then some 0 else none

theorem rfindText_eq_some {t s : List Char} {i : ℕ} (h : rfindText t s = some i) :
    ∃ a b, s = a ++ t ++ b ∧ byteLen a = i := by
  induction s generalizing i with
  | nil =>
    rw [rfindText] at h
    split_ifs at h with ht
    exact ⟨[], [], by rw [ht]; rfl, Option.some.inj h⟩
  | cons c s ih =>
    rw [rfindText] at h
    cases hs : rfindText t s with
    | some j =>
      obtain ⟨a, b, rfl, rfl⟩ := ih hs
      rw [hs] at h
      exact ⟨c :: a, b, rfl, by rw [byteLen_cons]; exact Option.some.inj h⟩
    | none =>
      rw [hs] at h
      dsimp only at h
      split_ifs at h with ht
      obtain ⟨b, hb⟩ := ht
      exact ⟨[], b, hb.symm, Option.some.inj h⟩

/-- A text that occurs only once from some place on is found there. -/
theorem rfindText_append {t b : List Char}
    (hb : ∀ a r, t ++ b = a ++ t ++ r → a = []) (a : List Char) :
    rfindText t (a ++ t ++ b) = some (byteLen a) := by
  induction a with
  | nil =>
    rw [List.nil_append, byteLen_nil]
    cases hs : t ++ b with
    | nil =>
      rw [rfindText, if_pos (List.append_eq_nil_iff.mp hs).1]
    | cons c s =>
      have hlater : rfindText t s = none := by
        rw [Option.eq_none_iff_forall_ne_some]
        intro i hi
        obtain ⟨x, y, rfl, -⟩ := rfindText_eq_some hi
        exact List.cons_ne_nil c x (hb (c :: x) y (by rw [hs]; simp))
      rw [rfindText, hlater]
      exact if_pos ⟨b, hs⟩
  | cons c a ih => rw [List.cons_append, List.cons_append, rfindText, ih, byteLen_cons]

/-! ## White space -/

/-- The characters with the Unicode property `White_Space`. -/
def isWhitespace (c : Char) : Bool :=
  let n := c.toNat
  (0x9 ≤ n && n ≤ 0xD) || n == 0x20 || n == 0x85 || n == 0xA0 || n == 0x1680 ||
    (0x2000 ≤ n && n ≤ 0x200A) || n == 0x2028 || n == 0x2029 || n == 0x202F || n == 0x205F ||
    n == 0x3000

/-- Printable characters of ASCII are no white space. -/
theorem isWhitespace_eq_false {c : Char} (hlow : 0x20 < c.toNat) (hhigh : c.toNat < 0x80) :
    isWhitespace c = false := by
  simp only [isWhitespace, Bool.or_eq_false_iff, Bool.and_eq_false_iff, beq_eq_false_iff_ne,
    decide_eq_false_iff_not]
  omega

/-- A text without the white space at its start. -/
def trimStart (s : List Char) : List Char := s.dropWhile isWhitespace

/-- A text without the white space at its two ends. -/
def trim (s : List Char) : List Char := (trimStart s).rdropWhile isWhitespace

/-- Text that starts and ends with something else than white space is left as it is. -/
theorem trim_eq_self {s : List Char} (hhead : ∀ c ∈ s.head?, isWhitespace c = false)
    (hlast : ∀ c ∈ s.getLast?, isWhitespace c = false) : trim s = s := by
  have hstart : trimStart s = s := by
    cases s with
    | nil => rfl
    | cons c s =>
      exact List.dropWhile_cons_of_neg (Bool.eq_false_iff.mp (hhead c rfl))
  rw [trim, hstart, List.rdropWhile_eq_self_iff]
  intro hne
  exact Bool.eq_false_iff.mp (hlast _ (List.getLast?_eq_some_getLast hne))

/-- Trimming takes nothing off a text that starts and ends with something else than white space,
whatever comes after it. -/
theorem prefix_trim_append {s : List Char} (hne : s ≠ [])
    (hhead : ∀ c ∈ s.head?, isWhitespace c = false)
    (hlast : ∀ c ∈ s.getLast?, isWhitespace c = false) (t : List Char) : s <+: trim (s ++ t) := by
  have hstart : trimStart (s ++ t) = s ++ t := by
    obtain ⟨c, s, rfl⟩ := List.exists_cons_of_ne_nil hne
    exact List.dropWhile_cons_of_neg (Bool.eq_false_iff.mp (hhead c rfl))
  have hself : s.rdropWhile isWhitespace = s := by
    rw [List.rdropWhile_eq_self_iff]
    intro hne
    exact Bool.eq_false_iff.mp (hlast _ (List.getLast?_eq_some_getLast hne))
  rw [trim, hstart]
  clear hstart
  induction t using List.reverseRecOn with
  | nil =>
    exact ⟨[], by rw [List.append_nil, hself]⟩
  | append_singleton t c ih =>
    rw [← List.append_assoc]
    by_cases hc : isWhitespace c
    · rw [List.rdropWhile_concat_pos _ _ _ hc]
      exact ih
    · rw [List.rdropWhile_concat_neg _ _ _ hc, List.append_assoc]
      exact List.prefix_append _ _

theorem isWhitespace_getLast_trim {s : List Char} {c : Char} (h : c ∈ (trim s).getLast?) :
    isWhitespace c = false := by
  have hne : trim s ≠ [] := by
    rintro hnil
    rw [hnil] at h
    simp at h
  rw [List.getLast?_eq_some_getLast hne, Option.mem_some_iff] at h
  rw [← h]
  exact Bool.eq_false_iff.mpr (List.rdropWhile_last_not _ _ hne)

/-- `dropPrefix?` in terms of equality. -/
theorem dropPrefix?_eq_some {s t r : List Char} : s.dropPrefix? t = some r ↔ s = t ++ r := by
  rw [List.dropPrefix?_eq_some_iff]
  constructor
  · rintro ⟨t', rfl, ht⟩
    rw [beq_iff_eq.mp ht]
  · rintro rfl
    exact ⟨t, rfl, beq_self_eq_true t⟩

theorem dropPrefix?_eq_none {s t : List Char} (h : ∀ r, s ≠ t ++ r) : s.dropPrefix? t = none := by
  rw [Option.eq_none_iff_forall_ne_some]
  exact fun r hr ↦ h r (dropPrefix?_eq_some.mp hr)

/-- A prefix that starts with another character is none. -/
theorem dropPrefix?_of_head_ne {s t : List Char} {c d : Char} (hs : s.head? = some c)
    (ht : t.head? = some d) (hne : c ≠ d) : s.dropPrefix? t = none := by
  refine dropPrefix?_eq_none fun r h ↦ hne ?_
  obtain ⟨t', rfl⟩ := List.head?_eq_some_iff.mp ht
  rw [h] at hs
  exact (Option.some.inj hs).symm

/-- What holds of the characters of a text is decided character by character. -/
theorem forall_mem_of_all {P : Char → Prop} [DecidablePred P] {s : List Char}
    (h : (s.all fun c ↦ decide (P c)) = true) : ∀ c ∈ s, P c :=
  fun c hc ↦ of_decide_eq_true (List.all_eq_true.mp h c hc)

end Utf8Text
