import Kmux.Lib.Framing
import Mathlib.Data.Nat.Notation

/-!
# Reading mouse reports

What a program that asked its terminal for mouse tracking reads back, in the two encodings there
are. An X10 report is three bytes after `ESC [ M`: the button and the two coordinates. An SGR report
is three decimal numbers after `ESC [ <`, with `M` at the end for a press or a motion and `m` for a
release. Both are readers of self-delimiting frames, so a run of reports is read as the list of
them.
-/

namespace MouseReports

/-! ## X10 reports -/

/-- The bytes of an X10 report: the button, the column and the row. -/
structure X10Report where
  cb : UInt8
  cx : UInt8
  cy : UInt8

def readX10 : List UInt8 → Except Unit (Option (X10Report × List UInt8))
  | [] => .ok none
  | esc :: bracket :: kind :: cb :: cx :: cy :: rest =>
    if [esc, bracket, kind] = [0x1b, 0x5b, 0x4d] then .ok (some (⟨cb, cx, cy⟩, rest))
    else .error ()
  | _ :: _ => .error ()

theorem length_lt_of_readX10 {bytes : List UInt8} {r : X10Report} {rest : List UInt8}
    (h : readX10 bytes = .ok (some (r, rest))) : rest.length < bytes.length := by
  unfold readX10 at h
  split at h
  · cases h
  · split at h
    · cases h
      simp only [List.length_cons]
      omega
    · cases h
  · cases h

def x10Reader : FrameReader UInt8 X10Report Unit where
  read := readX10
  read_nil := rfl
  length_lt := length_lt_of_readX10

theorem isFrame_x10 (cb cx cy : UInt8) :
    x10Reader.IsFrame [0x1b, 0x5b, 0x4d, cb, cx, cy] ⟨cb, cx, cy⟩ := by
  intro rest
  change readX10 (0x1b :: 0x5b :: 0x4d :: cb :: cx :: cy :: rest) = _
  rw [readX10, if_pos rfl]

/-! ## Decimal numbers -/

/-- A number in decimal, one byte a digit. -/
def decimal (n : ℕ) : List UInt8 := (Nat.toDigits 10 n).map fun c ↦ UInt8.ofNat c.toNat

def isDigit (b : UInt8) : Bool := 48 ≤ b.toNat && b.toNat ≤ 57

def number (digits : List UInt8) : ℕ := digits.foldl (fun n b ↦ 10 * n + (b.toNat - 48)) 0

/-- A number, the byte that ended it, and what follows. -/
def readNumber (bytes : List UInt8) : Option (ℕ × UInt8 × List UInt8) :=
  match bytes.dropWhile isDigit with
  | [] => none
  | stop :: rest => some (number (bytes.takeWhile isDigit), stop, rest)

theorem length_lt_of_readNumber {bytes : List UInt8} {n : ℕ} {stop : UInt8} {rest : List UInt8}
    (h : readNumber bytes = some (n, stop, rest)) : rest.length < bytes.length := by
  have hle := (List.dropWhile_suffix isDigit (l := bytes)).length_le
  rw [readNumber] at h
  split at h
  · cases h
  · next hdrop =>
    cases h
    rw [hdrop, List.length_cons] at hle
    omega

/-- A digit's code fits a byte. -/
theorem toNat_digit {n : ℕ} {c : Char} (hc : c ∈ Nat.toDigits 10 n) :
    (UInt8.ofNat c.toNat).toNat = c.toNat ∧ 48 ≤ c.toNat ∧ c.toNat ≤ 57 := by
  have hdigit := Char.isDigit_iff_toNat.mp (Nat.isDigit_of_mem_toDigits (by omega) (by omega) hc)
  change 48 ≤ c.toNat ∧ c.toNat ≤ 57 at hdigit
  refine ⟨?_, hdigit⟩
  rw [UInt8.toNat_ofNat', Nat.mod_eq_of_lt (by omega)]

theorem isDigit_of_mem_decimal {n : ℕ} {b : UInt8} (hb : b ∈ decimal n) : isDigit b = true := by
  obtain ⟨c, hc, rfl⟩ := List.mem_map.mp hb
  obtain ⟨hbyte, hlo, hhi⟩ := toNat_digit hc
  rw [isDigit, hbyte, Bool.and_eq_true, decide_eq_true_iff, decide_eq_true_iff]
  exact ⟨hlo, hhi⟩

theorem number_decimal (n : ℕ) : number (decimal n) = n := by
  have hfold : ∀ (cs : List Char), (∀ c ∈ cs, (UInt8.ofNat c.toNat).toNat = c.toNat) →
      ∀ v, (cs.map fun c ↦ UInt8.ofNat c.toNat).foldl (fun n b ↦ 10 * n + (b.toNat - 48)) v
        = Nat.ofDigitChars 10 cs v := by
    intro cs
    induction cs with
    | nil => intro _ v; rfl
    | cons c cs ih =>
      intro hcs v
      rw [List.map_cons, List.foldl_cons, hcs c List.mem_cons_self, Nat.ofDigitChars_cons]
      exact ih (fun c' hc' ↦ hcs c' (List.mem_cons_of_mem c hc')) _
  rw [number, decimal, hfold _ (fun c hc ↦ (toNat_digit hc).1), Nat.ofDigitChars_ten_toDigits]

theorem readNumber_decimal (n : ℕ) {stop : UInt8} (hstop : isDigit stop = false)
    (rest : List UInt8) : readNumber (decimal n ++ stop :: rest) = some (n, stop, rest) := by
  have hdigits : ∀ b ∈ decimal n, isDigit b = true := fun b ↦ isDigit_of_mem_decimal
  rw [readNumber, List.dropWhile_append_of_pos hdigits,
    List.dropWhile_cons_of_neg (by simp [hstop]), List.takeWhile_append_of_pos hdigits,
    List.takeWhile_cons_of_neg (by simp [hstop]), List.append_nil, number_decimal]

/-! ## SGR reports -/

/-- The numbers of an SGR report, and whether it reports a release. -/
structure SgrReport where
  cb : ℕ
  x : ℕ
  y : ℕ
  release : Bool

/-- What follows `ESC [ <`. -/
def readParams (bytes : List UInt8) : Option (SgrReport × List UInt8) :=
  (readNumber bytes).bind fun (cb, sep, bytes) ↦
    if sep = 0x3b then
      (readNumber bytes).bind fun (x, sep, bytes) ↦
        if sep = 0x3b then
          (readNumber bytes).bind fun (y, last, bytes) ↦
            if last = 0x4d ∨ last = 0x6d then some (⟨cb, x, y, last = 0x6d⟩, bytes) else none
        else none
    else none

def readSgr : List UInt8 → Except Unit (Option (SgrReport × List UInt8))
  | [] => .ok none
  | esc :: bracket :: kind :: bytes =>
    if [esc, bracket, kind] = [0x1b, 0x5b, 0x3c] then
      match readParams bytes with
      | some r => .ok (some r)
      | none => .error ()
    else .error ()
  | _ :: _ => .error ()

theorem length_lt_of_readParams {bytes : List UInt8} {r : SgrReport} {rest : List UInt8}
    (h : readParams bytes = some (r, rest)) : rest.length < bytes.length := by
  rw [readParams, Option.bind_eq_some_iff] at h
  obtain ⟨⟨cb, sep, bytes₁⟩, h₁, h⟩ := h
  rw [Option.ite_none_right_eq_some, Option.bind_eq_some_iff] at h
  obtain ⟨-, ⟨x, sep', bytes₂⟩, h₂, h⟩ := h
  rw [Option.ite_none_right_eq_some, Option.bind_eq_some_iff] at h
  obtain ⟨-, ⟨y, last, bytes₃⟩, h₃, h⟩ := h
  rw [Option.ite_none_right_eq_some] at h
  cases h.2
  have hlt₁ := length_lt_of_readNumber h₁
  have hlt₂ := length_lt_of_readNumber h₂
  have hlt₃ := length_lt_of_readNumber h₃
  omega

theorem length_lt_of_readSgr {bytes : List UInt8} {r : SgrReport} {rest : List UInt8}
    (h : readSgr bytes = .ok (some (r, rest))) : rest.length < bytes.length := by
  unfold readSgr at h
  split at h
  · cases h
  · split at h
    · split at h
      · next hparams =>
        cases h
        have := length_lt_of_readParams hparams
        simp only [List.length_cons]
        omega
      · cases h
    · cases h
  · cases h

def sgrReader : FrameReader UInt8 SgrReport Unit where
  read := readSgr
  read_nil := rfl
  length_lt := length_lt_of_readSgr

theorem isFrame_sgr (cb x y : ℕ) {last : UInt8} (hlast : last = 0x4d ∨ last = 0x6d) :
    sgrReader.IsFrame
      ([0x1b, 0x5b, 0x3c] ++ decimal cb ++ [0x3b] ++ decimal x ++ [0x3b] ++ decimal y ++ [last])
      ⟨cb, x, y, last = 0x6d⟩ := by
  intro rest
  have hsep : isDigit 0x3b = false := rfl
  have hstop : isDigit last = false := by
    rcases hlast with rfl | rfl <;> rfl
  have hparams : readParams
      (decimal cb ++ 0x3b :: (decimal x ++ 0x3b :: (decimal y ++ last :: rest)))
      = some (⟨cb, x, y, last = 0x6d⟩, rest) := by
    rw [readParams, readNumber_decimal cb hsep, Option.bind_some]
    dsimp only
    rw [if_pos rfl, readNumber_decimal x hsep, Option.bind_some]
    dsimp only
    rw [if_pos rfl, readNumber_decimal y hstop, Option.bind_some]
    exact if_pos hlast
  simp only [List.append_assoc, List.cons_append, List.nil_append]
  change readSgr (0x1b :: 0x5b :: 0x3c :: _) = _
  rw [readSgr, if_pos rfl, hparams]

end MouseReports
