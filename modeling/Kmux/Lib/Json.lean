import Mathlib.Data.Char
import Mathlib.Data.List.Lex
import Mathlib.Data.Nat.Notation

/-!
# JSON texts

A text is read one character at a time by a machine with a stack. The frames of the stack are the
arrays and objects that wait for a value, and the mode is what the machine is in the middle of. How
numbers are represented is a parameter, and so is how deep arrays and objects may be nested.

The machine makes its values by adding to arrays and inserting into objects and never looks at them
again. So a rewriting of values that replaces the members under certain keys goes along with every
step, `step_replace`, and what was in a replaced member makes no difference to the outcome,
`parseFrom_text`.
-/

namespace Json

universe u

/-- A JSON value; the members of an object are kept in the order of their keys. -/
inductive Value (ν : Type u)
  | null
  | bool (b : Bool)
  | number (n : ν)
  | string (s : List Char)
  | array (elems : List (Value ν))
  | object (members : List (List Char × Value ν))

variable {ν : Type u}

/-- Insert a member, in place of one with the same key. -/
def insertMember (key : List Char) (v : Value ν) :
    List (List Char × Value ν) → List (List Char × Value ν)
  | [] => [(key, v)]
  | (k, w) :: members =>
    if key = k then (key, v) :: members
    else if key < k then (key, v) :: (k, w) :: members
    else (k, w) :: insertMember key v members

/-! ## Replacing members -/

section Replace

variable (g : List Char → Option (Value ν))

mutual

/-- Put `g key` in place of every member whose key has one. -/
def replace : Value ν → Value ν
  | .array elems => .array (replaceElems elems)
  | .object members => .object (replaceMembers members)
  | .null => .null
  | .bool b => .bool b
  | .number n => .number n
  | .string s => .string s

def replaceElems : List (Value ν) → List (Value ν)
  | [] => []
  | v :: elems => replace v :: replaceElems elems

def replaceMembers : List (List Char × Value ν) → List (List Char × Value ν)
  | [] => []
  | (key, v) :: members => (key, (g key).getD (replace v)) :: replaceMembers members

end

mutual

@[simp] theorem replace_replace : ∀ v : Value ν, replace g (replace g v) = replace g v
  | .array elems => by rw [replace, replace, replaceElems_replaceElems elems]
  | .object members => by rw [replace, replace, replaceMembers_replaceMembers members]
  | .null => rfl
  | .bool _ => rfl
  | .number _ => rfl
  | .string _ => rfl

@[simp] theorem replaceElems_replaceElems :
    ∀ elems : List (Value ν), replaceElems g (replaceElems g elems) = replaceElems g elems
  | [] => rfl
  | v :: elems => by
    rw [replaceElems, replaceElems, replace_replace v, replaceElems_replaceElems elems]

@[simp] theorem replaceMembers_replaceMembers :
    ∀ members : List (List Char × Value ν),
      replaceMembers g (replaceMembers g members) = replaceMembers g members
  | [] => rfl
  | (key, v) :: members => by
    rw [replaceMembers, replaceMembers, replaceMembers_replaceMembers members]
    cases g key with
    | none => rw [Option.getD_none, Option.getD_none, replace_replace v]
    | some w => rfl

end

theorem replaceElems_append (elems rest : List (Value ν)) :
    replaceElems g (elems ++ rest) = replaceElems g elems ++ replaceElems g rest := by
  induction elems with
  | nil => rfl
  | cons v elems ih => rw [List.cons_append, replaceElems, replaceElems, ih, List.cons_append]

theorem replaceMembers_insertMember (key : List Char) (v : Value ν)
    (members : List (List Char × Value ν)) :
    replaceMembers g (insertMember key v members) =
      insertMember key ((g key).getD (replace g v)) (replaceMembers g members) := by
  induction members with
  | nil => rfl
  | cons p members ih =>
    obtain ⟨k, w⟩ := p
    rw [replaceMembers, insertMember, insertMember]
    split_ifs with hkey hlt
    · rw [replaceMembers]
    · rw [replaceMembers, replaceMembers]
    · rw [replaceMembers, ih]

end Replace

/-! ## Strings -/

/-- Where in a string the machine is: after a backslash, in a `\u` with some of its digits read, or
before the escape that completes a surrogate pair. -/
inductive Escape
  | plain
  | backslash (high : Option ℕ)
  | unicode (high : Option ℕ) (read value : ℕ)
  | low (high : ℕ)

/-- What a character does to a string. -/
inductive TextMove
  | push (chars : List Char) (esc : Escape)
  | close

def hexValue (c : Char) : Option ℕ :=
  let n := c.toNat
  if 48 ≤ n ∧ n ≤ 57 then some (n - 48)
  else if 97 ≤ n ∧ n ≤ 102 then some (n - 87)
  else if 65 ≤ n ∧ n ≤ 70 then some (n - 55)
  else none

/-- A `\u` escape has been read; surrogates come in pairs. -/
def unicodeEnd (high : Option ℕ) (value : ℕ) : Option TextMove :=
  match high with
  | none =>
    if 0xD800 ≤ value ∧ value < 0xDC00 then some (.push [] (.low value))
    else if 0xDC00 ≤ value ∧ value < 0xE000 then none
    else some (.push [Char.ofNat value] .plain)
  | some high =>
    if 0xDC00 ≤ value ∧ value < 0xE000 then
      some (.push [Char.ofNat (0x10000 + (high - 0xD800) * 0x400 + (value - 0xDC00))] .plain)
    else none

def textMove : Escape → Char → Option TextMove
  | .plain, c =>
    if c = '"' then some .close
    else if c = '\\' then some (.push [] (.backslash none))
    else if c.toNat < 0x20 then none
    else some (.push [c] .plain)
  | .backslash high, c =>
    if c = 'u' then some (.push [] (.unicode high 0 0))
    else if high.isSome then none
    else if c = '"' ∨ c = '\\' ∨ c = '/' then some (.push [c] .plain)
    else if c = 'b' then some (.push [Char.ofNat 0x8] .plain)
    else if c = 'f' then some (.push [Char.ofNat 0xC] .plain)
    else if c = 'n' then some (.push ['\n'] .plain)
    else if c = 'r' then some (.push ['\r'] .plain)
    else if c = 't' then some (.push ['\t'] .plain)
    else none
  | .unicode high read value, c =>
    (hexValue c).bind fun digit ↦
      if read = 3 then unicodeEnd high (value * 16 + digit)
      else some (.push [] (.unicode high (read + 1) (value * 16 + digit)))
  | .low high, c => if c = '\\' then some (.push [] (.backslash (some high))) else none

/-! ## The machine -/

/-- An array or an object that waits for a value. -/
inductive Frame (ν : Type u)
  | array (elems : List (Value ν))
  | object (members : List (List Char × Value ν)) (key : List Char)

/-- Where the machine is after a value. -/
inductive Next (ν : Type u)
  | array (elems : List (Value ν))
  | object (members : List (List Char × Value ν))
  | finished (v : Value ν)

inductive Literal
  | null
  | true
  | false

namespace Literal

def text : Literal → List Char
  | null => ['n', 'u', 'l', 'l']
  | true => ['t', 'r', 'u', 'e']
  | false => ['f', 'a', 'l', 's', 'e']

def value : Literal → Value ν
  | null => .null
  | true => .bool Bool.true
  | false => .bool Bool.false

end Literal

/-- What the machine is in the middle of. -/
inductive Mode (ν : Type u)
  | value
  | arrayFirst
  | objectFirst
  | objectKey (members : List (List Char × Value ν))
  | key (members : List (List Char × Value ν)) (buf : List Char) (esc : Escape)
  | colon (members : List (List Char × Value ν)) (key : List Char)
  | text (buf : List Char) (esc : Escape)
  | literal (l : Literal) (read : ℕ)
  | number (digits : List Char)
  | next (n : Next ν)

structure State (ν : Type u) where
  stack : List (Frame ν)
  mode : Mode ν

def isSpace (c : Char) : Bool := c == ' ' || c == '\t' || c == '\n' || c == '\r'

def isNumberChar (c : Char) : Bool :=
  c.isDigit || c == '-' || c == '+' || c == '.' || c == 'e' || c == 'E'

/-- A value goes into the innermost array or object. -/
def close (stack : List (Frame ν)) (v : Value ν) : State ν :=
  match stack with
  | [] => ⟨[], .next (.finished v)⟩
  | .array elems :: stack => ⟨stack, .next (.array (elems ++ [v]))⟩
  | .object members key :: stack => ⟨stack, .next (.object (insertMember key v members))⟩

/-- After a value. -/
def stepNext (stack : List (Frame ν)) (n : Next ν) (c : Char) : Option (State ν) :=
  if isSpace c then some ⟨stack, .next n⟩
  else
    match n with
    | .array elems =>
      if c = ',' then some ⟨.array elems :: stack, .value⟩
      else if c = ']' then some (close stack (.array elems))
      else none
    | .object members =>
      if c = ',' then some ⟨stack, .objectKey members⟩
      else if c = '}' then some (close stack (.object members))
      else none
    | .finished _ => none

/-- After the whole text. -/
def Next.finish? : Next ν → Option (Value ν)
  | .finished v => some v
  | _ => none

section Machine

variable (limit : ℕ) (readNumber : List Char → Option ν)

/-- At the start of a value. -/
def stepValue (stack : List (Frame ν)) (c : Char) : Option (State ν) :=
  if c = '"' then some ⟨stack, .text [] .plain⟩
  else if c = '[' then if stack.length + 1 < limit then some ⟨stack, .arrayFirst⟩ else none
  else if c = '{' then if stack.length + 1 < limit then some ⟨stack, .objectFirst⟩ else none
  else if c = 'n' then some ⟨stack, .literal .null 1⟩
  else if c = 't' then some ⟨stack, .literal .true 1⟩
  else if c = 'f' then some ⟨stack, .literal .false 1⟩
  else if c.isDigit ∨ c = '-' then some ⟨stack, .number [c]⟩
  else none

/-- A number ends at the first character that cannot be part of one. -/
def closeNumber (stack : List (Frame ν)) (digits : List Char) : Option (State ν) :=
  (readNumber digits).map fun n ↦ close stack (.number n)

/-- The character that has ended a number. -/
def stepAfter (c : Char) (s : State ν) : Option (State ν) :=
  match s.mode with
  | .next n => stepNext s.stack n c
  | _ => none

/-- The value of a text that ends here. -/
def finishAfter (s : State ν) : Option (Value ν) :=
  match s.mode with
  | .next n => n.finish?
  | _ => none

def step (s : State ν) (c : Char) : Option (State ν) :=
  match s.mode with
  | .value => if isSpace c then some s else stepValue limit s.stack c
  | .arrayFirst =>
    if isSpace c then some s
    else if c = ']' then some (close s.stack (.array []))
    else stepValue limit (.array [] :: s.stack) c
  | .objectFirst =>
    if isSpace c then some s
    else if c = '"' then some ⟨s.stack, .key [] [] .plain⟩
    else if c = '}' then some (close s.stack (.object []))
    else none
  | .objectKey members =>
    if isSpace c then some s
    else if c = '"' then some ⟨s.stack, .key members [] .plain⟩
    else none
  | .key members buf esc =>
    (textMove esc c).map fun
      | .push chars esc => ⟨s.stack, .key members (buf ++ chars) esc⟩
      | .close => ⟨s.stack, .colon members buf⟩
  | .colon members key =>
    if isSpace c then some s
    else if c = ':' then some ⟨.object members key :: s.stack, .value⟩
    else none
  | .text buf esc =>
    (textMove esc c).map fun
      | .push chars esc => ⟨s.stack, .text (buf ++ chars) esc⟩
      | .close => close s.stack (.string buf)
  | .literal l read =>
    if l.text[read]? = some c then
      if read + 1 = l.text.length then some (close s.stack l.value)
      else some ⟨s.stack, .literal l (read + 1)⟩
    else none
  | .number digits =>
    if isNumberChar c then some ⟨s.stack, .number (digits ++ [c])⟩
    else (closeNumber readNumber s.stack digits).bind (stepAfter c)
  | .next n => stepNext s.stack n c

def run (s : State ν) (text : List Char) : Option (State ν) :=
  text.foldlM (step limit readNumber) s

/-- The value at the end of the text. -/
def finish (s : State ν) : Option (Value ν) :=
  match s.mode with
  | .number digits => (closeNumber readNumber s.stack digits).bind finishAfter
  | _ => finishAfter s

/-- The value of the rest of a text. -/
def parseFrom (s : State ν) (text : List Char) : Option (Value ν) :=
  (run limit readNumber s text).bind (finish readNumber)

def parse (text : List Char) : Option (Value ν) := parseFrom limit readNumber ⟨[], .value⟩ text

end Machine

/-! ## Rewriting along a run -/

section Replace

variable (g : List Char → Option (Value ν))

def Frame.replace : Frame ν → Frame ν
  | .array elems => .array (replaceElems g elems)
  | .object members key => .object (replaceMembers g members) key

def Next.replace : Next ν → Next ν
  | .array elems => .array (replaceElems g elems)
  | .object members => .object (replaceMembers g members)
  | .finished v => .finished (Json.replace g v)

def Mode.replace : Mode ν → Mode ν
  | .value => .value
  | .arrayFirst => .arrayFirst
  | .objectFirst => .objectFirst
  | .objectKey members => .objectKey (replaceMembers g members)
  | .key members buf esc => .key (replaceMembers g members) buf esc
  | .colon members k => .colon (replaceMembers g members) k
  | .text buf esc => .text buf esc
  | .literal l read => .literal l read
  | .number digits => .number digits
  | .next n => .next (n.replace g)

def State.replace (s : State ν) : State ν := ⟨s.stack.map (Frame.replace g), s.mode.replace g⟩

@[simp] theorem Frame.replace_replace (f : Frame ν) : (f.replace g).replace g = f.replace g := by
  cases f <;> simp [Frame.replace]

@[simp] theorem Frame.replace_comp_replace :
    Frame.replace g ∘ Frame.replace g = Frame.replace (ν := ν) g := by
  funext f
  exact f.replace_replace g

@[simp] theorem Next.replace_replace (n : Next ν) : (n.replace g).replace g = n.replace g := by
  cases n <;> simp [Next.replace]

@[simp] theorem Mode.replace_replace (m : Mode ν) : (m.replace g).replace g = m.replace g := by
  cases m <;> simp [Mode.replace]

@[simp] theorem State.replace_replace (s : State ν) : (s.replace g).replace g = s.replace g := by
  simp [State.replace]

/-- The value goes to the same place, and there the key decides whether it is seen. -/
theorem close_replace (stack : List (Frame ν)) (v : Value ν) :
    (close (stack.map (Frame.replace g)) (replace g v)).replace g = (close stack v).replace g := by
  cases stack with
  | nil => simp [close, State.replace, Mode.replace, Next.replace]
  | cons f stack =>
    cases f with
    | array elems =>
      simp [close, State.replace, Mode.replace, Next.replace, Frame.replace, replaceElems_append,
        replaceElems]
    | object members key =>
      simp [close, State.replace, Mode.replace, Next.replace, Frame.replace,
        replaceMembers_insertMember]

theorem stepNext_replace (stack : List (Frame ν)) (n : Next ν) (c : Char) :
    (stepNext (stack.map (Frame.replace g)) (n.replace g) c).map (State.replace g) =
      (stepNext stack n c).map (State.replace g) := by
  cases n with
  | array elems =>
    simp only [Next.replace, stepNext]
    split_ifs
    · simp [State.replace, Mode.replace, Next.replace]
    · simp [State.replace, Mode.replace, Frame.replace]
    · exact congrArg some (close_replace g stack (.array elems))
    · rfl
  | object members =>
    simp only [Next.replace, stepNext]
    split_ifs
    · simp [State.replace, Mode.replace, Next.replace]
    · simp [State.replace, Mode.replace]
    · exact congrArg some (close_replace g stack (.object members))
    · rfl
  | finished v =>
    simp only [Next.replace, stepNext]
    split_ifs
    · simp [State.replace, Mode.replace, Next.replace]
    · rfl

private theorem map_ite_congr {α β : Type*} {f : α → β} {p : Prop} [Decidable p]
    {a a' b b' : Option α} (ha : a.map f = a'.map f) (hb : b.map f = b'.map f) :
    (if p then a else b).map f = (if p then a' else b').map f := by
  split
  · exact ha
  · exact hb

theorem stepValue_replace (limit : ℕ) (stack : List (Frame ν)) (c : Char) :
    (stepValue limit (stack.map (Frame.replace g)) c).map (State.replace g) =
      (stepValue limit stack c).map (State.replace g) := by
  have hmode : ∀ m : Mode ν,
      (some (⟨stack.map (Frame.replace g), m⟩ : State ν)).map (State.replace g) =
        (some (⟨stack, m⟩ : State ν)).map (State.replace g) := by
    intro m
    simp [State.replace]
  rw [stepValue, stepValue, List.length_map]
  exact map_ite_congr (hmode _) (map_ite_congr (map_ite_congr (hmode _) rfl)
    (map_ite_congr (map_ite_congr (hmode _) rfl) (map_ite_congr (hmode _)
      (map_ite_congr (hmode _) (map_ite_congr (hmode _) (map_ite_congr (hmode _) rfl))))))

theorem stepAfter_replace (c : Char) (s : State ν) :
    (stepAfter c (s.replace g)).map (State.replace g) = (stepAfter c s).map (State.replace g) := by
  obtain ⟨stack, m⟩ := s
  cases m with
  | next n => exact stepNext_replace g stack n c
  | _ => rfl

/-- Whatever depends on no replaced member comes out the same after a number. -/
theorem closeNumber_bind {β : Type*} {f : State ν → Option β} (hf : ∀ s, f (s.replace g) = f s)
    (readNumber : List Char → Option ν) (stack : List (Frame ν)) (digits : List Char) :
    (closeNumber readNumber (stack.map (Frame.replace g)) digits).bind f =
      (closeNumber readNumber stack digits).bind f := by
  rw [closeNumber, closeNumber]
  cases readNumber digits with
  | none => rfl
  | some n =>
    have h := close_replace g stack (.number n)
    rw [replace] at h
    rw [Option.map_some, Option.map_some, Option.bind_some, Option.bind_some, ← hf, h, hf]

theorem step_replace (limit : ℕ) (readNumber : List Char → Option ν) (s : State ν) (c : Char) :
    (step limit readNumber (s.replace g) c).map (State.replace g) =
      (step limit readNumber s c).map (State.replace g) := by
  obtain ⟨stack, m⟩ := s
  cases m with
  | value =>
    simp only [step, State.replace, Mode.replace]
    split_ifs
    · simp [State.replace, Mode.replace]
    · exact stepValue_replace g limit stack c
  | arrayFirst =>
    simp only [step, State.replace, Mode.replace]
    split_ifs
    · simp [State.replace, Mode.replace]
    · exact congrArg some (close_replace g stack (.array []))
    · exact stepValue_replace g limit (.array [] :: stack) c
  | objectFirst =>
    simp only [step, State.replace, Mode.replace]
    split_ifs
    · simp [State.replace, Mode.replace]
    · simp [State.replace, Mode.replace]
    · exact congrArg some (close_replace g stack (.object []))
    · rfl
  | objectKey members =>
    simp only [step, State.replace, Mode.replace]
    split_ifs
    · simp [State.replace, Mode.replace]
    · simp [State.replace, Mode.replace]
    · rfl
  | key members buf esc =>
    simp only [step, State.replace, Mode.replace, Option.map_map]
    refine congrArg (Option.map · (textMove esc c)) (funext fun move ↦ ?_)
    cases move <;> simp [State.replace, Mode.replace]
  | colon members key =>
    simp only [step, State.replace, Mode.replace]
    split_ifs
    · simp [State.replace, Mode.replace]
    · simp [State.replace, Mode.replace, Frame.replace]
    · rfl
  | text buf esc =>
    simp only [step, State.replace, Mode.replace, Option.map_map]
    refine congrArg (Option.map · (textMove esc c)) (funext fun move ↦ ?_)
    cases move with
    | push chars esc => simp [State.replace, Mode.replace]
    | close => exact close_replace g stack (.string buf)
  | literal l read =>
    simp only [step, State.replace, Mode.replace]
    split_ifs
    · have hvalue : replace g (l.value : Value ν) = l.value := by cases l <;> rfl
      have h := close_replace g stack l.value
      rw [hvalue] at h
      exact congrArg some h
    · simp [State.replace, Mode.replace]
    · rfl
  | number digits =>
    simp only [step, State.replace, Mode.replace]
    split_ifs
    · simp [State.replace, Mode.replace]
    · rw [Option.map_bind, Option.map_bind]
      exact closeNumber_bind g (f := fun s ↦ (stepAfter c s).map (State.replace g))
        (stepAfter_replace g c) readNumber stack digits
  | next n => exact stepNext_replace g stack n c

variable (limit : ℕ) (readNumber : List Char → Option ν)

theorem run_replace (s : State ν) (text : List Char) :
    (run limit readNumber (s.replace g) text).map (State.replace g) =
      (run limit readNumber s text).map (State.replace g) := by
  induction text generalizing s with
  | nil => exact congrArg some (s.replace_replace g)
  | cons c text ih =>
    have h := step_replace g limit readNumber s c
    rw [run, run, List.foldlM_cons, List.foldlM_cons]
    cases hs : step limit readNumber s c with
    | none =>
      rw [hs, Option.map_none, Option.map_eq_none_iff] at h
      rw [h]
    | some t =>
      rw [hs, Option.map_some, Option.map_eq_some_iff] at h
      obtain ⟨t', ht', heq⟩ := h
      rw [ht']
      calc (run limit readNumber t' text).map (State.replace g)
          = (run limit readNumber (t'.replace g) text).map (State.replace g) := (ih t').symm
        _ = (run limit readNumber (t.replace g) text).map (State.replace g) := by rw [heq]
        _ = (run limit readNumber t text).map (State.replace g) := ih t

theorem finish_replace (s : State ν) :
    (finish readNumber (s.replace g)).map (replace g) = (finish readNumber s).map (replace g) := by
  have hafter : ∀ s : State ν,
      (finishAfter (s.replace g)).map (replace g) = (finishAfter s).map (replace g) := by
    rintro ⟨stack, m⟩
    cases m with
    | next n => cases n <;> simp [finishAfter, State.replace, Mode.replace, Next.replace,
        Next.finish?]
    | _ => rfl
  obtain ⟨stack, m⟩ := s
  cases m with
  | number digits =>
    simp only [finish, State.replace, Mode.replace, Option.map_bind]
    exact closeNumber_bind g (f := fun s ↦ (finishAfter s).map (replace g)) hafter readNumber
      stack digits
  | next n => exact hafter ⟨stack, .next n⟩
  | _ => rfl

/-- What differs only in replaced members comes to the same value. -/
theorem parseFrom_congr {s t : State ν} (h : s.replace g = t.replace g) (text : List Char) :
    (parseFrom limit readNumber s text).map (replace g) =
      (parseFrom limit readNumber t text).map (replace g) := by
  have hfrom : ∀ s : State ν, (parseFrom limit readNumber s text).map (replace g) =
      ((run limit readNumber s text).map (State.replace g)).bind fun t ↦
        (finish readNumber t).map (replace g) := by
    intro s
    rw [parseFrom, Option.map_bind, Option.bind_map]
    exact congrArg _ (funext fun t ↦ (finish_replace g readNumber t).symm)
  rw [hfrom, hfrom, ← run_replace, h, run_replace]

/-- A string under a replaced key may be any other one. -/
theorem parseFrom_text {key : List Char} {w : Value ν} (hkey : g key = some w)
    (members : List (List Char × Value ν)) (stack : List (Frame ν)) (buf buf' : List Char)
    (esc : Escape) (text : List Char) :
    (parseFrom limit readNumber ⟨.object members key :: stack, .text buf esc⟩ text).map
        (replace g) =
      (parseFrom limit readNumber ⟨.object members key :: stack, .text buf' esc⟩ text).map
        (replace g) := by
  induction text generalizing buf buf' esc with
  | nil => rfl
  | cons c text ih =>
    rw [parseFrom, parseFrom, run, run, List.foldlM_cons, List.foldlM_cons]
    simp only [step]
    cases textMove esc c with
    | none => rfl
    | some move =>
      cases move with
      | push chars esc => exact ih (buf ++ chars) (buf' ++ chars) esc
      | close =>
        refine parseFrom_congr g limit readNumber ?_ text
        simp [close, State.replace, Mode.replace, Next.replace, replaceMembers_insertMember, hkey]

end Replace

/-! ## Where the machine must be -/

/-- A character that stands for itself in a string. -/
def IsPlain (c : Char) : Prop := c ≠ '"' ∧ c ≠ '\\' ∧ 0x20 ≤ c.toNat

instance : DecidablePred IsPlain := fun c ↦
  inferInstanceAs (Decidable (c ≠ '"' ∧ c ≠ '\\' ∧ 0x20 ≤ c.toNat))

/-- A character that stands nowhere but in a value or a string. -/
def IsWordChar (c : Char) : Prop :=
  IsPlain c ∧ isSpace c = false ∧ c ≠ ',' ∧ c ≠ ':' ∧ c ≠ ']' ∧ c ≠ '}'

instance : DecidablePred IsWordChar := fun c ↦
  inferInstanceAs (Decidable
    (IsPlain c ∧ isSpace c = false ∧ c ≠ ',' ∧ c ≠ ':' ∧ c ≠ ']' ∧ c ≠ '}'))

section Position

variable (limit : ℕ) (readNumber : List Char → Option ν)

@[simp] theorem run_nil (s : State ν) : run limit readNumber s [] = some s := rfl

theorem run_cons (s : State ν) (c : Char) (text : List Char) :
    run limit readNumber s (c :: text) =
      (step limit readNumber s c).bind (run limit readNumber · text) := rfl

theorem run_append (s : State ν) (text rest : List Char) :
    run limit readNumber s (text ++ rest) =
      (run limit readNumber s text).bind (run limit readNumber · rest) :=
  List.foldlM_append

theorem parseFrom_append (s : State ν) (text rest : List Char) :
    parseFrom limit readNumber s (text ++ rest) =
      (run limit readNumber s text).bind (parseFrom limit readNumber · rest) := by
  rw [parseFrom, run_append, Option.bind_assoc]
  rfl

theorem textMove_plain {c : Char} (hc : IsPlain c) :
    textMove .plain c = some (.push [c] .plain) := by
  obtain ⟨hquote, hbackslash, hlow⟩ := hc
  rw [textMove, if_neg hquote, if_neg hbackslash, if_neg (Nat.not_lt.mpr hlow)]

theorem run_text_plain (stack : List (Frame ν)) (buf : List Char) {word : List Char}
    (hword : ∀ c ∈ word, IsPlain c) :
    run limit readNumber ⟨stack, .text buf .plain⟩ word =
      some ⟨stack, .text (buf ++ word) .plain⟩ := by
  induction word generalizing buf with
  | nil => rw [List.append_nil, run_nil]
  | cons c word ih =>
    rw [run_cons, step]
    simp only [textMove_plain (hword c List.mem_cons_self), Option.map_some, Option.bind_some]
    rw [ih (buf ++ [c]) fun d hd ↦ hword d (List.mem_cons_of_mem c hd), List.append_assoc,
      List.singleton_append]

theorem run_key_plain (stack : List (Frame ν)) (members : List (List Char × Value ν))
    (buf : List Char) {word : List Char} (hword : ∀ c ∈ word, IsPlain c) :
    run limit readNumber ⟨stack, .key members buf .plain⟩ word =
      some ⟨stack, .key members (buf ++ word) .plain⟩ := by
  induction word generalizing buf with
  | nil => rw [List.append_nil, run_nil]
  | cons c word ih =>
    rw [run_cons, step]
    simp only [textMove_plain (hword c List.mem_cons_self), Option.map_some, Option.bind_some]
    rw [ih (buf ++ [c]) fun d hd ↦ hword d (List.mem_cons_of_mem c hd), List.append_assoc,
      List.singleton_append]

theorem run_number (stack : List (Frame ν)) (digits : List Char) {more : List Char}
    (hmore : ∀ c ∈ more, c.isDigit = true) :
    run limit readNumber ⟨stack, .number digits⟩ more = some ⟨stack, .number (digits ++ more)⟩ := by
  induction more generalizing digits with
  | nil => rw [List.append_nil, run_nil]
  | cons c more ih =>
    have hc : isNumberChar c = true := by
      rw [isNumberChar, hmore c List.mem_cons_self]
      rfl
    rw [run_cons, step]
    simp only [hc, if_true, Option.bind_some]
    rw [ih (digits ++ [c]) fun d hd ↦ hmore d (List.mem_cons_of_mem c hd), List.append_assoc,
      List.singleton_append]

theorem textMove_comma {esc : Escape} {move : TextMove} (h : textMove esc ',' = some move) :
    move = .push [','] .plain := by
  cases esc with
  | plain => simpa [textMove] using h.symm
  | backslash high => simp [textMove] at h
  | unicode high read value =>
    have hnone : hexValue ',' = none := by decide
    simp [textMove, hnone] at h
  | low high => simp [textMove] at h

/-- A member or an element is expected. -/
inductive IsOpen : State ν → Prop
  | array (elems : List (Value ν)) (stack : List (Frame ν)) : IsOpen ⟨.array elems :: stack, .value⟩
  | object (members : List (List Char × Value ν)) (stack : List (Frame ν)) :
      IsOpen ⟨stack, .objectKey members⟩

theorem stepNext_comma {stack : List (Frame ν)} {n : Next ν} {t : State ν}
    (h : stepNext stack n ',' = some t) : IsOpen t := by
  have hspace : isSpace ',' = false := by decide
  cases n with
  | array elems =>
    obtain rfl := Option.some.inj (by simpa [stepNext, hspace] using h)
    exact .array elems stack
  | object members =>
    obtain rfl := Option.some.inj (by simpa [stepNext, hspace] using h)
    exact .object members stack
  | finished v => simp [stepNext, hspace] at h

theorem stepNext_word {c : Char} (hc : IsWordChar c) (stack : List (Frame ν)) (n : Next ν) :
    stepNext stack n c = none := by
  obtain ⟨-, hspace, hcomma, -, hbracket, hbrace⟩ := hc
  cases n <;> simp [stepNext, hspace, hcomma, hbracket, hbrace]

theorem exists_close (stack : List (Frame ν)) (v : Value ν) :
    ∃ stack' n, close stack v = ⟨stack', .next n⟩ := by
  cases stack with
  | nil => exact ⟨_, _, rfl⟩
  | cons f stack => cases f <;> exact ⟨_, _, rfl⟩

/-- The machine is in a string, in an array or at a key. -/
inductive InString (c : Char) : State ν → Prop
  | array (elems : List (Value ν)) (stack : List (Frame ν)) :
      InString c ⟨.array elems :: stack, .text [c] .plain⟩
  | object (members : List (List Char × Value ν)) (stack : List (Frame ν)) :
      InString c ⟨stack, .key members [c] .plain⟩

theorem IsOpen.inString {s t : State ν} {c : Char} (hs : IsOpen s) (hc : IsWordChar c)
    (h : run limit readNumber s ['"', c] = some t) : InString c t := by
  have hmove := textMove_plain hc.1
  have hspace : isSpace '"' = false := by decide
  cases hs with
  | array elems stack =>
    simp only [run_cons, step, hspace, stepValue, Option.bind_some, hmove, Option.map_some,
      run_nil, if_true, Bool.false_eq_true, if_false, Option.some.injEq, List.nil_append] at h
    exact h ▸ .array elems stack
  | object members stack =>
    simp only [run_cons, step, hspace, Option.bind_some, hmove, Option.map_some,
      run_nil, if_true, Bool.false_eq_true, if_false, Option.some.injEq, List.nil_append] at h
    exact h ▸ .object members stack

/-- After a comma, a quote and a letter the machine is in a string, in an array or at a key. Inside
a string the quote would have ended it, and no letter follows a string. -/
theorem inString_of_run {s t : State ν} {c : Char} (hc : IsWordChar c)
    (h : run limit readNumber s [',', '"', c] = some t) : InString c t := by
  rw [run_cons, Option.bind_eq_some_iff] at h
  obtain ⟨mid, hmid, h⟩ := h
  -- a string swallows the comma
  have hclosed : ∀ s' : State ν, step limit readNumber s' c = none →
      (step limit readNumber mid '"') = some s' → False := by
    intro s' hnone hstep
    rw [run_cons, hstep, Option.bind_some, run_cons, hnone] at h
    cases h
  obtain ⟨stack, m⟩ := s
  cases m with
  | value => simp [step, stepValue, isSpace] at hmid
  | arrayFirst => simp [step, stepValue, isSpace] at hmid
  | objectFirst => simp [step, isSpace] at hmid
  | objectKey members => simp [step, isSpace] at hmid
  | key members buf esc =>
    rw [step, Option.map_eq_some_iff] at hmid
    obtain ⟨move, hmove, rfl⟩ := hmid
    obtain rfl := textMove_comma hmove
    refine (hclosed ⟨stack, .colon members (buf ++ [','])⟩ ?_ rfl).elim
    obtain ⟨-, hspace, -, hcolon, -, -⟩ := hc
    simp [step, hspace, hcolon]
  | colon members key => simp [step, isSpace] at hmid
  | text buf esc =>
    rw [step, Option.map_eq_some_iff] at hmid
    obtain ⟨move, hmove, rfl⟩ := hmid
    obtain rfl := textMove_comma hmove
    refine (hclosed (close stack (.string (buf ++ [',']))) ?_ rfl).elim
    obtain ⟨stack', n, heq⟩ := exists_close stack (.string (buf ++ [',']))
    rw [heq]
    exact stepNext_word hc stack' n
  | literal l read =>
    have hne : l.text[read]? ≠ some ',' := by
      intro hmem
      have := List.mem_of_getElem? hmem
      cases l <;> simp [Literal.text] at this
    simp [step, hne] at hmid
  | number digits =>
    have hnumber : isNumberChar ',' = false := by decide
    simp only [step, hnumber, Bool.false_eq_true, if_false, closeNumber, Option.bind_map,
      Option.bind_eq_some_iff] at hmid
    obtain ⟨n, -, hafter⟩ := hmid
    obtain ⟨stack', n', heq⟩ := exists_close stack (.number n)
    rw [Function.comp_apply, heq] at hafter
    exact (stepNext_comma hafter).inString limit readNumber hc h
  | next n => exact (stepNext_comma hmid).inString limit readNumber hc h

/-- A member with a number for its value and the name of the next one. -/
theorem run_numberMember {members : List (List Char × Value ν)} {stack : List (Frame ν)}
    {name digits : List Char} {d : Char} {t : State ν} (hd : d.isDigit = true)
    (hdigits : ∀ e ∈ digits, e.isDigit = true)
    (h : run limit readNumber ⟨stack, .key members name .plain⟩
      (['"', ':', d] ++ (digits ++ [',', '"'])) = some t) :
    ∃ members', t = ⟨stack, .key members' [] .plain⟩ := by
  have hne : ∀ e : Char, e.isDigit = false → d ≠ e := by
    rintro e he rfl
    rw [hd] at he
    cases he
  have hspace : isSpace d = false := by
    simp [isSpace, hne ' ' (by decide), hne '\t' (by decide), hne '\n' (by decide),
      hne '\r' (by decide)]
  have hvalue : stepValue limit (.object members name :: stack) d =
      some ⟨.object members name :: stack, .number [d]⟩ := by
    simp [stepValue, hne '"' (by decide), hne '[' (by decide), hne '{' (by decide),
      hne 'n' (by decide), hne 't' (by decide), hne 'f' (by decide), hd]
  have hfirst : run limit readNumber ⟨stack, .key members name .plain⟩ ['"', ':', d] =
      some ⟨.object members name :: stack, .number [d]⟩ := by
    have hcolon : isSpace ':' = false := by decide
    simp [run_cons, step, textMove, hcolon, hspace, hvalue]
  rw [run_append, hfirst, Option.bind_some, run_append, run_number _ _ _ _ hdigits,
    Option.bind_some, run_cons, Option.bind_eq_some_iff] at h
  obtain ⟨mid, hmid, h⟩ := h
  have hnumber : isNumberChar ',' = false := by decide
  have hcomma : isSpace ',' = false := by decide
  simp only [step, hnumber, Bool.false_eq_true, if_false, closeNumber, Option.bind_map,
    Option.bind_eq_some_iff, Function.comp_apply, close, stepAfter, stepNext, hcomma, if_true,
    Option.some.injEq] at hmid
  obtain ⟨n, -, rfl⟩ := hmid
  have hquote : isSpace '"' = false := by decide
  simp only [run_cons, step, hquote, Bool.false_eq_true, if_false, if_true, Option.bind_some,
    run_nil, Option.some.injEq] at h
  exact ⟨_, h.symm⟩

/-- A member with a number for its value, and then one with a string: wherever a text has these the
machine is in an object, and in the string. -/
theorem run_members {s t : State ν} {name digits key : List Char} {c d : Char} (hc : IsWordChar c)
    (hname : ∀ e ∈ name, IsPlain e) (hd : d.isDigit = true)
    (hdigits : ∀ e ∈ digits, e.isDigit = true) (hkey : ∀ e ∈ key, IsPlain e)
    (h : run limit readNumber s ([',', '"', c] ++ (name ++ ((['"', ':', d] ++
      (digits ++ [',', '"'])) ++ (key ++ ['"', ':', '"'])))) = some t) :
    ∃ members stack, t = ⟨.object members key :: stack, .text [] .plain⟩ := by
  have hcolon : isSpace ':' = false := by decide
  have hquote : isSpace '"' = false := by decide
  rw [run_append, Option.bind_eq_some_iff] at h
  obtain ⟨start, hstart, h⟩ := h
  cases inString_of_run limit readNumber hc hstart with
  | array elems stack =>
    -- after an element no colon can come
    rw [run_append, run_text_plain _ _ _ _ hname, Option.bind_some, run_append, run_append] at h
    simp [run_cons, step, textMove, close, stepNext, hcolon] at h
  | object members stack =>
    rw [run_append, run_key_plain _ _ _ _ _ hname, Option.bind_some, run_append,
      Option.bind_eq_some_iff] at h
    obtain ⟨mid, hmid, h⟩ := h
    obtain ⟨members', rfl⟩ := run_numberMember limit readNumber hd hdigits hmid
    rw [run_append, run_key_plain _ _ _ _ _ hkey, Option.bind_some] at h
    simp only [run_cons, step, textMove, hcolon, hquote, stepValue, if_true, Bool.false_eq_true,
      if_false, Option.map_some, Option.bind_some, run_nil, Option.some.injEq,
      List.nil_append] at h
    exact ⟨members', stack, h.symm⟩

end Position

/-! ## Where a string ends -/

/-- The rest of a string and what comes after its quote; a backslash takes a character with it. -/
def splitString (escaped : Bool) : List Char → Option (List Char × List Char)
  | [] => none
  | c :: text =>
    if escaped then (splitString false text).map fun p ↦ (c :: p.1, p.2)
    else if c = '"' then some ([], text)
    else (splitString (c = '\\') text).map fun p ↦ (c :: p.1, p.2)

theorem eq_append_of_splitString {escaped : Bool} {text a b : List Char}
    (h : splitString escaped text = some (a, b)) : text = a ++ '"' :: b := by
  induction text generalizing escaped a with
  | nil => cases h
  | cons c text ih =>
    rw [splitString] at h
    split_ifs at h with hescaped hquote
    · obtain ⟨⟨a', b'⟩, hsplit, heq⟩ := Option.map_eq_some_iff.mp h
      obtain ⟨rfl, rfl⟩ : c :: a' = a ∧ b' = b := by simpa using heq
      rw [ih hsplit]
      rfl
    · obtain ⟨rfl, rfl⟩ : [] = a ∧ text = b := by simpa using h
      rw [hquote]
      rfl
    · obtain ⟨⟨a', b'⟩, hsplit, heq⟩ := Option.map_eq_some_iff.mp h
      obtain ⟨rfl, rfl⟩ : c :: a' = a ∧ b' = b := by simpa using heq
      rw [ih hsplit]
      rfl

theorem splitString_append {escaped : Bool} {text a b : List Char}
    (h : splitString escaped text = some (a, b)) (rest : List Char) :
    splitString escaped (text ++ rest) = some (a, b ++ rest) := by
  induction text generalizing escaped a with
  | nil => cases h
  | cons c text ih =>
    rw [List.cons_append]
    rw [splitString] at h ⊢
    split_ifs at h ⊢ with hescaped hquote
    · obtain ⟨⟨a', b'⟩, hsplit, heq⟩ := Option.map_eq_some_iff.mp h
      obtain ⟨rfl, rfl⟩ : c :: a' = a ∧ b' = b := by simpa using heq
      rw [ih hsplit]
      rfl
    · obtain ⟨rfl, rfl⟩ : [] = a ∧ text = b := by simpa using h
      rfl
    · obtain ⟨⟨a', b'⟩, hsplit, heq⟩ := Option.map_eq_some_iff.mp h
      obtain ⟨rfl, rfl⟩ : c :: a' = a ∧ b' = b := by simpa using heq
      rw [ih hsplit]
      rfl

theorem splitString_plain {word : List Char} (hword : ∀ c ∈ word, IsPlain c) (rest : List Char) :
    splitString false (word ++ rest) =
      (splitString false rest).map fun p ↦ (word ++ p.1, p.2) := by
  induction word with
  | nil => simp
  | cons c word ih =>
    obtain ⟨hquote, hbackslash, -⟩ := hword c List.mem_cons_self
    rw [List.cons_append, splitString]
    simp only [Bool.false_eq_true, if_false, if_neg hquote, decide_eq_false hbackslash]
    rw [ih fun d hd ↦ hword d (List.mem_cons_of_mem c hd), Option.map_map]
    rfl

/-- The quote behind plain characters ends the string, even if the first of them is escaped. -/
theorem splitString_eq_some {escaped : Bool} {text word : List Char}
    (h : splitString escaped text = none) {c : Char} (hc : IsPlain c)
    (hword : ∀ d ∈ word, IsPlain d) (rest : List Char) :
    splitString escaped (text ++ c :: (word ++ '"' :: rest)) = some (text ++ c :: word, rest) := by
  have hrest : splitString false (word ++ '"' :: rest) = some (word, rest) := by
    rw [splitString_plain hword, splitString]
    simp
  induction text generalizing escaped with
  | nil =>
    obtain ⟨hquote, hbackslash, -⟩ := hc
    cases escaped <;> simp [splitString, hquote, hbackslash, hrest]
  | cons d text ih =>
    rw [List.cons_append]
    rw [splitString] at h ⊢
    split_ifs at h ⊢ with hescaped hquote
    · rw [ih (Option.map_eq_none_iff.mp h)]
      rfl
    · rw [ih (Option.map_eq_none_iff.mp h)]
      rfl

theorem hexValue_ne {c d : Char} {n : ℕ} (h : hexValue c = some n) (hd : hexValue d = none) :
    c ≠ d := by
  rintro rfl
  rw [hd] at h
  cases h

theorem isPlain_of_hexValue {c : Char} {n : ℕ} (h : hexValue c = some n) : IsPlain c := by
  refine ⟨hexValue_ne h (by decide), hexValue_ne h (by decide), ?_⟩
  by_contra hlow
  have hnone : hexValue c = none := by
    rw [hexValue, if_neg (by omega), if_neg (by omega), if_neg (by omega)]
  rw [hnone] at h
  cases h

def Escape.isBackslash : Escape → Bool
  | .backslash _ => true
  | _ => false

/-- A move that goes on with the string, and leaves no backslash open. -/
def GoesOn (move : Option TextMove) : Prop :=
  ∀ m, move = some m → ∃ chars esc, m = .push chars esc ∧ esc.isBackslash = false

theorem goesOn_none : GoesOn none := nofun

theorem goesOn_push (chars : List Char) {esc : Escape} (hesc : esc.isBackslash = false) :
    GoesOn (some (.push chars esc)) :=
  fun _ hm ↦ ⟨chars, esc, (Option.some.inj hm).symm, hesc⟩

theorem goesOn_ite {p : Prop} [Decidable p] {a b : Option TextMove} (ha : GoesOn a)
    (hb : GoesOn b) : GoesOn (if p then a else b) := by
  split
  · exact ha
  · exact hb

theorem goesOn_unicodeEnd (high : Option ℕ) (value : ℕ) : GoesOn (unicodeEnd high value) := by
  cases high with
  | none => exact goesOn_ite (goesOn_push _ rfl) (goesOn_ite goesOn_none (goesOn_push _ rfl))
  | some high => exact goesOn_ite (goesOn_push _ rfl) goesOn_none

theorem goesOn_unicode (high : Option ℕ) (read value : ℕ) (c : Char) :
    GoesOn (textMove (.unicode high read value) c) := by
  rw [textMove]
  cases hexValue c with
  | none => exact goesOn_none
  | some digit => exact goesOn_ite (goesOn_unicodeEnd high _) (goesOn_push _ rfl)

theorem goesOn_backslash (high : Option ℕ) (c : Char) :
    GoesOn (textMove (.backslash high) c) := by
  have hletters : GoesOn (if c = 'b' then some (.push [Char.ofNat 0x8] .plain)
      else if c = 'f' then some (.push [Char.ofNat 0xC] .plain)
      else if c = 'n' then some (.push ['\n'] .plain)
      else if c = 'r' then some (.push ['\r'] .plain)
      else if c = 't' then some (.push ['\t'] .plain) else none) :=
    goesOn_ite (goesOn_push _ rfl) (goesOn_ite (goesOn_push _ rfl) (goesOn_ite (goesOn_push _ rfl)
      (goesOn_ite (goesOn_push _ rfl) (goesOn_ite (goesOn_push _ rfl) goesOn_none))))
  rw [textMove]
  exact goesOn_ite (goesOn_push _ rfl)
    (goesOn_ite goesOn_none (goesOn_ite (goesOn_push _ rfl) hletters))

/-- While a string goes on its escapes are where `splitString` has them. -/
theorem textMove_push {esc esc' : Escape} {c : Char} {chars : List Char}
    (h : textMove esc c = some (.push chars esc')) :
    esc'.isBackslash = (!esc.isBackslash && decide (c = '\\')) ∧
      (esc.isBackslash = false → c ≠ '"') := by
  cases esc with
  | plain =>
    rw [textMove] at h
    split_ifs at h with hquote hbackslash hlow
    · cases h
    · obtain ⟨-, rfl⟩ := TextMove.push.inj (Option.some.inj h)
      exact ⟨by simp [Escape.isBackslash, hbackslash], fun _ ↦ hquote⟩
    · obtain ⟨-, rfl⟩ := TextMove.push.inj (Option.some.inj h)
      exact ⟨by simp [Escape.isBackslash, hbackslash], fun _ ↦ hquote⟩
  | backslash high =>
    obtain ⟨_, _, heq, hesc⟩ := goesOn_backslash high c _ h
    obtain ⟨-, rfl⟩ := TextMove.push.inj heq
    exact ⟨hesc, fun hfalse ↦ by cases hfalse⟩
  | unicode high read value =>
    obtain ⟨_, _, heq, hesc⟩ := goesOn_unicode high read value c _ h
    obtain ⟨-, rfl⟩ := TextMove.push.inj heq
    rw [textMove, Option.bind_eq_some_iff] at h
    obtain ⟨digit, hdigit, -⟩ := h
    have hbackslash : c ≠ '\\' := hexValue_ne hdigit (by decide)
    refine ⟨?_, fun _ ↦ hexValue_ne hdigit (by decide)⟩
    rw [hesc, decide_eq_false hbackslash]
    rfl
  | low high =>
    rw [textMove] at h
    split_ifs at h with hbackslash
    obtain ⟨-, rfl⟩ := TextMove.push.inj (Option.some.inj h)
    refine ⟨by simp [Escape.isBackslash, hbackslash], fun _ ↦ ?_⟩
    rw [hbackslash]
    decide

theorem splitString_push {esc esc' : Escape} {c : Char} {chars text : List Char}
    (hmove : textMove esc c = some (.push chars esc'))
    (h : splitString esc.isBackslash (c :: text) = none) :
    splitString esc'.isBackslash text = none := by
  obtain ⟨hesc, hquote⟩ := textMove_push hmove
  rw [splitString] at h
  cases hbackslash : esc.isBackslash with
  | true =>
    rw [hbackslash] at hesc h
    rw [hesc]
    exact Option.map_eq_none_iff.mp h
  | false =>
    rw [hbackslash] at hesc h
    rw [hesc]
    rw [if_neg Bool.false_ne_true, if_neg (hquote hbackslash)] at h
    exact Option.map_eq_none_iff.mp h

theorem textMove_ne_close {esc : Escape} {c : Char} {text : List Char}
    (h : splitString esc.isBackslash (c :: text) = none) : textMove esc c ≠ some .close := by
  intro hmove
  cases esc with
  | plain =>
    rw [textMove] at hmove
    split_ifs at hmove with hquote
    · rw [hquote] at h
      simp [splitString, Escape.isBackslash] at h
    all_goals cases hmove
  | backslash high =>
    obtain ⟨_, _, heq, -⟩ := goesOn_backslash high c _ hmove
    cases heq
  | unicode high read value =>
    obtain ⟨_, _, heq, -⟩ := goesOn_unicode high read value c _ hmove
    cases heq
  | low high =>
    rw [textMove] at hmove
    split_ifs at hmove
    cases hmove

/-- A text that ends in a string has no value. -/
theorem parseFrom_unclosed (limit : ℕ) (readNumber : List Char → Option ν)
    (stack : List (Frame ν)) (buf : List Char) {esc : Escape} {text : List Char}
    (h : splitString esc.isBackslash text = none) :
    parseFrom limit readNumber ⟨stack, .text buf esc⟩ text = none := by
  induction text generalizing buf esc with
  | nil => rfl
  | cons c text ih =>
    rw [parseFrom, run_cons]
    simp only [step]
    cases hmove : textMove esc c with
    | none => rfl
    | some move =>
      cases move with
      | push chars esc' => exact ih (buf ++ chars) (splitString_push hmove h)
      | close => exact absurd hmove (textMove_ne_close h)

end Json
