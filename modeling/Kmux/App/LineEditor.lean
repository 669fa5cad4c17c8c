import Kmux.App.Completion

/-!
# The line editor of the palette

The palette edits one line of text with a caret. The caret is a byte offset into the text, and the
handlers find the characters next to it by scanning for boundaries, byte by byte.

What they are meant to do is said of a `Line`, a text that is split at the caret: a character goes
in at the end of the left part, or goes away there, or is moved across. `dispatch_shows` says that
the handlers do this, and that they do not panic, from every state in which the caret is at a
boundary; and no sequence of actions leaves those states.
-/

namespace Kmux.App

open Utf8Text

/-- The state of the palette while a command is edited. -/
structure CommandState where
  /-- The command, without the leading slash. -/
  buffer : List Char
  /-- The byte offset of the caret. -/
  cursor : ℕ
  /-- The row of the dropdown that is highlighted. -/
  selected : ℕ
  /-- The place in the history that the buffer was recalled from. -/
  historyPos : Option ℕ
  deriving DecidableEq, Repr

namespace CommandState

/-- `CommandState::default`. -/
def empty : CommandState := ⟨[], 0, 0, none⟩

/-- The palette as `open_transport_chooser` fills it. -/
def transportChooser : CommandState :=
  let prefill := "transport ".toList
  ⟨prefill, byteLen prefill, 0, none⟩

end CommandState

/-! ## Scans -/

/-- Back from an offset to the first boundary. -/
def boundaryBefore (buffer : List Char) : ℕ → ℕ
  | 0 => 0
  | n + 1 => if isCharBoundary buffer (n + 1) then n + 1 else boundaryBefore buffer n

/-- On from an offset to the first boundary, for a number of bytes. -/
def boundaryAfter (buffer : List Char) : ℕ → ℕ → ℕ
  | 0, pos => pos
  | n + 1, pos =>
    if pos < byteLen buffer && !isCharBoundary buffer pos then boundaryAfter buffer n (pos + 1)
    else pos

/-- Back from an offset over the characters of a kind, for a number of rounds. -/
def skipBack (p : Char → Bool) (buffer : List Char) : ℕ → ℕ → Option ℕ
  | 0, pos => some pos
  | n + 1, pos =>
    if pos = 0 then some pos
    else
      (sliceTo buffer pos).bind fun head ↦
        match head.getLast? with
        | some c => if p c then skipBack p buffer n (pos - c.utf8Size) else some pos
        | none => some pos

/-! ## The handlers -/

def onCommandChar (ch : Char) (state : CommandState) : Option CommandState := do
  let pos := min state.cursor (byteLen state.buffer)
  let buffer ← insert state.buffer pos ch
  return ⟨buffer, pos + ch.utf8Size, 0, none⟩

def onCommandBackspace (state : CommandState) : Option CommandState := do
  let pos := min state.cursor (byteLen state.buffer)
  if 0 < pos then
    let newPos := boundaryBefore state.buffer (pos - 1)
    let buffer ← replaceRange state.buffer newPos pos []
    return ⟨buffer, newPos, 0, none⟩
  else return state

def onCommandLeft (state : CommandState) : CommandState :=
  if 0 < state.cursor then
    { state with cursor := boundaryBefore state.buffer (state.cursor - 1) }
  else state

def onCommandRight (state : CommandState) : CommandState :=
  if state.cursor < byteLen state.buffer then
    { state with cursor := boundaryAfter state.buffer (byteLen state.buffer) (state.cursor + 1) }
  else state

def onCommandHome (state : CommandState) : CommandState := { state with cursor := 0 }

def onCommandEnd (state : CommandState) : CommandState :=
  { state with cursor := byteLen state.buffer }

def onCommandClearLine (_ : CommandState) : CommandState := ⟨[], 0, 0, none⟩

def onCommandDeleteWordBack (state : CommandState) : Option CommandState := do
  let pos := min state.cursor (byteLen state.buffer)
  let stop ← skipBack isWhitespace state.buffer pos pos
  let start ← skipBack (!isWhitespace ·) state.buffer stop stop
  -- the range is taken up to the caret itself, not to the offset it was clamped to
  let buffer ← replaceRange state.buffer start state.cursor []
  return ⟨buffer, start, 0, none⟩

def commandHintUp (state : CommandState) : CommandState :=
  { state with selected := state.selected - 1 }

def commandHintDown (sessions : List (List Char)) (state : CommandState) :
    Option CommandState := do
  let count := (← buildHints sessions state.buffer).length
  return if 0 < count && state.selected + 1 < count then
    { state with selected := state.selected + 1 }
  else state

def commandApplyCompletion (sessions : List (List Char)) (state : CommandState) :
    Option CommandState := do
  let hints ← buildHints sessions state.buffer
  match hints[min state.selected (hints.length - 1)]? with
  | some hint =>
    let buffer ← applyHintToBuffer state.buffer hint
    return ⟨buffer, byteLen buffer, 0, none⟩
  | none => return state

/-- The actions of the palette, short of those that leave it. -/
inductive Action
  | commandChar (ch : Char)
  | commandBackspace
  | commandLeft
  | commandRight
  | commandHome
  | commandEnd
  | commandClearLine
  | commandDeleteWordBack
  | commandHintUp
  | commandHintDown
  | commandComplete
  deriving DecidableEq, Repr

/-- One action, with the names of the sessions there are at the time; nothing where it panics. -/
def dispatch (sessions : List (List Char)) (state : CommandState) : Action → Option CommandState
  | .commandChar ch => onCommandChar ch state
  | .commandBackspace => onCommandBackspace state
  | .commandLeft => some (onCommandLeft state)
  | .commandRight => some (onCommandRight state)
  | .commandHome => some (onCommandHome state)
  | .commandEnd => some (onCommandEnd state)
  | .commandClearLine => some (onCommandClearLine state)
  | .commandDeleteWordBack => onCommandDeleteWordBack state
  | .commandHintUp => some (commandHintUp state)
  | .commandHintDown => commandHintDown sessions state
  | .commandComplete => commandApplyCompletion sessions state

/-- A run of actions. -/
def edit (state : CommandState) : List (List (List Char) × Action) → Option CommandState
  | [] => some state
  | (sessions, action) :: events => (dispatch sessions state action).bind (edit · events)

/-! ## What the actions are for -/

/-- A text that is split at the caret. -/
structure Line where
  before : List Char
  after : List Char
  deriving DecidableEq, Repr

namespace Line

def text (l : Line) : List Char := l.before ++ l.after

/-- Back over one character. -/
def left (l : Line) : Line :=
  match l.before.getLast? with
  | some c => ⟨l.before.dropLast, c :: l.after⟩
  | none => l

/-- On over one character. -/
def right (l : Line) : Line :=
  match l.after with
  | c :: after => ⟨l.before ++ [c], after⟩
  | [] => l

/-- The spaces before the caret removed, and then the word before those. -/
def deleteWordBack (l : Line) : Line :=
  ⟨(l.before.rdropWhile isWhitespace).rdropWhile (!isWhitespace ·), l.after⟩

/-- The highlighted offer taken, with the caret at the end. -/
def complete (sessions : List (List Char)) (selected : ℕ) (l : Line) : Line :=
  let hints := (buildHints sessions l.text).getD []
  match hints[min selected (hints.length - 1)]? with
  | some hint => ⟨(applyHintToBuffer l.text hint).getD [], []⟩
  | none => l

/-- What an action does to the line. -/
def act (sessions : List (List Char)) (selected : ℕ) (l : Line) : Action → Line
  | .commandChar ch => ⟨l.before ++ [ch], l.after⟩
  | .commandBackspace => ⟨l.before.dropLast, l.after⟩
  | .commandLeft => l.left
  | .commandRight => l.right
  | .commandHome => ⟨[], l.text⟩
  | .commandEnd => ⟨l.text, []⟩
  | .commandClearLine => ⟨[], []⟩
  | .commandDeleteWordBack => l.deleteWordBack
  | .commandHintUp => l
  | .commandHintDown => l
  | .commandComplete => l.complete sessions selected

end Line

/-- The state shows a line: its text, with the caret where it is split. -/
structure Shows (state : CommandState) (l : Line) : Prop where
  buffer : state.buffer = l.before ++ l.after
  cursor : state.cursor = byteLen l.before

theorem exists_shows_iff {state : CommandState} :
    (∃ l, Shows state l) ↔ isCharBoundary state.buffer state.cursor = true := by
  rw [isCharBoundary_iff]
  constructor
  · rintro ⟨l, hl⟩
    exact ⟨l.before, l.after, hl.buffer, hl.cursor.symm⟩
  · rintro ⟨before, after, hbuffer, hcursor⟩
    exact ⟨⟨before, after⟩, hbuffer, hcursor.symm⟩

/-! ## The scans find the characters next to the caret -/

theorem boundaryBefore_inside {before after : List Char} {c : Char} {k : ℕ} (hk : k < c.utf8Size) :
    boundaryBefore (before ++ c :: after) (byteLen before + k) = byteLen before := by
  induction k with
  | zero =>
    rw [Nat.add_zero]
    cases hb : byteLen before with
    | zero => rfl
    | succ n => rw [boundaryBefore, ← hb, isCharBoundary_byteLen, if_pos rfl]
  | succ k ih =>
    have hinside : isCharBoundary (before ++ c :: after) (byteLen before + (k + 1)) = false :=
      isCharBoundary_inside (by omega) (by omega)
    rw [← Nat.add_assoc, boundaryBefore, Nat.add_assoc, hinside, if_neg Bool.false_ne_true]
    exact ih (by omega)

/-- The boundary before the caret is the start of the character before it. -/
theorem boundaryBefore_caret (before after : List Char) (c : Char) :
    boundaryBefore (before ++ c :: after) (byteLen (before ++ [c]) - 1) = byteLen before := by
  have hpos : 0 < c.utf8Size := c.utf8Size_pos
  have hlen : byteLen (before ++ [c]) - 1 = byteLen before + (c.utf8Size - 1) := by
    rw [byteLen_append, byteLen_cons, byteLen_nil]
    omega
  rw [hlen]
  exact boundaryBefore_inside (by omega)

theorem boundaryAfter_inside {before after : List Char} {c : Char} {n k : ℕ}
    (hpos : 0 < k) (hk : k ≤ c.utf8Size) (hn : c.utf8Size - k ≤ n) :
    boundaryAfter (before ++ c :: after) n (byteLen before + k) = byteLen (before ++ [c]) := by
  have hlen : byteLen (before ++ [c]) = byteLen before + c.utf8Size := by
    rw [byteLen_append, byteLen_cons, byteLen_nil, Nat.add_zero]
  induction n generalizing k with
  | zero =>
    rw [boundaryAfter, hlen]
    omega
  | succ n ih =>
    rw [boundaryAfter]
    obtain hlt | rfl := Nat.lt_or_eq_of_le hk
    · have hinside : isCharBoundary (before ++ c :: after) (byteLen before + k) = false :=
        isCharBoundary_inside (by omega) (by omega)
      have hroom : byteLen before + k < byteLen (before ++ c :: after) := by
        rw [byteLen_append, byteLen_cons]
        omega
      rw [hinside, decide_eq_true hroom, Bool.not_false, Bool.and_true, if_pos rfl]
      exact ih (k := k + 1) (by omega) (by omega) (by omega)
    · have hboundary :
          isCharBoundary (before ++ c :: after) (byteLen before + c.utf8Size) = true := by
        rw [← hlen, List.append_cons]
        exact isCharBoundary_byteLen ..
      rw [hboundary, Bool.not_true, Bool.and_false, if_neg Bool.false_ne_true, hlen]

/-- Skipping back takes characters off the end of the left part. -/
theorem skipBack_eq (p : Char → Bool) (after : List Char) {before : List Char} {n : ℕ}
    (hn : byteLen before ≤ n) :
    skipBack p (before ++ after) n (byteLen before) = some (byteLen (before.rdropWhile p)) := by
  induction before using List.reverseRecOn generalizing after n with
  | nil =>
    cases n with
    | zero => rfl
    | succ n => rw [skipBack, byteLen_nil, if_pos rfl, List.rdropWhile_nil, byteLen_nil]
  | append_singleton before c ih =>
    have hpos : 0 < c.utf8Size := c.utf8Size_pos
    have hlen : byteLen (before ++ [c]) = byteLen before + c.utf8Size := by
      rw [byteLen_append, byteLen_cons, byteLen_nil, Nat.add_zero]
    rw [hlen] at hn
    obtain ⟨n, rfl⟩ := Nat.exists_eq_succ_of_ne_zero (show n ≠ 0 by omega)
    rw [skipBack, if_neg (by omega), sliceTo_byteLen, Option.bind_some, List.getLast?_append,
      List.getLast?_singleton, Option.some_or, List.rdropWhile_concat]
    by_cases hc : p c
    · simp only [hc, if_true]
      rw [hlen, Nat.add_sub_cancel, List.append_assoc, List.singleton_append]
      exact ih (c :: after) (by omega)
    · simp only [hc, Bool.false_eq_true, if_false]

/-! ## The handlers do what they are for -/

variable {state : CommandState} {l : Line} {sessions : List (List Char)}

namespace Shows

/-- The caret is never past the end, so clamping it changes nothing. -/
theorem min_cursor (h : Shows state l) :
    min state.cursor (byteLen state.buffer) = byteLen l.before := by
  rw [h.buffer, h.cursor, byteLen_append]
  omega

theorem commandChar (h : Shows state l) (ch : Char) :
    ∃ state', onCommandChar ch state = some state' ∧ Shows state' ⟨l.before ++ [ch], l.after⟩ := by
  refine ⟨_, by rw [onCommandChar, h.min_cursor, h.buffer, insert_byteLen]; rfl, ?_, ?_⟩
  · simp
  · simp

theorem commandBackspace (h : Shows state l) :
    ∃ state', onCommandBackspace state = some state' ∧
      Shows state' ⟨l.before.dropLast, l.after⟩ := by
  obtain hnil | ⟨before, c, hbefore⟩ := List.eq_nil_or_concat l.before
  · refine ⟨state, ?_, ?_⟩
    · rw [onCommandBackspace, h.min_cursor, hnil]
      rfl
    · have hl : (⟨l.before.dropLast, l.after⟩ : Line) = l := by
        rw [hnil, List.dropLast_nil, ← hnil]
      rwa [hl]
  · rw [List.concat_eq_append] at hbefore
    have hpos : 0 < byteLen (before ++ [c]) := by
      have := c.utf8Size_pos
      rw [byteLen_append, byteLen_cons]
      omega
    have hscan : boundaryBefore (before ++ [c] ++ l.after) (byteLen (before ++ [c]) - 1) =
        byteLen before := by
      rw [List.append_assoc, List.singleton_append]
      exact boundaryBefore_caret before l.after c
    refine ⟨⟨before ++ [] ++ l.after, byteLen before, 0, none⟩, ?_, ?_, ?_⟩
    · rw [onCommandBackspace, h.min_cursor, h.buffer, hbefore]
      simp only [if_pos hpos, hscan, replaceRange_byteLen]
      rfl
    · rw [hbefore, List.dropLast_concat, List.append_nil]
    · rw [hbefore, List.dropLast_concat]

theorem commandLeft (h : Shows state l) : Shows (onCommandLeft state) l.left := by
  obtain hnil | ⟨before, c, hbefore⟩ := List.eq_nil_or_concat l.before
  · have hleft : l.left = l := by rw [Line.left, hnil]; rfl
    rw [onCommandLeft, h.cursor, hnil, hleft]
    exact h
  · rw [List.concat_eq_append] at hbefore
    have hpos : 0 < byteLen (before ++ [c]) := by
      have := c.utf8Size_pos
      rw [byteLen_append, byteLen_cons]
      omega
    have hleft : l.left = ⟨before, c :: l.after⟩ := by
      rw [Line.left, hbefore, List.getLast?_concat, List.dropLast_concat]
    rw [onCommandLeft, h.cursor, hbefore, if_pos hpos, h.buffer, hbefore, List.append_assoc,
      List.singleton_append, boundaryBefore_caret, hleft]
    exact ⟨by simp, rfl⟩

theorem commandRight (h : Shows state l) : Shows (onCommandRight state) l.right := by
  cases hafter : l.after with
  | nil =>
    have hend : ¬state.cursor < byteLen state.buffer := by
      rw [h.cursor, h.buffer, hafter, List.append_nil]
      exact lt_irrefl _
    have hright : l.right = l := by rw [Line.right, hafter]
    rw [onCommandRight, if_neg hend, hright]
    exact h
  | cons c after =>
    have hpos : 0 < c.utf8Size := c.utf8Size_pos
    have hroom : byteLen l.before < byteLen (l.before ++ c :: after) := by
      rw [byteLen_append, byteLen_cons]
      omega
    have hright : l.right = ⟨l.before ++ [c], after⟩ := by rw [Line.right, hafter]
    rw [onCommandRight, h.cursor, h.buffer, hafter, if_pos hroom,
      boundaryAfter_inside (by omega) (by omega) (by rw [byteLen_append, byteLen_cons]; omega),
      hright]
    exact ⟨by simp, rfl⟩

theorem commandDeleteWordBack (h : Shows state l) :
    ∃ state', onCommandDeleteWordBack state = some state' ∧ Shows state' l.deleteWordBack := by
  set stop := l.before.rdropWhile isWhitespace with hstop
  set start := stop.rdropWhile (!isWhitespace ·) with hstart
  -- what is left of the text, what goes, and the spaces that go with it
  obtain ⟨spaces, hspaces⟩ : stop <+: l.before := List.rdropWhile_prefix _ _
  obtain ⟨word, hword⟩ : start <+: stop := List.rdropWhile_prefix _ _
  have hfirst : skipBack isWhitespace (l.before ++ l.after) (byteLen l.before) (byteLen l.before) =
      some (byteLen stop) := skipBack_eq _ _ le_rfl
  have hsecond : skipBack (!isWhitespace ·) (l.before ++ l.after) (byteLen stop) (byteLen stop) =
      some (byteLen start) := by
    rw [← hspaces, List.append_assoc]
    exact skipBack_eq _ _ le_rfl
  have hreplace : replaceRange (l.before ++ l.after) (byteLen start) (byteLen l.before) [] =
      some (start ++ [] ++ l.after) := by
    have hsplit : l.before = start ++ (word ++ spaces) := by
      rw [← List.append_assoc, hword, hspaces]
    rw [hsplit]
    exact replaceRange_byteLen ..
  refine ⟨⟨start ++ [] ++ l.after, byteLen start, 0, none⟩, ?_, ?_, rfl⟩
  · rw [onCommandDeleteWordBack, h.min_cursor, h.buffer, h.cursor]
    simp only [hfirst, hsecond, hreplace, Option.bind_eq_bind, Option.bind_some]
    rfl
  · rw [List.append_nil]
    rfl

theorem commandHintDown (h : Shows state l) :
    ∃ state', Kmux.App.commandHintDown sessions state = some state' ∧ Shows state' l := by
  obtain ⟨hints, hhints, -⟩ := exists_buildHints sessions state.buffer
  rw [Kmux.App.commandHintDown, hhints]
  simp only [Option.bind_eq_bind, Option.bind_some]
  refine ⟨_, rfl, ?_⟩
  split_ifs
  · exact ⟨h.buffer, h.cursor⟩
  · exact h

theorem commandComplete (h : Shows state l) :
    ∃ state', commandApplyCompletion sessions state = some state' ∧
      Shows state' (l.complete sessions state.selected) := by
  obtain ⟨hints, hhints, hboundary⟩ := exists_buildHints sessions state.buffer
  have hline : buildHints sessions l.text = some hints := by rw [Line.text, ← h.buffer, hhints]
  rw [commandApplyCompletion, Line.complete, hhints, hline]
  simp only [Option.bind_eq_bind, Option.bind_some, Option.getD_some]
  cases hget : hints[min state.selected (hints.length - 1)]? with
  | none => exact ⟨state, rfl, h⟩
  | some hint =>
    obtain ⟨before, after, hsplit, hlen⟩ :=
      isCharBoundary_iff.mp (hboundary hint (List.mem_of_getElem? hget))
    have happly : applyHintToBuffer state.buffer hint =
        some (before ++ (hint.replacement ++ if hint.appendSpace then [' '] else [])) := by
      rw [hsplit]
      exact applyHintToBuffer_eq hlen.symm
    rw [Line.text, ← h.buffer]
    simp only [happly, Option.bind_some, Option.getD_some]
    exact ⟨_, rfl, (List.append_nil _).symm, rfl⟩

end Shows

/-- Every action goes through and does to the line what it is for. -/
theorem dispatch_shows (h : Shows state l) (sessions : List (List Char)) (action : Action) :
    ∃ state', dispatch sessions state action = some state' ∧
      Shows state' (l.act sessions state.selected action) := by
  cases action with
  | commandChar ch => exact h.commandChar ch
  | commandBackspace => exact h.commandBackspace
  | commandLeft => exact ⟨_, rfl, h.commandLeft⟩
  | commandRight => exact ⟨_, rfl, h.commandRight⟩
  | commandHome => exact ⟨_, rfl, h.buffer, rfl⟩
  | commandEnd =>
    refine ⟨_, rfl, ?_, ?_⟩
    · rw [onCommandEnd, h.buffer]
      exact (List.append_nil _).symm
    · rw [onCommandEnd, h.buffer]
      rfl
  | commandClearLine => exact ⟨_, rfl, rfl, rfl⟩
  | commandDeleteWordBack => exact h.commandDeleteWordBack
  | commandHintUp => exact ⟨_, rfl, h.buffer, h.cursor⟩
  | commandHintDown => exact h.commandHintDown
  | commandComplete => exact h.commandComplete

/-- The ways in which the palette is opened. -/
def opened : List CommandState := [.empty, .transportChooser]

theorem exists_shows_of_opened (h : state ∈ opened) : ∃ l, Shows state l := by
  rw [opened, List.mem_cons, List.mem_singleton] at h
  obtain rfl | rfl := h
  · exact ⟨⟨[], []⟩, rfl, rfl⟩
  · exact ⟨⟨"transport ".toList, []⟩, (List.append_nil _).symm, rfl⟩

/-- No action leaves the states that show a line. -/
theorem exists_edit (h : ∃ l, Shows state l) (events : List (List (List Char) × Action)) :
    ∃ state', edit state events = some state' ∧ ∃ l, Shows state' l := by
  induction events generalizing state with
  | nil => exact ⟨state, rfl, h⟩
  | cons event events ih =>
    obtain ⟨l, hl⟩ := h
    obtain ⟨state', hstep, hshows⟩ := dispatch_shows hl event.1 event.2
    obtain ⟨state'', hrun, hend⟩ := ih ⟨_, hshows⟩
    exact ⟨state'', by rw [edit, hstep, Option.bind_some, hrun], hend⟩

/-- However the palette is opened and whatever is done in it, nothing panics, the caret stays at a
boundary, and every further action does to the line what it is for. -/
theorem palette_run (hopened : state ∈ opened) (events : List (List (List Char) × Action)) :
    ∃ state', edit state events = some state' ∧
      isCharBoundary state'.buffer state'.cursor = true ∧
      ∀ l, Shows state' l → ∀ sessions action, ∃ state'',
        dispatch sessions state' action = some state'' ∧
          Shows state'' (l.act sessions state'.selected action) := by
  obtain ⟨state', hrun, hshows⟩ := exists_edit (exists_shows_of_opened hopened) events
  exact ⟨state', hrun, exists_shows_iff.mp hshows,
    fun l hl sessions action ↦ dispatch_shows hl sessions action⟩

theorem palette_run_typing :
    CommandState.empty ∈ opened ∧ ∃ state',
      edit .empty [([], .commandChar 'é'), ([], .commandLeft), ([], .commandChar 'a')] =
          some state' ∧
        isCharBoundary state'.buffer state'.cursor = true ∧
        ∀ l, Shows state' l → ∀ sessions action, ∃ state'',
          dispatch sessions state' action = some state'' ∧
            Shows state'' (l.act sessions state'.selected action) :=
  ⟨List.mem_cons_self, palette_run List.mem_cons_self _⟩

end Kmux.App
