import Kmux.App.Registry
import Mathlib.Data.Char
import Mathlib.Data.List.Dedup
import Mathlib.Data.List.Infix
import Mathlib.Data.List.Lex
import Mathlib.Data.List.Sort

/-!
# Completion

The dropdown of the palette: what the buffer so far may be completed to, and what taking one of the
offers makes of it. An offer replaces the buffer from the start of the token being typed on. That
start is found by looking for the text of the token, which has lost its quotes; and a value with
white space in it is put into quotes, which the text may hold itself.

Arithmetic on offsets is checked and slices are taken at character boundaries, so that `none` is
what would panic.
-/

namespace Kmux.App

open Utf8Text

/-- One row of the dropdown. -/
structure Hint where
  /-- The text on the left of the row. -/
  display : List Char
  /-- The line on the right. -/
  summary : List Char
  /-- What is inserted. -/
  replacement : List Char
  /-- The byte offset in the buffer of the token being typed. -/
  replaceFrom : ℕ
  /-- Whether a space follows what is inserted. -/
  appendSpace : Bool
  deriving DecidableEq, Repr

def maxHints : ℕ := 8

/-- A subtraction that panics below zero. -/
def checkedSub (a b : ℕ) : Option ℕ := if b ≤ a then some (a - b) else none

/-- Padding on the right. -/
def padRight (n : ℕ) (s : List Char) : List Char := s ++ List.replicate (n - s.length) ' '

/-! ## Which argument is typed -/

inductive Resolved
  | none
  | partialMatch
  | spec (spec : CommandSpec) (used : ℕ)
  deriving DecidableEq, Repr

/-- The names of one command that the leading tokens spell. A name that takes all the tokens counts
only once white space follows it. -/
def hintMatches (tokens : List (List Char)) (endsWithWs : Bool) (spec : CommandSpec) :
    List (CommandSpec × ℕ) :=
  (spec.names.filter fun nm ↦
    let nlen := wordCount nm
    !(tokens.length < nlen) && eqIgnoreAsciiCase (join (tokens.take nlen)) nm &&
      !(nlen == tokens.length && !endsWithWs)).map fun nm ↦ (spec, wordCount nm)

def resolveCommandPrefix (tokens : List (List Char)) (endsWithWs : Bool) : Resolved :=
  if tokens.isEmpty then .none
  else
    match (all.flatMap (hintMatches tokens endsWithWs)).foldl longest none with
    | some (spec, used) => .spec spec used
    | none => .partialMatch

/-! ## The offers -/

/-- How well a name fits what is typed; nothing if it does not. -/
def score (typed nm : List Char) : Option ℕ :=
  let nmLc := lower nm
  if nmLc = typed then some 0
  else if typed <+: nmLc then some 1
  else if typed <:+: nmLc then some 2
  else none

/-- The best of the scores of a command's names. -/
def bestScore (typed : List Char) (spec : CommandSpec) : Option ℕ :=
  (spec.names.filterMap (score typed)).min?

def commandNameHints (buffer : List Char) (leadingWs : ℕ) : Option (List Hint) := do
  let typed := lower (← sliceFrom buffer leadingWs)
  let scored := all.filterMap fun spec ↦ (bestScore typed spec).map (·, spec)
  let sorted := scored.insertionSort fun a b ↦ a.1 < b.1 ∨ (a.1 = b.1 ∧ a.2.name ≤ b.2.name)
  return (sorted.take maxHints).map fun p ↦
    { display := padRight 22 p.2.usage ++ [' ']
      summary := p.2.summary
      replacement := p.2.name
      replaceFrom := leadingWs
      appendSpace := !p.2.args.isEmpty }

/-- The values that go without saying. -/
def completerValues : Completer → List (List Char)
  | .onOff => ["on", "off"].map String.toList
  | .signals => ["kill", "term", "stop", "cont"].map String.toList
  | .themes =>
    ["one-dark", "dracula", "catppuccin-latte", "catppuccin-frappe", "catppuccin-macchiato",
      "catppuccin-mocha"].map String.toList
  | .transports => ["auto", "quic", "tcp-tls", "uds", "tcp"].map String.toList
  | .sessions => []
  | .none => []

def maybeQuote (v : List Char) : List Char :=
  if v.any isWhitespace then '"' :: v ++ ['"'] else v

def findLastTokenStart (buffer token : List Char) : Option ℕ :=
  rfindText (lower token) (lower buffer)

/-- The values offered for an argument, given what is typed of it. -/
def offeredValues (sessions : List (List Char)) (completer : Completer) (typed : List Char) :
    List (List Char) :=
  let dynamicValues := if completer = .sessions then sessions else []
  let filtered := (completerValues completer ++ dynamicValues).filter fun v ↦
    typed.isEmpty || decide (typed <+: lower v)
  (filtered.insertionSort (· ≤ ·)).dedup.take maxHints

/-- The offer of one value. -/
def valueHint (argIndex replaceFrom : ℕ) (v : List Char) : Hint where
  display :=
    let argLabel := (all.findSome? fun s ↦ s.args[argIndex]?.map (·.name)).getD []
    padRight 22 v ++ " <".toList ++ argLabel ++ ['>']
  summary := []
  replacement := maybeQuote v
  replaceFrom := replaceFrom
  appendSpace := true

/-- What is typed of the value, and where it starts. -/
def valuePrefix (buffer : List Char) (tokens : List (List Char)) (endsWithWs : Bool) :
    List Char × ℕ :=
  if endsWithWs then ([], byteLen buffer)
  else
    let last := tokens.getLast?.getD []
    (lower last, (findLastTokenStart buffer last).getD (byteLen buffer))

def argValueHints (sessions : List (List Char)) (buffer : List Char) (tokens : List (List Char))
    (used : ℕ) (completer : Completer) (endsWithWs : Bool) : Option (List Hint) := do
  let (typed, replaceFrom) := valuePrefix buffer tokens endsWithWs
  let rest ← checkedSub tokens.length used
  let argIndex ← if endsWithWs then some rest else checkedSub rest 1
  return (offeredValues sessions completer typed).map (valueHint argIndex replaceFrom)

/-- Whether a buffer ends in white space. -/
def endsWithWs (buffer : List Char) : Bool := buffer.getLast?.any isWhitespace

/-- The index of the argument being typed, or of the one that comes next. -/
def currentArg (tokens used : ℕ) (endsWithWs : Bool) : Option ℕ :=
  if endsWithWs then checkedSub tokens used else some (tokens - (used + 1))

/-- The tokens of a buffer; none if it cannot be tokenized. -/
def typedTokens (buffer : List Char) : List (List Char) := (tokenize buffer).toOption.getD []

/-- The rows of the dropdown once a command is resolved. -/
def specHints (sessions : List (List Char)) (buffer : List Char) (spec : CommandSpec) (used : ℕ) :
    Option (List Hint) := do
  let tokens := typedTokens buffer
  let argIndex ← currentArg tokens.length used (endsWithWs buffer)
  match spec.args[argIndex]? with
  | some arg => argValueHints sessions buffer tokens used arg.completer (endsWithWs buffer)
  | none => return []

/-- The rows of the dropdown for a buffer. -/
def buildHints (sessions : List (List Char)) (buffer : List Char) : Option (List Hint) :=
  let leadingWs := byteLen buffer - byteLen (trimStart buffer)
  match resolveCommandPrefix (typedTokens buffer) (endsWithWs buffer) with
  | .none => commandNameHints buffer leadingWs
  | .partialMatch => commandNameHints buffer leadingWs
  | .spec spec used => specHints sessions buffer spec used

/-- A buffer after one of the offers for it is taken. -/
def applyHintToBuffer (buffer : List Char) (hint : Hint) : Option (List Char) := do
  let head ← sliceTo buffer (min hint.replaceFrom (byteLen buffer))
  return if hint.appendSpace then head ++ hint.replacement ++ [' '] else head ++ hint.replacement

/-! ## Offers are always made -/

theorem mem_hintMatches {tokens : List (List Char)} {ends : Bool} {spec spec' : CommandSpec}
    {used : ℕ} (h : (spec', used) ∈ hintMatches tokens ends spec) :
    spec' = spec ∧ used ≤ tokens.length ∧ (ends = false → used < tokens.length) ∧
      ∃ nm ∈ spec.names, wordCount nm = used ∧ lower (join (tokens.take used)) = lower nm := by
  rw [hintMatches, List.mem_map] at h
  obtain ⟨nm, hnm, hp⟩ := h
  obtain ⟨rfl, rfl⟩ : spec = spec' ∧ wordCount nm = used := by simpa using hp
  rw [List.mem_filter] at hnm
  obtain ⟨hmem, hcond⟩ := hnm
  simp only [Bool.and_eq_true, Bool.not_eq_true', decide_eq_false_iff_not, eqIgnoreAsciiCase,
    beq_iff_eq, Bool.and_eq_false_iff, beq_eq_false_iff_ne, Bool.not_eq_false'] at hcond
  obtain ⟨⟨hlen, heq⟩, hmore⟩ := hcond
  refine ⟨rfl, by omega, fun hends ↦ ?_, nm, hmem, rfl, heq⟩
  obtain hne | htrue := hmore
  · omega
  · rw [hends] at htrue
    exact absurd htrue Bool.false_ne_true

theorem resolveCommandPrefix_spec {tokens : List (List Char)} {ends : Bool} {spec : CommandSpec}
    {used : ℕ} (h : resolveCommandPrefix tokens ends = .spec spec used) :
    spec ∈ all ∧ used ≤ tokens.length ∧ (ends = false → used < tokens.length) ∧
      ∃ nm ∈ spec.names, wordCount nm = used ∧ lower (join (tokens.take used)) = lower nm := by
  rw [resolveCommandPrefix] at h
  split_ifs at h
  cases hbest : (all.flatMap (hintMatches tokens ends)).foldl longest none with
  | none => simp [hbest] at h
  | some best =>
    obtain ⟨rfl, rfl⟩ : best.1 = spec ∧ best.2 = used := by simpa [hbest] using h
    obtain ⟨hmem, -⟩ := mem_of_foldl_longest hbest
    obtain ⟨spec', hspec', hmatch⟩ := List.mem_flatMap.mp hmem
    obtain ⟨hspec, hrest⟩ := mem_hintMatches hmatch
    rw [hspec]
    exact ⟨hspec', hspec ▸ hrest⟩

/-- Where the text of a token is found, a character starts. -/
theorem isCharBoundary_findLastTokenStart {buffer token : List Char} {i : ℕ}
    (h : findLastTokenStart buffer token = some i) : isCharBoundary buffer i = true := by
  obtain ⟨a, b, hab, rfl⟩ := rfindText_eq_some h
  rw [lower, List.append_assoc] at hab
  obtain ⟨a', b', rfl, rfl, -⟩ := List.map_eq_append_iff.mp hab
  change isCharBoundary _ (byteLen (lower a')) = true
  rw [byteLen_lower]
  exact isCharBoundary_byteLen a' b'

theorem isCharBoundary_valuePrefix (buffer : List Char) (tokens : List (List Char)) (ends : Bool) :
    isCharBoundary buffer (valuePrefix buffer tokens ends).2 = true := by
  have hend : isCharBoundary buffer (byteLen buffer) = true :=
    isCharBoundary_iff.mpr ⟨buffer, [], (List.append_nil buffer).symm, rfl⟩
  rw [valuePrefix]
  split_ifs
  · exact hend
  · cases hfind : findLastTokenStart buffer (tokens.getLast?.getD []) with
    | none => simpa [hfind] using hend
    | some i => simpa [hfind] using isCharBoundary_findLastTokenStart hfind

theorem commandNameHints_leading (buffer : List Char) :
    ∃ hints, commandNameHints buffer (byteLen buffer - byteLen (trimStart buffer)) = some hints ∧
      ∀ h ∈ hints, isCharBoundary buffer h.replaceFrom = true := by
  have hsplit : buffer = buffer.takeWhile isWhitespace ++ trimStart buffer :=
    List.takeWhile_append_dropWhile.symm
  have hlead : byteLen buffer - byteLen (trimStart buffer) =
      byteLen (buffer.takeWhile isWhitespace) := by
    have := congrArg byteLen hsplit
    rw [byteLen_append] at this
    omega
  have hslice : sliceFrom buffer (byteLen (buffer.takeWhile isWhitespace)) =
      some (trimStart buffer) := by
    have := sliceFrom_byteLen (buffer.takeWhile isWhitespace) (trimStart buffer)
    rwa [← hsplit] at this
  rw [hlead, commandNameHints, hslice]
  refine ⟨_, rfl, fun h hh ↦ ?_⟩
  obtain ⟨p, -, rfl⟩ := List.mem_map.mp hh
  exact isCharBoundary_iff.mpr ⟨_, _, hsplit, rfl⟩

theorem argValueHints_eq {sessions : List (List Char)} {buffer : List Char}
    {tokens : List (List Char)} {used : ℕ} {completer : Completer} {ends : Bool}
    (hused : used ≤ tokens.length) (hmore : ends = false → used < tokens.length) :
    argValueHints sessions buffer tokens used completer ends =
      some ((offeredValues sessions completer (valuePrefix buffer tokens ends).1).map
        (valueHint (if ends then tokens.length - used else tokens.length - used - 1)
          (valuePrefix buffer tokens ends).2)) := by
  rw [argValueHints]
  cases ends with
  | true => simp [checkedSub, hused]
  | false =>
    have hone : 1 ≤ tokens.length - used := by
      have := hmore rfl
      omega
    simp [checkedSub, hused, hone]

/-- The index of the argument that is completed. -/
def argIndex (tokens used : ℕ) (ends : Bool) : ℕ :=
  if ends then tokens - used else tokens - used - 1

/-- Where the value starts that is typed, or is to be typed. -/
def valueStart (buffer : List Char) : ℕ :=
  (valuePrefix buffer (typedTokens buffer) (endsWithWs buffer)).2

/-- The values that are offered for an argument. -/
def values (sessions : List (List Char)) (buffer : List Char) (arg : ArgSpec) :
    List (List Char) :=
  offeredValues sessions arg.completer
    (valuePrefix buffer (typedTokens buffer) (endsWithWs buffer)).1

theorem specHints_eq {sessions : List (List Char)} {buffer : List Char} {spec : CommandSpec}
    {used : ℕ} (hused : used ≤ (typedTokens buffer).length)
    (hmore : endsWithWs buffer = false → used < (typedTokens buffer).length) :
    specHints sessions buffer spec used =
      some (match spec.args[argIndex (typedTokens buffer).length used (endsWithWs buffer)]? with
        | some arg => (values sessions buffer arg).map
          (valueHint (argIndex (typedTokens buffer).length used (endsWithWs buffer))
            (valueStart buffer))
        | none => []) := by
  have hindex : currentArg (typedTokens buffer).length used (endsWithWs buffer) =
      some (argIndex (typedTokens buffer).length used (endsWithWs buffer)) := by
    rw [currentArg, argIndex, checkedSub, if_pos hused, Nat.sub_sub]
    split_ifs <;> rfl
  rw [specHints]
  simp only [hindex, Option.bind_eq_bind, Option.bind_some]
  cases hget : spec.args[argIndex (typedTokens buffer).length used (endsWithWs buffer)]? with
  | some arg => exact argValueHints_eq hused hmore
  | none => rfl

/-- The offers are always made, and each one starts where a character does. -/
theorem exists_buildHints (sessions : List (List Char)) (buffer : List Char) :
    ∃ hints, buildHints sessions buffer = some hints ∧
      ∀ h ∈ hints, isCharBoundary buffer h.replaceFrom = true := by
  rw [buildHints]
  cases hres : resolveCommandPrefix (typedTokens buffer) (endsWithWs buffer) with
  | none => exact commandNameHints_leading buffer
  | partialMatch => exact commandNameHints_leading buffer
  | spec spec used =>
    obtain ⟨-, hused, hmore, -⟩ := resolveCommandPrefix_spec hres
    refine ⟨_, specHints_eq hused hmore, fun h hh ↦ ?_⟩
    split at hh
    · obtain ⟨v, -, rfl⟩ := List.mem_map.mp hh
      exact isCharBoundary_valuePrefix buffer (typedTokens buffer) (endsWithWs buffer)
    · simp at hh

/-- What is before the start of an offer stays. -/
theorem applyHintToBuffer_eq {before after : List Char} {hint : Hint}
    (h : hint.replaceFrom = byteLen before) :
    applyHintToBuffer (before ++ after) hint =
      some (before ++ (hint.replacement ++ if hint.appendSpace then [' '] else [])) := by
  have hmin : min hint.replaceFrom (byteLen (before ++ after)) = byteLen before := by
    rw [h, byteLen_append]
    omega
  rw [applyHintToBuffer, hmin, sliceTo_byteLen]
  cases hint.appendSpace <;> simp

end Kmux.App
