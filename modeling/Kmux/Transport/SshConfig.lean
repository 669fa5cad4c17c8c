import Kmux.Lib.Utf8Text

/-!
# Lines of an OpenSSH configuration

A line is cut into tokens at white space, with quotes and backslashes taken off, and only then is
the first token looked at for an `=` after the keyword. With white space before it the `=` is not in
the first token: it is a token of its own, or the front of the first argument, and is taken for a
part of the arguments.

`ConfigLine` is a line as it is meant, and `ReadsAs` says that its arguments come out. This is so
exactly under `Plain`, `readsAs_iff`.
-/

namespace Kmux.SshConfig

open Utf8Text

/-! ## The source's functions -/

/-- The loop of `tokenize_openssh_line`; the tokens so far, the one being read, the open quote, and
whether a backslash was the last character. -/
def tokenizeLoop (out : List (List Char)) (current : List Char) (quote : Option Char)
    (escaped : Bool) : List Char → List (List Char)
  | [] =>
    let current := if escaped then current ++ ['\\'] else current
    if current = [] then out else out ++ [current]
  | ch :: rest =>
    if escaped then tokenizeLoop out (current ++ [ch]) quote false rest
    else if ch = '\\' then tokenizeLoop out current quote true rest
    else
      match quote with
      | some delimiter =>
        if ch = delimiter then tokenizeLoop out current none false rest
        else tokenizeLoop out (current ++ [ch]) quote false rest
      | none =>
        if ch = '\'' ∨ ch = '"' then tokenizeLoop out current (some ch) false rest
        else if ch = '#' then if current = [] then out else out ++ [current]
        else if Utf8Text.isWhitespace ch then
          if current = [] then tokenizeLoop out [] none false rest
          else tokenizeLoop (out ++ [current]) [] none false rest
        else tokenizeLoop out (current ++ [ch]) none false rest

def tokenizeOpensshLine (line : List Char) : List (List Char) := tokenizeLoop [] [] none false line

/-- `split_once('=')`. -/
def splitOnceEquals : List Char → Option (List Char × List Char)
  | [] => none
  | ch :: rest =>
    if ch = '=' then some ([], rest)
    else (splitOnceEquals rest).map fun (key, value) ↦ (ch :: key, value)

/-- Take the `=` out of the first token. -/
def splitKeywordEquals : List (List Char) → List (List Char)
  | [] => []
  | first :: rest =>
    match splitOnceEquals first with
    | none => first :: rest
    | some (key, value) => key :: if value = [] then rest else value :: rest

def explicitHostAlias (value : List Char) : Bool :=
  !value.isEmpty && !value.head? == some '!' && !value.contains '*' && !value.contains '?' &&
    value != ['*']

/-- `eq_ignore_ascii_case`. -/
def eqIgnoreAsciiCase (s t : List Char) : Bool := s.map Char.toLower == t.map Char.toLower

/-- The keyword of a line and what follows it. -/
def readLine (line : List Char) : Option (List Char × List (List Char)) :=
  match splitKeywordEquals (tokenizeOpensshLine line) with
  | [] => none
  | key :: parts => some (key, parts)

/-- The aliases a line contributes. -/
def lineAliases (line : List Char) : List (List Char) :=
  match readLine line with
  | some (key, parts) =>
    if eqIgnoreAsciiCase key "Host".toList then parts.filter explicitHostAlias else []
  | none => []

/-! ## A line as it is meant -/

/-- A character that stands for itself outside quotes. -/
def IsWordChar (c : Char) : Prop :=
  Utf8Text.isWhitespace c = false ∧ c ≠ '\\' ∧ c ≠ '\'' ∧ c ≠ '"' ∧ c ≠ '#'

instance : DecidablePred IsWordChar := fun c ↦
  inferInstanceAs (Decidable
    (Utf8Text.isWhitespace c = false ∧ c ≠ '\\' ∧ c ≠ '\'' ∧ c ≠ '"' ∧ c ≠ '#'))

/-- White space, possibly none. -/
def IsBlank (s : List Char) : Prop := ∀ c ∈ s, Utf8Text.isWhitespace c = true

instance : DecidablePred IsBlank := fun s ↦
  decidable_of_iff (s.all Utf8Text.isWhitespace = true) List.all_eq_true

/-- A character in quotes, behind a backslash or not. -/
structure QuotedChar where
  escaped : Bool
  c : Char

def QuotedChar.text (q : QuotedChar) : List Char := if q.escaped then ['\\', q.c] else [q.c]

/-- A piece of an argument. -/
inductive Piece
  | plain (c : Char)
  | escaped (c : Char)
  | quoted (delimiter : Char) (content : List QuotedChar)

namespace Piece

def text : Piece → List Char
  | plain c => [c]
  | escaped c => ['\\', c]
  | quoted delimiter content => delimiter :: content.flatMap QuotedChar.text ++ [delimiter]

/-- What the piece stands for. -/
def value : Piece → List Char
  | plain c => [c]
  | escaped c => [c]
  | quoted _ content => content.map QuotedChar.c

def Valid : Piece → Prop
  | plain c => IsWordChar c
  | escaped _ => True
  | quoted delimiter content => (delimiter = '\'' ∨ delimiter = '"') ∧
      ∀ q ∈ content, q.escaped = false → q.c ≠ delimiter ∧ q.c ≠ '\\'

end Piece

/-- An argument, quoted or not. -/
structure Arg where
  pieces : List Piece
  ne_nil : pieces ≠ []
  valid : ∀ p ∈ pieces, p.Valid

namespace Arg

def text (a : Arg) : List Char := a.pieces.flatMap Piece.text

def value (a : Arg) : List Char := a.pieces.flatMap Piece.value

/-- A word without quotes and backslashes. -/
def ofWord (word : List Char) (hne : word ≠ []) (hword : ∀ c ∈ word, IsWordChar c) : Arg where
  pieces := word.map .plain
  ne_nil := fun h ↦ hne (List.map_eq_nil_iff.mp h)
  valid := by
    intro p hp
    obtain ⟨c, hc, rfl⟩ := List.mem_map.mp hp
    exact hword c hc

end Arg

/-- What stands between the keyword and the arguments. -/
inductive Separator
  | blank (space : List Char)
  | equals (before after : List Char)

namespace Separator

def text : Separator → List Char
  | blank space => space
  | equals before after => before ++ '=' :: after

def Valid : Separator → Prop
  | blank space => space ≠ [] ∧ IsBlank space
  | equals before after => IsBlank before ∧ IsBlank after

end Separator

/-- Arguments, each but the first with the white space before it. -/
structure Args where
  first : Arg
  rest : List (List Char × Arg)
  rest_blank : ∀ p ∈ rest, p.1 ≠ [] ∧ IsBlank p.1

namespace Args

def text (args : Args) : List Char := args.first.text ++ args.rest.flatMap fun p ↦ p.1 ++ p.2.text

def values (args : Args) : List (List Char) := args.first.value :: args.rest.map fun p ↦ p.2.value

end Args

/-- A line: indentation, keyword, separator, arguments, and white space or a comment at the end.
White space and an `=` after it are one separator. -/
structure ConfigLine where
  indent : List Char
  keyword : List Char
  sep : Separator
  args : Option Args
  space : List Char
  comment : Option (List Char)
  indent_blank : IsBlank indent
  keyword_ne : keyword ≠ []
  keyword_word : ∀ c ∈ keyword, IsWordChar c ∧ c ≠ '='
  sep_valid : sep.Valid
  sep_whole : ∀ args', args = some args' → ∀ space, sep = .blank space →
    args'.text.head? ≠ some '='
  space_blank : IsBlank space

namespace ConfigLine

def text (l : ConfigLine) : List Char :=
  l.indent ++ (l.keyword ++ (l.sep.text ++ ((l.args.elim [] Args.text) ++
    (l.space ++ l.comment.elim [] ('#' :: ·)))))

/-- The arguments. -/
def values (l : ConfigLine) : List (List Char) := l.args.elim [] Args.values

def IsHost (l : ConfigLine) : Prop := eqIgnoreAsciiCase l.keyword "Host".toList = true

/-- An argument that is an alias: neither negated nor a pattern. -/
def IsAlias (value : List Char) : Prop := value.head? ≠ some '!' ∧ '*' ∉ value ∧ '?' ∉ value

instance : DecidablePred IsAlias := fun value ↦
  inferInstanceAs (Decidable (value.head? ≠ some '!' ∧ '*' ∉ value ∧ '?' ∉ value))

/-- A host line contributes exactly its arguments that are aliases, any other line nothing. -/
def ReadsAs (l : ConfigLine) : Prop :=
  (l.IsHost → lineAliases l.text = l.values.filter fun value ↦ IsAlias value) ∧
    (¬l.IsHost → lineAliases l.text = [])

/-- No argument is empty; and no white space stands before the `=`, unless none stands after it
either and what follows is a pattern. -/
def Plain (l : ConfigLine) : Prop :=
  [] ∉ l.values ∧ ∀ before after, l.sep = .equals before after → before ≠ [] →
    after = [] ∧ ∃ first ∈ l.values.head?, '*' ∈ first ∨ '?' ∈ first

end ConfigLine

/-! ## What the tokenizer makes of the parts -/

/-- The tokens once the current one is over. -/
def flush (out : List (List Char)) (current : List Char) : List (List Char) :=
  if current = [] then out else out ++ [current]

theorem flush_nil (out : List (List Char)) : flush out [] = out := if_pos rfl

theorem flush_of_ne {current : List Char} (h : current ≠ []) (out : List (List Char)) :
    flush out current = out ++ [current] := if_neg h

section Loop

variable (out : List (List Char)) (current rest : List Char)

theorem loop_wordChar {c : Char} (hc : IsWordChar c) :
    tokenizeLoop out current none false (c :: rest) =
      tokenizeLoop out (current ++ [c]) none false rest := by
  obtain ⟨hspace, hbackslash, hquote, hquote', hcomment⟩ := hc
  simp [tokenizeLoop, hspace, hbackslash, hquote, hquote', hcomment]

theorem loop_word {word : List Char} (hword : ∀ c ∈ word, IsWordChar c) :
    tokenizeLoop out current none false (word ++ rest) =
      tokenizeLoop out (current ++ word) none false rest := by
  induction word generalizing current with
  | nil => rw [List.nil_append, List.append_nil]
  | cons c word ih =>
    rw [List.cons_append, loop_wordChar _ _ _ (hword c List.mem_cons_self),
      ih _ fun d hd ↦ hword d (List.mem_cons_of_mem c hd), List.append_assoc,
      List.singleton_append]

theorem ne_of_isWhitespace {c d : Char} (hc : Utf8Text.isWhitespace c = true)
    (hd : Utf8Text.isWhitespace d = false) : c ≠ d := by
  rintro rfl
  rw [hc] at hd
  cases hd

theorem loop_space {c : Char} (hc : Utf8Text.isWhitespace c = true) :
    tokenizeLoop out current none false (c :: rest) =
      tokenizeLoop (flush out current) [] none false rest := by
  have hbackslash := ne_of_isWhitespace hc (d := '\\') (by decide)
  have hquote := ne_of_isWhitespace hc (d := '\'') (by decide)
  have hquote' := ne_of_isWhitespace hc (d := '"') (by decide)
  have hcomment := ne_of_isWhitespace hc (d := '#') (by decide)
  by_cases hcurrent : current = []
  · simp [tokenizeLoop, flush, hc, hbackslash, hquote, hquote', hcomment, hcurrent]
  · simp [tokenizeLoop, flush, hc, hbackslash, hquote, hquote', hcomment, hcurrent]

theorem loop_blank {space : List Char} (hblank : IsBlank space) (hne : space ≠ []) :
    tokenizeLoop out current none false (space ++ rest) =
      tokenizeLoop (flush out current) [] none false rest := by
  induction space generalizing out current with
  | nil => exact absurd rfl hne
  | cons c space ih =>
    rw [List.cons_append, loop_space _ _ _ (hblank c List.mem_cons_self)]
    by_cases hspace : space = []
    · rw [hspace, List.nil_append]
    · rw [ih _ _ (fun d hd ↦ hblank d (List.mem_cons_of_mem c hd)) hspace, flush_nil]

/-- White space where no token has begun. -/
theorem loop_skip {space : List Char} (hblank : IsBlank space) :
    tokenizeLoop out [] none false (space ++ rest) = tokenizeLoop out [] none false rest := by
  by_cases hspace : space = []
  · rw [hspace, List.nil_append]
  · rw [loop_blank _ _ _ hblank hspace, flush_nil]

theorem loop_quoted {delimiter : Char} (hdelimiter : delimiter = '\'' ∨ delimiter = '"')
    {content : List QuotedChar}
    (hcontent : ∀ q ∈ content, q.escaped = false → q.c ≠ delimiter ∧ q.c ≠ '\\') :
    tokenizeLoop out current (some delimiter) false
        (content.flatMap QuotedChar.text ++ (delimiter :: rest)) =
      tokenizeLoop out (current ++ content.map QuotedChar.c) none false rest := by
  have hbackslash : delimiter ≠ '\\' := by
    obtain rfl | rfl := hdelimiter <;> decide
  induction content generalizing current with
  | nil => simp [tokenizeLoop, hbackslash]
  | cons q content ih =>
    have ih := ih (current ++ [q.c]) fun q hq ↦ hcontent q (List.mem_cons_of_mem _ hq)
    rw [List.append_assoc, List.singleton_append] at ih
    rw [List.flatMap_cons, List.append_assoc, List.map_cons, ← ih, QuotedChar.text]
    cases hescaped : q.escaped with
    | true => simp [tokenizeLoop]
    | false =>
      obtain ⟨hne, hne'⟩ := hcontent q List.mem_cons_self hescaped
      simp [tokenizeLoop, hne, hne']

theorem loop_piece {p : Piece} (hp : p.Valid) :
    tokenizeLoop out current none false (p.text ++ rest) =
      tokenizeLoop out (current ++ p.value) none false rest := by
  cases p with
  | plain c => exact loop_wordChar out current rest hp
  | escaped c => simp [Piece.text, Piece.value, tokenizeLoop]
  | quoted delimiter content =>
    obtain ⟨hdelimiter, hcontent⟩ := hp
    have hbackslash : delimiter ≠ '\\' := by
      obtain rfl | rfl := hdelimiter <;> decide
    rw [Piece.text, List.append_assoc, List.cons_append, List.singleton_append]
    simp only [tokenizeLoop, Bool.false_eq_true, if_false, if_neg hbackslash, if_pos hdelimiter]
    exact loop_quoted out current rest hdelimiter hcontent

theorem loop_arg (a : Arg) :
    tokenizeLoop out current none false (a.text ++ rest) =
      tokenizeLoop out (current ++ a.value) none false rest := by
  obtain ⟨pieces, hne, hvalid⟩ := a
  rw [Arg.text, Arg.value]
  dsimp only
  clear hne
  induction pieces generalizing current with
  | nil => simp
  | cons p pieces ih =>
    rw [List.flatMap_cons, List.append_assoc, loop_piece _ _ _ (hvalid p List.mem_cons_self),
      ih _ fun q hq ↦ hvalid q (List.mem_cons_of_mem p hq), List.append_assoc,
      ← List.flatMap_cons]

/-- The end of a line. -/
theorem loop_end {space : List Char} (hblank : IsBlank space) (comment : Option (List Char)) :
    tokenizeLoop out current none false (space ++ comment.elim [] ('#' :: ·)) =
      flush out current := by
  have hdone : ∀ out current, tokenizeLoop out current none false
      (comment.elim [] ('#' :: ·)) = flush out current := by
    intro out current
    cases comment with
    | none => simp [tokenizeLoop, flush]
    | some text => simp [tokenizeLoop, flush]
  by_cases hspace : space = []
  · rw [hspace, List.nil_append, hdone]
  · rw [loop_blank _ _ _ hblank hspace, hdone, flush_nil]

end Loop

/-- The tokens of arguments: those that are not empty, the first one joined to what was begun. -/
theorem loop_args (out : List (List Char)) (current : List Char) (args : Option Args)
    {space : List Char} (hblank : IsBlank space) (comment : Option (List Char)) :
    tokenizeLoop out current none false
        (args.elim [] Args.text ++ (space ++ comment.elim [] ('#' :: ·))) =
      args.elim (flush out current) fun args ↦ flush out (current ++ args.first.value) ++
        (args.rest.map fun p ↦ p.2.value).filter (· ≠ []) := by
  cases args with
  | none => exact loop_end out current hblank comment
  | some args =>
    obtain ⟨first, rest, hrest⟩ := args
    rw [Option.elim_some, Option.elim_some, Args.text]
    dsimp only
    rw [List.append_assoc, loop_arg]
    generalize current ++ first.value = current
    induction rest generalizing out current with
    | nil => simpa using loop_end out current hblank comment
    | cons p rest ih =>
      obtain ⟨gap, a⟩ := p
      obtain ⟨hne, hgap⟩ := hrest _ List.mem_cons_self
      dsimp only at hne hgap
      rw [List.flatMap_cons, List.append_assoc, List.append_assoc, loop_blank _ _ _ hgap hne,
        loop_arg, List.nil_append, ih _ (fun q hq ↦ hrest q (List.mem_cons_of_mem _ hq)),
        List.map_cons]
      by_cases hvalue : a.value = []
      · rw [hvalue, flush_nil, List.filter_cons_of_neg (by simp)]
      · rw [flush_of_ne hvalue, List.filter_cons_of_pos (by simpa using hvalue), List.append_assoc,
          List.singleton_append]

namespace ConfigLine

variable (l : ConfigLine)

/-- The tokens up to the arguments, and what the first argument is joined to. -/
def head : List (List Char) × List Char :=
  match l.sep with
  | .blank _ => ([l.keyword], [])
  | .equals before after =>
    if before = [] then
      if after = [] then ([], l.keyword ++ ['=']) else ([l.keyword ++ ['=']], [])
    else if after = [] then ([l.keyword], ['=']) else ([l.keyword, ['=']], [])

theorem tokenize_text :
    tokenizeOpensshLine l.text =
      l.args.elim (flush l.head.1 l.head.2) fun args ↦
        flush l.head.1 (l.head.2 ++ args.first.value) ++
          (args.rest.map fun p ↦ p.2.value).filter (· ≠ []) := by
  have hequals : IsWordChar '=' := by
    refine ⟨by decide, ?_, ?_, ?_, ?_⟩ <;> decide
  have hkeyword : ∀ c ∈ l.keyword, IsWordChar c := fun c hc ↦ (l.keyword_word c hc).1
  have hne : l.keyword ≠ [] := l.keyword_ne
  have hvalid := l.sep_valid
  rw [tokenizeOpensshLine, text, loop_skip _ _ l.indent_blank, loop_word _ _ _ hkeyword,
    List.nil_append, ← loop_args l.head.1 l.head.2 l.args l.space_blank l.comment, head]
  cases hsep : l.sep with
  | blank space =>
    rw [hsep] at hvalid
    rw [Separator.text, loop_blank _ _ _ hvalid.2 hvalid.1, flush_of_ne hne, List.nil_append]
  | equals before after =>
    rw [hsep] at hvalid
    have hafter : ∀ out current rest, current ≠ [] → tokenizeLoop out current none false
        (after ++ rest) = if after = [] then tokenizeLoop out current none false rest
          else tokenizeLoop (out ++ [current]) [] none false rest := by
      intro out current rest hcurrent
      split_ifs with hnil
      · rw [hnil, List.nil_append]
      · rw [loop_blank _ _ _ hvalid.2 hnil, flush_of_ne hcurrent]
    rw [Separator.text, List.append_assoc, List.cons_append]
    dsimp only
    by_cases hbefore : before = []
    · rw [hbefore, List.nil_append, loop_wordChar _ _ _ hequals, hafter _ _ _ (by simp),
        if_pos rfl]
      split_ifs <;> rfl
    · rw [loop_blank _ _ _ hvalid.1 hbefore, flush_of_ne hne, loop_wordChar _ _ _ hequals,
        hafter _ _ _ (by simp), if_neg hbefore]
      split_ifs <;> rfl

/-! ## What a line contributes -/

/-- What the code takes for the arguments. -/
def parts : List (List Char) :=
  match l.sep with
  | .blank _ => l.values.filter (· ≠ [])
  | .equals before after =>
    if before = [] then l.values.filter (· ≠ [])
    else if after = [] then
      l.args.elim [['=']] fun args ↦
        ('=' :: args.first.value) :: (args.rest.map fun p ↦ p.2.value).filter (· ≠ [])
    else ['='] :: l.values.filter (· ≠ [])

theorem splitOnceEquals_eq_none {key : List Char} (h : ∀ c ∈ key, c ≠ '=') :
    splitOnceEquals key = none := by
  induction key with
  | nil => rfl
  | cons c key ih =>
    rw [splitOnceEquals, if_neg (h c List.mem_cons_self),
      ih fun d hd ↦ h d (List.mem_cons_of_mem c hd)]
    rfl

theorem splitOnceEquals_append {key : List Char} (h : ∀ c ∈ key, c ≠ '=') (value : List Char) :
    splitOnceEquals (key ++ '=' :: value) = some (key, value) := by
  induction key with
  | nil => simp [splitOnceEquals]
  | cons c key ih =>
    rw [List.cons_append, splitOnceEquals, if_neg (h c List.mem_cons_self),
      ih fun d hd ↦ h d (List.mem_cons_of_mem c hd)]
    rfl

theorem flush_append (out : List (List Char)) (value : List Char) (rest : List (List Char)) :
    flush out value ++ rest.filter (· ≠ []) = out ++ (value :: rest).filter (· ≠ []) := by
  by_cases hvalue : value = []
  · rw [hvalue, flush_nil, List.filter_cons_of_neg (by simp)]
  · rw [flush_of_ne hvalue, List.filter_cons_of_pos (by simpa using hvalue), List.append_assoc,
      List.singleton_append]

/-- Arguments that begin a token of their own. -/
theorem elim_flush (out : List (List Char)) :
    (l.args.elim (flush out []) fun args ↦ flush out ([] ++ args.first.value) ++
      (args.rest.map fun p ↦ p.2.value).filter (· ≠ [])) =
      out ++ l.values.filter (· ≠ []) := by
  rw [values]
  cases l.args with
  | none => simp [flush_nil]
  | some args => exact flush_append out args.first.value _

theorem splitKeywordEquals_bare (rest : List (List Char)) :
    splitKeywordEquals (l.keyword :: rest) = l.keyword :: rest := by
  rw [splitKeywordEquals, splitOnceEquals_eq_none fun c hc ↦ (l.keyword_word c hc).2]

theorem splitKeywordEquals_joined (value : List Char) (rest : List (List Char)) :
    splitKeywordEquals ((l.keyword ++ '=' :: value) :: rest) =
      l.keyword :: if value = [] then rest else value :: rest := by
  rw [splitKeywordEquals, splitOnceEquals_append fun c hc ↦ (l.keyword_word c hc).2]

theorem readLine_text : readLine l.text = some (l.keyword, l.parts) := by
  suffices h : splitKeywordEquals (tokenizeOpensshLine l.text) = l.keyword :: l.parts by
    rw [readLine, h]
  rw [tokenize_text, head, parts]
  cases l.sep with
  | blank space =>
    dsimp only
    rw [elim_flush, List.singleton_append, splitKeywordEquals_bare]
  | equals before after =>
    dsimp only
    by_cases hbefore : before = [] <;> by_cases hafter : after = []
    · -- the first argument is behind the `=` in the first token
      simp only [if_pos hbefore, if_pos hafter]
      rw [values]
      cases l.args with
      | none =>
        rw [Option.elim_none, Option.elim_none, flush_of_ne (by simp)]
        exact splitKeywordEquals_joined l [] []
      | some args =>
        rw [Option.elim_some, Option.elim_some, Args.values, flush_of_ne (by simp),
          List.nil_append, List.singleton_append, List.append_assoc, List.singleton_append,
          splitKeywordEquals_joined]
        by_cases hvalue : args.first.value = []
        · rw [if_pos hvalue, List.filter_cons_of_neg (by simpa using hvalue)]
        · rw [if_neg hvalue, List.filter_cons_of_pos (by simpa using hvalue)]
    · simp only [if_pos hbefore, if_neg hafter]
      rw [elim_flush, List.singleton_append, splitKeywordEquals_joined, if_pos rfl]
    · simp only [if_neg hbefore, if_pos hafter]
      cases l.args with
      | none => exact splitKeywordEquals_bare l [['=']]
      | some args =>
        rw [Option.elim_some, Option.elim_some, flush_of_ne (by simp)]
        exact splitKeywordEquals_bare l _
    · simp only [if_neg hbefore, if_neg hafter]
      rw [elim_flush, List.cons_append, List.singleton_append, splitKeywordEquals_bare]

/-! ## The exact condition -/

theorem explicitHostAlias_iff (value : List Char) :
    explicitHostAlias value = true ↔ value ≠ [] ∧ IsAlias value := by
  have hstar : value ≠ ['*'] ∨ '*' ∈ value := by
    by_cases h : value = ['*']
    · exact .inr (h ▸ List.mem_singleton_self _)
    · exact .inl h
  simp only [explicitHostAlias, IsAlias, Bool.and_eq_true, Bool.not_eq_true', bne_iff_ne,
    List.isEmpty_eq_false_iff, beq_eq_false_iff_ne, List.contains_eq_mem, decide_eq_false_iff_not]
  tauto

/-- With the empty ones left out the arguments come out as they should unless there was one. -/
theorem filter_explicit_eq_iff (values : List (List Char)) :
    ((values.filter (· ≠ [])).filter explicitHostAlias = values.filter fun value ↦ IsAlias value) ↔
      [] ∉ values := by
  constructor
  · intro h hmem
    have halias : [] ∈ values.filter fun value ↦ IsAlias value :=
      List.mem_filter.mpr ⟨hmem, by decide⟩
    rw [← h] at halias
    exact absurd (List.mem_filter.mp halias).2 (by decide)
  · intro h
    have hall : values.filter (· ≠ []) = values :=
      List.filter_eq_self.mpr fun value hvalue ↦ by
        simpa using fun hnil : value = [] ↦ h (hnil ▸ hvalue)
    rw [hall]
    refine List.filter_congr fun value hvalue ↦ ?_
    rw [Bool.eq_iff_iff, explicitHostAlias_iff, decide_eq_true_iff]
    exact and_iff_right fun hnil ↦ h (hnil ▸ hvalue)

/-- An alias too many. -/
theorem cons_ne_filter {extra : List Char} (hne : extra ≠ []) (values : List (List Char)) :
    extra :: (values.filter (· ≠ [])).filter explicitHostAlias ≠
      values.filter fun value ↦ IsAlias value := by
  intro h
  have hempty : [] ∉ values := by
    intro hmem
    have halias : [] ∈ values.filter fun value ↦ IsAlias value :=
      List.mem_filter.mpr ⟨hmem, by decide⟩
    rw [← h] at halias
    obtain heq | hin := List.mem_cons.mp halias
    · exact hne heq.symm
    · exact absurd (List.mem_filter.mp hin).2 (by decide)
  rw [(filter_explicit_eq_iff values).mpr hempty] at h
  exact List.cons_ne_self _ _ h

/-- An `=` behind white space may only be lost with the pattern it is joined to. -/
theorem strayEquals_iff {after : List Char} :
    ((if after = [] then
        l.args.elim [['=']] fun args ↦
          ('=' :: args.first.value) :: (args.rest.map fun p ↦ p.2.value).filter (· ≠ [])
      else ['='] :: l.values.filter (· ≠ [])).filter explicitHostAlias =
        l.values.filter fun value ↦ IsAlias value) ↔
      [] ∉ l.values ∧ after = [] ∧ ∃ first ∈ l.values.head?, '*' ∈ first ∨ '?' ∈ first := by
  have hequals : explicitHostAlias ['='] = true := by decide
  by_cases hafter : after = []
  · rw [if_pos hafter, values]
    cases l.args with
    | none => simp [hequals]
    | some args =>
      rw [Option.elim_some, Option.elim_some, Args.values]
      generalize args.first.value = first
      generalize (args.rest.map fun p ↦ p.2.value) = rest
      by_cases hpattern : '*' ∈ first ∨ '?' ∈ first
      · -- neither is an alias, so the rest decides
        have hjoined : ¬explicitHostAlias ('=' :: first) = true := by
          rw [explicitHostAlias_iff, IsAlias]
          rintro ⟨-, -, hstar, hmark⟩
          exact hpattern.elim (fun h ↦ hstar (List.mem_cons_of_mem _ h))
            fun h ↦ hmark (List.mem_cons_of_mem _ h)
        have hfirst : ¬IsAlias first := fun h ↦ hpattern.elim h.2.1 h.2.2
        have hne : first ≠ [] := by
          rintro rfl
          simp at hpattern
        rw [List.filter_cons_of_neg hjoined, List.filter_cons_of_neg (by simpa using hfirst),
          filter_explicit_eq_iff]
        simp [hafter, hpattern, hne.symm]
      · have hjoined : explicitHostAlias ('=' :: first) = true := by
          rw [explicitHostAlias_iff, IsAlias]
          simpa [not_or] using hpattern
        rw [List.filter_cons_of_pos hjoined]
        refine iff_of_false ?_ ?_
        · by_cases hfirst : IsAlias first
          · rw [List.filter_cons_of_pos (by simpa using hfirst)]
            exact fun h ↦ List.cons_ne_self _ _ (List.cons.inj h).1
          · rw [List.filter_cons_of_neg (by simpa using hfirst)]
            exact cons_ne_filter (List.cons_ne_nil _ _) rest
        · rintro ⟨-, -, value, hvalue, hmatch⟩
          obtain rfl : first = value := Option.some.inj hvalue
          exact hpattern hmatch
  · rw [if_neg hafter, List.filter_cons_of_pos hequals]
    exact iff_of_false (cons_ne_filter (by simp) _) fun h ↦ hafter h.2.1

/-- The code's arguments of a host line are those meant exactly for a plain line. -/
theorem parts_filter_iff :
    (l.parts.filter explicitHostAlias = l.values.filter fun value ↦ IsAlias value) ↔ l.Plain := by
  rw [parts, Plain]
  cases l.sep with
  | blank space =>
    rw [filter_explicit_eq_iff]
    exact (and_iff_left fun before after h ↦ nomatch h).symm
  | equals before after =>
    simp only [Separator.equals.injEq]
    by_cases hbefore : before = []
    · rw [if_pos hbefore, filter_explicit_eq_iff]
      refine (and_iff_left ?_).symm
      rintro _ _ ⟨rfl, -⟩ hne
      exact absurd hbefore hne
    · rw [if_neg hbefore, strayEquals_iff]
      refine and_congr_right fun _ ↦ ⟨?_, fun h ↦ h before after ⟨rfl, rfl⟩ hbefore⟩
      rintro h _ _ ⟨rfl, rfl⟩ -
      exact h

/-- **Lines.** -/
theorem readsAs_iff : l.ReadsAs ↔ (l.IsHost → l.Plain) := by
  rw [ReadsAs, lineAliases, readLine_text]
  dsimp only
  by_cases hhost : l.IsHost
  · have hkey : eqIgnoreAsciiCase l.keyword "Host".toList = true := hhost
    rw [if_pos hkey, parts_filter_iff]
    exact ⟨fun h ↦ h.1, fun h ↦ ⟨h, fun hnot ↦ absurd hhost hnot⟩⟩
  · have hkey : ¬eqIgnoreAsciiCase l.keyword "Host".toList = true := hhost
    rw [if_neg hkey]
    exact iff_of_true ⟨fun h ↦ absurd h hhost, fun _ ↦ rfl⟩ fun h ↦ absurd h hhost

end ConfigLine

end Kmux.SshConfig
