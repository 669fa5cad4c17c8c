import Kmux.App.Completion

/-!
# What completion inserts

An offer shows a value; what taking it leaves in the buffer is to be the tokens before, then the
value as one token, with the command that was being typed. Whether it is depends on two things. The
token typed so far has to be there in the buffer as it is, without quotes, for its start to be
found. And the value has to survive being read back: in quotes if it holds white space, and then
without a double quote; otherwise without a quote at its start, and it cannot be empty.

`completion_iff` is that these are all.
-/

namespace Kmux.App

open Utf8Text

/-- The tokens before the argument that is completed. -/
def completedTokens (buffer : List Char) : List (List Char) :=
  if endsWithWs buffer then typedTokens buffer else (typedTokens buffer).dropLast

/-- The offer of a value for an argument of a command. -/
def Offered (sessions : List (List Char)) (buffer : List Char) (spec : CommandSpec) (v : List Char)
    (hint : Hint) : Prop :=
  ∃ used arg,
    resolveCommandPrefix (typedTokens buffer) (endsWithWs buffer) = .spec spec used ∧
    spec.args[argIndex (typedTokens buffer).length used (endsWithWs buffer)]? = some arg ∧
    v ∈ values sessions buffer arg ∧
    hint = valueHint (argIndex (typedTokens buffer).length used (endsWithWs buffer))
      (valueStart buffer) v

/-- Once a command is resolved, the rows of the dropdown are the offers of values. -/
theorem mem_buildHints_iff {sessions : List (List Char)} {buffer : List Char} {spec : CommandSpec}
    {used : ℕ} (hres : resolveCommandPrefix (typedTokens buffer) (endsWithWs buffer) =
      .spec spec used) {hints : List Hint} (h : buildHints sessions buffer = some hints)
    (hint : Hint) : hint ∈ hints ↔ ∃ v, Offered sessions buffer spec v hint := by
  obtain ⟨-, hused, hmore, -⟩ := resolveCommandPrefix_spec hres
  simp only [buildHints, hres] at h
  rw [specHints_eq hused hmore, Option.some.injEq] at h
  constructor
  · intro hmem
    rw [← h] at hmem
    split at hmem
    case h_1 arg harg =>
      obtain ⟨v, hv, rfl⟩ := List.mem_map.mp hmem
      exact ⟨v, used, arg, hres, harg, hv, rfl⟩
    case h_2 => simp at hmem
  · rintro ⟨v, used', arg, hres', harg, hv, rfl⟩
    obtain rfl : used = used' := by simpa [hres] using hres'
    rw [← h, harg]
    exact List.mem_map_of_mem hv

/-! ## Values that are read back -/

/-- A value that is read back as one token. -/
def Writable (v : List Char) : Prop :=
  v ≠ [] ∧ if v.any isWhitespace then '"' ∉ v else ∀ c ∈ v.head?, isQuote c = false

/-- A token in quotes ends at the first quote. -/
theorem tokenize_quote_eq_ok {q : Char} (hq : isQuote q = true) {s : List Char} {t : List Char}
    {ts : List (List Char)} (h : tokenize (q :: s) = .ok (t :: ts)) :
    ∃ rest, s = t ++ q :: rest ∧ q ∉ t := by
  rw [tokenize_eq, trimStart,
    List.dropWhile_cons_of_neg (Bool.eq_false_iff.mp (isWhitespace_of_isQuote hq))] at h
  simp only [hq, if_true] at h
  cases hread : readQuoted q s with
  | none => simp [hread] at h
  | some p =>
    simp only [hread] at h
    cases hts : tokenize p.2 with
    | error e => simp [hts, Except.map] at h
    | ok ts' =>
      obtain ⟨rfl, -⟩ : p.1 = t ∧ ts' = ts := by simpa [hts, Except.map] using h
      exact ⟨p.2, readQuoted_eq_some.mp hread⟩

theorem tokenize_maybeQuote_iff (v : List Char) :
    tokenize (maybeQuote v ++ [' ']) = .ok [v] ↔ Writable v := by
  have hspace : Reads [' '] [] [] := .space (by decide) (.done [])
  have hnil : tokenize [] = .ok [] := rfl
  rw [maybeQuote, Writable]
  by_cases hws : v.any isWhitespace = true
  · have hne : v ≠ [] := by
      rintro rfl
      exact absurd hws (by simp)
    rw [if_pos hws, if_pos hws]
    have hjoin : '"' :: v ++ ['"'] ++ [' '] = '"' :: (v ++ '"' :: [' ']) := by simp
    rw [hjoin]
    constructor
    · intro h
      obtain ⟨rest, -, hnot⟩ := tokenize_quote_eq_ok (by decide) h
      exact ⟨hne, hnot⟩
    · rintro ⟨-, hnot⟩
      have hread : Reads ('"' :: (v ++ '"' :: [' '])) [v] [] := .quoted (by decide) hnot hspace
      rw [hread.tokenize, hnil]
      rfl
  · rw [if_neg hws, if_neg hws]
    have hplain : ∀ c ∈ v, isWhitespace c = false := by simpa using hws
    match v, hplain with
    | [], _ =>
      simp only [ne_eq, not_true_eq_false, false_and, iff_false, List.nil_append]
      decide
    | c :: v, hplain =>
      by_cases hq : isQuote c = true
      · constructor
        · intro h
          obtain ⟨rest, hv, -⟩ := tokenize_quote_eq_ok hq h
          have hlen := congrArg List.length hv
          simp at hlen
        · rintro ⟨-, hhead⟩
          rw [hhead c rfl] at hq
          exact absurd hq Bool.false_ne_true
      · have hhead : ∀ d ∈ (c :: v).head?, isQuote d = false := by
          rintro d hd
          obtain rfl : c = d := by simpa using hd
          exact Bool.eq_false_iff.mpr hq
        refine iff_of_true ?_ ⟨List.cons_ne_nil c v, hhead⟩
        have hread : Reads (c :: v ++ [' ']) [c :: v] [] :=
          .word ⟨List.cons_ne_nil c v, hplain, hhead⟩ (by simp; decide) hspace
        rw [hread.tokenize, hnil]
        rfl

/-! ## What is found of the token typed so far -/

theorem typedTokens_eq {buffer : List Char} {ts : List (List Char)}
    (h : tokenize buffer = .ok ts) : typedTokens buffer = ts := by
  rw [typedTokens, h]
  rfl

/-- The value fits where the token typed so far stands: after white space, in place of a token
without quotes, or, if it is empty, after an empty pair of quotes. -/
def Fits (buffer v : List Char) : Prop :=
  if endsWithWs buffer then Writable v
  else
    let last := (typedTokens buffer).getLast?.getD []
    (last ≠ [] ∧ last <:+ buffer ∧ Writable v) ∨ (last = [] ∧ v = [])

/-- A text is found where it ends the buffer. -/
theorem findLastTokenStart_append {b w : List Char} :
    findLastTokenStart (b ++ w) w = some (byteLen b) := by
  have hlower : lower (b ++ w) = lower b ++ lower w ++ [] := by
    rw [List.append_nil]
    exact List.map_append
  rw [findLastTokenStart, hlower, rfindText_append, byteLen_lower]
  intro a r h
  have hlen := congrArg List.length h
  simp only [List.length_append, List.length_nil] at hlen
  exact List.length_eq_zero_iff.mp (by omega)

theorem toLower_eq_of_isQuote {q : Char} (hq : isQuote q = true) : q.toLower = q := by
  rw [isQuote, Bool.or_eq_true, beq_iff_eq, beq_iff_eq] at hq
  obtain rfl | rfl := hq
  · decide
  · decide

theorem not_mem_lower_of_isQuote {q : Char} (hq : isQuote q = true) {s : List Char} (hs : q ∉ s) :
    q ∉ lower s := by
  intro hmem
  obtain ⟨c, hc, hlower⟩ := List.mem_map.mp hmem
  obtain heq | ⟨hlow, hhigh, hshift⟩ := toLower_cases c
  · exact hs (heq.symm.trans hlower ▸ hc)
  · rw [hlower] at hshift
    rw [isQuote, Bool.or_eq_true, beq_iff_eq, beq_iff_eq] at hq
    obtain rfl | rfl := hq
    · have : ('"' : Char).toNat = 34 := rfl
      omega
    · have : ('\'' : Char).toNat = 39 := rfl
      omega

/-- The text of a token in quotes is found after the opening quote. -/
theorem findLastTokenStart_quoted {b token : List Char} {q : Char} (hq : isQuote q = true)
    (htoken : q ∉ token) :
    findLastTokenStart (b ++ q :: (token ++ [q])) token =
      some (if token = [] then byteLen (b ++ q :: (token ++ [q])) else byteLen (b ++ [q])) := by
  by_cases hne : token = []
  · subst hne
    rw [if_pos rfl]
    have := findLastTokenStart_append (b := b ++ q :: ([] ++ [q])) (w := [])
    rwa [List.append_nil] at this
  · rw [if_neg hne]
    have hlower : lower (b ++ q :: (token ++ [q])) = lower (b ++ [q]) ++ lower token ++ [q] := by
      simp [lower, toLower_eq_of_isQuote hq]
    rw [findLastTokenStart, hlower, rfindText_append, byteLen_lower]
    intro a r h
    -- one character further on, the text would have to end with the closing quote
    rcases a with _ | ⟨x, a⟩
    · rfl
    · have hlen := congrArg List.length h
      simp only [List.length_append, List.length_cons, List.length_nil] at hlen
      obtain rfl : a = [] := List.length_eq_zero_iff.mp (by omega)
      obtain rfl : r = [] := List.length_eq_zero_iff.mp (by simp at hlen; omega)
      have hne' : lower token ≠ [] := by simpa [lower] using hne
      have hlast := congrArg List.getLast? h
      rw [List.append_nil, List.getLast?_concat, List.singleton_append,
        List.getLast?_cons_of_ne_nil hne'] at hlast
      exact absurd (List.mem_of_getLast? hlast.symm) (not_mem_lower_of_isQuote hq htoken)

/-- A text that goes on as it did one character before is one character throughout. -/
theorem eq_of_prefix_cons {v s : List Char} {c : Char} (h : v <+: c :: v ++ s) :
    ∀ x ∈ v, x = c := by
  induction v with
  | nil => simp
  | cons d v ih =>
    obtain ⟨r, hr⟩ := h
    rw [List.cons_append, List.cons_append] at hr
    obtain ⟨rfl, htail⟩ := List.cons.inj hr
    intro x hx
    obtain rfl | hx := List.mem_cons.mp hx
    · rfl
    · exact ih ⟨r, htail⟩ x hx

/-- After an opening quote that is left behind, no value is read back. -/
theorem tokenize_after_quote {q : Char} (hq : isQuote q = true) (v : List Char) :
    tokenize (q :: (maybeQuote v ++ [' '])) ≠ .ok [v] := by
  intro h
  obtain ⟨rest, hv, -⟩ := tokenize_quote_eq_ok hq h
  rw [maybeQuote] at hv
  split_ifs at hv with hws
  · obtain ⟨c, hc, hspace⟩ := List.any_eq_true.mp hws
    have hprefix : v <+: '"' :: v ++ ['"', ' '] := ⟨q :: rest, by rw [← hv]; simp⟩
    rw [eq_of_prefix_cons hprefix c hc] at hspace
    exact absurd hspace (by decide)
  · have hq' := (List.cons.inj (List.append_cancel_left hv)).1
    rw [← hq'] at hq
    exact absurd hq (by decide)

/-! ## The tokens after completion -/

/-- The buffer after the offer of a value is taken. -/
def completed (buffer v : List Char) : Option (List Char) :=
  applyHintToBuffer buffer (valueHint 0 (valueStart buffer) v)

private theorem endsWithWs_concat (b : List Char) (c : Char) :
    endsWithWs (b ++ [c]) = isWhitespace c := by
  rw [endsWithWs, List.getLast?_concat]
  rfl

private theorem completed_append {b e v : List Char} (h : valueStart (b ++ e) = byteLen b) :
    completed (b ++ e) v = some (b ++ (maybeQuote v ++ [' '])) := by
  have happly : applyHintToBuffer (b ++ e) (valueHint 0 (valueStart (b ++ e)) v)
      = some (b ++ (maybeQuote v ++ [' '])) := applyHintToBuffer_eq h
  exact happly

/-- Where the value replaces everything from a place on, what is read before that place stays. -/
private theorem completed_tokens {b e v : List Char} {ts : List (List Char)}
    (us : List (List Char))
    (hstart : valueStart (b ++ e) = byteLen b) (hread : ∀ s, Reads (b ++ s) ts s) :
    (∃ result, completed (b ++ e) v = some result ∧ tokenize result = .ok us) ↔
      (tokenize (maybeQuote v ++ [' '])).map (ts ++ ·) = .ok us := by
  rw [completed_append hstart]
  simp only [Option.some.injEq, exists_eq_left']
  rw [(hread _).tokenize]

/-- An empty token stays where the value follows it, so that only the empty value is read back. -/
private theorem after_emptyToken_iff {v : List Char} {ts : List (List Char)} :
    (tokenize (maybeQuote v ++ [' '])).map (ts ++ [[]] ++ ·) = .ok (ts ++ [v]) ↔ v = [] := by
  have hmap (x : List (List Char)) : ts ++ [[]] ++ x = ts ++ [v] ↔ v = [] ∧ x = [] := by
    rw [List.append_assoc, List.append_cancel_left_eq]
    simp [eq_comm]
  constructor
  · intro h
    cases htail : tokenize (maybeQuote v ++ [' ']) with
    | error e => simp [htail, Except.map] at h
    | ok x =>
      rw [htail] at h
      exact ((hmap x).mp (Except.ok.inj h)).1
  · rintro rfl
    have htail : tokenize (maybeQuote [] ++ [' ']) = .ok [] := by decide
    rw [htail]
    exact congrArg Except.ok ((hmap []).mpr ⟨rfl, rfl⟩)

/-- After taking an offer the tokens are those before and the value, exactly if the value fits. -/
theorem tokens_iff {buffer v : List Char} (htyped : typedTokens buffer ≠ []) :
    (∃ result, completed buffer v = some result ∧
      tokenize result = .ok (completedTokens buffer ++ [v])) ↔ Fits buffer v := by
  obtain ⟨ts, hts⟩ : ∃ ts, tokenize buffer = .ok ts := by
    cases h : tokenize buffer with
    | ok ts => exact ⟨ts, rfl⟩
    | error e => simp [typedTokens, h, Except.toOption] at htyped
  rw [Fits, completedTokens]
  rw [typedTokens_eq hts] at htyped ⊢
  cases ending_of_reads (reads_of_tokenize hts) rfl with
  | nil => exact absurd rfl htyped
  | @space b c ts hc hread =>
    have hends : endsWithWs (b ++ [c]) = true := by rw [endsWithWs_concat, hc]
    have hstart : valueStart (b ++ [c] ++ []) = byteLen (b ++ [c]) := by
      rw [List.append_nil, valueStart, valuePrefix, hends]
      rfl
    have htokens := completed_tokens (v := v) (ts ++ [v]) hstart hread
    rw [List.append_nil] at htokens
    rw [hends, if_pos rfl, if_pos rfl, htokens, ok_map_append_iff, tokenize_maybeQuote_iff]
  | @quoted b token q ts hq htoken hread =>
    have hjoin : b ++ q :: (token ++ [q]) = (b ++ q :: token) ++ [q] := by simp
    have hends : endsWithWs (b ++ q :: (token ++ [q])) = false := by
      rw [hjoin, endsWithWs_concat, isWhitespace_of_isQuote hq]
    have hstart : valueStart (b ++ q :: (token ++ [q])) =
        if token = [] then byteLen (b ++ q :: (token ++ [q])) else byteLen (b ++ [q]) := by
      rw [valueStart, valuePrefix, hends, typedTokens_eq hts]
      simp [findLastTokenStart_quoted hq htoken]
    rw [hends]
    simp only [Bool.false_eq_true, if_false, List.dropLast_concat, List.getLast?_concat,
      Option.getD_some]
    by_cases hempty : token = []
    · subst hempty
      rw [if_pos rfl] at hstart
      set buffer := b ++ q :: ([] ++ [q]) with hbuffer
      have hread' (s : List Char) : Reads (buffer ++ s) (ts ++ [[]]) s := by
        have h := (hread (q :: ([] ++ q :: s))).trans (.quoted hq List.not_mem_nil (.done s))
        simpa [hbuffer] using h
      have htokens := completed_tokens (e := []) (v := v) (ts ++ [v])
        (by rw [List.append_nil, hstart]) hread'
      rw [List.append_nil] at htokens
      simp only [ne_eq, not_true_eq_false, false_and, true_and, false_or]
      rw [htokens, after_emptyToken_iff]
    · rw [if_neg hempty] at hstart
      have hopen : b ++ q :: (token ++ [q]) = (b ++ [q]) ++ (token ++ [q]) := by simp
      rw [hopen] at hstart
      have hresult := completed_append (v := v) hstart
      rw [← hopen] at hresult
      have hsuffix : ¬token <:+ b ++ q :: (token ++ [q]) := by
        rintro ⟨a, ha⟩
        have hlast := congrArg List.getLast? ha
        rw [hjoin, List.getLast?_concat, List.getLast?_append_of_ne_nil _ hempty] at hlast
        exact htoken (List.mem_of_getLast? hlast)
      simp only [hresult, Option.some.injEq, exists_eq_left', hempty, hsuffix, false_and, and_false,
        or_false, iff_false]
      rw [List.append_assoc, List.singleton_append, (hread _).tokenize, ok_map_append_iff]
      exact tokenize_after_quote hq v
  | @word b w ts hw hread =>
    obtain ⟨w', c, rfl⟩ := (List.eq_nil_or_concat' w).resolve_left hw.ne_nil
    have hc : isWhitespace c = false := hw.noSpace c (by simp)
    have hends : endsWithWs (b ++ (w' ++ [c])) = false := by
      rw [← List.append_assoc, endsWithWs_concat, hc]
    have hstart : valueStart (b ++ (w' ++ [c])) = byteLen b := by
      rw [valueStart, valuePrefix, hends, typedTokens_eq hts]
      simp [findLastTokenStart_append]
    have hsuffix : w' ++ [c] <:+ b ++ (w' ++ [c]) := List.suffix_append _ _
    rw [hends]
    simp only [Bool.false_eq_true, if_false, List.dropLast_concat, List.getLast?_concat,
      Option.getD_some, hw.ne_nil, hsuffix, ne_eq, not_false_eq_true, true_and, false_and,
      or_false]
    rw [completed_tokens _ hstart hread, ok_map_append_iff, tokenize_maybeQuote_iff]

/-! ## The command after completion -/

/-- The name of a registered command is what trimming leaves of it. -/
theorem trim_name {spec : CommandSpec} (hspec : spec ∈ all) {nm : List Char}
    (hnm : nm ∈ spec.names) : trim nm = nm :=
  trim_eq_self (name_ends hspec hnm).1 (name_ends hspec hnm).2

/-- What the parser matches is a name of the command, and is not longer than the name. -/
theorem mem_parseMatches {tokens : List (List Char)} {spec spec' : CommandSpec} {take : ℕ}
    (hspec : spec ∈ all) (h : (spec', take) ∈ parseMatches tokens spec) :
    spec' = spec ∧ take ≤ tokens.length ∧ ∃ nm ∈ spec.names, take ≤ wordCount nm ∧
      trim (lower (join (tokens.take take))) = nm := by
  have htakes {n take : ℕ} (h : take ∈ (List.range (min n tokens.length)).map (· + 1)) :
      take ≤ n ∧ take ≤ tokens.length := by
    obtain ⟨i, hi, rfl⟩ := List.mem_map.mp h
    have := List.mem_range.mp hi
    omega
  rw [parseMatches, List.mem_append] at h
  obtain h | h := h
  · obtain ⟨take', hmem, hp⟩ := List.mem_map.mp h
    obtain ⟨rfl, rfl⟩ : spec = spec' ∧ take' = take := by simpa using hp
    rw [List.mem_filter] at hmem
    obtain ⟨hcount, hlen⟩ := htakes hmem.1
    have hmatch := hmem.2
    rw [CommandSpec.matchesCommandPart, Bool.or_eq_true, beq_iff_eq, List.any_eq_true,
      lower_trim] at hmatch
    obtain hname | ⟨nm, hnm, heq⟩ := hmatch
    · obtain ⟨hlower, -⟩ := names_spelled spec hspec spec.name List.mem_cons_self
      exact ⟨rfl, hlen, spec.name, List.mem_cons_self, hcount, by rw [hname, hlower]⟩
    · have hmem : nm ∈ spec.names := List.mem_cons_of_mem _ hnm
      obtain ⟨hlower, -, -, -, hwords, -⟩ := names_spelled spec hspec nm hmem
      exact ⟨rfl, hlen, nm, hmem, by omega, by rw [beq_iff_eq.mp heq, hlower]⟩
  · obtain ⟨nm, hnm, h⟩ := List.mem_flatMap.mp h
    obtain ⟨take', hmem, hp⟩ := List.mem_map.mp h
    obtain ⟨rfl, rfl⟩ : spec = spec' ∧ take' = take := by simpa using hp
    rw [List.mem_filter] at hmem
    obtain ⟨hcount, hlen⟩ := htakes hmem.1
    have hmem' : nm ∈ spec.names := List.mem_cons_of_mem _ hnm
    obtain ⟨hlower, -⟩ := names_spelled spec hspec nm hmem'
    refine ⟨rfl, hlen, nm, hmem', hcount, ?_⟩
    have heq := hmem.2
    rw [eqIgnoreAsciiCase, beq_iff_eq, hlower] at heq
    rw [heq, trim_name hspec hmem']

/-- A name that the leading tokens spell is among the matches. -/
theorem mem_parseMatches_of_spelled {tokens : List (List Char)} {spec : CommandSpec}
    (hspec : spec ∈ all) {nm : List Char} (hnm : nm ∈ spec.names)
    (hlen : wordCount nm ≤ tokens.length)
    (hspell : lower (join (tokens.take (wordCount nm))) = nm) :
    (spec, wordCount nm) ∈ parseMatches tokens spec := by
  obtain ⟨hlower, -, -, -, -, hone, -⟩ := names_spelled spec hspec nm hnm
  have htakes : wordCount nm ∈ (List.range (min (wordCount nm) tokens.length)).map (· + 1) :=
    List.mem_map.mpr ⟨wordCount nm - 1, List.mem_range.mpr (by omega), by omega⟩
  rw [parseMatches, List.mem_append]
  obtain rfl | halias := List.mem_cons.mp hnm
  · refine .inl (List.mem_map.mpr ⟨_, List.mem_filter.mpr ⟨htakes, ?_⟩, rfl⟩)
    rw [CommandSpec.matchesCommandPart, lower_trim, hspell, trim_name hspec hnm, hlower]
    simp
  · refine .inr (List.mem_flatMap.mpr ⟨nm, halias,
      List.mem_map.mpr ⟨_, List.mem_filter.mpr ⟨htakes, ?_⟩, rfl⟩⟩)
    rw [eqIgnoreAsciiCase, hspell, hlower]
    simp

/-- The parser resolves a command that is followed by the value of its only argument. -/
theorem parse_of_tokenize {s v : List Char} {before : List (List Char)} {spec : CommandSpec}
    {arg : ArgSpec} (hspec : spec ∈ all) (harg : arg ∈ spec.args)
    (hcompletes : arg.completer ≠ .none) {nm : List Char} (hnm : nm ∈ spec.names)
    (hlen : wordCount nm = before.length) (hspell : lower (join before) = nm)
    (htokens : tokenize s = .ok (before ++ [v])) :
    parse s all = .ok ⟨spec, [v]⟩ := by
  obtain ⟨-, hne, -, -, -, hone, htwo⟩ := names_spelled spec hspec nm hnm
  have htake : (before ++ [v]).take before.length = before := List.take_left
  have hmem : (spec, before.length) ∈ all.flatMap (parseMatches (before ++ [v])) := by
    refine List.mem_flatMap.mpr ⟨spec, hspec, hlen ▸ mem_parseMatches_of_spelled hspec hnm ?_ ?_⟩
    · rw [hlen, List.length_append]
      omega
    · rw [hlen, htake, hspell]
  have hmax : ∀ y ∈ all.flatMap (parseMatches (before ++ [v])),
      y.2 ≤ before.length ∧ (y.2 = before.length → y.1 = spec) := by
    rintro ⟨spec', take⟩ hy
    obtain ⟨spec'', hspec'', hmatch⟩ := List.mem_flatMap.mp hy
    obtain ⟨rfl, htakeLen, nm', hnm', hcount, hspell'⟩ := mem_parseMatches hspec'' hmatch
    obtain ⟨-, -, -, -, -, -, htwo'⟩ := names_spelled spec' hspec'' nm' hnm'
    rw [List.length_append, List.length_singleton] at htakeLen
    have hle : take ≤ before.length := by
      by_contra hgt
      -- the value would be the second word of a name that starts with this one
      obtain rfl : take = 2 := by omega
      obtain ⟨t, rfl⟩ := List.length_eq_one_iff.mp (show before.length = 1 by omega)
      have hjoin : join (([t] ++ [v]).take 2) = t ++ ' ' :: v := by simp [join, List.intercalate]
      have hone' : join [t] = t := by simp [join, List.intercalate]
      rw [hone'] at hspell
      rw [hjoin, lower, List.map_append, ← lower, hspell] at hspell'
      have hprefix : nm <+: nm' := by
        rw [← hspell']
        exact prefix_trim_append hne (name_ends hspec hnm).1 (name_ends hspec hnm).2 _
      exact not_prefix_of_name spec hspec arg harg hcompletes nm hnm hlen spec' hspec'' nm' hnm'
        (by omega) hprefix
    refine ⟨hle, fun heq ↦ ?_⟩
    obtain rfl : take = before.length := heq
    rw [htake, hspell, trim_name hspec hnm] at hspell'
    exact eq_of_mem_names hspec'' hspec (hspell' ▸ hnm') hnm
  have hargs : spec.args.length = 1 := one_argument spec hspec arg harg hcompletes
  have hrequired : spec.requiredArgCount ≤ 1 := hargs ▸ List.length_filter_le _ _
  have htrim := tokenize_trim htokens
  have hnonempty : (trim s).isEmpty = false := by
    cases htrims : trim s with
    | cons c t => rfl
    | nil =>
      rw [htrims] at htrim
      have : ([] : List (List Char)) = before ++ [v] := Except.ok.inj htrim
      simp at this
  have hbest := foldl_longest_eq hmem hmax
  rw [parse]
  simp only [hnonempty, htrim, Bool.false_eq_true, if_false, hbest, List.drop_left,
    List.length_singleton]
  rw [if_neg (by simp), if_neg (by omega), if_neg (by omega)]

/-! ## The claim about completion -/

/-- Taking the offer of a value leaves the tokens before and the value, for the same command. -/
def Inserts (buffer : List Char) (spec : CommandSpec) (v : List Char) (hint : Hint) : Prop :=
  ∃ result, applyHintToBuffer buffer hint = some result ∧
    tokenize result = .ok (completedTokens buffer ++ [v]) ∧
    ∃ args, parse result all = .ok ⟨spec, args⟩

theorem completion_iff {sessions : List (List Char)} {buffer : List Char} {spec : CommandSpec}
    {v : List Char} {hint : Hint} (h : Offered sessions buffer spec v hint) :
    Inserts buffer spec v hint ↔ Fits buffer v := by
  obtain ⟨used, arg, hres, harg, hv, rfl⟩ := h
  obtain ⟨hspec, hused, hmore, nm, hnm, hwords, hspell⟩ := resolveCommandPrefix_spec hres
  obtain ⟨hlower, -, -, -, -, hone, -⟩ := names_spelled spec hspec nm hnm
  have hmem : arg ∈ spec.args := List.mem_of_getElem? harg
  have hcompletes : arg.completer ≠ .none := by
    intro hnone
    rw [values, offeredValues, hnone] at hv
    simp [completerValues] at hv
  have hargs : spec.args.length = 1 := one_argument spec hspec arg hmem hcompletes
  have htyped : typedTokens buffer ≠ [] := by
    intro hnil
    rw [hnil, List.length_nil] at hused
    omega
  -- the argument is the only one, so everything before it is the command
  have hbefore : completedTokens buffer = (typedTokens buffer).take used := by
    have hindex := (List.getElem?_eq_some_iff.mp harg).1
    rw [hargs, argIndex] at hindex
    rw [completedTokens]
    split_ifs at hindex ⊢ with hends
    · exact (List.take_of_length_le (by omega)).symm
    · have := hmore (Bool.eq_false_iff.mpr hends)
      rw [List.dropLast_eq_take]
      congr 1
      omega
  have hlen : wordCount nm = (completedTokens buffer).length := by
    rw [hbefore, List.length_take, hwords]
    omega
  have happly (index : ℕ) : applyHintToBuffer buffer (valueHint index (valueStart buffer) v) =
      completed buffer v := rfl
  rw [← tokens_iff htyped, Inserts, happly]
  constructor
  · rintro ⟨result, hresult, htokens, -⟩
    exact ⟨result, hresult, htokens⟩
  · rintro ⟨result, hresult, htokens⟩
    refine ⟨result, hresult, htokens, [v], ?_⟩
    exact parse_of_tokenize hspec hmem hcompletes hnm hlen (by rw [hbefore, hspell, hlower]) htokens

/-- The command of the examples. -/
def themeSpec : CommandSpec := command "theme" [] "Switch the colour theme" argsThemeReq

theorem offered_theme {buffer v : List Char}
    (hres : resolveCommandPrefix (typedTokens buffer) (endsWithWs buffer) = .spec themeSpec 1)
    (hindex : argIndex (typedTokens buffer).length 1 (endsWithWs buffer) = 0)
    (hv : v ∈ values [] buffer (arg "name" true .themes)) :
    Offered [] buffer themeSpec v (valueHint 0 (valueStart buffer) v) :=
  ⟨1, arg "name" true .themes, hres, by rw [hindex]; rfl, hv, by rw [hindex]⟩

theorem completion_iff_dracula :
    Offered [] "theme dr".toList themeSpec "dracula".toList
        (valueHint 0 (valueStart "theme dr".toList) "dracula".toList) ∧
      (Inserts "theme dr".toList themeSpec "dracula".toList
          (valueHint 0 (valueStart "theme dr".toList) "dracula".toList) ↔
        Fits "theme dr".toList "dracula".toList) :=
  have h : Offered [] "theme dr".toList themeSpec "dracula".toList
      (valueHint 0 (valueStart "theme dr".toList) "dracula".toList) :=
    offered_theme (by decide +kernel) (by decide +kernel) (by decide +kernel)
  ⟨h, completion_iff h⟩

/-- With a quote in front of what is typed, the quote is left open. -/
theorem completion_fails :
    ¬∀ sessions buffer spec v hint, Offered sessions buffer spec v hint →
      Inserts buffer spec v hint := by
  intro h
  set buffer := "theme \"dr\"".toList with hbuffer
  obtain ⟨result, hresult, htokens, -⟩ := h [] buffer themeSpec "dracula".toList _
    (offered_theme (by decide +kernel) (by decide +kernel) (by decide +kernel))
  have happly : applyHintToBuffer buffer (valueHint 0 (valueStart buffer) "dracula".toList) =
      some "theme \"dracula ".toList := by decide +kernel
  rw [happly] at hresult
  rw [← Option.some.inj hresult] at htokens
  exact absurd htokens (by decide +kernel)

end Kmux.App
