import Kmux.Lib.Utf8Text

/-!
# The commands of the palette

A command line is cut into tokens at white space, except inside quotes of one of two kinds, which
are taken off and cannot be escaped. The longest run of leading tokens that spells the name or an
alias of a registered command is the command; the tokens after it are its arguments.

`Reads` is the reading of tokens as a relation, with the text that is left over present throughout:
a word is over only where white space or the end follows, so what comes after a token decides how
far the token goes.
-/

namespace Kmux.App

open Utf8Text

/-! ## Specifications -/

/-- How values for an argument are suggested. -/
inductive Completer
  | none
  | sessions
  | signals
  | themes
  | onOff
  | transports
  deriving DecidableEq, Repr

/-- One argument of a command. -/
structure ArgSpec where
  name : List Char
  required : Bool
  completer : Completer
  deriving DecidableEq, Repr

/-- A command: its name, the other forms of the name, and the shape of its arguments. -/
structure CommandSpec where
  name : List Char
  aliases : List (List Char)
  summary : List Char
  args : List ArgSpec
  deriving DecidableEq, Repr

/-- `to_ascii_lowercase`. -/
def lower (s : List Char) : List Char := s.map Char.toLower

/-- `eq_ignore_ascii_case`. -/
def eqIgnoreAsciiCase (s t : List Char) : Bool := lower s == lower t

/-- `split_whitespace().count()`. -/
def wordCount (s : List Char) : ℕ := ((s.splitOnP isWhitespace).filter (!·.isEmpty)).length

/-- Tokens joined by single spaces. -/
def join (tokens : List (List Char)) : List Char := [' '].intercalate tokens

theorem toLower_cases (c : Char) :
    c.toLower = c ∨ (65 ≤ c.toNat ∧ c.toNat ≤ 90 ∧ c.toLower.toNat = c.toNat + 32) := by
  by_cases h : c.val ≥ 'A'.val ∧ c.val ≤ 'Z'.val
  · right
    have hlow : 65 ≤ c.toNat := h.1
    have hhigh : c.toNat ≤ 90 := h.2
    refine ⟨hlow, hhigh, ?_⟩
    have hlower : c.toLower = ⟨c.val + 32, _⟩ := dif_pos h
    rw [hlower]
    change (c.val + 32).toNat = c.val.toNat + 32
    rw [UInt32.toNat_add]
    have hhigh' : c.val.toNat ≤ 90 := hhigh
    have h32 : UInt32.toNat 32 = 32 := rfl
    omega
  · left
    exact dif_neg h

theorem utf8Size_toLower (c : Char) : c.toLower.utf8Size = c.utf8Size := by
  obtain h | ⟨-, hhigh, hlower⟩ := toLower_cases c
  · rw [h]
  · have hone {d : Char} (hd : d.toNat ≤ 127) : d.utf8Size = 1 :=
      Char.utf8Size_eq_one_iff.mpr hd
    rw [hone (show c.toNat ≤ 127 by omega), hone (show c.toLower.toNat ≤ 127 by omega)]

theorem byteLen_lower (s : List Char) : byteLen (lower s) = byteLen s := by
  rw [byteLen, lower, List.map_map, byteLen]
  congr 1
  exact List.map_congr_left fun c _ ↦ utf8Size_toLower c

theorem isWhitespace_toLower (c : Char) : isWhitespace c.toLower = isWhitespace c := by
  obtain h | ⟨hlow, hhigh, hlower⟩ := toLower_cases c
  · rw [h]
  · rw [isWhitespace_eq_false (c := c) (by omega) (by omega),
      isWhitespace_eq_false (c := c.toLower) (by omega) (by omega)]

theorem lower_trim (s : List Char) : lower (trim s) = trim (lower s) := by
  have hcomp : isWhitespace ∘ Char.toLower = isWhitespace := funext isWhitespace_toLower
  have hdrop (s : List Char) :
      (lower s).dropWhile isWhitespace = lower (s.dropWhile isWhitespace) := by
    rw [lower, List.dropWhile_map, hcomp, ← lower]
  have hreverse (s : List Char) : (lower s).reverse = lower s.reverse := by
    rw [lower, ← List.map_reverse, ← lower]
  rw [trim, trim, trimStart, trimStart, hdrop, List.rdropWhile, List.rdropWhile, hreverse, hdrop,
    hreverse]

namespace CommandSpec

/-- The name and the aliases. -/
def names (spec : CommandSpec) : List (List Char) := spec.name :: spec.aliases

/-- The usage line. -/
def usage (spec : CommandSpec) : List Char :=
  '/' :: spec.name ++ spec.args.flatMap fun a ↦
    if a.required then " <".toList ++ a.name ++ ['>'] else " [".toList ++ a.name ++ [']']

def requiredArgCount (spec : CommandSpec) : ℕ := (spec.args.filter (·.required)).length

/-- Whether a text is the name or an alias, up to white space around it and to case. -/
def matchesCommandPart (spec : CommandSpec) (commandPart : List Char) : Bool :=
  let cp := lower (trim commandPart)
  cp == lower spec.name || spec.aliases.any (cp == lower ·)

end CommandSpec

/-! ## Tokens -/

/-- What can go wrong while parsing. -/
inductive ParseError
  | empty
  | unknown (typed : List Char)
  | missingArgs (usage : List Char)
  | tooManyArgs (usage : List Char)
  | unclosedQuote
  deriving DecidableEq, Repr

def isQuote (c : Char) : Bool := c == '"' || c == '\''

/-- The text up to a closing quote, and the text after it. -/
def readQuoted (quote : Char) : List Char → Option (List Char × List Char)
  | [] => none
  | c :: s =>
    if c = quote then some ([], s) else (readQuoted quote s).map fun p ↦ (c :: p.1, p.2)

/-- The loop of `tokenize`, for a number of rounds. -/
def tokenizeLoop : ℕ → List Char → Except ParseError (List (List Char))
  | 0, _ => .ok []
  | n + 1, s =>
    match trimStart s with
    | [] => .ok []
    | first :: rest =>
      if isQuote first then
        match readQuoted first rest with
        | none => .error .unclosedQuote
        | some (token, rest) => (tokenizeLoop n rest).map (token :: ·)
      else
        (tokenizeLoop n (rest.dropWhile (!isWhitespace ·))).map
          ((first :: rest.takeWhile (!isWhitespace ·)) :: ·)

/-- Every round takes a character at least, so there are enough. -/
def tokenize (s : List Char) : Except ParseError (List (List Char)) := tokenizeLoop (s.length + 1) s

/-! ## Reading tokens -/

theorem readQuoted_eq_some {quote : Char} {s token rest : List Char} :
    readQuoted quote s = some (token, rest) ↔ s = token ++ quote :: rest ∧ quote ∉ token := by
  induction s generalizing token with
  | nil => simp [readQuoted]
  | cons c s ih =>
    by_cases hc : c = quote
    · subst hc
      rw [readQuoted, if_pos rfl]
      constructor
      · intro h
        obtain ⟨rfl, rfl⟩ : [] = token ∧ s = rest := by simpa using h
        exact ⟨rfl, List.not_mem_nil⟩
      · rintro ⟨h, hnot⟩
        match token, h, hnot with
        | [], h, _ => rw [(List.cons.inj h).2]
        | d :: token, h, hnot => exact absurd (List.cons.inj h).1 (List.ne_of_not_mem_cons hnot)
    · rw [readQuoted, if_neg hc, Option.map_eq_some_iff]
      constructor
      · rintro ⟨⟨t, r⟩, hread, hp⟩
        obtain ⟨rfl, rfl⟩ : c :: t = token ∧ r = rest := by simpa using hp
        obtain ⟨rfl, hnot⟩ := ih.mp hread
        exact ⟨rfl, List.not_mem_cons_of_ne_of_not_mem (Ne.symm hc) hnot⟩
      · rintro ⟨h, hnot⟩
        match token, h, hnot with
        | [], h, _ => exact absurd (List.cons.inj h).1 hc
        | d :: token, h, hnot =>
          obtain ⟨rfl, rfl⟩ := List.cons.inj h
          exact ⟨(token, rest), ih.mpr ⟨rfl, List.not_mem_of_not_mem_cons hnot⟩, rfl⟩

private theorem length_dropWhile_le (p : Char → Bool) (s : List Char) :
    (s.dropWhile p).length ≤ s.length := (List.dropWhile_sublist p).length_le

/-- Rounds in excess change nothing. -/
theorem tokenizeLoop_eq {n m : ℕ} {s : List Char} (hn : s.length < n) (hm : s.length < m) :
    tokenizeLoop n s = tokenizeLoop m s := by
  induction n generalizing s m with
  | zero => omega
  | succ n ih =>
    obtain ⟨m, rfl⟩ := Nat.exists_eq_succ_of_ne_zero (show m ≠ 0 by omega)
    rw [tokenizeLoop, tokenizeLoop]
    have hlen := length_dropWhile_le isWhitespace s
    rw [← trimStart] at hlen
    cases hs : trimStart s with
    | nil => rfl
    | cons first rest =>
      rw [hs, List.length_cons] at hlen
      have hword := length_dropWhile_le (!isWhitespace ·) rest
      by_cases hq : isQuote first
      · simp only [hq, if_true]
        cases hread : readQuoted first rest with
        | none => rfl
        | some p =>
          have hrest : p.2.length < rest.length := by
            rw [(readQuoted_eq_some.mp hread).1]
            simp
            omega
          simp only []
          rw [ih (s := p.2) (m := m) (by omega) (by omega)]
      · simp only [hq, Bool.false_eq_true, if_false]
        rw [ih (m := m) (by omega) (by omega)]

/-- One round of `tokenize`. -/
theorem tokenize_eq (s : List Char) :
    tokenize s =
      match trimStart s with
      | [] => .ok []
      | first :: rest =>
        if isQuote first then
          match readQuoted first rest with
          | none => .error .unclosedQuote
          | some (token, rest) => (tokenize rest).map (token :: ·)
        else
          (tokenize (rest.dropWhile (!isWhitespace ·))).map
            ((first :: rest.takeWhile (!isWhitespace ·)) :: ·) := by
  have hlen := length_dropWhile_le isWhitespace s
  rw [← trimStart] at hlen
  rw [tokenize, tokenizeLoop]
  cases hs : trimStart s with
  | nil => rfl
  | cons first rest =>
    rw [hs, List.length_cons] at hlen
    have hword := length_dropWhile_le (!isWhitespace ·) rest
    by_cases hq : isQuote first
    · simp only [hq, if_true]
      cases hread : readQuoted first rest with
      | none => rfl
      | some p =>
        have hrest : p.2.length < rest.length := by
          rw [(readQuoted_eq_some.mp hread).1]
          simp
          omega
        simp only [tokenize]
        rw [tokenizeLoop_eq (n := s.length) (m := p.2.length + 1) (by omega) (by omega)]
    · simp only [hq, Bool.false_eq_true, if_false, tokenize]
      rw [tokenizeLoop_eq (n := s.length) (by omega) (Nat.lt_succ_self _)]

/-- A token that needs no quotes. -/
structure IsWord (w : List Char) : Prop where
  ne_nil : w ≠ []
  noSpace : ∀ c ∈ w, isWhitespace c = false
  noQuote : ∀ c ∈ w.head?, isQuote c = false

/-- From the first text the tokens are read, and the last text is left over. -/
inductive Reads : List Char → List (List Char) → List Char → Prop
  | done (s : List Char) : Reads s [] s
  | space {c : Char} {s r : List Char} {ts : List (List Char)} (hc : isWhitespace c = true)
      (h : Reads s ts r) : Reads (c :: s) ts r
  | quoted {q : Char} {token s r : List Char} {ts : List (List Char)} (hq : isQuote q = true)
      (htoken : q ∉ token) (h : Reads s ts r) : Reads (q :: (token ++ q :: s)) (token :: ts) r
  | word {w s r : List Char} {ts : List (List Char)} (hw : IsWord w)
      (hend : ∀ c ∈ s.head?, isWhitespace c = true) (h : Reads s ts r) :
      Reads (w ++ s) (w :: ts) r

theorem Reads.spaces {a s r : List Char} {ts : List (List Char)}
    (ha : ∀ c ∈ a, isWhitespace c = true) (h : Reads s ts r) : Reads (a ++ s) ts r := by
  induction a with
  | nil => exact h
  | cons c a ih =>
    exact .space (ha c List.mem_cons_self) (ih fun d hd ↦ ha d (List.mem_cons_of_mem c hd))

theorem Reads.trans {s m r : List Char} {ts us : List (List Char)} (h : Reads s ts m)
    (h' : Reads m us r) : Reads s (ts ++ us) r := by
  induction h with
  | done s => exact h'
  | space hc _ ih => exact .space hc (ih h')
  | quoted hq htoken _ ih => exact .quoted hq htoken (ih h')
  | word hw hend _ ih => exact .word hw hend (ih h')

theorem isWhitespace_of_isQuote {c : Char} (h : isQuote c = true) : isWhitespace c = false := by
  rw [isQuote, Bool.or_eq_true, beq_iff_eq, beq_iff_eq] at h
  obtain rfl | rfl := h
  · decide
  · decide

/-- Reading goes through the tokenizer, whatever is left over. -/
theorem Reads.tokenize {s r : List Char} {ts : List (List Char)} (h : Reads s ts r) :
    tokenize s = (tokenize r).map (ts ++ ·) := by
  have hmap (x : Except ParseError (List (List Char))) (t : List Char) (ts : List (List Char)) :
      (x.map (ts ++ ·)).map (t :: ·) = x.map (t :: ts ++ ·) := by
    cases x <;> rfl
  induction h with
  | done s => cases Kmux.App.tokenize s <;> rfl
  | @space c s r ts hc _ ih =>
    rw [← ih, tokenize_eq, tokenize_eq s, trimStart, List.dropWhile_cons_of_pos hc, ← trimStart]
  | @quoted q token s r ts hq htoken _ ih =>
    rw [tokenize_eq, trimStart,
      List.dropWhile_cons_of_neg (Bool.eq_false_iff.mp (isWhitespace_of_isQuote hq))]
    simp only [hq, if_true, readQuoted_eq_some.mpr ⟨rfl, htoken⟩]
    rw [ih, hmap]
  | @word w s r ts hw hend _ ih =>
    obtain ⟨c, w, rfl⟩ := List.exists_cons_of_ne_nil hw.ne_nil
    have hc : ¬isWhitespace c = true := Bool.eq_false_iff.mp (hw.noSpace c List.mem_cons_self)
    have hq : isQuote c = false := hw.noQuote c rfl
    have hplain : ∀ d ∈ w, (!isWhitespace d) = true := fun d hd ↦ by
      rw [hw.noSpace d (List.mem_cons_of_mem c hd)]
      rfl
    have hstop : s.takeWhile (!isWhitespace ·) = [] ∧ s.dropWhile (!isWhitespace ·) = s := by
      cases s with
      | nil => exact ⟨rfl, rfl⟩
      | cons d s => simp [hend d rfl]
    rw [List.cons_append, tokenize_eq, trimStart, List.dropWhile_cons_of_neg hc]
    simp only [hq, Bool.false_eq_true, if_false]
    rw [List.dropWhile_append_of_pos hplain, List.takeWhile_append_of_pos hplain, hstop.1, hstop.2,
      List.append_nil, ih, hmap]

/-- Everything that is tokenized is read. -/
theorem reads_of_tokenize {s : List Char} {ts : List (List Char)} (h : tokenize s = .ok ts) :
    Reads s ts [] := by
  generalize hn : s.length = n
  induction n using Nat.strong_induction_on generalizing s ts with
  | _ n ih =>
    subst hn
    have hsplit : s = s.takeWhile isWhitespace ++ trimStart s :=
      List.takeWhile_append_dropWhile.symm
    have hlead : ∀ c ∈ s.takeWhile isWhitespace, isWhitespace c = true := fun c hc ↦
      (List.mem_takeWhile_imp hc)
    have hlen := congrArg List.length hsplit
    rw [List.length_append] at hlen
    rw [tokenize_eq] at h
    rw [hsplit]
    refine Reads.spaces hlead ?_
    cases hs : trimStart s with
    | nil =>
      rw [hs] at h
      obtain rfl : [] = ts := by simpa using h
      exact .done []
    | cons first rest =>
      rw [hs] at h hlen
      rw [List.length_cons] at hlen
      have hfirst : isWhitespace first = false := by
        have := List.head?_dropWhile_not isWhitespace s
        rw [← trimStart, hs] at this
        simpa using this
      by_cases hq : isQuote first
      · simp only [hq, if_true] at h
        cases hread : readQuoted first rest with
        | none => simp [hread] at h
        | some p =>
          obtain ⟨hrest, hnot⟩ := readQuoted_eq_some.mp hread
          simp only [hread] at h
          cases hts : tokenize p.2 with
          | error e => simp [hts, Except.map] at h
          | ok ts' =>
            obtain rfl : p.1 :: ts' = ts := by simpa [hts, Except.map] using h
            have hshort : p.2.length < s.length := by
              have := congrArg List.length hrest
              simp at this
              omega
            rw [hrest]
            exact .quoted hq hnot (ih _ hshort hts rfl)
      · simp only [hq, Bool.false_eq_true, if_false] at h
        cases hts : tokenize (rest.dropWhile (!isWhitespace ·)) with
        | error e => simp [hts, Except.map] at h
        | ok ts' =>
          obtain rfl : (first :: rest.takeWhile (!isWhitespace ·)) :: ts' = ts := by
            simpa [hts, Except.map] using h
          have hshort := length_dropWhile_le (!isWhitespace ·) rest
          have hword : first :: rest = (first :: rest.takeWhile (!isWhitespace ·)) ++
              rest.dropWhile (!isWhitespace ·) := by
            rw [List.cons_append, List.takeWhile_append_dropWhile]
          rw [hword]
          refine .word ⟨by simp, ?_, ?_⟩ ?_ (ih _ (by omega) hts rfl)
          · rintro c hc
            obtain rfl | hc := List.mem_cons.mp hc
            · exact hfirst
            · simpa using List.mem_takeWhile_imp hc
          · rintro c hc
            obtain rfl : first = c := by simpa using hc
            exact Bool.eq_false_iff.mpr hq
          · intro c hc
            have := List.head?_dropWhile_not (!isWhitespace ·) rest
            rw [hc] at this
            simpa using this

/-! ## The last token -/

theorem ok_map_append_iff {x : Except ParseError (List (List Char))} {ts us : List (List Char)} :
    x.map (ts ++ ·) = .ok (ts ++ us) ↔ x = .ok us := by
  cases x <;> simp [Except.map]

/-- White space at the end belongs to no token. -/
theorem Reads.of_concat_space {s b r : List Char} {ts : List (List Char)} {c : Char}
    (h : Reads s ts r) (hr : r = []) (hs : s = b ++ [c]) (hc : isWhitespace c = true) :
    Reads b ts [] := by
  induction h generalizing b with
  | done s => simp [hr] at hs
  | @space d s r ts hd hrest ih =>
    match b, hs with
    | [], hs =>
      obtain ⟨-, rfl⟩ : d = c ∧ s = [] := by simpa using hs
      exact hr ▸ hrest
    | _ :: b, hs =>
      rw [List.cons_append] at hs
      obtain ⟨rfl, hrest'⟩ := List.cons.inj hs
      exact .space hd (ih hr hrest')
  | @quoted q token s r ts hq htoken _ ih =>
    obtain rfl | ⟨s', d, rfl⟩ := List.eq_nil_or_concat' s
    · have hjoin : (q :: token) ++ [q] = b ++ [c] := by simpa using hs
      rw [← List.singleton_inj.mp (List.append_inj' hjoin rfl).2, isWhitespace_of_isQuote hq] at hc
      exact absurd hc Bool.false_ne_true
    · have hjoin : (q :: (token ++ q :: s')) ++ [d] = b ++ [c] := by simpa using hs
      obtain ⟨rfl, hd⟩ := List.append_inj' hjoin rfl
      exact .quoted hq htoken (ih hr (by rw [List.singleton_inj.mp hd]))
  | @word w s r ts hw hend _ ih =>
    obtain rfl | ⟨s', d, rfl⟩ := List.eq_nil_or_concat' s
    · have hmem : c ∈ w := by
        rw [List.append_nil] at hs
        simp [hs]
      rw [hw.noSpace c hmem] at hc
      exact absurd hc Bool.false_ne_true
    · have hjoin : (w ++ s') ++ [d] = b ++ [c] := by simpa using hs
      obtain ⟨rfl, hd⟩ := List.append_inj' hjoin rfl
      refine .word hw (fun e he ↦ ?_) (ih hr (by rw [List.singleton_inj.mp hd]))
      exact hend e (by rw [List.head?_append, he]; rfl)

/-- How a text ends that tokens are read from, with what is read before its end whatever follows. -/
inductive Ending : List Char → List (List Char) → Prop
  | nil : Ending [] []
  | space {b : List Char} {c : Char} {ts : List (List Char)} (hc : isWhitespace c = true)
      (hread : ∀ s, Reads (b ++ [c] ++ s) ts s) : Ending (b ++ [c]) ts
  | quoted {b token : List Char} {q : Char} {ts : List (List Char)} (hq : isQuote q = true)
      (htoken : q ∉ token) (hread : ∀ s, Reads (b ++ s) ts s) :
      Ending (b ++ q :: (token ++ [q])) (ts ++ [token])
  | word {b w : List Char} {ts : List (List Char)} (hw : IsWord w)
      (hread : ∀ s, Reads (b ++ s) ts s) : Ending (b ++ w) (ts ++ [w])

/-- The start of a text that starts with white space, before its last token, is white space. -/
private theorem head_of_prefix {b e r : List Char} (hb : b ≠ [])
    (hs : ∀ c ∈ (b ++ e).head?, isWhitespace c = true) :
    ∀ c ∈ (b ++ r).head?, isWhitespace c = true := by
  obtain ⟨d, b, rfl⟩ := List.exists_cons_of_ne_nil hb
  exact hs

/-- The end stays the end with more to read in front of it. -/
theorem Ending.prepend {a s : List Char} {t ts : List (List Char)} (h : Ending s ts) (hne : s ≠ [])
    (ha : ∀ b r us, ((∀ c ∈ s.head?, isWhitespace c = true) →
        ∀ c ∈ (b ++ r).head?, isWhitespace c = true) →
      Reads (b ++ r) us r → Reads (a ++ (b ++ r)) (t ++ us) r) :
    Ending (a ++ s) (t ++ ts) := by
  cases h with
  | nil => exact absurd rfl hne
  | @space b c ts hc hread =>
    rw [← List.append_assoc]
    refine .space hc fun r ↦ ?_
    have hhead := head_of_prefix (b := b ++ [c]) (e := []) (r := r) (by simp)
    rw [List.append_nil] at hhead
    simpa using ha (b ++ [c]) r ts hhead (hread r)
  | @quoted b token q ts hq htoken hread =>
    rw [← List.append_assoc, ← List.append_assoc]
    refine .quoted hq htoken fun r ↦ ?_
    rw [List.append_assoc]
    refine ha b r ts (fun hs ↦ head_of_prefix (fun hb ↦ ?_) hs) (hread r)
    have := hs q (by rw [hb]; rfl)
    rw [isWhitespace_of_isQuote hq] at this
    exact Bool.false_ne_true this
  | @word b w ts hw hread =>
    rw [← List.append_assoc, ← List.append_assoc]
    refine .word hw fun r ↦ ?_
    rw [List.append_assoc]
    refine ha b r ts (fun hs ↦ head_of_prefix (fun hb ↦ ?_) hs) (hread r)
    obtain ⟨d, w, rfl⟩ := List.exists_cons_of_ne_nil hw.ne_nil
    have := hs d (by rw [hb]; rfl)
    rw [hw.noSpace d List.mem_cons_self] at this
    exact Bool.false_ne_true this

theorem Reads.eq_nil {s r : List Char} {ts : List (List Char)} (h : Reads s ts r) (hs : s = []) :
    ts = [] := by
  cases h with
  | done => rfl
  | space => simp at hs
  | quoted => simp at hs
  | word hw => exact absurd (List.append_eq_nil_iff.mp hs).1 hw.ne_nil

theorem ending_of_reads {s r : List Char} {ts : List (List Char)} (h : Reads s ts r) (hr : r = []) :
    Ending s ts := by
  induction h with
  | done s =>
    rw [hr]
    exact .nil
  | @space c s r ts hc hrest ih =>
    by_cases hs : s = []
    · rw [hrest.eq_nil hs, hs]
      exact .space (b := []) hc fun s ↦ .space hc (.done s)
    · exact (ih hr).prepend (a := [c]) (t := []) hs fun b r us _ hread ↦ .space hc hread
  | @quoted q token s r ts hq htoken hrest ih =>
    by_cases hs : s = []
    · rw [hrest.eq_nil hs, hs]
      exact @Ending.quoted [] token q [] hq htoken .done
    · have hjoin (s : List Char) : q :: (token ++ q :: s) = q :: (token ++ [q]) ++ s := by simp
      rw [hjoin]
      refine (ih hr).prepend (t := [token]) hs fun b r us _ hread ↦ ?_
      rw [← hjoin]
      exact .quoted hq htoken hread
  | @word w s r ts hw hend hrest ih =>
    by_cases hs : s = []
    · rw [hrest.eq_nil hs, hs, List.append_nil]
      exact @Ending.word [] w [] hw .done
    · exact (ih hr).prepend (t := [w]) hs fun b r us hb hread ↦ .word hw (hb hend) hread

/-- Text that is tokenized is so without the white space at its ends. -/
theorem tokenize_trim {s : List Char} {ts : List (List Char)} (h : tokenize s = .ok ts) :
    tokenize (trim s) = .ok ts := by
  have hstart : tokenize (trimStart s) = .ok ts := by
    rw [tokenize_eq, trimStart, trimStart, List.dropWhile_idempotent, ← trimStart, ← tokenize_eq, h]
  have hread : Reads (trim s) ts [] := by
    have hreads := reads_of_tokenize hstart
    rw [trim]
    generalize trimStart s = u at hreads
    induction u using List.reverseRecOn with
    | nil => exact hreads
    | append_singleton u c ih =>
      by_cases hc : isWhitespace c
      · rw [List.rdropWhile_concat_pos _ _ _ hc]
        exact ih (hreads.of_concat_space rfl rfl hc)
      · rw [List.rdropWhile_concat_neg _ _ _ hc]
        exact hreads
  rw [hread.tokenize]
  simp [tokenize, tokenizeLoop, trimStart, Except.map]

/-! ## Resolving -/

/-- The first of the longest matches. -/
def longest (best : Option (CommandSpec × ℕ)) (m : CommandSpec × ℕ) : Option (CommandSpec × ℕ) :=
  if best.all fun b ↦ m.2 > b.2 then some m else best

private theorem exists_foldl_longest (m : CommandSpec × ℕ) (l : List (CommandSpec × ℕ)) :
    ∃ z ∈ m :: l, l.foldl longest (some m) = some z ∧ ∀ y ∈ m :: l, y.2 ≤ z.2 := by
  induction l generalizing m with
  | nil => exact ⟨m, by simp, rfl, by simp⟩
  | cons x l ih =>
    rw [List.foldl_cons]
    by_cases hx : m.2 < x.2
    · have hstep : longest (some m) x = some x := by simp [longest, hx]
      obtain ⟨z, hz, hfold, hmax⟩ := ih x
      refine ⟨z, List.mem_cons_of_mem m hz, by rw [hstep, hfold], fun y hy ↦ ?_⟩
      obtain rfl | hy := List.mem_cons.mp hy
      · exact hx.le.trans (hmax x List.mem_cons_self)
      · exact hmax y hy
    · have hstep : longest (some m) x = some m := by simp [longest, hx]
      obtain ⟨z, hz, hfold, hmax⟩ := ih m
      have hm : m.2 ≤ z.2 := hmax m List.mem_cons_self
      refine ⟨z, ?_, by rw [hstep, hfold], fun y hy ↦ ?_⟩
      · obtain rfl | hz := List.mem_cons.mp hz
        · exact List.mem_cons_self
        · exact List.mem_cons_of_mem m (List.mem_cons_of_mem x hz)
      · obtain rfl | hy := List.mem_cons.mp hy
        · exact hm
        obtain rfl | hy := List.mem_cons.mp hy
        · exact (Nat.le_of_not_lt hx).trans hm
        · exact hmax y (List.mem_cons_of_mem m hy)

/-- What is found is one of the matches, and none is longer. -/
theorem mem_of_foldl_longest {l : List (CommandSpec × ℕ)} {z : CommandSpec × ℕ}
    (h : l.foldl longest none = some z) : z ∈ l ∧ ∀ y ∈ l, y.2 ≤ z.2 := by
  match l, h with
  | m :: l, h =>
    obtain ⟨z', hz, hfold, hmax⟩ := exists_foldl_longest m l
    obtain rfl : z' = z := by
      rw [List.foldl_cons] at h
      exact Option.some.inj (hfold.symm.trans h)
    exact ⟨hz, hmax⟩

/-- A match that is longer than all others is found. -/
theorem foldl_longest_eq {l : List (CommandSpec × ℕ)} {z : CommandSpec × ℕ} (hz : z ∈ l)
    (hmax : ∀ y ∈ l, y.2 ≤ z.2 ∧ (y.2 = z.2 → y.1 = z.1)) :
    l.foldl longest none = some z := by
  match l, hz, hmax with
  | m :: l, hz, hmax =>
    obtain ⟨x, hx, hfold, hlong⟩ := exists_foldl_longest m l
    have hlen : x.2 = z.2 := Nat.le_antisymm (hmax x hx).1 (hlong z hz)
    rw [List.foldl_cons]
    exact hfold.trans (congrArg some (Prod.ext ((hmax x hx).2 hlen) hlen))

/-- The matches of one command, in the order in which they are tried. -/
def parseMatches (tokens : List (List Char)) (spec : CommandSpec) : List (CommandSpec × ℕ) :=
  let takes (n : ℕ) := (List.range (min n tokens.length)).map (· + 1)
  ((takes (wordCount spec.name)).filter fun take ↦
      spec.matchesCommandPart (join (tokens.take take))).map (spec, ·) ++
    spec.aliases.flatMap fun nm ↦
      ((takes (wordCount nm)).filter fun take ↦
        eqIgnoreAsciiCase (join (tokens.take take)) nm).map (spec, ·)

/-- A resolved command line. -/
structure Parsed where
  spec : CommandSpec
  args : List (List Char)
  deriving DecidableEq, Repr

/-- Parse a command line against a registry. -/
def parse (input : List Char) (registry : List CommandSpec) : Except ParseError Parsed :=
  let trimmed := trim input
  if trimmed.isEmpty then .error .empty
  else
    match tokenize trimmed with
    | .error e => .error e
    | .ok tokens =>
      if tokens.isEmpty then .error .empty
      else
        match (registry.flatMap (parseMatches tokens)).foldl longest none with
        | none => .error (.unknown trimmed)
        | some (spec, used) =>
          let args := tokens.drop used
          if args.length < spec.requiredArgCount then .error (.missingArgs spec.usage)
          else if spec.args.length < args.length then .error (.tooManyArgs spec.usage)
          else .ok ⟨spec, args⟩

end Kmux.App
