import Kmux.Lib.Json
import Kmux.Lib.Traversal
import Kmux.Lib.Utf8Text
import Kmux.Protocol.Endpoint

/-!
# What a probe error shows

The output of a probe that is no JSON is searched for the key of the token, and the string after the
next colon is blanked. What the search takes for the key can be anywhere in the text before the JSON
and the string after it anything, so the search may come out of step; it falls into step again at
`"tcp_port"`, whose quotes no string can run over. The token is then found, and it is blanked if its
string is closed.

If it is not, the search is given up there and the token is left standing. Exactly then does the
redacted output depend on the token, `probe_redaction`.
-/

namespace Kmux.Probe

open Utf8Text Traversal
open Endpoint (showPort)

/-! ## The source's functions -/

/-- The key of the token, in quotes. -/
def tokenKey : List Char := ['"', 't', 'o', 'k', 'e', 'n', '"']

def redacted : List Char := "<redacted>".toList

/-- `eq_ignore_ascii_case("token")`. -/
def isTokenKey (key : List Char) : Bool := key.map Char.toLower == ['t', 'o', 'k', 'e', 'n']

universe u

variable {ν : Type u}

def redactJsonTokens : Json.Value ν → Json.Value ν :=
  Json.replace fun key ↦ if isTokenKey key then some (.string redacted) else none

/-- The offset of the quote at the end of a string. -/
def stringEnd (escaped : Bool) : List Char → Option ℕ
  | [] => none
  | ch :: rest =>
    if escaped then (stringEnd false rest).map (ch.utf8Size + ·)
    else if ch = '\\' then (stringEnd true rest).map (ch.utf8Size + ·)
    else if ch = '"' then some 0
    else (stringEnd false rest).map (ch.utf8Size + ·)

/-- What the loop does about the value after the colon. -/
def redactValue (loop : List Char → ℕ → Option (List Char)) (out : List Char) (valueStart : ℕ) :
    Option (List Char) := do
  match find (· == '"') (← sliceFrom out valueStart) with
  | none => loop out valueStart
  | some firstQuoteRel =>
    let stringStart := valueStart + firstQuoteRel
    match stringEnd false (← sliceFrom out (stringStart + 1)) with
    | none => return out
    | some idx =>
      let out ← replaceRange out (stringStart + 1) (stringStart + 1 + idx) redacted
      loop out (stringStart + byteLen ('"' :: redacted ++ ['"']))

/-- The loop over the text; a slice out of range is `none`. -/
def redactLoop : ℕ → List Char → ℕ → Option (List Char)
  | 0, _, _ => none
  | fuel + 1, out, searchFrom => do
    match findText tokenKey (← sliceFrom out searchFrom) with
    | none => return out
    | some rel =>
      let keyStart := searchFrom + rel
      match find (· == ':') (← sliceFrom out keyStart) with
      | none => return out
      | some colonRel => redactValue (redactLoop fuel) out (keyStart + colonRel + 1)

section Redact

variable (fromStr : List Char → Option (Json.Value ν))
  (toText : Json.Value ν → Option (List Char))

/-- `redact_probe_output`, with the iterations of its loop as fuel. -/
def redactProbeOutput (raw : List Char) (fuel : ℕ) : Option (List Char) :=
  match (fromStr raw).bind fun value ↦ toText (redactJsonTokens value) with
  | some text => some text
  | none => redactLoop fuel raw 0

end Redact

/-! ## What a probe prints -/

/-- The name of the member before the token. -/
def tcpName : List Char := ['t', 'c', 'p', '_', 'p', 'o', 'r', 't']

/-- From the colon before the first port to the key of the token. -/
def ports (n m : List Char) : List Char :=
  ':' :: (n ++ ',' :: '"' :: (tcpName ++ '"' :: ':' :: (m ++ ',' :: tokenKey)))

/-- The JSON of a daemon, but for the token; the first four members have any text. -/
structure ProbeJson where
  endpoints : List Char
  kmuxdVersion : List Char
  protocolRange : List Char
  protocolVersion : List Char
  quicPort : UInt16
  tcpPort : UInt16

namespace ProbeJson

variable (j : ProbeJson)

/-- The members before the port. -/
def members : List Char :=
  "\x7b\"endpoints\":".toList ++ j.endpoints ++ ",\"kmuxd_version\":".toList ++ j.kmuxdVersion ++
    ",\"protocol_range\":".toList ++ j.protocolRange ++ ",\"protocol_version\":".toList ++
    j.protocolVersion ++ ",\"quic_port\"".toList

/-- The text up to the digits of the token. -/
def front : List Char := j.members ++ ports (showPort j.quicPort) (showPort j.tcpPort) ++ [':', '"']

def text (token : List Char) : List Char := j.front ++ token ++ ['"', '}']

end ProbeJson

def IsHexDigit (c : Char) : Prop := (Json.hexValue c).isSome = true

instance : DecidablePred IsHexDigit := fun c ↦
  inferInstanceAs (Decidable ((Json.hexValue c).isSome = true))

/-- What comes from a daemon: its JSON, or the front of it, between other text. -/
def probeOutput (before : List Char) (j : ProbeJson) (token : List Char) (cut : ℕ)
    (after : List Char) : List Char :=
  before ++ (j.text token).take cut ++ after

/-- What follows the digits of a token of this length. -/
def behind (j : ProbeJson) (length cut : ℕ) (after : List Char) : List Char :=
  ['"', '}'].take (cut - j.front.length - length) ++ after

/-- The JSON is cut before the digits of the token, or an unescaped quote follows them. -/
def Closed (j : ProbeJson) (length cut : ℕ) (after : List Char) : Prop :=
  cut ≤ j.front.length ∨ (Json.splitString false (behind j length cut after)).isSome = true

/-! ## The search in terms of the text that is left -/

theorem stringEnd_eq (escaped : Bool) (text : List Char) :
    stringEnd escaped text = (Json.splitString escaped text).map fun p ↦ byteLen p.1 := by
  induction text generalizing escaped with
  | nil => rfl
  | cons c text ih =>
    have hcons : ∀ escaped, (stringEnd escaped text).map (c.utf8Size + ·) =
        ((Json.splitString escaped text).map fun p ↦ (c :: p.1, p.2)).map fun p ↦
          byteLen p.1 := by
      intro escaped
      rw [ih, Option.map_map, Option.map_map]
      exact congrArg (Option.map · _) (funext fun p ↦ (byteLen_cons c p.1).symm)
    cases escaped with
    | true => exact hcons false
    | false =>
      by_cases hquote : c = '"'
      · rw [hquote]
        rfl
      · rw [stringEnd, Json.splitString, if_neg Bool.false_ne_true, if_neg Bool.false_ne_true,
          if_neg hquote, if_neg hquote]
        by_cases hbackslash : c = '\\'
        · rw [if_pos hbackslash, decide_eq_true hbackslash]
          exact hcons true
        · rw [if_neg hbackslash, decide_eq_false hbackslash]
          exact hcons false

/-- What becomes of the text that is left. -/
inductive Scans : List Char → List Char → Prop
  | noKey {rest : List Char} : splitOnceText tokenKey rest = none → Scans rest rest
  | noColon {rest a b : List Char} :
      splitOnceText tokenKey rest = some (a, b) → ':' ∉ b → Scans rest rest
  | noQuote {rest a b value out : List Char} :
      splitOnceText tokenKey rest = some (a, b ++ ':' :: value) → ':' ∉ b → '"' ∉ value →
      Scans value out → Scans rest (a ++ tokenKey ++ b ++ ':' :: out)
  | noEnd {rest a b value content : List Char} :
      splitOnceText tokenKey rest = some (a, b ++ ':' :: (value ++ '"' :: content)) → ':' ∉ b →
      '"' ∉ value → Json.splitString false content = none → Scans rest rest
  | blank {rest a b value content string more out : List Char} :
      splitOnceText tokenKey rest = some (a, b ++ ':' :: (value ++ '"' :: content)) → ':' ∉ b →
      '"' ∉ value → Json.splitString false content = some (string, more) → Scans more out →
      Scans rest (a ++ tokenKey ++ b ++ ':' :: (value ++ '"' :: redacted ++ '"' :: out))

/-- There is always an outcome: the text that is left gets shorter. -/
theorem exists_scans (rest : List Char) : ∃ out, Scans rest out := by
  induction hlen : rest.length using Nat.strong_induction_on generalizing rest with
  | _ n ih =>
    subst hlen
    cases hkey : splitOnceText tokenKey rest with
    | none => exact ⟨rest, .noKey hkey⟩
    | some p =>
      obtain ⟨a, b⟩ := p
      have hrest := congrArg List.length (eq_append_of_splitOnceText hkey)
      by_cases hcolon : ':' ∈ b
      · obtain ⟨b, value, rfl, hb⟩ := List.eq_append_cons_of_mem hcolon
        by_cases hquote : '"' ∈ value
        · obtain ⟨value, content, rfl, hvalue⟩ := List.eq_append_cons_of_mem hquote
          cases hend : Json.splitString false content with
          | none => exact ⟨rest, .noEnd hkey hb hvalue hend⟩
          | some p =>
            obtain ⟨string, more⟩ := p
            have hcontent := congrArg List.length (Json.eq_append_of_splitString hend)
            simp only [List.length_append, List.length_cons] at hrest hcontent
            obtain ⟨out, hout⟩ := ih more.length (by omega) more rfl
            exact ⟨_, .blank hkey hb hvalue hend hout⟩
        · simp only [List.length_append, List.length_cons] at hrest
          obtain ⟨out, hout⟩ := ih value.length (by omega) value rfl
          exact ⟨_, .noQuote hkey hb hquote hout⟩
      · exact ⟨rest, .noColon hkey hcolon⟩

theorem sliceFrom_eq {s a b : List Char} (h : s = a ++ b) {i : ℕ} (hi : byteLen a = i) :
    sliceFrom s i = some b := by
  rw [h, ← hi, sliceFrom_byteLen]

theorem replaceRange_eq {s a b c : List Char} (h : s = a ++ b ++ c) {i j : ℕ}
    (hi : byteLen a = i) (hj : byteLen (a ++ b) = j) (t : List Char) :
    replaceRange s i j t = some (a ++ t ++ c) := by
  rw [h, ← hi, ← hj, replaceRange_byteLen]

theorem find_first {a b : List Char} {c : Char} (ha : c ∉ a) :
    find (· == c) (a ++ c :: b) = some (byteLen a) :=
  find_append (fun d hd ↦ beq_false_of_ne fun heq : d = c ↦ ha (heq ▸ hd)) (beq_self_eq_true c) b

theorem find_eq_none_of_not_mem {s : List Char} {c : Char} (h : c ∉ s) :
    find (· == c) s = none :=
  find_eq_none.mpr fun d hd ↦ beq_false_of_ne fun heq : d = c ↦ h (heq ▸ hd)

section Loop

variable {loop : List Char → ℕ → Option (List Char)} {front value content : List Char}

theorem redactValue_noQuote (hquote : '"' ∉ value) :
    redactValue loop (front ++ value) (byteLen front) = loop (front ++ value) (byteLen front) := by
  simp [redactValue, find_eq_none_of_not_mem hquote]

/-- The string behind the value's quote. -/
theorem sliceFrom_string :
    sliceFrom (front ++ (value ++ '"' :: content)) (byteLen front + byteLen value + 1) =
      some content := by
  refine sliceFrom_eq (a := front ++ value ++ ['"']) (by simp) ?_
  rw [byteLen_append, byteLen_append]
  rfl

theorem redactValue_noEnd (hquote : '"' ∉ value) (hend : Json.splitString false content = none) :
    redactValue loop (front ++ (value ++ '"' :: content)) (byteLen front) =
      some (front ++ (value ++ '"' :: content)) := by
  simp [redactValue, find_first hquote, sliceFrom_string, stringEnd_eq, hend]

theorem redactValue_blank {string more : List Char} (hquote : '"' ∉ value)
    (hend : Json.splitString false content = some (string, more)) :
    redactValue loop (front ++ (value ++ '"' :: content)) (byteLen front) =
      loop (front ++ (value ++ '"' :: redacted ++ '"' :: more))
        (byteLen (front ++ (value ++ '"' :: redacted ++ ['"']))) := by
  have hcontent := Json.eq_append_of_splitString hend
  have hreplace : replaceRange (front ++ (value ++ '"' :: content))
      (byteLen front + byteLen value + 1) (byteLen front + byteLen value + 1 + byteLen string)
      redacted = some (front ++ (value ++ '"' :: redacted ++ '"' :: more)) := by
    have hquoteLen : byteLen ['"'] = 1 := by decide
    rw [replaceRange_eq (a := front ++ (value ++ ['"'])) (b := string) (c := '"' :: more)
      (by simp [hcontent]) (by rw [byteLen_append, byteLen_append, hquoteLen, Nat.add_assoc])
      (by rw [byteLen_append, byteLen_append, byteLen_append, hquoteLen]; omega)]
    simp
  simp only [redactValue, sliceFrom_byteLen, find_first hquote, Option.bind_eq_bind,
    Option.bind_some, sliceFrom_string, stringEnd_eq, hend, Option.map_some, hreplace]
  refine congrArg _ ?_
  simp only [byteLen_append, Nat.add_assoc]

/-- The loop comes to the colon after the key. -/
theorem redactLoop_colon {rest a b : List Char}
    (hkey : splitOnceText tokenKey rest = some (a, b ++ ':' :: value)) (hcolon : ':' ∉ b)
    (done : List Char) (n : ℕ) :
    redactLoop (n + 1) (done ++ rest) (byteLen done) =
      redactValue (redactLoop n) (done ++ (a ++ tokenKey ++ b ++ [':']) ++ value)
        (byteLen (done ++ (a ++ tokenKey ++ b ++ [':']))) := by
  have hkeyColon : ':' ∉ tokenKey := by decide
  have hrest := eq_append_of_splitOnceText hkey
  have hslice : sliceFrom (done ++ rest) (byteLen done + byteLen a) =
      some ((tokenKey ++ b) ++ ':' :: value) :=
    sliceFrom_eq (a := done ++ a) (by rw [hrest]; simp) (byteLen_append done a)
  have hfind := find_first (a := tokenKey ++ b) (b := value) (c := ':')
    fun h ↦ (List.mem_append.mp h).elim hkeyColon hcolon
  have hcolonLen : byteLen [':'] = 1 := by decide
  have hsum : byteLen done + byteLen a + byteLen (tokenKey ++ b) + 1 =
      byteLen (done ++ (a ++ tokenKey ++ b ++ [':'])) := by
    simp only [byteLen_append, hcolonLen]
    omega
  have htext : done ++ rest = done ++ (a ++ tokenKey ++ b ++ [':']) ++ value := by
    rw [hrest]
    simp
  simp only [redactLoop, sliceFrom_byteLen, findText, hkey, Option.bind_eq_bind, Option.bind_some,
    Option.map_some, hslice, hfind, hsum]
  rw [htext]

end Loop

theorem redactLoop_of_scans {rest out : List Char} (h : Scans rest out) (done : List Char) {n : ℕ}
    (hn : rest.length < n) : redactLoop n (done ++ rest) (byteLen done) = some (done ++ out) := by
  have hkeyColon : ':' ∉ tokenKey := by decide
  induction h generalizing done n with
  | noKey hkey =>
    obtain ⟨n, rfl⟩ : ∃ m, n = m + 1 := ⟨n - 1, by omega⟩
    simp [redactLoop, findText, hkey]
  | @noColon rest a b hkey hcolon =>
    obtain ⟨n, rfl⟩ : ∃ m, n = m + 1 := ⟨n - 1, by omega⟩
    have hrest := eq_append_of_splitOnceText hkey
    have hslice : sliceFrom (done ++ rest) (byteLen done + byteLen a) = some (tokenKey ++ b) :=
      sliceFrom_eq (a := done ++ a) (by rw [hrest]; simp) (byteLen_append done a)
    have hnone := find_eq_none_of_not_mem (c := ':') (s := tokenKey ++ b)
      fun h ↦ (List.mem_append.mp h).elim hkeyColon hcolon
    simp [redactLoop, findText, hkey, hslice, hnone]
  | @noQuote rest a b value out hkey hcolon hquote _ ih =>
    obtain ⟨n, rfl⟩ : ∃ m, n = m + 1 := ⟨n - 1, by omega⟩
    have hrest := congrArg List.length (eq_append_of_splitOnceText hkey)
    simp only [List.length_append, List.length_cons] at hrest
    rw [redactLoop_colon hkey hcolon, redactValue_noQuote hquote, ih _ (by omega)]
    simp
  | @noEnd rest a b value content hkey hcolon hquote hend =>
    obtain ⟨n, rfl⟩ : ∃ m, n = m + 1 := ⟨n - 1, by omega⟩
    rw [redactLoop_colon hkey hcolon, redactValue_noEnd hquote hend,
      eq_append_of_splitOnceText hkey]
    simp
  | @blank rest a b value content string more out hkey hcolon hquote hend _ ih =>
    obtain ⟨n, rfl⟩ : ∃ m, n = m + 1 := ⟨n - 1, by omega⟩
    have hrest := congrArg List.length (eq_append_of_splitOnceText hkey)
    have hcontent := congrArg List.length (Json.eq_append_of_splitString hend)
    simp only [List.length_append, List.length_cons] at hrest hcontent
    have hih := ih (done ++ (a ++ tokenKey ++ b ++ [':']) ++ (value ++ '"' :: redacted ++ ['"']))
      (n := n) (by omega)
    rw [redactLoop_colon hkey hcolon, redactValue_blank hquote hend]
    simpa using hih

/-! ## Falling into step -/

section Step

variable {n m : List Char}

theorem not_mem_digits {word : List Char} (hword : ∀ c ∈ word, c.isDigit = true) {c : Char}
    (hc : c.isDigit = false) : c ∉ word := by
  intro hmem
  rw [hword c hmem] at hc
  cases hc

theorem isPlain_of_isDigit {c : Char} (hc : c.isDigit = true) : Json.IsPlain c := by
  refine ⟨?_, ?_, ?_⟩
  · rintro rfl
    exact absurd hc (by decide)
  · rintro rfl
    exact absurd hc (by decide)
  · exact Nat.le_trans (by decide) (Char.isDigit_iff_toNat.mp hc).1

theorem eq_nil_of_tokenKey {x b : List Char} (h : tokenKey = x ++ tokenKey ++ b) : b = [] := by
  have hlen := congrArg List.length h
  rw [List.length_append, List.length_append] at hlen
  exact List.length_eq_zero_iff.mp (by omega)

/-- The key cannot begin before itself. -/
theorem splitOnceText_last (front : List Char) (hfront : 'k' ∉ front) (hm : 'k' ∉ m) :
    ∃ a, splitOnceText tokenKey (front ++ ':' :: (m ++ ',' :: tokenKey)) = some (a, []) := by
  have hinfix : tokenKey <:+: front ++ ':' :: (m ++ ',' :: tokenKey) :=
    ⟨front ++ ':' :: (m ++ [',']), [], by simp⟩
  obtain ⟨a, b, hsplit⟩ := exists_splitOnceText hinfix
  have hkey : 'k' ∈ tokenKey := by decide
  rcases occurrence_cases (by decide) (eq_append_of_splitOnceText hsplit) with
    ⟨x, rfl, -⟩ | ⟨x, -, hback⟩
  · exact absurd (by simp [hkey]) hfront
  · rcases occurrence_cases (by decide) hback with ⟨y, rfl, -⟩ | ⟨y, -, hlast⟩
    · exact absurd (by simp [hkey]) hm
    · obtain rfl := eq_nil_of_tokenKey hlast
      exact ⟨a, hsplit⟩

/-- The first thing that looks like the key is the key, or all of it stands before the ports. -/
theorem splitOnceText_ports (hn : 'k' ∉ n) (hm : 'k' ∉ m) {before a b : List Char}
    (h : splitOnceText tokenKey (before ++ ports n m) = some (a, b)) :
    (∃ x, before = a ++ tokenKey ++ x ∧ b = x ++ ports n m) ∨ b = [] := by
  have hkey : 'k' ∈ tokenKey := by decide
  rcases occurrence_cases (by decide) (eq_append_of_splitOnceText h) with h | ⟨x, -, hback⟩
  · exact .inl h
  · rcases occurrence_cases (by decide) hback with ⟨y, rfl, -⟩ | ⟨y, -, hback⟩
    · exact absurd (by simp [hkey]) hn
    · have htcp : 'k' ∉ '"' :: (tcpName ++ ['"']) := by decide
      have hsplit : ('"' :: (tcpName ++ ['"'])) ++ ':' :: (m ++ ',' :: tokenKey) =
          y ++ tokenKey ++ b := by simpa using hback
      rcases occurrence_cases (by decide) hsplit with ⟨z, hz, -⟩ | ⟨z, -, hback⟩
      · rw [hz] at htcp
        exact absurd (by simp [hkey]) htcp
      · rcases occurrence_cases (by decide) hback with ⟨w, rfl, -⟩ | ⟨w, -, hlast⟩
        · exact absurd (by simp [hkey]) hm
        · exact .inr (eq_nil_of_tokenKey hlast)

section Tail

variable {ι : Type*}

/-- The rest, from the key on, has an outcome that does not depend on the text before. -/
def Lands (front : List Char) (tail out : ι → List Char) : Prop :=
  ∃ done, ∀ i, Scans (front ++ tail i) (done ++ out i)

theorem Lands.blank {rest a string more : List Char} (b value content : List Char)
    (hsplit : splitOnceText tokenKey rest = some (a, b ++ ':' :: (value ++ '"' :: content)))
    (hcolon : ':' ∉ b) (hquote : '"' ∉ value)
    (hend : Json.splitString false content = some (string, more)) {tail out : ι → List Char}
    (h : Lands more tail out) : Lands rest tail out := by
  obtain ⟨done, hdone⟩ := h
  refine ⟨a ++ tokenKey ++ b ++ ':' :: (value ++ '"' :: redacted ++ '"' :: done), fun i ↦ ?_⟩
  have hsplit' := splitOnceText_append hsplit (tail i)
  have hend' := Json.splitString_append hend (tail i)
  simp only [List.append_assoc, List.cons_append] at hsplit'
  simpa using Scans.blank hsplit' hcolon hquote hend' (hdone i)

/-- Whatever stands before the ports, the search comes to the key behind them. -/
theorem lands_ports (hn : ∀ c ∈ n, c.isDigit = true) (hm : ∀ c ∈ m, c.isDigit = true)
    (tail out : ι → List Char)
    (hkey : ∀ front a, splitOnceText tokenKey front = some (a, []) → Lands front tail out)
    (before : List Char) : Lands (before ++ ports n m) tail out := by
  have hnotN : ∀ {c : Char}, c.isDigit = false → c ∉ n := not_mem_digits hn
  have hnotM : ∀ {c : Char}, c.isDigit = false → c ∉ m := not_mem_digits hm
  -- the two places behind the name of the port at which the search can go on
  have hname : Lands (tcpName ++ '"' :: ':' :: (m ++ ',' :: tokenKey)) tail out := by
    obtain ⟨a, ha⟩ := splitOnceText_last (tcpName ++ ['"']) (by decide)
      (hnotM (c := 'k') (by decide))
    exact hkey _ a (by simpa using ha)
  have hport : Lands (':' :: (m ++ ',' :: tokenKey)) tail out := by
    obtain ⟨a, ha⟩ := splitOnceText_last [] (by decide) (hnotM (c := 'k') (by decide))
    exact hkey _ a ha
  have hnameEnd : ∀ rest, Json.splitString false (tcpName ++ '"' :: rest) =
      some (tcpName, rest) := by
    intro rest
    rw [Json.splitString_plain (forall_mem_of_all (by decide))]
    simp [Json.splitString]
  have hplain : ∀ c ∈ n ++ [','], Json.IsPlain c := by
    intro c hc
    rcases List.mem_append.mp hc with hc | hc
    · exact isPlain_of_isDigit (hn c hc)
    · rw [List.mem_singleton.mp hc]
      decide
  have hnComma : '"' ∉ n ++ [','] := fun h ↦ (List.mem_append.mp h).elim
    (hnotN (by decide)) (by decide)
  induction hlen : before.length using Nat.strong_induction_on generalizing before with
  | _ k ih =>
    subst hlen
    have hinfix : tokenKey <:+: before ++ ports n m :=
      ⟨before ++ ':' :: (n ++ ',' :: '"' :: (tcpName ++ '"' :: ':' :: (m ++ [',']))), [],
        by simp [ports]⟩
    obtain ⟨a, b, hsplit⟩ := exists_splitOnceText hinfix
    rcases splitOnceText_ports (hnotN (by decide)) (hnotM (by decide)) hsplit with
      ⟨x, rfl, rfl⟩ | rfl
    · by_cases hcolon : ':' ∈ x
      · obtain ⟨b, value, rfl, hb⟩ := List.eq_append_cons_of_mem hcolon
        by_cases hquote : '"' ∈ value
        · obtain ⟨value, content, rfl, hvalue⟩ := List.eq_append_cons_of_mem hquote
          cases hend : Json.splitString false content with
          | some p =>
            obtain ⟨string, more⟩ := p
            have hcontent := congrArg List.length (Json.eq_append_of_splitString hend)
            simp only [List.length_append, List.length_cons] at hcontent
            refine .blank b value (content ++ ports n m)
              (by simpa using hsplit) hb hvalue (Json.splitString_append hend _)
              (ih more.length ?_ more rfl)
            simp only [List.length_append, List.length_cons]
            omega
          | none =>
            -- the string runs to the quote before the name of the port
            have hcolonPlain : Json.IsPlain ':' := by decide
            have hend' := Json.splitString_eq_some hend hcolonPlain hplain
              (tcpName ++ '"' :: ':' :: (m ++ ',' :: tokenKey))
            exact .blank b value (content ++ ports n m)
              (by simpa using hsplit) hb hvalue (by simpa [ports] using hend') hname
        · have hnot : '"' ∉ value ++ ':' :: (n ++ [',']) := fun h ↦
            (List.mem_append.mp h).elim hquote fun h ↦
              (List.mem_cons.mp h).elim (by decide) hnComma
          exact .blank b (value ++ ':' :: (n ++ [',']))
            (tcpName ++ '"' :: ':' :: (m ++ ',' :: tokenKey))
            (by simpa [ports] using hsplit) hb hnot (hnameEnd _) hport
      · exact .blank x (n ++ [',']) (tcpName ++ '"' :: ':' :: (m ++ ',' :: tokenKey))
          (by simpa [ports] using hsplit) hcolon hnComma (hnameEnd _) hport
    · exact hkey _ a hsplit

end Tail

end Step

/-! ## The token in the output -/

section Token

variable (before : List Char) (j : ProbeJson) {rest : List Char}

theorem mem_showPort_isDigit (port : UInt16) : ∀ c ∈ showPort port, c.isDigit = true :=
  fun _ hc ↦ Endpoint.isDigit_of_mem_showPort hc

/-- A token whose string is closed is blanked. -/
theorem scans_closed (hclosed : (Json.splitString false rest).isSome = true) :
    ∃ out, ∀ digits, (∀ c ∈ digits, Json.IsPlain c) →
      Scans (before ++ j.front ++ digits ++ rest) out := by
  obtain ⟨⟨string, more⟩, hend⟩ := Option.isSome_iff_exists.mp hclosed
  obtain ⟨last, hlast⟩ := exists_scans more
  obtain ⟨done, hdone⟩ := lands_ports (mem_showPort_isDigit j.quicPort)
    (mem_showPort_isDigit j.tcpPort)
    (fun i : {digits : List Char // ∀ c ∈ digits, Json.IsPlain c} ↦ ':' :: '"' :: (i.1 ++ rest))
    (fun _ ↦ [])
    (fun front a hkey ↦ by
      refine ⟨a ++ tokenKey ++ ':' :: '"' :: (redacted ++ '"' :: last), fun i ↦ ?_⟩
      have hsplit : splitOnceText tokenKey (front ++ ':' :: '"' :: (i.1 ++ rest)) =
          some (a, [] ++ ':' :: ([] ++ '"' :: (i.1 ++ rest))) := splitOnceText_append hkey _
      have hstring : Json.splitString false (i.1 ++ rest) = some (i.1 ++ string, more) := by
        rw [Json.splitString_plain i.2, hend]
        rfl
      simpa using Scans.blank hsplit (by simp) (by simp) hstring hlast)
    (before ++ j.members)
  refine ⟨done, fun digits hdigits ↦ ?_⟩
  simpa [ProbeJson.front] using hdone ⟨digits, hdigits⟩

/-- A token whose string is not closed is left. -/
theorem scans_open (hopen : Json.splitString false rest = none) :
    ∃ done, ∀ digits, (∀ c ∈ digits, Json.IsPlain c) →
      Scans (before ++ j.front ++ digits ++ rest) (done ++ (digits ++ rest)) := by
  obtain ⟨done, hdone⟩ := lands_ports (mem_showPort_isDigit j.quicPort)
    (mem_showPort_isDigit j.tcpPort)
    (fun i : {digits : List Char // ∀ c ∈ digits, Json.IsPlain c} ↦ ':' :: '"' :: (i.1 ++ rest))
    (fun i ↦ i.1 ++ rest)
    (fun front a hkey ↦ by
      refine ⟨front ++ [':', '"'], fun i ↦ ?_⟩
      have hsplit : splitOnceText tokenKey (front ++ ':' :: '"' :: (i.1 ++ rest)) =
          some (a, [] ++ ':' :: ([] ++ '"' :: (i.1 ++ rest))) := splitOnceText_append hkey _
      have hstring : Json.splitString false (i.1 ++ rest) = none := by
        rw [Json.splitString_plain i.2, hopen]
        rfl
      simpa using Scans.noEnd hsplit (by simp) (by simp) hstring)
    (before ++ j.members)
  refine ⟨done, fun digits hdigits ↦ ?_⟩
  simpa [ProbeJson.front] using hdone ⟨digits, hdigits⟩

/-! ## The token in the JSON -/

variable (limit : ℕ) (readNumber : List Char → Option ν)

theorem isTokenKey_token : isTokenKey ['t', 'o', 'k', 'e', 'n'] = true := by decide

/-- If what comes up to the token is the front of a JSON text then the token is under its key. -/
theorem run_front {t : Json.State ν}
    (h : Json.run limit readNumber ⟨[], .value⟩ (before ++ j.front) = some t) :
    ∃ members stack,
      t = ⟨.object members ['t', 'o', 'k', 'e', 'n'] :: stack, .text [] .plain⟩ := by
  obtain ⟨d, digits, hport⟩ := List.exists_cons_of_ne_nil (Endpoint.showPort_ne_nil j.tcpPort)
  have hdigits : ∀ c ∈ d :: digits, c.isDigit = true := hport ▸ mem_showPort_isDigit j.tcpPort
  have htext : before ++ j.front =
      (before ++ j.members ++ ':' :: showPort j.quicPort) ++ ([',', '"', 't'] ++
        (['c', 'p', '_', 'p', 'o', 'r', 't'] ++ ((['"', ':', d] ++ (digits ++ [',', '"'])) ++
          (['t', 'o', 'k', 'e', 'n'] ++ ['"', ':', '"'])))) := by
    simp [ProbeJson.front, ports, tcpName, tokenKey, hport]
  rw [htext, Json.run_append, Option.bind_eq_some_iff] at h
  obtain ⟨start, -, h⟩ := h
  have hname : ∀ c ∈ ['c', 'p', '_', 'p', 'o', 'r', 't'], Json.IsPlain c :=
    forall_mem_of_all (by decide)
  have hkey : ∀ c ∈ ['t', 'o', 'k', 'e', 'n'], Json.IsPlain c := forall_mem_of_all (by decide)
  exact Json.run_members limit readNumber (by decide) hname (hdigits d List.mem_cons_self)
    (fun c hc ↦ hdigits c (List.mem_cons_of_mem d hc)) hkey h

/-- The digits of the token are read into the string under its key, if anything is. -/
theorem parse_digits (rest : List Char) :
    (∀ digits, (∀ c ∈ digits, Json.IsPlain c) →
      Json.parse limit readNumber (before ++ j.front ++ digits ++ rest) = none) ∨
      ∃ members stack, ∀ digits, (∀ c ∈ digits, Json.IsPlain c) →
        Json.parse limit readNumber (before ++ j.front ++ digits ++ rest) =
          Json.parseFrom limit readNumber
            ⟨.object members ['t', 'o', 'k', 'e', 'n'] :: stack, .text digits .plain⟩ rest := by
  cases hfront : Json.run limit readNumber ⟨[], .value⟩ (before ++ j.front) with
  | none =>
    refine .inl fun digits _ ↦ ?_
    rw [Json.parse, List.append_assoc, Json.parseFrom_append, hfront]
    rfl
  | some t =>
    obtain ⟨members, stack, rfl⟩ := run_front before j limit readNumber hfront
    refine .inr ⟨members, stack, fun digits hdigits ↦ ?_⟩
    rw [Json.parse, List.append_assoc, Json.parseFrom_append, hfront, Option.bind_some,
      Json.parseFrom_append, Json.run_text_plain limit readNumber _ [] hdigits]
    rfl

/-- The value is the same but for the token. -/
theorem parse_redact {digits digits' : List Char} (hdigits : ∀ c ∈ digits, Json.IsPlain c)
    (hdigits' : ∀ c ∈ digits', Json.IsPlain c) (rest : List Char) :
    (Json.parse limit readNumber (before ++ j.front ++ digits ++ rest)).map redactJsonTokens =
      (Json.parse limit readNumber (before ++ j.front ++ digits' ++ rest)).map
        redactJsonTokens := by
  obtain hnone | ⟨members, stack, hparse⟩ := parse_digits before j limit readNumber rest
  · rw [hnone digits hdigits, hnone digits' hdigits']
  · rw [hparse digits hdigits, hparse digits' hdigits']
    exact Json.parseFrom_text _ limit readNumber (if_pos isTokenKey_token) members stack _ _ _ _

/-- With its string not closed the token makes the text no JSON. -/
theorem parse_open (hopen : Json.splitString false rest = none) {digits : List Char}
    (hdigits : ∀ c ∈ digits, Json.IsPlain c) :
    Json.parse limit readNumber (before ++ j.front ++ digits ++ rest) = none := by
  obtain hnone | ⟨members, stack, hparse⟩ := parse_digits before j limit readNumber rest
  · exact hnone digits hdigits
  · rw [hparse digits hdigits]
    exact Json.parseFrom_unclosed limit readNumber _ digits hopen

end Token

/-! ## The redacted output -/

section Output

variable {fromStr : List Char → Option (Json.Value ν)}
  {toText : Json.Value ν → Option (List Char)} {raw raw' : List Char}

theorem endsWith_text {text : List Char}
    (h : (fromStr raw).bind (fun value ↦ toText (redactJsonTokens value)) = some text) :
    EndsWith (redactProbeOutput fromStr toText raw) text :=
  ⟨0, fun n _ ↦ by rw [redactProbeOutput, h]⟩

theorem endsWith_scans {out : List Char}
    (h : (fromStr raw).bind (fun value ↦ toText (redactJsonTokens value)) = none)
    (hscans : Scans raw out) : EndsWith (redactProbeOutput fromStr toText raw) out := by
  refine ⟨raw.length + 1, fun n hn ↦ ?_⟩
  rw [redactProbeOutput, h]
  exact redactLoop_of_scans hscans [] (by omega)

/-- Every output is redacted, and no slice is out of range. -/
theorem exists_endsWith (fromStr : List Char → Option (Json.Value ν))
    (toText : Json.Value ν → Option (List Char)) (raw : List Char) :
    ∃ out, EndsWith (redactProbeOutput fromStr toText raw) out := by
  cases h : (fromStr raw).bind fun value ↦ toText (redactJsonTokens value) with
  | some text => exact ⟨text, endsWith_text h⟩
  | none =>
    obtain ⟨out, hout⟩ := exists_scans raw
    exact ⟨out, endsWith_scans h hout⟩

theorem bind_eq_bind_map (value : Option (Json.Value ν)) :
    (value.bind fun value ↦ toText (redactJsonTokens value)) =
      (value.map redactJsonTokens).bind toText := by
  rw [Option.bind_map]
  rfl

/-- Outputs with one value and one outcome of the search are redacted to one text. -/
theorem endsWith_congr (hvalue : (fromStr raw).map redactJsonTokens =
      (fromStr raw').map redactJsonTokens) {last : List Char} (hscans : Scans raw last)
    (hscans' : Scans raw' last) {out : List Char}
    (h : EndsWith (redactProbeOutput fromStr toText raw) out) :
    EndsWith (redactProbeOutput fromStr toText raw') out := by
  have hbind : (fromStr raw').bind (fun value ↦ toText (redactJsonTokens value)) =
      (fromStr raw).bind fun value ↦ toText (redactJsonTokens value) := by
    rw [bind_eq_bind_map, bind_eq_bind_map, hvalue]
  cases htext : (fromStr raw).bind fun value ↦ toText (redactJsonTokens value) with
  | some text =>
    rw [h.unique (endsWith_text htext)]
    exact endsWith_text (hbind.trans htext)
  | none =>
    rw [h.unique (endsWith_scans htext hscans)]
    exact endsWith_scans (hbind.trans htext) hscans'

end Output

/-! ## What the cut leaves -/

theorem isPlain_of_isHexDigit {c : Char} (h : IsHexDigit c) : Json.IsPlain c := by
  obtain ⟨n, hn⟩ := Option.isSome_iff_exists.mp h
  exact Json.isPlain_of_hexValue hn

theorem probeOutput_of_le {j : ProbeJson} {cut : ℕ} (hcut : cut ≤ j.front.length)
    (before token after : List Char) :
    probeOutput before j token cut after = before ++ j.front.take cut ++ after := by
  rw [probeOutput, ProbeJson.text, List.append_assoc j.front, List.take_append_of_le_length hcut]

theorem probeOutput_of_lt {j : ProbeJson} {cut : ℕ} (hcut : j.front.length < cut)
    (before token after : List Char) :
    probeOutput before j token cut after =
      before ++ j.front ++ token.take (cut - j.front.length) ++
        behind j token.length cut after := by
  rw [probeOutput, ProbeJson.text, List.take_append, List.take_append,
    List.take_of_length_le (Nat.le_of_lt hcut), List.length_append, ← Nat.sub_sub, behind]
  simp

section Redaction

variable {fromStr : List Char → Option (Json.Value ν)}
  (toText : Json.Value ν → Option (List Char)) {readNumber : List Char → Option ν}
  (hfromStr : ∀ s, fromStr s = Json.parse 128 readNumber s) (before after : List Char)
  (j : ProbeJson) {token token' : List Char} {cut : ℕ}

include hfromStr

/-- A closed token does not show. -/
theorem redact_closed (hclosed : Closed j token.length cut after)
    (hlen : token'.length = token.length) (htoken : ∀ c ∈ token, IsHexDigit c)
    (htoken' : ∀ c ∈ token', IsHexDigit c) {out : List Char}
    (h : EndsWith (redactProbeOutput fromStr toText (probeOutput before j token cut after)) out) :
    EndsWith (redactProbeOutput fromStr toText (probeOutput before j token' cut after)) out := by
  by_cases hcut : cut ≤ j.front.length
  · rw [probeOutput_of_le hcut] at h ⊢
    exact h
  · have hlt : j.front.length < cut := Nat.lt_of_not_le hcut
    have hplain : ∀ c ∈ token.take (cut - j.front.length), Json.IsPlain c := fun c hc ↦
      isPlain_of_isHexDigit (htoken c (List.mem_of_mem_take hc))
    have hplain' : ∀ c ∈ token'.take (cut - j.front.length), Json.IsPlain c := fun c hc ↦
      isPlain_of_isHexDigit (htoken' c (List.mem_of_mem_take hc))
    obtain ⟨last, hlast⟩ := scans_closed before j (hclosed.resolve_left hcut)
    rw [probeOutput_of_lt hlt] at h ⊢
    rw [hlen]
    refine endsWith_congr ?_ (hlast _ hplain) (hlast _ hplain') h
    rw [hfromStr, hfromStr, parse_redact before j 128 readNumber hplain hplain']

/-- A token that is not closed does. -/
theorem redact_open (hopen : ¬Closed j token.length cut after) :
    ∃ done, ∀ token', token'.length = token.length → (∀ c ∈ token', IsHexDigit c) →
      EndsWith (redactProbeOutput fromStr toText (probeOutput before j token' cut after))
        (done ++ (token'.take (cut - j.front.length) ++ behind j token.length cut after)) := by
  obtain ⟨hcut, hend⟩ := not_or.mp hopen
  have hlt : j.front.length < cut := Nat.lt_of_not_le hcut
  have hnone := Option.not_isSome_iff_eq_none.mp hend
  obtain ⟨done, hdone⟩ := scans_open before j hnone
  refine ⟨done, fun token' hlen htoken' ↦ ?_⟩
  have hplain : ∀ c ∈ token'.take (cut - j.front.length), Json.IsPlain c := fun c hc ↦
    isPlain_of_isHexDigit (htoken' c (List.mem_of_mem_take hc))
  rw [probeOutput_of_lt hlt, hlen]
  refine endsWith_scans ?_ (hdone _ hplain)
  rw [hfromStr, parse_open before j 128 readNumber hnone hplain]
  rfl

/-- In an output that is not closed there is a digit of the token, and it shows. -/
theorem exists_token_ne (hopen : ¬Closed j token.length cut after)
    (htoken : ∀ c ∈ token, IsHexDigit c) :
    ∃ token', token'.length = token.length ∧ (∀ c ∈ token', IsHexDigit c) ∧
      ∀ out,
        EndsWith (redactProbeOutput fromStr toText (probeOutput before j token cut after)) out →
        ¬EndsWith (redactProbeOutput fromStr toText (probeOutput before j token' cut after))
          out := by
  have hlt : j.front.length < cut := Nat.lt_of_not_le (not_or.mp hopen).1
  obtain ⟨k, hk⟩ : ∃ k, cut - j.front.length = k + 1 := ⟨cut - j.front.length - 1, by omega⟩
  obtain ⟨done, hdone⟩ := redact_open toText hfromStr before after j hopen
  have hne : token ≠ [] := by
    -- the quote behind an empty one is in the output
    rintro rfl
    refine hopen (.inr ?_)
    simp [behind, hk, Json.splitString]
  obtain ⟨c, digits, rfl⟩ := List.exists_cons_of_ne_nil hne
  obtain ⟨d, hd, hdc⟩ : ∃ d, IsHexDigit d ∧ d ≠ c := by
    by_cases hc : c = '0'
    · exact ⟨'1', by decide, by rw [hc]; decide⟩
    · exact ⟨'0', by decide, Ne.symm hc⟩
  have htoken' : ∀ e ∈ d :: digits, IsHexDigit e := fun e he ↦ (List.mem_cons.mp he).elim
    (fun h ↦ h ▸ hd) fun h ↦ htoken e (List.mem_cons_of_mem c h)
  refine ⟨d :: digits, rfl, htoken', fun out hout hout' ↦ hdc ?_⟩
  have heq := (hout.unique (hdone (c :: digits) rfl htoken)).symm.trans
    (hout'.unique (hdone (d :: digits) rfl htoken'))
  rw [hk, List.take_succ_cons, List.take_succ_cons] at heq
  exact (List.cons.inj (List.append_cancel_left heq)).1.symm

end Redaction

/-- **Probe errors.** Every output of a probe is redacted without a slice out of range, and the
token does not show in the result exactly if its string is closed. -/
theorem probe_redaction {fromStr : List Char → Option (Json.Value ν)}
    (toText : Json.Value ν → Option (List Char)) {readNumber : List Char → Option ν}
    (hfromStr : ∀ s, fromStr s = Json.parse 128 readNumber s) (before after : List Char)
    (j : ProbeJson) (token : List Char) (htoken : ∀ c ∈ token, IsHexDigit c) (cut : ℕ) :
    (∃ out, EndsWith
      (redactProbeOutput fromStr toText (probeOutput before j token cut after)) out) ∧
      ((∀ token', token'.length = token.length → (∀ c ∈ token', IsHexDigit c) → ∀ out,
        EndsWith (redactProbeOutput fromStr toText (probeOutput before j token cut after)) out →
          EndsWith (redactProbeOutput fromStr toText (probeOutput before j token' cut after)) out) ↔
        Closed j token.length cut after) := by
  refine ⟨exists_endsWith fromStr toText _, fun h ↦ ?_, fun hclosed token' hlen htoken' out ↦
    redact_closed toText hfromStr before after j hclosed hlen htoken htoken'⟩
  by_contra hopen
  obtain ⟨token', hlen, htoken', hne⟩ :=
    exists_token_ne toText hfromStr before after j hopen htoken
  obtain ⟨out, hout⟩ := exists_endsWith fromStr toText (probeOutput before j token cut after)
  exact hne out hout (h token' hlen htoken' out hout)

/-- A daemon with two ports. -/
def daemonJson : ProbeJson where
  endpoints := ['[', ']']
  kmuxdVersion := ['"', '0', '"']
  protocolRange := ['{', '}']
  protocolVersion := ['4', '1']
  quicPort := 8443
  tcpPort := 8444

/-- Behind a greeting the whole JSON is redacted, and two tokens come out the same. -/
theorem probe_redaction_greeting : ∃ out,
    EndsWith (redactProbeOutput (Json.parse 128 fun digits ↦ some digits.length) (fun _ ↦ none)
      (probeOutput ['H', 'i', ' '] daemonJson ['a', '0'] (daemonJson.front.length + 4) [])) out ∧
    EndsWith (redactProbeOutput (Json.parse 128 fun digits ↦ some digits.length) (fun _ ↦ none)
      (probeOutput ['H', 'i', ' '] daemonJson ['b', '0'] (daemonJson.front.length + 4) []))
      out := by
  have hclosed : Closed daemonJson 2 (daemonJson.front.length + 4) [] := .inr (by
    rw [behind, Nat.add_sub_cancel_left]
    decide)
  obtain ⟨⟨out, hout⟩, hiff⟩ := probe_redaction (fun _ ↦ none) (fun _ ↦ rfl) ['H', 'i', ' '] []
    daemonJson ['a', '0'] (forall_mem_of_all (by decide)) (daemonJson.front.length + 4)
  exact ⟨out, hout, hiff.mpr hclosed ['b', '0'] rfl (forall_mem_of_all (by decide)) out hout⟩

/-- JSON cut behind the second digit of the token is left as it is, and the token shows. -/
theorem cut_token_shows : ∃ out out',
    EndsWith (redactProbeOutput (Json.parse 128 fun digits ↦ some digits.length) (fun _ ↦ none)
      (probeOutput [] daemonJson ['a', '0'] (daemonJson.front.length + 2) [])) out ∧
    EndsWith (redactProbeOutput (Json.parse 128 fun digits ↦ some digits.length) (fun _ ↦ none)
      (probeOutput [] daemonJson ['b', '0'] (daemonJson.front.length + 2) [])) out' ∧
    out ≠ out' := by
  have hopen : ¬Closed daemonJson ['a', '0'].length (daemonJson.front.length + 2) [] := by
    rw [Closed, behind, Nat.add_sub_cancel_left]
    exact not_or.mpr ⟨by omega, by decide⟩
  obtain ⟨done, hdone⟩ := redact_open (fun _ ↦ none) (fun _ ↦ rfl) [] [] daemonJson hopen
  refine ⟨_, _, hdone ['a', '0'] rfl (forall_mem_of_all (by decide)),
    hdone ['b', '0'] rfl (forall_mem_of_all (by decide)), fun h ↦ ?_⟩
  rw [Nat.add_sub_cancel_left] at h
  exact absurd (List.append_cancel_right (List.append_cancel_left h)) (by decide)

end Kmux.Probe
