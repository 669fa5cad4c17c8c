import Kmux.Lib.Utf8Text

/-!
# Endpoints

An endpoint is written in one of five schemes or in a short form, and is read back by trying the
forms in turn. Every text between two separators is taken as it is: nothing is escaped, so the
order of the tries and the choice of the first or the last separator decide what a text means.

A bracketed host is read by the offset of its bracket: three bytes on from it the port starts,
whatever stands between. `none` is the panic of a slice that ends up outside the text or inside a
character.
-/

namespace Kmux

open Utf8Text

/-- A parsed endpoint. -/
inductive Endpoint
  | quic (host : List Char) (port : UInt16)
  | tcpTls (host : List Char) (port : UInt16)
  | unix (path : List Char)
  | ssh (user : Option (List Char)) (host : List Char) (sshPort : Option UInt16)
  | alias (name : List Char)
  deriving DecidableEq, Repr

/-- The text of a parse error. -/
structure ParseEndpointError where
  message : List Char
  deriving DecidableEq, Repr

namespace Endpoint

/-! ## Ports -/

/-- `str::parse::<u16>`: an optional plus sign, then decimal digits up to 65535. -/
def parseU16 (s : List Char) : Option UInt16 :=
  let digits := (s.dropPrefix? ['+']).getD s
  if !digits.isEmpty && digits.all Char.isDigit && Nat.ofDigitChars 10 digits 0 < 65536 then
    some (.ofNat (Nat.ofDigitChars 10 digits 0))
  else none

/-- A port in decimal. -/
def showPort (port : UInt16) : List Char := Nat.toDigits 10 port.toNat

/-! ## Parsing -/

/-- Split `host:port`; nothing if the port is missing or is no number. -/
def splitHostPort (s : List Char) : Option (Option (List Char × UInt16)) :=
  match (s.dropPrefix? ['[']).bind (find (· == ']')) with
  | some bracketEnd => do
    let host := '[' :: ((← slice s 1 (bracketEnd + 1)) ++ [']'])
    -- `]:` is skipped unseen
    let after ← sliceFrom s (bracketEnd + 3)
    return (parseU16 after).map (host, ·)
  | none =>
    match rfind (· == ':') s with
    | none => return none
    | some colon => do
      let host ← sliceTo s colon
      let port := parseU16 (← sliceFrom s (colon + 1))
      return if host.isEmpty then none else port.map (host, ·)

/-- Split an optional port off a host. -/
def splitOptionalPort (s : List Char) : List Char × Option UInt16 :=
  match rsplitOnce ':' s with
  | some (host, portStr) =>
    match parseU16 portStr with
    | some port => (host, some port)
    | none => (s, none)
  | none => (s, none)

/-- Parse `user@host[:port]` or `host[:port]`. -/
def parseSshAuthority (authority : List Char) : Option (Except ParseEndpointError Endpoint) :=
  match find (· == '@') authority with
  | some atPos => do
    let user ← sliceTo authority atPos
    let (host, sshPort) := splitOptionalPort (← sliceFrom authority (atPos + 1))
    return .ok (.ssh (if user.isEmpty then none else some user) host sshPort)
  | none =>
    let (host, sshPort) := splitOptionalPort authority
    some (.ok (.ssh none host sshPort))

/-- The two schemes in which the port is required. -/
def parseHostPort (scheme : String) (make : List Char → UInt16 → Endpoint) (rest : List Char) :
    Option (Except ParseEndpointError Endpoint) :=
  (splitHostPort rest).map fun
    | some (host, port) => .ok (make host port)
    | none =>
      .error ⟨scheme.toList ++ " endpoint requires host:port, got '".toList ++ rest ++ ['\'']⟩

/-- The short forms without a user: `host:port`, or else the name of an alias. -/
def parseBare (s : List Char) : Option (Except ParseEndpointError Endpoint) :=
  (splitHostPort s).map fun
    | some (host, port) => .ok (.quic host port)
    | none =>
      if s.isEmpty then .error ⟨"empty endpoint string".toList⟩ else .ok (.alias s)

/-- The short forms. -/
def parseSugar (s : List Char) : Option (Except ParseEndpointError Endpoint) :=
  match find (· == '@') s with
  | some atPos => do
    let user ← sliceTo s atPos
    let hostPart ← sliceFrom s (atPos + 1)
    if user.isEmpty then parseBare s
    else
      let (host, sshPort) := splitOptionalPort hostPart
      return .ok (.ssh (some user) host sshPort)
  | none => parseBare s

/-- Parse a trimmed text. -/
def parseTrimmed (s : List Char) : Option (Except ParseEndpointError Endpoint) :=
  match s.dropPrefix? ['@'] with
  | some name =>
    some (if name.isEmpty then .error ⟨"empty alias name after '@'".toList⟩ else .ok (.alias name))
  | none =>
  match s.dropPrefix? "quic://".toList with
  | some rest => parseHostPort "quic://" .quic rest
  | none =>
  match s.dropPrefix? "tcp+tls://".toList with
  | some rest => parseHostPort "tcp+tls://" .tcpTls rest
  | none =>
  match s.dropPrefix? "unix://".toList with
  | some path =>
    some (if path.isEmpty then .error ⟨"unix:// requires a path".toList⟩ else .ok (.unix path))
  | none =>
  match s.dropPrefix? "ssh://".toList with
  | some rest => parseSshAuthority rest
  | none => parseSugar s

/-- `Endpoint::parse`; nothing where it panics. -/
def parse (s : List Char) : Option (Except ParseEndpointError Endpoint) := parseTrimmed (trim s)

/-! ## Printing -/

/-- A host and its optional port. -/
def showOptionalPort (host : List Char) : Option UInt16 → List Char
  | some port => host ++ ':' :: showPort port
  | none => host

/-- `Display`. -/
def display : Endpoint → List Char
  | .quic host port => "quic://".toList ++ (host ++ ':' :: showPort port)
  | .tcpTls host port => "tcp+tls://".toList ++ (host ++ ':' :: showPort port)
  | .unix path => "unix://".toList ++ path
  | .ssh (some user) host sshPort =>
    "ssh://".toList ++ (user ++ '@' :: showOptionalPort host sshPort)
  | .ssh none host sshPort => "ssh://".toList ++ showOptionalPort host sshPort
  | .alias name => '@' :: name

@[simp] theorem display_quic (host : List Char) (port : UInt16) :
    display (.quic host port) = "quic://".toList ++ (host ++ ':' :: showPort port) := rfl

@[simp] theorem display_tcpTls (host : List Char) (port : UInt16) :
    display (.tcpTls host port) = "tcp+tls://".toList ++ (host ++ ':' :: showPort port) := rfl

@[simp] theorem display_unix (path : List Char) :
    display (.unix path) = "unix://".toList ++ path := rfl

@[simp] theorem display_ssh_some (user host : List Char) (sshPort : Option UInt16) :
    display (.ssh (some user) host sshPort) =
      "ssh://".toList ++ (user ++ '@' :: showOptionalPort host sshPort) := rfl

@[simp] theorem display_ssh_none (host : List Char) (sshPort : Option UInt16) :
    display (.ssh none host sshPort) = "ssh://".toList ++ showOptionalPort host sshPort := rfl

@[simp] theorem display_alias (name : List Char) : display (.alias name) = '@' :: name := rfl

/-! ## Ports in decimal -/

theorem isDigit_of_mem_showPort {port : UInt16} {c : Char} (h : c ∈ showPort port) :
    c.isDigit = true := Nat.isDigit_of_mem_toDigits (by decide) (by decide) h

theorem not_mem_showPort {port : UInt16} {c : Char} (hc : c.isDigit = false) :
    c ∉ showPort port := fun h ↦ by simp [isDigit_of_mem_showPort h] at hc

theorem showPort_ne_nil (port : UInt16) : showPort port ≠ [] := Nat.toDigits_ne_nil

theorem parseU16_showPort (port : UInt16) : parseU16 (showPort port) = some port := by
  have hplus : (showPort port).dropPrefix? ['+'] = none := by
    rw [Option.eq_none_iff_forall_ne_some]
    intro rest h
    have hmem : '+' ∈ showPort port := by rw [dropPrefix?_eq_some.mp h]; simp
    exact not_mem_showPort (by decide) hmem
  have hvalue : Nat.ofDigitChars 10 (showPort port) 0 = port.toNat := Nat.ofDigitChars_ten_toDigits
  have hdigits : (showPort port).all Char.isDigit = true :=
    List.all_eq_true.mpr fun c hc ↦ isDigit_of_mem_showPort hc
  have hlt : port.toNat < 65536 := port.toNat_lt
  rw [parseU16, hplus]
  simp [hvalue, hdigits, hlt, showPort_ne_nil]

/-- A port holds digits, with a plus sign in front at most. -/
theorem not_mem_of_parseU16 {s : List Char} {port : UInt16} (h : parseU16 s = some port) {c : Char}
    (hplus : c ≠ '+') (hc : c.isDigit = false) : c ∉ s := by
  intro hmem
  have hrest : c ∈ (s.dropPrefix? ['+']).getD s := by
    cases hdrop : s.dropPrefix? ['+'] with
    | none => exact hmem
    | some rest =>
      rw [dropPrefix?_eq_some.mp hdrop] at hmem
      simpa [hplus] using hmem
  rw [parseU16] at h
  split_ifs at h with hall
  rw [Bool.and_eq_true, Bool.and_eq_true, List.all_eq_true] at hall
  simp [hall.1.2 c hrest] at hc

/-! ## Splitting -/

private theorem find_at {a : List Char} {c : Char} (ha : c ∉ a) (b : List Char) :
    find (· == c) (a ++ c :: b) = some (byteLen a) :=
  find_append (fun _ hd ↦ beq_eq_false_iff_ne.mpr (ne_of_mem_of_not_mem hd ha))
    (beq_self_eq_true c) b

/-- What follows the bracket is read from two bytes past the bracket on. -/
theorem splitHostPort_bracket {inner : List Char} (hinner : ']' ∉ inner) (tail : List Char) :
    splitHostPort ('[' :: (inner ++ ']' :: tail)) =
      match tail with
      | [] => none
      | c :: rest =>
        if c.utf8Size = 1 then some ((parseU16 rest).map ('[' :: (inner ++ [']']), ·))
        else none := by
  set s : List Char := '[' :: (inner ++ ']' :: tail) with hs
  have hopen : s.dropPrefix? ['['] = some (inner ++ ']' :: tail) := dropPrefix?_eq_some.mpr rfl
  have hhost : slice s 1 (byteLen inner + 1) = some inner := by
    have hlen : byteLen (['['] ++ inner) = byteLen inner + 1 := by
      rw [byteLen_append, Nat.add_comm]
      rfl
    rw [← hlen]
    exact slice_byteLen ['['] inner (']' :: tail)
  have hafter : sliceFrom s (byteLen inner + 3) = sliceFrom tail 1 := by
    have hlen : byteLen (['['] ++ inner ++ [']']) + 1 = byteLen inner + 3 := by
      rw [byteLen_append, byteLen_append, show byteLen ['['] = 1 from rfl,
        show byteLen [']'] = 1 from rfl]
      omega
    have hsplit : s = (['['] ++ inner ++ [']']) ++ tail := by simp [hs]
    rw [← hlen, hsplit, sliceFrom_append]
  rw [splitHostPort, hopen, Option.bind_some, find_at hinner]
  simp only [hhost, hafter, sliceFrom_one, Option.bind_eq_bind, Option.bind_some]
  cases tail with
  | nil => rfl
  | cons c rest =>
    by_cases hc : c.utf8Size = 1
    · simp [hc]
    · simp [hc]

/-- Without a bracketed host, the last colon decides. -/
theorem splitHostPort_plain {s : List Char}
    (hbracket : (s.dropPrefix? ['[']).bind (find (· == ']')) = none) :
    splitHostPort s =
      some ((rsplitOnce ':' s).bind fun p ↦
        if p.1.isEmpty then none else (parseU16 p.2).map (p.1, ·)) := by
  rw [splitHostPort, hbracket]
  cases hsplit : rsplitOnce ':' s with
  | none =>
    have hcolon : rfind (· == ':') s = none :=
      rfind_eq_none.mpr fun c hc ↦
        beq_eq_false_iff_ne.mpr (ne_of_mem_of_not_mem hc (rsplitOnce_eq_none.mp hsplit))
    simp [hcolon]
  | some p =>
    obtain ⟨host, portStr⟩ := p
    obtain ⟨rfl, hport⟩ := rsplitOnce_eq_some.mp hsplit
    have hcolon : rfind (· == ':') (host ++ ':' :: portStr) = some (byteLen host) :=
      rfind_append (fun _ hd ↦ beq_eq_false_iff_ne.mpr (ne_of_mem_of_not_mem hd hport))
        (beq_self_eq_true ':') host
    have hafter : sliceFrom (host ++ ':' :: portStr) (byteLen host + 1) = some portStr := by
      rw [sliceFrom_append, sliceFrom_one]
      rfl
    simp [hcolon, hafter]

/-- The host part is bracketed, or the last colon decides. -/
theorem bracketed_or (s : List Char) :
    (s.dropPrefix? ['[']).bind (find (· == ']')) = none ∨
      ∃ inner tail, ']' ∉ inner ∧ s = '[' :: (inner ++ ']' :: tail) := by
  cases hopen : s.dropPrefix? ['['] with
  | none => exact .inl rfl
  | some rest =>
    rw [Option.bind_some]
    cases hclose : find (· == ']') rest with
    | none => exact .inl rfl
    | some i =>
      obtain ⟨inner, c, tail, rfl, -, hc, hinner⟩ := find_eq_some hclose
      obtain rfl : c = ']' := beq_iff_eq.mp hc
      refine .inr ⟨inner, tail, fun hmem ↦ ?_, dropPrefix?_eq_some.mp hopen⟩
      exact absurd (hinner ']' hmem) (by decide)

theorem splitOptionalPort_append {host portStr : List Char} {port : UInt16}
    (h : parseU16 portStr = some port) :
    splitOptionalPort (host ++ ':' :: portStr) = (host, some port) := by
  have hcolon : ':' ∉ portStr := not_mem_of_parseU16 h (by decide) (by decide)
  rw [splitOptionalPort, rsplitOnce_append hcolon]
  simp [h]

theorem splitOptionalPort_cases (s : List Char) :
    splitOptionalPort s = (s, none) ∨
      ∃ host portStr port, s = host ++ ':' :: portStr ∧ parseU16 portStr = some port ∧
        splitOptionalPort s = (host, some port) := by
  cases hsplit : rsplitOnce ':' s with
  | none =>
    left
    rw [splitOptionalPort, hsplit]
  | some p =>
    obtain ⟨rfl, -⟩ := rsplitOnce_eq_some.mp hsplit
    cases hport : parseU16 p.2 with
    | none =>
      left
      rw [splitOptionalPort, hsplit]
      simp [hport]
    | some port => exact .inr ⟨p.1, p.2, port, rfl, hport, splitOptionalPort_append hport⟩

/-! ## The forms of an endpoint -/

/-- The forms in which an endpoint is written, each with what it stands for. -/
inductive Form : List Char → Endpoint → Prop
  | name {n : List Char} (hn : n ≠ []) : Form (['@'] ++ n) (.alias n)
  | quic {rest host : List Char} {port : UInt16}
      (h : splitHostPort rest = some (some (host, port))) :
      Form ("quic://".toList ++ rest) (.quic host port)
  | tcpTls {rest host : List Char} {port : UInt16}
      (h : splitHostPort rest = some (some (host, port))) :
      Form ("tcp+tls://".toList ++ rest) (.tcpTls host port)
  | unix {path : List Char} (hp : path ≠ []) : Form ("unix://".toList ++ path) (.unix path)
  | sshUser {user : List Char} (hu : '@' ∉ user) (rest : List Char) :
      Form ("ssh://".toList ++ (user ++ '@' :: rest))
        (.ssh (if user.isEmpty then none else some user) (splitOptionalPort rest).1
          (splitOptionalPort rest).2)
  | ssh {rest : List Char} (h : '@' ∉ rest) :
      Form ("ssh://".toList ++ rest) (.ssh none (splitOptionalPort rest).1
        (splitOptionalPort rest).2)
  | user {user : List Char} (hu : '@' ∉ user) (hne : user ≠ []) (rest : List Char) :
      Form (user ++ '@' :: rest) (.ssh (some user) (splitOptionalPort rest).1
        (splitOptionalPort rest).2)
  | hostPort {s host : List Char} {port : UInt16} (hs : '@' ∉ s)
      (h : splitHostPort s = some (some (host, port))) : Form s (.quic host port)
  | bare {s : List Char} (hs : '@' ∉ s) (hne : s ≠ []) : Form s (.alias s)

private theorem find_at_eq_none {s : List Char} : find (· == '@') s = none ↔ '@' ∉ s := by
  rw [find_eq_none]
  constructor
  · intro h hmem
    exact absurd (h '@' hmem) (by decide)
  · intro h c hc
    exact beq_eq_false_iff_ne.mpr (ne_of_mem_of_not_mem hc h)

/-- A text has no at sign, or a first one. -/
private theorem at_cases (s : List Char) :
    ('@' ∉ s ∧ find (· == '@') s = none) ∨
      ∃ a b, '@' ∉ a ∧ s = a ++ '@' :: b ∧ find (· == '@') s = some (byteLen a) := by
  cases hfind : find (· == '@') s with
  | none => exact .inl ⟨find_at_eq_none.mp hfind, rfl⟩
  | some i =>
    obtain ⟨a, c, b, rfl, rfl, hc, ha⟩ := find_eq_some hfind
    obtain rfl : c = '@' := beq_iff_eq.mp hc
    exact .inr ⟨a, b, fun hmem ↦ absurd (ha '@' hmem) (by decide), rfl, rfl⟩

private theorem sliceFrom_at (a b : List Char) :
    sliceFrom (a ++ '@' :: b) (byteLen a + 1) = some b := by
  rw [sliceFrom_append, sliceFrom_one]
  rfl

theorem parseSshAuthority_at {user : List Char} (hu : '@' ∉ user) (rest : List Char) :
    parseSshAuthority (user ++ '@' :: rest) =
      some (.ok (.ssh (if user.isEmpty then none else some user) (splitOptionalPort rest).1
        (splitOptionalPort rest).2)) := by
  rw [parseSshAuthority, find_at hu]
  simp only [sliceTo_byteLen, sliceFrom_at, Option.bind_eq_bind, Option.bind_some]
  rfl

theorem parseSshAuthority_of_not_mem {rest : List Char} (h : '@' ∉ rest) :
    parseSshAuthority rest =
      some (.ok (.ssh none (splitOptionalPort rest).1 (splitOptionalPort rest).2)) := by
  rw [parseSshAuthority, find_at_eq_none.mpr h]

theorem parseSugar_of_not_mem {s : List Char} (h : '@' ∉ s) : parseSugar s = parseBare s := by
  rw [parseSugar, find_at_eq_none.mpr h]

theorem parseSugar_at {user : List Char} (hu : '@' ∉ user) (hne : user ≠ []) (rest : List Char) :
    parseSugar (user ++ '@' :: rest) =
      some (.ok (.ssh (some user) (splitOptionalPort rest).1 (splitOptionalPort rest).2)) := by
  have hempty : user.isEmpty = false := by simpa using hne
  rw [parseSugar, find_at hu]
  simp only [sliceTo_byteLen, sliceFrom_at, Option.bind_eq_bind, Option.bind_some, hempty]
  rfl

theorem form_of_parseSshAuthority {rest : List Char} {e : Endpoint}
    (h : parseSshAuthority rest = some (.ok e)) : Form ("ssh://".toList ++ rest) e := by
  obtain ⟨hrest, -⟩ | ⟨user, host, hu, rfl, -⟩ := at_cases rest
  · rw [parseSshAuthority_of_not_mem hrest] at h
    cases h
    exact .ssh hrest
  · rw [parseSshAuthority_at hu] at h
    cases h
    exact .sshUser hu host

theorem form_of_parseHostPort {scheme : String} {make : List Char → UInt16 → Endpoint}
    {rest : List Char} {e : Endpoint} (h : parseHostPort scheme make rest = some (.ok e)) :
    ∃ host port, splitHostPort rest = some (some (host, port)) ∧ e = make host port := by
  rw [parseHostPort, Option.map_eq_some_iff] at h
  obtain ⟨r, hr, he⟩ := h
  match r, he with
  | some (host, port), he => exact ⟨host, port, hr, by cases he; rfl⟩

theorem form_of_parseBare {s : List Char} {e : Endpoint} (hs : '@' ∉ s)
    (h : parseBare s = some (.ok e)) : Form s e := by
  rw [parseBare, Option.map_eq_some_iff] at h
  obtain ⟨r, hr, he⟩ := h
  match r, he with
  | some (host, port), he =>
    cases he
    exact .hostPort hs hr
  | none, he =>
    dsimp only at he
    split_ifs at he with hempty
    cases he
    exact .bare hs (by simpa using hempty)

theorem form_of_parseSugar {s : List Char} {e : Endpoint} (hhead : s.head? ≠ some '@')
    (h : parseSugar s = some (.ok e)) : Form s e := by
  obtain ⟨hs, -⟩ | ⟨user, host, hu, rfl, -⟩ := at_cases s
  · rw [parseSugar_of_not_mem hs] at h
    exact form_of_parseBare hs h
  · have hne : user ≠ [] := by
      rintro rfl
      exact hhead rfl
    rw [parseSugar_at hu hne] at h
    cases h
    exact .user hu hne host

/-- What is accepted is written in one of the forms. -/
theorem form_of_parseTrimmed {s : List Char} {e : Endpoint} (h : parseTrimmed s = some (.ok e)) :
    Form s e := by
  rw [parseTrimmed] at h
  split at h
  case h_1 n hn =>
    obtain rfl := dropPrefix?_eq_some.mp hn
    rw [Option.some.injEq] at h
    split_ifs at h with hempty
    cases h
    exact .name (by simpa using hempty)
  case h_2 hn =>
  split at h
  case h_1 rest hrest =>
    obtain rfl := dropPrefix?_eq_some.mp hrest
    obtain ⟨host, port, hsplit, rfl⟩ := form_of_parseHostPort h
    exact .quic hsplit
  case h_2 =>
  split at h
  case h_1 rest hrest =>
    obtain rfl := dropPrefix?_eq_some.mp hrest
    obtain ⟨host, port, hsplit, rfl⟩ := form_of_parseHostPort h
    exact .tcpTls hsplit
  case h_2 =>
  split at h
  case h_1 path hpath =>
    obtain rfl := dropPrefix?_eq_some.mp hpath
    rw [Option.some.injEq] at h
    split_ifs at h with hempty
    cases h
    exact .unix (by simpa using hempty)
  case h_2 =>
  split at h
  case h_1 rest hrest =>
    obtain rfl := dropPrefix?_eq_some.mp hrest
    exact form_of_parseSshAuthority h
  case h_2 =>
    refine form_of_parseSugar (fun hhead ↦ ?_) h
    obtain ⟨n, rfl⟩ := List.head?_eq_some_iff.mp hhead
    have hname : ('@' :: n).dropPrefix? ['@'] = some n := dropPrefix?_eq_some.mpr rfl
    simp [hname] at hn

/-! ## The form that is printed -/

theorem parseTrimmed_name {n : List Char} (hn : n ≠ []) :
    parseTrimmed ('@' :: n) = some (.ok (.alias n)) := by
  have hname : ('@' :: n).dropPrefix? ['@'] = some n := dropPrefix?_eq_some.mpr rfl
  rw [parseTrimmed, hname]
  simp [hn]

theorem parseTrimmed_quic (rest : List Char) :
    parseTrimmed ("quic://".toList ++ rest) = parseHostPort "quic://" .quic rest := by
  rw [parseTrimmed, dropPrefix?_of_head_ne (c := 'q') (d := '@') rfl rfl (by decide),
    dropPrefix?_eq_some.mpr rfl]

theorem parseTrimmed_tcpTls (rest : List Char) :
    parseTrimmed ("tcp+tls://".toList ++ rest) = parseHostPort "tcp+tls://" .tcpTls rest := by
  rw [parseTrimmed, dropPrefix?_of_head_ne (c := 't') (d := '@') rfl rfl (by decide),
    dropPrefix?_of_head_ne (c := 't') (d := 'q') rfl rfl (by decide), dropPrefix?_eq_some.mpr rfl]

theorem parseTrimmed_unix {path : List Char} (hp : path ≠ []) :
    parseTrimmed ("unix://".toList ++ path) = some (.ok (.unix path)) := by
  rw [parseTrimmed, dropPrefix?_of_head_ne (c := 'u') (d := '@') rfl rfl (by decide),
    dropPrefix?_of_head_ne (c := 'u') (d := 'q') rfl rfl (by decide),
    dropPrefix?_of_head_ne (c := 'u') (d := 't') rfl rfl (by decide), dropPrefix?_eq_some.mpr rfl]
  simp [hp]

theorem parseTrimmed_ssh (rest : List Char) :
    parseTrimmed ("ssh://".toList ++ rest) = parseSshAuthority rest := by
  rw [parseTrimmed, dropPrefix?_of_head_ne (c := 's') (d := '@') rfl rfl (by decide),
    dropPrefix?_of_head_ne (c := 's') (d := 'q') rfl rfl (by decide),
    dropPrefix?_of_head_ne (c := 's') (d := 't') rfl rfl (by decide),
    dropPrefix?_of_head_ne (c := 's') (d := 'u') rfl rfl (by decide), dropPrefix?_eq_some.mpr rfl]

/-! ## Bracketed hosts -/

/-- The host and port that an endpoint was accepted with. -/
def hostAndPort : Endpoint → Option (List Char × UInt16)
  | .quic host port => some (host, port)
  | .tcpTls host port => some (host, port)
  | .ssh _ host (some port) => some (host, port)
  | _ => none

/-- The text after the first at sign, if there is one. -/
def afterAt (s : List Char) : List Char :=
  match s.dropWhile (· != '@') with
  | [] => s
  | _ :: rest => rest

/-- The text which a form splits into a host and a port. -/
inductive Authority
  | required (text : List Char)
  | optional (text : List Char)
  deriving DecidableEq, Repr

def Authority.text : Authority → List Char
  | required text => text
  | optional text => text

/-- The text to split, if the form has one. -/
def authority (s : List Char) : Option Authority :=
  match s.dropPrefix? ['@'] with
  | some _ => none
  | none =>
  match s.dropPrefix? "quic://".toList with
  | some rest => some (.required rest)
  | none =>
  match s.dropPrefix? "tcp+tls://".toList with
  | some rest => some (.required rest)
  | none =>
  match s.dropPrefix? "unix://".toList with
  | some _ => none
  | none =>
  match s.dropPrefix? "ssh://".toList with
  | some rest => some (.optional (afterAt rest))
  | none => if '@' ∈ s then some (.optional (afterAt s)) else some (.required s)

/-- What parsing comes to, by the text that is split. -/
inductive Settles : Option Authority → Option (Except ParseEndpointError Endpoint) → Prop
  | none (r : Except ParseEndpointError Endpoint) : Settles none (some r)
  | required {text : List Char} {make : List Char → UInt16 → Endpoint}
      {other : Except ParseEndpointError Endpoint}
      (hmake : ∀ host port, hostAndPort (make host port) = some (host, port))
      (hother : ∀ e, other = .ok e → hostAndPort e = Option.none) :
      Settles (some (.required text)) ((splitHostPort text).map fun
        | some (host, port) => .ok (make host port)
        | Option.none => other)
  | optional {text : List Char} (user : Option (List Char)) :
      Settles (some (.optional text)) (some (.ok (.ssh user (splitOptionalPort text).1
        (splitOptionalPort text).2)))

theorem afterAt_of_not_mem {s : List Char} (h : '@' ∉ s) : afterAt s = s := by
  have hdrop : s.dropWhile (· != '@') = [] := by
    rw [List.dropWhile_eq_nil_iff]
    exact fun c hc ↦ bne_iff_ne.mpr (ne_of_mem_of_not_mem hc h)
  rw [afterAt, hdrop]

theorem afterAt_append {a : List Char} (ha : '@' ∉ a) (b : List Char) :
    afterAt (a ++ '@' :: b) = b := by
  have hdrop : (a ++ '@' :: b).dropWhile (· != '@') = '@' :: b := by
    rw [List.dropWhile_append_of_pos fun c hc ↦ bne_iff_ne.mpr (ne_of_mem_of_not_mem hc ha)]
    exact List.dropWhile_cons_of_neg (by simp)
  rw [afterAt, hdrop]

theorem settles_parseSshAuthority (rest : List Char) :
    Settles (some (.optional (afterAt rest))) (parseSshAuthority rest) := by
  obtain ⟨hrest, -⟩ | ⟨user, host, hu, rfl, -⟩ := at_cases rest
  · rw [afterAt_of_not_mem hrest, parseSshAuthority_of_not_mem hrest]
    exact .optional none
  · rw [afterAt_append hu, parseSshAuthority_at hu]
    exact .optional _

theorem settles_parseSugar {s : List Char} (hhead : s.head? ≠ some '@') :
    Settles (if '@' ∈ s then some (.optional (afterAt s)) else some (.required s))
      (parseSugar s) := by
  obtain ⟨hs, -⟩ | ⟨user, host, hu, rfl, -⟩ := at_cases s
  · rw [if_neg hs, parseSugar_of_not_mem hs]
    refine .required (fun _ _ ↦ rfl) fun e he ↦ ?_
    split_ifs at he
    cases he
    rfl
  · have hne : user ≠ [] := by
      rintro rfl
      exact hhead rfl
    rw [if_pos (by simp), afterAt_append hu, parseSugar_at hu hne]
    exact .optional _

theorem settles (s : List Char) : Settles (authority s) (parseTrimmed s) := by
  rw [authority, parseTrimmed]
  split
  · exact .none _
  case h_2 hname =>
  split
  · exact .required (fun _ _ ↦ rfl) (by simp)
  split
  · exact .required (fun _ _ ↦ rfl) (by simp)
  split
  · exact .none _
  split
  · exact settles_parseSshAuthority _
  · refine settles_parseSugar fun hhead ↦ ?_
    obtain ⟨n, rfl⟩ := List.head?_eq_some_iff.mp hhead
    have hdrop : ('@' :: n).dropPrefix? ['@'] = some n := dropPrefix?_eq_some.mpr rfl
    simp [hdrop] at hname

/-- A bracketed host is accepted as host and port exactly if a colon and a port follow it. -/
def BracketRule (s : List Char) : Prop :=
  ∀ inner tail, ']' ∉ inner →
    (authority (trim s)).map Authority.text = some ('[' :: (inner ++ ']' :: tail)) → ∀ port,
      (∃ e, parse s = some (.ok e) ∧ e.hostAndPort = some ('[' :: (inner ++ [']']), port)) ↔
        ∃ digits, tail = ':' :: digits ∧ parseU16 digits = some port

/-- The character after the bracket takes one byte, and is a colon unless what comes after it is no
port anyway. -/
def TailRead (s : List Char) : Prop :=
  ∀ inner tail, ']' ∉ inner →
    authority (trim s) = some (.required ('[' :: (inner ++ ']' :: tail))) →
      ∃ c rest, tail = c :: rest ∧ c.utf8Size = 1 ∧ (c = ':' ∨ parseU16 rest = none)

/-- Where the port is optional, the last colon decides for a bracketed host as well. -/
theorem bracketRule_optional (inner tail : List Char) (port : UInt16) :
    splitOptionalPort ('[' :: (inner ++ ']' :: tail)) = ('[' :: (inner ++ [']']), some port) ↔
      ∃ digits, tail = ':' :: digits ∧ parseU16 digits = some port := by
  have hjoin (t : List Char) : '[' :: (inner ++ ']' :: t) = '[' :: (inner ++ [']']) ++ t := by simp
  constructor
  · intro h
    obtain hnone | ⟨host, portStr, port', hs, hport, hsome⟩ :=
      splitOptionalPort_cases ('[' :: (inner ++ ']' :: tail))
    · rw [hnone] at h
      simp at h
    · rw [hsome] at h
      obtain ⟨rfl, rfl⟩ : host = '[' :: (inner ++ [']']) ∧ port' = port := by simpa using h
      rw [hjoin tail] at hs
      exact ⟨portStr, List.append_cancel_left hs, hport⟩
  · rintro ⟨digits, rfl, hport⟩
    rw [hjoin, splitOptionalPort_append hport]

theorem bracketRule_iff_required {make : List Char → UInt16 → Endpoint}
    {other : Except ParseEndpointError Endpoint}
    (hmake : ∀ host port, hostAndPort (make host port) = some (host, port))
    (hother : ∀ e, other = .ok e → hostAndPort e = none) {host : List Char}
    (r : Option UInt16) (port : UInt16) :
    (∃ e, (match r.map (host, ·) with
        | some (h, p) => Except.ok (make h p)
        | none => other) = .ok e ∧ e.hostAndPort = some (host, port)) ↔ r = some port := by
  cases r with
  | none =>
    constructor
    · rintro ⟨e, he, hport⟩
      rw [hother e he] at hport
      exact absurd hport (by simp)
    · simp
  | some p =>
    constructor
    · rintro ⟨e, he, hport⟩
      cases he
      rw [hmake, Option.some.injEq, Prod.mk.injEq] at hport
      rw [hport.2]
    · intro hp
      obtain rfl := Option.some.inj hp
      exact ⟨make host p, rfl, hmake host p⟩

/-- Parsing panics, or takes another character for the colon, exactly if the character after the
bracket is missing, is longer than a byte, or is no colon and stands before a port. -/
theorem parse_total_iff (s : List Char) : (parse s ≠ none ∧ BracketRule s) ↔ TailRead s := by
  have hsettles : Settles (authority (trim s)) (parse s) := settles (trim s)
  rw [BracketRule, TailRead]
  generalize authority (trim s) = a at hsettles
  generalize hparse : parse s = r at hsettles
  cases hsettles with
  | none r => simp
  | optional user =>
    refine ⟨fun _ _ _ _ h ↦ absurd h (by simp), fun _ ↦ ⟨by simp, fun inner tail _ ha port ↦ ?_⟩⟩
    have htext := Option.some.inj ha
    rw [Authority.text] at htext
    rw [htext, ← bracketRule_optional]
    cases hsplit : splitOptionalPort ('[' :: (inner ++ ']' :: tail)) with
    | mk host sshPort => cases sshPort <;> simp [hostAndPort]
  | @required text make other hmake hother =>
    constructor
    · rintro ⟨hpanic, hrule⟩ inner tail hinner ha
      obtain rfl : text = '[' :: (inner ++ ']' :: tail) := by simpa using ha
      rw [splitHostPort_bracket hinner] at hpanic hrule
      cases tail with
      | nil => exact absurd rfl hpanic
      | cons c rest =>
        have hsize : c.utf8Size = 1 := by
          by_contra hne
          simp [hne] at hpanic
        refine ⟨c, rest, rfl, hsize, ?_⟩
        cases hport : parseU16 rest with
        | none => exact .inr rfl
        | some port =>
          -- something is read as the port, so the rule asks for a colon
          have haccept := (hrule inner (c :: rest) hinner rfl port).mp ⟨make _ port, by
            simp [hsize, hport], hmake _ port⟩
          obtain ⟨digits, htail, -⟩ := haccept
          exact .inl (List.cons.inj htail).1
    · intro htail
      have hread (inner tail : List Char) (hinner : ']' ∉ inner)
          (htext : text = '[' :: (inner ++ ']' :: tail)) :
          ∃ c rest, tail = c :: rest ∧ (c = ':' ∨ parseU16 rest = none) ∧
            splitHostPort text = some ((parseU16 rest).map ('[' :: (inner ++ [']']), ·)) := by
        obtain ⟨c, rest, rfl, hsize, hc⟩ := htail inner tail hinner (by rw [htext])
        exact ⟨c, rest, rfl, hc, by rw [htext, splitHostPort_bracket hinner]; exact if_pos hsize⟩
      constructor
      · obtain hplain | ⟨inner, tail, hinner, htext⟩ := bracketed_or text
        · simp [splitHostPort_plain hplain]
        · obtain ⟨c, rest, -, -, hsplit⟩ := hread inner tail hinner htext
          simp [hsplit]
      · intro inner tail hinner ha port
        obtain ⟨c, rest, rfl, hc, hsplit⟩ := hread inner tail hinner (Option.some.inj ha)
        rw [hsplit, Option.map_some]
        simp only [Option.some.injEq]
        rw [bracketRule_iff_required hmake hother]
        constructor
        · intro hport
          obtain rfl | hnone := hc
          · exact ⟨rest, rfl, hport⟩
          · rw [hnone] at hport
            exact absurd hport (by simp)
        · rintro ⟨digits, htail, hport⟩
          rw [(List.cons.inj htail).2, hport]

/-- A bracketed host with nothing after the bracket panics. -/
theorem parse_total_fails :
    ¬∀ s, parse s ≠ none ∧ BracketRule s := fun h ↦
  (h "quic://[::1]".toList).1 (by decide)

/-! ## Printing and reading back -/

/-- An endpoint whose empty user stands before a host with an at sign. -/
def Shadowed (s : List Char) : Prop :=
  ∃ rest, trim s = "ssh://@".toList ++ rest ∧ '@' ∈ rest

/-- A text that does not end in white space. -/
def EndsClean (s : List Char) : Prop := ∀ c ∈ s.getLast?, isWhitespace c = false

theorem EndsClean.append {b : List Char} (hb : EndsClean b) (hne : b ≠ []) (a : List Char) :
    EndsClean (a ++ b) := by
  intro c hc
  rw [List.getLast?_append_of_ne_nil _ hne] at hc
  exact hb c hc

theorem EndsClean.of_append {a b : List Char} (h : EndsClean (a ++ b)) : EndsClean b := by
  intro c hc
  refine h c ?_
  rw [List.getLast?_append, hc]
  rfl

theorem isWhitespace_of_isDigit {c : Char} (hc : c.isDigit = true) : isWhitespace c = false := by
  rw [Char.isDigit, Bool.and_eq_true, decide_eq_true_iff, decide_eq_true_iff] at hc
  have hlow : 48 ≤ c.toNat := hc.1
  have hhigh : c.toNat ≤ 57 := hc.2
  exact isWhitespace_eq_false (by omega) (by omega)

theorem endsClean_showPort (port : UInt16) : EndsClean (showPort port) := fun _ hc ↦
  isWhitespace_of_isDigit (isDigit_of_mem_showPort (List.mem_of_getLast? hc))

/-- A port at the end is no white space. -/
theorem endsClean_hostPort (host : List Char) (port : UInt16) :
    EndsClean (host ++ ':' :: showPort port) := by
  have h := (endsClean_showPort port).append (showPort_ne_nil port) (host ++ [':'])
  rwa [List.append_assoc, List.singleton_append] at h

theorem endsClean_showOptionalPort {a rest : List Char} (h : EndsClean (a ++ rest)) :
    EndsClean (a ++ showOptionalPort (splitOptionalPort rest).1 (splitOptionalPort rest).2) := by
  obtain hsplit | ⟨host, portStr, port, -, -, hsplit⟩ := splitOptionalPort_cases rest
  · rw [hsplit]
    exact h
  · rw [hsplit]
    exact (endsClean_hostPort host port).append (by simp) a

theorem endsClean_ssh {rest : List Char} (h : EndsClean rest) :
    EndsClean ("ssh://".toList ++ rest) := by
  cases rest with
  | nil =>
    intro c hc
    obtain rfl : '/' = c := Option.some.inj hc
    decide
  | cons c rest => exact h.append (by simp) _

/-- The printed form of an accepted endpoint has no white space to trim. -/
theorem trim_display {s : List Char} {e : Endpoint} (h : Form s e) (hs : EndsClean s) :
    trim e.display = e.display := by
  have hhead : ∀ c ∈ e.display.head?, isWhitespace c = false := by
    intro c hc
    match e, hc with
    | .quic .., hc => obtain rfl : 'q' = c := Option.some.inj hc; decide
    | .tcpTls .., hc => obtain rfl : 't' = c := Option.some.inj hc; decide
    | .unix .., hc => obtain rfl : 'u' = c := Option.some.inj hc; decide
    | .ssh none .., hc => obtain rfl : 's' = c := Option.some.inj hc; decide
    | .ssh (some _) .., hc => obtain rfl : 's' = c := Option.some.inj hc; decide
    | .alias .., hc => obtain rfl : '@' = c := Option.some.inj hc; decide
  refine trim_eq_self hhead ?_
  change EndsClean e.display
  cases h with
  | name _ => exact hs
  | quic _ => exact EndsClean.append (endsClean_hostPort _ _) (by simp) _
  | tcpTls _ => exact EndsClean.append (endsClean_hostPort _ _) (by simp) _
  | unix _ => exact hs
  | @sshUser user hu rest =>
    have htail : EndsClean (['@'] ++ rest) := by
      rw [← List.append_assoc] at hs
      exact hs.of_append
    cases user with
    | nil => exact endsClean_showOptionalPort (endsClean_ssh htail.of_append)
    | cons c user =>
      exact ((endsClean_showOptionalPort htail).append (by simp) _).append (by simp) _
  | ssh _ => exact endsClean_showOptionalPort hs
  | user _ _ rest =>
    have htail : EndsClean (['@'] ++ rest) := hs.of_append
    exact ((endsClean_showOptionalPort htail).append (by simp) _).append (by simp) _
  | hostPort _ _ => exact EndsClean.append (endsClean_hostPort _ _) (by simp) _
  | bare _ hne => exact hs.append hne ['@']

theorem splitOptionalPort_showOptionalPort (rest : List Char) :
    splitOptionalPort (showOptionalPort (splitOptionalPort rest).1 (splitOptionalPort rest).2) =
      splitOptionalPort rest := by
  obtain hsplit | ⟨host, portStr, port, -, -, hsplit⟩ := splitOptionalPort_cases rest
  · rw [hsplit]
    exact hsplit
  · rw [hsplit]
    exact splitOptionalPort_append (parseU16_showPort port)

/-- Printing the port anew moves no at sign. -/
theorem at_mem_showOptionalPort (rest : List Char) :
    '@' ∈ showOptionalPort (splitOptionalPort rest).1 (splitOptionalPort rest).2 ↔ '@' ∈ rest := by
  obtain hsplit | ⟨host, portStr, port, rfl, hport, hsplit⟩ := splitOptionalPort_cases rest
  · rw [hsplit, showOptionalPort]
  · have hold : '@' ∉ portStr := not_mem_of_parseU16 hport (by decide) (by decide)
    have hnew : '@' ∉ showPort port := not_mem_showPort (by decide)
    rw [hsplit, showOptionalPort]
    simp [hold, hnew]

/-- A port holds no bracket, so another port in its place opens and closes none. -/
private theorem plain_showPort {host portStr : List Char} (hne : host ≠ [])
    (h : ((host ++ ':' :: portStr).dropPrefix? ['[']).bind (find (· == ']')) = none)
    (port : UInt16) :
    ((host ++ ':' :: showPort port).dropPrefix? ['[']).bind (find (· == ']')) = none := by
  obtain ⟨c, host, rfl⟩ := List.exists_cons_of_ne_nil hne
  by_cases hc : c = '['
  · subst hc
    have hdrop (t : List Char) : (('[' :: host) ++ t).dropPrefix? ['['] = some (host ++ t) :=
      dropPrefix?_eq_some.mpr rfl
    rw [hdrop, Option.bind_some, find_eq_none] at h
    rw [hdrop, Option.bind_some, find_eq_none]
    intro d hd
    rw [List.mem_append, List.mem_cons] at hd
    obtain hd | rfl | hd := hd
    · exact h d (by simp [hd])
    · decide
    · refine beq_eq_false_iff_ne.mpr ?_
      rintro rfl
      exact not_mem_showPort (by decide) hd
  · rw [List.cons_append, dropPrefix?_of_head_ne rfl rfl hc]
    rfl

theorem splitHostPort_showPort {rest host : List Char} {port : UInt16}
    (h : splitHostPort rest = some (some (host, port))) :
    splitHostPort (host ++ ':' :: showPort port) = some (some (host, port)) := by
  obtain hplain | ⟨inner, tail, hinner, rfl⟩ := bracketed_or rest
  · rw [splitHostPort_plain hplain] at h
    cases hsplit : rsplitOnce ':' rest with
    | none => simp [hsplit] at h
    | some p =>
      obtain ⟨rfl, -⟩ := rsplitOnce_eq_some.mp hsplit
      obtain ⟨hne, -, rfl⟩ : p.1 ≠ [] ∧ parseU16 p.2 = some port ∧ p.1 = host := by
        simpa [hsplit] using h
      have hplain' := plain_showPort hne hplain port
      rw [splitHostPort_plain hplain', rsplitOnce_append (not_mem_showPort (by decide))]
      simp [hne, parseU16_showPort]
  · rw [splitHostPort_bracket hinner] at h
    have hhost : '[' :: (inner ++ [']']) = host := by
      cases tail with
      | nil => simp at h
      | cons c rest =>
        dsimp only at h
        split_ifs at h with hc
        cases hport : parseU16 rest with
        | none => simp [hport] at h
        | some p => exact (by simpa [hport] using h : _ ∧ _).1
    have hjoin : host ++ ':' :: showPort port = '[' :: (inner ++ ']' :: ':' :: showPort port) := by
      simp [← hhost]
    rw [hjoin, splitHostPort_bracket hinner, ← hhost]
    simp [parseU16_showPort, show (':' : Char).utf8Size = 1 from rfl]

/-- Two texts with the same port, one with an at sign in front of the other. -/
private theorem showOptionalPort_ne_cons (rest b : List Char)
    (h : splitOptionalPort b = splitOptionalPort rest) :
    showOptionalPort (splitOptionalPort rest).1 (splitOptionalPort rest).2 ≠ '@' :: b := by
  rw [← h]
  obtain hsplit | ⟨host, portStr, port, rfl, hport, hsplit⟩ := splitOptionalPort_cases b
  · rw [hsplit, showOptionalPort]
    exact fun hb ↦ absurd (congrArg List.length hb) (by simp)
  · rw [hsplit, showOptionalPort]
    intro hb
    -- the last colon of the two texts is the same, so what is before it is
    have hlast := congrArg (rsplitOnce ':') hb
    rw [rsplitOnce_append (not_mem_showPort (by decide)), ← List.cons_append,
      rsplitOnce_append (not_mem_of_parseU16 hport (by decide) (by decide))] at hlast
    have hlen := congrArg (List.length ∘ Prod.fst) (Option.some.inj hlast)
    simp at hlen

private theorem sshAt_append (rest : List Char) :
    "ssh://".toList ++ ([] ++ '@' :: rest) = "ssh://@".toList ++ rest := rfl

theorem parse_eq_of_form {s : List Char} {e : Endpoint} (h : Form s e) (hs : EndsClean s) :
    parse e.display = parseTrimmed e.display := by
  rw [parse, trim_display h hs]

/-- What is printed is read back, unless an empty user is left out before an at sign. -/
theorem parseTrimmed_display {s : List Char} {e : Endpoint} (h : Form s e)
    (hs : ∀ rest, s = "ssh://@".toList ++ rest → '@' ∉ rest) :
    parseTrimmed e.display = some (.ok e) := by
  cases h with
  | name hn =>
    rw [display_alias, parseTrimmed_name hn]
  | quic h =>
    rw [display_quic, parseTrimmed_quic, parseHostPort, splitHostPort_showPort h]
    rfl
  | tcpTls h =>
    rw [display_tcpTls, parseTrimmed_tcpTls, parseHostPort, splitHostPort_showPort h]
    rfl
  | unix hp =>
    rw [display_unix, parseTrimmed_unix hp]
  | @sshUser user hu rest =>
    by_cases hne : user = []
    · have hat := mt (at_mem_showOptionalPort rest).mp (hs rest (by rw [hne, sshAt_append]))
      rw [hne, List.isEmpty_nil, if_pos rfl, display_ssh_none, parseTrimmed_ssh,
        parseSshAuthority_of_not_mem hat, splitOptionalPort_showOptionalPort]
    · have hempty : user.isEmpty = false := by simpa using hne
      rw [hempty, if_neg Bool.false_ne_true, display_ssh_some, parseTrimmed_ssh,
        parseSshAuthority_at hu, splitOptionalPort_showOptionalPort, hempty,
        if_neg Bool.false_ne_true]
  | @ssh rest hrest =>
    have hat := mt (at_mem_showOptionalPort rest).mp hrest
    rw [display_ssh_none, parseTrimmed_ssh, parseSshAuthority_of_not_mem hat,
      splitOptionalPort_showOptionalPort]
  | @user user hu hne rest =>
    have hempty : user.isEmpty = false := by simpa using hne
    rw [display_ssh_some, parseTrimmed_ssh, parseSshAuthority_at hu,
      splitOptionalPort_showOptionalPort, hempty, if_neg Bool.false_ne_true]
  | hostPort hs h =>
    rw [display_quic, parseTrimmed_quic, parseHostPort, splitHostPort_showPort h]
    rfl
  | bare _ hne =>
    rw [display_alias, parseTrimmed_name hne]

/-- With the empty user gone, the at sign in the host is taken for the end of the user. -/
theorem parseTrimmed_shadowed {rest : List Char} (hrest : '@' ∈ rest) :
    ∃ e, parseTrimmed ("ssh://@".toList ++ rest) = some (.ok e) ∧
      parseTrimmed e.display ≠ some (.ok e) := by
  refine ⟨.ssh none (splitOptionalPort rest).1 (splitOptionalPort rest).2, ?_, ?_⟩
  · rw [← sshAt_append, parseTrimmed_ssh, parseSshAuthority_at List.not_mem_nil,
      List.isEmpty_nil, if_pos rfl]
  · rw [display_ssh_none, parseTrimmed_ssh]
    obtain ⟨hnot, -⟩ | ⟨a, b, ha, hab, -⟩ := at_cases
      (showOptionalPort (splitOptionalPort rest).1 (splitOptionalPort rest).2)
    · exact absurd ((at_mem_showOptionalPort rest).mpr hrest) hnot
    · rw [hab, parseSshAuthority_at ha]
      intro heq
      simp only [Option.some.injEq, Except.ok.injEq, ssh.injEq] at heq
      obtain ⟨huser, hhost, hport⟩ := heq
      obtain rfl : a = [] := by simpa using huser
      exact showOptionalPort_ne_cons rest b (Prod.ext hhost hport) hab

/-- The printed form of what a text is accepted as is read back as the same. -/
def RoundTrip (s : List Char) : Prop :=
  ∀ e, parse s = some (.ok e) → parse e.display = some (.ok e)

theorem roundTrip_iff (s : List Char) :
    (RoundTrip s ↔ ¬Shadowed s) ∧
      ∀ s' e e', ¬Shadowed s → ¬Shadowed s' → parse s = some (.ok e) → parse s' = some (.ok e') →
        (e.display = e'.display ↔ e = e') := by
  have hclean (s : List Char) : EndsClean (trim s) := fun _ hc ↦ isWhitespace_getLast_trim hc
  have hround {s : List Char} (hs : ¬Shadowed s) : RoundTrip s := by
    intro e he
    have hform := form_of_parseTrimmed he
    rw [parse_eq_of_form hform (hclean s)]
    exact parseTrimmed_display hform fun rest hrest hat ↦ hs ⟨rest, hrest, hat⟩
  refine ⟨⟨?_, hround⟩, ?_⟩
  · rintro h ⟨rest, hrest, hat⟩
    obtain ⟨e, he, hne⟩ := parseTrimmed_shadowed hat
    have hparse : parse s = some (.ok e) := by rw [parse, hrest, he]
    refine hne ?_
    rw [← parse_eq_of_form (form_of_parseTrimmed hparse) (hclean s)]
    exact h e hparse
  · intro s' e e' hs hs' he he'
    constructor
    · intro heq
      have h := hround hs e he
      rw [heq, hround hs' e' he'] at h
      simpa using h.symm
    · rintro rfl
      rfl

/-- An empty user is lost, and what is in the host takes its place. -/
theorem roundTrip_fails : ¬∀ s, RoundTrip s := fun h ↦
  absurd (h "ssh://@a@b".toList (.ssh none "a@b".toList none) (by decide)) (by decide)

end Endpoint

end Kmux
