import Kmux.Protocol.Endpoint
import Kmux.Transport.Admission

/-!
# Addresses and ports as text

The grammar in which the standard library reads an address and a port. A reader takes what it reads
off the front of a text, and takes nothing where it fails.

What tells the two families apart before a port is their first separator. An IPv4 literal runs
through digits to a dot, and a colon after it is the colon of the port; an IPv6 literal runs
through hexadecimal digits to a colon of its own, so that with a port after it and no brackets
around it neither reader gets past that colon.
-/

namespace Kmux.Transport

open Endpoint (showPort)

/-! ## Readers -/

/-- Read a value off the front of a text. -/
abbrev Reader (α : Type) := List Char → Option (α × List Char)

/-- `char::to_digit`. -/
def toDigit (radix : ℕ) (c : Char) : Option ℕ :=
  let value :=
    if c.isDigit then some (c.toNat - '0'.toNat)
    else if 'a' ≤ c ∧ c ≤ 'f' then some (c.toNat - 'a'.toNat + 10)
    else if 'A' ≤ c ∧ c ≤ 'F' then some (c.toNat - 'A'.toNat + 10)
    else none
  value.filter (· < radix)

/-- The digits at the front of a text, and what follows them. -/
def readDigits (radix : ℕ) : List Char → List ℕ × List Char
  | [] => ([], [])
  | c :: s =>
    match toDigit radix c with
    | some digit => (digit :: (readDigits radix s).1, (readDigits radix s).2)
    | none => ([], c :: s)

/-- The number that digits write. -/
def digitsValue (radix : ℕ) (digits : List ℕ) : ℕ :=
  digits.foldl (fun value digit ↦ value * radix + digit) 0

def readGivenChar (target : Char) : Reader Unit
  | [] => none
  | c :: s => if c = target then some ((), s) else none

/-- A number below `size`. -/
def readNumber (radix : ℕ) (maxDigits : Option ℕ) (allowZeroPrefix : Bool) (size : ℕ) : Reader ℕ :=
  fun s ↦
    let (digits, rest) := readDigits radix s
    if digits.isEmpty then none
    else if maxDigits.any (· < digits.length) then none
    else if !allowZeroPrefix ∧ digits.head? = some 0 ∧ 1 < digits.length then none
    else if size ≤ digitsValue radix digits then none
    else some (digitsValue radix digits, rest)

/-- All but the first of a series stand after a separator. -/
def readSeparator {α : Type} (sep : Char) (index : ℕ) (inner : Reader α) : Reader α := fun s ↦
  if 0 < index then (readGivenChar sep s).bind fun (_, rest) ↦ inner rest else inner s

/-- One of the four numbers of an IPv4 address: at most three digits, and no needless zero. -/
def readOctet (index : ℕ) : Reader ℕ :=
  readSeparator '.' index (readNumber 10 (some 3) false 256)

def readIpv4Addr : Reader (BitVec 32) := fun s ↦ do
  let (a, s) ← readOctet 0 s
  let (b, s) ← readOctet 1 s
  let (c, s) ← readOctet 2 s
  let (d, s) ← readOctet 3 s
  return (.ofNat 32 (((a * 256 + b) * 256 + c) * 256 + d), s)

/-- Groups of an IPv6 address from number `index` on, `left` of them at most. An IPv4 address may
stand for the last two, wherever there is still room for two. -/
def readGroups (index : ℕ) : ℕ → List Char → List ℕ × Bool × List Char
  | 0, s => ([], false, s)
  | left + 1, s =>
    match if 0 < left then readSeparator ':' index readIpv4Addr s else none with
    | some (addr, rest) => ([addr.toNat / 65536, addr.toNat % 65536], true, rest)
    | none =>
      match readSeparator ':' index (readNumber 16 (some 4) true 65536) s with
      | some (group, rest) =>
        let (groups, ipv4, rest) := readGroups (index + 1) left rest
        (group :: groups, ipv4, rest)
      | none => ([], false, s)

/-- The address of eight groups. -/
def ofGroups (groups : List ℕ) : BitVec 128 := .ofNat 128 (digitsValue 65536 groups)

def readIpv6Addr : Reader (BitVec 128) := fun s ↦
  let (head, headIpv4, s) := readGroups 0 8 s
  if head.length = 8 then some (ofGroups head, s)
  -- an IPv4 part is not allowed before `::`
  else if headIpv4 then none
  else do
    let (_, s) ← readGivenChar ':' s
    let (_, s) ← readGivenChar ':' s
    -- the `::` stands for one group at least
    let (tail, _, s) := readGroups 0 (8 - (head.length + 1)) s
    return (ofGroups (head ++ List.replicate (8 - head.length - tail.length) 0 ++ tail), s)

def readIpAddr : Reader IpAddr := fun s ↦
  ((readIpv4Addr s).map fun (addr, rest) ↦ (.v4 addr, rest)).or
    ((readIpv6Addr s).map fun (addr, rest) ↦ (.v6 addr, rest))

def readPort : Reader UInt16 := fun s ↦ do
  let (_, s) ← readGivenChar ':' s
  let (port, s) ← readNumber 10 none true 65536 s
  return (.ofNat port, s)

def readScopeId : Reader ℕ := fun s ↦ do
  let (_, s) ← readGivenChar '%' s
  readNumber 10 none true 4294967296 s

/-- An address, a port, and the scope that only an IPv6 address can have. -/
structure SocketAddr where
  ip : IpAddr
  port : UInt16
  scopeId : ℕ
  deriving DecidableEq, Repr

namespace SocketAddr

/-- The address of a literal and a port. -/
def new (ip : IpAddr) (port : UInt16) : SocketAddr := ⟨ip, port, 0⟩

end SocketAddr

def readSocketAddrV4 : Reader SocketAddr := fun s ↦ do
  let (ip, s) ← readIpv4Addr s
  let (port, s) ← readPort s
  return (.new (.v4 ip) port, s)

def readSocketAddrV6 : Reader SocketAddr := fun s ↦ do
  let (_, s) ← readGivenChar '[' s
  let (ip, s) ← readIpv6Addr s
  let (scopeId, s) := (readScopeId s).getD (0, s)
  let (_, s) ← readGivenChar ']' s
  let (port, s) ← readPort s
  return (⟨.v6 ip, port, scopeId⟩, s)

def readSocketAddr : Reader SocketAddr := fun s ↦ (readSocketAddrV4 s).or (readSocketAddrV6 s)

/-- A text is read to its end or not at all. -/
def parseWith {α : Type} (inner : Reader α) (s : List Char) : Option α :=
  (inner s).bind fun (value, rest) ↦ if rest.isEmpty then some value else none

/-- `str::parse::<IpAddr>`. -/
def parseIpAddr (s : List Char) : Option IpAddr := parseWith readIpAddr s

/-- `str::parse::<SocketAddr>`. -/
def parseSocketAddr (s : List Char) : Option SocketAddr := parseWith readSocketAddr s

example : parseIpAddr "0.0.0.0".toList = some (.v4 0) := by decide

example : parseSocketAddr "[::1%3]:443".toList = some ⟨.v6 1, 443, 3⟩ := by decide

example : parseIpAddr "::ffff:10.0.0.1".toList = some (.v6 0xffff0a000001) := by decide

example : parseIpAddr "010.0.0.1".toList = none := by decide

/-! ## What a reader leaves -/

theorem parseWith_eq_some {α : Type} {inner : Reader α} {s : List Char} {value : α} :
    parseWith inner s = some value ↔ inner s = some (value, []) := by
  rw [parseWith]
  constructor
  · intro h
    obtain ⟨⟨found, rest⟩, hread, hrest⟩ := Option.bind_eq_some_iff.mp h
    rw [hread]
    cases rest with
    | nil => simpa using hrest
    | cons c rest => simp at hrest
  · intro h
    rw [h]
    rfl

theorem readGivenChar_eq_some {target : Char} {s rest : List Char} {u : Unit} :
    readGivenChar target s = some (u, rest) ↔ s = target :: rest := by
  cases s with
  | nil => simp [readGivenChar]
  | cons c s => by_cases hc : c = target <;> simp [readGivenChar, hc]

variable {radix : ℕ} {maxDigits : Option ℕ} {allowZeroPrefix : Bool} {size : ℕ}

/-- Digits end at the first character that is none. -/
theorem readDigits_append {c : Char} (hc : toDigit radix c = none) (s t : List Char) :
    readDigits radix (s ++ c :: t) =
      ((readDigits radix s).1, (readDigits radix s).2 ++ c :: t) := by
  induction s with
  | nil => simp [readDigits, hc]
  | cons d s ih => cases hd : toDigit radix d <;> simp [readDigits, hd, ih]

/-- What stands before the rest are digits. -/
theorem readDigits_split (radix : ℕ) (s : List Char) :
    ∃ front, s = front ++ (readDigits radix s).2 ∧ ∀ c ∈ front, (toDigit radix c).isSome := by
  induction s with
  | nil => exact ⟨[], rfl, by simp⟩
  | cons c s ih =>
    obtain ⟨front, hs, hfront⟩ := ih
    cases hc : toDigit radix c with
    | none => exact ⟨[], by simp [readDigits, hc], by simp⟩
    | some digit =>
      refine ⟨c :: front, by simp [readDigits, hc, ← hs], fun d hd ↦ ?_⟩
      rcases List.mem_cons.mp hd with rfl | hd
      · simp [hc]
      · exact hfront d hd

theorem readNumber_rest {s rest : List Char} {value : ℕ}
    (h : readNumber radix maxDigits allowZeroPrefix size s = some (value, rest)) :
    rest = (readDigits radix s).2 := by
  simp only [readNumber] at h
  split_ifs at h
  exact (Prod.ext_iff.mp (Option.some.inj h)).2.symm

theorem readNumber_append {c : Char} (hc : toDigit radix c = none) (t : List Char)
    {s rest : List Char} {value : ℕ}
    (h : readNumber radix maxDigits allowZeroPrefix size s = some (value, rest)) :
    readNumber radix maxDigits allowZeroPrefix size (s ++ c :: t) =
      some (value, rest ++ c :: t) := by
  have hrest := readNumber_rest h
  subst hrest
  simp only [readNumber, readDigits_append hc] at h ⊢
  split_ifs at h ⊢
  obtain ⟨rfl, -⟩ := Prod.ext_iff.mp (Option.some.inj h)
  rfl

/-! ## An IPv4 address before a port -/

theorem toDigit_colon : toDigit 10 ':' = none := by decide

theorem readOctet_append (t : List Char) {index : ℕ} {s rest : List Char} {value : ℕ}
    (h : readOctet index s = some (value, rest)) :
    readOctet index (s ++ ':' :: t) = some (value, rest ++ ':' :: t) := by
  rw [readOctet, readSeparator] at h ⊢
  split_ifs at h ⊢
  · obtain ⟨⟨u, after⟩, hsep, hnumber⟩ := Option.bind_eq_some_iff.mp h
    have hsep' : readGivenChar '.' (s ++ ':' :: t) = some (u, after ++ ':' :: t) := by
      rw [readGivenChar_eq_some, readGivenChar_eq_some.mp hsep]
      rfl
    rw [hsep']
    exact readNumber_append toDigit_colon t hnumber
  · exact readNumber_append toDigit_colon t h

theorem readIpv4Addr_append (t : List Char) {s rest : List Char} {addr : BitVec 32}
    (h : readIpv4Addr s = some (addr, rest)) :
    readIpv4Addr (s ++ ':' :: t) = some (addr, rest ++ ':' :: t) := by
  simp only [readIpv4Addr, Option.bind_eq_bind, Option.bind_eq_some_iff] at h
  obtain ⟨⟨a, s₁⟩, h₁, ⟨b, s₂⟩, h₂, ⟨c, s₃⟩, h₃, ⟨d, s₄⟩, h₄, h⟩ := h
  simp only [readIpv4Addr, Option.bind_eq_bind, readOctet_append t h₁, readOctet_append t h₂,
    readOctet_append t h₃, readOctet_append t h₄, Option.bind_some]
  obtain ⟨rfl, rfl⟩ := Prod.ext_iff.mp (Option.some.inj h)
  rfl

/-! ## A port -/

theorem toDigit_of_isDigit {c : Char} (hc : c.isDigit = true) :
    toDigit 10 c = some (c.toNat - 48) := by
  have hle : c.toNat ≤ 57 := (Char.isDigit_iff_toNat.mp hc).2
  have hlt : c.toNat - 48 < 10 := by omega
  simp [toDigit, hc, Option.filter, hlt]

theorem readDigits_of_isDigit {s : List Char} (hs : ∀ c ∈ s, c.isDigit = true) :
    readDigits 10 s = (s.map (·.toNat - 48), []) := by
  induction s with
  | nil => rfl
  | cons c s ih =>
    have hc := toDigit_of_isDigit (hs c List.mem_cons_self)
    simp [readDigits, hc, ih fun d hd ↦ hs d (List.mem_cons_of_mem c hd)]

theorem digitsValue_map (s : List Char) :
    digitsValue 10 (s.map (·.toNat - 48)) = Nat.ofDigitChars 10 s 0 := by
  rw [digitsValue, List.foldl_map, Nat.ofDigitChars_eq_foldl]
  simp only [Nat.mul_comm 10]
  rfl

theorem readPort_showPort (port : UInt16) :
    readPort (':' :: showPort port) = some (port, []) := by
  have hdigits := readDigits_of_isDigit (s := showPort port) fun c ↦
    Endpoint.isDigit_of_mem_showPort
  have hvalue : digitsValue 10 ((showPort port).map (·.toNat - 48)) = port.toNat := by
    rw [digitsValue_map]
    exact Nat.ofDigitChars_ten_toDigits
  have hlt : ¬65536 ≤ port.toNat := Nat.not_le.mpr port.toNat_lt
  simp [readPort, readGivenChar, readNumber, hdigits, hvalue, hlt, Endpoint.showPort_ne_nil]

/-- An IPv4 literal and a port are read back. -/
theorem parseSocketAddr_v4 {s : List Char} {addr : BitVec 32}
    (h : parseIpAddr s = some (.v4 addr)) (port : UInt16) :
    parseSocketAddr (s ++ ':' :: showPort port) = some (.new (.v4 addr) port) := by
  have hread : readIpv4Addr s = some (addr, []) := by
    rw [parseIpAddr, parseWith_eq_some, readIpAddr, Option.or_eq_some_iff] at h
    rcases h with h | ⟨-, h⟩
    · simpa using h
    · simp at h
  rw [parseSocketAddr, parseWith_eq_some, readSocketAddr, readSocketAddrV4,
    readIpv4Addr_append (showPort port) hread]
  simp [readPort_showPort]

/-! ## An IPv6 address before a port -/

/-- After the first group there is a colon, or there is no group. -/
theorem readGroups_succ (index left : ℕ) (s : List Char) :
    readGroups (index + 1) left s = ([], false, s) ∨ ∃ rest, s = ':' :: rest := by
  by_cases hs : ∃ rest, s = ':' :: rest
  · exact .inr hs
  · have hsep : ∀ (α : Type) (inner : Reader α), readSeparator ':' (index + 1) inner s = none := by
      intro α inner
      rw [readSeparator, if_pos index.succ_pos, Option.bind_eq_none_iff]
      rintro ⟨u, rest⟩ hread
      exact absurd ⟨rest, readGivenChar_eq_some.mp hread⟩ hs
    left
    cases left with
    | zero => rfl
    | succ left => simp [readGroups, hsep]

/-- Hexadecimal digits and a colon. -/
def StartsWithGroup (s : List Char) : Prop :=
  ∃ front rest, s = front ++ ':' :: rest ∧ ∀ c ∈ front, (toDigit 16 c).isSome

theorem StartsWithGroup.append {s : List Char} (h : StartsWithGroup s) (t : List Char) :
    StartsWithGroup (s ++ t) := by
  obtain ⟨front, rest, rfl, hfront⟩ := h
  exact ⟨front, rest ++ t, by simp, hfront⟩

theorem startsWithGroup_of_readIpv6Addr {s rest : List Char} {addr : BitVec 128}
    (h : readIpv6Addr s = some (addr, rest)) : StartsWithGroup s := by
  have hgroups : readGroups 0 8 s =
      match readIpv4Addr s with
      | some (addr, rest) => ([addr.toNat / 65536, addr.toNat % 65536], true, rest)
      | none =>
        match readNumber 16 (some 4) true 65536 s with
        | some (group, rest) =>
          (group :: (readGroups 1 7 rest).1, (readGroups 1 7 rest).2.1, (readGroups 1 7 rest).2.2)
        | none => ([], false, s) := rfl
  rw [readIpv6Addr, hgroups] at h
  cases hipv4 : readIpv4Addr s with
  | some p => simp [hipv4] at h
  | none =>
  cases hnumber : readNumber 16 (some 4) true 65536 s with
  | none =>
    -- nothing before `::`
    simp only [hipv4, hnumber] at h
    obtain ⟨⟨u, t⟩, hcolon, -⟩ := Option.bind_eq_some_iff.mp h
    exact ⟨[], t, readGivenChar_eq_some.mp hcolon, by simp⟩
  | some p =>
    obtain ⟨group, after⟩ := p
    obtain ⟨front, hs, hfront⟩ := readDigits_split 16 s
    rw [← readNumber_rest hnumber] at hs
    rcases readGroups_succ 0 7 after with hnone | ⟨t, rfl⟩
    · -- one group before `::`
      simp only [hipv4, hnumber, hnone] at h
      obtain ⟨⟨u, t⟩, hcolon, -⟩ := Option.bind_eq_some_iff.mp h
      rw [readGivenChar_eq_some.mp hcolon] at hs
      exact ⟨front, t, hs, hfront⟩
    · exact ⟨front, t, hs, hfront⟩

/-- Decimal digits are followed by a colon or by another hexadecimal digit, not by a dot. -/
theorem readIpv4Addr_eq_none {s : List Char} (h : StartsWithGroup s) : readIpv4Addr s = none := by
  obtain ⟨front, t, rfl, hfront⟩ := h
  rw [readIpv4Addr, Option.bind_eq_bind, Option.bind_eq_none_iff]
  rintro ⟨a, s₁⟩ h₁
  have hrest : s₁ = (readDigits 10 front).2 ++ ':' :: t := by
    rw [readNumber_rest h₁, readDigits_append toDigit_colon]
  obtain ⟨digits, hdigits, -⟩ := readDigits_split 10 front
  refine Option.bind_eq_none_iff.mpr ?_
  rintro ⟨b, s₂⟩ h₂
  obtain ⟨⟨u, after⟩, hdot, -⟩ := Option.bind_eq_some_iff.mp h₂
  have hdot := readGivenChar_eq_some.mp hdot
  rw [hrest] at hdot
  cases hleft : (readDigits 10 front).2 with
  | nil => simp [hleft] at hdot
  | cons c left =>
    have hmem : c ∈ front := by
      rw [hdigits, hleft]
      simp
    have hc : c = '.' := by simpa [hleft] using (List.cons.inj (hleft ▸ hdot)).1
    have hhex := hfront c hmem
    rw [hc] at hhex
    exact absurd hhex (by decide)

theorem readSocketAddrV6_eq_none {s : List Char} (h : StartsWithGroup s) :
    readSocketAddrV6 s = none := by
  obtain ⟨front, t, rfl, hfront⟩ := h
  rw [readSocketAddrV6, Option.bind_eq_bind, Option.bind_eq_none_iff]
  rintro ⟨u, after⟩ hbracket
  have hbracket := readGivenChar_eq_some.mp hbracket
  cases front with
  | nil => simp at hbracket
  | cons c front =>
    have hhex := hfront c List.mem_cons_self
    rw [(List.cons.inj hbracket).1] at hhex
    exact absurd hhex (by decide)

/-- An IPv6 literal and a port without brackets are no address and port. -/
theorem parseSocketAddr_v6 {s : List Char} {addr : BitVec 128}
    (h : parseIpAddr s = some (.v6 addr)) (port : UInt16) :
    parseSocketAddr (s ++ ':' :: showPort port) = none := by
  have hread : readIpv6Addr s = some (addr, []) := by
    rw [parseIpAddr, parseWith_eq_some, readIpAddr, Option.or_eq_some_iff] at h
    rcases h with h | ⟨-, h⟩
    · simp at h
    · simpa using h
  have hgroup := (startsWithGroup_of_readIpv6Addr hread).append (':' :: showPort port)
  rw [parseSocketAddr, parseWith, readSocketAddr, readSocketAddrV4, readIpv4Addr_eq_none hgroup,
    readSocketAddrV6_eq_none hgroup]
  rfl

end Kmux.Transport
