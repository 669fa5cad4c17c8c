import Kmux.Lib.Run
import Mathlib.Data.List.Basic
import Mathlib.Order.Nat

/-!
# Trust on first use

A client pins the certificate it first sees of a server, by fingerprint, in a file of known hosts. A
certificate that no root vouches for is accepted if there is no pin yet, and is pinned then, or if
it is the one that is pinned. Each store reads the file once and works on its own copy from then on;
a new pin is added to the copy, and the whole copy is written over the file.

The copy has the pin before the write, and keeps it if the write fails; the file gets the copy, and
loses whatever another store has pinned there in the meantime. Away from these two, a pin is for
good.
-/

namespace Kmux.Transport

/-! ## Fingerprints -/

/-- The SHA-256 fingerprint of a certificate: 32 bytes. -/
structure Fingerprint where
  bytes : List ℕ
  length_eq : bytes.length = 32
  byte : ∀ b ∈ bytes, b < 256

theorem Fingerprint.ext {fp fp' : Fingerprint} (h : fp.bytes = fp'.bytes) : fp = fp' := by
  cases fp
  cases fp'
  obtain rfl : _ = _ := h
  rfl

instance decidableEqFingerprint : DecidableEq Fingerprint := fun fp fp' ↦
  decidable_of_iff (fp.bytes = fp'.bytes) ⟨Fingerprint.ext, fun h ↦ h ▸ rfl⟩

/-- The lowercase digit of a nibble, as a byte of text. -/
def hexDigit (n : ℕ) : ℕ := if n < 10 then 48 + n else 87 + n

/-- The nibble of a digit, in either case. -/
def hexNibble (b : ℕ) : Option ℕ :=
  if 48 ≤ b ∧ b ≤ 57 then some (b - 48)
  else if 97 ≤ b ∧ b ≤ 102 then some (b - 97 + 10)
  else if 65 ≤ b ∧ b ≤ 70 then some (b - 65 + 10)
  else none

/-- The bytes that pairs of digits stand for. -/
def unhex : List ℕ → Option (List ℕ)
  | [] => some []
  | [_] => none
  | h :: l :: rest =>
    match hexNibble h, hexNibble l, unhex rest with
    | some hi, some lo, some bytes => some ((hi * 16 + lo) :: bytes)
    | _, _, _ => none

theorem hexNibble_lt {b n : ℕ} (h : hexNibble b = some n) : n < 16 := by
  rw [hexNibble] at h
  split_ifs at h
  all_goals
    obtain rfl := Option.some.inj h
    omega

theorem hexNibble_hexDigit {n : ℕ} (h : n < 16) : hexNibble (hexDigit n) = some n := by
  rw [hexNibble, hexDigit]
  split_ifs <;> first | omega | (congr 1; omega)

theorem unhex_spec : ∀ {text bytes : List ℕ}, unhex text = some bytes →
    2 * bytes.length = text.length ∧ ∀ b ∈ bytes, b < 256 := by
  intro text
  induction text using unhex.induct with
  | case1 => intro bytes h; rw [unhex] at h; cases h; simp
  | case2 c => intro bytes h; rw [unhex] at h; cases h
  | case3 h l rest hi lo tail htail hlo hhi ih =>
    intro bytes hbytes
    rw [unhex, hhi, hlo, htail] at hbytes
    obtain rfl := Option.some.inj hbytes
    obtain ⟨hlen, hbyte⟩ := ih htail
    have hhi' := hexNibble_lt hhi
    have hlo' := hexNibble_lt hlo
    refine ⟨by rw [List.length_cons, List.length_cons, List.length_cons]; omega, ?_⟩
    rw [List.forall_mem_cons]
    exact ⟨by omega, hbyte⟩
  | case4 h l rest hnot ih =>
    intro bytes hbytes
    rw [unhex] at hbytes
    split at hbytes
    · rename_i hi lo tail hhi hlo htail
      exact (hnot hi lo tail hhi hlo htail).elim
    · cases hbytes

theorem unhex_flatMap_hexDigit {bytes : List ℕ} (hbyte : ∀ b ∈ bytes, b < 256) :
    unhex (bytes.flatMap fun b ↦ [hexDigit (b / 16), hexDigit (b % 16)]) = some bytes := by
  induction bytes with
  | nil => rfl
  | cons b bytes ih =>
    rw [List.forall_mem_cons] at hbyte
    have hb : b / 16 * 16 + b % 16 = b := by omega
    rw [List.flatMap_cons, List.cons_append, List.cons_append, List.nil_append, unhex,
      hexNibble_hexDigit (by omega), hexNibble_hexDigit (Nat.mod_lt b (by decide)), ih hbyte.2]
    simp only [hb]

namespace Fingerprint

/-- The lowercase text of a fingerprint, two digits a byte. -/
def toHex (fp : Fingerprint) : List ℕ :=
  fp.bytes.flatMap fun b ↦ [hexDigit (b / 16), hexDigit (b % 16)]

/-- The fingerprint that a text of 64 digits stands for. -/
def fromHex (text : List ℕ) : Option Fingerprint :=
  if hlen : text.length = 64 then
    match h : unhex text with
    | some bytes => some ⟨bytes, by have := (unhex_spec h).1; omega, (unhex_spec h).2⟩
    | none => none
  else none

theorem length_toHex (fp : Fingerprint) : fp.toHex.length = 64 := by
  have htext := (unhex_spec (unhex_flatMap_hexDigit fp.byte)).1
  rw [fp.length_eq] at htext
  rw [toHex, ← htext]

theorem fromHex_eq {text : List ℕ} {fp : Fingerprint} (hlen : text.length = 64)
    (h : unhex text = some fp.bytes) : fromHex text = some fp := by
  rw [fromHex, dif_pos hlen]
  split
  · rename_i bytes hbytes
    rw [h] at hbytes
    exact congrArg some (Fingerprint.ext (Option.some.inj hbytes).symm)
  · rename_i hnone
    rw [h] at hnone
    cases hnone

/-- **A fingerprint is read back from its own text.** -/
theorem fromHex_toHex (fp : Fingerprint) : fromHex fp.toHex = some fp :=
  fromHex_eq fp.length_toHex (unhex_flatMap_hexDigit fp.byte)

end Fingerprint

/-! ## The store -/

/-- What a pin is for: an address and a transport. -/
structure HostKey where
  addr : String
  transport : String
  deriving DecidableEq

/-- An entry of the known hosts. The text is in bytes, so that it need not be a fingerprint's. -/
structure TofuEntry where
  addr : String
  sha256 : List ℕ
  transport : String
  firstSeen : String
  deriving DecidableEq

/-- The entry is of the host. -/
def TofuEntry.IsOf (e : TofuEntry) (key : HostKey) : Prop :=
  e.addr = key.addr ∧ e.transport = key.transport

instance decidableIsOf {e : TofuEntry} {key : HostKey} : Decidable (e.IsOf key) :=
  inferInstanceAs (Decidable (_ ∧ _))

theorem TofuEntry.isOf_iff {e : TofuEntry} {key : HostKey} :
    e.IsOf key ↔ (⟨e.addr, e.transport⟩ : HostKey) = key := by
  rw [IsOf, HostKey.mk.injEq]

/-- The first entry of a host. -/
def lookup (entries : List TofuEntry) (key : HostKey) : Option TofuEntry :=
  entries.find? fun e ↦ decide (e.IsOf key)

/-- Change the first entry of a host. -/
def modifyEntry (key : HostKey) (f : TofuEntry → TofuEntry) : List TofuEntry → List TofuEntry
  | [] => []
  | e :: entries => if e.IsOf key then f e :: entries else e :: modifyEntry key f entries

/-- The entries with a new pin: it takes the place of the old one. -/
def pinned (entries : List TofuEntry) (key : HostKey) (fp : Fingerprint) (now : String) :
    List TofuEntry :=
  match lookup entries key with
  | some _ => modifyEntry key (fun e ↦ { e with sha256 := fp.toHex }) entries
  | none => entries ++ [⟨key.addr, fp.toHex, key.transport, now⟩]

theorem lookup_cons (e : TofuEntry) (entries : List TofuEntry) (key : HostKey) :
    lookup (e :: entries) key = if e.IsOf key then some e else lookup entries key := by
  rw [lookup, List.find?_cons]
  by_cases h : e.IsOf key
  · rw [if_pos h, decide_eq_true h]
  · rw [if_neg h, decide_eq_false h, lookup]

theorem lookup_append (entries rest : List TofuEntry) (key : HostKey) :
    lookup (entries ++ rest) key = (lookup entries key).or (lookup rest key) := by
  rw [lookup, List.find?_append, ← lookup, ← lookup]

theorem isOf_of_lookup {entries : List TofuEntry} {key : HostKey} {e : TofuEntry}
    (h : lookup entries key = some e) : e.IsOf key := by
  have hdecide := List.find?_some h
  exact of_decide_eq_true hdecide

theorem lookup_modifyEntry {entries : List TofuEntry} {key : HostKey} {e : TofuEntry}
    {f : TofuEntry → TofuEntry} (hf : ∀ e k, (f e).IsOf k ↔ e.IsOf k)
    (he : lookup entries key = some e) (key' : HostKey) :
    lookup (modifyEntry key f entries) key' =
      if key' = key then some (f e) else lookup entries key' := by
  induction entries with
  | nil => cases he
  | cons e₀ entries ih =>
    rw [lookup_cons] at he
    by_cases h₀ : e₀.IsOf key
    · rw [if_pos h₀] at he
      obtain rfl := Option.some.inj he
      rw [modifyEntry, if_pos h₀, lookup_cons, lookup_cons]
      by_cases hkey : key' = key
      · rw [if_pos hkey, if_pos ((hf e₀ key').mpr (hkey ▸ h₀))]
      · have hnot : ¬e₀.IsOf key' := by
          rw [TofuEntry.isOf_iff] at h₀ ⊢
          rw [h₀]
          exact Ne.symm hkey
        rw [if_neg hkey, if_neg fun h ↦ hnot ((hf e₀ key').mp h), if_neg hnot]
    · rw [if_neg h₀] at he
      rw [modifyEntry, if_neg h₀, lookup_cons, lookup_cons]
      by_cases h₁ : e₀.IsOf key'
      · have hkey : key' ≠ key := by
          rintro rfl
          exact h₀ h₁
        rw [if_pos h₁, if_neg hkey, if_pos h₁]
      · rw [if_neg h₁, if_neg h₁, ih he]

/-- **A new pin is found under its host, and hosts that are not it keep theirs.** -/
theorem lookup_pinned (entries : List TofuEntry) (key : HostKey) (fp : Fingerprint) (now : String)
    (key' : HostKey) :
    (lookup (pinned entries key fp now) key').map TofuEntry.sha256 =
      if key' = key then some fp.toHex else (lookup entries key').map TofuEntry.sha256 := by
  rcases Option.eq_none_or_eq_some (lookup entries key) with hnone | ⟨e, he⟩
  · rw [pinned, hnone]
    dsimp only
    rw [lookup_append, lookup_cons]
    by_cases hkey : key' = key
    · rw [if_pos hkey, hkey, hnone, Option.none_or, if_pos ⟨rfl, rfl⟩]
      rfl
    · have hnot : ¬TofuEntry.IsOf ⟨key.addr, fp.toHex, key.transport, now⟩ key' := by
        rw [TofuEntry.isOf_iff]
        exact Ne.symm hkey
      have hnil : lookup [] key' = none := rfl
      rw [if_neg hkey, if_neg hnot, hnil, Option.or_none]
  · have hsame : ∀ (e : TofuEntry) k, TofuEntry.IsOf { e with sha256 := fp.toHex } k ↔ e.IsOf k :=
      fun e k ↦ Iff.rfl
    rw [pinned, he]
    dsimp only
    rw [lookup_modifyEntry hsame he]
    by_cases hkey : key' = key
    · rw [if_pos hkey, if_pos hkey]
      rfl
    · rw [if_neg hkey, if_neg hkey]

/-- The file of known hosts: there may be none, and there may be one that cannot be read. -/
inductive KnownHosts where
  | absent
  | hosts (entries : List TofuEntry)
  | unreadable
  deriving DecidableEq

namespace KnownHosts

/-- The entries a store starts from, if the file can be read. -/
def load : KnownHosts → Option (List TofuEntry)
  | absent => some []
  | hosts entries => some entries
  | unreadable => none

/-- The text that is pinned for the host. -/
def pin (file : KnownHosts) (key : HostKey) : Option (List ℕ) :=
  file.load.bind fun entries ↦ (lookup entries key).map TofuEntry.sha256

/-- The fingerprint is the one that is pinned for the host. -/
def Holds (file : KnownHosts) (key : HostKey) (fp : Fingerprint) : Prop :=
  (file.pin key).bind Fingerprint.fromHex = some fp

instance decidableHolds {file : KnownHosts} {key : HostKey} {fp : Fingerprint} :
    Decidable (file.Holds key fp) :=
  inferInstanceAs (Decidable (_ = _))

/-- Every pin of the one is a pin of the other. -/
def Keeps (file file' : KnownHosts) : Prop :=
  ∀ key text, file.pin key = some text → file'.pin key = some text

/-- The entries that are there, none if the file cannot be read. -/
def entries (file : KnownHosts) : List TofuEntry := file.load.getD []

theorem pin_eq (file : KnownHosts) (key : HostKey) :
    file.pin key = (lookup file.entries key).map TofuEntry.sha256 := by
  rcases file with _ | entries | _ <;> rfl

theorem keeps_iff (file file' : KnownHosts) :
    file.Keeps file' ↔ ∀ e ∈ file.entries,
      file'.pin ⟨e.addr, e.transport⟩ = file.pin ⟨e.addr, e.transport⟩ := by
  constructor
  · intro h e he
    have hsome : (lookup file.entries ⟨e.addr, e.transport⟩).isSome := by
      rw [lookup, List.find?_isSome]
      exact ⟨e, he, decide_eq_true ⟨rfl, rfl⟩⟩
    obtain ⟨e', he'⟩ := Option.isSome_iff_exists.mp hsome
    have hpin : file.pin ⟨e.addr, e.transport⟩ = some e'.sha256 := by rw [pin_eq, he']; rfl
    rw [hpin, h _ _ hpin]
  · rintro h ⟨addr, transport⟩ text hpin
    have hpin' := hpin
    rw [pin_eq, Option.map_eq_some_iff] at hpin'
    obtain ⟨e, he, -⟩ := hpin'
    obtain ⟨rfl, rfl⟩ := isOf_of_lookup he
    rw [h e (List.mem_of_find?_eq_some he), hpin]

instance decidableKeeps {file file' : KnownHosts} : Decidable (file.Keeps file') :=
  decidable_of_iff _ (keeps_iff file file').symm

theorem Keeps.refl (file : KnownHosts) : file.Keeps file := fun _ _ h ↦ h

theorem Keeps.trans {file₁ file₂ file₃ : KnownHosts} (h : file₁.Keeps file₂)
    (h' : file₂.Keeps file₃) : file₁.Keeps file₃ :=
  fun key text hpin ↦ h' key text (h key text hpin)

theorem Keeps.holds {file file' : KnownHosts} (h : file.Keeps file') {key : HostKey}
    {fp : Fingerprint} (hfp : file.Holds key fp) : file'.Holds key fp := by
  rw [Holds, Option.bind_eq_some_iff] at hfp
  obtain ⟨text, htext, hfp⟩ := hfp
  rw [Holds, h key text htext, Option.bind_some, hfp]

end KnownHosts

/-! ## Verification -/

/-- Why a certificate is turned down: its pin could not be written, the text of the pin is no
fingerprint, or the pin is of another certificate. -/
inductive CertError where
  | unpersisted
  | invalidPin
  | mismatch (addr : String) (pinned presented : Fingerprint)

/-- What becomes of a write of the file. If it fails, something may be left of the file or not. -/
inductive Write where
  | saved
  | failed (left : KnownHosts)

/-- The file, the copy of the store, and the verdict. -/
structure Verification where
  file : KnownHosts
  entries : List TofuEntry
  verdict : Except CertError Unit

/-- Pin a fingerprint. The copy has it whether it can be written or not. -/
def pin (entries : List TofuEntry) (key : HostKey) (fp : Fingerprint) (now : String) :
    Write → Verification
  | .saved => ⟨.hosts (pinned entries key fp now), pinned entries key fp now, .ok ()⟩
  | .failed left => ⟨left, pinned entries key fp now, .error .unpersisted⟩

/-- The verdict on a certificate that no root vouches for, if there is a pin. -/
def judge (key : HostKey) (fp : Fingerprint) (sha256 : List ℕ) : Except CertError Unit :=
  match Fingerprint.fromHex sha256 with
  | none => .error .invalidPin
  | some pinnedFp => if pinnedFp = fp then .ok () else .error (.mismatch key.addr pinnedFp fp)

/-- Verify a certificate by its fingerprint, with a store's copy of the file. -/
def verifyServerCert (acceptInvalidCerts : Bool) (file : KnownHosts) (entries : List TofuEntry)
    (key : HostKey) (fp : Fingerprint) (caValid : Bool) (now : String) (write : Write) :
    Verification :=
  if acceptInvalidCerts then ⟨file, entries, .ok ()⟩
  else if caValid then
    match lookup entries key with
    | none => pin entries key fp now write
    | some _ => ⟨file, entries, .ok ()⟩
  else
    match lookup entries key with
    | none => pin entries key fp now write
    | some e => ⟨file, entries, judge key fp e.sha256⟩

section Verify

variable (file : KnownHosts) {entries : List TofuEntry} {key : HostKey} (fp : Fingerprint)
  (caValid : Bool) (now : String) (write : Write)

theorem verifyServerCert_of_none (h : lookup entries key = none) :
    verifyServerCert false file entries key fp caValid now write =
      pin entries key fp now write := by
  rw [verifyServerCert, if_neg Bool.false_ne_true, h]
  exact ite_id _

theorem verifyServerCert_of_some {e : TofuEntry} (h : lookup entries key = some e) :
    verifyServerCert false file entries key fp caValid now write =
      ⟨file, entries, if caValid then .ok () else judge key fp e.sha256⟩ := by
  rw [verifyServerCert, if_neg Bool.false_ne_true, h]
  cases caValid <;> rfl

end Verify

theorem entries_pin (entries : List TofuEntry) (key : HostKey) (fp : Fingerprint) (now : String)
    (write : Write) : (pin entries key fp now write).entries = pinned entries key fp now := by
  cases write <;> rfl

/-- A certificate passes only with its own pin. -/
theorem judge_eq_ok {key : HostKey} {fp : Fingerprint} {sha256 : List ℕ}
    (h : judge key fp sha256 = .ok ()) : Fingerprint.fromHex sha256 = some fp := by
  rw [judge] at h
  split at h
  · cases h
  · rename_i pinnedFp hpinned
    split_ifs at h with heq
    rw [hpinned, heq]

/-! ## Stores that share a file -/

/-- A store: its copy of the file, and the hosts whose pins it has not been able to write since it
last wrote the file. The code does not keep the latter. -/
structure TofuStore where
  entries : List TofuEntry
  unsaved : List HostKey

/-- The file and the stores that have been loaded from it. -/
structure World where
  file : KnownHosts
  stores : List TofuStore

/-- A store is loaded, from what is `torn` of the file if that is being written; or the certificate
of a host is verified with store `i`. -/
inductive Event where
  | load (torn : Option KnownHosts)
  | verify (i : ℕ) (key : HostKey) (fp : Fingerprint) (caValid : Bool) (now : String)
      (write : Write)

/-- The hosts whose pins are still to be written. -/
def TofuStore.stillUnsaved (store : TofuStore) (key : HostKey) (write : Write) : List HostKey :=
  match lookup store.entries key, write with
  | some _, _ => store.unsaved
  | none, .saved => []
  | none, .failed _ => key :: store.unsaved

theorem TofuStore.stillUnsaved_of_some (store : TofuStore) {key : HostKey} {e : TofuEntry}
    (h : lookup store.entries key = some e) (write : Write) :
    store.stillUnsaved key write = store.unsaved := by
  unfold stillUnsaved
  simp only [h]

theorem TofuStore.stillUnsaved_of_none (store : TofuStore) {key : HostKey}
    (h : lookup store.entries key = none) (left : KnownHosts) :
    store.stillUnsaved key .saved = [] ∧
      store.stillUnsaved key (.failed left) = key :: store.unsaved := by
  unfold stillUnsaved
  simp only [h, and_self]

def step (w : World) : Event → World
  | .load torn =>
    match (torn.getD w.file).load with
    | some entries => { w with stores := w.stores ++ [⟨entries, []⟩] }
    | none => w
  | .verify i key fp caValid now write =>
    match w.stores[i]? with
    | none => w
    | some store =>
      let v := verifyServerCert false w.file store.entries key fp caValid now write
      ⟨v.file, w.stores.set i ⟨v.entries, store.stillUnsaved key write⟩⟩

/-- The event is a verification, and the certificate passes. -/
def Accepts (w : World) : Event → Prop
  | .load _ => False
  | .verify i key fp caValid now write =>
    ∃ store, w.stores[i]? = some store ∧
      (verifyServerCert false w.file store.entries key fp caValid now write).verdict = .ok ()

def start (file : KnownHosts) : World := ⟨file, []⟩

/-- A write loses none of the file's pins: the copy that is written has them all, or they are all
left when the write fails. -/
def Write.Keeps (write : Write) (file : KnownHosts) (entries : List TofuEntry) : Prop :=
  match write with
  | .saved => file.Keeps (.hosts entries)
  | .failed left => file.Keeps left

/-- The steps that are free of the two slips. No pin is lost to a write, and a load that falls into
one sees the pins as they are; and no store is asked about a host whose pin it has failed to
write. -/
def Careful (w : World) : Event → Prop
  | .load torn => w.file.Keeps (torn.getD w.file) ∧ (torn.getD w.file).Keeps w.file
  | .verify i key _ caValid _ write =>
    ∀ store, w.stores[i]? = some store →
      (lookup store.entries key = none → write.Keeps w.file store.entries) ∧
        (caValid = false → key ∉ store.unsaved)

instance decidableWriteKeeps {write : Write} {file : KnownHosts} {entries : List TofuEntry} :
    Decidable (write.Keeps file entries) :=
  match write with
  | .saved => inferInstanceAs (Decidable (file.Keeps (.hosts entries)))
  | .failed left => inferInstanceAs (Decidable (file.Keeps left))

instance decidableCareful {w : World} : ∀ {ev : Event}, Decidable (Careful w ev)
  | .load torn =>
    inferInstanceAs (Decidable (w.file.Keeps (torn.getD w.file) ∧ (torn.getD w.file).Keeps w.file))
  | .verify i key _ caValid _ write =>
    inferInstanceAs (Decidable (∀ store ∈ w.stores[i]?,
      (lookup store.entries key = none → write.Keeps w.file store.entries) ∧
        (caValid = false → key ∉ store.unsaved)))

/-- What a store has pinned is pinned in the file, apart from what could not be written. -/
def InFile (w : World) : Prop :=
  ∀ store ∈ w.stores, ∀ key ∉ store.unsaved, ∀ e, lookup store.entries key = some e →
    w.file.pin key = some e.sha256

/-! ### One step -/

/-- What a verification does to the file and to the copy: nothing if the host has a pin, and
otherwise it pins the fingerprint. -/
theorem step_verify {w : World} {i : ℕ} {store : TofuStore} (hi : w.stores[i]? = some store)
    (key : HostKey) (fp : Fingerprint) (caValid : Bool) (now : String) (write : Write) :
    (∃ e, lookup store.entries key = some e ∧
      step w (.verify i key fp caValid now write) = ⟨w.file, w.stores.set i store⟩) ∨
    (lookup store.entries key = none ∧
      step w (.verify i key fp caValid now write) =
        ⟨(pin store.entries key fp now write).file,
          w.stores.set i ⟨pinned store.entries key fp now, store.stillUnsaved key write⟩⟩) := by
  rcases Option.eq_none_or_eq_some (lookup store.entries key) with hnone | ⟨e, he⟩
  · refine Or.inr ⟨hnone, ?_⟩
    rw [step, hi]
    dsimp only
    rw [verifyServerCert_of_none _ _ _ _ _ hnone, entries_pin]
  · refine Or.inl ⟨e, he, ?_⟩
    rw [step, hi]
    dsimp only
    rw [verifyServerCert_of_some _ _ _ _ _ he, store.stillUnsaved_of_some he]

theorem step_verify_of_none {w : World} {i : ℕ} (hi : w.stores[i]? = none)
    (key : HostKey) (fp : Fingerprint) (caValid : Bool) (now : String) (write : Write) :
    step w (.verify i key fp caValid now write) = w := by
  rw [step, hi]

theorem step_load (w : World) (torn : Option KnownHosts) :
    step w (.load torn) = w ∨
      ∃ entries, (torn.getD w.file).load = some entries ∧
        step w (.load torn) = ⟨w.file, w.stores ++ [⟨entries, []⟩]⟩ := by
  rcases Option.eq_none_or_eq_some (torn.getD w.file).load with hnone | ⟨entries, he⟩
  · exact Or.inl (by rw [step, hnone])
  · exact Or.inr ⟨entries, he, by rw [step, he]⟩

/-- A new pin leaves the pins of other hosts in the copy. -/
theorem keeps_pinned {entries : List TofuEntry} {key : HostKey} (h : lookup entries key = none)
    (fp : Fingerprint) (now : String) :
    (KnownHosts.hosts entries).Keeps (.hosts (pinned entries key fp now)) := by
  intro key' text htext
  rw [KnownHosts.pin_eq] at htext ⊢
  have hkey : key' ≠ key := by
    rintro rfl
    change (lookup entries key').map _ = _ at htext
    rw [h] at htext
    cases htext
  exact (lookup_pinned entries key fp now key').trans ((if_neg hkey).trans htext)

/-- **A careful step loses no pin of the file.** -/
theorem keeps_step {w : World} {ev : Event} (h : Careful w ev) : w.file.Keeps (step w ev).file := by
  rcases ev with torn | ⟨i, key, fp, caValid, now, write⟩
  · rcases step_load w torn with hstep | ⟨entries, -, hstep⟩
    · rw [hstep]
      exact KnownHosts.Keeps.refl _
    · rw [hstep]
      exact KnownHosts.Keeps.refl _
  · rcases Option.eq_none_or_eq_some w.stores[i]? with hi | ⟨store, hi⟩
    · rw [step_verify_of_none hi]
      exact KnownHosts.Keeps.refl _
    · rcases step_verify hi key fp caValid now write with ⟨e, -, hstep⟩ | ⟨hnone, hstep⟩
      · rw [hstep]
        exact KnownHosts.Keeps.refl _
      · rw [hstep]
        have hkeeps := (h store hi).1 hnone
        rcases write with _ | left
        · exact KnownHosts.Keeps.trans hkeeps (keeps_pinned hnone fp now)
        · exact hkeeps

/-- The pins of a copy, as those of a file that holds it. -/
theorem pin_hosts {entries : List TofuEntry} {key : HostKey} {e : TofuEntry}
    (h : lookup entries key = some e) : (KnownHosts.hosts entries).pin key = some e.sha256 := by
  rw [KnownHosts.pin_eq]
  change (lookup entries key).map _ = _
  rw [h, Option.map_some]

theorem pin_of_load {file : KnownHosts} {entries : List TofuEntry} (h : file.load = some entries)
    (key : HostKey) : file.pin key = (lookup entries key).map TofuEntry.sha256 := by
  rw [KnownHosts.pin, h, Option.bind_some]

/-- Where the copy has a pin, the copy with a new one has it too or has the new one. -/
theorem lookup_of_pinned {entries : List TofuEntry} {key key' : HostKey} {fp : Fingerprint}
    {now : String} {e : TofuEntry} (h : lookup (pinned entries key fp now) key' = some e)
    (hkey : key' ≠ key) : ∃ e', lookup entries key' = some e' ∧ e'.sha256 = e.sha256 := by
  have hmap := lookup_pinned entries key fp now key'
  rw [h, if_neg hkey, Option.map_some, eq_comm, Option.map_eq_some_iff] at hmap
  exact hmap

theorem inFile_step {w : World} {ev : Event} (hw : InFile w) (h : Careful w ev) :
    InFile (step w ev) := by
  have hkeeps := keeps_step h
  rcases ev with torn | ⟨i, key, fp, caValid, now, write⟩
  · rcases step_load w torn with hstep | ⟨entries, hload, hstep⟩
    · rw [hstep]
      exact hw
    · rw [hstep]
      intro store hstore key hkey e he
      rcases List.mem_append.mp hstore with hmem | hnew
      · exact hw store hmem key hkey e he
      · obtain rfl := List.mem_singleton.mp hnew
        have htorn := pin_of_load hload key
        rw [he, Option.map_some] at htorn
        exact h.2 key _ htorn
  · rcases Option.eq_none_or_eq_some w.stores[i]? with hi | ⟨store, hi⟩
    · rw [step_verify_of_none hi]
      exact hw
    have hstore : store ∈ w.stores := List.mem_of_getElem? hi
    rcases step_verify hi key fp caValid now write with ⟨e, -, hstep⟩ | ⟨hnone, hstep⟩
    · rw [hstep]
      intro store' hstore' key' hkey' e' he'
      rcases List.mem_or_eq_of_mem_set hstore' with hmem | rfl
      · exact hw store' hmem key' hkey' e' he'
      · exact hw store' hstore key' hkey' e' he'
    · rw [hstep] at hkeeps ⊢
      intro store' hstore' key' hkey' e' he'
      rcases List.mem_or_eq_of_mem_set hstore' with hmem | rfl
      · exact hkeeps key' _ (hw store' hmem key' hkey' e' he')
      · rcases write with _ | left
        · exact pin_hosts he'
        · rw [(store.stillUnsaved_of_none hnone left).2, List.mem_cons, not_or] at hkey'
          obtain ⟨e₀, he₀, htext⟩ := lookup_of_pinned he' hkey'.1
          rw [← htext]
          exact hkeeps key' _ (hw store hstore key' hkey'.2 e₀ he₀)

/-- **What a careful verification accepts on trust is pinned.** -/
theorem holds_of_accepts {w : World} {i : ℕ} {key : HostKey} {fp : Fingerprint} {now : String}
    {write : Write} (hw : InFile w) (h : Careful w (.verify i key fp false now write))
    (hacc : Accepts w (.verify i key fp false now write)) :
    (step w (.verify i key fp false now write)).file.Holds key fp := by
  obtain ⟨store, hi, hverdict⟩ := hacc
  rcases step_verify hi key fp false now write with ⟨e, he, hstep⟩ | ⟨hnone, hstep⟩
  · rw [verifyServerCert_of_some _ _ _ _ _ he] at hverdict
    have hfp : Fingerprint.fromHex e.sha256 = some fp := judge_eq_ok hverdict
    have hpin := hw store (List.mem_of_getElem? hi) key ((h store hi).2 rfl) e he
    rw [hstep, KnownHosts.Holds, hpin, Option.bind_some, hfp]
  · rw [verifyServerCert_of_none _ _ _ _ _ hnone] at hverdict
    rcases write with _ | left
    · have hpin := lookup_pinned store.entries key fp now key
      rw [if_pos rfl, Option.map_eq_some_iff] at hpin
      obtain ⟨e, he, htext⟩ := hpin
      rw [hstep, KnownHosts.Holds]
      change Option.bind ((KnownHosts.hosts _).pin key) _ = _
      rw [pin_hosts he, Option.bind_some, htext, Fingerprint.fromHex_toHex]
    · cases hverdict

/-! ### Stores that are loaded later -/

/-- The file has a fingerprint pinned, and so have the stores from the `n`th on. -/
structure Pinned (n : ℕ) (key : HostKey) (fp : Fingerprint) (w : World) : Prop where
  file : w.file.Holds key fp
  length : n ≤ w.stores.length
  stores : ∀ j store, n ≤ j → w.stores[j]? = some store →
    ∃ e, lookup store.entries key = some e ∧ Fingerprint.fromHex e.sha256 = some fp

/-- No store is loaded yet. -/
theorem pinned_of_holds {key : HostKey} {fp : Fingerprint} {w : World}
    (h : w.file.Holds key fp) : Pinned w.stores.length key fp w := by
  refine ⟨h, le_rfl, fun j store hj hstore ↦ ?_⟩
  have hlt := (List.getElem?_eq_some_iff.mp hstore).1
  omega

theorem pinned_step {n : ℕ} {key : HostKey} {fp : Fingerprint} {w : World} {ev : Event}
    (hw : Pinned n key fp w) (h : Careful w ev) : Pinned n key fp (step w ev) := by
  have hfile := (keeps_step h).holds hw.file
  rcases ev with torn | ⟨i, key', fp', caValid, now, write⟩
  · rcases step_load w torn with hstep | ⟨entries, hload, hstep⟩
    · rw [hstep]
      exact hw
    · rw [hstep]
      refine ⟨hw.file, ?_, ?_⟩
      · rw [List.length_append]
        exact Nat.le_add_right_of_le hw.length
      · intro j store hj hstore
        rcases Nat.lt_or_ge j w.stores.length with hlt | hge
        · rw [List.getElem?_append_left hlt] at hstore
          exact hw.stores j store hj hstore
        · rw [List.getElem?_append_right hge] at hstore
          obtain rfl := List.mem_singleton.mp (List.mem_of_getElem? hstore)
          have htorn := h.1.holds hw.file
          rw [KnownHosts.Holds, pin_of_load hload, Option.bind_map,
            Option.bind_eq_some_iff] at htorn
          exact htorn
  · rcases Option.eq_none_or_eq_some w.stores[i]? with hi | ⟨store, hi⟩
    · rw [step_verify_of_none hi]
      exact hw
    refine ⟨hfile, ?_, ?_⟩
    · rcases step_verify hi key' fp' caValid now write with ⟨e, -, hstep⟩ | ⟨-, hstep⟩
      all_goals
        rw [hstep, List.length_set]
        exact hw.length
    · intro j store' hj hstore'
      by_cases hij : i = j
      · subst hij
        obtain ⟨e, he, hfp⟩ := hw.stores i store hj hi
        have hlt := (List.getElem?_eq_some_iff.mp hi).1
        rcases step_verify hi key' fp' caValid now write with ⟨e', -, hstep⟩ | ⟨hnone, hstep⟩
        · rw [hstep, List.getElem?_set_self hlt] at hstore'
          obtain rfl := Option.some.inj hstore'
          exact ⟨e, he, hfp⟩
        · rw [hstep, List.getElem?_set_self hlt] at hstore'
          obtain rfl := Option.some.inj hstore'
          have hkey : key ≠ key' := by
            rintro rfl
            rw [he] at hnone
            cases hnone
          have hpin := lookup_pinned store.entries key' fp' now key
          rw [if_neg hkey, he, Option.map_some, Option.map_eq_some_iff] at hpin
          obtain ⟨e₁, he₁, htext⟩ := hpin
          exact ⟨e₁, he₁, htext ▸ hfp⟩
      · refine hw.stores j store' hj ?_
        rcases step_verify hi key' fp' caValid now write with ⟨e, -, hstep⟩ | ⟨-, hstep⟩
        all_goals
          rw [hstep, List.getElem?_set_ne hij] at hstore'
          exact hstore'

/-- A store that has a fingerprint pinned accepts no other. -/
theorem not_accepts_of_pinned {n j : ℕ} {key : HostKey} {fp fp' : Fingerprint} {w : World}
    (hw : Pinned n key fp w) (hj : n ≤ j) (hfp : fp' ≠ fp) (now : String) (write : Write) :
    ¬Accepts w (.verify j key fp' false now write) := by
  rintro ⟨store, hi, hverdict⟩
  obtain ⟨e, he, hfp₀⟩ := hw.stores j store hj hi
  rw [verifyServerCert_of_some _ _ _ _ _ he] at hverdict
  have hfp₁ : Fingerprint.fromHex e.sha256 = some fp' := judge_eq_ok hverdict
  rw [hfp₀] at hfp₁
  exact hfp (Option.some.inj hfp₁).symm

/-! ## Runs -/

/-- What trust on first use means in a run that starts with this file. At each step `ev`, after
`before`: no pin of the file is lost. If `ev` accepts, on trust, a certificate of a host, then the
file has it pinned; and a store that is loaded after that turns every other certificate of the host
down that no root vouches for. -/
def TrustIsPersistent (file : KnownHosts) (evs : List Event) : Prop :=
  ∀ before ev after, evs = before ++ ev :: after →
    let w := Run.exec step (start file) before
    w.file.Keeps (step w ev).file ∧
      ∀ i key fp now write, ev = .verify i key fp false now write → Accepts w ev →
        (step w ev).file.Holds key fp ∧
          ∀ between j fp' now' write' rest,
            after = between ++ .verify j key fp' false now' write' :: rest →
            (step w ev).stores.length ≤ j → fp' ≠ fp →
              ¬Accepts (Run.exec step (step w ev) between) (.verify j key fp' false now' write')

/-- **Trust on first use is persistent in every run of careful steps.** -/
theorem trust_is_persistent (file : KnownHosts) (evs : List Event)
    (h : Run.Ok step Careful (start file) evs) : TrustIsPersistent file evs := by
  rintro before ev after rfl
  rw [Run.ok_append] at h
  obtain ⟨hbefore, hev, hafter⟩ := h
  have hstart : InFile (start file) := fun store hstore ↦ (List.not_mem_nil hstore).elim
  have hw : InFile (Run.exec step (start file) before) :=
    Run.invariant_of_ok (fun w ev hw hev ↦ inFile_step hw hev) before _ hstart hbefore
  refine ⟨keeps_step hev, ?_⟩
  rintro i key fp now write rfl hacc
  have hholds := holds_of_accepts hw hev hacc
  refine ⟨hholds, ?_⟩
  rintro between j fp' now' write' rest rfl hj hfp
  rw [Run.ok_append] at hafter
  have hpinned := Run.invariant_of_ok (fun w ev hw hev ↦ pinned_step hw hev) between _
    (pinned_of_holds hholds) hafter.1
  exact not_accepts_of_pinned hpinned hj hfp now' write'

/-- The fingerprint with one byte throughout. -/
def uniformFingerprint (b : Fin 256) : Fingerprint where
  bytes := List.replicate 32 b
  length_eq := List.length_replicate
  byte := by
    intro b' hb'
    rw [List.eq_of_mem_replicate hb']
    exact b.isLt

/-- A pin that is written, and a store that is loaded after it. -/
theorem trust_is_persistent_after_pin :
    TrustIsPersistent .absent
      [.load none, .verify 0 ⟨"a:1", "quic"⟩ (uniformFingerprint 1) false "t" .saved, .load none,
        .verify 1 ⟨"a:1", "quic"⟩ (uniformFingerprint 2) false "t" .saved] :=
  trust_is_persistent .absent _ (by decide)

/-- A certificate whose pin could not be written passes when it is seen again, and its pin is
nowhere. Of two stores, the second to pin a host takes the pin of the first out of the file; and a
store that is loaded then accepts another certificate for that host. -/
theorem trust_is_lost :
    let a : HostKey := ⟨"a:1", "quic"⟩
    let b : HostKey := ⟨"b:1", "quic"⟩
    let one := uniformFingerprint 1
    let asked := Run.exec step (start .absent)
      [.load none, .verify 0 a one false "t" (.failed .absent)]
    let again := Event.verify 0 a one false "t" .saved
    let both := Run.exec step (start .absent)
      [.load none, .load none, .verify 0 a one false "t" .saved]
    let other := Event.verify 1 b one false "t" .saved
    (Accepts asked again ∧ ¬(step asked again).file.Holds a one) ∧
      (Accepts both other ∧ both.file.Holds a one ∧ ¬(step both other).file.Holds a one) ∧
        Accepts (step (step both other) (.load none))
          (.verify 2 a (uniformFingerprint 2) false "t" .saved) := by
  intro a b one asked again both other
  refine ⟨⟨⟨_, rfl, rfl⟩, ?_⟩, ⟨⟨_, rfl, rfl⟩, ?_, ?_⟩, ⟨_, rfl, rfl⟩⟩
  all_goals decide

end Kmux.Transport
