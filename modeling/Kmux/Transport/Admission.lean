import Kmux.Lib.Run
import Mathlib.Data.List.Count
import Mathlib.Data.List.Perm.Basic
import Mathlib.Logic.Function.Basic
import Mathlib.Order.Nat

/-!
# Admission of handshakes

A listener runs a bounded number of handshakes at once, in all and from any one source. Each
admitted handshake holds a slot, and gives it back when it ends. A QUIC client whose address is
unproven is sent a Retry once a number of handshakes are in flight, so that a spoofed address cannot
use up the share of the host it belongs to.

The counts follow the slots whatever the calls. The share of a host is another matter: the threshold
for a Retry is looked at before the connection is counted, so as many connections as the threshold
says are admitted unproven, and where the threshold is the bound of the source, they fill it.
-/

namespace Kmux.Transport

/-! ## Sources and limits -/

inductive IpAddr
  | v4 (addr : BitVec 32)
  | v6 (addr : BitVec 128)
  deriving DecidableEq, Repr

/-- The IPv4 address that an IPv6 address maps. -/
def toIpv4Mapped (addr : BitVec 128) : Option (BitVec 32) :=
  if addr >>> 32 = 0xffff#128 then some (addr.setWidth 32) else none

/-- What a connection counts against: the IPv4 address, or the IPv6 /64. -/
def sourceKey : IpAddr → IpAddr
  | .v4 addr => .v4 addr
  | .v6 addr =>
    match toIpv4Mapped addr with
    | some mapped => .v4 mapped
    | none => .v6 (addr &&& ~~~0xffffffffffffffff#128)

/-- The bounds of a listener, neither of them zero. -/
structure HandshakeLimits where
  total : ℕ
  perSource : ℕ
  retryAbove : ℕ
  total_pos : 0 < total
  perSource_pos : 0 < perSource

inductive HandshakeLimitsError
  | zeroTotal
  | zeroPerSource
  deriving DecidableEq, Repr

def maxPendingHandshakes : ℕ := 64

def maxPendingHandshakesPerSource : ℕ := 8

def quicRetryAbove : ℕ := maxPendingHandshakesPerSource

namespace HandshakeLimits

/-- A zero bound is refused. -/
def new (total perSource retryAbove : ℕ) : Except HandshakeLimitsError HandshakeLimits :=
  if htotal : total = 0 then .error .zeroTotal
  else if hsource : perSource = 0 then .error .zeroPerSource
  else .ok ⟨total, perSource, retryAbove, Nat.pos_of_ne_zero htotal, Nat.pos_of_ne_zero hsource⟩

/-- The daemon's limits. -/
def daemon : HandshakeLimits :=
  ⟨maxPendingHandshakes, maxPendingHandshakesPerSource, quicRetryAbove, by decide, by decide⟩

end HandshakeLimits

/-! ## The counts -/

/-- Why a connection was turned away. -/
inductive Refusal
  | full
  | sourceFull
  deriving DecidableEq, Repr

/-- What to do with a connection. A slot remembers the source it counts against. -/
inductive Admission
  | admitted (slot : Option IpAddr)
  | retry
  | refuse (why : Refusal)
  deriving DecidableEq, Repr

/-- The handshakes in flight, in all and per source. -/
structure Counts where
  total : ℕ
  bySource : IpAddr → Option ℕ

namespace Counts

def empty : Counts := ⟨0, fun _ ↦ none⟩

/-- Decide on a connection. A local socket has no source. Looking up the entry of a source creates
it. -/
def admitConnection (counts : Counts) (limits : HandshakeLimits) (source : Option IpAddr)
    (needsValidation : Bool) : Counts × Admission :=
  let source := source.map sourceKey
  if needsValidation ∧ limits.retryAbove ≤ counts.total then (counts, .retry)
  else if limits.total ≤ counts.total then (counts, .refuse .full)
  else
    match source with
    | none => ({ counts with total := counts.total + 1 }, .admitted none)
    | some ip =>
      let fromSource := (counts.bySource ip).getD 0
      if limits.perSource ≤ fromSource then
        ({ counts with bySource := Function.update counts.bySource ip (some fromSource) },
          .refuse .sourceFull)
      else
        ({ total := counts.total + 1,
           bySource := Function.update counts.bySource ip (some (fromSource + 1)) },
          .admitted (some ip))

/-- A slot is given back. -/
def release (counts : Counts) : Option IpAddr → Counts
  | none => { counts with total := counts.total - 1 }
  | some ip =>
    match counts.bySource ip with
    | none => { counts with total := counts.total - 1 }
    | some fromSource =>
      { total := counts.total - 1,
        bySource := Function.update counts.bySource ip
          (if fromSource - 1 = 0 then none else some (fromSource - 1)) }

/-- Giving back a slot would take a count below zero. -/
def Underflows (counts : Counts) (slot : Option IpAddr) : Prop :=
  counts.total = 0 ∨ ∃ ip, slot = some ip ∧ counts.bySource ip = some 0

end Counts

/-! ## A listener -/

/-- The counts, and the slots that are out. -/
structure Listener where
  counts : Counts
  live : List (Option IpAddr)

/-- A connection comes in, or a handshake ends, whichever way. -/
inductive ListenerEvent
  | accept (limits : HandshakeLimits) (source : Option IpAddr) (needsValidation : Bool)
  | drop (slot : ℕ)

namespace Listener

def start : Listener := ⟨.empty, []⟩

def step (l : Listener) : ListenerEvent → Listener
  | .accept limits source needsValidation =>
    match l.counts.admitConnection limits source needsValidation with
    | (counts, .admitted slot) => ⟨counts, slot :: l.live⟩
    | (counts, _) => ⟨counts, l.live⟩
  | .drop i =>
    match l.live[i]? with
    | none => l
    | some slot => ⟨l.counts.release slot, l.live.eraseIdx i⟩

/-! ## Counts and slots -/

/-- The counts say how many slots are out: in all, and for each source that has one. -/
def Tallies (l : Listener) : Prop :=
  l.counts.total = l.live.length ∧ ∀ ip, l.counts.bySource ip
    = if some ip ∈ l.live then some (l.live.count (some ip)) else none

theorem Tallies.getD {l : Listener} (h : l.Tallies) (ip : IpAddr) :
    (l.counts.bySource ip).getD 0 = l.live.count (some ip) := by
  rw [h.2 ip]
  split_ifs with hmem
  · rfl
  · rw [Option.getD_none, List.count_eq_zero_of_not_mem hmem]

/-- One slot more for a source. -/
private theorem tallies_cons {l : Listener} (h : l.Tallies) (ip : IpAddr) :
    Tallies ⟨⟨l.counts.total + 1, Function.update l.counts.bySource ip
      (some ((l.counts.bySource ip).getD 0 + 1))⟩, some ip :: l.live⟩ := by
  refine ⟨by rw [h.1, List.length_cons], ?_⟩
  intro ip'
  dsimp only
  by_cases hip : ip' = ip
  · subst hip
    rw [Function.update_self, if_pos List.mem_cons_self, List.count_cons_self, h.getD]
  · have hne : some ip ≠ some ip' := fun heq ↦ hip (Option.some.inj heq).symm
    rw [Function.update_of_ne hip, h.2 ip', List.count_cons_of_ne hne]
    simp only [List.mem_cons, Option.some.injEq, hip, false_or]

/-- What a connection does: nothing, or it takes a slot within the bounds. -/
theorem admit_cases {l : Listener} (h : l.Tallies) (limits : HandshakeLimits)
    (source : Option IpAddr) (needsValidation : Bool) :
    l.step (.accept limits source needsValidation) = l ∨
      (l.step (.accept limits source needsValidation)).live = source.map sourceKey :: l.live ∧
        (l.step (.accept limits source needsValidation)).Tallies ∧
        (needsValidation = true → l.live.length < limits.retryAbove) ∧
        l.live.length < limits.total ∧
        ∀ ip ∈ source, l.live.count (some (sourceKey ip)) < limits.perSource := by
  rw [step, Counts.admitConnection, h.1]
  dsimp only
  by_cases hretry : needsValidation = true ∧ limits.retryAbove ≤ l.live.length
  · rw [if_pos hretry]
    exact .inl rfl
  by_cases hfull : limits.total ≤ l.live.length
  · rw [if_neg hretry, if_pos hfull]
    exact .inl rfl
  have hproven : needsValidation = true → l.live.length < limits.retryAbove := fun hv ↦
    not_le.mp fun hle ↦ hretry ⟨hv, hle⟩
  rw [if_neg hretry, if_neg hfull]
  rcases source with _ | ip
  · refine .inr ⟨rfl, ⟨rfl, ?_⟩, hproven, not_le.mp hfull, by simp⟩
    intro ip
    rw [Option.map_none]
    dsimp only
    rw [h.2 ip, List.count_cons_of_ne (by simp)]
    simp only [List.mem_cons, reduceCtorEq, false_or]
  · rw [Option.map_some]
    dsimp only
    by_cases hsource : limits.perSource ≤ (l.counts.bySource (sourceKey ip)).getD 0
    · -- a source at its bound has an entry already, so looking it up adds none
      have hentry : l.counts.bySource (sourceKey ip)
          = some ((l.counts.bySource (sourceKey ip)).getD 0) := by
        have hpos := limits.perSource_pos
        rcases Option.eq_none_or_eq_some (l.counts.bySource (sourceKey ip)) with hnone | ⟨n, hn⟩
        · rw [hnone, Option.getD_none] at hsource
          omega
        · rw [hn, Option.getD_some]
      rw [if_pos hsource, ← hentry, Function.update_eq_self, ← h.1]
      exact .inl rfl
    · rw [if_neg hsource]
      refine .inr ⟨rfl, ?_, hproven, not_le.mp hfull, ?_⟩
      · have := tallies_cons h (sourceKey ip)
        rwa [h.1] at this
      · intro ip' hip
        obtain rfl := Option.some.inj hip
        rw [← h.getD]
        exact not_le.mp hsource

/-- A slot that goes back leaves counts that say how many are still out. -/
theorem tallies_release {l : Listener} (h : l.Tallies) {i : ℕ} {slot : Option IpAddr}
    (hi : l.live[i]? = some slot) :
    Tallies ⟨l.counts.release slot, l.live.eraseIdx i⟩ := by
  obtain ⟨hlt, hget⟩ := List.getElem?_eq_some_iff.mp hi
  have hperm : l.live.Perm (slot :: l.live.eraseIdx i) := by
    rw [← hget]
    exact (List.getElem_cons_eraseIdx_perm hlt).symm
  have hlen : l.counts.total - 1 = (l.live.eraseIdx i).length := by
    rw [h.1, hperm.length_eq, List.length_cons, Nat.add_sub_cancel]
  have hother : ∀ ip, some ip ≠ slot → l.counts.bySource ip
      = if some ip ∈ l.live.eraseIdx i then some ((l.live.eraseIdx i).count (some ip))
        else none := by
    intro ip hne
    rw [h.2 ip, hperm.count_eq, List.count_cons_of_ne (Ne.symm hne)]
    simp only [hperm.mem_iff, List.mem_cons, hne, false_or]
  rcases slot with _ | ip
  · exact ⟨hlen, fun ip ↦ hother ip (by simp)⟩
  · have hcount : l.counts.bySource ip = some ((l.live.eraseIdx i).count (some ip) + 1) := by
      rw [h.2 ip, if_pos (hperm.mem_iff.mpr List.mem_cons_self), hperm.count_eq,
        List.count_cons_self]
    rw [Counts.release, hcount]
    refine ⟨hlen, ?_⟩
    intro ip'
    by_cases hip : ip' = ip
    · subst hip
      dsimp only
      rw [Function.update_self, Nat.add_sub_cancel]
      by_cases hmem : some ip' ∈ l.live.eraseIdx i
      · have hpos := List.count_pos_iff.mpr hmem
        rw [if_neg hpos.ne', if_pos hmem]
      · rw [if_pos (List.count_eq_zero_of_not_mem hmem), if_neg hmem]
    · dsimp only
      rw [Function.update_of_ne hip]
      exact hother ip' fun heq ↦ hip (Option.some.inj heq)

theorem tallies_step {l : Listener} (h : l.Tallies) (e : ListenerEvent) : (l.step e).Tallies := by
  cases e with
  | accept limits source needsValidation =>
    rcases admit_cases h limits source needsValidation with hsame | ⟨-, htallies, -⟩
    · rwa [hsame]
    · exact htallies
  | drop i =>
    rw [step]
    rcases Option.eq_none_or_eq_some l.live[i]? with hi | ⟨slot, hi⟩
    · rw [hi]
      exact h
    · rw [hi]
      exact tallies_release h hi

theorem tallies_start : start.Tallies := ⟨rfl, fun ip ↦ by simp [start, Counts.empty]⟩

theorem tallies_exec (es : List ListenerEvent) : (Run.exec step start es).Tallies :=
  Run.invariant (fun l e (h : l.Tallies) ↦ tallies_step h e) es start tallies_start

/-! ## Bounds -/

/-- Every connection is admitted with these bounds at most. -/
def Bounded (total perSource : ℕ) : ListenerEvent → Prop
  | .accept limits _ _ => limits.total ≤ total ∧ limits.perSource ≤ perSource
  | .drop _ => True

theorem live_step_drop (l : Listener) (i : ℕ) : (l.step (.drop i)).live.Sublist l.live := by
  rw [step]
  rcases Option.eq_none_or_eq_some l.live[i]? with hi | ⟨slot, hi⟩
  · rw [hi]
  · rw [hi]
    exact List.eraseIdx_sublist _ _

theorem bounded_exec {total perSource : ℕ} : ∀ (es : List ListenerEvent) (l : Listener),
    l.Tallies → (l.live.length ≤ total ∧ ∀ ip, l.live.count (some ip) ≤ perSource) →
      (∀ e ∈ es, Bounded total perSource e) →
        (Run.exec step l es).live.length ≤ total ∧
          ∀ ip, (Run.exec step l es).live.count (some ip) ≤ perSource := by
  intro es
  induction es with
  | nil => intro l _ h _; exact h
  | cons e es ih =>
    intro l htallies hbound hes
    rw [List.forall_mem_cons] at hes
    refine ih (l.step e) (tallies_step htallies e) ?_ hes.2
    cases e with
    | accept limits source needsValidation =>
      rcases admit_cases htallies limits source needsValidation with
        hsame | ⟨hlive, -, -, htotal, hsource⟩
      · rwa [hsame]
      · rw [hlive]
        refine ⟨htotal.trans_le hes.1.1, fun ip ↦ ?_⟩
        by_cases hip : source.map sourceKey = some ip
        · obtain ⟨addr, haddr, rfl⟩ := Option.map_eq_some_iff.mp hip
          rw [hip, List.count_cons_self]
          exact (hsource addr haddr).trans_le hes.1.2
        · rw [List.count_cons_of_ne hip]
          exact hbound.2 ip
    | drop i =>
      have hsub := live_step_drop l i
      exact ⟨hsub.length_le.trans hbound.1, fun ip ↦ (hsub.count_le _).trans (hbound.2 ip)⟩

/-! ## The share of a source -/

/-- No connection from the source of this address comes in with its address proven, and all are
judged by these limits. -/
def Unproven (limits : HandshakeLimits) (ip : IpAddr) : ListenerEvent → Prop
  | .accept limits' source needsValidation => limits' = limits ∧
    (source.map sourceKey = some (sourceKey ip) → needsValidation = true)
  | .drop _ => True

/-- Connections with an unproven address alone never use up the share of the source they name: a
proven one is not turned away for it. -/
def KeepsShare (limits : HandshakeLimits) : Prop :=
  ∀ (es : List ListenerEvent) (ip : IpAddr), (∀ e ∈ es, Unproven limits ip e) →
    ((Run.exec step start es).counts.admitConnection limits (some ip) false).2 ≠ .refuse .sourceFull

/-- Unproven connections of a source hold at most as many slots as the threshold for a Retry. -/
theorem count_le_retryAbove {limits : HandshakeLimits} {ip : IpAddr} :
    ∀ (es : List ListenerEvent) (l : Listener), l.Tallies →
      l.live.count (some (sourceKey ip)) ≤ limits.retryAbove → (∀ e ∈ es, Unproven limits ip e) →
        (Run.exec step l es).live.count (some (sourceKey ip)) ≤ limits.retryAbove := by
  intro es
  induction es with
  | nil => intro l _ h _; exact h
  | cons e es ih =>
    intro l htallies hle hes
    rw [List.forall_mem_cons] at hes
    refine ih (l.step e) (tallies_step htallies e) ?_ hes.2
    cases e with
    | accept limits' source needsValidation =>
      obtain ⟨rfl, hunproven⟩ := hes.1
      rcases admit_cases htallies limits' source needsValidation with
        hsame | ⟨hlive, -, hretry, -⟩
      · rwa [hsame]
      · rw [hlive]
        by_cases hip : source.map sourceKey = some (sourceKey ip)
        · -- the threshold was looked at before this one was counted
          rw [hip, List.count_cons_self]
          exact lt_of_le_of_lt List.count_le_length (hretry (hunproven hip))
        · rwa [List.count_cons_of_ne hip]
    | drop i => exact ((live_step_drop l i).count_le _).trans hle

/-- A proven connection is turned away for its share only if the share is used up and the listener
has room. -/
theorem admit_sourceFull_iff {l : Listener} (h : l.Tallies) (limits : HandshakeLimits)
    (ip : IpAddr) : (l.counts.admitConnection limits (some ip) false).2 = .refuse .sourceFull ↔
      l.live.length < limits.total ∧ limits.perSource ≤ l.live.count (some (sourceKey ip)) := by
  rw [Counts.admitConnection, h.1, Option.map_some]
  dsimp only
  rw [h.getD, if_neg (by simp)]
  by_cases hfull : limits.total ≤ l.live.length
  · rw [if_pos hfull]
    simp [not_lt.mpr hfull]
  · rw [if_neg hfull]
    by_cases hsource : limits.perSource ≤ l.live.count (some (sourceKey ip))
    · rw [if_pos hsource]
      simp [hsource, not_le.mp hfull]
    · rw [if_neg hsource]
      simp [hsource]

/-- Unproven connections from one address, as many as the share and the threshold have room for. -/
theorem exec_unproven (limits : HandshakeLimits) (ip : IpAddr) : ∀ n, n ≤ limits.retryAbove →
    n ≤ limits.total → n ≤ limits.perSource →
      (Run.exec step start (List.replicate n (.accept limits (some ip) true))).live
        = List.replicate n (some (sourceKey ip)) := by
  intro n
  induction n with
  | zero => intro _ _ _; rfl
  | succ n ih =>
    intro hretry htotal hsource
    have hlive := ih (by omega) (by omega) (by omega)
    have htallies := tallies_exec (List.replicate n (.accept limits (some ip) true))
    rw [List.replicate_succ', Run.exec_append, Run.exec_cons, Run.exec_nil]
    generalize Run.exec step start (List.replicate n (.accept limits (some ip) true)) = l
      at hlive htallies ⊢
    have hcount := htallies.getD (sourceKey ip)
    rw [hlive, List.count_replicate_self] at hcount
    have hlen := htallies.1
    rw [hlive, List.length_replicate] at hlen
    rw [step, Counts.admitConnection, Option.map_some, hlen]
    dsimp only
    rw [hcount, if_neg (by omega), if_neg (by omega), if_neg (by omega), List.replicate_succ,
      ← hlive]

/-- Unproven connections leave the share of their source alone if and only if the threshold is below
the share, or the share is as large as the listener. -/
theorem keepsShare_iff (limits : HandshakeLimits) : KeepsShare limits ↔
    limits.retryAbove < limits.perSource ∨ limits.total ≤ limits.perSource := by
  constructor
  · intro hkeeps
    by_contra hno
    rw [not_or, not_lt, not_le] at hno
    -- fill the share with unproven connections
    have hlive := exec_unproven limits (.v4 0) limits.perSource hno.1 hno.2.le le_rfl
    refine hkeeps (List.replicate limits.perSource (.accept limits (some (.v4 0)) true)) (.v4 0)
      ?_ ?_
    · intro e he
      obtain rfl := List.eq_of_mem_replicate he
      exact ⟨rfl, fun _ ↦ rfl⟩
    · rw [admit_sourceFull_iff (tallies_exec _), hlive, List.length_replicate,
        List.count_replicate_self]
      exact ⟨hno.2, le_rfl⟩
  · intro hlimits es ip hes
    rw [Ne, admit_sourceFull_iff (tallies_exec es)]
    have hcount := count_le_retryAbove es start tallies_start (Nat.zero_le _) hes
    have hlen := List.count_le_length (l := (Run.exec step start es).live)
      (a := some (sourceKey ip))
    omega

/-- **Admission.** After every sequence of connections, judged by whatever limits, and of slots
given back in whatever order: the counts are those of the live slots, only a source with a live slot
has an entry, no slot that goes back takes a count below zero, and no count is over the largest
bound that was in force. And unproven connections leave the share of their source alone exactly
where the threshold for a Retry is below the share, or the share is as large as the listener. -/
theorem admission (limits : HandshakeLimits) :
    (∀ es : List ListenerEvent,
      (Run.exec step start es).counts.total = (Run.exec step start es).live.length ∧
      (∀ ip, ((Run.exec step start es).counts.bySource ip).getD 0
        = (Run.exec step start es).live.count (some ip)) ∧
      (∀ ip, ((Run.exec step start es).counts.bySource ip).isSome
        ↔ some ip ∈ (Run.exec step start es).live) ∧
      (∀ slot ∈ (Run.exec step start es).live, ¬(Run.exec step start es).counts.Underflows slot) ∧
      ∀ total perSource, (∀ e ∈ es, Bounded total perSource e) →
        (Run.exec step start es).counts.total ≤ total ∧
          ∀ ip, ((Run.exec step start es).counts.bySource ip).getD 0 ≤ perSource) ∧
    (KeepsShare limits ↔
      limits.retryAbove < limits.perSource ∨ limits.total ≤ limits.perSource) := by
  refine ⟨fun es ↦ ?_, keepsShare_iff limits⟩
  have h := tallies_exec es
  refine ⟨h.1, h.getD, ?_, ?_, ?_⟩
  · intro ip
    rw [h.2 ip]
    split_ifs with hmem <;> simp [hmem]
  · rintro slot hslot (hzero | ⟨ip, rfl, hentry⟩)
    · rw [h.1, List.length_eq_zero_iff] at hzero
      rw [hzero] at hslot
      exact absurd hslot List.not_mem_nil
    · rw [h.2 ip, if_pos hslot, Option.some.injEq] at hentry
      exact absurd hentry (List.count_pos_iff.mpr hslot).ne'
  · intro total perSource hes
    have hbound := bounded_exec es start tallies_start ⟨Nat.zero_le _, fun ip ↦ Nat.zero_le _⟩ hes
    exact ⟨h.1 ▸ hbound.1, fun ip ↦ h.getD ip ▸ hbound.2 ip⟩

/-- With the limits of the daemon eight connections that spoof an address are admitted, and the next
one from there is refused although its address is proven. -/
theorem share_used_up :
    HandshakeLimits.daemon.retryAbove ≤ HandshakeLimits.daemon.perSource ∧
      ((Run.exec step start
        (List.replicate 8
          (.accept .daemon (some (.v4 0xc0000201#32)) true))).counts.admitConnection .daemon
            (some (.v4 0xc0000201#32)) false).2 = .refuse .sourceFull := by
  decide

end Listener

end Kmux.Transport
