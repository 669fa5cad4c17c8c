import Kmux.Daemon.Recover
import Kmux.Lib.Run
import Kmux.Transport.Listen
import Mathlib.Data.List.Chain
import Mathlib.Data.List.Sort

/-!
# The transport supervisor

A client that can reach its daemon over several transports keeps scoring them, probes the best one
that is not in use, and signals a switch when the probe gets through. An override pins one transport
and keeps the scorer out of it.

The supervisor is one task, so a round of its loop is one step: a wake-up, the decision, and the
outcome of the probe if there is one. A probe takes time, during which nothing else happens. Round
trip times are floating point in the source; what the decisions need of them is the number of
milliseconds they are cut to.
-/

namespace Kmux.Transport

/-! ## Scores -/

def localityBonusUds : ℤ := 1000
def robustnessUds : ℤ := 30
def robustnessQuic : ℤ := 20
def robustnessTcpTls : ℤ := 10
def latencyUnknownMs : ℤ := 500
def failurePenaltyPer : ℤ := 100
def oscillationPenalty : ℤ := 200
def failureWindow : ℕ := seconds 300
def oscillationWindow : ℕ := seconds 60
def probeInterval : ℕ := seconds 30

/-- Round trip times. -/
structure RttOps (R : Type) where
  /-- The moving average, of the old value and a new one. -/
  mix : R → R → R
  /-- `as i32`. -/
  toMs : R → ℤ

structure EndpointHealth (R : Type) where
  kind : TransportKind
  address : List Char
  rttEwma : Option R
  failureCount : ℕ
  lastFailure : Option ℕ
  lastSwapAway : Option ℕ
  serverPriority : ℤ

namespace EndpointHealth

variable {R : Type} (ops : RttOps R)

def new (advert : EndpointAdvert) : EndpointHealth R where
  kind := advert.kind
  address := advert.address
  rttEwma := none
  failureCount := 0
  lastFailure := none
  lastSwapAway := none
  serverPriority := 0

def recordRtt (h : EndpointHealth R) (rtt : R) : EndpointHealth R :=
  { h with
    rttEwma := some (match h.rttEwma with
      | some old => ops.mix old rtt
      | none => rtt) }

def recordFailure (h : EndpointHealth R) (now : ℕ) : EndpointHealth R :=
  { h with failureCount := h.failureCount + 1, lastFailure := some now }

def markSwapAway (h : EndpointHealth R) (now : ℕ) : EndpointHealth R :=
  { h with lastSwapAway := some now }

/-- A round trip of it was timed or a probe of it failed. -/
def measured (h : EndpointHealth R) : Prop := h.rttEwma.isSome ∨ 0 < h.failureCount

instance (h : EndpointHealth R) : Decidable h.measured := inferInstanceAs (Decidable (_ ∨ _))

/-- A swap away that still counts. -/
def Oscillating (h : EndpointHealth R) (now : ℕ) : Prop :=
  ∃ t ∈ h.lastSwapAway, now - t < oscillationWindow

instance (h : EndpointHealth R) (now : ℕ) : Decidable (h.Oscillating now) :=
  match hswap : h.lastSwapAway with
  | none => isFalse (by rw [Oscillating, hswap]; exact fun ⟨_, ht, _⟩ ↦ nomatch ht)
  | some t =>
    if hlt : now - t < oscillationWindow then isTrue ⟨t, hswap, hlt⟩
    else isFalse (by
      rintro ⟨t', ht', hlt'⟩
      obtain rfl := Option.some.inj (hswap.symm.trans ht')
      exact hlt hlt')

/-- `TransportScorer::score`. -/
def score (isLocal : Bool) (now : ℕ) (h : EndpointHealth R) : ℤ :=
  let locality := if isLocal ∧ h.kind = .uds then localityBonusUds else 0
  let robustness := match h.kind with
    | .uds => robustnessUds
    | .quic => robustnessQuic
    | .tcpTls => robustnessTcpTls
    | .tcp => robustnessTcpTls - 5
  let latency := (h.rttEwma.map ops.toMs).getD latencyUnknownMs
  let failures :=
    if 0 < h.failureCount ∧ (h.lastFailure.any fun t ↦ now - t < failureWindow) then
      h.failureCount * failurePenaltyPer
    else 0
  let oscillation := if h.Oscillating now then oscillationPenalty else 0
  locality + robustness + h.serverPriority - latency - failures - oscillation

end EndpointHealth

/-- The scores with the places of their endpoints, best first. The sort is stable. -/
def rank {R : Type} (ops : RttOps R) (isLocal : Bool) (now : ℕ)
    (endpoints : List (EndpointHealth R)) : List (ℤ × ℕ) :=
  (endpoints.zipIdx.map fun (h, i) ↦ (h.score ops isLocal now, i)).insertionSort
    fun a b ↦ b.1 ≤ a.1

/-! ## The loop -/

inductive SupervisorPc
  | starting
  | waiting
  /-- After a swap of its own, until this time. -/
  | sleeping (until_ : ℕ)
  | stopped
  deriving DecidableEq, Repr

structure TransportSupervisor (R : Type) where
  endpoints : List (EndpointHealth R)
  active : TransportKind
  isLocal : Bool
  forced : Option TransportKind
  pc : SupervisorPc
  now : ℕ
  /-- The receiver of the signals is gone. -/
  upgradeClosed : Bool
  /-- The signals that were sent. -/
  signals : List TransportKind

/-- How a probe goes, and how long it takes. -/
structure ProbeOutcome where
  succeeds : Bool
  took : ℕ
  deriving DecidableEq, Repr

inductive TransportEvent (R : Type)
  | elapse (nanos : ℕ)
  | start (probe : ProbeOutcome)
  | tick (probe : ProbeOutcome)
  | override (target : Option TransportKind) (probe : ProbeOutcome)
  | rtt (kind : TransportKind) (rtt : R)
  | dropUpgrades

/-- `iter_mut().find`, and a change. -/
def modifyFirst {α : Type} (p : α → Bool) (f : α → α) : List α → List α
  | [] => []
  | a :: as => if p a then f a :: as else a :: modifyFirst p f as

namespace TransportSupervisor

variable {R : Type} (ops : RttOps R)

def new (adverts : List EndpointAdvert) (active : TransportKind) (isLocal : Bool)
    (forced : Option TransportKind) (now : ℕ) : TransportSupervisor R where
  endpoints := adverts.map EndpointHealth.new
  active
  isLocal
  forced
  pc := .starting
  now
  upgradeClosed := false
  signals := []

def score (s : TransportSupervisor R) (h : EndpointHealth R) : ℤ := h.score ops s.isLocal s.now

def applyRtt (s : TransportSupervisor R) (kind : TransportKind) (rtt : R) :
    TransportSupervisor R :=
  { s with endpoints := modifyFirst (fun h ↦ h.kind = kind) (·.recordRtt ops rtt) s.endpoints }

/-- The probe of `kind` got through: the old transport is marked and the switch is signalled. -/
def swapTo (s : TransportSupervisor R) (kind : TransportKind) : TransportSupervisor R :=
  { s with
    endpoints := modifyFirst (fun h ↦ h.kind = s.active) (·.markSwapAway s.now) s.endpoints
    active := kind
    signals := if s.upgradeClosed then s.signals else s.signals ++ [kind] }

/-- The probe of an endpoint failed. -/
def probeFailed (s : TransportSupervisor R) (idx : ℕ) : TransportSupervisor R :=
  { s with endpoints := s.endpoints.modify idx (·.recordFailure s.now) }

def passed (s : TransportSupervisor R) (nanos : ℕ) : TransportSupervisor R :=
  { s with now := s.now + nanos }

def ensureActive (s : TransportSupervisor R) (kind : TransportKind) (probe : ProbeOutcome) :
    TransportSupervisor R :=
  if s.active = kind then s
  else
    match s.endpoints.findIdx? fun h ↦ h.kind = kind with
    | none => s
    | some idx =>
      if probe.succeeds then (s.passed probe.took).swapTo kind
      else (s.passed probe.took).probeFailed idx

/-- The best endpoint that is not in use. -/
def candidate (s : TransportSupervisor R) : Option (ℕ × EndpointHealth R) :=
  ((rank ops s.isLocal s.now s.endpoints).find? fun (_, i) ↦
      s.endpoints[i]?.any fun h ↦ h.kind ≠ s.active).bind fun (_, i) ↦
    s.endpoints[i]?.map fun h ↦ (i, h)

/-- A candidate is passed over once it is measured and scores no better than the active one. -/
def skips (s : TransportSupervisor R) (h : EndpointHealth R) : Bool :=
  (s.endpoints.find? fun a ↦ a.kind = s.active).any fun a ↦
    decide (h.measured ∧ s.score ops h ≤ s.score ops a)

/-- A round of the loop with no override. -/
def heuristic (s : TransportSupervisor R) (probe : ProbeOutcome) : TransportSupervisor R :=
  match s.candidate ops with
  | none => s
  | some (idx, h) =>
    if s.skips ops h then s
    else if probe.succeeds then
      let s := (s.passed probe.took).swapTo h.kind
      if s.upgradeClosed then { s with pc := .stopped }
      else { s with pc := .sleeping (s.now + probeInterval * 2) }
    else (s.passed probe.took).probeFailed idx

/-- What follows a wake-up. -/
def wake (s : TransportSupervisor R) (probe : ProbeOutcome) : TransportSupervisor R :=
  if s.upgradeClosed then { s with pc := .stopped }
  else
    match s.forced with
    | some kind => s.ensureActive kind probe
    | none => s.heuristic ops probe

/-- The loop waits for something to do. -/
def awake (s : TransportSupervisor R) : Bool :=
  match s.pc with
  | .waiting => true
  | .sleeping u => decide (u ≤ s.now)
  | .starting => false
  | .stopped => false

def step (s : TransportSupervisor R) : TransportEvent R → TransportSupervisor R
  | .elapse nanos => s.passed nanos
  | .dropUpgrades => { s with upgradeClosed := true }
  | .start probe =>
    if s.pc = .starting then
      match s.forced with
      | some kind => { s.ensureActive kind probe with pc := .waiting }
      | none => { s with pc := .waiting }
    else s
  | .tick probe => if s.awake then s.wake ops probe else s
  | .override target probe => if s.awake then wake ops { s with forced := target } probe else s
  | .rtt kind rtt => if s.awake then s.applyRtt ops kind rtt else s

def run (s : TransportSupervisor R) (es : List (TransportEvent R)) : TransportSupervisor R :=
  Run.exec (step ops) s es

end TransportSupervisor

/-! ## Changes of the endpoints -/

section Endpoints

variable {α : Type} {p : α → Bool} {f : α → α}

theorem modifyFirst_map {β : Type} {g : α → β} (hg : ∀ a, g (f a) = g a) (as : List α) :
    (modifyFirst p f as).map g = as.map g := by
  induction as with
  | nil => rfl
  | cons a as ih =>
    rw [modifyFirst]
    split_ifs
    · rw [List.map_cons, List.map_cons, hg]
    · rw [List.map_cons, List.map_cons, ih]

theorem mem_modifyFirst {a : α} {as : List α} (ha : a ∈ modifyFirst p f as) :
    a ∈ as ∨ ∃ b ∈ as, p b ∧ a = f b := by
  induction as with
  | nil => cases ha
  | cons b as ih =>
    rw [modifyFirst] at ha
    split_ifs at ha with hb
    · rcases List.mem_cons.mp ha with rfl | ha
      · exact Or.inr ⟨b, List.mem_cons_self, hb, rfl⟩
      · exact Or.inl (List.mem_cons_of_mem b ha)
    · rcases List.mem_cons.mp ha with rfl | ha
      · exact Or.inl List.mem_cons_self
      · rcases ih ha with ha | ⟨c, hc, hpc, rfl⟩
        · exact Or.inl (List.mem_cons_of_mem b ha)
        · exact Or.inr ⟨c, List.mem_cons_of_mem b hc, hpc, rfl⟩

end Endpoints

/-! ## The ranking -/

section Ranking

variable {R : Type} {ops : RttOps R} {isLocal : Bool} {now : ℕ}
  {endpoints : List (EndpointHealth R)}

theorem mem_rank {score : ℤ} {i : ℕ} : (score, i) ∈ rank ops isLocal now endpoints ↔
    ∃ h, endpoints[i]? = some h ∧ h.score ops isLocal now = score := by
  rw [rank, List.mem_insertionSort, List.mem_map]
  constructor
  · rintro ⟨⟨h, j⟩, hmem, heq⟩
    obtain ⟨rfl, rfl⟩ := Prod.mk.inj heq
    exact ⟨h, List.mk_mem_zipIdx_iff_getElem?.mp hmem, rfl⟩
  · rintro ⟨h, hget, rfl⟩
    exact ⟨(h, i), List.mk_mem_zipIdx_iff_getElem?.mpr hget, rfl⟩

theorem rank_sorted (ops : RttOps R) (isLocal : Bool) (now : ℕ)
    (endpoints : List (EndpointHealth R)) :
    (rank ops isLocal now endpoints).Pairwise fun a b ↦ b.1 ≤ a.1 := by
  have : Std.Total fun a b : ℤ × ℕ ↦ b.1 ≤ a.1 := ⟨fun a b ↦ le_total b.1 a.1⟩
  have : IsTrans (ℤ × ℕ) fun a b ↦ b.1 ≤ a.1 := ⟨fun _ _ _ hab hbc ↦ le_trans hbc hab⟩
  exact List.pairwise_insertionSort _ _

/-- The first entry that will do has the best score of all that will do. -/
theorem rank_find {p : ℕ → Bool} {score : ℤ} {i : ℕ}
    (hfind : (rank ops isLocal now endpoints).find? (fun e ↦ p e.2) = some (score, i)) :
    p i ∧ (∃ h, endpoints[i]? = some h ∧ h.score ops isLocal now = score) ∧
      ∀ j h, endpoints[j]? = some h → p j → h.score ops isLocal now ≤ score := by
  obtain ⟨hp, before, after, hrank, hbefore⟩ := List.find?_eq_some_iff_append.mp hfind
  have hmem : (score, i) ∈ rank ops isLocal now endpoints := by
    rw [hrank]
    exact List.mem_append_right _ List.mem_cons_self
  refine ⟨hp, mem_rank.mp hmem, fun j h hget hj ↦ ?_⟩
  have hj' : (h.score ops isLocal now, j) ∈ before ++ (score, i) :: after := by
    rw [← hrank]
    exact mem_rank.mpr ⟨h, hget, rfl⟩
  have hsorted := rank_sorted ops isLocal now endpoints
  rw [hrank] at hsorted
  rcases List.mem_append.mp hj' with hj' | hj'
  · have hnot := hbefore _ hj'
    rw [Bool.not_eq_true'] at hnot
    rw [hnot] at hj
    cases hj
  · rcases List.mem_cons.mp hj' with heq | hj'
    · rw [(Prod.mk.inj heq).1]
    · exact List.rel_of_pairwise_cons (List.pairwise_append.mp hsorted).2.1 hj'

end Ranking

/-! ## What a round does -/

namespace TransportSupervisor

section Rounds

variable {R : Type} {ops : RttOps R} {s : TransportSupervisor R} {probe : ProbeOutcome}

/-- What the supervisor may do with a candidate of its own: its kind is not in use, no endpoint that
is not in use scores better, and it scores better than the one in use unless it is yet to be
measured or the one in use is not among the endpoints. -/
structure Preferred (ops : RttOps R) (s : TransportSupervisor R) (h : EndpointHealth R) : Prop where
  mem : h ∈ s.endpoints
  inactive : h.kind ≠ s.active
  best : ∀ other ∈ s.endpoints, other.kind ≠ s.active → s.score ops other ≤ s.score ops h
  better : ∀ a, (s.endpoints.find? fun a ↦ a.kind = s.active) = some a →
    h.measured → s.score ops a < s.score ops h

theorem candidate_spec {idx : ℕ} {h : EndpointHealth R} (hcand : s.candidate ops = some (idx, h)) :
    h ∈ s.endpoints ∧ h.kind ≠ s.active ∧
      ∀ other ∈ s.endpoints, other.kind ≠ s.active → s.score ops other ≤ s.score ops h := by
  rw [candidate] at hcand
  obtain ⟨⟨value, i⟩, hfind, hplace⟩ := Option.bind_eq_some_iff.mp hcand
  obtain ⟨h', hget, heq⟩ := Option.map_eq_some_iff.mp hplace
  obtain ⟨rfl, rfl⟩ := Prod.mk.inj heq
  obtain ⟨hp, ⟨h'', hget', hscore⟩, hbest⟩ := rank_find
    (p := fun i ↦ s.endpoints[i]?.any fun h ↦ h.kind ≠ s.active) hfind
  obtain rfl := Option.some.inj (hget.symm.trans hget')
  rw [hget, Option.any_some] at hp
  refine ⟨List.mem_of_getElem? hget, of_decide_eq_true hp, fun other hother hne ↦ ?_⟩
  obtain ⟨j, hj⟩ := List.getElem?_of_mem hother
  rw [score, score, hscore]
  refine hbest j other hj ?_
  rw [hj, Option.any_some]
  exact decide_eq_true hne

theorem preferred_of_candidate {idx : ℕ} {h : EndpointHealth R}
    (hcand : s.candidate ops = some (idx, h)) (hskip : s.skips ops h = false) :
    Preferred ops s h := by
  obtain ⟨hmem, hinactive, hbest⟩ := candidate_spec hcand
  refine ⟨hmem, hinactive, hbest, fun a ha hmeasured ↦ ?_⟩
  rw [skips, ha, Option.any_some] at hskip
  exact not_le.mp fun hle ↦ of_decide_eq_false hskip ⟨hmeasured, hle⟩

/-- What no round changes. -/
structure Frame (s s' : TransportSupervisor R) : Prop where
  isLocal : s'.isLocal = s.isLocal
  upgradeClosed : s'.upgradeClosed = s.upgradeClosed
  kinds : s'.endpoints.map EndpointHealth.kind = s.endpoints.map EndpointHealth.kind

theorem Frame.refl (s : TransportSupervisor R) : Frame s s := ⟨rfl, rfl, rfl⟩

def Stays (s s' : TransportSupervisor R) : Prop := s'.active = s.active ∧ s'.signals = s.signals

/-- A switch to another transport, which is signalled while there is someone to hear of it. -/
structure Swaps (s s' : TransportSupervisor R) (kind : TransportKind) : Prop where
  inactive : kind ≠ s.active
  known : kind ∈ s.endpoints.map EndpointHealth.kind
  active : s'.active = kind
  signals : s'.signals = if s.upgradeClosed then s.signals else s.signals ++ [kind]

theorem frame_swapTo (s : TransportSupervisor R) (nanos : ℕ) (kind : TransportKind) :
    Frame s ((s.passed nanos).swapTo kind) :=
  ⟨rfl, rfl, modifyFirst_map (g := EndpointHealth.kind)
    (f := fun h ↦ h.markSwapAway (s.now + nanos)) (fun _ ↦ rfl) _⟩

theorem frame_probeFailed (s : TransportSupervisor R) (nanos idx : ℕ) :
    Frame s ((s.passed nanos).probeFailed idx) := by
  refine ⟨rfl, rfl, ?_⟩
  refine List.ext_getElem? fun i ↦ ?_
  rw [List.getElem?_map, List.getElem?_map]
  dsimp only [probeFailed, passed]
  rw [List.getElem?_modify, Option.map_eq_map, Option.map_map]
  refine Option.map_congr fun h _ ↦ ?_
  dsimp only [Function.comp]
  split_ifs <;> rfl

/-- An override is followed, and nothing else. -/
theorem ensureActive_spec (s : TransportSupervisor R) (kind : TransportKind)
    (probe : ProbeOutcome) :
    Frame s (s.ensureActive kind probe) ∧ (s.ensureActive kind probe).forced = s.forced ∧
      (Stays s (s.ensureActive kind probe) ∨ Swaps s (s.ensureActive kind probe) kind) := by
  rw [ensureActive]
  by_cases hactive : s.active = kind
  · rw [if_pos hactive]
    exact ⟨Frame.refl s, rfl, Or.inl ⟨rfl, rfl⟩⟩
  · rw [if_neg hactive]
    split
    · exact ⟨Frame.refl s, rfl, Or.inl ⟨rfl, rfl⟩⟩
    · next idx hidx =>
      obtain ⟨hlt, hkind, -⟩ := List.findIdx?_eq_some_iff_getElem.mp hidx
      have hmem : kind ∈ s.endpoints.map EndpointHealth.kind :=
        List.mem_map.mpr ⟨s.endpoints[idx], List.getElem_mem hlt, of_decide_eq_true hkind⟩
      split_ifs
      · exact ⟨frame_swapTo s _ kind, rfl, Or.inr ⟨Ne.symm hactive, hmem, rfl, rfl⟩⟩
      · exact ⟨frame_probeFailed s _ idx, rfl, Or.inl ⟨rfl, rfl⟩⟩

/-- Without an override the switch is to the preferred endpoint. -/
theorem heuristic_spec (ops : RttOps R) (s : TransportSupervisor R) (probe : ProbeOutcome) :
    Frame s (s.heuristic ops probe) ∧ (s.heuristic ops probe).forced = s.forced ∧
      (Stays s (s.heuristic ops probe) ∨
        ∃ h, Preferred ops s h ∧ Swaps s (s.heuristic ops probe) h.kind) := by
  rw [heuristic]
  rcases hcand : s.candidate ops with _ | ⟨idx, h⟩
  · exact ⟨Frame.refl s, rfl, Or.inl ⟨rfl, rfl⟩⟩
  · dsimp only
    split_ifs with hskip hok hclosed
    · exact ⟨Frame.refl s, rfl, Or.inl ⟨rfl, rfl⟩⟩
    · obtain ⟨hlocal, hup, hkinds⟩ := frame_swapTo s probe.took h.kind
      have hpref := preferred_of_candidate hcand (Bool.eq_false_of_not_eq_true hskip)
      exact ⟨⟨hlocal, hup, hkinds⟩, rfl, Or.inr ⟨h, hpref, hpref.inactive,
        List.mem_map.mpr ⟨h, hpref.mem, rfl⟩, rfl, rfl⟩⟩
    · obtain ⟨hlocal, hup, hkinds⟩ := frame_swapTo s probe.took h.kind
      have hpref := preferred_of_candidate hcand (Bool.eq_false_of_not_eq_true hskip)
      exact ⟨⟨hlocal, hup, hkinds⟩, rfl, Or.inr ⟨h, hpref, hpref.inactive,
        List.mem_map.mpr ⟨h, hpref.mem, rfl⟩, rfl, rfl⟩⟩
    · exact ⟨frame_probeFailed s _ idx, rfl, Or.inl ⟨rfl, rfl⟩⟩

/-- Why a switch is made: the override says so, or there is none and the endpoint is preferred. -/
def Reason (ops : RttOps R) (s : TransportSupervisor R) (forced : Option TransportKind)
    (kind : TransportKind) : Prop :=
  forced = some kind ∨ forced = none ∧ ∃ h, Preferred ops s h ∧ h.kind = kind

theorem wake_spec (ops : RttOps R) (s : TransportSupervisor R) (probe : ProbeOutcome) :
    Frame s (s.wake ops probe) ∧ (s.wake ops probe).forced = s.forced ∧
      (Stays s (s.wake ops probe) ∨
        ∃ kind, Reason ops s s.forced kind ∧ Swaps s (s.wake ops probe) kind) := by
  rw [wake]
  split_ifs
  · exact ⟨⟨rfl, rfl, rfl⟩, rfl, Or.inl ⟨rfl, rfl⟩⟩
  · rcases hforced : s.forced with _ | kind
    · obtain ⟨hframe, hsame, hstays | ⟨h, hpref, hswaps⟩⟩ := heuristic_spec ops s probe
      · exact ⟨hframe, hsame.trans hforced, Or.inl hstays⟩
      · exact ⟨hframe, hsame.trans hforced,
          Or.inr ⟨h.kind, Or.inr ⟨rfl, h, hpref, rfl⟩, hswaps⟩⟩
    · obtain ⟨hframe, hsame, hmove⟩ := ensureActive_spec s kind probe
      exact ⟨hframe, hsame.trans hforced,
        hmove.imp_right fun hswaps ↦ ⟨kind, Or.inl rfl, hswaps⟩⟩

/-- What an event does. The override after it is the one before, but for an override that is taken
up. -/
theorem step_spec (ops : RttOps R) (s : TransportSupervisor R) (e : TransportEvent R) :
    ((s.step ops e).upgradeClosed = false → s.upgradeClosed = false) ∧
      (s.step ops e).endpoints.map EndpointHealth.kind = s.endpoints.map EndpointHealth.kind ∧
      ((∀ target probe, e ≠ .override target probe) → (s.step ops e).forced = s.forced) ∧
      (Stays s (s.step ops e) ∨
        ∃ kind, Reason ops s (s.step ops e).forced kind ∧ Swaps s (s.step ops e) kind) := by
  match e with
  | .elapse _ => exact ⟨id, rfl, fun _ ↦ rfl, Or.inl ⟨rfl, rfl⟩⟩
  | .dropUpgrades => exact ⟨nofun, rfl, fun _ ↦ rfl, Or.inl ⟨rfl, rfl⟩⟩
  | .rtt kind rtt =>
    rw [step]
    split_ifs
    · exact ⟨id, modifyFirst_map (g := EndpointHealth.kind) (f := fun h ↦ h.recordRtt ops rtt)
        (fun _ ↦ rfl) _, fun _ ↦ rfl, Or.inl ⟨rfl, rfl⟩⟩
    · exact ⟨id, rfl, fun _ ↦ rfl, Or.inl ⟨rfl, rfl⟩⟩
  | .start probe =>
    rw [step.eq_def]
    dsimp only
    split_ifs
    · rcases hforced : s.forced with _ | kind
      · exact ⟨id, rfl, fun _ ↦ rfl, Or.inl ⟨rfl, rfl⟩⟩
      · obtain ⟨⟨-, hup, hkinds⟩, hsame, hmove⟩ := ensureActive_spec s kind probe
        refine ⟨fun h ↦ hup ▸ h, hkinds, fun _ ↦ hsame.trans hforced, ?_⟩
        rcases hmove with ⟨hactive, hsignals⟩ | ⟨hinactive, hknown, hactive, hsignals⟩
        · exact Or.inl ⟨hactive, hsignals⟩
        · exact Or.inr ⟨kind, Or.inl (hsame.trans hforced), hinactive, hknown, hactive, hsignals⟩
    · exact ⟨id, rfl, fun _ ↦ rfl, Or.inl ⟨rfl, rfl⟩⟩
  | .tick probe =>
    rw [step]
    split_ifs
    · obtain ⟨⟨-, hup, hkinds⟩, hsame, hmove⟩ := wake_spec ops s probe
      rw [hsame]
      exact ⟨fun h ↦ hup ▸ h, hkinds, fun _ ↦ rfl, hmove⟩
    · exact ⟨id, rfl, fun _ ↦ rfl, Or.inl ⟨rfl, rfl⟩⟩
  | .override target probe =>
    rw [step]
    split_ifs
    · obtain ⟨⟨-, hup, hkinds⟩, hsame, hmove⟩ := wake_spec ops { s with forced := target } probe
      rw [hsame]
      refine ⟨fun h ↦ hup ▸ h, hkinds, fun h ↦ absurd rfl (h target probe), ?_⟩
      rcases hmove with hstays | ⟨kind, hreason, ⟨hinactive, hknown, hactive, hsignals⟩⟩
      · exact Or.inl hstays
      · refine Or.inr ⟨kind, ?_, hinactive, hknown, hactive, hsignals⟩
        rcases hreason with hreason | ⟨hnone, h, hpref, hkind⟩
        · exact Or.inl hreason
        · exact Or.inr ⟨hnone, h, ⟨hpref.mem, hpref.inactive, hpref.best, hpref.better⟩, hkind⟩
    · exact ⟨id, rfl, fun _ ↦ rfl, Or.inl ⟨rfl, rfl⟩⟩

end Rounds

/-! ## Signals -/

section Signals

variable {R : Type} {ops : RttOps R} {s : TransportSupervisor R} {initial : TransportKind}
  {adverts : List EndpointAdvert}

/-- What the signals say about the supervisor: while someone hears them, the transport it takes for
active is the last one signalled, or the one it began with; no signal repeats the one before; and
each is for an advertised transport. -/
structure Agrees (adverts : List EndpointAdvert) (initial : TransportKind)
    (s : TransportSupervisor R) : Prop where
  kinds : s.endpoints.map EndpointHealth.kind = adverts.map EndpointAdvert.kind
  current : s.upgradeClosed = false → s.active = s.signals.getLastD initial
  changes : (initial :: s.signals).IsChain (· ≠ ·)
  known : ∀ kind ∈ s.signals, kind ∈ adverts.map EndpointAdvert.kind

theorem agrees_new (adverts : List EndpointAdvert) (initial : TransportKind) (isLocal : Bool)
    (forced : Option TransportKind) (now : ℕ) :
    (new adverts initial isLocal forced now : TransportSupervisor R).Agrees adverts initial := by
  refine ⟨?_, fun _ ↦ rfl, List.isChain_singleton _, nofun⟩
  rw [new, List.map_map]
  rfl

theorem Agrees.step (h : s.Agrees adverts initial) (e : TransportEvent R) :
    (s.step ops e).Agrees adverts initial := by
  obtain ⟨hopen, hkinds, -, hmove⟩ := step_spec ops s e
  refine ⟨hkinds.trans h.kinds, ?_, ?_, ?_⟩
  · intro hclosed
    rcases hmove with ⟨hactive, hsignals⟩ | ⟨kind, -, hswaps⟩
    · rw [hactive, hsignals]
      exact h.current (hopen hclosed)
    · rw [hswaps.active, hswaps.signals, if_neg (by rw [hopen hclosed]; exact Bool.false_ne_true),
        List.getLastD_concat]
  · rcases hmove with ⟨-, hsignals⟩ | ⟨kind, -, hswaps⟩
    · rw [hsignals]
      exact h.changes
    · rw [hswaps.signals]
      split_ifs with hclosed
      · exact h.changes
      · have hcurrent := h.current (Bool.eq_false_of_not_eq_true hclosed)
        rw [← List.cons_append]
        refine List.isChain_append.mpr ⟨h.changes, List.isChain_singleton _, ?_⟩
        intro a ha b hb
        obtain rfl : kind = b := by simpa using hb
        rw [List.getLast?_cons, Option.mem_some_iff] at ha
        rw [← ha, ← List.getLastD_eq_getLast?, ← hcurrent]
        exact hswaps.inactive.symm
  · rcases hmove with ⟨-, hsignals⟩ | ⟨kind, -, hswaps⟩
    · rw [hsignals]
      exact h.known
    · rw [hswaps.signals]
      split_ifs with hclosed
      · exact h.known
      · intro kind' hkind'
        rcases List.mem_append.mp hkind' with hkind' | hkind'
        · exact h.known kind' hkind'
        · rw [List.mem_singleton.mp hkind', ← h.kinds]
          exact hswaps.known

theorem agrees_run (adverts : List EndpointAdvert) (initial : TransportKind) (isLocal : Bool)
    (forced : Option TransportKind) (now : ℕ) (es : List (TransportEvent R)) :
    (run ops (new adverts initial isLocal forced now) es).Agrees adverts initial :=
  Run.invariant (fun _ e h ↦ h.step e) es _ (agrees_new adverts initial isLocal forced now)

/-- **What is signalled, and why.** Over every run, the supervisor and whoever hears its signals
agree on the active transport, and a signal is sent only for a change: to the transport an override
names, or with no override in force to an advertised one that scores best of those not in use, and
better than the one in use once it has been measured. -/
theorem signals_of_run (ops : RttOps R) (adverts : List EndpointAdvert) (initial : TransportKind)
    (isLocal : Bool) (forced : Option TransportKind) (now : ℕ) (es : List (TransportEvent R)) :
    let s := run ops (new adverts initial isLocal forced now) es
    s.Agrees adverts initial ∧ ∀ e, Stays s (s.step ops e) ∨
      ∃ kind, Reason ops s (s.step ops e).forced kind ∧ Swaps s (s.step ops e) kind :=
  ⟨agrees_run adverts initial isLocal forced now es, fun e ↦ (step_spec ops _ e).2.2.2⟩

/-- Not an override. -/
def TransportEvent.Plain (e : TransportEvent R) : Prop := ∀ target probe, e ≠ .override target probe

/-- **An override pins the transport.** Until the next one, whatever is measured and probed, there
is at most one more signal, it is for the transport the override names, and with it that transport
is active and stays so. -/
theorem override_pins {kind : TransportKind} (hforced : s.forced = some kind)
    (es : List (TransportEvent R)) (hes : ∀ e ∈ es, TransportEvent.Plain e) :
    (run ops s es).forced = some kind ∧
      (Stays s (run ops s es) ∨ s.active ≠ kind ∧ (run ops s es).active = kind ∧
        ((run ops s es).signals = s.signals ∨ (run ops s es).signals = s.signals ++ [kind])) := by
  induction es generalizing s with
  | nil => exact ⟨hforced, Or.inl ⟨rfl, rfl⟩⟩
  | cons e es ih =>
    obtain ⟨-, -, hsame, hmove⟩ := step_spec ops s e
    have hforced' : (s.step ops e).forced = some kind :=
      (hsame (hes e List.mem_cons_self)).trans hforced
    obtain ⟨hend, hrest⟩ := ih hforced' fun e' he' ↦ hes e' (List.mem_cons_of_mem e he')
    refine ⟨hend, ?_⟩
    rcases hmove with ⟨hactive, hsignals⟩ | ⟨kind', hreason, hswaps⟩
    · rw [Stays, hactive, hsignals] at hrest
      exact hrest
    · -- the switch is to the transport that is pinned, and nothing switches away from it
      obtain rfl : kind = kind' := by
        rcases hreason with hreason | ⟨hnone, -⟩
        · exact Option.some.inj (hforced'.symm.trans hreason)
        · cases hforced'.symm.trans hnone
      rcases hrest with ⟨hactive, hsignals⟩ | ⟨hne, -, -⟩
      · refine Or.inr ⟨hswaps.inactive.symm, hactive.trans hswaps.active, ?_⟩
        have hrun : run ops s (e :: es) = run ops (s.step ops e) es := rfl
        rw [hrun, hsignals, hswaps.signals]
        split_ifs
        · exact Or.inl rfl
        · exact Or.inr rfl
      · exact absurd hswaps.active hne

end Signals

/-! ## The penalty for swapping back -/

section Oscillation

variable {R : Type} {ops : RttOps R} {s : TransportSupervisor R}

/-- Every swap away is this far back. -/
def MarkedBefore (endpoints : List (EndpointHealth R)) (time : ℕ) : Prop :=
  ∀ h ∈ endpoints, ∀ t ∈ h.lastSwapAway, t + oscillationWindow ≤ time

/-- Without overrides, the marks of a supervisor that is awake have run out. -/
structure Settled (s : TransportSupervisor R) : Prop where
  auto : s.forced = none
  marks : match s.pc with
    | .stopped => True
    | .sleeping u => MarkedBefore s.endpoints u
    | .starting => MarkedBefore s.endpoints s.now
    | .waiting => MarkedBefore s.endpoints s.now

theorem MarkedBefore.mono {endpoints : List (EndpointHealth R)} {time time' : ℕ}
    (h : MarkedBefore endpoints time) (hle : time ≤ time') : MarkedBefore endpoints time' :=
  fun e he t ht ↦ (h e he t ht).trans hle

theorem MarkedBefore.modifyFirst {endpoints : List (EndpointHealth R)} {time : ℕ}
    {p : EndpointHealth R → Bool} {f : EndpointHealth R → EndpointHealth R}
    (h : MarkedBefore endpoints time)
    (hf : ∀ e ∈ endpoints, ∀ t ∈ (f e).lastSwapAway, t + oscillationWindow ≤ time) :
    MarkedBefore (Transport.modifyFirst p f endpoints) time := by
  intro e he t ht
  rcases mem_modifyFirst he with he | ⟨e', he', -, rfl⟩
  · exact h e he t ht
  · exact hf e' he' t ht

theorem MarkedBefore.failure {endpoints : List (EndpointHealth R)} {time : ℕ}
    (h : MarkedBefore endpoints time) (idx now : ℕ) :
    MarkedBefore (endpoints.modify idx (·.recordFailure now)) time := by
  intro e he t ht
  obtain ⟨i, hi⟩ := List.getElem?_of_mem he
  rw [List.getElem?_modify] at hi
  obtain ⟨e', he', rfl⟩ := Option.map_eq_some_iff.mp hi
  refine h e' (List.mem_of_getElem? he') t ?_
  split_ifs at ht <;> exact ht

/-- Awake, without overrides: every mark has run out. -/
theorem Settled.marks_of_awake (h : s.Settled) (hawake : s.awake) :
    MarkedBefore s.endpoints s.now := by
  have hmarks := h.marks
  rw [awake] at hawake
  rcases hpc : s.pc with _ | _ | u | _
  · rw [hpc] at hawake
    cases hawake
  · rw [hpc] at hmarks
    exact hmarks
  · rw [hpc] at hawake hmarks
    exact hmarks.mono (of_decide_eq_true hawake)
  · rw [hpc] at hawake
    cases hawake

/-- A round marks the transport it leaves and then sleeps for as long as the mark counts. -/
theorem Settled.heuristic (h : s.Settled) (hawake : s.awake) (probe : ProbeOutcome) :
    (s.heuristic ops probe).Settled := by
  have hmarks := h.marks_of_awake hawake
  rw [TransportSupervisor.heuristic]
  rcases s.candidate ops with _ | ⟨idx, ep⟩
  · exact h
  · dsimp only
    split_ifs
    · exact h
    · exact ⟨h.auto, trivial⟩
    · refine ⟨h.auto, MarkedBefore.modifyFirst ?_ fun e _ t ht ↦ ?_⟩
      · exact hmarks.mono (Nat.le_add_right_of_le (Nat.le_add_right _ _))
      · obtain rfl := Option.some.inj ht
        exact le_rfl
    · refine ⟨h.auto, ?_⟩
      have hlater := (hmarks.mono (Nat.le_add_right s.now probe.took)).failure idx
        (s.now + probe.took)
      rw [awake] at hawake
      dsimp only [probeFailed, passed]
      rcases hpc : s.pc with _ | _ | u | _
      · rw [hpc] at hawake
        cases hawake
      · exact hlater
      · have hold := h.marks
        rw [hpc] at hold
        exact MarkedBefore.failure hold idx _
      · trivial

theorem Settled.step (h : s.Settled) (e : TransportEvent R)
    (he : ∀ kind probe, e ≠ .override (some kind) probe) : (s.step ops e).Settled := by
  have hwake : ∀ (s : TransportSupervisor R) (probe : ProbeOutcome), s.Settled → s.awake →
      (s.wake ops probe).Settled := by
    intro s probe h hawake
    rw [wake]
    split_ifs
    · exact ⟨h.auto, trivial⟩
    · rw [h.auto]
      exact h.heuristic hawake probe
  match e with
  | .elapse nanos =>
    refine ⟨h.auto, ?_⟩
    have hmarks := h.marks
    dsimp only [TransportSupervisor.step, passed]
    rcases hpc : s.pc with _ | _ | u | _
    · rw [hpc] at hmarks
      exact MarkedBefore.mono hmarks (Nat.le_add_right _ _)
    · rw [hpc] at hmarks
      exact MarkedBefore.mono hmarks (Nat.le_add_right _ _)
    · rw [hpc] at hmarks
      exact hmarks
    · trivial
  | .dropUpgrades => exact ⟨h.auto, h.marks⟩
  | .start probe =>
    rw [TransportSupervisor.step.eq_def]
    dsimp only
    split_ifs with hpc
    · have hmarks := h.marks
      rw [hpc] at hmarks
      rw [h.auto]
      exact ⟨rfl, hmarks⟩
    · exact h
  | .tick probe =>
    rw [TransportSupervisor.step]
    split_ifs with hawake
    · exact hwake s probe h hawake
    · exact h
  | .override target probe =>
    rw [TransportSupervisor.step]
    split_ifs with hawake
    · rcases target with _ | kind
      · exact hwake { s with forced := none } probe ⟨rfl, h.marks⟩ hawake
      · exact absurd rfl (he kind probe)
    · exact h
  | .rtt kind rtt =>
    rw [TransportSupervisor.step]
    split_ifs
    · refine ⟨h.auto, ?_⟩
      have hkeep : ∀ time, MarkedBefore s.endpoints time →
          MarkedBefore (s.applyRtt ops kind rtt).endpoints time :=
        fun time hmarks ↦ hmarks.modifyFirst hmarks
      have hmarks := h.marks
      dsimp only [applyRtt] at hkeep ⊢
      rcases hpc : s.pc with _ | _ | u | _
      · rw [hpc] at hmarks
        exact hkeep _ hmarks
      · rw [hpc] at hmarks
        exact hkeep _ hmarks
      · rw [hpc] at hmarks
        exact hkeep _ hmarks
      · trivial
    · exact h

/-- **The penalty for swapping back never applies to a swap of the scorer's own.** In a run without
overrides, whenever the supervisor ranks the endpoints, no swap away counts against any of them:
after a swap it sleeps for as long as the swap would count. -/
theorem no_oscillation_penalty (adverts : List EndpointAdvert) (initial : TransportKind)
    (isLocal : Bool) (now : ℕ) (es : List (TransportEvent R))
    (hes : ∀ e ∈ es, ∀ kind probe, e ≠ .override (some kind) probe) :
    let s := run ops (new adverts initial isLocal none now) es
    s.awake → ∀ h ∈ s.endpoints, ¬ h.Oscillating s.now := by
  intro s hawake h hh
  have hstart : (new adverts initial isLocal none now : TransportSupervisor R).Settled := by
    refine ⟨rfl, fun e he t ht ↦ ?_⟩
    obtain ⟨advert, -, rfl⟩ := List.mem_map.mp he
    cases ht
  have hok : Run.Ok (step ops) (fun _ e ↦ ∀ kind probe, e ≠ .override (some kind) probe)
      (new adverts initial isLocal none now) es :=
    (Run.ok_iff_forall _ _).mpr fun n e he ↦ hes e (List.mem_of_getElem? he)
  have hsettled : s.Settled := Run.invariant_of_ok (fun _ e h he ↦ h.step e he) es _ hstart hok
  rintro ⟨t, ht, hlt⟩
  have hpast := hsettled.marks_of_awake hawake h hh t ht
  omega

end Oscillation

/-! ## A swap -/

/-- Milliseconds, averaged. -/
def millis : RttOps ℤ := ⟨fun old rtt ↦ (old * 4 + rtt) / 5, id⟩

/-- A local daemon reached over TLS, with its socket advertised. -/
def overTls : TransportSupervisor ℤ :=
  new [⟨.tcpTls, "host:8443".toList⟩, ⟨.uds, "/run/kmux.sock".toList⟩] .tcpTls true none 0

/-- The socket is probed, and the switch is signalled. -/
def toSocket : List (TransportEvent ℤ) := [.start ⟨true, 0⟩, .tick ⟨true, seconds 1⟩]

example : (run millis overTls toSocket).signals = [.uds] := by decide

/-- The same with the socket asked for. -/
def overSocket : TransportSupervisor ℤ := { overTls with forced := some .uds }

theorem override_pins_tls :
    (run millis overSocket toSocket).forced = some .uds ∧
      (Stays overSocket (run millis overSocket toSocket) ∨
        TransportKind.tcpTls ≠ .uds ∧ (run millis overSocket toSocket).active = .uds ∧
          ((run millis overSocket toSocket).signals = [] ∨
            (run millis overSocket toSocket).signals = [] ++ [.uds])) := by
  refine override_pins (s := overSocket) rfl toSocket fun e he target p ↦ ?_
  rcases List.mem_cons.mp he with rfl | he
  · exact nofun
  · rw [List.mem_singleton.mp he]
    exact nofun

/-- The endpoint left behind, once the supervisor is awake again. -/
theorem no_oscillation_penalty_toSocket :
    ¬ ((run millis overTls (toSocket ++ [.elapse (seconds 60)])).endpoints.get
      ⟨0, by decide⟩).Oscillating (run millis overTls (toSocket ++ [.elapse (seconds 60)])).now := by
  refine no_oscillation_penalty _ _ _ _ _ (fun e he kind p ↦ ?_) (by decide) _ (List.get_mem _ _)
  simp only [toSocket, List.cons_append, List.nil_append, List.mem_cons, List.not_mem_nil, or_false]
    at he
  rcases he with rfl | rfl | rfl <;> exact nofun

end TransportSupervisor

end Kmux.Transport
