import Kmux.Daemon.ServerApp
import Kmux.VtCore.MockBackend
import Mathlib.Data.Finset.Card

/-!
# Registrations across resumes

A resumed connection has two channels alive at once, and both will run their cleanup. The registry
settles which of them removes the registration by its generation. `Registry` is the invariant behind
that: every generation of a registration was handed to one channel, the current generation belongs
to a channel that has not finished, and a registration that is gone was removed by the channel of
its newest one.

What an event can do to the registry is said once, in `Moved`; the invariant is then one lemma per
move.

A resume asks for the machine that made the registration, and for the daemon's run if the client
states one. A client older than run numbers states none and is let through, so the run is not always
checked, `not_registrations_of_unstated_run`.
-/

namespace Kmux

/-! ## Labels -/

theorem labelCandidate_injective (base : String) : Function.Injective (labelCandidate base) := by
  intro n m h
  have hlist : (labelCandidate base n).toList = (labelCandidate base m).toList := by rw [h]
  simp only [labelCandidate, String.toList_append, Nat.toString_eq_repr, Nat.toList_repr,
    List.append_assoc] at hlist
  have hdigits := List.append_cancel_left (List.append_cancel_left hlist)
  rw [← Nat.ofDigitChars_ten_toDigits (n := n), hdigits, Nat.ofDigitChars_ten_toDigits]

/-- A search that ends at a label in use has found every candidate in use. -/
theorem mem_of_searchLabel_mem {existing : List String} {base : String} {fuel n : ℕ}
    (h : searchLabel existing base fuel n ∈ existing) (k : ℕ) (hk : k ≤ fuel) :
    labelCandidate base (n + k) ∈ existing := by
  induction fuel generalizing n k with
  | zero =>
    obtain rfl : k = 0 := Nat.le_zero.mp hk
    exact h
  | succ fuel ih =>
    rw [searchLabel] at h
    by_cases hmem : labelCandidate base n ∈ existing
    · rw [if_pos hmem] at h
      cases k with
      | zero => exact hmem
      | succ k =>
        have hnext := ih h k (Nat.le_of_succ_le_succ hk)
        rwa [Nat.add_right_comm, Nat.add_assoc] at hnext
    · rw [if_neg hmem] at h
      exact absurd h hmem

/-- **The search succeeds.** There are more candidates than labels. -/
theorem searchLabel_notMem (existing : List String) (base : String) (n : ℕ) :
    searchLabel existing base existing.length n ∉ existing := by
  intro h
  have hsub : (Finset.range (existing.length + 1)).image (fun k ↦ labelCandidate base (n + k)) ⊆
      existing.toFinset := by
    intro label hlabel
    obtain ⟨k, hk, rfl⟩ := Finset.mem_image.mp hlabel
    rw [List.mem_toFinset]
    exact mem_of_searchLabel_mem h k (Nat.lt_succ_iff.mp (Finset.mem_range.mp hk))
  have hcard := (Finset.card_le_card hsub).trans (List.toFinset_card_le existing)
  rw [Finset.card_image_of_injective, Finset.card_range] at hcard
  · omega
  · exact fun k k' hkk' ↦ Nat.add_left_cancel (labelCandidate_injective base hkk')

/-- A new label is not in use. -/
theorem assignLabel_ne (hostname username : String) (conns : Connections) {k : ConnectionId}
    {state : ConnectionState} (hk : conns.lookup k = some state) :
    assignLabel hostname username conns ≠ state.label := by
  have hmem : state.label ∈ conns.values.map fun c ↦ c.label :=
    List.mem_map.mpr ⟨state, Table.mem_values.mpr ⟨k, hk⟩, rfl⟩
  intro heq
  rw [← heq, assignLabel] at hmem
  split at hmem
  next hfree => exact hfree hmem
  next => exact searchLabel_notMem _ _ _ hmem

/-! ## What an event does to the registry -/

namespace ServerApp

variable {B : Type*}

/-- The moves of the registry. The panes are left out. -/
inductive Moved (s s' : ServerApp B) : ServerEvent B → Prop
  | idle (e : ServerEvent B) (hconns : s'.connections = s.connections)
      (hchannels : s'.channels = s.channels)
      (hnext : s'.nextConnectionId = s.nextConnectionId) : Moved s s' e
  /-- A channel moves on without touching a registration. -/
  | phase (e : ServerEvent B) (ch : ChannelId) (phase : ChannelPhase)
      (hreg : phase.reg? = (s.channels ch).reg?) (hdrawn : phase.drawn? = none)
      (hdrawn' : (s.channels ch).drawn? = none)
      (hended : ∀ reg released, phase ≠ .ended reg released)
      (hended' : ∀ reg released, s.channels ch ≠ .ended reg released)
      (hconns : s'.connections = s.connections)
      (hchannels : s'.channels = Function.update s.channels ch phase)
      (hnext : s'.nextConnectionId = s.nextConnectionId) : Moved s s' e
  | resumed (ch : ChannelId) (transport : TransportKind) (resumeFrom : ResumeFrom)
      (identity : ClientIdentity) (state : ConnectionState) (reg : RegisteredClient)
      (hch : s.channels ch = .unauthenticated)
      (hrun : ∀ run, resumeFrom.instanceId = some run → run = s.instanceId)
      (hstate : s.connections.lookup resumeFrom.connectionId = some state)
      (hmachine : state.machineId = identity.machineId)
      (hreg : reg.connectionId = resumeFrom.connectionId ∧
        reg.generation = state.generation + 1)
      (hconns : s'.connections = s.connections.insert resumeFrom.connectionId
        { state with transport, generation := state.generation + 1 })
      (hchannels : s'.channels = Function.update s.channels ch (.live reg))
      (hnext : s'.nextConnectionId = s.nextConnectionId) :
      Moved s s' (.register ch transport (some resumeFrom) identity)
  | drawn (ch : ChannelId) (r : Registering) (clientId : ClientId)
      (hch : s.channels ch = .hasClient r clientId) (hconns : s'.connections = s.connections)
      (hchannels : s'.channels =
        Function.update s.channels ch (.hasIds r clientId s.nextConnectionId))
      (hnext : s'.nextConnectionId = s.nextConnectionId + 1) : Moved s s' (.drawConnectionId ch)
  | inserted (ch : ChannelId) (r : Registering) (clientId : ClientId) (k : ConnectionId)
      (state : ConnectionState) (reg : RegisteredClient)
      (hch : s.channels ch = .hasIds r clientId k)
      (hlabel : ∀ k' state', s.connections.lookup k' = some state' → state.label ≠ state'.label)
      (hstate : state.generation = 0) (hreg : reg.connectionId = k ∧ reg.generation = 0)
      (hconns : s'.connections = s.connections.insert k state)
      (hchannels : s'.channels = Function.update s.channels ch (.live reg))
      (hnext : s'.nextConnectionId = s.nextConnectionId) : Moved s s' (.insertConnection ch)
  | removed (ch : ChannelId) (reg : RegisteredClient) (state : ConnectionState)
      (hch : s.channels ch = .detached reg)
      (hstate : s.connections.lookup reg.connectionId = some state)
      (hgen : state.generation = reg.generation)
      (hconns : s'.connections = s.connections.erase reg.connectionId)
      (hchannels : s'.channels = Function.update s.channels ch (.ended reg true))
      (hnext : s'.nextConnectionId = s.nextConnectionId) : Moved s s' (.releaseConnection ch)
  | superseded (ch : ChannelId) (reg : RegisteredClient) (hch : s.channels ch = .detached reg)
      (hgen : ∀ state, s.connections.lookup reg.connectionId = some state →
        state.generation ≠ reg.generation)
      (hconns : s'.connections = s.connections)
      (hchannels : s'.channels = Function.update s.channels ch (.ended reg false))
      (hnext : s'.nextConnectionId = s.nextConnectionId) : Moved s s' (.releaseConnection ch)

private theorem moved_register (s s' : ServerApp B) (ch : ChannelId) (transport : TransportKind)
    (resumeFrom : Option ResumeFrom) (identity : ClientIdentity)
    (hch : s.channels ch = .unauthenticated)
    (hs' : s' = s.register ch transport resumeFrom identity) :
    Moved s s' (.register ch transport resumeFrom identity) := by
  have hrefused : ∀ r : Registering, s' = s.setChannel ch (.refused r) →
      Moved s s' (.register ch transport resumeFrom identity) := by
    rintro r rfl
    exact .phase _ ch (.refused r) (by rw [hch]; rfl) rfl (by rw [hch]; rfl)
      (fun reg b h ↦ by cases h) (fun reg b h ↦ by rw [hch] at h; cases h) rfl rfl rfl
  cases resumeFrom with
  | none => exact hrefused _ hs'
  | some from' =>
    rw [register] at hs'
    simp only at hs'
    split at hs'
    · exact hrefused _ hs'
    · next hrun =>
      rw [resumeConnection] at hs'
      cases hstate : s.connections.lookup from'.connectionId with
      | none =>
        rw [hstate] at hs'
        exact hrefused _ hs'
      | some state =>
        rw [hstate] at hs'
        simp only at hs'
        by_cases hmachine : state.machineId = identity.machineId
        · rw [if_neg (not_not.mpr hmachine)] at hs'
          subst hs'
          refine .resumed ch transport from' identity state _ hch ?_ hstate hmachine ⟨rfl, rfl⟩
            rfl rfl rfl
          intro run hrunEq
          by_contra hne
          rw [hrunEq] at hrun
          exact hrun (by simpa using hne)
        · rw [if_pos hmachine] at hs'
          exact hrefused _ hs'

private theorem moved_release (s s' : ServerApp B) (ch : ChannelId) (reg : RegisteredClient)
    (hch : s.channels ch = .detached reg)
    (hs' : s' =
      let done := Kmux.releaseConnection s.connections reg.connectionId reg.generation
      { s.setChannel ch (.ended reg done.2) with connections := done.1 }) :
    Moved s s' (.releaseConnection ch) := by
  rw [Kmux.releaseConnection] at hs'
  simp only at hs'
  split at hs'
  next hcurrent =>
    obtain ⟨state, hstate, hgen⟩ := (Option.any_eq_true _ _).mp hcurrent
    subst hs'
    exact .removed ch reg state hch hstate (of_decide_eq_true hgen) rfl rfl rfl
  next hcurrent =>
    subst hs'
    refine .superseded ch reg hch (fun state hstate hgen ↦ hcurrent ?_) rfl rfl rfl
    rw [hstate]
    exact decide_eq_true hgen

section Step

variable [TerminalBackend B]

private theorem moved_stepRegistry (s : ServerApp B) (e : ServerEvent B) :
    Moved s (s.stepRegistry e) e := by
  have hidle : ∀ e, s.stepRegistry e = s → Moved s (s.stepRegistry e) e := by
    intro e he
    rw [he]
    exact .idle e rfl rfl rfl
  cases e with
  | register ch transport resumeFrom identity =>
    rw [stepRegistry]
    split
    next hch => exact moved_register s _ ch transport resumeFrom identity hch rfl
    next => exact .idle _ rfl rfl rfl
  | drawClientId ch =>
    rw [stepRegistry]
    split
    next r hch =>
      exact .phase _ ch (.hasClient r s.nextClientId) (by rw [hch]; rfl) rfl (by rw [hch]; rfl)
        (fun reg b h ↦ by cases h) (fun reg b h ↦ by rw [hch] at h; cases h) rfl rfl rfl
    next => exact .idle _ rfl rfl rfl
  | drawConnectionId ch =>
    rw [stepRegistry]
    split
    next r clientId hch => exact .drawn ch r clientId hch rfl rfl rfl
    next => exact .idle _ rfl rfl rfl
  | insertConnection ch =>
    rw [stepRegistry]
    split
    next r clientId k hch =>
      exact .inserted ch r clientId k _ _ hch
        (fun k' state' hk' ↦ assignLabel_ne _ _ s.connections hk') rfl ⟨rfl, rfl⟩ rfl rfl rfl
    next => exact .idle _ rfl rfl rfl
  | detachChannel ch =>
    rw [stepRegistry]
    split
    next reg hch =>
      exact .phase _ ch (.detached reg) (by rw [hch]; rfl) rfl (by rw [hch]; rfl)
        (fun reg b h ↦ by cases h) (fun reg b h ↦ by rw [hch] at h; cases h) rfl rfl rfl
    next => exact .idle _ rfl rfl rfl
  | releaseConnection ch =>
    rw [stepRegistry]
    split
    next reg hch => exact moved_release s _ ch reg hch rfl
    next => exact .idle _ rfl rfl rfl
  | openPane p backend size =>
    rw [stepRegistry]
    split <;> exact .idle _ rfl rfl rfl
  | removePane p => exact .idle _ rfl rfl rfl
  | _ => exact hidle _ rfl

/-- **Inversion.** Every event is one of the moves. -/
theorem moved_step (s : ServerApp B) (e : ServerEvent B) : Moved s (s.step e) e := by
  rw [step]
  cases moved_stepRegistry ({ s with panes := s.stepPanes e } : ServerApp B) e with
  | idle _ hconns hchannels hnext => exact .idle _ hconns hchannels hnext
  | phase _ ch phase hreg hdrawn hdrawn' hended hended' hconns hchannels hnext =>
    exact .phase _ ch phase hreg hdrawn hdrawn' hended hended' hconns hchannels hnext
  | resumed ch transport resumeFrom identity state reg hch hrun hstate hmachine hreg hconns
      hchannels hnext =>
    exact .resumed ch transport resumeFrom identity state reg hch hrun hstate hmachine hreg hconns
      hchannels hnext
  | drawn ch r clientId hch hconns hchannels hnext =>
    exact .drawn ch r clientId hch hconns hchannels hnext
  | inserted ch r clientId k state reg hch hlabel hstate hreg hconns hchannels hnext =>
    exact .inserted ch r clientId k state reg hch hlabel hstate hreg hconns hchannels hnext
  | removed ch reg state hch hstate hgen hconns hchannels hnext =>
    exact .removed ch reg state hch hstate hgen hconns hchannels hnext
  | superseded ch reg hch hgen hconns hchannels hnext =>
    exact .superseded ch reg hch hgen hconns hchannels hnext

end Step

/-! ## The invariant -/

theorem reg?_update (f : ChannelId → ChannelPhase) (ch ch' : ChannelId) (phase : ChannelPhase) :
    (Function.update f ch phase ch').reg? = if ch' = ch then phase.reg? else (f ch').reg? := by
  rw [Function.update_apply, apply_ite ChannelPhase.reg?]

/-- What the registry and the channels keep to. -/
structure Registry (s : ServerApp B) : Prop where
  /-- Numbers in use were drawn. -/
  conn_lt : ∀ k state, s.connections.lookup k = some state → k < s.nextConnectionId
  reg_lt : ∀ ch reg, (s.channels ch).reg? = some reg → reg.connectionId < s.nextConnectionId
  drawn_lt : ∀ ch k, (s.channels ch).drawn? = some k → k < s.nextConnectionId
  /-- A number drawn and not inserted is one channel's alone. -/
  drawn_fresh : ∀ ch k, (s.channels ch).drawn? = some k →
    s.connections.lookup k = none ∧
      (∀ ch' reg, (s.channels ch').reg? = some reg → reg.connectionId ≠ k) ∧
        ∀ ch', (s.channels ch').drawn? = some k → ch' = ch
  /-- A generation is handed to one channel. -/
  unique : ∀ ch ch' reg reg', (s.channels ch).reg? = some reg → (s.channels ch').reg? = some reg' →
    reg.connectionId = reg'.connectionId → reg.generation = reg'.generation → ch = ch'
  /-- The current generation is held by a channel that has not finished. -/
  owner : ∀ k state, s.connections.lookup k = some state →
    ∃ ch reg, (s.channels ch).reg? = some reg ∧ reg.connectionId = k ∧
      reg.generation = state.generation ∧ ∀ reg' released, s.channels ch ≠ .ended reg' released
  /-- And is the newest. -/
  newest : ∀ ch reg state, (s.channels ch).reg? = some reg →
    s.connections.lookup reg.connectionId = some state → reg.generation ≤ state.generation
  /-- A registration that a channel removed is gone, and was that channel's last. -/
  removed : ∀ ch reg, s.channels ch = .ended reg true →
    s.connections.lookup reg.connectionId = none ∧
      ∀ ch' reg', (s.channels ch').reg? = some reg' → reg'.connectionId = reg.connectionId →
        reg'.generation ≤ reg.generation
  /-- A registration that is gone was removed. -/
  gone : ∀ ch reg, (s.channels ch).reg? = some reg →
    s.connections.lookup reg.connectionId = none →
      ∃ ch' reg', s.channels ch' = .ended reg' true ∧ reg'.connectionId = reg.connectionId
  /-- Labels are distinct. -/
  labels : ∀ k k' state state', s.connections.lookup k = some state →
    s.connections.lookup k' = some state' → state.label = state'.label → k = k'

theorem registry_new (instanceId : DaemonInstanceId) : Registry (new instanceId : ServerApp B) where
  conn_lt := fun _ _ h ↦ nomatch h
  reg_lt := fun _ _ h ↦ nomatch h
  drawn_lt := fun _ _ h ↦ nomatch h
  drawn_fresh := fun _ _ h ↦ nomatch h
  unique := fun _ _ _ _ h ↦ nomatch h
  owner := fun _ _ h ↦ nomatch h
  newest := fun _ _ _ h ↦ nomatch h
  removed := fun _ _ h ↦ nomatch h
  gone := fun _ _ h ↦ nomatch h
  labels := fun _ _ _ _ h ↦ nomatch h

/-! ## One lemma per move -/

variable {s s' : ServerApp B}

/-- The invariant sees of a channel its registration, its drawn number, and whether it ended. -/
private theorem registry_congr (h : Registry s) (hconns : s'.connections = s.connections)
    (hnext : s'.nextConnectionId = s.nextConnectionId)
    (hreg : ∀ ch, (s'.channels ch).reg? = (s.channels ch).reg?)
    (hdrawn : ∀ ch, (s'.channels ch).drawn? = (s.channels ch).drawn?)
    (hended : ∀ ch reg released, s'.channels ch = .ended reg released ↔
      s.channels ch = .ended reg released) : Registry s' := by
  constructor
  · simpa only [hconns, hnext] using h.conn_lt
  · simpa only [hreg, hnext] using h.reg_lt
  · simpa only [hdrawn, hnext] using h.drawn_lt
  · simpa only [hdrawn, hreg, hconns] using h.drawn_fresh
  · simpa only [hreg] using h.unique
  · simpa only [hreg, hconns, ne_eq, hended] using h.owner
  · simpa only [hreg, hconns] using h.newest
  · simpa only [hreg, hconns, hended] using h.removed
  · simpa only [hreg, hconns, hended] using h.gone
  · simpa only [hconns] using h.labels

private theorem registry_phase (h : Registry s) (ch : ChannelId) (phase : ChannelPhase)
    (hreg : phase.reg? = (s.channels ch).reg?) (hdrawn : phase.drawn? = none)
    (hdrawn' : (s.channels ch).drawn? = none)
    (hended : ∀ reg released, phase ≠ .ended reg released)
    (hended' : ∀ reg released, s.channels ch ≠ .ended reg released)
    (hconns : s'.connections = s.connections)
    (hchannels : s'.channels = Function.update s.channels ch phase)
    (hnext : s'.nextConnectionId = s.nextConnectionId) : Registry s' := by
  refine registry_congr h hconns hnext (fun ch' ↦ ?_) (fun ch' ↦ ?_) (fun ch' reg released ↦ ?_)
  all_goals
    rw [hchannels]
    by_cases hch : ch' = ch
    · subst hch
      rw [Function.update_self]
      first
      | exact hreg
      | rw [hdrawn, hdrawn']
      | exact iff_of_false (hended reg released) (hended' reg released)
    · rw [Function.update_of_ne hch]

/-- A channel that is given a registration: every fact about registered channels is about it or
about one that was registered before. -/
private theorem reg?_eq_some_of_live {f : ChannelId → ChannelPhase} {ch ch' : ChannelId}
    {reg reg' : RegisteredClient} (h : (Function.update f ch (.live reg) ch').reg? = some reg') :
    (ch' = ch ∧ reg' = reg) ∨ (ch' ≠ ch ∧ (f ch').reg? = some reg') := by
  by_cases hch : ch' = ch
  · subst hch
    rw [Function.update_self] at h
    exact .inl ⟨rfl, (Option.some.inj h).symm⟩
  · rw [Function.update_of_ne hch] at h
    exact .inr ⟨hch, h⟩

private theorem drawn?_eq_some_of_live {f : ChannelId → ChannelPhase} {ch ch' : ChannelId}
    {reg : RegisteredClient} {k : ConnectionId}
    (h : (Function.update f ch (.live reg) ch').drawn? = some k) :
    ch' ≠ ch ∧ (f ch').drawn? = some k := by
  by_cases hch : ch' = ch
  · subst hch
    rw [Function.update_self] at h
    cases h
  · rw [Function.update_of_ne hch] at h
    exact ⟨hch, h⟩

private theorem ended_of_live {f : ChannelId → ChannelPhase} {ch ch' : ChannelId}
    {reg reg' : RegisteredClient} {released : Bool}
    (h : Function.update f ch (.live reg) ch' = .ended reg' released) :
    f ch' = .ended reg' released := by
  by_cases hch : ch' = ch
  · subst hch
    rw [Function.update_self] at h
    cases h
  · rwa [Function.update_of_ne hch] at h

/-- A channel is given the newest generation of a registration, new or resumed. -/
private theorem registry_live (h : Registry s) (ch : ChannelId) (taken : ConnectionState)
    (reg : RegisteredClient) (hch : (s.channels ch).reg? = none)
    (hlt : reg.connectionId < s.nextConnectionId)
    (hother : ∀ ch' reg', (s.channels ch').reg? = some reg' →
      reg'.connectionId = reg.connectionId → reg'.generation < reg.generation)
    (hdrawn : ∀ ch', ch' ≠ ch → (s.channels ch').drawn? ≠ some reg.connectionId)
    (hremoved : ∀ ch' reg', s.channels ch' = .ended reg' true →
      reg'.connectionId ≠ reg.connectionId)
    (hlabel : ∀ k state, s.connections.lookup k = some state → k ≠ reg.connectionId →
      taken.label ≠ state.label)
    (htaken : taken.generation = reg.generation)
    (hconns : s'.connections = s.connections.insert reg.connectionId taken)
    (hchannels : s'.channels = Function.update s.channels ch (.live reg))
    (hnext : s'.nextConnectionId = s.nextConnectionId) : Registry s' := by
  have hlook : ∀ k st, s'.connections.lookup k = some st →
      (k = reg.connectionId ∧ st = taken) ∨
        (k ≠ reg.connectionId ∧ s.connections.lookup k = some st) := by
    rw [hconns]
    exact fun k st ↦ Table.lookup_insert_eq_some
  have hnone : ∀ k, k ≠ reg.connectionId → s.connections.lookup k = none →
      s'.connections.lookup k = none := by
    intro k hne hk
    rw [hconns, Table.lookup_insert_eq, if_neg hne, hk]
  have hsame : ∀ ch', ch' ≠ ch → s'.channels ch' = s.channels ch' := by
    intro ch' hne
    rw [hchannels, Function.update_of_ne hne]
  -- clause by clause: what was registered before is untouched, and the new entry is the newest
  constructor
  · intro k st hst
    rw [hnext]
    rcases hlook k st hst with ⟨rfl, -⟩ | ⟨-, hst⟩
    · exact hlt
    · exact h.conn_lt k st hst
  · intro ch' reg' hreg'
    rw [hchannels] at hreg'
    rw [hnext]
    rcases reg?_eq_some_of_live hreg' with ⟨-, rfl⟩ | ⟨-, hreg'⟩
    · exact hlt
    · exact h.reg_lt ch' reg' hreg'
  · intro ch' k hk
    rw [hchannels] at hk
    rw [hnext]
    exact h.drawn_lt ch' k (drawn?_eq_some_of_live hk).2
  · intro ch' k hk
    rw [hchannels] at hk ⊢
    obtain ⟨hne, hk⟩ := drawn?_eq_some_of_live hk
    obtain ⟨hfresh, hregs, hunique⟩ := h.drawn_fresh ch' k hk
    have hkne : k ≠ reg.connectionId := fun heq ↦ hdrawn ch' hne (heq ▸ hk)
    refine ⟨hnone k hkne hfresh, fun ch'' reg'' hreg'' ↦ ?_, fun ch'' hk'' ↦ ?_⟩
    · rcases reg?_eq_some_of_live hreg'' with ⟨-, rfl⟩ | ⟨-, hreg''⟩
      · exact hkne.symm
      · exact hregs ch'' reg'' hreg''
    · exact hunique ch'' (drawn?_eq_some_of_live hk'').2
  · intro ch₁ ch₂ reg₁ reg₂ h₁ h₂ hconn hgens
    rw [hchannels] at h₁ h₂
    -- two registrations of one number and generation: neither can be the new one alone
    rcases reg?_eq_some_of_live h₁ with ⟨rfl, rfl⟩ | ⟨-, hold₁⟩ <;>
      rcases reg?_eq_some_of_live h₂ with ⟨rfl, rfl⟩ | ⟨-, hold₂⟩
    · rfl
    · exact absurd hgens (hother ch₂ reg₂ hold₂ hconn.symm).ne'
    · exact absurd hgens (hother ch₁ reg₁ hold₁ hconn).ne
    · exact h.unique ch₁ ch₂ reg₁ reg₂ hold₁ hold₂ hconn hgens
  · intro k st hst
    rcases hlook k st hst with ⟨rfl, rfl⟩ | ⟨-, hst⟩
    · refine ⟨ch, reg, ?_, rfl, htaken.symm, ?_⟩ <;> rw [hchannels, Function.update_self]
      · rfl
      · exact fun reg' released hended ↦ nomatch hended
    -- an older entry keeps its channel, which is not the one that was taken
    · obtain ⟨ch', reg', hreg', hk, hgen, hended⟩ := h.owner k st hst
      have hne : ch' ≠ ch := by
        rintro rfl
        rw [hch] at hreg'
        cases hreg'
      refine ⟨ch', reg', ?_, hk, hgen, ?_⟩ <;> rw [hsame ch' hne]
      · exact hreg'
      · exact hended
  · intro ch' reg' st hreg' hst
    rw [hchannels] at hreg'
    rcases reg?_eq_some_of_live hreg' with ⟨-, rfl⟩ | ⟨-, hold⟩ <;>
      rcases hlook _ st hst with ⟨hk, rfl⟩ | ⟨hne, hst⟩
    · exact htaken.ge
    · exact absurd rfl hne
    · exact htaken ▸ (hother ch' reg' hold hk).le
    · exact h.newest ch' reg' st hold hst
  · intro ch' reg' hended
    rw [hchannels] at hended ⊢
    have hne := hremoved ch' reg' (ended_of_live hended)
    obtain ⟨hgone, hle⟩ := h.removed ch' reg' (ended_of_live hended)
    refine ⟨hnone _ hne hgone, fun ch'' reg'' hreg'' hk ↦ ?_⟩
    rcases reg?_eq_some_of_live hreg'' with ⟨-, rfl⟩ | ⟨-, hold⟩
    · exact absurd hk.symm hne
    · exact hle ch'' reg'' hold hk
  · intro ch' reg' hreg' hgone
    rw [hchannels] at hreg'
    rw [hconns, Table.lookup_insert_eq] at hgone
    split at hgone
    · cases hgone
    next hne =>
      rcases reg?_eq_some_of_live hreg' with ⟨-, rfl⟩ | ⟨-, hold⟩
      · exact absurd rfl hne
      · obtain ⟨ch'', reg'', hended, hk⟩ := h.gone ch' reg' hold hgone
        refine ⟨ch'', reg'', ?_, hk⟩
        rw [hsame ch'', hended]
        rintro rfl
        rw [hended] at hch
        cases hch
  · intro k₁ k₂ st₁ st₂ h₁ h₂ hlab
    rcases hlook k₁ st₁ h₁ with ⟨hk₁, rfl⟩ | ⟨hk₁, hold₁⟩ <;>
      rcases hlook k₂ st₂ h₂ with ⟨hk₂, rfl⟩ | ⟨hk₂, hold₂⟩
    · exact hk₁.trans hk₂.symm
    · exact absurd hlab (hlabel k₂ st₂ hold₂ hk₂)
    · exact absurd hlab.symm (hlabel k₁ st₁ hold₁ hk₁)
    · exact h.labels k₁ k₂ st₁ st₂ hold₁ hold₂ hlab

/-- A channel draws a connection number. -/
private theorem registry_drawn (h : Registry s) (ch : ChannelId) (r : Registering)
    (clientId : ClientId) (hch : s.channels ch = .hasClient r clientId)
    (hconns : s'.connections = s.connections)
    (hchannels : s'.channels =
      Function.update s.channels ch (.hasIds r clientId s.nextConnectionId))
    (hnext : s'.nextConnectionId = s.nextConnectionId + 1) : Registry s' := by
  have hreg : ∀ ch', (s'.channels ch').reg? = (s.channels ch').reg? := by
    intro ch'
    rw [hchannels, reg?_update]
    split
    next heq => rw [heq, hch]; rfl
    next => rfl
  have hended : ∀ ch' reg released, s'.channels ch' = .ended reg released ↔
      s.channels ch' = .ended reg released := by
    intro ch' reg released
    rw [hchannels]
    by_cases heq : ch' = ch
    · subst heq
      rw [Function.update_self, hch]
      exact iff_of_false (fun h ↦ nomatch h) fun h ↦ nomatch h
    · rw [Function.update_of_ne heq]
  have hdrawn : ∀ ch' k, (s'.channels ch').drawn? = some k →
      (ch' = ch ∧ k = s.nextConnectionId) ∨ (s.channels ch').drawn? = some k := by
    intro ch' k hk
    rw [hchannels] at hk
    by_cases heq : ch' = ch
    · subst heq
      rw [Function.update_self] at hk
      exact .inl ⟨rfl, (Option.some.inj hk).symm⟩
    · rw [Function.update_of_ne heq] at hk
      exact .inr hk
  constructor
  · intro k st hst
    rw [hconns] at hst
    rw [hnext]
    exact Nat.lt_succ_of_lt (h.conn_lt k st hst)
  · intro ch' reg hreg'
    rw [hreg] at hreg'
    rw [hnext]
    exact Nat.lt_succ_of_lt (h.reg_lt ch' reg hreg')
  · intro ch' k hk
    rw [hnext]
    rcases hdrawn ch' k hk with ⟨-, rfl⟩ | hk
    · exact Nat.lt_succ_self _
    · exact Nat.lt_succ_of_lt (h.drawn_lt ch' k hk)
  · intro ch' k hk
    -- the number drawn is above every number in use
    rcases hdrawn ch' k hk with ⟨rfl, rfl⟩ | hold
    · refine ⟨?_, fun ch'' reg hreg' ↦ ?_, fun ch'' hk'' ↦ ?_⟩
      · rw [hconns]
        cases hst : s.connections.lookup s.nextConnectionId with
        | none => rfl
        | some st => exact absurd (h.conn_lt _ st hst) (Nat.lt_irrefl _)
      · rw [hreg] at hreg'
        exact (h.reg_lt ch'' reg hreg').ne
      · rcases hdrawn ch'' _ hk'' with ⟨rfl, -⟩ | hold''
        · rfl
        · exact absurd (h.drawn_lt ch'' _ hold'') (Nat.lt_irrefl _)
    · obtain ⟨hfresh, hregs, hunique⟩ := h.drawn_fresh ch' k hold
      refine ⟨by rw [hconns, hfresh], fun ch'' reg hreg' ↦ ?_, fun ch'' hk'' ↦ ?_⟩
      · rw [hreg] at hreg'
        exact hregs ch'' reg hreg'
      · rcases hdrawn ch'' k hk'' with ⟨-, rfl⟩ | hold''
        · exact absurd (h.drawn_lt ch' _ hold) (Nat.lt_irrefl _)
        · exact hunique ch'' hold''
  · simpa only [hreg] using h.unique
  · simpa only [hreg, hconns, ne_eq, hended] using h.owner
  · simpa only [hreg, hconns] using h.newest
  · simpa only [hreg, hconns, hended] using h.removed
  · simpa only [hreg, hconns, hended] using h.gone
  · simpa only [hconns] using h.labels

/-- A channel that finishes keeps the registration it was given. -/
private theorem reg?_update_ended {f : ChannelId → ChannelPhase} {ch : ChannelId}
    {reg : RegisteredClient} (hch : f ch = .detached reg) (released : Bool) (ch' : ChannelId) :
    (Function.update f ch (.ended reg released) ch').reg? = (f ch').reg? := by
  rw [reg?_update]
  split
  next heq => rw [heq, hch]; rfl
  next => rfl

private theorem drawn?_update_ended {f : ChannelId → ChannelPhase} {ch : ChannelId}
    {reg : RegisteredClient} (hch : f ch = .detached reg) (released : Bool) (ch' : ChannelId) :
    (Function.update f ch (.ended reg released) ch').drawn? = (f ch').drawn? := by
  by_cases heq : ch' = ch
  · subst heq
    rw [Function.update_self, hch]
    rfl
  · rw [Function.update_of_ne heq]

/-- The channel of the current generation removes the registration. -/
private theorem registry_removed (h : Registry s) (ch : ChannelId) (reg : RegisteredClient)
    (state : ConnectionState) (hch : s.channels ch = .detached reg)
    (hstate : s.connections.lookup reg.connectionId = some state)
    (hgen : state.generation = reg.generation)
    (hconns : s'.connections = s.connections.erase reg.connectionId)
    (hchannels : s'.channels = Function.update s.channels ch (.ended reg true))
    (hnext : s'.nextConnectionId = s.nextConnectionId) : Registry s' := by
  have hreg : ∀ ch', (s'.channels ch').reg? = (s.channels ch').reg? := by
    rw [hchannels]
    exact reg?_update_ended hch true
  have hdrawn : ∀ ch', (s'.channels ch').drawn? = (s.channels ch').drawn? := by
    rw [hchannels]
    exact drawn?_update_ended hch true
  have hlook : ∀ k st, s'.connections.lookup k = some st →
      k ≠ reg.connectionId ∧ s.connections.lookup k = some st := by
    rw [hconns]
    exact fun k st ↦ Table.lookup_erase_eq_some
  have hnone : ∀ k, s.connections.lookup k = none → s'.connections.lookup k = none := by
    intro k hk
    rw [hconns, Table.lookup_erase_eq, hk, ite_self]
  have hself : s'.channels ch = .ended reg true := by rw [hchannels, Function.update_self]
  have hsame : ∀ ch', ch' ≠ ch → s'.channels ch' = s.channels ch' := by
    intro ch' hne
    rw [hchannels, Function.update_of_ne hne]
  have hregch : (s.channels ch).reg? = some reg := by rw [hch]; rfl
  -- only the entry of the removed registration is missing afterwards
  constructor
  · intro k st hst
    rw [hnext]
    exact h.conn_lt k st (hlook k st hst).2
  · simpa only [hreg, hnext] using h.reg_lt
  · simpa only [hdrawn, hnext] using h.drawn_lt
  · intro ch' k hk
    rw [hdrawn] at hk
    obtain ⟨hfresh, hrest⟩ := h.drawn_fresh ch' k hk
    simpa only [hreg, hdrawn] using ⟨hnone k hfresh, hrest⟩
  · simpa only [hreg] using h.unique
  · intro k st hst
    obtain ⟨hne, hst⟩ := hlook k st hst
    obtain ⟨ch', reg', hreg', hk, hgen', hended⟩ := h.owner k st hst
    -- the owner of another entry is another channel
    have hch' : ch' ≠ ch := by
      rintro rfl
      rw [← hk, Option.some.inj (hreg'.symm.trans hregch)] at hne
      exact hne rfl
    refine ⟨ch', reg', (hreg ch').trans hreg', hk, hgen', ?_⟩
    rw [hsame ch' hch']
    exact hended
  · intro ch' reg' st hreg' hst
    rw [hreg] at hreg'
    exact h.newest ch' reg' st hreg' (hlook _ st hst).2
  · intro ch' reg' hended
    simp only [hreg]
    by_cases heq : ch' = ch
    · subst heq
      -- this channel removed it: its generation was the newest, so nobody is above it
      obtain ⟨rfl, -⟩ := ChannelPhase.ended.inj (hself.symm.trans hended)
      refine ⟨by rw [hconns, AList.lookup_erase], fun ch'' reg'' hreg'' hk ↦ ?_⟩
      exact hgen ▸ h.newest ch'' reg'' state hreg'' (hk ▸ hstate)
    · rw [hsame ch' heq] at hended
      obtain ⟨hgone, hle⟩ := h.removed ch' reg' hended
      exact ⟨hnone _ hgone, hle⟩
  · intro ch' reg' hreg' hgone
    rw [hreg] at hreg'
    by_cases hk : reg'.connectionId = reg.connectionId
    · exact ⟨ch, reg, hself, hk.symm⟩
    · rw [hconns, Table.lookup_erase_eq, if_neg hk] at hgone
      obtain ⟨ch'', reg'', hended, hk''⟩ := h.gone ch' reg' hreg' hgone
      refine ⟨ch'', reg'', ?_, hk''⟩
      rw [hsame ch'', hended]
      rintro rfl
      rw [hch] at hended
      cases hended
  · intro k₁ k₂ st₁ st₂ h₁ h₂ hlab
    exact h.labels k₁ k₂ st₁ st₂ (hlook k₁ st₁ h₁).2 (hlook k₂ st₂ h₂).2 hlab

/-- A channel that was superseded leaves the registration. -/
private theorem registry_superseded (h : Registry s) (ch : ChannelId) (reg : RegisteredClient)
    (hch : s.channels ch = .detached reg)
    (hgen : ∀ state, s.connections.lookup reg.connectionId = some state →
      state.generation ≠ reg.generation)
    (hconns : s'.connections = s.connections)
    (hchannels : s'.channels = Function.update s.channels ch (.ended reg false))
    (hnext : s'.nextConnectionId = s.nextConnectionId) : Registry s' := by
  have hreg : ∀ ch', (s'.channels ch').reg? = (s.channels ch').reg? := by
    rw [hchannels]
    exact reg?_update_ended hch false
  have hdrawn : ∀ ch', (s'.channels ch').drawn? = (s.channels ch').drawn? := by
    rw [hchannels]
    exact drawn?_update_ended hch false
  have hregch : (s.channels ch).reg? = some reg := by rw [hch]; rfl
  have hremoved : ∀ ch' reg', s'.channels ch' = .ended reg' true ↔
      s.channels ch' = .ended reg' true := by
    intro ch' reg'
    rw [hchannels]
    by_cases heq : ch' = ch
    · subst heq
      rw [Function.update_self, hch]
      exact iff_of_false (fun h ↦ nomatch h) fun h ↦ nomatch h
    · rw [Function.update_of_ne heq]
  constructor
  · simpa only [hconns, hnext] using h.conn_lt
  · simpa only [hreg, hnext] using h.reg_lt
  · simpa only [hdrawn, hnext] using h.drawn_lt
  · simpa only [hdrawn, hreg, hconns] using h.drawn_fresh
  · simpa only [hreg] using h.unique
  · intro k st hst
    rw [hconns] at hst
    obtain ⟨ch', reg', hreg', hk, hgen', hended⟩ := h.owner k st hst
    -- the channel that finishes does not hold the current generation, so it is not the owner
    have hch' : ch' ≠ ch := by
      rintro rfl
      obtain rfl := Option.some.inj (hreg'.symm.trans hregch)
      exact hgen st (hk ▸ hst) hgen'.symm
    refine ⟨ch', reg', (hreg ch').trans hreg', hk, hgen', ?_⟩
    rw [hchannels, Function.update_of_ne hch']
    exact hended
  · simpa only [hreg, hconns] using h.newest
  · simpa only [hreg, hconns, hremoved] using h.removed
  · simpa only [hreg, hconns, hremoved] using h.gone
  · simpa only [hconns] using h.labels

/-- **One event.** -/
theorem Registry.moved (h : Registry s) {e : ServerEvent B} (hmoved : Moved s s' e) :
    Registry s' := by
  cases hmoved with
  | idle _ hconns hchannels hnext =>
    exact registry_congr h hconns hnext (fun _ ↦ by rw [hchannels]) (fun _ ↦ by rw [hchannels])
      fun _ _ _ ↦ by rw [hchannels]
  | phase _ ch phase hreg hdrawn hdrawn' hended hended' hconns hchannels hnext =>
    exact registry_phase h ch phase hreg hdrawn hdrawn' hended hended' hconns hchannels hnext
  | resumed ch transport resumeFrom identity state reg hch hrun hstate hmachine hreg hconns
      hchannels hnext =>
    obtain ⟨hk, hgen⟩ := hreg
    rw [← hk] at hstate hconns
    refine registry_live h ch { state with transport, generation := state.generation + 1 } reg
      (by rw [hch]; rfl) (h.conn_lt _ state hstate)
      (fun ch' reg' hreg' hsame ↦ ?_) (fun ch' _ hdrawn ↦ ?_) (fun ch' reg' hended hsame ↦ ?_)
      (fun k st hst hne hlab ↦ hne (h.labels _ _ _ _ hst hstate hlab.symm)) hgen.symm hconns
      hchannels hnext
    · rw [hgen]
      exact Nat.lt_succ_of_le (h.newest ch' reg' state hreg' (hsame ▸ hstate))
    · rw [(h.drawn_fresh ch' _ hdrawn).1] at hstate
      cases hstate
    · rw [← hsame, (h.removed ch' reg' hended).1] at hstate
      cases hstate
  | drawn ch r clientId hch hconns hchannels hnext =>
    exact registry_drawn h ch r clientId hch hconns hchannels hnext
  | inserted ch r clientId k state reg hch hlabel hstate hreg hconns hchannels hnext =>
    obtain ⟨rfl, hgen⟩ := hreg
    have hdrawn : (s.channels ch).drawn? = some reg.connectionId := by rw [hch]; rfl
    obtain ⟨-, hregs, hunique⟩ := h.drawn_fresh ch _ hdrawn
    refine registry_live h ch state reg (by rw [hch]; rfl) (h.drawn_lt ch _ hdrawn)
      (fun ch' reg' hreg' hsame ↦ absurd hsame (hregs ch' reg' hreg'))
      (fun ch' hne hdrawn' ↦ hne (hunique ch' hdrawn'))
      (fun ch' reg' hended ↦ hregs ch' reg' (by rw [hended]; rfl))
      (fun k st hst _ ↦ hlabel k st hst) (hstate.trans hgen.symm) hconns hchannels hnext
  | removed ch reg state hch hstate hgen hconns hchannels hnext =>
    exact registry_removed h ch reg state hch hstate hgen hconns hchannels hnext
  | superseded ch reg hch hgen hconns hchannels hnext =>
    exact registry_superseded h ch reg hch hgen hconns hchannels hnext

/-- **Every run.** -/
theorem registry_run [TerminalBackend B] (instanceId : DaemonInstanceId)
    (es : List (ServerEvent B)) : Registry (run (new instanceId) es) :=
  Run.invariant (fun s e (h : Registry s) ↦ h.moved (moved_step s e)) es _ (registry_new instanceId)

/-! ## What the registry promises -/

/-- The client named this run of the daemon. -/
def SameRun (instanceId : DaemonInstanceId) (resumeFrom : ResumeFrom) : Prop :=
  resumeFrom.instanceId = some instanceId

/-- The client named this run of the daemon, or none. -/
def NotOtherRun (instanceId : DaemonInstanceId) (resumeFrom : ResumeFrom) : Prop :=
  ∀ run, resumeFrom.instanceId = some run → run = instanceId

variable [TerminalBackend B]

/-- Registrations are kept, whatever the channels do. `runOk` is what a resume asks of the run the
client names. -/
structure Registrations (runOk : DaemonInstanceId → ResumeFrom → Prop) (s : ServerApp B) :
    Prop where
  /-- No registration is removed twice. -/
  removed_once : ∀ ch ch' reg reg', s.channels ch = .ended reg true →
    s.channels ch' = .ended reg' true → reg.connectionId = reg'.connectionId → ch = ch'
  /-- One that a channel was given and that is gone was removed. -/
  removed_if_gone : ∀ ch reg, (s.channels ch).reg? = some reg →
    s.connections.lookup reg.connectionId = none →
      ∃ ch' reg', s.channels ch' = .ended reg' true ∧ reg'.connectionId = reg.connectionId
  /-- One that was removed is gone. -/
  gone_if_removed : ∀ ch reg, s.channels ch = .ended reg true →
    s.connections.lookup reg.connectionId = none
  /-- Once every channel of a registration has finished, it is gone. -/
  gone_at_end : ∀ k, (∀ ch reg, (s.channels ch).reg? = some reg → reg.connectionId = k →
    ∃ released, s.channels ch = .ended reg released) → s.connections.lookup k = none
  /-- Only the channel of the newest generation takes a registration away. -/
  removed_by_newest : ∀ e k state, s.connections.lookup k = some state →
    (s.step e).connections.lookup k = none →
      ∃ ch reg, e = .releaseConnection ch ∧ (s.channels ch).reg? = some reg ∧
        reg.connectionId = k ∧
          ∀ ch' reg', (s.channels ch').reg? = some reg' → reg'.connectionId = k →
            reg'.generation < reg.generation ∨ ch' = ch
  /-- A registration is taken over only by a resume from its own machine, in the run asked for. -/
  resumed_only : ∀ e k state state', s.connections.lookup k = some state →
    (s.step e).connections.lookup k = some state' → state'.generation ≠ state.generation →
      ∃ ch transport resumeFrom identity,
        e = .register ch transport (some resumeFrom) identity ∧ resumeFrom.connectionId = k ∧
          identity.machineId = state.machineId ∧ runOk s.instanceId resumeFrom
  /-- Live connections have distinct labels. -/
  labels_distinct : ∀ k k' state state', s.connections.lookup k = some state →
    s.connections.lookup k' = some state' → state.label = state'.label → k = k'
  /-- The cleanup of a channel leaves what was attached through the channel that superseded it. -/
  attachments_kept : ∀ ch ch' reg reg', s.channels ch = .live reg →
    (s.channels ch').reg? = some reg' → reg'.connectionId = reg.connectionId →
      reg.generation < reg'.generation → ∀ p r c sender, s.panes p = some r →
        r.clients.lookup c = some sender → sender.ctrlTx = ch' →
          ∃ r', (s.step (.detachChannel ch)).panes p = some r' ∧ r'.clients.lookup c = some sender

omit [TerminalBackend B] in
/-- A move that takes a registration away is a removal. -/
private theorem removed_of_moved {e : ServerEvent B} (hmoved : Moved s s' e) {k : ConnectionId}
    {state : ConnectionState} (hk : s.connections.lookup k = some state)
    (hk' : s'.connections.lookup k = none) :
    ∃ ch reg, e = .releaseConnection ch ∧ (s.channels ch).reg? = some reg ∧
      reg.connectionId = k ∧ reg.generation = state.generation := by
  cases hmoved with
  | removed ch reg st hch hstate hgen hconns =>
    rw [hconns, Table.lookup_erase_eq] at hk'
    split at hk'
    next heq =>
      rw [heq, hstate] at hk
      rw [← Option.some.inj hk]
      exact ⟨ch, reg, rfl, by rw [hch]; rfl, heq.symm, hgen.symm⟩
    next =>
      rw [hk] at hk'
      cases hk'
  | resumed _ _ _ _ _ _ _ _ _ _ _ hconns =>
    rw [hconns, AList.lookup_insert_eq_none] at hk'
    rw [hk] at hk'
    cases hk'.2
  | inserted _ _ _ _ _ _ _ _ _ _ hconns =>
    rw [hconns, AList.lookup_insert_eq_none] at hk'
    rw [hk] at hk'
    cases hk'.2
  | idle _ hconns =>
    rw [hconns, hk] at hk'
    cases hk'
  | phase _ _ _ _ _ _ _ _ hconns =>
    rw [hconns, hk] at hk'
    cases hk'
  | drawn _ _ _ _ hconns =>
    rw [hconns, hk] at hk'
    cases hk'
  | superseded _ _ _ _ hconns =>
    rw [hconns, hk] at hk'
    cases hk'

omit [TerminalBackend B] in
/-- A move that changes the generation of a registration is a resume. -/
private theorem resumed_of_moved (h : Registry s) {e : ServerEvent B} (hmoved : Moved s s' e)
    {k : ConnectionId} {state state' : ConnectionState} (hk : s.connections.lookup k = some state)
    (hk' : s'.connections.lookup k = some state') (hgen : state'.generation ≠ state.generation) :
    ∃ ch transport resumeFrom identity,
      e = .register ch transport (some resumeFrom) identity ∧ resumeFrom.connectionId = k ∧
        identity.machineId = state.machineId ∧ NotOtherRun s.instanceId resumeFrom := by
  have hsame : s'.connections.lookup k = s.connections.lookup k → False := by
    intro heq
    rw [hk', hk] at heq
    exact hgen (by rw [Option.some.inj heq])
  cases hmoved with
  | resumed ch transport resumeFrom identity st reg hch hrun hstate hmachine hreg hconns =>
    rw [hconns] at hk'
    rcases Table.lookup_insert_eq_some hk' with ⟨heq, -⟩ | ⟨-, hold⟩
    · rw [heq, hstate] at hk
      rw [← Option.some.inj hk]
      exact ⟨ch, transport, resumeFrom, identity, rfl, heq.symm, hmachine.symm, hrun⟩
    · exact absurd (by rw [Option.some.inj (hold.symm.trans hk)]) hgen
  | inserted ch r clientId k₀ st reg hch hlabel hstate hreg hconns =>
    refine (hsame ?_).elim
    rw [hconns, Table.lookup_insert_eq, if_neg]
    rintro rfl
    rw [(h.drawn_fresh ch k (by rw [hch]; rfl)).1] at hk
    cases hk
  | removed ch reg st hch hstate hgen' hconns =>
    rw [hconns] at hk'
    obtain ⟨-, hold⟩ := Table.lookup_erase_eq_some hk'
    exact absurd (by rw [Option.some.inj (hold.symm.trans hk)]) hgen
  | idle _ hconns => exact (hsame (by rw [hconns])).elim
  | phase _ _ _ _ _ _ _ _ hconns => exact (hsame (by rw [hconns])).elim
  | drawn _ _ _ _ hconns => exact (hsame (by rw [hconns])).elim
  | superseded _ _ _ _ hconns => exact (hsame (by rw [hconns])).elim

private theorem attachments_kept_of_ne (s : ServerApp B) (ch : ChannelId) {p : PaneId}
    {r : PaneRelay B} {c : ClientId} {sender : ClientSender} (hp : s.panes p = some r)
    (hc : r.clients.lookup c = some sender) (hne : sender.ctrlTx ≠ ch) :
    ∃ r', (s.step (.detachChannel ch)).panes p = some r' ∧ r'.clients.lookup c = some sender := by
  have hpanes : (s.step (.detachChannel ch)).panes p = s.stepPanes (.detachChannel ch) p := by
    rw [step, stepRegistry]
    split <;> rfl
  rw [hpanes, stepPanes, relayEvent]
  cases hclient : (s.channels ch).client? with
  | none => exact ⟨r, hp, hc⟩
  | some client =>
    refine ⟨(r.detachChannel client ch).1, ?_, r.lookup_detachChannel_of_ne client ch hc hne⟩
    simp only [Option.map_some, hp]
    rfl

/-- **Registrations.** In every interleaving each registration is removed once, by the channel of
its newest generation, is resumed only from its own machine and not for another run, has a label of
its own while it lives, and its attachments survive the channels it left behind. -/
theorem registrations_run (instanceId : DaemonInstanceId) (es : List (ServerEvent B)) :
    Registrations NotOtherRun (run (new instanceId) es) := by
  have h := registry_run instanceId es
  generalize run (new instanceId) es = s at h
  constructor
  · intro ch ch' reg reg' hended hended' hk
    have hreg : (s.channels ch).reg? = some reg := by rw [hended]; rfl
    have hreg' : (s.channels ch').reg? = some reg' := by rw [hended']; rfl
    have hle := (h.removed ch reg hended).2 ch' reg' hreg' hk.symm
    have hge := (h.removed ch' reg' hended').2 ch reg hreg hk
    exact h.unique ch ch' reg reg' hreg hreg' hk (hge.antisymm hle)
  · exact h.gone
  · exact fun ch reg hended ↦ (h.removed ch reg hended).1
  · intro k hall
    cases hk : s.connections.lookup k with
    | none => rfl
    | some state =>
      obtain ⟨ch, reg, hreg, hregk, -, hended⟩ := h.owner k state hk
      obtain ⟨released, hend⟩ := hall ch reg hreg hregk
      exact absurd hend (hended reg released)
  · intro e k state hk hk'
    obtain ⟨ch, reg, he, hreg, rfl, hgen⟩ := removed_of_moved (moved_step s e) hk hk'
    refine ⟨ch, reg, he, hreg, rfl, fun ch' reg' hreg' hsame ↦ ?_⟩
    have hle := h.newest ch' reg' state hreg' (hsame ▸ hk)
    rcases (hgen ▸ hle).lt_or_eq with hlt | heq
    · exact .inl hlt
    · exact .inr (h.unique ch' ch reg' reg hreg' hreg hsame heq)
  · exact fun e k state state' hk hk' hgen ↦ resumed_of_moved h (moved_step s e) hk hk' hgen
  · exact h.labels
  · intro ch ch' reg reg' hch hreg' hk hlt p r c sender hp hc hctrl
    refine attachments_kept_of_ne s ch hp hc ?_
    -- the two channels hold different generations of one registration, so they are two
    rintro rfl
    rw [← hctrl, hch] at hreg'
    rw [← Option.some.inj hreg'] at hlt
    exact Nat.lt_irrefl _ hlt

/-- A client registers over one channel and comes back over another without naming a run. -/
def unstatedRun : List (ServerEvent MockBackend) :=
  [.register 1 .quic none ⟨"m", "host", "user"⟩, .drawClientId 1, .drawConnectionId 1,
    .insertConnection 1]

/-- The daemon cannot tell a client older than run numbers from one that comes back to another run,
and resumes both. -/
theorem not_registrations_of_unstated_run :
    ¬ ∀ es : List (ServerEvent MockBackend), Registrations SameRun (run (new 7) es) := by
  intro h
  have hbefore : ((run (new 7) unstatedRun).connections.lookup 1).map
      (fun state ↦ (state.generation, state.machineId)) = some (0, "m") := by decide
  have hafter : (((run (new 7) unstatedRun).step
      (.register 2 .uds (some ⟨1, none⟩) ⟨"m", "host", "user"⟩)).connections.lookup 1).map
        (fun state ↦ state.generation) = some 1 := by decide
  obtain ⟨state, hstate, hview⟩ := Option.map_eq_some_iff.mp hbefore
  obtain ⟨state', hstate', hview'⟩ := Option.map_eq_some_iff.mp hafter
  have hgen : state'.generation ≠ state.generation := by
    rw [hview', (Prod.mk.inj hview).1]
    decide
  obtain ⟨ch, transport, resumeFrom, identity, he, -, -, hrun⟩ :=
    (h unstatedRun).resumed_only _ 1 state state' hstate hstate' hgen
  obtain ⟨-, -, hfrom, -⟩ := ServerEvent.register.inj he
  rw [← Option.some.inj hfrom] at hrun
  cases hrun

end ServerApp

end Kmux
