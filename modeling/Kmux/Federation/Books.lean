import Kmux.Federation.Link

/-!
# The accounts of the calls on a link

Whether a call has been answered is spread over the calls that have not reached the connection yet,
the messages and frames on their way, the routes, and what went to the control lanes. `Books` puts
these side by side. The law that they obey is one of conservation (`Books.held`): a call that is due
an answer is pending, on its way or answered, and is so once. A link moves its books in a handful of
ways, and each of them is a lemma here.

The calls that are *due* an answer are the forwarded requests that carry an id and the requests for
the input lock.
-/

namespace Kmux

namespace Federation

/-- Whether an answer is due. -/
def Ask.due : Ask → Bool
  | .inputLock _ => true
  | .forward msg =>
    match msg.federation with
    | .forward _ (some _) => true
    | _ => false

def Ask.isLock : Ask → Bool
  | .inputLock _ => true
  | .forward _ => false

/-- Where the calls are. -/
structure Books where
  asked : List Pending
  pending : List Pending
  /-- What is on its way up or down for a call. -/
  way : List Cause
  routes : Table Route
  /-- What was sent to a client for a call. -/
  log : List Delivery
  silent : List ℕ
  stopped : Bool

namespace Books

/-- How often a call has been answered. -/
def answers (b : Books) (n : ℕ) : ℕ := (b.log.map Delivery.call).count (some n)

/-- How often a call is pending. -/
def pends (b : Books) (n : ℕ) : ℕ := (b.pending.map Pending.call).count n

/-- How often a call is on its way. -/
def travels (b : Books) (n : ℕ) : ℕ := (b.way.map Cause.call).count (some n)

/-- How often a call is held anywhere. -/
def held (b : Books) (n : ℕ) : ℕ := b.answers n + b.pends n + b.travels n

/-- The accounts agree. -/
structure Ok (b : Books) : Prop where
  numbered : ∀ p ∈ b.asked, b.asked[p.call]? = some p
  pending : ∀ p ∈ b.pending, p ∈ b.asked
  way : ∀ cause ∈ b.way, ∃ p ∈ b.asked, cause.call = some p.call ∧ cause.sender = p.sender ∧
    (p.ask.due → p.ask.isLock = false → cause.hubId.isSome)
  log : ∀ d ∈ b.log, ∃ p ∈ b.asked, d.call = some p.call ∧ p.sender = .client d.client d.ctrl
  routes : ∀ id r, b.routes.lookup id = some r → b.pends r.call = 0 ∧
    ∃ p ∈ b.asked, p.call = r.call ∧ p.sender = r.sender
  routes_inj : ∀ id id' r r', b.routes.lookup id = some r → b.routes.lookup id' = some r' →
    r.call = r'.call → id = id'
  once : ∀ n, b.held n ≤ 1
  settled : ∀ p ∈ b.asked, p.ask.due → b.held p.call = 1 ∨ p.call ∈ b.silent
  stopped : b.stopped → ∀ p ∈ b.asked, p.ask.due → b.travels p.call = 0

variable {b b' : Books} {p : Pending}

theorem Ok.call_lt (h : b.Ok) (hp : p ∈ b.asked) : p.call < b.asked.length :=
  (List.getElem?_eq_some_iff.mp (h.numbered p hp)).1

/-- A call is known by its number. -/
theorem Ok.eq_of_call (h : b.Ok) {q : Pending} (hp : p ∈ b.asked) (hq : q ∈ b.asked)
    (hcall : p.call = q.call) : p = q := by
  have hget := h.numbered p hp
  rw [hcall, h.numbered q hq, Option.some.injEq] at hget
  exact hget.symm

/-- A call that has not been made is held nowhere. -/
theorem Ok.held_fresh (h : b.Ok) : b.held b.asked.length = 0 := by
  have hlog : b.answers b.asked.length = 0 := by
    refine List.count_eq_zero.mpr fun hmem ↦ ?_
    obtain ⟨d, hd, hcall⟩ := List.mem_map.mp hmem
    obtain ⟨q, hq, hdcall, -⟩ := h.log d hd
    exact Nat.ne_of_lt (h.call_lt hq) (Option.some.inj (hdcall.symm.trans hcall))
  have hpending : b.pends b.asked.length = 0 := by
    refine List.count_eq_zero.mpr fun hmem ↦ ?_
    obtain ⟨q, hq, hcall⟩ := List.mem_map.mp hmem
    exact Nat.ne_of_lt (h.call_lt (h.pending q hq)) hcall
  have hway : b.travels b.asked.length = 0 := by
    refine List.count_eq_zero.mpr fun hmem ↦ ?_
    obtain ⟨cause, hcause, hcall⟩ := List.mem_map.mp hmem
    obtain ⟨q, hq, hqcall, -⟩ := h.way cause hcause
    exact Nat.ne_of_lt (h.call_lt hq) (Option.some.inj (hqcall.symm.trans hcall))
  rw [held, hlog, hpending, hway]

/-- A pending call is held once, as such. -/
theorem Ok.of_pending (h : b.Ok) (hp : p ∈ b.pending) :
    b.answers p.call = 0 ∧ b.pends p.call = 1 ∧ b.travels p.call = 0 := by
  have hpos : 0 < b.pends p.call := List.count_pos_iff.mpr (List.mem_map_of_mem hp)
  have honce := h.once p.call
  rw [held] at honce
  omega

/-! ## Moving a call -/

/-- One more answer. -/
private theorem answers_perm {d : Delivery} {log : List Delivery} {m : ℕ}
    (hlog : log.Perm (d :: b.log)) (hcall : d.call = some m) (n : ℕ) :
    (log.map Delivery.call).count (some n) = b.answers n + if m = n then 1 else 0 := by
  rw [(hlog.map Delivery.call).count_eq, List.map_cons, List.count_cons, hcall]
  simp only [answers, beq_iff_eq, Option.some.injEq]

/-- One more call on its way. -/
private theorem travels_perm {cause : Cause} {way way' : List Cause} {m : ℕ}
    (hway : way'.Perm (cause :: way)) (hcall : cause.call = some m) (n : ℕ) :
    (way'.map Cause.call).count (some n) =
      (way.map Cause.call).count (some n) + if m = n then 1 else 0 := by
  rw [(hway.map Cause.call).count_eq, List.map_cons, List.count_cons, hcall]
  simp only [beq_iff_eq, Option.some.injEq]

/-- One pending call fewer. -/
private theorem pends_erase (hp : p ∈ b.pending) (n : ℕ) :
    b.pends n = ((b.pending.erase p).map Pending.call).count n + if p.call = n then 1 else 0 := by
  rw [pends, ((List.perm_cons_erase hp).map Pending.call).count_eq, List.map_cons,
    List.count_cons]
  simp only [beq_iff_eq]

/-- Routes may be forgotten. -/
theorem Ok.forget (h : b.Ok) {routes : Table Route}
    (hroutes : ∀ id r, routes.lookup id = some r → b.routes.lookup id = some r) :
    { b with routes }.Ok :=
  { h with
    routes := fun id r hr ↦ h.routes id r (hroutes id r hr)
    routes_inj := fun id id' r r' hr hr' ↦
      h.routes_inj id id' r r' (hroutes id r hr) (hroutes id' r' hr') }

/-- A pending call is answered. -/
theorem Ok.answerPending (h : b.Ok) (hp : p ∈ b.pending) {d : Delivery} {log : List Delivery}
    (hlog : log.Perm (d :: b.log)) (hcall : d.call = some p.call)
    (hsender : p.sender = .client d.client d.ctrl) :
    { b with pending := b.pending.erase p, log }.Ok := by
  have hheld : ∀ n, { b with pending := b.pending.erase p, log }.held n = b.held n := by
    intro n
    have hanswers := answers_perm hlog hcall n
    have hpends := pends_erase hp n
    simp only [held, travels] at *
    simp only [answers, pends] at *
    omega
  refine { h with pending := ?_, log := ?_, routes := ?_, once := ?_, settled := ?_ }
  · exact fun q hq ↦ h.pending q (List.mem_of_mem_erase hq)
  · intro d' hd'
    rcases List.mem_cons.mp (hlog.mem_iff.mp hd') with rfl | hd'
    · exact ⟨p, h.pending p hp, hcall, hsender⟩
    · exact h.log d' hd'
  · intro id r hr
    obtain ⟨hpends, hknown⟩ := h.routes id r hr
    refine ⟨?_, hknown⟩
    rw [pends_erase hp] at hpends
    exact (Nat.add_eq_zero_iff.mp hpends).1
  · exact fun n ↦ (hheld n).trans_le (h.once n)
  · intro q hq hdue
    rw [hheld]
    exact h.settled q hq hdue

/-- A pending call goes up. -/
theorem Ok.send (h : b.Ok) (hp : p ∈ b.pending) {cause : Cause} {routes : Table Route}
    {way : List Cause} (hway : way.Perm (cause :: b.way)) (hcall : cause.call = some p.call)
    (hsender : cause.sender = p.sender)
    (hhub : p.ask.due → p.ask.isLock = false → cause.hubId.isSome)
    (hopen : p.ask.due → b.stopped = false)
    {id₀ : RequestId} (hroutes : ∀ id r, routes.lookup id = some r →
      b.routes.lookup id = some r ∨ id = id₀ ∧ r.call = p.call ∧ r.sender = p.sender) :
    { b with pending := b.pending.erase p, way, routes }.Ok := by
  -- the call moves from those pending to those on their way
  have hheld : ∀ n, { b with pending := b.pending.erase p, way, routes }.held n = b.held n := by
    intro n
    have htravels := travels_perm hway hcall n
    have hpends := pends_erase hp n
    simp only [held, answers] at *
    simp only [travels, pends] at *
    omega
  have hold : ∀ id r, b.routes.lookup id = some r → r.call ≠ p.call := by
    intro id r hr heq
    have hpends := (h.routes id r hr).1
    rw [heq, (h.of_pending hp).2.1] at hpends
    cases hpends
  refine { h with
    pending := ?_, way := ?_, routes := ?_, routes_inj := ?_, once := ?_, settled := ?_
    stopped := ?_ }
  · exact fun q hq ↦ h.pending q (List.mem_of_mem_erase hq)
  · intro cause' hcause'
    rcases List.mem_cons.mp (hway.mem_iff.mp hcause') with rfl | hcause'
    · exact ⟨p, h.pending p hp, hcall, hsender, hhub⟩
    · exact h.way cause' hcause'
  · intro id r hr
    rcases hroutes id r hr with hr | ⟨-, hrcall, hrsender⟩
    · obtain ⟨hpends, hknown⟩ := h.routes id r hr
      refine ⟨?_, hknown⟩
      rw [pends_erase hp] at hpends
      exact (Nat.add_eq_zero_iff.mp hpends).1
    · refine ⟨?_, p, h.pending p hp, hrcall.symm, hrsender.symm⟩
      have hpends := (h.of_pending hp).2.1
      rw [pends_erase hp, if_pos rfl] at hpends
      rw [hrcall]
      exact Nat.succ.inj hpends
  · intro id id' r r' hr hr' heq
    -- the new route is the only one of its call
    rcases hroutes id r hr with hr | ⟨hid, hrcall, -⟩ <;>
      rcases hroutes id' r' hr' with hr' | ⟨hid', hrcall', -⟩
    · exact h.routes_inj id id' r r' hr hr' heq
    · exact absurd (heq.trans hrcall') (hold id r hr)
    · exact absurd (heq.symm.trans hrcall) (hold id' r' hr')
    · exact hid.trans hid'.symm
  · exact fun n ↦ (hheld n).trans_le (h.once n)
  · intro q hq hdue
    rw [hheld]
    exact h.settled q hq hdue
  · intro hstop q hq hdue
    rw [Books.travels, travels_perm hway hcall, if_neg]
    · exact h.stopped hstop q hq hdue
    · intro heq
      obtain rfl : p = q := h.eq_of_call (h.pending p hp) hq heq
      exact Bool.noConfusion (hstop.symm.trans (hopen hdue))

/-- The peer handles a call without an answer. -/
theorem Ok.ignore (h : b.Ok) {cause : Cause} {way : List Cause} {n : ℕ}
    (hway : b.way.Perm (cause :: way)) (hcall : cause.call = some n) :
    { b with way, silent := b.silent ++ [n] }.Ok := by
  have hheld : ∀ m, { b with way, silent := b.silent ++ [n] }.held m +
      (if n = m then 1 else 0) = b.held m := by
    intro m
    have htravels := travels_perm hway hcall m
    simp only [held, answers, pends] at *
    simp only [travels] at *
    omega
  refine { h with way := ?_, once := ?_, settled := ?_, stopped := ?_ }
  · exact fun cause' hcause' ↦ h.way cause' (hway.mem_iff.mpr (List.mem_cons_of_mem cause hcause'))
  · exact fun m ↦ (Nat.le_add_right _ _).trans ((hheld m).trans_le (h.once m))
  · intro p hp hdue
    by_cases hn : n = p.call
    · exact .inr (List.mem_append_right _ (List.mem_singleton.mpr hn.symm))
    · have hsame := hheld p.call
      rw [if_neg hn, Nat.add_zero] at hsame
      rw [hsame]
      exact (h.settled p hp hdue).imp_right (List.mem_append_left _)
  · intro hstop p hp hdue
    have htravels := h.stopped hstop p hp hdue
    rw [Books.travels, travels_perm hway hcall] at htravels
    exact (Nat.add_eq_zero_iff.mp htravels).1

/-- The peer's answer to a call is passed on. -/
theorem Ok.deliver (h : b.Ok) {cause : Cause} {way : List Cause} {n : ℕ} {d : Delivery}
    {log : List Delivery} (hway : b.way.Perm (cause :: way)) (hcall : cause.call = some n)
    (hlog : log.Perm (d :: b.log)) (hdcall : d.call = some n)
    (hsender : cause.sender = .client d.client d.ctrl) : { b with way, log }.Ok := by
  have hheld : ∀ m, { b with way, log }.held m = b.held m := by
    intro m
    have htravels := travels_perm hway hcall m
    have hanswers := answers_perm hlog hdcall m
    simp only [held, pends] at *
    simp only [answers, travels] at *
    omega
  have hmem : cause ∈ b.way := hway.mem_iff.mpr List.mem_cons_self
  refine { h with way := ?_, log := ?_, once := ?_, settled := ?_, stopped := ?_ }
  · exact fun cause' hcause' ↦ h.way cause' (hway.mem_iff.mpr (List.mem_cons_of_mem cause hcause'))
  · intro d' hd'
    rcases List.mem_cons.mp (hlog.mem_iff.mp hd') with rfl | hd'
    · obtain ⟨p, hp, hpcall, hpsender, -⟩ := h.way cause hmem
      exact ⟨p, hp, hdcall.trans (hcall.symm.trans hpcall), hpsender.symm.trans hsender⟩
    · exact h.log d' hd'
  · exact fun m ↦ (hheld m).trans_le (h.once m)
  · intro p hp hdue
    rw [hheld]
    exact h.settled p hp hdue
  · intro hstop p hp hdue
    have htravels := h.stopped hstop p hp hdue
    rw [Books.travels, travels_perm hway hcall] at htravels
    exact (Nat.add_eq_zero_iff.mp htravels).1

/-- The feed is stopped, with nothing due on its way. -/
theorem Ok.stop (h : b.Ok) (hway : ∀ p ∈ b.asked, p.ask.due → b.travels p.call = 0) :
    { b with stopped := true }.Ok :=
  { h with stopped := fun _ ↦ hway }

/-! ## The end of a link -/

/-- What failing the waiting requests says, and to whom. -/
def failures (routes : Table Route) (msg : Route → ServerMessage) : List Delivery :=
  routes.values.flatMap fun r ↦ r.sender.answer (msg r) (some r.call)

/-- Every waiting request of a client fails once. -/
private theorem failures_calls {routes : Table Route} (msg : Route → ServerMessage)
    (hclient : ∀ r ∈ routes.values, ∃ client ctrl, r.sender = .client client ctrl) :
    (failures routes msg).map Delivery.call = routes.values.map fun r ↦ some r.call := by
  rw [failures]
  generalize routes.values = rs at hclient ⊢
  induction rs with
  | nil => rfl
  | cons r rs ih =>
    obtain ⟨client, ctrl, hsender⟩ := hclient r List.mem_cons_self
    rw [List.flatMap_cons, List.map_append, ih fun r' hr' ↦ hclient r' (List.mem_cons_of_mem r hr'),
      hsender]
    rfl

private theorem Ok.values_nodup (h : b.Ok) :
    (b.routes.values.map fun r ↦ some r.call).Nodup := by
  have hentries : b.routes.entries.Nodup := b.routes.nodupKeys.nodup
  rw [Table.values, List.map_map]
  refine List.Nodup.map_on (fun e he e' he' heq ↦ ?_) hentries
  have hr := AList.mem_lookup_iff.mpr he
  have hr' := AList.mem_lookup_iff.mpr he'
  have hid : e.1 = e'.1 := h.routes_inj e.1 e'.1 e.2 e'.2 hr hr' (Option.some.inj heq)
  obtain ⟨id, r⟩ := e
  obtain ⟨id', r'⟩ := e'
  obtain rfl : id = id' := hid
  obtain rfl : r = r' := Option.some.inj ((Option.mem_def.mp hr).symm.trans hr')
  rfl

/-- The link ends: everything on its way is lost, and every waiting request fails. Nothing due is
lost when no lock request was on its way, and nothing is answered twice when no waiting request had
been answered. -/
theorem Ok.fail (h : b.Ok) {log : List Delivery} (msg : Route → ServerMessage)
    (hlog : log.Perm (failures b.routes msg ++ b.log))
    (hwaits : ∀ id r, b.routes.lookup id = some r → b.answers r.call = 0)
    (hlocks : ∀ p ∈ b.asked, p.ask.isLock → b.travels p.call = 0)
    (hrouted : ∀ cause ∈ b.way, ∀ id, cause.hubId = some id →
      ∃ r, b.routes.lookup id = some r ∧ cause.call = some r.call) :
    { b with way := [], routes := ∅, log }.Ok := by
  have hclient : ∀ r ∈ b.routes.values, ∃ p ∈ b.asked, p.call = r.call ∧
      p.sender = r.sender := fun r hr ↦ by
    obtain ⟨id, hr⟩ := Table.mem_values.mp hr
    exact (h.routes id r hr).2
  have hcalls := failures_calls msg fun r hr ↦ by
    obtain ⟨p, -, -, hsender⟩ := hclient r hr
    exact ⟨p.client, p.ctrl, hsender.symm⟩
  -- a call is answered once more exactly when it has a route
  have hanswers : ∀ n, (log.map Delivery.call).count (some n) =
      (b.routes.values.map fun r ↦ some r.call).count (some n) + b.answers n := by
    intro n
    rw [(hlog.map Delivery.call).count_eq, List.map_append, List.count_append, hcalls]
    rfl
  -- its answer is the first, since a routed call has neither been answered nor is pending
  have hrouted' : ∀ n, some n ∈ (b.routes.values.map fun r ↦ some r.call) →
      (b.routes.values.map fun r ↦ some r.call).count (some n) = 1 ∧ b.answers n = 0 ∧
        b.pends n = 0 := by
    intro n hn
    obtain ⟨r, hr, hcall⟩ := List.mem_map.mp hn
    obtain ⟨id, hr⟩ := Table.mem_values.mp hr
    obtain rfl : r.call = n := Option.some.inj hcall
    exact ⟨List.count_eq_one_of_mem h.values_nodup hn, hwaits id r hr, (h.routes id r hr).1⟩
  have hheld : ∀ n, { b with way := [], routes := ∅, log }.held n =
      (b.routes.values.map fun r ↦ some r.call).count (some n) + b.answers n + b.pends n := by
    intro n
    rw [held, answers, hanswers]
    rfl
  have hunrouted : ∀ n, some n ∉ (b.routes.values.map fun r ↦ some r.call) →
      { b with way := [], routes := ∅, log }.held n + b.travels n = b.held n := by
    intro n hn
    rw [hheld, List.count_eq_zero_of_not_mem hn, Nat.zero_add]
    rfl
  refine { h with
    way := by simp, log := ?_, routes := ?_, routes_inj := ?_, once := ?_, settled := ?_
    stopped := fun _ _ _ _ ↦ rfl }
  · intro d hd
    rcases List.mem_append.mp (hlog.mem_iff.mp hd) with hd | hd
    · obtain ⟨r, hr, hd⟩ := List.mem_flatMap.mp hd
      obtain ⟨p, hp, hcall, hsender⟩ := hclient r hr
      rw [← hsender] at hd
      rw [List.mem_singleton.mp hd]
      exact ⟨p, hp, by rw [hcall], rfl⟩
    · exact h.log d hd
  · intro id r hr
    cases hr
  · intro id id' r r' hr
    cases hr
  · intro n
    by_cases hn : some n ∈ b.routes.values.map fun r ↦ some r.call
    · obtain ⟨hcount, hzero, hpends⟩ := hrouted' n hn
      rw [hheld, hcount, hzero, hpends]
    · exact (Nat.le_add_right _ _).trans ((hunrouted n hn).trans_le (h.once n))
  · intro p hp hdue
    by_cases hn : some p.call ∈ b.routes.values.map fun r ↦ some r.call
    · obtain ⟨hcount, hzero, hpends⟩ := hrouted' p.call hn
      rw [hheld, hcount, hzero, hpends]
      exact .inl rfl
    -- a call without a route is not on its way: under an id it would have one, and no lock
    -- request is
    · have htravels : b.travels p.call = 0 := by
        refine List.count_eq_zero.mpr fun hmem ↦ ?_
        obtain ⟨cause, hcause, hcall⟩ := List.mem_map.mp hmem
        obtain ⟨q, hq, hqcall, -, hhub⟩ := h.way cause hcause
        obtain rfl : p = q := h.eq_of_call hp hq (Option.some.inj (hcall.symm.trans hqcall))
        rcases hlock : p.ask.isLock with _ | _
        · obtain ⟨id, hid⟩ := Option.isSome_iff_exists.mp (hhub hdue hlock)
          obtain ⟨r, hr, hrcall⟩ := hrouted cause hcause id hid
          refine hn (List.mem_map.mpr ⟨r, Table.mem_values.mpr ⟨id, hr⟩, ?_⟩)
          exact hrcall.symm.trans hcall
        · exact List.count_pos_iff.mpr hmem |>.ne' (hlocks p hp hlock)
      have hsame := hunrouted p.call hn
      rw [htravels, Nat.add_zero] at hsame
      rw [hsame]
      exact h.settled p hp hdue

/-! ## New calls -/

private theorem numbered_concat (h : b.Ok) (hp : p.call = b.asked.length) :
    ∀ q ∈ b.asked ++ [p], (b.asked ++ [p])[q.call]? = some q := by
  intro q hq
  rcases List.mem_append.mp hq with hq | hq
  · rw [List.getElem?_append_left (h.call_lt hq)]
    exact h.numbered q hq
  · rw [List.mem_singleton.mp hq, hp, List.getElem?_concat_length]

/-- What the books say of the calls made before does not change with one more. -/
private theorem Ok.concat (h : b.Ok) (hp : p.call = b.asked.length)
    (hasked : b'.asked = b.asked ++ [p]) (hpending : ∀ q ∈ b'.pending, q ∈ b.pending ∨ q = p)
    (hway : b'.way = b.way) (hroutes : b'.routes = b.routes)
    (hlog : ∀ d ∈ b'.log, d ∈ b.log ∨ d.call = some p.call ∧ p.sender = .client d.client d.ctrl)
    (hsilent : b'.silent = b.silent) (hstopped : b'.stopped = b.stopped)
    (hpends : ∀ n ≠ p.call, b'.pends n = b.pends n)
    (hheld : ∀ n, b'.held n = b.held n + if p.call = n then 1 else 0) : b'.Ok := by
  have hfresh : b.held p.call = 0 := by rw [hp]; exact h.held_fresh
  have hold : ∀ q ∈ b.asked, q.call ≠ p.call := fun q hq heq ↦
    Nat.ne_of_lt (h.call_lt hq) (heq.trans hp)
  have hmem : ∀ q, q ∈ b.asked → q ∈ b'.asked := fun q hq ↦ by
    rw [hasked]
    exact List.mem_append_left _ hq
  have hnew : p ∈ b'.asked := by
    rw [hasked]
    exact List.mem_append_right _ List.mem_cons_self
  refine ⟨?_, fun q hq ↦ ?_, fun cause hcause ↦ ?_, fun d hd ↦ ?_, fun id r hr ↦ ?_, ?_,
    fun n ↦ ?_, fun q hq hdue ↦ ?_, fun hstop q hq hdue ↦ ?_⟩
  · rw [hasked]
    exact numbered_concat h hp
  · rcases hpending q hq with hq | rfl
    · exact hmem q (h.pending q hq)
    · exact hnew
  · rw [hway] at hcause
    obtain ⟨q, hq, hcause⟩ := h.way cause hcause
    exact ⟨q, hmem q hq, hcause⟩
  · rcases hlog d hd with hd | ⟨hcall, hsender⟩
    · obtain ⟨q, hq, hd⟩ := h.log d hd
      exact ⟨q, hmem q hq, hd⟩
    · exact ⟨p, hnew, hcall, hsender⟩
  · rw [hroutes] at hr
    obtain ⟨hpends', q, hq, hcall, hsender⟩ := h.routes id r hr
    refine ⟨?_, q, hmem q hq, hcall, hsender⟩
    rw [hpends r.call (hcall ▸ hold q hq), hpends']
  · rw [hroutes]
    exact h.routes_inj
  · rw [hheld]
    split
    next heq => rw [← heq, hfresh]
    next => exact h.once n
  · rw [hheld, hsilent]
    rw [hasked] at hq
    rcases List.mem_append.mp hq with hq | hq
    · rw [if_neg (hold q hq).symm]
      exact h.settled q hq hdue
    · rw [List.mem_singleton.mp hq, if_pos rfl, hfresh]
      exact .inl rfl
  · rw [hstopped] at hstop
    rw [hasked] at hq
    rw [travels, hway, ← travels]
    rcases List.mem_append.mp hq with hq | hq
    · exact h.stopped hstop q hq hdue
    · rw [List.mem_singleton.mp hq]
      rw [held] at hfresh
      omega

/-- A call finds the connection. -/
theorem Ok.enter (h : b.Ok) (hp : p.call = b.asked.length) :
    { b with asked := b.asked ++ [p], pending := b.pending ++ [p] }.Ok := by
  have hpends : ∀ n, { b with asked := b.asked ++ [p], pending := b.pending ++ [p] }.pends n =
      b.pends n + if p.call = n then 1 else 0 := by
    intro n
    simp only [pends, List.map_append, List.map_singleton, List.count_append,
      List.count_singleton, beq_iff_eq]
  refine h.concat hp rfl (fun q hq ↦ ?_) rfl rfl (fun d hd ↦ .inl hd) rfl rfl (fun n hn ↦ ?_)
    fun n ↦ ?_
  · rcases List.mem_append.mp hq with hq | hq
    · exact .inl hq
    · exact .inr (List.mem_singleton.mp hq)
  · rw [hpends, if_neg hn.symm, Nat.add_zero]
  · rw [held, hpends, held]
    simp only [answers, travels]
    omega

/-- A call is answered at once. -/
theorem Ok.refuse (h : b.Ok) (hp : p.call = b.asked.length) {d : Delivery} {log : List Delivery}
    (hlog : log.Perm (d :: b.log)) (hcall : d.call = some p.call)
    (hsender : p.sender = .client d.client d.ctrl) :
    { b with asked := b.asked ++ [p], log }.Ok := by
  refine h.concat hp rfl (fun q hq ↦ .inl hq) rfl rfl (fun d' hd' ↦ ?_) rfl rfl (fun n hn ↦ rfl)
    fun n ↦ ?_
  · rcases List.mem_cons.mp (hlog.mem_iff.mp hd') with rfl | hd'
    · exact .inr ⟨hcall, hsender⟩
    · exact .inl hd'
  · have hanswers : { b with asked := b.asked ++ [p], log }.answers n =
        b.answers n + if p.call = n then 1 else 0 := answers_perm hlog hcall n
    rw [held, hanswers, held]
    simp only [pends, travels]
    omega

end Books

end Federation

end Kmux
