import Kmux.App.LinkView

/-!
# The input of an outage

An outage begins when a live link is found dead and is over when the retries end, with the link back
or for good. What is typed meanwhile is in the record, and so is what is delivered at the end. The
two are compared here: what is delivered is what fitted, or nothing, and the rest is counted.

What fitted is not a prefix of what was typed. An input that does not fit is dropped whole, and one
typed later that is smaller may fit again.
-/

namespace Kmux

namespace Driver

variable {K : Type*}

/-- An outage: the daemon run that was lost, and what is typed since. -/
structure Outage (K : Type*) where
  run : Option DaemonInstanceId
  typed : List (ClientMessage K × Nanos)

/-- The outage that is on after something happened. -/
def Outage.next : Option (Outage K) → Report K → Option (Outage K)
  | _, .lost run => some { run, typed := [] }
  | some o, .typed msg now => some { o with typed := o.typed ++ [(msg, now)] }
  | _, .flushed _ _ _ _ => none
  | o, _ => o

/-- The outage that is on at the end of a record. -/
def outageAt (r : List (Report K)) : Option (Outage K) := r.foldl Outage.next none

/-- What the outage delivers when it is over: what fitted, if the link is back at the daemon run it
was lost to and the oldest input is not too old. -/
def Outage.delivers (o : Outage K) (now : Nanos) (reached : Option DaemonInstanceId) :
    List (ClientMessage K) :=
  if (reached ≠ none ∧ reached = o.run) ∧ Fresh o.typed now then (kept o.typed).map Prod.fst else []

/-- Where everything fits, everything is delivered. -/
theorem Outage.delivers_of_le {o : Outage K} {now : Nanos} {reached : Option DaemonInstanceId}
    (hfits : typedKeystrokes o.typed ≤ outageInputCapacity)
    (hsame : reached ≠ none ∧ reached = o.run) (hfresh : Fresh o.typed now) :
    o.delivers now reached = o.typed.map Prod.fst := by
  rw [Outage.delivers, if_pos ⟨hsame, hfresh⟩, kept_eq_self_iff.mpr hfits]

/-- What is to hold of a report, given the outage that is on. -/
def Report.Honest (o : Option (Outage K)) : Report K → Prop
  | .lost _ => o = none
  | .typed _ _ => o ≠ none
  | .flushed now reached delivered dropped =>
    match o with
    | none => delivered = []
    | some o =>
      delivered = o.delivers now reached
        ∧ Budget.total keystrokes delivered + dropped = typedKeystrokes o.typed
  | _ => True

/-- Everything typed in an outage. -/
def typings (r : List (Report K)) : List (ClientMessage K) :=
  r.flatMap fun
    | .typed msg _ => [msg]
    | _ => []

/-- Everything delivered after one. -/
def deliveries (r : List (Report K)) : List (ClientMessage K) :=
  r.flatMap fun
    | .flushed _ _ delivered _ => delivered
    | _ => []

/-- A report that has nothing to do with the input. -/
def Report.Aside : Report K → Prop
  | .lost _ | .typed _ _ | .flushed _ _ _ _ => False
  | _ => True

section Aside

variable {h : Report K} (ha : h.Aside)
include ha

theorem Report.Aside.next (o : Option (Outage K)) : Outage.next o h = o := by
  cases h with
  | lost | typed | flushed => exact ha.elim
  | _ => cases o <;> rfl

theorem Report.Aside.honest (o : Option (Outage K)) : h.Honest o := by
  cases h with
  | lost | typed | flushed => exact ha.elim
  | _ => trivial

theorem Report.Aside.typings : typings [h] = [] := by
  cases h with
  | lost | typed | flushed => exact ha.elim
  | _ => rfl

theorem Report.Aside.deliveries : deliveries [h] = [] := by
  cases h with
  | lost | typed | flushed => exact ha.elim
  | _ => rfl

end Aside

@[simp] theorem outageAt_concat (r : List (Report K)) (h : Report K) :
    outageAt (r ++ [h]) = Outage.next (outageAt r) h := by
  simp [outageAt]

@[simp] theorem typings_append (r r' : List (Report K)) :
    typings (r ++ r') = typings r ++ typings r' := List.flatMap_append

@[simp] theorem deliveries_append (r r' : List (Report K)) :
    deliveries (r ++ r') = deliveries r ++ deliveries r' := List.flatMap_append

theorem OutageInput.queued_push_sublist (o : OutageInput K) (msg : ClientMessage K) (now : Nanos) :
    (o.push msg now).queued.Sublist (o.queued ++ [msg]) := by
  simp only [push]
  split
  · exact List.sublist_append_left _ _
  · exact List.Sublist.refl _

theorem OutageInput.flush_sublist (o : OutageInput K) (now : Nanos) (deliver : Bool) :
    (o.flush now deliver).1.Sublist o.queued := by
  simp only [flush]
  split
  · exact List.Sublist.refl _
  · exact List.nil_sublist _

/-! ## The outage of the record and that of the driver -/

/-- The driver holds what fitted of what the record says was typed. -/
def View.Follows (v : View K) : Option (Outage K) → Prop
  | none => v.schedule = .idle ∧ v.outage.Empty
  | some o => v.schedule ≠ .idle ∧ v.run = o.run ∧ v.outage.Holds o.typed

theorem View.Follows.of_idle {v : View K} {o : Option (Outage K)} (h : v.Follows o)
    (hidle : v.schedule = .idle) : o = none ∧ v.outage.Empty := by
  rcases o with _ | o
  · exact ⟨rfl, h.2⟩
  · exact absurd hidle h.1

theorem View.Follows.of_ne_idle {v : View K} {o : Option (Outage K)} (h : v.Follows o)
    (hidle : v.schedule ≠ .idle) : ∃ a, o = some a ∧ v.run = a.run ∧ v.outage.Holds a.typed := by
  rcases o with _ | a
  · exact absurd h.1 hidle
  · exact ⟨a, rfl, h.2⟩

theorem View.Follows.congr {v v' : View K} {o : Option (Outage K)} (h : v.Follows o)
    (hschedule : v'.schedule = .idle ↔ v.schedule = .idle) (hrun : v'.run = v.run)
    (houtage : v'.outage = v.outage) : v'.Follows o := by
  rcases o with _ | o
  · exact ⟨hschedule.mpr h.1, houtage ▸ h.2⟩
  · exact ⟨fun hidle ↦ h.1 (hschedule.mp hidle), hrun.trans h.2.1, houtage ▸ h.2.2⟩

/-- The end of an outage, whichever way the retries end. -/
theorem View.Follows.honest {v : View K} {o : Option (Outage K)} (h : v.Follows o) (now : Nanos)
    (reached : Option DaemonInstanceId) {deliver : Bool}
    (hdeliver : deliver = true ↔ reached ≠ none ∧ reached = v.run) :
    (Report.flushed now reached (v.outage.flush now deliver).1
      (v.outage.flush now deliver).2.dropped).Honest o := by
  rcases o with _ | o
  · exact h.2.flush_fst now deliver
  · obtain ⟨-, hrun, hholds⟩ := h
    refine ⟨?_, hholds.flush_total now deliver⟩
    simp only [hholds.flush_fst, Outage.delivers, hdeliver, hrun]

/-- What is delivered, and what is still held, comes in the order it was typed, each at most
once. -/
def View.InOrder (v : View K) (r : List (Report K)) : Prop :=
  (deliveries r ++ v.outage.queued).Sublist (typings r)

theorem View.InOrder.flush {v : View K} {r : List (Report K)} (h : v.InOrder r) (now : Nanos)
    (deliver : Bool) :
    (deliveries r ++ (v.outage.flush now deliver).1).Sublist (typings r) :=
  ((List.Sublist.refl _).append (v.outage.flush_sublist now deliver)).trans h

theorem View.delivers_iff {v : View K} {reached : Option DaemonInstanceId} :
    v.delivers reached = true ↔ reached ≠ none ∧ reached = v.run := by
  simp [View.delivers, Option.isSome_iff_ne_none]

/-- A move that leaves the input alone, with a report that does. -/
theorem follows_aside {r : List (Report K)} {v v' : View K} {h : Report K} (ha : h.Aside)
    (hinv : v.Follows (outageAt r) ∧ v.InOrder r)
    (hschedule : v'.schedule = .idle ↔ v.schedule = .idle) (hrun : v'.run = v.run)
    (houtage : v'.outage = v.outage) :
    (v'.Follows (outageAt (r ++ [h])) ∧ v'.InOrder (r ++ [h]))
      ∧ Record.Lawful (fun r h ↦ h.Honest (outageAt r)) r [h] := by
  obtain ⟨hfollows, horder⟩ := hinv
  rw [outageAt_concat, ha.next]
  refine ⟨⟨hfollows.congr hschedule hrun houtage, ?_⟩, ha.honest _, trivial⟩
  rw [View.InOrder, deliveries_append, typings_append, ha.deliveries, ha.typings, houtage,
    List.append_nil, List.append_nil]
  exact horder

/-- One more report that has nothing to do with the input. -/
theorem follows_then {r hs : List (Report K)} {v : View K} {h : Report K}
    (hinv : (v.Follows (outageAt (r ++ hs)) ∧ v.InOrder (r ++ hs))
      ∧ Record.Lawful (fun r h ↦ h.Honest (outageAt r)) r hs) (ha : h.Aside) :
    (v.Follows (outageAt (r ++ (hs ++ [h]))) ∧ v.InOrder (r ++ (hs ++ [h])))
      ∧ Record.Lawful (fun r h ↦ h.Honest (outageAt r)) r (hs ++ [h]) := by
  have hlast := follows_aside ha hinv.1 Iff.rfl rfl rfl
  rw [List.append_assoc] at hlast
  exact ⟨hlast.1, (Record.lawful_append r hs [h]).mpr ⟨hinv.2, hlast.2⟩⟩

/-- A move that ends the outage, if one is on. -/
theorem follows_flushed {r : List (Report K)} {v v' : View K}
    (hinv : v.Follows (outageAt r) ∧ v.InOrder r) (now : Nanos)
    (reached : Option DaemonInstanceId) {deliver : Bool}
    (hdeliver : deliver = true ↔ reached ≠ none ∧ reached = v.run)
    (hschedule : v'.schedule = .idle) (houtage : v'.outage = (v.outage.flush now deliver).2) :
    let flushed := [.flushed now reached (v.outage.flush now deliver).1
      (v.outage.flush now deliver).2.dropped]
    (v'.Follows (outageAt (r ++ flushed)) ∧ v'.InOrder (r ++ flushed))
      ∧ Record.Lawful (fun r h ↦ h.Honest (outageAt r)) r flushed := by
  refine ⟨⟨?_, ?_⟩, hinv.1.honest now reached hdeliver, trivial⟩
  · rw [outageAt_concat]
    exact ⟨hschedule, houtage ▸ v.outage.empty_flush now deliver⟩
  · have hqueued : v'.outage.queued = [] := by
      rw [houtage]
      exact (v.outage.empty_flush now deliver).queued
    simpa [View.InOrder, deliveries, typings, hqueued] using hinv.2.flush now deliver

theorem follows_move (r : List (Report K)) (v : View K) (hs : List (Report K)) (v' : View K)
    (hwf : v.Wf) (hinv : v.Follows (outageAt r) ∧ v.InOrder r) (h : View.Move False v hs v') :
    (v'.Follows (outageAt (r ++ hs)) ∧ v'.InOrder (r ++ hs))
      ∧ Record.Lawful (fun r h ↦ h.Honest (outageAt r)) r hs := by
  cases h with
  | stay | leave | ended | cancelled =>
    rw [List.append_nil]
    exact ⟨⟨hinv.1.congr Iff.rfl rfl rfl, hinv.2⟩, trivial⟩
  | lost due hlive =>
    obtain ⟨hnone, hempty⟩ := hinv.1.of_idle (hwf.live hlive).1
    refine ⟨⟨?_, ?_⟩, hnone, trivial⟩
    · rw [outageAt_concat]
      exact ⟨fun h ↦ Schedule.noConfusion h, rfl, hempty.holds_begin⟩
    · simpa [View.InOrder, deliveries, typings, OutageInput.begin] using hinv.2
  | attempt n due hs => exact follows_aside trivial hinv (by simp [hs]) rfl rfl
  | hurry n due now hs => exact follows_aside trivial hinv (by simp [hs]) rfl rfl
  | asked => exact follows_aside trivial hinv Iff.rfl rfl rfl
  | start hs => exact follows_aside trivial hinv Iff.rfl rfl rfl
  | failed n due hs => exact follows_aside trivial hinv (by simp [hs]) rfl rfl
  | disconnect => exact follows_aside trivial hinv Iff.rfl rfl rfl
  | sent msg hs => exact follows_aside trivial hinv Iff.rfl rfl rfl
  | restored now reached hb =>
    exact follows_flushed hinv now reached View.delivers_iff rfl rfl
  | gaveUp now refused hb =>
    have hnone : false = true ↔ (none : Option DaemonInstanceId) ≠ none ∧ none = v.run := by simp
    rcases refused with _ | _
    · exact follows_flushed hinv now none hnone rfl rfl
    · exact follows_then (follows_flushed hinv now none hnone rfl rfl) trivial
  | typed msg now hs =>
    obtain ⟨a, ha, hrun, hholds⟩ := hinv.1.of_ne_idle hs
    refine ⟨⟨?_, ?_⟩, ?_, trivial⟩
    · rw [outageAt_concat, ha]
      exact ⟨hs, hrun, hholds.push msg now⟩
    · have hpush := (List.Sublist.refl (deliveries r)).append
        (v.outage.queued_push_sublist msg now)
      rw [← List.append_assoc] at hpush
      have hall := hpush.trans (hinv.2.append (List.Sublist.refl [msg]))
      simpa [View.InOrder, deliveries, typings] using hall
    · change outageAt r ≠ none
      rw [ha]
      exact Option.some_ne_none a

/-! ## Runs -/

theorem follows_new (jitterSeed : ℕ) (desiredPeer : Option PeerId) (pendingTarget : Bool)
    (now : Nanos) :
    let v := view (.new jitterSeed desiredPeer pendingTarget now : FrontendDriver K)
    v.Follows (outageAt []) ∧ v.InOrder [] := by
  rw [FrontendDriver.new]
  split <;> exact ⟨⟨rfl, OutageInput.empty_default⟩, List.Sublist.refl []⟩

/-- In every run, what is delivered after an outage is what fitted of what was typed in it, in that
order and each input at most once, or nothing, and every keystroke is delivered or counted. -/
theorem outage_input_honest (jitterSeed : ℕ) (desiredPeer : Option PeerId) (pendingTarget : Bool)
    (now : Nanos) (es : List (Event K)) :
    let r := record (.new jitterSeed desiredPeer pendingTarget now) es
    (∀ pre h post, r = pre ++ h :: post → h.Honest (outageAt pre))
      ∧ (deliveries r).Sublist (typings r) := by
  obtain ⟨-, hinv, hlaw⟩ := lawful_run False _ follows_move
    (FrontendDriver.wf_new jitterSeed desiredPeer pendingTarget now)
    (follows_new jitterSeed desiredPeer pendingTarget now) es
    (Run.ok_iff_forall _ _ |>.mpr fun _ _ _ h ↦ h.elim)
  exact ⟨fun pre h post heq ↦ (Record.lawful_iff_forall [] _).mp hlaw pre h post heq,
    (List.sublist_append_left _ _).trans hinv.2⟩

/-- An outage in which a batch of 257 keys does not fit and a single key typed after it does. -/
def holedOutage : List (Event Unit) :=
  let gate : Gate := { suppressed := false, activePane := some "eagle/0", locked := false }
  [.finish 0 (.success ⟨.uds, some 7⟩), .poll 0, .srvClose, .drain 0 [],
    .sendKeys 0 gate (List.replicate 257 ()), .sendKeys 0 gate [()], .retry (millis 250),
    .finish 1 (.success ⟨.uds, some 7⟩), .poll (millis 250)]

theorem record_holedOutage :
    record (.new 0 none true 0) holedOutage
      = [.flushed 0 (some 7) [] 0, .lost (some 7),
          .typed (.ptyKeyBatch "eagle/0" (List.replicate 257 ())) 0,
          .typed (.ptyKeyBatch "eagle/0" [()]) 0, .attempt 1,
          .flushed (millis 250) (some 7) [.ptyKeyBatch "eagle/0" [()]] 257] := by
  decide +kernel

/-- What is delivered need not be a prefix of what was typed. -/
theorem delivered_not_prefix :
    ¬ ∀ (es : List (Event Unit)) (pre : List (Report Unit)) (o : Outage Unit) (now : Nanos)
      (reached : Option DaemonInstanceId) (delivered : List (ClientMessage Unit)) (dropped : ℕ)
      (post : List (Report Unit)),
      record (.new 0 none true 0) es = pre ++ .flushed now reached delivered dropped :: post →
        outageAt pre = some o → delivered <+: o.typed.map Prod.fst := by
  intro h
  have hprefix := h holedOutage
    [.flushed 0 (some 7) [] 0, .lost (some 7),
      .typed (.ptyKeyBatch "eagle/0" (List.replicate 257 ())) 0,
      .typed (.ptyKeyBatch "eagle/0" [()]) 0, .attempt 1]
    { run := some 7
      typed := [(.ptyKeyBatch "eagle/0" (List.replicate 257 ()), 0),
        (.ptyKeyBatch "eagle/0" [()], 0)] }
    (millis 250) (some 7) [.ptyKeyBatch "eagle/0" [()]] 257 [] record_holedOutage rfl
  obtain ⟨rest, hrest⟩ := hprefix
  have hkeys := (ClientMessage.ptyKeyBatch.inj (List.cons.inj hrest).1).2
  have hlength := congrArg List.length hkeys
  rw [List.length_replicate] at hlength
  exact absurd hlength (by decide)

end Driver

end Kmux
