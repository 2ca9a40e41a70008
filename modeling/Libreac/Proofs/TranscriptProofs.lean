import Libreac.PacerClock
import Libreac.Proofs.HandoverProofs
import Libreac.Proofs.PacerProofs

/-!
# Proofs: the clock transcript

The pacer reports the discipline when its generation is not the one last reported. The generation moves
with every change, so one report follows each; a rate change starts it over and leaves the copy it is
compared with. The first evaluation behind a rate change therefore comes to generation 0 or 1, and is
passed over in silence if that is the generation last reported (`RateTold`).
-/

namespace Libreac

open Reactive (Event sinceLast fromLast sinceLast_concat fromLast_concat)

/-! ## What a run shows -/

/-- What the transcript reports: the reference, the state and the quality. -/
abbrev InForce := ClockSource × ClockState × ClockQuality

/-- What is in force. -/
def ClockDisc.inForce (c : ClockDisc) : InForce := (c.src, c.state, c.srcQuality)

/-- The event says that `f` is in force. -/
def PacerLogEvent.Names (ev : PacerLogEvent) (f : InForce) : Prop :=
  ev.a = f.1.code ∧ ev.clockState = f.2.1.code ∧ ev.clockQuality = UInt8.ofNat f.2.2.rank

instance (ev : PacerLogEvent) (f : InForce) : Decidable (ev.Names f) :=
  inferInstanceAs (Decidable (_ ∧ _ ∧ _))

def atTick (e : PacerClockEvent) : Bool :=
  match e.input with
  | .tick _ => true
  | _ => false

/-- The tick took up the discipline. -/
def evaluatesClock (e : PacerClockEvent) : Bool := atTick e && e.pre.evaluates

def changesRate (e : PacerClockEvent) : Bool :=
  match e.input with
  | .applyRate _ => true
  | _ => false

/-- The clock event that the call pushed. -/
def clockPushed (e : PacerClockEvent) : Option PacerLogEvent := e.out.pushed.filter (·.kind = .clock)

def lastClockEvent (log : List PacerClockEvent) : Option PacerLogEvent := (log.filterMap clockPushed).getLast?

/-- The rate was changed and no tick has taken up the discipline since. -/
def restarted (log : List PacerClockEvent) : Bool := (sinceLast evaluatesClock log).any changesRate

/-- The first tick of a run. -/
def firstTick (log : List PacerClockEvent) : Option PacerClockEvent := log.find? atTick

/-- What is in force behind the call is what the transcript says last, if it was ever said or differs from
what was in force at the first tick. -/
def UpToDate (log : List PacerClockEvent) (e : PacerClockEvent) : Prop :=
  (lastClockEvent log ≠ none ∨
      ∃ first, firstTick (log ++ [e]) = some first ∧ e.post.clock.inForce ≠ first.pre.clock.inForce) →
    ∃ ev, lastClockEvent (log ++ [e]) = some ev ∧ ev.Names e.post.clock.inForce

/-- What a discipline that starts over comes to: the reference is being acquired, at the grade its
publisher gives it. -/
def ClockedPacer.restart (p : ClockedPacer) (now : UInt64) : InForce :=
  if p.sel now = .freerun then (.freerun, .unlocked, .ungraded)
  else (p.sel now, .locking, p.quality (p.sel now))

/-- The generation it comes to. -/
def ClockedPacer.restartGeneration (p : ClockedPacer) (now : UInt64) : UInt32 :=
  if p.sel now = .freerun then 0 else 1

/-- A tick that finds the discipline started over by a rate change can tell by its generation that there
is something to report, or there is nothing. -/
def RateTold (log : List PacerClockEvent) (e : PacerClockEvent) : Prop :=
  ∀ now, e.input = .tick now → restarted log = true → e.pre.genSeen = e.pre.restartGeneration now →
    ∀ ev ∈ lastClockEvent log, ev.Names (e.pre.restart now)

/-- The samples the loop was given. -/
def Dll.consumed (d : Dll) : ℕ := d.updates + d.rejected

/-- The call gave the loop a sample. -/
def feedsLoop (e : PacerClockEvent) : Bool := e.pre.clock.dll.consumed < e.post.clock.dll.consumed

/-- The call publishes for the reference. -/
def publishes (s : ClockSource) (e : PacerClockEvent) : Bool :=
  match e.input with
  | .publish src .. => clockSourceOf src = some s
  | _ => false

/-- The call fed the loop the sample of the reference in use that was published last, a present and young
one that had not been fed before. -/
def FedOnce (log : List PacerClockEvent) (e : PacerClockEvent) : Prop :=
  ∃ l since src ppmMilli label quality stamp now,
    fromLast (publishes e.post.clock.src) log = l :: since ∧
    l.input = .publish src true ppmMilli label quality stamp ∧
    clockSourceOf src = some e.post.clock.src ∧ e.input = .tick now ∧ now - stamp < clockStaleNs ∧
    e.post.clock.dll = (dllUpdate (e.pre.clock.switch e.post.clock.src).dll ((ppmMilli : ℚ) / 1000)).1 ∧
    ∀ x ∈ since, feedsLoop x = true → x.post.clock.src ≠ e.post.clock.src

section Run

variable {log : List PacerClockEvent} {e : PacerClockEvent}

theorem lastClockEvent_concat (log : List PacerClockEvent) (e : PacerClockEvent) :
    lastClockEvent (log ++ [e]) = (clockPushed e).or (lastClockEvent log) := by
  unfold lastClockEvent
  rw [List.filterMap_append]
  cases h : clockPushed e with
  | none => simp [h]
  | some ev => simp [h]

theorem restarted_concat (log : List PacerClockEvent) (e : PacerClockEvent) :
    restarted (log ++ [e]) = if evaluatesClock e then false else restarted log || changesRate e := by
  unfold restarted
  rw [sinceLast_concat]
  split_ifs <;> simp

theorem firstTick_concat (log : List PacerClockEvent) (e : PacerClockEvent) :
    firstTick (log ++ [e]) = (firstTick log).or (if atTick e then some e else none) := by
  unfold firstTick
  rw [List.find?_append]
  congr 1
  cases h : atTick e with
  | true => simp [h]
  | false => simp [h]

end Run

/-! ## The discipline -/

section Discipline

variable {c : ClockDisc} {avail : UInt32} {m : ℚ}

/-- A call counts one generation if anything reported has changed. -/
theorem clockDiscUpdate_generation (c : ClockDisc) (avail : UInt32) (measured : Option ℚ) :
    (clockDiscUpdate c avail measured).generation =
      if (clockDiscUpdate c avail measured).inForce = c.inForce then c.generation
      else c.generation + 1 := by
  obtain ⟨hchanged, hsame⟩ := clockStep_generation c (.update avail measured)
  split_ifs with h
  · unfold ClockDisc.inForce at h
    simp only [Prod.mk.injEq] at h
    refine hsame fun hc => ?_
    rcases hc with hc | hc | hc
    · exact hc h.1
    · exact hc h.2.1
    · exact hc h.2.2
  · refine hchanged ?_
    unfold ClockDisc.inForce at h
    simp only [Prod.mk.injEq, not_and_or] at h
    exact h

/-- The quality in force is that of the reference, corrected by what the loop has measured. -/
theorem clockDiscUpdate_quality (h : c.selects avail ≠ .freerun) (measured : Option ℚ) :
    (clockDiscUpdate c avail measured).srcQuality = clockQualityApply (c.selects avail)
      (c.quality (c.selects avail)) (dllStability (clockDiscUpdate c avail measured).dll) := by
  have hreport : ∃ b : ClockDisc, clockDiscUpdate c avail measured = b.report c := by
    unfold clockDiscUpdate
    dsimp only
    rw [if_neg h]
    exact ⟨_, rfl⟩
  have hsrc := clockDiscUpdate_src c avail measured
  have hfixed := (clockDiscUpdate_fixed c avail measured).2.1
  obtain ⟨b, hb⟩ := hreport
  rw [hb] at hsrc hfixed ⊢
  rw [← hsrc, ← hfixed]
  exact if_neg fun hfree => h (hsrc.symm.trans hfree)

/-- A sample, sane or not, goes through the loop. -/
theorem clockDiscUpdate_dll_some (h : c.selects avail ≠ .freerun) (m : ℚ) :
    (clockDiscUpdate c avail (some m)).dll = (dllUpdate (c.switch (c.selects avail)).dll m).1 := by
  cases hm : dllSane m with
  | true => rw [clockDiscUpdate_taken h hm, report_dll]; rfl
  | false => rw [clockDiscUpdate_rejected h hm, report_dll, dllUpdate_rejected hm]

/-- Nothing else does. -/
theorem clockDiscUpdate_dll_none (c : ClockDisc) (avail : UInt32) :
    (clockDiscUpdate c avail none).dll = (c.switch (c.selects avail)).dll := by
  by_cases hfree : c.selects avail = .freerun
  · rw [clockDiscUpdate_free hfree, report_dll, freeRun_dll, hfree]
  · rw [clockDiscUpdate_none hfree, report_dll, wait_dll]

theorem switch_consumed (c : ClockDisc) (src : ClockSource) :
    (c.switch src).dll.consumed = c.dll.consumed := by
  unfold ClockDisc.switch
  split_ifs <;> rfl

theorem dllUpdate_consumed (d : Dll) (m : ℚ) : (dllUpdate d m).1.consumed = d.consumed + 1 := by
  have hjudge : ∀ d : Dll, d.judge.rejected = d.rejected := by
    intro d
    unfold Dll.judge
    split_ifs <;> rfl
  unfold Dll.consumed
  cases hm : dllSane m with
  | false =>
    rw [dllUpdate_rejected hm]
    exact (Nat.add_assoc _ _ _).symm
  | true =>
    have hrejected : (dllUpdate d m).1.rejected = d.rejected := by
      unfold dllUpdate
      rw [hm]
      simp only [Bool.not_true, Bool.false_eq_true, if_false]
      split_ifs
      · rw [Dll.observe, hjudge]
        rfl
      · rfl
    rw [hrejected, (dllUpdate_taken hm).2.1]
    omega

/-- A loop that has taken no sample yet has no verdict after one. -/
theorem dllUpdate_unknown {d : Dll} (hupdates : d.updates = 0) (hstab : d.stabN = 0) (m : ℚ) :
    dllStability (dllUpdate d m).1 = .unknown := by
  have hn : (dllUpdate d m).1.stabN = 0 := by
    unfold dllUpdate
    split_ifs with hsane
    · exact hstab
    · simp only [hupdates, lt_irrefl, false_and, decide_false, Bool.false_eq_true, if_false]
      exact hstab
  unfold dllStability
  rw [hn]
  rfl

/-- A new reference is being acquired, whatever its first sample is. -/
theorem first_locking (h : c.selects avail ≠ .freerun) (hnew : c.selects avail ≠ c.src)
    (measured : Option ℚ) : (clockDiscUpdate c avail measured).state = .locking := by
  have hwaits : (c.switch (c.selects avail)).wait.state = .locking := by
    rcases waits_state h with hlocking | ⟨-, hsame, -⟩
    · exact hlocking
    · exact absurd hsame hnew
  cases measured with
  | none => rw [clockDiscUpdate_none h, report_state, hwaits]
  | some m =>
    cases hm : dllSane m with
    | false =>
      rw [clockDiscUpdate_rejected h hm, report_state]
      exact hwaits
    | true =>
      obtain ⟨-, -, -, hband, hstate⟩ := clockDiscUpdate_follows h hm
      rw [hstate, if_neg]
      rw [hband, if_neg hnew]
      unfold dllLockUpdates
      split_ifs <;> omega

/-- Unmeasured, the inferred grade stands. -/
theorem clockQualityApply_unknown (src : ClockSource) (q : ClockQuality) :
    clockQualityApply src q .unknown = q := by
  cases q <;> rfl

end Discipline

/-! ## What a tick hands to the discipline -/

section Tick

variable {p : ClockedPacer} {now : UInt64}

/-- The mask of four references has the bit of each. -/
theorem mask_bits (box graph phc wire : Bool) :
    let mask : UInt32 := (((0 ||| if box then 2 else 0) ||| if graph then 4 else 0) |||
      if phc then 8 else 0) ||| if wire then 16 else 0
    (mask &&& 2 ≠ 0 ↔ box = true) ∧ (mask &&& 4 ≠ 0 ↔ graph = true) ∧ (mask &&& 8 ≠ 0 ↔ phc = true) ∧
      (mask &&& 16 ≠ 0 ↔ wire = true) := by
  revert box graph phc wire
  decide

theorem avail_bit (p : ClockedPacer) (now : UInt64) {s : ClockSource} (hs : s ≠ .freerun) :
    p.avail now &&& s.bit ≠ 0 ↔ p.fresh now s = true := by
  have hset : ∀ (b : Bool) (m bit : UInt32), (if b then m ||| bit else m) = m ||| if b then bit else 0 := by
    intro b m bit
    cases b
    · exact (UInt32.or_zero).symm
    · rfl
  obtain ⟨hbox, hgraph, hphc, hwire⟩ :=
    mask_bits (p.fresh now .box) (p.fresh now .graph) (p.fresh now .phc) (p.fresh now .wire)
  unfold ClockedPacer.avail clockReferences
  simp only [List.foldl_cons, List.foldl_nil, hset]
  cases s with
  | freerun => exact absurd rfl hs
  | box => exact hbox
  | graph => exact hgraph
  | phc => exact hphc
  | wire => exact hwire

/-- The reference that is looked at is there, and its last sample is young. -/
theorem sel_fresh (h : p.sel now ≠ .freerun) : p.fresh now (p.sel now) = true := by
  unfold ClockedPacer.sel ClockDisc.selects clockSelectGraded at h ⊢
  cases hfind : (clockHierarchy p.graded.role).find? fun s =>
      p.avail now &&& s.bit ≠ 0 ∧ p.graded.minQuality.rank ≤ (p.graded.quality s).rank with
  | none =>
    rw [hfind] at h
    exact absurd rfl h
  | some s =>
    rw [hfind] at h
    have hs := List.find?_some hfind
    rw [decide_eq_true_iff] at hs
    exact (avail_bit p now h).mp hs.1

/-- The grades are all that the publishers change. -/
theorem graded_eq (p : ClockedPacer) :
    p.graded = { p.clock with
      quality := fun s =>
        if s ≠ .freerun ∧ p.present s = true then p.quality s else p.clock.quality s } := by
  have hset : ∀ (c : ClockDisc) s q, clockDiscSetQuality c s q =
      { c with quality := Function.update c.quality s q } := fun _ _ _ => rfl
  have hfold : ∀ (l : List ClockSource) (c : ClockDisc), l.foldl
      (fun c s => if p.present s then clockDiscSetQuality c s (p.quality s) else c) c =
      { c with
        quality := fun s => if s ∈ l ∧ p.present s = true then p.quality s else c.quality s } := by
    intro l
    induction l with
    | nil => intro c; simp
    | cons s l ih =>
      intro c
      rw [List.foldl_cons, ih]
      cases hs : p.present s with
      | false =>
        simp only [Bool.false_eq_true, if_false]
        congr 1
        funext t
        by_cases ht : t = s
        · subst ht
          simp [hs]
        · simp [ht]
      | true =>
        simp only [if_true, hset]
        congr 1
        funext t
        by_cases ht : t = s
        · subst ht
          simp [hs]
        · simp [ht]
  unfold ClockedPacer.graded
  rw [hfold]
  congr 1
  funext s
  cases s <;> simp [clockReferences]

@[simp] theorem graded_inForce (p : ClockedPacer) : p.graded.inForce = p.clock.inForce := by
  rw [graded_eq]
  rfl

@[simp] theorem graded_generation (p : ClockedPacer) : p.graded.generation = p.clock.generation := by
  rw [graded_eq]

theorem graded_switch_dll (p : ClockedPacer) (s : ClockSource) :
    (p.graded.switch s).dll = (p.clock.switch s).dll := by
  rw [graded_eq]
  unfold ClockDisc.switch
  dsimp only
  split_ifs <;> rfl

theorem graded_quality (h : p.sel now ≠ .freerun) :
    p.graded.quality (p.sel now) = p.quality (p.sel now) := by
  have hpresent : p.present (p.sel now) = true := by
    have hfresh := sel_fresh h
    unfold ClockedPacer.fresh at hfresh
    simp only [Bool.and_eq_true] at hfresh
    exact hfresh.1.1
  generalize p.sel now = s at h hpresent ⊢
  rw [graded_eq]
  exact if_pos ⟨h, hpresent⟩

/-- What a discipline that starts over comes to at its first evaluation, with a sample or without. -/
theorem restart_inForce {n : ℕ} (hclock : p.clock = clockDiscInit .master n) (now : UInt64)
    (measured : Option ℚ) :
    (clockDiscUpdate p.graded (p.avail now) measured).inForce = p.restart now := by
  have hgraded : p.graded = { clockDiscInit .master n with quality := p.graded.quality } := by
    rw [graded_eq, hclock]
  have hsel : p.graded.selects (p.avail now) = p.sel now := rfl
  unfold ClockedPacer.restart
  by_cases hfree : p.sel now = .freerun
  · rw [if_pos hfree, clockDiscUpdate_free (hsel.trans hfree), hgraded]
    rfl
  · rw [if_neg hfree]
    have hquality := graded_quality hfree
    have hne : p.sel now ≠ p.graded.src := by
      rw [hgraded]
      exact hfree
    have hfree' : p.graded.selects (p.avail now) ≠ .freerun := hfree
    have hupdates : (p.graded.switch (p.sel now)).dll.updates = 0 := by
      rw [switch_updates, hgraded]
      rfl
    have hstab : (p.graded.switch (p.sel now)).dll.stabN = 0 := by
      unfold ClockDisc.switch
      rw [if_neg hne]
      rfl
    have hstate : (clockDiscUpdate p.graded (p.avail now) measured).state = .locking :=
      first_locking hfree' hne measured
    have hdll : dllStability (clockDiscUpdate p.graded (p.avail now) measured).dll = .unknown := by
      cases measured with
      | none =>
        rw [clockDiscUpdate_dll_none, hsel]
        unfold dllStability
        rw [hstab]
        rfl
      | some m =>
        rw [clockDiscUpdate_dll_some hfree', hsel]
        exact dllUpdate_unknown hupdates hstab m
    unfold ClockDisc.inForce
    rw [clockDiscUpdate_src, hstate, clockDiscUpdate_quality hfree', hsel, hdll, hquality,
      clockQualityApply_unknown]

end Tick

/-! ## The moves of the clock -/

/-- What is in force where there is no reference and never was a correction. -/
def idleInForce : InForce := (.freerun, .unlocked, .ungraded)

/-- What a call does to the discipline and says of it. -/
inductive ClockMove (e : PacerClockEvent) : Prop
  /-- The discipline is not touched. -/
  | quiet (hclock : e.post.clock = e.pre.clock) (hseen : e.post.genSeen = e.pre.genSeen)
      (hpushed : clockPushed e = none) (hevaluates : evaluatesClock e = false)
      (hrate : changesRate e = false)
  /-- The discipline starts over, and the generation last reported stays. -/
  | restart (hclock : ∃ n, e.post.clock = clockDiscInit .master n)
      (hseen : e.post.genSeen = e.pre.genSeen) (hpushed : clockPushed e = none)
      (hevaluates : evaluatesClock e = false) (hrate : changesRate e = true) (htick : atTick e = false)
  /-- The discipline is taken up, and reported if its generation is not the one last reported. -/
  | evaluated (now : UInt64) (ev : PacerLogEvent) (hinput : e.input = .tick now)
      (hclock : e.post.clock = clockDiscUpdate e.pre.graded (e.pre.avail now) (e.pre.sample now))
      (hseen : e.post.genSeen = e.post.clock.generation)
      (hpushed : clockPushed e = if e.post.clock.generation = e.pre.genSeen then none else some ev)
      (hnames : ev.Names e.post.clock.inForce) (hevaluates : evaluatesClock e = true)
      (hrate : changesRate e = false)

section Moves

variable {p : ClockedPacer} {now : UInt64}

/-- The event unpacks to what was packed. -/
theorem clockEvent_names (p : ClockedPacer) : (clockEvent p).Names p.clock.inForce := by
  have hpacked : ∀ (state : ClockState) (q : ClockQuality),
      (state.code ||| (UInt8.ofNat q.rank <<< 4)) &&& 0x0f = state.code ∧
        (state.code ||| (UInt8.ofNat q.rank <<< 4)) >>> 4 = UInt8.ofNat q.rank := by
    intro state q
    cases state <;> cases q <;> decide
  exact ⟨rfl, hpacked p.clock.state p.clock.srcQuality⟩

@[simp] theorem pevPush_clock (p : ClockedPacer) (ev : PacerLogEvent) :
    (pevPush p ev).1.clock = p.clock := by
  unfold pevPush
  split_ifs <;> rfl

@[simp] theorem pevPush_genSeen (p : ClockedPacer) (ev : PacerLogEvent) :
    (pevPush p ev).1.genSeen = p.genSeen := by
  unfold pevPush
  split_ifs <;> rfl

@[simp] theorem pevPush_follow (p : ClockedPacer) (ev : PacerLogEvent) :
    (pevPush p ev).1.follow = p.follow := by
  unfold pevPush
  split_ifs <;> rfl

theorem pevPush_room (hroom : p.evring.full = false) (ev : PacerLogEvent) :
    (pevPush p ev).2 = some ev := by
  unfold pevPush
  rw [hroom]
  rfl

theorem mem_pevPush {ev ev' : PacerLogEvent} (h : ev' ∈ (pevPush p ev).2) : ev' = ev := by
  unfold pevPush at h
  split_ifs at h
  · cases h
  · exact (Option.some.inj h).symm

/-- Where there is room, a new generation is reported, and nothing else. -/
theorem clockReport_spec (hroom : p.evring.full = false) :
    let p' := (clockReport p).1
    (p'.clock = p.clock ∧ p'.genSeen = p.clock.generation ∧ p'.follow = p.follow) ∧
      (clockReport p).2 =
        (if p.clock.generation = p.genSeen then none else some (clockEvent p)) := by
  intro p'
  simp only [p', clockReport]
  by_cases hsame : p.clock.generation = p.genSeen
  · rw [if_neg (not_not_intro hsame), if_pos hsame]
    exact ⟨⟨rfl, hsame.symm, rfl⟩, rfl⟩
  · rw [if_pos hsame, if_neg hsame, pevPush_clock, pevPush_genSeen, pevPush_follow]
    exact ⟨⟨rfl, rfl, rfl⟩, pevPush_room (p := { p with genSeen := p.clock.generation }) hroom _⟩

/-- An evaluation takes the discipline up and reports it. -/
theorem clockEvaluate_spec (hroom : p.evring.full = false) (now : UInt64) :
    let r := clockEvaluate p now
    let c := clockDiscUpdate p.graded (p.avail now) (p.sample now)
    (r.1.clock = c ∧ r.1.genSeen = c.generation ∧ r.1.follow = p.follow) ∧
      ∃ ev, r.2 = (if c.generation = p.genSeen then none else some ev) ∧ ev.kind = .clock ∧
        ev.Names c.inForce := by
  have hfed : (clockFeed p now).evring.full = false := hroom
  obtain ⟨hpost, hpushed⟩ := clockReport_spec hfed
  unfold clockEvaluate
  exact ⟨hpost, _, hpushed, rfl, clockEvent_names _⟩

theorem clockPublish_clock (p : ClockedPacer) (src : UInt32) (present : Bool) (ppmMilli : ℤ)
    (label : Option (List UInt8)) (quality : ClockQuality) (now : UInt64) :
    let p' := clockPublish p src present ppmMilli label quality now
    p'.clock = p.clock ∧ p'.genSeen = p.genSeen ∧ p'.follow = p.follow := by
  intro p'
  simp only [p', clockPublish]
  split
  · exact ⟨rfl, rfl, rfl⟩
  · exact ⟨rfl, rfl, rfl⟩
  · split_ifs <;> exact ⟨rfl, rfl, rfl⟩

theorem applyRateClock_clock (env : Env) (p : ClockedPacer) (hz : ℤ) :
    let r := applyRateClock env p hz
    (∃ n, r.1.clock = clockDiscInit .master n) ∧ r.1.genSeen = p.genSeen ∧ r.1.follow = p.follow ∧
      ∀ ev ∈ r.2.1, ev.kind = .state := by
  intro r
  simp only [r, applyRateClock, pevPush_clock, pevPush_genSeen, pevPush_follow]
  refine ⟨⟨_, rfl⟩, trivial, trivial, fun ev hev => ?_⟩
  rw [mem_pevPush hev]

/-- A tick that only counts its slot. -/
theorem clockTick_counts (hfollow : p.follow = true) (h : p.evaluates = false) (now : UInt64) :
    clockTick p now = ({ p with slots := p.slots + 1 }, none, p.slotPeriodNs) := by
  have hslots : p.slots + 1 < clockTickSlots := by
    unfold ClockedPacer.evaluates at h
    rw [hfollow, Bool.true_and, decide_eq_false_iff_not] at h
    omega
  unfold clockTick
  simp only [hfollow, hslots, Bool.not_true, Bool.false_eq_true, if_false, if_true]

/-- A tick that takes up the discipline. -/
theorem clockTick_evaluates (h : p.evaluates = true) (now : UInt64) :
    (clockTick p now).1 = (clockEvaluate { p with slots := 0 } now).1 ∧
      (clockTick p now).2.1 = (clockEvaluate { p with slots := 0 } now).2 := by
  unfold ClockedPacer.evaluates at h
  rw [Bool.and_eq_true, decide_eq_true_iff] at h
  have hslots : ¬ p.slots + 1 < clockTickSlots := by omega
  unfold clockTick
  simp only [h.1, hslots, Bool.not_true, Bool.false_eq_true, if_false]
  exact ⟨trivial, trivial⟩

theorem pacerClock_move (env : Env) (hfollow : p.follow = true) (hroom : p.evring.full = false)
    (i : PacerClockInput) :
    ClockMove ((pacerClockMachine env).event p i) ∧
      ((pacerClockMachine env).step p i).1.follow = true := by
  cases i with
  | publish src present ppmMilli label quality now =>
    obtain ⟨hclock, hseen, hfollows⟩ := clockPublish_clock p src present ppmMilli label quality now
    exact ⟨.quiet hclock hseen rfl rfl rfl, hfollows.trans hfollow⟩
  | logDrain => exact ⟨.quiet rfl rfl rfl rfl rfl, hfollow⟩
  | applyRate hz =>
    obtain ⟨hclock, hseen, hfollows, hkind⟩ := applyRateClock_clock env p hz
    refine ⟨.restart hclock hseen ?_ rfl rfl rfl, hfollows.trans hfollow⟩
    refine Option.filter_eq_none_iff.mpr fun ev hev => ?_
    rw [hkind ev hev]
    decide
  | tick now =>
    cases hev : p.evaluates with
    | false =>
      have htick := clockTick_counts hfollow hev now
      refine ⟨.quiet ?_ ?_ ?_ hev rfl, ?_⟩
      · show (clockTick p now).1.clock = p.clock
        rw [htick]
      · show (clockTick p now).1.genSeen = p.genSeen
        rw [htick]
      · show (clockTick p now).2.1.filter _ = none
        rw [htick]
        rfl
      · show (clockTick p now).1.follow = true
        rw [htick]
        exact hfollow
    | true =>
      obtain ⟨hpost, hout⟩ := clockTick_evaluates hev now
      obtain ⟨⟨hclock, hseen, hfollows⟩, ev, hpushed, hkind, hnames⟩ :=
        clockEvaluate_spec (p := { p with slots := 0 }) hroom now
      rw [← hpost] at hclock hseen hfollows
      rw [← hout] at hpushed
      refine ⟨.evaluated now ev rfl hclock ?_ ?_ ?_ hev rfl, hfollows.trans hfollow⟩
      · exact hseen.trans (congrArg ClockDisc.generation hclock).symm
      · show (clockTick p now).2.1.filter _ = if (clockTick p now).1.clock.generation = p.genSeen then _ else _
        rw [hpushed, hclock]
        split_ifs
        · rfl
        · exact Option.filter_eq_some_iff.mpr ⟨rfl, by rw [hkind]; rfl⟩
      · show ev.Names (clockTick p now).1.clock.inForce
        rw [hclock]
        exact hnames

end Moves

/-! ## The transcript of a run -/

/-- What the clock is, given the calls so far. -/
structure ClockLog (log : List PacerClockEvent) (p : ClockedPacer) : Prop where
  follows : p.follow = true
  fresh : restarted log = true → ∃ n, p.clock = clockDiscInit .master n
  untouched : firstTick log = none → p.clock.inForce = idleInForce
  first : ∀ first ∈ firstTick log, first.pre.clock.inForce = idleInForce
  unsaid : lastClockEvent log = none → p.genSeen = 0

/-- The transcript has what is in force, and the generation it was said at. -/
structure ClockReported (log : List PacerClockEvent) (p : ClockedPacer) : Prop where
  seen : p.genSeen = p.clock.generation
  said : ∀ ev ∈ lastClockEvent log, ev.Names p.clock.inForce
  idle : lastClockEvent log = none → p.clock.inForce = idleInForce

section Log

variable {log : List PacerClockEvent} {e : PacerClockEvent} {p : ClockedPacer}

theorem clockLog_open (env : Env) (cfg : PacerCfg) : ClockLog [] (clockedOpen env cfg true) where
  follows := rfl
  fresh h := absurd h Bool.false_ne_true
  untouched _ := rfl
  first _ h := absurd h (Option.not_mem_none _)
  unsaid _ := rfl

/-- The first tick starts from what was in force at the opening. -/
theorem ClockLog.first_concat (h : ClockLog log e.pre) :
    ∀ first ∈ firstTick (log ++ [e]), first.pre.clock.inForce = idleInForce := by
  intro first hfirst
  rw [firstTick_concat] at hfirst
  cases hlog : firstTick log with
  | some first' =>
    rw [hlog, Option.some_or] at hfirst
    exact h.first first (hlog.trans hfirst)
  | none =>
    rw [hlog, Option.none_or] at hfirst
    split_ifs at hfirst
    · rw [← Option.some.inj hfirst]
      exact h.untouched hlog
    · cases hfirst

theorem firstTick_concat_none (h : firstTick (log ++ [e]) = none) :
    firstTick log = none ∧ atTick e = false := by
  rw [firstTick_concat, Option.or_eq_none_iff] at h
  refine ⟨h.1, ?_⟩
  cases hat : atTick e with
  | false => rfl
  | true =>
    rw [hat, if_pos rfl] at h
    cases h.2

theorem ClockLog.step (h : ClockLog log e.pre) (hfollow : e.post.follow = true) (hmove : ClockMove e) :
    ClockLog (log ++ [e]) e.post := by
  cases hmove with
  | quiet hclock hseen hpushed hevaluates hrate =>
    refine ⟨hfollow, ?_, ?_, h.first_concat, ?_⟩
    · rw [restarted_concat, hevaluates, hrate, hclock, Bool.or_false]
      exact h.fresh
    · intro hnone
      rw [hclock]
      exact h.untouched (firstTick_concat_none hnone).1
    · rw [lastClockEvent_concat, hpushed, Option.none_or, hseen]
      exact h.unsaid
  | restart hclock hseen hpushed hevaluates hrate htick =>
    refine ⟨hfollow, fun _ => hclock, ?_, h.first_concat, ?_⟩
    · intro _
      obtain ⟨n, hclock⟩ := hclock
      rw [hclock]
      rfl
    · rw [lastClockEvent_concat, hpushed, Option.none_or, hseen]
      exact h.unsaid
  | evaluated now ev hinput hclock hseen hpushed hnames hevaluates hrate =>
    have htick : atTick e = true := by
      unfold atTick
      rw [hinput]
    refine ⟨hfollow, ?_, ?_, h.first_concat, ?_⟩
    · rw [restarted_concat, hevaluates, if_pos rfl]
      exact fun hfalse => absurd hfalse Bool.false_ne_true
    · intro hnone
      rw [(firstTick_concat_none hnone).2] at htick
      exact absurd htick Bool.false_ne_true
    · rw [lastClockEvent_concat, hpushed, Option.or_eq_none_iff]
      rintro ⟨hsame, hnone⟩
      split_ifs at hsame with hgen
      rw [hseen, hgen]
      exact h.unsaid hnone

/-- What was just pushed is in the transcript. -/
theorem ClockReported.of_pushed {ev : PacerLogEvent} (hseen : e.post.genSeen = e.post.clock.generation)
    (hpushed : clockPushed e = some ev) (hnames : ev.Names e.post.clock.inForce) :
    ClockReported (log ++ [e]) e.post := by
  have hlast : lastClockEvent (log ++ [e]) = some ev := by
    rw [lastClockEvent_concat, hpushed, Option.some_or]
  refine ⟨hseen, ?_, ?_⟩
  · rw [hlast]
    intro ev' hev'
    rw [← Option.some.inj hev']
    exact hnames
  · rw [hlast]
    exact fun hnone => absurd hnone (Option.some_ne_none _)

/-- An evaluation that goes on from a reported discipline reports what has changed. -/
theorem ClockReported.evaluated (h : ClockReported log e.pre) {now : UInt64} {ev : PacerLogEvent}
    (hclock : e.post.clock = clockDiscUpdate e.pre.graded (e.pre.avail now) (e.pre.sample now))
    (hseen : e.post.genSeen = e.post.clock.generation)
    (hpushed : clockPushed e = if e.post.clock.generation = e.pre.genSeen then none else some ev)
    (hnames : ev.Names e.post.clock.inForce) : ClockReported (log ++ [e]) e.post := by
  have hgen := clockDiscUpdate_generation e.pre.graded (e.pre.avail now) (e.pre.sample now)
  rw [← hclock, graded_inForce, graded_generation, ← h.seen] at hgen
  by_cases hsame : e.post.clock.inForce = e.pre.clock.inForce
  · rw [if_pos hsame] at hgen
    rw [if_pos hgen] at hpushed
    refine ⟨hseen, ?_, ?_⟩
    · rw [lastClockEvent_concat, hpushed, Option.none_or, hsame]
      exact h.said
    · rw [lastClockEvent_concat, hpushed, Option.none_or, hsame]
      exact h.idle
  · rw [if_neg hsame] at hgen
    have hnew : e.post.clock.generation ≠ e.pre.genSeen := by
      rw [hgen]
      exact fun hc => absurd (add_eq_left.mp hc) (by decide)
    rw [if_neg hnew] at hpushed
    exact .of_pushed hseen hpushed hnames

/-- What an evaluation comes to that finds the discipline started over. -/
theorem restart_generation (h : ClockLog log e.pre) (hrestarted : restarted log = true) {now : UInt64}
    (hclock : e.post.clock = clockDiscUpdate e.pre.graded (e.pre.avail now) (e.pre.sample now)) :
    e.post.clock.inForce = e.pre.restart now ∧
      e.post.clock.generation = e.pre.restartGeneration now := by
  obtain ⟨n, hfresh⟩ := h.fresh hrestarted
  have hforce := restart_inForce hfresh now (e.pre.sample now)
  have hgen := clockDiscUpdate_generation e.pre.graded (e.pre.avail now) (e.pre.sample now)
  rw [← hclock] at hforce hgen
  refine ⟨hforce, hgen.trans ?_⟩
  rw [hforce, graded_inForce, graded_generation, hfresh]
  unfold ClockedPacer.restart ClockedPacer.restartGeneration
  by_cases hfree : e.pre.sel now = .freerun
  · rw [if_pos hfree, if_pos hfree]
    rfl
  · rw [if_neg hfree, if_neg hfree, if_neg]
    · rfl
    · exact fun hc => hfree (congrArg Prod.fst hc)

/-- An evaluation behind a rate change that can tell is reported, if there is anything to report. -/
theorem RateTold.evaluated (h : ClockLog log e.pre) (hrestarted : restarted log = true) (htold : RateTold log e)
    {now : UInt64} {ev : PacerLogEvent} (hinput : e.input = .tick now)
    (hclock : e.post.clock = clockDiscUpdate e.pre.graded (e.pre.avail now) (e.pre.sample now))
    (hseen : e.post.genSeen = e.post.clock.generation)
    (hpushed : clockPushed e = if e.post.clock.generation = e.pre.genSeen then none else some ev)
    (hnames : ev.Names e.post.clock.inForce) : ClockReported (log ++ [e]) e.post := by
  obtain ⟨hforce, hgen⟩ := restart_generation h hrestarted hclock
  by_cases hsame : e.post.clock.generation = e.pre.genSeen
  · rw [if_pos hsame] at hpushed
    refine ⟨hseen, ?_, ?_⟩
    · rw [lastClockEvent_concat, hpushed, Option.none_or, hforce]
      exact htold now hinput hrestarted (hsame.symm.trans hgen)
    · -- With nothing said yet the generation last seen is 0: there is no reference.
      rw [lastClockEvent_concat, hpushed, Option.none_or, hforce]
      intro hnone
      have hzero : e.pre.restartGeneration now = 0 := by
        rw [← hgen, hsame, h.unsaid hnone]
      unfold ClockedPacer.restartGeneration at hzero
      unfold ClockedPacer.restart
      split_ifs at hzero ⊢
      · rfl
      · exact absurd hzero (by decide)
  · rw [if_neg hsame] at hpushed
    exact .of_pushed hseen hpushed hnames

/-- A discipline that is not fresh from a rate change is reported. -/
def Transcribed (log : List PacerClockEvent) (p : ClockedPacer) : Prop :=
  restarted log = false → ClockReported log p

theorem Transcribed.step (h : Transcribed log e.pre) (hlog : ClockLog log e.pre) (hmove : ClockMove e)
    (htold : evaluatesClock e = true → RateTold log e) : Transcribed (log ++ [e]) e.post := by
  cases hmove with
  | quiet hclock hseen hpushed hevaluates hrate =>
    intro hrestarted
    rw [restarted_concat, hevaluates, hrate, Bool.or_false] at hrestarted
    obtain ⟨hgen, hsaid, hidle⟩ := h hrestarted
    have hlast : lastClockEvent (log ++ [e]) = lastClockEvent log := by
      rw [lastClockEvent_concat, hpushed, Option.none_or]
    refine ⟨?_, ?_, ?_⟩
    · rw [hseen, hclock]
      exact hgen
    · rw [hlast, hclock]
      exact hsaid
    · rw [hlast, hclock]
      exact hidle
  | restart _ _ _ hevaluates hrate _ =>
    intro hrestarted
    rw [restarted_concat, hevaluates, hrate, Bool.or_true] at hrestarted
    exact absurd hrestarted.symm Bool.false_ne_true
  | evaluated now ev hinput hclock hseen hpushed hnames hevaluates hrate =>
    intro _
    cases hrestarted : restarted log with
    | false => exact (h hrestarted).evaluated hclock hseen hpushed hnames
    | true =>
      exact RateTold.evaluated hlog hrestarted (htold hevaluates) hinput hclock hseen hpushed hnames

/-- A reported discipline is up to date. -/
theorem ClockReported.upToDate (h : ClockReported (log ++ [e]) e.post) (hlog : ClockLog log e.pre) :
    UpToDate log e := by
  intro hdue
  cases hlast : lastClockEvent (log ++ [e]) with
  | some ev => exact ⟨ev, rfl, h.said ev hlast⟩
  | none =>
    exfalso
    rcases hdue with hsaid | ⟨first, hfirst, hdiffers⟩
    · rw [lastClockEvent_concat, Option.or_eq_none_iff] at hlast
      exact hsaid hlast.2
    · exact hdiffers ((h.idle hlast).trans (hlog.first_concat first hfirst).symm)

/-- What is up to date was told. -/
theorem UpToDate.told (h : UpToDate log e) (hlog : ClockLog log e.pre) (hmove : ClockMove e)
    (hevaluates : evaluatesClock e = true) : RateTold log e := by
  intro now hinput hrestarted hseen ev hev
  cases hmove with
  | quiet _ _ _ hnot _ | restart _ _ _ hnot _ _ =>
    rw [hnot] at hevaluates
    exact absurd hevaluates Bool.false_ne_true
  | evaluated now' ev' hinput' hclock _ hpushed =>
    rw [hinput] at hinput'
    cases hinput'
    obtain ⟨hforce, hgen⟩ := restart_generation hlog hrestarted hclock
    rw [if_pos (hgen.trans hseen.symm)] at hpushed
    obtain ⟨ev'', hlast, hnames⟩ := h (.inl fun hnone => by rw [hnone] at hev; cases hev)
    rw [lastClockEvent_concat, hpushed, Option.none_or, hev] at hlast
    rw [← hforce, Option.some.inj hlast]
    exact hnames

end Log

/-! ## The samples of a run -/

/-- What a publisher last said of a reference that is there, and whether the loop has had it. -/
def SampleLog (log : List PacerClockEvent) (p : ClockedPacer) : Prop :=
  ∀ s ≠ .freerun, p.present s = true → ∃ l since src label quality,
    fromLast (publishes s) log = l :: since ∧
    l.input = .publish src true (p.ppmMilli s) label quality (p.stampNs s) ∧ clockSourceOf src = some s ∧
    ∀ x ∈ since, feedsLoop x = true → x.post.clock.src = s → p.stampSeen s = p.stampNs s

/-- The samples and their marks as they are. -/
def SameSamples (p p' : ClockedPacer) : Prop :=
  p'.present = p.present ∧ p'.ppmMilli = p.ppmMilli ∧ p'.stampNs = p.stampNs ∧ p'.stampSeen = p.stampSeen

/-- What a call that publishes nothing does: a sample that the loop has had is marked. -/
structure Consumes (e : PacerClockEvent) : Prop where
  silent : ∀ s ≠ .freerun, publishes s e = false
  present : e.post.present = e.pre.present
  ppmMilli : e.post.ppmMilli = e.pre.ppmMilli
  stampNs : e.post.stampNs = e.pre.stampNs
  seen : ∀ s, e.pre.stampSeen s = e.pre.stampNs s → e.post.stampSeen s = e.pre.stampNs s
  fed : feedsLoop e = true → e.post.stampSeen e.post.clock.src = e.pre.stampNs e.post.clock.src

section Samples

variable {log : List PacerClockEvent} {e : PacerClockEvent} {p : ClockedPacer} {s : ClockSource}
  {now : UInt64}

theorem SampleLog.consumes (h : SampleLog log e.pre) (he : Consumes e) : SampleLog (log ++ [e]) e.post := by
  intro s hs hpresent
  rw [he.present] at hpresent
  obtain ⟨l, since, src, label, quality, hlast, hinput, hsrc, hfed⟩ := h s hs hpresent
  refine ⟨l, since ++ [e], src, label, quality, ?_, ?_, hsrc, ?_⟩
  · rw [fromLast_concat, he.silent s hs, if_neg Bool.false_ne_true, hlast, List.cons_append]
  · rw [he.ppmMilli, he.stampNs]
    exact hinput
  · intro x hx hfeeds hxs
    rw [he.stampNs]
    rcases List.mem_append.mp hx with hx | hx
    · exact he.seen s (hfed x hx hfeeds hxs)
    · rw [List.mem_singleton.mp hx] at hfeeds hxs
      rw [← hxs]
      exact he.fed hfeeds

/-- A call that leaves the loop alone does not feed it. -/
theorem feedsLoop_same (h : e.post.clock = e.pre.clock) : feedsLoop e = false := by
  unfold feedsLoop
  rw [h, decide_eq_false_iff_not]
  omega

/-- The calls that neither publish nor take up the discipline. -/
theorem Consumes.of_same (hsilent : ∀ s ≠ .freerun, publishes s e = false)
    (hsame : SameSamples e.pre e.post) (hfed : feedsLoop e = false) : Consumes e where
  silent := hsilent
  present := hsame.1
  ppmMilli := hsame.2.1
  stampNs := hsame.2.2.1
  seen s hs := by rw [hsame.2.2.2, hs]
  fed h := by
    rw [hfed] at h
    exact absurd h Bool.false_ne_true

/-! ### An evaluation -/

theorem sample_some {m : ℚ} (h : p.sample now = some m) :
    p.sel now ≠ .freerun ∧ p.stampNs (p.sel now) ≠ p.stampSeen (p.sel now) ∧
      m = (p.ppmMilli (p.sel now) : ℚ) / 1000 := by
  unfold ClockedPacer.sample at h
  dsimp only at h
  split_ifs at h with hnew
  exact ⟨hnew.1, hnew.2, (Option.some.inj h).symm⟩

/-- An evaluation feeds the loop just if it has a sample. -/
theorem clockFeed_consumed (p : ClockedPacer) (now : UInt64) :
    (clockFeed p now).clock.dll.consumed =
      if (p.sample now).isSome then p.clock.dll.consumed + 1 else p.clock.dll.consumed := by
  have hclock : (clockFeed p now).clock = clockDiscUpdate p.graded (p.avail now) (p.sample now) := rfl
  have hsel : p.graded.selects (p.avail now) = p.sel now := rfl
  rw [hclock]
  cases hsample : p.sample now with
  | none =>
    rw [clockDiscUpdate_dll_none, graded_switch_dll, switch_consumed]
    rfl
  | some m =>
    rw [clockDiscUpdate_dll_some (sample_some hsample).1, graded_switch_dll, dllUpdate_consumed,
      switch_consumed]
    rfl

theorem clockReport_samples (p : ClockedPacer) :
    SameSamples p (clockReport p).1 ∧ (clockReport p).1.clock = p.clock := by
  unfold clockReport pevPush
  split_ifs <;> exact ⟨⟨rfl, rfl, rfl, rfl⟩, rfl⟩

theorem clockEvaluate_samples (p : ClockedPacer) (now : UInt64) :
    SameSamples (clockFeed p now) (clockEvaluate p now).1 ∧
      (clockEvaluate p now).1.clock = (clockFeed p now).clock := by
  unfold clockEvaluate
  exact clockReport_samples (clockFeed p now)

theorem clockTick_samples (h : p.evaluates = true) (now : UInt64) :
    SameSamples (clockFeed p now) (clockTick p now).1 ∧
      (clockTick p now).1.clock = (clockFeed p now).clock := by
  rw [(clockTick_evaluates h now).1]
  exact clockEvaluate_samples { p with slots := 0 } now

theorem applyRateClock_samples (env : Env) (p : ClockedPacer) (hz : ℤ) :
    SameSamples p (applyRateClock env p hz).1 := by
  simp only [applyRateClock, pevPush]
  split_ifs <;> exact ⟨rfl, rfl, rfl, rfl⟩

theorem evaluate_consumes {e : PacerClockEvent} (hinput : e.input = .tick now)
    (hsamples : SameSamples (clockFeed e.pre now) e.post) (hclock : e.post.clock = (clockFeed e.pre now).clock) :
    Consumes e := by
  obtain ⟨hpresent, hppm, hstamp, hseen⟩ := hsamples
  have hmark : e.post.stampSeen = if (e.pre.sample now).isSome then
      Function.update e.pre.stampSeen (e.pre.sel now) (e.pre.stampNs (e.pre.sel now))
    else e.pre.stampSeen := hseen
  refine ⟨?_, hpresent, hppm, hstamp, ?_, ?_⟩
  · intro s _
    unfold publishes
    rw [hinput]
  · intro s hs
    rw [hmark]
    split_ifs
    · by_cases hsel : s = e.pre.sel now
      · rw [hsel, Function.update_self]
      · rw [Function.update_of_ne hsel]
        exact hs
    · exact hs
  · intro hfeeds
    have hsrc : e.post.clock.src = e.pre.sel now := by
      rw [hclock]
      exact clockDiscUpdate_src _ _ _
    unfold feedsLoop at hfeeds
    rw [hclock, clockFeed_consumed, decide_eq_true_iff] at hfeeds
    split_ifs at hfeeds with hsome
    · rw [hmark, if_pos hsome, hsrc, Function.update_self]
    · omega

/-- The sample an evaluation feeds is the one published last, and is new. -/
theorem evaluate_fedOnce {e : PacerClockEvent} (h : SampleLog log e.pre) (hinput : e.input = .tick now)
    (hclock : e.post.clock = (clockFeed e.pre now).clock) (hfeeds : feedsLoop e = true) :
    FedOnce log e := by
  have hsrc : e.post.clock.src = e.pre.sel now := by
    rw [hclock]
    exact clockDiscUpdate_src _ _ _
  unfold feedsLoop at hfeeds
  rw [hclock, clockFeed_consumed, decide_eq_true_iff] at hfeeds
  cases hsample : e.pre.sample now with
  | none =>
    rw [hsample] at hfeeds
    exact absurd hfeeds (lt_irrefl _)
  | some m =>
    obtain ⟨hfree, hnew, hm⟩ := sample_some hsample
    have hfresh := sel_fresh hfree
    unfold ClockedPacer.fresh at hfresh
    simp only [Bool.and_eq_true, decide_eq_true_iff] at hfresh
    obtain ⟨l, since, src, label, quality, hlast, hl, hdecoded, hfed⟩ := h _ hfree hfresh.1.1
    refine ⟨l, since, src, e.pre.ppmMilli (e.pre.sel now), label, quality, e.pre.stampNs (e.pre.sel now),
      now, ?_, hl, ?_, hinput, hfresh.2, ?_, ?_⟩
    · rw [hsrc]
      exact hlast
    · rw [hsrc]
      exact hdecoded
    · rw [hsrc, hclock, ← hm]
      show (clockDiscUpdate e.pre.graded (e.pre.avail now) (e.pre.sample now)).dll = _
      rw [hsample, clockDiscUpdate_dll_some hfree, graded_switch_dll]
      rfl
    · intro x hx hxfeeds hxs
      exact hnew (hfed x hx hxfeeds (hxs.trans hsrc)).symm

/-! ### A call -/

/-- A publisher that is refused leaves everything as it is. -/
theorem clockPublish_refused {src : UInt32} (h : ∀ s ≠ .freerun, clockSourceOf src ≠ some s)
    (p : ClockedPacer) (present : Bool) (ppmMilli : ℤ) (label : Option (List UInt8))
    (quality : ClockQuality) (now : UInt64) :
    clockPublish p src present ppmMilli label quality now = p := by
  unfold clockPublish
  split
  · rfl
  · rfl
  · next s hs hsrc => exact absurd hsrc (h s hs)

theorem clockPublish_accepted {src : UInt32} (hs : s ≠ .freerun) (hsrc : clockSourceOf src = some s)
    (p : ClockedPacer) (present : Bool) (ppmMilli : ℤ) (label : Option (List UInt8))
    (quality : ClockQuality) (now : UInt64) :
    let p' := clockPublish p src present ppmMilli label quality now
    p'.present = Function.update p.present s present ∧ p'.stampSeen = p.stampSeen ∧
      (∀ t ≠ s, p'.ppmMilli t = p.ppmMilli t ∧ p'.stampNs t = p.stampNs t) ∧
      (present = true → p'.ppmMilli s = ppmMilli ∧ p'.stampNs s = now) := by
  have hgone : clockPublish p src false ppmMilli label quality now =
      { p with present := Function.update p.present s false } := by
    unfold clockPublish
    rw [hsrc]
    cases s with
    | freerun => exact absurd rfl hs
    | box | graph | phc | wire => rfl
  have hthere : clockPublish p src true ppmMilli label quality now =
      { p with
        label := Function.update p.label s (clockLabelSet (p.label s) label)
        quality := Function.update p.quality s quality
        ppmMilli := Function.update p.ppmMilli s ppmMilli
        stampNs := Function.update p.stampNs s now
        present := Function.update p.present s true } := by
    unfold clockPublish
    rw [hsrc]
    cases s with
    | freerun => exact absurd rfl hs
    | box | graph | phc | wire => rfl
  intro p'
  cases present with
  | false =>
    rw [show p' = _ from hgone]
    exact ⟨rfl, rfl, fun t _ => ⟨rfl, rfl⟩, fun h => absurd h Bool.false_ne_true⟩
  | true =>
    rw [show p' = _ from hthere]
    refine ⟨rfl, rfl, fun t ht => ?_, fun _ => ?_⟩
    · exact ⟨Function.update_of_ne ht _ _, Function.update_of_ne ht _ _⟩
    · exact ⟨Function.update_self _ _ _, Function.update_self _ _ _⟩

/-- A sample is published. -/
theorem SampleLog.publish {e : PacerClockEvent} (h : SampleLog log e.pre) {src : UInt32} {present : Bool}
    {ppmMilli : ℤ} {label : Option (List UInt8)} {quality : ClockQuality} {stamp : UInt64}
    (hs : s ≠ .freerun) (hsrc : clockSourceOf src = some s)
    (hinput : e.input = .publish src present ppmMilli label quality stamp)
    (hpost : e.post = clockPublish e.pre src present ppmMilli label quality stamp)
    (hquiet : feedsLoop e = false) : SampleLog (log ++ [e]) e.post := by
  obtain ⟨hpresent, hseen, hothers, hown⟩ :=
    clockPublish_accepted hs hsrc e.pre present ppmMilli label quality stamp
  rw [← hpost] at hpresent hseen hothers hown
  have hpublishes : ∀ t, publishes t e = decide (s = t) := by
    intro t
    unfold publishes
    rw [hinput]
    simp only [hsrc, Option.some.injEq]
  intro t ht hthere
  rw [fromLast_concat, hpublishes]
  by_cases hst : s = t
  · subst hst
    rw [hpresent, Function.update_self] at hthere
    obtain ⟨hppm, hstamp⟩ := hown hthere
    refine ⟨e, [], src, label, quality, if_pos (decide_eq_true rfl), ?_, hsrc, List.forall_mem_nil _⟩
    rw [hinput, hppm, hstamp, hthere]
  · rw [hpresent, Function.update_of_ne (Ne.symm hst)] at hthere
    obtain ⟨hppm, hstamp⟩ := hothers t (Ne.symm hst)
    obtain ⟨l, since, src', label', quality', hlast, hl, hsrc', hfed⟩ := h t ht hthere
    refine ⟨l, since ++ [e], src', label', quality', ?_, ?_, hsrc', ?_⟩
    · rw [if_neg (by simpa using hst), hlast, List.cons_append]
    · rw [hppm, hstamp]
      exact hl
    · intro x hx hfeeds hxs
      rw [hseen, hstamp]
      rcases List.mem_append.mp hx with hx | hx
      · exact hfed x hx hfeeds hxs
      · rw [List.mem_singleton.mp hx, hquiet] at hfeeds
        exact absurd hfeeds Bool.false_ne_true

theorem sampleLog_step (env : Env) (h : SampleLog log p) (hfollow : p.follow = true) (i : PacerClockInput) :
    SampleLog (log ++ [(pacerClockMachine env).event p i]) ((pacerClockMachine env).step p i).1 := by
  cases i with
  | publish src present ppmMilli label quality now =>
    have hclock := (clockPublish_clock p src present ppmMilli label quality now).1
    have hquiet := feedsLoop_same (e := (pacerClockMachine env).event p
      (.publish src present ppmMilli label quality now)) hclock
    by_cases haccepted : ∃ s ≠ .freerun, clockSourceOf src = some s
    · obtain ⟨s, hs, hsrc⟩ := haccepted
      exact SampleLog.publish h hs hsrc rfl rfl hquiet
    · have hrefused : ∀ s ≠ .freerun, clockSourceOf src ≠ some s := by
        intro s hs hsrc
        exact haccepted ⟨s, hs, hsrc⟩
      have hpost := clockPublish_refused hrefused p present ppmMilli label quality now
      refine SampleLog.consumes h (.of_same ?_ ?_ hquiet)
      · intro s hs
        exact decide_eq_false (hrefused s hs)
      · show SameSamples p (clockPublish p src present ppmMilli label quality now)
        rw [hpost]
        exact ⟨rfl, rfl, rfl, rfl⟩
  | logDrain =>
    exact SampleLog.consumes h (.of_same (fun _ _ => rfl) ⟨rfl, rfl, rfl, rfl⟩ (feedsLoop_same rfl))
  | applyRate hz =>
    obtain ⟨⟨n, hclock⟩, -⟩ := applyRateClock_clock env p hz
    refine SampleLog.consumes h (.of_same (fun _ _ => rfl) (applyRateClock_samples env p hz) ?_)
    refine decide_eq_false (Nat.not_lt.mpr ?_)
    show (applyRateClock env p hz).1.clock.dll.consumed ≤ _
    rw [hclock]
    exact Nat.zero_le _
  | tick now =>
    cases hev : p.evaluates with
    | false =>
      have htick := clockTick_counts hfollow hev now
      refine SampleLog.consumes h (.of_same (fun _ _ => rfl) ?_ (feedsLoop_same ?_))
      · show SameSamples p (clockTick p now).1
        rw [htick]
        exact ⟨rfl, rfl, rfl, rfl⟩
      · show (clockTick p now).1.clock = p.clock
        rw [htick]
    | true =>
      obtain ⟨hsamples, hclock⟩ := clockTick_samples hev now
      exact SampleLog.consumes h (evaluate_consumes rfl hsamples hclock)

end Samples

/-! ## The run -/

section Runs

variable {env : Env} {cfg : PacerCfg} {is : List PacerClockInput} {log : List PacerClockEvent}
  {e : PacerClockEvent}

/-- The event ring is never full. -/
def NeverFull (env : Env) (cfg : PacerCfg) (is : List PacerClockInput) : Prop :=
  ∀ e ∈ (pacerClockMachine env).trace (clockedOpen env cfg true) is, e.pre.evring.full = false

theorem clockLog_at (hroom : NeverFull env cfg is)
    (he : (pacerClockMachine env).StepOf (clockedOpen env cfg true) is log e) :
    ClockLog log e.pre ∧ ClockMove e := by
  obtain ⟨hlog, hevent⟩ := (pacerClockMachine env).trace_invariant_at
    (H := ClockLog) (L := fun _ e => e.pre.evring.full = false) (clockLog_open env cfg)
    (fun log p i h hfull => by
      obtain ⟨hmove, hfollow⟩ := pacerClock_move env h.follows hfull i
      exact ClockLog.step (e := (pacerClockMachine env).event p i) h hfollow hmove)
    (fun log e he => hroom e (he.mem_trace _)) he
  refine ⟨hlog, ?_⟩
  rw [hevent]
  exact (pacerClock_move env hlog.follows (hroom e (he.mem_trace _)) e.input).1

theorem transcribed_at (hroom : NeverFull env cfg is)
    (htold : ∀ log e, (pacerClockMachine env).StepOf (clockedOpen env cfg true) is log e →
      evaluatesClock e = true → RateTold log e)
    (he : (pacerClockMachine env).StepOf (clockedOpen env cfg true) is log e) : Transcribed log e.pre := by
  have hopen : Transcribed [] (clockedOpen env cfg true) := by
    intro _
    exact ⟨rfl, fun _ h => absurd h (Option.not_mem_none _), fun _ => rfl⟩
  refine ((pacerClockMachine env).trace_invariant_at
    (H := fun log p => ClockLog log p ∧ Transcribed log p)
    (L := fun log e => e.pre.evring.full = false ∧ (evaluatesClock e = true → RateTold log e))
    ⟨clockLog_open env cfg, hopen⟩ ?_ ?_ he).1.2
  · rintro log p i ⟨hlog, h⟩ ⟨hfull, htold⟩
    obtain ⟨hmove, hfollow⟩ := pacerClock_move env hlog.follows hfull i
    exact ⟨ClockLog.step (e := (pacerClockMachine env).event p i) hlog hfollow hmove,
      Transcribed.step (e := (pacerClockMachine env).event p i) h hlog hmove htold⟩
  · intro log e he
    exact ⟨hroom e (he.mem_trace _), htold log e he⟩

theorem sampleLog_at (hroom : NeverFull env cfg is)
    (he : (pacerClockMachine env).StepOf (clockedOpen env cfg true) is log e) : SampleLog log e.pre := by
  have hopen : SampleLog [] (clockedOpen env cfg true) := by
    intro s _ hpresent
    exact absurd hpresent Bool.false_ne_true
  exact ((pacerClockMachine env).trace_invariant_at
    (H := fun log p => ClockLog log p ∧ SampleLog log p)
    (L := fun _ e => e.pre.evring.full = false) ⟨clockLog_open env cfg, hopen⟩
    (fun log p i h hfull => by
      obtain ⟨hmove, hfollow⟩ := pacerClock_move env h.1.follows hfull i
      exact ⟨ClockLog.step (e := (pacerClockMachine env).event p i) h.1 hfollow hmove,
        sampleLog_step env h.2 h.1.follows i⟩)
    (fun log e he => hroom e (he.mem_trace _)) he).1.2

/-- Only an evaluation feeds the loop. -/
theorem ClockMove.fedOnce (h : ClockMove e) (hsamples : SampleLog log e.pre) (hfeeds : feedsLoop e = true) :
    FedOnce log e := by
  cases h with
  | quiet hclock _ _ _ _ =>
    rw [feedsLoop_same hclock] at hfeeds
    exact absurd hfeeds Bool.false_ne_true
  | restart hclock _ _ _ _ _ =>
    obtain ⟨n, hclock⟩ := hclock
    unfold feedsLoop at hfeeds
    rw [hclock, decide_eq_true_iff] at hfeeds
    exact absurd hfeeds (Nat.not_lt_zero _)
  | evaluated now _ hinput hclock _ _ _ _ _ => exact evaluate_fedOnce hsamples hinput hclock hfeeds

/-- With the ring never full, the transcript is up to date behind every evaluation just if each one that
finds the discipline started over by a rate change can tell; and no sample feeds the loop twice. -/
theorem clock_transcript (env : Env) (cfg : PacerCfg) (is : List PacerClockInput)
    (hroom : NeverFull env cfg is) :
    ((∀ log e, (pacerClockMachine env).StepOf (clockedOpen env cfg true) is log e →
        evaluatesClock e = true → UpToDate log e) ↔
      ∀ log e, (pacerClockMachine env).StepOf (clockedOpen env cfg true) is log e →
        evaluatesClock e = true → RateTold log e) ∧
    ∀ log e, (pacerClockMachine env).StepOf (clockedOpen env cfg true) is log e →
      feedsLoop e = true → FedOnce log e := by
  refine ⟨⟨fun h log e he hevaluates => ?_, fun h log e he hevaluates => ?_⟩, fun log e he hfeeds => ?_⟩
  · obtain ⟨hlog, hmove⟩ := clockLog_at hroom he
    exact (h log e he hevaluates).told hlog hmove hevaluates
  · obtain ⟨hlog, hmove⟩ := clockLog_at hroom he
    have hreported := (transcribed_at hroom h he).step hlog hmove (h log e he)
    refine (hreported ?_).upToDate hlog
    rw [restarted_concat, hevaluates, if_pos rfl]
  · exact (clockLog_at hroom he).2.fedOnce (sampleLog_at hroom he) hfeeds

end Runs

/-! ## A rate change that hides a change of reference -/

section Hidden

variable {log : List PacerClockEvent}

theorem lastClockEvent_append (l r : List PacerClockEvent) :
    lastClockEvent (l ++ r) = (lastClockEvent r).or (lastClockEvent l) := by
  unfold lastClockEvent
  rw [List.filterMap_append, List.getLast?_append]

/-- Ticks that only count their slots. -/
theorem counting_run (env : Env) (now : UInt64) {p : ClockedPacer} (hfollow : p.follow = true) {n : ℕ}
    (hslots : p.slots + n < clockTickSlots) :
    let ticks := List.replicate n (PacerClockInput.tick now)
    (pacerClockMachine env).run p ticks = { p with slots := p.slots + n } ∧
      lastClockEvent ((pacerClockMachine env).trace p ticks) = none ∧
      ∀ e ∈ (pacerClockMachine env).trace p ticks, e.pre.evring = p.evring := by
  induction n generalizing p with
  | zero => exact ⟨rfl, rfl, List.forall_mem_nil _⟩
  | succ n ih =>
    have hnot : p.evaluates = false := by
      unfold ClockedPacer.evaluates
      rw [hfollow, Bool.true_and, decide_eq_false_iff_not]
      omega
    have htick := clockTick_counts hfollow hnot now
    have hstep : ((pacerClockMachine env).step p (.tick now)).1 = { p with slots := p.slots + 1 } := by
      show (clockTick p now).1 = _
      rw [htick]
    have hsilent : clockPushed ((pacerClockMachine env).event p (.tick now)) = none := by
      show (clockTick p now).2.1.filter _ = none
      rw [htick]
      rfl
    obtain ⟨hrun, hlast, hring⟩ := ih (p := { p with slots := p.slots + 1 }) hfollow
      (by show p.slots + 1 + n < clockTickSlots; omega)
    intro ticks
    simp only [ticks, List.replicate_succ, Reactive.Machine.run_cons, Reactive.Machine.trace_cons, hstep]
    refine ⟨?_, ?_, ?_⟩
    · rw [hrun]
      show { p with slots := p.slots + 1 + n } = { p with slots := p.slots + (n + 1) }
      rw [Nat.add_assoc, Nat.add_comm 1 n]
    · rw [← List.singleton_append, lastClockEvent_append, hlast]
      unfold lastClockEvent
      rw [List.filterMap_cons_none hsilent]
      rfl
    · intro e he
      rcases List.mem_cons.mp he with rfl | he
      · rfl
      · exact hring e he

/-- The ticks up to the next that takes up the discipline. -/
def countingTicks (now : UInt64) : List PacerClockInput := List.replicate 1023 (.tick now)

/-- The clock behind them. -/
def ClockedPacer.counted (p : ClockedPacer) : ClockedPacer := { p with slots := p.slots + 1023 }

/-- Behind some calls the ticks that count say nothing and fill nothing. -/
theorem counted_run (env : Env) (now : UInt64) {p : ClockedPacer} {l : List PacerClockInput}
    (hfollow : ((pacerClockMachine env).run p l).follow = true)
    (hslots : ((pacerClockMachine env).run p l).slots + 1023 < clockTickSlots)
    (hfull : ((pacerClockMachine env).run p l).evring.full = false)
    (hroom : ∀ e ∈ (pacerClockMachine env).trace p l, e.pre.evring.full = false) :
    (pacerClockMachine env).run p (l ++ countingTicks now) = ((pacerClockMachine env).run p l).counted ∧
      lastClockEvent ((pacerClockMachine env).trace p (l ++ countingTicks now)) =
        lastClockEvent ((pacerClockMachine env).trace p l) ∧
      ∀ e ∈ (pacerClockMachine env).trace p (l ++ countingTicks now), e.pre.evring.full = false := by
  obtain ⟨hrun, hlast, hring⟩ := counting_run env now hfollow hslots
  rw [Reactive.Machine.run_append, Reactive.Machine.trace_append, lastClockEvent_append, countingTicks, hlast,
    Option.none_or]
  refine ⟨hrun, rfl, fun e he => ?_⟩
  rcases List.mem_append.mp he with he | he
  · exact hroom e he
  · rw [hring e he]
    exact hfull

end Hidden

/-- A graph clock is there. -/
def graphThere : List PacerClockInput := [.publish 2 true 0 none .good 1]

/-- It is taken up, the rate is changed, and in place of the graph clock there is a box. -/
def boxInstead : List PacerClockInput :=
  [.tick 2, .applyRate 48000, .publish 2 false 0 none .good 2, .publish 1 true 0 none .ungraded 3]

/-- The run up to the tick that takes the box up. -/
def hiddenChange : List PacerClockInput := (graphThere ++ countingTicks 2) ++ (boxInstead ++ countingTicks 4)

/-- The clock in front of the tick that takes the graph clock up, and in front of the one that takes the
box up. -/
def graphDue : ClockedPacer :=
  ((pacerClockMachine deskEnv).run (clockedOpen deskEnv deskCfg true) graphThere).counted

def boxDue : ClockedPacer := ((pacerClockMachine deskEnv).run graphDue boxInstead).counted

/-- In front of the last tick the graph clock is what was said last. -/
theorem hiddenChange_run :
    let M := pacerClockMachine deskEnv
    let log := M.trace (clockedOpen deskEnv deskCfg true) hiddenChange
    M.run (clockedOpen deskEnv deskCfg true) hiddenChange = boxDue ∧
      lastClockEvent log = lastClockEvent (M.trace graphDue boxInstead) ∧
      ∀ e ∈ log, e.pre.evring.full = false := by
  obtain ⟨hrun, -, hroom⟩ := counted_run deskEnv 2 (p := clockedOpen deskEnv deskCfg true) (l := graphThere)
    (by decide +kernel) (by decide +kernel) (by decide +kernel) (by decide +kernel)
  obtain ⟨hrun', hlast', hroom'⟩ := counted_run deskEnv 4 (p := graphDue) (l := boxInstead)
    (by decide +kernel) (by decide +kernel) (by decide +kernel) (by decide +kernel)
  have hsaid : (lastClockEvent ((pacerClockMachine deskEnv).trace graphDue boxInstead)).isSome = true := by
    decide +kernel
  obtain ⟨ev, hev⟩ := Option.isSome_iff_exists.mp hsaid
  intro M log
  simp only [log, M, hiddenChange]
  rw [Reactive.Machine.run_append, Reactive.Machine.trace_append, hrun]
  refine ⟨hrun', ?_, ?_⟩
  · rw [lastClockEvent_append]
    show Option.or (lastClockEvent ((pacerClockMachine deskEnv).trace graphDue _)) _ = _
    rw [hlast', hev, Option.some_or]
  · intro e he
    rcases List.mem_append.mp he with he | he
    · exact hroom e he
    · exact hroom' e he

theorem hiddenChange_neverFull : NeverFull deskEnv deskCfg (hiddenChange ++ [.tick 4]) := by
  obtain ⟨hrun, -, hroom⟩ := hiddenChange_run
  intro e he
  rw [Reactive.Machine.trace_concat] at he
  rcases List.mem_append.mp he with he | he
  · exact hroom e he
  · rw [List.mem_singleton.mp he, hrun]
    decide +kernel

/-- The instant of a tick. -/
def PacerClockInput.tickAt : PacerClockInput → Option UInt64
  | .tick now => some now
  | _ => none

/-- The ticks come in the order of their instants. -/
def TicksRise (is : List PacerClockInput) : Prop :=
  (is.filterMap PacerClockInput.tickAt).Pairwise fun a b => a.toNat ≤ b.toNat

theorem hiddenChange_rises : TicksRise (hiddenChange ++ [.tick 4]) := by
  have hcounting : ∀ now, (countingTicks now).filterMap PacerClockInput.tickAt = List.replicate 1023 now :=
    fun now => List.filterMap_replicate_of_some rfl
  have hticks : (hiddenChange ++ [PacerClockInput.tick 4]).filterMap PacerClockInput.tickAt =
      List.replicate 1024 (2 : UInt64) ++ List.replicate 1024 4 := by
    have hgraph : graphThere.filterMap PacerClockInput.tickAt = [] := rfl
    have hbox : boxInstead.filterMap PacerClockInput.tickAt = [2] := rfl
    have hend : [PacerClockInput.tick 4].filterMap PacerClockInput.tickAt = [4] := rfl
    rw [List.replicate_succ' (n := 1023), List.replicate_succ' (n := 1023), hiddenChange]
    simp only [List.filterMap_append, hcounting, hgraph, hbox, hend, List.nil_append, List.append_assoc]
  unfold TicksRise
  rw [hticks, List.pairwise_append]
  refine ⟨List.pairwise_replicate.mpr (.inr le_rfl), List.pairwise_replicate.mpr (.inr le_rfl), ?_⟩
  intro a ha b hb
  rw [List.eq_of_mem_replicate ha, List.eq_of_mem_replicate hb]
  decide

/-- Behind the last tick the box is in force, and nothing was said of it. -/
theorem transcript_behind_rate : ¬ ∀ env cfg is, NeverFull env cfg is → TicksRise is →
    ∀ log e, (pacerClockMachine env).StepOf (clockedOpen env cfg true) is log e →
      evaluatesClock e = true → UpToDate log e := by
  intro h
  obtain ⟨hrun, hlast, -⟩ := hiddenChange_run
  have huptodate := h deskEnv deskCfg _ hiddenChange_neverFull hiddenChange_rises _ _
    ((pacerClockMachine deskEnv).stepOf_last _ hiddenChange (.tick 4))
  rw [hrun] at huptodate
  have hsaid : (lastClockEvent ((pacerClockMachine deskEnv).trace graphDue boxInstead)).map PacerLogEvent.a =
      some ClockSource.graph.code := by
    decide +kernel
  obtain ⟨ev, hev, hgraph⟩ := Option.map_eq_some_iff.mp hsaid
  have hsilent : clockPushed ((pacerClockMachine deskEnv).event boxDue (.tick 4)) = none := by
    decide +kernel
  have hbefore : lastClockEvent ((pacerClockMachine deskEnv).trace (clockedOpen deskEnv deskCfg true)
      hiddenChange) ≠ none := by
    rw [hlast, hev]
    exact Option.some_ne_none _
  obtain ⟨ev', hev', hsrc, -⟩ := huptodate (by decide +kernel) (.inl hbefore)
  rw [lastClockEvent_concat, hsilent, Option.none_or, hlast, hev] at hev'
  rw [← Option.some.inj hev', hgraph] at hsrc
  revert hsrc
  decide +kernel

/-- A run in which the transcript falls behind, and no sample feeds the loop twice. -/
theorem clock_transcript_hidden :
    ((∀ log e, (pacerClockMachine deskEnv).StepOf (clockedOpen deskEnv deskCfg true)
        (hiddenChange ++ [.tick 4]) log e → evaluatesClock e = true → UpToDate log e) ↔
      ∀ log e, (pacerClockMachine deskEnv).StepOf (clockedOpen deskEnv deskCfg true)
        (hiddenChange ++ [.tick 4]) log e → evaluatesClock e = true → RateTold log e) ∧
    ∀ log e, (pacerClockMachine deskEnv).StepOf (clockedOpen deskEnv deskCfg true)
      (hiddenChange ++ [.tick 4]) log e → feedsLoop e = true → FedOnce log e :=
  clock_transcript deskEnv deskCfg _ hiddenChange_neverFull

end Libreac
