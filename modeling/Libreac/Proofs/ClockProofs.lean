import Libreac.Clock

/-!
# Proofs: what the published clock state says

A call of the discipline free-runs, takes a sample or waits for one, and each of the three has one lemma
about the state it leaves. What a state claims is then an invariant over the calls so far (`ClockOk`).
-/

namespace Libreac

open Reactive (Event fromLast fromLast_concat)

variable {c : ClockDisc} {d : Dll} {m : ℚ} {avail : UInt32}

/-! ## The loop -/

/-- What a sample makes of the average of the residuals. -/
def Dll.nextEma (d : Dll) (m : ℚ) : ℚ :=
  if d.updates = 0 then |m - d.appliedPpm| else Smooth.ema dllResidAlpha d.residEma |m - d.appliedPpm|

@[simp] theorem judge_applied (d : Dll) : d.judge.appliedPpm = d.appliedPpm := by
  unfold Dll.judge
  split_ifs <;> rfl

@[simp] theorem judge_residEma (d : Dll) : d.judge.residEma = d.residEma := by
  unfold Dll.judge
  split_ifs <;> rfl

@[simp] theorem judge_updates (d : Dll) : d.judge.updates = d.updates := by
  unfold Dll.judge
  split_ifs <;> rfl

theorem dllUpdate_rejected (h : dllSane m = false) :
    dllUpdate d m = ({ d with rejected := d.rejected + 1 }, false) := by
  unfold dllUpdate
  rw [h]
  rfl

/-- A sample the loop takes. -/
theorem dllUpdate_taken (h : dllSane m = true) :
    (dllUpdate d m).2 = true ∧ (dllUpdate d m).1.updates = d.updates + 1 ∧
      (dllUpdate d m).1.residEma = d.nextEma m ∧
      (dllUpdate d m).1.appliedPpm = (d.steer m).appliedPpm := by
  unfold dllUpdate
  rw [h]
  simp only [Bool.not_true, Bool.false_eq_true, if_false, true_and]
  split_ifs
  · rw [Dll.observe, judge_updates, judge_residEma, judge_applied]
    exact ⟨rfl, rfl, rfl⟩
  · exact ⟨rfl, rfl, rfl⟩

/-! ## What a call does -/

section Calls

@[simp] theorem report_src (c before : ClockDisc) : (c.report before).src = c.src := rfl

@[simp] theorem report_state (c before : ClockDisc) : (c.report before).state = c.state := rfl

@[simp] theorem report_dll (c before : ClockDisc) : (c.report before).dll = c.dll := rfl

@[simp] theorem report_inBand (c before : ClockDisc) : (c.report before).inBand = c.inBand := rfl

@[simp] theorem switch_src (c : ClockDisc) (src : ClockSource) : (c.switch src).src = src := by
  unfold ClockDisc.switch
  by_cases h : src = c.src
  · rw [if_pos h]
    exact h.symm
  · rw [if_neg h]

@[simp] theorem wait_src (c : ClockDisc) : c.wait.src = c.src := by
  unfold ClockDisc.wait
  split_ifs <;> rfl

@[simp] theorem wait_dll (c : ClockDisc) : c.wait.dll = c.dll := by
  unfold ClockDisc.wait
  split_ifs <;> rfl

@[simp] theorem wait_inBand (c : ClockDisc) : c.wait.inBand = c.inBand := by
  unfold ClockDisc.wait
  split_ifs <;> rfl

@[simp] theorem freeRun_src (c : ClockDisc) (before : ClockState) : (c.freeRun before).src = c.src := by
  unfold ClockDisc.freeRun
  split_ifs <;> rfl

@[simp] theorem freeRun_dll (c : ClockDisc) (before : ClockState) : (c.freeRun before).dll = c.dll := by
  unfold ClockDisc.freeRun
  split_ifs <;> rfl

@[simp] theorem freeRun_inBand (c : ClockDisc) (before : ClockState) :
    (c.freeRun before).inBand = c.inBand := by
  unfold ClockDisc.freeRun
  split_ifs <;> rfl

theorem clockDiscUpdate_free (h : c.selects avail = .freerun) (measured : Option ℚ) :
    clockDiscUpdate c avail measured = ((c.switch .freerun).freeRun c.state).report c := by
  unfold clockDiscUpdate
  dsimp only
  rw [if_pos h, h]

theorem clockDiscUpdate_none (h : c.selects avail ≠ .freerun) :
    clockDiscUpdate c avail none = (c.switch (c.selects avail)).wait.report c := by
  unfold clockDiscUpdate
  exact if_neg h

theorem clockDiscUpdate_rejected (h : c.selects avail ≠ .freerun) (hm : dllSane m = false) :
    clockDiscUpdate c avail (some m) =
      ({ (c.switch (c.selects avail)).wait with
        dll := { (c.switch (c.selects avail)).dll with
          rejected := (c.switch (c.selects avail)).dll.rejected + 1 } } : ClockDisc).report c := by
  have hwait : ∀ (b : ClockDisc) dll, ({ b with dll } : ClockDisc).wait = { b.wait with dll } := by
    intro b dll
    unfold ClockDisc.wait
    dsimp only
    split_ifs <;> rfl
  unfold clockDiscUpdate
  dsimp only
  rw [if_neg h]
  unfold ClockDisc.sample
  dsimp only
  rw [dllUpdate_rejected hm, if_neg Bool.false_ne_true, hwait]

theorem clockDiscUpdate_taken (h : c.selects avail ≠ .freerun) (hm : dllSane m = true) :
    clockDiscUpdate c avail (some m) = ((c.switch (c.selects avail)).follow
      (dllUpdate (c.switch (c.selects avail)).dll m).1).report c := by
  unfold clockDiscUpdate
  dsimp only
  rw [if_neg h]
  unfold ClockDisc.sample
  dsimp only
  rw [if_pos (dllUpdate_taken hm).1]

/-- Every call selects its reference. -/
@[simp] theorem clockDiscUpdate_src (c : ClockDisc) (avail : UInt32) (measured : Option ℚ) :
    (clockDiscUpdate c avail measured).src = c.selects avail := by
  by_cases h : c.selects avail = .freerun
  · rw [clockDiscUpdate_free h, report_src, freeRun_src, switch_src, h]
  · cases measured with
    | none => rw [clockDiscUpdate_none h, report_src, wait_src, switch_src]
    | some m =>
      cases hm : dllSane m with
      | false =>
        rw [clockDiscUpdate_rejected h hm, report_src]
        exact (wait_src _).trans (switch_src _ _)
      | true =>
        rw [clockDiscUpdate_taken h hm]
        exact switch_src _ _

/-- What is counted for the old reference does not count for a new one. -/
theorem switch_inBand (c : ClockDisc) (src : ClockSource) :
    (c.switch src).inBand = if src = c.src then c.inBand else 0 := by
  unfold ClockDisc.switch
  split_ifs <;> rfl

theorem switch_updates (c : ClockDisc) (src : ClockSource) :
    (c.switch src).dll.updates = c.dll.updates := by
  unfold ClockDisc.switch
  split_ifs <;> rfl

theorem switch_applied (c : ClockDisc) (src : ClockSource) :
    (c.switch src).dll.appliedPpm = c.dll.appliedPpm := by
  unfold ClockDisc.switch
  split_ifs <;> rfl

theorem switch_residEma (c : ClockDisc) (src : ClockSource) :
    (c.switch src).dll.residEma = c.dll.residEma := by
  unfold ClockDisc.switch
  split_ifs <;> rfl

end Calls

/-! ## What a state claims -/

/-- One call of a run. -/
abbrev ClockEvent := Event ClockDisc ClockInput Unit

/-- The call changed the reference. -/
def clockSwitched (e : ClockEvent) : Bool := e.post.src ≠ e.pre.src

/-- The loop took a sample in the call. -/
def clockTook (e : ClockEvent) : Bool :=
  match e.input with
  | .update _ (some m) => e.post.src ≠ .freerun ∧ dllSane m
  | _ => false

/-- The calls since the reference was last changed, that one included, in which the loop took a sample. -/
def takenSinceSwitch (log : List ClockEvent) : List ClockEvent :=
  (fromLast clockSwitched log).filter clockTook

/-- What the discipline is, given the calls so far. -/
structure ClockOk (log : List ClockEvent) (c : ClockDisc) : Prop where
  band : ∃ before last, takenSinceSwitch log = before ++ last ∧ last.length = c.inBand ∧
    ∀ e ∈ last, e.post.dll.residEma < dllLockPpm
  updates : c.dll.updates = (log.filter clockTook).length
  locked : c.state = .locked → c.src ≠ .freerun ∧ dllLockUpdates ≤ c.inBand
  unlocked : c.state = .unlocked → c.src = .freerun ∧ c.dll.updates = 0
  holdover : c.state = .holdover → c.src = .freerun ∧ 0 < c.dll.updates

section Claims

variable {log : List ClockEvent}

theorem takenSinceSwitch_stays {e : ClockEvent} (h : e.post.src = e.pre.src) :
    takenSinceSwitch (log ++ [e]) = takenSinceSwitch log ++ [e].filter clockTook := by
  have hstays : clockSwitched e = false := by simp [clockSwitched, h]
  unfold takenSinceSwitch
  rw [fromLast_concat, hstays, if_neg Bool.false_ne_true, List.filter_append]

theorem takenSinceSwitch_moves {e : ClockEvent} (h : e.post.src ≠ e.pre.src) :
    takenSinceSwitch (log ++ [e]) = [e].filter clockTook := by
  have hmoves : clockSwitched e = true := by simp [clockSwitched, h]
  unfold takenSinceSwitch
  rw [fromLast_concat, hmoves, if_pos rfl]

/-- A call that takes no sample leaves the band as the switch did. -/
theorem ClockOk.untaken (h : ClockOk log c) {i : ClockInput} {src : ClockSource}
    (htook : clockTook (clockMachine.event c i) = false) (hsrc : (clockStep c i).src = src)
    (hband : (clockStep c i).inBand = if src = c.src then c.inBand else 0)
    (hupdates : (clockStep c i).dll.updates = c.dll.updates) :
    (∃ before last, takenSinceSwitch (log ++ [clockMachine.event c i]) = before ++ last ∧
      last.length = (clockStep c i).inBand ∧ ∀ e ∈ last, e.post.dll.residEma < dllLockPpm) ∧
    (clockStep c i).dll.updates = ((log ++ [clockMachine.event c i]).filter clockTook).length := by
  have hnone : [clockMachine.event c i].filter clockTook = [] := by simp [htook]
  refine ⟨?_, ?_⟩
  · rw [hband]
    by_cases hsame : src = c.src
    · rw [takenSinceSwitch_stays (hsrc.trans hsame), hnone, List.append_nil, if_pos hsame]
      exact h.band
    · rw [takenSinceSwitch_moves fun hc => hsame (hsrc.symm.trans hc), hnone, if_neg hsame]
      exact ⟨[], [], rfl, rfl, List.forall_mem_nil _⟩
  · rw [List.filter_append, hnone, List.append_nil, hupdates]
    exact h.updates

/-- A reference without a sample is being acquired, unless it was followed before. -/
theorem waits_state (h : c.selects avail ≠ .freerun) :
    (c.switch (c.selects avail)).wait.state = .locking ∨
      (c.switch (c.selects avail)).wait.state = .locked ∧ c.selects avail = c.src ∧ c.state = .locked := by
  by_cases hsame : c.selects avail = c.src
  · have hswitch : c.switch (c.selects avail) = c := by
      unfold ClockDisc.switch
      exact if_pos hsame
    rw [hswitch]
    unfold ClockDisc.wait
    cases hstate : c.state with
    | unlocked => simp
    | holdover => simp
    | locking => simp [hstate]
    | locked => simp [hstate, hsame]
  · left
    unfold ClockDisc.wait ClockDisc.switch
    simp [hsame, h]

theorem ClockOk.wait (h : ClockOk log c) {measured : Option ℚ}
    (hfree : c.selects avail ≠ .freerun)
    (htook : clockTook (clockMachine.event c (.update avail measured)) = false)
    (hstate : (clockDiscUpdate c avail measured).state = (c.switch (c.selects avail)).wait.state)
    (hband : (clockDiscUpdate c avail measured).inBand = (c.switch (c.selects avail)).inBand)
    (hupdates : (clockDiscUpdate c avail measured).dll.updates = c.dll.updates) :
    ClockOk (log ++ [clockMachine.event c (.update avail measured)])
      (clockStep c (.update avail measured)) := by
  have hsrc := clockDiscUpdate_src c avail measured
  rw [switch_inBand] at hband
  obtain ⟨hband', hupdates'⟩ := h.untaken htook hsrc hband hupdates
  refine ⟨hband', hupdates', ?_, ?_, ?_⟩
  · intro hlocked
    simp only [clockStep] at hlocked ⊢
    rw [hstate] at hlocked
    rcases waits_state hfree with hlocking | ⟨-, hsame, hbefore⟩
    · rw [hlocking] at hlocked
      cases hlocked
    · rw [hsrc, hband, if_pos hsame]
      exact ⟨hfree, (h.locked hbefore).2⟩
  · intro hunlocked
    simp only [clockStep] at hunlocked
    rw [hstate] at hunlocked
    rcases waits_state hfree with hlocking | ⟨hlocked, -⟩
    · rw [hlocking] at hunlocked
      cases hunlocked
    · rw [hlocked] at hunlocked
      cases hunlocked
  · intro hholdover
    simp only [clockStep] at hholdover
    rw [hstate] at hholdover
    rcases waits_state hfree with hlocking | ⟨hlocked, -⟩
    · rw [hlocking] at hholdover
      cases hholdover
    · rw [hlocked] at hholdover
      cases hholdover

theorem ClockOk.free (h : ClockOk log c) (hfree : c.selects avail = .freerun) (measured : Option ℚ) :
    ClockOk (log ++ [clockMachine.event c (.update avail measured)])
      (clockStep c (.update avail measured)) := by
  have hcall := clockDiscUpdate_free hfree measured
  have hsrc : (clockDiscUpdate c avail measured).src = .freerun :=
    (clockDiscUpdate_src c avail measured).trans hfree
  have hdll : (clockDiscUpdate c avail measured).dll.updates = c.dll.updates := by
    rw [hcall, report_dll, freeRun_dll, switch_updates]
  have htook : clockTook (clockMachine.event c (.update avail measured)) = false := by
    cases measured <;> simp [clockTook, clockStep, hfree]
  have hcount : (clockDiscUpdate c avail measured).inBand =
      if ClockSource.freerun = c.src then c.inBand else 0 := by
    rw [hcall, report_inBand, freeRun_inBand, switch_inBand]
  obtain ⟨hband, hupdates⟩ := h.untaken htook hsrc hcount hdll
  have hstate : (clockDiscUpdate c avail measured).state =
      if 0 < c.dll.updates then .holdover else .unlocked := by
    rw [hcall, report_state]
    unfold ClockDisc.freeRun
    rw [switch_updates]
    split_ifs <;> rfl
  refine ⟨hband, hupdates, ?_, ?_, ?_⟩
  · intro hlocked
    simp only [clockStep] at hlocked
    rw [hstate] at hlocked
    split_ifs at hlocked
  · intro hunlocked
    simp only [clockStep] at hunlocked ⊢
    rw [hstate] at hunlocked
    split_ifs at hunlocked with hzero
    exact ⟨hsrc, by rw [hdll]; omega⟩
  · intro hholdover
    simp only [clockStep] at hholdover ⊢
    rw [hstate] at hholdover
    split_ifs at hholdover with hpos
    exact ⟨hsrc, by rw [hdll]; exact hpos⟩

/-- What a sample that was taken makes of the discipline. -/
theorem clockDiscUpdate_follows (hfree : c.selects avail ≠ .freerun) (hm : dllSane m = true) :
    let c' := clockDiscUpdate c avail (some m)
    c'.dll.updates = c.dll.updates + 1 ∧ c'.dll.residEma = c.dll.nextEma m ∧
      c'.dll.appliedPpm = (c.dll.steer m).appliedPpm ∧
      c'.inBand = (if c'.dll.residEma < dllLockPpm then
        (if c.selects avail = c.src then c.inBand else 0) + 1 else 0) ∧
      c'.state = (if dllLockUpdates ≤ c'.inBand then .locked else .locking) := by
  obtain ⟨-, hupdates, hema, happlied⟩ := dllUpdate_taken (d := (c.switch (c.selects avail)).dll) hm
  rw [switch_updates] at hupdates
  have hema' : (c.switch (c.selects avail)).dll.nextEma m = c.dll.nextEma m := by
    unfold Dll.nextEma
    rw [switch_updates, switch_applied, switch_residEma]
  have happlied' : ((c.switch (c.selects avail)).dll.steer m).appliedPpm =
      (c.dll.steer m).appliedPpm := by
    unfold Dll.steer
    dsimp only
    rw [switch_applied]
  intro c'
  have hc' : c' = ((c.switch (c.selects avail)).follow
      (dllUpdate (c.switch (c.selects avail)).dll m).1).report c := clockDiscUpdate_taken hfree hm
  rw [hc']
  refine ⟨hupdates, hema.trans hema', happlied.trans happlied', ?_, rfl⟩
  rw [← switch_inBand]
  rfl

theorem ClockOk.take (h : ClockOk log c) (hfree : c.selects avail ≠ .freerun) (hm : dllSane m = true) :
    ClockOk (log ++ [clockMachine.event c (.update avail (some m))])
      (clockStep c (.update avail (some m))) := by
  obtain ⟨hupdates, -, -, hband, hstate⟩ := clockDiscUpdate_follows hfree hm
  have hsrc := clockDiscUpdate_src c avail (some m)
  have htook : clockTook (clockMachine.event c (.update avail (some m))) = true := by
    simp [clockTook, clockStep, hfree, hm]
  have hone : [clockMachine.event c (.update avail (some m))].filter clockTook =
      [clockMachine.event c (.update avail (some m))] := by simp [htook]
  refine ⟨?_, ?_, ?_, ?_, ?_⟩
  · simp only [clockStep]
    by_cases hin : (clockDiscUpdate c avail (some m)).dll.residEma < dllLockPpm
    · rw [hband, if_pos hin]
      by_cases hsame : c.selects avail = c.src
      · obtain ⟨before, last, htaken, hlen, hlast⟩ := h.band
        rw [takenSinceSwitch_stays (hsrc.trans hsame), hone, if_pos hsame]
        refine ⟨before, last ++ [clockMachine.event c (.update avail (some m))], ?_, ?_, ?_⟩
        · rw [← List.append_assoc, ← htaken]
        · rw [List.length_append, hlen, List.length_singleton]
        · intro e he
          rcases List.mem_append.mp he with he | he
          · exact hlast e he
          · rw [List.mem_singleton.mp he]
            exact hin
      · rw [takenSinceSwitch_moves fun hc => hsame (hsrc.symm.trans hc), hone, if_neg hsame]
        refine ⟨[], [clockMachine.event c (.update avail (some m))], rfl, rfl, ?_⟩
        intro e he
        rw [List.mem_singleton.mp he]
        exact hin
    · rw [hband, if_neg hin]
      exact ⟨_, [], (List.append_nil _).symm, rfl, List.forall_mem_nil _⟩
  · simp only [clockStep]
    rw [List.filter_append, hone, List.length_append, hupdates, h.updates, List.length_singleton]
  · intro hlocked
    simp only [clockStep] at hlocked ⊢
    rw [hstate] at hlocked
    split_ifs at hlocked with hcount
    exact ⟨by rw [hsrc]; exact hfree, hcount⟩
  · intro hunlocked
    simp only [clockStep] at hunlocked
    rw [hstate] at hunlocked
    split_ifs at hunlocked
  · intro hholdover
    simp only [clockStep] at hholdover
    rw [hstate] at hholdover
    split_ifs at hholdover

theorem ClockOk.step (h : ClockOk log c) (i : ClockInput) :
    ClockOk (log ++ [clockMachine.event c i]) (clockStep c i) := by
  cases i with
  | setQuality src q =>
    obtain ⟨hband, hupdates⟩ := h.untaken (i := .setQuality src q) rfl rfl (if_pos rfl).symm rfl
    exact ⟨hband, hupdates, h.locked, h.unlocked, h.holdover⟩
  | update avail measured =>
    by_cases hfree : c.selects avail = .freerun
    · exact h.free hfree measured
    · cases measured with
      | none =>
        have hcall := clockDiscUpdate_none hfree
        exact h.wait hfree rfl (by rw [hcall, report_state]) (by rw [hcall, report_inBand, wait_inBand])
          (by rw [hcall, report_dll, wait_dll, switch_updates])
      | some m =>
        cases hm : dllSane m with
        | true => exact h.take hfree hm
        | false =>
          have hcall := clockDiscUpdate_rejected hfree hm
          have htook : clockTook (clockMachine.event c (.update avail (some m))) = false := by
            simp [clockTook, hm]
          refine h.wait hfree htook ?_ ?_ ?_
          · rw [hcall, report_state]
          · rw [hcall, report_inBand]
            exact wait_inBand _
          · rw [hcall, report_dll]
            exact switch_updates _ _

theorem clockOk_init (role : Role) (nominalNs : ℕ) : ClockOk [] (clockDiscInit role nominalNs) :=
  ⟨⟨[], [], rfl, rfl, List.forall_mem_nil _⟩, rfl, nofun, fun _ => ⟨rfl, rfl⟩, nofun⟩

theorem clockOk_run (role : Role) (nominalNs : ℕ) (is : List ClockInput) :
    ClockOk (clockMachine.trace (clockDiscInit role nominalNs) is)
      (clockMachine.run (clockDiscInit role nominalNs) is) :=
  clockMachine.trace_invariant (L := fun _ _ => True) (clockOk_init role nominalNs)
    (fun _ _ i h _ => h.step i) is fun _ _ _ => trivial

/-! ## One call -/

/-- The call changed what is published. -/
def clockChanged (e : ClockEvent) : Prop :=
  e.post.src ≠ e.pre.src ∨ e.post.state ≠ e.pre.state ∨ e.post.srcQuality ≠ e.pre.srcQuality

/-- The loop without its count of refused samples. -/
def Dll.unrejected (d : Dll) : Dll := { d with rejected := 0 }

section OneCall

variable (c)

/-- What is counted up is there to be seen. -/
theorem report_generation (c before : ClockDisc) :
    let c' := c.report before
    c'.generation = if c'.src ≠ before.src ∨ c'.state ≠ before.state ∨ c'.srcQuality ≠ before.srcQuality then
      c.generation + 1 else c.generation := rfl

theorem switch_generation (src : ClockSource) : (c.switch src).generation = c.generation := by
  unfold ClockDisc.switch
  split_ifs <;> rfl

theorem freeRun_generation (before : ClockState) : (c.freeRun before).generation = c.generation := by
  unfold ClockDisc.freeRun
  split_ifs <;> rfl

theorem wait_generation : c.wait.generation = c.generation := by
  unfold ClockDisc.wait
  split_ifs <;> rfl

theorem clockStep_generation (i : ClockInput) :
    (clockChanged (clockMachine.event c i) → (clockStep c i).generation = c.generation + 1) ∧
      (¬ clockChanged (clockMachine.event c i) → (clockStep c i).generation = c.generation) := by
  have hreport : ∀ b : ClockDisc, b.generation = c.generation → clockStep c i = b.report c →
      (clockChanged (clockMachine.event c i) → (clockStep c i).generation = c.generation + 1) ∧
        (¬ clockChanged (clockMachine.event c i) → (clockStep c i).generation = c.generation) := by
    intro b hb hstep
    simp only [clockChanged, Reactive.Machine.event_post, Reactive.Machine.event_pre, clockMachine_step]
    rw [hstep]
    have hgen := report_generation b c
    dsimp only at hgen
    rw [hb] at hgen
    exact ⟨fun h => hgen.trans (if_pos h), fun h => hgen.trans (if_neg h)⟩
  cases i with
  | setQuality src q => exact ⟨fun h => by simp [clockChanged, clockStep, clockDiscSetQuality] at h, fun _ => rfl⟩
  | update avail measured =>
    by_cases hfree : c.selects avail = .freerun
    · refine hreport _ ?_ (clockDiscUpdate_free hfree measured)
      rw [freeRun_generation, switch_generation]
    · cases measured with
      | none =>
        refine hreport _ ?_ (clockDiscUpdate_none hfree)
        rw [wait_generation, switch_generation]
      | some m =>
        cases hm : dllSane m with
        | true =>
          refine hreport _ ?_ (clockDiscUpdate_taken hfree hm)
          exact switch_generation c _
        | false =>
          refine hreport _ ?_ (clockDiscUpdate_rejected hfree hm)
          exact (wait_generation _).trans (switch_generation c _)

variable {c}

/-- While no reference is followed the loop holds what it has. -/
theorem clockStep_holds {i : ClockInput} (h : (clockStep c i).state = .holdover) :
    (clockStep c i).dll.appliedPpm = c.dll.appliedPpm ∧
      (c.state ≠ .unlocked → clockDiscPeriodNs (clockStep c i) = clockDiscPeriodNs c) := by
  have hperiod : (clockStep c i).dll.appliedPpm = c.dll.appliedPpm →
      (clockStep c i).dll.nominalNs = c.dll.nominalNs → c.state ≠ .unlocked →
      clockDiscPeriodNs (clockStep c i) = clockDiscPeriodNs c := by
    intro happlied hnominal hstate
    unfold clockDiscPeriodNs
    rw [if_neg (by rw [h]; nofun), if_neg hstate]
    unfold dllPeriodNs
    rw [happlied, hnominal]
  cases i with
  | setQuality src q => exact ⟨rfl, hperiod rfl rfl⟩
  | update avail measured =>
    by_cases hfree : c.selects avail = .freerun
    · have hdll : (clockDiscUpdate c avail measured).dll = (c.switch .freerun).dll := by
        rw [clockDiscUpdate_free hfree, report_dll, freeRun_dll]
      have happlied : (clockDiscUpdate c avail measured).dll.appliedPpm = c.dll.appliedPpm := by
        rw [hdll, switch_applied]
      refine ⟨happlied, hperiod happlied ?_⟩
      simp only [clockStep]
      rw [hdll]
      unfold ClockDisc.switch
      split_ifs <;> rfl
    · -- A reference that is there is never in holdover.
      exfalso
      simp only [clockStep] at h
      cases measured with
      | none =>
        rw [clockDiscUpdate_none hfree, report_state] at h
        rcases waits_state hfree with hlocking | ⟨hlocked, -⟩
        · rw [hlocking] at h
          cases h
        · rw [hlocked] at h
          cases h
      | some m =>
        cases hm : dllSane m with
        | true =>
          rw [(clockDiscUpdate_follows hfree hm).2.2.2.2] at h
          split_ifs at h
        | false =>
          rw [clockDiscUpdate_rejected hfree hm, report_state] at h
          rcases waits_state hfree with hlocking | ⟨hlocked, -⟩
          · exact absurd (hlocking.symm.trans h) nofun
          · exact absurd (hlocked.symm.trans h) nofun

/-- A refused sample does what no sample does, and is counted. -/
theorem clockDiscUpdate_refuses (hm : dllSane m = false) :
    let c' := clockDiscUpdate c avail (some m)
    c'.state = (clockDiscUpdate c avail none).state ∧
      c'.dll.unrejected = (clockDiscUpdate c avail none).dll.unrejected ∧
      (c'.src = c.src → c'.dll.unrejected = c.dll.unrejected) ∧
      (c'.state = .locked → c.state = .locked ∧ c'.src = c.src) := by
  have hstays : c.selects avail = c.src → c.switch (c.selects avail) = c := by
    intro hsame
    unfold ClockDisc.switch
    exact if_pos hsame
  intro c'
  have hsrc : c'.src = c.selects avail := clockDiscUpdate_src c avail (some m)
  by_cases hfree : c.selects avail = .freerun
  · have hsame : c' = clockDiscUpdate c avail none :=
      (clockDiscUpdate_free hfree _).trans (clockDiscUpdate_free hfree _).symm
    have hc' : c' = ((c.switch .freerun).freeRun c.state).report c := clockDiscUpdate_free hfree _
    refine ⟨congrArg _ hsame, congrArg (fun c => c.dll.unrejected) hsame, ?_, ?_⟩
    · intro hstay
      rw [hc', report_dll, freeRun_dll, ← hfree, hstays (hsrc.symm.trans hstay)]
    · intro hlocked
      rw [hc', report_state] at hlocked
      unfold ClockDisc.freeRun at hlocked
      split_ifs at hlocked
  · have hc' : c' = _ := clockDiscUpdate_rejected hfree hm
    rw [clockDiscUpdate_none hfree, hsrc, hc']
    refine ⟨rfl, ?_, ?_, ?_⟩
    · rw [report_dll, report_dll, wait_dll]
      rfl
    · intro hstay
      rw [hstays hstay]
      rfl
    · intro hlocked
      rw [report_state] at hlocked
      rcases waits_state hfree with hlocking | ⟨-, hsame, hbefore⟩
      · exact absurd (hlocking.symm.trans hlocked) nofun
      · exact ⟨hbefore, hsame⟩

end OneCall

/-- Whatever the calls: the published state is what it claims to be. A lock follows a reference that has been
in band for four samples on end since it was switched to; an unlocked discipline has never followed one; in
holdover the correction stands. A refused sample does nothing but be counted, and the generation moves
with what is published. -/
theorem clock_state_honest (role : Role) (nominalNs : ℕ) (is : List ClockInput) :
    let log := clockMachine.trace (clockDiscInit role nominalNs) is
    let c := clockMachine.run (clockDiscInit role nominalNs) is
    (c.state = .locked → c.src ≠ .freerun ∧ ∃ before last, takenSinceSwitch log = before ++ last ∧
      dllLockUpdates ≤ last.length ∧ ∀ e ∈ last, e.post.dll.residEma < dllLockPpm) ∧
    (c.state = .unlocked → c.src = .freerun ∧ log.filter clockTook = []) ∧
    (c.state = .holdover → c.src = .freerun ∧ log.filter clockTook ≠ []) ∧
    ∀ before e, clockMachine.StepOf (clockDiscInit role nominalNs) is before e →
      (e.post.state = .holdover → e.post.dll.appliedPpm = e.pre.dll.appliedPpm ∧
        (e.pre.state ≠ .unlocked → clockDiscPeriodNs e.post = clockDiscPeriodNs e.pre)) ∧
      (∀ avail m, e.input = .update avail (some m) → dllSane m = false →
        e.post.state = (clockDiscUpdate e.pre avail none).state ∧
        e.post.dll.unrejected = (clockDiscUpdate e.pre avail none).dll.unrejected ∧
        (e.post.src = e.pre.src → e.post.dll.unrejected = e.pre.dll.unrejected) ∧
        (e.post.state = .locked → e.pre.state = .locked ∧ e.post.src = e.pre.src)) ∧
      (clockChanged e → e.post.generation = e.pre.generation + 1) ∧
      (¬ clockChanged e → e.post.generation = e.pre.generation) := by
  intro log c
  have hok : ClockOk log c := clockOk_run role nominalNs is
  refine ⟨?_, ?_, ?_, ?_⟩
  · intro hlocked
    obtain ⟨hsrc, hcount⟩ := hok.locked hlocked
    obtain ⟨before, last, htaken, hlen, hlast⟩ := hok.band
    exact ⟨hsrc, before, last, htaken, by rw [hlen]; exact hcount, hlast⟩
  · intro hunlocked
    obtain ⟨hsrc, hnone⟩ := hok.unlocked hunlocked
    exact ⟨hsrc, List.eq_nil_of_length_eq_zero (hok.updates.symm.trans hnone)⟩
  · intro hholdover
    obtain ⟨hsrc, hsome⟩ := hok.holdover hholdover
    refine ⟨hsrc, fun hnone => ?_⟩
    rw [hok.updates, hnone] at hsome
    exact absurd hsome (Nat.lt_irrefl 0)
  · rintro before e ⟨post, he⟩
    obtain ⟨is₁, i, is₂, -, -, rfl⟩ := clockMachine.trace_split he
    refine ⟨clockStep_holds, ?_, clockStep_generation _ i⟩
    rintro avail m rfl hm
    exact clockDiscUpdate_refuses hm

end Claims

end Libreac
