import Libreac.Proofs.DeskProofs

/-!
# Proofs: the counter of the downstream

A slot stamps the master's counter and moves it by one; a frame off the wire moves every other part of the
master but not the counter. A re-establishment, asked for by a rate change or a link that came back,
starts a new master, whose counter is zero.
-/

namespace Libreac

open Reactive (Event)

variable {env : Env} {p : Pacer} {t : MasterTunables} {tx : HeadampTx} {m m' : Master}

/-! ## The counter of the master -/

theorem enterProbing_counter (m : Master) : (enterProbing m).counter = m.counter := by
  unfold enterProbing masterForgetBox
  dsimp only
  split_ifs <;> rfl

theorem enterGranting_counter (tx : HeadampTx) (m : Master) (src : Mac) (blk : Option Block) :
    (enterGranting tx m src blk).counter = m.counter := by
  obtain ⟨rows, -, -, heq⟩ := enterGranting_eq tx m src blk
  rw [heq]

theorem Heard.counter {m₁ : Master} (h : Heard m m₁) : m₁.counter = m.counter := by
  obtain ⟨seen, lc, rfl⟩ := h
  unfold Master.started
  split_ifs
  · exact enterProbing_counter m
  · rfl

theorem Ticked.counter {m₀ : Master} (h : Ticked m m₀) : m₀.counter = m.counter + 1 := by
  obtain ⟨seen, tick, rfl⟩ := h
  rfl

theorem SceneMove.counter {emit : MasterEmit} (h : SceneMove tx m emit m') : m'.counter = m.counter := by
  cases h with
  | none | opened | closed | dropped => rfl
  | released => exact enterGranting_counter ..
  | bye => exact enterProbing_counter _

/-- No frame moves the counter. -/
theorem RxMove.counter {ev : RxEvent} {src : Mac} {blk : Option Block} {r : Bool}
    (h : RxMove tx m ev src blk m' r) : m'.counter = m.counter := by
  cases h with
  | refused => rfl
  | stay _ h₁ => exact h₁.counter
  | held h₁ => exact h₁.counter
  | latch h₁ => exact (enterGranting_counter ..).trans h₁.counter
  | relatch h₁ => exact (enterGranting_counter ..).trans h₁.counter
  | accept _ h₁ => exact h₁.counter
  | bye _ h₁ => exact (enterProbing_counter _).trans h₁.counter

/-- Every slot moves it by one, whichever transition it makes. -/
theorem NextMove.counter {s : Slot} (h : NextMove t tx m m' s) : m'.counter = m.counter + 1 := by
  cases h with
  | hunt h₀ hs =>
    refine (sceneAccount_move tx _ ?_).counter.trans h₀.counter
    exact .inl hs
  | grant h₀ | delivered h₀ | wait h₀ => exact h₀.counter
  | boxUnknown h₀ => exact (enterProbing_counter _).trans h₀.counter
  | locked h₀ hs =>
    refine (sceneAccount_move tx _ ?_).counter.trans h₀.counter
    exact .inr hs
  | lost h₀ => exact (enterProbing_counter _).trans h₀.counter

theorem masterSetHeadampSrc_counter (tx : HeadampTx) (m : Master) (present : Bool) :
    (masterSetHeadampSrc tx m present).counter = m.counter := by
  obtain ⟨rows, -, -, heq⟩ := masterSetHeadampSrc_eq tx m present
  rw [heq]

theorem masterInit_counter (t : MasterTunables) (placeholder : SceneBody) (src : Mac)
    (cfg : Option ConsoleCfg) (fps : ℤ) : (masterInit t placeholder src cfg fps).counter = 0 := by
  obtain ⟨blk, desc, heq⟩ := masterInit_eq t placeholder src cfg fps
  rw [heq]

/-! ## The counter of the pacer -/

theorem rxDeclare_counter (p : Pacer) (frame : List UInt8) :
    (rxDeclare p frame).master.counter = p.master.counter := by
  rcases rxDeclare_master p frame with ⟨-, hm⟩ | ⟨a, rows, -, -, ⟨-, hm⟩ | ⟨-, hm⟩⟩
  · rw [hm]
  · rw [hm]
    rfl
  · rw [hm]
    exact enterGranting_counter ..

theorem rxIngest_counter (env : Env) (p : Pacer) (bytes : List UInt8) :
    (rxIngest env p bytes).1.master.counter = p.master.counter := by
  obtain ⟨p₀, ident, frag, complete, rfl, -, ⟨-, heq⟩ | ⟨src, ev, -, htaken⟩⟩ := rxIngest_takes env p bytes
  · rw [heq]
    rfl
  · obtain ⟨_, _, _, _, _, _, _, _, heq, -⟩ := htaken
    rw [heq]
    exact (masterRx_move ..).counter.trans (rxDeclare_counter _ _)

/-- A slot stamps the counter as it stands. -/
theorem masterSlot_counter (env : Env) (p : Pacer) :
    (masterSlot env p).2.2.counter = p.master.counter ∧
      (masterSlot env p).1.master.counter = p.master.counter + 1 := by
  obtain ⟨_, _, _, _, _, _, _, _, _, _, heq, -⟩ := masterSlot_eq env p
  rw [heq]
  exact ⟨rfl, (masterNext_move env.tunables p.headamp p.master).counter⟩

/-- A re-establishment starts it over. -/
theorem applyRate_counter (env : Env) (p : Pacer) (hz : ℤ) : (applyRate env p hz).1.master.counter = 0 := by
  obtain ⟨cfg, hm⟩ := applyRate_master env p hz
  rw [hm, masterSetHeadampSrc_counter, masterInit_counter]

theorem pacerOpen_counter (env : Env) (cfg : PacerCfg) : (pacerOpen env cfg).master.counter = 0 :=
  (masterSetHeadampSrc_counter ..).trans (masterInit_counter ..)

/-- The counter a slot stamps: as it stands, or zero if a request is waiting. -/
def Pacer.stamps (p : Pacer) : UInt16 := if p.rateReqPending then 0 else p.master.counter

theorem slot_counter (env : Env) (p : Pacer) :
    ((pacerMachine env).event p .slot).out.sent.map Sent.counter = some p.stamps ∧
      ((pacerMachine env).event p .slot).post.master.counter = p.stamps + 1 := by
  have hdrain : (rateDrain env p).1.master.counter = p.stamps := by
    unfold rateDrain Pacer.stamps
    split_ifs
    · exact applyRate_counter ..
    · rfl
  obtain ⟨hsent, hnext⟩ := masterSlot_counter env (rateDrain env p).1
  rw [hdrain] at hsent hnext
  obtain ⟨hpost, hout⟩ := slot_event env p
  rw [hpost, hout]
  exact ⟨congrArg some hsent, hnext⟩

/-! ## Whole runs -/

/-- The counters of the emitted frames, in order. -/
def sentCounters (log : List PacerEvent) : List UInt16 :=
  log.filterMap fun e => e.out.sent.map Sent.counter

theorem sentCounters_concat (log : List PacerEvent) (e : PacerEvent) :
    sentCounters (log ++ [e]) = sentCounters log ++ (e.out.sent.map Sent.counter).toList := by
  unfold sentCounters
  rw [List.filterMap_append, List.filterMap_cons, List.filterMap_nil]
  cases e.out.sent.map Sent.counter <;> rfl

/-- A call other than a slot sends nothing and leaves the counter. -/
theorem pacerStep_counter (env : Env) (p : Pacer) {i : PacerInput} (hi : i ≠ .slot) :
    (pacerStep env p i).2.sent = none ∧ (pacerStep env p i).1.master.counter = p.master.counter := by
  cases i with
  | frame bytes => exact ⟨rfl, rxIngest_counter env p bytes⟩
  | slot => exact absurd rfl hi
  | requestRate r => exact ⟨rfl, rfl⟩
  | requestReestablish => exact ⟨rfl, rfl⟩
  | headampSet ch param value =>
    refine ⟨rfl, ?_⟩
    simp only [pacerStep, headampSet]
    split_ifs <;> rfl

/-- The master's counter stands one behind the last frame. -/
theorem counter_follows (env : Env) (cfg : PacerCfg) (is : List PacerInput) :
    ∀ c ∈ (sentCounters ((pacerMachine env).trace (pacerOpen env cfg) is)).getLast?,
      ((pacerMachine env).run (pacerOpen env cfg) is).master.counter = c + 1 := by
  refine (pacerMachine env).trace_invariant (L := fun _ _ => True)
    (H := fun log p => ∀ c ∈ (sentCounters log).getLast?, p.master.counter = c + 1) nofun ?_ is
    fun _ _ _ => trivial
  intro log p i h _ c hc
  rw [sentCounters_concat] at hc
  by_cases hi : i = .slot
  · subst hi
    obtain ⟨hlast, hnext⟩ := slot_counter env p
    rw [hlast, Option.toList_some, List.getLast?_concat] at hc
    rw [← Option.some.inj hc]
    exact hnext
  · obtain ⟨hnone, hstays⟩ := pacerStep_counter env p hi
    have hlast : ((pacerMachine env).event p i).out.sent.map Sent.counter = none :=
      congrArg (Option.map Sent.counter) hnone
    rw [hlast, Option.toList_none, List.append_nil] at hc
    exact hstays.trans (h c hc)

/-- The step of a run that is not one of its prefix is the last one. -/
theorem stepOf_concat {env : Env} {p : Pacer} {is : List PacerInput} {i : PacerInput}
    {log : List PacerEvent} {e : PacerEvent} (he : (pacerMachine env).StepOf p (is ++ [i]) log e) :
    (pacerMachine env).StepOf p is log e ∨ log = (pacerMachine env).trace p is ∧
      e = (pacerMachine env).event ((pacerMachine env).run p is) i := by
  rcases he.of_append with hbefore | ⟨log', rfl, hlast⟩
  · exact .inl hbefore
  · rcases hlast.of_cons with ⟨rfl, rfl⟩ | ⟨log'', -, post, hnil⟩
    · exact .inr ⟨List.append_nil _, rfl⟩
    · simp at hnil

/-- The counters of consecutive frames differ by one exactly if no slot behind the first finds a request
waiting, unless the counter stands at zero there. -/
theorem counter_runs_on (env : Env) (cfg : PacerCfg) (is : List PacerInput) :
    (sentCounters ((pacerMachine env).trace (pacerOpen env cfg) is)).IsChain (fun a b => b = a + 1) ↔
      ∀ log e, (pacerMachine env).StepOf (pacerOpen env cfg) is log e → e.input = .slot →
        sentCounters log ≠ [] → e.pre.rateReqPending = true → e.pre.master.counter = 0 := by
  induction is using List.reverseRecOn with
  | nil =>
    refine ⟨?_, fun _ => .nil⟩
    rintro - log e ⟨post, he⟩
    simp at he
  | append_singleton is i ih =>
    have hfollows := counter_follows env cfg is
    rw [(pacerMachine env).trace_concat, sentCounters_concat, List.isChain_append, ih]
    generalize hp : (pacerMachine env).run (pacerOpen env cfg) is = p at hfollows ⊢
    have hlast := (pacerMachine env).stepOf_last (pacerOpen env cfg) is i
    rw [hp] at hlast
    have hsplit : ∀ {log e}, (pacerMachine env).StepOf (pacerOpen env cfg) (is ++ [i]) log e →
        (pacerMachine env).StepOf (pacerOpen env cfg) is log e ∨
          log = (pacerMachine env).trace (pacerOpen env cfg) is ∧ e = (pacerMachine env).event p i := by
      intro log e he
      rw [← hp]
      exact stepOf_concat he
    by_cases hi : i = .slot
    · subst hi
      rw [(slot_counter env p).1, Option.toList_some]
      constructor
      · rintro ⟨hbefore, -, hjoin⟩ log e he hslot hsome hpend
        rcases hsplit he with he | ⟨rfl, rfl⟩
        · exact hbefore log e he hslot hsome hpend
        · -- The frame before stamped the counter's predecessor.
          obtain ⟨c, hc⟩ := Option.ne_none_iff_exists'.mp (mt List.getLast?_eq_none_iff.mp hsome)
          have hzero := hjoin c hc p.stamps rfl
          unfold Pacer.stamps at hzero
          rw [show p.rateReqPending = true from hpend, if_pos rfl] at hzero
          exact (hfollows c hc).trans hzero.symm
      · intro hall
        refine ⟨fun log e he => hall log e (he.append _ _), .singleton _, ?_⟩
        rintro c hc d hd
        obtain rfl : p.stamps = d := Option.some.inj hd
        rw [← hfollows c hc]
        unfold Pacer.stamps
        by_cases hpend : p.rateReqPending = true
        · rw [if_pos hpend]
          refine (hall _ _ hlast rfl ?_ hpend).symm
          rintro hnone
          rw [hnone] at hc
          cases hc
        · rw [if_neg hpend]
    · have hsent : ((pacerMachine env).event p i).out.sent.map Sent.counter = none :=
        congrArg (Option.map Sent.counter) (pacerStep_counter env p hi).1
      rw [hsent, Option.toList_none]
      constructor
      · rintro ⟨hbefore, -⟩ log e he hslot hsome hpend
        rcases hsplit he with he | ⟨rfl, rfl⟩
        · exact hbefore log e he hslot hsome hpend
        · exact absurd hslot hi
      · intro hall
        exact ⟨fun log e he => hall log e (he.append _ _), .nil, nofun⟩

/-- The link of a desk bounces between its first two slots: both frames carry the counter zero. -/
theorem counter_starts_over : ¬ ∀ env cfg is,
    (sentCounters ((pacerMachine env).trace (pacerOpen env cfg) is)).IsChain (fun a b => b = a + 1) := by
  intro h
  have hchain := h deskEnv deskCfg [.slot, .requestReestablish, .slot]
  have hfirst : (pacerOpen deskEnv deskCfg).stamps = 0 := by
    unfold Pacer.stamps
    split_ifs
    · rfl
    · exact pacerOpen_counter ..
  have hidle : (pacerOpen deskEnv deskCfg).rateReqPending = false := rfl
  have hsecond : (requestReestablish (pacerStep deskEnv (pacerOpen deskEnv deskCfg) .slot).1).stamps = 0 := by
    have hkeeps := pacerStep_keeps deskEnv (pacerOpen deskEnv deskCfg) (i := .slot) rfl hidle
    have hpend : (requestReestablish
        (pacerStep deskEnv (pacerOpen deskEnv deskCfg) .slot).1).rateReqPending = true := by
      show ((pacerStep deskEnv (pacerOpen deskEnv deskCfg) .slot).1.rateReqSeq + 1 !=
        (pacerStep deskEnv (pacerOpen deskEnv deskCfg) .slot).1.rateReqSeen) = true
      rw [hkeeps.rateReqSeq, hkeeps.rateReqSeen]
      rfl
    unfold Pacer.stamps
    rw [if_pos hpend]
  have hcounters : sentCounters ((pacerMachine deskEnv).trace (pacerOpen deskEnv deskCfg)
      [.slot, .requestReestablish, .slot]) = [0, 0] := by
    have h₁ := (slot_counter deskEnv (pacerOpen deskEnv deskCfg)).1
    have h₂ := (slot_counter deskEnv
      (requestReestablish (pacerStep deskEnv (pacerOpen deskEnv deskCfg) .slot).1)).1
    rw [hfirst] at h₁
    rw [hsecond] at h₂
    let counterOf := fun e : PacerEvent => e.out.sent.map Sent.counter
    unfold sentCounters Reactive.Machine.trace
    rw [List.filterMap_cons_some (f := counterOf) h₁]
    exact congrArg (0 :: ·) (List.filterMap_cons_some (f := counterOf) h₂)
  rw [hcounters] at hchain
  revert hchain
  decide

end Libreac
