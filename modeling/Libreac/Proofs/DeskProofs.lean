import Libreac.Proofs.PacerProofs
import Libreac.Proofs.SceneProofs
import Libreac.Proofs.WindowProofs

/-!
# Proofs: a desk finds its box

A pacer whose master has just been initialised pushes the scene in its own time (`Rested.hunts`), a
box that then asks for a grant gets a window, and a window with a declared box ends ESTABLISHED
(`Windowed.establishes`). These are the runs the defects of the pacer are shown on; none of them is
evaluated slot by slot.
-/

namespace Libreac

variable {env : Env} {p : Pacer} {m : Master} {t : MasterTunables} {tx : HeadampTx}

/-- A step of the pacer. -/
abbrev PacerEvent := Reactive.Event Pacer PacerInput PacerOut

/-- The sessions reported in these steps. -/
def reportsOf (log : List PacerEvent) : List SessionReport := log.flatMap (·.out.reports)

theorem reportsOf_append (log log' : List PacerEvent) :
    reportsOf (log ++ log') = reportsOf log ++ reportsOf log' := List.flatMap_append

theorem reportsOf_trace_cons (env : Env) (p : Pacer) (i : PacerInput) (is : List PacerInput) :
    reportsOf ((pacerMachine env).trace p (i :: is)) = (pacerStep env p i).2.reports ++
      reportsOf ((pacerMachine env).trace (pacerStep env p i).1 is) := by
  unfold reportsOf
  rw [Reactive.Machine.trace_cons, List.flatMap_cons]
  rfl

/-! ## Slots without a transition -/

/-- Nothing is waiting for the next slot. -/
structure Idles (p : Pacer) : Prop where
  pending : p.rateReqPending = false
  cmds : p.headampCmds = []

theorem Idles.slot_eq (h : Idles p) (env : Env) :
    pacerStep env p .slot = ((masterSlot env p).1,
      { reports := (masterSlot env p).2.1, sent := some (masterSlot env p).2.2 }) := by
  simp only [pacerStep, pacerSlot, rateDrain, h.pending, Bool.false_eq_true, if_false,
    List.nil_append]

/-- A slot that leaves the state the pacer knows of moves the master and nothing else. -/
theorem Idles.slot_quiet (h : Idles p) (env : Env)
    (hs : (masterNext env.tunables p.headamp p.master).1.state = p.prevState)
    (hne : p.prevState ≠ .established) :
    (pacerStep env p .slot).1
        = { p with master := (masterNext env.tunables p.headamp p.master).1 } ∧
      (pacerStep env p .slot).2.reports = [] := by
  obtain ⟨headamp, ctrl, heq, -, htx⟩ := masterSlot_cases env p
  rw [if_neg (by simp [hs])] at heq
  rw [h.slot_eq, heq, htx h.cmds (by rw [hs]; exact hne)]
  constructor
  · dsimp only
    rw [← h.cmds]
  · rfl

theorem Idles.slots_quiet (h : Idles p) (env : Env) (n : ℕ) (hne : p.prevState ≠ .established)
    (hs : ∀ k, 1 ≤ k → k ≤ n → ((masterMachine env.tunables).run p.master
      (List.replicate k (p.headamp, .next))).state = p.prevState) :
    (pacerMachine env).run p (List.replicate n .slot) = { p with
        master := (masterMachine env.tunables).run p.master
          (List.replicate n (p.headamp, .next)) } ∧
      reportsOf ((pacerMachine env).trace p (List.replicate n .slot)) = [] := by
  induction n generalizing p with
  | zero => exact ⟨rfl, rfl⟩
  | succ n ih =>
    obtain ⟨hstep, hrep⟩ := h.slot_quiet env (hs 1 (by omega) (by omega)) hne
    have hrest := ih (p := (pacerStep env p .slot).1)
    rw [hstep] at hrest
    obtain ⟨hrun, hreps⟩ := hrest ⟨h.pending, h.cmds⟩ hne
      (fun k hk hle => hs (k + 1) (by omega) (by omega))
    constructor
    · rw [List.replicate_succ, Reactive.Machine.run_cons]
      exact (congrArg (fun q => (pacerMachine env).run q _) hstep).trans hrun
    · rw [List.replicate_succ, reportsOf_trace_cons, hrep, hstep, hreps]
      rfl

/-! ## The hunt -/

/-- A pacer whose master has just been initialised. -/
structure Rested (p : Pacer) : Prop where
  idles : Idles p
  state : p.master.state = .idle
  prev : p.prevState = .idle
  alloc : p.master.alloc = .none
  burst : BurstGeometry p.master.geo
  stride : p.master.geo.grantStride = 12
  dwell : p.master.geo.DwellOk
  sweep : p.master.SweepOk
  seq : p.master.sessionSeq = 0
  ident : p.master.identityComplete = false

/-- A pacer that has pushed its scene and waits for a box. -/
structure Hunting (p : Pacer) : Prop where
  idles : Idles p
  state : p.master.state = .probing
  prev : p.prevState = .probing
  ready : p.master.sceneTransferReady = true
  alloc : p.master.alloc = .none
  stride : p.master.geo.grantStride = 12
  dwell : p.master.geo.DwellOk
  sweep : p.master.SweepOk
  seq : p.master.sessionSeq = 0
  declared : p.declaredIn = 0
  unheard : p.rxIdentity.hasFw = false

theorem masterNext_started (t : MasterTunables) (tx : HeadampTx) (m : Master) :
    masterNext t tx m.started = masterNext t tx m := by
  have hstart : Master.started { m with counter := m.counter + 1 }
      = { m.started with counter := m.started.counter + 1 } := by
    unfold Master.started enterProbing masterForgetBox
    dsimp only
    split_ifs <;> rfl
  have hstay : Master.started { m.started with counter := m.started.counter + 1 }
      = { m.started with counter := m.started.counter + 1 } := started_of_ne (started_state_ne m)
  unfold masterNext
  rw [promoteIdle_eq, promoteIdle_eq, hstart, hstay]

theorem run_started (t : MasterTunables) (tx : HeadampTx) (m : Master) {n : ℕ} (h : 1 ≤ n) :
    (masterMachine t).run m (List.replicate n (tx, .next))
      = (masterMachine t).run m.started (List.replicate n (tx, .next)) := by
  obtain ⟨k, rfl⟩ : ∃ k, n = k + 1 := ⟨n - 1, by omega⟩
  rw [List.replicate_succ, Reactive.Machine.run_cons, Reactive.Machine.run_cons]
  have hstep : ((masterMachine t).step m (tx, .next)).1
      = ((masterMachine t).step m.started (tx, .next)).1 :=
    (congrArg Prod.fst (masterNext_started t tx m)).symm
  rw [hstep]

theorem started_eq (h : m.state = .idle) : ∃ cad blk, cad.cyclePos = m.geo.sub01Off ∧
    m.started = { m with
      state := .probing, cad := cad, sceneInflight := false, sceneComplete := 0, joinHeld := false
      commitSeen := false, announceBlk := blk } := by
  refine ⟨resetControlCadence m.geo m.cad, genCfea m.src m.cfg 0, rfl, ?_⟩
  rw [started_of_idle h, enterProbing, if_neg (by simp [h])]

/-- What the slots of a push keep of an idle master. -/
theorem push_keeps {m' : Master} (h : m.state = .idle) (hon : HuntsOn m.started m') :
    m'.state = .probing ∧ m'.geo = m.geo ∧ m'.alloc = m.alloc ∧ m'.grantBurst = m.grantBurst ∧
      m'.sessionSeq = m.sessionSeq ∧ m'.identityComplete = m.identityComplete := by
  obtain ⟨cad, blk, -, heq⟩ := started_eq h
  rw [heq] at hon
  obtain ⟨_, _, _, _, _, _, _, _, rfl⟩ := hon
  exact ⟨rfl, rfl, rfl, rfl, rfl, rfl⟩

/-- The first slot: the pacer notes that the hunt has begun. -/
theorem Rested.first_slot (h : Rested p) (env : Env)
    (hon : HuntsOn p.master.started (masterNext env.tunables p.headamp p.master).1) :
    ∃ box base mac dout ident frag, (pacerStep env p .slot).1 = { p with
        master := (masterNext env.tunables p.headamp p.master).1, prevState := .probing
        recognizedBox := box, recognizedHeadampBase := base, recognizedBoxMac := mac
        declaredIn := 0, declaredOut := dout, rxIdentity := ident, rxIdentityFrag := frag } ∧
      ident.hasFw = false ∧ (pacerStep env p .slot).2.reports = [] := by
  obtain ⟨hstate, -, halloc, -, -, hident⟩ := push_keeps h.state hon
  obtain ⟨headamp, ctrl, box, base, mac, din, dout, ident, frag, complete, heq, -, hnone, -, htx⟩ :=
    masterSlot_eq env p
  have hne : (masterNext env.tunables p.headamp p.master).1.state ≠ p.prevState := by
    rw [hstate, h.prev]
    decide
  have hbox : (masterNext env.tunables p.headamp p.master).1.hasBox = false := by
    rw [hasBox_eq_false_iff, halloc, h.alloc]
    rfl
  obtain ⟨rfl, hfw, rfl⟩ := hnone hne hbox
  obtain rfl := htx h.idles.cmds (by rw [hstate]; decide)
  have hans : masterIdentityAnswered (masterNext env.tunables p.headamp p.master).1 false
      = (masterNext env.tunables p.headamp p.master).1 := by
    unfold masterIdentityAnswered
    rw [← h.ident, ← hident]
  rw [hans, hstate, if_pos (by rw [h.prev]; decide)] at heq
  refine ⟨box, base, mac, dout, ident, frag, ?_, hfw, ?_⟩
  · rw [h.idles.slot_eq, heq, ← h.idles.cmds]
  · rw [h.idles.slot_eq, heq]
    simp [sessionReport, h.prev]

/-- Left alone, the pacer pushes its scene and goes on hunting. -/
theorem Rested.hunts (h : Rested p) (env : Env) : ∃ n, 1 ≤ n ∧
    Hunting ((pacerMachine env).run p (List.replicate n .slot)) ∧
    ((pacerMachine env).run p (List.replicate n .slot)).src = p.src ∧
    reportsOf ((pacerMachine env).trace p (List.replicate n .slot)) = [] := by
  obtain ⟨cad, blk, hcyc, hstart⟩ := started_eq h.state
  have hs : p.master.started.state = .probing := by rw [hstart]
  have hpos : p.master.started.cad.cyclePos = p.master.started.geo.sub01Off := by rw [hstart, hcyc]
  have hgeo : p.master.started.geo = p.master.geo := by rw [hstart]
  have hg : BurstGeometry p.master.started.geo := hgeo ▸ h.burst
  have hpushed : ∀ k : ℕ, 1 ≤ k → (k : ℤ) ≤ p.master.started.geo.sub02Off + 5 →
      HuntsOn p.master.started ((masterMachine env.tunables).run p.master
        (List.replicate k (p.headamp, .next))) := by
    intro k hk hle
    rw [run_started _ _ _ hk]
    exact (push_slots env.tunables p.headamp hg hs hpos hk hle).1
  have hoff : 0 ≤ p.master.started.geo.sub02Off := by
    have hburst := hg.burstEnd_eq
    have hafter := hg.tail_after
    unfold burstSlot at hburst
    omega
  obtain ⟨m₁, hon, hcomp, hinf, hrun⟩ := push_completes env.tunables p.headamp hg hs hpos
  rw [← run_started _ _ _ (by omega), if_neg (by rw [hstart]; simp)] at hrun
  generalize hn : p.master.started.geo.sub02Off.toNat = n at *
  obtain ⟨_, _, _, _, ident, _, hfirst, hfw, hrep⟩ := h.first_slot env (hpushed 1 (by omega) (by omega))
  have hidles : Idles (pacerStep env p .slot).1 := by
    rw [hfirst]
    exact ⟨h.idles.pending, h.idles.cmds⟩
  have hmaster : (pacerStep env p .slot).1.master
      = (masterMachine env.tunables).run p.master [(p.headamp, .next)] := by rw [hfirst]; rfl
  have htx : (pacerStep env p .slot).1.headamp = p.headamp := by rw [hfirst]
  have hprev : (pacerStep env p .slot).1.prevState = .probing := by rw [hfirst]
  have hjoin : ∀ k, (masterMachine env.tunables).run (pacerStep env p .slot).1.master
      (List.replicate k ((pacerStep env p .slot).1.headamp, .next))
      = (masterMachine env.tunables).run p.master (List.replicate (k + 1) (p.headamp, .next)) := by
    intro k
    rw [hmaster, htx, List.replicate_succ, Reactive.Machine.run_cons]
    rfl
  obtain ⟨hslots, hreps⟩ := hidles.slots_quiet env (n + 5) (by rw [hprev]; decide) (by
    intro k hk hle
    rw [hjoin, hprev]
    rcases Nat.lt_or_ge k (n + 5) with hlt | hge
    · exact (push_keeps h.state (hpushed (k + 1) (by omega) (by omega))).1
    · obtain rfl : k = n + 5 := by omega
      rw [hrun]
      exact (push_keeps h.state hon).1)
  rw [hjoin, hrun] at hslots
  obtain ⟨hstate, hgeo', halloc, hburst, hseq, -⟩ := push_keeps h.state hon
  have heq : (pacerMachine env).run p (List.replicate (n + 6) .slot)
      = { (pacerStep env p .slot).1 with master := m₁ } := by
    rw [List.replicate_succ, Reactive.Machine.run_cons]
    exact hslots
  refine ⟨n + 6, by omega, ?_, ?_, ?_⟩
  · rw [heq, hfirst]
    refine ⟨⟨h.idles.pending, h.idles.cmds⟩, hstate, rfl, ?_, halloc.trans h.alloc, ?_, ?_, ?_,
      hseq.trans h.seq, rfl, hfw⟩
    · simp [Master.sceneTransferReady, hcomp, hinf]
    · rw [hgeo']
      exact h.stride
    · rw [hgeo']
      exact h.dwell
    · unfold Master.SweepOk Master.hasBox
      dsimp only
      rw [halloc, hburst]
      exact h.sweep
  · rw [heq, hfirst]
  · rw [List.replicate_succ, reportsOf_trace_cons, hrep, hreps]
    rfl

/-! ## The window -/

/-- `m'` differs from `m` only in what a slot of the window may touch. -/
def WindowsOn (m m' : Master) : Prop :=
  ∃ counter seen tick cad win, m' = { m with
    counter := counter, boxSeen := seen, presenceTick := tick, cad := cad, win := win }

theorem WindowsOn.refl (m : Master) : WindowsOn m m := ⟨_, _, _, _, _, rfl⟩

theorem WindowsOn.trans {m₁ m₂ m₃ : Master} (h : WindowsOn m₁ m₂) (h' : WindowsOn m₂ m₃) :
    WindowsOn m₁ m₃ := by
  obtain ⟨_, _, _, _, _, rfl⟩ := h
  obtain ⟨_, _, _, _, _, rfl⟩ := h'
  exact ⟨_, _, _, _, _, rfl⟩

theorem WindowsOn.common {m₁ m₂ m₃ : Master} (h : WindowsOn m₁ m₂) (h' : WindowsOn m₁ m₃) :
    WindowsOn m₂ m₃ := by
  obtain ⟨_, _, _, _, _, rfl⟩ := h
  obtain ⟨_, _, _, _, _, rfl⟩ := h'
  exact ⟨_, _, _, _, _, rfl⟩

theorem WindowsOn.keeps {m' : Master} (h : WindowsOn m m') : m'.state = m.state ∧
    m'.alloc = m.alloc ∧ m'.boxMac = m.boxMac ∧ m'.sessionSeq = m.sessionSeq := by
  obtain ⟨_, _, _, _, _, rfl⟩ := h
  exact ⟨rfl, rfl, rfl, rfl⟩

/-- A grant window for a declared box. -/
structure Windowing (m : Master) : Prop where
  state : m.state = .granting
  box : m.hasBox = true
  stride : m.geo.grantStride = 12
  dwell : m.geo.DwellOk
  ticks : 0 ≤ m.win.grantTicks
  ended : 0 ≤ m.win.dwellEndedTick
  ended_lt : 0 < m.win.dwellEndedTick → m.win.dwellEndedTick < m.win.grantTicks
  ended_le : m.win.dwellEndedTick ≤ m.geo.grantDwell
  length_le : m.grantBurst.length ≤ 128

/-- A slot delivers the window, or its clock goes on below a bound. -/
theorem Windowing.next (h : Windowing m) (t : MasterTunables) (tx : HeadampTx) :
    (∃ m₁, WindowsOn m m₁ ∧ (masterNext t tx m).1 = enterEstablished m₁) ∨
    (WindowsOn m (masterNext t tx m).1 ∧ Windowing (masterNext t tx m).1 ∧
      (masterNext t tx m).1.win.grantTicks = m.win.grantTicks + 1 ∧
      (masterNext t tx m).1.win.grantTicks ≤ m.geo.grantDwell + 12 * m.grantBurst.length) := by
  have hmove := masterNext_move t tx m
  generalize (masterNext t tx m).1 = m', (masterNext t tx m).2 = s at hmove
  have hidle : m.state ≠ .idle := by
    rw [h.state]
    decide
  cases hmove with
  | hunt h₀ hs | locked h₀ hs | lost h₀ hs =>
    obtain ⟨seen, tick, rfl⟩ := h₀.of_ne_idle hidle
    simp [h.state] at hs
  | wait h₀ _ hb | boxUnknown h₀ _ hb =>
    obtain ⟨seen, tick, rfl⟩ := h₀.of_ne_idle hidle
    have hbox := h.box
    simp only [Master.hasBox] at hb hbox
    rw [hbox] at hb
    cases hb
  | delivered h₀ =>
    obtain ⟨seen, tick, rfl⟩ := h₀.of_ne_idle hidle
    exact .inl ⟨_, ⟨_, _, _, _, _, rfl⟩, rfl⟩
  | grant h₀ hs hb hw hd =>
    rename_i c w
    obtain ⟨seen, tick, rfl⟩ := h₀.of_ne_idle hidle
    obtain ⟨hwt, hwe, -⟩ := declaredSlot_spec (m := { m with
      counter := m.counter + 1, boxSeen := seen, presenceTick := tick }) h.stride h.dwell h.ticks
      h.ended h.ended_lt hw
    have h₁ := h.ticks
    have h₂ := h.ended
    have h₃ := h.ended_lt
    have h₄ := h.ended_le
    dsimp only at hwt hwe
    have hle : w.dwellEndedTick ≤ m.geo.grantDwell := by omega
    have hrun := (grantDelivered_eq_false_iff (m := { m with
      counter := m.counter + 1, boxSeen := seen, presenceTick := tick, cad := c, win := w.tick })
      h.stride h.dwell hle h.length_le h.box).mp hd
    simp only [Master.grantAnchor, Window.tick] at hrun
    refine .inr ⟨⟨_, _, _, _, _, rfl⟩,
      ⟨hs, h.box, h.stride, h.dwell, ?_, ?_, ?_, ?_, h.length_le⟩, ?_, ?_⟩
    all_goals
      simp only [Window.tick]
      split_ifs at hrun <;> omega

/-- Left alone, the window is delivered. -/
theorem Windowing.delivers (h : Windowing m) (t : MasterTunables) (tx : HeadampTx) :
    ∃ n m₁, WindowsOn m m₁ ∧
      (∀ k ≤ n, WindowsOn m ((masterMachine t).run m (List.replicate k (tx, .next)))) ∧
      (masterMachine t).run m (List.replicate (n + 1) (tx, .next)) = enterEstablished m₁ := by
  -- The clock is bounded: the induction is on what is left of it.
  obtain ⟨left, hleft⟩ : ∃ left : ℕ,
      m.geo.grantDwell + 12 * m.grantBurst.length + 1 - m.win.grantTicks ≤ left :=
    ⟨_, Int.self_le_toNat _⟩
  induction left generalizing m with
  | zero =>
    rcases h.next t tx with ⟨m₁, hon, heq⟩ | ⟨hon, -, htick, hle⟩
    · refine ⟨0, m₁, hon, ?_, heq⟩
      intro k hk
      obtain rfl : k = 0 := by omega
      exact .refl m
    · omega
  | succ left ih =>
    rcases h.next t tx with ⟨m₁, hon, heq⟩ | ⟨hon, hwin, htick, hle⟩
    · refine ⟨0, m₁, hon, ?_, heq⟩
      intro k hk
      obtain rfl : k = 0 := by omega
      exact .refl m
    · obtain ⟨n, m₁, hon', hgrant, heq⟩ := ih hwin (by
        obtain ⟨_, _, _, _, _, hm'⟩ := hon
        rw [hm'] at htick ⊢
        dsimp only at htick ⊢
        omega)
      refine ⟨n + 1, m₁, hon.trans hon', ?_, ?_⟩
      · intro k hk
        cases k with
        | zero => exact .refl m
        | succ k =>
          rw [List.replicate_succ, Reactive.Machine.run_cons]
          exact hon.trans (hgrant k (by omega))
      · rw [List.replicate_succ, Reactive.Machine.run_cons]
        exact heq

/-- A pacer with a grant window open for a declared box. -/
structure Windowed (p : Pacer) : Prop where
  idles : Idles p
  prev : p.prevState = .granting
  window : Windowing p.master

/-- The pacer `p'` has established the link `p` had a window open for. -/
structure Establishes (p p' : Pacer) : Prop where
  idles : Idles p'
  state : p'.master.state = .established
  prev : p'.prevState = .established
  alloc : p'.master.alloc = p.master.alloc
  boxMac : p'.master.boxMac = p.master.boxMac
  seq : p'.master.sessionSeq = p.master.sessionSeq + 1
  declaredIn : p'.declaredIn = p.declaredIn
  declaredOut : p'.declaredOut = p.declaredOut
  keeps : Keeps p p'

/-- The slot that delivers the window reports the session. -/
theorem establishing_slot (h : Idles p) (env : Env) (hprev : p.prevState = .granting)
    (hbox : p.master.hasBox = true) {m₁ : Master} (hon : WindowsOn p.master m₁)
    (hnext : (masterNext env.tunables p.headamp p.master).1 = enterEstablished m₁) :
    Establishes p (pacerStep env p .slot).1 ∧ (pacerStep env p .slot).2.reports
      = [some (p.master.boxMac, p.master.sessionSeq + 1)] := by
  obtain ⟨_, _, _, _, _, _, _, _, _, _, heq, hdecl, -⟩ := masterSlot_eq env p
  have hkeeps := masterSlot_keeps env p
  rw [hnext] at heq hdecl
  obtain ⟨_, _, _, _, _, rfl⟩ := hon
  obtain ⟨rfl, rfl⟩ := hdecl hbox
  rw [h.slot_eq, heq]
  rw [heq] at hkeeps
  refine ⟨⟨⟨hkeeps.pending.trans h.pending, rfl⟩, rfl, rfl, rfl, rfl, rfl, rfl, rfl, hkeeps⟩, ?_⟩
  simp [sessionReport, enterEstablished, hprev]

/-- Slots go by until one delivers the window. -/
theorem Windowed.delivers (h : Windowed p) (env : Env) : ∃ n m₀ m₁,
    (pacerMachine env).run p (List.replicate n .slot) = { p with master := m₀ } ∧
    reportsOf ((pacerMachine env).trace p (List.replicate n .slot)) = [] ∧
    WindowsOn p.master m₀ ∧ WindowsOn m₀ m₁ ∧
    (masterNext env.tunables p.headamp m₀).1 = enterEstablished m₁ := by
  obtain ⟨n, m₁, hon, hgrant, hnext⟩ := h.window.delivers env.tunables p.headamp
  obtain ⟨hrun, hreps⟩ := h.idles.slots_quiet env n (by rw [h.prev]; decide) (by
    intro k _ hk
    rw [h.prev, (hgrant k hk).keeps.1]
    exact h.window.state)
  have hon₀ := hgrant n (by omega)
  rw [List.replicate_succ', Reactive.Machine.run_append] at hnext
  exact ⟨n, _, m₁, hrun, hreps, hon₀, hon₀.common hon, hnext⟩

theorem Windowed.establishes (h : Windowed p) (env : Env) : ∃ n,
    Establishes p ((pacerMachine env).run p (List.replicate n .slot)) ∧
    reportsOf ((pacerMachine env).trace p (List.replicate n .slot))
      = [some (p.master.boxMac, p.master.sessionSeq + 1)] := by
  obtain ⟨n, m₀, m₁, hrun, hreps, hon₀, hon, hnext⟩ := h.delivers env
  obtain ⟨-, halloc, hmac, hseq⟩ := hon₀.keeps
  have hbox : m₀.hasBox = true := by
    rw [Master.hasBox, halloc]
    exact h.window.box
  obtain ⟨hest, hrep⟩ := establishing_slot (p := { p with master := m₀ })
    ⟨h.idles.pending, h.idles.cmds⟩ env h.prev hbox hon hnext
  dsimp only at hrep
  rw [hmac, hseq] at hrep
  refine ⟨n + 1, ?_, ?_⟩
  · rw [List.replicate_succ', Reactive.Machine.run_append, hrun]
    have hkeeps := hest.keeps
    change Establishes p (pacerStep env { p with master := m₀ } .slot).1
    exact ⟨hest.idles, hest.state, hest.prev, hest.alloc.trans halloc, hest.boxMac.trans hmac,
      hest.seq.trans (by rw [hseq]), hest.declaredIn, hest.declaredOut,
      ⟨hkeeps.src, hkeeps.fps, hkeeps.periodNs, hkeeps.rateHz, hkeeps.rateReqHz,
        hkeeps.rateReqSeq, hkeeps.rateReqSeen⟩⟩
  · rw [List.replicate_succ', Reactive.Machine.trace_append, reportsOf_append, hreps, hrun, ← hrep]
    simp [reportsOf, pacerMachine]

/-! ## Frames of a box -/

/-- The frame is an `ev` of the box `src`, and no identity record. -/
structure BoxSends (our : Mac) (bytes : List UInt8) (src : Mac) (ev : RxEvent) : Prop where
  reply : identityReply (cleanFrame bytes) = none
  fragment : isIdentityFragment (cleanFrame bytes) = false
  event : (classifyBoxFrame (cleanFrame bytes) our).map (fun pe => (pe.1.src, pe.2)) = some (src, ev)

theorem rxIdentityPass_plain (p : Pacer) {frame : List UInt8} (hreply : identityReply frame = none)
    (hfrag : isIdentityFragment frame = false) : rxIdentityPass p frame = p := by
  unfold rxIdentityPass
  split_ifs
  · rfl
  · rw [hreply]
    simp [identityFragment, hfrag]

theorem BoxSends.taken {bytes : List UInt8} {src : Mac} {ev : RxEvent}
    (h : BoxSends p.src bytes src ev) (env : Env) (hacc : p.master.peerAccepts src ev = true) :
    Taken (rxDeclare p (cleanFrame bytes)) ev src (eventBlock ev (cleanFrame bytes))
      (rxIngest env p bytes) := by
  obtain ⟨pe, hclass, heq⟩ := Option.map_eq_some_iff.mp h.event
  obtain ⟨rfl, rfl⟩ := Prod.mk.inj heq
  rcases rxIngest_cases env p bytes with ⟨-, hrefused⟩ | ⟨parsed, ev', hclass', -, htaken⟩
  · rw [hrefused pe.1 pe.2 hclass] at hacc
    cases hacc
  · rw [hclass] at hclass'
    obtain ⟨rfl, rfl⟩ := Prod.mk.inj (Option.some.inj hclass')
    rwa [rxIdentityPass_plain p h.reply h.fragment] at htaken

/-- A declaration that opens no window: there is none yet, or the width is the granted one. -/
theorem rxDeclare_applied {frame : List UInt8} {ports : BoxPorts} {a : GrantAlloc}
    (hlen : 50 ≤ frame.length) (hports : portsParse frame = some ports)
    (halloc : grantAllocate ports.headampBase ports.inCh = some a)
    (hnew : ports.inCh ≠ p.declaredIn ∨ ports.outCh ≠ p.declaredOut)
    (hstay : ports.inCh = p.master.alloc.width ∨
      p.master.state ≠ .granting ∧ p.master.state ≠ .established) :
    ∃ rows box, IsSweep a rows ∧ rxDeclare p frame = { p with
      master := p.master.declared a rows, recognizedBox := box
      declaredIn := ports.inCh, declaredOut := ports.outCh } := by
  obtain ⟨rows, hset, hsweep⟩ := masterSetBox_declared p.headamp p.master ports.outCh halloc
  refine ⟨rows, (boxCatalogueMatch frame).or p.recognizedBox, hsweep, ?_⟩
  obtain ⟨-, hw, -⟩ := grantAllocate_eq_some halloc
  have hdecl : declareBox p.headamp p.master ports = p.master.declared a rows := by
    unfold declareBox
    dsimp only
    rw [hset, if_neg]
    rintro ⟨-, hne, hst⟩
    rcases hstay with heq | ⟨hg, he⟩
    · exact hne heq
    · exact hst.elim hg he
  unfold rxDeclare
  rw [if_pos hlen, hports]
  dsimp only
  rw [if_pos hnew, hdecl, if_pos]
  show a.width = ports.inCh
  exact_mod_cast hw

/-- The frame is a config-announce of the box `src`, which declares `ports` and fits as `a`. -/
structure BoxDeclares (our : Mac) (bytes : List UInt8) (src : Mac) (ports : BoxPorts)
    (a : GrantAlloc) : Prop where
  sends : BoxSends our bytes src .config
  len : 50 ≤ (cleanFrame bytes).length
  ports_eq : portsParse (cleanFrame bytes) = some ports
  alloc : grantAllocate ports.headampBase ports.inCh = some a

theorem Hunting.accepts (h : Hunting p) (src : Mac) (ev : RxEvent) :
    p.master.peerAccepts src ev = true := by
  unfold Master.peerAccepts
  rw [if_pos (by rw [h.state]; decide)]

/-- The master `m'` has opened a window for the box `src`. -/
structure Latched (m m' : Master) (src : Mac) : Prop where
  state : m'.state = .granting
  fresh : m'.Fresh
  alloc : m'.alloc = m.alloc
  boxMac : m'.boxMac = src
  geo : m'.geo = m.geo
  seq : m'.sessionSeq = m.sessionSeq

theorem latched_enterGranting (tx : HeadampTx) {m₁ : Master} (h : Heard m m₁) (hs : m.state ≠ .idle)
    (drop : DropReason) (src : Mac) (blk : Option Block) :
    Latched m (enterGranting tx { m₁ with dropReason := drop } src blk) src := by
  obtain ⟨seen, lc, rfl⟩ := h.of_ne_idle hs
  obtain ⟨rows, -, -, heq⟩ := enterGranting_eq tx { m with
    boxSeen := true, presenceTick := 600, commitSeen := seen, linkCheck := lc
    dropReason := drop } src blk
  rw [heq]
  exact ⟨rfl, ⟨rfl, rfl⟩, rfl, rfl, rfl, rfl⟩

/-- A frame that asks a hunting master for a grant opens the window. -/
theorem masterRx_latches (tx : HeadampTx) {ev : RxEvent} (src : Mac) (blk : Option Block)
    (hs : m.state = .probing) (hready : m.sceneTransferReady = true) (hf : Forward ev blk) :
    Latched m (masterRx tx m ev src blk).1 src ∧ (masterRx tx m ev src blk).2 = true := by
  have hmove := masterRx_move tx m ev src blk
  generalize masterRx tx m ev src blk = r at hmove
  obtain ⟨m', changed⟩ := r
  have haccepts : m.peerAccepts src ev = true := by simp [Master.peerAccepts, hs]
  have hm₁ : ∀ {m₁ : Master}, Heard m m₁ → m₁.state = .probing ∧ m₁.sceneTransferReady = true := by
    intro m₁ h₁
    obtain ⟨seen, lc, rfl⟩ := h₁.of_ne_idle (by rw [hs]; decide)
    exact ⟨hs, hready⟩
  cases hmove with
  | refused hacc => exact absurd (haccepts.symm.trans hacc) (by simp)
  | stay _ h₁ hn => exact absurd hf (hn (hm₁ h₁).1)
  | held h₁ _ _ hr => simp [(hm₁ h₁).2] at hr
  | latch h₁ => exact ⟨latched_enterGranting tx h₁ (by simp [hs]) _ src _, rfl⟩
  | relatch h₁ hst | bye _ h₁ hst => simp [(hm₁ h₁).1] at hst
  | accept _ h₁ hst => simp [(hm₁ h₁).1] at hst

theorem Hunting.declares {bytes : List UInt8} {src : Mac} {ports : BoxPorts} {a : GrantAlloc}
    (h : Hunting p) (hd : BoxDeclares p.src bytes src ports a) (env : Env) :
    let p' := (pacerStep env p (.frame bytes)).1
    Windowed p' ∧ p'.master.alloc = a ∧ p'.master.boxMac = src ∧
      p'.master.sessionSeq = p.master.sessionSeq ∧ p'.declaredIn = ports.inCh ∧
      p'.declaredOut = ports.outCh ∧ Keeps p p' ∧
      (pacerStep env p (.frame bytes)).2.reports = [] := by
  obtain ⟨-, hw, hpos⟩ := grantAllocate_eq_some hd.alloc
  have hnew : ports.inCh ≠ p.declaredIn := by
    rw [h.declared]
    omega
  have htaken := hd.sends.taken env (h.accepts src .config)
  have hkeeps := rxIngest_keeps env p bytes
  obtain ⟨rows, box, hsweep, hdecl⟩ := rxDeclare_applied hd.len hd.ports_eq hd.alloc (.inl hnew)
    (.inr (by rw [h.state]; decide))
  rw [hdecl] at htaken
  obtain ⟨hlatch, hchanged⟩ := masterRx_latches p.headamp (m := p.master.declared a rows) src
    (eventBlock .config (cleanFrame bytes)) h.state h.ready (.inr rfl)
  obtain ⟨_, _, _, _, _, _, _, _, heq, hbox, -⟩ := htaken
  dsimp only at heq hbox
  generalize masterRx p.headamp (p.master.declared a rows) .config src
    (eventBlock .config (cleanFrame bytes)) = r at *
  obtain ⟨m', changed⟩ := r
  dsimp only at *
  have halloc : m'.alloc = a := hlatch.alloc
  have hhas : m'.hasBox = true := by
    rw [hasBox_iff, halloc]
    exact hpos
  obtain ⟨rfl, rfl⟩ := hbox hhas
  have hsweep' := (rxIngest_path env p bytes).continues.sweep h.sweep
  simp only [pacerStep]
  rw [heq] at hkeeps hsweep' ⊢
  have hgeo : m'.geo = p.master.geo := hlatch.geo
  refine ⟨⟨⟨hkeeps.pending.trans h.idles.pending, h.idles.cmds⟩, ?_, ⟨hlatch.state, hhas,
    (congrArg _ hgeo).trans h.stride, ?_, ?_, ?_, ?_, ?_, hsweep'.length_le⟩⟩, halloc, hlatch.boxMac, hlatch.seq, rfl,
    rfl, hkeeps, ?_⟩
  · simp [hchanged, hlatch.state]
  · exact hgeo ▸ h.dwell
  · exact hlatch.fresh.1.ge
  · exact hlatch.fresh.2.ge
  · intro hlt
    exact absurd hlatch.fresh.2 hlt.ne'
  · have hdwell := h.dwell
    rw [← hgeo] at hdwell
    exact hlatch.fresh.2.le.trans (le_trans (by decide) hdwell.1)
  · simp [sessionReport, Master.declared, h.state, hlatch.state]

/-- A JOIN opens a window for a box that has not declared itself. -/
theorem Hunting.joins {bytes : List UInt8} {src : Mac} (h : Hunting p)
    (hj : BoxSends p.src bytes src .join) (hports : portsParse (cleanFrame bytes) = none) (env : Env) :
    let p' := (pacerStep env p (.frame bytes)).1
    p'.master.state = .granting ∧ p'.master.boxMac = src ∧ p'.master.hasBox = false ∧
      p'.rxIdentity.hasFw = false ∧ p'.src = p.src := by
  have htaken := hj.taken env (h.accepts src .join)
  have hdecl : rxDeclare p (cleanFrame bytes) = p := by
    unfold rxDeclare
    rw [hports]
    simp
  rw [hdecl] at htaken
  obtain ⟨hlatch, -⟩ := masterRx_latches p.headamp (m := p.master) src
    (eventBlock .join (cleanFrame bytes)) h.state h.ready (.inl ⟨rfl, rfl⟩)
  obtain ⟨_, _, _, _, _, _, _, _, heq, -, hnone⟩ := htaken
  have hbox : (masterRx p.headamp p.master .join src
      (eventBlock .join (cleanFrame bytes))).1.hasBox = false := by
    rw [hasBox_eq_false_iff, hlatch.alloc, h.alloc]
    rfl
  obtain ⟨-, hfw⟩ := hnone hbox
  simp only [pacerStep]
  rw [heq]
  exact ⟨hlatch.state, hlatch.boxMac, hbox, hfw, rfl⟩

/-! ## Whole runs -/

/-- A frame comes in after `n` slots, and `k` more follow. -/
def announceRun (bytes : List UInt8) (n k : ℕ) : List PacerInput :=
  List.replicate n .slot ++ .frame bytes :: List.replicate k .slot

/-- A pacer at rest whose box declares itself after the push ends ESTABLISHED, in its first
session. -/
theorem Rested.establishes {bytes : List UInt8} {src : Mac} {ports : BoxPorts} {a : GrantAlloc}
    (h : Rested p) (hd : BoxDeclares p.src bytes src ports a) (env : Env) :
    ∃ n k, 1 ≤ n ∧ Hunting ((pacerMachine env).run p (List.replicate n .slot)) ∧
      let is := announceRun bytes n k
      let p' := (pacerMachine env).run p is
      Idles p' ∧ p'.master.state = .established ∧ p'.master.alloc = a ∧ p'.master.boxMac = src ∧
        p'.declaredIn = ports.inCh ∧ p'.declaredOut = ports.outCh ∧ p'.src = p.src ∧
        reportsOf ((pacerMachine env).trace p is) = [some (src, 1)] := by
  obtain ⟨n, hn, hhunt, hsrc, hreps⟩ := h.hunts env
  rw [← hsrc] at hd
  obtain ⟨hwin, halloc, hmac, hseq, hin, hout, hkeeps, hrep⟩ := hhunt.declares hd env
  obtain ⟨k, hest, hreps'⟩ := hwin.establishes env
  rw [hmac, hseq, hhunt.seq] at hreps'
  refine ⟨n, k, hn, hhunt, ?_⟩
  dsimp only [announceRun]
  rw [Reactive.Machine.run_append, Reactive.Machine.run_cons, Reactive.Machine.trace_append,
    reportsOf_append, reportsOf_trace_cons, hreps, hrep, hreps']
  exact ⟨hest.idles, hest.state, hest.alloc.trans halloc, hest.boxMac.trans hmac,
    hest.declaredIn.trans hin, hest.declaredOut.trans hout,
    hest.keeps.src.trans (hkeeps.src.trans hsrc), rfl⟩

/-- The steps of such a run: slots, and one frame. -/
theorem stepOf_announce {bytes : List UInt8} {n k : ℕ} {log : List PacerEvent} {e : PacerEvent}
    (he : (pacerMachine env).StepOf p (announceRun bytes n k) log e) :
    e.input = .slot ∨ log = (pacerMachine env).trace p (List.replicate n .slot) ∧
      e = (pacerMachine env).event ((pacerMachine env).run p (List.replicate n .slot))
        (.frame bytes) := by
  have hslot : ∀ {q : Pacer} {n : ℕ} {log : List PacerEvent},
      (pacerMachine env).StepOf q (List.replicate n .slot) log e → e.input = .slot := by
    intro q n log he
    exact List.eq_of_mem_replicate (Reactive.Machine.StepOf.input_mem _ he)
  rcases Reactive.Machine.StepOf.of_append _ he with hpre | ⟨log', rfl, hrest⟩
  · exact .inl (hslot hpre)
  · rcases Reactive.Machine.StepOf.of_cons _ hrest with ⟨rfl, rfl⟩ | ⟨_, -, hpost⟩
    · exact .inr ⟨List.append_nil _, rfl⟩
    · exact .inl (hslot hpost)

/-- A master fresh from `reac_master_init`, pointed at the head-amp table. -/
theorem masterInit_rests (t : MasterTunables) (placeholder : SceneBody) (src : Mac)
    (cfg : Option ConsoleCfg) (tx : HeadampTx) (fps : ℤ) :
    let m := masterSetHeadampSrc tx (masterInit t placeholder src cfg fps) true
    m.state = .idle ∧ m.alloc = .none ∧ m.geo = geometry t (initFps fps) ∧ m.SweepOk ∧
      m.sessionSeq = 0 ∧ m.identityComplete = false := by
  obtain ⟨blk, desc, hinit⟩ := masterInit_eq t placeholder src cfg fps
  obtain ⟨rows, -, hnone, heq⟩ := masterSetHeadampSrc_eq tx
    (masterInit t placeholder src cfg fps) true
  have hsweep := sweepOk_init t placeholder src cfg fps
  dsimp only
  rw [heq, hnone (by rw [hinit]; rfl), hinit]
  rw [hinit] at hsweep
  exact ⟨rfl, rfl, rfl, hsweep, rfl, rfl⟩

theorem applyRate_master (env : Env) (p : Pacer) (hz : ℤ) :
    ∃ cfg, (applyRate env p hz).1.master = masterSetHeadampSrc p.headamp
      (masterInit env.tunables env.placeholder p.src cfg (hz.tdiv samplesPerPkt)) true :=
  ⟨_, rfl⟩

theorem geometry_window (t : MasterTunables) {fps : ℤ} (h : fps ≤ 596522) :
    (geometry t (initFps fps)).grantStride = 12 ∧ (geometry t (initFps fps)).DwellOk := by
  refine ⟨rfl, (dwellFits_of_rate t (initFps_pos fps) ?_).geometry⟩
  unfold initFps
  split_ifs <;> omega

/-- Every rate on offer counts an hour in an `int`. -/
theorem Rate.hour_fits (r : Rate) : r.hz.tdiv samplesPerPkt ≤ 596522 := by
  cases r <;> decide

/-- A pacer that has just initialised its master is at rest. -/
theorem rested_of_init (t : MasterTunables) (placeholder : SceneBody) (src : Mac)
    (cfg : Option ConsoleCfg) (tx : HeadampTx) {fps : ℤ} (hfps : 500 ≤ fps) (hle : fps ≤ 596522)
    (hidles : Idles p)
    (hprev : p.prevState = .idle)
    (hm : p.master = masterSetHeadampSrc tx (masterInit t placeholder src cfg fps) true) :
    Rested p := by
  obtain ⟨hs, halloc, hgeo, hsweep, hseq, hident⟩ := masterInit_rests t placeholder src cfg tx fps
  rw [← hm] at hs halloc hgeo hsweep hseq hident
  have hwin := geometry_window t hle
  rw [← hgeo] at hwin
  have hburst : BurstGeometry p.master.geo := by
    rw [hgeo, initFps, if_pos (by omega)]
    exact burstGeometry_geometry t hfps (by omega)
  exact ⟨hidles, hs, hprev, halloc, hburst, hwin.1, hwin.2, hsweep, hseq, hident⟩

theorem rested_open (env : Env) (cfg : PacerCfg) (h : 500 ≤ cfg.fps) :
    Rested (pacerOpen env cfg) :=
  rested_of_init env.tunables env.placeholder cfg.srcMac (some cfg.consoleCfg)
    (headampOpen cfg.fps cfg.headamps) h cfg.fps_le ⟨rfl, rfl⟩ rfl rfl

/-! ## A stage box -/

/-- A frame to the desk that carries the control block `blk`, closed by its checksum. -/
def boxFrame (src : Mac) (blk : List UInt8) : List UInt8 :=
  deskMac.toList ++ src.toList ++ [0x88, 0x19, 0x00, 0x00, 0xcd, 0xea] ++ blk ++ [0 - blk.sum] ++
    List.replicate 72 0x00 ++ [0xc2, 0xea]

/-- A config-announce of `ins` input and `outs` output slots, at the strap `strap`. -/
def configFrame (src : Mac) (strap : UInt8) (ins outs : ℕ) : List UInt8 :=
  boxFrame src ([0x01, 0x03, 0x00, 0x10, 0x84, 0x00, 0x00, strap] ++ List.replicate ins 0x02 ++
    List.replicate outs 0x01 ++ List.replicate (12 - ins - outs) 0x03 ++ List.replicate 11 0x00)

/-- A cold connect. -/
def joinFrame (src : Mac) : List UInt8 :=
  boxFrame src ([0x04, 0x03, 0x00, 0x14, 0x00, 0x02, 0x00, 0xfe, 0x0f, 0xf0, 0x41, 0x0a, 0x00, 0x00,
    0x12, 0x12, 0x01, 0x00, 0x06, 0x00, 0x01, 0x00, 0x78, 0xf7] ++ List.replicate 7 0x00)

def stageBox : Mac := #v[0x00, 0x40, 0xab, 0xc4, 0x00, 0x01]

def otherBox : Mac := #v[0x00, 0x40, 0xab, 0xc4, 0x00, 0x02]

/-- The stage box: 16 in and 8 out at base 0. -/
def stageBoxAlloc : GrantAlloc := ⟨0, 16, by decide⟩

theorem stageBox_declares :
    BoxDeclares deskMac (configFrame stageBox 0 4 2) stageBox ⟨16, 8, 0⟩ stageBoxAlloc :=
  ⟨⟨by decide +kernel, by decide +kernel, by decide +kernel⟩, by decide +kernel, by decide +kernel,
    by decide +kernel⟩

theorem box_joins (src : Mac) (h : src = stageBox ∨ src = otherBox) :
    BoxSends deskMac (joinFrame src) src .join ∧ portsParse (cleanFrame (joinFrame src)) = none := by
  rcases h with rfl | rfl
  · exact ⟨⟨by decide +kernel, by decide +kernel, by decide +kernel⟩, by decide +kernel⟩
  · exact ⟨⟨by decide +kernel, by decide +kernel, by decide +kernel⟩, by decide +kernel⟩

end Libreac
