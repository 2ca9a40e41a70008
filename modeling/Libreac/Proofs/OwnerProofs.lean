import Libreac.Proofs.CtrlProofs
import Libreac.Proofs.DeskProofs

/-!
# Proofs: whose grant it is

The box a master serves and the allocation it serves it with are set at different times: a
config-announce sets the allocation, and a JOIN or a config-announce latches the box, at once or when
the scene push ends. The two belong together as long as every box that is latched finds either no
allocation in force or its own (`OwnerStep`).
-/

namespace Libreac

variable {env : Env} {p : Pacer} {m : Master} {t : MasterTunables} {tx : HeadampTx}

/-! ## The master -/

/-- The master serves one box: it is granting to it, or linked to it. -/
def Master.Bound (m : Master) : Prop := m.state = .granting ∨ m.state = .established

/-- The frame makes the master serve `src`: it asks for a grant after the push, or it is another
box's JOIN. -/
def Master.Asks (m : Master) (src : Mac) (ev : RxEvent) : Prop :=
  (m.Bound ∧ ev = .join ∧ src ≠ m.boxMac) ∨
  (¬ m.Bound ∧ (ev = .join ∨ ev = .config) ∧ m.sceneTransferReady = true)

/-- The slot the master sends next is the last of the push under way: the cycle is at the position of
the final chunk, which the locked cadence sends only if it pushes scenes and owes neither an announce
nor a map. -/
def Master.EndsPush (t : MasterTunables) (m : Master) : Prop :=
  m.sceneInflight = true ∧ burstIndexAt m.geo m.cad.cyclePos = none ∧ m.cad.cyclePos = m.geo.sub02Off ∧
    (m.state = .probing ∨ m.state = .established ∧ t.estScene = true ∧
      m.cad.announceTick + 1 < m.geo.fps ∧ m.cad.estChanmapTick + 1 < m.geo.fps)

/-- The same box, with the same allocation. -/
structure SameBox (m m' : Master) : Prop where
  alloc : m'.alloc = m.alloc
  boxMac : m'.boxMac = m.boxMac
  bound : m'.Bound ↔ m.Bound

theorem SameBox.refl (m : Master) : SameBox m m := ⟨rfl, rfl, Iff.rfl⟩

theorem SameBox.trans {m₁ m₂ m₃ : Master} (h : SameBox m₁ m₂) (h' : SameBox m₂ m₃) : SameBox m₁ m₃ :=
  ⟨h'.alloc.trans h.alloc, h'.boxMac.trans h.boxMac, h'.bound.trans h.bound⟩

/-- What a step of the master does to its box: nothing, or it forgets it, or it latches `src`. Only
the last one sets the box without the allocation. -/
inductive BoxMove (m : Master) (src : Mac) (latches : Prop) (m' : Master) : Prop where
  | same (h : SameBox m m')
  | forgotten (h : m'.hasBox = false)
  | latched (h : latches) (halloc : m'.alloc = m.alloc) (hmac : m'.boxMac = src)

theorem BoxMove.after {m₀ m' : Master} {src₀ src : Mac} {L₀ L : Prop} (h : BoxMove m₀ src₀ L₀ m')
    (hsame : SameBox m m₀) (hL : L₀ → L ∧ src₀ = src) : BoxMove m src L m' := by
  cases h with
  | same h => exact .same (hsame.trans h)
  | forgotten h => exact .forgotten h
  | latched h halloc hmac =>
    obtain ⟨hl, rfl⟩ := hL h
    exact .latched hl (halloc.trans hsame.alloc) hmac

theorem started_box (m : Master) : SameBox m m.started := by
  by_cases hs : m.state = .idle
  · obtain ⟨_, _, -, heq⟩ := started_eq hs
    rw [heq]
    refine ⟨rfl, rfl, ?_⟩
    simp [Master.Bound, hs]
  · rw [started_of_ne hs]
    exact .refl m

theorem Heard.box {m₁ : Master} (h : Heard m m₁) : SameBox m m₁ := by
  obtain ⟨seen, lc, rfl⟩ := h
  exact (started_box m).trans ⟨rfl, rfl, Iff.rfl⟩

theorem Ticked.box {m₀ : Master} (h : Ticked m m₀) : SameBox m m₀ := by
  obtain ⟨seen, tick, rfl⟩ := h
  exact (started_box m).trans ⟨rfl, rfl, Iff.rfl⟩

theorem enterProbing_forgets (h : m.state ≠ .idle) : (enterProbing m).hasBox = false := by
  unfold enterProbing
  dsimp only
  rw [if_pos (by simpa using h)]
  rfl

theorem enterGranting_box (tx : HeadampTx) (m : Master) (src : Mac) (blk : Option Block) :
    (enterGranting tx m src blk).alloc = m.alloc ∧ (enterGranting tx m src blk).boxMac = src := by
  obtain ⟨rows, -, -, heq⟩ := enterGranting_eq tx m src blk
  rw [heq]
  exact ⟨rfl, rfl⟩

theorem RxMove.box {m' : Master} {ev : RxEvent} {src : Mac} {blk : Option Block} {r : Bool}
    (h : RxMove tx m ev src blk m' r) : BoxMove m src (m.Asks src ev) m' := by
  cases h with
  | refused => exact .same (.refl m)
  | stay _ h₁ => exact .same h₁.box
  | held h₁ => exact .same (h₁.box.trans ⟨rfl, rfl, Iff.rfl⟩)
  | latch h₁ hs hf hr =>
    rename_i m₁
    have hsame := h₁.box
    have hready : m.sceneTransferReady = true := by
      rcases h₁.cases with ⟨hidle, -⟩ | ⟨-, seen, lc, rfl⟩
      · -- A hunt that has just begun has pushed nothing.
        obtain ⟨seen, lc, rfl⟩ := h₁
        have hcomplete := (enterProbing_freshHunt m).complete
        rw [← started_of_idle hidle] at hcomplete
        simp [Master.sceneTransferReady, hcomplete] at hr
      · exact hr
    have hfree : ¬ m.Bound := by
      rw [← hsame.bound]
      simp [Master.Bound, hs]
    obtain ⟨halloc, hmac⟩ := enterGranting_box tx m₁ src (heldBlock ev blk)
    exact .latched (.inr ⟨hfree, Or.imp_left And.left hf, hready⟩) (halloc.trans hsame.alloc) hmac
  | relatch h₁ hs hev hne hacc drop =>
    rename_i m₁
    have hsame := h₁.box
    obtain ⟨halloc, hmac⟩ := enterGranting_box tx { m₁ with dropReason := drop } src blk
    refine .latched (.inl ⟨hsame.bound.mp hs, hev, ?_⟩) (halloc.trans hsame.alloc) hmac
    rw [← hsame.boxMac]
    exact hne
  | accept _ h₁ hs =>
    refine .same (h₁.box.trans ⟨rfl, rfl, ?_⟩)
    exact iff_of_true (.inr rfl) (.inl hs)
  | bye _ _ hs =>
    refine .forgotten (enterProbing_forgets ?_)
    rcases hs with hs | hs
    · exact ne_of_eq_of_ne hs (by decide)
    · exact ne_of_eq_of_ne hs (by decide)

theorem SceneMove.box {m' : Master} {emit : MasterEmit} (h : SceneMove tx m emit m') :
    BoxMove m m.joinSrc (m.joinHeld = true ∧ m.sceneInflight = true ∧ emit = .sceneTail) m' := by
  cases h with
  | none | opened | closed | dropped => exact .same ⟨rfl, rfl, Iff.rfl⟩
  | released hemit hi hj =>
    obtain ⟨halloc, hmac⟩ := enterGranting_box tx _ m.joinSrc _
    exact .latched ⟨hj, hi, hemit⟩ halloc hmac
  | bye _ _ hs => exact .forgotten (enterProbing_forgets (ne_of_eq_of_ne hs (by decide)))

/-- Where the hunt sends the final chunk. -/
theorem huntCadence_tail (g : Geometry) (pos : ℤ) (c : Cadence) :
    (huntCadence g pos c).2.emit = .sceneTail ↔ burstIndexAt g pos = none ∧ pos = g.sub02Off := by
  unfold huntCadence
  cases hk : burstIndexAt g pos with
  | some k => simp [Slot.plain]
  | none =>
    dsimp only
    split_ifs with htail <;> simp [Slot.plain, htail]

theorem identityPoll_ne_tail (g : Geometry) (complete : Bool) (c : Cadence) :
    (identityPoll g complete c).2.emit ≠ .sceneTail := by
  rcases identityPoll_emit g complete c with h | h
  · rw [h]
    nofun
  · rw [h]
    nofun

/-- Where the locked cadence sends it. -/
theorem lockedCadence_tail (t : MasterTunables) (g : Geometry) (complete : Bool) (pos : ℤ) (c : Cadence) :
    (lockedCadence t g complete pos c).2.emit = .sceneTail ↔
      (burstIndexAt g pos = none ∧ pos = g.sub02Off) ∧
        t.estScene = true ∧ c.announceTick < g.fps ∧ c.estChanmapTick + 1 < g.fps := by
  have hpoll := fun c => identityPoll_ne_tail g complete c
  unfold lockedCadence
  dsimp only
  split_ifs with hann hmap hscene
  · simp [Slot.plain, not_lt.mpr hann]
  · simp [not_lt.mpr hmap]
  · unfold sceneSlot
    cases hk : burstIndexAt g pos with
    | some k => simp [Slot.plain]
    | none =>
      by_cases htail : pos = g.sub02Off
      · simp [Slot.plain, htail, hscene, not_le.mp hann, not_le.mp hmap]
      · by_cases hhead : pos = g.sub01Off
        · have hne : g.sub01Off ≠ g.sub02Off := hhead ▸ htail
          simp [Slot.plain, hhead, hne]
        · simp [htail, hhead, hpoll]
  · simp [hscene, hpoll]

/-- The final chunk is sent in the slot that `EndsPush` names, and in no other. -/
theorem controlCadence_tail (t : MasterTunables) (hi : m.sceneInflight = true)
    (hs : m.state = .probing ∨ m.state = .established) :
    (controlCadence t m).2.emit = .sceneTail ↔ m.EndsPush t := by
  unfold Master.EndsPush controlCadence
  rcases hs with hs | hs
  · rw [if_neg (ne_of_eq_of_ne hs (by decide)), huntCadence_tail]
    simp [hi, hs]
  · rw [if_pos hs, lockedCadence_tail]
    simp [hi, hs, and_assoc]

/-- A slot latches the box whose edge was parked, when it ends the push. -/
theorem NextMove.box {m' : Master} {s : Slot} (h : NextMove t tx m m' s) :
    BoxMove m m.joinSrc (m.joinHeld = true ∧ m.EndsPush t) m' := by
  have hheld : ∀ {m₀ : Master}, Ticked m m₀ → m₀.joinHeld = true ∧ m₀.EndsPush t →
      (m.joinHeld = true ∧ m.EndsPush t) ∧ m₀.joinSrc = m.joinSrc := by
    rintro m₀ h₀ ⟨hj, hends⟩
    rcases h₀.cases with ⟨hidle, -⟩ | ⟨-, seen, tick, rfl⟩
    · obtain ⟨seen, tick, rfl⟩ := h₀
      have hnone := (enterProbing_freshHunt m).held
      rw [← started_of_idle hidle] at hnone
      exact absurd (hnone.symm.trans hj) (by decide)
    · exact ⟨⟨hj, hends⟩, rfl⟩
  have htail : ∀ {m₀ : Master}, Ticked m m₀ → m₀.state = .probing ∨ m₀.state = .established →
      ∀ {c : Cadence}, controlCadence t m₀ = (c, s) →
      m₀.joinHeld = true ∧ m₀.sceneInflight = true ∧ s.emit = .sceneTail →
      (m.joinHeld = true ∧ m.EndsPush t) ∧ m₀.joinSrc = m.joinSrc := by
    rintro m₀ h₀ hs c hc ⟨hj, hi, hemit⟩
    refine hheld h₀ ⟨hj, (controlCadence_tail t hi hs).mp ?_⟩
    rw [hc]
    exact hemit
  cases h with
  | hunt h₀ hs hc blk desc =>
    rename_i m₀ c
    have hmove := sceneAccount_move tx (m := { m₀ with
      cad := c, sceneBlk := blk, fillerDesc := desc }) s.emit (.inl hs)
    have hlatch := htail h₀ (.inl hs) hc
    exact hmove.box.after (h₀.box.trans ⟨rfl, rfl, Iff.rfl⟩) hlatch
  | grant h₀ | wait h₀ => exact .same (h₀.box.trans ⟨rfl, rfl, Iff.rfl⟩)
  | delivered h₀ hs =>
    refine .same (h₀.box.trans ⟨rfl, rfl, ?_⟩)
    exact iff_of_true (.inr rfl) (.inl hs)
  | boxUnknown _ hs => exact .forgotten (enterProbing_forgets (ne_of_eq_of_ne hs (by decide)))
  | locked h₀ hs hc lc blk desc hlc hleft =>
    rename_i m₀ c
    have hmove := sceneAccount_move tx (m := { m₀ with
      cad := c, linkCheck := lc, sceneBlk := blk, fillerDesc := desc }) s.emit (.inr hs)
    have hlatch := htail h₀ (.inr hs) hc
    exact hmove.box.after (h₀.box.trans ⟨rfl, rfl, Iff.rfl⟩) hlatch
  | @lost m₀ h₀ hs c s hc lc =>
    exact .forgotten (enterProbing_forgets (m := { m₀ with
      cad := c, linkCheck := lc, dropReason := .peerGone }) (ne_of_eq_of_ne hs (by decide)))

/-! ## Declarations -/

/-- A declaration that was applied: who sent it, in what frame, and the allocation it gave. -/
structure Declaration where
  src : Mac
  ev : RxEvent
  alloc : GrantAlloc

/-- The declaration a frame makes. -/
def Pacer.declaration (p : Pacer) (bytes : List UInt8) : Option Declaration :=
  match p.takes bytes with
  | none => none
  | some (src, ev) => (p.newAlloc (cleanFrame bytes)).map fun a => ⟨src, ev, a⟩

def declarationOf (e : PacerEvent) : Option Declaration :=
  match e.input with
  | .frame bytes => e.pre.declaration bytes
  | _ => none

theorem declarationOf_frame (env : Env) (p : Pacer) (bytes : List UInt8) :
    declarationOf ((pacerMachine env).event p (.frame bytes)) = p.declaration bytes := rfl

/-- The last declaration applied. -/
def lastDeclaration (log : List PacerEvent) : Option Declaration :=
  (log.filterMap declarationOf).getLast?

theorem lastDeclaration_concat (log : List PacerEvent) (e : PacerEvent) :
    lastDeclaration (log ++ [e]) = (declarationOf e).or (lastDeclaration log) := by
  unfold lastDeclaration
  rw [List.filterMap_append]
  cases h : declarationOf e with
  | none => simp [h]
  | some d => simp [h]

/-- A JOIN lists no ports. -/
theorem newAlloc_join {bytes : List UInt8} {src : Mac} (h : p.takes bytes = some (src, .join)) :
    p.newAlloc (cleanFrame bytes) = none := by
  have hlink : byteAt (cleanFrame bytes) 18 = 4 := by
    unfold Pacer.takes at h
    split at h
    · cases h
    · rename_i parsed ev hclass
      split_ifs at h
      obtain ⟨-, rfl⟩ := Prod.mk.inj (Option.some.inj h)
      exact ctrlParse_grant (classifyBoxFrame_join hclass)
  have hports : portsParse (cleanFrame bytes) = none := by
    unfold portsParse
    dsimp only [Nat.add_zero]
    rw [if_pos (.inl (by rw [hlink]; decide))]
  unfold Pacer.newAlloc
  rw [hports, ite_self]

/-- The geometry pass sets the allocation and leaves the box. -/
theorem rxDeclare_box (p : Pacer) (frame : List UInt8) :
    (rxDeclare p frame).master.alloc = (p.newAlloc frame).getD p.master.alloc ∧
      (rxDeclare p frame).master.boxMac = p.master.boxMac ∧
      ((rxDeclare p frame).master.Bound ↔ p.master.Bound) ∧
      (rxDeclare p frame).master.sceneTransferReady = p.master.sceneTransferReady := by
  rcases rxDeclare_master p frame with ⟨hnew, heq⟩ | ⟨a, rows, hnew, -, ⟨-, heq⟩ | ⟨hs, heq⟩⟩
  · rw [heq, hnew]
    exact ⟨rfl, rfl, Iff.rfl, rfl⟩
  · rw [heq, hnew]
    exact ⟨rfl, rfl, Iff.rfl, rfl⟩
  · obtain ⟨rows', -, -, hgrant⟩ := enterGranting_eq p.headamp (p.master.declared a rows)
      p.master.boxMac none
    have hregrant : masterRegrant p.headamp (p.master.declared a rows)
        = enterGranting p.headamp (p.master.declared a rows) p.master.boxMac none := rfl
    rw [heq, hnew, hregrant, hgrant]
    exact ⟨rfl, rfl, iff_of_true (.inl rfl) hs, rfl⟩

/-! ## Runs -/

/-- What is in force, if anything is, comes from a config-announce of `src`. -/
def DeclaredBy (log : List PacerEvent) (p : Pacer) (src : Mac) : Prop :=
  p.master.hasBox = true → ∀ d ∈ lastDeclaration log, d.src = src ∧ d.ev = .config

/-- The step serves a box only with what the box itself announced. -/
structure OwnerStep (env : Env) (log : List PacerEvent) (e : PacerEvent) : Prop where
  /-- A box that is bound declares itself anew in a config-announce only. -/
  announced : ∀ d ∈ declarationOf e, e.pre.master.Bound → d.ev = .config
  /-- A frame that makes the master serve its box declares it, or finds no other's allocation. -/
  asked : ∀ bytes src ev, e.input = .frame bytes → e.pre.takes bytes = some (src, ev) →
    e.pre.master.Asks src ev → declarationOf e = none → DeclaredBy log e.pre src
  /-- So does the parked edge that is taken in the slot that ends the push. -/
  released : e.input = .slot → e.pre.rateReqPending = false → e.pre.master.joinHeld = true →
    e.pre.master.EndsPush env.tunables → DeclaredBy log e.pre e.pre.master.joinSrc

/-- The invariant of a run. -/
structure OwnerInv (log : List PacerEvent) (p : Pacer) : Prop where
  declared : p.master.hasBox = true → (lastDeclaration log).map (·.alloc) = some p.master.alloc
  owner : p.master.Bound → p.master.boxMac ≠ noMac → DeclaredBy log p p.master.boxMac

theorem BoxMove.answered {m' : Master} {src : Mac} {L : Prop} (h : BoxMove m src L m')
    (complete : Bool) : BoxMove m src L (masterIdentityAnswered m' complete) := by
  cases h with
  | same h => exact .same (h.trans ⟨rfl, rfl, Iff.rfl⟩)
  | forgotten h => exact .forgotten h
  | latched h halloc hmac => exact .latched h halloc hmac

/-- A step that declares nothing. -/
theorem OwnerInv.quiet {log : List PacerEvent} {e : PacerEvent} {L : Prop}
    (inv : OwnerInv log e.pre) (src : Mac) (hnone : declarationOf e = none)
    (hmove : BoxMove e.pre.master src L e.post.master) (hL : L → DeclaredBy log e.pre src) :
    OwnerInv (log ++ [e]) e.post := by
  have hlast : lastDeclaration (log ++ [e]) = lastDeclaration log := by
    rw [lastDeclaration_concat, hnone, Option.none_or]
  have hbox : e.post.master.alloc = e.pre.master.alloc →
      e.post.master.hasBox = e.pre.master.hasBox := by
    intro h
    rw [Master.hasBox, h]
    rfl
  cases hmove with
  | same h =>
    refine ⟨?_, ?_⟩
    · rw [hlast, hbox h.alloc, h.alloc]
      exact inv.declared
    · intro hb hmac
      rw [h.boxMac] at hmac ⊢
      unfold DeclaredBy
      rw [hlast, hbox h.alloc]
      exact inv.owner (h.bound.mp hb) hmac
  | forgotten h =>
    refine ⟨fun hb => ?_, fun _ _ hb => ?_⟩
    · exact absurd (h.symm.trans hb) (by decide)
    · exact absurd (h.symm.trans hb) (by decide)
  | latched h halloc hmac =>
    refine ⟨?_, fun _ _ => ?_⟩
    · rw [hlast, hbox halloc, halloc]
      exact inv.declared
    · rw [hmac]
      unfold DeclaredBy
      rw [hlast, hbox halloc]
      exact hL h

/-- A frame that declares something and is taken. -/
theorem OwnerInv.declares {log : List PacerEvent} {e : PacerEvent} {d : Declaration} {L : Prop}
    (hd : declarationOf e = some d) (hmove : BoxMove m d.src L e.post.master)
    (halloc : m.alloc = d.alloc) (hL : L → d.ev = .config)
    (hsame : m.Bound → m.boxMac ≠ noMac → d.src = m.boxMac ∧ d.ev = .config) :
    OwnerInv (log ++ [e]) e.post := by
  have hlast : lastDeclaration (log ++ [e]) = some d := by
    rw [lastDeclaration_concat, hd, Option.some_or]
  have hby : ∀ src, d.src = src ∧ d.ev = .config → DeclaredBy (log ++ [e]) e.post src := by
    intro src hsrc _ d' hd'
    rw [hlast, Option.mem_some] at hd'
    exact hd' ▸ hsrc
  cases hmove with
  | same h =>
    refine ⟨fun _ => ?_, fun hb hmac => hby _ ?_⟩
    · rw [hlast, h.alloc, halloc]
      rfl
    · rw [h.boxMac] at hmac ⊢
      exact hsame (h.bound.mp hb) hmac
  | forgotten h =>
    refine ⟨fun hb => ?_, fun _ _ hb => ?_⟩
    · exact absurd (h.symm.trans hb) (by decide)
    · exact absurd (h.symm.trans hb) (by decide)
  | latched h halloc' hmac =>
    refine ⟨fun _ => ?_, fun _ _ => hby _ ⟨hmac.symm, hL h⟩⟩
    rw [hlast, halloc', halloc]
    rfl

theorem takes_accepts {bytes : List UInt8} {src : Mac} {ev : RxEvent}
    (h : p.takes bytes = some (src, ev)) : p.master.peerAccepts src ev = true := by
  unfold Pacer.takes at h
  split at h
  · cases h
  · split_ifs at h with hacc
    obtain ⟨rfl, rfl⟩ := Prod.mk.inj (Option.some.inj h)
    exact hacc

/-- The peer binding: of a bound box, only its own frames are taken, and JOINs. -/
theorem bound_src {src : Mac} {ev : RxEvent} (hacc : m.peerAccepts src ev = true) (hb : m.Bound)
    (hmac : m.boxMac ≠ noMac) (hev : ev ≠ .join) : src = m.boxMac := by
  unfold Master.peerAccepts at hacc
  rw [if_neg] at hacc
  · split_ifs at hacc with hsame
    · exact hsame.resolve_left hmac
    · simp [hev] at hacc
  · rintro ⟨hg, he⟩
    exact hb.elim hg he

theorem OwnerInv.frame {log : List PacerEvent} (inv : OwnerInv log p) (env : Env)
    {bytes : List UInt8} (hown : OwnerStep env log ((pacerMachine env).event p (.frame bytes))) :
    OwnerInv (log ++ [(pacerMachine env).event p (.frame bytes)])
      (pacerStep env p (.frame bytes)).1 := by
  have hdecl := declarationOf_frame env p bytes
  obtain ⟨p₀, ident, frag, complete, hp₀, hnew, hcases⟩ := rxIngest_takes env p bytes
  have hsame₀ : SameBox p.master p₀.master := by
    rw [hp₀]
    exact ⟨rfl, rfl, Iff.rfl⟩
  have hready₀ : p₀.master.sceneTransferReady = p.master.sceneTransferReady := by
    rw [hp₀]
    rfl
  rcases hcases with ⟨htakes, heq⟩ | ⟨src, ev, htakes, htaken⟩
  · refine inv.quiet noMac (L := False) ?_ (.same ?_) False.elim
    · rw [hdecl, Pacer.declaration, htakes]
    · show SameBox p.master (rxIngest env p bytes).1.master
      rw [heq]
      exact hsame₀
  · obtain ⟨halloc, hmac, hbound, hready⟩ := rxDeclare_box p₀ (cleanFrame bytes)
    rw [hnew, hsame₀.alloc] at halloc
    rw [hsame₀.boxMac] at hmac
    rw [hsame₀.bound] at hbound
    rw [hready₀] at hready
    have hmove := (masterRx_move (rxDeclare p₀ (cleanFrame bytes)).headamp
      (rxDeclare p₀ (cleanFrame bytes)).master ev src (eventBlock ev (cleanFrame bytes))).box
    obtain ⟨_, _, _, _, _, _, _, complete', heq, -⟩ := htaken
    have hpost : ((pacerMachine env).event p (.frame bytes)).post.master
        = masterIdentityAnswered (masterRx (rxDeclare p₀ (cleanFrame bytes)).headamp
          (rxDeclare p₀ (cleanFrame bytes)).master ev src
          (eventBlock ev (cleanFrame bytes))).1 complete' := by
      show (rxIngest env p bytes).1.master = _
      rw [heq]
    have hmove' := hmove.answered complete'
    rw [← hpost] at hmove'
    generalize (rxDeclare p₀ (cleanFrame bytes)).master = m at *
    have hasks : m.Asks src ev → p.master.Asks src ev := by
      unfold Master.Asks
      rw [hbound, hmac, hready]
      exact id
    cases ha : p.newAlloc (cleanFrame bytes) with
    | none =>
      rw [ha] at halloc
      have hnone : p.declaration bytes = none := by
        rw [Pacer.declaration, htakes, ha]
        rfl
      refine inv.quiet src (hdecl.trans hnone)
        (hmove'.after ⟨halloc, hmac, hbound⟩ (fun h => ⟨h, rfl⟩)) ?_
      intro h
      exact hown.asked bytes src ev rfl htakes (hasks h) (hdecl.trans hnone)
    | some a =>
      rw [ha] at halloc
      have hsome : p.declaration bytes = some ⟨src, ev, a⟩ := by
        rw [Pacer.declaration, htakes, ha]
        rfl
      have hjoin : ev ≠ .join := by
        rintro rfl
        rw [newAlloc_join htakes] at ha
        cases ha
      refine OwnerInv.declares (d := ⟨src, ev, a⟩) (hdecl.trans hsome) hmove' halloc ?_ ?_
      · rintro (⟨-, hev, -⟩ | ⟨-, hev, -⟩)
        · exact absurd hev hjoin
        · exact hev.resolve_left hjoin
      · intro hb hne
        rw [hmac] at hne ⊢
        exact ⟨bound_src (takes_accepts htakes) (hbound.mp hb) hne hjoin,
          hown.announced _ (hdecl.trans hsome) (hbound.mp hb)⟩

theorem BoxMove.noBox {m' : Master} {src : Mac} {L : Prop} (h : BoxMove m src L m')
    (hnone : m.hasBox = false) : m'.hasBox = false := by
  rw [hasBox_eq_false_iff] at hnone ⊢
  cases h with
  | same h => rw [h.alloc, hnone]
  | forgotten h => exact hasBox_eq_false_iff.mp h
  | latched _ halloc => rw [halloc, hnone]

theorem masterSlot_box (env : Env) (p : Pacer) :
    BoxMove p.master p.master.joinSrc
      (p.master.joinHeld = true ∧ p.master.EndsPush env.tunables) (masterSlot env p).1.master := by
  have hmove := (masterNext_move env.tunables p.headamp p.master).box
  obtain ⟨_, _, _, _, _, _, _, _, _, complete, heq, -⟩ := masterSlot_eq env p
  rw [heq]
  exact hmove.answered complete

theorem pacerSlot_box (env : Env) (p : Pacer) :
    BoxMove p.master p.master.joinSrc
      (p.rateReqPending = false ∧ p.master.joinHeld = true ∧ p.master.EndsPush env.tunables)
      (masterSlot env (rateDrain env p).1).1.master := by
  unfold rateDrain
  by_cases hpend : p.rateReqPending = true
  · rw [if_pos hpend]
    -- The new master has no box.
    obtain ⟨cfg, hm⟩ := applyRate_master env { p with rateReqSeen := p.rateReqSeq } p.rateReqHz
    obtain ⟨-, hnone, -⟩ := masterInit_rests env.tunables env.placeholder p.src cfg p.headamp
      (p.rateReqHz.tdiv samplesPerPkt)
    refine .forgotten ((masterSlot_box env _).noBox ?_)
    rw [hm, hasBox_eq_false_iff, hnone]
    rfl
  · rw [if_neg hpend]
    exact (masterSlot_box env p).after (.refl _) fun h => ⟨⟨by simpa using hpend, h⟩, rfl⟩

theorem OwnerInv.slot {log : List PacerEvent} (inv : OwnerInv log p) (env : Env)
    (hown : OwnerStep env log ((pacerMachine env).event p .slot)) :
    OwnerInv (log ++ [(pacerMachine env).event p .slot]) (pacerStep env p .slot).1 := by
  obtain ⟨hpost, -⟩ := slot_event env p
  have hmove := pacerSlot_box env p
  rw [← hpost] at hmove
  rw [(pacerStep_slot_eq env p).1, ← hpost]
  refine inv.quiet p.master.joinSrc rfl hmove ?_
  rintro ⟨hpend, hj, hends⟩
  exact hown.released rfl hpend hj hends

theorem OwnerInv.step {log : List PacerEvent} (inv : OwnerInv log p) (env : Env) (i : PacerInput)
    (hown : OwnerStep env log ((pacerMachine env).event p i)) :
    OwnerInv (log ++ [(pacerMachine env).event p i]) (pacerStep env p i).1 := by
  cases i with
  | frame bytes => exact inv.frame env hown
  | slot => exact inv.slot env hown
  | requestRate r => exact inv.quiet noMac (L := False) rfl (.same (.refl _)) False.elim
  | requestReestablish => exact inv.quiet noMac (L := False) rfl (.same (.refl _)) False.elim
  | headampSet ch param value =>
    refine inv.quiet noMac (L := False) rfl (.same ?_) False.elim
    show SameBox p.master (headampSet p ch param value).master
    unfold headampSet
    split_ifs <;> exact .refl _

theorem ownerInv_open (env : Env) (cfg : PacerCfg) : OwnerInv [] (pacerOpen env cfg) := by
  obtain ⟨-, hnone, -⟩ := masterInit_rests env.tunables env.placeholder cfg.srcMac
    (some cfg.consoleCfg) (headampOpen cfg.fps cfg.headamps) cfg.fps
  have hbox : (pacerOpen env cfg).master.hasBox = false := by
    rw [hasBox_eq_false_iff]
    exact congrArg GrantAlloc.width hnone
  refine ⟨fun hb => ?_, fun _ _ hb => ?_⟩
  · exact absurd (hbox.symm.trans hb) (by decide)
  · exact absurd (hbox.symm.trans hb) (by decide)

/-- As long as every box that is latched finds no allocation in force or its own, the allocation a
bound box is served with is the one of its own last config-announce. -/
theorem grant_belongs_to_box (env : Env) (cfg : PacerCfg) (is : List PacerInput)
    (hown : ∀ log e, (pacerMachine env).StepOf (pacerOpen env cfg) is log e → OwnerStep env log e) :
    let p := (pacerMachine env).run (pacerOpen env cfg) is
    p.master.state = .granting ∨ p.master.state = .established → p.master.boxMac ≠ noMac →
      p.master.hasBox = true →
      lastDeclaration ((pacerMachine env).trace (pacerOpen env cfg) is)
        = some ⟨p.master.boxMac, .config, p.master.alloc⟩ := by
  intro p hb hmac hbox
  have inv := (pacerMachine env).trace_invariant (H := OwnerInv) (L := OwnerStep env)
    (ownerInv_open env cfg) (fun _ _ i inv hs => inv.step env i hs) is hown
  obtain ⟨d, hd, halloc⟩ := Option.map_eq_some_iff.mp (inv.declared hbox)
  obtain ⟨hsrc, hev⟩ := inv.owner hb hmac hbox d hd
  rw [hd, ← halloc, ← hsrc, ← hev]

/-! ## Two boxes -/

theorem BoxSends.takes {bytes : List UInt8} {src : Mac} {ev : RxEvent}
    (h : BoxSends p.src bytes src ev) (hacc : p.master.peerAccepts src ev = true) :
    p.takes bytes = some (src, ev) := by
  obtain ⟨pe, hclass, heq⟩ := Option.map_eq_some_iff.mp h.event
  obtain ⟨rfl, rfl⟩ := Prod.mk.inj heq
  unfold Pacer.takes
  rw [hclass]
  exact if_pos hacc

theorem Hunting.declaration {bytes : List UInt8} {src : Mac} {ports : BoxPorts} {a : GrantAlloc}
    (h : Hunting p) (hd : BoxDeclares p.src bytes src ports a) :
    p.declaration bytes = some ⟨src, .config, a⟩ := by
  have hnew : p.newAlloc (cleanFrame bytes) = some a := by
    obtain ⟨-, hw, hpos⟩ := grantAllocate_eq_some hd.alloc
    unfold Pacer.newAlloc
    rw [if_pos hd.len, hd.ports_eq]
    dsimp only
    rw [if_pos (.inl (by rw [h.declared]; omega)), hd.alloc]
  rw [Pacer.declaration, hd.sends.takes (h.accepts src .config), hnew]
  rfl

/-- Up to the declaration of the first box no step goes against `OwnerStep`. -/
theorem announce_owner {bytes : List UInt8} {src : Mac} {ports : BoxPorts} {a : GrantAlloc} {n : ℕ}
    (hbox : p.master.hasBox = false)
    (h : Hunting ((pacerMachine env).run p (List.replicate n .slot)))
    (hd : BoxDeclares ((pacerMachine env).run p (List.replicate n .slot)).src bytes src ports a)
    {log : List PacerEvent} {e : PacerEvent}
    (he : (pacerMachine env).StepOf p (announceRun bytes n 0) log e) : OwnerStep env log e := by
  rcases Reactive.Machine.StepOf.of_append _ he with hpre | ⟨log', -, hrest⟩
  · have hslot : ∀ log e, (pacerMachine env).StepOf p (List.replicate n .slot) log e →
        e.input = .slot := by
      intro log e he
      exact List.eq_of_mem_replicate (Reactive.Machine.StepOf.input_mem _ he)
    obtain ⟨hnone, -⟩ := (pacerMachine env).trace_invariant_at
      (H := fun _ p => p.master.hasBox = false) (L := fun _ e => e.input = .slot) hbox
      (by
        rintro _ p i hnone rfl
        rw [show ((pacerMachine env).step p .slot).1 = _ from (pacerStep_slot_eq env p).1]
        exact (pacerSlot_box env p).noBox hnone)
      hslot hpre
    have hi := hslot log e hpre
    refine ⟨?_, ?_, ?_⟩
    · intro d hd
      rw [declarationOf, hi] at hd
      cases hd
    · intro bytes src ev hframe
      rw [hi] at hframe
      cases hframe
    · intro _ _ _ _ hb
      exact absurd (hnone.symm.trans hb) (by decide)
  · rcases Reactive.Machine.StepOf.of_cons _ hrest with ⟨-, rfl⟩ | ⟨_, -, hpost⟩
    · refine ⟨?_, ?_, ?_⟩
      · intro d _ hb
        simp [Master.Bound, h.state] at hb
      · intro bytes' src ev _ _ _ hnone
        exact absurd ((h.declaration hd).symm.trans hnone) (by simp)
      · intro hslot
        cases hslot
    · obtain ⟨post, hpost⟩ := hpost
      cases log <;> simp at hpost

/-- The stage box alone is granted what it announced. -/
theorem grant_belongs_to_stageBox : ∃ is : List PacerInput,
    let p := (pacerMachine deskEnv).run (pacerOpen deskEnv deskCfg) is
    p.master.state = .granting ∧ p.master.boxMac = stageBox ∧ p.master.alloc = stageBoxAlloc ∧
      lastDeclaration ((pacerMachine deskEnv).trace (pacerOpen deskEnv deskCfg) is)
        = some ⟨p.master.boxMac, .config, p.master.alloc⟩ := by
  have hrest := rested_open deskEnv deskCfg (by decide)
  obtain ⟨n, -, hhunt, hsrc, -⟩ := hrest.hunts deskEnv
  obtain ⟨bytes, hd⟩ : ∃ bytes, BoxDeclares deskMac bytes stageBox ⟨16, 8, 0⟩ stageBoxAlloc :=
    ⟨_, stageBox_declares⟩
  rw [← show _ = deskMac from hsrc] at hd
  obtain ⟨hwin, halloc, hmac, -⟩ := hhunt.declares hd deskEnv
  have hrun : (pacerMachine deskEnv).run (pacerOpen deskEnv deskCfg) (announceRun bytes n 0)
      = (pacerStep deskEnv ((pacerMachine deskEnv).run (pacerOpen deskEnv deskCfg)
        (List.replicate n .slot)) (.frame bytes)).1 := Reactive.Machine.run_concat _ _ _ _
  refine ⟨announceRun bytes n 0, ?_⟩
  have hbelongs := grant_belongs_to_box deskEnv deskCfg (announceRun bytes n 0)
    (fun _ _ he => announce_owner (by rw [hasBox_eq_false_iff, hrest.alloc]; rfl) hhunt hd he)
  dsimp only at hbelongs ⊢
  rw [hrun] at hbelongs ⊢
  exact ⟨hwin.window.state, hmac, halloc, hbelongs (.inl hwin.window.state)
    (by rw [hmac]; decide) hwin.window.box⟩

/-- Another box's JOIN takes over the window. -/
theorem masterRx_relatches (tx : HeadampTx) (src : Mac) (blk : Block) (hs : m.state = .granting)
    (hne : src ≠ m.boxMac) : Latched m (masterRx tx m .join src (some blk)).1 src := by
  have hmove := masterRx_move tx m .join src (some blk)
  generalize masterRx tx m .join src (some blk) = r at hmove
  obtain ⟨m', changed⟩ := r
  have hidle : m.state ≠ .idle := ne_of_eq_of_ne hs (by decide)
  have haccepts : m.peerAccepts src .join = true := by simp [Master.peerAccepts, hs]
  have hm₁ : ∀ {m₁ : Master}, Heard m m₁ → m₁.state = .granting ∧ m₁.boxMac = m.boxMac := by
    intro m₁ h₁
    obtain ⟨seen, lc, rfl⟩ := h₁.of_ne_idle hidle
    exact ⟨hs, rfl⟩
  cases hmove with
  | refused hacc => exact absurd (haccepts.symm.trans hacc) (by decide)
  | stay _ h₁ _ hj =>
    obtain ⟨hs₁, hmac⟩ := hm₁ h₁
    exact absurd ((hj hs₁ rfl rfl).trans hmac) hne
  | held h₁ hp | latch h₁ hp => exact absurd ((hm₁ h₁).1.symm.trans hp) (by decide)
  | relatch h₁ => exact latched_enterGranting tx h₁ hidle _ src _
  | accept _ _ _ _ hev => exact absurd rfl hev
  | bye _ _ _ hev => cases hev

theorem Windowed.joins {bytes : List UInt8} {src : Mac} (h : Windowed p) (hne : src ≠ p.master.boxMac)
    (hj : BoxSends p.src bytes src .join) (hports : portsParse (cleanFrame bytes) = none) (env : Env) :
    let p' := (pacerStep env p (.frame bytes)).1
    p'.master.state = .granting ∧ p'.master.boxMac = src ∧ p'.master.alloc = p.master.alloc ∧
      p.declaration bytes = none := by
  have hacc : p.master.peerAccepts src .join = true := by
    simp [Master.peerAccepts, h.window.state]
  have htaken := hj.taken env hacc
  have hdecl : rxDeclare p (cleanFrame bytes) = p := by
    unfold rxDeclare
    rw [hports, ite_self]
  rw [hdecl] at htaken
  have hlatch := masterRx_relatches p.headamp src (blockOf (cleanFrame bytes))
    h.window.state hne
  obtain ⟨_, _, _, _, _, _, _, _, heq, -⟩ := htaken
  have hnone : p.declaration bytes = none := by
    rw [Pacer.declaration, hj.takes hacc, newAlloc_join (hj.takes hacc)]
    rfl
  simp only [pacerStep]
  rw [heq]
  exact ⟨hlatch.state, hlatch.boxMac, hlatch.alloc, hnone⟩

/-- A box joins while the stage box has a window: it is granted what the stage box declared. -/
theorem join_inherits_grant : ∃ is : List PacerInput,
    let p := (pacerMachine deskEnv).run (pacerOpen deskEnv deskCfg) is
    p.master.state = .granting ∧ p.master.boxMac = otherBox ∧ p.master.hasBox = true ∧
      lastDeclaration ((pacerMachine deskEnv).trace (pacerOpen deskEnv deskCfg) is)
        = some ⟨stageBox, .config, p.master.alloc⟩ ∧ otherBox ≠ stageBox ∧ otherBox ≠ noMac := by
  obtain ⟨n, -, hhunt, hsrc, -⟩ := (rested_open deskEnv deskCfg (by decide)).hunts deskEnv
  obtain ⟨bytes, hd⟩ : ∃ bytes, BoxDeclares deskMac bytes stageBox ⟨16, 8, 0⟩ stageBoxAlloc :=
    ⟨_, stageBox_declares⟩
  obtain ⟨join, hj, hports⟩ : ∃ join, BoxSends deskMac join otherBox .join ∧
      portsParse (cleanFrame join) = none := ⟨_, box_joins otherBox (.inr rfl)⟩
  rw [← show _ = deskMac from hsrc] at hd hj
  obtain ⟨hwin, halloc, hmac, -, -, -, hkeeps, -⟩ := hhunt.declares hd deskEnv
  have hdecl := hhunt.declaration hd
  obtain ⟨p₁, hp₁⟩ : ∃ p₁, p₁ = (pacerStep deskEnv ((pacerMachine deskEnv).run
    (pacerOpen deskEnv deskCfg) (List.replicate n .slot)) (.frame bytes)).1 := ⟨_, rfl⟩
  rw [← hp₁] at hwin halloc hmac hkeeps
  rw [← hkeeps.src] at hj
  have hrun : (pacerMachine deskEnv).run (pacerOpen deskEnv deskCfg) (announceRun bytes n 0) = p₁ :=
    (Reactive.Machine.run_concat _ _ _ _).trans hp₁.symm
  have htrace : lastDeclaration ((pacerMachine deskEnv).trace (pacerOpen deskEnv deskCfg)
      (announceRun bytes n 0)) = some ⟨stageBox, .config, stageBoxAlloc⟩ := by
    rw [announceRun, List.replicate_zero, Reactive.Machine.trace_concat, lastDeclaration_concat,
      declarationOf_frame, hdecl, Option.some_or]
  obtain ⟨hstate, hbox, halloc', hnone⟩ := hwin.joins (hmac ▸ by decide) hj hports deskEnv
  refine ⟨announceRun bytes n 0 ++ [.frame join], ?_⟩
  dsimp only
  rw [Reactive.Machine.run_concat, Reactive.Machine.trace_concat, hrun, lastDeclaration_concat,
    declarationOf_frame, hnone, Option.none_or, htrace]
  refine ⟨hstate, hbox, ?_, ?_, by decide, by decide⟩
  · rw [hasBox_iff]
    exact (congrArg GrantAlloc.width (halloc'.trans halloc)).symm ▸ (by decide)
  · rw [← show _ = stageBoxAlloc from halloc'.trans halloc]
    rfl

end Libreac
