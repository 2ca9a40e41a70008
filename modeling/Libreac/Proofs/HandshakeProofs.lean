import Libreac.Proofs.SegmentProofs

/-!
# Proofs: the enrolment of a box at its desk

The desk and the box never look at each other, only at the wire. What each may rely on is that a frame of
the box declares the box's own ports (`FromBox`), and that the desk grants only after the box has declared
itself (`FromDesk`). Both are kept by every step of either, so they hold in every run.
-/

namespace Libreac

open Reactive (Lasting Side Traffic Upholds)

/-! ## What the wire shows -/

section Wire

variable {u : BoxUnit} {desk : Mac} {w : Traffic (List UInt8)}

/-- The box has declared its ports. -/
def PortsDeclared (u : BoxUnit) (w : Traffic (List UInt8)) : Prop :=
  ∃ f, (Side.right, f) ∈ w ∧ portsParse f = some u.row.ports

/-- The box has asked the desk in: a JOIN record or its configuration. -/
def JoinAsked (desk : Mac) (w : Traffic (List UInt8)) : Prop :=
  ∃ f parsed ev, (Side.right, f) ∈ w ∧ classifyBoxFrame f desk = some (parsed, ev) ∧
    (ev = .join ∨ ev = .config)

/-- The desk has sent a grant. -/
def GrantSent (w : Traffic (List UInt8)) : Prop := ∃ g, (Side.left, g) ∈ w ∧ (ctrlParse g).kind = .grant

theorem PortsDeclared.concat (h : PortsDeclared u w) (x : Side × List UInt8) : PortsDeclared u (w ++ [x]) := by
  obtain ⟨f, hf, hports⟩ := h
  exact ⟨f, List.mem_append_left _ hf, hports⟩

theorem JoinAsked.concat (h : JoinAsked desk w) (x : Side × List UInt8) : JoinAsked desk (w ++ [x]) := by
  obtain ⟨f, parsed, ev, hf, hev⟩ := h
  exact ⟨f, parsed, ev, List.mem_append_left _ hf, hev⟩

theorem GrantSent.concat (h : GrantSent w) (x : Side × List UInt8) : GrantSent (w ++ [x]) := by
  obtain ⟨g, hg, hkind⟩ := h
  exact ⟨g, List.mem_append_left _ hg, hkind⟩

/-- What the box guarantees of a frame: it is the box's, and declares the box's own ports or none. -/
structure FromBox (u : BoxUnit) (f : List UInt8) : Prop where
  clean : cleanFrame f = f
  source : macAt f 6 = u.src
  ports : ∀ p, portsParse f = some p → p = u.row.ports

/-- What the desk guarantees of a frame it sends after `w`: it is the desk's, and it grants only a box that
has declared itself. -/
structure FromDesk (desk : Mac) (u : BoxUnit) (w : Traffic (List UInt8)) (g : List UInt8) : Prop where
  source : (ctrlParse g).src = desk
  grant : (ctrlParse g).kind = .grant → PortsDeclared u w

/-- The guarantee of the sender of a frame. -/
def SegmentSends (desk : Mac) (u : BoxUnit) : Side → Traffic (List UInt8) → List UInt8 → Prop
  | .left, w, g => FromDesk desk u w g
  | .right, _, f => FromBox u f

end Wire

/-! ## The frames of the desk -/

section DeskFrames

variable {t : MasterTunables} {tx : HeadampTx} {m m' : Master} {s : Slot} {src : Mac} {q : Option QueuedFrame}

/-- A slot starts from a frame of the desk. -/
theorem slotFrame_header (src : Mac) (q : Option QueuedFrame) :
    50 ≤ (slotFrame src q).length ∧ (byteAt (slotFrame src q) 12 = 0x88 ∧ byteAt (slotFrame src q) 13 = 0x19) ∧
      macAt (slotFrame src q) 6 = src := by
  have hdst : broadcastMac.toList.length = 6 := broadcastMac.length_toList
  have hsrc : src.toList.length = 6 := src.length_toList
  have hmac : ∀ rest, macAt (broadcastMac.toList ++ src.toList ++ rest) 6 = src := by
    intro rest
    unfold macAt
    ext i hi
    rw [Vector.getElem_ofFn, byteAt_append_left (by simp; omega), byteAt_append_right (by omega), hdst]
    simp [byteAt, hi]
  have htype : ∀ rest, byteAt (broadcastMac.toList ++ src.toList ++ [0x88, 0x19] ++ rest) 12 = 0x88 ∧
      byteAt (broadcastMac.toList ++ src.toList ++ [0x88, 0x19] ++ rest) 13 = 0x19 := by
    intro rest
    have hfront : (broadcastMac.toList ++ src.toList).length = 12 := by
      rw [List.length_append, hdst, hsrc]
    constructor
    · rw [List.append_assoc, byteAt_append_right (by omega), hfront]
      rfl
    · rw [List.append_assoc, byteAt_append_right (by omega), hfront]
      rfl
  cases q with
  | none =>
    unfold slotFrame silentFiller
    refine ⟨?_, ?_, ?_⟩
    · simp only [List.length_append, List.length_replicate]
      omega
    · rw [List.append_assoc]
      exact htype _
    · rw [List.append_assoc, List.append_assoc]
      exact hmac _
  | some q =>
    refine ⟨?_, ?_, ?_⟩
    · rw [slotFrame, length_downstreamBuild]
      decide
    · exact of_decide_eq_true (isReac_downstreamBuild ..)
    · simp only [slotFrame, downstreamBuild, downstreamHead, List.append_assoc]
      rw [← List.append_assoc]
      exact hmac _

/-- The frame of a slot carries the block that was stamped, under the source of the desk. -/
theorem deskFrame_carries {st : Sent} {b : Template} (hb : st.ctrl = some b) :
    CarriesBlock (deskFrame src q st) b ∧ macAt (deskFrame src q st) 6 = src := by
  obtain ⟨hlong, htype, hmac⟩ := slotFrame_header src q
  unfold deskFrame
  rw [hb]
  dsimp only
  generalize slotFrame src q = frame at hlong htype hmac
  set counted := overwrite frame 14 [st.counter.toUInt8, (st.counter >>> 8).toUInt8] with hcounted
  have hlen : counted.length = frame.length := length_overwrite (by simp; omega)
  have hhead : ∀ i < 14, byteAt counted i = byteAt frame i :=
    fun i hi => byteAt_overwrite_of_lt hi (by omega)
  have hcarries := @carriesBlock_overwrite counted (by omega)
    ⟨(hhead 12 (by omega)).trans htype.1, (hhead 13 (by omega)).trans htype.2⟩ b
  refine ⟨hcarries, ?_⟩
  rw [← hmac]
  unfold macAt
  ext i hi
  rw [Vector.getElem_ofFn, Vector.getElem_ofFn, byteAt_overwrite_of_lt (by omega) (by omega), hhead _ (by omega)]

theorem kind_fillerBlock (desc : UInt8) : (fillerBlock desc).kind = .filler := by
  have hbyte : ∀ i < 2, (fillerBlock desc).byte i = 0x00 := by
    intro i hi
    unfold fillerBlock
    rw [byte_ofFn _ (by omega), if_pos (.inl hi)]
  exact kind_filler_iff.mpr ⟨hbyte 0 (by omega), hbyte 1 (by omega)⟩

theorem kind_stampHeadamp {ch param : ℕ} {value : UInt8} {b : Template} (h : stampHeadamp ch param value = some b) :
    b.kind = .headamp := by
  unfold stampHeadamp at h
  split_ifs at h
  obtain rfl := Option.some.inj h
  have hbyte : ∀ i < 20, (recordCksumStamp (tmplHeadamp ch.toUInt8 param.toUInt8 value)).byte i =
      (tmplHeadamp 0 0 0).byte i := by
    intro i hi
    unfold recordCksumStamp
    rw [byte_of_lt _ (by omega), Vector.getElem_set_ne _ _ (by omega), byte_of_lt _ (by omega)]
    unfold tmplHeadamp
    interval_cases i <;> rfl
  rw [kind_stampBlockCksum, kind_congr hbyte]
  rfl

/-- The overlay leaves the block or makes it a head-amp record. -/
theorem headampOverlay_ctrl (p : Pacer) (emit : MasterEmit) (ctrl : Option Template) :
    (headampOverlay p emit ctrl).2 = ctrl ∨
      emit = .filler ∧ ∃ b, (headampOverlay p emit ctrl).2 = some b ∧ b.kind = .headamp := by
  unfold headampOverlay
  split_ifs with h
  · split
    · rename_i ch param value heq
      cases hstamp : stampHeadamp ch param value with
      | none => exact .inl rfl
      | some b => exact .inr ⟨h.1, b, rfl, kind_stampHeadamp hstamp⟩
    · exact .inl rfl
  · exact .inl rfl

/-- A block that reads as a grant is a row of the sweep or an identity request. -/
theorem Template.standsFor.grants {b : Template} {emit : MasterEmit} (h : b.standsFor emit) (hne : emit ≠ .filler)
    (hkind : b.kind = .grant) : emit = .grant ∨ emit = .identityPoll := by
  unfold Template.standsFor at h
  cases emit with
  | grant => exact .inl rfl
  | identityPoll => exact .inr rfl
  | filler => exact absurd rfl hne
  | sceneHead | sceneChunk | sceneTail | enroll | chanmap | announce =>
    rw [hkind] at h
    cases h

/-- Every slot is stamped: a filler with the descriptor or a head-amp record, any other with its own block. -/
theorem masterSlot_ctrl (env : Env) {p : Pacer} (h : StampInv p.master) :
    let r := masterNext env.tunables p.headamp p.master
    ∃ b, (masterSlot env p).2.2.ctrl = some b ∧
      (r.2.emit ≠ .filler → masterStamp r.1 r.2 = some b ∧ b.standsFor r.2.emit) ∧
      (r.2.emit = .filler → b.kind = .filler ∨ b.kind = .headamp) := by
  have hnext := h.step env.tunables (p.headamp, .next)
  obtain ⟨c, hrange⟩ := (masterNext_move env.tunables p.headamp p.master).slot_range h.clocks h.stride
  obtain ⟨b, hb, hok⟩ := masterStamp_standsFor hnext.advert hnext.sweep hrange
    (@masterNext_sceneBlk env.tunables p.headamp _ h.clocks)
  have hctrl : (masterSlot env p).2.2.ctrl =
      (headampOverlay (headampDrain { p with master := (masterNext env.tunables p.headamp p.master).1 })
        (masterNext env.tunables p.headamp p.master).2.emit
        (masterStamp (masterNext env.tunables p.headamp p.master).1
          (masterNext env.tunables p.headamp p.master).2)).2 := by
    unfold masterSlot
    dsimp only
    split_ifs <;> rfl
  dsimp only
  rw [hctrl]
  rcases headampOverlay_ctrl _ _ _ with heq | ⟨hfiller, b', heq, hkind⟩
  · refine ⟨b, heq.trans hb, fun hne => ⟨hb, (hok hne).2⟩, ?_⟩
    intro hfiller
    -- The stamp of a filler slot is the descriptor.
    have hdesc := hb
    unfold masterStamp at hdesc
    rw [hfiller] at hdesc
    obtain rfl := Option.some.inj hdesc
    exact .inl (kind_fillerBlock _)
  · exact ⟨b', heq, fun hne => absurd hfiller hne, fun _ => .inr hkind⟩

/-- A block that reads as a grant is on a slot that grants or polls. -/
theorem masterSlot_stamps (env : Env) {p : Pacer} (h : StampInv p.master) :
    ∃ b, (masterSlot env p).2.2.ctrl = some b ∧ (b.kind = .grant →
      (masterNext env.tunables p.headamp p.master).2.emit = .grant ∨
        (masterNext env.tunables p.headamp p.master).2.emit = .identityPoll) := by
  obtain ⟨b, hb, hstands, hfiller⟩ := masterSlot_ctrl env h
  refine ⟨b, hb, ?_⟩
  intro hgrant
  by_cases hf : (masterNext env.tunables p.headamp p.master).2.emit = .filler
  · rcases hfiller hf with hkind | hkind
    · rw [hkind] at hgrant
      cases hgrant
    · rw [hkind] at hgrant
      cases hgrant
  · exact (hstands hf).2.grants hf hgrant

end DeskFrames

/-! ## The desk keeps its part -/

section Desk

variable {t : MasterTunables} {tx : HeadampTx} {m m' : Master} {s : Slot}

theorem StampInv.answered (h : StampInv m) (complete : Bool) : StampInv (masterIdentityAnswered m complete) :=
  ⟨h.clocks.congr rfl rfl, h.stride, h.sweep, h.advert⟩

theorem StampInv.path (h : StampInv m) (hpath : MasterPath t tx m m') : StampInv m' :=
  hpath.invariant (fun _ i hm => hm.step t i) (fun _ complete hm => hm.answered complete) h

theorem dwellSlot_emit (g : Geometry) (c : Cadence) :
    (dwellSlot g c).2.emit ≠ .grant ∧ (dwellSlot g c).2.emit ≠ .identityPoll := by
  unfold dwellSlot
  split
  · exact ⟨nofun, nofun⟩
  · split_ifs
    · exact ⟨nofun, nofun⟩
    · exact ⟨nofun, nofun⟩

/-- A box that has not declared itself is neither granted nor asked. -/
theorem undeclaredSlot_emit (m : Master) :
    (undeclaredSlot m).2.emit ≠ .grant ∧ (undeclaredSlot m).2.emit ≠ .identityPoll := by
  unfold undeclaredSlot
  split_ifs
  · exact ⟨nofun, nofun⟩
  · exact dwellSlot_emit _ _

theorem huntCadence_emit (g : Geometry) (pos : ℤ) (c : Cadence) : (huntCadence g pos c).2.emit ≠ .identityPoll := by
  unfold huntCadence
  split
  · exact nofun
  · split_ifs <;> exact nofun

/-- The desk grants and polls only where it knows the slots of its box. -/
theorem Acquainted.tells {D : GrantAlloc → Prop} {A : Prop} {box : Mac} (h : Acquainted D A box m)
    (hm : NextMove t tx m m' s) (hs : s.emit = .grant ∨ s.emit = .identityPoll) : ∃ a, D a := by
  have hbox : ∀ {m₀ : Master}, Ticked m m₀ → m₀.hasBox = true → ∃ a, D a :=
    fun h₀ hb => ⟨_, (h.ticked h₀).declared hb⟩
  cases hm with
  | grant h₀ _ hb | delivered h₀ _ hb => exact hbox h₀ hb
  | locked h₀ hest | lost h₀ hest => exact hbox h₀ ((h.ticked h₀).locked hest)
  | @hunt m₀ h₀ hprobing c _ hc =>
    exfalso
    have hcontrol := (controlCadence_emit t m₀).1
    unfold controlCadence at hc hcontrol
    have hne : ¬ m₀.state = .established := by
      rw [hprobing]
      decide
    dsimp only at hc hcontrol
    rw [if_neg hne] at hc hcontrol
    have hhunt := huntCadence_emit m₀.geo m₀.cad.cyclePos
      { m₀.cad with
        cyclePos := (m₀.cad.cyclePos + 1).tmod m₀.geo.cycleLen, announceTick := m₀.cad.announceTick + 1 }
    rw [hc] at hcontrol hhunt
    rcases hs with hs | hs
    · exact hcontrol hs
    · exact hhunt hs
  | @wait m₀ _ _ _ _ _ hw | @boxUnknown m₀ _ _ _ _ _ hw =>
    exfalso
    have hwait := undeclaredSlot_emit m₀
    rw [hw] at hwait
    rcases hs with hs | hs
    · exact hwait.1 hs
    · exact hwait.2 hs

/-- What the desk knows of the traffic: the slots it grants were declared, and the box it grants has asked
for it. -/
structure DeskKnows (desk : Mac) (u : BoxUnit) (w : Traffic (List UInt8)) (p : Pacer) : Prop where
  src : p.src = desk
  stamps : StampInv p.master
  box : Acquainted
    (fun a => a.base = u.row.ports.headampBase ∧ a.width = u.row.ports.inCh ∧ PortsDeclared u w)
    (JoinAsked desk w) u.src p.master

variable {env : Env} {desk : Mac} {u : BoxUnit} {w : Traffic (List UInt8)} {p : Pacer} {bytes : List UInt8}

namespace DeskKnows

theorem lasting (desk : Mac) (u : BoxUnit) : Lasting (DeskKnows desk u) := by
  intro w x p h
  exact ⟨h.src, h.stamps, h.box.mono (fun a ha => ⟨ha.1, ha.2.1, ha.2.2.concat x⟩) (·.concat x)⟩

/-- Only the source and the master count, and what the master knows of the identity page does not. -/
theorem answered {p' : Pacer} {m : Master} (h : DeskKnows desk u w { p with master := m }) (hsrc : p'.src = p.src)
    {complete : Bool} (hm : p'.master = masterIdentityAnswered m complete) : DeskKnows desk u w p' := by
  refine ⟨hsrc.trans h.src, ?_, ?_⟩
  · rw [hm]
    exact h.stamps.answered complete
  · rw [hm]
    exact h.box.congr rfl rfl rfl rfl rfl

/-- A step of the master that keeps both invariants. -/
theorem master (h : DeskKnows desk u w p) {m : Master} (hpath : MasterPath t p.headamp p.master m)
    (hbox : Acquainted
      (fun a => a.base = u.row.ports.headampBase ∧ a.width = u.row.ports.inCh ∧ PortsDeclared u w)
      (JoinAsked desk w) u.src m) : DeskKnows desk u w { p with master := m } := by
  exact ⟨h.src, h.stamps.path hpath, hbox⟩

/-- A declaration is the box's own. -/
theorem declared (h : DeskKnows desk u w p) (hmem : (Side.right, bytes) ∈ w) (hbytes : FromBox u bytes) :
    DeskKnows desk u w { p with master := (rxDeclare p bytes).master } := by
  refine h.master (rxDeclare_path {} p bytes).1 ?_
  rcases rxDeclare_master p bytes with ⟨-, heq⟩ | ⟨a, rows, hnew, -, hmaster⟩
  · rw [heq]
    exact h.box
  · obtain ⟨ports, hports, hfits⟩ : ∃ ports, portsParse bytes = some ports ∧
        grantAllocate ports.headampBase ports.inCh = some a := by
      unfold Pacer.newAlloc at hnew
      split at hnew
      · cases hnew
      · rename_i ports hports
        split_ifs at hnew hports
        exact ⟨ports, hports, hnew⟩
    have hown := hbytes.ports ports hports
    subst hown
    obtain ⟨hbase, hwidth, hpos⟩ := grantAllocate_eq_some hfits
    have hdeclared := @Acquainted.declare _ _ _ _ h.box a rows
      ⟨by exact_mod_cast hbase, by exact_mod_cast hwidth, bytes, hmem, hports⟩ hpos
    rcases hmaster with ⟨-, heq⟩ | ⟨hbound, heq⟩
    · rw [heq]
      exact hdeclared
    · -- A window that is open is opened again, for the same box.
      obtain ⟨hmac, hasked⟩ := h.box.bound hbound
      have hregrant : masterRegrant p.headamp (p.master.declared a rows) =
          enterGranting p.headamp (p.master.declared a rows) u.src none := by
        rw [← hmac]
        rfl
      rw [heq, hregrant]
      exact hdeclared.enterGranting hasked _ _

/-- A frame of the box. -/
theorem ingest (h : DeskKnows desk u w p) (env : Env) (hmem : (Side.right, bytes) ∈ w) (hbytes : FromBox u bytes) :
    DeskKnows desk u w (rxIngest env p bytes).1 := by
  obtain ⟨p₀, ident, frag, complete, hp₀, -, hcase⟩ := rxIngest_takes env p bytes
  rw [hbytes.clean] at hcase
  have h₀ : DeskKnows desk u w p₀ := h.answered (m := p.master) (by rw [hp₀]) (by rw [hp₀])
  rcases hcase with ⟨-, heq⟩ | ⟨src, ev, htakes, htaken⟩
  · rw [heq]
    exact h₀
  have h₁ := h₀.declared hmem hbytes
  have hkeeps := rxDeclare_keeps p₀ bytes
  have h₂ : DeskKnows desk u w (rxDeclare p₀ bytes) := ⟨hkeeps.src.trans h₀.src, h₁.stamps, h₁.box⟩
  generalize rxDeclare p₀ bytes = p₁ at h₂ htaken
  -- Whom the frame is from and what it asks for.
  obtain ⟨rfl, hasked⟩ : src = u.src ∧ (ev = .join ∨ ev = .config → JoinAsked desk w) := by
    unfold Pacer.takes at htakes
    rw [hbytes.clean] at htakes
    cases hclass : classifyBoxFrame bytes p.src with
    | none =>
      rw [hclass] at htakes
      cases htakes
    | some pe =>
      obtain ⟨parsed, ev'⟩ := pe
      rw [hclass] at htakes
      dsimp only at htakes
      split_ifs at htakes
      obtain ⟨rfl, rfl⟩ := Prod.mk.inj (Option.some.inj htakes)
      rw [h.src] at hclass
      exact ⟨(classifyBoxFrame_src hclass).trans hbytes.source, fun hev => ⟨bytes, parsed, ev', hmem, hclass, hev⟩⟩
  obtain ⟨_, _, _, _, _, _, _, complete', heq, -⟩ := htaken
  rw [heq]
  have h₃ := h₂.master ((MasterPath.refl _).step (t := {}) (.rx ev u.src (eventBlock ev bytes)))
    (h₂.box.rxMove hasked (masterRx_move p₁.headamp p₁.master ev u.src (eventBlock ev bytes)))
  exact h₃.answered rfl rfl

theorem opened (u : BoxUnit) (w : Traffic (List UInt8)) (t : MasterTunables) (placeholder : SceneBody)
    (tx : HeadampTx) (cfg : Option ConsoleCfg) (fps : ℤ) (hsrc : p.src = desk) :
    DeskKnows desk u w
      { p with master := masterSetHeadampSrc tx (masterInit t placeholder p.src cfg fps) true } := by
  have hstamps := (stampInv_init t placeholder p.src cfg fps).step t (tx, .setHeadampSrc true)
  obtain ⟨rows, -, -, heq⟩ := masterSetHeadampSrc_eq tx (masterInit t placeholder p.src cfg fps) true
  refine ⟨hsrc, hstamps, ?_⟩
  rw [heq]
  exact (Acquainted.init t placeholder p.src cfg fps).congr rfl rfl rfl rfl rfl

/-- A rate change starts a master that knows nobody. -/
theorem rateDrain (h : DeskKnows desk u w p) (env : Env) : DeskKnows desk u w (rateDrain env p).1 := by
  unfold Libreac.rateDrain
  split_ifs
  · have hfresh := opened u w env.tunables env.placeholder p.headamp
      (if { p.master.cfg with consoleField := paceCode (p.rateReqHz.tdiv samplesPerPkt) }.outChannels ≠ 0 then
        some { p.master.cfg with consoleField := paceCode (p.rateReqHz.tdiv samplesPerPkt) } else none)
      (p.rateReqHz.tdiv samplesPerPkt) h.src
    exact ⟨h.src, hfresh.stamps, hfresh.box⟩
  · exact h

/-- A slot of the master. -/
theorem slot (h : DeskKnows desk u w p) (env : Env) : DeskKnows desk u w (masterSlot env p).1 := by
  obtain ⟨_, _, _, _, _, _, _, _, _, complete, heq, -⟩ := masterSlot_eq env p
  rw [heq]
  have hnext := h.master ((MasterPath.refl _).step (t := env.tunables) .next)
    (h.box.nextMove (masterNext_move env.tunables p.headamp p.master))
  exact hnext.answered rfl rfl

theorem step (h : DeskKnows desk u w p) (env : Env) {i : PacerInput}
    (hheard : ∀ f ∈ i.frame?, (Side.right, f) ∈ w ∧ FromBox u f) : DeskKnows desk u w (pacerStep env p i).1 := by
  cases i with
  | frame bytes =>
    obtain ⟨hmem, hbytes⟩ := hheard bytes rfl
    exact h.ingest env hmem hbytes
  | slot =>
    rw [(pacerStep_slot_eq env p).1]
    exact (h.rateDrain env).slot env
  | requestRate | requestReestablish => exact ⟨h.src, h.stamps, h.box⟩
  | headampSet ch param value =>
    simp only [pacerStep, headampSet]
    split_ifs
    · exact h
    · exact ⟨h.src, h.stamps, h.box⟩

/-- A frame of the desk keeps its guarantee. -/
theorem sends (h : DeskKnows desk u w p) (env : Env) {i : PacerInput} (q : Option QueuedFrame) {sent : Sent}
    (hsent : sent ∈ (pacerStep env p i).2.sent) : FromDesk desk u w (deskFrame p.src q sent) := by
  cases i with
  | slot =>
    rw [(pacerStep_slot_eq env p).2] at hsent
    obtain rfl := Option.some.inj hsent
    have hdrained := h.rateDrain env
    obtain ⟨b, hb, hgrants⟩ := masterSlot_stamps env hdrained.stamps
    obtain ⟨hcarries, hmac⟩ := @deskFrame_carries p.src q _ _ hb
    refine ⟨?_, ?_⟩
    · rw [hcarries.header.1, hmac, h.src]
    · intro hkind
      rw [hcarries.kind] at hkind
      obtain ⟨a, -, -, hdeclared⟩ := hdrained.box.tells (masterNext_move ..) (hgrants hkind)
      exact hdeclared
  | frame | requestRate | requestReestablish | headampSet => cases hsent

end DeskKnows

/-- The desk keeps its part. -/
theorem desk_upholds (env : Env) (desk : Mac) (u : BoxUnit) :
    Upholds (deskStation env) (fun _ => True) .left .right (SegmentSends desk u) (DeskKnows desk u) where
  lasting := DeskKnows.lasting desk u
  step w p i hw h _ hheard := by
    refine h.step env ?_
    intro f hf
    obtain ⟨pre, post, -, hfrom⟩ := hw.of_mem (hheard f hf)
    exact ⟨hheard f hf, hfrom⟩
  sends w p i _ h _ _ f hf := by
    obtain ⟨sent, hsent, rfl⟩ := Option.map_eq_some_iff.mp hf
    exact h.sends env i.2 hsent

end Desk

/-! ## The box keeps its part -/

section Box

variable {fsm : ReacFsm} {desk : Mac} {G : Prop} {ev : FsmEvent}

/-- The only master the box knows is the desk, and it counts on a grant only if one was sent. -/
structure Convinced (desk : Mac) (G : Prop) (fsm : ReacFsm) : Prop where
  known : fsm.haveMaster = true → fsm.masterMac = desk
  granted : fsm.Held ∨ 0 < fsm.grantAck → G

namespace Convinced

theorem mono {G' : Prop} (h : Convinced desk G fsm) (hG : G → G') : Convinced desk G' fsm :=
  ⟨h.known, fun hs => hG (h.granted hs)⟩

/-- Off the sessions only what is left of the window counts. -/
theorem unheld {fsm' : ReacFsm} (h : Convinced desk G fsm)
    (hknown : fsm'.haveMaster = true → fsm'.masterMac = desk) (hs : ¬ fsm'.Held)
    (hack : 0 < fsm'.grantAck → 0 < fsm.grantAck) : Convinced desk G fsm' :=
  ⟨hknown, fun hor => h.granted (.inr (hack (hor.resolve_left hs)))⟩

theorem learns (h : Convinced desk G fsm) (hsrc : ∀ p, ev = .rx p → p.src = desk) {base : ReacFsm}
    (hb : Learns fsm ev base) :
    (base.haveMaster = true → base.masterMac = desk) ∧ base.state = fsm.state ∧ base.grantAck = fsm.grantAck := by
  cases hb with
  | nothing => exact ⟨h.known, rfl, rfl⟩
  | master => exact ⟨fun _ => hsrc _ rfl, rfl, rfl⟩

theorem courts (h : Convinced desk G fsm) (hsrc : ∀ p, ev = .rx p → p.src = desk)
    (hgrant : ev.isGrant = true → G) :
    ((coldconnectHears fsm ev).haveMaster = true → (coldconnectHears fsm ev).masterMac = desk) ∧
      (0 < (coldconnectHears fsm ev).grantAck → G) := by
  constructor
  · cases ev with
    | rx p =>
      have hlearnt := (h.learns hsrc (learns_rx fsm p)).1
      unfold coldconnectHears
      dsimp only
      split_ifs
      · exact hlearnt
      · exact hlearnt
    | phyUp | phyDown | tick => exact h.known
  · obtain ⟨_, _, heq, -⟩ := coldconnectHears_eq fsm ev
    rw [heq]
    dsimp only
    intro hack
    split_ifs at hack with hopens
    · exact hgrant hopens.1
    · exact h.granted (.inr hack)

theorem step (h : Convinced desk G fsm) (hsrc : ∀ p, ev = .rx p → p.src = desk)
    (hgrant : ev.isGrant = true → G) : Convinced desk G (reacFsmStep fsm ev).1 := by
  have hmove := reacFsmStep_move fsm ev
  generalize reacFsmStep fsm ev = r at hmove
  have hcourts := h.courts hsrc hgrant
  cases hmove with
  | linkDown => exact h.unheld (by rintro ⟨⟩) (by simp [ReacFsm.Held, ReacFsm.out]) id
  | linkUp | rested =>
    exact h.unheld h.known (by simp [ReacFsm.Held, ReacFsm.out, floodTick, armFlood]) (by rintro ⟨⟩)
  | dark hs => exact h.unheld h.known (by simp [ReacFsm.Held, ReacFsm.out, hs]) id
  | earlyGrant =>
    exact h.unheld (fun _ => hsrc _ rfl) (by simp [ReacFsm.Held, ReacFsm.out, coldconnectTick, armColdconnect]) id
  | @flood _ base hs _ hb =>
    obtain ⟨hknown, hstate, hack⟩ := h.learns hsrc hb
    refine h.unheld hknown (by simp [ReacFsm.Held, ReacFsm.out, floodTick, hstate, hs]) ?_
    intro hpos
    exact hack ▸ hpos
  | @floodDone _ base hs _ hb =>
    obtain ⟨hknown, -, hack⟩ := h.learns hsrc hb
    refine h.unheld hknown (by simp [ReacFsm.Held, armColdconnect]) ?_
    intro hpos
    exact hack ▸ hpos
  | lost _ hb =>
    subst hb
    exact h.unheld hcourts.1 (by simp [ReacFsm.Held, ReacFsm.out, floodTick, armFlood]) (by rintro ⟨⟩)
  | acked _ hb _ hack =>
    -- The window that runs out now was opened by a grant.
    subst hb
    exact ⟨hcourts.1, fun _ => hcourts.2 (by omega)⟩
  | gaveUp _ hb _ hack =>
    subst hb
    refine ⟨hcourts.1, ?_⟩
    rintro (hheld | hpos)
    · simp [ReacFsm.Held, ReacFsm.out] at hheld
    · exact hcourts.2 hpos
  | @court _ base hs hb =>
    refine ⟨hb ▸ hcourts.1, ?_⟩
    rintro (hheld | hpos)
    · obtain ⟨_, _, heq, -⟩ := coldconnectHears_eq fsm ev
      rw [hb, heq] at hheld
      simp [ReacFsm.Held, ReacFsm.out, coldconnectTick, hs] at hheld
    · refine hcourts.2 ?_
      rw [← hb]
      simp only [coldconnectTick, ReacFsm.out] at hpos
      split_ifs at hpos <;> omega
  | rest hs => exact h.unheld h.known (by simp [ReacFsm.Held, ReacFsm.out, hs]) id
  | muteHold hs | mute hs | muted hs => exact ⟨h.known, fun _ => h.granted (.inl (.inl hs))⟩
  | macChange hs | peerGone hs => exact ⟨h.known, fun _ => h.granted (.inl (.inr hs))⟩
  | alive hs | audio hs | audioTick hs =>
    refine ⟨?_, fun _ => h.granted (.inl (.inr hs))⟩
    rw [audioOne_fst]
    exact h.known
  | announce hs =>
    exact h.unheld (by rintro ⟨⟩) (by simp [ReacFsm.Held, ReacFsm.out, floodTick, armFlood]) (by rintro ⟨⟩)

/-- What the next frames carry does not matter. -/
theorem same {s s' : Slave} (h : Convinced desk G s.fsm) (hsame : SameLink s s') : Convinced desk G s'.fsm := by
  obtain ⟨n, hfsm⟩ := hsame.fsm
  rw [hfsm]
  exact ⟨h.known, h.granted⟩

theorem counterLock {s : Slave} (h : Convinced desk G s.fsm) (p : CtrlParsed) :
    Convinced desk G (counterLock s p).fsm := by
  unfold Libreac.counterLock
  by_cases hm : s.fsm.haveMaster = true ∧ p.src = s.fsm.masterMac
  · rw [if_pos hm]
    exact ⟨h.known, h.granted⟩
  · rw [if_neg hm]
    exact h

/-- A pass of the loop that hears frames of the desk only. -/
theorem loop {s : Slave} (h : Convinced desk G s.fsm) (cfg : SlaveCfg) {i : SlaveInput}
    (hheard : ∀ f ∈ i.ev.frame?, (ctrlParse f).src = desk ∧ ((ctrlParse f).kind = .grant → G)) :
    Convinced desk G (slaveLoop cfg s i).1.fsm := by
  have hemit : ∀ {s' : Slave} (d : SlaveDecision), Convinced desk G s'.fsm →
      Convinced desk G (slaveEmit cfg s' d i).1.fsm :=
    fun d h' => h'.same (slaveEmit_wire cfg _ d i).1
  have hstep : ∀ {ev : FsmEvent}, (∀ p, ev ≠ .rx p) → Convinced desk G (reacFsmStep s.fsm ev).1 := by
    intro ev hev
    refine h.step (fun p hp => absurd hp (hev p)) ?_
    intro hgrant
    cases ev with
    | rx p => exact absurd rfl (hev p)
    | phyUp | phyDown | tick => cases hgrant
  cases hi : i.ev with
  | phy want =>
    simp only [slaveLoop, hi, slaveStep]
    split_ifs
    · exact h
    · exact hemit _ (hstep (by rintro p ⟨⟩))
    · exact hstep (by rintro p ⟨⟩)
  | idle =>
    simp only [slaveLoop, hi, slaveStep]
    exact hemit _ (hstep (by rintro p ⟨⟩))
  | frame bytes =>
    simp only [slaveLoop, hi]
    by_cases hreac : frameIsReac bytes = true
    · by_cases hown : (ctrlParse bytes).src = cfg.src
      · simp only [slaveRx, hreac, hown, Bool.not_true, Bool.false_eq_true, if_false, if_true]
        split_ifs
        · exact h.same (slaveHeadampRx_same cfg s _)
        · exact h
      · obtain ⟨hsrc, hgrant⟩ := hheard bytes (by rw [hi]; rfl)
        obtain ⟨s₁, hsame, heq⟩ := @slaveRx_eq cfg s bytes i hreac hown
        rw [heq]
        refine hemit _ (Convinced.counterLock ?_ _)
        change Convinced desk G (reacFsmStep s₁.fsm (.rx (ctrlParse bytes))).1
        refine (h.same hsame).step ?_ ?_
        · rintro p ⟨⟩
          exact hsrc
        · intro hg
          exact hgrant (of_decide_eq_true hg)
    · simp only [slaveRx, hreac, Bool.not_false, if_true]
      exact h

end Convinced

/-- A frame of the box keeps its guarantee. -/
theorem BoxUnit.frame_fromBox {u : BoxUnit} {dst : Mac} {counter : UInt16} {planar : Planes} {body : SlaveBody}
    {frame : List UInt8} (h : u.frame dst counter planar body = some frame) : FromBox u frame := by
  obtain ⟨id, m, hid, hemitted, hrow⟩ := BoxUnit.frame_emitted h
  refine ⟨hemitted.clean, hemitted.source, ?_⟩
  intro p hp
  obtain ⟨hconfig, rfl⟩ := hemitted.ports hid hp
  rw [hrow hconfig]

/-- The box keeps its part. -/
theorem box_upholds (desk : Mac) (u : BoxUnit) :
    Upholds (boxStation u) (fun _ => True) .right .left (SegmentSends desk u)
      (fun w s => Convinced desk (GrantSent w) s.fsm) where
  lasting w x s h := h.mono (·.concat x)
  step w s i hw h _ hheard := by
    refine h.loop u.cfg ?_
    intro f hf
    obtain ⟨pre, post, rfl, hfrom⟩ := hw.of_mem (hheard f hf)
    exact ⟨hfrom.source, fun hkind => ⟨f, hheard f hf, hkind⟩⟩
  sends w s i _ _ _ _ f hf := by
    obtain ⟨frame, -, hbuilt⟩ := Option.bind_eq_some_iff.mp hf
    exact BoxUnit.frame_fromBox hbuilt

end Box

/-! ## The start -/

/-- Nobody is known when the segment starts. -/
theorem segmentStart_knows (env : Env) (cfg : PacerCfg) (u : BoxUnit) :
    DeskKnows cfg.srcMac u [] (pacerOpen env cfg) ∧ Convinced cfg.srcMac (GrantSent []) (slaveFsmInit u.cfg).fsm := by
  constructor
  · have hopened := @DeskKnows.opened cfg.srcMac
      { src := cfg.srcMac, fps := cfg.fps, periodNs := pacerPeriodNs cfg.fps, rateHz := cfg.fps * samplesPerPkt
        master := masterInit env.tunables env.placeholder cfg.srcMac (some cfg.consoleCfg) cfg.fps }
      u [] env.tunables env.placeholder (headampOpen cfg.fps cfg.headamps) (some cfg.consoleCfg) cfg.fps rfl
    exact ⟨rfl, hopened.stamps, hopened.box⟩
  · unfold slaveFsmInit
    dsimp only
    split_ifs
    · exact ⟨by rintro ⟨⟩, by simp [ReacFsm.Held, reacFsmInit]⟩
    · exact ⟨by rintro ⟨⟩, by simp [ReacFsm.Held, reacFsmInit]⟩

/-- A box of the default width. -/
def plainUnit : BoxUnit := { src := neighbourMac }

end Libreac
