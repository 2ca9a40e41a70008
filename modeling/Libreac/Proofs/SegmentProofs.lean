import Libreac.Proofs.ScaffoldProofs
import Libreac.Proofs.SlaveProofs
import Libreac.Proofs.StampProofs
import Libreac.Segment

/-!
# Proofs: a desk and a box on one segment

What either party may rely on is read off the frames alone. A box's frame has its source and declares, if
anything, the box's own geometry (`BoxFrame`). A desk's frame is from the desk, and one that reads as a
grant is a row of the sweep over the slots that the box has declared before (`DeskFrame`). From the first
follows what the desk knows of its box (`Acquainted`), from the second what the box knows of its desk.
-/

namespace Libreac

open Reactive (Duplex Guarded Lasting Side Traffic Upholds duplex_rely_guarantee)

/-! ## The frames of the box -/

section BoxFrames

variable {f : CtrlRow} {model : Option BoxRow} {dst src : Mac} {counter : UInt16} {nCh ns : ℤ}
  {planar : Planes} {frame : List UInt8}

/-- A built box frame: header, closed block, body, at the length of some width. -/
theorem ctrlEmitAs_eq (hlen : f.len ≠ .downstream) (haudio : f.audio = true → f.len = .argWidth)
    (h : ctrlEmitAs f model dst src counter nCh none planar ns = some frame) :
    ∃ w body, frame = hdrBytes dst src counter f.type0 f.type1 ++
      f.closed (f.source (some (model.getD (catalogueByWidth nCh)))) ++ body ∧
      body.length = w * 36 + 2 := by
  have hframe : ∀ w : ℤ, (f.audio = true → w = nCh) →
      emitSteps f (model.getD (catalogueByWidth nCh)) dst src counter nCh none planar ns (boxFrameLen w) = frame →
      ∃ w body, frame = hdrBytes dst src counter f.type0 f.type1 ++
        f.closed (f.source (some (model.getD (catalogueByWidth nCh)))) ++ body ∧
        body.length = w * 36 + 2 := by
    rintro w hw rfl
    have hroom : f.audio = true → nCh.toNat * 36 ≤ (List.replicate (boxFrameLen w - 50) (0 : UInt8)).length := by
      intro ha
      rw [List.length_replicate, hw ha]
      unfold boxFrameLen
      omega
    have hbody := @length_placeAudio _ _ _ ns planar hroom
    rw [List.length_replicate] at hbody
    refine ⟨w.toNat, _, emitSteps_eq f _ dst src counter nCh none planar ns ?_ ?_, ?_⟩
    · unfold boxFrameLen
      omega
    · intro ha
      rw [hw ha]
      unfold boxFrameLen
      omega
    · unfold bodyBytes
      unfold boxFrameLen at hbody ⊢
      rw [length_overwrite (by simp only [List.length_cons, List.length_nil]; omega), hbody]
      omega
  unfold ctrlEmitAs at h
  dsimp only at h
  split_ifs at h with _ _ _ hmodel
  · exact hframe nCh (fun _ => rfl) (Option.some.inj h)
  · exact hframe _ (fun ha => by simp [haudio ha] at hmodel) (Option.some.inj h)
  · exact hframe nCh (fun _ => rfl) (Option.some.inj h)

/-- The bytes of a frame built from the row `f` of the table for the box `m`. -/
structure Emitted (f : CtrlRow) (m : BoxRow) (src : Mac) (frame : List UInt8) : Prop where
  long : 50 ≤ frame.length
  clean : cleanFrame frame = frame
  source : macAt frame 6 = src
  etype : byteAt frame 12 = 0x88 ∧ byteAt frame 13 = 0x19
  type : byteAt frame 16 = f.type0 ∧ byteAt frame 17 = f.type1
  block : ∀ i < 32, byteAt frame (18 + i) = byteAt (f.closed (f.source (some m))) i

/-- Closing a block without a record changes its last byte at most. -/
theorem byteAt_closed (hrec : f.cksum ≠ .record) (blk : List UInt8) {i : ℕ} (hi : i < 31) :
    byteAt (f.closed blk) i = byteAt blk i := by
  unfold CtrlRow.closed
  split
  · contradiction
  · exact byteAt_set_ne (by omega)
  · rfl

theorem macAt_hdrBytes (t0 t1 : UInt8) (rest : List UInt8) :
    macAt (hdrBytes dst src counter t0 t1 ++ rest) 6 = src := by
  have hdst : dst.toList.length = 6 := dst.length_toList
  have hsrc : src.toList.length = 6 := src.length_toList
  have hat : ∀ i < 6, byteAt (hdrBytes dst src counter t0 t1 ++ rest) (6 + i) = src.toList.getD i 0 := by
    intro i hi
    rw [hdrBytes, List.append_assoc, List.append_assoc, byteAt_append_right (by omega), hdst,
      Nat.add_sub_cancel_left, byteAt_append_left (by omega)]
    rfl
  unfold macAt
  ext i hi
  rw [Vector.getElem_ofFn, hat i hi]
  simp [hi]

theorem emitted_of_built (hlen : f.len ≠ .downstream) (haudio : f.audio = true → f.len = .argWidth)
    (h : ctrlEmitAs f model dst src counter nCh none planar ns = some frame) :
    Emitted f (model.getD (catalogueByWidth nCh)) src frame := by
  obtain ⟨w, body, rfl, hbody⟩ := ctrlEmitAs_eq hlen haudio h
  have hhdr := length_hdrBytes dst src counter f.type0 f.type1
  have hsource := length_source f (some (model.getD (catalogueByWidth nCh)))
  have hblk := length_closed (f := f) hsource
  have hhead : ∀ i < 18, byteAt (hdrBytes dst src counter f.type0 f.type1 ++
      f.closed (f.source (some (model.getD (catalogueByWidth nCh)))) ++ body) i =
        byteAt (hdrBytes dst src counter f.type0 f.type1) i := by
    intro i hi
    rw [List.append_assoc, byteAt_append_left (by omega)]
  have htype : byteAt (hdrBytes dst src counter f.type0 f.type1) 12 = 0x88 ∧
      byteAt (hdrBytes dst src counter f.type0 f.type1) 13 = 0x19 ∧
      byteAt (hdrBytes dst src counter f.type0 f.type1) 16 = f.type0 ∧
      byteAt (hdrBytes dst src counter f.type0 f.type1) 17 = f.type1 := by
    simp [byteAt, hdrBytes]
  refine ⟨?_, ?_, ?_, ?_, ?_, ?_⟩
  · simp only [List.length_append]
    omega
  · have hsize : (hdrBytes dst src counter f.type0 f.type1 ++
        f.closed (f.source (some (model.getD (catalogueByWidth nCh)))) ++ body).length = 52 + w * 36 := by
      simp only [List.length_append]
      omega
    unfold cleanFrame frameCleanLen
    rw [hsize, if_neg (by omega), ← hsize, List.take_length]
  · rw [List.append_assoc]
    exact macAt_hdrBytes ..
  · rw [hhead 12 (by omega), hhead 13 (by omega)]
    exact ⟨htype.1, htype.2.1⟩
  · rw [hhead 16 (by omega), hhead 17 (by omega)]
    exact htype.2.2
  · intro i hi
    rw [List.append_assoc, byteAt_append_right (by omega), byteAt_append_left (by omega), hhdr,
      Nat.add_sub_cancel_left]

/-- The geometry a row declares. -/
def BoxRow.ports (m : BoxRow) : BoxPorts where
  inCh := m.inCh.toNat
  outCh := m.outCh.toNat
  headampBase := m.headampStrap.toNat * 16

/-- How a frame that declares a geometry opens. -/
theorem portsParse_head {ports : BoxPorts} (h : portsParse frame = some ports) :
    byteAt frame (18 + 0) = 1 ∧ byteAt frame (18 + 1) = 3 ∧
      (byteAt frame (18 + 4) = 0x82 ∨ byteAt frame (18 + 4) = 0x80 ∨ byteAt frame (18 + 4) = 0x84) := by
  unfold portsParse at h
  dsimp only at h
  split_ifs at h with h01 h4
  rw [not_or, not_not, not_not] at h01
  exact ⟨h01.1, h01.2, by tauto⟩

/-- No block but the declaration opens like one. -/
theorem declares_config {id : CtrlFrameId} {m : BoxRow} (hid : id ≠ .headamp)
    (h : byteAt ((ctrlFrames id).source (some m)) 0 = 1 ∧ byteAt ((ctrlFrames id).source (some m)) 1 = 3 ∧
      byteAt ((ctrlFrames id).source (some m)) 4 ≠ 0x81) : id = .configAnnounce := by
  obtain ⟨h0, h1, h4⟩ := h
  cases id with
  | configAnnounce => rfl
  | headamp => exact absurd rfl hid
  | boxHb => exact absurd rfl h4
  | upstreamFiller | floodFiller => cases h0
  | coldconnect | coldconnect0013 => cases h0
  | coldconnect0016 =>
    simp only [ctrlFrames, CtrlRow.source, Option.elim, ctrlLayBlock, boxModelBlock, buildFirmware] at h0
    split_ifs at h0 <;> cases h0
  | coldconnect001a => cases h0
  | identFirst | identLast =>
    simp only [ctrlFrames, CtrlRow.source, Option.elim, ctrlLayBlock, boxModelBlock] at h0
    split_ifs at h0 <;> cases h0

/-- Stamping a block that closes changes nothing. -/
theorem blockStamp_closed {blk : List UInt8} (hlen : blk.length = 32) (hsum : byteSum (byteAt blk) 32 = 0) :
    blockStamp blk = blk :=
  (blockStamp_eq hlen).trans (ctrlFinish_closed { cksumBlock := true } hlen hsum)

/-- The declaration of a row carries the row's port table. -/
theorem Emitted.carries_config {m : BoxRow} (h : Emitted (ctrlFrames .configAnnounce) m src frame)
    (hpos : 0 ≤ m.inCh ∧ 0 ≤ m.outCh) (href : m.refuses .config = false) :
    CarriesBlock frame (boxTemplate (blockCheck (configBytes m))) := by
  have hconfig : rowConfig m = some (blockCheck (configBytes m)) := by
    rw [rowConfig_eq hpos, if_neg (by rw [href]; decide)]
  have hblock := h.block
  change ∀ i < 32, byteAt frame (18 + i) = byteAt (blockStamp (ctrlLayBlock m .config)) i at hblock
  have hlay : ctrlLayBlock m .config = blockCheck (configBytes m) := by
    simp only [ctrlLayBlock, boxModelBlock, hconfig, BlockAnswer.ofOption]
  rw [hlay, blockStamp_closed (length_blockCheck _) (byteSum_blockCheck _)] at hblock
  refine ⟨h.long, h.etype, fun i hi => ?_⟩
  rw [byte_boxTemplate _ hi]
  rcases i with _ | _ | k
  · exact h.type.1
  · exact h.type.2
  · rw [show 16 + (k + 2) = 18 + k by omega, hblock k (by omega)]
    rfl

/-- It is read as the row's own geometry. -/
theorem Emitted.reads_ports {m : BoxRow} (h : Emitted (ctrlFrames .configAnnounce) m src frame)
    (hpos : 0 ≤ m.inCh ∧ 0 ≤ m.outCh) (href : m.refuses .config = false)
    (hsel : m.selector = 0x82 ∨ m.selector = 0x80 ∨ m.selector = 0x84) : portsParse frame = some m.ports := by
  obtain ⟨⟨ports, hparse, hin, hout, hbase⟩, -⟩ := Libreac.ports_config href hpos (h.carries_config hpos href) hsel
  have hin' : ports.inCh = m.inCh.toNat := by omega
  have hout' : ports.outCh = m.outCh.toNat := by omega
  rw [hparse, BoxRow.ports, ← hin', ← hout', ← hbase]

/-- What is read of the declaration of a row, if anything, is the row's own geometry. -/
theorem Emitted.ports_config {m : BoxRow} (h : Emitted (ctrlFrames .configAnnounce) m src frame)
    {ports : BoxPorts} (hports : portsParse frame = some ports) : ports = m.ports := by
  cases hconfig : rowConfig m with
  | none =>
    -- The generator refuses the row: 32 zero bytes declare nothing.
    have hblock := h.block
    change ∀ i < 32, byteAt frame (18 + i) = byteAt (blockStamp (ctrlLayBlock m .config)) i at hblock
    have hzero : ctrlLayBlock m .config = List.replicate 32 0 := by
      simp only [ctrlLayBlock, boxModelBlock, hconfig, BlockAnswer.ofOption]
    rw [hzero] at hblock
    have h0 : byteAt frame (18 + 0) = 0 := hblock 0 (by omega)
    simp [portsParse, h0] at hports
  | some blk =>
    have hpos : 0 ≤ m.inCh ∧ 0 ≤ m.outCh := by
      by_contra hneg
      rw [rowConfig, if_pos (by omega)] at hconfig
      cases hconfig
    rw [rowConfig_eq hpos] at hconfig
    split_ifs at hconfig with hrefuses
    have href : m.refuses .config = false := Bool.eq_false_of_not_eq_true hrefuses
    have hlen : (configBytes m).length = 31 := by
      simp [configBytes, length_configPorts href hpos]
    obtain ⟨-, -, h4, -⟩ := configBytes_head (h.carries_config hpos href) hlen
    have hsel := (portsParse_head hports).2.2
    rw [h4] at hsel
    exact Option.some.inj (hports.symm.trans (h.reads_ports hpos href hsel))

/-- A box frame declares the geometry of its row or none. -/
theorem Emitted.ports {id : CtrlFrameId} {m : BoxRow} (hid : id ≠ .headamp)
    (h : Emitted (ctrlFrames id) m src frame) {ports : BoxPorts} (hports : portsParse frame = some ports) :
    id = .configAnnounce ∧ ports = m.ports := by
  have hrec : (ctrlFrames id).cksum ≠ .record := by
    cases id <;> first | exact absurd rfl hid | exact CtrlCksum.noConfusion
  have hat : ∀ i < 31, byteAt frame (18 + i) = byteAt ((ctrlFrames id).source (some m)) i :=
    fun i hi => (h.block i (by omega)).trans (byteAt_closed hrec _ hi)
  obtain ⟨h0, h1, h4⟩ := portsParse_head hports
  rw [hat 0 (by omega)] at h0
  rw [hat 1 (by omega)] at h1
  rw [hat 4 (by omega)] at h4
  obtain rfl := declares_config hid ⟨h0, h1, by rintro h81; simp [h81] at h4⟩
  exact ⟨rfl, h.ports_config hports⟩

/-- The row a box is built from: its own, or the captured one of its width. -/
def BoxUnit.row (u : BoxUnit) : BoxRow := u.model.getD (catalogueByWidth u.channels)

theorem BoxUnit.buildBlock_eq (u : BoxUnit) (b : BoxBlock) :
    u.buildBlock b dst counter planar ns =
      ctrlEmitAs (ctrlFrames (boxBlockToCtrlFrame b)) u.model dst u.src counter u.channels none planar ns := by
  unfold BoxUnit.buildBlock BoxUnit.channels
  cases u.model with
  | none => rfl
  | some m => exact (ctrlEmitAs_model m b dst u.src counter).symm

/-- Whatever a box sends is a frame of the table, and its declaration is that of its row. -/
theorem BoxUnit.frame_emitted {u : BoxUnit} {body : SlaveBody}
    (h : u.frame dst counter planar body = some frame) :
    ∃ id m, id ≠ .headamp ∧ Emitted (ctrlFrames id) m u.src frame ∧ (id = .configAnnounce → m = u.row) := by
  have hrow : ∀ {id : CtrlFrameId} {model : Option BoxRow} {dst : Mac} {planar : Planes} {ns : ℤ},
      id ≠ .headamp →
      ctrlEmitAs (ctrlFrames id) model dst u.src counter u.channels none planar ns = some frame →
      Emitted (ctrlFrames id) (model.getD (catalogueByWidth u.channels)) u.src frame := by
    intro id model dst planar ns hid hbuilt
    refine emitted_of_built ?_ ?_ hbuilt
    · cases id <;> first | exact absurd rfl hid | exact CtrlLen.noConfusion
    · cases id <;> first | exact absurd rfl hid | exact fun _ => rfl | exact Bool.noConfusion
  have hblock : ∀ {b : BoxBlock} {planar : Planes} {ns : ℤ}, u.buildBlock b dst counter planar ns = some frame →
      ∃ id m, id ≠ .headamp ∧ Emitted (ctrlFrames id) m u.src frame ∧ (id = .configAnnounce → m = u.row) := by
    intro b planar ns hbuilt
    rw [u.buildBlock_eq] at hbuilt
    have hid : boxBlockToCtrlFrame b ≠ .headamp := by
      cases b <;> exact CtrlFrameId.noConfusion
    exact ⟨_, _, hid, hrow hid hbuilt, fun _ => rfl⟩
  cases body with
  | floodFiller => exact ⟨.floodFiller, _, nofun, hrow nofun h, nofun⟩
  | upstreamFiller => exact ⟨.upstreamFiller, _, nofun, hrow nofun h, nofun⟩
  | downstream => cases h
  | record r =>
    cases r with
    | boxHb => exact ⟨.boxHb, _, nofun, hrow nofun h, nofun⟩
    | cc0014 | cc0013 | cc0016 | cc001a | config | identFirst | identLast => exact hblock h
    | ccHead | configBoxMaster => cases h

end BoxFrames

/-! ## What the desk knows of its box -/

/-- What a master knows of the one box on its wire: whom it is bound to, whose join it holds, what was
allocated. `D` is what it is told of the slots it allocates, `A` what it is told before it opens a
window. -/
structure Acquainted (D : GrantAlloc → Prop) (A : Prop) (box : Mac) (m : Master) : Prop where
  bound : m.state = .granting ∨ m.state = .established → m.boxMac = box ∧ A
  mac : m.boxMac = noMac ∨ m.boxMac = box
  held : m.joinHeld = true → m.joinSrc = box ∧ A
  declared : m.hasBox = true → D m.alloc
  locked : m.state = .established → m.hasBox = true

namespace Acquainted

variable {D : GrantAlloc → Prop} {A : Prop} {box : Mac} {m : Master} {t : MasterTunables} {tx : HeadampTx}

theorem mono {D' : GrantAlloc → Prop} {A' : Prop} (h : Acquainted D A box m) (hD : ∀ a, D a → D' a)
    (hA : A → A') : Acquainted D' A' box m :=
  ⟨fun hs => ⟨(h.bound hs).1, hA (h.bound hs).2⟩, h.mac, fun hj => ⟨(h.held hj).1, hA (h.held hj).2⟩,
    fun hb => hD _ (h.declared hb), h.locked⟩

/-- Only these fields matter. -/
theorem congr {m' : Master} (h : Acquainted D A box m) (hstate : m'.state = m.state)
    (hmac : m'.boxMac = m.boxMac) (hheld : m'.joinHeld = m.joinHeld) (hsrc : m'.joinSrc = m.joinSrc)
    (halloc : m'.alloc = m.alloc) : Acquainted D A box m' := by
  have hbox : m'.hasBox = m.hasBox := by rw [Master.hasBox, Master.hasBox, halloc]
  constructor
  · rw [hstate, hmac]
    exact h.bound
  · rw [hmac]
    exact h.mac
  · rw [hheld, hsrc]
    exact h.held
  · rw [hbox, halloc]
    exact h.declared
  · rw [hstate, hbox]
    exact h.locked

theorem enterProbing (h : Acquainted D A box m) : Acquainted D A box (enterProbing m) := by
  have hfresh := enterProbing_freshHunt m
  have hstate : ¬ ((Libreac.enterProbing m).state = .granting ∨ (Libreac.enterProbing m).state = .established) := by
    rw [hfresh.state]
    decide
  refine ⟨fun hs => absurd hs hstate, ?_, fun hj => by simp [hfresh.held] at hj, ?_,
    fun hs => absurd (.inr hs) hstate⟩
  · unfold Libreac.enterProbing masterForgetBox
    dsimp only
    split_ifs
    · exact .inl rfl
    · exact h.mac
  · unfold Libreac.enterProbing masterForgetBox
    dsimp only
    split_ifs
    · exact fun hb => by simp [Master.hasBox, GrantAlloc.none] at hb
    · exact h.declared

theorem enterGranting (h : Acquainted D A box m) (hA : A) (tx : HeadampTx) (blk : Option Block) :
    Acquainted D A box (enterGranting tx m box blk) := by
  obtain ⟨rows, -, -, heq⟩ := enterGranting_eq tx m box blk
  rw [heq]
  exact ⟨fun _ => ⟨rfl, hA⟩, .inr rfl, h.held, h.declared, nofun⟩

theorem started (h : Acquainted D A box m) : Acquainted D A box m.started := by
  unfold Master.started
  split_ifs
  · exact h.enterProbing
  · exact h

theorem heard {m₁ : Master} (h : Acquainted D A box m) (h₁ : Heard m m₁) : Acquainted D A box m₁ := by
  obtain ⟨seen, lc, rfl⟩ := h₁
  exact h.started.congr rfl rfl rfl rfl rfl

theorem ticked {m₀ : Master} (h : Acquainted D A box m) (h₀ : Ticked m m₀) : Acquainted D A box m₀ := by
  obtain ⟨seen, tick, rfl⟩ := h₀
  exact h.started.congr rfl rfl rfl rfl rfl

/-- A window is opened only for the box whose join was held, and a frame of the box is all that opens
one. -/
theorem sceneMove {m' : Master} {emit : MasterEmit} (h : Acquainted D A box m) (hm : SceneMove tx m emit m') :
    Acquainted D A box m' := by
  cases hm with
  | none => exact h
  | opened | closed => exact h.congr rfl rfl rfl rfl rfl
  | dropped => exact ⟨h.bound, h.mac, nofun, h.declared, h.locked⟩
  | released _ _ hj _ _ drop =>
    obtain ⟨hsrc, hA⟩ := h.held hj
    rw [hsrc]
    have hbase : Acquainted D A box { m.completed with joinHeld := false, dropReason := drop } :=
      ⟨h.bound, h.mac, nofun, h.declared, h.locked⟩
    exact hbase.enterGranting hA tx _
  | bye =>
    refine Acquainted.enterProbing (m := { m.completed with joinHeld := false, dropReason := .bye }) ?_
    exact ⟨h.bound, h.mac, nofun, h.declared, h.locked⟩

theorem enterEstablished (h : Acquainted D A box m) (hs : m.state = .granting) (hb : m.hasBox = true) :
    Acquainted D A box (enterEstablished m) :=
  ⟨fun _ => h.bound (.inl hs), h.mac, h.held, h.declared, fun _ => hb⟩

theorem rxMove {m' : Master} {ev : RxEvent} {blk : Option Block} {r : Bool} (h : Acquainted D A box m)
    (hA : ev = .join ∨ ev = .config → A) (hm : RxMove tx m ev box blk m' r) : Acquainted D A box m' := by
  have hforward : Forward ev blk → A := fun hf => hA (hf.imp And.left id)
  cases hm with
  | refused => exact h
  | stay _ h₁ => exact h.heard h₁
  | held h₁ _ hf =>
    have := h.heard h₁
    exact ⟨this.bound, this.mac, fun _ => ⟨rfl, hforward hf⟩, this.declared, this.locked⟩
  | latch h₁ _ hf => exact (h.heard h₁).enterGranting (hforward hf) tx _
  | @relatch m₁ h₁ _ hev _ _ drop =>
    have hbase : Acquainted D A box { m₁ with dropReason := drop } := (h.heard h₁).congr rfl rfl rfl rfl rfl
    exact hbase.enterGranting (hA (.inl hev)) tx _
  | accept _ h₁ hs hd =>
    exact (h.heard h₁).enterEstablished hs (of_decide_eq_true hd).1
  | @bye m₁ _ h₁ =>
    exact Acquainted.enterProbing (m := { m₁ with dropReason := .bye }) ((h.heard h₁).congr rfl rfl rfl rfl rfl)

theorem nextMove {m' : Master} {s : Slot} (h : Acquainted D A box m) (hm : NextMove t tx m m' s) :
    Acquainted D A box m' := by
  cases hm with
  | @hunt m₀ h₀ hs c _ _ blk desc =>
    refine Acquainted.sceneMove (m := { m₀ with cad := c, sceneBlk := blk, fillerDesc := desc })
      ((h.ticked h₀).congr rfl rfl rfl rfl rfl) (sceneAccount_move tx _ (.inl hs))
  | grant h₀ | wait h₀ => exact (h.ticked h₀).congr rfl rfl rfl rfl rfl
  | @delivered m₀ h₀ hs hb c w =>
    refine Acquainted.enterEstablished (m := { m₀ with cad := c, win := w.tick }) ?_ hs hb
    exact (h.ticked h₀).congr rfl rfl rfl rfl rfl
  | @boxUnknown m₀ h₀ _ _ c =>
    refine Acquainted.enterProbing
      (m := { m₀ with cad := c, win := m₀.win.tick, dropReason := .boxUnknown }) ?_
    exact (h.ticked h₀).congr rfl rfl rfl rfl rfl
  | @locked m₀ h₀ hs c _ _ lc blk desc =>
    refine Acquainted.sceneMove
      (m := { m₀ with cad := c, linkCheck := lc, sceneBlk := blk, fillerDesc := desc })
      ((h.ticked h₀).congr rfl rfl rfl rfl rfl) (sceneAccount_move tx _ (.inr hs))
  | @lost m₀ h₀ _ c _ _ lc =>
    have hbase : Acquainted D A box { m₀ with cad := c, linkCheck := lc, dropReason := .peerGone } :=
      (h.ticked h₀).congr rfl rfl rfl rfl rfl
    exact hbase.enterProbing.congr rfl rfl rfl rfl rfl

/-- A declaration changes what is allocated and nothing else that matters. -/
theorem declare (h : Acquainted D A box m) {a : GrantAlloc} {rows : List Template} (ha : D a)
    (hpos : 0 < a.width) : Acquainted D A box (m.declared a rows) :=
  ⟨h.bound, h.mac, h.held, fun _ => ha, fun _ => hasBox_iff.mpr hpos⟩

theorem init (t : MasterTunables) (placeholder : SceneBody) (src : Mac) (cfg : Option ConsoleCfg) (fps : ℤ) :
    Acquainted D A box (masterInit t placeholder src cfg fps) := by
  obtain ⟨blk, desc, heq⟩ := masterInit_eq t placeholder src cfg fps
  rw [heq]
  exact ⟨by simp, .inl rfl, nofun, fun hb => by simp [Master.hasBox, GrantAlloc.none] at hb, nofun⟩

end Acquainted

end Libreac
