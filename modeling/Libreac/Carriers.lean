import Mathlib.Data.Int.Notation
import Libreac.Bytes

/-!
# The blocks a master advertises

The generated control blocks of `reac_master.c` and the scene-step builder of `reac_ctrlblk.c`: the
`cfea` announce, the 49 channel-map windows, the ENROLL group map and the steps of the scene push.
The first three and the scene body each carry the pace code of the console configuration.
-/

namespace Libreac

/-- `struct reac_console_cfg`. -/
structure ConsoleCfg where
  outChannels : UInt8
  consoleField : UInt8
  deriving DecidableEq, Repr

/-- `REAC_CONSOLE_CFG_IDLE`. -/
def consoleCfgIdle : ConsoleCfg := ⟨8, 0⟩

/-- `gen_cfea`: the master announce, with our address, the box width, the pace code and the number
of enrolled boxes. -/
def genCfea (src : Mac) (cfg : ConsoleCfg) (boxCount : UInt16) : Template :=
  let head : Vector UInt8 11 :=
    #v[0xcf, 0xea, 0xff, 0xff, 0x01, 0x00, 0x01, 0x03, 0x0d, 0x01, 0x04]
  stampBlockCksum <| Vector.ofFn fun i =>
    if h : i.1 < 11 then head[i.1]
    else if i.1 < 17 then src.getD (i.1 - 11) 0
    else if i.1 = 17 then 0x28
    else if i.1 = 18 then cfg.outChannels
    else if i.1 = 19 then cfg.consoleField
    else if i.1 = 20 then (boxCount >>> 8).toUInt8
    else if i.1 = 21 then boxCount.toUInt8
    else 0x00

/-! ## The channel map -/

/-- `REAC_M_CHANMAP_RING`: the 48 head-amp positions and the section marker. -/
def chanmapRing : ℕ := 49

/-- `ring_at`. -/
def ringAt (i : ℕ) : UInt8 :=
  if i % chanmapRing = chanmapRing - 1 then 0xfe else (i % chanmapRing).toUInt8

/-- `chanmap_start`: the marker window first, then base 7 down to 0 in steps of 8. -/
def chanmapStart (f : ℕ) : ℕ :=
  if f = 0 then chanmapRing - 1 else 7 - (f - 1) / 6 + 8 * ((f - 1) % 6)

/-- Byte `r` of slot `s` of window `f`. -/
def chanmapSlot (cfg : ConsoleCfg) (f s r : ℕ) : UInt8 :=
  let ch := ringAt (chanmapStart f + s)
  if r = 0 then ch
  else if r = 1 then
    if ch = 0xfe then cfg.consoleField else if 0x28 ≤ ch ∧ ch ≤ 0x2f then 0x38 else 0x28
  else 0x00

/-- Window `f` of `gen_chanmap`. -/
def chanmapFrame (cfg : ConsoleCfg) (f : ℕ) : Template :=
  let header : Vector UInt8 7 := #v[0xcd, 0xea, 0x01, 0x03, 0x00, 0x19, 0x01]
  stampBlockCksum <| Vector.ofFn fun i =>
    if h : i.1 < 7 then header[i.1]
    else if i.1 < 31 then chanmapSlot cfg f ((i.1 - 7) / 3) ((i.1 - 7) % 3)
    else 0x00

/-- `gen_chanmap`. -/
def genChanmap (cfg : ConsoleCfg) : List Template := (List.range chanmapRing).map (chanmapFrame cfg)

/-! ## ENROLL -/

/-- `ENROLL_BLK`. -/
def enrollTmpl : Template :=
  #v[0xcd, 0xea, 0x01, 0x03, 0x00, 0x0d, 0x10, 0x04, 0x00, 0x41, 0x00, 0x00,
    0x00, 0x00, 0x00, 0xc3, 0xc3, 0xc3, 0xc3, 0x00, 0x00, 0x00, 0x00, 0x00,
    0x00, 0x00, 0x00, 0x00, 0x00, 0x00, 0x00, 0x00, 0x00, 0x8e]

/-- `REAC_ENROLL_DEFAULT_WIDTH`: the wide-safe map sent before a box has declared itself. -/
def enrollDefaultWidth : ℤ := 32

/-- The number of input groups `set_enroll_width` writes for `inCh` inputs. -/
def enrollGroups (inCh : ℤ) : ℤ :=
  let n := if inCh ≤ 16 then 1 else inCh.tdiv 8
  let n := if n < 1 then 1 else n
  if 5 < n then 5 else n

/-- `set_enroll_width`: input groups fill `[9:14]` from the front, the others `[14:19]` from the
back. -/
def setEnrollWidth (blk : Template) (inCh : ℤ) : Template :=
  let n := enrollGroups inCh
  stampBlockCksum <| Vector.ofFn fun i =>
    if 9 ≤ i.1 ∧ i.1 < 14 then if (i.1 : ℤ) - 9 < n then 0x41 else 0x00
    else if 14 ≤ i.1 ∧ i.1 < 19 then if n ≤ (i.1 : ℤ) - 14 then 0xc3 else 0x00
    else blk[i.1]

/-! ## The scene push -/

/-- `REAC_SCENE_BYTES`. -/
def sceneBytes : ℕ := 8904

/-- `REAC_SCENE_CHUNKS`: the body chunks of a whole transfer. -/
def sceneChunks : ℕ := 341

/-- `REAC_SCENE_STEPS`: the header, the chunks and the final. -/
def sceneSteps : ℕ := 1 + sceneChunks + 1

/-- The scene body. -/
abbrev SceneBody := Vector UInt8 8904

/-- Byte `i` of the body. -/
def SceneBody.byte (body : SceneBody) (i : ℕ) : UInt8 := body.getD i 0

/-- The `[type | block]` shape of every scene step: link 1, the segment, the payload length, the
bulk opcode, and the payload from `[7]`. -/
def sceneBlock (seg : UInt8) (len : UInt8) (payload : ℕ → UInt8) : Template :=
  let header : Vector UInt8 7 := #v[0xcd, 0xea, 0x01, seg, 0x00, len, 0x00]
  stampBlockCksum <| Vector.ofFn fun i =>
    if h : i.1 < 7 then header[i.1] else if i.1 < 33 then payload (i.1 - 7) else 0x00

/-- `TAIL_TRAILER`: the twelve bytes behind the body in the final chunk. -/
def tailTrailer : Vector UInt8 12 :=
  #v[0x00, 0x00, 0x03, 0x00, 0x00, 0x00, 0x01, 0x00, 0x00, 0x00, 0x00, 0x00]

/-- `reac_ctrl_build_scene_step`. -/
def buildSceneStep (body : SceneBody) (step : ℕ) : Option Template :=
  if sceneSteps ≤ step then none
  else if step = 0 then
    -- The first frame declares the total, 0x22c8, in front of its 24 bytes.
    some <| sceneBlock 0x01 24 fun i =>
      if i = 0 then 0x22 else if i = 1 then 0xc8 else body.byte (i - 2)
  else if step ≤ sceneChunks then
    some <| sceneBlock 0x00 26 fun i => body.byte (24 + (step - 1) * 26 + i)
  else
    some <| sceneBlock 0x02 14 fun i =>
      if i < 14 then body.byte (sceneBytes - 14 + i) else tailTrailer.getD (i - 14) 0

/-- `reac_ctrl_scene_set_mac` and the `revision` stamp of `reac_master_init`. -/
def sceneBody (placeholder : SceneBody) (src : Mac) (cfg : ConsoleCfg) : SceneBody :=
  Vector.ofFn fun i =>
    if i.1 = 0x14 then cfg.consoleField
    else if i.1 = 0x15 then 0x00
    else if 0x340 ≤ i.1 ∧ i.1 < 0x346 then src.getD (i.1 - 0x340) 0
    else placeholder[i.1]

end Libreac
