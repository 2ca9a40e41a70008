import Libreac.Proofs.StampProofs

/-!
# Proofs: the scene transfer reassembles

The steps of a scene transfer are read the way the box reads them: the length field says how much of the
payload belongs to the body, and the first step declares the total. The lengths add up to the places
where the steps start, so the payloads are the body, piece by piece.
-/

namespace Libreac

variable {body : SceneBody} {step : ℕ} {blk : Template}

/-! ## Pieces -/

section Pieces

variable {α : Type}

/-- Pieces that start where the last one ended make up the whole. -/
theorem flatMap_pieces (f : ℕ → α) (len off : ℕ → ℕ) (h₀ : off 0 = 0) (n : ℕ)
    (hoff : ∀ k < n, off (k + 1) = off k + len k) :
    (List.range n).flatMap (fun k => (List.range (len k)).map fun i => f (off k + i)) =
      (List.range (off n)).map f := by
  induction n with
  | zero => rw [h₀]; rfl
  | succ n ih =>
    have hbefore : ∀ k < n, off (k + 1) = off k + len k := fun k hk => hoff k (Nat.lt_succ_of_lt hk)
    rw [List.range_succ, List.flatMap_append, ih hbefore, hoff n (Nat.lt_succ_self n), List.range_add,
      List.map_append, List.map_map]
    simp [Function.comp_def]

theorem sum_pieces (len off : ℕ → ℕ) (h₀ : off 0 = 0) (n : ℕ)
    (hoff : ∀ k < n, off (k + 1) = off k + len k) : ((List.range n).map len).sum = off n := by
  induction n with
  | zero => exact h₀.symm
  | succ n ih =>
    have hbefore : ∀ k < n, off (k + 1) = off k + len k := fun k hk => hoff k (Nat.lt_succ_of_lt hk)
    rw [List.range_succ, List.map_append, List.sum_append, ih hbefore, hoff n (Nat.lt_succ_self n)]
    simp

end Pieces

/-! ## Reading a step -/

/-- The call: a refused one leaves the block as it was. -/
def buildSceneStepCall (blk : Template) (body : List UInt8) (step : ℤ) : Template × ℤ :=
  if h : body.length = 8904 then
    if step < 0 then (blk, -1)
    else
      match buildSceneStep ⟨body.toArray, by rw [List.size_toArray, h]⟩ step.toNat with
      | none => (blk, -1)
      | some built => (built, 0)
  else (blk, -1)

/-- The steps of the transfer. -/
def sceneTransfer (body : SceneBody) : List Template :=
  (List.range sceneSteps).filterMap (buildSceneStep body)

/-- The payload length a step declares. -/
def Template.sceneLen (blk : Template) : ℕ := (blk.byte 4).toNat * 256 + (blk.byte 5).toNat

/-- The total that the first step declares. -/
def Template.sceneTotal (blk : Template) : ℕ := (blk.byte 7).toNat * 256 + (blk.byte 8).toNat

/-- Where the payload of a step starts: behind the total in the first one. -/
def Template.scenePayloadOff (blk : Template) : ℕ := if blk.byte 3 = 0x01 then 9 else 7

/-- The payload bytes a step declares. -/
def Template.scenePayload (blk : Template) : List UInt8 :=
  (List.range blk.sceneLen).map fun i => blk.byte (blk.scenePayloadOff + i)

/-- The segment of a step. -/
def sceneSeg (step : ℕ) : UInt8 :=
  if step = 0 then 0x01 else if step ≤ sceneChunks then 0x00 else 0x02

/-- How much of the body a step carries. -/
def scenePiece (step : ℕ) : ℕ := if step = 0 then 24 else if step ≤ sceneChunks then 26 else 14

/-- Where its piece of the body starts. -/
def sceneOff (step : ℕ) : ℕ :=
  if step = 0 then 0 else if step ≤ sceneChunks + 1 then 24 + (step - 1) * 26 else sceneBytes

theorem sceneOff_succ (h : step < sceneSteps) : sceneOff (step + 1) = sceneOff step + scenePiece step := by
  unfold sceneSteps sceneChunks at h
  unfold sceneOff scenePiece sceneChunks sceneBytes
  rw [if_neg (by omega)]
  by_cases h₀ : step = 0
  · subst h₀
    rfl
  by_cases hlast : step ≤ 341
  · rw [if_neg h₀, if_neg h₀, if_pos (by omega), if_pos (by omega), if_pos hlast]
    omega
  · rw [if_neg h₀, if_neg h₀, if_neg (by omega), if_pos (by omega), if_neg hlast]
    omega

/-! ## What is built -/

theorem sceneBlock_header (seg len : UInt8) (payload : ℕ → UInt8) :
    (sceneBlock seg len payload).byte 3 = seg ∧ (sceneBlock seg len payload).sceneLen = len.toNat := by
  have hbyte : ∀ i (hi : i < 7), (sceneBlock seg len payload).byte i =
      (#v[0xcd, 0xea, 0x01, seg, 0x00, len, 0x00] : Vector UInt8 7)[i] := by
    intro i hi
    unfold sceneBlock
    rw [byte_stampBlockCksum _ (by omega), byte_ofFn _ (by omega), dif_pos hi]
  constructor
  · rw [hbyte 3 (by omega)]
    rfl
  · rw [Template.sceneLen, hbyte 4 (by omega), hbyte 5 (by omega)]
    simp

theorem sceneBlock_payload (seg len : UInt8) (payload : ℕ → UInt8) {i : ℕ} (hi : i < 26) :
    (sceneBlock seg len payload).byte (7 + i) = payload i := by
  unfold sceneBlock
  rw [byte_stampBlockCksum _ (by omega), byte_ofFn _ (by omega), dif_neg (by dsimp only; omega),
    if_pos (by dsimp only; omega)]
  dsimp only
  rw [Nat.add_sub_cancel_left]

/-- A step: its segment, its piece of the body, its kind and its checksum. -/
structure SceneStep (body : SceneBody) (step : ℕ) (blk : Template) : Prop where
  seg : blk.byte 3 = sceneSeg step
  len : blk.sceneLen = scenePiece step
  payload : blk.scenePayload = (List.range (scenePiece step)).map fun i => body.byte (sceneOff step + i)
  kind : blk.kind = .sceneTransfer
  cksum : blk.cksumOk

theorem buildSceneStep_first (body : SceneBody) :
    ∃ blk, buildSceneStep body 0 = some blk ∧ SceneStep body 0 blk ∧ blk.sceneTotal = sceneBytes := by
  unfold buildSceneStep
  rw [if_neg (by decide), if_pos rfl]
  refine ⟨_, rfl, ?_, ?_⟩
  · obtain ⟨hseg, hlen⟩ := sceneBlock_header 0x01 24 fun i =>
      if i = 0 then 0x22 else if i = 1 then 0xc8 else body.byte (i - 2)
    refine ⟨hseg, hlen, ?_, kind_sceneBlock .., stampBlockCksum_cksumOk _⟩
    rw [Template.scenePayload, Template.scenePayloadOff, hlen, hseg, if_pos rfl]
    refine List.map_congr_left fun i hi => ?_
    have hi24 : i < 24 := List.mem_range.mp hi
    rw [show 9 + i = 7 + (2 + i) by omega, sceneBlock_payload _ _ _ (by omega), if_neg (by omega),
      if_neg (by omega), Nat.add_sub_cancel_left]
    simp [sceneOff]
  · rw [Template.sceneTotal, show (7 : ℕ) = 7 + 0 by rfl, show (8 : ℕ) = 7 + 1 by rfl,
      sceneBlock_payload _ _ _ (by omega), sceneBlock_payload _ _ _ (by omega), if_pos rfl,
      if_neg one_ne_zero, if_pos rfl]
    decide

theorem buildSceneStep_middle (body : SceneBody) (h₀ : step ≠ 0) (h : step ≤ sceneChunks) :
    ∃ blk, buildSceneStep body step = some blk ∧ SceneStep body step blk := by
  have hin : ¬ sceneSteps ≤ step := by
    unfold sceneSteps
    omega
  unfold buildSceneStep
  rw [if_neg hin, if_neg h₀, if_pos h]
  obtain ⟨hseg, hlen⟩ := sceneBlock_header 0x00 26 fun i => body.byte (24 + (step - 1) * 26 + i)
  have hpiece : scenePiece step = 26 := by rw [scenePiece, if_neg h₀, if_pos h]
  have hoff : sceneOff step = 24 + (step - 1) * 26 := by
    rw [sceneOff, if_neg h₀, if_pos (Nat.le_succ_of_le h)]
  refine ⟨_, rfl, ?_, by rw [hpiece]; exact hlen, ?_, kind_sceneBlock .., stampBlockCksum_cksumOk _⟩
  · rw [hseg, sceneSeg, if_neg h₀, if_pos h]
  · rw [Template.scenePayload, Template.scenePayloadOff, hlen, hseg, if_neg (by decide), hpiece, hoff]
    refine List.map_congr_left fun i hi => ?_
    exact sceneBlock_payload _ _ _ (List.mem_range.mp hi)

theorem buildSceneStep_last (body : SceneBody) (h : sceneChunks < step) (hin : step < sceneSteps) :
    ∃ blk, buildSceneStep body step = some blk ∧ SceneStep body step blk := by
  have h₀ : step ≠ 0 := by omega
  unfold buildSceneStep
  rw [if_neg (by omega), if_neg h₀, if_neg (by omega)]
  obtain ⟨hseg, hlen⟩ := sceneBlock_header 0x02 14 fun i =>
    if i < 14 then body.byte (sceneBytes - 14 + i) else tailTrailer.getD (i - 14) 0
  have hpiece : scenePiece step = 14 := by rw [scenePiece, if_neg h₀, if_neg (by omega)]
  have hoff : sceneOff step = sceneBytes - 14 := by
    unfold sceneSteps at hin
    rw [sceneOff, if_neg h₀, if_pos (by omega), show step = sceneChunks + 1 by omega]
    rfl
  refine ⟨_, rfl, ?_, by rw [hpiece]; exact hlen, ?_, kind_sceneBlock .., stampBlockCksum_cksumOk _⟩
  · rw [hseg, sceneSeg, if_neg h₀, if_neg (by omega)]
  · rw [Template.scenePayload, Template.scenePayloadOff, hlen, hseg, if_neg (by decide), hpiece, hoff]
    refine List.map_congr_left fun i hi => ?_
    have hi14 : i < 14 := List.mem_range.mp hi
    rw [sceneBlock_payload _ _ _ (by omega), if_pos hi14]

/-- Every step of the transfer is built. -/
theorem buildSceneStep_step (body : SceneBody) (h : step < sceneSteps) :
    ∃ blk, buildSceneStep body step = some blk ∧ SceneStep body step blk := by
  by_cases h₀ : step = 0
  · subst h₀
    obtain ⟨blk, hblk, hstep, -⟩ := buildSceneStep_first body
    exact ⟨blk, hblk, hstep⟩
  · by_cases hmiddle : step ≤ sceneChunks
    · exact buildSceneStep_middle body h₀ hmiddle
    · exact buildSceneStep_last body (Nat.not_le.mp hmiddle) h

/-- The step is what `buildSceneStep` hands out. -/
theorem sceneStep_of_build (h : step < sceneSteps) (hblk : buildSceneStep body step = some blk) :
    SceneStep body step blk := by
  obtain ⟨blk', hblk', hstep⟩ := buildSceneStep_step body h
  rw [hblk] at hblk'
  obtain rfl := Option.some.inj hblk'
  exact hstep

theorem sceneTransfer_map {α : Type} (g : Template → α) (f : ℕ → α)
    (hg : ∀ step < sceneSteps, ∀ blk, buildSceneStep body step = some blk → g blk = f step) :
    (sceneTransfer body).map g = (List.range sceneSteps).map f := by
  unfold sceneTransfer
  rw [List.map_filterMap, ← List.filterMap_eq_map]
  refine List.filterMap_congr fun step hmem => ?_
  have hstep := List.mem_range.mp hmem
  obtain ⟨blk, hblk, -⟩ := buildSceneStep_step body hstep
  rw [hblk]
  exact congrArg some (hg step hstep blk hblk)

theorem toList_eq_range (body : SceneBody) : (List.range sceneBytes).map body.byte = body.toList := by
  refine List.ext_getElem (by simp [sceneBytes]) ?_
  intro i hi _
  have hin : i < 8904 := by simpa [sceneBytes] using hi
  simp [SceneBody.byte, Vector.getD, Array.getD, hin]

/-- The pieces are the body. -/
theorem sceneTransfer_payload (body : SceneBody) :
    (sceneTransfer body).flatMap Template.scenePayload = body.toList := by
  have hpieces := flatMap_pieces body.byte scenePiece sceneOff rfl sceneSteps fun k hk => sceneOff_succ hk
  rw [List.flatMap_def, sceneTransfer_map Template.scenePayload
    (fun k => (List.range (scenePiece k)).map fun i => body.byte (sceneOff k + i))
    (fun step hstep blk hblk => (sceneStep_of_build hstep hblk).payload), ← List.flatMap_def, hpieces]
  exact toList_eq_range body

/-- A call with a body of another size, or with a step that does not exist, writes nothing. -/
theorem buildSceneStepCall_eq (blk : Template) (bytes : List UInt8) (step : ℤ) :
    (bytes.length = 8904 ∧ 0 ≤ step ∧ step < sceneSteps → ∃ body : SceneBody, ∃ built,
      body.toList = bytes ∧ buildSceneStep body step.toNat = some built ∧
        buildSceneStepCall blk bytes step = (built, 0)) ∧
      (¬ (bytes.length = 8904 ∧ 0 ≤ step ∧ step < sceneSteps) →
        buildSceneStepCall blk bytes step = (blk, -1)) := by
  unfold buildSceneStepCall
  constructor
  · rintro ⟨hlen, hneg, hstep⟩
    obtain ⟨built, hbuilt, -⟩ := buildSceneStep_step
      (⟨bytes.toArray, by rw [List.size_toArray, hlen]⟩ : SceneBody) (show step.toNat < sceneSteps by omega)
    refine ⟨_, built, rfl, hbuilt, ?_⟩
    rw [dif_pos hlen, if_neg (by omega), hbuilt]
  · intro hbad
    by_cases hlen : bytes.length = 8904
    · rw [dif_pos hlen]
      by_cases hneg : step < 0
      · rw [if_pos hneg]
      · rw [if_neg hneg, buildSceneStep, if_pos (by omega)]
    · rw [dif_neg hlen]

/-- The transfer of a body: its payloads are the body, its lengths add up to the total it declares,
every step closes and reads as a scene transfer with the segment of its place, and a refused call
leaves the block of the caller as it was. -/
structure Reassembles (body : SceneBody) : Prop where
  steps : (sceneTransfer body).length = sceneSteps
  whole : (sceneTransfer body).flatMap Template.scenePayload = body.toList
  total : ∀ first, buildSceneStep body 0 = some first →
    ((sceneTransfer body).map Template.sceneLen).sum = first.sceneTotal
  reads : ∀ step < sceneSteps, ∀ blk, buildSceneStep body step = some blk → blk.cksumOk ∧
    ∀ frame, CarriesBlock frame blk → checksumVerify frame = true ∧
      (ctrlParse frame).kind = .sceneTransfer ∧ (ctrlParse frame).seg = sceneSeg step
  call : ∀ blk, ∀ step : ℤ, 0 ≤ step → step < sceneSteps → ∃ built,
    buildSceneStep body step.toNat = some built ∧ buildSceneStepCall blk body.toList step = (built, 0)
  refused : ∀ blk bytes, ∀ step : ℤ, ¬ (bytes.length = 8904 ∧ 0 ≤ step ∧ step < sceneSteps) →
    buildSceneStepCall blk bytes step = (blk, -1)

/-- Every scene body reassembles. -/
theorem scene_transfer_reassembles (body : SceneBody) : Reassembles body where
  steps := by
    have hmap : (sceneTransfer body).map (fun _ => ()) = (List.range sceneSteps).map fun _ => () :=
      sceneTransfer_map _ _ fun _ _ _ _ => rfl
    simpa using congrArg List.length hmap
  whole := sceneTransfer_payload body
  total := by
    intro first hfirst
    obtain ⟨blk, hblk, -, htotal⟩ := buildSceneStep_first body
    rw [hfirst] at hblk
    obtain rfl := Option.some.inj hblk
    rw [htotal, sceneTransfer_map Template.sceneLen scenePiece fun step hstep blk hblk =>
      (sceneStep_of_build hstep hblk).len]
    exact sum_pieces scenePiece sceneOff rfl sceneSteps fun k hk => sceneOff_succ hk
  reads := by
    intro step hstep blk hblk
    have hread := sceneStep_of_build hstep hblk
    refine ⟨hread.cksum, fun frame hframe => ⟨hframe.closes.mpr hread.cksum, ?_, ?_⟩⟩
    · rw [hframe.kind, hread.kind]
    · rw [hframe.header.2.2.2.1, hread.seg]
  call := by
    intro blk step hneg hstep
    obtain ⟨body', built, hsame, hbuilt, hcall⟩ :=
      (buildSceneStepCall_eq blk body.toList step).1 ⟨by simp, hneg, hstep⟩
    obtain rfl : body' = body := Vector.toList_inj.mp hsame
    exact ⟨built, hbuilt, hcall⟩
  refused := fun blk bytes step => (buildSceneStepCall_eq blk bytes step).2

end Libreac
