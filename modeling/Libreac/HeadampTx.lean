import Libreac.Bytes

/-!
# The head-amp table

`reac_headamp_tx.c`: the operator's phantom, pad and SENS settings, and the scheduler that decides
which of them the next eligible slot carries. A set cell always holds a legal value; that is a field
of `HeadampTx`, so the builders that read the table need no check of their own.
-/

namespace Libreac

/-- `REAC_HEADAMP_MAX_CH`. -/
def headampMaxCh : ℕ := 48

/-- `REAC_HEADAMP_NPARAMS`: phantom 0, pad 1, SENS 2. -/
def headampNparams : ℕ := 3

/-- `param_value_ok`: phantom and pad are boolean, SENS has 56 steps. -/
def paramValueOk (param : ℕ) (value : UInt8) : Bool :=
  match param with
  | 0 | 1 => value ≤ 0x01
  | 2 => value ≤ 0x37
  | _ => false

/-- `struct reac_headamp_tx`. The cells are indexed `[channel][parameter]`. -/
structure HeadampTx where
  value : ℕ → ℕ → UInt8 := fun _ _ => 0
  set : ℕ → ℕ → Bool := fun _ _ => false
  dirty : ℕ → ℕ → Bool := fun _ _ => false
  active : Bool := false
  replayBase : ℕ := 0
  replayWidth : ℕ := 0
  replayIdx : ℕ := 0
  replayWait : ℕ := 0
  replaySetOnly : Bool := false
  sceneBase : ℕ := 0
  sceneWidth : ℕ := 0
  resweepPeriod : UInt32 := 0
  resweepWait : UInt32 := 0
  /-- Only legal values are ever stored. -/
  valid : ∀ ch param, set ch param = true → paramValueOk param (value ch param) = true := by simp

/-- `reac_headamp_tx_init`. -/
def headampTxInit : HeadampTx := {}

/-- One cell of a table of cells changed. -/
def setCell {α : Type} (cells : ℕ → ℕ → α) (ch param : ℕ) (a : α) : ℕ → ℕ → α :=
  fun c p => if c = ch ∧ p = param then a else cells c p

/-- `reac_headamp_tx_set`; `none` is the source's `-1`. -/
def headampTxSet (t : HeadampTx) (ch param : ℕ) (value : UInt8) : Option HeadampTx :=
  if h : ch < headampMaxCh ∧ paramValueOk param value = true then
    some
      { t with
        value := setCell t.value ch param value
        set := setCell t.set ch param true
        dirty := setCell t.dirty ch param true
        active := true
        valid := by
          intro c p hset
          unfold setCell at hset ⊢
          split at hset
          · rename_i hcp
            rw [if_pos hcp, hcp.2]
            exact h.2
          · rename_i hcp
            rw [if_neg hcp]
            exact t.valid c p hset }
  else none

/-- `reac_headamp_default`: phantom and pad off, SENS non-zero so that the channel enrols. -/
def headampDefault (param : ℕ) : UInt8 := if param = 2 then 0x20 else 0

/-- `reac_headamp_tx_effective`; `none` is a `NULL` table. -/
def headampTxEffective (tx : Option HeadampTx) (ch param : ℕ) : UInt8 :=
  if headampNparams ≤ param then 0
  else
    match tx with
    | none => headampDefault param
    | some t =>
      if ch < headampMaxCh ∧ t.set ch param = true then t.value ch param else headampDefault param

/-- `reac_headamp_tx_arm_scene`. -/
def headampTxArmScene (t : HeadampTx) (base width : ℕ) : HeadampTx :=
  if width = 0 ∨ headampMaxCh ≤ base then t
  else
    let width := if headampMaxCh < base + width then headampMaxCh - base else width
    { t with
      replayBase := base, replayWidth := width, replayIdx := 0, replayWait := 0
      replaySetOnly := false, sceneBase := base, sceneWidth := width, resweepWait := 0 }

/-- `reac_headamp_tx_set_resweep`. -/
def headampTxSetResweep (t : HeadampTx) (frames : UInt32) : HeadampTx :=
  { t with resweepPeriod := frames, resweepWait := 0 }

/-- The re-assert cadence at the end of `reac_headamp_tx_next`. -/
def HeadampTx.resweep (t : HeadampTx) : HeadampTx :=
  if t.resweepPeriod ≠ 0 ∧ t.sceneWidth ≠ 0 then
    if t.resweepPeriod ≤ t.resweepWait + 1 then
      { t with
        resweepWait := 0, replayBase := t.sceneBase, replayWidth := t.sceneWidth
        replayIdx := 0, replayWait := 0, replaySetOnly := true }
    else { t with resweepWait := t.resweepWait + 1 }
  else t

/-- Whether the running replay carries its cell `idx`: a set-only re-assert skips the others. -/
def HeadampTx.replayCarries (t : HeadampTx) (idx : ℕ) : Bool :=
  let c := t.replayBase + idx / headampNparams
  !t.replaySetOnly || (decide (c < headampMaxCh) && t.set c (idx % headampNparams))

/-- `reac_headamp_tx_next`: the record this slot carries, if any. Changed cells go first, one a
call, then the replay, one record every twelve frames. -/
def headampTxNext (t : HeadampTx) : HeadampTx × Option (ℕ × ℕ × UInt8) :=
  if t.active = false ∧ t.replayWidth = 0 then (t, none)
  else
    match (List.range (headampMaxCh * headampNparams)).find? fun idx =>
        t.dirty (idx / headampNparams) (idx % headampNparams) with
    | some idx =>
      let c := idx / headampNparams
      let p := idx % headampNparams
      ({ t with dirty := setCell t.dirty c p false, resweepWait := 0 }, some (c, p, t.value c p))
    | none =>
      if t.replayWidth = 0 then (t.resweep, none)
      else if 0 < t.replayWait then ({ t with replayWait := t.replayWait - 1 }, none)
      else
        let total := t.replayWidth * headampNparams
        match (List.range' t.replayIdx (total - t.replayIdx)).find? t.replayCarries with
        | none => ({ t with replayIdx := max t.replayIdx total, replayWidth := 0 }.resweep, none)
        | some idx =>
          let c := t.replayBase + idx / headampNparams
          let p := idx % headampNparams
          let t' :=
            if total ≤ idx + 1 then { t with replayIdx := idx + 1, replayWidth := 0, resweepWait := 0 }
            else { t with replayIdx := idx + 1, replayWait := 12 - 1, resweepWait := 0 }
          (t', some (c, p, headampTxEffective (some t) c p))

end Libreac
