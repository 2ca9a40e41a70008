import Libreac.Hunt
import Libreac.Proofs.DiscoProofs

/-!
# Proofs: the verdict of the hunt

A step looks at one peer only, the newest foreign master. `heed` is what the hunt makes of it: it is
joined, refused, waited for or ignored, and `huntStep_verdict` is the whole decision in these terms.
A rival is joined or refused only when it has streamed, so without a streaming peer the verdict stays
between hunting and master. The wire is taken only when the rival is ignored; a master that streams is
then overlooked exactly when the newest one hides it.
-/

namespace Libreac

open Reactive (Event)

/-! ## The newest rival -/

/-- The newest foreign master at a step, from the aged table. -/
def Hunt.rival (h : Hunt) (now : ℕ) : Option DiscoEntry :=
  foreignMaster (tableAge h.table now) h.ourMac now

/-- What the hunt makes of its rival. -/
inductive Heed where
  | join | refuse | hold | ignore
  deriving DecidableEq

/-- A pinned slave looks at nobody, a pinned master at boxes only. -/
def heed (pin : Option Role) (kind : RivalKind) (ev : RivalEvidence) : Heed :=
  match pin, ev with
  | some .slave, _ => .ignore
  | some .master, .streams => if kind = .box then .join else .ignore
  | some .master, .wait => if kind = .box then .hold else .ignore
  | some .master, .quiet => .ignore
  | none, .streams =>
    if kind = .pending then .hold else if kind = .unknown then .refuse else .join
  | none, .wait => .hold
  | none, .quiet => if kind = .pending then .hold else .ignore

/-- What the hunt makes of the newest foreign master, if there is one. -/
def Hunt.heeds (h : Hunt) (now : ℕ) : Heed :=
  (h.rival now).elim .ignore fun n => heed h.pin (rivalKindOf n) (n.evidence now)

/-- The verdict when no rival holds the wire. -/
def Hunt.unopposed (h : Hunt) (now : ℕ) : HuntVerdict :=
  match h.pin with
  | some .slave => .slave
  | some .master => .master
  | none => decideVacant (h.arbitrated now) now

section Rival

variable {h : Hunt} {now : ℕ} {n : DiscoEntry}

theorem rival_some (hn : h.rival now = some n) :
    n ∈ (tableAge h.table now).peers.entries ∧ n.mastersAgainst h.ourMac now = true :=
  List.mem_filter.mp (List.argmax_mem hn)

theorem rival_none (hn : h.rival now = none) :
    ∀ e ∈ (tableAge h.table now).peers.entries, e.mastersAgainst h.ourMac now = false := by
  intro e he
  have hempty := List.argmax_eq_none.mp hn
  simpa using List.filter_eq_nil_iff.mp hempty e he

theorem arbitrated_some (hn : h.rival now = some n) :
    (h.arbitrated now).arb.state = .foreign ∧ (h.arbitrated now).arb.rival = rivalKindOf n ∧
      rivalEvidence (h.arbitrated now) now = n.evidence now := by
  have harb : (h.arbitrated now).arb =
      { state := .foreign, mac := some n.mac, pace := .foreignMaster, rival := rivalKindOf n
        rivalChannels := n.channels } := by
    simp only [Hunt.rival] at hn
    simp [Hunt.arbitrated, arbitrate, hn]
  have hfind : (tableAge h.table now).peers.find n.mac = some n :=
    (Roster.find_eq_some_iff _ _ _).mpr ⟨(rival_some hn).1, rfl⟩
  refine ⟨by rw [harb], by rw [harb], ?_⟩
  unfold rivalEvidence
  rw [harb]
  simp only [Hunt.arbitrated, hfind]

theorem arbitrated_none (hn : h.rival now = none) : (h.arbitrated now).arb.state = .none := by
  simp only [Hunt.rival] at hn
  simp [Hunt.arbitrated, arbitrate, hn]

end Rival

theorem heeds_eq (h : Hunt) (now : ℕ) :
    (if (h.arbitrated now).arb.state = .foreign then
      heed h.pin (h.arbitrated now).arb.rival (rivalEvidence (h.arbitrated now) now) else .ignore) =
      h.heeds now := by
  unfold Hunt.heeds
  cases hn : h.rival now with
  | none =>
    rw [arbitrated_none hn]
    rfl
  | some n =>
    obtain ⟨hstate, hkind, hevidence⟩ := arbitrated_some hn
    rw [if_pos hstate, hkind, hevidence]
    rfl

theorem huntDecide_eq (h : Hunt) (now : ℕ) :
    huntDecide h now =
      match (if h.arb.state = .foreign then heed h.pin h.arb.rival (rivalEvidence h now) else .ignore) with
      | .join => .slave
      | .refuse => .refused
      | .hold => h.verdict
      | .ignore =>
        match h.pin with
        | some .slave => .slave
        | some .master => .master
        | none => decideVacant h now := by
  unfold huntDecide decidePinned
  generalize decideVacant h now = vacant
  generalize rivalEvidence h now = ev
  generalize h.arb.rival = kind
  by_cases hforeign : h.arb.state = .foreign
  · rw [if_pos hforeign]
    cases h.pin with
    | none => cases kind <;> cases ev <;> simp [heed, hforeign]
    | some pin => cases pin <;> cases kind <;> cases ev <;> simp [heed, hforeign]
  · rw [if_neg hforeign]
    cases h.pin with
    | none => rw [if_neg hforeign]
    | some pin => cases pin <;> simp [hforeign]

/-- The decision of a step. -/
theorem huntStep_verdict (h : Hunt) (now : ℕ) :
    (huntStep h now).1.verdict =
      match h.heeds now with
      | .join => .slave
      | .refuse => .refused
      | .hold => h.verdict
      | .ignore => h.unopposed now := by
  show huntDecide (h.arbitrated now) now = _
  rw [huntDecide_eq, ← heeds_eq]
  rfl

/-! ## One call -/

section Calls

variable {h : Hunt}

theorem mem_tableAge (t : DiscoTable) (now : ℕ) (e : DiscoEntry) :
    e ∈ (tableAge t now).peers.entries ↔ e ∈ t.peers.entries ∧ e.stale now = false := by
  have hperm := Roster.swapRemove_perm (fun e => !e.stale now) t.peers.entries.length
    t.peers.entries (Nat.le_refl _)
  show e ∈ Roster.swapRemove _ _ _ ↔ _
  rw [hperm.mem_iff, List.mem_filter, Bool.not_eq_true']

theorem decideVacant_eq_master (h : Hunt) (now : ℕ) :
    decideVacant h now = .master ↔ deskGeometryLive h.table h.ourMac now = false ∧
      (h.silenceProven = true ∨
        huntWindowNs ≤ elapsedNs now h.opened ∧ boxPresent h.table now = true) := by
  unfold decideVacant
  split_ifs with hdesk hsilence hwindow hbox
  · simp [hdesk]
  · simp [hdesk, hsilence]
  · simp [hdesk, hsilence, hwindow]
  · simp [hdesk, hbox, Nat.not_lt.mp hwindow]
  · simp [hdesk, hsilence, hbox]

theorem decideVacant_cases (h : Hunt) (now : ℕ) :
    decideVacant h now = .hunting ∨ decideVacant h now = .master := by
  unfold decideVacant
  split_ifs <;> simp

theorem huntObserve_none {bytes : List UInt8} {now : ℕ} (hs : (h.sights bytes).2 = none) :
    huntObserve h bytes now = ({ h with lock := (h.sights bytes).1 }, none) := by
  unfold huntObserve
  simp only [hs]

theorem huntObserve_some {bytes : List UInt8} {now : ℕ} {s : Sighting}
    (hs : (h.sights bytes).2 = some s) :
    huntObserve h bytes now =
      ({ h with
        lock := (h.sights bytes).1, table := (tableObserve h.table s false now).1
        opened := if h.table.peers.entries.isEmpty then now else h.opened },
        some ((tableObserve h.table s false now).2,
          settledSighting (tableObserve h.table s false now).1 s)) := by
  unfold huntObserve
  simp only [hs]

/-- Hearing a frame decides nothing. -/
theorem huntObserve_keeps (h : Hunt) (bytes : List UInt8) (now : ℕ) :
    (huntObserve h bytes now).1.verdict = h.verdict ∧ (huntObserve h bytes now).1.pin = h.pin ∧
      (huntObserve h bytes now).1.ourMac = h.ourMac ∧
      (huntObserve h bytes now).1.silenceProven = h.silenceProven := by
  cases hs : (h.sights bytes).2 with
  | none => rw [huntObserve_none hs]; exact ⟨rfl, rfl, rfl, rfl⟩
  | some s => rw [huntObserve_some hs]; exact ⟨rfl, rfl, rfl, rfl⟩

theorem heed_of_ne_streams (pin : Option Role) (kind : RivalKind) {ev : RivalEvidence}
    (hev : ev ≠ .streams) : heed pin kind ev = .hold ∨ heed pin kind ev = .ignore := by
  cases ev with
  | streams => exact absurd rfl hev
  | wait => rcases pin with _ | (_ | _) <;> cases kind <;> simp [heed]
  | quiet => rcases pin with _ | (_ | _) <;> cases kind <;> simp [heed]

/-- A rival is joined or refused only once it has streamed. -/
theorem heeds_of_unstreamed {now : ℕ} (hnone : ∀ p ∈ h.table.peers.entries, p.streamed = false) :
    h.heeds now = .hold ∨ h.heeds now = .ignore := by
  unfold Hunt.heeds
  cases hn : h.rival now with
  | none => exact .inr rfl
  | some n =>
    have hmem := ((mem_tableAge _ _ _).mp (rival_some hn).1).1
    have hstreams : n.evidence now ≠ .streams := by
      unfold DiscoEntry.evidence
      rw [hnone n hmem]
      split_ifs <;> simp_all
    exact heed_of_ne_streams h.pin (rivalKindOf n) hstreams

end Calls

/-! ## Frames -/

/-- A control block that sums to zero. -/
def closedBlock (body : List UInt8) : List UInt8 :=
  let block := body ++ List.replicate (31 - body.length) 0
  block ++ [0 - byteSum (fun i => block.getD i 0) 31]

/-- A broadcast frame of `n` channels. -/
def broadcastFrame (src : Mac) (type body : List UInt8) (n : ℕ) : List UInt8 :=
  broadcastMac.toList ++ src.toList ++ [0x88, 0x19, 0, 0] ++ type ++ closedBlock body ++
    List.replicate (36 * n) 0 ++ [0xc2, 0xea]

/-- A master announce of `slots` slots. -/
def announceFrame (src : Mac) (slots : UInt8) (n : ℕ) : List UInt8 :=
  broadcastFrame src [0xcf, 0xea]
    ([0xff, 0xff, 0x01, 0x00, 0x01, 0x03, 0x0d, 0x01, 0x04] ++ src.toList ++ [slots, slots]) n

/-- A heartbeat of a box. -/
def heartbeatFrame (src : Mac) : List UInt8 :=
  broadcastFrame src [0xcd, 0xea] [0x01, 0x03, 0x00, 0x01, 0x81] 8

/-- Our own address on the sample wires. -/
def huntMac : Mac := Vector.ofFn fun i => if i = 5 then 1 else 0

/-- The address of a box. -/
def huntBox : Mac := Vector.ofFn fun i => if i = 5 then 2 else 0

/-- The address of a desk. -/
def huntDesk : Mac := Vector.ofFn fun i => if i = 5 then 3 else 0

/-- The address a frame is forged under. -/
def huntForger : Mac := Vector.ofFn fun i => if i = 5 then 6 else 0

/-! ## Without a streaming rival -/

section Unstreamed

/-- The verdict leaves the role open or takes it, and only a master was pinned. -/
def Unmoved (h : Hunt) : Prop :=
  (h.verdict = .hunting ∨ h.verdict = .master) ∧ (h.pin = none ∨ h.pin = some .master)

/-- No peer in the table has streamed. -/
def NoneStreamed (h : Hunt) : Prop := ∀ p ∈ h.table.peers.entries, p.streamed = false

/-- Every foreign master in the table was last heard more than the quiet limit ago. -/
def RivalsQuiet (h : Hunt) (now : ℕ) : Prop :=
  ∀ p ∈ h.table.peers.entries, p.role = .master → p.mac ≠ h.ourMac →
    p.lastSeen + huntRivalQuietNs < now

theorem unopposed_unmoved {h : Hunt} (hpin : h.pin = none ∨ h.pin = some .master) (now : ℕ) :
    h.unopposed now = .hunting ∨ h.unopposed now = .master := by
  unfold Hunt.unopposed
  rcases hpin with hpin | hpin
  · rw [hpin]
    exact decideVacant_cases _ now
  · rw [hpin]
    exact .inr rfl

theorem huntStep_unmoved {h : Hunt} (hinv : Unmoved h) (hnone : NoneStreamed h) (now : ℕ) :
    Unmoved (huntStep h now).1 := by
  refine ⟨?_, hinv.2⟩
  rw [huntStep_verdict]
  rcases heeds_of_unstreamed hnone with hheeds | hheeds
  · rw [hheeds]
    exact hinv.1
  · rw [hheeds]
    exact unopposed_unmoved hinv.2 now

theorem huntCall_unmoved {h : Hunt} {i : HuntInput} (hinv : Unmoved h) (hnone : NoneStreamed h)
    (hpin : ∀ role, i = .pin role → role = .master) : Unmoved (huntCall h i).1 := by
  cases i with
  | observe bytes now =>
    obtain ⟨hverdict, hkept, -⟩ := huntObserve_keeps h bytes now
    exact ⟨by rw [huntCall, hverdict]; exact hinv.1, by rw [huntCall, hkept]; exact hinv.2⟩
  | step now => exact huntStep_unmoved hinv hnone now
  | pin role =>
    obtain rfl := hpin role rfl
    exact ⟨hinv.1, .inr rfl⟩
  | silenceProven => exact hinv

/-- A rival that is quiet at the step is ignored by a pinned master. -/
theorem heeds_of_quiet {h : Hunt} {now : ℕ} (hnone : NoneStreamed h) (hquiet : RivalsQuiet h now)
    (hpin : h.pin = some .master) : h.heeds now = .ignore := by
  unfold Hunt.heeds
  cases hn : h.rival now with
  | none => rfl
  | some n =>
    obtain ⟨hmem, hmaster⟩ := rival_some hn
    have hin := ((mem_tableAge _ _ _).mp hmem).1
    simp only [DiscoEntry.mastersAgainst, decide_eq_true_eq] at hmaster
    have hlast := hquiet n hin hmaster.1 hmaster.2.1
    have hev : n.evidence now = .quiet := by
      unfold DiscoEntry.evidence
      rw [hnone n hin, if_neg (by decide), if_neg (by omega)]
    rw [Option.elim_some, hev, hpin]
    rfl

theorem unstreamed_rival_never_moves_role (ourMac : Mac) (t₀ : ℕ) (is : List HuntInput)
    (hpin : ∀ role, .pin role ∈ is → role = .master)
    (hnone : ∀ log e, huntMachine.StepOf (huntInit ourMac t₀) is log e → NoneStreamed e.pre)
    (log : List (Event Hunt HuntInput HuntOut)) (e : Event Hunt HuntInput HuntOut)
    (he : huntMachine.StepOf (huntInit ourMac t₀) is log e) :
    e.post.verdict ≠ .slave ∧ e.post.verdict ≠ .refused ∧
      ∀ now, e.input = .step now → e.pre.pin = some .master → RivalsQuiet e.pre now →
        e.post.verdict = .master := by
  have hlegal : ∀ log e, huntMachine.StepOf (huntInit ourMac t₀) is log e →
      NoneStreamed e.pre ∧ ∀ role, e.input = .pin role → role = .master := by
    intro log e he
    refine ⟨hnone log e he, ?_⟩
    intro role hrole
    exact hpin role (hrole ▸ he.input_mem huntMachine)
  obtain ⟨hinv, hevent⟩ := huntMachine.trace_invariant_at (H := fun _ h => Unmoved h)
    (L := fun _ e => NoneStreamed e.pre ∧ ∀ role, e.input = .pin role → role = .master)
    ⟨.inl rfl, .inl rfl⟩ (fun _ h i hinv hl => huntCall_unmoved hinv hl.1 hl.2) hlegal he
  have hpost : e.post = (huntCall e.pre e.input).1 := congrArg Event.post hevent
  obtain ⟨hquietly, hpins⟩ := hlegal log e he
  have hunmoved : Unmoved e.post := by
    rw [hpost]
    exact huntCall_unmoved hinv hquietly hpins
  refine ⟨?_, ?_, ?_⟩
  · rcases hunmoved.1 with h | h <;> rw [h] <;> simp
  · rcases hunmoved.1 with h | h <;> rw [h] <;> simp
  · intro now hstep hmaster hquiet
    rw [hpost, hstep, huntCall, huntStep_verdict, heeds_of_quiet hquietly hquiet hmaster]
    show e.pre.unopposed now = _
    rw [Hunt.unopposed, hmaster]

instance (h : Hunt) : Decidable (NoneStreamed h) := inferInstanceAs (Decidable (∀ _ ∈ _, _))

instance (h : Hunt) (now : ℕ) : Decidable (RivalsQuiet h now) :=
  inferInstanceAs (Decidable (∀ _ ∈ _, _ → _ → _))

/-- A pinned master hears one forged announce and is asked again once it is quiet. -/
def forgedOnceRun : List HuntInput :=
  [.pin .master, .observe (announceFrame huntForger 8 8) 1000000, .step 1000000]

/-- That later step. -/
def forgedOnceStep : Event Hunt HuntInput HuntOut :=
  huntMachine.event (huntMachine.run (huntInit huntMac 0) forgedOnceRun) (.step 102000000)

theorem unstreamed_rival_forged_once :
    RivalsQuiet forgedOnceStep.pre 102000000 ∧ forgedOnceStep.pre.table.peers.entries.length = 1 ∧
      forgedOnceStep.post.verdict = .master := by
  have hnone : ∀ log e, huntMachine.StepOf (huntInit huntMac 0)
      (forgedOnceRun ++ [.step 102000000]) log e → NoneStreamed e.pre := by
    apply huntMachine.forall_stepOf (P := fun _ e => NoneStreamed e.pre)
    decide +kernel
  have hpin : ∀ role, .pin role ∈ forgedOnceRun ++ [.step 102000000] → role = .master := by
    simp [forgedOnceRun]
  have hquiet : RivalsQuiet forgedOnceStep.pre 102000000 := by decide +kernel
  obtain ⟨-, -, hmaster⟩ :=
    unstreamed_rival_never_moves_role huntMac 0 _ hpin hnone _ forgedOnceStep
      (huntMachine.stepOf_last _ _ _)
  exact ⟨hquiet, by decide +kernel, hmaster 102000000 rfl (by decide +kernel) hquiet⟩

end Unstreamed

/-! ## Taking the wire -/

section Taking

/-- The time of a call that has one. -/
def HuntInput.time? : HuntInput → Option ℕ
  | .observe _ now => some now
  | .step now => some now
  | .pin _ => none
  | .silenceProven => none

/-- Times do not go back, from the opening on. -/
def RisingTimes (t₀ : ℕ) (is : List HuntInput) : Prop :=
  (∀ i ∈ is, ∀ t ∈ i.time?, t₀ ≤ t) ∧ is.Pairwise fun i j => ∀ t ∈ i.time?, ∀ t' ∈ j.time?, t ≤ t'

instance (t₀ : ℕ) (is : List HuntInput) : Decidable (RisingTimes t₀ is) :=
  inferInstanceAs (Decidable (_ ∧ _))

/-- The call heard a frame that is evidence of something. -/
def sighted (e : Event Hunt HuntInput HuntOut) : Bool :=
  match e.input, e.out with
  | .observe _ _, .observed (some _) => true
  | _, _ => false

/-- What a hunt that takes the wire at `now` must have found: no master that streams, no broadcast
sender still within its cadence, and either the silence licence or a box on a wire first heard a whole
window ago. -/
structure WireVacant (ourMac : Mac) (log : List (Event Hunt HuntInput HuntOut))
    (e : Event Hunt HuntInput HuntOut) (now : ℕ) : Prop where
  noMaster : ∀ p ∈ e.post.table.peers.entries, p.stale now = false → p.role = .master →
    p.mac ≠ ourMac → p.streamed = false
  noSender : ∀ p ∈ e.post.table.peers.entries, p.stale now = false → p.role = .unknown →
    p.decl = none → 0 < p.channels → p.firstSeen + masterOnlyCadenceNs 0 ≤ now
  licence : e.pre.silenceProven = true ∨
    (∃ l t, log.find? sighted = some l ∧ l.input.time? = some t ∧ t + huntWindowNs ≤ now) ∧
      boxPresent e.post.table now = true

/-- The newest foreign master is ignored while an older one has streamed. -/
def Shadowed (h : Hunt) (now : ℕ) : Prop :=
  ∃ n, h.rival now = some n ∧ n.evidence now = .quiet ∧ rivalKindOf n ≠ .pending ∧
    ∃ p ∈ h.table.peers.entries, p.mastersAgainst h.ourMac now = true ∧ p.streamed = true

/-- What the table and the window of an unpinned hunt have to do with what was heard. -/
structure Anchored (ourMac : Mac) (t₀ : ℕ) (log : List (Event Hunt HuntInput HuntOut)) (h : Hunt) :
    Prop where
  ours : h.ourMac = ourMac
  unpinned : h.pin = none
  notUs : h.table.peers.find ourMac = none
  opened : h.opened = t₀ ∨ ∃ l ∈ log, l.input.time? = some h.opened
  heard : h.table.peers.entries ≠ [] →
    ∃ l t, log.find? sighted = some l ∧ l.input.time? = some t ∧ t ≤ h.opened

/-- A sighting is never of our own echo. -/
theorem sights_mac {h : Hunt} {bytes : List UInt8} {s : Sighting} (hs : (h.sights bytes).2 = some s) :
    s.mac ≠ h.ourMac := by
  unfold Hunt.sights discoClassifyOnSegment classifyCore at hs
  dsimp only at hs
  split_ifs at hs with hnone hours hctrl hsum hlock <;> (rw [← Option.some.inj hs]; exact hours)

theorem tableObserve_find_other {t : DiscoTable} {s : Sighting} {m : Mac} (hm : m ≠ s.mac)
    (owned : Bool) (now : ℕ) :
    (tableObserve t s owned now).1.peers.find m = t.peers.find m := by
  cases hs : t.peers.find s.mac with
  | some e => rw [(tableObserve_known hs owned now).2, if_neg hm]
  | none =>
    by_cases hfull : t.peers.full = true
    · unfold tableObserve
      split
      case h_1 e hsome =>
        rw [hs] at hsome
        cases hsome
      case h_2 =>
        rw [dif_pos hfull]
        dsimp only
        split_ifs <;> rfl
    · rw [(tableObserve_new hs (by simpa using hfull) owned now).2, if_neg hm]

theorem sighted_time {l : Event Hunt HuntInput HuntOut} (h : sighted l = true) :
    ∃ t, l.input.time? = some t := by
  unfold sighted at h
  cases hi : l.input with
  | observe bytes now => exact ⟨now, rfl⟩
  | step now => exact ⟨now, rfl⟩
  | pin role => rw [hi] at h; cases h
  | silenceProven => rw [hi] at h; cases h

theorem find?_sighted_concat {log : List (Event Hunt HuntInput HuntOut)}
    {e l : Event Hunt HuntInput HuntOut} (h : log.find? sighted = some l) :
    (log ++ [e]).find? sighted = some l := by
  rw [List.find?_append, h, Option.some_or]

theorem Anchored.observe {ourMac : Mac} {t₀ : ℕ} {log : List (Event Hunt HuntInput HuntOut)} {h : Hunt}
    (hinv : Anchored ourMac t₀ log h) {bytes : List UInt8} {now : ℕ}
    (hlater : ∀ l ∈ log, ∀ t ∈ l.input.time?, t ≤ now) :
    Anchored ourMac t₀ (log ++ [huntMachine.event h (.observe bytes now)])
      (huntObserve h bytes now).1 := by
  obtain ⟨-, hpin, hours, -⟩ := huntObserve_keeps h bytes now
  cases hs : (h.sights bytes).2 with
  | none =>
    rw [huntObserve_none hs]
    refine ⟨hinv.ours, hinv.unpinned, hinv.notUs, ?_, ?_⟩
    · refine hinv.opened.imp_right ?_
      rintro ⟨l, hl, ht⟩
      exact ⟨l, List.mem_append_left _ hl, ht⟩
    · intro hne
      obtain ⟨l, t, hl, ht⟩ := hinv.heard hne
      exact ⟨l, t, find?_sighted_concat hl, ht⟩
  | some s =>
    have hsighted : sighted (huntMachine.event h (.observe bytes now)) = true := by
      simp [sighted, huntCall, huntObserve_some hs]
    have hother : ourMac ≠ s.mac := by
      rw [← hinv.ours]
      exact (sights_mac hs).symm
    rw [huntObserve_some hs]
    refine ⟨hinv.ours, hinv.unpinned, ?_, ?_, ?_⟩
    · rw [tableObserve_find_other hother]
      exact hinv.notUs
    · dsimp only
      split_ifs with hempty
      · exact .inr ⟨_, List.mem_append_right _ (List.mem_singleton_self _), rfl⟩
      · refine hinv.opened.imp_right ?_
        rintro ⟨l, hl, ht⟩
        exact ⟨l, List.mem_append_left _ hl, ht⟩
    · intro _
      dsimp only
      split_ifs with hempty
      · -- The first sighting is this one, or it was made at an earlier time.
        cases hl : log.find? sighted with
        | some l =>
          obtain ⟨t, ht⟩ := sighted_time (List.find?_some hl)
          have hle := hlater l (List.mem_of_find?_eq_some hl) t ht
          exact ⟨l, t, find?_sighted_concat hl, ht, hle⟩
        | none =>
          refine ⟨huntMachine.event h (.observe bytes now), now, ?_, rfl, Nat.le_refl now⟩
          rw [List.find?_append, hl, Option.none_or, List.find?_singleton, if_pos hsighted]
      · have hne : h.table.peers.entries ≠ [] := by simpa using hempty
        obtain ⟨l, t, hl, ht⟩ := hinv.heard hne
        exact ⟨l, t, find?_sighted_concat hl, ht⟩

theorem Anchored.step {ourMac : Mac} {t₀ : ℕ} {log : List (Event Hunt HuntInput HuntOut)} {h : Hunt}
    (hinv : Anchored ourMac t₀ log h) (e : Event Hunt HuntInput HuntOut) (now : ℕ) :
    Anchored ourMac t₀ (log ++ [e]) (huntStep h now).1 := by
  refine ⟨hinv.ours, hinv.unpinned, ?_, ?_, ?_⟩
  · show (tableAge h.table now).peers.find ourMac = none
    rw [tableAge_find, hinv.notUs]
    rfl
  · refine hinv.opened.imp_right ?_
    rintro ⟨l, hl, ht⟩
    exact ⟨l, List.mem_append_left _ hl, ht⟩
  · intro hne
    obtain ⟨p, hp⟩ := List.exists_mem_of_ne_nil _ hne
    have hbefore := ((mem_tableAge h.table now p).mp hp).1
    obtain ⟨l, t, hl, ht⟩ := hinv.heard (List.ne_nil_of_mem hbefore)
    exact ⟨l, t, find?_sighted_concat hl, ht⟩

theorem Anchored.call {ourMac : Mac} {t₀ : ℕ} {log : List (Event Hunt HuntInput HuntOut)} {h : Hunt}
    {i : HuntInput} (hinv : Anchored ourMac t₀ log h) (hpin : ∀ role, i ≠ .pin role)
    (hlater : ∀ l ∈ log, ∀ t ∈ l.input.time?, ∀ t' ∈ i.time?, t ≤ t') :
    Anchored ourMac t₀ (log ++ [huntMachine.event h i]) (huntCall h i).1 := by
  cases i with
  | observe bytes now => exact hinv.observe fun l hl t ht => hlater l hl t ht now rfl
  | step now => exact hinv.step _ now
  | pin role => exact absurd rfl (hpin role)
  | silenceProven =>
    refine ⟨hinv.ours, hinv.unpinned, hinv.notUs, ?_, ?_⟩
    · refine hinv.opened.imp_right ?_
      rintro ⟨l, hl, ht⟩
      exact ⟨l, List.mem_append_left _ hl, ht⟩
    · intro hne
      obtain ⟨l, t, hl, ht⟩ := hinv.heard hne
      exact ⟨l, t, find?_sighted_concat hl, ht⟩

/-- A step takes the wire only when it ignores its rival and finds the wire vacant. -/
theorem huntStep_takes {h : Hunt} {now : ℕ} (hpin : h.pin = none) (hbefore : h.verdict ≠ .master)
    (htake : (huntStep h now).1.verdict = .master) :
    h.heeds now = .ignore ∧ decideVacant (h.arbitrated now) now = .master := by
  rw [huntStep_verdict] at htake
  cases hheeds : h.heeds now with
  | join => rw [hheeds] at htake; cases htake
  | refuse => rw [hheeds] at htake; cases htake
  | hold => rw [hheeds] at htake; exact absurd htake hbefore
  | ignore =>
    rw [hheeds] at htake
    simp only [Hunt.unopposed, hpin] at htake
    exact ⟨rfl, htake⟩

theorem heed_none_ignore {kind : RivalKind} {ev : RivalEvidence} (h : heed none kind ev = .ignore) :
    ev = .quiet ∧ kind ≠ .pending := by
  cases ev <;> cases kind <;> simp_all [heed]

/-- An ignored rival hides no master that streams, unless it shadows one. -/
theorem no_master_of_ignore {h : Hunt} {now : ℕ} (hpin : h.pin = none) (hheeds : h.heeds now = .ignore)
    (hshadow : ¬ Shadowed h now) {p : DiscoEntry} (hp : p ∈ h.table.peers.entries)
    (hmaster : p.mastersAgainst h.ourMac now = true) : p.streamed = false := by
  by_contra hstreamed
  have hlive : p.stale now = false := by
    simp only [DiscoEntry.mastersAgainst, decide_eq_true_eq] at hmaster
    exact hmaster.2.2
  cases hn : h.rival now with
  | none =>
    have hnot := rival_none hn p ((mem_tableAge _ _ _).mpr ⟨hp, hlive⟩)
    rw [hmaster] at hnot
    cases hnot
  | some n =>
    unfold Hunt.heeds at hheeds
    rw [hn, Option.elim_some, hpin] at hheeds
    obtain ⟨hquiet, hpending⟩ := heed_none_ignore hheeds
    exact hshadow ⟨n, hn, hquiet, hpending, p, hp, hmaster, by simpa using hstreamed⟩

/-- A sender that is not held any more has been heard for a whole cadence. -/
theorem no_sender_of_not_live {t : DiscoTable} {ourMac : Mac} {now : ℕ}
    (hdesk : deskGeometryLive t ourMac now = false) {p : DiscoEntry} (hp : p ∈ t.peers.entries)
    (hlive : p.stale now = false) (hours : p.mac ≠ ourMac) (hrole : p.role = .unknown)
    (hdecl : p.decl = none) (hch : 0 < p.channels) :
    p.firstSeen + masterOnlyCadenceNs 0 ≤ now := by
  unfold deskGeometryLive at hdesk
  have hkind := List.any_eq_false.mp hdesk p hp
  simp only [hlive, hours, hrole, hch, decide_eq_true_eq, ne_eq, not_false_eq_true, true_and] at hkind
  by_contra hearly
  apply hkind
  unfold senderKind
  rw [if_neg (by simp [hdecl, hrole]), if_neg (by omega), if_pos (by omega)]

theorem elapsedNs_le {now since : ℕ} (h : since ≤ now) : elapsedNs now since ≤ now - since := by
  unfold elapsedNs
  have hsplit : now + 18446744073709551616 - since = now - since + 18446744073709551616 := by omega
  rw [hsplit, Nat.add_mod_right]
  exact Nat.mod_le _ _

theorem hunt_takes_vacant_wire (ourMac : Mac) (t₀ : ℕ) (is : List HuntInput)
    (hpin : ∀ role, .pin role ∉ is) (htimes : RisingTimes t₀ is)
    (hshadow : ∀ log e now, huntMachine.StepOf (huntInit ourMac t₀) is log e →
      e.input = .step now → ¬ Shadowed e.pre now)
    (log : List (Event Hunt HuntInput HuntOut)) (e : Event Hunt HuntInput HuntOut) (now : ℕ)
    (he : huntMachine.StepOf (huntInit ourMac t₀) is log e) (hstep : e.input = .step now)
    (hbefore : e.pre.verdict ≠ .master) (htake : e.post.verdict = .master) :
    WireVacant ourMac log e now := by
  have hlegal : ∀ log e, huntMachine.StepOf (huntInit ourMac t₀) is log e →
      (∀ role, e.input ≠ .pin role) ∧
        ∀ l ∈ log, ∀ t ∈ l.input.time?, ∀ t' ∈ e.input.time?, t ≤ t' := by
    intro log e he
    constructor
    · intro role hrole
      exact hpin role (hrole ▸ he.input_mem huntMachine)
    · intro l hl
      exact he.of_pairwise huntMachine htimes.2 hl
  have hstart : Anchored ourMac t₀ [] (huntInit ourMac t₀) :=
    ⟨rfl, rfl, rfl, .inl rfl, fun hne => absurd rfl hne⟩
  obtain ⟨hinv, hevent⟩ := huntMachine.trace_invariant_at hstart
    (L := fun log e => (∀ role, e.input ≠ .pin role) ∧
      ∀ l ∈ log, ∀ t ∈ l.input.time?, ∀ t' ∈ e.input.time?, t ≤ t')
    (fun _ _ _ hinv hl => hinv.call hl.1 hl.2) hlegal he
  have hpost : e.post = (huntStep e.pre now).1 := by
    rw [hevent, hstep]
    rfl
  have htable : e.post.table = tableAge e.pre.table now := by rw [hpost]; rfl
  obtain ⟨hheeds, hvacant⟩ := huntStep_takes hinv.unpinned hbefore (hpost ▸ htake)
  obtain ⟨hdesk, hlicence⟩ := (decideVacant_eq_master _ now).mp hvacant
  refine ⟨?_, ?_, ?_⟩
  · intro p hp hlive hrole hours
    rw [htable] at hp
    have hmaster : p.mastersAgainst e.pre.ourMac now = true := by
      simp [DiscoEntry.mastersAgainst, hrole, hlive, hinv.ours, hours]
    exact no_master_of_ignore hinv.unpinned hheeds (hshadow log e now he hstep)
      ((mem_tableAge _ _ _).mp hp).1 hmaster
  · intro p hp hlive hrole hdecl hch
    have hours : p.mac ≠ e.pre.ourMac := by
      rintro hmac
      have hfind := (Roster.find_eq_some_iff e.pre.table.peers ourMac p).mpr
        ⟨((mem_tableAge _ _ _).mp (htable ▸ hp)).1, hmac.trans hinv.ours⟩
      rw [hinv.notUs] at hfind
      cases hfind
    rw [htable] at hp
    exact no_sender_of_not_live hdesk hp hlive hours hrole hdecl hch
  · refine hlicence.imp id ?_
    rintro ⟨hwindow, hbox⟩
    have hne : e.pre.table.peers.entries ≠ [] := by
      intro hempty
      obtain ⟨p, hp, -⟩ := List.any_eq_true.mp hbox
      have hin := ((mem_tableAge e.pre.table now p).mp hp).1
      rw [hempty] at hin
      cases hin
    obtain ⟨l, t, hl, ht, hle⟩ := hinv.heard hne
    have hopened : e.pre.opened ≤ now := by
      have hnow : now ∈ e.input.time? := by rw [hstep]; rfl
      rcases hinv.opened with hopened | ⟨l', hl', hopened⟩
      · rw [hopened]
        exact htimes.1 _ (he.input_mem huntMachine) now hnow
      · exact he.of_pairwise huntMachine htimes.2 hl' _ hopened now hnow
    have helapsed := elapsedNs_le hopened
    refine ⟨⟨l, t, hl, ht, ?_⟩, htable ▸ hbox⟩
    have hopened' : (e.pre.arbitrated now).opened = e.pre.opened := rfl
    rw [hopened'] at hwindow
    unfold huntWindowNs at *
    omega

/-- A box is heard and nobody else. -/
def boxAloneRun : List HuntInput := [.observe (heartbeatFrame huntBox) 0]

/-- The step that takes the wire from nobody. -/
def boxAloneStep : Event Hunt HuntInput HuntOut :=
  huntMachine.event (huntMachine.run (huntInit huntMac 0) boxAloneRun) (.step 3000000000)

theorem hunt_takes_wire_of_box :
    boxAloneStep.post.verdict = .master ∧
      WireVacant huntMac (huntMachine.trace (huntInit huntMac 0) boxAloneRun) boxAloneStep
        3000000000 := by
  have hpin : ∀ role, .pin role ∉ boxAloneRun ++ [.step 3000000000] := by simp [boxAloneRun]
  have hshadow : ∀ log e now, huntMachine.StepOf (huntInit huntMac 0)
      (boxAloneRun ++ [.step 3000000000]) log e → e.input = .step now → ¬ Shadowed e.pre now := by
    have hrival : ∀ log e, huntMachine.StepOf (huntInit huntMac 0)
        (boxAloneRun ++ [.step 3000000000]) log e → ∀ now ∈ e.input.time?, (e.pre.rival now).isNone = true := by
      apply huntMachine.forall_stepOf
        (P := fun _ e => ∀ now ∈ e.input.time?, (e.pre.rival now).isNone = true)
      decide +kernel
    rintro log e now he hstep ⟨n, hn, -⟩
    have hnone := hrival log e he now (by rw [hstep]; rfl)
    rw [hn] at hnone
    cases hnone
  have htaken : boxAloneStep.post.verdict = .master := by decide +kernel
  refine ⟨htaken, ?_⟩
  exact hunt_takes_vacant_wire huntMac 0 _ hpin (by decide +kernel) hshadow _ _ _
    (huntMachine.stepOf_last _ _ _) rfl (by decide +kernel) htaken

/-- A desk streams and stops, one frame is forged after it, and a box is heard. -/
def shadowedDeskRun : List HuntInput :=
  (List.range 8).map (fun k => .observe (announceFrame huntDesk 40 40) (3000000 * k)) ++
    [.observe (announceFrame huntForger 8 8) 30000000, .observe (heartbeatFrame huntBox) 40000000]

/-- The step that takes the wire from the desk. -/
def shadowedDeskStep : Event Hunt HuntInput HuntOut :=
  huntMachine.event (huntMachine.run (huntInit huntMac 0) shadowedDeskRun) (.step 3000000000)

/-- The forged frame is newer than the desk's last, so nobody looks at the desk. -/
theorem hunt_takes_shadowed_desk :
    (∀ role, .pin role ∉ shadowedDeskRun ++ [.step 3000000000]) ∧
      RisingTimes 0 (shadowedDeskRun ++ [.step 3000000000]) ∧
      huntMachine.StepOf (huntInit huntMac 0) (shadowedDeskRun ++ [.step 3000000000])
        (huntMachine.trace (huntInit huntMac 0) shadowedDeskRun) shadowedDeskStep ∧
      shadowedDeskStep.pre.verdict ≠ .master ∧ shadowedDeskStep.post.verdict = .master ∧
      ¬ WireVacant huntMac (huntMachine.trace (huntInit huntMac 0) shadowedDeskRun) shadowedDeskStep
        3000000000 := by
  have hdesk : ∃ p ∈ shadowedDeskStep.post.table.peers.entries,
      p.stale 3000000000 = false ∧ p.role = .master ∧ p.mac ≠ huntMac ∧ p.streamed = true := by
    decide +kernel
  refine ⟨by simp [shadowedDeskRun], by decide +kernel, huntMachine.stepOf_last _ _ _,
    by decide +kernel, by decide +kernel, ?_⟩
  intro hvacant
  obtain ⟨p, hp, hlive, hrole, hours, hstreamed⟩ := hdesk
  rw [hvacant.noMaster p hp hlive hrole hours] at hstreamed
  cases hstreamed

end Taking

end Libreac
