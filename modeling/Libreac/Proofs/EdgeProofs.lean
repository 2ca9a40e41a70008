import Mathlib.Data.Finset.Card
import Mathlib.Data.Finset.Prod
import Libreac.HeadampRing
import Libreac.Proofs.HeadampProofs

/-!
# Proofs: no head-amp edge is lost

A cell that was set is dirty or was last sent with the value it holds, whatever the replay, its stride
and the re-assert do meanwhile; one call clears one dirty cell. In front of the table, the command ring
stands for a queue: what the producer has published is what the consumer has applied, then what it has
taken off the ring, then the queue. Each phase of a thread says what it knows of the indices
(`Producer.Ok`, `Consumer.Ok`), and the two only meet in the number of cells taken.
-/

namespace Libreac

open Reactive (Event)

/-! ## Commands as words -/

theorem headampPack_toNat (cmd : HeadampCmd) :
    (headampPack cmd).toNat = cmd.1.toNat * 65536 + cmd.2.1.toNat * 256 + cmd.2.2.toNat := by
  obtain ⟨c, p, v⟩ := cmd
  have hc := c.toNat_lt
  have hp := p.toNat_lt
  have hv := v.toNat_lt
  have hhigh : c.toNat <<< ((16 : UInt32).toNat % 32) % 2 ^ 32 = c.toNat <<< 16 := by
    simp [Nat.shiftLeft_eq]
    omega
  have hmid : p.toNat <<< ((8 : UInt32).toNat % 32) % 2 ^ 32 = p.toNat <<< 8 := by
    simp [Nat.shiftLeft_eq]
    omega
  simp only [headampPack, UInt32.toNat_or, UInt32.toNat_shiftLeft, UInt8.toNat_toUInt32]
  rw [hhigh, hmid, Nat.or_assoc, ← Nat.shiftLeft_add_eq_or_of_lt (by omega : v.toNat < 2 ^ 8),
    ← Nat.shiftLeft_add_eq_or_of_lt (by simp [Nat.shiftLeft_eq]; omega), Nat.shiftLeft_eq,
    Nat.shiftLeft_eq]
  omega

/-- A command survives its trip through the ring in one piece. -/
theorem headampUnpack_pack (cmd : HeadampCmd) : headampUnpack (headampPack cmd) = cmd := by
  obtain ⟨c, p, v⟩ := cmd
  have hc := c.toNat_lt
  have hp := p.toNat_lt
  have hv := v.toNat_lt
  have hpack := headampPack_toNat (c, p, v)
  dsimp only at hpack
  have hmask : ∀ n : ℕ, n &&& 255 = n % 256 := fun n => Nat.and_two_pow_sub_one_eq_mod n 8
  refine Prod.ext ?_ (Prod.ext ?_ ?_) <;> apply UInt8.toNat_inj.mp <;>
    simp [headampUnpack, hmask, hpack, Nat.shiftRight_eq_div_pow] <;> omega

/-! ## The command ring -/

section Ring

abbrev RingEvent := Event CmdRing RingInput RingOut

/-- The commands the producer has published, in order. -/
def acceptedOf (log : List RingEvent) : List HeadampCmd :=
  log.filterMap fun e =>
    match e.out with
    | .accepted cmd => some cmd
    | _ => none

/-- The commands the consumer has applied, in order. -/
def appliedOf (log : List RingEvent) : List HeadampCmd :=
  log.filterMap fun e =>
    match e.out with
    | .applied cmd => some cmd
    | _ => none

/-- What the producer knows: it has the head, and past its check there is room. -/
def Producer.Ok (r : WordRing UInt32) : Producer → Prop
  | .idle => True
  | .readTail _ h => h = r.head
  | .writeCell _ h => h = r.head ∧ r.count < cmdRingCells
  | .writeHead cmd h => h = r.head ∧ r.count < cmdRingCells ∧
      r.cells (WordRing.slot cmdRingCells h) = headampPack cmd

/-- What the consumer knows: it has the tail, and past its check there is a command under it. -/
def Consumer.Ok (r : WordRing UInt32) : Consumer → Prop
  | .idle => True
  | .readHead t => t = r.tail
  | .readCell t => t = r.tail ∧ r.head ≠ r.tail
  | .writeTail t w => t = r.tail ∧ r.head ≠ r.tail ∧ w = r.cells (WordRing.slot cmdRingCells r.tail)
  | .apply t _ => t = r.tail

/-- The word the consumer has taken off the ring and not yet applied. -/
def Consumer.inFlight : Consumer → List UInt32
  | .apply _ w => [w]
  | _ => []

/-- The commands on their way, oldest first. -/
def CmdRing.pending (s : CmdRing) : List HeadampCmd :=
  (s.consumer.inFlight ++ s.ring.contents cmdRingCells).map headampUnpack

structure RingInv (t₀ : HeadampTx) (log : List RingEvent) (s : CmdRing) : Prop where
  producer : s.producer.Ok s.ring
  consumer : s.consumer.Ok s.ring
  fits : s.ring.count ≤ cmdRingCells
  queue : acceptedOf log = appliedOf log ++ s.pending
  table : s.table = (appliedOf log).foldl applyCmd t₀

theorem cmdRingCells_dvd : cmdRingCells ∣ 4294967296 := ⟨33554432, rfl⟩

variable {t₀ : HeadampTx} {log : List RingEvent} {s s' : CmdRing}

/-- A step that publishes and applies nothing. -/
theorem RingInv.quiet (h : RingInv t₀ log s) (i : RingInput)
    (hout : (ringMachine.event s i).out = .none ∨ ∃ cmd, (ringMachine.event s i).out = .dropped cmd)
    (hproducer : s'.producer.Ok s'.ring) (hconsumer : s'.consumer.Ok s'.ring)
    (hfits : s'.ring.count ≤ cmdRingCells) (hpending : s'.pending = s.pending)
    (htable : s'.table = s.table) : RingInv t₀ (log ++ [ringMachine.event s i]) s' := by
  have haccepted : acceptedOf (log ++ [ringMachine.event s i]) = acceptedOf log := by
    rcases hout with hout | ⟨cmd, hout⟩ <;> simp only [acceptedOf, List.filterMap_append,
      List.filterMap_cons, hout, List.filterMap_nil, List.append_nil]
  have happlied : appliedOf (log ++ [ringMachine.event s i]) = appliedOf log := by
    rcases hout with hout | ⟨cmd, hout⟩ <;> simp only [appliedOf, List.filterMap_append,
      List.filterMap_cons, hout, List.filterMap_nil, List.append_nil]
  refine ⟨hproducer, hconsumer, hfits, ?_, ?_⟩
  · rw [haccepted, happlied, hpending]
    exact h.queue
  · rw [happlied, htable]
    exact h.table

theorem RingInv.produce (h : RingInv t₀ log s) :
    RingInv t₀ (log ++ [ringMachine.event s .produce]) (produceStep s).1 := by
  have hok := h.producer
  have hconsumer := h.consumer
  cases hp : s.producer with
  | idle =>
    have hstep : produceStep s = (s, .none) := by simp only [produceStep, hp]
    rw [hstep]
    exact h.quiet .produce (.inl (congrArg Prod.snd hstep)) hok hconsumer h.fits rfl rfl
  | readTail cmd i =>
    rw [hp] at hok
    obtain rfl : i = s.ring.head := hok
    by_cases hfull : cmdRingCells ≤ (s.ring.head - s.ring.tail).toNat
    · have hstep : produceStep s = ({ s with producer := .idle }, .dropped cmd) := by
        simp only [produceStep, hp, if_pos hfull]
      rw [hstep]
      exact h.quiet .produce (.inr ⟨cmd, congrArg Prod.snd hstep⟩) trivial hconsumer h.fits rfl rfl
    · have hstep : produceStep s = ({ s with producer := .writeCell cmd s.ring.head }, .none) := by
        simp only [produceStep, hp, if_neg hfull]
      rw [hstep]
      exact h.quiet .produce (.inl (congrArg Prod.snd hstep)) ⟨rfl, Nat.lt_of_not_le hfull⟩ hconsumer
        h.fits rfl rfl
  | writeCell cmd i =>
    rw [hp] at hok
    obtain ⟨rfl, hroom⟩ := hok
    have hcontents := WordRing.contents_store cmdRingCells_dvd hroom (headampPack cmd)
    have hstep : produceStep s = ({ s with
        ring := s.ring.store cmdRingCells (headampPack cmd), producer := .writeHead cmd s.ring.head },
        .none) := by
      simp only [produceStep, hp]
      rfl
    rw [hstep]
    refine h.quiet .produce (.inl (congrArg Prod.snd hstep))
      ⟨rfl, hroom, WordRing.store_head (headampPack cmd)⟩ ?_ h.fits ?_ rfl
    · cases hc : s.consumer with
      | idle => exact trivial
      | readHead t => rw [hc] at hconsumer; exact hconsumer
      | readCell t => rw [hc] at hconsumer; exact hconsumer
      | apply t w => rw [hc] at hconsumer; exact hconsumer
      | writeTail t w =>
        -- The word the consumer holds is the oldest one, which the store does not touch.
        rw [hc] at hconsumer
        obtain ⟨rfl, hne, rfl⟩ := hconsumer
        have hbefore := WordRing.contents_release cmdRingCells_dvd hne
        have hafter := WordRing.contents_release cmdRingCells_dvd
          (r := s.ring.store cmdRingCells (headampPack cmd)) hne
        rw [hcontents, hbefore] at hafter
        exact ⟨rfl, hne, (List.cons.inj hafter).1⟩
    · simp only [CmdRing.pending, hcontents]
  | writeHead cmd i =>
    rw [hp] at hok
    obtain ⟨rfl, hroom, hcell⟩ := hok
    have hcontents := WordRing.contents_publish cmdRingCells_dvd (by decide) hroom
    have hcount := WordRing.count_publish (by decide : cmdRingCells < 4294967296) hroom
    have hstep : produceStep s = ({ s with ring := s.ring.publish, producer := .idle }, .accepted cmd) := by
      simp only [produceStep, hp]
      rfl
    have hout : (ringMachine.event s .produce).out = .accepted cmd := congrArg Prod.snd hstep
    have haccepted : acceptedOf (log ++ [ringMachine.event s .produce]) = acceptedOf log ++ [cmd] := by
      simp only [acceptedOf, List.filterMap_append, List.filterMap_cons, hout, List.filterMap_nil]
    have happlied : appliedOf (log ++ [ringMachine.event s .produce]) = appliedOf log := by
      simp only [appliedOf, List.filterMap_append, List.filterMap_cons, hout, List.filterMap_nil,
        List.append_nil]
    have hne : s.ring.publish.head ≠ s.ring.publish.tail := by
      rw [Ne, ← WordRing.count_eq_zero]
      omega
    rw [hstep]
    refine ⟨trivial, ?_, by dsimp only; omega, ?_, ?_⟩
    · cases hc : s.consumer with
      | idle => exact trivial
      | readHead t => rw [hc] at hconsumer; exact hconsumer
      | apply t w => rw [hc] at hconsumer; exact hconsumer
      | readCell t => rw [hc] at hconsumer; exact ⟨hconsumer.1, hne⟩
      | writeTail t w => rw [hc] at hconsumer; exact ⟨hconsumer.1, hne, hconsumer.2.2⟩
    · rw [haccepted, happlied, h.queue]
      simp only [CmdRing.pending, hcontents, hcell, List.map_append, List.map_cons, List.map_nil,
        headampUnpack_pack, List.append_assoc]
    · rw [happlied]
      exact h.table

theorem RingInv.consume (h : RingInv t₀ log s) :
    RingInv t₀ (log ++ [ringMachine.event s .consume]) (consumeStep s).1 := by
  have hok := h.consumer
  have hproducer := h.producer
  cases hc : s.consumer with
  | idle =>
    have hstep : consumeStep s = (s, .none) := by simp only [consumeStep, hc]
    rw [hstep]
    exact h.quiet .consume (.inl (congrArg Prod.snd hstep)) hproducer hok h.fits rfl rfl
  | readHead t =>
    rw [hc] at hok
    obtain rfl : t = s.ring.tail := hok
    have hpending : ∀ c : Consumer, c.inFlight = [] →
        ({ s with consumer := c } : CmdRing).pending = s.pending := by
      intro c hflight
      have hnone : s.consumer.inFlight = [] := by rw [hc]; rfl
      simp only [CmdRing.pending, hflight, hnone]
    by_cases hempty : s.ring.tail = s.ring.head
    · have hstep : consumeStep s = ({ s with consumer := .idle }, .none) := by
        simp only [consumeStep, hc, if_pos hempty]
      rw [hstep]
      exact h.quiet .consume (.inl (congrArg Prod.snd hstep)) hproducer trivial h.fits
        (hpending .idle rfl) rfl
    · have hstep : consumeStep s = ({ s with consumer := .readCell s.ring.tail }, .none) := by
        simp only [consumeStep, hc, if_neg hempty]
      rw [hstep]
      exact h.quiet .consume (.inl (congrArg Prod.snd hstep)) hproducer ⟨rfl, fun he => hempty he.symm⟩
        h.fits (hpending (.readCell s.ring.tail) rfl) rfl
  | readCell t =>
    rw [hc] at hok
    obtain ⟨rfl, hne⟩ := hok
    have hstep : consumeStep s = ({ s with
        consumer := .writeTail s.ring.tail (s.ring.cells (WordRing.slot cmdRingCells s.ring.tail)) },
        .none) := by
      simp only [consumeStep, hc]
    rw [hstep]
    refine h.quiet .consume (.inl (congrArg Prod.snd hstep)) hproducer ⟨rfl, hne, rfl⟩ h.fits ?_ rfl
    simp only [CmdRing.pending, hc, Consumer.inFlight]
  | writeTail t w =>
    rw [hc] at hok
    obtain ⟨rfl, hne, rfl⟩ := hok
    have hcontents := WordRing.contents_release cmdRingCells_dvd hne
    have hcount := congrArg List.length hcontents
    simp only [WordRing.contents_length, List.length_cons] at hcount
    have hstep : consumeStep s = ({ s with
        ring := s.ring.release
        consumer := .apply (s.ring.tail + 1) (s.ring.cells (WordRing.slot cmdRingCells s.ring.tail)) },
        .none) := by
      simp only [consumeStep, hc]
      rfl
    have hfits := h.fits
    rw [hstep]
    refine h.quiet .consume (.inl (congrArg Prod.snd hstep)) ?_ rfl (by dsimp only; omega) ?_ rfl
    · cases hp : s.producer with
      | idle => exact trivial
      | readTail cmd i => rw [hp] at hproducer; exact hproducer
      | writeCell cmd i =>
        rw [hp] at hproducer
        refine ⟨hproducer.1, ?_⟩
        have hroom := hproducer.2
        show s.ring.release.count < cmdRingCells
        omega
      | writeHead cmd i =>
        rw [hp] at hproducer
        refine ⟨hproducer.1, ?_, hproducer.2.2⟩
        have hroom := hproducer.2.1
        show s.ring.release.count < cmdRingCells
        omega
    · simp only [CmdRing.pending, hc, Consumer.inFlight, List.nil_append, hcontents]
      rfl
  | apply t w =>
    rw [hc] at hok
    have hstep : consumeStep s = ({ s with
        table := applyCmd s.table (headampUnpack w), consumer := .readHead t },
        .applied (headampUnpack w)) := by
      simp only [consumeStep, hc]
    have hout : (ringMachine.event s .consume).out = .applied (headampUnpack w) :=
      congrArg Prod.snd hstep
    have haccepted : acceptedOf (log ++ [ringMachine.event s .consume]) = acceptedOf log := by
      simp only [acceptedOf, List.filterMap_append, List.filterMap_cons, hout, List.filterMap_nil,
        List.append_nil]
    have happlied : appliedOf (log ++ [ringMachine.event s .consume]) =
        appliedOf log ++ [headampUnpack w] := by
      simp only [appliedOf, List.filterMap_append, List.filterMap_cons, hout, List.filterMap_nil]
    rw [hstep]
    refine ⟨hproducer, hok, h.fits, ?_, ?_⟩
    · rw [haccepted, happlied, h.queue]
      simp [CmdRing.pending, hc, Consumer.inFlight]
    · rw [happlied, List.foldl_append, ← h.table]
      rfl

theorem RingInv.step (h : RingInv t₀ log s) (i : RingInput) :
    RingInv t₀ (log ++ [ringMachine.event s i]) (ringStep s i).1 := by
  cases i with
  | produce => exact h.produce
  | consume => exact h.consume
  | push cmd =>
    have hproducer := h.producer
    cases hp : s.producer with
    | idle =>
      have hstep : ringStep s (.push cmd) =
          ({ s with producer := .readTail cmd s.ring.head }, .none) := by
        simp only [ringStep, hp]
      rw [hstep]
      exact h.quiet _ (.inl (congrArg Prod.snd hstep)) rfl h.consumer h.fits rfl rfl
    | readTail _ _ | writeCell _ _ | writeHead _ _ =>
      have hstep : ringStep s (.push cmd) = (s, .none) := by simp only [ringStep, hp]
      rw [hstep]
      exact h.quiet _ (.inl (congrArg Prod.snd hstep)) hproducer h.consumer h.fits rfl rfl
  | drain =>
    have hconsumer := h.consumer
    cases hc : s.consumer with
    | idle =>
      have hstep : ringStep s .drain = ({ s with consumer := .readHead s.ring.tail }, .none) := by
        simp only [ringStep, hc]
      rw [hstep]
      refine h.quiet _ (.inl (congrArg Prod.snd hstep)) h.producer rfl h.fits ?_ rfl
      simp only [CmdRing.pending, hc, Consumer.inFlight]
    | readHead _ | readCell _ | writeTail _ _ | apply _ _ =>
      have hstep : ringStep s .drain = (s, .none) := by simp only [ringStep, hc]
      rw [hstep]
      exact h.quiet _ (.inl (congrArg Prod.snd hstep)) h.producer hconsumer h.fits rfl rfl

theorem ringInv_run (t : HeadampTx) (is : List RingInput) :
    RingInv t (ringMachine.trace (ringOpen t) is) (ringMachine.run (ringOpen t) is) := by
  have hopen : RingInv t [] (ringOpen t) := by
    refine ⟨trivial, trivial, by simp [ringOpen, WordRing.count], ?_, rfl⟩
    simp [acceptedOf, appliedOf, CmdRing.pending, ringOpen, WordRing.contents, WordRing.count,
      Consumer.inFlight]
  exact ringMachine.trace_invariant (L := fun _ _ => True) hopen (fun _ _ i h _ => h.step i) is
    fun _ _ _ => trivial

/-! ### What the commands come to -/

/-- The table takes the command. -/
def isLegalCmd (cmd : HeadampCmd) : Bool :=
  cmd.1.toNat < headampMaxCh ∧ paramValueOk cmd.2.1.toNat cmd.2.2 = true

/-- The value of the last legal command for a cell. -/
def lastLegal (cmds : List HeadampCmd) (ch param : ℕ) : Option UInt8 :=
  (cmds.reverse.find? fun cmd =>
    isLegalCmd cmd && decide (cmd.1.toNat = ch ∧ cmd.2.1.toNat = param)).map fun cmd => cmd.2.2

theorem lastLegal_concat (cmds : List HeadampCmd) (cmd : HeadampCmd) (ch param : ℕ) :
    lastLegal (cmds ++ [cmd]) ch param =
      if isLegalCmd cmd = true ∧ cmd.1.toNat = ch ∧ cmd.2.1.toNat = param then some cmd.2.2
      else lastLegal cmds ch param := by
  unfold lastLegal
  rw [List.reverse_append, List.reverse_singleton, List.singleton_append, List.find?_cons]
  by_cases hcmd : isLegalCmd cmd = true ∧ cmd.1.toNat = ch ∧ cmd.2.1.toNat = param
  · rw [if_pos hcmd]
    simp [hcmd]
  · rw [if_neg hcmd]
    have hfalse : (isLegalCmd cmd && decide (cmd.1.toNat = ch ∧ cmd.2.1.toNat = param)) = false := by
      rw [Bool.eq_false_iff]
      simpa using hcmd
    rw [hfalse]

theorem applyCmd_cell (t : HeadampTx) (cmd : HeadampCmd) (ch param : ℕ) :
    (applyCmd t cmd).value ch param =
        (if isLegalCmd cmd = true ∧ cmd.1.toNat = ch ∧ cmd.2.1.toNat = param then cmd.2.2
        else t.value ch param) ∧
      (applyCmd t cmd).set ch param =
        (if isLegalCmd cmd = true ∧ cmd.1.toNat = ch ∧ cmd.2.1.toNat = param then true
        else t.set ch param) := by
  unfold applyCmd headampTxSet isLegalCmd
  by_cases hlegal : cmd.1.toNat < headampMaxCh ∧ paramValueOk cmd.2.1.toNat cmd.2.2 = true
  · rw [dif_pos hlegal]
    by_cases hcell : cmd.1.toNat = ch ∧ cmd.2.1.toNat = param
    · obtain ⟨rfl, rfl⟩ := hcell
      simp [hlegal, setCell_self]
    · have hcell' : ¬ (ch = cmd.1.toNat ∧ param = cmd.2.1.toNat) := by
        rintro ⟨rfl, rfl⟩
        exact hcell ⟨rfl, rfl⟩
      simp [hlegal, hcell, setCell_of_ne _ _ hcell']
  · rw [dif_neg hlegal]
    simp [hlegal]

/-- A cell ends with the last legal value it was given, and is then set. -/
theorem foldl_applyCmd (t : HeadampTx) (cmds : List HeadampCmd) (ch param : ℕ) :
    (cmds.foldl applyCmd t).value ch param = (lastLegal cmds ch param).getD (t.value ch param) ∧
      (cmds.foldl applyCmd t).set ch param = ((lastLegal cmds ch param).isSome || t.set ch param) := by
  induction cmds using List.reverseRecOn with
  | nil => exact ⟨rfl, rfl⟩
  | append_singleton cmds cmd ih =>
    rw [List.foldl_append, lastLegal_concat]
    obtain ⟨hvalue, hset⟩ := applyCmd_cell (cmds.foldl applyCmd t) cmd ch param
    show (applyCmd _ cmd).value ch param = _ ∧ (applyCmd _ cmd).set ch param = _
    rw [hvalue, hset]
    split_ifs with hcmd
    · exact ⟨rfl, rfl⟩
    · exact ih

/-! ### Draining -/

/-- The consumer on its own, from the head of its loop, empties the ring. -/
theorem drains_from_head (n : ℕ) (s : CmdRing) (hn : s.ring.count = n)
    (hs : s.consumer = .readHead s.ring.tail) :
    ∃ k, (ringMachine.run s (List.replicate k .consume)).consumer = .idle ∧
      (ringMachine.run s (List.replicate k .consume)).ring.count = 0 := by
  induction n generalizing s with
  | zero =>
    have hempty : s.ring.tail = s.ring.head := ((WordRing.count_eq_zero s.ring).mp hn).symm
    refine ⟨1, ?_⟩
    have hstep : consumeStep s = ({ s with consumer := .idle }, .none) := by
      simp only [consumeStep, hs, if_pos hempty]
    show (consumeStep s).1.consumer = .idle ∧ (consumeStep s).1.ring.count = 0
    rw [hstep]
    exact ⟨rfl, hn⟩
  | succ n ih =>
    have hne : s.ring.head ≠ s.ring.tail := by
      intro heq
      rw [(WordRing.count_eq_zero s.ring).mpr heq] at hn
      cases hn
    have hcount := congrArg List.length (WordRing.contents_release cmdRingCells_dvd hne)
    simp only [WordRing.contents_length, List.length_cons] at hcount
    -- Once round the loop: the head read, the cell read, the tail advanced, the command applied.
    obtain ⟨s', hround, hring, hconsumer⟩ : ∃ s', ringMachine.run s (List.replicate 4 .consume) = s' ∧
        s'.ring = s.ring.release ∧ s'.consumer = .readHead s.ring.release.tail := by
      refine ⟨_, rfl, ?_⟩
      show (consumeStep (consumeStep (consumeStep (consumeStep s).1).1).1).1.ring = _ ∧
        (consumeStep (consumeStep (consumeStep (consumeStep s).1).1).1).1.consumer = _
      simp only [consumeStep, hs, if_neg hne.symm]
      exact ⟨rfl, rfl⟩
    obtain ⟨k, hk⟩ := ih s' (by rw [hring]; omega) (by rw [hconsumer, hring])
    refine ⟨4 + k, ?_⟩
    rw [← List.replicate_append_replicate, ringMachine.run_append, hround]
    exact hk

/-- So does one drain call, from wherever the consumer is. -/
theorem drains (h : RingInv t₀ log s) :
    ∃ k, (ringMachine.run s (.drain :: List.replicate k .consume)).consumer = .idle ∧
      (ringMachine.run s (.drain :: List.replicate k .consume)).ring.count = 0 := by
  have hloop : ∃ j, (ringMachine.run s (.drain :: List.replicate j .consume)).consumer =
      .readHead (ringMachine.run s (.drain :: List.replicate j .consume)).ring.tail := by
    have hok := h.consumer
    cases hc : s.consumer with
    | idle => exact ⟨0, by simp only [ringMachine.run_cons, ringMachine_step, ringStep, hc]; rfl⟩
    | readHead t =>
      rw [hc] at hok
      obtain rfl : t = s.ring.tail := hok
      exact ⟨0, by simp only [ringMachine.run_cons, ringMachine_step, ringStep, hc]; exact hc⟩
    | readCell t =>
      rw [hc] at hok
      obtain ⟨rfl, -⟩ := hok
      refine ⟨3, ?_⟩
      show (consumeStep (consumeStep (consumeStep (ringStep s .drain).1).1).1).1.consumer =
        .readHead (consumeStep (consumeStep (consumeStep (ringStep s .drain).1).1).1).1.ring.tail
      simp only [ringStep, consumeStep, hc]
    | writeTail t w =>
      rw [hc] at hok
      obtain ⟨rfl, -⟩ := hok
      refine ⟨2, ?_⟩
      show (consumeStep (consumeStep (ringStep s .drain).1).1).1.consumer =
        .readHead (consumeStep (consumeStep (ringStep s .drain).1).1).1.ring.tail
      simp only [ringStep, consumeStep, hc]
    | apply t w =>
      rw [hc] at hok
      obtain rfl : t = s.ring.tail := hok
      refine ⟨1, ?_⟩
      show (consumeStep (ringStep s .drain).1).1.consumer =
        .readHead (consumeStep (ringStep s .drain).1).1.ring.tail
      simp only [ringStep, consumeStep, hc]
  obtain ⟨j, hj⟩ := hloop
  obtain ⟨k, hk⟩ := drains_from_head _ _ rfl hj
  refine ⟨j + k, ?_⟩
  rw [← List.replicate_append_replicate, ← List.cons_append, ringMachine.run_append]
  exact hk

end Ring

/-! ## The scheduler -/

section Scheduler

variable {t t' : HeadampTx}

abbrev TableEvent := Event HeadampTx TableCall TableAnswer

/-- A dirty cell is a set one, there is no cell outside the table, and a table with a dirty cell is
armed. -/
structure SchedOk (t : HeadampTx) : Prop where
  set : ∀ c p, t.set c p = true → c < headampMaxCh ∧ p < headampNparams
  dirty : ∀ c p, t.dirty c p = true → t.set c p = true ∧ t.active = true

theorem schedOk_init : SchedOk headampTxInit := by
  constructor
  · intro c p h
    cases h
  · intro c p h
    cases h

/-- The dirty cells. -/
def HeadampTx.dirtyCells (t : HeadampTx) : Finset (ℕ × ℕ) :=
  (Finset.range headampMaxCh ×ˢ Finset.range headampNparams).filter fun cell =>
    t.dirty cell.1 cell.2 = true

theorem mem_dirtyCells (ok : SchedOk t) (c p : ℕ) : (c, p) ∈ t.dirtyCells ↔ t.dirty c p = true := by
  unfold HeadampTx.dirtyCells
  rw [Finset.mem_filter, Finset.mem_product, Finset.mem_range, Finset.mem_range]
  constructor
  · exact fun h => h.2
  · intro h
    exact ⟨ok.set c p (ok.dirty c p h).1, h⟩

/-- The cells of the table and its switch are those of another one. -/
structure SameCells (t t' : HeadampTx) : Prop where
  value : t'.value = t.value
  set : t'.set = t.set
  dirty : t'.dirty = t.dirty
  active : t'.active = t.active

theorem SameCells.ok (h : SameCells t t') (ok : SchedOk t) : SchedOk t' := by
  constructor
  · rw [h.set]
    exact ok.set
  · rw [h.dirty, h.set, h.active]
    exact ok.dirty

theorem sameCells_resweep (t : HeadampTx) : SameCells t t.resweep := by
  unfold HeadampTx.resweep
  split_ifs <;> exact ⟨rfl, rfl, rfl, rfl⟩

theorem sameCells_armScene (t : HeadampTx) (base width : ℕ) :
    SameCells t (headampTxArmScene t base width) := by
  unfold headampTxArmScene
  split_ifs <;> exact ⟨rfl, rfl, rfl, rfl⟩

/-- What a call of `reac_headamp_tx_next` does to the cells: it sends a dirty one and clears it, or
there is none and a cell of the replay goes out, which a re-assert takes among the set ones. -/
inductive NextCell (t : HeadampTx) : HeadampTx → Option (ℕ × ℕ × UInt8) → Prop where
  | edge {t' : HeadampTx} {c p : ℕ} (hdirty : t.dirty c p = true)
      (hcells : SameCells { t with dirty := setCell t.dirty c p false } t') :
      NextCell t t' (some (c, p, t.value c p))
  | replay {t' : HeadampTx} {c p : ℕ} (hclean : ∀ c p, t.dirty c p = false) (hcells : SameCells t t')
      (hset : t.replaySetOnly = true → t.set c p = true) :
      NextCell t t' (some (c, p, headampTxEffective (some t) c p))
  | silent {t' : HeadampTx} (hclean : ∀ c p, t.dirty c p = false) (hcells : SameCells t t') :
      NextCell t t' none

theorem clean_of_find? (ok : SchedOk t)
    (hfind : (List.range (headampMaxCh * headampNparams)).find? (fun idx =>
      t.dirty (idx / headampNparams) (idx % headampNparams)) = none) (c p : ℕ) : t.dirty c p = false := by
  cases hcell : t.dirty c p with
  | false => rfl
  | true =>
    obtain ⟨hc, hp⟩ := ok.set c p (ok.dirty c p hcell).1
    have hnone := List.find?_eq_none.mp hfind (c * headampNparams + p)
    unfold headampMaxCh at hc hnone
    unfold headampNparams at hp hnone
    have hdiv : (c * 3 + p) / 3 = c := by omega
    have hmod : (c * 3 + p) % 3 = p := by omega
    rw [hdiv, hmod, hcell] at hnone
    exact absurd rfl (hnone (List.mem_range.mpr (by omega)))

theorem headampTxNext_cell (ok : SchedOk t) : NextCell t (headampTxNext t).1 (headampTxNext t).2 := by
  unfold headampTxNext
  by_cases hidle : t.active = false ∧ t.replayWidth = 0
  · rw [if_pos hidle]
    refine .silent ?_ ⟨rfl, rfl, rfl, rfl⟩
    intro c p
    cases hcell : t.dirty c p with
    | false => rfl
    | true =>
      have hactive := (ok.dirty c p hcell).2
      rw [hidle.1] at hactive
      cases hactive
  rw [if_neg hidle]
  cases hfind : (List.range (headampMaxCh * headampNparams)).find? fun idx =>
      t.dirty (idx / headampNparams) (idx % headampNparams) with
  | some idx =>
    have hdirty := List.find?_some hfind
    exact .edge hdirty ⟨rfl, rfl, rfl, rfl⟩
  | none =>
    have hclean := clean_of_find? ok hfind
    dsimp only
    by_cases hw : t.replayWidth = 0
    · rw [if_pos hw]
      exact .silent hclean (sameCells_resweep t)
    rw [if_neg hw]
    by_cases hwait : 0 < t.replayWait
    · rw [if_pos hwait]
      exact .silent hclean ⟨rfl, rfl, rfl, rfl⟩
    rw [if_neg hwait]
    cases hcarry : (List.range' t.replayIdx (t.replayWidth * headampNparams - t.replayIdx)).find?
        t.replayCarries with
    | none =>
      have hsame := sameCells_resweep
        { t with replayIdx := max t.replayIdx (t.replayWidth * headampNparams), replayWidth := 0 }
      exact .silent hclean ⟨hsame.value, hsame.set, hsame.dirty, hsame.active⟩
    | some idx =>
      refine .replay hclean ?_ ?_
      · dsimp only
        split_ifs <;> exact ⟨rfl, rfl, rfl, rfl⟩
      · intro hsetOnly
        have hcarries := List.find?_some hcarry
        simp only [HeadampTx.replayCarries, hsetOnly, Bool.not_true, Bool.false_or,
          Bool.and_eq_true] at hcarries
        exact hcarries.2

theorem NextCell.ok {rec : Option (ℕ × ℕ × UInt8)} (h : NextCell t t' rec) (ok : SchedOk t) :
    SchedOk t' := by
  cases h with
  | edge hdirty hcells =>
    refine hcells.ok ⟨ok.set, ?_⟩
    intro c p hd
    dsimp only [setCell] at hd
    split_ifs at hd
    exact ok.dirty c p hd
  | replay _ hcells => exact hcells.ok ok
  | silent _ hcells => exact hcells.ok ok

/-- A call clears one dirty cell, if there is one. -/
theorem NextCell.card {rec : Option (ℕ × ℕ × UInt8)} (h : NextCell t t' rec) (ok : SchedOk t) :
    t'.dirtyCells.card = t.dirtyCells.card - 1 := by
  have hsame : SameCells t t' → t'.dirtyCells = t.dirtyCells := by
    intro hcells
    unfold HeadampTx.dirtyCells
    rw [hcells.dirty]
  have hempty : (∀ c p, t.dirty c p = false) → t.dirtyCells.card = 0 := by
    intro hclean
    rw [Finset.card_eq_zero, Finset.eq_empty_iff_forall_notMem]
    rintro ⟨c, p⟩ hcell
    rw [mem_dirtyCells ok, hclean] at hcell
    cases hcell
  cases h with
  | @edge c p hdirty hcells =>
    have herase : t'.dirtyCells = t.dirtyCells.erase (c, p) := by
      ext ⟨c', p'⟩
      simp only [HeadampTx.dirtyCells, Finset.mem_filter, Finset.mem_erase, hcells.dirty, setCell]
      by_cases hcell : c' = c ∧ p' = p
      · obtain ⟨rfl, rfl⟩ := hcell
        simp
      · simp [hcell, Prod.ext_iff]
    rw [herase, Finset.card_erase_of_mem ((mem_dirtyCells ok c p).mpr hdirty)]
  | replay hclean hcells => rw [hsame hcells, hempty hclean]
  | silent hclean hcells => rw [hsame hcells, hempty hclean]

theorem headampTxSet_ok {ch param : ℕ} {value : UInt8} (ok : SchedOk t)
    (h : headampTxSet t ch param value = some t') : SchedOk t' := by
  unfold headampTxSet at h
  split_ifs at h with hlegal
  obtain rfl := Option.some.inj h
  constructor
  · intro c p hset
    dsimp only [setCell] at hset
    split_ifs at hset with hcell
    · rw [hcell.1, hcell.2]
      exact ⟨hlegal.1, paramValueOk_lt hlegal.2⟩
    · exact ok.set c p hset
  · intro c p hdirty
    dsimp only [setCell] at hdirty ⊢
    split_ifs at hdirty ⊢ with hcell
    · exact ⟨rfl, rfl⟩
    · exact ⟨(ok.dirty c p hdirty).1, rfl⟩

theorem tableCall_ok (ok : SchedOk t) (call : TableCall) : SchedOk (tableCall t call).1 := by
  cases call with
  | set ch param value =>
    simp only [tableCall]
    cases hset : headampTxSet t ch param value with
    | none => exact ok
    | some t' => exact headampTxSet_ok ok hset
  | armScene base width => exact (sameCells_armScene t base width).ok ok
  | setResweep frames => exact ⟨ok.set, ok.dirty⟩
  | next => exact (headampTxNext_cell ok).ok ok

theorem schedOk_run (is : List TableCall) : SchedOk (tableMachine.run headampTxInit is) :=
  tableMachine.run_invariant (L := fun _ _ => True) schedOk_init
    (fun _ i ok _ => tableCall_ok ok i) is fun _ _ _ => trivial

/-! ### Runs -/

/-- The value the call sent for the cell, if it sent one. -/
def sentValue (c p : ℕ) (e : TableEvent) : Option UInt8 :=
  match e.out with
  | .record (some (c', p', v)) => if c' = c ∧ p' = p then some v else none
  | _ => none

/-- The value last sent for the cell. -/
def lastSent (log : List TableEvent) (c p : ℕ) : Option UInt8 := log.reverse.findSome? (sentValue c p)

theorem lastSent_concat (log : List TableEvent) (e : TableEvent) (c p : ℕ) :
    lastSent (log ++ [e]) c p = (sentValue c p e).or (lastSent log c p) := by
  unfold lastSent
  rw [List.reverse_append, List.reverse_singleton, List.singleton_append, List.findSome?_cons]
  cases sentValue c p e <;> rfl

/-- Every set cell is dirty, or was last sent with the value it holds. -/
structure EdgeInv (log : List TableEvent) (t : HeadampTx) : Prop where
  ok : SchedOk t
  ever : ∀ l ∈ log, ∀ c p v, l.input = .set c p v → l.out = .taken true → t.set c p = true
  sent : ∀ c p, t.set c p = true → t.dirty c p = true ∨ lastSent log c p = some (t.value c p)

variable {log : List TableEvent}

/-- A call that neither sets nor sends anything. -/
theorem EdgeInv.quiet (h : EdgeInv log t) (hcells : SameCells t t') {e : TableEvent}
    (hsend : ∀ c p, sentValue c p e = none) (htake : e.out ≠ .taken true) : EdgeInv (log ++ [e]) t' := by
  refine ⟨hcells.ok h.ok, ?_, ?_⟩
  · intro l hl c p v hin hout
    rw [hcells.set]
    rcases List.mem_append.mp hl with hl | hl
    · exact h.ever l hl c p v hin hout
    · rw [List.mem_singleton.mp hl] at hout
      exact absurd hout htake
  · intro c p hset
    rw [hcells.set] at hset
    rw [hcells.dirty, hcells.value, lastSent_concat, hsend, Option.none_or]
    exact h.sent c p hset

theorem EdgeInv.set (h : EdgeInv log t) {ch param : ℕ} {value : UInt8}
    (hset : headampTxSet t ch param value = some t') :
    EdgeInv (log ++ [tableMachine.event t (.set ch param value)]) t' := by
  have hok := headampTxSet_ok h.ok hset
  have hout : (tableMachine.event t (.set ch param value)).out = .taken true := by
    simp only [Reactive.Machine.event_out, tableMachine_step, tableCall, hset]
  unfold headampTxSet at hset
  split_ifs at hset with hlegal
  obtain rfl := Option.some.inj hset
  refine ⟨hok, ?_, ?_⟩
  · intro l hl c p v hin htaken
    dsimp only [setCell]
    split_ifs with hcell
    · rfl
    · rcases List.mem_append.mp hl with hl | hl
      · exact h.ever l hl c p v hin htaken
      · rw [List.mem_singleton.mp hl] at hin
        cases hin
        exact absurd ⟨rfl, rfl⟩ hcell
  · intro c p hcp
    dsimp only [setCell] at hcp ⊢
    split_ifs at hcp ⊢ with hcell
    · exact .inl rfl
    · rw [lastSent_concat, sentValue, hout, Option.none_or]
      exact h.sent c p hcp

theorem EdgeInv.next (h : EdgeInv log t) :
    EdgeInv (log ++ [tableMachine.event t .next]) (headampTxNext t).1 := by
  have hmove := headampTxNext_cell h.ok
  have hout : (tableMachine.event t .next).out = .record (headampTxNext t).2 := rfl
  have hok := hmove.ok h.ok
  generalize (headampTxNext t).1 = t' at hmove hok ⊢
  generalize (headampTxNext t).2 = rec at hmove hout
  cases hmove with
  | silent _ hcells =>
    refine h.quiet hcells ?_ (by rw [hout]; simp)
    intro c p
    rw [sentValue, hout]
  | @edge c p hdirty hcells =>
    refine ⟨hok, ?_, ?_⟩
    · intro l hl c' p' v hin htaken
      rw [hcells.set]
      rcases List.mem_append.mp hl with hl | hl
      · exact h.ever l hl c' p' v hin htaken
      · rw [List.mem_singleton.mp hl] at hin
        cases hin
    · intro c' p' hset
      rw [hcells.set] at hset
      rw [hcells.dirty, hcells.value, lastSent_concat, sentValue, hout]
      dsimp only [setCell]
      by_cases hcell : c = c' ∧ p = p'
      · obtain ⟨rfl, rfl⟩ := hcell
        right
        simp
      · have hcell' : ¬ (c' = c ∧ p' = p) := fun hc => hcell ⟨hc.1.symm, hc.2.symm⟩
        rw [if_neg hcell, if_neg hcell', Option.none_or]
        exact h.sent c' p' hset
  | @replay c p hclean hcells _ =>
    refine ⟨hok, ?_, ?_⟩
    · intro l hl c' p' v hin htaken
      rw [hcells.set]
      rcases List.mem_append.mp hl with hl | hl
      · exact h.ever l hl c' p' v hin htaken
      · rw [List.mem_singleton.mp hl] at hin
        cases hin
    · intro c' p' hset
      rw [hcells.set] at hset
      rw [hcells.dirty, hcells.value, lastSent_concat, sentValue, hout]
      dsimp only
      by_cases hcell : c = c' ∧ p = p'
      · obtain ⟨rfl, rfl⟩ := hcell
        obtain ⟨hc, hp⟩ := h.ok.set c p hset
        right
        rw [if_pos ⟨rfl, rfl⟩, headampTxEffective_set hc hp hset, Option.some_or]
      · rw [if_neg hcell, Option.none_or]
        exact h.sent c' p' hset

theorem EdgeInv.call (h : EdgeInv log t) (call : TableCall) :
    EdgeInv (log ++ [tableMachine.event t call]) (tableCall t call).1 := by
  cases call with
  | set ch param value =>
    cases hset : headampTxSet t ch param value with
    | some t' =>
      have hpost : (tableCall t (.set ch param value)).1 = t' := by simp only [tableCall, hset]
      rw [hpost]
      exact h.set hset
    | none =>
      have hcall : tableCall t (.set ch param value) = (t, .taken false) := by
        simp only [tableCall, hset]
      have hout : (tableMachine.event t (.set ch param value)).out = .taken false :=
        congrArg Prod.snd hcall
      rw [hcall]
      refine h.quiet ⟨rfl, rfl, rfl, rfl⟩ ?_ (by rw [hout]; simp)
      intro c p
      rw [sentValue, hout]
  | armScene base width =>
    have hout : (tableMachine.event t (.armScene base width)).out = .done := rfl
    refine h.quiet (sameCells_armScene t base width) ?_ (by rw [hout]; simp)
    intro c p
    rw [sentValue, hout]
  | setResweep frames =>
    have hcells : SameCells t (headampTxSetResweep t frames) := ⟨rfl, rfl, rfl, rfl⟩
    have hout : (tableMachine.event t (.setResweep frames)).out = .done := rfl
    refine h.quiet hcells ?_ (by rw [hout]; simp)
    intro c p
    rw [sentValue, hout]
  | next => exact h.next

theorem edgeInv_init : EdgeInv [] headampTxInit := by
  refine ⟨schedOk_init, ?_, ?_⟩
  · intro l hl
    cases hl
  · intro c p h
    cases h

/-- The call is one of `reac_headamp_tx_set`. -/
def TableCall.isSet : TableCall → Bool
  | .set _ _ _ => true
  | _ => false

/-- The call is one of `reac_headamp_tx_next`. -/
def TableCall.isNext : TableCall → Bool
  | .next => true
  | _ => false

/-- Without further sets, each call of `next` leaves one dirty cell fewer. -/
theorem run_dirtyCells (ok : SchedOk t) (js : List TableCall) (hjs : ∀ j ∈ js, j.isSet = false) :
    (tableMachine.run t js).dirtyCells.card = t.dirtyCells.card - js.countP TableCall.isNext := by
  induction js generalizing t with
  | nil => rfl
  | cons j js ih =>
    have hrest := ih (tableCall_ok ok j) fun j' hj' => hjs j' (List.mem_cons_of_mem _ hj')
    have hj := hjs j (List.mem_cons_self ..)
    rw [tableMachine.run_cons, tableMachine_step, hrest, List.countP_cons]
    cases j with
    | set ch param value => cases hj
    | armScene base width =>
      have hsame : (headampTxArmScene t base width).dirtyCells = t.dirtyCells := by
        unfold HeadampTx.dirtyCells
        rw [(sameCells_armScene t base width).dirty]
      show (headampTxArmScene t base width).dirtyCells.card - _ = _
      rw [hsame]
      rfl
    | setResweep frames => rfl
    | next =>
      have hcard := (headampTxNext_cell ok).card ok
      show (headampTxNext t).1.dirtyCells.card - _ = _
      rw [hcard, TableCall.isNext, if_pos rfl]
      omega

/-- A set that is refused leaves the table alone, and a record sent while a re-assert is under way is of
a set cell. -/
theorem tableCall_sound (ok : SchedOk t) (call : TableCall) :
    ((tableCall t call).2 = .taken false → (tableCall t call).1 = t) ∧
      ∀ c p v, t.replaySetOnly = true → (tableCall t call).2 = .record (some (c, p, v)) →
        t.set c p = true := by
  cases call with
  | set ch param value =>
    simp only [tableCall]
    cases headampTxSet t ch param value with
    | none =>
      refine ⟨fun _ => rfl, ?_⟩
      intro c p v _ hrec
      cases hrec
    | some t' =>
      refine ⟨?_, ?_⟩
      · intro hrefused
        cases hrefused
      · intro c p v _ hrec
        cases hrec
  | armScene base width | setResweep frames =>
    refine ⟨?_, ?_⟩
    · intro hrefused
      cases hrefused
    · intro c p v _ hrec
      cases hrec
  | next =>
    refine ⟨?_, ?_⟩
    · intro hrefused
      cases hrefused
    · intro c p v hsetOnly hrec
      have hmove := headampTxNext_cell ok
      have hrec' : (headampTxNext t).2 = some (c, p, v) := TableAnswer.record.inj hrec
      rw [hrec'] at hmove
      cases hmove with
      | edge hdirty _ => exact (ok.dirty c p hdirty).1
      | replay _ _ hset => exact hset hsetOnly

end Scheduler

/-! ## No edge is lost -/

/-- Whatever is called in whatever order, a cell that was set is dirty or was last sent as it stands, a
refused set changes nothing, a re-assert sends set cells only, and as many calls of `next` as there are
dirty cells leave none. Through the command ring, however its two threads interleave, the commands
applied are the accepted ones in order, all of them once the ring is drained, and then each cell holds
the last legal value accepted for it. -/
theorem headamp_loses_no_edge :
    (∀ is log e, tableMachine.StepOf headampTxInit is log e →
      (∀ l ∈ log ++ [e], ∀ c p v, l.input = .set c p v → l.out = .taken true →
        e.post.dirty c p = true ∨ lastSent (log ++ [e]) c p = some (e.post.value c p)) ∧
      (e.out = .taken false → e.post = e.pre) ∧
      (∀ c p v, e.pre.replaySetOnly = true → e.out = .record (some (c, p, v)) →
        e.pre.set c p = true)) ∧
    (∀ is js, (∀ j ∈ js, j.isSet = false) →
      (tableMachine.run headampTxInit is).dirtyCells.card ≤ js.countP TableCall.isNext →
      ∀ c p, (tableMachine.run (tableMachine.run headampTxInit is) js).dirty c p = false) ∧
    (∀ t is, let s := ringMachine.run (ringOpen t) is
      let log := ringMachine.trace (ringOpen t) is
      appliedOf log <+: acceptedOf log ∧
      s.table = (appliedOf log).foldl applyCmd t ∧
      (s.consumer = .idle → s.ring.head = s.ring.tail →
        appliedOf log = acceptedOf log ∧
        ∀ c p, s.table.value c p = (lastLegal (acceptedOf log) c p).getD (t.value c p) ∧
          s.table.set c p = ((lastLegal (acceptedOf log) c p).isSome || t.set c p)) ∧
      ∃ k, let s' := ringMachine.run s (.drain :: List.replicate k .consume)
        s'.consumer = .idle ∧ s'.ring.head = s'.ring.tail) := by
  refine ⟨?_, ?_, ?_⟩
  · intro is log e he
    obtain ⟨post, he⟩ := he
    obtain ⟨is₁, i, is₂, -, rfl, rfl⟩ := tableMachine.trace_split he
    have hinv : EdgeInv (tableMachine.trace headampTxInit is₁) (tableMachine.run headampTxInit is₁) :=
      tableMachine.trace_invariant (L := fun _ _ => True) edgeInv_init
        (fun _ _ i h _ => h.call i) is₁ fun _ _ _ => trivial
    obtain ⟨hrefused, hreassert⟩ := tableCall_sound hinv.ok i
    have hpost := hinv.call i
    refine ⟨?_, hrefused, hreassert⟩
    intro l hl c p v hin htaken
    exact hpost.sent c p (hpost.ever l hl c p v hin htaken)
  · intro is js hjs hcount c p
    have ok := schedOk_run is
    have hcard := run_dirtyCells ok js hjs
    rw [Nat.sub_eq_zero_of_le hcount, Finset.card_eq_zero] at hcard
    have hrun : SchedOk (tableMachine.run (tableMachine.run headampTxInit is) js) := by
      rw [← tableMachine.run_append]
      exact schedOk_run (is ++ js)
    rw [Bool.eq_false_iff, Ne, ← mem_dirtyCells hrun, hcard]
    exact Finset.notMem_empty _
  · intro t is s log
    have hinv := ringInv_run t is
    refine ⟨⟨_, hinv.queue.symm⟩, hinv.table, ?_, ?_⟩
    · intro hidle hempty
      have hpending : s.pending = [] := by
        have hcount := (WordRing.count_eq_zero s.ring).mpr hempty
        have hcontents : s.ring.contents cmdRingCells = [] := by
          rw [← List.length_eq_zero_iff, WordRing.contents_length, hcount]
        rw [CmdRing.pending, hidle, hcontents]
        rfl
      have happlied : acceptedOf log = appliedOf log := by
        have hqueue := hinv.queue
        rw [hpending, List.append_nil] at hqueue
        exact hqueue
      refine ⟨happlied.symm, ?_⟩
      intro c p
      rw [happlied, hinv.table]
      exact foldl_applyCmd t (appliedOf log) c p
    · obtain ⟨k, hk, hcount⟩ := drains hinv
      exact ⟨k, hk, (WordRing.count_eq_zero _).mp hcount⟩

end Libreac
