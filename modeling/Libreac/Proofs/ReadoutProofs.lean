import Libreac.Proofs.IdentityProofs
import Libreac.Proofs.PacerProofs
import Libreac.Readout
import Mathlib.Data.List.TakeWhile

/-!
# What is read is what was published

The identity that `reac_pacer_read_identity` returns is one the pacer held, by the rule of the sequence lock
(`Seqlock.Protocol.kept`), once the stores of a write are shown to make up the write.
-/

namespace Libreac

open Seqlock (Loads Move SeqStep)
open Seqlock.Protocol (calls cellStores copied copied_append copied_cells_same stored stored_append
  stored_cells)
open Seqlock.Protocol.Part (copied_copies stored_stores)

/-! ## Strings in arrays -/

section Text

variable {n : ℕ} {a : Fin n → UInt8} {l : List UInt8}

/-- An array that holds `l` and a NUL behind it. -/
theorem cText_eq (hlt : l.length < n) (h : ∀ j : Fin n, j.val < l.length → a j = l.getD j 0)
    (hnul : a ⟨l.length, hlt⟩ = 0) (hl : 0 ∉ l) : cText a = l := by
  have htake : (List.ofFn a).take l.length = l := by
    refine List.ext_getElem (by simp; omega) fun i h₁ h₂ => ?_
    have hi := h ⟨i, by omega⟩ h₂
    simpa [List.getD_eq_getElem?_getD, h₂] using hi
  have hdrop : (List.ofFn a).drop l.length = 0 :: (List.ofFn a).drop (l.length + 1) := by
    rw [List.drop_eq_getElem_cons (by simpa using hlt)]
    simp [hnul]
  unfold cText
  rw [← List.take_append_drop l.length (List.ofFn a), htake, hdrop, List.takeWhile_append_of_pos]
  · simp
  · intro b hb
    simp only [decide_eq_true_eq]
    rintro rfl
    exact hl hb

end Text

/-! ## The identity -/

/-- A copy of an identity that stands still is that identity. -/
theorem identity_copied (m out : IdentityMem) : copied identityCopies m out = m := by
  unfold identityCopies
  simp only [copied_append, copied_copies, copied_cells_same]
  rfl

theorem identity_forgotten (m : IdentityMem) : stored identityInit m = {} := by
  unfold identityInit
  simp only [stored_append, stored_stores, stored_cells]
  rfl

/-- The bytes of a list, stored from index `k` on. -/
theorem stored_zipIdx {n : ℕ} (l : List UInt8) (k : ℕ) (a : Fin n → UInt8) :
    stored ((l.zipIdx k).map fun x => storeAt x.2 x.1) a =
      fun j => if k ≤ j.val ∧ j.val < k + l.length then l.getD (j.val - k) 0 else a j := by
  induction l generalizing k a with
  | nil =>
    funext j
    rw [if_neg (by simp)]
    rfl
  | cons c l ih =>
    change stored ((l.zipIdx (k + 1)).map fun x => storeAt x.2 x.1) (storeAt k c a) = _
    rw [ih]
    funext j
    rw [List.length_cons]
    unfold storeAt
    by_cases hj : j.val = k
    · rw [if_neg (by omega), if_pos hj, if_pos (by omega), hj, Nat.sub_self]
      rfl
    · rw [if_neg hj]
      by_cases hin : k + 1 ≤ j.val ∧ j.val < k + 1 + l.length
      · rw [if_pos hin, if_pos (by omega), show j.val - k = j.val - (k + 1) + 1 by omega]
        rfl
      · rw [if_neg hin, if_neg (by omega)]

/-- The name that is stored is the name that is read. -/
theorem cText_nameStores {name : List UInt8} (hlen : name.length ≤ 16) (hplain : 0 ∉ name) (a : Fin 17 → UInt8) :
    cText (stored (nameStores name) a) = name := by
  have hstored : stored (nameStores name) a = storeAt name.length 0
      (fun j => if 0 ≤ j.val ∧ j.val < 0 + name.length then name.getD (j.val - 0) 0 else a j) := by
    unfold nameStores
    rw [stored_append, stored_zipIdx]
    rfl
  rw [hstored]
  refine cText_eq (by omega) ?_ (if_pos rfl) hplain
  intro j hj
  unfold storeAt
  dsimp only
  rw [if_neg (by omega), if_pos (by omega), Nat.sub_zero]

theorem name_ingested (m : IdentityMem) {name : List UInt8} (hlen : name.length ≤ 16) (hplain : 0 ∉ name) :
    (stored (namePart.stores (nameStores name) ++ [fun m => { m with hasModelName := true }]) m).identity =
      { m.identity with modelName := name, hasModelName := true } := by
  have htext := cText_nameStores hlen hplain m.modelName
  rw [stored_append, stored_stores]
  change (stored [fun m => { m with hasModelName := true }]
    (namePart.set (stored (nameStores name) m.modelName) m)).identity = _
  generalize stored (nameStores name) m.modelName = a at htext ⊢
  subst htext
  rfl

theorem version_ingested (m : IdentityMem) {payload : List UInt8} (hlen : 8 ≤ payload.length)
    (major minor patch : UInt16) :
    (stored (rawPart.stores (cellStores fun i => byteAt payload i) ++
      [fun m => { m with reacVersionMajor := major }, fun m => { m with reacVersionMinor := minor },
        fun m => { m with reacVersionPatch := patch }, fun m => { m with hasReacVersion := true }]) m).identity =
      { m.identity with
        reacVersionRaw := payload.take 8, reacVersionMajor := major, reacVersionMinor := minor
        reacVersionPatch := patch, hasReacVersion := true } := by
  have hraw : List.ofFn (fun i : Fin 8 => byteAt payload i) = payload.take 8 := by
    refine List.ext_getElem (by simp; omega) fun i h₁ h₂ => ?_
    have hi : i < payload.length := by
      rw [List.length_take] at h₂
      omega
    rw [List.getElem_ofFn, List.getElem_take, byteAt, List.getD_eq_getElem?_getD, List.getElem?_eq_getElem hi]
    rfl
  rw [stored_append, stored_stores, stored_cells, ← hraw]
  rfl

/-- Store by store, a record makes of the identity what it makes of it at once. -/
theorem identity_ingested (m : IdentityMem) (addrLo : UInt16) (payload : List UInt8) :
    (stored (ingestStores addrLo payload) m).identity = identityIngest m.identity addrLo payload := by
  unfold ingestStores identityIngest
  split_ifs with hfw hname hver hshort
  · cases firmwareMilli payload <;> rfl
  · unfold storeModelName
    have hlen : ((payload.tail.take 16).takeWhile (· ≠ 0)).length ≤ 16 := by
      have hle := (List.takeWhile_prefix (· ≠ 0) (l := payload.tail.take 16)).length_le
      rw [List.length_take] at hle
      omega
    have hplain : 0 ∉ (payload.tail.take 16).takeWhile (· ≠ 0) := by
      intro hmem
      have hne := List.mem_takeWhile_imp hmem
      simp at hne
    dsimp only
    split_ifs with hempty
    · rfl
    · exact name_ingested m hlen hplain
  · rfl
  · exact version_ingested m (by omega) _ _ _
  · rfl

/-- So does any write. -/
theorem identity_apply (m : IdentityMem) (w : IdentityWrite) :
    (publishedIdentity.apply m w).identity = w.apply m.identity := by
  cases w with
  | ingest addrLo payload => exact identity_ingested m addrLo payload
  | forget =>
    unfold Seqlock.Protocol.apply publishedIdentity identityStores IdentityWrite.apply
    change _ = if m.hasFw || m.hasModelName || m.hasReacVersion then _ else _
    dsimp only
    split_ifs with hheard
    · rw [Option.getD_some, identity_forgotten]
      rfl
    · rfl

theorem identity_value (ws : List IdentityWrite) :
    (publishedIdentity.value {} ws).identity = ws.foldl IdentityWrite.apply {} := by
  induction ws using List.reverseRecOn with
  | nil => rfl
  | append_singleton ws w ih =>
    rw [Seqlock.Protocol.value_concat, identity_apply, ih, List.foldl_append]
    rfl

/-! ## The identity of the pacer -/

section Writes

variable {env : Env} {p : Pacer}

theorem rxIdentityPass_writes (p : Pacer) (frame : List UInt8) :
    (rxIdentityPass p frame).rxIdentity = (p.ingestWrites frame).foldl IdentityWrite.apply p.rxIdentity := by
  unfold Pacer.ingestWrites
  cases hours : p.fromOurs frame with
  | false => simp [rxIdentityPass, hours]
  | true =>
    have hfeed := congrArg Prod.snd (rxIdentityPass_feed hours)
    unfold identityFeed at hfeed
    dsimp only at hfeed
    rw [hfeed]
    cases identityReply frame with
    | some r => rfl
    | none =>
      rcases identityFragment p.rxIdentityFrag frame with ⟨f, _ | r⟩
      · rfl
      · rfl

theorem syncPublishedBox_writes (p : Pacer) :
    (syncPublishedBox p).rxIdentity = p.syncWrites.foldl IdentityWrite.apply p.rxIdentity ∧
      (syncPublishedBox p).syncWrites = p.syncWrites := by
  unfold syncPublishedBox Pacer.syncWrites
  dsimp only
  by_cases hbox : p.master.hasBox = true
  · rw [if_pos hbox, if_pos hbox]
    exact ⟨rfl, rfl⟩
  · rw [if_neg hbox, if_neg hbox]
    exact ⟨rfl, if_neg hbox⟩

theorem noteTransition_identity (env : Env) (p : Pacer) (src dst : MasterState) :
    (noteTransition env p src dst).1.rxIdentity = p.rxIdentity ∧
      (noteTransition env p src dst).1.syncWrites = p.syncWrites := by
  unfold noteTransition
  split_ifs <;> exact ⟨rfl, rfl⟩

theorem rxDeclare_identity (p : Pacer) (frame : List UInt8) : (rxDeclare p frame).rxIdentity = p.rxIdentity := by
  unfold rxDeclare
  split
  · rfl
  · dsimp only
    split_ifs <;> rfl

/-- A frame makes of the identity what it writes. -/
theorem rxIngest_writes (env : Env) (p : Pacer) (bytes : List UInt8) :
    (rxIngest env p bytes).1.rxIdentity =
      (identityWrites env p (.frame bytes)).foldl IdentityWrite.apply p.rxIdentity := by
  obtain ⟨_, _, _, hpass⟩ := rxIdentityPass_eq p (cleanFrame bytes)
  have hsrc : (rxIdentityPass p (cleanFrame bytes)).src = p.src := by rw [hpass]
  have hwrites := rxIdentityPass_writes p (cleanFrame bytes)
  unfold identityWrites
  dsimp only
  rw [List.foldl_append, ← hwrites]
  cases hclass : classifyBoxFrame (cleanFrame bytes) p.src with
  | none =>
    unfold rxIngest
    dsimp only
    rw [hsrc, hclass]
    rfl
  | some taken =>
    obtain ⟨parsed, ev⟩ := taken
    dsimp only
    by_cases hacc : (rxIdentityPass p (cleanFrame bytes)).master.peerAccepts parsed.src ev = true
    · rw [if_pos hacc]
      have hsynced : ∃ q : Pacer, q.rxIdentity = (rxIdentityPass p (cleanFrame bytes)).rxIdentity ∧
          (rxIngest env p bytes).1.rxIdentity = (syncPublishedBox q).rxIdentity ∧
          (rxIngest env p bytes).1.syncWrites = (syncPublishedBox q).syncWrites := by
        have hdecl := rxDeclare_identity (rxIdentityPass p (cleanFrame bytes)) (cleanFrame bytes)
        unfold rxIngest
        dsimp only
        rw [hsrc, hclass]
        dsimp only
        rw [hacc]
        generalize rxDeclare (rxIdentityPass p (cleanFrame bytes)) (cleanFrame bytes) = q at hdecl ⊢
        generalize (if ev = .join then some (blockOf (cleanFrame bytes)) else none) = blk
        refine ⟨{ q with master := (masterRx q.headamp q.master ev parsed.src blk).1 }, hdecl, ?_⟩
        simp only [Bool.not_true, Bool.false_eq_true, if_false]
        split_ifs
        · exact noteTransition_identity env _ _ _
        · exact ⟨rfl, rfl⟩
      obtain ⟨q, hid, hrx, hsync⟩ := hsynced
      have hq := syncPublishedBox_writes q
      rw [hrx, hsync, hq.2, hq.1, hid]
    · rw [if_neg hacc]
      unfold rxIngest
      dsimp only
      rw [hsrc, hclass]
      simp [hacc]

theorem masterSlot_writes (env : Env) (p : Pacer) : (masterSlot env p).1.rxIdentity =
    (if (masterNext env.tunables p.headamp p.master).1.state ≠ p.prevState then (masterSlot env p).1.syncWrites
      else []).foldl IdentityWrite.apply p.rxIdentity := by
  obtain ⟨headamp, ctrl, heq, -⟩ := masterSlot_cases env p
  rw [heq]
  split_ifs
  · obtain ⟨hid, hsync⟩ := noteTransition_identity env
      { p with master := (masterNext env.tunables p.headamp p.master).1, headamp, headampCmds := [] }
      p.prevState (masterNext env.tunables p.headamp p.master).1.state
    have hq := syncPublishedBox_writes (noteTransition env
      { p with master := (masterNext env.tunables p.headamp p.master).1, headamp, headampCmds := [] }
      p.prevState (masterNext env.tunables p.headamp p.master).1.state).1
    dsimp only
    rw [hq.2, hq.1, hid]
  · rfl

/-- An identity the pacer holds in the course of a run: after some of its inputs, or within one, when the
record of a frame has been taken and the box is still to be forgotten. -/
def HeldIdentity (env : Env) (p : Pacer) (is : List PacerInput) (id : Identity) : Prop :=
  (∃ is₁, is₁ <+: is ∧ id = ((pacerMachine env).run p is₁).rxIdentity) ∨
    ∃ is₁ bytes, is₁ ++ [.frame bytes] <+: is ∧
      id = (rxIdentityPass ((pacerMachine env).run p is₁) (cleanFrame bytes)).rxIdentity

/-- A step of the pacer makes of its identity what it writes under the lock. -/
theorem pacerStep_writes (env : Env) (p : Pacer) (i : PacerInput) : (pacerStep env p i).1.rxIdentity =
    (identityWrites env p i).foldl IdentityWrite.apply p.rxIdentity := by
  cases i with
  | frame bytes => exact rxIngest_writes env p bytes
  | slot =>
    have hdrain : (rateDrain env p).1.rxIdentity = p.rxIdentity := by
      unfold rateDrain
      split_ifs <;> rfl
    have hsame : (pacerSlot env p).1 = (masterSlot env (rateDrain env p).1).1 := by rw [pacerSlot_eq]
    unfold identityWrites
    rw [(pacerStep_slot_eq env p).1, masterSlot_writes, hdrain, hsame]
  | requestRate | requestReestablish => rfl
  | headampSet ch param value =>
    change (headampSet p ch param value).rxIdentity = p.rxIdentity
    unfold headampSet
    split_ifs <;> rfl

theorem ingestWrites_length (p : Pacer) (frame : List UInt8) : (p.ingestWrites frame).length ≤ 1 := by
  unfold Pacer.ingestWrites
  split_ifs
  · simp
  · split <;> simp

theorem syncWrites_length (p : Pacer) : p.syncWrites.length ≤ 1 := by
  unfold Pacer.syncWrites
  split_ifs <;> simp

theorem prefix_of_length_le_one {α : Type*} {l l' : List α} (h : l <+: l') (hlen : l'.length ≤ 1) :
    l = [] ∨ l = l' := by
  by_cases hnil : l = []
  · exact .inl hnil
  · have hpos := List.length_pos_of_ne_nil hnil
    exact .inr (h.eq_of_length_le (by omega))

/-- The writes of a step, cut short: none, all of them, or the record of a frame whose box is still to be
forgotten. -/
theorem identityWrites_prefix (env : Env) (p : Pacer) (i : PacerInput) {ws : List IdentityWrite}
    (h : ws <+: identityWrites env p i) :
    ws = [] ∨ ws = identityWrites env p i ∨
      ∃ bytes, i = .frame bytes ∧ ws = p.ingestWrites (cleanFrame bytes) := by
  cases i with
  | requestRate | requestReestablish | headampSet => exact .inl (List.prefix_nil.mp h)
  | slot =>
    refine (prefix_of_length_le_one h ?_).imp_right .inl
    unfold identityWrites
    dsimp only
    split_ifs
    · exact syncWrites_length _
    · exact Nat.zero_le _
  | frame bytes =>
    obtain ⟨sync, heq, hlen⟩ : ∃ sync, identityWrites env p (.frame bytes) =
        p.ingestWrites (cleanFrame bytes) ++ sync ∧ sync.length ≤ 1 := by
      refine ⟨_, rfl, ?_⟩
      split
      · split_ifs
        · exact syncWrites_length _
        · exact Nat.zero_le _
      · exact Nat.zero_le _
    rw [heq] at h ⊢
    rcases List.prefix_or_prefix_of_prefix h (List.prefix_append _ _) with hshort | ⟨ws', rfl⟩
    · rcases prefix_of_length_le_one hshort (ingestWrites_length _ _) with rfl | rfl
      · exact .inl rfl
      · exact .inr (.inr ⟨bytes, rfl, rfl⟩)
    · rcases prefix_of_length_le_one ((List.prefix_append_right_inj _).mp h) hlen with rfl | rfl
      · exact .inr (.inr ⟨bytes, rfl, List.append_nil _⟩)
      · exact .inr (.inl rfl)

/-- The identity of the pacer is what its writes make of it: a run of writes cut short leaves the one it had
after some of its inputs, or after the record of a frame whose box was still to be forgotten. -/
theorem identityWritesOf_prefix (env : Env) {ws : List IdentityWrite} : ∀ {p : Pacer} {is : List PacerInput},
    ws <+: identityWritesOf env p is →
      HeldIdentity env p is (ws.foldl IdentityWrite.apply p.rxIdentity) := by
  intro p is
  induction is generalizing p ws with
  | nil =>
    intro h
    rw [List.prefix_nil.mp h]
    exact .inl ⟨[], List.prefix_refl _, rfl⟩
  | cons i is ih =>
    intro h
    have hstep := pacerStep_writes env p i
    rcases List.prefix_or_prefix_of_prefix h (List.prefix_append _ _) with hshort | ⟨ws', rfl⟩
    · rcases identityWrites_prefix env p i hshort with rfl | rfl | ⟨bytes, rfl, rfl⟩
      · exact .inl ⟨[], List.nil_prefix, rfl⟩
      · exact .inl ⟨[i], ⟨is, rfl⟩, hstep.symm⟩
      · exact .inr ⟨[], bytes, ⟨is, rfl⟩, (rxIdentityPass_writes p _).symm⟩
    · have hrest : ws' <+: identityWritesOf env (pacerStep env p i).1 is := (List.prefix_append_right_inj _).mp h
      rw [List.foldl_append, ← hstep]
      rcases ih hrest with ⟨is₁, his, heq⟩ | ⟨is₁, bytes, his, heq⟩
      · exact .inl ⟨i :: is₁, (List.prefix_cons_inj i).mpr his, heq⟩
      · exact .inr ⟨i :: is₁, bytes, (List.prefix_cons_inj i).mpr his, heq⟩

end Writes

/-! ## What is read of it -/

/-- An identity whose parts belong together: a version is that of the record it came with. -/
structure Identity.Coherent (id : Identity) : Prop where
  firmware : id.hasFw = false → id.fwMilli = 0
  name : id.hasModelName = true ↔ id.modelName ≠ []
  version : id.hasReacVersion = true →
    id.reacVersionMajor = u16be (byteAt id.reacVersionRaw 2) (byteAt id.reacVersionRaw 3) ∧
      id.reacVersionMinor = u16be (byteAt id.reacVersionRaw 4) (byteAt id.reacVersionRaw 5) ∧
      id.reacVersionPatch = u16be (byteAt id.reacVersionRaw 6) (byteAt id.reacVersionRaw 7)

theorem Identity.Coherent.blank : Identity.Coherent {} := ⟨fun _ => rfl, by simp, by rintro ⟨⟩⟩

theorem Identity.Coherent.ingest {id : Identity} (h : id.Coherent) (addrLo : UInt16) (payload : List UInt8) :
    (identityIngest id addrLo payload).Coherent := by
  unfold identityIngest
  split_ifs with hfw hname hver hshort
  · cases firmwareMilli payload with
    | none => exact h
    | some v => exact ⟨by rintro ⟨⟩, h.name, h.version⟩
  · unfold storeModelName
    dsimp only
    split_ifs with hempty
    · exact h
    · exact ⟨h.firmware, by simpa using hempty, h.version⟩
  · exact h
  · have hbyte : ∀ i < 8, byteAt (payload.take 8) i = byteAt payload i := by
      intro i hi
      unfold byteAt
      rw [List.getD_eq_getElem?_getD, List.getD_eq_getElem?_getD, List.getElem?_take_of_lt hi]
    refine ⟨h.firmware, h.name, fun _ => ?_⟩
    dsimp only
    simp only [hbyte _ (show 2 < 8 by omega), hbyte _ (show 3 < 8 by omega), hbyte _ (show 4 < 8 by omega),
      hbyte _ (show 5 < 8 by omega), hbyte _ (show 6 < 8 by omega), hbyte _ (show 7 < 8 by omega), and_self]
  · exact h

theorem Identity.Coherent.writes {id : Identity} (h : id.Coherent) (ws : List IdentityWrite) :
    (ws.foldl IdentityWrite.apply id).Coherent := by
  induction ws generalizing id with
  | nil => exact h
  | cons w ws ih =>
    refine ih ?_
    cases w with
    | ingest addrLo payload => exact h.ingest addrLo payload
    | forget =>
      unfold IdentityWrite.apply
      dsimp only
      split_ifs
      · exact .blank
      · exact h

/-- While a pacer runs and another thread reads the identity of its box, in any order of their loads and
stores, what is returned is what the writes before the read made of it. That is an identity the pacer held,
and its parts belong together. -/
theorem identity_is_whole (env : Env) (cfg : PacerCfg) (is : List PacerInput)
    {ms : List (Move IdentityMem IdentityWrite)}
    {log : List (SeqStep IdentityMem IdentityWrite)}
    {e : SeqStep IdentityMem IdentityWrite} {out : IdentityMem}
    (hwriter : calls (publishedIdentity.machine.trace { data := {} } ms) <+:
      identityWritesOf env (pacerOpen env cfg) is)
    (he : publishedIdentity.machine.StepOf { data := {} } ms log e) (hout : e.out = some out) :
    ∃ before l after, log = before ++ l :: after ∧ Loads l ∧ (∀ x ∈ after, ¬ Loads x) ∧
      ((publishedIdentity.requests after).length < 2147483648 →
        out.identity = (calls before).foldl IdentityWrite.apply {} ∧
          HeldIdentity env (pacerOpen env cfg) is out.identity ∧ out.identity.Coherent) := by
  obtain ⟨before, l, after, hlog, hl, hafter, hkept⟩ := Seqlock.Protocol.kept he hout
  refine ⟨before, l, after, hlog, hl, hafter, fun hfew => ?_⟩
  obtain ⟨-, out₀, hcopied⟩ := hkept hfew
  have hid : out.identity = (calls before).foldl IdentityWrite.apply {} := by
    rw [hcopied, ← identity_value]
    exact congrArg IdentityMem.identity (identity_copied _ _)
  have hbefore : calls before <+: identityWritesOf env (pacerOpen env cfg) is := by
    refine List.IsPrefix.trans ?_ hwriter
    obtain ⟨post, htrace⟩ := he
    rw [htrace, hlog, List.append_assoc]
    unfold calls
    rw [List.filterMap_append]
    exact List.prefix_append _ _
  rw [hid]
  exact ⟨rfl, identityWritesOf_prefix env hbefore, Identity.Coherent.blank.writes _⟩

/-- The version of an S-0808 comes in, is stored and is read. -/
def versionMoves : List (Move IdentityMem IdentityWrite) :=
  .request (.ingest 0x0600 [0, 0, 0, 2, 0, 0, 0, 0]) :: List.replicate 13 .store ++
    .load {} :: List.replicate 32 .copy

theorem identity_is_whole_version : ∃ log e out,
    publishedIdentity.machine.StepOf { data := {} } (versionMoves ++ [.copy]) log e ∧ e.out = some out ∧
      ∃ before l after, log = before ++ l :: after ∧ Loads l ∧ (∀ x ∈ after, ¬ Loads x) ∧
        ((publishedIdentity.requests after).length < 2147483648 →
          out.identity = (calls before).foldl IdentityWrite.apply {} ∧
            HeldIdentity deskEnv (pacerOpen deskEnv deskCfg) [.frame (frameS0808 (buildReacVersion rowS0808))]
              out.identity ∧ out.identity.Coherent) := by
  have hstep := publishedIdentity.machine.stepOf_last { data := {} } versionMoves .copy
  have hsome : ((publishedIdentity.machine.event
      (publishedIdentity.machine.run { data := {} } versionMoves) .copy).out).isSome = true := by decide +kernel
  have hcalls : calls (publishedIdentity.machine.trace { data := {} } (versionMoves ++ [.copy])) =
      [.ingest 0x0600 [0, 0, 0, 2, 0, 0, 0, 0]] := by decide +kernel
  have hwrites : (pacerOpen deskEnv deskCfg).ingestWrites
      (cleanFrame (frameS0808 (buildReacVersion rowS0808))) = [.ingest 0x0600 [0, 0, 0, 2, 0, 0, 0, 0]] := by
    decide +kernel
  obtain ⟨out, hout⟩ := Option.isSome_iff_exists.mp hsome
  refine ⟨_, _, out, hstep, hout, identity_is_whole deskEnv deskCfg _ ?_ hstep hout⟩
  rw [hcalls, identityWritesOf, identityWrites, hwrites, List.append_assoc]
  exact List.prefix_append _ _

end Libreac
