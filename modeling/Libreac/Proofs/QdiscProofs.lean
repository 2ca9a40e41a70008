import Libreac.Proofs.NetlinkProofs
import Libreac.Qdisc

/-!
# Proofs: reading back the qdiscs of a device

What a dump says is what its messages say in front of the first that ends it (`dumped`); the loops come to
that and read nothing else, whatever the replies are. So the counters are right: they are the sum over the
etf qdiscs of a dump that came to its end. The state is right as long as the dump either came to its end, or
lists an etf qdisc, or brought no reply at all.
-/

namespace Libreac

open Records (Fault Rest byte u16 u32 u16At u32At bytesAt padded starts scan scan_starts peek_rest u16At_rest
  u32At_rest bytesAt_rest mem_starts suffix_of_mem_starts)

/-! ## What a dump says -/

/-- The complete attributes of a buffer. -/
def attrsIn (buf : List UInt8) : List (List UInt8) :=
  (starts 4 rtaLen (fun _ => false) buf.length buf).map fun r => r.take (rtaLen r)

/-- The kind of a qdisc with these attributes: what its first kind says in front of a NUL. -/
def kindOf (attrs : List UInt8) : Option (List UInt8) :=
  match (attrsIn attrs).find? fun a => u16 a 2 = tcaKind with
  | none => none
  | some a => if 0 ∈ a.drop 4 then some ((a.drop 4).takeWhile (· ≠ 0)) else none

/-- The last attribute of a type. -/
def lastAttr (type : UInt16) (attrs : List UInt8) : Option (List UInt8) :=
  ((attrsIn attrs).filter fun a => u16 a 2 = type).getLast?

/-- An attribute within the newer statistics. -/
def take2 (o : EtfQdiscStats) (a : List UInt8) : EtfQdiscStats :=
  if u16 a 2 = tcaStatsBasic ∧ 16 ≤ (a.drop 4).length then o.addBasic (a.drop 4)
  else if u16 a 2 = tcaStatsQueue ∧ 20 ≤ (a.drop 4).length then o.addQueue (a.drop 4)
  else o

/-- The counters of a qdisc with these attributes, which counts once. -/
def etfCountersOf (attrs : List UInt8) : EtfQdiscStats :=
  match lastAttr tcaStats2 attrs, lastAttr tcaStats attrs with
  | some a, _ => (attrsIn (a.drop 4)).foldl take2 { qdiscs := 1 }
  | none, some a =>
    if 40 ≤ (a.drop 4).length then ({ qdiscs := 1 } : EtfQdiscStats).addTcStats (a.drop 4) else { qdiscs := 1 }
  | none, none => { qdiscs := 1 }

/-- The message is about a qdisc of the device. -/
def isQdiscOf (ifindex : Int32) (msg : List UInt8) : Bool :=
  u16 msg 4 = rtmNewqdisc ∧ 36 ≤ msg.length ∧ (u32 msg 20).toInt32 = ifindex

/-- The attributes of such a message. -/
def qdiscAttrs (msg : List UInt8) : List UInt8 := msg.drop 36

/-- The replies that arrive, when the dump is asked for at all. -/
def repliesIn : ℕ → List DumpRead → List (List UInt8)
  | 0, _ => []
  | _ + 1, [] => []
  | _ + 1, .failed _ :: _ => []
  | n + 1, .received bytes :: reads => if bytes = [] then [] else bytes.take dumpBuf :: repliesIn n reads

def DumpIo.replies (ifindex : Int32) (io : DumpIo) : List (List UInt8) :=
  if ifindex ≤ 0 ∨ io.refused.isSome then [] else repliesIn 64 io.reads

/-- All that these replies say. -/
def messagesIn (replies : List (List UInt8)) : List (List UInt8) := replies.flatMap (messagesOf fun _ => false)

/-- The dump, in front of the message that ends it. -/
def dumped (msgs : List (List UInt8)) : List (List UInt8) := msgs.takeWhile fun m => !isTerminator m

/-- The message that ends the dump says that it is complete. -/
def completed (msgs : List (List UInt8)) : Bool := (msgs.find? isTerminator).any fun m => u16 m 4 = nlmsgDone

/-- The etf qdiscs of the device that the dump lists. -/
def etfQdiscs (ifindex : Int32) (msgs : List (List UInt8)) : List (List UInt8) :=
  ((dumped msgs).filter (isQdiscOf ifindex)).filter fun m => kindOf (qdiscAttrs m) = some etfKind

/-- All that is said of the device. -/
def DumpIo.said (ifindex : Int32) (io : DumpIo) : List (List UInt8) := messagesIn (io.replies ifindex)

/-! ## Sums of counters -/

instance : Add EtfQdiscStats where
  add a b :=
    { packets := a.packets + b.packets, bytes := a.bytes + b.bytes, drops := a.drops + b.drops
      overlimits := a.overlimits + b.overlimits, qdiscs := a.qdiscs + b.qdiscs }

instance : Zero EtfQdiscStats where
  zero := {}

theorem EtfQdiscStats.add_def (a b : EtfQdiscStats) : a + b =
    { packets := a.packets + b.packets, bytes := a.bytes + b.bytes, drops := a.drops + b.drops
      overlimits := a.overlimits + b.overlimits, qdiscs := a.qdiscs + b.qdiscs } := rfl

theorem EtfQdiscStats.zero_def : (0 : EtfQdiscStats) = {} := rfl

instance : AddCommMonoid EtfQdiscStats where
  add_assoc a b c := by
    simp only [EtfQdiscStats.add_def, EtfQdiscStats.mk.injEq]
    exact ⟨UInt64.add_assoc _ _ _, UInt64.add_assoc _ _ _, UInt64.add_assoc _ _ _, UInt64.add_assoc _ _ _,
      UInt32.add_assoc _ _ _⟩
  zero_add a := by
    simp only [EtfQdiscStats.add_def, EtfQdiscStats.zero_def, UInt64.zero_add, UInt32.zero_add]
  add_zero a := by
    simp only [EtfQdiscStats.add_def, EtfQdiscStats.zero_def, UInt64.add_zero, UInt32.add_zero]
  add_comm a b := by
    simp only [EtfQdiscStats.add_def, EtfQdiscStats.mk.injEq]
    exact ⟨UInt64.add_comm _ _, UInt64.add_comm _ _, UInt64.add_comm _ _, UInt64.add_comm _ _,
      UInt32.add_comm _ _⟩
  nsmul := nsmulRec

/-- Counters are added to what there is. -/
theorem EtfQdiscStats.addBasic_add (o p : EtfQdiscStats) (b : List UInt8) :
    (o + p).addBasic b = o + p.addBasic b := by
  simp only [addBasic, add_def, UInt64.add_assoc]

theorem EtfQdiscStats.addQueue_add (o p : EtfQdiscStats) (q : List UInt8) :
    (o + p).addQueue q = o + p.addQueue q := by
  simp only [addQueue, add_def, UInt64.add_assoc]

theorem EtfQdiscStats.addTcStats_add (o p : EtfQdiscStats) (s : List UInt8) :
    (o + p).addTcStats s = o + p.addTcStats s := by
  simp only [addTcStats, add_def, UInt64.add_assoc]

theorem take2_add (o p : EtfQdiscStats) (a : List UInt8) : take2 (o + p) a = o + take2 p a := by
  unfold take2
  split_ifs
  · exact EtfQdiscStats.addBasic_add o p _
  · exact EtfQdiscStats.addQueue_add o p _
  · rfl

theorem foldl_take2_add (as : List (List UInt8)) (o p : EtfQdiscStats) :
    as.foldl take2 (o + p) = o + as.foldl take2 p := by
  induction as generalizing p with
  | nil => rfl
  | cons a as ih => rw [List.foldl_cons, List.foldl_cons, take2_add, ih]

/-! ## The loops over attributes -/

section Attrs

variable {bytes rest : List UInt8} {stop off : UInt64}

/-- In a buffer of the size the source has, padding does not overflow. -/
theorem nlmsgAlign_padded (hbytes : bytes.length ≤ dumpBuf) :
    ∀ l ≤ bytes.length, (nlmsgAlign (UInt64.ofNat l)).toNat = padded l := by
  intro l hl
  have hbuf : bytes.length ≤ 16384 := hbytes
  rw [nlmsgAlign_toNat (by omega), Nat.mod_eq_of_lt (by omega)]
  rfl

/-- A loop over attributes comes to what its body does to each. -/
theorem attrScan_starts {σ : Type} {body : σ → UInt64 → UInt64 → Except Fault (σ × Bool)}
    {effect : σ → List UInt8 → σ} {halts : List UInt8 → Bool} (hbytes : bytes.length ≤ dumpBuf)
    (hr : Rest bytes stop off rest)
    (hbody : ∀ s a r, Rest bytes stop a r → 4 ≤ rtaLen r → rtaLen r ≤ r.length →
      body s a (UInt64.ofNat (rtaLen r)) = .ok (effect s r, !halts r)) (s : σ) :
    attrScan bytes stop body s off rest.length =
      .ok ((starts 4 rtaLen halts rest.length rest).foldl effect s) := by
  unfold attrScan
  rw [Int.toNat_natCast]
  exact scan_starts (show 0 < rtattrHdr.toNat by decide)
    (fun a r hr hlen => ⟨rtaLenAt_rest hr hlen, Nat.lt_trans (rtaLen_lt r) (by omega)⟩)
    (nlmsgAlign_padded hbytes) hbody hr (Nat.le_refl _) (Nat.lt_succ_self _)

/-- Most loops look at every attribute. -/
theorem attrScan_all {σ : Type} {body : σ → UInt64 → UInt64 → Except Fault (σ × Bool)}
    {effect : σ → List UInt8 → σ} (hbytes : bytes.length ≤ dumpBuf) (hr : Rest bytes stop off rest)
    (hbody : ∀ s a r, Rest bytes stop a r → 4 ≤ rtaLen r → rtaLen r ≤ r.length →
      body s a (UInt64.ofNat (rtaLen r)) = .ok (effect s r, true)) (s : σ) :
    attrScan bytes stop body s off rest.length =
      .ok ((starts 4 rtaLen (fun _ => false) rest.length rest).foldl effect s) :=
  attrScan_starts hbytes hr hbody s

/-- The complete attribute at the front of a buffer. -/
theorem attr_length {r : List UInt8} (h : rtaLen r ≤ r.length) : (r.take (rtaLen r)).length = rtaLen r := by
  rw [List.length_take, Nat.min_eq_left h]

theorem attr_payload_length {r : List UInt8} (h : rtaLen r ≤ r.length) :
    ((r.take (rtaLen r)).drop 4).length = rtaLen r - 4 := by
  rw [List.length_drop, attr_length h]

/-- What `qdisc_kind` answers for the first kind. -/
def kindIn (a : List UInt8) : Option (List UInt8) :=
  if 0 ∈ a.drop 4 then some ((a.drop 4).takeWhile (· ≠ 0)) else none

theorem kindAttr_rest (k : Option (List UInt8)) {a : UInt64} {r : List UInt8} (hr : Rest bytes stop a r)
    (hmin : 4 ≤ rtaLen r) (hmax : rtaLen r ≤ r.length) :
    kindAttr bytes stop k a (UInt64.ofNat (rtaLen r)) =
      .ok (if u16 r 2 = tcaKind then kindIn (r.take (rtaLen r)) else k, !decide (u16 r 2 = tcaKind)) := by
  have htype : u16At bytes stop (a + 2) = .ok (u16 r 2) := u16At_rest hr (k := 2) (by omega)
  unfold kindAttr
  rw [htype, attr_len hmin]
  dsimp only [bind, Except.bind]
  by_cases hkind : u16 r 2 = tcaKind
  · have hread : bytesAt bytes stop (a + 4) (rtaLen r - 4) = .ok ((r.drop 4).take (rtaLen r - 4)) :=
      bytesAt_rest hr (k := 4) (by omega)
    rw [if_neg (not_not.mpr hkind), hread, if_pos hkind, decide_eq_true hkind, kindIn, drop_attr]
    rfl
  · rw [if_pos hkind, if_neg hkind, decide_eq_false hkind]
    rfl

/-- The first kind is the one that counts. -/
theorem foldl_kind (n : ℕ) (rest : List UInt8) :
    (starts 4 rtaLen (fun r => u16 r 2 = tcaKind) n rest).foldl
        (fun k r => if u16 r 2 = tcaKind then kindIn (r.take (rtaLen r)) else k) none =
      (((starts 4 rtaLen (fun _ => false) n rest).map fun r => r.take (rtaLen r)).find? fun a =>
        u16 a 2 = tcaKind).bind kindIn := by
  induction n generalizing rest with
  | zero => rfl
  | succ n ih =>
    rw [starts, starts]
    split
    · rfl
    · rename_i hrest
      have htype : u16 (rest.take (rtaLen rest)) 2 = u16 rest 2 := u16_take (by omega) rest
      rw [List.map_cons, List.find?_cons, List.foldl_cons, htype]
      by_cases hkind : u16 rest 2 = tcaKind
      · rw [decide_eq_true hkind, if_pos hkind]
        rfl
      · rw [decide_eq_false hkind, if_neg hkind]
        exact ih _

theorem qdiscKind_rest (hbytes : bytes.length ≤ dumpBuf) (hr : Rest bytes stop off rest) :
    qdiscKind bytes stop off rest.length = .ok (kindOf rest) := by
  have hscan := attrScan_starts hbytes hr (fun k a r => kindAttr_rest k) none
  unfold qdiscKind
  rw [hscan, foldl_kind, kindOf, attrsIn]
  cases List.find? _ _ <;> rfl

/-- Where an attribute stands. -/
def addrOf (stop : UInt64) (r : List UInt8) : UInt64 := stop - UInt64.ofNat r.length

theorem addrOf_rest (hr : Rest bytes stop off rest) : addrOf stop rest = off := by
  have hlen := hr.len
  have hlt := stop.toNat_lt
  apply UInt64.toNat_inj.mp
  rw [addrOf, UInt64.toNat_sub_of_le, UInt64.toNat_ofNat']
  · omega
  · rw [UInt64.le_iff_toNat_le, UInt64.toNat_ofNat']
    omega

/-- An attribute that a loop has seen stands where it says. -/
theorem rest_of_mem_starts {halts : List UInt8 → Bool} {n : ℕ} {r : List UInt8} (hr : Rest bytes stop off rest)
    (h : r ∈ starts 4 rtaLen halts n rest) : Rest bytes stop (addrOf stop r) r := by
  obtain ⟨pre, rfl⟩ := suffix_of_mem_starts h
  have hdrop := hr.drop (k := pre.length) (by rw [List.length_append]; omega)
  rw [List.drop_left] at hdrop
  have haddr := addrOf_rest hdrop
  rw [haddr]
  exact hdrop

/-- What `stats_each` keeps of an attribute. -/
def noteStats (stop : UInt64) (st : Option UInt64 × Option UInt64) (r : List UInt8) :
    Option UInt64 × Option UInt64 :=
  (if u16 r 2 = tcaStats2 then some (addrOf stop r) else st.1,
    if u16 r 2 = tcaStats then some (addrOf stop r) else st.2)

theorem statsAttr_rest (st : Option UInt64 × Option UInt64) {a : UInt64} {r : List UInt8} (hr : Rest bytes stop a r)
    (hmin : 4 ≤ rtaLen r) (hmax : rtaLen r ≤ r.length) :
    statsAttr bytes stop st a (UInt64.ofNat (rtaLen r)) = .ok (noteStats stop st r, true) := by
  have htype : u16At bytes stop (a + 2) = .ok (u16 r 2) := u16At_rest hr (k := 2) (by omega)
  unfold statsAttr noteStats
  rw [htype, addrOf_rest hr]
  dsimp only [bind, Except.bind]
  by_cases hnew : u16 r 2 = tcaStats2
  · have hold : u16 r 2 ≠ tcaStats := by
      rw [hnew]
      decide
    rw [if_pos hnew, if_pos hnew, if_neg hold]
    rfl
  · rw [if_neg hnew, if_neg hnew]
    by_cases hold : u16 r 2 = tcaStats
    · rw [if_pos hold, if_pos hold]
      rfl
    · rw [if_neg hold, if_neg hold]
      rfl

/-- A loop that overwrites what it keeps is left with the last. -/
theorem foldl_last {α β : Type} (p : α → Bool) (f : α → β) (l : List α) (b : Option β) :
    l.foldl (fun b a => if p a then some (f a) else b) b = ((l.filter p).getLast?.map f).or b := by
  induction l generalizing b with
  | nil => rfl
  | cons a l ih =>
    rw [List.foldl_cons, ih, List.filter_cons]
    by_cases hp : p a = true
    · rw [if_pos hp, if_pos hp, List.getLast?_cons]
      cases (l.filter p).getLast? <;> rfl
    · rw [if_neg hp, if_neg hp]

theorem foldl_noteStats (l : List (List UInt8)) (st : Option UInt64 × Option UInt64) :
    l.foldl (noteStats stop) st =
      (((l.filter fun r => u16 r 2 = tcaStats2).getLast?.map (addrOf stop)).or st.1,
        ((l.filter fun r => u16 r 2 = tcaStats).getLast?.map (addrOf stop)).or st.2) := by
  rw [← foldl_last, ← foldl_last]
  induction l generalizing st with
  | nil => rfl
  | cons r l ih =>
    rw [List.foldl_cons, ih, List.foldl_cons, List.foldl_cons]
    simp only [noteStats, decide_eq_true_eq]

/-- The last attribute of a type, and where it stands. -/
theorem lastAttr_eq (type : UInt16) (rest : List UInt8) :
    lastAttr type rest =
      ((starts 4 rtaLen (fun _ => false) rest.length rest).filter fun r => u16 r 2 = type).getLast?.map
        fun r => r.take (rtaLen r) := by
  have htype : ∀ r ∈ starts 4 rtaLen (fun _ => false) rest.length rest,
      ((fun a => decide (u16 a 2 = type)) ∘ fun r => r.take (rtaLen r)) r = decide (u16 r 2 = type) := by
    intro r hr
    have hmin : 4 ≤ rtaLen r := (mem_starts (show r ∈ starts rtattrHdr.toNat _ _ _ _ from hr)).1
    show decide (u16 (r.take (rtaLen r)) 2 = type) = _
    rw [u16_take (by omega)]
  rw [lastAttr, attrsIn, List.filter_map, List.filter_congr htype, List.getLast?_map]

theorem byte_take {l k : ℕ} (hk : k < l) (r : List UInt8) : byte (r.take l) k = byte r k := by
  unfold Records.byte
  rw [List.getD_eq_getElem?_getD, List.getD_eq_getElem?_getD, List.getElem?_take_of_lt hk]

theorem u32_take {l k : ℕ} (hk : k + 4 ≤ l) (r : List UInt8) : u32 (r.take l) k = u32 r k := by
  unfold Records.u32
  rw [byte_take (by omega), byte_take (by omega), byte_take (by omega), byte_take (by omega)]

/-- No field lies behind what is copied. -/
theorem addBasic_take (o : EtfQdiscStats) (b : List UInt8) : o.addBasic (b.take 16) = o.addBasic b := by
  unfold EtfQdiscStats.addBasic u64
  rw [u32_take (by omega), u32_take (by omega), u32_take (by omega)]

theorem addQueue_take (o : EtfQdiscStats) (q : List UInt8) : o.addQueue (q.take 20) = o.addQueue q := by
  unfold EtfQdiscStats.addQueue
  rw [u32_take (by omega), u32_take (by omega)]

theorem addTcStats_take (o : EtfQdiscStats) (s : List UInt8) : o.addTcStats (s.take 40) = o.addTcStats s := by
  unfold EtfQdiscStats.addTcStats u64
  rw [u32_take (by omega), u32_take (by omega), u32_take (by omega), u32_take (by omega), u32_take (by omega)]

theorem take2Attr_rest (o : EtfQdiscStats) {a : UInt64} {r : List UInt8} (hr : Rest bytes stop a r)
    (hmin : 4 ≤ rtaLen r) (hmax : rtaLen r ≤ r.length) :
    take2Attr bytes stop o a (UInt64.ofNat (rtaLen r)) = .ok (take2 o (r.take (rtaLen r)), true) := by
  have htype : u16At bytes stop (a + 2) = .ok (u16 r 2) := u16At_rest hr (k := 2) (by omega)
  have hlen : ∀ n : ℕ, n < 16385 → (UInt64.ofNat n ≤ UInt64.ofNat (rtaLen r) - rtattrHdr ↔ n ≤ rtaLen r - 4) := by
    intro n hn
    rw [UInt64.le_iff_toNat_le, attr_len hmin, UInt64.toNat_ofNat', Nat.mod_eq_of_lt (by omega)]
  have hbasic : (16 : UInt64) ≤ UInt64.ofNat (rtaLen r) - rtattrHdr ↔ 16 ≤ rtaLen r - 4 := hlen 16 (by omega)
  have hqueue : (20 : UInt64) ≤ UInt64.ofNat (rtaLen r) - rtattrHdr ↔ 20 ≤ rtaLen r - 4 := hlen 20 (by omega)
  have hbytes : ∀ n ≤ rtaLen r - 4, bytesAt bytes stop (a + 4) n = .ok ((r.drop 4).take n) :=
    fun n hn => bytesAt_rest hr (k := 4) (by omega)
  unfold take2Attr take2
  rw [htype, u16_take (by omega), attr_payload_length hmax, drop_attr]
  dsimp only [bind, Except.bind]
  by_cases hisBasic : u16 r 2 = tcaStatsBasic ∧ 16 ≤ rtaLen r - 4
  · have hcopy : (r.drop 4).take 16 = ((r.drop 4).take (rtaLen r - 4)).take 16 := by
      rw [List.take_take, Nat.min_eq_left hisBasic.2]
    rw [if_pos ⟨hisBasic.1, hbasic.mpr hisBasic.2⟩, if_pos hisBasic, hbytes 16 hisBasic.2, hcopy]
    exact congrArg (fun o => Except.ok (o, true)) (addBasic_take o _)
  · rw [if_neg fun h => hisBasic ⟨h.1, hbasic.mp h.2⟩, if_neg hisBasic]
    by_cases hisQueue : u16 r 2 = tcaStatsQueue ∧ 20 ≤ rtaLen r - 4
    · have hcopy : (r.drop 4).take 20 = ((r.drop 4).take (rtaLen r - 4)).take 20 := by
        rw [List.take_take, Nat.min_eq_left hisQueue.2]
      rw [if_pos ⟨hisQueue.1, hqueue.mpr hisQueue.2⟩, if_pos hisQueue, hbytes 20 hisQueue.2, hcopy]
      exact congrArg (fun o => Except.ok (o, true)) (addQueue_take o _)
    · rw [if_neg fun h => hisQueue ⟨h.1, hqueue.mp h.2⟩, if_neg hisQueue]
      rfl

/-- The new statistics of a qdisc are those nested in the attribute. -/
theorem statsTake2_rest (hbytes : bytes.length ≤ dumpBuf) (o : EtfQdiscStats) {a : UInt64} {r : List UInt8}
    (hr : Rest bytes stop a r) (hmin : 4 ≤ rtaLen r) (hmax : rtaLen r ≤ r.length) :
    statsTake2 bytes stop o a = .ok ((attrsIn ((r.take (rtaLen r)).drop 4)).foldl take2 o) := by
  have hattr := hr.take hmax
  have hpayload : Rest bytes (a + UInt64.ofNat (rtaLen r)) (a + 4) ((r.take (rtaLen r)).drop 4) :=
    hattr.drop (by rw [attr_length hmax]; exact hmin)
  have hscan := attrScan_all hbytes hpayload (fun o a r => take2Attr_rest o) o
  unfold statsTake2
  rw [rtaLenAt_rest hr (by omega)]
  dsimp only [bind, Except.bind]
  rw [attr_len hmin, ← attr_payload_length hmax, hscan, attrsIn, List.foldl_map]

theorem statsTake1_rest (o : EtfQdiscStats) {a : UInt64} {r : List UInt8} (hr : Rest bytes stop a r)
    (hmin : 4 ≤ rtaLen r) (hmax : rtaLen r ≤ r.length) :
    statsTake1 bytes stop o a = .ok (if 40 ≤ ((r.take (rtaLen r)).drop 4).length then
      o.addTcStats ((r.take (rtaLen r)).drop 4) else o) := by
  have hlen : UInt64.ofNat (rtaLen r) - rtattrHdr < 40 ↔ ¬ 40 ≤ rtaLen r - 4 := by
    rw [UInt64.lt_iff_toNat_lt, attr_len hmin, not_le]
    rfl
  unfold statsTake1
  rw [rtaLenAt_rest hr (by omega), attr_payload_length hmax, drop_attr]
  dsimp only [bind, Except.bind]
  by_cases hlong : 40 ≤ rtaLen r - 4
  · have hread : bytesAt bytes stop (a + 4) 40 = .ok ((r.drop 4).take 40) := bytesAt_rest hr (k := 4) (by omega)
    have hcopy : (r.drop 4).take 40 = ((r.drop 4).take (rtaLen r - 4)).take 40 := by
      rw [List.take_take, Nat.min_eq_left hlong]
    rw [if_neg (fun h => hlen.mp h hlong), if_pos hlong, hread, hcopy]
    exact congrArg Except.ok (addTcStats_take o _)
  · rw [if_pos (hlen.mpr hlong), if_neg hlong]
    rfl

/-! ## A message about a qdisc -/

/-- A message with the attributes of a qdisc in a reply. -/
structure QdiscAt (bytes : List UInt8) (stop off : UInt64) (msg : List UInt8) : Prop where
  small : bytes.length ≤ dumpBuf
  rest : Rest bytes stop off msg
  long : 36 ≤ msg.length

theorem QdiscAt.attrs {msg : List UInt8} (h : QdiscAt bytes stop off msg) :
    Rest bytes stop (off + 36) (qdiscAttrs msg) := h.rest.drop h.long

theorem qdiscAttrs_length (msg : List UInt8) : (qdiscAttrs msg).length = msg.length - 36 := List.length_drop

/-- What `stats_each` makes of it. -/
def statsTakes (o : EtfQdiscStats) (msg : List UInt8) : EtfQdiscStats :=
  if kindOf (qdiscAttrs msg) = some etfKind then o + etfCountersOf (qdiscAttrs msg) else o

theorem statsEach_eq (o : EtfQdiscStats) {msg : List UInt8} (h : QdiscAt bytes stop off msg) :
    statsEach bytes stop o (off + 16) (off + 36) (msg.length - 36 : ℕ) = .ok (statsTakes o msg) := by
  have hattrs := h.attrs
  unfold statsEach statsTakes
  rw [← qdiscAttrs_length, qdiscKind_rest h.small hattrs]
  dsimp only [bind, Except.bind]
  by_cases hetf : kindOf (qdiscAttrs msg) = some etfKind
  · have hscan := attrScan_all h.small hattrs (fun st a r => statsAttr_rest st) (none, none)
    have hone : { o with qdiscs := o.qdiscs + 1 } = o + { qdiscs := 1 } := by
      simp only [EtfQdiscStats.add_def, UInt64.add_zero]
    rw [if_neg (not_not.mpr hetf), if_pos hetf, hscan, foldl_noteStats, hone, etfCountersOf, lastAttr_eq, lastAttr_eq]
    dsimp only
    rw [Option.or_none, Option.or_none]
    have hstands : ∀ type r, ((starts 4 rtaLen (fun _ => false) (qdiscAttrs msg).length (qdiscAttrs msg)).filter
        fun r => u16 r 2 = type).getLast? = some r →
          Rest bytes stop (addrOf stop r) r ∧ 4 ≤ rtaLen r ∧ rtaLen r ≤ r.length := by
      intro type r hlast
      have hmem := (List.mem_filter.mp (List.mem_of_getLast? hlast)).1
      exact ⟨rest_of_mem_starts hattrs hmem, mem_starts (show r ∈ starts rtattrHdr.toNat _ _ _ _ from hmem)⟩
    cases hnew : List.getLast? _ with
    | some r =>
      obtain ⟨hr, hmin, hmax⟩ := hstands _ r hnew
      show statsTake2 bytes stop _ (addrOf stop r) = _
      rw [statsTake2_rest h.small _ hr hmin hmax, foldl_take2_add]
      rfl
    | none =>
      cases hold : List.getLast? _ with
      | some r =>
        obtain ⟨hr, hmin, hmax⟩ := hstands _ r hold
        show statsTake1 bytes stop _ (addrOf stop r) = _
        rw [statsTake1_rest _ hr hmin hmax, EtfQdiscStats.addTcStats_add]
        refine congrArg Except.ok ?_
        show _ = o + if 40 ≤ _ then _ else _
        split_ifs <;> rfl
      | none => rfl
  · rw [if_pos hetf, if_neg hetf]
    rfl

/-- What `state_each` makes of it. -/
def stateTakes (cap : ℕ) (w : StateWalk) (msg : List UInt8) : StateWalk :=
  match kindOf (qdiscAttrs msg) with
  | none => w
  | some k =>
    { foundEtf := w.foundEtf || k = etfKind
      kind := if cap ≠ 0 ∧ w.kind = [] ∧ u32 msg 28 = tcHRoot then k.take (cap - 1) else w.kind }

theorem stateEach_eq (cap : ℕ) (w : StateWalk) {msg : List UInt8} (h : QdiscAt bytes stop off msg) :
    stateEach cap bytes stop w (off + 16) (off + 36) (msg.length - 36 : ℕ) = .ok (stateTakes cap w msg) := by
  have hparent : u32At bytes stop (off + 16 + 12) = .ok (u32 msg 28) := by
    have hlong := h.long
    have hread : u32At bytes stop (off + UInt64.ofNat 28) = .ok (u32 msg 28) := u32At_rest h.rest (by omega)
    rw [UInt64.add_assoc]
    exact hread
  unfold stateEach stateTakes
  rw [← qdiscAttrs_length, qdiscKind_rest h.small h.attrs]
  dsimp only [bind, Except.bind]
  cases kindOf (qdiscAttrs msg) with
  | none => rfl
  | some k =>
    have hfound : (if k = etfKind then { w with foundEtf := true } else w) =
        { w with foundEtf := w.foundEtf || k = etfKind } := by
      by_cases hetf : k = etfKind
      · rw [if_pos hetf, decide_eq_true hetf, Bool.or_true]
      · rw [if_neg hetf, decide_eq_false hetf, Bool.or_false]
    dsimp only
    rw [hfound, hparent]
    dsimp only
    by_cases hroom : cap ≠ 0 ∧ w.kind = []
    · rw [if_pos hroom]
      by_cases hroot : u32 msg 28 = tcHRoot
      · rw [if_pos hroot, if_pos ⟨hroom.1, hroom.2, hroot⟩]
        rfl
      · rw [if_neg hroot, if_neg fun h => hroot h.2.2]
        rfl
    · rw [if_neg hroom, if_neg fun h => hroom ⟨h.1, h.2.1⟩]
      rfl

end Attrs

/-! ## The dump -/

section Dump

variable {σ : Type} (ifindex : Int32) (takes : σ → List UInt8 → σ)

/-- What the message that ends a dump makes of its result. -/
def endRc (msg : List UInt8) : ℤ :=
  if u16 msg 4 = nlmsgDone then 0
  else if 36 ≤ msg.length ∧ u32 msg 16 ≠ 0 then (u32 msg 16).toInt32.toInt
  else -eio

/-- What the loop over the messages makes of one. -/
def dumpStep (s : DumpState σ) (msg : List UInt8) : DumpState σ :=
  if isTerminator msg then { s with rc := endRc msg, done := true }
  else if isQdiscOf ifindex msg then { s with ctx := takes s.ctx msg }
  else s

/-- What the dump makes of it: nothing once it has ended. -/
def dumpTakes (s : DumpState σ) (msg : List UInt8) : DumpState σ :=
  if s.done then s else dumpStep ifindex takes s msg

theorem dumpStep_done (s : DumpState σ) {msg : List UInt8} (h : isTerminator msg = true) :
    (dumpStep ifindex takes s msg).done = true := by
  rw [dumpStep, if_pos h]

theorem dumpStep_goes (s : DumpState σ) {msg : List UInt8} (h : isTerminator msg = false) :
    (dumpStep ifindex takes s msg).done = s.done := by
  rw [dumpStep, h, if_neg Bool.false_ne_true]
  split <;> rfl

theorem dumpTakes_done {s : DumpState σ} (h : s.done = true) (msgs : List (List UInt8)) :
    msgs.foldl (dumpTakes ifindex takes) s = s := by
  induction msgs with
  | nil => rfl
  | cons m msgs ih => rw [List.foldl_cons, dumpTakes, if_pos h, ih]

/-- A whole dump: the qdiscs of the device up to the message that ends it, and what that says. -/
theorem foldl_dumpTakes (msgs : List (List UInt8)) (ctx : σ) (rc : ℤ) (readable : Bool) :
    msgs.foldl (dumpTakes ifindex takes) { ctx, rc, readable } =
      { ctx := ((dumped msgs).filter (isQdiscOf ifindex)).foldl takes ctx
        rc := (msgs.find? isTerminator).elim rc endRc
        done := (msgs.find? isTerminator).isSome, readable } := by
  induction msgs generalizing ctx with
  | nil => rfl
  | cons m msgs ih =>
    rw [List.foldl_cons, dumpTakes, if_neg Bool.false_ne_true, dumpStep, dumped, List.takeWhile_cons,
      List.find?_cons]
    cases hend : isTerminator m with
    | true => exact dumpTakes_done ifindex takes rfl msgs
    | false =>
      rw [if_neg Bool.false_ne_true]
      dsimp only
      rw [Bool.not_false, if_pos rfl, List.filter_cons]
      cases hof : isQdiscOf ifindex m with
      | true =>
        rw [if_pos rfl, if_pos rfl, List.foldl_cons]
        exact ih _
      | false =>
        rw [if_neg Bool.false_ne_true, if_neg Bool.false_ne_true]
        exact ih _

variable {each : QdiscEachFn σ}
  (heach : ∀ (bytes : List UInt8) (stop off : UInt64) (ctx : σ) (msg : List UInt8), QdiscAt bytes stop off msg →
    each bytes stop ctx (off + 16) (off + 36) (msg.length - 36 : ℕ) = .ok (takes ctx msg))

include heach

theorem dumpMessage_rest {bytes rest : List UInt8} {off : UInt64} (hsmall : bytes.length ≤ dumpBuf)
    (s : DumpState σ) (hr : Rest bytes (UInt64.ofNat bytes.length) off rest)
    (hmin : 16 ≤ nlmsgLen rest) (hmax : nlmsgLen rest ≤ rest.length) :
    dumpMessage ifindex each bytes s off (UInt64.ofNat (nlmsgLen rest)) =
      .ok (dumpStep ifindex takes s (rest.take (nlmsgLen rest)), !isTerminator (rest.take (nlmsgLen rest))) := by
  have hm := hr.take hmax
  have hlen : (rest.take (nlmsgLen rest)).length = nlmsgLen rest := by
    rw [List.length_take, Nat.min_eq_left hmax]
  generalize hmsg : rest.take (nlmsgLen rest) = msg at hm hlen ⊢
  have htype : u16At bytes (off + UInt64.ofNat (nlmsgLen rest)) (off + 4) = .ok (u16 msg 4) :=
    u16At_rest hm (k := 4) (by omega)
  have hnat : (UInt64.ofNat (nlmsgLen rest)).toNat = nlmsgLen rest := by
    have hlt := nlmsgLen_lt rest
    rw [UInt64.toNat_ofNat']
    omega
  have hlong : (36 : UInt64) ≤ UInt64.ofNat (nlmsgLen rest) ↔ 36 ≤ msg.length := by
    rw [UInt64.le_iff_toNat_le, hnat, hlen]
    rfl
  unfold dumpMessage dumpStep
  dsimp only [bind, Except.bind]
  rw [htype]
  dsimp only
  by_cases hdone : u16 msg 4 = nlmsgDone
  · have hend : isTerminator msg = true := decide_eq_true (.inl hdone)
    rw [if_pos hdone, hend, if_pos rfl, endRc, if_pos hdone]
    rfl
  rw [if_neg hdone]
  by_cases herror : u16 msg 4 = nlmsgError
  · have hend : isTerminator msg = true := decide_eq_true (.inr herror)
    rw [if_pos herror, hend, if_pos rfl, endRc, if_neg hdone]
    by_cases hfull : 36 ≤ msg.length
    · have hread : u32At bytes (off + UInt64.ofNat (nlmsgLen rest)) (off + 16) = .ok (u32 msg 16) :=
        u32At_rest hm (k := 16) (by omega)
      rw [if_pos (hlong.mpr hfull), hread]
      by_cases hzero : u32 msg 16 ≠ 0
      · rw [if_pos ⟨hfull, hzero⟩]
        dsimp only
        rw [if_pos hzero]
        rfl
      · rw [if_neg fun h => hzero h.2]
        dsimp only
        rw [if_neg hzero]
        rfl
    · rw [if_neg (fun h => hfull (hlong.mp h)), if_neg fun h => hfull h.1]
      rfl
  have hend : isTerminator msg = false := decide_eq_false (not_or.mpr ⟨hdone, herror⟩)
  rw [if_neg herror, hend, if_neg Bool.false_ne_true]
  by_cases hqdisc : u16 msg 4 = rtmNewqdisc ∧ 36 ≤ msg.length
  · have hread : u32At bytes (off + UInt64.ofNat (nlmsgLen rest)) (off + 20) = .ok (u32 msg 20) :=
      u32At_rest hm (k := 20) (by omega)
    rw [if_pos ⟨hqdisc.1, hlong.mpr hqdisc.2⟩, hread]
    dsimp only
    by_cases hindex : (u32 msg 20).toInt32 = ifindex
    · have hof : isQdiscOf ifindex msg = true := decide_eq_true ⟨hqdisc.1, hqdisc.2, hindex⟩
      have hcall := heach bytes _ off s.ctx msg ⟨hsmall, hm, hqdisc.2⟩
      rw [hlen] at hcall
      rw [if_pos hindex, hof, if_pos rfl, hnat, hcall]
      rfl
    · have hof : isQdiscOf ifindex msg = false := decide_eq_false fun h => hindex h.2.2
      rw [if_neg hindex, hof, if_neg Bool.false_ne_true]
      rfl
  · have hof : isQdiscOf ifindex msg = false := decide_eq_false fun h => hqdisc ⟨h.1, h.2.1⟩
    rw [if_neg fun h => hqdisc ⟨h.1, hlong.mp h.2⟩, hof, if_neg Bool.false_ne_true]
    rfl

/-- The loop over a reply comes to an end in it, having taken its messages. -/
theorem dumpReply_eq {bytes : List UInt8} (hsmall : bytes.length ≤ dumpBuf) {s : DumpState σ}
    (hs : s.done = false) : dumpReply ifindex each s bytes =
      .ok ((messagesOf (fun _ => false) bytes).foldl (dumpTakes ifindex takes) s) := by
  have hbuf : bytes.length ≤ 16384 := hsmall
  have hrest : Rest bytes (UInt64.ofNat bytes.length) 0 bytes := by
    refine ⟨?_, ?_, ?_⟩
    · rw [UInt64.toNat_ofNat', Nat.mod_eq_of_lt (by omega), List.take_length]
      rfl
    · rw [UInt64.toNat_ofNat', Nat.mod_eq_of_lt (by omega)]
    · exact Nat.zero_le _
  have hscan := scan_starts (show 0 < nlmsgHdr.toNat by decide)
    (fun off r hr hlen => ⟨nlmsgLenAt_rest hr hlen, nlmsgLen_lt r⟩) (nlmsgAlign_padded hsmall)
    (fun s off r hr hmin hmax => dumpMessage_rest ifindex takes heach hsmall s hr hmin hmax) hrest
    (Nat.le_refl _) (Nat.lt_succ_self _) (s := s)
  unfold dumpReply
  rw [hscan, Records.foldl_starts_halts _ (fun s r => dumpStep_done ifindex takes s)
    (fun s r => dumpStep_goes ifindex takes s) _ _ hs, messagesOf, List.foldl_map]
  rfl

/-- The reads come to what the replies say; where no message ends the dump, its result is an error. -/
theorem dumpReads_eq (n : ℕ) (reads : List DumpRead) (ctx : σ) {rc₀ : ℤ} (hrc₀ : rc₀ ≠ 0) (readable : Bool) :
    ∃ rc, rc ≠ 0 ∧ dumpReads ifindex each n { ctx, rc := rc₀, readable } reads =
      .ok ((messagesIn (repliesIn n reads)).foldl (dumpTakes ifindex takes)
        { ctx, rc, readable := readable || !(repliesIn n reads).isEmpty }) := by
  have hquiet : ∀ (ctx : σ) (readable : Bool) {rc : ℤ}, rc ≠ 0 → ∃ rc', rc' ≠ 0 ∧
      (Except.ok { ctx, rc, readable } : Except Fault (DumpState σ)) =
        .ok ((messagesIn []).foldl (dumpTakes ifindex takes)
          { ctx, rc := rc', readable := readable || !([] : List (List UInt8)).isEmpty }) := by
    intro ctx readable rc hrc
    refine ⟨rc, hrc, ?_⟩
    rw [List.isEmpty_nil, Bool.not_true, Bool.or_false]
    rfl
  induction n generalizing reads ctx readable with
  | zero => exact hquiet ctx readable hrc₀
  | succ n ih =>
    cases reads with
    | nil => exact hquiet ctx readable hrc₀
    | cons read reads =>
      cases read with
      | failed errno =>
        have hpos := errno.pos
        exact hquiet ctx readable (by omega : -((errno : ℕ) : ℤ) ≠ 0)
      | received bytes =>
        rw [dumpReads, repliesIn]
        by_cases hempty : bytes = []
        · rw [if_pos hempty, if_pos hempty]
          exact hquiet ctx readable (by decide : -eio ≠ 0)
        · have hreply := dumpReply_eq ifindex takes heach (List.length_take_le dumpBuf bytes)
            (show ({ ctx, rc := rc₀, readable := true } : DumpState σ).done = false from rfl)
          have hreadable : (readable || !(bytes.take dumpBuf :: repliesIn n reads).isEmpty) = true := by
            rw [List.isEmpty_cons, Bool.not_false, Bool.or_true]
          have hcons : ∀ s : DumpState σ, (messagesIn (bytes.take dumpBuf :: repliesIn n reads)).foldl
              (dumpTakes ifindex takes) s = (messagesIn (repliesIn n reads)).foldl (dumpTakes ifindex takes)
                ((messagesOf (fun _ => false) (bytes.take dumpBuf)).foldl (dumpTakes ifindex takes) s) := by
            intro s
            rw [messagesIn, List.flatMap_cons, List.foldl_append, messagesIn]
          rw [if_neg hempty, if_neg hempty, hreply, hreadable]
          cases hfind : (messagesOf (fun _ => false) (bytes.take dumpBuf)).find? isTerminator with
          | some m =>
            refine ⟨rc₀, hrc₀, ?_⟩
            rw [hcons, foldl_dumpTakes, hfind, dumpTakes_done ifindex takes rfl]
            rfl
          | none =>
            obtain ⟨rc, hrc, hrest⟩ := ih reads
              (((dumped (messagesOf (fun _ => false) (bytes.take dumpBuf))).filter (isQdiscOf ifindex)).foldl takes ctx)
              true
            refine ⟨rc, hrc, ?_⟩
            rw [hcons, foldl_dumpTakes, foldl_dumpTakes, hfind]
            exact hrest

end Dump

/-! ## The two answers -/

section Answers

variable {ifindex : Int32}

/-- A dump of a device that there may be. -/
theorem qdiscDump_eq {σ : Type} {takes : σ → List UInt8 → σ} {each : QdiscEachFn σ} (hindex : ¬ ifindex ≤ 0)
    (heach : ∀ (bytes : List UInt8) (stop off : UInt64) (ctx : σ) (msg : List UInt8), QdiscAt bytes stop off msg →
      each bytes stop ctx (off + 16) (off + 36) (msg.length - 36 : ℕ) = .ok (takes ctx msg))
    (ctx : σ) (io : DumpIo) : ∃ rc, rc ≠ 0 ∧ qdiscDump ifindex each ctx io =
      .ok { ctx := ((dumped (io.said ifindex)).filter (isQdiscOf ifindex)).foldl takes ctx
            rc := ((io.said ifindex).find? isTerminator).elim rc endRc
            done := ((io.said ifindex).find? isTerminator).isSome
            readable := !(io.replies ifindex).isEmpty } := by
  unfold qdiscDump DumpIo.said DumpIo.replies
  cases hrefused : io.refused with
  | some errno =>
    have hpos := errno.pos
    refine ⟨-((errno : ℕ) : ℤ), by omega, ?_⟩
    rw [if_pos (.inr rfl)]
    rfl
  | none =>
    obtain ⟨rc, hrc, hreads⟩ := dumpReads_eq ifindex takes heach 64 io.reads ctx
      (show -etimedout ≠ 0 by decide) false
    refine ⟨rc, hrc, ?_⟩
    rw [if_neg (show ¬ (ifindex ≤ 0 ∨ (none : Option ℕ+).isSome = true) from
      not_or.mpr ⟨hindex, Bool.false_ne_true⟩)]
    rw [foldl_dumpTakes, Bool.false_or] at hreads
    exact hreads

/-- The result of a dump is 0 just if it is complete. -/
theorem rc_eq_zero_iff {rc : ℤ} (hrc : rc ≠ 0) (msgs : List (List UInt8)) :
    (msgs.find? isTerminator).elim rc endRc = 0 ↔ completed msgs = true := by
  unfold completed
  cases hfind : msgs.find? isTerminator with
  | none => exact ⟨fun h => absurd h hrc, fun h => absurd h Bool.false_ne_true⟩
  | some m =>
    rw [Option.elim_some, Option.any_some, decide_eq_true_eq, endRc]
    by_cases hdone : u16 m 4 = nlmsgDone
    · rw [if_pos hdone]
      exact ⟨fun _ => hdone, fun _ => rfl⟩
    · rw [if_neg hdone]
      refine ⟨fun hzero => absurd hzero ?_, fun h => absurd h hdone⟩
      split
      · rename_i herror
        intro hzero
        have hword : (u32 m 16).toInt32 = 0 := Int32.toInt_inj.mp hzero
        exact herror.2 (congrArg Int32.toUInt32 hword)
      · decide

/-- The counters of the etf qdiscs, each counted once. -/
def etfSum (ifindex : Int32) (msgs : List (List UInt8)) : EtfQdiscStats :=
  ((etfQdiscs ifindex msgs).map fun m => etfCountersOf (qdiscAttrs m)).sum

theorem foldl_statsTakes (msgs : List (List UInt8)) (o : EtfQdiscStats) :
    msgs.foldl statsTakes o = o + ((msgs.filter fun m => kindOf (qdiscAttrs m) = some etfKind).map fun m =>
      etfCountersOf (qdiscAttrs m)).sum := by
  induction msgs generalizing o with
  | nil => exact (add_zero o).symm
  | cons m msgs ih =>
    rw [List.foldl_cons, ih, List.filter_cons, statsTakes]
    by_cases hetf : kindOf (qdiscAttrs m) = some etfKind
    · rw [if_pos hetf, if_pos (decide_eq_true hetf), List.map_cons, List.sum_cons, add_assoc]
    · rw [if_neg hetf, if_neg (by rw [decide_eq_false hetf]; exact Bool.false_ne_true)]

theorem foldl_stateTakes (cap : ℕ) (msgs : List (List UInt8)) (w : StateWalk) :
    (msgs.foldl (stateTakes cap) w).foundEtf =
      (w.foundEtf || !(msgs.filter fun m => kindOf (qdiscAttrs m) = some etfKind).isEmpty) := by
  induction msgs generalizing w with
  | nil => rw [List.foldl_nil, List.filter_nil, List.isEmpty_nil, Bool.not_true, Bool.or_false]
  | cons m msgs ih =>
    rw [List.foldl_cons, ih, List.filter_cons, stateTakes]
    cases hkind : kindOf (qdiscAttrs m) with
    | none => rfl
    | some k =>
      dsimp only
      by_cases hetf : k = etfKind
      · rw [if_pos (decide_eq_true (congrArg some hetf)), decide_eq_true hetf, List.isEmpty_cons, Bool.not_false,
          Bool.or_true, Bool.true_or]
      · have hother : ¬ decide (some k = some etfKind) = true := by
          rw [decide_eq_true_eq, Option.some_inj]
          exact hetf
        rw [if_neg hother, decide_eq_false hetf, Bool.or_false]

/-- An etf qdisc counts once. -/
theorem etfCountersOf_qdiscs (attrs : List UInt8) : (etfCountersOf attrs).qdiscs = 1 := by
  have htake : ∀ (as : List (List UInt8)) (o : EtfQdiscStats), (as.foldl take2 o).qdiscs = o.qdiscs := by
    intro as
    induction as with
    | nil => exact fun _ => rfl
    | cons a as ih =>
      intro o
      rw [List.foldl_cons, ih, take2]
      split_ifs <;> rfl
  unfold etfCountersOf
  split
  · exact htake _ _
  · split_ifs <;> rfl
  · rfl

theorem length_messagesIn_le (n : ℕ) (reads : List DumpRead) :
    (messagesIn (repliesIn n reads)).length ≤ n * dumpBuf := by
  induction n generalizing reads with
  | zero => exact Nat.zero_le _
  | succ n ih =>
    cases reads with
    | nil => exact Nat.zero_le _
    | cons read reads =>
      cases read with
      | failed errno => exact Nat.zero_le _
      | received bytes =>
        rw [repliesIn]
        split
        · exact Nat.zero_le _
        · have hreply : (messagesOf (fun _ => false) (bytes.take dumpBuf)).length ≤ dumpBuf := by
            rw [messagesOf, List.length_map]
            exact (Records.length_starts_le 16 _ _).trans (List.length_take_le _ _)
          have hrest := ih reads
          rw [messagesIn] at hrest ⊢
          rw [List.flatMap_cons, List.length_append, Nat.succ_mul]
          omega

/-- The count of the qdiscs does not wrap. -/
theorem etfSum_qdiscs (io : DumpIo) :
    (etfSum ifindex (io.said ifindex)).qdiscs.toNat = (etfQdiscs ifindex (io.said ifindex)).length := by
  have hcount : ∀ l : List (List UInt8), ((l.map fun m => etfCountersOf (qdiscAttrs m)).sum).qdiscs =
      UInt32.ofNat l.length := by
    intro l
    induction l with
    | nil => rfl
    | cons m l ih =>
      rw [List.map_cons, List.sum_cons, List.length_cons, EtfQdiscStats.add_def]
      show (etfCountersOf (qdiscAttrs m)).qdiscs + _ = _
      rw [ih, etfCountersOf_qdiscs, UInt32.ofNat_add, UInt32.add_comm]
      rfl
  have hsaid : (io.said ifindex).length ≤ 64 * 16384 := by
    unfold DumpIo.said DumpIo.replies
    split
    · exact Nat.zero_le _
    · exact length_messagesIn_le 64 io.reads
  have hetfs : (etfQdiscs ifindex (io.said ifindex)).length ≤ (io.said ifindex).length :=
    (List.length_filter_le _ _).trans ((List.length_filter_le _ _).trans (List.takeWhile_sublist _).length_le)
  rw [etfSum, hcount, UInt32.toNat_ofNat']
  omega

/-- What the state of a device is: an etf qdisc that is listed is there, and only a complete dump says that
there is none. -/
def etfState (ifindex : Int32) (io : DumpIo) : EtfQdiscState :=
  if etfQdiscs ifindex (io.said ifindex) ≠ [] then .present
  else if completed (io.said ifindex) then .absent
  else .unreadable

/-- What the header asks of the two answers. That there is an answer says that the walks come to an end and
read nothing but the messages. -/
structure QdiscReadBack (ifindex : Int32) (io : DumpIo) : Prop where
  stats : ∀ out, ∃ rc, etfQdiscStatsRead ifindex out io =
      .ok (rc, out.map fun o => if completed (io.said ifindex) then etfSum ifindex (io.said ifindex) else o) ∧
    (rc = 0 ↔ out.isSome ∧ completed (io.said ifindex))
  once : (etfSum ifindex (io.said ifindex)).qdiscs.toNat = (etfQdiscs ifindex (io.said ifindex)).length
  state : ∀ cap, ∃ kind, etfQdiscState ifindex cap io = .ok (etfState ifindex io, kind)

theorem said_of_not_pos (hindex : ifindex ≤ 0) (io : DumpIo) : io.replies ifindex = [] ∧ io.said ifindex = [] := by
  have hnone : io.replies ifindex = [] := if_pos (.inl hindex)
  refine ⟨hnone, ?_⟩
  rw [DumpIo.said, hnone]
  rfl

theorem stats_read (io : DumpIo) (out : Option EtfQdiscStats) : ∃ rc, etfQdiscStatsRead ifindex out io =
      .ok (rc, out.map fun o => if completed (io.said ifindex) then etfSum ifindex (io.said ifindex) else o) ∧
    (rc = 0 ↔ out.isSome ∧ completed (io.said ifindex)) := by
  cases out with
  | none => exact ⟨-einval, rfl, fun h => absurd h (by decide), fun h => absurd h.1 Bool.false_ne_true⟩
  | some o =>
    by_cases hindex : ifindex ≤ 0
    · have hcompleted : completed (io.said ifindex) = false := by
        rw [(said_of_not_pos hindex io).2]
        rfl
      refine ⟨-einval, ?_, ?_⟩
      · rw [etfQdiscStatsRead, if_pos hindex, hcompleted]
        rfl
      · rw [hcompleted]
        exact ⟨fun h => absurd h (by decide), fun h => absurd h.2 Bool.false_ne_true⟩
    · obtain ⟨rc, hrc, hdump⟩ := qdiscDump_eq hindex (fun _ _ _ o _ h => statsEach_eq o h) {} io
      have hzero := rc_eq_zero_iff hrc (io.said ifindex)
      have hsum : ((dumped (io.said ifindex)).filter (isQdiscOf ifindex)).foldl statsTakes {} =
          etfSum ifindex (io.said ifindex) := by
        rw [foldl_statsTakes]
        exact zero_add _
      refine ⟨((io.said ifindex).find? isTerminator).elim rc endRc, ?_, ?_⟩
      · rw [etfQdiscStatsRead, if_neg hindex, hdump, hsum]
        dsimp only [bind, Except.bind]
        by_cases hdone : completed (io.said ifindex) = true
        · rw [if_neg (not_not.mpr (hzero.mpr hdone)), hzero.mpr hdone, Option.map_some, if_pos hdone]
          rfl
        · rw [if_pos (fun h => hdone (hzero.mp h)), Option.map_some, if_neg hdone]
          rfl
      · rw [hzero]
        exact ⟨fun h => ⟨rfl, h⟩, fun h => h.2⟩

/-- What the source answers instead: any reply at all makes the device readable. -/
theorem state_read (io : DumpIo) (cap : ℕ) : ∃ kind, etfQdiscState ifindex cap io =
    .ok (if (io.replies ifindex).isEmpty then .unreadable
      else if etfQdiscs ifindex (io.said ifindex) ≠ [] then .present else .absent, kind) := by
  by_cases hindex : ifindex ≤ 0
  · refine ⟨[], ?_⟩
    rw [etfQdiscState, if_pos hindex, (said_of_not_pos hindex io).1]
    rfl
  · obtain ⟨rc, hrc, hdump⟩ := qdiscDump_eq hindex (fun _ _ _ w _ h => stateEach_eq cap w h) {} io
    have hfound := foldl_stateTakes cap ((dumped (io.said ifindex)).filter (isQdiscOf ifindex)) {}
    rw [Bool.false_or] at hfound
    refine ⟨(((dumped (io.said ifindex)).filter (isQdiscOf ifindex)).foldl (stateTakes cap) {}).kind, ?_⟩
    rw [etfQdiscState, if_neg hindex, hdump]
    dsimp only [bind, Except.bind]
    rw [Bool.not_not, hfound]
    cases (io.replies ifindex).isEmpty with
    | true => rfl
    | false =>
      rw [if_neg Bool.false_ne_true, if_neg Bool.false_ne_true]
      by_cases hetf : etfQdiscs ifindex (io.said ifindex) = []
      · have hempty : (!(etfQdiscs ifindex (io.said ifindex)).isEmpty) = false := by
          rw [hetf]
          rfl
        rw [if_neg (not_not.mpr hetf), if_neg]
        · rfl
        · exact fun h => Bool.false_ne_true (hempty.symm.trans h)
      · have hsome : (!(etfQdiscs ifindex (io.said ifindex)).isEmpty) = true := by
          rw [Bool.not_eq_true', List.isEmpty_eq_false_iff]
          exact hetf
        rw [if_pos hetf, if_pos]
        · rfl
        · exact hsome

/-- The answers are those of the header just if the dump brings nothing, or comes to its end, or lists an etf
qdisc. -/
theorem qdisc_read_back (ifindex : Int32) (io : DumpIo) :
    QdiscReadBack ifindex io ↔
      io.replies ifindex = [] ∨ completed (io.said ifindex) = true ∨
        etfQdiscs ifindex (io.said ifindex) ≠ [] := by
  have hverdict : etfState ifindex io = (if (io.replies ifindex).isEmpty then .unreadable
      else if etfQdiscs ifindex (io.said ifindex) ≠ [] then .present else .absent) ↔
        io.replies ifindex = [] ∨ completed (io.said ifindex) = true ∨
          etfQdiscs ifindex (io.said ifindex) ≠ [] := by
    unfold etfState
    by_cases hquiet : io.replies ifindex = []
    · have hsaid : io.said ifindex = [] := by
        rw [DumpIo.said, hquiet]
        rfl
      rw [hsaid, hquiet]
      exact ⟨fun _ => .inl rfl, fun _ => rfl⟩
    · rw [List.isEmpty_eq_false_iff.mpr hquiet, if_neg Bool.false_ne_true]
      by_cases hetf : etfQdiscs ifindex (io.said ifindex) = []
      · rw [if_neg (not_not.mpr hetf), if_neg (not_not.mpr hetf)]
        by_cases hdone : completed (io.said ifindex) = true
        · rw [if_pos hdone]
          exact ⟨fun _ => .inr (.inl hdone), fun _ => rfl⟩
        · rw [if_neg hdone]
          refine ⟨fun h => absurd h (by decide), ?_⟩
          rintro (h | h | h)
          · exact absurd h hquiet
          · exact absurd h hdone
          · exact absurd hetf h
      · rw [if_pos hetf, if_pos hetf]
        exact ⟨fun _ => .inr (.inr hetf), fun _ => rfl⟩
  rw [← hverdict]
  constructor
  · intro h
    obtain ⟨kind, hkind⟩ := h.state 0
    obtain ⟨kind', hread⟩ := state_read io 0
    rw [hread] at hkind
    exact (Prod.mk.inj (Except.ok.inj hkind)).1.symm
  · intro h
    refine ⟨stats_read io, etfSum_qdiscs io, fun cap => ?_⟩
    rw [h]
    exact state_read io cap

/-- A dump that the kernel refuses with `-EPERM`. -/
def refusedDump : DumpIo where
  reads := [.received ([36, 0, 0, 0, 2, 0, 0, 0, 1, 0, 0, 0, 0, 0, 0, 0, 0xff, 0xff, 0xff, 0xff] ++
    List.replicate 16 0)]

/-- The counters of the refused dump are an error, but the device is said to have no etf qdisc. -/
theorem qdisc_refused_absent :
    etfQdiscStatsRead 1 (some {}) refusedDump = .ok (-1, some {}) ∧ completed (refusedDump.said 1) = false ∧
      etfQdiscState 1 0 refusedDump = .ok (.absent, []) ∧ ¬ QdiscReadBack 1 refusedDump := by
  have hread : etfQdiscState 1 0 refusedDump = .ok (.absent, []) := by decide +kernel
  have hstate : etfState 1 refusedDump = .unreadable := by decide +kernel
  refine ⟨by decide +kernel, by decide +kernel, hread, fun h => ?_⟩
  obtain ⟨kind, hkind⟩ := h.state 0
  rw [hread, hstate] at hkind
  exact absurd (Prod.mk.inj (Except.ok.inj hkind)).1 (by decide)

end Answers

end Libreac
