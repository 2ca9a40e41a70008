import Libreac.Netlink

/-!
# Proofs: the walks over a datagram

What a datagram says is what its complete messages say, and a message what its complete attributes say:
`messagesOf`, `attrsOf`. Each of the three walks comes to that, and reads nothing else, where the messages
and attributes it steps over are padded within what remains; where one is not, the walk leaves the
datagram, or stays on the spot.
-/

namespace Libreac

open Records (Fault Rest Program Fits Steps byte u16 u32 u16At u32At bytesAt peek padded starts walk
  peek_rest u16At_rest u32At_rest bytesAt_rest peek_outside)

/-! ## What a datagram says -/

/-- `nlmsg_len` and `rta_len`. -/
def nlmsgLen (r : List UInt8) : ℕ := (u32 r 0).toNat

def rtaLen (r : List UInt8) : ℕ := (u16 r 0).toNat

/-- The suffixes of a datagram that start with a complete message, as far as the walk looks. -/
def messageStarts (halts : List UInt8 → Bool) (bytes : List UInt8) : List (List UInt8) :=
  starts 16 nlmsgLen (fun r => halts (r.take (nlmsgLen r))) bytes.length bytes

/-- The complete messages. -/
def messagesOf (halts : List UInt8 → Bool) (bytes : List UInt8) : List (List UInt8) :=
  (messageStarts halts bytes).map fun r => r.take (nlmsgLen r)

/-- The same for the attributes of a message about a link. -/
def attrStarts (msg : List UInt8) : List (List UInt8) :=
  starts 4 rtaLen (fun _ => false) (msg.drop 32).length (msg.drop 32)

def attrsOf (msg : List UInt8) : List (List UInt8) := (attrStarts msg).map fun a => a.take (rtaLen a)

/-- The name after an attribute. -/
def ifnameIn (name : IfName) (attr : List UInt8) : IfName :=
  if u16 attr 2 = iflaIfname ∧ 4 < attr.length ∧ attr.length ≤ 20 then
    ((attr.drop 4).dropLast).takeWhile (· ≠ 0)
  else name

/-- The name a message gives its interface. -/
def ifnameOf (msg : List UInt8) : IfName := (attrsOf msg).foldl ifnameIn []

/-- The message is about a link, and says which. -/
def linkOf (msg : List UInt8) : Option IfName :=
  if (u16 msg 4 = rtmNewlink ∨ u16 msg 4 = rtmDellink) ∧ 32 ≤ msg.length ∧ ifnameOf msg ≠ [] then
    some (ifnameOf msg)
  else none

def isTerminator (msg : List UInt8) : Bool := u16 msg 4 = nlmsgDone ∨ u16 msg 4 = nlmsgError

/-- What `reac_linkmon.c` makes of a message. -/
def linkmonTakes (s : Linkmon × Bool) (msg : List UInt8) : Linkmon × Bool :=
  if isTerminator msg then (s.1, true)
  else
    match linkOf msg with
    | none => s
    | some name =>
      (linkmonObserve s.1 name
        (if u16 msg 4 = rtmDellink then -1 else if u32 msg 24 &&& iffLowerUp ≠ 0 then 1 else 0), s.2)

/-- What `reac_ifscan.c` makes of a message. -/
def ifscanTakes (w : WirelessGate) (now : UInt64) (s : IfScan × Bool) (msg : List UInt8) : IfScan × Bool :=
  if isTerminator msg then (s.1, true)
  else
    match linkOf msg with
    | none => s
    | some name =>
      let index := (u32 msg 20).toInt32.toInt
      let scan := { s.1 with msgs := s.1.msgs + 1 }
      (if u16 msg 4 = rtmDellink then ifscanGone scan name index
        else ifscanObserve scan name index (w.ether name (u16 msg 18) (u32 msg 24))
          (u32 msg 24 &&& iffLowerUp ≠ 0) now, s.2)

/-- The alias marks the netdev as ours. -/
def isOurAlias (attr : List UInt8) : Bool :=
  u16 attr 2 = iflaIfalias ∧ 4 < attr.length ∧ byte attr (attr.length - 1) = 0 ∧
    (attr.drop 4).takeWhile (· ≠ 0) = vlanAlias

/-- The message answers the query. -/
def answers (seq : UInt32) (msg : List UInt8) : Bool :=
  u32 msg 8 = seq ∧ (u16 msg 4 = nlmsgError ∨ u16 msg 4 = rtmNewlink)

/-- What `reac_vlan_query` makes of a message. -/
def vlanTakes (seq : UInt32) (s : VlanAnswer) (msg : List UInt8) : VlanAnswer :=
  if answers seq msg = false then s
  else if u16 msg 4 = nlmsgError then
    if 0 - u32 msg 16 = enodev then .absent else .refused (0 - u32 msg 16)
  else .present ((attrsOf msg).any isOurAlias)

/-! ## What makes a walk go wrong -/

/-- The attributes are padded within the message. -/
def AttrsPadded (msg : List UInt8) : Prop := ∀ a ∈ attrStarts msg, padded (rtaLen a) ≤ a.length

/-- So they are if the message is one about a link. -/
def LinkPadded (msg : List UInt8) : Prop :=
  (u16 msg 4 = rtmNewlink ∨ u16 msg 4 = rtmDellink) → 32 ≤ msg.length → AttrsPadded msg

/-- The message is padded within the datagram, and the padding does not overflow. -/
def MessagePadded (r : List UInt8) : Prop := nlmsgLen r + 3 < 4294967296 ∧ padded (nlmsgLen r) ≤ r.length

/-! ## Strides -/

theorem and_mask (n : ℕ) : n &&& 0xfffffffc = n % 4294967296 / 4 * 4 := by
  apply Nat.eq_of_testBit_eq
  intro i
  have hmask : (0xfffffffc : ℕ) = (2 ^ 30 - 1) <<< 2 := by decide
  have hdiv : n % 4294967296 / 4 * 4 = ((n % 2 ^ 32) >>> 2) <<< 2 := by
    rw [Nat.shiftRight_eq_div_pow, Nat.shiftLeft_eq]
    rfl
  rw [hmask, hdiv, Nat.testBit_and, Nat.testBit_shiftLeft, Nat.testBit_shiftLeft, Nat.testBit_shiftRight,
    Nat.testBit_mod_two_pow, Nat.testBit_two_pow_sub_one]
  by_cases hi : 2 ≤ i
  · have hback : 2 + (i - 2) = i := by omega
    have hlt : i - 2 < 30 ↔ i < 32 := by omega
    simp [hi, hback, hlt, Bool.and_comm]
  · simp [hi]

theorem nlmsgAlign_toNat {l : ℕ} (h : l < 4294967296) :
    (nlmsgAlign (UInt64.ofNat l)).toNat = (l + 3) % 4294967296 / 4 * 4 := by
  have hsum : (UInt64.ofNat l + 3).toNat = l + 3 := by
    rw [UInt64.toNat_add, UInt64.toNat_ofNat']
    have hthree : (3 : UInt64).toNat = 3 := rfl
    omega
  unfold nlmsgAlign
  rw [UInt64.toNat_and, hsum]
  exact and_mask _

theorem nlmsgAlign_cases (l : ℕ) (h : l < 4294967296) :
    (nlmsgAlign (UInt64.ofNat l)).toNat = padded l ∨ nlmsgAlign (UInt64.ofNat l) = 0 := by
  have halign := nlmsgAlign_toNat h
  by_cases hfit : l + 3 < 4294967296
  · left
    rw [halign, Nat.mod_eq_of_lt hfit]
    rfl
  · right
    apply UInt64.toNat_inj.mp
    rw [halign]
    have hzero : (0 : UInt64).toNat = 0 := rfl
    omega

theorem nlmsgLen_lt (r : List UInt8) : nlmsgLen r < 4294967296 := (u32 r 0).toNat_lt

theorem rtaLen_lt (r : List UInt8) : rtaLen r < 65536 := (u16 r 0).toNat_lt

/-- An attribute is too short for its padding to overflow. -/
theorem steps_attr (a : List UInt8) : Steps nlmsgAlign rtaLen a ↔ padded (rtaLen a) ≤ a.length := by
  have hlt := rtaLen_lt a
  have halign : (nlmsgAlign (UInt64.ofNat (rtaLen a))).toNat = padded (rtaLen a) := by
    rw [nlmsgAlign_toNat (by omega), Nat.mod_eq_of_lt (by omega)]
    rfl
  exact ⟨fun h => h.2, fun h => ⟨halign, h⟩⟩

theorem steps_message {r : List UInt8} (h : 16 ≤ nlmsgLen r) :
    Steps nlmsgAlign nlmsgLen r ↔ MessagePadded r := by
  have hlt := nlmsgLen_lt r
  have halign := nlmsgAlign_toNat hlt
  unfold Steps MessagePadded
  rw [halign]
  unfold padded
  constructor
  · rintro ⟨heq, hle⟩
    omega
  · rintro ⟨hfit, hle⟩
    rw [Nat.mod_eq_of_lt hfit]
    exact ⟨rfl, hle⟩

/-! ## Reading a record -/

section Record

variable {bytes rest msg : List UInt8} {stop off : UInt64}

theorem u16_take {l k : ℕ} (hk : k + 2 ≤ l) (r : List UInt8) : u16 (r.take l) k = u16 r k := by
  unfold Records.u16 Records.byte
  simp only [List.getD_eq_getElem?_getD]
  rw [List.getElem?_take_of_lt (by omega), List.getElem?_take_of_lt (by omega)]

theorem rtaLenAt_rest (h : Rest bytes stop off rest) (hlen : 4 ≤ rest.length) :
    rtaLenAt bytes stop off = .ok (UInt64.ofNat (rtaLen rest)) := by
  have hread : u16At bytes stop off = .ok (u16 rest 0) := by
    have := u16At_rest h (k := 0) (by omega)
    rwa [show off + UInt64.ofNat 0 = off from UInt64.add_zero off] at this
  unfold rtaLenAt
  rw [hread]
  exact congrArg Except.ok (UInt64.ofNat_uInt16ToNat _).symm

theorem nlmsgLenAt_rest (h : Rest bytes stop off rest) (hlen : 16 ≤ rest.length) :
    nlmsgLenAt bytes stop off = .ok (UInt64.ofNat (nlmsgLen rest)) := by
  have hread : u32At bytes stop off = .ok (u32 rest 0) := by
    have := u32At_rest h (k := 0) (by omega)
    rwa [show off + UInt64.ofNat 0 = off from UInt64.add_zero off] at this
  unfold nlmsgLenAt
  rw [hread]
  exact congrArg Except.ok (UInt64.ofNat_uInt32ToNat _).symm

theorem rtaLenAt_outside (h : stop ≤ off) : rtaLenAt bytes stop off = .error .outside := by
  unfold rtaLenAt Records.u16At
  rw [peek_outside h]
  rfl

theorem nlmsgLenAt_outside (h : stop ≤ off) : nlmsgLenAt bytes stop off = .error .outside := by
  unfold nlmsgLenAt Records.u32At
  rw [peek_outside h]
  rfl

variable {σ : Type} {effect : σ → List UInt8 → σ}

/-- An attribute loop: its body reads within the attribute. -/
theorem attrProgram {body : σ → UInt64 → UInt64 → Except Fault (σ × Bool)}
    (hstop : stop.toNat ≤ 9223372036854775807)
    (hbody : ∀ s a r, Rest bytes stop a r → 4 ≤ rtaLen r → rtaLen r ≤ r.length →
      body s a (UInt64.ofNat (rtaLen r)) = .ok (effect s (r.take (rtaLen r)), true)) :
    Program bytes stop rtattrHdr (rtaLenAt bytes stop) nlmsgAlign body rtaLen (fun _ => false)
      (fun _ => True) (fun s r => effect s (r.take (rtaLen r))) where
  header_pos := by decide
  stop_le := hstop
  len_lt r := Nat.lt_trans (rtaLen_lt r) (by omega)
  len_in _ _ hr hlen := rtaLenAt_rest hr hlen
  len_out _ hoff := rtaLenAt_outside hoff
  stride_cases := nlmsgAlign_cases
  body_in s a r hr hmin hmax _ := hbody s a r hr hmin hmax
  body_out _ _ _ _ _ _ hno := absurd trivial hno

/-- An attribute loop over the attributes of a message. -/
theorem attrLoop {body : σ → UInt64 → UInt64 → Except Fault (σ × Bool)} {s : σ} {fuel : ℕ}
    (hm : Rest bytes stop off msg) (hstop : stop.toNat ≤ 9223372036854775807) (hlen : 32 ≤ msg.length)
    (hfuel : msg.length < fuel)
    (hbody : ∀ s a r, Rest bytes stop a r → 4 ≤ rtaLen r → rtaLen r ≤ r.length →
      body s a (UInt64.ofNat (rtaLen r)) = .ok (effect s (r.take (rtaLen r)), true)) :
    (AttrsPadded msg → walk stop rtattrHdr (rtaLenAt bytes stop) nlmsgAlign body fuel s (off + 32) =
      .ok ((attrsOf msg).foldl effect s)) ∧
    (¬ AttrsPadded msg → ∃ f,
      walk stop rtattrHdr (rtaLenAt bytes stop) nlmsgAlign body fuel s (off + 32) = .error f) := by
  have P := attrProgram hstop hbody
  have hrest : Rest bytes stop (off + 32) (msg.drop 32) := hm.drop hlen
  have hfits : ∀ a, Fits nlmsgAlign rtaLen (fun _ => false) (fun _ => True) a ↔
      padded (rtaLen a) ≤ a.length := by
    intro a
    rw [← steps_attr]
    simp [Fits]
  constructor
  · intro hpadded
    have hwalk : walk stop rtattrHdr (rtaLenAt bytes stop) nlmsgAlign body fuel s (off + 32) = _ :=
      P.walk_fits hrest (Nat.le_refl _) (by rw [List.length_drop]; omega) fun a ha =>
        (hfits a).mpr (hpadded a ha)
    rw [hwalk]
    unfold attrsOf
    rw [List.foldl_map]
    rfl
  · intro hunpadded
    unfold AttrsPadded at hunpadded
    push Not at hunpadded
    obtain ⟨a, ha, hbad⟩ := hunpadded
    exact P.walk_unfit hrest ⟨a, ha, fun hfit => absurd ((hfits a).mp hfit) (by omega)⟩ fuel s

/-! ## The attributes -/

theorem attr_len {r : List UInt8} (h : 4 ≤ rtaLen r) :
    (UInt64.ofNat (rtaLen r) - rtattrHdr).toNat = rtaLen r - 4 := by
  have hlt := rtaLen_lt r
  have hle : rtattrHdr ≤ UInt64.ofNat (rtaLen r) := by
    rw [UInt64.le_iff_toNat_le, UInt64.toNat_ofNat']
    have hfour : rtattrHdr.toNat = 4 := rfl
    omega
  rw [UInt64.toNat_sub_of_le _ _ hle, UInt64.toNat_ofNat']
  have hfour : rtattrHdr.toNat = 4 := rfl
  omega

/-- The payload of an attribute. -/
theorem drop_attr (r : List UInt8) (l : ℕ) : (r.take l).drop 4 = (r.drop 4).take (l - 4) := by
  rw [List.drop_take]

theorem ifnameAttr_rest (name : IfName) {a : UInt64} {r : List UInt8} (hr : Rest bytes stop a r)
    (hmin : 4 ≤ rtaLen r) (hmax : rtaLen r ≤ r.length) :
    ifnameAttr bytes stop name a (UInt64.ofNat (rtaLen r)) =
      .ok (ifnameIn name (r.take (rtaLen r)), true) := by
  have htype : u16At bytes stop (a + 2) = .ok (u16 r 2) := u16At_rest hr (k := 2) (by omega)
  have hlen : (r.take (rtaLen r)).length = rtaLen r := by
    rw [List.length_take]
    omega
  unfold ifnameAttr ifnameIn
  rw [htype, u16_take (by omega), hlen, attr_len hmin]
  dsimp only [bind, Except.bind]
  by_cases hname : u16 r 2 = iflaIfname ∧ 4 < rtaLen r ∧ rtaLen r ≤ 20
  · have hread : bytesAt bytes stop (a + 4) (rtaLen r - 4) = .ok ((r.drop 4).take (rtaLen r - 4)) :=
      bytesAt_rest hr (k := 4) (by omega)
    have hinit : ((r.take (rtaLen r)).drop 4).dropLast =
        ((r.drop 4).take (rtaLen r - 4)).take (rtaLen r - 4 - 1) := by
      rw [drop_attr, List.dropLast_eq_take, List.length_take, List.length_drop]
      congr 1
      omega
    rw [if_pos hname, if_pos ⟨hname.1, by omega, by omega⟩, hread, hinit]
    rfl
  · rw [if_neg hname, if_neg fun h => hname ⟨h.1, by omega, by omega⟩]
    rfl

/-- `strcmp` stays in front of a NUL. -/
theorem sameString_rest {r : List UInt8} : ∀ {k : ℕ} {s : List UInt8}, Rest bytes stop off r →
    (∃ n, k + n < r.length ∧ byte r (k + n) = 0) → (∀ c ∈ s, c ≠ 0) →
      sameString bytes stop (off + UInt64.ofNat k) s =
        .ok (((r.drop k).takeWhile (· ≠ 0)) = s) := by
  intro k s hr
  induction s generalizing k with
  | nil =>
    rintro ⟨n, hn, -⟩ -
    have hk : k < r.length := by omega
    unfold sameString
    rw [peek_rest hr hk, List.drop_eq_getElem_cons hk, Records.byte_of_lt hk, List.takeWhile_cons]
    by_cases hzero : r[k] = 0 <;> simp [hzero, pure, Except.pure, bind, Except.bind]
  | cons c s ih =>
    rintro ⟨n, hn, hnul⟩ hs
    have hk : k < r.length := by omega
    have hc : c ≠ 0 := hs c List.mem_cons_self
    have hnext : off + UInt64.ofNat k + 1 = off + UInt64.ofNat (k + 1) := by
      rw [UInt64.ofNat_add, ← UInt64.add_assoc]
      rfl
    unfold sameString
    rw [peek_rest hr hk, hnext, List.drop_eq_getElem_cons hk, Records.byte_of_lt hk, List.takeWhile_cons]
    dsimp only [bind, Except.bind]
    by_cases hsame : r[k] = c
    · have hlater : ∃ n, k + 1 + n < r.length ∧ byte r (k + 1 + n) = 0 := by
        cases n with
        | zero =>
          rw [Nat.add_zero, Records.byte_of_lt hk, hsame] at hnul
          exact absurd hnul hc
        | succ n => exact ⟨n, by omega, by rwa [show k + 1 + n = k + (n + 1) by omega]⟩
      rw [if_pos hsame, ih hlater fun d hd => hs d (List.mem_cons_of_mem c hd), hsame]
      simp [hc]
    · rw [if_neg hsame]
      by_cases hzero : r[k] = 0
      · simp [hzero, pure, Except.pure]
      · simp [hzero, hsame, pure, Except.pure]

/-- Where a string ends in front of the limit, the limit does not shorten it. -/
theorem takeWhile_take {l : List UInt8} {n : ℕ} (h : ∃ b ∈ l.take n, b = 0) :
    (l.take n).takeWhile (· ≠ 0) = l.takeWhile (· ≠ 0) := by
  conv_rhs => rw [← List.take_append_drop n l, List.takeWhile_append]
  rw [if_neg]
  intro hall
  obtain ⟨b, hb, rfl⟩ := h
  have hself := List.takeWhile_prefix (fun b : UInt8 => decide (b ≠ 0)) |>.eq_of_length hall
  rw [← hself] at hb
  have hne := List.all_eq_true.mp List.all_takeWhile _ hb
  simp at hne

theorem aliasAttr_rest (ours : Bool) {a : UInt64} {r : List UInt8} (hr : Rest bytes stop a r)
    (hmin : 4 ≤ rtaLen r) (hmax : rtaLen r ≤ r.length) :
    aliasAttr bytes stop ours a (UInt64.ofNat (rtaLen r)) =
      .ok (ours || isOurAlias (r.take (rtaLen r)), true) := by
  have htype : u16At bytes stop (a + 2) = .ok (u16 r 2) := u16At_rest hr (k := 2) (by omega)
  have hlen : (r.take (rtaLen r)).length = rtaLen r := by
    rw [List.length_take]
    omega
  have hpayload : UInt64.ofNat (rtaLen r) - rtattrHdr = UInt64.ofNat (rtaLen r - 4) := by
    rw [← attr_len hmin, UInt64.ofNat_toNat]
  have hlast : ∀ (h : 4 < rtaLen r), byte (r.take (rtaLen r)) (rtaLen r - 1) = byte r (4 + (rtaLen r - 5)) := by
    intro h
    rw [Records.byte_of_lt (by omega), Records.byte_of_lt (by omega), List.getElem_take]
    congr 1
    omega
  unfold aliasAttr isOurAlias
  rw [htype, u16_take (by omega), hlen, hpayload]
  dsimp only [bind, Except.bind]
  by_cases hskip : u16 r 2 = iflaIfalias ∧ 4 < rtaLen r
  · obtain ⟨halias, hlong⟩ := hskip
    have hne : UInt64.ofNat (rtaLen r - 4) ≠ 0 := by
      intro hzero
      have hnat := congrArg UInt64.toNat hzero
      rw [UInt64.toNat_ofNat'] at hnat
      have hlt := rtaLen_lt r
      have hz : (0 : UInt64).toNat = 0 := rfl
      omega
    have hindex : a + 4 + (UInt64.ofNat (rtaLen r - 4) - 1) = a + UInt64.ofNat (4 + (rtaLen r - 5)) := by
      have hsub : UInt64.ofNat (rtaLen r - 4) = UInt64.ofNat (rtaLen r - 5) + UInt64.ofNat 1 := by
        rw [← UInt64.ofNat_add]
        congr 1
        omega
      rw [hsub, UInt64.ofNat_add, ← UInt64.add_assoc]
      exact congrArg (a + 4 + ·) (UInt64.add_sub_cancel _ 1)
    have hpeek : peek bytes stop (a + 4 + (UInt64.ofNat (rtaLen r - 4) - 1)) =
        .ok (byte (r.take (rtaLen r)) (rtaLen r - 1)) := by
      rw [hindex, hlast hlong]
      exact peek_rest hr (by omega)
    rw [if_neg (by simp [halias, hne]), hpeek]
    dsimp only
    by_cases hnul : byte (r.take (rtaLen r)) (rtaLen r - 1) = 0
    · have hzero : byte r (4 + (rtaLen r - 5)) = 0 := (hlast hlong).symm.trans hnul
      have hsame : sameString bytes stop (a + 4) vlanAlias =
          .ok (((r.drop 4).takeWhile (· ≠ 0)) = vlanAlias) :=
        sameString_rest hr (k := 4) ⟨rtaLen r - 5, by omega, hzero⟩ (by simp [vlanAlias])
      have hmem : ∃ b ∈ (r.drop 4).take (rtaLen r - 4), b = 0 := by
        refine ⟨_, List.getElem_mem (n := rtaLen r - 5) ?_, ?_⟩
        · rw [List.length_take, List.length_drop]
          omega
        · rw [Records.byte_of_lt (by omega)] at hzero
          rw [List.getElem_take, List.getElem_drop, hzero]
      rw [if_neg (not_not.mpr hnul), hsame, drop_attr, takeWhile_take hmem]
      simp [halias, hlong, hnul, pure, Except.pure]
    · rw [if_pos hnul]
      simp [hnul, pure, Except.pure]
  · rw [if_pos]
    · rw [not_and] at hskip
      by_cases halias : u16 r 2 = iflaIfalias
      · simp [hskip halias, pure, Except.pure]
      · simp [halias, pure, Except.pure]
    · by_cases halias : u16 r 2 = iflaIfalias
      · right
        have hzero : rtaLen r - 4 = 0 := by
          have : ¬ 4 < rtaLen r := fun h => hskip ⟨halias, h⟩
          omega
        rw [hzero]
        rfl
      · exact .inl halias

/-! ## The messages -/

/-- A message of a datagram, as its body gets it. -/
structure Message (bytes : List UInt8) (off len : UInt64) (msg : List UInt8) : Prop where
  rest : Rest bytes (off + len) off msg
  length : len.toNat = msg.length
  header : 16 ≤ msg.length
  inside : (off + len).toNat ≤ 9223372036854775807

variable {len : UInt64}

theorem Message.type (h : Message bytes off len msg) :
    u16At bytes (off + len) (off + 4) = .ok (u16 msg 4) := by
  have hlen := h.header
  exact u16At_rest h.rest (k := 4) (by omega)

theorem Message.ifname (h : Message bytes off len msg) (hlong : 32 ≤ msg.length) :
    (AttrsPadded msg → ifnameLoop bytes off len = .ok (ifnameOf msg)) ∧
      (¬ AttrsPadded msg → ∃ f, ifnameLoop bytes off len = .error f) := by
  have hlen := h.length
  exact attrLoop h.rest h.inside hlong (by omega) fun name _ _ hr hmin hmax =>
    ifnameAttr_rest name hr hmin hmax

theorem Message.alias (h : Message bytes off len msg) (hlong : 32 ≤ msg.length) :
    (AttrsPadded msg → aliasLoop bytes off len = .ok ((attrsOf msg).any isOurAlias)) ∧
      (¬ AttrsPadded msg → ∃ f, aliasLoop bytes off len = .error f) := by
  have hlen := h.length
  have hany : ∀ (l : List (List UInt8)) (b : Bool),
      l.foldl (fun ours a => ours || isOurAlias a) b = (b || l.any isOurAlias) := by
    intro l
    induction l with
    | nil => simp
    | cons a l ih =>
      intro b
      rw [List.foldl_cons, ih, List.any_cons, Bool.or_assoc]
  have hloop : (AttrsPadded msg → aliasLoop bytes off len =
      .ok ((attrsOf msg).foldl (fun ours a => ours || isOurAlias a) false)) ∧
        (¬ AttrsPadded msg → ∃ f, aliasLoop bytes off len = .error f) :=
    attrLoop h.rest h.inside hlong (by omega) fun ours _ _ hr hmin hmax => aliasAttr_rest ours hr hmin hmax
  rw [hany, Bool.false_or] at hloop
  exact hloop

/-- A message too short for its `ifinfomsg`: what remains of it is taken for almost all of memory. -/
theorem Message.alias_short (h : Message bytes off len msg) (hshort : msg.length < 32) :
    aliasLoop bytes off len = .error .outside := by
  have hlen := h.length
  have hfits := h.inside
  have hsum := h.rest.len
  have hstart : (off + 32).toNat = off.toNat + 32 := by
    rw [UInt64.toNat_add]
    have h32 : (32 : UInt64).toNat = 32 := rfl
    omega
  have hpast : off + len ≤ off + 32 := by
    rw [UInt64.le_iff_toNat_le, hstart]
    omega
  have hwrap : ¬ off + len - (off + 32) < rtattrHdr := by
    have hfour : rtattrHdr.toNat = 4 := rfl
    rw [UInt64.lt_iff_toNat_lt, UInt64.toNat_sub, hstart]
    omega
  unfold aliasLoop
  rw [walk, if_neg hwrap, rtaLenAt_outside hpast]

/-- A field that is not all in the message. -/
theorem u32At_short (hr : Rest bytes stop off rest) (hstop : stop.toNat ≤ 9223372036854775807) {k : ℕ}
    (hk : k ≤ 4096) (hshort : rest.length < k + 4) :
    ∃ f, u32At bytes stop (off + UInt64.ofNat k) = .error f := by
  have hsum := hr.len
  have hpast : stop ≤ off + UInt64.ofNat k + 3 := by
    have hthree : (3 : UInt64).toNat = 3 := rfl
    rw [UInt64.le_iff_toNat_le, UInt64.toNat_add, UInt64.toNat_add, UInt64.toNat_ofNat']
    omega
  unfold Records.u32At
  cases h₀ : peek bytes stop (off + UInt64.ofNat k) with
  | error f => exact ⟨f, rfl⟩
  | ok b₀ =>
    cases h₁ : peek bytes stop (off + UInt64.ofNat k + 1) with
    | error f => exact ⟨f, rfl⟩
    | ok b₁ =>
      cases h₂ : peek bytes stop (off + UInt64.ofNat k + 2) with
      | error f => exact ⟨f, rfl⟩
      | ok b₂ =>
        rw [peek_outside hpast]
        exact ⟨_, rfl⟩

theorem linkOf_none (h : ¬ ((u16 msg 4 = rtmNewlink ∨ u16 msg 4 = rtmDellink) ∧ 32 ≤ msg.length ∧
    ifnameOf msg ≠ [])) : linkOf msg = none := if_neg h

theorem linkOf_some (hlink : u16 msg 4 = rtmNewlink ∨ u16 msg 4 = rtmDellink) (hlong : 32 ≤ msg.length)
    (hname : ifnameOf msg ≠ []) : linkOf msg = some (ifnameOf msg) := if_pos ⟨hlink, hlong, hname⟩

theorem linkmonMsgLink_msg (h : Message bytes off len msg) :
    (LinkPadded msg → linkmonMsgLink bytes off len = .ok ((linkOf msg).map fun name => (name,
      if u16 msg 4 = rtmDellink then -1 else if u32 msg 24 &&& iffLowerUp ≠ 0 then 1 else 0))) ∧
    (¬ LinkPadded msg → ∃ f, linkmonMsgLink bytes off len = .error f) := by
  have hlen := h.length
  have hlt : len < 32 ↔ msg.length < 32 := by
    rw [UInt64.lt_iff_toNat_lt, hlen]
    rfl
  unfold linkmonMsgLink LinkPadded
  dsimp only
  rw [h.type]
  dsimp only [bind, Except.bind]
  by_cases hlink : u16 msg 4 = rtmNewlink ∨ u16 msg 4 = rtmDellink
  · rw [if_neg (by rw [not_and_or]; simpa using hlink)]
    by_cases hshort : msg.length < 32
    · rw [if_pos (hlt.mpr hshort), linkOf_none fun hall => absurd hall.2.1 (by omega)]
      exact ⟨fun _ => rfl, fun hno => absurd (fun _ hlong => absurd hlong (by omega)) hno⟩
    · rw [if_neg (mt hlt.mp hshort)]
      have hlong : 32 ≤ msg.length := by omega
      obtain ⟨hok, hbad⟩ := h.ifname hlong
      constructor
      · intro hpadded
        rw [hok (hpadded hlink hlong)]
        dsimp only
        by_cases hname : ifnameOf msg = []
        · rw [if_pos hname, linkOf_none fun hall => hall.2.2 hname]
          rfl
        · have hflags : u32At bytes (off + len) (off + 24) = .ok (u32 msg 24) :=
            u32At_rest h.rest (k := 24) (by omega)
          rw [if_neg hname, linkOf_some hlink hlong hname, hflags, Option.map_some]
          by_cases hdel : u16 msg 4 = rtmDellink
          · rw [if_pos hdel, if_pos hdel]
            rfl
          · rw [if_neg hdel, if_neg hdel]
            rfl
      · intro hunpadded
        obtain ⟨f, hf⟩ := hbad fun hall => hunpadded fun _ _ => hall
        rw [hf]
        exact ⟨f, rfl⟩
  · rw [if_pos (by rw [← not_or]; exact hlink), linkOf_none fun hall => hlink hall.1]
    exact ⟨fun _ => rfl, fun hno => absurd (fun hyes => absurd hyes hlink) hno⟩

theorem ifscanMsgLink_msg (h : Message bytes off len msg) (w : WirelessGate) (now : UInt64) (s : IfScan) :
    (LinkPadded msg → ifscanMsgLink w now bytes s off len = .ok (match linkOf msg with
      | none => s
      | some name =>
        let index := (u32 msg 20).toInt32.toInt
        let scan := { s with msgs := s.msgs + 1 }
        if u16 msg 4 = rtmDellink then ifscanGone scan name index
        else ifscanObserve scan name index (w.ether name (u16 msg 18) (u32 msg 24))
          (u32 msg 24 &&& iffLowerUp ≠ 0) now)) ∧
    (¬ LinkPadded msg → ∃ f, ifscanMsgLink w now bytes s off len = .error f) := by
  have hlen := h.length
  have hlt : len < 32 ↔ msg.length < 32 := by
    rw [UInt64.lt_iff_toNat_lt, hlen]
    rfl
  unfold ifscanMsgLink LinkPadded
  dsimp only
  rw [h.type]
  dsimp only [bind, Except.bind]
  by_cases hlink : u16 msg 4 = rtmNewlink ∨ u16 msg 4 = rtmDellink
  · rw [if_neg (by rw [not_and_or]; simpa using hlink)]
    by_cases hshort : msg.length < 32
    · rw [if_pos (hlt.mpr hshort), linkOf_none fun hall => absurd hall.2.1 (by omega)]
      exact ⟨fun _ => rfl, fun hno => absurd (fun _ hlong => absurd hlong (by omega)) hno⟩
    · rw [if_neg (mt hlt.mp hshort)]
      have hlong : 32 ≤ msg.length := by omega
      obtain ⟨hok, hbad⟩ := h.ifname hlong
      constructor
      · intro hpadded
        rw [hok (hpadded hlink hlong)]
        dsimp only
        by_cases hname : ifnameOf msg = []
        · rw [if_pos hname, linkOf_none fun hall => hall.2.2 hname]
          rfl
        · have hindex : u32At bytes (off + len) (off + 20) = .ok (u32 msg 20) :=
            u32At_rest h.rest (k := 20) (by omega)
          have htype : u16At bytes (off + len) (off + 18) = .ok (u16 msg 18) :=
            u16At_rest h.rest (k := 18) (by omega)
          have hflags : u32At bytes (off + len) (off + 24) = .ok (u32 msg 24) :=
            u32At_rest h.rest (k := 24) (by omega)
          rw [if_neg hname, linkOf_some hlink hlong hname, hindex, htype, hflags]
          dsimp only
          by_cases hdel : u16 msg 4 = rtmDellink
          · rw [if_pos hdel, if_pos hdel]
            rfl
          · rw [if_neg hdel, if_neg hdel]
            rfl
      · intro hunpadded
        obtain ⟨f, hf⟩ := hbad fun hall => hunpadded fun _ _ => hall
        rw [hf]
        exact ⟨f, rfl⟩
  · rw [if_pos (by rw [← not_or]; exact hlink), linkOf_none fun hall => hlink hall.1]
    exact ⟨fun _ => rfl, fun hno => absurd (fun hyes => absurd hyes hlink) hno⟩

/-- A terminator is not about a link. -/
theorem linkPadded_terminator (h : isTerminator msg = true) : LinkPadded msg := by
  intro hlink
  have hterm : u16 msg 4 = nlmsgDone ∨ u16 msg 4 = nlmsgError := of_decide_eq_true h
  have hno : ¬ (u16 msg 4 = rtmNewlink ∨ u16 msg 4 = rtmDellink) := by
    rcases hterm with hterm | hterm <;> rw [hterm] <;> decide
  exact absurd hlink hno

theorem linkmonMessage_msg (h : Message bytes off len msg) (s : Linkmon × Bool) :
    (LinkPadded msg → linkmonMessage bytes s off len = .ok (linkmonTakes s msg, true)) ∧
      (¬ LinkPadded msg → ∃ f, linkmonMessage bytes s off len = .error f) := by
  unfold linkmonMessage linkmonTakes
  rw [h.type]
  dsimp only [bind, Except.bind]
  cases hterm : isTerminator msg with
  | true =>
    rw [if_pos (of_decide_eq_true hterm)]
    exact ⟨fun _ => rfl, fun hno => absurd (linkPadded_terminator hterm) hno⟩
  | false =>
    rw [if_neg (of_decide_eq_false hterm)]
    obtain ⟨hok, hbad⟩ := linkmonMsgLink_msg h
    constructor
    · intro hpadded
      rw [hok hpadded]
      cases linkOf msg <;> rfl
    · intro hunpadded
      obtain ⟨f, hf⟩ := hbad hunpadded
      rw [hf]
      exact ⟨f, rfl⟩

theorem ifscanMessage_msg (h : Message bytes off len msg) (w : WirelessGate) (now : UInt64)
    (s : IfScan × Bool) :
    (LinkPadded msg → ifscanMessage w now bytes s off len =
      .ok (ifscanTakes w now s msg, !isTerminator msg)) ∧
      (¬ LinkPadded msg → ∃ f, ifscanMessage w now bytes s off len = .error f) := by
  unfold ifscanMessage ifscanTakes
  rw [h.type]
  dsimp only [bind, Except.bind]
  cases hterm : isTerminator msg with
  | true =>
    rw [if_pos (of_decide_eq_true hterm)]
    exact ⟨fun _ => rfl, fun hno => absurd (linkPadded_terminator hterm) hno⟩
  | false =>
    rw [if_neg (of_decide_eq_false hterm)]
    obtain ⟨hok, hbad⟩ := ifscanMsgLink_msg h w now s.1
    constructor
    · intro hpadded
      rw [hok hpadded]
      cases linkOf msg <;> rfl
    · intro hunpadded
      obtain ⟨f, hf⟩ := hbad hunpadded
      rw [hf]
      exact ⟨f, rfl⟩

/-- The answer to the query is long enough for what is read of it. -/
def AnswerPadded (seq : UInt32) (msg : List UInt8) : Prop :=
  answers seq msg = true →
    if u16 msg 4 = nlmsgError then 20 ≤ msg.length else 32 ≤ msg.length ∧ AttrsPadded msg

theorem vlanMessage_msg (h : Message bytes off len msg) (seq : UInt32) (s : VlanAnswer) :
    (AnswerPadded seq msg → vlanMessage seq bytes s off len = .ok (vlanTakes seq s msg, !answers seq msg)) ∧
      (¬ AnswerPadded seq msg → ∃ f, vlanMessage seq bytes s off len = .error f) := by
  have hheader := h.header
  have hseq : u32At bytes (off + len) (off + 8) = .ok (u32 msg 8) :=
    u32At_rest h.rest (k := 8) (by omega)
  unfold vlanMessage vlanTakes AnswerPadded
  dsimp only
  rw [hseq, h.type]
  dsimp only [bind, Except.bind]
  by_cases hours : u32 msg 8 = seq
  · rw [if_neg (not_not.mpr hours)]
    by_cases herror : u16 msg 4 = nlmsgError
    · have hanswers : answers seq msg = true := decide_eq_true ⟨hours, .inl herror⟩
      rw [if_pos herror, hanswers]
      simp only [forall_const, if_pos herror]
      constructor
      · intro hlong
        have hread : u32At bytes (off + len) (off + 16) = .ok (u32 msg 16) :=
          u32At_rest h.rest (k := 16) (by omega)
        rw [hread]
        rfl
      · intro hshort
        obtain ⟨f, hf⟩ := u32At_short h.rest h.inside (k := 16) (by omega) (by omega)
        have hread : u32At bytes (off + len) (off + 16) = .error f := hf
        rw [hread]
        exact ⟨f, rfl⟩
    · simp only [if_neg herror]
      by_cases hnew : u16 msg 4 = rtmNewlink
      · have hanswers : answers seq msg = true := decide_eq_true ⟨hours, .inr hnew⟩
        rw [if_neg (not_not.mpr hnew), hanswers]
        simp only [forall_const]
        by_cases hshort : msg.length < 32
        · rw [h.alias_short hshort]
          exact ⟨fun hlong => absurd hlong.1 (by omega), fun _ => ⟨_, rfl⟩⟩
        · have hlong : 32 ≤ msg.length := by omega
          obtain ⟨hok, hbad⟩ := h.alias hlong
          constructor
          · intro hall
            rw [hok hall.2]
            rfl
          · intro hno
            obtain ⟨f, hf⟩ := hbad fun hall => hno ⟨hlong, hall⟩
            rw [hf]
            exact ⟨f, rfl⟩
      · have hanswers : answers seq msg = false := by
          refine decide_eq_false fun hyes => ?_
          rcases hyes.2 with h | h
          · exact herror h
          · exact hnew h
        rw [if_pos hnew, hanswers]
        exact ⟨fun _ => rfl, fun hno => absurd (fun hyes => absurd hyes Bool.false_ne_true) hno⟩
  · have hanswers : answers seq msg = false := decide_eq_false fun hyes => hours hyes.1
    rw [if_pos hours, hanswers]
    exact ⟨fun _ => rfl, fun hno => absurd (fun hyes => absurd hyes Bool.false_ne_true) hno⟩

end Record

/-! ## The datagrams -/

section Walks

variable {σ : Type} {effect : σ → List UInt8 → σ} {body : σ → UInt64 → UInt64 → Except Fault (σ × Bool)}
  {halts : List UInt8 → Bool} {inside : List UInt8 → Prop}

/-- Every message the walk looks at is `inside`, and is padded if the walk steps over it. -/
def Padded (inside : List UInt8 → Prop) (halts : List UInt8 → Bool) (bytes : List UInt8) : Prop :=
  ∀ r ∈ messageStarts halts bytes,
    inside (r.take (nlmsgLen r)) ∧ (halts (r.take (nlmsgLen r)) = true ∨ MessagePadded r)

theorem Datagram.len_toNat (d : Datagram) : d.len.toNat = d.bytes.length := by
  have hfits := d.fits
  unfold Datagram.len
  rw [UInt64.toNat_ofNat']
  omega

theorem Datagram.rest (d : Datagram) : Rest d.bytes d.len 0 d.bytes where
  eq := by
    rw [d.len_toNat, List.take_length]
    rfl
  inside := Nat.le_of_eq d.len_toNat
  le := Nat.zero_le _

/-- A message loop: its body reads within the message if that is `inside`, and else it fails. -/
theorem messageProgram (d : Datagram) (hbody : ∀ s off len msg, Message d.bytes off len msg →
    (inside msg → body s off len = .ok (effect s msg, !halts msg)) ∧
      (¬ inside msg → ∃ f, body s off len = .error f)) :
    Program d.bytes d.len nlmsgHdr (nlmsgLenAt d.bytes d.len) nlmsgAlign body nlmsgLen
      (fun r => halts (r.take (nlmsgLen r))) (fun r => inside (r.take (nlmsgLen r)))
      (fun s r => effect s (r.take (nlmsgLen r))) := by
  have hmessage : ∀ {off : UInt64} {rest : List UInt8}, Rest d.bytes d.len off rest →
      nlmsgHdr.toNat ≤ nlmsgLen rest → nlmsgLen rest ≤ rest.length →
        Message d.bytes off (UInt64.ofNat (nlmsgLen rest)) (rest.take (nlmsgLen rest)) := by
    intro off rest hr hmin hmax
    have hlen : (rest.take (nlmsgLen rest)).length = nlmsgLen rest := by
      rw [List.length_take]
      omega
    have hlt := nlmsgLen_lt rest
    have hsum := hr.len
    have hfits := d.fits
    have hwhole := d.len_toNat
    refine ⟨hr.take hmax, ?_, hlen.symm ▸ hmin, ?_⟩
    · rw [hlen, UInt64.toNat_ofNat']
      omega
    · rw [hr.add hmax]
      omega
  exact {
    header_pos := by decide
    stop_le := d.len_toNat.symm ▸ d.fits
    len_lt := nlmsgLen_lt
    len_in := fun _ _ hr hlen => nlmsgLenAt_rest hr hlen
    len_out := fun _ hoff => nlmsgLenAt_outside hoff
    stride_cases := nlmsgAlign_cases
    body_in := fun s _ _ hr hmin hmax hin => (hbody s _ _ _ (hmessage hr hmin hmax)).1 hin
    body_out := fun s _ _ hr hmin hmax hout => (hbody s _ _ _ (hmessage hr hmin hmax)).2 hout }

theorem fits_message {r : List UInt8} (hr : r ∈ messageStarts halts bytes) :
    Fits nlmsgAlign nlmsgLen (fun r => halts (r.take (nlmsgLen r))) (fun r => inside (r.take (nlmsgLen r))) r ↔
      inside (r.take (nlmsgLen r)) ∧ (halts (r.take (nlmsgLen r)) = true ∨ MessagePadded r) := by
  have hcomplete : nlmsgHdr.toNat ≤ nlmsgLen r ∧ nlmsgLen r ≤ r.length := Records.mem_starts hr
  unfold Fits
  rw [steps_message hcomplete.1]

/-- The walk over a datagram ends inside it, having taken its complete messages, just if they are padded. -/
theorem messageWalk_iff (d : Datagram) (hbody : ∀ s off len msg, Message d.bytes off len msg →
    (inside msg → body s off len = .ok (effect s msg, !halts msg)) ∧
      (¬ inside msg → ∃ f, body s off len = .error f)) {s s' : σ} :
    (∃ fuel, walk d.len nlmsgHdr (nlmsgLenAt d.bytes d.len) nlmsgAlign body fuel s 0 = .ok s') ↔
      Padded inside halts d.bytes ∧ s' = (messagesOf halts d.bytes).foldl effect s := by
  rw [(messageProgram d hbody).walk_iff d.rest]
  unfold Padded messagesOf
  rw [List.foldl_map]
  exact and_congr_left fun _ => forall₂_congr fun _ hr => fits_message hr

/-- More steps than the datagram has bytes are enough. -/
theorem messageWalk_padded (d : Datagram) (hbody : ∀ s off len msg, Message d.bytes off len msg →
    (inside msg → body s off len = .ok (effect s msg, !halts msg)) ∧
      (¬ inside msg → ∃ f, body s off len = .error f)) (hpadded : Padded inside halts d.bytes) {fuel : ℕ}
    (hfuel : d.bytes.length < fuel) (s : σ) :
    walk d.len nlmsgHdr (nlmsgLenAt d.bytes d.len) nlmsgAlign body fuel s 0 =
      .ok ((messagesOf halts d.bytes).foldl effect s) := by
  have hwalk := (messageProgram d hbody).walk_fits (s := s) d.rest (Nat.le_refl _) hfuel
    fun r hr => (fits_message hr).mpr (hpadded r hr)
  unfold messagesOf
  rw [List.foldl_map]
  exact hwalk

end Walks

theorem linkmonFeedEx_iff (m : Linkmon) (d : Datagram) (s : Linkmon × Bool) :
    (∃ fuel, linkmonFeedEx fuel m d = .ok s) ↔ Padded LinkPadded (fun _ => false) d.bytes ∧
      s = (messagesOf (fun _ => false) d.bytes).foldl linkmonTakes (m, false) :=
  messageWalk_iff d fun s _ _ _ h => linkmonMessage_msg h s

theorem ifscanFeedEx_iff (w : WirelessGate) (s : IfScan) (d : Datagram) (now : UInt64) (s' : IfScan × Bool) :
    (∃ fuel, ifscanFeedEx w fuel s d now = .ok s') ↔ Padded LinkPadded isTerminator d.bytes ∧
      s' = (messagesOf isTerminator d.bytes).foldl (ifscanTakes w now) (s, false) :=
  messageWalk_iff d fun s _ _ _ h => ifscanMessage_msg h w now s

theorem vlanReply_iff (seq : UInt32) (d : Datagram) (s : VlanAnswer) :
    (∃ fuel, vlanReply seq fuel d = .ok s) ↔ Padded (AnswerPadded seq) (answers seq) d.bytes ∧
      s = (messagesOf (answers seq) d.bytes).foldl (vlanTakes seq) .pending :=
  messageWalk_iff d fun s _ _ _ h => vlanMessage_msg h seq s

theorem linkmonFeed_iff (m : Linkmon) (d : Datagram) :
    (∃ fuel, linkmonFeed fuel m d =
        .ok ((messagesOf (fun _ => false) d.bytes).foldl linkmonTakes (m, false)).1) ↔
      Padded LinkPadded (fun _ => false) d.bytes := by
  constructor
  · rintro ⟨fuel, hfeed⟩
    unfold linkmonFeed at hfeed
    cases hex : linkmonFeedEx fuel m d with
    | error f =>
      rw [hex] at hfeed
      cases hfeed
    | ok s => exact ((linkmonFeedEx_iff m d s).mp ⟨fuel, hex⟩).1
  · intro hpadded
    obtain ⟨fuel, hex⟩ := (linkmonFeedEx_iff m d _).mpr ⟨hpadded, rfl⟩
    refine ⟨fuel, ?_⟩
    unfold linkmonFeed
    rw [hex]
    rfl

theorem ifscanFeed_iff (w : WirelessGate) (s : IfScan) (d : Datagram) (now : UInt64) :
    (∃ fuel, ifscanFeed w fuel s d now =
        .ok ((messagesOf isTerminator d.bytes).foldl (ifscanTakes w now) (s, false)).1) ↔
      Padded LinkPadded isTerminator d.bytes := by
  constructor
  · rintro ⟨fuel, hfeed⟩
    unfold ifscanFeed at hfeed
    cases hex : ifscanFeedEx w fuel s d now with
    | error f =>
      rw [hex] at hfeed
      cases hfeed
    | ok s' => exact ((ifscanFeedEx_iff w s d now s').mp ⟨fuel, hex⟩).1
  · intro hpadded
    obtain ⟨fuel, hex⟩ := (ifscanFeedEx_iff w s d now _).mpr ⟨hpadded, rfl⟩
    refine ⟨fuel, ?_⟩
    unfold ifscanFeed
    rw [hex]
    rfl

/-- Each of the three walks ends, reads inside the datagram and its messages only, and takes the complete
messages for what they say, just if those it steps over and their attributes are padded. -/
theorem netlink_walks_inside (d : Datagram) (m : Linkmon) (w : WirelessGate) (s : IfScan) (now : UInt64)
    (seq : UInt32) :
    ((∃ fuel, linkmonFeed fuel m d =
        .ok ((messagesOf (fun _ => false) d.bytes).foldl linkmonTakes (m, false)).1) ↔
      Padded LinkPadded (fun _ => false) d.bytes) ∧
    ((∃ fuel, ifscanFeed w fuel s d now =
        .ok ((messagesOf isTerminator d.bytes).foldl (ifscanTakes w now) (s, false)).1) ↔
      Padded LinkPadded isTerminator d.bytes) ∧
    ((∃ fuel, vlanReply seq fuel d =
        .ok ((messagesOf (answers seq) d.bytes).foldl (vlanTakes seq) .pending)) ↔
      Padded (AnswerPadded seq) (answers seq) d.bytes) := by
  refine ⟨linkmonFeed_iff m d, ifscanFeed_iff w s d now, ?_⟩
  rw [vlanReply_iff]
  exact and_iff_left rfl

/-- A message of 17 bytes, all of a datagram. -/
def unpadded : Datagram where
  bytes := [17, 0, 0, 0, 1, 0, 0, 0, 0, 0, 0, 0, 0, 0, 0, 0, 0]
  fits := by decide

/-- Behind it the walk reads on, past the end. -/
theorem unpadded_overrun : ¬ ∀ (m : Linkmon) (d : Datagram), ∃ fuel, linkmonFeed fuel m d =
    .ok ((messagesOf (fun _ => false) d.bytes).foldl linkmonTakes (m, false)).1 := by
  intro h
  have hpadded := (linkmonFeed_iff ⟨[0x65], -1, 0⟩ unpadded).mp (h _ unpadded)
  have hmem : unpadded.bytes ∈ messageStarts (fun _ => false) unpadded.bytes := by decide
  obtain ⟨-, hhalts | hfit⟩ := hpadded _ hmem
  · cases hhalts
  · exact absurd hfit.2 (by decide)

end Libreac
