import Mathlib.Data.List.Basic
import Mathlib.Data.List.Nodup
import Mathlib.Data.List.Perm.Subperm
import Libreac.Proofs.IfScanProofs
import Libreac.Proofs.NetlinkProofs

/-!
# Proofs: what a resync leaves

A dump lists what there is, each interface once, so the calls it makes are about different entries and an
entry is what its own link made of it (`pass_find_own`). What the dump does not list keeps its entry
(`pass_find_other`): the removals of a lost multicast are nowhere in it.
-/

namespace Libreac

open Records (Fault u16 u32)

/-! ## A dump -/

/-- The messages of the datagrams. -/
def dumpMessages (ds : List Datagram) : List (List UInt8) :=
  ds.flatMap fun d => messagesOf isTerminator d.bytes

/-- The datagrams of an `RTM_GETLINK` dump: each is received whole, its messages and attributes are padded,
it lists every interface once, takes none back, and nothing follows its terminator. -/
structure IsDump (ds : List Datagram) : Prop where
  received : ∀ d ∈ ds, d.bytes ≠ [] ∧ d.bytes.length ≤ ifscanBuf
  padded : ∀ d ∈ ds, Padded LinkPadded isTerminator d.bytes
  lists : ∀ msg ∈ dumpMessages ds, u16 msg 4 ≠ rtmDellink
  once : ((dumpMessages ds).filterMap linkOf).Nodup
  ends : ∀ before msg after, dumpMessages ds = before ++ msg :: after → isTerminator msg = true → after = []

/-- A link of a dump: whether it is a wired Ethernet one, and whether it has a carrier. -/
structure DumpLink where
  name : IfName
  ifindex : ℤ
  ether : Bool
  up : Bool
  deriving DecidableEq

/-- The link a message lists. -/
def dumpLink (w : WirelessGate) (msg : List UInt8) : Option DumpLink :=
  (linkOf msg).map fun name =>
    { name, ifindex := (u32 msg 20).toInt32.toInt, ether := w.ether name (u16 msg 18) (u32 msg 24)
      up := u32 msg 24 &&& iffLowerUp ≠ 0 }

def dumpLinks (w : WirelessGate) (ds : List Datagram) : List DumpLink :=
  (dumpMessages ds).filterMap (dumpLink w)

/-- The wired Ethernet links of a dump. -/
def wiredLinks (w : WirelessGate) (ds : List Datagram) : List DumpLink :=
  (dumpLinks w ds).filter DumpLink.ether

/-- The carrier the state of an entry stands for. -/
def IfState.hasCarrier : IfState → Bool
  | .linked | .segment => true
  | .down | .hold => false

/-- The table is what the links say, and what was tracked and is not among them has left: the events are
emitted, and a ring with room for two for each slot of the table has them all. A ring that is nearly full
drops the events it has no room for, and of those `left` says nothing. -/
structure Converged (wired : List DumpLink) (s s' : IfScan) : Prop where
  tracked : ∀ name ifindex, (∃ e, s'.find name = some e ∧ e.ifindex = ifindex) ↔
    ∃ l ∈ wired, l.name = name ∧ l.ifindex = ifindex
  carrier : ∀ l ∈ wired, ∀ e, s'.find l.name = some e → e.state.hasCarrier = l.up
  left : ∃ es, s'.ring = s.ring.pushAll es ∧ es.length ≤ 2 * ifscanMax ∧
    (s.ring.items.length + 2 * ifscanMax ≤ ifscanEvents - 1 → s'.ring.items = s.ring.items ++ es) ∧
    ∀ name e, s.find name = some e → (¬ ∃ l ∈ wired, l.name = name ∧ l.ifindex = e.ifindex) →
      ∀ v ∈ e.state.leaves, ⟨v, name⟩ ∈ es

/-- What a resync that answers 0 says. -/
def TellsTruth (w : WirelessGate) (ds : List Datagram) (s s' : IfScan) (zero : Bool) : Prop :=
  zero = true → (∃ msg ∈ (dumpMessages ds).getLast?, u16 msg 4 = nlmsgDone) ∧
    ((wiredLinks w ds).length ≤ ifscanMax → Converged (wiredLinks w ds) s s')

/-! ## When it says so -/

/-- The names that have a slot once the links of `before` were observed: those tracked that no link said to
be unwired, and the wired ones that were new. -/
def slotsTaken (s : IfScan) (before : List DumpLink) : List IfName :=
  ((s.ifs.entries.map Prod.fst).filter fun n => before.all fun l => l.name ≠ n || l.ether) ++
    (before.filter fun l => l.ether && (s.find l.name).isNone).map DumpLink.name

/-- A new link never finds the table full. -/
def FindsRoom (s : IfScan) (links : List DumpLink) : Prop :=
  ∀ before l after, links = before ++ l :: after → l.ether = true → s.find l.name = none →
    (slotsTaken s before).length < ifscanMax

/-- The dump lists every interface that is tracked. -/
def ListsTracked (s : IfScan) (links : List DumpLink) : Prop :=
  ∀ name, s.find name ≠ none → name ∈ links.map DumpLink.name

/-- The terminator is among the datagrams that are read. -/
def Completes (s : IfScan) (sent : Bool) (ds : List Datagram) : Prop :=
  s.isOpen = true ∧ sent = true ∧ ∃ msg ∈ dumpMessages (ds.take 64), isTerminator msg = true

/-- Where it completes, the dump ends with `NLMSG_DONE`, and if its links fit the table then it lists
whatever is tracked and each new one finds room. -/
def ResyncSound (w : WirelessGate) (s : IfScan) (sent : Bool) (ds : List Datagram) : Prop :=
  Completes s sent ds → (∃ msg ∈ (dumpMessages ds).getLast?, u16 msg 4 = nlmsgDone) ∧
    ((wiredLinks w ds).length ≤ ifscanMax →
      ListsTracked s (dumpLinks w ds) ∧ FindsRoom s (dumpLinks w ds))

/-! ## What a resync makes of a dump -/

/-- The name can be that of an interface. -/
def DumpLink.Named (l : DumpLink) : Prop := ¬ (l.name = [] ∨ 16 ≤ l.name.length)

theorem foldl_ifnameIn_length (attrs : List (List UInt8)) {name : IfName} (h : name.length < 16) :
    (attrs.foldl ifnameIn name).length < 16 := by
  induction attrs generalizing name with
  | nil => exact h
  | cons attr attrs ih =>
    refine ih ?_
    unfold ifnameIn
    split_ifs with hname
    · refine Nat.lt_of_le_of_lt (List.takeWhile_prefix _).length_le ?_
      rw [List.length_dropLast, List.length_drop]
      omega
    · exact h

theorem dumpLink_named {w : WirelessGate} {msg : List UInt8} {l : DumpLink} (h : dumpLink w msg = some l) :
    l.Named := by
  obtain ⟨name, hname, rfl⟩ := Option.map_eq_some_iff.mp h
  unfold linkOf at hname
  split_ifs at hname with hlink
  obtain rfl := Option.some.inj hname
  have hlen : (ifnameOf msg).length < 16 := foldl_ifnameIn_length (attrsOf msg) (by decide)
  intro hbad
  rcases hbad with hempty | hlong
  · exact hlink.2.2 hempty
  · exact absurd hlong (Nat.not_le.mpr hlen)

section Messages

variable {w : WirelessGate} {now : UInt64} {ds : List Datagram} {msgs : List (List UInt8)}

/-- A link of a dump is observed. -/
def observeLink (now : UInt64) (s : IfScan) (l : DumpLink) : IfScan :=
  ifscanObserve { s with msgs := s.msgs + 1 } l.name l.ifindex l.ether l.up now

theorem linkOf_terminator {msg : List UInt8} (h : isTerminator msg = true) : linkOf msg = none := by
  have hterm : u16 msg 4 = nlmsgDone ∨ u16 msg 4 = nlmsgError := of_decide_eq_true h
  refine linkOf_none fun hall => ?_
  rcases hall.1 with hlink | hlink <;> rw [hlink] at hterm <;> revert hterm <;> decide

theorem ifscanTakes_listed {msg : List UInt8} (h : u16 msg 4 ≠ rtmDellink) (s : IfScan × Bool) :
    ifscanTakes w now s msg =
      ((dumpLink w msg).toList.foldl (observeLink now) s.1, s.2 || isTerminator msg) := by
  unfold ifscanTakes dumpLink
  cases hterm : isTerminator msg with
  | true =>
    rw [linkOf_terminator hterm, Bool.or_true]
    rfl
  | false =>
    rw [Bool.or_false]
    cases linkOf msg with
    | none => rfl
    | some name =>
      dsimp only
      rw [if_neg Bool.false_ne_true, if_neg h]
      rfl

/-- The messages of a dump, link after link. -/
theorem foldl_ifscanTakes (h : ∀ msg ∈ msgs, u16 msg 4 ≠ rtmDellink) (s : IfScan × Bool) :
    msgs.foldl (ifscanTakes w now) s =
      ((msgs.filterMap (dumpLink w)).foldl (observeLink now) s.1, s.2 || msgs.any isTerminator) := by
  induction msgs generalizing s with
  | nil => rw [List.any_nil, Bool.or_false]; rfl
  | cons msg msgs ih =>
    rw [List.foldl_cons, ifscanTakes_listed (h msg List.mem_cons_self),
      ih fun msg hmem => h msg (List.mem_cons_of_mem _ hmem), List.any_cons, Bool.or_assoc]
    cases hlink : dumpLink w msg with
    | none => rw [List.filterMap_cons_none hlink]; rfl
    | some l => rw [List.filterMap_cons_some hlink]; rfl

theorem Datagram.received_eq {d : Datagram} (h : d.bytes.length ≤ ifscanBuf) : d.received = d := by
  cases d with
  | mk bytes fits =>
    unfold Datagram.received
    congr 1
    exact List.take_of_length_le h

theorem dumpMessages_cons (d : Datagram) (ds : List Datagram) :
    dumpMessages (d :: ds) = messagesOf isTerminator d.bytes ++ dumpMessages ds := List.flatMap_cons

/-- Nothing follows the datagram with the terminator. -/
theorem IsDump.tail_nil {d : Datagram} (h : IsDump (d :: ds))
    (hterm : (messagesOf isTerminator d.bytes).any isTerminator = true) : dumpMessages ds = [] := by
  obtain ⟨msg, hmem, hmsg⟩ := List.any_eq_true.mp hterm
  obtain ⟨before, after, hsplit⟩ := List.append_of_mem hmem
  have hnil := h.ends before msg (after ++ dumpMessages ds)
    (by rw [dumpMessages_cons, hsplit, List.append_assoc, List.cons_append]) hmsg
  exact (List.append_eq_nil_iff.mp hnil).2

theorem IsDump.tail {d : Datagram} (h : IsDump (d :: ds)) : IsDump ds where
  received d hd := h.received d (List.mem_cons_of_mem _ hd)
  padded d hd := h.padded d (List.mem_cons_of_mem _ hd)
  lists msg hmsg := h.lists msg (by rw [dumpMessages_cons]; exact List.mem_append_right _ hmsg)
  once := by
    have honce := h.once
    rw [dumpMessages_cons, List.filterMap_append] at honce
    exact (List.nodup_append.mp honce).2.1
  ends before msg after hsplit hmsg := by
    refine h.ends (messagesOf isTerminator d.bytes ++ before) msg after ?_ hmsg
    rw [dumpMessages_cons, hsplit, List.append_assoc]

/-- The loop takes the messages of the datagrams it has the time for. -/
theorem resyncLoop_dump (h : IsDump ds) {fuel : ℕ} (hfuel : ifscanBuf < fuel) (n : ℕ) (s : IfScan) :
    resyncLoop w fuel now n (s, false) ds =
      .ok ((dumpMessages (ds.take n)).foldl (ifscanTakes w now) (s, false)) := by
  induction n generalizing ds s with
  | zero =>
    unfold resyncLoop
    rfl
  | succ n ih =>
    cases ds with
    | nil =>
      unfold resyncLoop
      rfl
    | cons d ds =>
      obtain ⟨hne, hlen⟩ := h.received d List.mem_cons_self
      have hfeed : ifscanFeedEx w fuel s d now = .ok _ :=
        messageWalk_padded d (fun s _ _ _ hmsg => ifscanMessage_msg hmsg w now s)
          (h.padded d List.mem_cons_self) (by omega) (s, false)
      have hlists : ∀ msg ∈ messagesOf isTerminator d.bytes, u16 msg 4 ≠ rtmDellink := by
        intro msg hmsg
        exact h.lists msg (by rw [dumpMessages_cons]; exact List.mem_append_left _ hmsg)
      rw [resyncLoop, if_neg (by simp [hne]), Datagram.received_eq hlen, hfeed, List.take_succ_cons,
        dumpMessages_cons, List.foldl_append, foldl_ifscanTakes hlists, Bool.false_or]
      cases hterm : (messagesOf isTerminator d.bytes).any isTerminator with
      | false => exact ih h.tail _
      | true =>
        -- The loop sees the flag before it reads on; a dump that goes on is none.
        have hrest : dumpMessages (ds.take n) = [] := by
          have hnil := h.tail_nil hterm
          unfold dumpMessages at hnil ⊢
          rw [List.flatMap_eq_nil_iff] at hnil ⊢
          exact fun d hd => hnil d (List.mem_of_mem_take hd)
        rw [hrest]
        cases n <;> cases ds <;> simp [resyncLoop, bind, Except.bind]

/-- What a resync makes of a dump. -/
theorem ifscanResync_dump (w : WirelessGate) (now : UInt64) (h : IsDump ds) (s : IfScan) (sent : Bool) :
    ∃ s' zero, (∀ fuel, ifscanBuf < fuel → ifscanResync w fuel s sent ds now = .ok (s', zero)) ∧
      (zero = true ↔ Completes s sent ds) ∧
      (zero = true → s' = (dumpLinks w ds).foldl (observeLink now) s) := by
  unfold ifscanResync
  by_cases hcall : s.isOpen = false ∨ sent = false
  · refine ⟨s, false, fun _ _ => if_pos hcall, ⟨nofun, ?_⟩, nofun⟩
    rintro ⟨hopen, hsent, -⟩
    rw [hopen, hsent] at hcall
    simp at hcall
  · have hlists : ∀ msg ∈ dumpMessages (ds.take 64), u16 msg 4 ≠ rtmDellink := by
      intro msg hmsg
      obtain ⟨d, hd, hmsg⟩ := List.mem_flatMap.mp hmsg
      exact h.lists msg (List.mem_flatMap.mpr ⟨d, List.mem_of_mem_take hd, hmsg⟩)
    have hrun : ∀ fuel, ifscanBuf < fuel → resyncLoop w fuel now 64 (s, false) ds =
        .ok (((dumpMessages (ds.take 64)).filterMap (dumpLink w)).foldl (observeLink now) s,
          (dumpMessages (ds.take 64)).any isTerminator) := by
      intro fuel hfuel
      rw [resyncLoop_dump h hfuel, foldl_ifscanTakes hlists, Bool.false_or]
    refine ⟨_, _, fun fuel hfuel => (if_neg hcall).trans (hrun fuel hfuel), ?_, ?_⟩
    · simp only [not_or, Bool.not_eq_false] at hcall
      rw [List.any_eq_true]
      exact ⟨fun hterm => ⟨hcall.1, hcall.2, hterm⟩, fun hcomplete => hcomplete.2.2⟩
    · intro hterm
      obtain ⟨msg, hmem, hmsg⟩ := List.any_eq_true.mp hterm
      obtain ⟨before, after, hsplit⟩ := List.append_of_mem hmem
      have hwhole : dumpMessages ds = dumpMessages (ds.take 64) ++ dumpMessages (ds.drop 64) := by
        unfold dumpMessages
        rw [← List.flatMap_append, List.take_append_drop]
      have hnil := h.ends before msg (after ++ dumpMessages (ds.drop 64))
        (by rw [hwhole, hsplit, List.append_assoc, List.cons_append]) hmsg
      rw [dumpLinks, hwhole, (List.append_eq_nil_iff.mp hnil).2, List.append_nil]

theorem dumpLinks_named {l : DumpLink} (hl : l ∈ dumpLinks w ds) : l.Named := by
  obtain ⟨msg, -, hlink⟩ := List.mem_filterMap.mp hl
  exact dumpLink_named hlink

theorem IsDump.names_nodup (h : IsDump ds) : ((dumpLinks w ds).map DumpLink.name).Nodup := by
  have hnames : (dumpLinks w ds).map DumpLink.name = (dumpMessages ds).filterMap linkOf := by
    unfold dumpLinks
    rw [List.map_filterMap]
    refine List.filterMap_congr fun msg _ => ?_
    unfold dumpLink
    rw [Option.map_map]
    exact Option.map_id'
  rw [hnames]
  exact h.once

end Messages

/-! ## A pass over the links -/

section Pass

variable {now : UInt64} {s : IfScan} {links : List DumpLink}

theorem observeLink_moves {l : DumpLink} (hl : l.Named) (s : IfScan) :
    Moves s (observeLink now s l) l.name (observed (s.find l.name) (s.room l.name) l.ifindex l.ether l.up now).1
      ((observed (s.find l.name) (s.room l.name) l.ifindex l.ether l.up now).2.map (IfEvent.mk · l.name)) := by
  have hmoves : Moves { s with msgs := s.msgs + 1 } (observeLink now s l) l.name _ _ := observe_moves hl
  exact ⟨hmoves.find, hmoves.ring, hmoves.kept⟩

/-! ### What is observed of one link -/

variable {o : Option IfEntry} {room ether up : Bool} {ifindex : ℤ}

/-- An entry afterwards is one of the link. -/
theorem observed_some {e : IfEntry} (h : (observed o room ifindex ether up now).1 = some e) :
    ether = true ∧ e.ifindex = ifindex ∧ e.state.hasCarrier = up := by
  have hcarrier : ∀ e : IfEntry, (e.carrier up now).1.ifindex = e.ifindex ∧
      (e.carrier up now).1.state.hasCarrier = up := by
    intro e
    unfold IfEntry.carrier
    cases hst : e.state <;> cases up <;> simp [IfState.hasCarrier, hst]
  unfold observed at h
  cases ether with
  | false => cases h
  | true =>
    rw [if_pos rfl] at h
    refine ⟨rfl, ?_⟩
    cases hsame : o.filter fun e => e.ifindex = ifindex with
    | some e₀ =>
      rw [hsame] at h
      obtain rfl := Option.some.inj h
      have hindex : e₀.ifindex = ifindex := of_decide_eq_true (Option.filter_eq_some_iff.mp hsame).2
      exact ⟨(hcarrier e₀).1.trans hindex, (hcarrier e₀).2⟩
    | none =>
      rw [hsame] at h
      cases room with
      | false => cases h
      | true =>
        obtain rfl := Option.some.inj h
        exact hcarrier { ifindex }

theorem observed_ne_none (hroom : o ≠ none → room = true) :
    (observed o room ifindex ether up now).1 ≠ none ↔ ether = true ∧ room = true := by
  unfold observed
  cases ether with
  | false => simp
  | true =>
    rw [if_pos rfl]
    cases hsame : o.filter fun e => e.ifindex = ifindex with
    | some e =>
      have hsome : o ≠ none := by
        rw [(Option.filter_eq_some_iff.mp hsame).1]
        nofun
      simp [hroom hsome]
    | none => cases room <;> simp

/-- What is replaced or unwired leaves. -/
theorem observed_leaves {e : IfEntry} (ho : o = some e) (h : ether = true → e.ifindex ≠ ifindex) :
    ∀ v ∈ e.state.leaves, v ∈ (observed o room ifindex ether up now).2 := by
  subst ho
  intro v hv
  unfold observed
  cases ether with
  | false => exact hv
  | true =>
    rw [if_pos rfl, Option.filter_some, if_neg (by simpa using h rfl)]
    cases room with
    | false => exact hv
    | true => exact List.mem_append_left _ hv

theorem observed_length : (observed o room ifindex ether up now).2.length ≤
    (if o.isSome = true then 1 else 0) + if ether = true then 1 else 0 := by
  have hleft : (o.elim [] fun e => e.state.leaves).length ≤ if o.isSome = true then 1 else 0 := by
    cases o with
    | none => exact Nat.le_refl _
    | some e => exact (leaves_quiet e.state).1
  have hnew := (carrier_quiet { ifindex } up now).1
  unfold observed
  cases ether with
  | false => exact hleft
  | true =>
    simp only [if_true]
    cases o.filter fun e => e.ifindex = ifindex with
    | some e => exact Nat.le_trans (carrier_quiet e up now).1 (Nat.le_add_left _ _)
    | none =>
      cases room with
      | false => exact Nat.le_trans hleft (Nat.le_add_right _ _)
      | true =>
        rw [if_pos rfl, List.length_append]
        exact Nat.add_le_add hleft hnew

/-! ### What a pass does to an entry -/

theorem pass_find_other (hnamed : ∀ l ∈ links, l.Named) {name : IfName} (hname : ∀ l ∈ links, l.name ≠ name) :
    (links.foldl (observeLink now) s).find name = s.find name := by
  induction links generalizing s with
  | nil => rfl
  | cons l links ih =>
    rw [List.foldl_cons, ih (fun l hl => hnamed l (List.mem_cons_of_mem _ hl))
        (fun l hl => hname l (List.mem_cons_of_mem _ hl)),
      (observeLink_moves (hnamed l List.mem_cons_self) s).find, if_neg (hname l List.mem_cons_self).symm]

theorem nodup_last {l : DumpLink} (honce : ((links ++ [l]).map DumpLink.name).Nodup) :
    (links.map DumpLink.name).Nodup ∧ ∀ m ∈ links, m.name ≠ l.name := by
  rw [List.map_append, List.nodup_append] at honce
  exact ⟨honce.1, fun m hm => honce.2.2 _ (List.mem_map_of_mem hm) _ List.mem_cons_self⟩

/-- The last link of a pass finds its entry as it was. -/
theorem pass_find_last {l : DumpLink} (hnamed : ∀ m ∈ links ++ [l], m.Named)
    (honce : ((links ++ [l]).map DumpLink.name).Nodup) (name : IfName) :
    ((links ++ [l]).foldl (observeLink now) s).find name =
      if name = l.name then
        (observed (s.find l.name) ((links.foldl (observeLink now) s).room l.name) l.ifindex l.ether l.up now).1
      else (links.foldl (observeLink now) s).find name := by
  have hbefore : (links.foldl (observeLink now) s).find l.name = s.find l.name :=
    pass_find_other (fun m hm => hnamed m (List.mem_append_left _ hm)) (nodup_last honce).2
  rw [List.foldl_append, List.foldl_cons, List.foldl_nil,
    (observeLink_moves (hnamed l (List.mem_append_right _ List.mem_cons_self)) _).find, hbefore]

/-- An entry of the dump is what its link made of it. -/
theorem pass_find_own (hnamed : ∀ m ∈ links, m.Named) (honce : (links.map DumpLink.name).Nodup)
    {l : DumpLink} (hl : l ∈ links) : ∃ room, (links.foldl (observeLink now) s).find l.name =
      (observed (s.find l.name) room l.ifindex l.ether l.up now).1 := by
  obtain ⟨before, after, rfl⟩ := List.append_of_mem hl
  rw [List.append_cons] at hnamed honce ⊢
  rw [List.map_append, List.nodup_append] at honce
  have hnew : ∀ m ∈ after, m.name ≠ l.name := by
    intro m hm heq
    exact honce.2.2 l.name (List.mem_map_of_mem (List.mem_append_right _ List.mem_cons_self)) _
      (List.mem_map_of_mem hm) heq.symm
  rw [List.foldl_append, pass_find_other (fun m hm => hnamed m (List.mem_append_right _ hm)) hnew,
    pass_find_last (fun m hm => hnamed m (List.mem_append_left _ hm)) honce.1, if_pos rfl]
  exact ⟨_, rfl⟩

/-- The events of a pass: an entry that is replaced or unwired has its own, and a link makes no more than
two of them. -/
theorem pass_emits (now : UInt64) (hnamed : ∀ m ∈ links, m.Named) (honce : (links.map DumpLink.name).Nodup) :
    ∃ es, (links.foldl (observeLink now) s).ring = s.ring.pushAll es ∧
      es.length ≤ links.countP (fun l => (s.find l.name).isSome) + links.countP DumpLink.ether ∧
      ∀ l ∈ links, ∀ e, s.find l.name = some e → (l.ether = true → e.ifindex ≠ l.ifindex) →
        ∀ v ∈ e.state.leaves, ⟨v, l.name⟩ ∈ es := by
  induction links generalizing s with
  | nil => exact ⟨[], rfl, Nat.zero_le _, List.forall_mem_nil _⟩
  | cons l links ih =>
    rw [List.map_cons, List.nodup_cons] at honce
    have hmoves : Moves s (observeLink now s l) l.name _ _ := observeLink_moves (hnamed l List.mem_cons_self) s
    obtain ⟨es, hring, hlen, hleaves⟩ := ih (s := observeLink now s l)
      (fun m hm => hnamed m (List.mem_cons_of_mem _ hm)) honce.2
    -- The links behind it are about other names.
    have hother : ∀ m ∈ links, (observeLink now s l).find m.name = s.find m.name := by
      intro m hm
      rw [hmoves.find, if_neg]
      exact fun heq => honce.1 (heq ▸ List.mem_map_of_mem hm)
    let vs := (observed (s.find l.name) (s.room l.name) l.ifindex l.ether l.up now).2
    refine ⟨vs.map (IfEvent.mk · l.name) ++ es, ?_, ?_, ?_⟩
    · rw [List.foldl_cons, hring, hmoves.ring, ← BoundedQueue.pushAll_append]
    · have hfew : vs.length ≤ (if (s.find l.name).isSome = true then 1 else 0) +
          if l.ether = true then 1 else 0 := observed_length
      have hsame : links.countP (fun m => ((observeLink now s l).find m.name).isSome) =
          links.countP fun m => (s.find m.name).isSome :=
        List.countP_congr fun m hm => by rw [hother m hm]
      rw [List.length_append, List.length_map, List.countP_cons, List.countP_cons]
      omega
    · intro m hm e hfind hgone v hv
      rcases List.mem_cons.mp hm with rfl | hm
      · exact List.mem_append_left _ (List.mem_map_of_mem (observed_leaves hfind hgone v hv))
      · exact List.mem_append_right _ (hleaves m hm e (by rw [hother m hm, hfind]) hgone v hv)

/-! ### When there is room -/

theorem mem_slotsTaken {name : IfName} : name ∈ slotsTaken s links ↔
    (s.find name ≠ none ∧ ∀ l ∈ links, l.name = name → l.ether = true) ∨
      ∃ l ∈ links, l.name = name ∧ l.ether = true ∧ s.find name = none := by
  have htracked : name ∈ s.ifs.entries.map Prod.fst ↔ s.find name ≠ none := by
    unfold IfScan.find
    rw [Ne, SlotTable.find_eq_none_iff, not_not]
  unfold slotsTaken
  rw [List.mem_append, List.mem_filter, htracked, List.mem_map]
  refine or_congr (and_congr_right fun _ => ?_) (exists_congr fun l => ?_)
  · simp only [List.all_eq_true, Bool.or_eq_true, decide_eq_true_eq]
    exact forall₂_congr fun l _ => or_iff_not_imp_left.trans (by rw [not_not])
  · rw [List.mem_filter, Bool.and_eq_true, Option.isNone_iff_eq_none]
    constructor
    · rintro ⟨⟨hl, hether, hnew⟩, rfl⟩
      exact ⟨hl, rfl, hether, hnew⟩
    · rintro ⟨hl, rfl, hether, hnew⟩
      exact ⟨⟨hl, hether, hnew⟩, rfl⟩

theorem nodup_slotsTaken (honce : (links.map DumpLink.name).Nodup) : (slotsTaken s links).Nodup := by
  unfold slotsTaken
  rw [List.nodup_append]
  refine ⟨s.ifs.nodup_keys.filter _, honce.sublist (List.filter_sublist.map _), ?_⟩
  rintro name hmem _ hnew rfl
  obtain ⟨l, hl, rfl⟩ := List.mem_map.mp hnew
  have htracked := (List.mem_filter.mp hmem).1
  have hnone : s.find l.name = none := by
    have hlink := (List.mem_filter.mp hl).2
    rw [Bool.and_eq_true, Option.isNone_iff_eq_none] at hlink
    exact hlink.2
  exact (SlotTable.find_eq_none_iff s.ifs l.name).mp hnone htracked

theorem findsRoom_append (l : DumpLink) : FindsRoom s (links ++ [l]) ↔ FindsRoom s links ∧
    (l.ether = true → s.find l.name = none → (slotsTaken s links).length < ifscanMax) := by
  constructor
  · intro h
    refine ⟨?_, h links l [] rfl⟩
    intro before m after hsplit
    exact h before m (after ++ [l]) (by rw [hsplit, List.append_assoc, List.cons_append])
  · rintro ⟨hlinks, hlast⟩ before m after hsplit
    rcases List.eq_nil_or_concat after with rfl | ⟨after, last, rfl⟩
    · obtain ⟨rfl, hm⟩ := List.append_inj' hsplit rfl
      obtain rfl := (List.cons.inj hm).1
      exact hlast
    · rw [List.concat_eq_append, ← List.cons_append, ← List.append_assoc] at hsplit
      obtain ⟨rfl, -⟩ := List.append_inj' hsplit rfl
      exact hlinks before m after rfl

/-- As long as each new link finds room, the slots are taken by the names that should have one. -/
theorem pass_tracks (hnamed : ∀ m ∈ links, m.Named) (honce : (links.map DumpLink.name).Nodup)
    (hroom : FindsRoom s links) (name : IfName) :
    name ∈ slotsTaken s links ↔ (links.foldl (observeLink now) s).find name ≠ none := by
  induction links using List.reverseRecOn generalizing name with
  | nil =>
    rw [mem_slotsTaken]
    simp
  | append_singleton links l ih =>
    obtain ⟨hroom, hlast⟩ := (findsRoom_append l).mp hroom
    have hnamed' : ∀ m ∈ links, m.Named := fun m hm => hnamed m (List.mem_append_left _ hm)
    obtain ⟨honce', hnew⟩ := nodup_last honce
    have hfull := SlotTable.full_iff (links.foldl (observeLink now) s).ifs (nodup_slotsTaken honce')
      (ih hnamed' honce' hroom)
    rw [pass_find_last hnamed honce, mem_slotsTaken]
    by_cases hname : name = l.name
    · subst hname
      have hown : (links.foldl (observeLink now) s).find l.name = s.find l.name := pass_find_other hnamed' hnew
      have hslot : s.find l.name ≠ none → (links.foldl (observeLink now) s).room l.name = true := by
        intro htracked
        rw [IfScan.room, hown, Option.isSome_iff_ne_none.mpr htracked, Bool.true_or]
      rw [if_pos rfl, observed_ne_none hslot]
      constructor
      · rintro (⟨htracked, hall⟩ | ⟨m, hm, heq, hether, hnone⟩)
        · exact ⟨hall l (List.mem_append_right _ List.mem_cons_self) rfl, hslot htracked⟩
        · obtain rfl : m = l := by
            rcases List.mem_append.mp hm with hm | hm
            · exact absurd heq (hnew m hm)
            · exact List.mem_singleton.mp hm
          have hfree : (links.foldl (observeLink now) s).ifs.full = false := by
            rw [← Bool.not_eq_true, hfull]
            exact Nat.not_le.mpr (hlast hether hnone)
          exact ⟨hether, by rw [IfScan.room, hfree, Bool.not_false, Bool.or_true]⟩
      · rintro ⟨hether, -⟩
        by_cases hnone : s.find l.name = none
        · exact .inr ⟨l, List.mem_append_right _ List.mem_cons_self, rfl, hether, hnone⟩
        · refine .inl ⟨hnone, fun m hm heq => ?_⟩
          rcases List.mem_append.mp hm with hm | hm
          · exact absurd heq (hnew m hm)
          · rw [List.mem_singleton.mp hm]
            exact hether
    · rw [if_neg hname, ← ih hnamed' honce' hroom, mem_slotsTaken]
      have hlast : ¬ l.name = name := Ne.symm hname
      simp only [List.mem_append, List.mem_singleton, or_imp, forall_and, forall_eq, or_and_right, exists_or,
        exists_eq_left, hlast, false_and, or_false, false_imp_iff, and_true]

/-- There is room just if every wired link has a slot afterwards. -/
theorem findsRoom_iff (now : UInt64) (hnamed : ∀ m ∈ links, m.Named) (honce : (links.map DumpLink.name).Nodup) :
    FindsRoom s links ↔
      ∀ l ∈ links, l.ether = true → (links.foldl (observeLink now) s).find l.name ≠ none := by
  constructor
  · intro hroom l hl hether
    rw [← pass_tracks hnamed honce hroom, mem_slotsTaken]
    by_cases hnone : s.find l.name = none
    · exact .inr ⟨l, hl, rfl, hether, hnone⟩
    · refine .inl ⟨hnone, fun m hm heq => ?_⟩
      rw [List.inj_on_of_nodup_map honce hm hl heq]
      exact hether
  · intro hall
    induction links using List.reverseRecOn with
    | nil =>
      intro before l after hsplit
      simp at hsplit
    | append_singleton links l ih =>
      have hnamed' : ∀ m ∈ links, m.Named := fun m hm => hnamed m (List.mem_append_left _ hm)
      obtain ⟨honce', hnew⟩ := nodup_last honce
      have hroom : FindsRoom s links := by
        refine ih hnamed' honce' fun m hm hether => ?_
        have hfind := hall m (List.mem_append_left _ hm) hether
        rw [pass_find_last hnamed honce, if_neg (hnew m hm)] at hfind
        exact hfind
      refine (findsRoom_append l).mpr ⟨hroom, fun hether hnone => ?_⟩
      have hfind := hall l (List.mem_append_right _ List.mem_cons_self) hether
      rw [pass_find_last hnamed honce, if_pos rfl, hnone, observed_ne_none fun h => absurd rfl h] at hfind
      have hown : (links.foldl (observeLink now) s).find l.name = none :=
        (pass_find_other hnamed' hnew).trans hnone
      have hfree : ¬ (links.foldl (observeLink now) s).ifs.full = true := by
        have hslot := hfind.2
        rw [IfScan.room, hown] at hslot
        simpa using hslot
      rw [SlotTable.full_iff _ (nodup_slotsTaken honce') (pass_tracks hnamed' honce' hroom)] at hfree
      exact Nat.not_le.mp hfree

/-! ### What a pass converges to -/

/-- No more names of a dump are tracked than the table has slots. -/
theorem countP_tracked_le (honce : (links.map DumpLink.name).Nodup) :
    links.countP (fun l => (s.find l.name).isSome) ≤ ifscanMax := by
  have hsub : (links.filter fun l => (s.find l.name).isSome).map DumpLink.name ⊆ s.ifs.entries.map Prod.fst := by
    intro name hmem
    obtain ⟨l, hl, rfl⟩ := List.mem_map.mp hmem
    have htracked : s.ifs.find l.name ≠ none := Option.isSome_iff_ne_none.mp (List.mem_filter.mp hl).2
    rw [Ne, SlotTable.find_eq_none_iff, not_not] at htracked
    exact htracked
  have hnodup : ((links.filter fun l => (s.find l.name).isSome).map DumpLink.name).Nodup :=
    honce.sublist (List.filter_sublist.map _)
  have hle := (List.subperm_of_subset hnodup hsub).length_le
  rw [List.length_map, List.length_map, ← List.countP_eq_length_filter] at hle
  exact hle.trans s.ifs.entries_length_le

theorem converged_iff (hnamed : ∀ m ∈ links, m.Named) (honce : (links.map DumpLink.name).Nodup)
    (hfit : (links.filter DumpLink.ether).length ≤ ifscanMax) :
    Converged (links.filter DumpLink.ether) s (links.foldl (observeLink now) s) ↔
      ListsTracked s links ∧ FindsRoom s links := by
  have hwired : ∀ l, l ∈ links.filter DumpLink.ether ↔ l ∈ links ∧ l.ether = true := fun l => List.mem_filter
  rw [findsRoom_iff now hnamed honce]
  constructor
  · intro h
    refine ⟨fun name htracked => ?_, fun l hl hether => ?_⟩
    · by_contra hunlisted
      have hstays : (links.foldl (observeLink now) s).find name = s.find name :=
        pass_find_other hnamed fun l hl heq => hunlisted (heq ▸ List.mem_map_of_mem hl)
      obtain ⟨e, hfind⟩ := Option.ne_none_iff_exists'.mp htracked
      obtain ⟨l, hl, heq, -⟩ := (h.tracked name e.ifindex).mp ⟨e, hstays.trans hfind, rfl⟩
      exact hunlisted (heq ▸ List.mem_map_of_mem ((hwired l).mp hl).1)
    · obtain ⟨e, hfind, -⟩ := (h.tracked l.name l.ifindex).mpr ⟨l, (hwired l).mpr ⟨hl, hether⟩, rfl, rfl⟩
      rw [hfind]
      nofun
  · rintro ⟨hlists, hroom⟩
    have hown : ∀ l ∈ links, ∀ e, (links.foldl (observeLink now) s).find l.name = some e →
        l.ether = true ∧ e.ifindex = l.ifindex ∧ e.state.hasCarrier = l.up := by
      intro l hl e hfind
      obtain ⟨room, heq⟩ := pass_find_own hnamed honce hl
      exact observed_some (heq.symm.trans hfind)
    constructor
    · intro name ifindex
      constructor
      · rintro ⟨e, hfind, rfl⟩
        have hlisted : name ∈ links.map DumpLink.name := by
          by_contra hunlisted
          have hstays : (links.foldl (observeLink now) s).find name = s.find name :=
            pass_find_other hnamed fun l hl heq => hunlisted (heq ▸ List.mem_map_of_mem hl)
          exact hunlisted (hlists name (by rw [← hstays, hfind]; nofun))
        obtain ⟨l, hl, rfl⟩ := List.mem_map.mp hlisted
        obtain ⟨hether, hindex, -⟩ := hown l hl e hfind
        exact ⟨l, (hwired l).mpr ⟨hl, hether⟩, rfl, hindex.symm⟩
      · rintro ⟨l, hl, rfl, rfl⟩
        obtain ⟨hl, hether⟩ := (hwired l).mp hl
        obtain ⟨e, hfind⟩ := Option.ne_none_iff_exists'.mp (hroom l hl hether)
        exact ⟨e, hfind, (hown l hl e hfind).2.1⟩
    · intro l hl e hfind
      exact (hown l ((hwired l).mp hl).1 e hfind).2.2
    · obtain ⟨es, hring, hlen, hleaves⟩ := pass_emits (s := s) now hnamed honce
      have hfew : es.length ≤ 2 * ifscanMax := by
        have htracked : links.countP (fun l => (s.find l.name).isSome) ≤ ifscanMax := countP_tracked_le honce
        rw [← List.countP_eq_length_filter] at hfit
        omega
      refine ⟨es, hring, hfew, ?_, ?_⟩
      · intro hroom
        rw [hring, BoundedQueue.pushAll_items, List.take_of_length_le]
        rw [List.length_append]
        omega
      · intro name e hfind hgone
        obtain ⟨l, hl, rfl⟩ := List.mem_map.mp (hlists name (by rw [hfind]; nofun))
        exact hleaves l hl e hfind fun hether heq =>
          hgone ⟨l, (hwired l).mpr ⟨hl, hether⟩, rfl, heq.symm⟩

end Pass

/-! ## What a resync says -/

section Truth

variable {w : WirelessGate} {now : UInt64} {ds : List Datagram} {s s' : IfScan} {sent zero : Bool}

theorem tellsTruth_iff (h : IsDump ds) (hzero : zero = true ↔ Completes s sent ds)
    (hpass : zero = true → s' = (dumpLinks w ds).foldl (observeLink now) s) :
    TellsTruth w ds s s' zero ↔ ResyncSound w s sent ds := by
  unfold TellsTruth ResyncSound
  rw [← hzero]
  refine forall_congr' fun hcompletes => and_congr_right fun _ => forall_congr' fun hfit => ?_
  rw [hpass hcompletes]
  exact converged_iff (fun _ => dumpLinks_named) h.names_nodup hfit

/-- A resync tells the truth just if the dump it completes ends with `NLMSG_DONE`, lists whatever was
tracked, and never has a new wired link wait behind one that is to leave. -/
theorem resync_truth (w : WirelessGate) (ds : List Datagram) (s : IfScan) (sent : Bool) (now : UInt64)
    (h : IsDump ds) :
    ∃ s' zero, (∀ fuel, ifscanBuf < fuel → ifscanResync w fuel s sent ds now = .ok (s', zero)) ∧
      (TellsTruth w ds s s' zero ↔ ResyncSound w s sent ds) := by
  obtain ⟨s', zero, hrun, hzero, hpass⟩ := ifscanResync_dump w now h s sent
  exact ⟨s', zero, hrun, tellsTruth_iff h hzero hpass⟩

/-- `lan0` with the index 5 and a carrier, and the end of a dump. -/
def lan0Message : List UInt8 :=
  [44, 0, 0, 0, 16, 0, 2, 0, 1, 0, 0, 0, 0, 0, 0, 0, 0, 0, 1, 0, 5, 0, 0, 0, 0x43, 0x10, 1, 0, 0, 0, 0, 0,
    9, 0, 3, 0, 0x6c, 0x61, 0x6e, 0x30, 0, 0, 0, 0]

def doneMessage : List UInt8 := [20, 0, 0, 0, 3, 0, 2, 0, 1, 0, 0, 0, 0, 0, 0, 0, 0, 0, 0, 0]

/-- The dump of a host that has no other interface. -/
def lan0Dump : List Datagram := [⟨lan0Message, by decide⟩, ⟨doneMessage, by decide⟩]

/-- A host without a wireless interface. -/
def wiredHost : WirelessGate := ⟨fun _ => false, []⟩

theorem lan0Dump_messages : dumpMessages lan0Dump = [lan0Message, doneMessage] := by decide +kernel

theorem lan0Dump_links : dumpLinks wiredHost lan0Dump = [⟨lan0, 5, true, true⟩] := by decide +kernel

theorem lan0Dump_isDump : IsDump lan0Dump where
  received := by decide +kernel
  padded := by
    unfold Padded LinkPadded AttrsPadded MessagePadded
    decide +kernel
  lists := by decide +kernel
  once := by decide +kernel
  ends before msg after hsplit hmsg := by
    rw [lan0Dump_messages] at hsplit
    match before with
    | [] =>
      rw [← (List.cons.inj hsplit).1] at hmsg
      exact absurd hmsg (by decide)
    | [_] => exact (List.cons.inj (List.cons.inj hsplit).2).2.symm
    | _ :: _ :: _ => simp at hsplit

/-- An open table that tracks one interface. -/
def tracking (name : IfName) (ifindex : ℤ) : IfScan :=
  { ifscanObserve ifscanInit name ifindex true true 0 with isOpen := true }

/-- A table that tracks `lan0` alone is told that it is there. -/
theorem resync_truth_lan0 :
    ∃ s' zero, (∀ fuel, ifscanBuf < fuel →
        ifscanResync wiredHost fuel (tracking lan0 4) true lan0Dump 7 = .ok (s', zero)) ∧
      TellsTruth wiredHost lan0Dump (tracking lan0 4) s' zero := by
  obtain ⟨s', zero, hrun, htruth⟩ := resync_truth wiredHost lan0Dump (tracking lan0 4) true 7 lan0Dump_isDump
  refine ⟨s', zero, hrun, htruth.mpr fun _ => ⟨?_, fun _ => ⟨?_, ?_⟩⟩⟩
  · rw [lan0Dump_messages]
    exact ⟨doneMessage, rfl, by decide⟩
  · intro name htracked
    rw [lan0Dump_links]
    have hfind : (tracking lan0 4).find name = if name = lan0 then _ else ifscanInit.find name :=
      (observe_moves (by decide)).find name
    by_cases hname : name = lan0
    · rw [hname]
      exact List.mem_cons_self
    · rw [hfind, if_neg hname] at htracked
      exact absurd (SlotTable.find_empty name) htracked
  · intro before l after hsplit _ hnew
    rw [lan0Dump_links] at hsplit
    have hl : l ∈ [DumpLink.mk lan0 5 true true] := by
      rw [hsplit]
      exact List.mem_append_right _ List.mem_cons_self
    rw [List.mem_singleton.mp hl] at hnew
    exact absurd hnew (by decide +kernel)

/-- A table that tracks `lan1` is not told that it is gone. -/
theorem resync_keeps_gone : ¬ ∀ (w : WirelessGate) (ds : List Datagram) (s : IfScan) (sent : Bool) (now : UInt64),
    IsDump ds → ∃ s' zero,
      (∀ fuel, ifscanBuf < fuel → ifscanResync w fuel s sent ds now = .ok (s', zero)) ∧
        TellsTruth w ds s s' zero := by
  intro hall
  let lan1 : IfName := [0x6c, 0x61, 0x6e, 0x31]
  obtain ⟨s', zero, hrun, htruth⟩ := hall wiredHost lan0Dump (tracking lan1 6) true 7 lan0Dump_isDump
  obtain ⟨s'', zero', hdump, hzero, hpass⟩ :=
    ifscanResync_dump wiredHost 7 lan0Dump_isDump (tracking lan1 6) true
  have hsame := (hrun (ifscanBuf + 1) (Nat.lt_succ_self _)).symm.trans (hdump _ (Nat.lt_succ_self _))
  obtain ⟨rfl, rfl⟩ := Prod.mk.inj (Except.ok.inj hsame)
  have hcompletes : Completes (tracking lan1 6) true lan0Dump := by
    refine ⟨rfl, rfl, doneMessage, ?_, by decide⟩
    show doneMessage ∈ dumpMessages lan0Dump
    rw [lan0Dump_messages]
    exact List.mem_cons_of_mem _ List.mem_cons_self
  have hfit : (wiredLinks wiredHost lan0Dump).length ≤ ifscanMax := by
    unfold wiredLinks
    rw [lan0Dump_links]
    decide
  have hlisted := (((tellsTruth_iff lan0Dump_isDump hzero hpass).mp htruth hcompletes).2 hfit).1 lan1
    (by decide +kernel)
  rw [lan0Dump_links] at hlisted
  revert hlisted
  decide

end Truth

end Libreac
