import Libreac.Netlink

/-!
# Reading back the qdiscs of a device

The dump of `reac_etf_qdisc.c` and the two questions put to it: which qdisc is on the device, and what its
etf qdiscs did. What the kernel does is given by what the calls on the socket bring. Every byte of a reply
goes through `peek`, as in the walks over a link: all of a message but its length must lie in the message.
-/

namespace Libreac

open Records (Fault u16At u32At bytesAt scan u32)

/-! ## The dump -/

/-- `RTM_NEWQDISC`, `TC_H_ROOT`, and the attributes of a qdisc. -/
def rtmNewqdisc : UInt16 := 36
def tcHRoot : UInt32 := 0xffffffff
def tcaKind : UInt16 := 1
def tcaStats : UInt16 := 3
def tcaStats2 : UInt16 := 7
def tcaStatsBasic : UInt16 := 1
def tcaStatsQueue : UInt16 := 3

/-- `EIO`, `EINVAL` and `ETIMEDOUT`. -/
def eio : ℤ := 5
def einval : ℤ := 22
def etimedout : ℤ := 110

/-- A read of the socket that the poll finds ready: `recv` brings bytes, none at the end of the stream, or
fails. -/
inductive DumpRead where
  | received (bytes : List UInt8)
  | failed (errno : ℕ+)

/-- What the kernel answers: the error of `socket` or `send`, or else what the reads bring, behind which
the poll times out. -/
structure DumpIo where
  refused : Option ℕ+ := none
  reads : List DumpRead := []

/-- The locals of `qdisc_dump` and what its callback works on. -/
structure DumpState (σ : Type) where
  ctx : σ
  rc : ℤ := -etimedout
  done : Bool := false
  readable : Bool := false

section Dump

variable {σ : Type}

/-- `qdisc_each_fn`: the buffer and the end of the message, what it works on, where the `struct tcmsg` and
its attributes stand, and how long these are. -/
abbrev QdiscEachFn (σ : Type) := List UInt8 → UInt64 → σ → UInt64 → UInt64 → ℤ → Except Fault σ

/-- The body of the loop over the messages of a reply. Behind the 16 bytes of a header both `struct nlmsgerr`
and `struct tcmsg` take 20. -/
def dumpMessage (ifindex : Int32) (each : QdiscEachFn σ) (bytes : List UInt8) (s : DumpState σ)
    (off len : UInt64) : Except Fault (DumpState σ × Bool) := do
  let stop := off + len
  let type ← u16At bytes stop (off + 4)
  if type = nlmsgDone then return ({ s with rc := 0, done := true }, false)
  else if type = nlmsgError then
    if 36 ≤ len then
      let error ← u32At bytes stop (off + 16)
      return ({ s with rc := if error ≠ 0 then error.toInt32.toInt else -eio, done := true }, false)
    else return ({ s with rc := -eio, done := true }, false)
  else if type = rtmNewqdisc ∧ 36 ≤ len then
    let index ← u32At bytes stop (off + 20)
    if index.toInt32 = ifindex then
      let ctx ← each bytes stop s.ctx (off + 16) (off + 36) (len.toNat - 36 : ℕ)
      return ({ s with ctx }, true)
    else return (s, true)
  else return (s, true)

/-- That loop. -/
def dumpReply (ifindex : Int32) (each : QdiscEachFn σ) (s : DumpState σ) (bytes : List UInt8) :
    Except Fault (DumpState σ) :=
  scan nlmsgHdr (nlmsgLenAt bytes (UInt64.ofNat bytes.length)) nlmsgAlign (dumpMessage ifindex each bytes)
    (bytes.length + 1) s 0 bytes.length

/-- `sizeof buf`. -/
def dumpBuf : ℕ := 16384

/-- The loop over the reads, so many at most. -/
def dumpReads (ifindex : Int32) (each : QdiscEachFn σ) :
    ℕ → DumpState σ → List DumpRead → Except Fault (DumpState σ)
  | 0, s, _ => return s
  | _ + 1, s, [] => return s
  | _ + 1, s, .failed errno :: _ => return { s with rc := -(errno : ℕ) }
  | n + 1, s, .received bytes :: reads =>
    if bytes = [] then return { s with rc := -eio }
    else do
      let s ← dumpReply ifindex each { s with readable := true } (bytes.take dumpBuf)
      if s.done then return s else dumpReads ifindex each n s reads

/-- `qdisc_dump`. -/
def qdiscDump (ifindex : Int32) (each : QdiscEachFn σ) (ctx : σ) (io : DumpIo) : Except Fault (DumpState σ) :=
  match io.refused with
  | some errno => return { ctx, rc := -(errno : ℕ) }
  | none => dumpReads ifindex each 64 { ctx } io.reads

end Dump

/-! ## The attributes of a qdisc -/

section Attrs

variable {σ : Type}

/-- A loop over attributes with `RTA_OK` and `RTA_NEXT`, which count down an `int`. -/
def attrScan (bytes : List UInt8) (stop : UInt64) (body : σ → UInt64 → UInt64 → Except Fault (σ × Bool)) (s : σ)
    (rta : UInt64) (rlen : ℤ) : Except Fault σ :=
  scan rtattrHdr (rtaLenAt bytes stop) nlmsgAlign body (rlen.toNat + 1) s rta rlen

end Attrs

/-- An attribute in the loop of `qdisc_kind`: the first kind there is ends it, with a NUL in it or not. -/
def kindAttr (bytes : List UInt8) (stop : UInt64) (kind : Option (List UInt8)) (a rtaLen : UInt64) :
    Except Fault (Option (List UInt8) × Bool) := do
  let type ← u16At bytes stop (a + 2)
  if type ≠ tcaKind then return (kind, true)
  else
    let k ← bytesAt bytes stop (a + 4) (rtaLen - rtattrHdr).toNat
    return (if 0 ∈ k then some (k.takeWhile (· ≠ 0)) else none, false)

/-- `qdisc_kind`. -/
def qdiscKind (bytes : List UInt8) (stop rta : UInt64) (rlen : ℤ) : Except Fault (Option (List UInt8)) :=
  attrScan bytes stop (kindAttr bytes stop) none rta rlen

/-- `"etf"`. -/
def etfKind : List UInt8 := [0x65, 0x74, 0x66]

/-! ## What is on the device -/

/-- `enum reac_etf_qdisc_state`. -/
inductive EtfQdiscState where
  | unreadable | absent | present
  deriving DecidableEq

/-- `struct state_walk`; the buffer and its capacity stay the same. -/
structure StateWalk where
  foundEtf : Bool := false
  kind : List UInt8 := []
  deriving DecidableEq

/-- `state_each` for a buffer of `cap` bytes, 0 where there is none. -/
def stateEach (cap : ℕ) : QdiscEachFn StateWalk := fun bytes stop w tcm rta rlen => do
  match ← qdiscKind bytes stop rta rlen with
  | none => return w
  | some k =>
    let w := if k = etfKind then { w with foundEtf := true } else w
    if cap ≠ 0 ∧ w.kind = [] then
      let parent ← u32At bytes stop (tcm + 12)
      return if parent = tcHRoot then { w with kind := k.take (cap - 1) } else w
    else return w

/-- `reac_etf_qdisc_state`, and what it leaves in the buffer. -/
def etfQdiscState (ifindex : Int32) (cap : ℕ) (io : DumpIo) : Except Fault (EtfQdiscState × List UInt8) :=
  if ifindex ≤ 0 then return (.unreadable, [])
  else do
    let s ← qdiscDump ifindex (stateEach cap) {} io
    if !s.readable then return (.unreadable, s.ctx.kind)
    else if s.ctx.foundEtf then return (.present, s.ctx.kind)
    else return (.absent, s.ctx.kind)

/-! ## What the etf qdiscs did -/

/-- `struct reac_etf_qdisc_stats`. -/
structure EtfQdiscStats where
  packets : UInt64 := 0
  bytes : UInt64 := 0
  drops : UInt64 := 0
  overlimits : UInt64 := 0
  qdiscs : UInt32 := 0
  deriving DecidableEq

/-- Eight bytes, the low one first. -/
def u64 (l : List UInt8) (i : ℕ) : UInt64 := (u32 l (i + 4)).toUInt64 <<< 32 ||| (u32 l i).toUInt64

/-- `struct gnet_stats_basic` is added. -/
def EtfQdiscStats.addBasic (o : EtfQdiscStats) (b : List UInt8) : EtfQdiscStats :=
  { o with bytes := o.bytes + u64 b 0, packets := o.packets + (u32 b 8).toUInt64 }

/-- `struct gnet_stats_queue` is added. -/
def EtfQdiscStats.addQueue (o : EtfQdiscStats) (q : List UInt8) : EtfQdiscStats :=
  { o with drops := o.drops + (u32 q 8).toUInt64, overlimits := o.overlimits + (u32 q 16).toUInt64 }

/-- `struct tc_stats` is added. -/
def EtfQdiscStats.addTcStats (o : EtfQdiscStats) (s : List UInt8) : EtfQdiscStats :=
  { o with
    bytes := o.bytes + u64 s 0, packets := o.packets + (u32 s 8).toUInt64
    drops := o.drops + (u32 s 12).toUInt64, overlimits := o.overlimits + (u32 s 16).toUInt64 }

/-- An attribute in the loop of `stats_take2`. -/
def take2Attr (bytes : List UInt8) (stop : UInt64) (o : EtfQdiscStats) (a rtaLen : UInt64) :
    Except Fault (EtfQdiscStats × Bool) := do
  let type ← u16At bytes stop (a + 2)
  if type = tcaStatsBasic ∧ 16 ≤ rtaLen - rtattrHdr then
    return (o.addBasic (← bytesAt bytes stop (a + 4) 16), true)
  else if type = tcaStatsQueue ∧ 20 ≤ rtaLen - rtattrHdr then
    return (o.addQueue (← bytesAt bytes stop (a + 4) 20), true)
  else return (o, true)

/-- `stats_take2`: the attribute stands at `a`, and what is nested in it is to lie in it. -/
def statsTake2 (bytes : List UInt8) (stop : UInt64) (o : EtfQdiscStats) (a : UInt64) :
    Except Fault EtfQdiscStats := do
  let rtaLen ← rtaLenAt bytes stop a
  attrScan bytes (a + rtaLen) (take2Attr bytes (a + rtaLen)) o (a + 4) (rtaLen - rtattrHdr).toNat

/-- `stats_take1`. -/
def statsTake1 (bytes : List UInt8) (stop : UInt64) (o : EtfQdiscStats) (a : UInt64) :
    Except Fault EtfQdiscStats := do
  let rtaLen ← rtaLenAt bytes stop a
  if rtaLen - rtattrHdr < 40 then return o
  else return o.addTcStats (← bytesAt bytes stop (a + 4) 40)

/-- An attribute in the loop of `stats_each`: where the last of the two kinds of statistics stand. -/
def statsAttr (bytes : List UInt8) (stop : UInt64) (st : Option UInt64 × Option UInt64) (a _rtaLen : UInt64) :
    Except Fault ((Option UInt64 × Option UInt64) × Bool) := do
  let type ← u16At bytes stop (a + 2)
  if type = tcaStats2 then return ((some a, st.2), true)
  else if type = tcaStats then return ((st.1, some a), true)
  else return (st, true)

/-- `stats_each`. -/
def statsEach : QdiscEachFn EtfQdiscStats := fun bytes stop o _tcm rta rlen => do
  let k ← qdiscKind bytes stop rta rlen
  if k ≠ some etfKind then return o
  else
    let o := { o with qdiscs := o.qdiscs + 1 }
    match ← attrScan bytes stop (statsAttr bytes stop) (none, none) rta rlen with
    | (some st2, _) => statsTake2 bytes stop o st2
    | (none, some st1) => statsTake1 bytes stop o st1
    | (none, none) => return o

/-- `reac_etf_qdisc_stats_read`, and what it leaves in `out`. -/
def etfQdiscStatsRead (ifindex : Int32) (out : Option EtfQdiscStats) (io : DumpIo) :
    Except Fault (ℤ × Option EtfQdiscStats) :=
  match out with
  | none => return (-einval, none)
  | some o =>
    if ifindex ≤ 0 then return (-einval, some o)
    else do
      let s ← qdiscDump ifindex statsEach {} io
      if s.rc ≠ 0 then return (s.rc, some o) else return (0, some s.ctx)

end Libreac
