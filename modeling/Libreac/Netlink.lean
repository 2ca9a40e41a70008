import Libreac.IfScan
import Libreac.Records

/-!
# What the kernel says of a link

The walks over rtnetlink datagrams: `reac_linkmon.c`, `reac_ifscan.c` and the query of `reac_vlan.c`. A
datagram holds messages and a message about a link holds attributes, each with its length in front. The
fields are read as a little-endian machine reads them. Every byte goes through `peek`: the length field
of a message must lie in the datagram, all else in its message.
-/

namespace Libreac

open Records (Fault peek u16At u32At bytesAt walk)

/-- A buffer and its length; no object is larger than `PTRDIFF_MAX`. -/
structure Datagram where
  bytes : List UInt8
  fits : bytes.length ≤ 9223372036854775807

/-- The length, as a `size_t`. -/
def Datagram.len (d : Datagram) : UInt64 := UInt64.ofNat d.bytes.length

/-! ## The format -/

/-- `NLMSG_ERROR`, `NLMSG_DONE`, `RTM_NEWLINK` and `RTM_DELLINK`. -/
def nlmsgError : UInt16 := 2
def nlmsgDone : UInt16 := 3
def rtmNewlink : UInt16 := 16
def rtmDellink : UInt16 := 17

/-- `IFLA_IFNAME` and `IFLA_IFALIAS`. -/
def iflaIfname : UInt16 := 3
def iflaIfalias : UInt16 := 20

/-- `IFF_LOOPBACK`, `IFF_LOWER_UP` and `ARPHRD_ETHER`. -/
def iffLoopback : UInt32 := 0x8
def iffLowerUp : UInt32 := 0x10000
def arphrdEther : UInt16 := 1

/-- `sizeof(struct nlmsghdr)` and `sizeof(struct rtattr)`; behind the first there are as many bytes of
`struct ifinfomsg`. -/
def nlmsgHdr : UInt64 := 16
def rtattrHdr : UInt64 := 4

/-- `NLMSG_ALIGN` and `RTA_ALIGN`: the mask is a 32-bit one, whatever it is applied to. -/
def nlmsgAlign (len : UInt64) : UInt64 := (len + 3) &&& 0xfffffffc

/-- `nlmsg_len` of the message at `off`, and `rta_len` of the attribute. -/
def nlmsgLenAt (bytes : List UInt8) (stop off : UInt64) : Except Fault UInt64 := do
  return (← u32At bytes stop off).toUInt64

def rtaLenAt (bytes : List UInt8) (stop off : UInt64) : Except Fault UInt64 := do
  return (← u16At bytes stop off).toUInt64

/-! ## A link -/

/-- An attribute in the loop of `msg_link`: the name, in front of the NUL that is put over its end. -/
def ifnameAttr (bytes : List UInt8) (stop : UInt64) (name : IfName) (a rtaLen : UInt64) :
    Except Fault (IfName × Bool) := do
  let type ← u16At bytes stop (a + 2)
  let vlen := (rtaLen - rtattrHdr).toNat
  if type = iflaIfname ∧ 0 < vlen ∧ vlen ≤ 16 then
    let v ← bytesAt bytes stop (a + 4) vlen
    return ((v.take (vlen - 1)).takeWhile (· ≠ 0), true)
  else return (name, true)

/-- The attribute loop of `msg_link`, the same in both files. An attribute takes at least four bytes, so a
message has fewer of them than bytes. -/
def ifnameLoop (bytes : List UInt8) (off len : UInt64) : Except Fault IfName :=
  walk (off + len) rtattrHdr (rtaLenAt bytes (off + len)) nlmsgAlign (ifnameAttr bytes (off + len))
    (len.toNat + 1) [] (off + 32)

/-- `struct reac_linkmon`, as far as a message changes it. -/
structure Linkmon where
  ifname : IfName
  carrier : ℤ := -1
  msgs : ℕ := 0
  deriving DecidableEq

/-- `reac_linkmon_observe`. -/
def linkmonObserve (m : Linkmon) (ifname : IfName) (carrier : ℤ) : Linkmon :=
  if m.ifname = [] ∨ ifname ≠ m.ifname then m
  else
    { m with
      msgs := m.msgs + 1
      carrier := if carrier < 0 then m.carrier else if carrier ≠ 0 then 1 else 0 }

/-- `msg_link` of `reac_linkmon.c`; `none` is its −2. -/
def linkmonMsgLink (bytes : List UInt8) (off len : UInt64) : Except Fault (Option (IfName × ℤ)) := do
  let stop := off + len
  let type ← u16At bytes stop (off + 4)
  if type ≠ rtmNewlink ∧ type ≠ rtmDellink then return none
  else if len < 32 then return none
  else
    let name ← ifnameLoop bytes off len
    if name = [] then return none
    else if type = rtmDellink then return some (name, -1)
    else
      let flags ← u32At bytes stop (off + 24)
      return some (name, if flags &&& iffLowerUp ≠ 0 then 1 else 0)

/-- The body of `feed_ex` of `reac_linkmon.c`: a terminator does not end the loop. -/
def linkmonMessage (bytes : List UInt8) (s : Linkmon × Bool) (off len : UInt64) :
    Except Fault ((Linkmon × Bool) × Bool) := do
  let type ← u16At bytes (off + len) (off + 4)
  if type = nlmsgDone ∨ type = nlmsgError then return ((s.1, true), true)
  else
    match ← linkmonMsgLink bytes off len with
    | none => return (s, true)
    | some (name, carrier) => return ((linkmonObserve s.1 name carrier, s.2), true)

/-- `feed_ex` of `reac_linkmon.c`, in so many steps at most. -/
def linkmonFeedEx (fuel : ℕ) (m : Linkmon) (d : Datagram) : Except Fault (Linkmon × Bool) :=
  walk d.len nlmsgHdr (nlmsgLenAt d.bytes d.len) nlmsgAlign (linkmonMessage d.bytes) fuel (m, false) 0

/-- `reac_linkmon_feed`. -/
def linkmonFeed (fuel : ℕ) (m : Linkmon) (d : Datagram) : Except Fault Linkmon := do
  return (← linkmonFeedEx fuel m d).1

/-! ## The interfaces -/

/-- The host's word on which interfaces are wireless, and `allow_wireless`. -/
structure WirelessGate where
  isWireless : IfName → Bool
  allow : List UInt8 := []

/-- `reac_ifscan_wireless_allowed`: a comma between the names, or a star alone. -/
def ifscanWirelessAllowed (allow : List UInt8) (ifname : IfName) : Bool :=
  allow ≠ [] ∧ ifname ≠ [] ∧ (allow = [0x2a] ∨ ifname ∈ allow.splitOn 0x2c)

/-- Whether `msg_link` takes the interface for an Ethernet one. -/
def WirelessGate.ether (w : WirelessGate) (name : IfName) (type : UInt16) (flags : UInt32) : Bool :=
  type = arphrdEther ∧ flags &&& iffLoopback = 0 ∧
    (w.isWireless name = false ∨ ifscanWirelessAllowed w.allow name = true)

/-- `msg_link` of `reac_ifscan.c`. -/
def ifscanMsgLink (w : WirelessGate) (now : UInt64) (bytes : List UInt8) (s : IfScan) (off len : UInt64) :
    Except Fault IfScan := do
  let stop := off + len
  let type ← u16At bytes stop (off + 4)
  if type ≠ rtmNewlink ∧ type ≠ rtmDellink then return s
  else if len < 32 then return s
  else
    let name ← ifnameLoop bytes off len
    if name = [] then return s
    else
      let index ← u32At bytes stop (off + 20)
      if type = rtmDellink then
        return ifscanGone { s with msgs := s.msgs + 1 } name index.toInt32.toInt
      else
        let ifiType ← u16At bytes stop (off + 18)
        let flags ← u32At bytes stop (off + 24)
        return ifscanObserve { s with msgs := s.msgs + 1 } name index.toInt32.toInt
          (w.ether name ifiType flags) (flags &&& iffLowerUp ≠ 0) now

/-- The body of `feed_ex` of `reac_ifscan.c`: a terminator ends the loop. -/
def ifscanMessage (w : WirelessGate) (now : UInt64) (bytes : List UInt8) (s : IfScan × Bool)
    (off len : UInt64) : Except Fault ((IfScan × Bool) × Bool) := do
  let type ← u16At bytes (off + len) (off + 4)
  if type = nlmsgDone ∨ type = nlmsgError then return ((s.1, true), false)
  else return ((← ifscanMsgLink w now bytes s.1 off len, s.2), true)

/-- `feed_ex` of `reac_ifscan.c`. -/
def ifscanFeedEx (w : WirelessGate) (fuel : ℕ) (s : IfScan) (d : Datagram) (now : UInt64) :
    Except Fault (IfScan × Bool) :=
  walk d.len nlmsgHdr (nlmsgLenAt d.bytes d.len) nlmsgAlign (ifscanMessage w now d.bytes) fuel (s, false) 0

/-- `reac_ifscan_feed`. -/
def ifscanFeed (w : WirelessGate) (fuel : ℕ) (s : IfScan) (d : Datagram) (now : UInt64) :
    Except Fault IfScan := do
  return (← ifscanFeedEx w fuel s d now).1

/-- `IFSCAN_BUF`. -/
def ifscanBuf : ℕ := 32768

/-- What `recv` puts of a datagram into the buffer. -/
def Datagram.received (d : Datagram) : Datagram where
  bytes := d.bytes.take ifscanBuf
  fits := (List.length_take_le _ _).trans (by decide)

/-- The loop of `reac_ifscan_resync` over the datagrams that come before `poll` runs out. -/
def resyncLoop (w : WirelessGate) (fuel : ℕ) (now : UInt64) :
    ℕ → IfScan × Bool → List Datagram → Except Fault (IfScan × Bool)
  | 0, s, _ | _, s, [] => .ok s
  | n + 1, s, d :: ds =>
    if s.2 = true ∨ d.bytes = [] then .ok s
    else do resyncLoop w fuel now n (← ifscanFeedEx w fuel s.1 d.received now) ds

/-- `reac_ifscan_resync`, and whether it returns 0; `sent` is whether the request was. -/
def ifscanResync (w : WirelessGate) (fuel : ℕ) (s : IfScan) (sent : Bool) (ds : List Datagram)
    (now : UInt64) : Except Fault (IfScan × Bool) :=
  if s.isOpen = false ∨ sent = false then .ok (s, false) else resyncLoop w fuel now 64 (s, false) ds

/-! ## The query for a VLAN -/

/-- `REAC_VLAN_ALIAS`. -/
def vlanAlias : List UInt8 :=
  [0x72, 0x65, 0x61, 0x63, 0x2d, 0x70, 0x77, 0x3a, 0x6d, 0x69, 0x6e, 0x74, 0x65, 0x64]

/-- `strcmp` of the string at `a` with one in front of its NUL. -/
def sameString (bytes : List UInt8) (stop : UInt64) : UInt64 → List UInt8 → Except Fault Bool
  | a, [] => do return (← peek bytes stop a) = 0
  | a, c :: rest => do
    let b ← peek bytes stop a
    if b = c then sameString bytes stop (a + 1) rest else return false

/-- An attribute in the loop of `reac_vlan_query`. -/
def aliasAttr (bytes : List UInt8) (stop : UInt64) (ours : Bool) (a rtaLen : UInt64) :
    Except Fault (Bool × Bool) := do
  let type ← u16At bytes stop (a + 2)
  let l := rtaLen - rtattrHdr
  if type ≠ iflaIfalias ∨ l = 0 then return (ours, true)
  else if (← peek bytes stop (a + 4 + (l - 1))) ≠ 0 then return (ours, true)
  else return (ours || (← sameString bytes stop (a + 4) vlanAlias), true)

/-- That loop. The length it starts with is `nlmsg_len - NLMSG_LENGTH(sizeof *ifi)`. -/
def aliasLoop (bytes : List UInt8) (off len : UInt64) : Except Fault Bool :=
  walk (off + len) rtattrHdr (rtaLenAt bytes (off + len)) nlmsgAlign (aliasAttr bytes (off + len))
    (len.toNat + 1) false (off + 32)

/-- What the query has learned: the netdev is there, ours or not, or is not, or the kernel refused. -/
inductive VlanAnswer where
  | pending
  | present (ours : Bool)
  | absent
  | refused (error : UInt32)
  deriving DecidableEq

/-- `ENODEV`. -/
def enodev : UInt32 := 19

/-- The body of the loop over a reply in `reac_vlan_query`. -/
def vlanMessage (seq : UInt32) (bytes : List UInt8) (s : VlanAnswer) (off len : UInt64) :
    Except Fault (VlanAnswer × Bool) := do
  let stop := off + len
  if (← u32At bytes stop (off + 8)) ≠ seq then return (s, true)
  else
    let type ← u16At bytes stop (off + 4)
    if type = nlmsgError then
      let error ← u32At bytes stop (off + 16)
      return (if 0 - error = enodev then .absent else .refused (0 - error), false)
    else if type ≠ rtmNewlink then return (s, true)
    else return (.present (← aliasLoop bytes off len), false)

/-- The loop over a reply in `reac_vlan_query`: `NLMSG_OK` and `NLMSG_NEXT` count down what remains. -/
def vlanReply (seq : UInt32) (fuel : ℕ) (d : Datagram) : Except Fault VlanAnswer :=
  walk d.len nlmsgHdr (nlmsgLenAt d.bytes d.len) nlmsgAlign (vlanMessage seq d.bytes) fuel .pending 0

end Libreac
