import Mathlib.Tactic
import Watt32.Lib.Slots
import Watt32.Timer

/-!
# The ARP cache

`pcarp.c`: the cache table and the functions that change it.

* `ArpCache`: one table with three sections, fixed entries from the bottom, dynamic ones above
  them, pending ones from the top.
* `lanStartLookup`, `arpCheckTimeouts`, `arpCacheAdd`, `arpCacheDel`, `arpHandler`.
* `lanLookup`, `lanLookupPending`: what the cache answers.
-/

namespace Watt32.Arp

open Timer

abbrev Byte := BitVec 8
abbrev Word := BitVec 16
abbrev Dword := BitVec 32
abbrev Mac := BitVec 48

/-! ## Surroundings -/

/-- The configuration, the clock and the interface. `sent` says whether `arp_send_request` for an
address succeeds. -/
structure Env where
  now : Dword := 1
  arpTimeout : Dword := 2
  arpAlive : Dword := 300
  arpRexmitTo : Dword := 250
  sent : Dword → Bool := fun _ => true
  myIpAddr : Dword
  sinMask : Dword
  multihomes : Dword := 0
  ethAddr : Mac
  hwType : Word := 1
  broadcastMode : Bool := true

/-- `is_on_LAN`. -/
def isOnLan (e : Env) (ip : Dword) : Bool := (ip ^^^ e.myIpAddr) &&& e.sinMask = 0

/-- `_ip4_is_loopback_addr`. -/
def ip4IsLoopbackAddr (ip : Dword) : Bool := ip >>> 24 = 127

/-- `_ip4_is_multihome_addr`. -/
def ip4IsMultihomeAddr (e : Env) (ip : Dword) : Bool :=
  if e.myIpAddr = 0 ∨ ip < e.myIpAddr then false else ip - e.myIpAddr ≤ e.multihomes

/-- `_ip4_is_local_addr`. -/
def ip4IsLocalAddr (e : Env) (ip : Dword) : Bool :=
  if e.sinMask = 0xffffffff then false else ip4IsLoopbackAddr ip || ip4IsMultihomeAddr e ip

/-- `_ip4_is_multicast`. -/
def ip4IsMulticast (ip : Dword) : Bool := ip &&& 0xf0000000 = 0xe0000000

/-! ## The table -/

structure ArpFlags where
  inuse : Bool := false
  fixed : Bool := false
  dynamic : Bool := false
  pending : Bool := false
deriving DecidableEq

structure ArpEntry where
  ip : Dword := 0
  hardware : Mac := 0
  expiry : Dword := 0
  retransmitTo : Dword := 0
  flags : ArpFlags := {}
deriving DecidableEq

/-- `ARP_TOP_OF_CACHE`, also `ARP_TOP_PENDING`. -/
def arpTopOfCache : ℤ := 64

/-- `arp_list` with its index variables: `firstDynamic` is also `ARP_TOP_FIXED`, `firstFree`
`ARP_TOP_DYNAMIC` and `firstPending` `ARP_TOP_FREE`. -/
structure ArpCache where
  list : ℤ → ArpEntry
  firstPending : ℤ
  firstFree : ℤ
  firstDynamic : ℤ

namespace ArpCache

/-- The empty cache. -/
def empty : ArpCache :=
  { list := fun _ => {}, firstPending := arpTopOfCache, firstFree := 0, firstDynamic := 0 }

/-- `arp_move_entry`. -/
def moveEntry (c : ArpCache) (toIndex fromIndex : ℤ) : ArpCache :=
  { c with list := Slots.move c.list toIndex fromIndex }

/-- Change the entry `i`. -/
def upd (c : ArpCache) (i : ℤ) (f : ArpEntry → ArpEntry) : ArpCache :=
  { c with list := Function.update c.list i (f (c.list i)) }

/-- The loop that looks for `ip` from `first` to `top`. -/
def search (c : ArpCache) (ip : Dword) (first top : ℤ) : Option ℤ :=
  Slots.find (fun i => (c.list i).ip = ip) (top - first).toNat first

/-- Clear `ARP_FLG_INUSE` of the entry `i`. -/
def release (c : ArpCache) (i : ℤ) : ArpCache :=
  c.upd i fun ae => { ae with flags := { ae.flags with inuse := false } }

end ArpCache

/-! ## Lookups -/

/-- `LAN_lookup`. -/
def lanLookup (c : ArpCache) (ip : Dword) : Option Mac :=
  (c.search ip 0 c.firstFree).map fun i => (c.list i).hardware

/-- `LAN_lookup_pending`. -/
def lanLookupPending (c : ArpCache) (ip : Dword) : Bool :=
  (c.search ip c.firstPending arpTopOfCache).isSome

/-- The end of `LAN_start_lookup`: fill a new pending slot. -/
def addPending (e : Env) (c : ArpCache) (ip : Dword) : ArpCache :=
  { c with firstPending := c.firstPending - 1 }.upd (c.firstPending - 1) fun ae => { ae with
    ip := ip
    expiry := setTimeout e.now (1000 * e.arpTimeout)
    flags := { inuse := true, pending := true }
    retransmitTo := setTimeout e.now (if e.sent ip then e.arpRexmitTo else e.arpRexmitTo / 4) }

/-- `LAN_start_lookup`. -/
def lanStartLookup (e : Env) (c : ArpCache) (ip : Dword) : ArpCache × Bool :=
  if (c.search ip c.firstPending arpTopOfCache).isSome then (c, true)
  else if (c.search ip c.firstDynamic c.firstFree).isSome then (c, true)
  else if (c.search ip 0 c.firstDynamic).isSome then (c, true)
  else if c.firstFree < c.firstPending then (addPending e c ip, true)
  else if c.firstDynamic < c.firstFree then
    -- the top dynamic entry gives way
    (addPending e { c with firstFree := c.firstFree - 1 } ip, true)
  else (c, false)

/-! ## Timeouts -/

/-- `arp_check_timeouts` on the pending entries from `i` on. -/
def checkPending (e : Env) (c : ArpCache) (i : ℤ) : ArpCache :=
  if i < arpTopOfCache then
    if chkTimeout e.now (c.list i).expiry then
      if c.firstPending < i then
        -- fill the hole and look at the entry moved into it
        checkPending e { (c.release i).moveEntry i c.firstPending with
          firstPending := c.firstPending + 1 } i
      else checkPending e { c with firstPending := c.firstPending + 1 } (i + 1)
    else if chkTimeout e.now (c.list i).retransmitTo then
      checkPending e (c.upd i fun ae => { ae with
        retransmitTo := setTimeout e.now
          (if e.sent ae.ip then e.arpRexmitTo else e.arpRexmitTo / 4) }) (i + 1)
    else checkPending e c (i + 1)
  else c
termination_by (arpTopOfCache - i).toNat + (arpTopOfCache - c.firstPending).toNat
decreasing_by
  all_goals (try dsimp only [ArpCache.moveEntry, ArpCache.release, ArpCache.upd]); omega

/-- `arp_check_timeouts` on the dynamic entries from `i` on. -/
def checkDynamic (e : Env) (c : ArpCache) (i : ℤ) : ArpCache :=
  if i < c.firstFree then
    if chkTimeout e.now (c.list i).expiry then
      let c' := { c with firstFree := c.firstFree - 1 }
      if i < c'.firstFree then checkDynamic e ((c'.release i).moveEntry i c'.firstFree) i
      else checkDynamic e c' (i + 1)
    else checkDynamic e c (i + 1)
  else c
termination_by (c.firstFree - i).toNat
decreasing_by
  all_goals (try dsimp only [ArpCache.moveEntry, ArpCache.release, ArpCache.upd]); omega

/-- `arp_check_timeouts`. -/
def arpCheckTimeouts (e : Env) (c : ArpCache) (checkDynamicEntries : Bool) : ArpCache :=
  let c := checkPending e c c.firstPending
  if checkDynamicEntries then checkDynamic e c c.firstDynamic else c

/-! ## Adding and deleting -/

/-- `_arp_cache_del` for the dynamic entry `i`: the top one fills the hole. -/
def delDynamic (c : ArpCache) (i : ℤ) : ArpCache :=
  let c := { c with firstFree := c.firstFree - 1 }
  (if i < c.firstFree then c.moveEntry i c.firstFree else c).release i

/-- `_arp_cache_del` for the fixed entry `i`: the top fixed entry fills the hole, and the top dynamic
one the slot behind the fixed entries. -/
def delFixed (c : ArpCache) (i : ℤ) : ArpCache :=
  let c := { c with firstDynamic := c.firstDynamic - 1 }
  let c := if i < c.firstDynamic then c.moveEntry i c.firstDynamic else c
  let c := { c with firstFree := c.firstFree - 1 }
  (if c.firstDynamic < c.firstFree then c.moveEntry c.firstDynamic c.firstFree else c).release i

/-- Take the pending entry `i` out: the first one fills the hole. -/
def takePending (c : ArpCache) (i : ℤ) : ArpCache :=
  let c' := if c.firstPending < i then c.moveEntry i c.firstPending else c
  { c' with firstPending := c.firstPending + 1 }

/-- `_arp_cache_del`. -/
def arpCacheDel (c : ArpCache) (ip : Dword) : ArpCache × Bool :=
  match c.search ip c.firstDynamic c.firstFree with
  | some i => (delDynamic c i, true)
  | none =>
    match c.search ip 0 c.firstDynamic with
    | some i => (delFixed c i, true)
    | none =>
      match c.search ip c.firstPending arpTopOfCache with
      | some i => ((takePending c i).release i, true)
      | none => (c, false)

/-- `_arp_cache_add` of a dynamic entry. -/
def addDynamic (e : Env) (c : ArpCache) (ip : Dword) (eth : Mac) : ArpCache :=
  { c with firstFree := c.firstFree + 1 }.upd c.firstFree fun ae => { ae with
    ip := ip
    hardware := eth
    expiry := setTimeout e.now (1000 * e.arpAlive)
    flags := { inuse := true, dynamic := true } }

/-- `_arp_cache_add` of a fixed entry: the first dynamic entry moves to the top. -/
def addFixed (c : ArpCache) (ip : Dword) (eth : Mac) : ArpCache :=
  let c := if c.firstDynamic < c.firstFree then c.moveEntry c.firstFree c.firstDynamic else c
  { c with firstFree := c.firstFree + 1, firstDynamic := c.firstDynamic + 1 }.upd c.firstDynamic
    fun ae => { ae with ip := ip, flags := { inuse := true, fixed := true }, hardware := eth }

/-- `_arp_cache_add`. -/
def arpCacheAdd (e : Env) (c : ArpCache) (ip : Dword) (eth : Mac) (expires : Bool) :
    ArpCache × Bool :=
  if ¬ (e.myIpAddr = 0 ∧ expires = false) ∧ isOnLan e ip = false then (c, false)
  else
    let c := (arpCacheDel c ip).1
    if expires then
      if c.firstPending ≤ c.firstFree then (c, false) else (addDynamic e c ip eth, true)
    else if c.firstPending ≤ c.firstFree then
      if c.firstFree ≤ c.firstDynamic then (c, false)
      else (addFixed { c with firstFree := c.firstFree - 1 } ip eth, true)
    else (addFixed c ip eth, true)

/-! ## Packets -/

/-- `IP4_TYPE`. -/
def ip4Type : Word := 0x0800

/-- `ARP_REQUEST`. -/
def arpRequest : Word := 1

/-- `ARP_REPLY`. -/
def arpReply : Word := 2

/-- `_eth_brdcast`. -/
def ethBrdcast : Mac := 0xffffffffffff

/-- `arp_Header` in host order, with the destination address of its frame. -/
structure ArpPacket where
  macDst : Mac
  hwType : Word := 1
  protType : Word := ip4Type
  hwAddrLen : Byte := 6
  protoAddrLen : Byte := 4
  opcode : Word
  srcEthAddr : Mac
  srcIpAddr : Dword
  dstEthAddr : Mac
  dstIpAddr : Dword

/-- The tests at the head of `_arp_handler`. -/
def headerOk (e : Env) (ah : ArpPacket) : Bool :=
  ah.hwType = e.hwType ∧ ah.protType = ip4Type ∧ ah.hwAddrLen = 6 ∧ ah.protoAddrLen = 4

/-- `do_reply` of `_arp_handler`. -/
def doReply (e : Env) (ah : ArpPacket) : Bool :=
  let toUs := e.ethAddr = ah.macDst ∨ e.ethAddr = ah.dstEthAddr
  ah.opcode = arpRequest ∧
    (ip4IsLocalAddr e ah.dstIpAddr ∧ ip4IsMulticast ah.dstIpAddr = false ∧
      ip4IsLoopbackAddr ah.dstIpAddr = false) ∧
    -- anti-sniffers are answered on broadcasts only
    ¬ (¬ toUs ∧ e.broadcastMode = false ∧ ah.macDst ≠ ethBrdcast)

/-- `_arp_handler` on a reply to the pending entry `i`. -/
def resolvePending (e : Env) (c : ArpCache) (ah : ArpPacket) (i : ℤ) : ArpCache :=
  let c := (takePending c i).upd i fun ae =>
    { ae with flags := { ae.flags with inuse := false, pending := false } }
  (arpCacheAdd e c ah.srcIpAddr ah.srcEthAddr true).1

/-- `_arp_handler` on a packet from the dynamic entry `i`: another address lets it expire soon. -/
def refreshDynamic (e : Env) (c : ArpCache) (ah : ArpPacket) (i : ℤ) : ArpCache :=
  c.upd i fun ae => { ae with
    expiry := setTimeout e.now (if ae.hardware = ah.srcEthAddr then 1000 * e.arpAlive else 500) }

/-- `_arp_handler`. -/
def arpHandler (e : Env) (c : ArpCache) (ah : ArpPacket) : ArpCache × Bool :=
  if headerOk e ah = false then (c, false)
  else
    match if ah.opcode = arpReply then
        c.search ah.srcIpAddr c.firstPending arpTopOfCache else none with
    | some i => (resolvePending e c ah i, true)
    | none =>
      if ah.opcode ≠ arpRequest ∧ ah.opcode ≠ arpReply then (c, false)
      else
        match c.search ah.srcIpAddr c.firstDynamic c.firstFree with
        | some i => (refreshDynamic e c ah i, true)
        | none =>
          if doReply e ah then ((arpCacheAdd e c ah.srcIpAddr ah.srcEthAddr true).1, true)
          else (c, false)

/-! ## Runs -/

/-- What happens to the cache. -/
inductive ArpOp
  | startLookup (ip : Dword)
  | add (ip : Dword) (eth : Mac) (expires : Bool)
  | del (ip : Dword)
  | packet (ah : ArpPacket)
  | timeouts (checkDynamicEntries : Bool)

/-- An operation and its surroundings. -/
structure ArpEvent where
  e : Env
  op : ArpOp

/-- One step of the cache. -/
def stepArp (c : ArpCache) (ev : ArpEvent) : ArpCache :=
  match ev.op with
  | .startLookup ip => (lanStartLookup ev.e c ip).1
  | .add ip eth expires => (arpCacheAdd ev.e c ip eth expires).1
  | .del ip => (arpCacheDel c ip).1
  | .packet ah => (arpHandler ev.e c ah).1
  | .timeouts checkDynamicEntries => arpCheckTimeouts ev.e c checkDynamicEntries

end Watt32.Arp
