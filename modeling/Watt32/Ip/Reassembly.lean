import Watt32.Lib.Mem
import Watt32.Tcp.Family
import Watt32.Timer

/-!
# Reassembly of fragments

`ip4_frag.c`: two buckets with a buffer each. The list of the holes of a datagram lies in the free
part of its buffer: a record of 12 bytes, a pointer to the next one and the first and last byte that
are missing.

* `Config`, `State`: what a build fixes, and `frag_buckets` with `frag_control`.
* `matchFrag`, `setupFirstFrag`, `visit`, `walk`, `ip4Defragment`: a fragment.
* `ip4FreeFragment`, `chkTimeoutFrags`: the end of a datagram.
* `step`: a packet through `_ip4_handler`, or a turn of the daemon.

A buffer is a memory; its addresses count from its header, `hip` is where it lies. What C leaves
undefined has no outcome.
-/

namespace Watt32.Frag

open Timer

abbrev Byte := BitVec 8
abbrev Word := BitVec 16
abbrev Dword := BitVec 32

/-- `frag_buckets[]`: there are `MAX_IP_FRAGS` of them. -/
abbrev Bucket := Fin 2

/-- `ETH_MAX_DATA - sizeof (in_Header)`. -/
def maxIp4Data : ℕ := 1480

/-- `sizeof (in_Header)`. -/
def sizeofHeader : ℕ := 20

/-- `sizeof (struct hole)`. -/
def sizeofHole : ℕ := 12

/-- `MAX_FRAGMENTS`, `_mtu`, `_ip4_frag_reasm`, where the buffers lie in 32 bits of address space, and
a bound on the turns of a loop over holes. -/
structure Config where
  maxFragments : ℕ
  mtu : ℕ
  reasm : ℤ
  hip : Bucket → ℕ
  fuel : ℕ
  pos : 0 < maxFragments
  size_lt : maxFragments * maxIp4Data < 2 ^ 31
  hip_pos : ∀ b, 0 < hip b
  hip_le : ∀ b, hip b + (sizeofHeader + maxFragments * maxIp4Data + 4) < 2 ^ 32

/-- `MAX_FRAG_SIZE`. -/
def Config.maxFragSize (cfg : Config) : ℕ := cfg.maxFragments * maxIp4Data

/-- The end of the buffer: the marker follows the data. -/
def Config.sizeofHuge (cfg : Config) : ℕ := sizeofHeader + cfg.maxFragSize + 4

/-! ## Bytes -/

/-- `intel16 (*(WORD*) p)` and `intel (*(DWORD*) p)`. -/
def be16 (m : ℕ → Byte) (p : ℕ) : Word := m p ++ m (p + 1)

def be32 (m : ℕ → Byte) (p : ℕ) : Dword := be16 m p ++ be16 m (p + 2)

/-- `*(DWORD*) p`. -/
def le32 (m : ℕ → Byte) (p : ℕ) : Dword := m (p + 3) ++ m (p + 2) ++ m (p + 1) ++ m p

/-- The bytes of a double word as it lies in memory. -/
def bytes32 (d : Dword) : List Byte :=
  [d.extractLsb' 0 8, d.extractLsb' 8 8, d.extractLsb' 16 8, d.extractLsb' 24 8]

/-- The bytes of a word in network order. -/
def bytes16 (w : Word) : List Byte := [w.extractLsb' 8 8, w.extractLsb' 0 8]

/-- `*(DWORD*) p = d`. -/
def put32 (m : ℕ → Byte) (p : ℕ) (d : Dword) : ℕ → Byte := Mem.put m p (bytes32 d)

/-! ## A packet -/

abbrev Packet := ℕ → Byte

def ver (ip : Packet) : Byte := ip 0 >>> 4

/-- `in_GetHdrLen (ip)`. -/
def hdrLen (ip : Packet) : ℕ := (ip 0 &&& 0x0f).toNat * 4

/-- `intel16 (ip->length)`. -/
def length (ip : Packet) : ℕ := (be16 ip 2).toNat

def ttl (ip : Packet) : ℕ := (ip 8).toNat

/-- `struct frag_key`. -/
structure FragKey where
  source : Dword
  destin : Dword
  ident : Word
  proto : Byte
deriving DecidableEq

/-- The key of a packet. -/
def fragKey (ip : Packet) : FragKey := ⟨be32 ip 12, be32 ip 16, be16 ip 4, ip 9⟩

/-- `_chk_ip4_header (ip)`. -/
def chkIp4Header (ip : Packet) : Bool :=
  ver ip = 4 ∧ sizeofHeader ≤ hdrLen ip ∧ Tcp.inChecksum (Mem.slice ip 0 (hdrLen ip)) = 0xffff

/-- `frag_ofs` and `IP_MF` of `_ip4_handler`. -/
def fragOfs (ip : Packet) : ℕ := (be16 ip 6 &&& 0x1fff).toNat * 8

def moreFrags (ip : Packet) : Bool := be16 ip 6 &&& 0x2000 ≠ 0

/-- `data_length`; `data_start` is the offset. -/
def dataLength (ip : Packet) : ℤ := length ip - hdrLen ip

/-- `data_end`. -/
def dataEnd (ip : Packet) (offset : ℕ) : ℤ := offset + dataLength ip

/-! ## State -/

/-- `struct frag_ctrl`: `dataOffset` counts from the header of the buffer. -/
structure FragCtrl where
  used : Bool := false
  timer : Dword := 0
  holeFirst : Dword := 0
  dataOffset : ℕ := 0

/-- `struct frag_bucket` and its buffer. -/
structure FragBucket where
  used : Bool := false
  gotOfs0 : Bool := false
  active : ℕ := 0
  key : FragKey := ⟨0, 0, 0, 0⟩
  mem : ℕ → Byte := fun _ => 0

/-- `frag_buckets`, `frag_control`, and the keys that `icmp_send_timexceed` has been called with. -/
structure State where
  bucket : Bucket → FragBucket := fun _ => {}
  ctrl : Bucket → ℕ → FragCtrl := fun _ _ => {}
  timexceed : List FragKey := []

def State.setBucket (s : State) (b : Bucket) (fb : FragBucket) : State :=
  { s with bucket := Function.update s.bucket b fb }

def State.setCtrl (s : State) (b : Bucket) (i : ℕ) (fc : FragCtrl) : State :=
  { s with ctrl := Function.update s.ctrl b (Function.update (s.ctrl b) i fc) }

/-- What a call writes to a buffer: a fragment's data, or a field of the record at a place. -/
inductive Write
  | payload (b : Bucket) (a n : ℕ)
  | hole (b : Bucket) (a : ℕ)
deriving DecidableEq

/-! ## Finding the bucket -/

/-- What `match_frag` returns; `none` is -1. -/
structure Match where
  found : Bool := false
  slot : Option ℕ := none
  bucket : Option Bucket := none
  freeBucket : Option Bucket := none

/-- The loop over the slots: whether one is free, and the last used one before it. -/
def matchSlots (fc : ℕ → FragCtrl) : (n i : ℕ) → (slot : Option ℕ) → Bool × Option ℕ
  | 0, _, slot => (false, slot)
  | n + 1, i, slot => if (fc i).used then matchSlots fc n (i + 1) (some i) else (true, slot)

/-- The loop over the buckets. `memcmp` takes the byte `pad` after the key in, which nobody sets in
`fk` and which is 0 in the buckets. -/
def matchBuckets (cfg : Config) (s : State) (fk : FragKey) (pad : Byte) : List Bucket → Match → Match
  | [], m => m
  | b :: bs, m =>
    if ¬ (s.bucket b).used then
      matchBuckets cfg s fk pad bs { m with freeBucket := m.freeBucket <|> some b }
    else if ¬ (fk = (s.bucket b).key ∧ pad = 0) then matchBuckets cfg s fk pad bs m
    else
      let (free, slot) := matchSlots (s.ctrl b) cfg.maxFragments 0 m.slot
      if free then { m with found := true, slot := slot, bucket := some b }
      else matchBuckets cfg s fk pad bs { m with slot := slot }

/-- `match_frag (ip, &slot, &bucket, &free_bucket)`. -/
def matchFrag (cfg : Config) (s : State) (pad : Byte) (ip : Packet) : Match :=
  matchBuckets cfg s (fragKey ip) pad (List.finRange 2) {}

/-- `check_frag_ofs (ip, ofs, end)`: the sum wraps at 32 bits. -/
def checkFragOfs (cfg : Config) (ofs : ℕ) (fin : ℤ) : Bool :=
  let sum := ((ofs + fin) % 2 ^ 32).toNat
  sum ≤ cfg.maxFragSize ∧ sum ≤ 65535 - 8

/-! ## Records -/

/-- `struct hole`. -/
structure Hole where
  next : Dword
  start : Dword
  fin : Dword

/-- The record at `a`. -/
def readHole (m : ℕ → Byte) (a : ℕ) : Hole := ⟨le32 m a, le32 m (a + 4), le32 m (a + 8)⟩

/-- `hole->next = p`, `hole->start = n` and `hole->end = n` for the record at `a`. -/
def putNext (m : ℕ → Byte) (a : ℕ) (p : Dword) : ℕ → Byte := put32 m a p

def putStart (m : ℕ → Byte) (a : ℕ) (n : ℤ) : ℕ → Byte := put32 m (a + 4) (BitVec.ofInt 32 n)

def putEnd (m : ℕ → Byte) (a : ℕ) (n : ℤ) : ℕ → Byte := put32 m (a + 8) (BitVec.ofInt 32 n)

/-- A pointer to the place `a` of the buffer at `hip`. -/
def ptr (hip a : ℕ) : Dword := BitVec.ofNat 32 (hip + a)

/-- The record that `p` points to, when there is one in the buffer. -/
def Config.deref (cfg : Config) (b : Bucket) (p : Dword) : Option ℕ :=
  if cfg.hip b ≤ p.toNat ∧ p.toNat + sizeofHole ≤ cfg.hip b + cfg.sizeofHuge then
    some (p.toNat - cfg.hip b)
  else none

/-! ## The first fragment -/

/-- `fc->ip->length = intel16 ((WORD) n)`. -/
def putLength (m : ℕ → Byte) (n : ℤ) : ℕ → Byte := Mem.put m 2 (bytes16 (BitVec.ofInt 16 n))

/-- What `setup_first_frag` makes of the buffer: its bytes, where the first record is, and the
writes. -/
structure Setup where
  mem : ℕ → Byte
  hole : ℕ
  writes : List Write

/-- The fragment with offset 0 came first: it goes to the buffer with its header, and a record
behind it. -/
def setupOfs0 (cfg : Config) (b : Bucket) (m : ℕ → Byte) (ip : Packet) : Setup :=
  let ipLen := min (length ip) cfg.mtu
  let hole := ipLen + 1
  let m := Mem.blit m 0 ip 0 ipLen
  { mem := putNext (putEnd (putStart m hole (dataLength ip)) hole cfg.maxFragSize) hole 0
    hole := hole
    writes := [.payload b (hdrLen ip) (ipLen - hdrLen ip), .hole b hole] }

/-- Another fragment came first: its data goes to its place, a record to the begin of the data and,
unless it is the last one, another at the length of the data. -/
def setupLater (cfg : Config) (b : Bucket) (m : ℕ → Byte) (ip : Packet) (offset : ℕ) (mf : Bool) : Setup :=
  let n := (dataLength ip).toNat
  let ofs := hdrLen ip
  let m := Mem.blit m (ofs + offset) ip ofs n
  let m := putEnd (putStart m ofs 0) ofs (offset - 1)
  if mf then
    let hole := ofs + n + 1
    let m := putNext m ofs (ptr (cfg.hip b) hole)
    { mem := putNext (putEnd (putStart m hole n) hole cfg.maxFragSize) hole 0
      hole := ofs
      writes := [.payload b (ofs + offset) n, .hole b ofs, .hole b hole] }
  else
    { mem := putLength (putNext m ofs 0) (dataEnd ip offset + hdrLen ip)
      hole := ofs
      writes := [.payload b (ofs + offset) n, .hole b ofs] }

/-- `Find first empty slot`. -/
def emptySlot (fc : ℕ → FragCtrl) (n : ℕ) : Option ℕ := (List.range n).find? fun i => !(fc i).used

/-- What a call of `ip4_defragment` comes to. -/
inductive Result
  /-- 1: the packet is no fragment. -/
  | whole
  /-- 0. -/
  | taken
  /-- 1: the packet is now the one in the bucket. -/
  | reassembled (b : Bucket)
deriving DecidableEq

/-- A call: the state it leaves, what it returns, `data_length` where it is computed, and the
writes to the buffer. -/
structure Call where
  state : State
  result : Result
  dataLength : Option ℤ := none
  writes : List Write := []

/-- `setup_first_frag (ip, b)`, and 0 is returned whatever it returns. A negative length is
undefined. -/
def setupFirstFrag (cfg : Config) (now : Dword) (s : State) (b : Bucket) (ip : Packet) (offset : ℕ)
    (mf : Bool) : Option Call :=
  let fb := { s.bucket b with used := true, gotOfs0 := false }
  match emptySlot (s.ctrl b) cfg.maxFragments with
  | none => some { state := s.setBucket b fb, result := .taken, dataLength := dataLength ip }
  | some i =>
    if offset ≠ 0 ∧ dataLength ip < 0 then none
    else
      let set := if offset = 0 then setupOfs0 cfg b fb.mem ip else setupLater cfg b fb.mem ip offset mf
      let fb := { fb with
        active := fb.active + 1, key := fragKey ip, gotOfs0 := offset = 0, mem := set.mem }
      let fc := { used := true
                  timer := setTimeout now (BitVec.ofInt 32 (1000 * min cfg.reasm (ttl ip)))
                  holeFirst := ptr (cfg.hip b) set.hole
                  dataOffset := hdrLen ip }
      some { state := (s.setBucket b fb).setCtrl b i fc
             result := .taken
             dataLength := dataLength ip
             writes := set.writes }

/-! ## The loop over the holes -/

/-- The variables of the loop: `hole` and `prev` are places in the buffer. -/
structure Walk where
  mem : ℕ → Byte
  first : Dword
  hole : ℕ
  prev : Option ℕ := none
  gotHole : Bool := false
  /-- The records that are written. -/
  writes : List ℕ := []

/-- `Check if there's a hole before the new frag`, else the record is taken off. -/
def cutBefore (start : ℤ) (w : Walk) : Walk :=
  let h := readHole w.mem w.hole
  if h.start.toInt < start then
    { w with
      mem := putEnd w.mem w.hole (start - 1), prev := some w.hole, writes := w.writes ++ [w.hole] }
  else
    match w.prev with
    | none => { w with first := h.next }
    | some p => { w with mem := putNext w.mem p h.next, writes := w.writes ++ [p] }

/-- `Is there a hole after the current fragment?` It gets a record behind the fragment. -/
def cutAfter (hip dataOffset : ℕ) (fin lastEnd : ℤ) (w : Walk) : Walk :=
  if fin < (readHole w.mem w.hole).fin.toInt then
    let new := (dataOffset + fin + 1).toNat
    let m := putEnd (putStart w.mem new (fin + 1)) new lastEnd
    match w.prev with
    | none =>
      { w with
        mem := putNext m new w.first, first := ptr hip new, hole := new
        writes := w.writes ++ [new] }
    | some p =>
      let m := putNext m new (le32 m p)
      { w with mem := putNext m p (ptr hip new), hole := new, writes := w.writes ++ [new, p] }
  else w

/-- The body of the loop at a record. -/
def visit (hip dataOffset : ℕ) (start fin : ℤ) (w : Walk) : Walk :=
  let h := readHole w.mem w.hole
  if start ≤ h.fin.toInt ∧ h.start.toInt ≤ fin then
    cutAfter hip dataOffset fin h.fin.toInt (cutBefore start { w with gotHole := true })
  else w

/-- `do … while (hole)`: `none` is a pointer out of the buffer, or no end in `fuel` turns. -/
def walk (cfg : Config) (b : Bucket) (dataOffset : ℕ) (start fin : ℤ) : (fuel : ℕ) → Walk → Option Walk
  | 0, _ => none
  | fuel + 1, w =>
    let w := visit (cfg.hip b) dataOffset start fin w
    let next := le32 w.mem w.hole
    let w := { w with prev := some w.hole }
    if next = 0 then some w
    else
      match cfg.deref b next with
      | none => none
      | some a => walk cfg b dataOffset start fin fuel { w with hole := a }

/-! ## The function -/

/-- `frag_ofs = 0` and the new checksum. -/
def finishHeader (m : ℕ → Byte) : ℕ → Byte :=
  let m := Mem.put (Mem.put m 6 [0, 0]) 10 [0, 0]
  let sum := ~~~ BitVec.ofNat 16 (Tcp.inChecksum (Mem.slice m 0 sizeofHeader))
  Mem.put m 10 [sum.extractLsb' 0 8, sum.extractLsb' 8 8]

/-- The part of `ip4_defragment` for a fragment of a known datagram, in the slot `i`. -/
def addFragment (cfg : Config) (s : State) (b : Bucket) (i : ℕ) (ip : Packet) (offset : ℕ) (mf : Bool) :
    Option Call :=
  let fc := s.ctrl b i
  let fb := s.bucket b
  let m := if mf then fb.mem else putLength fb.mem (dataEnd ip offset + hdrLen ip)
  let fb := { fb with gotOfs0 := fb.gotOfs0 || offset = 0 }
  match cfg.deref b fc.holeFirst with
  | none => none
  | some a =>
    match walk cfg b fc.dataOffset offset (dataEnd ip offset) cfg.fuel
        { mem := m, first := fc.holeFirst, hole := a } with
    | none => none
    | some w =>
      if w.gotHole ∧ dataLength ip < 0 then none
      else
        let n := (dataLength ip).toNat
        let m := if w.gotHole then Mem.blit w.mem (fc.dataOffset + offset) ip (hdrLen ip) n else w.mem
        let writes := w.writes.map (Write.hole b) ++
          if w.gotHole then [.payload b (fc.dataOffset + offset) n] else []
        let s := s.setCtrl b i { fc with holeFirst := w.first }
        some <|
          if w.first = 0 then
            { state := s.setBucket b { fb with mem := finishHeader m, active := fb.active - 1 }
              result := .reassembled b, dataLength := dataLength ip, writes := writes }
          else
            { state := s.setBucket b { fb with mem := m }
              result := .taken, dataLength := dataLength ip, writes := writes }

/-- What is asked of a fragment before it is looked at: data in multiples of 8 unless it is the last,
and an end within the buffer. -/
def FragOk (cfg : Config) (ip : Packet) (offset : ℕ) (mf : Bool) : Prop :=
  ¬ (mf ∧ dataLength ip = 0 ∧ offset ≠ 0) ∧ ¬ (mf ∧ dataLength ip % 8 ≠ 0) ∧
    checkFragOfs cfg offset (dataEnd ip offset)

instance {cfg : Config} {ip : Packet} {offset : ℕ} {mf : Bool} : Decidable (FragOk cfg ip offset mf) :=
  inferInstanceAs (Decidable (_ ∧ _ ∧ _))

/-- `ip4_defragment (&ip, offset, flags)`. -/
def ip4Defragment (cfg : Config) (now : Dword) (pad : Byte) (s : State) (ip : Packet) (offset : ℕ)
    (mf : Bool) : Option Call :=
  if offset = 0 ∧ ¬ mf then some { state := s, result := .whole }
  else
    let m := matchFrag cfg s pad ip
    if ¬ m.found ∧ m.slot = some (cfg.maxFragments - 1) then some { state := s, result := .taken }
    else if ¬ FragOk cfg ip offset mf then
      some { state := s, result := .taken, dataLength := dataLength ip }
    else
      match m.bucket with
      | some b =>
        match m.slot with
        | none => none
        | some i => addFragment cfg s b i ip offset mf
      | none =>
        match m.freeBucket with
        | none => some { state := s, result := .taken, dataLength := dataLength ip }
        | some b =>
          if (s.bucket b).active = cfg.maxFragments then
            some { state := s, result := .taken, dataLength := dataLength ip }
          else setupFirstFrag cfg now s b ip offset mf

/-- `ip4_free_fragment (ip)` for the packet in the bucket `b`. -/
def ip4FreeFragment (cfg : Config) (s : State) (b : Bucket) : Bool × State :=
  if (s.bucket b).used then
    (true, { s.setBucket b { s.bucket b with used := false, active := 0 } with
      ctrl := Function.update s.ctrl b fun i =>
        if i < cfg.maxFragments then { s.ctrl b i with used := false } else s.ctrl b i })
  else (false, s)

/-- The loop over the slots of a bucket in `chk_timeout_frags`: it returns with the first bucket
that it frees. -/
def timeoutSlots (cfg : Config) (now : Dword) (b : Bucket) : (n i : ℕ) → State → Bool × State
  | 0, _, s => (false, s)
  | n + 1, i, s =>
    if ¬ (s.ctrl b i).used ∨ ¬ chkTimeout now (s.ctrl b i).timer then timeoutSlots cfg now b n (i + 1) s
    else
      let s := if (s.bucket b).gotOfs0 then { s with timexceed := s.timexceed ++ [(s.bucket b).key] } else s
      let (freed, s) := ip4FreeFragment cfg s b
      if freed then (true, s) else timeoutSlots cfg now b n (i + 1) s

/-- The loop over the buckets. -/
def timeoutBuckets (cfg : Config) (now : Dword) : List Bucket → State → State
  | [], s => s
  | b :: bs, s =>
    if (s.bucket b).active = 0 then timeoutBuckets cfg now bs s
    else
      let (done, s) := timeoutSlots cfg now b cfg.maxFragments 0 s
      if done then s else timeoutBuckets cfg now bs s

/-- `chk_timeout_frags ()`. -/
def chkTimeoutFrags (cfg : Config) (now : Dword) (s : State) : State :=
  timeoutBuckets cfg now (List.finRange 2) s

/-! ## Events -/

/-- A packet at the time `now`, with the byte `pad` where `match_frag` keeps its key; or a turn of
the daemon. -/
inductive Event
  | packet (now : Dword) (pad : Byte) (ip : Packet)
  | timeouts (now : Dword)

/-- The call that `_ip4_handler` makes for a packet. -/
def handlerCall (cfg : Config) (now : Dword) (pad : Byte) (s : State) (ip : Packet) : Option Call :=
  if chkIp4Header ip then ip4Defragment cfg now pad s ip (fragOfs ip) (moreFrags ip)
  else some { state := s, result := .taken }

/-- After the call: a reassembled datagram is freed when its handler is done. -/
def Call.after (cfg : Config) (c : Call) : State :=
  match c.result with
  | .reassembled b => (ip4FreeFragment cfg c.state b).2
  | _ => c.state

/-- An event; nothing follows one that is undefined. -/
def step (cfg : Config) (s : Option State) (ev : Event) : Option State :=
  s.bind fun s =>
    match ev with
    | .packet now pad ip => (handlerCall cfg now pad s ip).map (Call.after cfg)
    | .timeouts now => some (chkTimeoutFrags cfg now s)

end Watt32.Frag
