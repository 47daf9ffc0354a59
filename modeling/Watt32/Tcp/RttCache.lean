import Watt32.Lib.Run
import Watt32.Tcp.Socket

/-!
# The round-trip cache

`tcp_rtt_add`, `tcp_rtt_get` and `tcp_rtt_clr` of `pctcp.c`: a direct-mapped cache of 16 slots.

* `Remembered`: what a slot is to hold, from the operations alone: the last of those that had an
  effect on it, if it was an add.
* `Lawful`: every look-up finds what is remembered.
* **`occupied_kept`**: an occupied slot is not given to another peer.
* **`rtt_law_iff`**: a run is lawful throughout exactly if nothing is ever added, since the filter
  of `tcp_rtt_add` turns every unicast address away.
-/

namespace Watt32.Rtt

open Machine

/-! ## The code -/

/-- `struct tcp_rtt`. -/
structure TcpRtt where
  ip : Dword := 0
  rto : Dword := 0
  mtu : Dword := 0
  deriving DecidableEq

/-- `rtt_cache`, of `RTTCACHE` slots. -/
abbrev RttCache := Fin 16 → TcpRtt

/-- `(WORD)addr % RTTCACHE`. -/
def addSlot (addr : Dword) : Fin 16 := ⟨(addr.setWidth 16).toNat % 16, Nat.mod_lt _ (by decide)⟩

/-- `(s->hisaddr & 0xFFFF) % RTTCACHE`. -/
def slot (addr : Dword) : Fin 16 := ⟨(addr &&& 0xffff).toNat % 16, Nat.mod_lt _ (by decide)⟩

/-- `tcp_rtt_add`. -/
def tcpRttAdd (sinMask : Dword) (c : RttCache) (addr rto mtu : Dword) : RttCache :=
  if ~~~addr &&& ~~~sinMask ≠ 0 then c
  else if (c (addSlot addr)).ip = 0 ∨ (c (addSlot addr)).ip = addr then
    Function.update c (addSlot addr) { ip := addr, rto := rto, mtu := mtu }
  else c

/-- `tcp_rtt_get`: `rto` and `MTU`. -/
def tcpRttGet (c : RttCache) (addr : Dword) : Option (Dword × Dword) :=
  let rtt := c (slot addr)
  if addr ≠ 0 ∧ rtt.ip = addr ∧ 0 < rtt.rto then some (rtt.rto, rtt.mtu) else none

/-- `tcp_rtt_clr`. -/
def tcpRttClr (c : RttCache) (addr : Dword) : RttCache :=
  if addr ≠ 0 ∧ (c (slot addr)).ip = addr then Function.update c (slot addr) {} else c

/-- The two computations of the index agree. -/
theorem addSlot_eq (addr : Dword) : addSlot addr = slot addr := by
  ext
  show (addr.setWidth 16).toNat % 16 = (addr &&& 0xffff).toNat % 16
  rw [BitVec.toNat_setWidth, BitVec.toNat_and]
  exact congrArg (· % 16) (Nat.and_two_pow_sub_one_eq_mod addr.toNat 16).symm

/-- **An occupied slot** is not given to another peer. -/
theorem occupied_kept {sinMask addr rto mtu : Dword} {c : RttCache} {i : Fin 16} (h : (c i).ip ≠ 0) :
    (tcpRttAdd sinMask c addr rto mtu i).ip = (c i).ip := by
  unfold tcpRttAdd
  split_ifs with h₁ h₂
  · rfl
  · rw [Function.update_apply]
    split_ifs with hi
    · subst hi
      exact (h₂.resolve_left h).symm
    · rfl
  · rfl

/-! ## What is remembered -/

/-- Neither 0.0.0.0 nor a broadcast address of the mask. -/
def Unicast (sinMask addr : Dword) : Prop := addr ≠ 0 ∧ ~~~addr &&& ~~~sinMask ≠ 0

instance (sinMask addr : Dword) : Decidable (Unicast sinMask addr) := inferInstanceAs (Decidable (_ ∧ _))

/-- The address of a unicast peer. -/
abbrev Peer (sinMask : Dword) := { addr : Dword // Unicast sinMask addr }

/-- A call of one of the three functions for such a peer. -/
inductive Op (sinMask : Dword)
  | add (peer : Peer sinMask) (rto mtu : Dword)
  | get (peer : Peer sinMask)
  | clr (peer : Peer sinMask)

/-- What the slots are to hold: a peer with its `rto` and `MTU`. -/
abbrev Remembered := Fin 16 → Option (Dword × Dword × Dword)

/-- The slot is vacant or the peer's. -/
def Open (r : Option (Dword × Dword × Dword)) (addr : Dword) : Prop := ∀ x ∈ r, x.1 = addr

instance : ∀ (r : Option (Dword × Dword × Dword)) (addr : Dword), Decidable (Open r addr)
  | none, _ => .isTrue fun _ h => absurd h (Option.not_mem_none _)
  | some x, addr => decidable_of_iff (x.1 = addr) (by simp [Open])

/-- The effect an operation is to have: an add on a vacant slot or one of the same peer, a clear on
a slot of the peer. -/
def Remembered.step {sinMask : Dword} (m : Remembered) : Op sinMask → Remembered
  | .add peer rto mtu =>
    if Open (m (slot peer)) peer then Function.update m (slot peer) (some (peer, rto, mtu)) else m
  | .get _ => m
  | .clr peer => if Open (m (slot peer)) peer then Function.update m (slot peer) none else m

/-- The cache and what it is to remember. -/
structure State where
  cache : RttCache
  mem : Remembered

/-- The empty cache. -/
def start : State := ⟨fun _ => {}, fun _ => none⟩

/-- One call. -/
def step {sinMask : Dword} (s : State) (op : Op sinMask) : State where
  cache := match op with
    | .add peer rto mtu => tcpRttAdd sinMask s.cache peer rto mtu
    | .get _ => s.cache
    | .clr peer => tcpRttClr s.cache peer
  mem := s.mem.step op

/-- Every look-up for a unicast peer finds what is remembered of it, and nothing else. -/
def Lawful (sinMask : Dword) (s : State) : Prop :=
  ∀ (peer : Peer sinMask) (r : Dword × Dword),
    tcpRttGet s.cache peer = some r ↔ s.mem (slot peer) = some (peer.1, r)

/-- The law after a call: look-ups are right, and no occupied slot goes to another peer. -/
def StepLaw {sinMask : Dword} (s : State) (op : Op sinMask) : Prop :=
  Lawful sinMask (step s op) ∧
    ∀ i, (s.cache i).ip ≠ 0 → ((step s op).cache i).ip ∈ [(s.cache i).ip, 0]

/-- The call adds nothing. -/
def AddsNothing {sinMask : Dword} : Op sinMask → Prop
  | .add _ _ _ => False
  | _ => True

/-! ## Runs -/

section Runs

variable {sinMask : Dword}

/-- **The filter** of `tcp_rtt_add` turns a unicast address away. -/
theorem tcpRttAdd_unicast (c : RttCache) (peer : Peer sinMask) (rto mtu : Dword) :
    tcpRttAdd sinMask c peer rto mtu = c := if_pos peer.2.2

theorem tcpRttGet_start (addr : Dword) : tcpRttGet start.cache addr = none :=
  if_neg fun h => absurd h.2.2 (BitVec.lt_irrefl 0)

theorem lawful_start : Lawful sinMask start := fun peer _ => by
  rw [tcpRttGet_start]
  exact iff_of_false nofun nofun

/-- The empty cache stays so until something is added. -/
theorem step_start {op : Op sinMask} (h : AddsNothing op) : step start op = start := by
  cases op with
  | add peer rto mtu => exact h.elim
  | get peer => rfl
  | clr peer =>
    have hclr : tcpRttClr start.cache peer = start.cache := if_neg fun hc => hc.1 hc.2.symm
    have hmem : start.mem.step (.clr peer) = start.mem := by
      simp only [Remembered.step]
      split_ifs
      · exact Function.update_eq_self (slot peer) start.mem
      · rfl
    show State.mk (tcpRttClr start.cache peer) _ = _
    rw [hclr, hmem]

/-- One call on the empty cache. -/
theorem stepLaw_start_iff (op : Op sinMask) : StepLaw start op ↔ AddsNothing op := by
  constructor
  · intro h
    cases op with
    | add peer rto mtu =>
      have hopen : Open (start.mem (slot peer)) peer := fun _ h => absurd h (Option.not_mem_none _)
      have hmem : (step start (.add peer rto mtu)).mem (slot peer) = some (peer.1, rto, mtu) := by
        simp only [step, Remembered.step]
        rw [if_pos hopen, Function.update_self]
      have hget := (h.1 peer (rto, mtu)).mpr hmem
      change tcpRttGet (tcpRttAdd sinMask start.cache peer rto mtu) peer = _ at hget
      rw [tcpRttAdd_unicast, tcpRttGet_start] at hget
      cases hget
    | get peer => trivial
    | clr peer => trivial
  · intro h
    unfold StepLaw
    rw [step_start h]
    exact ⟨lawful_start, fun _ h => absurd rfl h⟩

/-- **The round-trip cache** obeys its law throughout a run for unicast peers exactly if the run
adds nothing. -/
theorem rtt_law_iff (ops : List (Op sinMask)) :
    Always step StepLaw start ops ↔ ∀ op ∈ ops, AddsNothing op := by
  have hrun : Always step StepLaw start ops ↔ Always step (fun _ op => AddsNothing op) start ops := by
    refine always_iff_of_invariant (I := (· = start)) ?_ ?_ ops rfl
    · rintro _ op rfl hop
      exact step_start hop
    · rintro _ op rfl
      exact stepLaw_start_iff op
  exact hrun.trans (always_forall ops)

/-- Behind the mask 255.255.255.0, what is added for 10.0.0.1 is not found. -/
theorem added_not_found : ¬ ∀ (sinMask : Dword) (ops : List (Op sinMask)), Always step StepLaw start ops := by
  intro h
  have hlaw := (h 0xffffff00 [.add ⟨0x0a000001, by decide⟩ 100 1500]).1.1 ⟨0x0a000001, by decide⟩ (100, 1500)
  exact absurd (hlaw.mpr (by decide +kernel)) (by decide +kernel)

end Runs

end Watt32.Rtt
