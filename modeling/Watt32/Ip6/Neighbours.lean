import Watt32.Lib.Run
import Watt32.Lib.Slots

/-!
# The IPv6 neighbour cache

`pcicmp6.c`: `neighbor_cache`, filled by solicitations and by hand.

* `icmp6NcacheLookup`, `icmp6NcacheInsert`, `icmp6NcacheInsertFix`, `icmp6NeighSolic`: the calls.
* `CacheLaw`: fixed entries are found, nothing else is, and no address has two slots.
* `CallOk`: the calls that keep it so.
* **`cache_law`**: a run whose calls are such obeys the law throughout.
-/

namespace Watt32.Ip6

open Machine

/-- `ip6_address`, in network order. -/
abbrev Ip6Address := BitVec 128
abbrev EthAddress := BitVec 48
abbrev Dword := BitVec 32

/-! ## The cache -/

/-- `enum ND_cacheState`. -/
inductive NdCacheState
  | unused | incomplete | reachable | probe
  deriving DecidableEq

/-- `struct icmp6_cache`. -/
structure Icmp6Cache where
  ip : Ip6Address := 0
  eth : EthAddress := 0
  state : NdCacheState := .unused
  expiry : ℤ := 0

/-- `neighbor_cache`, the `index` of `icmp6_ncache_insert`, and (a ghost) the MAC address that each address was
last fixed to. -/
structure Cache where
  slots : ℤ → Icmp6Cache := fun _ => {}
  index : ℕ := 0
  fixed : Ip6Address → Option EthAddress := fun _ => none

/-- `ND_CACHE_SIZE`. -/
def ndCacheSize : ℕ := 10

/-- What does not change: `icmp6_6to4_gateway` and `in6addr_my_ip`. -/
structure Config where
  gateway : Dword := 0
  myIp : Ip6Address := 0

/-- `IN6_IS_ADDR_UNSPECIFIED`. -/
def in6IsAddrUnspecified (ip : Ip6Address) : Bool := ip = 0

/-- `IN6_IS_ADDR_V4MAPPED`. -/
def in6IsAddrV4mapped (ip : Ip6Address) : Bool := (ip >>> 32) = 0xffff

/-- The last four bytes are the gateway's. -/
def endsGateway (cfg : Config) (ip : Ip6Address) : Bool := ip.setWidth 32 = cfg.gateway

/-- `_ip6_is_local_addr`. -/
def ip6IsLocalAddr (cfg : Config) (ip : Ip6Address) : Bool := ip = cfg.myIp ∨ ip = 1

/-- The entry is put into the slot. -/
def Cache.put (c : Cache) (i : ℤ) (e : Icmp6Cache) : Cache := { c with slots := Function.update c.slots i e }

/-- An entry that was not skipped is the one looked for. -/
def answers (cfg : Config) (ip : Ip6Address) (e : Icmp6Cache) : Bool :=
  in6IsAddrV4mapped ip && endsGateway cfg e.ip || ip = e.ip

/-- The loop of `icmp6_ncache_lookup`, over the `n` slots from `i` on. -/
def lookupFrom (cfg : Config) (now : ℤ) (ip : Ip6Address) : (n : ℕ) → (i : ℤ) → Cache → Cache × Option ℤ
  | 0, _, c => (c, none)
  | n + 1, i, c =>
    let e := c.slots i
    if e.state ≠ .reachable then lookupFrom cfg now ip n (i + 1) c
    else if e.expiry ≠ 0 ∧ e.expiry ≤ now then
      lookupFrom cfg now ip n (i + 1) (c.put i { e with state := .unused, expiry := 0 })
    else if answers cfg ip e then (c, some i)
    else lookupFrom cfg now ip n (i + 1) c

/-- `icmp6_ncache_lookup`. -/
def icmp6NcacheLookup (cfg : Config) (now : ℤ) (ip : Ip6Address) (c : Cache) : Cache × Option ℤ :=
  lookupFrom cfg now ip ndCacheSize 0 c

/-- The slot that `icmp6_ncache_insert` takes. -/
def insertSlot (c : Cache) : ℤ :=
  (Slots.find (fun i => (c.slots i).state = .probe ∨ in6IsAddrUnspecified (c.slots i).ip) ndCacheSize 0).getD
    (((c.index + 1) % ndCacheSize : ℕ) : ℤ)

/-- The index after it. -/
def insertIndex (c : Cache) : ℕ :=
  if (Slots.find (fun i => (c.slots i).state = .probe ∨ in6IsAddrUnspecified (c.slots i).ip) ndCacheSize
    0).isSome then c.index else (c.index + 1) % ndCacheSize

/-- `icmp6_ncache_insert`. -/
def icmp6NcacheInsert (now : ℤ) (ip : Ip6Address) (eth : EthAddress) (c : Cache) : Cache :=
  { c.put (insertSlot c) { ip := ip, eth := eth, state := .incomplete, expiry := now } with
    index := insertIndex c }

/-- `icmp6_ncache_insert_fix`. -/
def icmp6NcacheInsertFix (now : ℤ) (ip : Ip6Address) (eth : EthAddress) (c : Cache) : Cache :=
  let d := icmp6NcacheInsert now ip eth c
  let e := d.slots (insertSlot c)
  { d.put (insertSlot c) { e with state := .reachable, expiry := 0 } with
    fixed := Function.update c.fixed ip (some eth) }

/-- `icmp6_neigh_solic`, up to the packet it sends. `eth` is what the caller's buffer holds. -/
def icmp6NeighSolic (cfg : Config) (now now' : ℤ) (addr : Ip6Address) (eth : EthAddress) (c : Cache) : Cache :=
  if ip6IsLocalAddr cfg addr then c
  else
    match icmp6NcacheLookup cfg now addr c with
    | (c, some _) => c
    | (c, none) => icmp6NcacheInsert now' addr eth c

/-! ## The law -/

/-- The calls, with the readings of the clock. -/
inductive Op
  | insertFix (now : ℤ) (ip : Ip6Address) (eth : EthAddress)
  | insert (now : ℤ) (ip : Ip6Address) (eth : EthAddress)
  | neighSolic (now now' : ℤ) (addr : Ip6Address) (eth : EthAddress)
  | lookup (now : ℤ) (ip : Ip6Address)

/-- One call. -/
def step (cfg : Config) (c : Cache) : Op → Cache
  | .insertFix now ip eth => icmp6NcacheInsertFix now ip eth c
  | .insert now ip eth => icmp6NcacheInsert now ip eth c
  | .neighSolic now now' addr eth => icmp6NeighSolic cfg now now' addr eth c
  | .lookup now ip => (icmp6NcacheLookup cfg now ip c).1

/-- The slot is one of the cache and its entry is in use. -/
def Live (c : Cache) (i : ℤ) : Prop :=
  0 ≤ i ∧ i < ndCacheSize ∧ ((c.slots i).state = .incomplete ∨ (c.slots i).state = .reachable)

/-- The entry can be found. -/
def Reachable (c : Cache) (i : ℤ) : Prop := 0 ≤ i ∧ i < ndCacheSize ∧ (c.slots i).state = .reachable

/-- What every lookup and every slot should be like. -/
structure CacheLaw (cfg : Config) (c : Cache) : Prop where
  /-- A fixed address resolves to the MAC address last given. -/
  resolves : ∀ ip eth, c.fixed ip = some eth → ∀ now, ∃ i,
    (icmp6NcacheLookup cfg now ip c).2 = some i ∧ ((icmp6NcacheLookup cfg now ip c).1.slots i).eth = eth
  /-- What is found is reachable and for the address, or for an IPv4-mapped one if the address is. -/
  found : ∀ ip now i, (icmp6NcacheLookup cfg now ip c).2 = some i →
    Reachable (icmp6NcacheLookup cfg now ip c).1 i ∧
      (((icmp6NcacheLookup cfg now ip c).1.slots i).ip = ip ∨ in6IsAddrV4mapped ip = true ∧
        in6IsAddrV4mapped ((icmp6NcacheLookup cfg now ip c).1.slots i).ip = true)
  /-- No address has two slots. -/
  once : Slots.Distinct Icmp6Cache.ip (Live c) c.slots

/-! ## The condition -/

/-- The entry that answers for the IPv4-mapped addresses. -/
def Gate (cfg : Config) (c : Cache) (i : ℤ) : Prop :=
  Reachable c i ∧ endsGateway cfg (c.slots i).ip = true ∧
    ∀ j, Reachable c j → endsGateway cfg (c.slots j).ip = true → i ≤ j

/-- The address gets a slot that no fixed address loses, and has no other. -/
structure PutOk (c : Cache) (ip : Ip6Address) (fix : Bool) : Prop where
  free : Reachable c (insertSlot c) → fix = true ∧ (c.slots (insertSlot c)).ip = ip
  new : ∀ j, Live c j → j ≠ insertSlot c → (c.slots j).ip ≠ ip

/-- The IPv4-mapped addresses that are fixed are answered as before. -/
structure GateOk (cfg : Config) (c : Cache) (ip : Ip6Address) (eth : EthAddress) : Prop where
  /-- The new entry is to answer for them. -/
  opens : endsGateway cfg ip = true →
    (∀ j, Reachable c j → endsGateway cfg (c.slots j).ip = true → insertSlot c ≤ j) →
    in6IsAddrV4mapped ip = true ∧ ∀ j, Reachable c j → insertSlot c < j →
      in6IsAddrV4mapped (c.slots j).ip = true → (c.slots j).eth = eth
  /-- The new entry is for one of them. -/
  passes : in6IsAddrV4mapped ip = true → ∀ i, Gate cfg c i → i < insertSlot c → (c.slots i).eth = eth

/-- The calls that keep the law. -/
def CallOk (cfg : Config) (c : Cache) : Op → Prop
  | .insertFix _ ip eth => PutOk c ip true ∧ GateOk cfg c ip eth
  | .insert _ ip _ => PutOk c ip false
  | .neighSolic _ _ addr _ => ip6IsLocalAddr cfg addr = false →
    (∀ i, Reachable c i → answers cfg addr (c.slots i) = false) → PutOk c addr false
  | .lookup _ _ => True

section Decidable

variable (c : Cache)

instance decidableForallLive (P : ℤ → Prop) [DecidablePred P] : Decidable (∀ i, Live c i → P i) :=
  decidable_of_iff (∀ i, 0 ≤ i → i < (ndCacheSize : ℤ) →
    ((c.slots i).state = .incomplete ∨ (c.slots i).state = .reachable) → P i)
    ⟨fun h i hi => h i hi.1 hi.2.1 hi.2.2, fun h i h₁ h₂ h₃ => h i ⟨h₁, h₂, h₃⟩⟩

instance decidableForallReachable (P : ℤ → Prop) [DecidablePred P] : Decidable (∀ i, Reachable c i → P i) :=
  decidable_of_iff (∀ i, 0 ≤ i → i < (ndCacheSize : ℤ) → (c.slots i).state = .reachable → P i)
    ⟨fun h i hi => h i hi.1 hi.2.1 hi.2.2, fun h i h₁ h₂ h₃ => h i ⟨h₁, h₂, h₃⟩⟩

instance (i : ℤ) : Decidable (Reachable c i) := inferInstanceAs (Decidable (_ ∧ _ ∧ _))

instance (ip : Ip6Address) (fix : Bool) : Decidable (PutOk c ip fix) :=
  decidable_of_iff ((Reachable c (insertSlot c) → fix = true ∧ (c.slots (insertSlot c)).ip = ip) ∧
    ∀ j, Live c j → j ≠ insertSlot c → (c.slots j).ip ≠ ip) ⟨fun h => ⟨h.1, h.2⟩, fun h => ⟨h.1, h.2⟩⟩

instance (cfg : Config) (ip : Ip6Address) (eth : EthAddress) : Decidable (GateOk cfg c ip eth) :=
  decidable_of_iff ((endsGateway cfg ip = true →
      (∀ j, Reachable c j → endsGateway cfg (c.slots j).ip = true → insertSlot c ≤ j) →
      in6IsAddrV4mapped ip = true ∧ ∀ j, Reachable c j → insertSlot c < j →
        in6IsAddrV4mapped (c.slots j).ip = true → (c.slots j).eth = eth) ∧
    (in6IsAddrV4mapped ip = true → ∀ i, Reachable c i → endsGateway cfg (c.slots i).ip = true ∧
      (∀ j, Reachable c j → endsGateway cfg (c.slots j).ip = true → i ≤ j) →
      i < insertSlot c → (c.slots i).eth = eth))
    ⟨fun h => ⟨h.1, fun hm i hi => h.2 hm i hi.1 hi.2⟩, fun h => ⟨h.1, fun hm i hi hg => h.2 hm i ⟨hi, hg⟩⟩⟩

instance (cfg : Config) : ∀ op, Decidable (CallOk cfg c op)
  | .insertFix _ ip eth => inferInstanceAs (Decidable (PutOk c ip true ∧ GateOk cfg c ip eth))
  | .insert _ ip _ => inferInstanceAs (Decidable (PutOk c ip false))
  | .neighSolic _ _ addr _ => inferInstanceAs (Decidable (ip6IsLocalAddr cfg addr = false →
      (∀ i, Reachable c i → answers cfg addr (c.slots i) = false) → PutOk c addr false))
  | .lookup _ _ => .isTrue trivial

end Decidable

/-! ## What the calls keep -/

variable {cfg : Config} {c d : Cache} {ip : Ip6Address} {eth : EthAddress} {i j : ℤ}

/-- Reachable entries are the fixed ones, and they last. -/
structure CacheInv (cfg : Config) (c : Cache) : Prop where
  forever : ∀ i, Reachable c i → (c.slots i).expiry = 0
  fixed : ∀ i, Reachable c i → c.fixed (c.slots i).ip = some (c.slots i).eth
  there : ∀ ip eth, c.fixed ip = some eth → ∃ i, Reachable c i ∧ (c.slots i).ip = ip
  gate : ∀ g, Gate cfg c g → in6IsAddrV4mapped (c.slots g).ip = true ∧
    ∀ i, g < i → Reachable c i → in6IsAddrV4mapped (c.slots i).ip = true → (c.slots i).eth = (c.slots g).eth
  once : Slots.Distinct Icmp6Cache.ip (Live c) c.slots

theorem lookupFrom_eq (now : ℤ) (ip : Ip6Address) {n : ℕ}
    (h : ∀ j, i ≤ j → j < i + n → (c.slots j).state = .reachable → (c.slots j).expiry = 0) :
    lookupFrom cfg now ip n i c = (c, Slots.find (fun j => (c.slots j).state = .reachable ∧
      answers cfg ip (c.slots j)) n i) := by
  induction n generalizing i with
  | zero => rfl
  | succ n ih =>
    have hrest := ih (i := i + 1) fun j hj hjn => h j (by omega) (by push_cast; omega)
    unfold lookupFrom Slots.find
    dsimp only
    by_cases hs : (c.slots i).state = .reachable
    · have he := h i le_rfl (by push_cast; omega) hs
      rw [if_neg (not_not.mpr hs), if_neg fun hno => hno.1 he, hrest]
      by_cases ha : answers cfg ip (c.slots i) = true
      · simp [hs, ha]
      · simp [hs, ha]
    · rw [if_pos hs, hrest]
      simp [hs]

/-- With no entry that expires a lookup changes nothing. -/
theorem lookup_eq (h : CacheInv cfg c) (now : ℤ) (ip : Ip6Address) :
    icmp6NcacheLookup cfg now ip c = (c, Slots.find (fun j => (c.slots j).state = .reachable ∧
      answers cfg ip (c.slots j)) ndCacheSize 0) :=
  lookupFrom_eq now ip fun j hj hjn hs => h.forever j ⟨hj, by omega, hs⟩

/-- What a lookup finds. -/
theorem lookup_some (h : CacheInv cfg c) {now : ℤ} (hi : (icmp6NcacheLookup cfg now ip c).2 = some i) :
    Reachable c i ∧ ((c.slots i).ip = ip ∨ in6IsAddrV4mapped ip = true ∧ Gate cfg c i) ∧
      ∀ j, Reachable c j → (c.slots j).ip = ip → i ≤ j := by
  rw [lookup_eq h] at hi
  obtain ⟨h₁, h₂, h₃, h₄⟩ := Slots.find_eq_some hi
  rw [zero_add] at h₂
  simp only [decide_eq_true_eq] at h₃
  simp only [decide_eq_false_iff_not, not_and] at h₄
  have hr : Reachable c i := ⟨h₁, h₂, h₃.1⟩
  refine ⟨hr, ?_, fun j hj hip => ?_⟩
  · have ha := h₃.2
    simp only [answers, Bool.or_eq_true, Bool.and_eq_true, decide_eq_true_eq] at ha
    rcases ha with ⟨hm, he⟩ | heq
    · refine .inr ⟨hm, hr, he, fun j hj hje => ?_⟩
      by_contra hlt
      exact h₄ j hj.1 (by omega) hj.2.2 (by simp [answers, hm, hje])
    · exact .inl heq.symm
  · by_contra hlt
    exact h₄ j hj.1 (by omega) hj.2.2 (by simp [answers, hip])

theorem law_of_inv (h : CacheInv cfg c) : CacheLaw cfg c where
  resolves ip eth hfixed now := by
    obtain ⟨k, hk, hip⟩ := h.there ip eth hfixed
    have hsome : (icmp6NcacheLookup cfg now ip c).2.isSome := by
      rw [lookup_eq h]
      refine Slots.find_isSome.mpr ⟨k, hk.1, by have := hk.2.1; omega, ?_⟩
      simp [hk.2.2, answers, hip]
    obtain ⟨i, hi⟩ := Option.isSome_iff_exists.mp hsome
    refine ⟨i, hi, ?_⟩
    rw [lookup_eq h]
    obtain ⟨hr, hmatch, hfirst⟩ := lookup_some h hi
    have hketh : (c.slots k).eth = eth := by
      have := h.fixed k hk
      rw [hip, hfixed] at this
      exact (Option.some.inj this).symm
    rcases hmatch with heq | ⟨hm, hg⟩
    · have := h.fixed i hr
      rw [heq, hfixed] at this
      exact (Option.some.inj this).symm
    · rcases eq_or_lt_of_le (hfirst k hk hip) with rfl | hlt
      · exact hketh
      · exact ((h.gate i hg).2 k hlt hk (hip ▸ hm)).symm.trans hketh
  found ip now i hi := by
    obtain ⟨hr, hmatch, -⟩ := lookup_some h hi
    rw [lookup_eq h]
    refine ⟨hr, hmatch.imp_right fun hg => ⟨hg.1, (h.gate i hg.2).1⟩⟩
  once := h.once

/-! ## Insertions -/

theorem insertSlot_range (c : Cache) : 0 ≤ insertSlot c ∧ insertSlot c < ndCacheSize := by
  unfold insertSlot
  cases hfind : Slots.find (fun i => (c.slots i).state = .probe ∨ in6IsAddrUnspecified (c.slots i).ip)
    ndCacheSize 0 with
  | some i =>
    obtain ⟨h₁, h₂, -⟩ := Slots.find_eq_some hfind
    exact ⟨h₁, by simpa using h₂⟩
  | none =>
    have := Nat.mod_lt (c.index + 1) (show 0 < ndCacheSize by decide)
    simp only [Option.getD_none]
    omega

theorem slots_insert (now : ℤ) : (icmp6NcacheInsert now ip eth c).slots = Function.update c.slots (insertSlot c)
    { ip := ip, eth := eth, state := .incomplete, expiry := now } := rfl

theorem slots_insertFix (now : ℤ) : (icmp6NcacheInsertFix now ip eth c).slots =
    Function.update c.slots (insertSlot c) { ip := ip, eth := eth, state := .reachable, expiry := 0 } := by
  simp [icmp6NcacheInsertFix, icmp6NcacheInsert, Cache.put]

theorem Reachable.live (h : Reachable c i) : Live c i := ⟨h.1, h.2.1, .inr h.2.2⟩

theorem reachable_congr (h : d.slots i = c.slots i) : Reachable d i ↔ Reachable c i := by
  rw [Reachable, Reachable, h]

theorem live_congr (h : d.slots i = c.slots i) : Live d i ↔ Live c i := by
  rw [Live, Live, h]

/-- An address without another slot is put into one. -/
theorem once_put {e : Icmp6Cache} {fix : Bool} (h : CacheInv cfg c) (hok : PutOk c e.ip fix)
    (hd : d.slots = Function.update c.slots (insertSlot c) e) :
    Slots.Distinct Icmp6Cache.ip (Live d) d.slots := by
  rw [hd]
  refine h.once.put hok.new fun j hj => ?_
  by_cases hji : j = insertSlot c
  · exact .inl hji
  · exact .inr ((live_congr (by rw [hd, Function.update_of_ne hji])).mp hj)

/-- A solicitation that finds nothing: the slot held no fixed address. -/
theorem inv_insert (h : CacheInv cfg c) (now : ℤ) (eth : EthAddress) (hok : PutOk c ip false) :
    CacheInv cfg (icmp6NcacheInsert now ip eth c) := by
  have hslots := @slots_insert c ip eth now
  have hfixed : (icmp6NcacheInsert now ip eth c).fixed = c.fixed := rfl
  have honce := once_put h hok hslots
  generalize icmp6NcacheInsert now ip eth c = d at hslots hfixed honce
  have hfree : ¬ Reachable c (insertSlot c) := fun hr => absurd (hok.free hr).1 Bool.false_ne_true
  have hreach (i : ℤ) : Reachable d i ↔ Reachable c i := by
    by_cases hi : i = insertSlot c
    · refine iff_of_false (fun hr => ?_) (hi ▸ hfree)
      have hs := hr.2.2
      rw [hslots, hi, Function.update_self] at hs
      cases hs
    · exact reachable_congr (by rw [hslots, Function.update_of_ne hi])
  have hsame (i : ℤ) (hr : Reachable c i) : d.slots i = c.slots i := by
    rw [hslots, Function.update_of_ne]
    rintro rfl
    exact hfree hr
  have hgate (g : ℤ) (hg : Gate cfg d g) : Gate cfg c g := by
    have hr := (hreach g).mp hg.1
    refine ⟨hr, hsame g hr ▸ hg.2.1, fun j hj hje => hg.2.2 j ((hreach j).mpr hj) ?_⟩
    rw [hsame j hj]
    exact hje
  refine ⟨fun i hi => ?_, fun i hi => ?_, fun ip' eth' hf => ?_, fun g hg => ?_, honce⟩
  · have hr := (hreach i).mp hi
    rw [hsame i hr]
    exact h.forever i hr
  · have hr := (hreach i).mp hi
    rw [hsame i hr, hfixed]
    exact h.fixed i hr
  · obtain ⟨i, hr, hip⟩ := h.there ip' eth' (hfixed ▸ hf)
    exact ⟨i, (hreach i).mpr hr, hsame i hr ▸ hip⟩
  · obtain ⟨hm, hbehind⟩ := h.gate g (hgate g hg)
    rw [hsame g (hgate g hg).1]
    refine ⟨hm, fun i hgi hi hmi => ?_⟩
    have hr := (hreach i).mp hi
    rw [hsame i hr] at hmi ⊢
    exact hbehind i hgi hr hmi

/-- A fixed address. -/
theorem inv_insertFix (h : CacheInv cfg c) (now : ℤ) (hok : PutOk c ip true) (hgateok : GateOk cfg c ip eth) :
    CacheInv cfg (icmp6NcacheInsertFix now ip eth c) := by
  have hslots := @slots_insertFix c ip eth now
  have hfixed : (icmp6NcacheInsertFix now ip eth c).fixed = Function.update c.fixed ip (some eth) := rfl
  have honce := once_put h hok hslots
  generalize icmp6NcacheInsertFix now ip eth c = d at hslots hfixed honce
  have hnew : d.slots (insertSlot c) = { ip := ip, eth := eth, state := .reachable, expiry := 0 } := by
    rw [hslots, Function.update_self]
  have hold (i : ℤ) (hi : i ≠ insertSlot c) : d.slots i = c.slots i := by
    rw [hslots, Function.update_of_ne hi]
  have hself : Reachable d (insertSlot c) :=
    ⟨(insertSlot_range c).1, (insertSlot_range c).2, by rw [hnew]⟩
  have hother (i : ℤ) (hi : i ≠ insertSlot c) : Reachable d i ↔ Reachable c i := reachable_congr (hold i hi)
  refine ⟨fun i hi => ?_, fun i hi => ?_, fun ip' eth' hf => ?_, fun g hg => ?_, honce⟩
  · by_cases hij : i = insertSlot c
    · rw [hij, hnew]
    · rw [hold i hij]
      exact h.forever i ((hother i hij).mp hi)
  · by_cases hij : i = insertSlot c
    · rw [hij, hnew, hfixed, Function.update_self]
    · have hr := (hother i hij).mp hi
      rw [hold i hij, hfixed, Function.update_of_ne (hok.new i hr.live hij)]
      exact h.fixed i hr
  · by_cases hip : ip' = ip
    · exact ⟨insertSlot c, hself, by rw [hnew, hip]⟩
    · rw [hfixed, Function.update_of_ne hip] at hf
      obtain ⟨i, hr, hi⟩ := h.there ip' eth' hf
      have hij : i ≠ insertSlot c := by
        rintro rfl
        exact hip (hi.symm.trans (hok.free hr).2)
      exact ⟨i, (hother i hij).mpr hr, by rw [hold i hij, hi]⟩
  · by_cases hgj : g = insertSlot c
    · -- the new entry answers for the mapped addresses
      subst hgj
      have hends := hg.2.1
      rw [hnew] at hends
      obtain ⟨hm, hbehind⟩ := hgateok.opens hends fun j hj hje => by
        by_cases hji : j = insertSlot c
        · exact hji.ge
        · exact hg.2.2 j ((hother j hji).mpr hj) (by rw [hold j hji]; exact hje)
      rw [hnew]
      refine ⟨hm, fun i hlt hi hmi => ?_⟩
      have hij : i ≠ insertSlot c := by omega
      rw [hold i hij] at hmi ⊢
      exact hbehind i ((hother i hij).mp hi) hlt hmi
    · have hg' : Gate cfg c g := by
        refine ⟨(hother g hgj).mp hg.1, hold g hgj ▸ hg.2.1, fun j hj hje => ?_⟩
        by_cases hji : j = insertSlot c
        · refine hg.2.2 j (hji ▸ hself) ?_
          rw [hji] at hj hje ⊢
          rw [hnew]
          rwa [(hok.free hj).2] at hje
        · exact hg.2.2 j ((hother j hji).mpr hj) (by rw [hold j hji]; exact hje)
      obtain ⟨hm, hbehind⟩ := h.gate g hg'
      rw [hold g hgj]
      refine ⟨hm, fun i hlt hi hmi => ?_⟩
      by_cases hij : i = insertSlot c
      · rw [hij, hnew] at hmi ⊢
        exact (hgateok.passes hmi g hg' (hij ▸ hlt)).symm
      · rw [hold i hij] at hmi ⊢
        exact hbehind i hlt ((hother i hij).mp hi) hmi

/-! ## Runs -/

theorem inv_step (h : CacheInv cfg c) (op : Op) (hok : CallOk cfg c op) : CacheInv cfg (step cfg c op) := by
  cases op with
  | insertFix now ip eth => exact inv_insertFix h now hok.1 hok.2
  | insert now ip eth => exact inv_insert h now eth hok
  | neighSolic now now' addr eth =>
    simp only [step, icmp6NeighSolic]
    by_cases hlocal : ip6IsLocalAddr cfg addr = true
    · rw [if_pos hlocal]
      exact h
    · rw [if_neg hlocal, lookup_eq h]
      cases hfind : Slots.find (fun j => (c.slots j).state = .reachable ∧ answers cfg addr (c.slots j))
        ndCacheSize 0 with
      | some i => exact h
      | none =>
        refine inv_insert h now' eth (hok (by simpa using hlocal) fun i hi => ?_)
        have hno := Slots.find_eq_none.mp hfind i hi.1 (by have := hi.2.1; omega)
        simpa [hi.2.2] using hno
  | lookup now ip =>
    rw [step, lookup_eq h]
    exact h

theorem inv_init (cfg : Config) : CacheInv cfg {} := by
  have hno (i : ℤ) : ¬ Reachable {} i := fun h => by cases h.2.2
  refine ⟨fun i hi => absurd hi (hno i), fun i hi => absurd hi (hno i), nofun,
    fun g hg => absurd hg.1 (hno g), fun i j hi => ?_⟩
  rcases hi.2.2 with hs | hs <;> cases hs

/-- **The cache obeys the law** after every call of a run whose calls meet the condition. -/
theorem cache_law (cfg : Config) (ops : List Op) (hok : Always (step cfg) (CallOk cfg) {} ops) :
    Always (step cfg) (fun c op => CacheLaw cfg (step cfg c op)) {} ops :=
  always_of_invariant (I := CacheInv cfg)
    (fun _ op h hq => ⟨inv_step h op hq, law_of_inv (inv_step h op hq)⟩) ops (inv_init cfg) hok

/-- fe80::1 and fe80::2. -/
def addrA : Ip6Address := 0xfe80 <<< 112 ||| 1
def addrB : Ip6Address := 0xfe80 <<< 112 ||| 2

/-- Two solicitations of an address that does not answer: it has two slots. -/
theorem address_twice : ¬ Always (step {}) (fun c op => CacheLaw {} (step {} c op)) {}
    [.neighSolic 1 1 addrA 0, .neighSolic 2 2 addrA 0] := by
  rintro ⟨-, h, -⟩
  have hsame := h.once 0 1 ⟨by decide, by decide, .inl (by decide)⟩ ⟨by decide, by decide, .inl (by decide)⟩
    (by decide)
  exact absurd hsame (by decide)

/-- Two addresses are fixed, and one that does not answer is solicited. -/
theorem cache_law_mixed : Always (step {}) (fun c op => CacheLaw {} (step {} c op)) {}
    [.insertFix 1 addrA 0x1, .neighSolic 2 2 (addrA ||| 8) 0, .insertFix 3 addrB 0x2, .lookup 4 addrA] :=
  cache_law {} _ (by decide)

end Watt32.Ip6
