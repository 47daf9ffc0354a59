import Watt32.Arp.Lan

/-!
# An ARP exchange

A host looks an address up, the host that has it answers, and the reply resolves it, whatever happens on the
LAN in between.

* `ArpCache.Known`: an address is pending or resolved.
* `Listens`: what a host that waits for a reply may do.
* **`stepArp_known`**: an address that is known stays known.
* **`lookup_answered`**: the request reaches the wire, its delivery puts the reply there, and the delivery of
  the reply resolves the address.
-/

namespace Watt32.Arp

open Slots Machine Timer

/-- The address is pending or resolved. -/
def ArpCache.Known (c : ArpCache) (ip : Dword) : Prop := ∃ i, c.Live i ∧ (c.list i).ip = ip

/-- Packets of all kinds, lookups that no entry gives way to, and checks while no entry has expired. -/
def Listens (c : ArpCache) (ev : ArpEvent) : Prop :=
  match ev.op with
  | .startLookup _ => c.firstFree < c.firstPending
  | .packet _ => True
  | .timeouts checkDynamicEntries => c.Unexpired ev.e c.firstPending arpTopOfCache ∧
    (checkDynamicEntries = true → c.Unexpired ev.e c.firstDynamic c.firstFree)
  | _ => False

/-! ## Known addresses -/

section Known

variable {e : Env} {c c' : ArpCache} {σ : ℤ → ℤ} {d i : ℤ} {ip ip' : Dword} {eth : Mac} {ah : ArpPacket}
  {f : ArpEntry → ArpEntry}

/-- Every live entry but `d` is found again. -/
def Finds (c c' : ArpCache) (σ : ℤ → ℤ) (d : ℤ) : Prop := ∀ k, c.Live k → k ≠ d → ∃ j, c'.Live j ∧ σ j = k

theorem Rearranged.known (hr : Rearranged c c' σ d) (hf : Finds c c' σ d) (hd : (c.list d).ip ≠ ip)
    (hk : c.Known ip) : c'.Known ip := by
  obtain ⟨k, hlive, hip⟩ := hk
  obtain ⟨j, hj, rfl⟩ := hf k hlive fun hkd => hd (hkd ▸ hip)
  exact ⟨j, hj, (hr.same j hj).ip.trans hip⟩

theorem ArpCache.Known.upd (hk : c.Known ip) (hf : ∀ ae, (f ae).Same ae) : (c.upd i f).Known ip := by
  obtain ⟨k, hlive, hip⟩ := hk
  exact ⟨k, hlive, (ArpCache.upd_same hf k).ip.trans hip⟩

theorem delDynamic_finds (h : c.WellFormed) (hi : c.firstDynamic ≤ i) (hif : i < c.firstFree) :
    Finds c (delDynamic c i) (fun j => if j = i then c.firstFree - 1 else j) i := by
  have h₃ := h.pending
  rintro k (⟨hk, hkf⟩ | ⟨hk, hkt⟩) hki
  · obtain ⟨j, hj, hjf, heq⟩ := delDynamic_covers h hi hif k hk hkf hki
    exact ⟨j, .inl ⟨hj, hjf⟩, heq⟩
  · exact ⟨k, .inr ⟨(delDynamic_bounds c i).2.symm ▸ hk, hkt⟩, if_neg hki⟩

theorem delFixed_finds (h : c.WellFormed) (hi : 0 ≤ i) (hif : i < c.firstDynamic) :
    Finds c (delFixed c i)
      (fun j => if j = c.firstDynamic - 1 then c.firstFree - 1
        else if j = i then c.firstDynamic - 1 else j) i := by
  have h₂ := h.free
  have h₃ := h.pending
  rintro k (⟨hk, hkf⟩ | ⟨hk, hkt⟩) hki
  · obtain ⟨j, hj, hjf, heq⟩ := delFixed_covers h hi hif k hk hkf hki
    exact ⟨j, .inl ⟨hj, hjf⟩, heq⟩
  · exact ⟨k, .inr ⟨(delFixed_bounds c i).2.symm ▸ hk, hkt⟩, by dsimp only; split_ifs <;> omega⟩

theorem takePending_finds (hi : c.firstPending ≤ i) (hit : i < arpTopOfCache) :
    Finds c (takePending c i) (fun j => if j = i then c.firstPending else j) i := by
  obtain ⟨hf, hq⟩ := takePending_bounds c i
  rintro k (⟨hk, hkf⟩ | ⟨hk, hkt⟩) hki
  · exact ⟨k, .inl ⟨hk, hf.symm ▸ hkf⟩, if_neg hki⟩
  · -- the first one is in the hole
    by_cases hfirst : k = c.firstPending
    · exact ⟨i, .inr ⟨by omega, hit⟩, (if_pos rfl).trans hfirst.symm⟩
    · exact ⟨k, .inr ⟨by omega, hkt⟩, if_neg hki⟩

/-- `_arp_cache_del` forgets one address only. -/
theorem arpCacheDel_known (h : c.WellFormed) (hne : ip' ≠ ip) (hk : c.Known ip) :
    (arpCacheDel c ip').1.Known ip := by
  obtain ⟨i, hi, hif, rfl, heq⟩ | ⟨i, hi, hif, rfl, heq⟩ | ⟨i, hi, hit, rfl, heq⟩ | ⟨-, heq⟩ :=
    arpCacheDel_spec c ip' <;> rw [heq]
  · exact (delDynamic_rearranged h hi hif).known (delDynamic_finds h hi hif) hne hk
  · exact (delFixed_rearranged h hi hif).known (delFixed_finds h hi hif) hne hk
  · have hr := takePending_rearranged h hi hit
    exact (hr.known (takePending_finds hi hit) hne hk).upd fun _ => ⟨rfl, rfl, rfl, rfl, id⟩
  · exact hk

theorem addDynamic_known (hroom : c.firstFree < c.firstPending) (hk : c.Known ip) :
    (addDynamic e c ip' eth).Known ip := by
  obtain ⟨k, hlive, hip⟩ := hk
  have hne : k ≠ c.firstFree := by rcases hlive with hlive | hlive <;> omega
  refine ⟨k, ?_, ?_⟩
  · rcases hlive with ⟨hk, hkf⟩ | hlive
    · exact .inl ⟨hk, by dsimp only [addDynamic, upd_firstFree]; omega⟩
    · exact .inr hlive
  · unfold addDynamic ArpCache.upd
    dsimp only
    rw [Function.update_of_ne hne, hip]

theorem addPending_known (hroom : c.firstFree < c.firstPending) (hk : c.Known ip) :
    (addPending e c ip').Known ip := by
  obtain ⟨k, hlive, hip⟩ := hk
  have hne : k ≠ c.firstPending - 1 := by rcases hlive with hlive | hlive <;> omega
  refine ⟨k, ?_, ?_⟩
  · rcases hlive with hlive | ⟨hk, hkt⟩
    · exact .inl hlive
    · exact .inr ⟨by dsimp only [addPending, upd_firstPending]; omega, hkt⟩
  · unfold addPending ArpCache.upd
    dsimp only
    rw [Function.update_of_ne hne, hip]

/-- A dynamic entry that finds a place resolves its address. -/
theorem arpCacheAdd_resolves (h : c.WellFormed) (hlan : isOnLan e ip = true)
    (hroom : c.Known ip ∨ c.firstFree < c.firstPending) :
    lanLookup (arpCacheAdd e c ip eth true).1 ip = some eth := by
  have hroom : (arpCacheDel c ip).1.firstFree < (arpCacheDel c ip).1.firstPending := by
    obtain ⟨hnew, heq⟩ | ⟨hroom, -⟩ := arpCacheDel_cases h ip
    · rw [heq]
      exact hroom.resolve_left fun ⟨k, hlive, hip⟩ => hnew k hlive hip
    · exact hroom
  obtain ⟨σ, d, hr, hd⟩ := arpCacheDel_rearranged h ip
  rw [arpCacheAdd_dynamic, hlan]
  rw [if_neg (by simp), if_neg hroom.not_ge]
  exact (addDynamic_lanLookup e eth (hr.wellFormed h) hroom (hr.fresh h hd)).1

theorem arpCacheAdd_known (h : c.WellFormed) (hne : ip' ≠ ip) (hk : c.Known ip) :
    (arpCacheAdd e c ip' eth true).1.Known ip := by
  have hdel := arpCacheDel_known h hne hk
  rw [arpCacheAdd_dynamic]
  split_ifs with hlan hfull
  · exact hk
  · exact hdel
  · exact addDynamic_known (not_le.mp hfull) hdel

/-- A resolved address is known. -/
theorem known_of_lanLookup (h : c.WellFormed) (hl : lanLookup c ip = some eth) : c.Known ip := by
  obtain ⟨k, hk, hkf, hip, -⟩ := (lanLookup_eq_some h).mp hl
  exact ⟨k, .inl ⟨hk, hkf⟩, hip⟩

/-! ## What keeps an address known -/

/-- The reply to a pending lookup resolves it. -/
theorem resolvePending_resolves (h : c.WellFormed) (hlan : isOnLan e ah.srcIpAddr = true)
    (hs : c.search ah.srcIpAddr c.firstPending arpTopOfCache = some i) :
    lanLookup (resolvePending e c ah i) ah.srcIpAddr = some ah.srcEthAddr := by
  obtain ⟨hi, hit, -⟩ := search_eq_some hs
  obtain ⟨hf, hq⟩ := takePending_bounds c i
  have hpend := h.pending
  have hr := (takePending_rearranged h hi hit).upd (i := i) (f := fun ae =>
    { ae with flags := { ae.flags with inuse := false, pending := false } })
    fun _ => ⟨rfl, rfl, rfl, rfl, fun hp => by cases hp⟩
  refine arpCacheAdd_resolves (hr.wellFormed h) hlan (.inr ?_)
  dsimp only [upd_firstFree, upd_firstPending]
  omega

theorem resolvePending_known (h : c.WellFormed) (hlan : isOnLan e ip = true)
    (hs : c.search ah.srcIpAddr c.firstPending arpTopOfCache = some i) (hk : c.Known ip) :
    (resolvePending e c ah i).Known ip := by
  obtain ⟨hi, hit, hip⟩ := search_eq_some hs
  by_cases hne : ah.srcIpAddr = ip
  · subst hne
    exact known_of_lanLookup (resolvePending_wellFormed h hi hit) (resolvePending_resolves h hlan hs)
  · have hsame : ∀ ae : ArpEntry, ArpEntry.Same
        { ae with flags := { ae.flags with inuse := false, pending := false } } ae :=
      fun _ => ⟨rfl, rfl, rfl, rfl, fun hp => by cases hp⟩
    have hr := takePending_rearranged h hi hit
    have hw := (hr.upd (i := i) hsame).wellFormed h
    exact arpCacheAdd_known hw hne ((hr.known (takePending_finds hi hit) (hip ▸ hne) hk).upd hsame)

theorem arpHandler_known (h : c.WellFormed) (hlan : isOnLan e ip = true) (hk : c.Known ip) :
    (arpHandler e c ah).1.Known ip := by
  obtain heq | ⟨i, -, hs, heq⟩ | ⟨i, -, heq⟩ | ⟨-, -, -, heq⟩ := arpHandler_cases e c ah <;> rw [heq]
  · exact hk
  · exact resolvePending_known h hlan hs hk
  · exact hk.upd fun _ => ⟨rfl, rfl, rfl, rfl, id⟩
  · by_cases hne : ah.srcIpAddr = ip
    · subst hne
      exact known_of_lanLookup (arpCacheAdd_wellFormed h) (arpCacheAdd_resolves h hlan (.inl hk))
    · exact arpCacheAdd_known h hne hk

theorem lanStartLookup_known (hroom : c.firstFree < c.firstPending) (hk : c.Known ip) :
    (lanStartLookup e c ip').1.Known ip := by
  unfold lanStartLookup
  split_ifs
  · exact hk
  · exact hk
  · exact hk
  · exact addPending_known hroom hk

theorem checkPending_known (hi : c.firstPending ≤ i) (hu : c.Unexpired e i arpTopOfCache) (hk : c.Known ip) :
    (checkPending e c i).Known ip := by
  refine checkPending_rule (P := fun c i r => c.Unexpired e i arpTopOfCache → c.Known ip → r.Known ip)
    ?_ ?_ ?_ hi hu hk
  · exact fun _ _ _ _ hk => hk
  · intro c i r _ hit hexp _ hu
    rw [hu i le_rfl hit] at hexp
    cases hexp
  · intro c i r t _ _ hexp ih hu hk
    refine ih ((unexpired_succ hexp fun j => ?_).mpr hu) (hk.upd fun _ => ⟨rfl, rfl, rfl, rfl, id⟩)
    unfold ArpCache.upd
    dsimp only
    rw [Function.update_apply]
    split_ifs with hj
    · exact hj ▸ rfl
    · rfl

theorem checkDynamic_known (hi : c.firstDynamic ≤ i) (hu : c.Unexpired e i c.firstFree) (hk : c.Known ip) :
    (checkDynamic e c i).Known ip := by
  refine checkDynamic_rule (P := fun c i r => c.Unexpired e i c.firstFree → c.Known ip → r.Known ip)
    ?_ ?_ ?_ hi hu hk
  · exact fun _ _ _ _ hk => hk
  · intro c i r _ hif hexp _ hu
    rw [hu i le_rfl hif] at hexp
    cases hexp
  · exact fun c i r _ _ _ ih hu => ih fun j hj => hu j (by omega)

/-- **A host that listens forgets no address on its LAN.** -/
theorem stepArp_known {ev : ArpEvent} (h : c.WellFormed) (hlisten : Listens c ev) (hlan : isOnLan ev.e ip = true)
    (hk : c.Known ip) : (stepArp c ev).Known ip := by
  obtain ⟨e, op⟩ := ev
  unfold stepArp
  cases op <;> dsimp only [Listens] at hlisten ⊢
  case startLookup ip' => exact lanStartLookup_known hlisten hk
  case packet ah => exact arpHandler_known h hlan hk
  case timeouts checkDynamicEntries =>
    obtain ⟨hpend, hdyn⟩ := hlisten
    have hkp : (checkPending e c c.firstPending).Known ip := checkPending_known le_rfl hpend hk
    unfold arpCheckTimeouts
    dsimp only
    split_ifs with hcheck
    · obtain ⟨h₁, h₂, -, h₄⟩ := checkPending_frame (e := e) (c := c) (le_refl c.firstPending)
      have hfp := h.pending
      refine checkDynamic_known le_rfl (fun j hj hjf => ?_) hkp
      rw [h₄ j (by omega)]
      exact hdyn hcheck j (h₁ ▸ hj) (h₂ ▸ hjf)
    · exact hkp

/-- **A reply resolves an address that is known.** -/
theorem arpHandler_reply (h : c.WellFormed) (hok : headerOk e ah = true) (hop : ah.opcode = arpReply)
    (hlan : isOnLan e ah.srcIpAddr = true) (hk : c.Known ah.srcIpAddr) :
    ∃ eth, lanLookup (arpHandler e c ah).1 ah.srcIpAddr = some eth := by
  have hw : (arpHandler e c ah).1.WellFormed := arpHandler_wellFormed h
  cases hs : c.search ah.srcIpAddr c.firstPending arpTopOfCache with
  | some i =>
    have heq : (arpHandler e c ah).1 = resolvePending e c ah i := by
      unfold arpHandler
      rw [if_neg (by simp [hok]), if_pos hop, hs]
    rw [heq]
    exact ⟨_, resolvePending_resolves h hlan hs⟩
  | none =>
    -- it is resolved already
    obtain ⟨k, hlive, hip⟩ := hk
    have hkf : 0 ≤ k ∧ k < c.firstFree := hlive.resolve_right fun ⟨hkp, hkt⟩ => search_eq_none.mp hs k hkp hkt hip
    obtain heq | ⟨i, -, hi, -⟩ | ⟨i, -, heq⟩ | ⟨-, -, -, heq⟩ := arpHandler_cases e c ah
    · rw [heq] at hw ⊢
      exact ⟨_, (lanLookup_eq_some hw).mpr ⟨k, hkf.1, hkf.2, hip, rfl⟩⟩
    · rw [hs] at hi
      cases hi
    · rw [heq] at hw ⊢
      have hsame := ArpCache.upd_same (c := c) (i := i) (f := fun ae => { ae with
        expiry := setTimeout e.now (if ae.hardware = ah.srcEthAddr then 1000 * e.arpAlive else 500) })
        (fun _ => ⟨rfl, rfl, rfl, rfl, id⟩) k
      exact ⟨_, (lanLookup_eq_some hw).mpr ⟨k, hkf.1, hkf.2, hsame.ip.trans hip, rfl⟩⟩
    · rw [heq]
      exact ⟨_, arpCacheAdd_resolves h hlan (.inl ⟨k, hlive, hip⟩)⟩

theorem addPending_self (h : c.firstPending ≤ arpTopOfCache) : (addPending e c ip).Known ip := by
  refine ⟨c.firstPending - 1, .inr ⟨le_rfl, by omega⟩, ?_⟩
  unfold addPending ArpCache.upd
  dsimp only
  rw [Function.update_self]

/-- A lookup that sends a request waits for the reply. -/
theorem lanStartLookup_waits (h : c.WellFormed) (hsends : lanStartLookupSends e c ip ≠ []) :
    (lanStartLookup e c ip).1.Known ip := by
  unfold lanStartLookupSends at hsends
  unfold lanStartLookup
  split_ifs at hsends with hpend hdyn hfix hroom
  · exact absurd rfl hsends
  · exact absurd rfl hsends
  · exact absurd rfl hsends
  · rw [if_neg hpend, if_neg hdyn, if_neg hfix]
    split_ifs with hfree hpop
    · exact addPending_self h.top
    · exact addPending_self h.top
    · exact absurd hroom (not_or.mpr ⟨hfree, hpop⟩)
  · exact absurd rfl hsends

/-- The host that has the address answers a request for it. -/
theorem arpHandlerSends_request {e' : Env} (htype : e'.hwType = e.hwType)
    (hhas : ip4IsLocalAddr e ip = true ∧ ip4IsMulticast ip = false ∧ ip4IsLoopbackAddr ip = false) :
    arpHandlerSends e (arpSendRequest e' ip) = [arpReplyTo e e'.ethAddr ip e'.myIpAddr] := by
  have hok : headerOk e (arpSendRequest e' ip) = true := decide_eq_true ⟨htype, rfl, rfl, rfl⟩
  have hdo : doReply e (arpSendRequest e' ip) = true := decide_eq_true ⟨rfl, hhas, fun hs => hs.2.2 rfl⟩
  unfold arpHandlerSends
  rw [if_pos ⟨hok, hdo⟩]
  rfl

end Known

/-! ## The exchange -/

section Exchange

variable {ι : Type*} [DecidableEq ι] {who : ι → Env} {i : ι} {ip : Dword} {p : ArpPacket}

/-- The LAN does what it likes while the host `i` listens. -/
def Quiet (who : ι → Env) (i : ι) (l : Lan ι) (ev : LanEvent ι) : Prop :=
  LanOk who l ev ∧ ∀ ev', ev = .arp i ev' → Listens (l.caches i) ev'

/-- The host `i` knows of the address `ip`, and the packet `p` is on its way. -/
structure Lan.Waits (who : ι → Env) (i : ι) (ip : Dword) (p : ArpPacket) (l : Lan ι) : Prop where
  inv : l.Inv who
  known : (l.caches i).Known ip
  sent : p ∈ l.wire

theorem Env.Is.isOnLan {e h : Env} (he : e.Is h) : isOnLan e ip = isOnLan h ip := by
  unfold Arp.isOnLan
  rw [he.myIpAddr, he.sinMask]

theorem Env.Is.ip4IsLocalAddr {e h : Env} (he : e.Is h) : ip4IsLocalAddr e ip = ip4IsLocalAddr h ip := by
  unfold Arp.ip4IsLocalAddr ip4IsMultihomeAddr
  rw [he.myIpAddr, he.sinMask, he.multihomes]

theorem stepLan_wire {l : Lan ι} {ev : LanEvent ι} (hp : p ∈ l.wire) : p ∈ (stepLan l ev).wire := by
  cases ev <;> exact List.mem_append_left _ hp

theorem Lan.Waits.step {l : Lan ι} {ev : LanEvent ι} (hlan : isOnLan (who i) ip = true)
    (h : l.Waits who i ip p) (hq : Quiet who i l ev) : (stepLan l ev).Waits who i ip p := by
  refine ⟨h.inv.step hq.1, ?_, stepLan_wire h.sent⟩
  cases ev with
  | announce => exact h.known
  | arp j ev =>
    unfold stepLan
    dsimp only
    rw [Function.update_apply]
    split_ifs with hij
    · subst hij
      exact stepArp_known (h.inv.wellFormed i) (hq.2 ev rfl) (hq.1.1.isOnLan.trans hlan) h.known
    · exact h.known

/-- **A lookup is answered**: from any state the LAN can be in, a host `i` sends the request for an address of
the host `j`. While `i` listens, the others do what they like and the network what it likes. Then the
delivery of the request to `j` puts the reply on the wire, and the delivery of the reply resolves the
address. -/
theorem lookup_answered (who : ι → Env) (i j : ι) (ip : Dword) (evs evs₁ evs₂ : List (LanEvent ι)) (e₁ e₂ e₃ : Env)
    (hi₁ : e₁.Is (who i)) (hj : e₂.Is (who j)) (hi₃ : e₃.Is (who i))
    (hhas : ip4IsLocalAddr (who j) ip = true ∧ ip4IsMulticast ip = false ∧ ip4IsLoopbackAddr ip = false)
    (honly : ∀ k, Owns (who k) ip → (who k).ethAddr = (who j).ethAddr)
    (hlan : isOnLan (who i) ip = true) (htype : (who i).hwType = (who j).hwType)
    (hok : Always stepLan (LanOk who) .start evs) :
    let l := run stepLan .start evs
    let request := arpSendRequest e₁ ip
    let reply := arpReplyTo e₂ e₁.ethAddr ip e₁.myIpAddr
    request ∈ sends (l.caches i) ⟨e₁, .startLookup ip⟩ →
    let l₁ := stepLan l (.arp i ⟨e₁, .startLookup ip⟩)
    Always stepLan (Quiet who i) l₁ evs₁ →
    let l₂ := stepLan (run stepLan l₁ evs₁) (.arp j ⟨e₂, .packet request⟩)
    Always stepLan (Quiet who i) l₂ evs₂ →
    request ∈ (run stepLan l₁ evs₁).wire ∧ reply ∈ (run stepLan l₂ evs₂).wire ∧
      lanLookup ((stepLan (run stepLan l₂ evs₂) (.arp i ⟨e₃, .packet reply⟩)).caches i) ip = some (who j).ethAddr := by
  intro l request reply hsends l₁ hq₁ l₂ hq₂
  have hinv : l.Inv who := Lan.run_inv hok
  have hw₁ : l₁.Waits who i ip request := by
    refine ⟨hinv.step ⟨hi₁, trivial⟩, ?_, List.mem_append_right _ hsends⟩
    dsimp only [l₁, stepLan]
    rw [Function.update_self]
    exact lanStartLookup_waits (hinv.wellFormed i) (List.ne_nil_of_mem hsends)
  have hr₁ : (run stepLan l₁ evs₁).Waits who i ip request :=
    run_invariant (I := Lan.Waits who i ip request) (fun _ _ h hq => h.step hlan hq) evs₁ hw₁ hq₁
  have hw₂ : l₂.Waits who i ip reply := by
    have hquiet : Quiet who i (run stepLan l₁ evs₁) (.arp j ⟨e₂, .packet request⟩) :=
      ⟨⟨hj, hr₁.sent⟩, fun ev' heq => by cases heq; trivial⟩
    have hstep := hr₁.step hlan hquiet
    refine ⟨hstep.inv, hstep.known, List.mem_append_right _ ?_⟩
    have hsent : arpHandlerSends e₂ request = [reply] := by
      refine arpHandlerSends_request ?_ ?_
      · rw [hi₁.hwType, hj.hwType, htype]
      · rwa [hj.ip4IsLocalAddr]
    change reply ∈ arpHandlerSends e₂ request
    rw [hsent]
    exact List.mem_singleton_self _
  have hr₂ : (run stepLan l₂ evs₂).Waits who i ip reply :=
    run_invariant (I := Lan.Waits who i ip reply) (fun _ _ h hq => h.step hlan hq) evs₂ hw₂ hq₂
  refine ⟨hr₁.sent, hr₂.sent, ?_⟩
  have hlast : (stepLan (run stepLan l₂ evs₂) (.arp i ⟨e₃, .packet reply⟩)).Inv who :=
    hr₂.inv.step ⟨hi₃, hr₂.sent⟩
  obtain ⟨eth, heth⟩ : ∃ eth, lanLookup
      ((stepLan (run stepLan l₂ evs₂) (.arp i ⟨e₃, .packet reply⟩)).caches i) ip = some eth := by
    dsimp only [stepLan]
    rw [Function.update_self]
    have hheader : headerOk e₃ reply = true :=
      decide_eq_true ⟨by rw [hi₃.hwType, htype, ← hj.hwType]; rfl, rfl, rfl, rfl⟩
    exact arpHandler_reply (hr₂.inv.wellFormed i) hheader rfl (hi₃.isOnLan.trans hlan) hr₂.known
  -- the answer is true, and only `j` has the address
  obtain ⟨k, hk, howns⟩ := hlast.truth heth
  rw [heth, hk, honly k howns]

end Exchange

/-- The second host announces itself in between. -/
theorem lookup_answered_exchange : lanLookup ((run stepLan .start (lanExchange.insertIdx 1
    (.announce true (lanHost true) 0xffffffff))).caches false) 0x0a000002 = some 0x020000000002 := by
  have his : ∀ b, (lanHost b).Is (lanHost b) := fun _ => ⟨rfl, rfl, rfl, rfl, rfl⟩
  refine (lookup_answered lanHost false true 0x0a000002 [] [.announce true (lanHost true) 0xffffffff] []
    (lanHost false) (lanHost true) (lanHost false) (his _) (his _) (his _) (by decide) ?_ (by decide) rfl trivial
    (by decide +kernel) ⟨⟨his _, nofun⟩, trivial⟩ trivial).2.2
  rintro (_ | _) howns
  · unfold Owns at howns
    revert howns
    decide
  · rfl

end Watt32.Arp
