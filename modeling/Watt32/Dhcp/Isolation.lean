import Watt32.Dhcp.Configure

/-!
# What stands behind a DHCP packet

`DHCP_offer` goes on to the end of `dh_opt` and not of the packet, and takes four bytes of an option
whatever its length says: behind the packet in `dhcp_in` are the bytes of earlier ones.

* `Isolated`: what is set depends on the packet alone, and each copy fits.
* `stays`, `need`, `Idle`: how far the options of a packet reach.
* **`isolated_iff`**: `DHCP_offer` isolates exactly the packets that are `Confined`.
-/

namespace Watt32.Dhcp

/-- `m` begins with the packet `p` of `len` bytes. -/
def Agree (len : ℕ) (p m : ℕ → Byte) : Prop := ∀ i < len, m i = p i

section Isolation

variable (qsort : (Arp.GateEntry → Arp.GateEntry → ℤ) → List Arp.GateEntry → List Arp.GateEntry)
  (realloc : ℕ → ℕ → Option (ℕ → Byte)) (p : ℕ → Byte) (len : ℕ) (x : Extra) (g : Settings)

/-- `DHCP_offer` sets the same whatever is behind the packet and on the stack, and no option is copied
beyond its destination. -/
def Isolated : Prop :=
  ∃ g', ∀ m, Agree len p m →
    (∀ stack, ∃ fuel x', configure qsort fuel ⟨realloc, stack⟩ m x g = some (.set x' g')) ∧
      ∀ opt ∈ optionsOf m, CopyFits m opt

/-! ## The condition -/

/-- From `opt` on the options end in the packet, or where `dh_opt` ends. -/
def staysFrom : (n opt : ℕ) → Bool
  | 0, _ => true
  | n + 1, opt =>
    if sizeofDhcp ≤ opt then true
    else if len ≤ opt then false
    else if p opt = optPad then staysFrom n (opt + 1)
    else if p opt = optEnd then true
    -- the length is behind the packet
    else if len ≤ opt + 1 then sizeofDhcp ≤ opt + 2
    else staysFrom n (opt + (p (opt + 1)).toNat + 2)

def stays : Bool := staysFrom p len sizeofDhcp dhOpt

/-- The bytes that `str_lcpy` looks at. -/
def strRead (m : ℕ → Byte) : (a n : ℕ) → ℕ
  | _, 0 => 0
  | a, n + 1 => if m a = 0 then 1 else strRead m (a + 1) n + 1

/-- The bytes of an option that matter. -/
def need (m : ℕ → Byte) (opt : ℕ) : ℕ :=
  match kindAt m opt with
  | .field _ => 6
  | .syslog => 6
  | .text _ n => strRead m (opt + 2) n + 2
  | .hostname n => n + 2
  | .ttl => 3
  | .msgType => 3
  | .other => if m opt = optDnsSrv ∨ m opt = optLogSrv ∨ m opt = optDomainName then 2 else 1

/-- An option that sets nothing any more: the name of the log server and `got_offer` are set once. -/
def Idle (done : List ℕ) (opt : ℕ) : Prop :=
  p opt = optLogSrv ∧ (g.syslogHostName ≠ [] ∨ ∃ j ∈ done, kindAt p j = .syslog) ∨
    p opt = optMsgType ∧ (g.gotOffer = true ∨ ∃ j ∈ done, isOffer p j = true)

/-- The options, and what of them matters, are in the packet; `DHCP_offer` returns from it; and each
name of the host fits with its NUL. -/
structure Confined : Prop where
  stays : stays p len = true
  within : ∀ done opt rest, optionsOf p = done ++ opt :: rest → opt + need p opt ≤ len ∨ Idle p g done opt
  returns : ∀ m stack, Agree len p m → StopsAt ⟨realloc, stack⟩ m x
  names : ∀ opt ∈ optionsOf p, p opt = optHostName → optLen p opt < sizeofHostname

end Isolation

variable {qsort : (Arp.GateEntry → Arp.GateEntry → ℤ) → List Arp.GateEntry → List Arp.GateEntry}
  {realloc : ℕ → ℕ → Option (ℕ → Byte)} {p m m' : ℕ → Byte} {len n opt i : ℕ} {x : Extra} {g : Settings}
  {stack : ℕ → ℕ → Byte} {done rest ps : List ℕ} {f : Field} {t : Text} {v : Byte}

/-! ## The walk -/

theorem Agree.symm (h : Agree len p m) : Agree len m p := fun i hi => (h i hi).symm

theorem walk_agree (h : Agree len p m) : ∀ {n opt : ℕ}, staysFrom p len n opt = true →
    Tlv.walk m optPad optEnd sizeofDhcp n opt = Tlv.walk p optPad optEnd sizeofDhcp n opt
  | 0, _, _ => rfl
  | n + 1, opt, hs => by
    rw [staysFrom] at hs
    rw [Tlv.walk, Tlv.walk]
    split_ifs at hs with hstop hlen hpad hend hcut
    · rw [if_pos hstop, if_pos hstop]
    · rw [if_neg hstop, if_neg hstop, h opt (by omega), if_pos hpad, if_pos hpad]
      exact walk_agree h hs
    · rw [if_neg hstop, if_neg hstop, h opt (by omega), if_neg hpad, if_neg hpad, if_pos hend, if_pos hend]
    · have hs := of_decide_eq_true hs
      rw [if_neg hstop, if_neg hstop, h opt (by omega), if_neg hpad, if_neg hpad, if_neg hend, if_neg hend,
        Tlv.walk_of_le (i := opt + (m (opt + 1)).toNat + 2) (by omega),
        Tlv.walk_of_le (i := opt + (p (opt + 1)).toNat + 2) (by omega)]
    · rw [if_neg hstop, if_neg hstop, h opt (by omega), if_neg hpad, if_neg hpad, if_neg hend, if_neg hend,
        h (opt + 1) (by omega), walk_agree h hs]

theorem options_agree (h : Agree len p m) (hs : stays p len = true) : optionsOf m = optionsOf p := walk_agree h hs

theorem lt_of_mem_walk : ∀ {n opt j : ℕ}, staysFrom p len n opt = true →
    j ∈ Tlv.walk p optPad optEnd sizeofDhcp n opt → j < len
  | 0, _, _, _, hj => by simp [Tlv.walk] at hj
  | n + 1, opt, j, hs, hj => by
    rw [staysFrom] at hs
    rw [Tlv.walk] at hj
    split_ifs at hs with hstop hlen hpad hend hcut
    · rw [if_pos hstop] at hj
      cases hj
    · rw [if_neg hstop, if_pos hpad] at hj
      exact lt_of_mem_walk hs hj
    · rw [if_neg hstop, if_neg hpad, if_pos hend] at hj
      cases hj
    · have hs := of_decide_eq_true hs
      rw [if_neg hstop, if_neg hpad, if_neg hend, Tlv.walk_of_le (i := opt + (p (opt + 1)).toNat + 2) (by omega),
        List.mem_singleton] at hj
      omega
    · rw [if_neg hstop, if_neg hpad, if_neg hend] at hj
      rcases List.mem_cons.mp hj with rfl | hj
      · omega
      · exact lt_of_mem_walk hs hj

/-- **How the options leave the packet**: there is a place behind it that is taken for an option, whatever
stands there. -/
theorem walk_leaves : ∀ {n opt : ℕ}, sizeofDhcp < opt + n → staysFrom p len n opt = false →
    ∃ r q, Agree len p r ∧ len ≤ q ∧ q < sizeofDhcp ∧ ∀ m, (∀ i < q, m i = r i) →
      ∃ ps k, sizeofDhcp < q + k ∧ Tlv.walk m optPad optEnd sizeofDhcp n opt =
        ps ++ Tlv.walk m optPad optEnd sizeofDhcp k q
  | 0, _, _, hs => by cases hs
  | n + 1, opt, hn, hs => by
    rw [staysFrom] at hs
    split_ifs at hs with hstop hlen hpad hend hcut
    · exact ⟨p, opt, fun _ _ => rfl, hlen, by omega, fun m _ => ⟨[], n + 1, hn, rfl⟩⟩
    · obtain ⟨r, q, hr, hq, hstop', hw⟩ := walk_leaves (by omega) hs
      refine ⟨r, q, hr, hq, hstop', fun m hm => ?_⟩
      obtain ⟨ps, k, hk, hps⟩ := hw m hm
      refine ⟨ps, k, hk, ?_⟩
      rw [Tlv.walk, if_neg hstop, hm opt (by omega), hr opt (by omega), if_pos hpad, hps]
    · -- a length of 0 leads to the byte behind it
      have hs := of_decide_eq_false hs
      refine ⟨Function.update p len 0, len + 1, fun i hi => Function.update_of_ne hi.ne _ _, Nat.le_succ _,
        by omega, fun m hm => ⟨[opt], n, by omega, ?_⟩⟩
      have hopt : opt + 1 = len := by omega
      have hcode : m opt = p opt := (hm opt (by omega)).trans (Function.update_of_ne (by omega) _ _)
      have hzero : m (opt + 1) = 0 := by
        rw [hopt, hm len (Nat.lt_succ_self _), Function.update_self]
      rw [Tlv.walk, if_neg hstop, hcode, if_neg hpad, if_neg hend, hzero]
      simp [← hopt]
    · obtain ⟨r, q, hr, hq, hstop', hw⟩ := walk_leaves (by omega) hs
      refine ⟨r, q, hr, hq, hstop', fun m hm => ?_⟩
      obtain ⟨ps, k, hk, hps⟩ := hw m hm
      refine ⟨opt :: ps, k, hk, ?_⟩
      rw [Tlv.walk, if_neg hstop, hm opt (by omega), hr opt (by omega), if_neg hpad, if_neg hend,
        hm (opt + 1) (by omega), hr (opt + 1) (by omega), hps, List.cons_append]

/-! ## One option -/

theorem kindAt_congr (h : m opt = p opt) (h' : m (opt + 1) = p (opt + 1)) : kindAt m opt = kindAt p opt := by
  rw [kindAt, kindAt, optLen, optLen, h, h']

/-- The cases that only take four bytes. -/
theorem elim_field (o : Option Field) :
    o.elim Kind.other Kind.field = .other ∨ ∃ f, o.elim Kind.other Kind.field = .field f := by
  cases o with
  | none => exact .inl rfl
  | some f => exact .inr ⟨f, rfl⟩

theorem kindAt_text (h : kindAt m opt = .text t n) : n = min (optLen m opt) (t.size - 1) := by
  unfold kindAt at h
  rcases elim_field (fieldOf (m opt)) with ho | ⟨f, ho⟩ <;> rw [ho] at h
  all_goals split_ifs at h <;> cases h <;> simp only [Text.size] at * <;> omega

theorem kindAt_hostname (h : kindAt m opt = .hostname n) :
    m opt = optHostName ∧ n = min (optLen m opt) sizeofHostname := by
  unfold kindAt at h
  rcases elim_field (fieldOf (m opt)) with ho | ⟨f, ho⟩ <;> rw [ho] at h
  all_goals
    split_ifs at h
    cases h
    exact ⟨‹_›, rfl⟩

theorem kindAt_syslog (h : kindAt m opt = .syslog) : m opt = optLogSrv := by
  unfold kindAt at h
  rcases elim_field (fieldOf (m opt)) with ho | ⟨f, ho⟩ <;> rw [ho] at h
  all_goals
    split_ifs at h
    cases h
    assumption

theorem kindAt_msgType_iff : kindAt m opt = .msgType ↔ m opt = optMsgType := by
  constructor
  · intro h
    unfold kindAt at h
    rcases elim_field (fieldOf (m opt)) with ho | ⟨f, ho⟩ <;> rw [ho] at h
    all_goals
      split_ifs at h
      cases h
      assumption
  · intro h
    rw [kindAt, h]
    rfl

theorem kindAt_ttl (h : m opt = optIpDefaultTtl) : kindAt m opt = .ttl := by
  rw [kindAt, h]
  rfl

theorem kindAt_logSrv (h : m opt = optLogSrv) : kindAt m opt = if optLen m opt % 4 = 0 then .syslog else .other := by
  rw [kindAt, if_neg (by rw [h]; decide), if_pos h]

theorem kindAt_hostName (h : m opt = optHostName) : kindAt m opt = .hostname (min (optLen m opt) sizeofHostname) := by
  rw [kindAt, h]
  rfl

/-- Where the length does not matter. -/
theorem kindAt_other (h : kindAt p opt = .other)
    (hcode : ¬(p opt = optDnsSrv ∨ p opt = optLogSrv ∨ p opt = optDomainName)) (hm : m opt = p opt) :
    kindAt m opt = .other := by
  obtain ⟨hdns, hlog, hdomain⟩ : p opt ≠ optDnsSrv ∧ p opt ≠ optLogSrv ∧ p opt ≠ optDomainName := by
    simpa only [not_or] using hcode
  rw [kindAt, if_neg hdns, if_neg hlog, if_neg hdomain] at h
  rw [kindAt, hm, if_neg hdns, if_neg hlog, if_neg hdomain]
  split_ifs at h ⊢
  exact h

/-! ## What an option sets -/

theorem strLcpy_zero (a : ℕ) : strLcpy m a 0 = [] := rfl

theorem strLcpy_succ (a n : ℕ) : strLcpy m a (n + 1) = if m a = 0 then [] else m a :: strLcpy m (a + 1) n := by
  have hslice : Mem.slice m a (n + 1) = m a :: Mem.slice m (a + 1) n := by
    rw [Nat.add_comm, Mem.slice_add]
    rfl
  rw [strLcpy, hslice, List.takeWhile_cons]
  by_cases h : m a = 0 <;> simp [h, strLcpy]

theorem strRead_le : ∀ a n : ℕ, strRead m a n ≤ n
  | _, 0 => le_rfl
  | a, n + 1 => by
    rw [strRead]
    split_ifs
    · omega
    · exact Nat.succ_le_succ (strRead_le _ _)

/-- A string that is in the packet. -/
theorem strLcpy_agree (h : Agree len p m) : ∀ {a n : ℕ}, a + strRead p a n ≤ len →
    strLcpy m a n = strLcpy p a n ∧ strRead m a n = strRead p a n
  | _, 0, _ => ⟨rfl, rfl⟩
  | a, n + 1, hn => by
    rw [strRead] at hn
    rw [strLcpy_succ, strLcpy_succ, strRead, strRead]
    split_ifs at hn with h0
    · rw [h a (by omega), if_pos h0, if_pos h0, if_pos h0, if_pos h0]
      exact ⟨rfl, rfl⟩
    · obtain ⟨ihs, ihr⟩ := strLcpy_agree h (a := a + 1) (n := n) (by omega)
      rw [h a (by omega), if_neg h0, if_neg h0, if_neg h0, if_neg h0, ihs, ihr]
      exact ⟨rfl, rfl⟩

theorem intel_congr {a : ℕ} (h : ∀ i < 4, m (a + i) = p (a + i)) : intel m a = intel p a := by
  rw [intel, intel, ← Nat.add_zero a, h 0 (by decide), h 1 (by decide), h 2 (by decide), h 3 (by decide)]

/-- **An option that is in the packet**: it sets the same, and needs the same bytes. -/
theorem effect_agree (h : Agree len p m) (hn : opt + need p opt ≤ len) :
    effect m opt = effect p opt ∧ need m opt = need p opt := by
  have hpos : 0 < need p opt := by
    unfold need
    split <;> try split
    all_goals omega
  have hcode : m opt = p opt := h opt (by omega)
  by_cases hother : kindAt p opt = .other ∧ ¬(p opt = optDnsSrv ∨ p opt = optLogSrv ∨ p opt = optDomainName)
  · have hm := kindAt_other hother.1 hother.2 hcode
    rw [effect, effect, need, need, hm, hother.1, hcode]
    exact ⟨rfl, rfl⟩
  have htwo : 2 ≤ need p opt := by
    unfold need
    split <;> try split
    all_goals first | omega | simp_all
  have hkind : kindAt m opt = kindAt p opt := kindAt_congr hcode (h (opt + 1) (by omega))
  rw [effect, effect, need, need, hkind]
  rw [need] at hn
  cases hk : kindAt p opt with
  | field f =>
    rw [hk] at hn
    dsimp only at hn
    exact ⟨congrArg (Effect.field f) (intel_congr fun i hi => h _ (by omega)), rfl⟩
  | syslog =>
    rw [hk] at hn
    dsimp only at hn
    exact ⟨congrArg Effect.syslog (intel_congr fun i hi => h _ (by omega)), rfl⟩
  | text t n =>
    rw [hk] at hn
    dsimp only at hn ⊢
    obtain ⟨hs, hr⟩ := strLcpy_agree h (a := opt + 2) (n := n) (by omega)
    exact ⟨congrArg (Effect.text t) hs, by rw [hr]⟩
  | hostname n =>
    rw [hk] at hn
    dsimp only at hn
    exact ⟨congrArg Effect.hostname (Mem.slice_congr fun i hi => h _ (by omega)), rfl⟩
  | ttl =>
    rw [hk] at hn
    dsimp only at hn
    exact ⟨congrArg Effect.ttl (h _ (by omega)), rfl⟩
  | msgType =>
    rw [hk] at hn
    dsimp only at hn
    exact ⟨by rw [effectOf, effectOf, h _ (by omega)], rfl⟩
  | other => exact ⟨rfl, by rw [hcode]⟩

theorem effect_offer_iff : effect m opt = .offer ↔ isOffer m opt = true := by
  rw [isOffer, decide_eq_true_iff, effect, ← kindAt_msgType_iff]
  cases kindAt m opt <;> simp [effectOf]

theorem effect_syslog_iff : (∃ ip, effect m opt = .syslog ip) ↔ kindAt m opt = .syslog := by
  rw [effect]
  cases kindAt m opt <;> simp [effectOf]
  split_ifs <;> simp

/-! ## All options -/

theorem inetNtoa_ne_nil (ip : Dword) : NetAddr.inetNtoa ip ≠ [] := by simp [NetAddr.inetNtoa]

theorem apply_gotOffer (e : Effect) : (g.apply qsort e).gotOffer = true ↔ g.gotOffer = true ∨ e = .offer := by
  cases e with
  | field f v => cases f <;> simp [Settings.apply, Settings.tables]
  | syslog ip => simp only [Settings.apply]; split_ifs <;> simp
  | offer => simp [Settings.apply]
  | _ => simp [Settings.apply]

theorem apply_syslog (e : Effect) :
    (g.apply qsort e).syslogHostName ≠ [] ↔ g.syslogHostName ≠ [] ∨ ∃ ip, e = .syslog ip := by
  cases e with
  | field f v => cases f <;> simp [Settings.apply, Settings.tables]
  | syslog ip =>
    simp only [Settings.apply]
    split_ifs with h
    · simp [inetNtoa_ne_nil]
    · simp [h]
  | _ => simp [Settings.apply]

theorem settles_gotOffer :
    (settles qsort m ps g).gotOffer = true ↔ g.gotOffer = true ∨ ∃ j ∈ ps, isOffer m j = true := by
  induction ps generalizing g with
  | nil => simp [settles]
  | cons opt ps ih =>
    rw [settles_cons, ih, apply_gotOffer, effect_offer_iff, List.exists_mem_cons_iff, or_assoc]

theorem settles_syslog :
    (settles qsort m ps g).syslogHostName ≠ [] ↔ g.syslogHostName ≠ [] ∨ ∃ j ∈ ps, kindAt m j = .syslog := by
  induction ps generalizing g with
  | nil => simp [settles]
  | cons opt ps ih =>
    rw [settles_cons, ih, apply_syslog, effect_syslog_iff, List.exists_mem_cons_iff, or_assoc]

/-- An option that is idle sets nothing. -/
theorem apply_idle (h : Idle p g done opt) (hm : m opt = p opt) :
    (settles qsort p done g).apply qsort (effect m opt) = settles qsort p done g := by
  rcases h with ⟨hcode, h⟩ | ⟨hcode, h⟩
  · have hset : (settles qsort p done g).syslogHostName ≠ [] := settles_syslog.mpr h
    rw [effect, kindAt_logSrv (hm.trans hcode)]
    split_ifs
    · rw [effectOf, Settings.apply, if_neg hset]
    · rfl
  · have hset : (settles qsort p done g).gotOffer = true := settles_gotOffer.mpr h
    rw [effect, kindAt_msgType_iff.mpr (hm.trans hcode), effectOf]
    split_ifs
    · rw [Settings.apply, ← hset]
    · rfl

theorem settles_agree (h : Agree len p m) (hlt : ∀ opt ∈ optionsOf p, opt < len)
    (hw : ∀ done opt rest, optionsOf p = done ++ opt :: rest → opt + need p opt ≤ len ∨ Idle p g done opt)
    (done rest : List ℕ) (hsplit : optionsOf p = done ++ rest) :
    settles qsort m done g = settles qsort p done g := by
  induction done using List.reverseRecOn generalizing rest with
  | nil => rfl
  | append_singleton done opt ih =>
    have hsplit : optionsOf p = done ++ opt :: rest := by rw [hsplit, List.append_assoc, List.singleton_append]
    have hopt : opt < len := hlt opt (by rw [hsplit]; simp)
    rw [settles_append, settles_append, ih (opt :: rest) hsplit]
    rcases hw done opt rest hsplit with hn | hi
    · rw [settles_cons, settles_cons, (effect_agree h hn).1]
      rfl
    · exact (apply_idle hi (h opt hopt)).trans (apply_idle hi rfl).symm

/-! ## The copies -/

theorem length_itoa {v : Dword} (h : v.toNat ≤ 255) : (NetAddr.itoa v).length ≤ 3 :=
  (Nat.length_toDigits_le_iff (by decide) (by decide)).mpr (by omega)

theorem length_inetNtoa (ip : Dword) : (NetAddr.inetNtoa ip).length ≤ 15 := by
  have h24 : (ip >>> 24).toNat ≤ 255 := by
    rw [BitVec.toNat_ushiftRight, Nat.shiftRight_eq_div_pow]
    omega
  have ha := length_itoa h24
  have hb := length_itoa (v := (ip >>> 16) &&& 0xff) (by rw [NetAddr.and_255]; omega)
  have hc := length_itoa (v := (ip >>> 8) &&& 0xff) (by rw [NetAddr.and_255]; omega)
  have hd := length_itoa (v := ip &&& 0xff) (by rw [NetAddr.and_255]; omega)
  simp only [NetAddr.inetNtoa, List.length_append, List.length_cons]
  omega

/-- **Only the name of the host** is copied beyond its destination: by its NUL. -/
theorem copyFits_iff : CopyFits m opt ↔ (m opt = optHostName → optLen m opt < sizeofHostname) := by
  cases hk : kindAt m opt with
  | hostname n =>
    obtain ⟨hcode, rfl⟩ := kindAt_hostname hk
    simp only [CopyFits, copied, effect, hk, effectOf, Option.mem_some_iff, forall_eq', Mem.length_slice, hcode,
      forall_const]
    omega
  | text t n =>
    have hn := kindAt_text hk
    have hlen : (strLcpy m (opt + 2) n).length ≤ n :=
      (List.takeWhile_prefix _).length_le.trans_eq Mem.length_slice
    have hne : m opt ≠ optHostName := fun h => by rw [kindAt_hostName h] at hk; cases hk
    refine iff_of_true ?_ fun h => absurd h hne
    simp only [CopyFits, copied, effect, hk, effectOf, Option.mem_some_iff, forall_eq']
    cases t <;> simp only [Text.size] at hn ⊢ <;> omega
  | syslog =>
    have hne : m opt ≠ optHostName := fun h => by rw [kindAt_hostName h] at hk; cases hk
    have hlen := length_inetNtoa (intel m (opt + 2))
    refine iff_of_true ?_ fun h => absurd h hne
    simp only [CopyFits, copied, effect, hk, effectOf, Option.mem_some_iff, forall_eq', sizeofSyslogHostName]
    omega
  | _ =>
    have hne : m opt ≠ optHostName := fun h => by rw [kindAt_hostName h] at hk; cases hk
    refine iff_of_true ?_ fun h => absurd h hne
    simp [CopyFits, copied, effect, hk, effectOf]
    try (split_ifs <;> simp)

/-! ## Enough -/

theorem Confined.isolated (hx : Sound x) (h : Confined realloc p len x g) :
    Isolated qsort realloc p len x g := by
  have hlt : ∀ opt ∈ optionsOf p, opt < len := fun opt hopt => lt_of_mem_walk h.stays hopt
  refine ⟨settle qsort p g, fun m hm => ⟨fun stack => ?_, fun opt hopt => ?_⟩⟩
  · obtain ⟨fuel, x', hret⟩ : ∃ fuel x', configure qsort fuel ⟨realloc, stack⟩ m x g =
        some (.set x' (settle qsort m g)) := configure_stops hx (h.returns m stack hm)
    have hset : settle qsort m g = settle qsort p g := by
      rw [settle, settle, options_agree hm h.stays]
      exact settles_agree hm hlt h.within (optionsOf p) [] (List.append_nil _).symm
    exact ⟨fuel, x', hset ▸ hret⟩
  · rw [options_agree hm h.stays] at hopt
    rw [copyFits_iff]
    intro hcode
    have hcode : p opt = optHostName := (hm opt (hlt opt hopt)).symm.trans hcode
    -- the length is in the packet
    obtain ⟨done, rest, hsplit⟩ := List.append_of_mem hopt
    have hin : opt + need p opt ≤ len := by
      rcases h.within done opt rest hsplit with hn | ⟨hlog, -⟩ | ⟨hmsg, -⟩
      · exact hn
      · exact absurd (hcode.symm.trans hlog) (by decide)
      · exact absurd (hcode.symm.trans hmsg) (by decide)
    rw [need, kindAt_hostName hcode] at hin
    dsimp only at hin
    rw [optLen, hm (opt + 1) (by omega)]
    exact h.names opt hopt hcode

/-! ## Necessary -/

/-- A packet that sets the TTL. -/
def ttlPacket (r : ℕ → Byte) (q : ℕ) (v : Byte) : ℕ → Byte := Mem.put r q [optIpDefaultTtl, 1, v, optEnd]

section TtlPacket

variable {r : ℕ → Byte} {q k : ℕ}

theorem ttlPacket_of_lt (h : i < q) : ttlPacket r q v i = r i := Mem.put_of_lt h

theorem ttlPacket_code : ttlPacket r q v q = optIpDefaultTtl :=
  Mem.put_of_mem (d := q) (i := 0) (by simp)

theorem ttlPacket_len : ttlPacket r q v (q + 1) = 1 :=
  Mem.put_of_mem (d := q) (i := 1) (by simp)

theorem ttlPacket_value : ttlPacket r q v (q + 2) = v :=
  Mem.put_of_mem (d := q) (i := 2) (by simp)

theorem ttlPacket_end : ttlPacket r q v (q + 3) = optEnd :=
  Mem.put_of_mem (d := q) (i := 3) (by simp)

theorem walk_ttlPacket (hk : sizeofDhcp < q + k) (hq : q < sizeofDhcp) :
    Tlv.walk (ttlPacket r q v) optPad optEnd sizeofDhcp k q = [q] := by
  obtain ⟨k, rfl⟩ := Nat.exists_eq_add_one_of_ne_zero (show k ≠ 0 by omega)
  rw [Tlv.walk, if_neg (by omega), ttlPacket_code, if_neg (by decide), if_neg (by decide), ttlPacket_len]
  cases k with
  | zero => rfl
  | succ k =>
    rw [Tlv.walk, show q + (1 : Byte).toNat + 2 = q + 3 from rfl, ttlPacket_end]
    split_ifs <;> first | rfl | contradiction

theorem endsFrom_ttlPacket (hq : q + 3 < sizeofDhcp) : endsFrom (ttlPacket r q v) (n + 2) q = true := by
  rw [endsFrom, if_neg (by omega), ttlPacket_code, if_neg (by decide), if_neg (by decide), ttlPacket_len, endsFrom,
    show q + (1 : Byte).toNat + 2 = q + 3 from rfl, if_neg (by omega), ttlPacket_end, if_neg (by decide), if_pos rfl]

theorem effect_ttlPacket : effect (ttlPacket r q v) q = .ttl v := by
  rw [effect, kindAt_ttl ttlPacket_code, effectOf, ttlPacket_value]

theorem settles_ttlPacket :
    (settles qsort (ttlPacket r q v) (ps ++ [q]) g).defaultTtl = v := by
  rw [settles_append, settles_cons, effect_ttlPacket]
  rfl

theorem packet_zero (w : Outside) (m : ℕ → Byte) : packet w m 0 = m := rfl

/-- What is on the stack where `ext` is. -/
theorem ttlPacket_stack (bytes : ℕ → Byte) {fuel : ℕ} {w : Outside} {x' : Extra} {g' : Settings}
    (h : configure qsort fuel w (ttlPacket r dhOpt v) (.intact (some bytes) 0) g = some (.set x' g')) :
    g'.defaultTtl = v := by
  have hopts : optionsOf (ttlPacket r dhOpt v) = [dhOpt] := walk_ttlPacket (by decide) (by decide)
  have hareas : areas (ttlPacket r dhOpt v) = [] := by
    rw [areas, hopts, List.flatMap_singleton, areasAt, ttlPacket_code, if_neg (by decide)]
  have hends : ends (ttlPacket r dhOpt v) = true := endsFrom_ttlPacket (by decide)
  have hstops : Stops w (ttlPacket r dhOpt v) (some bytes) 0 := by
    refine .inl ⟨?_, .inl hends⟩
    rw [packet_zero, hareas]
    simp [Silent]
  rcases configure_cases (show Sound (.intact (some bytes) 0) from rfl) h with ⟨-, hg⟩ | ⟨hn, -⟩
  · rw [hg, settle, hopts, ← List.nil_append [dhOpt]]
    exact settles_ttlPacket
  · exact absurd hstops hn

end TtlPacket

/-- **No other packet**: `DHCP_offer` returns from the packet itself, since what is on the stack would set
the TTL. -/
theorem Isolated.settles (hx : Sound x) (h : Isolated qsort realloc p len x g) : ∃ g', ∀ m, Agree len p m →
    (∀ stack, StopsAt ⟨realloc, stack⟩ m x) ∧ settle qsort m g = g' ∧ ∀ opt ∈ optionsOf m, CopyFits m opt := by
  obtain ⟨g', h⟩ := h
  refine ⟨g', fun m hm => ?_⟩
  obtain ⟨hret, hfits⟩ := h m hm
  have hstack (stack stack' : ℕ → ℕ → Byte) (hs : StopsAt ⟨realloc, stack⟩ m x) : StopsAt ⟨realloc, stack'⟩ m x := by
    cases x <;> exact hs
  by_cases hs : StopsAt ⟨realloc, fun _ _ => 0⟩ m x
  · obtain ⟨fuel, x', hc⟩ := hret fun _ _ => 0
    rcases configure_cases hx hc with ⟨-, rfl⟩ | ⟨hn, -⟩
    · exact ⟨fun stack => hstack _ stack hs, rfl, hfits⟩
    · exact absurd hs hn
  · have httl (v : Byte) : g'.defaultTtl = v := by
      obtain ⟨fuel, x', hc⟩ := hret fun _ => ttlPacket (fun _ => 0) dhOpt v
      rcases configure_cases hx hc with ⟨hs', -⟩ | ⟨-, fuel, bytes, hc⟩
      · exact absurd (hstack _ _ hs') hs
      · exact ttlPacket_stack bytes hc
    exact absurd ((httl 0).symm.trans (httl 1)) (by decide)

theorem Isolated.stays (hx : Sound x) (h : Isolated qsort realloc p len x g) : stays p len = true := by
  obtain ⟨g', h⟩ := h.settles hx
  by_contra hs
  have hs : staysFrom p len sizeofDhcp dhOpt = false := Bool.eq_false_of_not_eq_true hs
  obtain ⟨r, q, hr, hlen, hq, hw⟩ := walk_leaves (by decide) hs
  have httl (v : Byte) : g'.defaultTtl = v := by
    have hm : Agree len p (ttlPacket r q v) := fun i hi =>
      (ttlPacket_of_lt (hi.trans_le hlen)).trans (hr i hi)
    obtain ⟨ps, k, hk, hps⟩ := hw (ttlPacket r q v) fun i hi => ttlPacket_of_lt hi
    rw [← (h _ hm).2.1, settle, optionsOf, hps, walk_ttlPacket hk hq]
    exact settles_ttlPacket
  exact absurd ((httl 0).symm.trans (httl 1)) (by decide)

/-! ## An option that is not in the packet -/

/-- The packet, with `b` everywhere behind it. -/
def fill (p : ℕ → Byte) (len : ℕ) (b : Byte) : ℕ → Byte := fun i => if i < len then p i else b

section Fill

variable {b b' : Byte} {a n' : ℕ}

theorem fill_of_lt (h : i < len) : fill p len b i = p i := if_pos h

theorem fill_of_ge (h : len ≤ i) : fill p len b i = b := if_neg h.not_gt

theorem fill_agree : Agree len p (fill p len b) := fun _ => fill_of_lt

theorem lt_need_agree (h : Agree len p m) (hn : len < opt + need p opt) : len < opt + need m opt := by
  by_contra hc
  have hsame := (effect_agree h.symm (not_lt.mp hc)).2
  omega

theorem setWidth_intel : (intel m a).setWidth 8 = m (a + 3) := BitVec.setWidth_append_eq_right

theorem intel_fill_ne (hb : b ≠ b') (h : len < a + 4) : intel (fill p len b) a ≠ intel (fill p len b') a := by
  intro heq
  have hlast := congrArg (BitVec.setWidth 8) heq
  rw [setWidth_intel, setWidth_intel, fill_of_ge (by omega), fill_of_ge (by omega)] at hlast
  exact hb hlast

theorem strLcpy_fill_ne (hb : b ≠ b') (h0 : b ≠ 0) (h0' : b' ≠ 0) : ∀ {a n n' : ℕ}, n = n' ∨ len ≤ a → 0 < n → 0 < n' →
    len < a + strRead (fill p len b) a n → strLcpy (fill p len b) a n ≠ strLcpy (fill p len b') a n'
  | _, 0, _, _, h, _, _ => absurd h (lt_irrefl 0)
  | _, _ + 1, 0, _, _, h, _ => absurd h (lt_irrefl 0)
  | a, n + 1, n' + 1, hor, _, _, hr => by
    rw [strLcpy_succ, strLcpy_succ]
    by_cases ha : len ≤ a
    · rw [fill_of_ge ha, fill_of_ge ha, if_neg h0, if_neg h0']
      exact fun heq => hb (List.cons.inj heq).1
    · have hnn : n = n' := Nat.succ.inj (hor.resolve_right ha)
      subst hnn
      rw [strRead, fill_of_lt (by omega)] at hr
      rw [fill_of_lt (by omega), fill_of_lt (by omega)]
      split_ifs at hr ⊢ with hz
      · omega
      · have hpos : 0 < n := Nat.pos_of_ne_zero fun hn => by rw [hn, strRead] at hr; omega
        have ih := strLcpy_fill_ne hb h0 h0' (a := a + 1) (.inl rfl) hpos hpos (by omega)
        exact fun heq => ih (List.cons.inj heq).2

/-- A kind without the length. -/
def Kind.sort : Kind → Kind
  | .text t _ => .text t 0
  | .hostname _ => .hostname 0
  | k => k

/-- A length of 4 and one of 8 are taken in the same way. -/
theorem sort_fill (h : opt < len) : (kindAt (fill p len 4) opt).sort = (kindAt (fill p len 8) opt).sort := by
  by_cases h' : opt + 1 < len
  · rw [kindAt_congr (p := fill p len 8) (by rw [fill_of_lt h, fill_of_lt h]) (by rw [fill_of_lt h', fill_of_lt h'])]
  · have h4 : optLen (fill p len 4) opt = 4 := by rw [optLen, fill_of_ge (by omega)]; rfl
    have h8 : optLen (fill p len 8) opt = 8 := by rw [optLen, fill_of_ge (by omega)]; rfl
    rw [kindAt, kindAt, h4, h8, fill_of_lt h, fill_of_lt h]
    generalize (fieldOf (p opt)).elim Kind.other Kind.field = k
    simp only [Text.size]
    split_ifs <;> rfl

theorem kindAt_fill_ne_other (h : opt < len) (hn : len < opt + need (fill p len 4) opt) :
    kindAt (fill p len 4) opt ≠ .other := by
  intro hk
  rw [need, hk] at hn
  dsimp only at hn
  split_ifs at hn with hcode
  · have h4 : optLen (fill p len 4) opt = 4 := by rw [optLen, fill_of_ge (by omega)]; rfl
    rcases hcode with hcode | hcode | hcode <;> rw [kindAt, hcode, h4] at hk <;> revert hk <;> decide
  · omega

/-! ### What is left in the end -/

theorem apply_field_of_ne {e : Effect} (h : ∀ v, e ≠ .field f v) : (g.apply qsort e).field f = g.field f := by
  cases e with
  | field f' v =>
    have hne : f ≠ f' := fun hf => h v (by rw [hf])
    simp only [Settings.apply, Function.update_of_ne hne]
  | syslog ip => simp only [Settings.apply]; split_ifs <;> rfl
  | _ => rfl

theorem effect_field (h : kindAt m opt = .field f) : effect m opt = .field f (intel m (opt + 2)) := by
  rw [effect, h, effectOf]

theorem effect_ne_field (h : kindAt m opt ≠ .field f) (v : Dword) : effect m opt ≠ .field f v := by
  rw [effect]
  cases hk : kindAt m opt with
  | field f' =>
    intro heq
    cases heq
    exact h hk
  | msgType => rw [effectOf]; split_ifs <;> exact Effect.noConfusion
  | _ => exact Effect.noConfusion

theorem settles_nil : settles qsort m [] g = g := rfl

/-- The byte of a name that is behind the packet. -/
theorem hostname_apply {k : ℕ} (hk : k < n) :
    (g.apply qsort (.hostname (Mem.slice m opt n))).hostname k = m (opt + k) := by
  have hlen : k < (Mem.slice m opt n ++ [0]).length := by simp; omega
  have hput := Mem.put_of_mem (m := g.hostname) (d := 0) hlen
  rw [Nat.zero_add, List.getElem_append_left (by simpa using hk)] at hput
  exact hput.trans (by simp [Mem.slice])

theorem kindAt_fill_field_iff (h : opt < len) :
    kindAt (fill p len 4) opt = .field f ↔ kindAt (fill p len 8) opt = .field f := by
  have hsort := sort_fill (p := p) h
  constructor <;> intro hk <;> rw [hk] at hsort
  · cases hk' : kindAt (fill p len 8) opt <;> rw [hk'] at hsort <;> cases hsort
    rfl
  · cases hk' : kindAt (fill p len 4) opt <;> rw [hk'] at hsort <;> cases hsort
    rfl

/-- A field that depends on what is behind the packet, and is set again by what is behind it only. -/
theorem field_settles_ne {g' : Settings} (h : ∀ j ∈ ps, j < len ∧ len < j + 6) (hne : g.field f ≠ g'.field f) :
    (settles qsort (fill p len 4) ps g).field f ≠ (settles qsort (fill p len 8) ps g').field f := by
  induction ps generalizing g g' with
  | nil => exact hne
  | cons j ps ih =>
    obtain ⟨⟨hlt, hj⟩, h⟩ := List.forall_mem_cons.mp h
    rw [settles_cons, settles_cons]
    apply ih h
    by_cases hk : kindAt (fill p len 4) j = .field f
    · rw [effect_field hk, effect_field ((kindAt_fill_field_iff hlt).mp hk)]
      simpa only [Settings.apply, Function.update_self] using intel_fill_ne (by decide) (by omega)
    · rwa [apply_field_of_ne (effect_ne_field hk),
        apply_field_of_ne (effect_ne_field ((kindAt_fill_field_iff hlt).not.mp hk))]

theorem syslog_settles (h : g.syslogHostName ≠ []) :
    (settles qsort m ps g).syslogHostName = g.syslogHostName := by
  induction ps generalizing g with
  | nil => rfl
  | cons j ps ih =>
    have hkeep : (g.apply qsort (effect m j)).syslogHostName = g.syslogHostName := by
      cases effect m j with
      | field f v => cases f <;> rfl
      | syslog ip => simp only [Settings.apply, if_neg h]
      | _ => rfl
    rw [settles_cons, ih (hkeep ▸ h), hkeep]

theorem inetNtoa_injective : Function.Injective NetAddr.inetNtoa := fun ip ip' h =>
  Option.some.inj ((NetAddr.aton_quad (NetAddr.quad_inetNtoa ip)).symm.trans
    ((congrArg NetAddr.aton h).trans (NetAddr.aton_quad (NetAddr.quad_inetNtoa ip'))))

/-- An option is before those that follow. -/
theorem options_gap (hsplit : optionsOf m = done ++ opt :: rest) :
    (∀ j ∈ done, j + (m (j + 1)).toNat + 2 ≤ opt) ∧ ∀ j ∈ rest, opt + (m (opt + 1)).toNat + 2 ≤ j := by
  have hwalk : (optionsOf m).Pairwise fun j k => j + (m (j + 1)).toNat + 2 ≤ k :=
    Tlv.walk_pairwise sizeofDhcp dhOpt
  rw [hsplit] at hwalk
  obtain ⟨-, hrest, hdone⟩ := List.pairwise_append.mp hwalk
  exact ⟨fun j hj => hdone j hj opt List.mem_cons_self, (List.pairwise_cons.mp hrest).1⟩

theorem done_agree (h : Agree len p m) (hsplit : optionsOf p = done ++ opt :: rest) (hopt : opt < len) :
    ∀ j ∈ done, kindAt m j = kindAt p j ∧ isOffer m j = isOffer p j := by
  intro j hj
  have hgap := (options_gap hsplit).1 j hj
  refine ⟨kindAt_congr (h _ (by omega)) (h _ (by omega)), ?_⟩
  rw [isOffer, isOffer, h j (by omega), h (j + 2) (by omega)]

/-- An option that reaches behind the packet is the last one. -/
theorem rest_nil (hs : stays p len = true) (hm : Agree len p m) (hsplit : optionsOf p = done ++ opt :: rest)
    (hlen : len ≤ opt + optLen m opt + 2) : rest = [] := by
  have hgap := (options_gap ((options_agree hm hs).trans hsplit)).2
  rw [List.eq_nil_iff_forall_not_mem]
  intro j hj
  have hlt : j < len := lt_of_mem_walk hs (show j ∈ optionsOf p by
    rw [hsplit]
    exact List.mem_append_right _ (List.mem_cons_of_mem _ hj))
  have := hgap j hj
  rw [optLen] at hlen
  omega

section Reaches

variable (hs : stays p len = true) (hsplit : optionsOf p = done ++ opt :: rest)
include hs hsplit

theorem lt_of_split : opt < len := lt_of_mem_walk hs (show opt ∈ optionsOf p by rw [hsplit]; simp)

theorem settle_fill (b : Byte) : settle qsort (fill p len b) g = settles qsort (fill p len b) rest
    ((settles qsort (fill p len b) done g).apply qsort (effect (fill p len b) opt)) := by
  rw [settle, options_agree fill_agree hs, hsplit, settles_append, settles_cons]

/-- The last option alone decides. -/
theorem settle_fill_last {k : Kind} (hrest : rest = []) (hk : kindAt (fill p len b) opt = k) :
    settle qsort (fill p len b) g =
      (settles qsort (fill p len b) done g).apply qsort (effectOf (fill p len b) opt k) := by
  rw [settle_fill hs hsplit, hrest, settles_nil, effect, hk]

theorem field_fill_ne (hk : kindAt (fill p len 4) opt = .field f) (hn : len < opt + 6) :
    settle qsort (fill p len 4) g ≠ settle qsort (fill p len 8) g := by
  have hopt := lt_of_split hs hsplit
  intro heq
  rw [settle_fill hs hsplit, settle_fill hs hsplit, effect_field hk,
    effect_field ((kindAt_fill_field_iff hopt).mp hk)] at heq
  refine field_settles_ne (fun j hj => ?_) ?_ (congrFun (congrArg Settings.field heq) f)
  · have hgap := (options_gap hsplit).2 j hj
    exact ⟨lt_of_mem_walk hs (show j ∈ optionsOf p by rw [hsplit]; simp [hj]), by omega⟩
  · simpa only [Settings.apply, Function.update_self] using intel_fill_ne (by decide) (by omega)

theorem syslog_fill_ne (hk : kindAt (fill p len 4) opt = .syslog) (hk8 : kindAt (fill p len 8) opt = .syslog)
    (hn : len < opt + 6) (hi : ¬Idle p g done opt) :
    settle qsort (fill p len 4) g ≠ settle qsort (fill p len 8) g := by
  have hopt := lt_of_split hs hsplit
  have hcode : p opt = optLogSrv := (fill_of_lt hopt).symm.trans (kindAt_syslog hk)
  -- it is the first one
  have hfirst (b : Byte) : (settles qsort (fill p len b) done g).syslogHostName = [] := by
    by_contra hne
    refine hi (.inl ⟨hcode, ?_⟩)
    rcases settles_syslog.mp hne with hg | ⟨j, hj, hkj⟩
    · exact .inl hg
    · exact .inr ⟨j, hj, (done_agree fill_agree hsplit hopt j hj).1.symm.trans hkj⟩
  have hset (b : Byte) (hkb : kindAt (fill p len b) opt = .syslog) :
      (settle qsort (fill p len b) g).syslogHostName = NetAddr.inetNtoa (intel (fill p len b) (opt + 2)) := by
    rw [settle_fill hs hsplit, effect, hkb, effectOf, Settings.apply, if_pos (hfirst b),
      syslog_settles (inetNtoa_ne_nil _)]
  have hne : intel (fill p len 4) (opt + 2) ≠ intel (fill p len 8) (opt + 2) :=
    intel_fill_ne (by decide) (by omega)
  refine fun heq => hne (inetNtoa_injective ?_)
  rw [← hset 4 hk, ← hset 8 hk8, heq]

/-- The lengths that are read. -/
theorem optLen_fill : opt + 1 < len ∧ optLen (fill p len 4) opt = optLen (fill p len 8) opt ∨
    len = opt + 1 ∧ optLen (fill p len 4) opt = 4 ∧ optLen (fill p len 8) opt = 8 := by
  have hopt := lt_of_split hs hsplit
  by_cases hin : opt + 1 < len
  · exact .inl ⟨hin, by rw [optLen, optLen, fill_of_lt hin, fill_of_lt hin]⟩
  · refine .inr ⟨by omega, ?_, ?_⟩ <;> rw [optLen, fill_of_ge (by omega)] <;> rfl

theorem text_fill_ne (hk : kindAt (fill p len 4) opt = .text t n) (hk8 : kindAt (fill p len 8) opt = .text t n')
    (hn : len < opt + (strRead (fill p len 4) (opt + 2) n + 2)) :
    settle qsort (fill p len 4) g ≠ settle qsort (fill p len 8) g := by
  have hlen := kindAt_text hk
  have hlen8 := kindAt_text hk8
  have hread := strRead_le (m := fill p len 4) (opt + 2) n
  have hsize : 1 < t.size := by cases t <;> decide
  have hrest := rest_nil hs (fill_agree (b := 4)) hsplit (by omega)
  have htext : strLcpy (fill p len 4) (opt + 2) n ≠ strLcpy (fill p len 8) (opt + 2) n' := by
    apply strLcpy_fill_ne (by decide) (by decide) (by decide)
    all_goals rcases optLen_fill hs hsplit with ⟨hin, heq⟩ | ⟨hout, h4, h8⟩ <;> omega
  intro heq
  rw [settle_fill_last hs hsplit hrest hk, settle_fill_last hs hsplit hrest hk8] at heq
  apply htext
  simpa [effectOf, Settings.apply] using congrFun (congrArg Settings.text heq) t

theorem hostname_fill_ne (hk : kindAt (fill p len 4) opt = .hostname n)
    (hk8 : kindAt (fill p len 8) opt = .hostname n') (hn : len < opt + (n + 2)) (hn' : len < opt + (n' + 2)) :
    settle qsort (fill p len 4) g ≠ settle qsort (fill p len 8) g := by
  have hlen := (kindAt_hostname hk).2
  have hlen8 := (kindAt_hostname hk8).2
  have hsize : 0 < sizeofHostname := by decide
  have hrest := rest_nil hs (fill_agree (b := 4)) hsplit (by omega)
  intro heq
  rw [settle_fill_last hs hsplit hrest hk, settle_fill_last hs hsplit hrest hk8] at heq
  have hbyte := congrFun (congrArg Settings.hostname heq) (len - (opt + 2))
  have hpos : 0 < n ∧ 0 < n' := by
    rcases optLen_fill hs hsplit with ⟨hin, heq⟩ | ⟨hout, h4, h8⟩ <;> omega
  rw [effectOf, effectOf, hostname_apply (by omega), hostname_apply (by omega), fill_of_ge (by omega),
    fill_of_ge (by omega)] at hbyte
  exact absurd hbyte (by decide)

theorem ttl_fill_ne (hk : kindAt (fill p len 4) opt = .ttl) (hk8 : kindAt (fill p len 8) opt = .ttl)
    (hn : len < opt + 3) : settle qsort (fill p len 4) g ≠ settle qsort (fill p len 8) g := by
  have hrest := rest_nil hs (fill_agree (b := 4)) hsplit (by omega)
  intro heq
  rw [settle_fill_last hs hsplit hrest hk, settle_fill_last hs hsplit hrest hk8, effectOf, effectOf,
    fill_of_ge (by omega), fill_of_ge (by omega)] at heq
  exact absurd (congrArg Settings.defaultTtl heq) (by simp [Settings.apply])

theorem msgType_fill_ne (hcode : p opt = optMsgType) (hn : len < opt + 3) (hi : ¬Idle p g done opt) :
    settle qsort (fill p len msgOffer) g ≠ settle qsort (fill p len 4) g := by
  have hopt := lt_of_split hs hsplit
  have hrest := rest_nil hs (fill_agree (b := 4)) hsplit (by omega)
  have hfirst (b : Byte) : (settles qsort (fill p len b) done g).gotOffer = false := by
    by_contra hne
    refine hi (.inr ⟨hcode, ?_⟩)
    rcases settles_gotOffer.mp (Bool.eq_true_of_not_eq_false hne) with hg | ⟨j, hj, hoffer⟩
    · exact .inl hg
    · exact .inr ⟨j, hj, (done_agree fill_agree hsplit hopt j hj).2.symm.trans hoffer⟩
  have hgot (b : Byte) : (settle qsort (fill p len b) g).gotOffer = decide (b = msgOffer) := by
    rw [settle_fill_last hs hsplit hrest (kindAt_msgType_iff.mpr ((fill_of_lt hopt).trans hcode)), effectOf,
      fill_of_ge (by omega)]
    by_cases hb : b = msgOffer
    · simp [hb, Settings.apply]
    · simpa [hb, Settings.apply] using hfirst b
  intro heq
  refine absurd (congrArg Settings.gotOffer heq) ?_
  rw [hgot, hgot]
  decide

/-- **An option that matters and is not in the packet**: two different fills set different things. -/
theorem settle_fill_ne (hn : len < opt + need p opt) (hi : ¬Idle p g done opt) :
    ∃ b b', settle qsort (fill p len b) g ≠ settle qsort (fill p len b') g := by
  have hopt := lt_of_split hs hsplit
  have hn4 := lt_need_agree (m := fill p len 4) fill_agree hn
  have hn8 := lt_need_agree (m := fill p len 8) fill_agree hn
  have hsort := sort_fill (p := p) hopt
  have hother := kindAt_fill_ne_other hopt hn4
  rw [need] at hn4 hn8
  cases hk : kindAt (fill p len 4) opt with
  | other => exact absurd hk hother
  | msgType =>
    rw [hk] at hn4
    exact ⟨msgOffer, 4, msgType_fill_ne hs hsplit ((fill_of_lt hopt).symm.trans (kindAt_msgType_iff.mp hk)) hn4 hi⟩
  | _ =>
    rw [hk] at hsort hn4
    cases hk8 : kindAt (fill p len 8) opt <;> rw [hk8] at hsort hn8 <;> cases hsort
    first
    | exact ⟨4, 8, field_fill_ne hs hsplit hk hn4⟩
    | exact ⟨4, 8, text_fill_ne hs hsplit hk hk8 hn4⟩
    | exact ⟨4, 8, hostname_fill_ne hs hsplit hk hk8 hn4 hn8⟩
    | exact ⟨4, 8, syslog_fill_ne hs hsplit hk hk8 hn4 hi⟩
    | exact ⟨4, 8, ttl_fill_ne hs hsplit hk hk8 hn4⟩

end Reaches

end Fill

/-! ## The law -/

theorem Isolated.confined (hx : Sound x) (h : Isolated qsort realloc p len x g) : Confined realloc p len x g := by
  have hstays := h.stays hx
  obtain ⟨g', h⟩ := h.settles hx
  refine ⟨hstays, fun done opt rest hsplit => ?_, fun m stack hm => (h m hm).1 stack, fun opt hopt hcode => ?_⟩
  · by_contra hc
    obtain ⟨hn, hi⟩ := not_or.mp hc
    obtain ⟨b, b', hne⟩ : ∃ b b', settle qsort (fill p len b) g ≠ settle qsort (fill p len b') g :=
      settle_fill_ne hstays hsplit (not_le.mp hn) hi
    exact hne ((h _ fill_agree).2.1.trans (h _ fill_agree).2.1.symm)
  · exact copyFits_iff.mp ((h p fun _ _ => rfl).2.2 opt hopt) hcode

/-- **What is behind a packet** does not matter exactly when the packet is confined: its options end in it,
what matters of each is in it, and each name of a host leaves room for the NUL. -/
theorem isolated_iff (qsort : (Arp.GateEntry → Arp.GateEntry → ℤ) → List Arp.GateEntry → List Arp.GateEntry)
    (realloc : ℕ → ℕ → Option (ℕ → Byte)) (p : ℕ → Byte) (len : ℕ) (x : Extra) (g : Settings) (hx : Reached x) :
    Isolated qsort realloc p len x g ↔ Confined realloc p len x g :=
  ⟨fun h => h.confined hx.sound, fun h => h.isolated hx.sound⟩

/-- Before the first packet. -/
def freshSettings : Settings :=
  ⟨fun _ => 0, fun _ => [], fun _ => 0, [], 64, false, [], false, [], false⟩

/-- An offer whose options end. -/
def offerPacket : ℕ → Byte := Mem.put (fun _ => 0) dhOpt [optMsgType, 1, msgOffer, optEnd]

/-- An offer without `DHCP_OPT_END`, padded to the length that is asked for. -/
def unendedPacket : ℕ → Byte := Mem.put (fun _ => 0) dhOpt [optMsgType, 1, msgOffer]

theorem isolated_offer : Isolated (fun _ => id) (fun _ _ => none) offerPacket 280 (.intact none 0) freshSettings := by
  have hopts : optionsOf offerPacket = [dhOpt] := by decide +kernel
  have hneed : need offerPacket dhOpt = 3 := by decide +kernel
  refine (isolated_iff _ _ _ _ _ _ .start).mpr ⟨by decide +kernel, fun done opt rest hsplit => .inl ?_,
    fun m stack _ => .inl ⟨fun _ _ => .inl rfl, .inr ?_⟩, fun opt hopt hcode => ?_⟩
  · have hopt : opt ∈ [dhOpt] := by rw [← hopts, hsplit]; simp
    rw [List.mem_singleton.mp hopt, hneed]
    decide
  · rw [held_zero]
    unfold blockAfter
    split_ifs <;> simp
  · rw [hopts] at hopt
    rw [List.mem_singleton.mp hopt] at hcode
    exact absurd hcode (by decide +kernel)

/-- Its padding is followed by the bytes of an earlier packet. -/
theorem unended_packet_leaks : ¬Isolated (fun _ => id) (fun _ _ => none) unendedPacket 280 (.intact none 0) freshSettings :=
  fun h => absurd (h.stays Reached.start.sound) (by decide +kernel)

end Watt32.Dhcp
