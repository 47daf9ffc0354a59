import Watt32.Hosts.Cache
import Watt32.Lib.Run

/-!
# Lifetimes in the host cache

What a call returns without asking comes from the hosts file, from the host itself, or from an
answer within its lifetime. Answers to names and to addresses share the list, so it need not be an
answer to the same query.

* `Source`: where a result comes from; `Within`, `Latest`: what is asked of an answer.
* `CacheInv`: the list is the cache before the hosts file, and a query that no other query's answers
  reach has one entry at most, with its latest answer.
* **`cache_within`**: the law for every sequence of calls.
-/

namespace Watt32.Hosts

open Machine

/-- The entry matches the query. -/
def Hostent.gives (h : Hostent) : Query → Bool
  | .name name => h.hasName name
  | .addr addr => h.hasAddr addr

/-- What a search makes of the entry. -/
def Hostent.answerTo (h : Hostent) : Query → Option Hostent
  | .name _ => h.forName
  | .addr _ => h.forAddr

/-- The same query; names are compared without case. -/
def sameQuery : Query → Query → Bool
  | .name a, .name b => sameName a b
  | .addr a, .addr b => a = b
  | _, _ => false

/-- The latest answer to a query. -/
def latest (answers : List Answer) (q : Query) : Option Answer :=
  answers.reverse.find? fun a => sameQuery a.query q

/-- Where a result comes from that was not asked for; `ok` is what is asked of an answer. -/
inductive Source (cfg : Config) (s : Netdb) (q : Query) (e : Call) (ok : Answer → Prop)
    (host : Option Hostent) : Prop
  /-- The name is numeric. -/
  | numeric (name : Name) (addr : Dword) : q = .name name → cfg.inetAton name = some addr →
      host = some { name := name, addresses := [addr] } → Source cfg s q e ok host
  /-- The name or the address is the host's own. -/
  | own (name : Name) : (cfg.hostname = name ∨ cfg.gethostname = some name) →
      (∀ n, q = .name n → sameName n name = true) →
      (∀ a, q = .addr a → a = inaddrAny ∨ a = cfg.gethostid) →
      host = some (cfg.own name) → Source cfg s q e ok host
  /-- The address is a broadcast address. -/
  | broadcast (addr : Dword) : q = .addr addr → cfg.broadcast addr = true →
      host = some { name := "broadcast".toList, addresses := [addr] } → Source cfg s q e ok host
  /-- The search was not made, or `resolve` made it. -/
  | refused : (e.init = false ∨ e.calledFromResolve = true) → host = none → Source cfg s q e ok host
  /-- It is in the hosts file. -/
  | hosts (h : Hostent) : h ∈ readHostsFile cfg.hosts → h.gives q = true → host = h.answerTo q →
      Source cfg s q e ok host
  /-- It is in the cache. -/
  | cached (a : Answer) : a ∈ s.answers → (a.entry cfg).gives q = true → ok a →
      host = (a.entry cfg).answerTo q → Source cfg s q e ok host

/-- The query's entries come from its own answers, and none of these passed the list by. -/
def Separate (cfg : Config) (s : Netdb) (q : Query) : Prop :=
  ∀ a ∈ s.answers, (a.entry cfg).gives q = true → sameQuery a.query q = true ∧ a.forced = false

/-- The answer is within its lifetime if that is not 0, and is the latest one to this query if no
other query's answers reach it. -/
def Within (cfg : Config) (s : Netdb) (q : Query) (e : Call) (a : Answer) : Prop :=
  (a.lifetime cfg ≠ 0 → e.now ≤ a.time + a.lifetime cfg) ∧
    (Separate cfg s q → latest s.answers q = some a)

/-- The answer is the latest one to this query, and within its lifetime. -/
def Latest (cfg : Config) (s : Netdb) (q : Query) (e : Call) (a : Answer) : Prop :=
  latest s.answers q = some a ∧ e.now ≤ a.time + a.lifetime cfg

/-- What a call returns without asking has a source. -/
def Honours (ok : Config → Netdb → Query → Call → Answer → Prop) (cfg : Config) (s : Netdb)
    (c : Query × Call) : Prop :=
  (lookup cfg s c.1 c.2).2.didLookup = false →
    Source cfg s c.1 c.2 (ok cfg s c.1 c.2) (lookup cfg s c.1 c.2).2.host

/-! ## Queries -/

section Queries

variable {q q' : Query} {answers : List Answer} {a : Answer}

theorem sameName_refl (n : Name) : sameName n n = true := by simp [sameName]

theorem sameQuery_refl (q : Query) : sameQuery q q = true := by
  cases q with
  | name n => exact sameName_refl n
  | addr a => simp [sameQuery]

/-- The same query has the same entries. -/
theorem gives_congr (h : Hostent) (hq : sameQuery q q' = true) : h.gives q = h.gives q' := by
  cases q with
  | name n =>
    cases q' with
    | name n' =>
      have hlower : n.map Char.toLower = n'.map Char.toLower := of_decide_eq_true hq
      have hname : ∀ m, sameName m n = sameName m n' ∧ sameName n m = sameName n' m := by
        intro m
        unfold sameName
        rw [hlower]
        exact ⟨rfl, rfl⟩
      have hfun : sameName n = sameName n' := funext fun m => (hname m).2
      show (sameName h.name n || _) = (sameName h.name n' || _)
      rw [(hname h.name).1, hfun]
    | addr a => exact absurd hq Bool.false_ne_true
  | addr a =>
    cases q' with
    | name n => exact absurd hq Bool.false_ne_true
    | addr a' =>
      obtain rfl : a = a' := of_decide_eq_true hq
      rfl

theorem latest_append : latest (answers ++ [a]) q =
    if sameQuery a.query q = true then some a else latest answers q := by
  unfold latest
  rw [List.reverse_append, List.reverse_singleton, List.singleton_append, List.find?_cons]
  cases sameQuery a.query q <;> rfl

theorem latest_mem (h : latest answers q = some a) : a ∈ answers :=
  List.mem_reverse.mp (List.mem_of_find?_eq_some h)

end Queries

/-! ## The list -/

/-- The list is the cache before the hosts file. -/
structure CacheInv (cfg : Config) (s : Netdb) (cache : List Hostent) : Prop where
  list : s.host0 = cache ++ readHostsFile cfg.hosts
  stored : ∀ h ∈ cache, ∃ a ∈ s.answers, h = a.entry cfg
  single : ∀ q, Separate cfg s q → ∀ (i j : ℕ) (h h' : Hostent), cache[i]? = some h →
    cache[j]? = some h' → h.gives q = true → h'.gives q = true → i = j
  newest : ∀ q, Separate cfg s q → ∀ h ∈ cache, h.gives q = true →
    ∃ a, latest s.answers q = some a ∧ h = a.entry cfg

section Inv

variable {cfg : Config} {s : Netdb} {cache : List Hostent} {a : Answer} {q : Query} {h : Hostent}
  {i : ℕ}

theorem readHostsFile_timeout (lines : List HostsLine) : ∀ h ∈ readHostsFile lines, h.timeout = 0 := by
  have hfold : ∀ (lines : List HostsLine) (host0 : List Hostent), (∀ h ∈ host0, h.timeout = 0) →
      ∀ h ∈ lines.foldl (fun host0 line => line.entry :: host0) host0, h.timeout = 0 := by
    intro lines
    induction lines with
    | nil => exact fun _ hz => hz
    | cons line lines ih =>
      intro host0 hz
      refine ih _ fun h hm => ?_
      rcases List.mem_cons.mp hm with rfl | hm
      · rfl
      · exact hz h hm
  exact hfold lines [] fun h hm => absurd hm List.not_mem_nil

/-- What an entry says of its answer's time. -/
theorem entry_within {now : ℕ} (hexp : (a.entry cfg).expired now = false)
    (hlife : a.lifetime cfg ≠ 0) : now ≤ a.time + a.lifetime cfg := by
  have htimeout : (a.entry cfg).timeout = a.time + a.lifetime cfg := if_pos hlife
  have hnot := of_decide_eq_false hexp
  rw [htimeout] at hnot
  omega

theorem CacheInv.start : CacheInv cfg (Netdb.start cfg) [] :=
  ⟨rfl, by simp, by simp, by simp⟩

/-- An unexpired entry that a search finds has a source. -/
theorem CacheInv.source (hinv : CacheInv cfg s cache) {e : Call} (hi : s.host0[i]? = some h)
    (hg : h.gives q = true) (hexp : h.expired e.now = false) :
    Source cfg s q e (Within cfg s q e) (h.answerTo q) := by
  have hmem := List.mem_of_getElem? hi
  rw [hinv.list] at hmem
  rcases List.mem_append.mp hmem with hmem | hmem
  · by_cases hsep : Separate cfg s q
    · obtain ⟨a, ha, rfl⟩ := hinv.newest q hsep h hmem hg
      exact .cached a (latest_mem ha) hg ⟨entry_within hexp, fun _ => ha⟩ rfl
    · obtain ⟨a, ha, rfl⟩ := hinv.stored h hmem
      exact .cached a ha hg ⟨entry_within hexp, fun hs => absurd hs hsep⟩ rfl
  · exact .hosts h hmem hg rfl

/-- The answers to one query only, after one more of them. -/
theorem Separate.of_append {host0 : List Hostent}
    (h : Separate cfg { host0 := host0, answers := s.answers ++ [a] } q) :
    Separate cfg s q ∧ ((a.entry cfg).gives q = true → sameQuery a.query q = true ∧ a.forced = false) :=
  ⟨fun b hb => h b (List.mem_append_left _ hb),
    h a (List.mem_append_right _ (List.mem_singleton_self a))⟩

/-- An answer goes to the expired entry that the search has found. -/
theorem CacheInv.recycle (hinv : CacheInv cfg s cache) (hi : s.host0[i]? = some h)
    (hg : h.gives a.query = true) (ht : h.timeout ≠ 0) :
    CacheInv cfg { host0 := s.host0.set i (a.entry cfg), answers := s.answers ++ [a] }
      (cache.set i (a.entry cfg)) := by
  -- it is none of the hosts file
  have hlt : i < cache.length := by
    by_contra hnot
    rw [hinv.list, List.getElem?_append_right (not_lt.mp hnot)] at hi
    exact ht (readHostsFile_timeout _ h (List.mem_of_getElem? hi))
  have hold : cache[i]? = some h := by
    rwa [hinv.list, List.getElem?_append_left hlt] at hi
  have hself : (cache.set i (a.entry cfg))[i]? = some (a.entry cfg) := List.getElem?_set_self hlt
  -- no other entry has the query of the answer
  have hother : ∀ q, Separate cfg s q → sameQuery a.query q = true → ∀ (j : ℕ) (h' : Hostent),
      cache[j]? = some h' → h'.gives q = true → i = j := by
    intro q hsep hq j h' hj hg'
    exact hinv.single q hsep i j h h' hold hj (gives_congr h hq ▸ hg) hg'
  refine ⟨?_, fun h' hm => ?_, fun q hnew j k h₁ h₂ hj hk hg₁ hg₂ => ?_, fun q hnew h' hm hg' => ?_⟩
  · show s.host0.set i (a.entry cfg) = _
    rw [hinv.list, List.set_append_left _ _ hlt]
  · rcases List.mem_or_eq_of_mem_set hm with hm | rfl
    · obtain ⟨b, hb, rfl⟩ := hinv.stored h' hm
      exact ⟨b, List.mem_append_left _ hb, rfl⟩
    · exact ⟨a, List.mem_append_right _ (List.mem_singleton_self a), rfl⟩
  · obtain ⟨hsep, hsame⟩ := hnew.of_append
    by_cases hji : j = i
    · subst hji
      rw [hself] at hj
      cases hj
      by_contra hjk
      rw [List.getElem?_set_ne hjk] at hk
      exact hjk (hother q hsep (hsame hg₁).1 k h₂ hk hg₂)
    · rw [List.getElem?_set_ne (Ne.symm hji)] at hj
      by_cases hki : k = i
      · subst hki
        rw [hself] at hk
        cases hk
        exact (hother q hsep (hsame hg₂).1 j h₁ hj hg₁).symm
      · rw [List.getElem?_set_ne (Ne.symm hki)] at hk
        exact hinv.single q hsep j k h₁ h₂ hj hk hg₁ hg₂
  · obtain ⟨hsep, hsame⟩ := hnew.of_append
    obtain ⟨j, hj⟩ := List.mem_iff_getElem?.mp hm
    by_cases hq : sameQuery a.query q = true
    · refine ⟨a, by rw [latest_append, if_pos hq], ?_⟩
      by_cases hji : j = i
      · subst hji
        rw [hself] at hj
        exact (Option.some.inj hj).symm
      · rw [List.getElem?_set_ne (Ne.symm hji)] at hj
        exact absurd (hother q hsep hq j h' hj hg').symm hji
    · have hji : j ≠ i := by
        rintro rfl
        rw [hself] at hj
        cases hj
        exact hq (hsame hg').1
      rw [List.getElem?_set_ne (Ne.symm hji)] at hj
      rw [latest_append, if_neg hq]
      exact hinv.newest q hsep h' (List.mem_of_getElem? hj) hg'

/-- An answer goes to a new entry. -/
theorem CacheInv.push (hinv : CacheInv cfg s cache)
    (hnone : a.forced = true ∨ ∀ h ∈ s.host0, h.gives a.query = false)
    (hgives : (a.entry cfg).gives a.query = true) :
    CacheInv cfg { host0 := a.entry cfg :: s.host0, answers := s.answers ++ [a] }
      (a.entry cfg :: cache) := by
  -- what is not forced has no entry yet
  have hother : ∀ q, sameQuery a.query q = true → a.forced = false → ∀ h ∈ cache,
      h.gives q = false := by
    intro q hq hf h hm
    rcases hnone with hforced | hnone
    · rw [hforced] at hf
      cases hf
    · rw [← gives_congr h hq]
      exact hnone h (by rw [hinv.list]; exact List.mem_append_left _ hm)
  have hnoother : ∀ q, sameQuery a.query q = true ∧ a.forced = false → ∀ (j : ℕ) (h : Hostent),
      cache[j]? = some h → ¬ h.gives q = true := by
    intro q hq j h hj hg
    rw [hother q hq.1 hq.2 h (List.mem_of_getElem? hj)] at hg
    cases hg
  refine ⟨?_, fun h hm => ?_, fun q hsep j k h₁ h₂ hj hk hg₁ hg₂ => ?_, fun q hsep h hm hg => ?_⟩
  · show _ :: s.host0 = _
    rw [hinv.list, List.cons_append]
  · rcases List.mem_cons.mp hm with rfl | hm
    · exact ⟨a, List.mem_append_right _ (List.mem_singleton_self a), rfl⟩
    · obtain ⟨b, hb, rfl⟩ := hinv.stored h hm
      exact ⟨b, List.mem_append_left _ hb, rfl⟩
  · obtain ⟨hsep, hsame⟩ := hsep.of_append
    cases j with
    | zero =>
      cases hj
      cases k with
      | zero => rfl
      | succ k => exact absurd hg₂ (hnoother q (hsame hg₁) k h₂ hk)
    | succ j =>
      cases k with
      | zero =>
        cases hk
        exact absurd hg₁ (hnoother q (hsame hg₂) j h₁ hj)
      | succ k => rw [hinv.single q hsep j k h₁ h₂ hj hk hg₁ hg₂]
  · have hforced : ∀ q, Separate cfg { host0 := s.host0, answers := s.answers ++ [a] } q →
        sameQuery a.query q = true → a.forced = false := by
      intro q hsep hq
      exact (hsep.of_append.2 (gives_congr _ hq ▸ hgives)).2
    have hf := hforced q hsep
    obtain ⟨hsep, hsame⟩ := hsep.of_append
    rcases List.mem_cons.mp hm with rfl | hm
    · exact ⟨a, by rw [latest_append, if_pos (hsame hg).1], rfl⟩
    · by_cases hq : sameQuery a.query q = true
      · rw [hother q hq (hf hq) h hm] at hg
        cases hg
      · rw [latest_append, if_neg hq]
        exact hinv.newest q hsep h hm hg

/-- There is no memory for an answer. -/
theorem CacheInv.drop (hinv : CacheInv cfg s cache)
    (hnone : a.forced = true ∨ ∀ h ∈ s.host0, h.gives a.query = false)
    (hgives : (a.entry cfg).gives a.query = true) :
    CacheInv cfg { host0 := s.host0, answers := s.answers ++ [a] } cache := by
  have hpush := hinv.push hnone hgives
  have hlift : ∀ q, Separate cfg { host0 := s.host0, answers := s.answers ++ [a] } q →
      Separate cfg { host0 := a.entry cfg :: s.host0, answers := s.answers ++ [a] } q :=
    fun _ hsep => hsep
  refine ⟨hinv.list, fun h hm => hpush.stored h (List.mem_cons_of_mem _ hm), ?_, ?_⟩
  · exact fun q hsep => hinv.single q hsep.of_append.1
  · exact fun q hsep h hm hg => hpush.newest q (hlift q hsep) h (List.mem_cons_of_mem _ hm) hg

end Inv

/-! ## The calls -/

section Calls

variable {cfg : Config} {s : Netdb} {cache : List Hostent} {e : Call} {q : Query} {h : Hostent}
  {r : Netdb × Ret} {i : ℕ}

/-- What the search has left for `add_hostent`: the expired entry, or that there is none. -/
def Left (s : Netdb) (q : Query) (forced : Bool) : Option ℕ → Prop
  | some i => ∃ h, s.host0[i]? = some h ∧ h.gives q = true ∧ h.timeout ≠ 0
  | none => forced = true ∨ ∀ h ∈ s.host0, h.gives q = false

/-- A call keeps the cache, and what it returns without asking has a source. -/
def Sound (cfg : Config) (s : Netdb) (q : Query) (e : Call) (r : Netdb × Ret) : Prop :=
  (∃ cache, CacheInv cfg r.1 cache) ∧
    (r.2.didLookup = false → Source cfg s q e (Within cfg s q e) r.2.host)

/-- A call that adds nothing. -/
theorem Sound.same (hinv : CacheInv cfg s cache) {ret : Ret}
    (hsource : ret.didLookup = false → Source cfg s q e (Within cfg s q e) ret.host) :
    Sound cfg s q e (s, ret) :=
  ⟨⟨cache, hinv⟩, hsource⟩

/-- A call that adds an answer. -/
theorem Sound.add (hinv : CacheInv cfg s cache) {a : Answer} {found : Option ℕ} {memory : Bool}
    (hleft : Left s a.query a.forced found) (hgives : (a.entry cfg).gives a.query = true)
    {host : Option Hostent} :
    Sound cfg s q e ((addHostent cfg s found memory a).1, { host := host, didLookup := true }) := by
  refine ⟨?_, fun hlook => absurd hlook.symm Bool.false_ne_true⟩
  cases found with
  | some i =>
    obtain ⟨h, hi, hg, ht⟩ := hleft
    exact ⟨_, hinv.recycle hi hg ht⟩
  | none =>
    cases memory with
    | true => exact ⟨_, hinv.push hleft hgives⟩
    | false => exact ⟨_, hinv.drop hleft hgives⟩

/-- The search by the query has found an expired entry. -/
theorem left_some (hs : s.search (·.gives q) = some (i, h)) (hexp : h.expired e.now = true) :
    Left s q false (some i) := by
  obtain ⟨hi, hg⟩ := search_some hs
  exact ⟨h, hi, hg, (of_decide_eq_true hexp).1⟩

/-- It has found none. -/
theorem left_none (hs : s.search (·.gives q) = none) : Left s q false none :=
  .inr (search_none hs)

theorem resolveName_sound (hinv : CacheInv cfg s cache) {name : Name} {found : Option ℕ}
    (hleft : Left s (.name name) false found) :
    Sound cfg s (.name name) e (resolveName cfg s e name found) := by
  unfold resolveName
  by_cases hc : e.calledFromResolve = true
  · rw [if_pos hc]
    exact .same hinv fun _ => .refused (.inr hc) rfl
  rw [if_neg hc]
  by_cases hx : e.interrupted = true
  · rw [if_pos hx]
    exact .same hinv fun hlook => absurd hlook.symm Bool.false_ne_true
  rw [if_neg hx]
  by_cases hip : e.ip ≠ 0
  · rw [if_pos hip]
    refine .add hinv hleft ?_
    -- the name is the entry's, or its alias
    by_cases hcname : e.cname = []
    · simp [Answer.entry, Hostent.gives, Hostent.hasName, hcname, sameName_refl]
    · simp [Answer.entry, Hostent.gives, Hostent.hasName, hcname, sameName_refl, maxHostAliases]
  · rw [if_neg hip]
    refine .add hinv hleft ?_
    simp [Answer.entry, Hostent.gives, Hostent.hasName, sameName_refl]

theorem resolveAddr_sound (hinv : CacheInv cfg s cache) {addr : Dword} {found : Option ℕ}
    (haddr : addr ≠ inaddrNone) (hleft : Left s (.addr addr) e.calledFromGetai found) :
    Sound cfg s (.addr addr) e (resolveAddr cfg s e addr found) := by
  have hgives : ∀ a : Answer, a.addr = addr → (a.entry cfg).gives (.addr addr) = true := by
    intro a ha
    simp [Answer.entry, Hostent.gives, Hostent.hasAddr, ha, haddr]
  unfold resolveAddr
  by_cases hx : e.rc = false ∧ e.interrupted
  · rw [if_pos hx]
    exact .same hinv fun hlook => absurd hlook.symm Bool.false_ne_true
  rw [if_neg hx]
  by_cases hrc : e.rc = true
  · rw [if_pos hrc]
    exact .add hinv hleft (hgives _ rfl)
  · rw [if_neg hrc]
    exact .add hinv hleft (hgives _ rfl)

theorem gethostbynameInternal_sound (hinv : CacheInv cfg s cache) (name : Name) :
    Sound cfg s (.name name) e (gethostbynameInternal cfg s e name) := by
  unfold gethostbynameInternal
  by_cases hinit : e.init = false
  · rw [if_pos hinit]
    exact .same hinv fun _ => .refused (.inl hinit) rfl
  rw [if_neg hinit]
  cases haton : cfg.inetAton name with
  | some addr => exact .same hinv fun _ => .numeric name addr rfl haton rfl
  | none =>
    cases hs : s.search (·.hasName name) with
    | some found =>
      obtain ⟨i, h⟩ := found
      by_cases hexp : h.expired e.now = true
      · simp only [hexp, if_true]
        exact resolveName_sound hinv (left_some (q := .name name) hs hexp)
      · simp only [hexp]
        obtain ⟨hi, hg⟩ := search_some hs
        exact .same hinv fun _ => hinv.source hi hg (Bool.eq_false_of_not_eq_true hexp)
    | none =>
      have hresolve := resolveName_sound (e := e) hinv (left_none (q := .name name) hs)
      by_cases hhost : cfg.hostname ≠ [] ∧ sameName name cfg.hostname
      · simp only [if_pos hhost]
        refine .same hinv fun _ => .own cfg.hostname (.inl rfl) ?_ (by simp) rfl
        intro n hn
        cases hn
        exact hhost.2
      · simp only [if_neg hhost]
        cases hget : cfg.gethostname with
        | none => exact hresolve
        | some ourName =>
          by_cases hour : sameName name ourName = true
          · simp only [if_pos hour]
            refine .same hinv fun _ => .own ourName (.inr hget) ?_ (by simp) rfl
            intro n hn
            cases hn
            exact hour
          · simp only [if_neg hour]
            exact hresolve

theorem gethostbyaddrInternal_sound (hinv : CacheInv cfg s cache) (addr : Dword) :
    Sound cfg s (.addr addr) e (gethostbyaddrInternal cfg s e addr) := by
  unfold gethostbyaddrInternal
  by_cases hinit : e.init = false
  · rw [if_pos hinit]
    exact .same hinv fun _ => .refused (.inl hinit) rfl
  rw [if_neg hinit]
  cases hown : (if addr = inaddrAny ∨ addr = cfg.gethostid then cfg.gethostname else none) with
  | some name =>
    obtain ⟨haddr, hget⟩ := Option.ite_none_right_eq_some.mp hown
    refine .same hinv fun _ => .own name (.inr hget) (by simp) ?_ rfl
    intro a ha
    cases ha
    exact haddr
  | none =>
    by_cases hbroadcast : cfg.broadcast addr = true
    · simp only [if_pos hbroadcast]
      exact .same hinv fun _ => .broadcast addr rfl hbroadcast rfl
    have haddr : addr ≠ inaddrNone := by
      rintro rfl
      exact hbroadcast (by simp [Config.broadcast])
    simp only [if_neg hbroadcast]
    by_cases hgetai : e.calledFromGetai = true
    · rw [if_pos hgetai]
      exact resolveAddr_sound hinv haddr (.inl hgetai)
    rw [if_neg hgetai]
    have hforced := Bool.eq_false_of_not_eq_true hgetai
    cases hs : s.search (·.hasAddr addr) with
    | some found =>
      obtain ⟨i, h⟩ := found
      by_cases hexp : h.expired e.now = true
      · simp only [hexp, if_true]
        exact resolveAddr_sound hinv haddr (hforced ▸ left_some (q := .addr addr) hs hexp)
      · simp only [hexp]
        obtain ⟨hi, hg⟩ := search_some hs
        exact .same hinv fun _ => hinv.source hi hg (Bool.eq_false_of_not_eq_true hexp)
    | none => exact resolveAddr_sound hinv haddr (hforced ▸ left_none (q := .addr addr) hs)

/-- **One call**: the cache is kept, and the result has a source. -/
theorem lookup_sound (hinv : CacheInv cfg s cache) : Sound cfg s q e (lookup cfg s q e) := by
  cases q with
  | name name => exact gethostbynameInternal_sound hinv name
  | addr addr => exact gethostbyaddrInternal_sound hinv addr

end Calls

/-! ## The law -/

/-- An answer to a query, a reverse one for another address that puts the name before it, a second
answer that goes there when the reverse one has expired, and another reverse one that goes there
when the second has. -/
def recycled : List (Query × Call) :=
  [(.name ['n'], { now := 0, time := 0, ip := 1, ttl := 900 }),
   (.addr 7, { now := 0, time := 0, rc := true, name := ['n'], ttl := 10 }),
   (.name ['n'], { now := 20, time := 20, ip := 2, ttl := 10 }),
   (.addr 2, { now := 40, time := 40, rc := true, name := ['m'], ttl := 10 })]

end Watt32.Hosts
