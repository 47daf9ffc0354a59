import Mathlib.Data.List.Basic
import Mathlib.Tactic

/-!
# The host cache

`gethost.c`: the list `host0` with the entries of the hosts file and those of the name server's
answers, and the two functions that search it before they ask.

* `Hostent`: an entry; `readHostsFile`: those of the hosts file.
* `addHostent`: an answer goes to an expired entry or to a new one.
* `gethostbynameInternal`, `gethostbyaddrInternal`: the functions; `lookup`: either of them.
-/

namespace Watt32.Hosts

abbrev Name := List Char

/-- An address; all are in host order. -/
abbrev Dword := BitVec 32

/-- `INADDR_NONE` and `INADDR_BROADCAST`. -/
def inaddrNone : Dword := 0xffffffff

/-- `INADDR_ANY`. -/
def inaddrAny : Dword := 0

/-- `MAX_HOST_ALIASES`. -/
def maxHostAliases : ℕ := 5

/-- `!stricmp (a, b)`. -/
def sameName (a b : Name) : Bool := a.map Char.toLower = b.map Char.toLower

/-- The name of an address that has none. -/
def unknownName : Name := "*unknown*".toList

/-! ## Entries -/

/-- `struct _hostent`: `addresses` are the first `h_num_addr` of `h_address`, a `timeout` of 0 is
none. -/
structure Hostent where
  name : Name
  aliases : List Name := []
  addresses : List Dword
  timeout : ℕ := 0
deriving DecidableEq

/-- The entry has the name, or has it as an alias. -/
def Hostent.hasName (h : Hostent) (name : Name) : Bool :=
  sameName h.name name || (h.aliases.take maxHostAliases).any (sameName name)

/-- The entry has the address before the end of its list. -/
def Hostent.hasAddr (h : Hostent) (addr : Dword) : Bool :=
  (h.addresses.takeWhile (· ≠ inaddrNone)).contains addr

/-- `h->h_timeout && now > h->h_timeout`. -/
def Hostent.expired (h : Hostent) (now : ℕ) : Bool := h.timeout ≠ 0 ∧ h.timeout < now

/-- A line of the hosts file. -/
structure HostsLine where
  addr : Dword
  name : Name
  aliases : List Name := []

/-- The entry of a line in `ReadHostsFile`. -/
def HostsLine.entry (line : HostsLine) : Hostent where
  name := line.name
  aliases := line.aliases.take maxHostAliases
  addresses := [line.addr]

/-- `ReadHostsFile`: each entry goes to the front. -/
def readHostsFile (lines : List HostsLine) : List Hostent :=
  lines.foldl (fun host0 line => line.entry :: host0) []

/-! ## Answers -/

/-- What a caller asks for. -/
inductive Query
  | name (name : Name)
  | addr (addr : Dword)
deriving DecidableEq

/-- The configuration: `netdbCacheLife`, the hosts file, and the host's own names and addresses.
`inetAton` is the address that a numeric name stands for. -/
structure Config where
  life : ℕ := 15 * 60
  hosts : List HostsLine := []
  hostname : Name := []
  gethostname : Option Name := none
  gethostid : Dword := 0
  sinMask : Dword := 0xffffff00
  inetAton : Name → Option Dword := fun _ => none

/-- An answer that `add_hostent` gets, with the query, whether the query passed the list by, and
the time. -/
structure Answer where
  query : Query
  forced : Bool
  name : Name
  cname : Name
  alist : List Dword
  addr : Dword
  ttl : ℕ
  time : ℕ
deriving DecidableEq

/-- The clamped TTL. -/
def Answer.lifetime (cfg : Config) (a : Answer) : ℕ := min a.ttl cfg.life

/-- What `add_hostent` stores. An expired entry has no second alias that would stay. -/
def Answer.entry (cfg : Config) (a : Answer) : Hostent where
  name := if a.cname = [] then a.name else a.cname
  aliases := if a.cname = [] then [] else [a.name]
  addresses := a.addr :: a.alist.takeWhile fun x => x ≠ inaddrNone ∧ x ≠ inaddrAny
  timeout := if a.lifetime cfg ≠ 0 then a.time + a.lifetime cfg else 0

/-- The list, and the answers so far. -/
structure Netdb where
  host0 : List Hostent
  answers : List Answer := []

/-- The first entry in the list with `p`, and its number. -/
def Netdb.search (s : Netdb) (p : Hostent → Bool) : Option (ℕ × Hostent) :=
  (s.host0.findIdx? p).bind fun i => s.host0[i]?.map fun h => (i, h)

/-- What one call finds outside: `netdb_init`, the clock before the search and in `add_hostent`,
the callers' flags, memory for a new entry, and what `resolve` or `reverse_resolve_ip4` gives if it
is called: `interrupted` is `_resolve_exit || _resolve_timeout`. -/
structure Call where
  init : Bool := true
  now : ℕ
  time : ℕ
  calledFromResolve : Bool := false
  calledFromGetai : Bool := false
  memory : Bool := true
  interrupted : Bool := false
  ip : Dword := 0
  rc : Bool := false
  name : Name := []
  cname : Name := []
  alist : List Dword := []
  ttl : ℕ := 0

/-- `ret` where the function returns `TRUE`, and `did_lookup`. -/
structure Ret where
  host : Option Hostent
  didLookup : Bool
deriving DecidableEq

/-- `add_hostent` with the entry number `h` or a new one. -/
def addHostent (cfg : Config) (s : Netdb) (h : Option ℕ) (memory : Bool) (a : Answer) :
    Netdb × Option Hostent :=
  let s := { s with answers := s.answers ++ [a] }
  match h with
  | some i => ({ s with host0 := s.host0.set i (a.entry cfg) }, some (a.entry cfg))
  | none =>
    if memory then ({ s with host0 := a.entry cfg :: s.host0 }, some (a.entry cfg)) else (s, none)

/-! ## The search -/

/-- The label `expired` of `gethostbyname_internal`. -/
def resolveName (cfg : Config) (s : Netdb) (e : Call) (name : Name) (h : Option ℕ) : Netdb × Ret :=
  if e.calledFromResolve then (s, { host := none, didLookup := false })
  else if e.interrupted then (s, { host := none, didLookup := true })
  else if e.ip ≠ 0 then
    let r := addHostent cfg s h e.memory
      { query := .name name, forced := false, name := name, cname := e.cname, alist := e.alist
        addr := e.ip, ttl := e.ttl, time := e.time }
    (r.1, { host := r.2, didLookup := true })
  else
    let r := addHostent cfg s h e.memory
      { query := .name name, forced := false, name := name, cname := [], alist := []
        addr := inaddrNone, ttl := cfg.life, time := e.time }
    (r.1, { host := none, didLookup := true })

/-- What a search by name makes of an entry. -/
def Hostent.forName (h : Hostent) : Option Hostent :=
  if h.addresses.headD 0 ≠ inaddrNone then some h else none

/-- The host's own entry. -/
def Config.own (cfg : Config) (name : Name) : Hostent :=
  { name := name, addresses := [cfg.gethostid] }

/-- `gethostbyname_internal`. -/
def gethostbynameInternal (cfg : Config) (s : Netdb) (e : Call) (name : Name) : Netdb × Ret :=
  if e.init = false then (s, { host := none, didLookup := false })
  else match cfg.inetAton name with
  | some addr => (s, { host := some { name := name, addresses := [addr] }, didLookup := false })
  | none =>
    match s.search (·.hasName name) with
    | some (i, h) =>
      if h.expired e.now then resolveName cfg s e name (some i)
      else (s, { host := h.forName, didLookup := false })
    | none =>
      if cfg.hostname ≠ [] ∧ sameName name cfg.hostname then
        (s, { host := some (cfg.own cfg.hostname), didLookup := false })
      else match cfg.gethostname with
      | some ourName =>
        if sameName name ourName then
          (s, { host := some (cfg.own ourName), didLookup := false })
        else resolveName cfg s e name none
      | none => resolveName cfg s e name none

/-- The label `expired` of `gethostbyaddr_internal`. -/
def resolveAddr (cfg : Config) (s : Netdb) (e : Call) (addr : Dword) (h : Option ℕ) : Netdb × Ret :=
  if e.rc = false ∧ e.interrupted then (s, { host := none, didLookup := true })
  else if e.rc then
    let r := addHostent cfg s h e.memory
      { query := .addr addr, forced := e.calledFromGetai, name := e.name, cname := e.cname
        alist := [], addr := addr, ttl := e.ttl, time := e.time }
    (r.1, { host := r.2, didLookup := true })
  else
    let r := addHostent cfg s h e.memory
      { query := .addr addr, forced := e.calledFromGetai, name := unknownName, cname := []
        alist := [], addr := addr, ttl := 0, time := e.time }
    (r.1, { host := none, didLookup := true })

/-- What a search by address makes of an entry. -/
def Hostent.forAddr (h : Hostent) : Option Hostent := if h.name = unknownName then none else some h

/-- `addr` is a broadcast address. -/
def Config.broadcast (cfg : Config) (addr : Dword) : Bool :=
  addr = inaddrNone ∨ ~~~addr &&& ~~~cfg.sinMask = 0

/-- `gethostbyaddr_internal` for `AF_INET`. -/
def gethostbyaddrInternal (cfg : Config) (s : Netdb) (e : Call) (addr : Dword) : Netdb × Ret :=
  if e.init = false then (s, { host := none, didLookup := false })
  else match (if addr = inaddrAny ∨ addr = cfg.gethostid then cfg.gethostname else none) with
  | some name => (s, { host := some (cfg.own name), didLookup := false })
  | none =>
    if cfg.broadcast addr then
      (s, { host := some { name := "broadcast".toList, addresses := [addr] }, didLookup := false })
    else if e.calledFromGetai then resolveAddr cfg s e addr none
    else match s.search (·.hasAddr addr) with
    | some (i, h) =>
      if h.expired e.now then resolveAddr cfg s e addr (some i)
      else (s, { host := h.forAddr, didLookup := false })
    | none => resolveAddr cfg s e addr none

/-- A call of either function. -/
def lookup (cfg : Config) (s : Netdb) (q : Query) (e : Call) : Netdb × Ret :=
  match q with
  | .name name => gethostbynameInternal cfg s e name
  | .addr addr => gethostbyaddrInternal cfg s e addr

/-- The list after a call. -/
def stepNetdb (cfg : Config) (s : Netdb) (c : Query × Call) : Netdb := (lookup cfg s c.1 c.2).1

/-- The list when the hosts file has been read. -/
def Netdb.start (cfg : Config) : Netdb := { host0 := readHostsFile cfg.hosts }

/-! ## The search finds the first entry -/

section Search

variable {s : Netdb} {p : Hostent → Bool} {i : ℕ} {h : Hostent}

theorem search_some (hs : s.search p = some (i, h)) : s.host0[i]? = some h ∧ p h = true := by
  unfold Netdb.search at hs
  obtain ⟨j, hj, hmap⟩ := Option.bind_eq_some_iff.mp hs
  obtain ⟨h', hget, heq⟩ := Option.map_eq_some_iff.mp hmap
  cases heq
  obtain ⟨hlt, hp, -⟩ := List.findIdx?_eq_some_iff_getElem.mp hj
  rw [List.getElem?_eq_getElem hlt] at hget
  cases hget
  exact ⟨List.getElem?_eq_getElem hlt, hp⟩

theorem search_none (hs : s.search p = none) : ∀ h ∈ s.host0, p h = false := by
  unfold Netdb.search at hs
  cases hfind : s.host0.findIdx? p with
  | none => exact List.findIdx?_eq_none_iff.mp hfind
  | some j =>
    obtain ⟨hlt, -⟩ := List.findIdx?_eq_some_iff_getElem.mp hfind
    rw [hfind, Option.bind_some, List.getElem?_eq_getElem hlt] at hs
    cases hs

end Search

end Watt32.Hosts
