import Watt32.Lib.Run
import Watt32.Tcp.Server
import Watt32.Bsd.Accept
import Watt32.Bsd.Listen

/-!
# The control blocks of a listen-queue

`_sock_append` copies `LF_IS_SERVER` with the rest of the listening control block, so a reset brings
a queued connection back to LISTEN, in its slot.

* `QueueLaw`: what a step must not do to the listen-queues.
* `Inv`: the control blocks of sockets and slots are distinct, and how the queued ones stand.
* **`queue_law_iff`**: the law holds along a run exactly if no reset is accepted for a queued
  connection.
-/

namespace Watt32.Bsd

open Machine
open Tcp (Conn Packet TcpState handlerSegment fsmSegment)

/-! ## The law -/

/-- The control block is in a slot of a listen-queue. -/
def Queued (st : Stack) (i : ℕ) : Prop := ∃ fd ∈ st.skList, ∃ idx, (st.socks fd).listenQueue idx = some i

/-- The control block belongs to the socket. -/
def Owns (st : Stack) (fd i : ℕ) : Prop :=
  (st.socks fd).tcpSock = i ∨ ∃ idx, (st.socks fd).listenQueue idx = some i

/-- No queued control block listens after the step, at most one of each socket does, and a turn of
`accept` at a connection that was reset or timed out frees its slot. -/
structure QueueLaw (st : Stack) (ev : Event) : Prop where
  queued : ∀ i, Queued (step st ev) i → ((step st ev).tcbs i).conn.s.state ≠ .listen
  master : ∀ fd ∈ (step st ev).skList, ∀ i j, Owns (step st ev) fd i → Owns (step st ev) fd j →
    ((step st ev).tcbs i).conn.s.state = .listen → ((step st ev).tcbs j).conn.s.state = .listen →
    i = j
  frees : ∀ fd idx newFd addrOk i, ev.op = .accept fd idx newFd addrOk → listening st fd →
    0 ≤ idx → idx < (st.socks fd).backlog → (st.socks fd).listenQueue idx = some i →
    (st.tcbs i).gone = true → ((step st ev).socks fd).listenQueue idx = none

/-- The control block `tcp_sockreset` is called for. -/
def resetTarget (e : Env) (st : Stack) (ip : Packet) : Option ℕ :=
  match demux st ip with
  | some (st, i) =>
    if Tcp.rstInWindow ((restartIdle e st i).tcbs i).conn.s (handlerSegment ip) then some i else none
  | none =>
    if (handlerSegment ip).hdr.flags.rst ∧ (handlerSegment ip).hdr.flags.ack then findseq st ip
    else none

/-- The step is not a reset that is accepted for a queued connection. -/
def NoQueuedReset (st : Stack) (ev : Event) : Prop :=
  ∀ ip i, ev.op = .packet ip → resetTarget ev.e st ip = some i → ¬ Queued st i

/-! ## The invariant -/

/-- The control block of a socket, or the one in a slot of its queue. -/
def Socket.held (sock : Socket) : Option ℤ → Option ℕ
  | none => some sock.tcpSock
  | some idx => sock.listenQueue idx

/-- Where a control block is held. -/
def Ref (st : Stack) (r : ℕ × Option ℤ) (i : ℕ) : Prop :=
  r.1 ∈ st.skList ∧ (st.socks r.1).held r.2 = some i

/-- A control block that was given up. -/
structure Dead (c : Conn) : Prop where
  state : c.s.state = .closed
  ipType : c.s.ipType = 0
  threaded : c.threaded = false

/-- How a queued control block stands. -/
structure QueuedOk (t : Tcb) : Prop where
  state : t.conn.s.state ≠ .listen
  isServer : t.conn.s.locflags.isServer = true
  gone : t.gone = true → Dead t.conn

/-- The invariant of the machine. -/
structure Inv (st : Stack) : Prop where
  lt : ∀ r i, Ref st r i → i < st.brk
  inj : ∀ r r' i, Ref st r i → Ref st r' i → r = r'
  allsocs : ∀ i ∈ st.allsocs, i < st.brk
  server : ∀ fd ∈ st.skList, (st.socks fd).soAcceptconn = true →
    (st.tcbs (st.socks fd).tcpSock).conn.s.locflags.isServer = true
  queued : ∀ i, Queued st i → QueuedOk (st.tcbs i)

/-- Sockets before the first connection: each has a control block of its own, that of a listening
socket is a server's, and the listen-queues are empty. -/
structure Fresh (st : Stack) : Prop where
  lt : ∀ fd ∈ st.skList, (st.socks fd).tcpSock < st.brk
  inj : ∀ fd ∈ st.skList, ∀ fd' ∈ st.skList, (st.socks fd).tcpSock = (st.socks fd').tcpSock → fd = fd'
  allsocs : ∀ i ∈ st.allsocs, i < st.brk
  server : ∀ fd ∈ st.skList, (st.socks fd).soAcceptconn = true →
    (st.tcbs (st.socks fd).tcpSock).conn.s.locflags.isServer = true
  empty : ∀ fd ∈ st.skList, ∀ idx, (st.socks fd).listenQueue idx = none

variable {e : Env} {st st' : Stack} {i fd : ℕ} {idx : ℤ} {ip : Packet}

theorem Fresh.inv (h : Fresh st) : Inv st where
  lt := by
    rintro ⟨fd, _ | idx⟩ i ⟨hfd, hi⟩
    · exact Option.some.inj hi ▸ h.lt fd hfd
    · cases (h.empty fd hfd idx).symm.trans hi
  inj := by
    rintro ⟨fd, _ | idx⟩ ⟨fd', _ | idx'⟩ i ⟨hfd, hi⟩ ⟨hfd', hi'⟩
    · rw [h.inj fd hfd fd' hfd' (Option.some.inj (hi.trans hi'.symm))]
    · cases (h.empty fd' hfd' idx').symm.trans hi'
    · cases (h.empty fd hfd idx).symm.trans hi
    · cases (h.empty fd hfd idx).symm.trans hi
  allsocs := h.allsocs
  server := h.server
  queued := by
    rintro i ⟨fd, hfd, idx, hi⟩
    cases (h.empty fd hfd idx).symm.trans hi

theorem queued_iff : Queued st i ↔ ∃ fd idx, Ref st (fd, some idx) i :=
  ⟨fun ⟨fd, hfd, idx, h⟩ => ⟨fd, idx, hfd, h⟩, fun ⟨fd, idx, hfd, h⟩ => ⟨fd, hfd, idx, h⟩⟩

/-- A socket's own control block is not queued. -/
theorem Inv.not_queued (h : Inv st) (hfd : fd ∈ st.skList) : ¬ Queued st (st.socks fd).tcpSock := by
  intro hq
  obtain ⟨fd', idx, hr⟩ := queued_iff.mp hq
  cases h.inj (fd', some idx) (fd, none) _ hr ⟨hfd, rfl⟩

/-- What changes a control block keeps the invariant, if the block is fine afterwards. -/
theorem Inv.upd (h : Inv st) {f : Tcb → Tcb}
    (hserver : ∀ fd ∈ st.skList, (st.socks fd).soAcceptconn = true → (st.socks fd).tcpSock = i →
      (st.tcbs i).conn.s.locflags.isServer = true → (f (st.tcbs i)).conn.s.locflags.isServer = true)
    (hqueued : Queued st i → QueuedOk (st.tcbs i) → QueuedOk (f (st.tcbs i))) :
    Inv (st.upd i f) where
  lt := h.lt
  inj := h.inj
  allsocs := h.allsocs
  server := by
    intro fd hfd hacc
    rw [Stack.upd_socks] at hacc ⊢
    by_cases hi : (st.socks fd).tcpSock = i
    · rw [hi, Stack.upd_tcbs_self]
      exact hserver fd hfd hacc hi (hi ▸ h.server fd hfd hacc)
    · rw [Stack.upd_tcbs_of_ne _ _ _ hi]
      exact h.server fd hfd hacc
  queued := by
    intro j hj
    by_cases hji : j = i
    · subst hji
      rw [Stack.upd_tcbs_self]
      exact hqueued hj (h.queued j hj)
    · rw [Stack.upd_tcbs_of_ne _ _ _ hji]
      exact h.queued j hj

/-- The control block of a socket that does not listen may change in any way. -/
theorem Inv.updOwn (h : Inv st) (hfd : fd ∈ st.skList) (hacc : (st.socks fd).soAcceptconn = false)
    (f : Tcb → Tcb) : Inv (st.upd (st.socks fd).tcpSock f) := by
  refine h.upd (fun fd' hfd' hacc' htcp _ => ?_) fun hq => absurd hq (h.not_queued hfd)
  obtain rfl : fd' = fd :=
    congrArg Prod.fst (h.inj (fd', none) (fd, none) _ ⟨hfd', rfl⟩ ⟨hfd, htcp ▸ rfl⟩)
  cases hacc.symm.trans hacc'

/-- The invariant depends on where control blocks are held, and on those. -/
theorem Inv.mono (h : Inv st) (hbrk : st'.brk = st.brk) (hall : st'.allsocs = st.allsocs)
    (href : ∀ r j, Ref st' r j → Ref st r j ∧ st'.tcbs j = st.tcbs j)
    (hacc : ∀ fd ∈ st'.skList, (st'.socks fd).soAcceptconn = (st.socks fd).soAcceptconn) :
    Inv st' := by
  constructor
  · exact fun r j hr => hbrk ▸ h.lt r j (href r j hr).1
  · exact fun r r' j hr hr' => h.inj r r' j (href r j hr).1 (href r' j hr').1
  · exact fun j hj => hbrk ▸ h.allsocs j (hall ▸ hj)
  · intro fd hfd ha
    obtain ⟨⟨hmem, hheld⟩, htcb⟩ := href (fd, none) _ ⟨hfd, rfl⟩
    have hsock : (st.socks fd).tcpSock = (st'.socks fd).tcpSock := Option.some.inj hheld
    rw [htcb, ← hsock]
    exact h.server fd hmem (hacc fd hfd ▸ ha)
  · intro j hj
    obtain ⟨fd, idx, hr⟩ := queued_iff.mp hj
    obtain ⟨hr', htcb⟩ := href _ j hr
    rw [htcb]
    exact h.queued j (queued_iff.mpr ⟨fd, idx, hr'⟩)

@[simp] theorem held_setSlot (sock : Socket) (o : Option ℕ) (r : Option ℤ) :
    (sock.setSlot idx o).held r = if r = some idx then o else sock.held r := by
  rcases r with _ | x
  · rfl
  · by_cases hx : x = idx
    · subst hx
      simp [Socket.held, Socket.setSlot]
    · simp [Socket.held, Socket.setSlot, hx]

/-- What is held after a control block has left its slot. -/
theorem ref_release {f : Tcb → Tcb} {r : ℕ × Option ℤ} {j : ℕ}
    (hr : Ref ((st.upd i f).updSock fd (·.setSlot idx none)) r j) :
    Ref st r j ∧ r ≠ (fd, some idx) := by
  obtain ⟨hmem, hj⟩ := hr
  dsimp only [Stack.updSock, Stack.upd_socks] at hj
  by_cases hf : r.1 = fd
  · rw [hf, Function.update_self, held_setSlot] at hj
    split_ifs at hj with ho
    exact ⟨⟨hmem, hf ▸ hj⟩, fun heq => ho (congrArg Prod.snd heq)⟩
  · rw [Function.update_of_ne hf] at hj
    exact ⟨⟨hmem, hj⟩, fun heq => hf (congrArg Prod.fst heq)⟩

/-- Nobody holds a control block that has left its slot. -/
theorem Inv.released (h : Inv st) (hfd : fd ∈ st.skList)
    (hi : (st.socks fd).listenQueue idx = some i) {f : Tcb → Tcb} (r : ℕ × Option ℤ) :
    ¬ Ref ((st.upd i f).updSock fd (·.setSlot idx none)) r i := fun hr =>
  (ref_release hr).2 (h.inj r (fd, some idx) i (ref_release hr).1 ⟨hfd, hi⟩)

/-- A control block leaves its slot; what happens to it does not matter. -/
theorem Inv.release (h : Inv st) (hfd : fd ∈ st.skList) (hi : (st.socks fd).listenQueue idx = some i)
    (f : Tcb → Tcb) : Inv ((st.upd i f).updSock fd (·.setSlot idx none)) := by
  refine h.mono rfl rfl (fun r j hr => ⟨(ref_release hr).1, st.upd_tcbs_of_ne i f ?_⟩) fun fd' _ => ?_
  · rintro rfl
    exact h.released hfd hi r hr
  · by_cases hf : fd' = fd
    · subst hf
      simp [Stack.updSock, Socket.setSlot]
    · simp [Stack.updSock, Function.update_of_ne hf]

/-- A socket goes, with its control block. -/
theorem Inv.sockDelFd (h : Inv st) (hfd : fd ∈ st.skList) (e : Tcp.Env) :
    Inv (sockDelFd e st fd) := by
  refine h.mono rfl rfl (fun r j hr => ?_) fun fd' _ => rfl
  obtain ⟨hmem, hj⟩ := hr
  have hne : r.1 ∈ st.skList ∧ r.1 ≠ fd := by simpa [Bsd.sockDelFd] using hmem
  refine ⟨⟨hne.1, hj⟩, st.updConn_tcbs_of_ne _ _ ?_⟩
  rintro rfl
  have := h.inj r (fd, none) _ ⟨hne.1, hj⟩ ⟨hfd, rfl⟩
  exact hne.2 (congrArg Prod.fst this)

/-- A connected socket comes, with a control block nobody else has. -/
theorem Inv.addSock (h : Inv st) {n : ℕ} (hn : n ∉ st.skList) (hlt : i < st.brk)
    (hfree : ∀ r, ¬ Ref st r i) : Inv (addSock st n i) := by
  have hold : ∀ fd' ∈ st.skList, (Bsd.addSock st n i).socks fd' = st.socks fd' := by
    intro fd' hfd'
    refine Function.update_of_ne ?_ _ _
    rintro rfl
    exact hn hfd'
  have hself : (Bsd.addSock st n i).socks n = ⟨i, false, 0, fun _ => none⟩ :=
    Function.update_self _ _ _
  have href : ∀ r j, Ref (Bsd.addSock st n i) r j → Ref st r j ∨ r = (n, none) ∧ j = i := by
    rintro ⟨fd', o⟩ j ⟨hfd', hj⟩
    rcases List.mem_cons.mp hfd' with rfl | hfd'
    · dsimp only at hj
      rw [hself] at hj
      rcases o with _ | idx'
      · exact .inr ⟨rfl, (Option.some.inj hj).symm⟩
      · cases hj
    · dsimp only at hj
      rw [hold fd' hfd'] at hj
      exact .inl ⟨hfd', hj⟩
  constructor
  · intro r j hr
    rcases href r j hr with hr | ⟨_, rfl⟩
    · exact h.lt r j hr
    · exact hlt
  · intro r r' j hr hr'
    rcases href r j hr with hr | ⟨rfl, rfl⟩ <;> rcases href r' _ hr' with hr' | ⟨rfl, hj⟩
    · exact h.inj r r' j hr hr'
    · exact absurd (hj ▸ hr) (hfree r)
    · exact absurd hr' (hfree r')
    · rfl
  · exact h.allsocs
  · intro fd' hfd' hacc
    rcases List.mem_cons.mp hfd' with rfl | hfd'
    · rw [hself] at hacc
      cases hacc
    · rw [hold fd' hfd'] at hacc ⊢
      exact h.server fd' hfd' hacc
  · intro j hj
    obtain ⟨fd', idx', hr⟩ := queued_iff.mp hj
    rcases href _ j hr with hr | ⟨hr, _⟩
    · exact h.queued j (queued_iff.mpr ⟨fd', idx', hr⟩)
    · cases hr

/-- `_sock_append` puts a new control block, which is fine, into a vacant slot. -/
theorem Inv.enqueue (h : Inv st) (hfd : fd ∈ st.skList) (hi : (st.socks fd).tcpSock = i)
    (hslot : (st.socks fd).listenQueue idx = none) (e : Env) (g : Tcb → Tcb)
    (hg : QueuedOk (g (cloneTcb e (st.tcbs i)))) :
    Inv ((enqueue e st i fd idx).upd st.brk g) := by
  set st' := (Bsd.enqueue e st i fd idx).upd st.brk g with hst'
  have hlt : i < st.brk := hi ▸ h.lt (fd, none) _ ⟨hfd, rfl⟩
  have hclone : st'.tcbs st.brk = g (cloneTcb e (st.tcbs i)) := by
    rw [hst', Stack.upd_tcbs_self]
    exact congrArg g (Function.update_self _ _ _)
  have hself : st'.tcbs i = undoSyn e (st.tcbs i) := by
    rw [hst', Stack.upd_tcbs_of_ne _ _ _ hlt.ne]
    exact (Function.update_of_ne hlt.ne _ _).trans (Function.update_self _ _ _)
  have hother : ∀ j, j < st.brk → j ≠ i → st'.tcbs j = st.tcbs j := by
    intro j hj hne
    rw [hst', Stack.upd_tcbs_of_ne _ _ _ hj.ne]
    exact (Function.update_of_ne hj.ne _ _).trans (Function.update_of_ne hne _ _)
  have hsocks : st'.socks = Function.update st.socks fd ((st.socks fd).setSlot idx (some st.brk)) :=
    rfl
  have href : ∀ r j, Ref st' r j → Ref st r j ∨ r = (fd, some idx) ∧ j = st.brk := by
    rintro ⟨fd', o⟩ j ⟨hfd', hj⟩
    rw [hsocks] at hj
    dsimp only at hj
    by_cases hf : fd' = fd
    · subst hf
      rw [Function.update_self, held_setSlot] at hj
      split_ifs at hj with ho
      · exact .inr ⟨by rw [ho], (Option.some.inj hj).symm⟩
      · exact .inl ⟨hfd', hj⟩
    · rw [Function.update_of_ne hf] at hj
      exact .inl ⟨hfd', hj⟩
  have hsock : ∀ fd', (st'.socks fd').tcpSock = (st.socks fd').tcpSock ∧
      (st'.socks fd').soAcceptconn = (st.socks fd').soAcceptconn := by
    intro fd'
    rw [hsocks]
    by_cases hf : fd' = fd
    · subst hf
      simp [Socket.setSlot]
    · simp [Function.update_of_ne hf]
  constructor
  · intro r j hr
    rcases href r j hr with hr | ⟨_, rfl⟩
    · exact Nat.lt_succ_of_lt (h.lt r j hr)
    · exact Nat.lt_succ_self _
  · intro r r' j hr hr'
    rcases href r j hr with hr | ⟨rfl, rfl⟩ <;> rcases href r' _ hr' with hr' | ⟨rfl, hj⟩
    · exact h.inj r r' j hr hr'
    · exact absurd (h.lt r j hr) (hj ▸ lt_irrefl _)
    · exact absurd (h.lt r' _ hr') (lt_irrefl _)
    · rfl
  · intro j hj
    rcases List.mem_cons.mp hj with rfl | hj
    · exact Nat.lt_succ_self _
    · exact Nat.lt_succ_of_lt (h.allsocs j hj)
  · intro fd' hfd' hacc
    rw [(hsock fd').2] at hacc
    rw [(hsock fd').1]
    have hserver := h.server fd' hfd' hacc
    by_cases hj : (st.socks fd').tcpSock = i
    · rw [hj, hself]
      rw [hj] at hserver
      exact hserver
    · rw [hother _ (h.lt (fd', none) _ ⟨hfd', rfl⟩) hj]
      exact hserver
  · intro j hj
    obtain ⟨fd', idx', hr⟩ := queued_iff.mp hj
    rcases href _ j hr with hr | ⟨_, rfl⟩
    · have hq : Queued st j := queued_iff.mpr ⟨fd', idx', hr⟩
      have hne : j ≠ i := by
        rintro rfl
        exact h.not_queued hfd (hi ▸ hq)
      rw [hother j (h.lt _ j hr) hne]
      exact h.queued j hq
    · rw [hclone]
      exact hg

/-! ## Packets -/

/-- What the state machine does to a connection. -/
structure Kept (c c' : Conn) : Prop where
  isServer : c'.s.locflags.isServer = c.s.locflags.isServer
  state : c.s.state ≠ .listen → c'.s.state ≠ .listen

theorem Kept.trans {c c' c'' : Conn} (h : Kept c c') (h' : Kept c' c'') : Kept c c'' :=
  ⟨h'.isServer.trans h.isServer, fun hs => h'.state (h.state hs)⟩

theorem tcpFsm_kept (e : Tcp.Env) (c : Conn) (seg : Tcp.InSegment) : Kept c (Tcp.tcpFsm e c seg).1 :=
  ⟨Tcp.tcpFsm_isServer e c seg, Tcp.tcpFsm_leaves⟩

theorem afterFsm_kept (e : Tcp.Env) (r : Conn × Bool) : Kept r.1 (Tcp.afterFsm e r) := by
  unfold Tcp.afterFsm
  split_ifs
  · exact ⟨congrArg Tcp.Identity.isServer (Tcp.tcpSendsoon_identity e r.1), by simp⟩
  · exact ⟨rfl, id⟩

theorem updConn_updConn (f g : Conn → Conn) :
    (st.updConn i f).updConn i g = st.updConn i fun c => g (f c) := by
  simp [Stack.updConn, Stack.upd]

theorem updConn_self : st.updConn i id = st := by
  simp [Stack.updConn, Stack.upd]

/-- What `_sock_append` passes on: the control block of a native socket, or a clone that it has put
into a vacant slot. -/
theorem sockAppend_eq_some {p : Stack × ℕ} (h : sockAppend e st i = some p) : p = (st, i) ∨
    ∃ fd idx, fd ∈ st.skList ∧ (st.socks fd).tcpSock = i ∧ (st.socks fd).soAcceptconn = true ∧
      (st.socks fd).listenQueue idx = none ∧ p = (enqueue e st i fd idx, st.brk) := by
  unfold sockAppend at h
  split at h
  · exact .inl (Option.some.inj h).symm
  · next fd hfind =>
    by_cases hacc : (st.socks fd).soAcceptconn = false
    · rw [if_pos hacc] at h
      cases h
    rw [if_neg hacc] at h
    split at h
    · cases h
    · next idx hvacant =>
      split_ifs at h
      unfold findSock at hfind
      split_ifs at hfind
      have htcp := List.find?_some hfind
      have hslot := (Slots.find_eq_some hvacant).2.2.1
      exact .inr ⟨fd, idx, List.mem_of_find?_eq_some hfind, of_decide_eq_true htcp,
        by simpa using hacc, by simpa using hslot, (Option.some.inj h).symm⟩

/-- `_tcp_fsm` with the hook changes the connection, or `_sock_append` has put a clone of the
listening control block into a vacant slot, and the clone has received a SYN. -/
theorem tcpFsm_cases (e : Env) (st : Stack) (i : ℕ) (seg : Tcp.InSegment) :
    (∃ c' b, tcpFsm e st i seg = (st.updConn i fun _ => c', i, b) ∧ Kept (st.tcbs i).conn c') ∨
    ∃ fd idx c' b, fd ∈ st.skList ∧ (st.socks fd).tcpSock = i ∧
      (st.socks fd).soAcceptconn = true ∧ (st.socks fd).listenQueue idx = none ∧
      tcpFsm e st i seg = ((enqueue e st i fd idx).updConn st.brk fun _ => c', st.brk, b) ∧
      c'.s.state = .synrec ∧
      c'.s.locflags.isServer = (st.tcbs i).conn.s.locflags.isServer := by
  unfold tcpFsm
  dsimp only
  split_ifs with hsyn
  · rcases happend : sockAppend e st i with _ | p
    · refine .inl ⟨(st.tcbs i).conn, false, ?_, rfl, id⟩
      rw [show (st.updConn i fun _ => (st.tcbs i).conn) = st from updConn_self]
    rcases sockAppend_eq_some happend with rfl | ⟨fd, idx, hfd, htcp, hacc, hslot, rfl⟩
    · exact .inl ⟨_, _, rfl, tcpFsm_kept _ _ _⟩
    have hclone : ((enqueue e st i fd idx).tcbs st.brk).conn.s.state = .listen ∧
        ((enqueue e st i fd idx).tcbs st.brk).conn.s.locflags.isServer =
          (st.tcbs i).conn.s.locflags.isServer := by
      rw [show (enqueue e st i fd idx).tcbs st.brk = cloneTcb e (st.tcbs i) from
        Function.update_self _ _ _]
      unfold cloneTcb sockSetRcvBuf
      dsimp only
      split <;> exact ⟨hsyn.1, rfl⟩
    refine .inr ⟨fd, idx, _, _, hfd, htcp, hacc, hslot, rfl, ?_, ?_⟩
    · unfold Tcp.tcpFsm
      rw [hclone.1]
      simp [Tcp.tcpListenState, hsyn.2]
    · rw [Tcp.tcpFsm_isServer, hclone.2]
  · exact .inl ⟨_, _, rfl, tcpFsm_kept _ _ _⟩

/-- A packet that resets the control block. -/
def Resets (e : Env) (st : Stack) (i : ℕ) (ip : Packet) : Prop :=
  Tcp.rstInWindow ((restartIdle e st i).tcbs i).conn.s (handlerSegment ip) = true

/-- `tcp_sockreset` leaves the flag alone. -/
theorem tcpSockreset_isServer (c : Conn) :
    (Tcp.tcpSockreset c).s.locflags.isServer = c.s.locflags.isServer := by
  unfold Tcp.tcpSockreset
  dsimp only
  split_ifs
  · rfl
  · exact congrArg Tcp.Identity.isServer (Tcp.tcpUnthread_identity _ true)

theorem Inv.sockreset (h : Inv st) (hno : ¬ Queued st i) : Inv (tcpSockreset st i) :=
  h.upd (fun _ _ _ _ hs => (tcpSockreset_isServer _).trans hs) fun hq => absurd hq hno

/-- One control block that is in `_tcp_allsocs` changes as the state machine changes it. -/
theorem Inv.updKept (h : Inv st) (hthreaded : (st.tcbs i).conn.threaded = true) {f : Tcb → Tcb}
    (hf : Kept (st.tcbs i).conn (f (st.tcbs i)).conn) (hgone : (f (st.tcbs i)).gone = (st.tcbs i).gone) :
    Inv (st.upd i f) := by
  refine h.upd (fun _ _ _ _ hs => hf.isServer.trans hs) fun hq ok => ?_
  refine ⟨hf.state ok.state, hf.isServer.trans ok.isServer, fun hg => ?_⟩
  rw [(ok.gone (hgone ▸ hg)).threaded] at hthreaded
  cases hthreaded

theorem Inv.updConn (h : Inv st) (hthreaded : (st.tcbs i).conn.threaded = true) {f : Conn → Conn}
    (hf : Kept (st.tcbs i).conn (f (st.tcbs i).conn)) : Inv (st.updConn i f) :=
  h.updKept hthreaded hf rfl

theorem restartIdle_kept (e : Tcp.Env) (c : Conn) : Kept c (c.upd (Tcp.restartIdle e)) := by
  have hidle : (Tcp.restartIdle e c.s).locflags.isServer = c.s.locflags.isServer ∧
      (Tcp.restartIdle e c.s).state = c.s.state := by
    unfold Tcp.restartIdle
    split_ifs <;> exact ⟨rfl, rfl⟩
  exact ⟨hidle.1, fun hs => hidle.2.symm ▸ hs⟩

theorem Inv.restartIdle (h : Inv st) (hthreaded : (st.tcbs i).conn.threaded = true) :
    Inv (restartIdle e st i) :=
  h.updConn hthreaded (restartIdle_kept _ _)

/-- **A packet for a control block keeps the invariant**, unless it resets a queued connection. -/
theorem Inv.tcpInput (h : Inv st) (hthreaded : (st.tcbs i).conn.threaded = true)
    (hno : Resets e st i ip → ¬ Queued st i) : Inv (tcpInput e st i ip) := by
  have hrestart : Inv (Bsd.restartIdle e st i) := h.restartIdle hthreaded
  unfold Bsd.tcpInput
  dsimp only
  split_ifs with hrst
  · exact hrestart.sockreset (hno hrst)
  · have hthr : ((Bsd.restartIdle e st i).tcbs i).conn.threaded = true := by
      unfold Bsd.restartIdle
      rw [Stack.updConn_tcbs_self]
      exact hthreaded
    have hbefore : Inv (beforeFsm e (Bsd.restartIdle e st i) i ip) :=
      hrestart.updConn hthr ⟨rfl, id⟩
    have hthr' : ((beforeFsm e (Bsd.restartIdle e st i) i ip).tcbs i).conn.threaded = true := by
      unfold beforeFsm
      rw [Stack.updConn_tcbs_self]
      exact hthr
    rcases tcpFsm_cases e (beforeFsm e (Bsd.restartIdle e st i) i ip) i (fsmSegment ip) with
      ⟨c', b, hfsm, hc'⟩ | ⟨fd, idx, c', b, hfd, htcp, hacc, hslot, hfsm, hstate, hserver⟩
    · rw [hfsm]
      dsimp only
      rw [updConn_updConn]
      exact hbefore.updConn hthr' (hc'.trans (afterFsm_kept e.toEnv (c', b)))
    · rw [hfsm]
      dsimp only
      rw [updConn_updConn]
      have hafter := afterFsm_kept e.toEnv (c', b)
      have hmaster := hbefore.server fd hfd hacc
      rw [htcp] at hmaster
      refine hbefore.enqueue hfd htcp hslot e _ ⟨hafter.state ?_, ?_, fun hgone => ?_⟩
      · rw [hstate]
        exact Tcp.TcpState.noConfusion
      · exact hafter.isServer.trans (hserver.trans hmaster)
      · cases hgone

theorem remember_kept (ip : Packet) (t : Tcb) :
    Kept t.conn (remember ip t).conn ∧ (remember ip t).gone = t.gone := by
  unfold remember
  dsimp only
  split_ifs <;> exact ⟨⟨rfl, id⟩, rfl⟩

/-- The control block a packet is for is in `_tcp_allsocs`. -/
theorem Inv.demux (h : Inv st) (hd : demux st ip = some (st', i)) :
    Inv st' ∧ (st'.tcbs i).conn.threaded = true ∧ (Queued st' i ↔ Queued st i) := by
  unfold Bsd.demux at hd
  split at hd
  · next j hj =>
    cases hd
    exact ⟨h, (findTcb_eq_some hj).2.1, Iff.rfl⟩
  · split_ifs at hd with hsyn
    obtain ⟨j, hj, hmk⟩ := Option.map_eq_some_iff.mp hd
    cases hmk
    have hthreaded := (findTcb_eq_some hj).2.1
    obtain ⟨hkept, hgone⟩ := remember_kept ip (st.tcbs i)
    refine ⟨h.updKept hthreaded hkept hgone, ?_, Iff.rfl⟩
    rw [Stack.upd_tcbs_self]
    unfold remember
    dsimp only
    split_ifs <;> exact hthreaded

/-- **A packet keeps the invariant**, unless it resets a queued connection. -/
theorem Inv.tcpHandler (h : Inv st) (hno : ∀ i, resetTarget e st ip = some i → ¬ Queued st i) :
    Inv (tcpHandler e st ip) := by
  unfold resetTarget at hno
  unfold Bsd.tcpHandler
  rcases hd : Bsd.demux st ip with _ | ⟨st', i⟩ <;> rw [hd] at hno <;> dsimp only at hno ⊢
  · split_ifs with hrst
    · rcases hf : findseq st ip with _ | i
      · exact h
      · rw [if_pos hrst, hf] at hno
        exact h.sockreset (hno i rfl)
    · exact h
  · obtain ⟨hinv, hthreaded, hqueued⟩ := h.demux hd
    refine hinv.tcpInput hthreaded fun hrst => ?_
    rw [hqueued]
    exact hno i (if_pos hrst)

/-- A reset brings a queued connection back to LISTEN. -/
theorem Inv.sockreset_listens (h : Inv st) (hq : Queued st i) :
    ((tcpSockreset st i).tcbs i).conn.s.state = .listen := by
  have hserver := (h.queued i hq).isServer
  unfold tcpSockreset Tcp.tcpSockreset
  rw [Stack.upd_tcbs_self]
  dsimp only
  rw [if_pos (by exact hserver)]

/-- **A reset that is accepted for a queued connection** leaves it in its slot, in LISTEN. -/
theorem Inv.tcpHandler_resets (h : Inv st) (ht : resetTarget e st ip = some i) (hq : Queued st i) :
    Queued (Bsd.tcpHandler e st ip) i ∧
      ((Bsd.tcpHandler e st ip).tcbs i).conn.s.state = .listen := by
  unfold resetTarget at ht
  unfold Bsd.tcpHandler
  rcases hd : Bsd.demux st ip with _ | ⟨st', j⟩ <;> rw [hd] at ht <;> dsimp only at ht ⊢
  · split_ifs at ht with hrst
    rw [if_pos hrst, ht]
    exact ⟨hq, h.sockreset_listens hq⟩
  · split_ifs at ht with hrst
    obtain rfl : j = i := Option.some.inj ht
    obtain ⟨hinv, hthreaded, hqueued⟩ := h.demux hd
    unfold Bsd.tcpInput
    dsimp only
    rw [if_pos hrst]
    exact ⟨hqueued.mpr hq, (hinv.restartIdle hthreaded).sockreset_listens (hqueued.mpr hq)⟩

/-! ## Timeouts -/

theorem tcpAbort_dead (e : Tcp.Env) (c : Conn) : Dead (Tcp.tcpAbort e c) := by
  refine ⟨Tcp.tcpAbort_state, ?_, rfl⟩
  unfold Tcp.tcpAbort Tcp.tcpUnthread Tcp.unthread
  dsimp only
  split_ifs <;> simp

theorem Dead.retransTimeouts {c : Conn} (h : Dead c) (e : Tcp.Env) :
    Dead (Tcp.retransTimeouts e c) := by
  unfold Tcp.retransTimeouts
  split_ifs with hidle htime htw
  · unfold Tcp.tcpClose
    rw [if_pos (by simp [h.ipType, Tcp.tcpProto])]
    exact ⟨h.state, h.ipType, h.threaded⟩
  · rw [h.state] at htw
    cases htw
  · exact tcpAbort_dead e c
  · exact h
  · exact h

/-- A connection that times out is given up. -/
theorem timesOut_dead {e : Tcp.Env} {c : Conn} (h : timesOut e c = true) :
    Dead (Tcp.tcpRetransmitter e c) := by
  unfold timesOut at h
  unfold Tcp.tcpRetransmitter
  split_ifs at h with hdead hres
  · rw [not_or, Bool.not_eq_false] at hdead
    rw [if_neg (by simp [hdead.1]), if_pos hres]
    unfold Tcp.retransResolve
    rw [decide_eq_true_iff] at h
    rw [if_neg h.1, if_pos (by simpa using h.2)]
    exact tcpAbort_dead e c
  · rw [not_or, Bool.not_eq_false] at hdead
    rw [if_neg (by simp [hdead.1]), if_neg hres, if_neg hdead.2]
    rw [decide_eq_true_iff] at h
    rcases h with hdata | htime
    · refine Dead.retransTimeouts ?_ e
      unfold dataTimesOut at hdata
      rw [decide_eq_true_iff] at hdata
      obtain ⟨hwin, hsend, hrtt, htimer⟩ := hdata
      unfold Tcp.retransSend
      rw [if_neg hwin, if_pos hsend, if_neg hrtt, if_pos htimer]
      obtain ⟨hs, hip, ht⟩ := tcpAbort_dead e c
      exact ⟨hs, hip, ht⟩
    · obtain ⟨hidle, htime, htw, hestab⟩ := htime
      unfold Tcp.retransTimeouts
      rw [if_neg hidle, if_pos htime, if_neg htw, if_pos hestab]
      exact tcpAbort_dead e _

theorem Inv.retransmit (h : Inv st) (e : Tcp.Env) : Inv (st.upd i (tcpRetransmitter e)) := by
  refine h.upd (fun _ _ _ _ hs => (Tcp.tcpRetransmitter_isServer e _).trans hs) fun _ ok => ?_
  refine ⟨Tcp.tcpRetransmitter_leaves ok.state, (Tcp.tcpRetransmitter_isServer e _).trans ok.isServer,
    fun hg => ?_⟩
  rcases (Bool.or_eq_true _ _).mp hg with hgone | htime
  · have hdead := ok.gone hgone
    unfold tcpRetransmitter Tcp.tcpRetransmitter
    rw [if_pos hdead.threaded]
    exact hdead
  · exact timesOut_dead htime

/-! ## accept and close -/

theorem Inv.takeConn (h : Inv st) (hfd : fd ∈ st.skList)
    (hi : (st.socks fd).listenQueue idx = some i) (e : Tcp.Env) (newFd : Option ℕ) (addrOk : Bool) :
    Inv (takeConn e st fd idx i newFd addrOk) := by
  have hlt : i < st.brk := h.lt (fd, some idx) i ⟨hfd, hi⟩
  unfold Bsd.takeConn
  rcases newFd with _ | n <;> dsimp only
  · exact h
  by_cases hn : n ∈ st.skList
  · rw [if_pos hn]
    exact h
  rw [if_neg hn]
  have hadd : Inv (dupBind st fd idx i n) :=
    (h.release hfd hi _).addSock hn hlt fun r => h.released hfd hi r
  have hself : (dupBind st fd idx i n).socks n = ⟨i, false, 0, fun _ => none⟩ :=
    Function.update_self _ _ _
  have hmem : n ∈ (dupBind st fd idx i n).skList := List.mem_cons_self
  split_ifs
  · have hown := hadd.updOwn hmem (by rw [hself]) fun t => { t with conn := Tcp.sockNoflush t.conn }
    rw [hself] at hown
    exact hown
  · exact hadd.sockDelFd hmem e

theorem Inv.acceptTurn (h : Inv st) (hfd : fd ∈ st.skList) (e : Tcp.Env) (newFd : Option ℕ)
    (addrOk : Bool) : Inv (acceptTurn e st fd idx newFd addrOk) := by
  unfold Bsd.acceptTurn
  rcases hi : (st.socks fd).listenQueue idx with _ | i <;> dsimp only
  · exact h
  split_ifs
  · exact h.release hfd hi _
  · exact h.takeConn hfd hi e newFd addrOk
  · exact h

theorem Inv.closeSlot (h : Inv st) (hfd : fd ∈ st.skList) (e : Tcp.Env) :
    Inv (closeSlot e fd st idx) ∧ fd ∈ (closeSlot e fd st idx).skList := by
  unfold Bsd.closeSlot
  rcases hi : (st.socks fd).listenQueue idx with _ | i <;> dsimp only
  · exact ⟨h, hfd⟩
  · exact ⟨h.release hfd hi _, hfd⟩

theorem Inv.closeStream (h : Inv st) (hfd : fd ∈ st.skList) (e : Tcp.Env) :
    Inv (closeStream e st fd) := by
  have hslots : ∀ (l : List ℤ) (st : Stack), Inv st → fd ∈ st.skList →
      Inv (l.foldl (Bsd.closeSlot e fd) st) ∧ fd ∈ (l.foldl (Bsd.closeSlot e fd) st).skList := by
    intro l
    induction l with
    | nil => exact fun st h hfd => ⟨h, hfd⟩
    | cons idx l ih =>
      intro st h hfd
      have hnext : Inv (Bsd.closeSlot e fd st idx) ∧ fd ∈ (Bsd.closeSlot e fd st idx).skList :=
        h.closeSlot hfd e
      exact ih _ hnext.1 hnext.2
  obtain ⟨h', hfd'⟩ := hslots _ st h hfd
  exact h'.sockDelFd hfd' e

/-! ## Steps and runs -/

/-- **A step keeps the invariant**, unless it resets a queued connection. -/
theorem Inv.step (h : Inv st) {ev : Event} (hno : NoQueuedReset st ev) : Inv (step st ev) := by
  unfold Bsd.step
  rcases hop : ev.op with ip | i | ⟨fd, idx, newFd, addrOk⟩ | fd | ⟨fd, op⟩ | fd <;> dsimp only
  · exact h.tcpHandler fun i hi => hno ip i hop hi
  · exact h.retransmit _
  · split_ifs with hl
    · exact h.acceptTurn (of_decide_eq_true hl.1).1 _ _ _
    · exact h
  · split_ifs with hl
    · exact h.closeStream (of_decide_eq_true hl).1 _
    · exact h
  · split_ifs with hc
    · obtain ⟨hfd, hacc⟩ := of_decide_eq_true hc
      exact h.updOwn hfd hacc fun t => { t with conn := Tcp.stepConn t.conn ⟨ev.e.toEnv, op⟩ }
    · exact h
  · split_ifs with hc
    · exact h.sockDelFd (of_decide_eq_true hc).1 _
    · exact h

/-- In a state with the invariant no queued control block listens, and so at most one of a socket. -/
theorem Inv.master (h : Inv st) (hfd : fd ∈ st.skList) (hi : Owns st fd i)
    (hs : (st.tcbs i).conn.s.state = .listen) : (st.socks fd).tcpSock = i := by
  rcases hi with hi | ⟨idx, hi⟩
  · exact hi
  · exact absurd hs (h.queued i ⟨fd, hfd, idx, hi⟩).state

/-- A turn of `accept` frees the slot of a connection that was reset or timed out. -/
theorem Inv.accept_frees (h : Inv st) (hfd : fd ∈ st.skList)
    (hi : (st.socks fd).listenQueue idx = some i) (hg : (st.tcbs i).gone = true) (e : Tcp.Env)
    (newFd : Option ℕ) (addrOk : Bool) :
    ((Bsd.acceptTurn e st fd idx newFd addrOk).socks fd).listenQueue idx = none := by
  have hdead := (h.queued i ⟨fd, hfd, idx, hi⟩).gone hg
  unfold Bsd.acceptTurn
  rw [hi]
  dsimp only
  rw [if_pos ⟨by rw [hdead.state]; decide, hdead.ipType⟩]
  simp [listenFree, Stack.updSock, Socket.setSlot]

/-- In a state with the invariant a step obeys the law exactly if it does not reset a queued
connection. -/
theorem Inv.law_iff (h : Inv st) (ev : Event) : QueueLaw st ev ↔ NoQueuedReset st ev := by
  constructor
  · intro hlaw ip i hop ht hq
    obtain ⟨hq', hs⟩ := h.tcpHandler_resets ht hq
    have hstep : Bsd.step st ev = Bsd.tcpHandler ev.e st ip := by
      unfold Bsd.step
      rw [hop]
    exact hlaw.queued i (hstep ▸ hq') (hstep ▸ hs)
  · intro hno
    have h' := h.step hno
    refine ⟨fun i hi => (h'.queued i hi).state, fun fd hfd i j hi hj hsi hsj => ?_,
      fun fd idx newFd addrOk i hop hl h0 hlt hi hg => ?_⟩
    · exact (h'.master hfd hi hsi).symm.trans (h'.master hfd hj hsj)
    · unfold Bsd.step
      rw [hop]
      dsimp only
      rw [if_pos ⟨hl, h0, hlt⟩]
      exact h.accept_frees (of_decide_eq_true hl).1 hi hg _ _ _

/-- **The control blocks of a listen-queue** never listen and their slots are freed, along a run from
fresh sockets, exactly if no reset is accepted for a queued connection. -/
theorem queue_law_iff (st : Stack) (h : Fresh st) (evs : List Event) :
    Always step QueueLaw st evs ↔ Always step NoQueuedReset st evs :=
  always_iff_of_invariant (I := Inv) (fun _ _ h hno => h.step hno) (fun _ ev h => h.law_iff ev) evs
    h.inv

/-- One socket that listens, with room for one connection. -/
theorem fresh_fullStack : Fresh (fullStack fun _ => none) where
  lt := by decide
  inj := by decide
  allsocs := by decide
  server := by decide
  empty := fun _ _ _ => rfl

/-- The handshake of 0.0.0.2, and `accept`. -/
theorem queue_law_handshake : Always step QueueLaw (fullStack fun _ => none)
    [⟨{}, .packet (synPacket 2 1)⟩, ⟨{}, .packet (tcpPacket 2 1 10 1 16)⟩,
      ⟨{}, .accept 3 0 (some 4) true⟩] := by
  refine (queue_law_iff (fullStack fun _ => none) fresh_fullStack _).mpr ⟨?_, ?_, ?_, trivial⟩
  · rintro ip i hop ht
    cases hop
    cases ht.symm.trans (show resetTarget {} _ (synPacket 2 1) = none by decide)
  · rintro ip i hop ht
    cases hop
    cases ht.symm.trans (show resetTarget {} _ (tcpPacket 2 1 10 1 16) = none by decide)
  · rintro ip i hop
    cases hop

/-- A reset between the SYN and the ACK of 0.0.0.2: its control block is back in LISTEN, in its slot,
and no turn of `accept` frees that. -/
theorem queue_law_fails :
    let evs : List Event := [⟨{}, .packet (synPacket 2 1)⟩, ⟨{}, .packet (tcpPacket 2 1 10 0 4)⟩]
    ¬ Always step QueueLaw (fullStack fun _ => none) evs ∧
    ((run step (fullStack fun _ => none) evs).tcbs 2).conn.s.state = .listen ∧
    ((run step (fullStack fun _ => none) (evs ++ [⟨{}, .accept 3 0 (some 4) true⟩])).socks
      3).listenQueue 0 = some 2 := by
  refine ⟨fun h => ?_, by decide, by decide⟩
  exact h.2.1.queued 2 ⟨3, by decide, 0, by decide⟩ (by decide)

end Watt32.Bsd
