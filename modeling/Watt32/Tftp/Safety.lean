import Watt32.Tftp.Network

/-!
# Safety of a transfer

Over a network that does not delay a datagram past 65535 later blocks, the client writes the file's
blocks from the first on.

* `NetInv`: what relates the client, its session and the datagrams on the way.
* **`net_safe`**: every state of a run is safe, for files that the block counter can count.
-/

namespace Watt32.Tftp

open Chunks Machine

/-- The client in `tftp_open`: it has acknowledged nothing, so no session is past its first block. -/
structure Opening (s : Net) : Prop where
  currblock : s.client.currblock = 0
  written : s.client.written = []
  noAck : ∀ k block num, ToServer.ack k block num ∉ s.toServer
  first : ∀ p ∈ s.sessions, p.2.block = 1

/-- The client in `tftp_get_block` with `m` blocks written: its session is at block `m` or at the
next one, and acknowledgments are for blocks up to `m` of this session. -/
structure Receiving (file : List Byte) (s : Net) (k m : ℕ) : Prop where
  currblock : s.client.currblock = BitVec.ofNat 32 m
  isopen : s.client.isopen = true
  blocksize : s.client.blocksize = (fileBlock file 1).length
  written : s.client.written = blocksTo file m
  pos : 0 < m
  last : m = lastBlock file → m = 1
  session : ∃ p, s.sessions[k]? = some p ∧ m ≤ p.2.block ∧ p.2.block ≤ m + 1
  peer : s.peer = some k
  acks : ∀ k' block num, ToServer.ack k' block num ∈ s.toServer → k' = k ∧ num ≤ m

/-- Where the client is. -/
def PhaseInv (file : List Byte) (s : Net) : Prop :=
  match s.client.pc with
  | .first _ => Opening s
  | .next _ => ∃ k m, Receiving file s k m
  | .done rc => s.client.written <+: blocksTo file (lastBlock file) ∧
      (rc = 1 → s.client.written = blocksTo file (lastBlock file))
  | .spin => False

/-- What holds of the sessions and the datagrams, and of the client. -/
structure NetInv (file : List Byte) (s : Net) : Prop where
  sessions : ∀ p ∈ s.sessions, 0 < p.2.block ∧ p.2.block ≤ lastBlock file
  data : ∀ d ∈ s.toClient, 0 < d.num ∧ d.bytes = Session.packet file { block := d.num } ∧
    ∃ p, s.sessions[d.session]? = some p ∧ d.num ≤ p.2.block
  acks : ∀ k block num, ToServer.ack k block num ∈ s.toServer → block = BitVec.ofNat 16 num
  phase : PhaseInv file s

section Safety

variable {cfg : Config} {file : List Byte} {s : Net} {port k m : ℕ}

theorem NetInv.safe (h : NetInv file s) : Safe file s := by
  have hblocks : s.client.written <+: blocksTo file (lastBlock file) ∧
      (s.client.pc = .done 1 → s.client.written = blocksTo file (lastBlock file)) := by
    have hphase := h.phase
    unfold PhaseInv at hphase
    cases hpc : s.client.pc with
    | first retry =>
      rw [hpc] at hphase
      exact ⟨hphase.written ▸ List.nil_prefix, fun h => by cases h⟩
    | next retry =>
      rw [hpc] at hphase
      obtain ⟨k, m, hr⟩ := hphase
      obtain ⟨p, hp, hm, -⟩ := hr.session
      have hlast := (h.sessions p (List.mem_of_getElem? hp)).2
      exact ⟨hr.written ▸ blocksTo_mono (hm.trans hlast), fun h => by cases h⟩
    | done rc =>
      rw [hpc] at hphase
      exact ⟨hphase.1, fun h => hphase.2 (by cases h; rfl)⟩
    | spin =>
      rw [hpc] at hphase
      exact hphase.elim
  refine ⟨hblocks.1, ?_, fun hdone => ?_⟩
  · obtain ⟨rest, hrest⟩ := hblocks.1
    have := congrArg List.flatten hrest
    rw [List.flatten_append, flatten_blocksTo_last] at this
    exact ⟨rest.flatten, this⟩
  · rw [hblocks.2 hdone, flatten_blocksTo_last]

/-! ## The server -/

/-- The client's part, when the server's changes. -/
theorem PhaseInv.server {sessions : List (ℕ × Session)} (h : PhaseInv file s)
    (toClient : List DataGram) (hfirst : Opening s → ∀ p ∈ sessions, p.2.block = 1)
    (hnext : ∀ k m, Receiving file s k m →
      ∃ p, sessions[k]? = some p ∧ m ≤ p.2.block ∧ p.2.block ≤ m + 1) :
    PhaseInv file { s with sessions := sessions, toClient := toClient } := by
  unfold PhaseInv at h ⊢
  dsimp only
  cases hpc : s.client.pc with
  | first retry =>
    rw [hpc] at h
    exact ⟨h.currblock, h.written, h.noAck, hfirst h⟩
  | next retry =>
    rw [hpc] at h
    obtain ⟨k, m, hr⟩ := h
    exact ⟨k, m, hr.currblock, hr.isopen, hr.blocksize, hr.written, hr.pos, hr.last,
      hnext k m hr, hr.peer, hr.acks⟩
  | done rc =>
    rw [hpc] at h
    exact h
  | spin =>
    rw [hpc] at h
    exact h

/-- The datagrams on the way, when the sessions' blocks have only grown. -/
theorem NetInv.data_mono {sessions : List (ℕ × Session)} (h : NetInv file s)
    (hmono : ∀ (k : ℕ) (p : ℕ × Session), s.sessions[k]? = some p →
      ∃ p', sessions[k]? = some p' ∧ p.2.block ≤ p'.2.block) :
    ∀ d ∈ s.toClient, 0 < d.num ∧ d.bytes = Session.packet file { block := d.num } ∧
      ∃ p, sessions[d.session]? = some p ∧ d.num ≤ p.2.block := by
  intro d hd
  obtain ⟨hpos, hbytes, p, hp, hle⟩ := h.data d hd
  obtain ⟨p', hp', hle'⟩ := hmono _ p hp
  exact ⟨hpos, hbytes, p', hp', hle.trans hle'⟩

theorem NetInv.sendBlock (h : NetInv file s) (k : ℕ) : NetInv file (s.sendBlock file k) := by
  unfold Net.sendBlock
  split
  · exact h
  · rename_i port t hk
    have hphase := h.phase.server (s.toClient ++ [⟨port, k, t.block, t.packet file⟩])
      (fun ho => ho.first) (fun _ _ hr => hr.session)
    refine ⟨h.sessions, fun d hd => ?_, h.acks, hphase⟩
    rcases List.mem_append.mp hd with hd | hd
    · exact h.data d hd
    · rw [List.mem_singleton] at hd
      subst hd
      exact ⟨(h.sessions _ (List.mem_of_getElem? hk)).1, rfl, _, hk, le_rfl⟩

/-- A request starts a session. -/
theorem NetInv.addSession (h : NetInv file s) (port : ℕ) :
    NetInv file { s with sessions := s.sessions ++ [(port, ({} : Session))] } := by
  have hold : ∀ (k : ℕ) (p : ℕ × Session), s.sessions[k]? = some p →
      (s.sessions ++ [(port, ({} : Session))])[k]? = some p := fun k p hp =>
    (List.getElem?_append_left (List.getElem?_eq_some_iff.mp hp).1).trans hp
  have hmem : ∀ p ∈ s.sessions ++ [(port, ({} : Session))], p ∈ s.sessions ∨ p.2.block = 1 := by
    intro p hp
    rcases List.mem_append.mp hp with hp | hp
    · exact .inl hp
    · rw [List.mem_singleton] at hp
      exact .inr (hp ▸ rfl)
  refine ⟨fun p hp => ?_, h.data_mono fun k p hp => ⟨p, hold k p hp, le_rfl⟩, h.acks, ?_⟩
  · rcases hmem p hp with hp | hp
    · exact h.sessions p hp
    · rw [hp]
      exact ⟨Nat.one_pos, Nat.le_add_left 1 _⟩
  · refine h.phase.server _ (fun ho p hp => ?_) (fun k m hr => ?_)
    · exact (hmem p hp).elim (ho.first p) id
    · obtain ⟨p, hp, hm⟩ := hr.session
      exact ⟨p, hold k p hp, hm⟩

/-- Numbers that agree in their lower halves and are close. -/
theorem eq_of_ofNat_eq {a b : ℕ} (h : BitVec.ofNat 16 a = BitVec.ofNat 16 b) (hab : a ≤ b)
    (hclose : b < a + 65536) : a = b := by
  rw [← BitVec.toNat_inj, BitVec.toNat_ofNat, BitVec.toNat_ofNat] at h
  omega

theorem acked_block (file : List Byte) (t : Session) (block : Word) :
    (t.acked file block).1.block = t.block ∨
      (t.acked file block).1.block = t.block + 1 ∧ t.block ≠ lastBlock file ∧
        BitVec.ofNat 16 t.block = block := by
  unfold Session.acked
  split_ifs with hno hend
  · exact .inl rfl
  · exact .inl rfl
  · exact .inr ⟨rfl, hend, (not_not.mp (not_or.mp hno).2).symm⟩

/-- An acknowledgment that is not late moves the session on only if it is for its block. -/
theorem NetInv.acked (h : NetInv file s) {k num : ℕ} {block : Word} {p : ℕ × Session}
    (hack : ToServer.ack k block num ∈ s.toServer) (hk : s.sessions[k]? = some p)
    (hfresh : p.2.block ≤ num + 65535) :
    NetInv file { s with sessions := s.sessions.set k (p.1, (p.2.acked file block).1) } := by
  obtain ⟨hpos, hlast⟩ := h.sessions p (List.mem_of_getElem? hk)
  have hklt := (List.getElem?_eq_some_iff.mp hk).1
  have hself : (s.sessions.set k (p.1, (p.2.acked file block).1))[k]? =
      some (p.1, (p.2.acked file block).1) := List.getElem?_set_self hklt
  have hblock := acked_block file p.2 block
  refine ⟨fun q hq => ?_, h.data_mono fun j q hq => ?_, h.acks, ?_⟩
  · rcases List.mem_or_eq_of_mem_set hq with hq | rfl
    · exact h.sessions q hq
    · dsimp only
      omega
  · by_cases hj : k = j
    · subst hj
      rw [hk] at hq
      cases hq
      exact ⟨_, hself, by dsimp only; omega⟩
    · exact ⟨q, (List.getElem?_set_ne hj).trans hq, le_rfl⟩
  · refine h.phase.server _ (fun ho => absurd hack (ho.noAck k block num)) (fun k' m hr => ?_)
    obtain ⟨rfl, hnum⟩ := hr.acks k block num hack
    obtain ⟨q, hq, hmq, hqm⟩ := hr.session
    rw [hk] at hq
    cases hq
    refine ⟨_, hself, ?_⟩
    dsimp only
    rcases hblock with hb | ⟨hb, -, hb'⟩
    · omega
    · -- the acknowledgment is for the block, which the client has
      have := eq_of_ofNat_eq ((h.acks k block num hack).symm.trans hb'.symm) (by omega) (by omega)
      omega

/-! ## The client -/

section Client

variable {c : Client} {retry : ℕ} {r : Received} {data : List Byte} {errno : TftpErrno}

theorem recvFirst_error (cfg : Config) (c : Client) (retry : ℕ) (h : recvPacket 1 r = .error errno) :
    c.recvFirst cfg retry r = ({ c with pc := .done 0 }, []) ∨
      c.recvFirst cfg retry r = ({ c with pc := .first (retry - 1) }, [.req]) := by
  unfold Client.recvFirst
  rw [h]
  dsimp only
  split_ifs
  · exact .inl rfl
  · exact .inr rfl

theorem recvNext_error (cfg : Config) (retry : ℕ) (h : recvPacket (c.currblock + 1) r = .error errno) :
    (∃ sent, c.recvNext cfg retry r = ({ c with isopen := false, pc := .done 0 }, sent) ∧
      (sent = [] ∨ sent = [.ack (c.currblock.truncate 16)])) ∨
    c.recvNext cfg retry r =
      ({ c with pc := .next (retry - 1) }, [.ack (c.currblock.truncate 16)]) := by
  unfold Client.recvNext
  rw [h]
  dsimp only
  split_ifs
  · exact .inl ⟨_, rfl, .inl rfl⟩
  · exact .inl ⟨_, rfl, .inr rfl⟩
  · exact .inr rfl

/-- After a block the client is back, or waits for the next one if the block is whole. -/
theorem load_bootLoop (cfg : Config) (data : List Byte)
    (hopen : ¬ data.length < c.blocksize → c.isopen = true)
    (hcur : ¬ data.length < c.blocksize → c.currblock ≠ 0) :
    ∃ isopen pc, (if (c.load cfg data).2 then (c.load cfg data).1.bootLoop cfg
        else (c.load cfg data).1) =
      { c with
        written := c.written ++ if data = [] then [] else [data]
        isopen := isopen
        pc := pc } ∧
      (pc = .next cfg.retry ∧ isopen = true ∧ ¬ data.length < c.blocksize ∨
        ∃ rc, pc = .done rc ∧ (rc = 1 → data.length < c.blocksize)) := by
  rcases load_cases cfg c data with ⟨rc, h, hrc⟩ | ⟨h, hwhole⟩
  · rw [h, if_neg Bool.false_ne_true]
    exact ⟨c.isopen, .done rc, rfl, .inr ⟨rc, rfl, hrc⟩⟩
  · rw [h, if_pos rfl, Client.bootLoop, if_neg (show ¬ c.isopen = false by rw [hopen hwhole]; decide), if_neg (hcur hwhole)]
    by_cases hr : cfg.retry = 0
    · rw [if_pos hr]
      exact ⟨false, .done 0, rfl, .inr ⟨0, rfl, fun h => absurd h (by decide)⟩⟩
    · rw [if_neg hr]
      exact ⟨c.isopen, .next cfg.retry, rfl, .inl ⟨rfl, hopen hwhole, hwhole⟩⟩

theorem recvFirst_ok (cfg : Config) (retry : ℕ) (h : recvPacket 1 r = .ok data) (hcur : c.currblock = 0) :
    ∃ isopen pc, c.recvFirst cfg retry r = ({ c with
        currblock := 1
        blocksize := data.length
        inbuf := data
        written := c.written ++ if data = [] then [] else [data]
        isopen := isopen
        pc := pc }, [.ack 1]) ∧
      (pc = .next cfg.retry ∧ isopen = true ∨ ∃ rc, pc = .done rc ∧ rc ≠ 1) := by
  obtain ⟨isopen, pc, hload, hpc⟩ := load_bootLoop cfg data
    (c := { c with currblock := 1, blocksize := data.length, inbuf := data, isopen := true })
    (fun _ => rfl) (fun _ => show (1 : Dword) ≠ 0 by decide)
  refine ⟨isopen, pc, ?_, ?_⟩
  · unfold Client.recvFirst
    rw [h]
    dsimp only
    rw [Client.bootLoop, if_neg Bool.false_ne_true.symm, if_pos hcur]
    dsimp only
    rw [if_neg (lt_irrefl _), hload]
  · rcases hpc with ⟨hpc, hopen, -⟩ | ⟨rc, hpc, hrc⟩
    · exact .inl ⟨hpc, hopen⟩
    · exact .inr ⟨rc, hpc, fun h => absurd (hrc h) (lt_irrefl _)⟩

theorem recvNext_ok (cfg : Config) (retry : ℕ) (h : recvPacket (c.currblock + 1) r = .ok data)
    (hopen : c.isopen = true)
    (hcur : ¬ data.length < c.blocksize → c.currblock + 1 ≠ 0) :
    ∃ isopen pc, c.recvNext cfg retry r = ({ c with
        currblock := c.currblock + 1
        inbuf := data
        written := c.written ++ if data = [] then [] else [data]
        isopen := isopen
        pc := pc }, [.ack ((c.currblock + 1).truncate 16)]) ∧
      (pc = .next cfg.retry ∧ isopen = true ∧ ¬ data.length < c.blocksize ∨
        ∃ rc, pc = .done rc ∧ (rc = 1 → data.length < c.blocksize)) := by
  obtain ⟨isopen, pc, hload, hpc⟩ := load_bootLoop cfg data
    (c := { c with
      currblock := c.currblock + 1
      inbuf := data
      isopen := if data.length < c.blocksize then false else c.isopen })
    (fun hwhole => by rw [if_neg hwhole, hopen]) hcur
  refine ⟨isopen, pc, ?_, hpc⟩
  unfold Client.recvNext
  rw [h]
  dsimp only at hload ⊢
  rw [hload]

end Client

/-- The session that the client is bound to. -/
theorem NetInv.bind (h : NetInv file s) (hpeer : s.peer = none ∨ s.peer = some k) :
    NetInv file { s with peer := some k } := by
  refine ⟨h.sessions, h.data, h.acks, ?_⟩
  have hphase := h.phase
  unfold PhaseInv at hphase ⊢
  dsimp only
  cases hpc : s.client.pc with
  | first retry =>
    rw [hpc] at hphase
    exact ⟨hphase.currblock, hphase.written, hphase.noAck, hphase.first⟩
  | next retry =>
    rw [hpc] at hphase
    obtain ⟨k', m, hr⟩ := hphase
    have hk : some k = some k' := by
      rcases hpeer with hpeer | hpeer
      · exact absurd (hpeer.symm.trans hr.peer) (by simp)
      · exact hpeer.symm.trans hr.peer
    exact ⟨k', m, hr.currblock, hr.isopen, hr.blocksize, hr.written, hr.pos, hr.last, hr.session,
      hk, hr.acks⟩
  | done rc =>
    rw [hpc] at hphase
    exact hphase
  | spin =>
    rw [hpc] at hphase
    exact hphase

/-- What the client gets: a datagram for it that is not late. -/
def FreshFor (s : Net) (r : Received) : Prop :=
  ∀ bytes, r = .packet bytes → ∃ d ∈ s.toClient, d.bytes = bytes ∧ s.peer = some d.session ∧
    s.client.currblock.toNat < d.num + 65535

/-- What the client takes is a block that its session has sent. -/
theorem NetInv.recvPacket_ok (h : NetInv file s) {r : Received} (hr : FreshFor s r)
    {block : Dword} {data : List Byte} (hok : recvPacket block r = .ok data) :
    ∃ num k p, BitVec.ofNat 16 num = block.truncate 16 ∧ data = fileBlock file num ∧
      0 < num ∧ s.peer = some k ∧ s.sessions[k]? = some p ∧ num ≤ p.2.block ∧
      s.client.currblock.toNat < num + 65535 := by
  cases r with
  | timeout => cases hok
  | unreachable => cases hok
  | packet bytes =>
    obtain ⟨d, hd, rfl, hpeer, hfresh⟩ := hr bytes rfl
    obtain ⟨hpos, hbytes, p, hp, hle⟩ := h.data d hd
    rw [hbytes, recvPacket_packet] at hok
    by_cases hnum : BitVec.ofNat 16 d.num = block.truncate 16
    · rw [if_pos hnum] at hok
      cases hok
      exact ⟨d.num, d.session, p, hnum, rfl, hpos, hpeer, hp, hle, hfresh⟩
    · rw [if_neg hnum] at hok
      cases hok

/-- The client in `tftp_open`. -/
theorem NetInv.receive_first (h : NetInv file s) (cfg : Config) (port : ℕ) {r : Received}
    (hr : FreshFor s r) {retry : ℕ} (hpc : s.client.pc = .first retry) :
    NetInv file (s.receive cfg port r) := by
  have ho : Opening s := by
    have := h.phase
    unfold PhaseInv at this
    rwa [hpc] at this
  unfold Net.receive Client.recv
  rw [hpc]
  dsimp only
  cases hrecv : recvPacket 1 r with
  | error errno =>
    rcases recvFirst_error cfg s.client retry hrecv with hc | hc
    · rw [hc]
      refine ⟨h.sessions, h.data, h.acks, ?_⟩
      exact ⟨ho.written ▸ List.nil_prefix, fun h => absurd h (by decide)⟩
    · rw [hc]
      have hack : ∀ k block num, ToServer.ack k block num ∈ s.toServer ++ [.req port] →
          ToServer.ack k block num ∈ s.toServer := by simp
      exact ⟨h.sessions, h.data, fun k block num hm => h.acks k block num (hack _ _ _ hm),
        ho.currblock, ho.written, fun k block num hm => ho.noAck k block num (hack _ _ _ hm),
        ho.first⟩
  | ok data =>
    obtain ⟨num, k, p, -, rfl, hpos, hpeer, hp, hle, -⟩ := h.recvPacket_ok hr hrecv
    -- the session has sent its first block only
    have hblock := ho.first p (List.mem_of_getElem? hp)
    obtain rfl : num = 1 := by omega
    obtain ⟨isopen, pc, hc, hpc'⟩ :=
      recvFirst_ok cfg retry hrecv ho.currblock
    have hack : ∀ k' block num, ToServer.ack k' block num ∈ s.toServer ++ [.ack k 1 1] →
        k' = k ∧ block = 1 ∧ num = 1 := by
      intro k' block num hm
      rcases List.mem_append.mp hm with hm | hm
      · exact absurd hm (ho.noAck _ _ _)
      · simpa using hm
    have hwritten : s.client.written ++ (if fileBlock file 1 = [] then [] else [fileBlock file 1]) =
        blocksTo file 1 := by
      rw [blocksTo_succ, ho.written]
      rfl
    rw [hc, hwritten]
    dsimp only [List.foldl_cons, List.foldl_nil, Net.send]
    rw [hpeer]
    refine ⟨h.sessions, h.data, fun k' block num hm => ?_, ?_⟩
    · obtain ⟨-, rfl, rfl⟩ := hack k' block num hm
      rfl
    · unfold PhaseInv
      dsimp only
      rcases hpc' with ⟨rfl, rfl⟩ | ⟨rc, rfl, hrc⟩
      · exact ⟨k, 1, rfl, rfl, rfl, rfl, Nat.one_pos, fun _ => rfl,
          ⟨p, hp, by omega, by omega⟩, rfl, fun k' block num hm =>
          ⟨(hack k' block num hm).1, (hack k' block num hm).2.2.le⟩⟩
      · exact ⟨blocksTo_mono (Nat.le_add_left 1 _), fun h => absurd h hrc⟩

/-- The acknowledgments after one more of them, for the block in `currblock`. -/
theorem NetInv.send_ack (h : NetInv file s) (hm : Receiving file s k m) {n : ℕ} (hmn : m ≤ n)
    {k' num : ℕ} {block : Word} (hmem : ToServer.ack k' block num ∈ s.toServer ++
      [.ack k ((BitVec.ofNat 32 n).truncate 16) (BitVec.ofNat 32 n).toNat]) :
    block = BitVec.ofNat 16 num ∧ k' = k ∧ num ≤ n := by
  rcases List.mem_append.mp hmem with hmem | hmem
  · obtain ⟨hk, hnum⟩ := hm.acks _ _ _ hmem
    exact ⟨h.acks _ _ _ hmem, hk, hnum.trans hmn⟩
  · rw [List.mem_singleton] at hmem
    cases hmem
    refine ⟨rfl, rfl, ?_⟩
    rw [BitVec.toNat_ofNat]
    exact Nat.mod_le _ _

/-- The client in `tftp_get_block`. -/
theorem NetInv.receive_next (h : NetInv file s) (hlen : file.length / segSize < 2 ^ 32)
    (cfg : Config) (port : ℕ) {r : Received} (hr : FreshFor s r) {retry : ℕ}
    (hpc : s.client.pc = .next retry) : NetInv file (s.receive cfg port r) := by
  obtain ⟨k, m, hm⟩ : ∃ k m, Receiving file s k m := by
    have := h.phase
    unfold PhaseInv at this
    rwa [hpc] at this
  obtain ⟨p, hp, hle, hge⟩ := hm.session
  have hlast := (h.sessions p (List.mem_of_getElem? hp)).2
  have hwritten : s.client.written <+: blocksTo file (lastBlock file) :=
    hm.written ▸ blocksTo_mono (hle.trans hlast)
  have hpeer := hm.peer
  have hcur := hm.currblock
  unfold Net.receive Client.recv
  rw [hpc]
  dsimp only
  cases hrecv : recvPacket (s.client.currblock + 1) r with
  | error errno =>
    rcases recvNext_error cfg retry hrecv with
      ⟨sent, hc, hsent⟩ | hc
    · rw [hc]
      rcases hsent with rfl | rfl
      · exact ⟨h.sessions, h.data, h.acks, hwritten, fun h => absurd h (by decide)⟩
      · dsimp only [List.foldl_cons, List.foldl_nil, Net.send]
        rw [hpeer, hcur]
        exact ⟨h.sessions, h.data, fun _ _ _ hmem => (h.send_ack hm le_rfl hmem).1,
          hwritten, fun h => absurd h (by decide)⟩
    · rw [hc]
      dsimp only [List.foldl_cons, List.foldl_nil, Net.send]
      rw [hpeer, hcur]
      exact ⟨h.sessions, h.data, fun _ _ _ hmem => (h.send_ack hm le_rfl hmem).1,
        k, m, rfl, hm.isopen, hm.blocksize, hm.written, hm.pos, hm.last, hm.session, rfl,
        fun _ _ _ hmem => (h.send_ack hm le_rfl hmem).2⟩
  | ok data =>
    have hsucc : s.client.currblock + 1 = BitVec.ofNat 32 (m + 1) := by
      rw [hcur, ofNat_add_one]
    obtain ⟨num, k', p', hnum, rfl, hpos, hpeer', hp', hnum_le, hfresh⟩ := h.recvPacket_ok hr hrecv
    obtain rfl : k' = k := Option.some.inj (hpeer'.symm.trans hpeer)
    obtain rfl : p' = p := Option.some.inj (hp'.symm.trans hp)
    -- it is the block after those that are written
    obtain rfl : num = m + 1 := by
      have hm32 : m < 2 ^ 32 := by
        have := hm.last
        unfold lastBlock at this hlast
        omega
      rw [hcur, BitVec.toNat_ofNat, Nat.mod_eq_of_lt hm32] at hfresh
      refine eq_of_ofNat_eq (hnum.trans ?_) (by omega) (by omega)
      rw [hsucc]
      exact BitVec.setWidth_ofNat_of_le (by decide) _
    have hle' : m + 1 ≤ lastBlock file := by omega
    -- a whole block has the length of the first one, and only the last block is short
    have hlast' : ¬ (fileBlock file (m + 1)).length < s.client.blocksize →
        m + 1 < lastBlock file := by
      intro hwhole
      by_contra hnot
      have hfirst : (fileBlock file 1).length = segSize := fileBlock_whole (by
        have := hm.pos
        unfold lastBlock at hle'
        omega)
      have hshort : (fileBlock file (lastBlock file)).length < segSize := fileBlock_last
      rw [show lastBlock file = m + 1 by omega] at hshort
      rw [hm.blocksize, hfirst] at hwhole
      exact hwhole hshort
    obtain ⟨isopen, pc, hc, hpc'⟩ := recvNext_ok cfg retry hrecv hm.isopen
      (fun hwhole => by
        have := hlast' hwhole
        unfold lastBlock at this
        rw [hsucc, ne_eq, ← BitVec.toNat_inj, BitVec.toNat_ofNat, Nat.mod_eq_of_lt (by omega)]
        exact Nat.succ_ne_zero m)
    have hwritten' : s.client.written ++ (if fileBlock file (m + 1) = [] then []
        else [fileBlock file (m + 1)]) = blocksTo file (m + 1) := by
      rw [blocksTo_succ, hm.written]
    rw [hc, hwritten', hsucc]
    dsimp only [List.foldl_cons, List.foldl_nil, Net.send]
    rw [hpeer]
    refine ⟨h.sessions, h.data, fun _ _ _ hmem => (h.send_ack hm (Nat.le_succ m) hmem).1, ?_⟩
    unfold PhaseInv
    dsimp only
    rcases hpc' with ⟨rfl, rfl, hwhole⟩ | ⟨rc, rfl, hrc⟩
    · exact ⟨k', m + 1, rfl, rfl, hm.blocksize, rfl, Nat.succ_pos m,
        fun hl => absurd hl (hlast' hwhole).ne, ⟨p', hp, hnum_le, by omega⟩, rfl,
        fun _ _ _ hmem => (h.send_ack hm (Nat.le_succ m) hmem).2⟩
    · refine ⟨blocksTo_mono hle', fun h1 => ?_⟩
      have hshort : (fileBlock file (m + 1)).length < segSize :=
        (hrc h1).trans_le (hm.blocksize ▸ fileBlock_length_le)
      have : lastBlock file ≤ m + 1 := Nat.succ_le_succ ((chunk_short segSize_pos).mp hshort)
      rw [le_antisymm this hle']

/-- What the client gets keeps the invariant, if it is not late. -/
theorem NetInv.receive (h : NetInv file s) (hlen : file.length / segSize < 2 ^ 32) (cfg : Config)
    (port : ℕ) {r : Received} (hr : FreshFor s r) : NetInv file (s.receive cfg port r) := by
  cases hpc : s.client.pc with
  | first retry => exact h.receive_first cfg port hr hpc
  | next retry => exact h.receive_next hlen cfg port hr hpc
  | done rc =>
    unfold Net.receive Client.recv
    rw [hpc]
    exact h
  | spin =>
    unfold Net.receive Client.recv
    rw [hpc]
    exact h

/-! ## Runs -/

theorem NetInv.start (cfg : Config) (isopen : Bool) (port : ℕ) :
    NetInv file (Net.start cfg isopen port) := by
  unfold Net.start Client.start
  split_ifs
  · exact ⟨by simp, by simp, by simp, List.nil_prefix, fun h => absurd h (by decide)⟩
  · exact ⟨by simp [Net.send], by simp [Net.send], by simp [Net.send], rfl, rfl,
      by simp [Net.send], by simp [Net.send]⟩

/-- Each step keeps the invariant, if no datagram is late. -/
theorem NetInv.step (h : NetInv file s) (hlen : file.length / segSize < 2 ^ 32) (cfg : Config)
    {e : NetEvent} (hdata : FreshData s e) (hack : FreshAck s e) :
    NetInv file (stepNet cfg file s e) := by
  cases e with
  | timeout port => exact h.receive hlen cfg port (fun _ hr => by cases hr)
  | unreachable port => exact h.receive hlen cfg port (fun _ hr => by cases hr)
  | toClient i port =>
    dsimp only [stepNet]
    cases hd : s.toClient[i]? with
    | none => exact h
    | some d =>
      dsimp only
      split_ifs with hpeer
      · refine (h.bind hpeer.2).receive hlen cfg port fun bytes hr => ?_
        cases hr
        exact ⟨d, List.mem_of_getElem? hd, rfl, rfl, hdata d hd⟩
      · exact h
  | toServer i =>
    dsimp only [stepNet, FreshAck] at hack ⊢
    cases hd : s.toServer[i]? with
    | none => exact h
    | some d =>
      cases d with
      | req port => exact (h.addSession port).sendBlock _
      | ack k block num =>
        rw [hd] at hack
        dsimp only at hack ⊢
        cases hk : s.sessions[k]? with
        | none => exact h
        | some p =>
          have hacked := h.acked (List.mem_of_getElem? hd) hk (hack p hk)
          dsimp only
          split_ifs
          · exact hacked.sendBlock k
          · exact hacked
  | resend k =>
    dsimp only [stepNet]
    cases hk : s.sessions[k]? with
    | none => exact h
    | some p =>
      dsimp only
      split_ifs
      · exact h
      · exact h.sendBlock k

end Safety

/-- **Safety.** The client writes the file's blocks from the first on, each once, and all of them
before it is back with success, however datagrams are lost, repeated and reordered, if none is
delayed past 65535 later blocks. -/
theorem net_safe (cfg : Config) (file : List Byte) (hlen : file.length / segSize < 2 ^ 32)
    (isopen : Bool) (port : ℕ) (evs : List NetEvent)
    (h : Always (stepNet cfg file) (fun s e => FreshData s e ∧ FreshAck s e)
      (Net.start cfg isopen port) evs) :
    Safe file (run (stepNet cfg file) (Net.start cfg isopen port) evs) :=
  NetInv.safe (run_invariant (fun _ _ hinv hfresh => hinv.step hlen cfg hfresh.1 hfresh.2) evs
    (NetInv.start cfg isopen port) h)

/-- A block and one byte more, with the request, a DATA datagram and an acknowledgment delivered
twice. -/
theorem net_safe_repeats :
    Safe (List.replicate 512 0 ++ [1]) (run (stepNet {} (List.replicate 512 0 ++ [1]))
      (Net.start {} false 69) [.toServer 0, .toServer 0, .toClient 0 0, .toClient 0 0, .toServer 1,
        .toServer 2, .timeout 0, .toClient 2 0]) :=
  net_safe {} _ (by decide +kernel) false 69 _ (by decide +kernel)


end Watt32.Tftp
