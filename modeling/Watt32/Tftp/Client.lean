import Watt32.Lib.Chunks

/-!
# The TFTP client

`tftp.c`: `tftp_boot_load` with `tftp_open`, `tftp_get_block` and `recv_packet`, as a machine that
stops where `recv_packet` waits for a packet.

* `recvPacket`: the tests on a packet.
* `Client.start`, `Client.recv`: from one wait to the next, with what is sent in between.
* `Session`: the server's end of one transfer, as RFC 1350 has it.
-/

namespace Watt32.Tftp

open Chunks

abbrev Byte := BitVec 8
abbrev Word := BitVec 16
abbrev Dword := BitVec 32

/-! ## Packets -/

/-- `SEGSIZE`. -/
def segSize : ℕ := 512

/-- `TFTP_HEADSIZE`. -/
def tftpHeadSize : ℕ := 4

/-- `DATA`. -/
def opData : Word := 3

/-- `ERROR`. -/
def opError : Word := 5

/-- `tftp_errno`. -/
inductive TftpErrno
  | inv
  | err
  | op
  | block
  | timeout
  | unknown
deriving DecidableEq

/-- What the wait of `recv_packet` ends with. -/
inductive Received
  | timeout
  | unreachable
  | packet (bytes : List Byte)

/-- `recv_packet`: the data of the packet, if it is block `block`. -/
def recvPacket (block : Dword) : Received → Except TftpErrno (List Byte)
  | .timeout => .error .timeout
  | .unreachable => .error .unknown
  | .packet bytes =>
    match bytes.take (tftpHeadSize + segSize) with
    | o₁ :: o₂ :: b₁ :: b₂ :: data =>
      if o₁ ++ o₂ = opError then .error .err
      else if o₁ ++ o₂ ≠ opData then .error .op
      else if b₁ ++ b₂ ≠ block.truncate 16 then .error .block
      else .ok data
    | _ => .error .inv

/-- The errors after which retries are useless. -/
def TftpErrno.fatal (errno : TftpErrno) : Bool := errno = .err ∨ errno = .unknown

/-- What the client sends: `send_req` and `send_ack`. -/
inductive Sent
  | req
  | ack (block : Word)
deriving DecidableEq

/-! ## The client -/

/-- The configuration: `tftp_retry`, and whether `_tftp_write` takes the data after what it has been
given before. -/
structure Config where
  retry : ℕ := 5
  write : List (List Byte) → List Byte → Bool := fun _ _ => true

/-- Where the client stands: in `tftp_open` or `tftp_get_block` with `retry` waits left, or back
from `tftp_boot_load`. `spin` is its loop turning without a wait. -/
inductive Pc
  | first (retry : ℕ)
  | next (retry : ℕ)
  | done (rc : ℤ)
  | spin
deriving DecidableEq

/-- The variables of the transfer. `inbuf` is the data in the input buffer, `ibuflen` their number.
`written` are the calls of `_tftp_write`. -/
structure Client where
  currblock : Dword := 0
  blocksize : ℕ := 0
  inbuf : List Byte := []
  isopen : Bool := false
  written : List (List Byte) := []
  pc : Pc

/-- The rest of the loop of `tftp_boot_load` for a block, and whether the loop goes on. -/
def Client.load (cfg : Config) (c : Client) (buf : List Byte) : Client × Bool :=
  let c' := if buf = [] then c else { c with written := c.written ++ [buf] }
  if buf ≠ [] ∧ cfg.write c.written buf = false then ({ c' with pc := .done (-1) }, false)
  else if buf.length < c.blocksize then ({ c' with pc := .done 1 }, false)
  else (c', true)

@[simp] theorem load_currblock (cfg : Config) (c : Client) (buf : List Byte) :
    (c.load cfg buf).1.currblock = c.currblock := by
  unfold Client.load
  dsimp only
  split_ifs <;> rfl

/-- The loop of `tftp_boot_load` from a call of `tftp_get_block` to its first wait. -/
def Client.bootLoop (cfg : Config) (c : Client) : Client :=
  if c.isopen = false then { c with pc := if 0 < c.blocksize then .done 1 else .spin }
  else if c.currblock = 0 then
    -- taken for the first block, which is in the buffer already
    let c := { c with
      currblock := 1
      isopen := if c.inbuf.length < c.blocksize then false else c.isopen }
    if (c.load cfg c.inbuf).2 then (c.load cfg c.inbuf).1.bootLoop cfg
    else (c.load cfg c.inbuf).1
  else if cfg.retry = 0 then { c with isopen := false, pc := .done 0 }
  else { c with pc := .next cfg.retry }
termination_by if c.currblock = 0 then 1 else 0
decreasing_by simp [*]

/-- `tftp_boot_load` up to the first wait. -/
def Client.start (cfg : Config) (isopen : Bool) : Client × List Sent :=
  if cfg.retry = 0 then ({ isopen := isopen, pc := .done 0 }, [])
  else ({ isopen := isopen, pc := .first cfg.retry }, [.req])

/-- From a wait in `tftp_open` to the next wait. -/
def Client.recvFirst (cfg : Config) (c : Client) (retry : ℕ) (r : Received) : Client × List Sent :=
  match recvPacket 1 r with
  | .ok data =>
    ({ c with blocksize := data.length, inbuf := data, isopen := true }.bootLoop cfg, [.ack 1])
  | .error errno =>
    if errno.fatal ∨ retry ≤ 1 then ({ c with pc := .done 0 }, [])
    else ({ c with pc := .first (retry - 1) }, [.req])

/-- From a wait in `tftp_get_block` to the next wait. -/
def Client.recvNext (cfg : Config) (c : Client) (retry : ℕ) (r : Received) : Client × List Sent :=
  match recvPacket (c.currblock + 1) r with
  | .ok data =>
    let c := { c with
      currblock := c.currblock + 1
      inbuf := data
      isopen := if data.length < c.blocksize then false else c.isopen }
    (if (c.load cfg data).2 then (c.load cfg data).1.bootLoop cfg else (c.load cfg data).1,
      [.ack (c.currblock.truncate 16)])
  | .error errno =>
    if errno.fatal then ({ c with isopen := false, pc := .done 0 }, [])
    else if retry ≤ 1 then
      ({ c with isopen := false, pc := .done 0 }, [.ack (c.currblock.truncate 16)])
    else ({ c with pc := .next (retry - 1) }, [.ack (c.currblock.truncate 16)])

/-- From one wait to the next. -/
def Client.recv (cfg : Config) (c : Client) (r : Received) : Client × List Sent :=
  match c.pc with
  | .first retry => c.recvFirst cfg retry r
  | .next retry => c.recvNext cfg retry r
  | .done _ => (c, [])
  | .spin => (c, [])

/-! ## The server -/

/-- The number of the last block of a file, which is the first short one. -/
def lastBlock (file : List Byte) : ℕ := file.length / segSize + 1

/-- Block `n` of a file, from `1`. -/
def fileBlock (file : List Byte) (n : ℕ) : List Byte := chunk segSize file (n - 1)

/-- A DATA packet. -/
def dataPacket (block : Word) (data : List Byte) : List Byte :=
  [0, 3, block.extractLsb' 8 8, block.extractLsb' 0 8] ++ data

/-- A transfer at the server: the block sent last, which has not been acknowledged unless it is
`ended`. -/
structure Session where
  block : ℕ := 1
  ended : Bool := false
deriving DecidableEq

/-- The packet of the block sent last; the header has its number modulo `2 ^ 16`. -/
def Session.packet (file : List Byte) (s : Session) : List Byte :=
  dataPacket (BitVec.ofNat 16 s.block) (fileBlock file s.block)

/-- An acknowledgment at the server, and whether the next block is sent. -/
def Session.acked (file : List Byte) (s : Session) (block : Word) : Session × Bool :=
  if s.ended ∨ block ≠ BitVec.ofNat 16 s.block then (s, false)
  else if s.block = lastBlock file then ({ s with ended := true }, false)
  else ({ s with block := s.block + 1 }, true)

/-! ## What the client makes of a packet -/

section Packets

variable {block : Dword} {num : Word} {data file : List Byte}

/-- A DATA packet is taken exactly if its number is the lower half of the block's. -/
theorem recvPacket_dataPacket (h : data.length ≤ segSize) :
    recvPacket block (.packet (dataPacket num data)) =
      if num = block.truncate 16 then .ok data else .error .block := by
  have hnum : num.extractLsb' 8 8 ++ num.extractLsb' 0 8 = num := by
    rw [BitVec.extractLsb'_append_extractLsb'_eq_extractLsb' (by rfl)]
    exact BitVec.extractLsb'_eq_self
  have htake : (dataPacket num data).take (tftpHeadSize + segSize) = dataPacket num data :=
    List.take_of_length_le (by simp only [dataPacket, tftpHeadSize, List.length_append,
      List.length_cons, List.length_nil]; omega)
  unfold recvPacket
  dsimp only
  rw [htake]
  dsimp only [dataPacket, List.cons_append, List.nil_append]
  rw [if_neg (by decide), if_neg (by decide), hnum, ite_not]

theorem segSize_pos : 0 < segSize := by decide

theorem fileBlock_length_le {n : ℕ} : (fileBlock file n).length ≤ segSize := length_chunk_le

theorem fileBlock_whole {m : ℕ} (hm : m < file.length / segSize) :
    (fileBlock file (m + 1)).length = segSize := chunk_whole segSize_pos hm

/-- The last block is short. -/
theorem fileBlock_last : (fileBlock file (lastBlock file)).length < segSize :=
  (chunk_short segSize_pos).mpr le_rfl

/-- The number of the next block, and its lower half. -/
theorem ofNat_add_one (m : ℕ) : BitVec.ofNat 32 m + 1 = BitVec.ofNat 32 (m + 1) :=
  (BitVec.ofNat_add m 1).symm

theorem truncate_ofNat_add_one {m : ℕ} :
    (BitVec.ofNat 32 m + 1).truncate 16 = BitVec.ofNat 16 (m + 1) := by
  rw [ofNat_add_one]
  exact BitVec.setWidth_ofNat_of_le (by decide) _

theorem recvPacket_packet {s : Session} :
    recvPacket block (.packet (s.packet file)) =
      if BitVec.ofNat 16 s.block = block.truncate 16 then .ok (fileBlock file s.block)
      else .error .block :=
  recvPacket_dataPacket fileBlock_length_le

end Packets

/-! ## What the client does with a block -/

section Turns

variable {cfg : Config} {c : Client} {buf : List Byte} {retry : ℕ}

theorem load_written :
    (c.load cfg buf).1.written = c.written ++ if buf = [] then [] else [buf] := by
  unfold Client.load
  dsimp only
  by_cases hbuf : buf = []
  · rw [if_pos hbuf, if_neg fun h => h.1 hbuf, if_pos hbuf, List.append_nil]
    split_ifs <;> rfl
  · rw [if_neg hbuf, if_neg hbuf]
    split_ifs <;> rfl

/-- A short block ends the transfer. -/
theorem load_short (hw : ∀ w b, cfg.write w b = true) (h : buf.length < c.blocksize) :
    c.load cfg buf = ({ c with
      written := c.written ++ if buf = [] then [] else [buf]
      pc := .done 1 }, false) := by
  unfold Client.load
  dsimp only
  rw [if_neg (by simp [hw]), if_pos h]
  by_cases hbuf : buf = [] <;> simp [hbuf]

theorem load_whole (hw : ∀ w b, cfg.write w b = true) (h : ¬ buf.length < c.blocksize) :
    c.load cfg buf =
      ({ c with written := c.written ++ if buf = [] then [] else [buf] }, true) := by
  unfold Client.load
  dsimp only
  rw [if_neg (by simp [hw]), if_neg h]
  by_cases hbuf : buf = [] <;> simp [hbuf]

theorem bootLoop_next (hopen : c.isopen = true) (hcur : c.currblock ≠ 0) (hr : cfg.retry ≠ 0) :
    c.bootLoop cfg = { c with pc := .next cfg.retry } := by
  unfold Client.bootLoop
  rw [if_neg (by rw [hopen]; decide), if_neg hcur, if_neg hr]

/-- With the block number `0` the buffer is written once more. -/
theorem bootLoop_zero (hw : ∀ w b, cfg.write w b = true) (hopen : c.isopen = true)
    (hcur : c.currblock = 0) (hbuf : c.inbuf.length = c.blocksize) (hr : cfg.retry ≠ 0) :
    c.bootLoop cfg = { c with
      currblock := 1
      written := c.written ++ if c.inbuf = [] then [] else [c.inbuf]
      pc := .next cfg.retry } := by
  rw [Client.bootLoop, if_neg (by rw [hopen]; decide), if_pos hcur]
  dsimp only
  have hlt : ¬ c.inbuf.length < c.blocksize := by omega
  rw [if_neg hlt, load_whole hw, if_pos rfl]
  · exact bootLoop_next hopen (show (1 : Dword) ≠ 0 by decide) hr
  · exact hlt

/-- The loop ends after a block, or goes on if the block is whole. -/
theorem load_cases (cfg : Config) (c : Client) (buf : List Byte) :
    (∃ rc, c.load cfg buf = ({ c with
        written := c.written ++ if buf = [] then [] else [buf]
        pc := .done rc }, false) ∧ (rc = 1 → buf.length < c.blocksize)) ∨
    c.load cfg buf = ({ c with written := c.written ++ if buf = [] then [] else [buf] }, true) ∧
      ¬ buf.length < c.blocksize := by
  have hc' : (if buf = [] then c else { c with written := c.written ++ [buf] }) =
      { c with written := c.written ++ if buf = [] then [] else [buf] } := by
    by_cases hbuf : buf = [] <;> simp [hbuf]
  unfold Client.load
  dsimp only
  rw [hc']
  by_cases hwrite : buf ≠ [] ∧ cfg.write c.written buf = false
  · rw [if_pos hwrite]
    exact .inl ⟨-1, rfl, fun h => absurd h (by decide)⟩
  · rw [if_neg hwrite]
    by_cases hshort : buf.length < c.blocksize
    · rw [if_pos hshort]
      exact .inl ⟨1, rfl, fun _ => hshort⟩
    · rw [if_neg hshort]
      exact .inr ⟨rfl, hshort⟩

/-! What is written stays written. -/

theorem bootLoop_written_of_ne (hcur : c.currblock ≠ 0) :
    (c.bootLoop cfg).written = c.written := by
  rw [Client.bootLoop, if_neg hcur]
  split_ifs <;> rfl

theorem load_bootLoop_written {w : List (List Byte)} (hw : c.written = w)
    (hloop : ∀ c' : Client, c'.currblock = c.currblock →
      c'.written <+: (c'.bootLoop cfg).written) :
    w <+: (if (c.load cfg buf).2 then (c.load cfg buf).1.bootLoop cfg
      else (c.load cfg buf).1).written := by
  have hload : w <+: (c.load cfg buf).1.written := by
    rw [load_written, hw]
    exact List.prefix_append _ _
  split_ifs
  · exact hload.trans (hloop _ (load_currblock cfg c buf))
  · exact hload

theorem bootLoop_written : c.written <+: (c.bootLoop cfg).written := by
  by_cases hcur : c.currblock = 0
  · rw [Client.bootLoop, if_pos hcur]
    by_cases hopen : c.isopen = false
    · rw [if_pos hopen]
    · rw [if_neg hopen]
      refine load_bootLoop_written rfl fun c' hc' => ?_
      rw [bootLoop_written_of_ne (by rw [hc']; exact show (1 : Dword) ≠ 0 by decide)]
  · rw [bootLoop_written_of_ne hcur]

theorem recv_written (cfg : Config) (c : Client) (r : Received) : c.written <+: (c.recv cfg r).1.written := by
  unfold Client.recv
  cases c.pc with
  | done rc => exact List.prefix_rfl
  | spin => exact List.prefix_rfl
  | first retry =>
    dsimp only [Client.recvFirst]
    cases recvPacket 1 r with
    | error errno =>
      dsimp only
      split_ifs <;> exact List.prefix_rfl
    | ok data =>
      refine List.IsPrefix.trans ?_ bootLoop_written
      exact List.prefix_rfl
  | next retry =>
    dsimp only [Client.recvNext]
    cases recvPacket (c.currblock + 1) r with
    | error errno =>
      dsimp only
      split_ifs <;> exact List.prefix_rfl
    | ok data =>
      exact load_bootLoop_written rfl fun c' _ => bootLoop_written

end Turns

end Watt32.Tftp
