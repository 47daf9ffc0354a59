import Watt32.Lib.Circular
import Watt32.Lib.Run

/-!
# The receive ring

`struct pkt_ringbuf` of `pcqueue.c` with its producers `sock_packet_peek` and `send_loopback` and its consumer
`sock_packet_receive`, taken step by step.

* `Ringbuf`: the ring; `pktqIncIn`, `pktqIncOut`, `pktqInIndex`, `pktqInBuf`, `pktqOutBuf`, `pktqQueued`.
* `Act`, `step`: what a producer and a consumer do between two points where the other may come in.
* `Fifo`: the ring is a queue; `RefusesWhenFull`: a frame is refused for want of room only.
* **`ring_is_fifo`**: so it is after every run.
-/

namespace Watt32.Pktq

abbrev Word := BitVec 16
abbrev Dword := BitVec 32

/-! ## The source -/

/-- `struct pkt_ringbuf`; `buf_start` is an address. -/
structure Ringbuf where
  inIndex : Word
  outIndex : Word
  bufSize : Word
  numBuf : Word
  numDrop : Dword
  bufStart : ℕ
  deriving DecidableEq, Repr

/-- `pktq_init`, in a structure that `calloc` cleared. -/
def pktqInit (size num : Word) (buf : ℕ) : Ringbuf where
  inIndex := 0
  outIndex := 0
  bufSize := size
  numBuf := num
  numDrop := 0
  bufStart := buf

/-- `pktq_inc_in`. -/
def pktqIncIn (q : Ringbuf) : Ringbuf :=
  let q := { q with inIndex := q.inIndex + 1 }
  if q.numBuf ≤ q.inIndex then { q with inIndex := 0 } else q

/-- `pktq_inc_out`. -/
def pktqIncOut (q : Ringbuf) : Ringbuf :=
  let q := { q with outIndex := q.outIndex + 1 }
  if q.numBuf ≤ q.outIndex then { q with outIndex := 0 } else q

/-- `pktq_in_index`: an `int`. -/
def pktqInIndex (q : Ringbuf) : ℕ :=
  let index := q.inIndex.toNat + 1
  if q.numBuf.toNat ≤ index then 0 else index

/-- The address of a buffer. -/
def Ringbuf.buf (q : Ringbuf) (index : ℕ) : ℕ := q.bufStart + q.bufSize.toNat * index

/-- `pktq_in_buf` and `pktq_out_buf`. -/
def pktqInBuf (q : Ringbuf) : ℕ := q.buf q.inIndex.toNat
def pktqOutBuf (q : Ringbuf) : ℕ := q.buf q.outIndex.toNat

/-- `pktq_queued`; `none` when its loop is not over after `fuel` rounds. -/
def pktqQueued (fuel : ℕ) (q : Ringbuf) : Option ℕ := loop fuel q.outIndex.toNat 0
where
  loop : (fuel index num : ℕ) → Option ℕ
    | 0, index, num => if index = q.inIndex.toNat then some num else none
    | fuel + 1, index, num =>
      if index = q.inIndex.toNat then some num
      else loop fuel (if q.numBuf.toNat ≤ index + 1 then 0 else index + 1) (num + 1)

/-- The functions that put frames. -/
inductive Producer
  | sockPacketPeek | sendLoopback
  deriving DecidableEq

/-- How they make the frame part of the queue: `pktq_inc_in (q)`, or `q->in_index = pktq_in_index (q)`. -/
def Producer.advance (w : Producer) (q : Ringbuf) : Ringbuf :=
  match w with
  | .sockPacketPeek => pktqIncIn q
  | .sendLoopback => { q with inIndex := BitVec.ofNat 16 (pktqInIndex q) }

/-- Where a producer is: outside, past the test for room, past the copy. -/
inductive Put (α : Type)
  | idle
  | room (w : Producer) (frame : α)
  | copied (w : Producer) (frame : α)

/-- Where a consumer is: outside, past the test for an empty ring, past the copy. -/
inductive Take (α : Type)
  | idle
  | found
  | copied (frame : α)

/-- The ring, what is at the addresses of its buffers, where producer and consumer are; then the frames put,
the frames taken and the number of those refused. -/
structure State (α : Type) where
  q : Ringbuf
  pool : ℕ → α
  put : Put α := .idle
  take : Take α := .idle
  arrived : List α := []
  taken : List α := []
  refused : ℕ := 0

/-- The next thing that happens. -/
inductive Act (α : Type)
  | test (w : Producer) (frame : α)
  | copyIn
  | advanceIn
  | look
  | copyOut
  | advanceOut

variable {α : Type}

/-- A step of the producer or the consumer, when it is there. -/
def step (s : State α) : Act α → State α
  | .test w frame =>
    match s.put with
    | .idle =>
      if pktqInIndex s.q = s.q.outIndex.toNat
      then { s with q := { s.q with numDrop := s.q.numDrop + 1 }, refused := s.refused + 1 }
      else { s with put := .room w frame }
    | _ => s
  | .copyIn =>
    match s.put with
    | .room w frame => { s with
        pool := Function.update s.pool (pktqInBuf s.q) frame
        put := .copied w frame }
    | _ => s
  | .advanceIn =>
    match s.put with
    | .copied w frame => { s with
        q := w.advance s.q
        put := .idle
        arrived := s.arrived ++ [frame] }
    | _ => s
  | .look =>
    match s.take with
    | .idle => if s.q.inIndex = s.q.outIndex then s else { s with take := .found }
    | _ => s
  | .copyOut =>
    match s.take with
    | .found => { s with take := .copied (s.pool (pktqOutBuf s.q)) }
    | _ => s
  | .advanceOut =>
    match s.take with
    | .copied frame => { s with
        q := pktqIncOut s.q
        take := .idle
        taken := s.taken ++ [frame] }
    | _ => s

/-! ## The law -/

/-- The ring is a queue: of the frames put, the first are taken, in their order, and the others are in their
buffers. -/
structure Fifo (num : Word) (s : State α) : Prop where
  same : s.q.numBuf = num
  in_lt : s.q.inIndex < num
  out_lt : s.q.outIndex < num
  queued : ∀ fuel, num.toNat ≤ fuel → pktqQueued fuel s.q = some (s.arrived.length - s.taken.length)
  order : s.taken <+: s.arrived
  kept : ∀ i (hi : s.taken.length + i < s.arrived.length),
    s.pool (s.q.buf ((s.q.outIndex.toNat + i) % num.toNat)) = s.arrived.get ⟨s.taken.length + i, hi⟩
  counted : s.q.numDrop = BitVec.ofNat 32 s.refused

/-- A frame is refused only when `num_buf - 1` frames are queued. -/
def RefusesWhenFull (num : Word) (s : State α) (a : Act α) : Prop :=
  (step s a).refused ≠ s.refused → s.arrived.length = s.taken.length + (num.toNat - 1)

/-- What the ring has before its first frame. -/
def start (size num : Word) (buf : ℕ) (pool : ℕ → α) : State α where
  q := pktqInit size num buf
  pool := pool

/-! ## The indices -/

variable {num : Word} {q : Ringbuf} {s : State α} {l : List α}

theorem pktqInIndex_eq : pktqInIndex q = Circular.next q.numBuf.toNat q.inIndex.toNat := rfl

/-- A WORD index wraps as the index does. -/
theorem toNat_wrap {i : Word} (h : i.toNat < num.toNat) :
    (if num ≤ i + 1 then 0 else i + 1).toNat = Circular.next num.toNat i.toNat := by
  have hnum := num.isLt
  have hadd : (i + 1).toNat = i.toNat + 1 := by
    rw [BitVec.toNat_add]
    exact Nat.mod_eq_of_lt (show i.toNat + 1 < 2 ^ 16 by omega)
  unfold Circular.next
  rw [← hadd]
  simp only [BitVec.le_def]
  split_ifs <;> rfl

theorem pktqIncIn_eq :
    pktqIncIn q = { q with inIndex := if q.numBuf ≤ q.inIndex + 1 then 0 else q.inIndex + 1 } := by
  unfold pktqIncIn
  dsimp only
  split_ifs <;> rfl

theorem pktqIncOut_eq :
    pktqIncOut q = { q with outIndex := if q.numBuf ≤ q.outIndex + 1 then 0 else q.outIndex + 1 } := by
  unfold pktqIncOut
  dsimp only
  split_ifs <;> rfl

/-- Both producers step the same index to the same slot. -/
theorem advance_eq (w : Producer) (h : q.inIndex.toNat < q.numBuf.toNat) : ∃ i : Word,
    w.advance q = { q with inIndex := i } ∧ i.toNat = Circular.next q.numBuf.toNat q.inIndex.toNat := by
  cases w with
  | sockPacketPeek => exact ⟨_, pktqIncIn_eq, toNat_wrap h⟩
  | sendLoopback =>
    refine ⟨_, rfl, ?_⟩
    rw [pktqInIndex_eq, BitVec.toNat_ofNat]
    exact Nat.mod_eq_of_lt ((Circular.next_lt h).trans q.numBuf.isLt)

theorem incOut_eq (h : q.outIndex.toNat < q.numBuf.toNat) : ∃ i : Word,
    pktqIncOut q = { q with outIndex := i } ∧ i.toNat = Circular.next q.numBuf.toNat q.outIndex.toNat :=
  ⟨_, pktqIncOut_eq, toNat_wrap h⟩

/-- Different buffers have different addresses. -/
theorem buf_injective (h : 0 < q.bufSize.toNat) : Function.Injective q.buf := by
  intro i j hij
  exact Nat.eq_of_mul_eq_mul_left h (Nat.add_left_cancel hij)

theorem pktqQueued_eq {fuel : ℕ} :
    pktqQueued fuel q = Circular.count q.numBuf.toNat q.inIndex.toNat fuel q.outIndex.toNat 0 := by
  have hloop : ∀ (fuel index num : ℕ), pktqQueued.loop q fuel index num =
      Circular.count q.numBuf.toNat q.inIndex.toNat fuel index num := by
    intro fuel
    induction fuel with
    | zero => intro index num; rfl
    | succ fuel ih =>
      intro index num
      rw [pktqQueued.loop, Circular.count, ih]
      rfl
  exact hloop fuel _ 0

/-! ## The invariant -/

/-- A producer past its test has room; past the copy, its frame is at the in-index. -/
def Put.Ok (q : Ringbuf) (pool : ℕ → α) (l : List α) : Put α → Prop
  | .idle => True
  | .room _ _ => l.length + 1 < q.numBuf.toNat
  | .copied _ frame => l.length + 1 < q.numBuf.toNat ∧ pool (pktqInBuf q) = frame

/-- A consumer past its test has a frame; past the copy, it is the first one. -/
def Take.Ok (l : List α) : Take α → Prop
  | .idle => True
  | .found => l ≠ []
  | .copied frame => ∃ l', l = frame :: l'

/-- The queue `l` is what is put and not taken. -/
structure Inv (num : Word) (s : State α) (l : List α) : Prop where
  same : s.q.numBuf = num
  arrived : s.arrived = s.taken ++ l
  size : 0 < s.q.bufSize.toNat
  holds : Circular.Holds s.q.numBuf.toNat (s.pool ∘ s.q.buf) s.q.outIndex.toNat s.q.inIndex.toNat l
  put : s.put.Ok s.q s.pool l
  take : s.take.Ok l
  counted : s.q.numDrop = BitVec.ofNat 32 s.refused

theorem inv_start {size num : Word} (hsize : 0 < size) (hnum : 0 < num) (buf : ℕ) (pool : ℕ → α) :
    Inv num (start size num buf pool) [] where
  same := rfl
  arrived := rfl
  size := BitVec.lt_def.mp hsize
  holds := Circular.Holds.nil (BitVec.lt_def.mp hnum)
  put := trivial
  take := trivial
  counted := rfl

/-! ## Steps -/

/-- The test for room tells whether all slots but one are used. -/
theorem Inv.full_iff (h : Inv num s l) :
    pktqInIndex s.q = s.q.outIndex.toNat ↔ l.length + 1 = s.q.numBuf.toNat :=
  h.holds.full_iff

theorem Inv.test (h : Inv num s l) (w : Producer) (frame : α) : Inv num (step s (.test w frame)) l := by
  unfold step
  cases hput : s.put with
  | idle =>
    dsimp only
    split_ifs with hfull
    · refine ⟨h.same, h.arrived, h.size, h.holds, trivial, h.take, ?_⟩
      show s.q.numDrop + 1 = BitVec.ofNat 32 (s.refused + 1)
      rw [h.counted, BitVec.ofNat_add]
      rfl
    · refine ⟨h.same, h.arrived, h.size, h.holds, ?_, h.take, h.counted⟩
      have hne := mt h.full_iff.mpr hfull
      have hroom := h.holds.room
      show l.length + 1 < s.q.numBuf.toNat
      omega
  | room => exact h
  | copied => exact h

theorem Inv.copyIn (h : Inv num s l) : Inv num (step s .copyIn) l := by
  unfold step
  cases hput : s.put with
  | idle => exact h
  | room w frame =>
    have hroom : l.length + 1 < s.q.numBuf.toNat := by
      have := h.put
      rwa [hput] at this
    refine ⟨h.same, h.arrived, h.size, ?_, ⟨hroom, Function.update_self ..⟩, h.take, h.counted⟩
    have hwrite := h.holds.write frame
    rwa [← Function.update_comp_eq_of_injective s.pool (buf_injective h.size)] at hwrite
  | copied => exact h

theorem Inv.advanceIn (h : Inv num s l) : ∃ l', Inv num (step s .advanceIn) l' := by
  unfold step
  cases hput : s.put with
  | idle => exact ⟨l, h⟩
  | room => exact ⟨l, h⟩
  | copied w frame =>
    obtain ⟨hroom, hframe⟩ : l.length + 1 < s.q.numBuf.toNat ∧ s.pool (pktqInBuf s.q) = frame := by
      have := h.put
      rwa [hput] at this
    obtain ⟨i, hi, hnext⟩ := advance_eq w h.holds.tail_lt
    refine ⟨l ++ [frame], ?_⟩
    dsimp only
    rw [hi]
    refine ⟨h.same, ?_, h.size, ?_, trivial, ?_, h.counted⟩
    · show s.arrived ++ [frame] = s.taken ++ (l ++ [frame])
      rw [h.arrived, List.append_assoc]
    · have hpush := h.holds.push hframe hroom
      rwa [← hnext] at hpush
    · have htake := h.take
      show s.take.Ok (l ++ [frame])
      cases htk : s.take with
      | idle => trivial
      | found => exact List.append_ne_nil_of_right_ne_nil l (List.cons_ne_nil frame [])
      | copied first =>
        rw [htk] at htake
        obtain ⟨l', rfl⟩ := htake
        exact ⟨l' ++ [frame], rfl⟩

theorem Inv.look (h : Inv num s l) : Inv num (step s .look) l := by
  unfold step
  cases htake : s.take with
  | idle =>
    dsimp only
    split_ifs with hempty
    · exact h
    · refine ⟨h.same, h.arrived, h.size, h.holds, h.put, fun hl => ?_, h.counted⟩
      exact hempty (BitVec.eq_of_toNat_eq (h.holds.empty_iff.mpr hl))
  | found => exact h
  | copied => exact h

theorem Inv.copyOut (h : Inv num s l) : Inv num (step s .copyOut) l := by
  unfold step
  cases htake : s.take with
  | idle => exact h
  | found =>
    have hne : l ≠ [] := by
      have := h.take
      rwa [htake] at this
    obtain ⟨first, l', rfl⟩ := List.exists_cons_of_ne_nil hne
    refine ⟨h.same, h.arrived, h.size, h.holds, h.put, ?_, h.counted⟩
    exact ⟨l', congrArg (· :: l') h.holds.front.symm⟩
  | copied => exact h

theorem Put.Ok.tail {q q' : Ringbuf} {pool : ℕ → α} {first : α} {p : Put α} (h : p.Ok q pool (first :: l))
    (hq : q'.numBuf = q.numBuf ∧ pktqInBuf q' = pktqInBuf q) : p.Ok q' pool l := by
  cases p with
  | idle => trivial
  | room w frame =>
    rw [Put.Ok, hq.1]
    exact (Nat.lt_succ_self _).trans h
  | copied w frame =>
    rw [Put.Ok, hq.1, hq.2]
    exact ⟨(Nat.lt_succ_self _).trans h.1, h.2⟩

theorem Inv.advanceOut (h : Inv num s l) : ∃ l', Inv num (step s .advanceOut) l' := by
  unfold step
  cases htake : s.take with
  | idle => exact ⟨l, h⟩
  | found => exact ⟨l, h⟩
  | copied frame =>
    obtain ⟨l', rfl⟩ : ∃ l', l = frame :: l' := by
      have := h.take
      rwa [htake] at this
    obtain ⟨i, hi, hnext⟩ := incOut_eq h.holds.head_lt
    refine ⟨l', ?_⟩
    dsimp only
    rw [hi]
    refine ⟨h.same, ?_, h.size, ?_, h.put.tail ⟨rfl, rfl⟩, trivial, h.counted⟩
    · show s.arrived = s.taken ++ [frame] ++ l'
      rw [h.arrived, List.append_assoc, List.singleton_append]
    · have hpop := h.holds.pop
      rwa [← hnext] at hpop

theorem inv_step (a : Act α) (h : ∃ l, Inv num s l) : ∃ l, Inv num (step s a) l := by
  obtain ⟨l, h⟩ := h
  cases a with
  | test w frame => exact ⟨l, h.test w frame⟩
  | copyIn => exact ⟨l, h.copyIn⟩
  | advanceIn => exact h.advanceIn
  | look => exact ⟨l, h.look⟩
  | copyOut => exact ⟨l, h.copyOut⟩
  | advanceOut => exact h.advanceOut

/-! ## Runs -/

theorem Inv.fifo (h : Inv num s l) : Fifo num s where
  same := h.same
  in_lt := h.same ▸ BitVec.lt_def.mpr h.holds.tail_lt
  out_lt := h.same ▸ BitVec.lt_def.mpr h.holds.head_lt
  queued fuel hfuel := by
    rw [← h.same] at hfuel
    rw [pktqQueued_eq, h.holds.count_eq (h.holds.room.le.trans hfuel), h.arrived, List.length_append]
    congr 1
    omega
  order := ⟨l, h.arrived.symm⟩
  kept i hi := by
    have hil : i < l.length := by
      rw [h.arrived, List.length_append] at hi
      omega
    rw [← h.same]
    refine (h.holds.slot i hil).trans ?_
    simp [h.arrived, List.getElem_append_right]
  counted := h.counted

/-- Only a test that finds no room refuses a frame. -/
theorem step_refused (hroom : pktqInIndex s.q ≠ s.q.outIndex.toNat) (a : Act α) :
    (step s a).refused = s.refused := by
  cases a with
  | test w frame => cases hput : s.put <;> simp [step, hput, hroom]
  | copyIn => cases hput : s.put <;> simp [step, hput]
  | advanceIn => cases hput : s.put <;> simp [step, hput]
  | look =>
    cases htake : s.take <;> simp only [step, htake]
    split_ifs <;> rfl
  | copyOut => cases htake : s.take <;> simp [step, htake]
  | advanceOut => cases htake : s.take <;> simp [step, htake]

theorem Inv.refusesWhenFull (h : Inv num s l) (a : Act α) : RefusesWhenFull num s a := by
  intro hne
  have hfull : pktqInIndex s.q = s.q.outIndex.toNat := by
    by_contra hroom
    exact hne (step_refused hroom a)
  have hlen := h.full_iff.mp hfull
  rw [h.arrived, List.length_append, ← h.same]
  omega

/-- **The receive ring is a FIFO**: after every run of producer and consumer steps it is a queue, and the next
step refuses a frame only when `num_buf - 1` frames are queued. -/
theorem ring_is_fifo (size num : Word) (hsize : 0 < size) (hnum : 2 ≤ num) (buf : ℕ) (pool : ℕ → α)
    (as : List (Act α)) :
    let s := Machine.run step (start size num buf pool) as
    Fifo num s ∧ ∀ a, RefusesWhenFull num s a := by
  have hpos : 0 < num := BitVec.lt_def.mpr (lt_of_lt_of_le (by decide) (BitVec.le_def.mp hnum))
  obtain ⟨l, h⟩ := Machine.run_invariant (Q := fun _ _ => True) (I := fun s => ∃ l, Inv num s l)
    (fun s a h _ => inv_step a h) as ⟨[], inv_start hsize hpos buf pool⟩ (Machine.always_true as)
  exact ⟨h.fifo, h.refusesWhenFull⟩

/-- With two slots, frame 7 is queued when 8 comes. -/
theorem ring_is_fifo_two :
    let s := Machine.run step (start 1552 2 4096 fun _ => 0)
      [.test .sockPacketPeek 7, .copyIn, .advanceIn, .test .sendLoopback 8, .look, .copyOut, .advanceOut]
    (Fifo 2 s ∧ ∀ a, RefusesWhenFull 2 s a) ∧ s.taken = [7] ∧ s.refused = 1 :=
  ⟨ring_is_fifo 1552 2 (by decide) (by decide) 4096 (fun _ => 0) _, by decide, by decide⟩

end Watt32.Pktq
