import Watt32.Icmp.Safety
import Watt32.Tcp.Pace

/-!
# Reports of a path MTU

`sock_reduce_mss` sets `max_seg` from `_mtu`, the MTU of our own interface, and not from the reported one.

* `Path`, `stepPath`: a control block with the MTUs that were reported to it.
* `PathLaw`: every data segment fits all of them, and no report raises `max_seg`.
* `PathOk`: the reported MTU holds what `sock_reduce_mss` sets, and this is no more than `max_seg`.
* **`mtu_obeyed`**: in a run whose steps are `PathOk` the law holds throughout; **`report_law_iff`**: for
  one report, exactly then.
-/

namespace Watt32.Tcp

open Machine

/-! ## The law -/

/-- A control block, and the next-hop MTUs reported to it so far. -/
structure Path where
  c : Conn
  reports : List ℕ

/-- The MTU an event reports to the control block, if a segment of the smallest size fits it and it is
not larger than `_mtu`. -/
def NetEvent.report (net : Net) (c : Conn) (ev : NetEvent) : Option ℕ :=
  match ev.op with
  | .icmp g ip broadcast =>
    if c.s.ipType = tcpProto then
      ((reportedMtu c g ip broadcast).map BitVec.toNat).filter fun m =>
        mssMin.toNat + 40 ≤ m ∧ m ≤ net.mtu.toNat
    else none
  | .conn _ => none

/-- One step. -/
def stepPath (net : Net) (p : Path) (ev : NetEvent) : Path where
  c := stepNet net p.c ev
  reports := (ev.report net p.c).toList ++ p.reports

/-- The IPv4 packet of a segment fits in `m` bytes. -/
def OutSegment.Fits (seg : OutSegment) (m : ℕ) : Prop := 40 + seg.body.length ≤ m

/-- What holds after a step: `max_seg` fits all MTUs reported, and so do the data segments that were
sent; a report does not raise `max_seg`. -/
structure PathLaw (net : Net) (p : Path) (ev : NetEvent) : Prop where
  maxSeg : ∀ m ∈ (stepPath net p ev).reports, (stepPath net p ev).c.s.maxSeg.toNat + 40 ≤ m
  sent : ∀ m ∈ (stepPath net p ev).reports, ∀ k ∈ (stepPath net p ev).c.calls.drop p.c.calls.length,
    ∀ seg ∈ k.segs, seg.payload ≠ [] → seg.Fits m
  shrinks : ev.report net p.c ≠ none → (stepPath net p ev).c.s.maxSeg ≤ p.c.s.maxSeg

/-- What `sock_reduce_mss` makes of an MTU. -/
def ownMss (net : Net) : Dword := clampMss net (net.mtu - tcpOverhead)

/-- Behind every zero but the last there is a value that fits in `m`. -/
def ZerosCovered (m : ℕ) : List Dword → Prop
  | [] => True
  | x :: xs => (x = 0 → xs ≠ [] → ∃ w ∈ xs, w.toNat + 40 ≤ m) ∧ ZerosCovered m xs

/-- `max_seg`, and the MSS values of a segment. -/
def offered (s : TcpSocket) (seg : InSegment) : List Dword := s.maxSeg :: seg.mss.map (BitVec.setWidth 32)

/-- What a step needs: a reported MTU holds `ownMss`, and `max_seg` is not below that; in a SYN whose
options are processed, behind a zero MSS value there comes one that fits. -/
structure PathOk (net : Net) (p : Path) (ev : NetEvent) : Prop where
  report : ∀ m ∈ ev.report net p.c, (ownMss net).toNat + 40 ≤ m ∧ ownMss net ≤ p.c.s.maxSeg
  syn : ∀ seg c₁, ev.op = .conn (.segment seg) → fsmEntry (ev.env net) p.c seg = some c₁ → TakesSyn c₁.s seg →
    ∀ m ∈ p.reports, ZerosCovered m (offered p.c.s seg)

/-! ## MSS values -/

/-- The MSS values behind the last zero decide. -/
theorem foldl_takeMss_fits_iff {m : ℕ} (h0 : 40 ≤ m) (vs : List Word) (maxSeg : Dword) :
    (vs.foldl takeMss maxSeg).toNat + 40 ≤ m ↔
      (∃ w ∈ maxSeg :: vs.map (BitVec.setWidth 32), w.toNat + 40 ≤ m) ∧
        ZerosCovered m (maxSeg :: vs.map (BitVec.setWidth 32)) := by
  induction vs generalizing maxSeg with
  | nil => simp [ZerosCovered]
  | cons x vs ih =>
    rw [List.foldl_cons, ih, List.map_cons]
    generalize vs.map (BitVec.setWidth 32) = ws
    unfold takeMss
    generalize x.setWidth 32 = x
    by_cases hz : maxSeg = 0
    · subst hz
      simp [ZerosCovered, h0]
    · by_cases hlt : x < maxSeg
      · have hnat := BitVec.lt_def.mp hlt
        rw [if_pos (.inr hlt)]
        refine and_congr ⟨fun ⟨w, hw, h⟩ => ⟨w, List.mem_cons_of_mem _ hw, h⟩, fun ⟨w, hw, h⟩ => ?_⟩
          (and_iff_right fun h => absurd h hz).symm
        rcases List.mem_cons.mp hw with rfl | hw
        · exact ⟨x, List.mem_cons_self .., by omega⟩
        · exact ⟨w, hw, h⟩
      · have hnat := BitVec.le_def.mp (BitVec.not_lt.mp hlt)
        have hx : x ≠ 0 := fun h => hz (BitVec.eq_of_toNat_eq (by simpa [h] using hnat))
        rw [if_neg (not_or.mpr ⟨hz, hlt⟩)]
        refine and_congr ⟨fun ⟨w, hw, h⟩ => ?_, fun ⟨w, hw, h⟩ => ?_⟩ (and_congr ?_ ?_)
        · rcases List.mem_cons.mp hw with rfl | hw
          · exact ⟨w, List.mem_cons_self .., h⟩
          · exact ⟨w, List.mem_cons_of_mem _ (List.mem_cons_of_mem _ hw), h⟩
        · rcases List.mem_cons.mp hw with rfl | hw
          · exact ⟨w, List.mem_cons_self .., h⟩
          · rcases List.mem_cons.mp hw with rfl | hw
            · exact ⟨maxSeg, List.mem_cons_self .., by omega⟩
            · exact ⟨w, List.mem_cons_of_mem _ hw, h⟩
        · exact iff_of_true (fun h => absurd h hz) fun h => absurd h hz
        · exact (and_iff_right fun h => absurd h hx).symm

/-! ## Reports -/

section Reports

variable {net : Net} {p : Path} {ev : NetEvent}

/-- The event that reports `m`. -/
theorem report_eq_some {m : ℕ} (h : ev.report net p.c = some m) :
    (stepPath net p ev).c.s.maxSeg = ownMss net ∧ (stepPath net p ev).c.calls = p.c.calls ∧
      mssMin.toNat + 40 ≤ m := by
  unfold NetEvent.report at h
  cases hop : ev.op with
  | conn op => simp [hop] at h
  | icmp g ip broadcast =>
    simp only [hop] at h
    split_ifs at h with hip
    · rw [Option.filter_eq_some_iff, Option.map_eq_some_iff] at h
      obtain ⟨⟨mtu, hmtu, rfl⟩, hrange⟩ := h
      simp only [Bool.decide_and, Bool.and_eq_true, decide_eq_true_eq] at hrange
      have hne : mtu ≠ 0 := by
        rintro rfl
        exact absurd hrange.1 (by decide)
      have hstep : (stepPath net p ev).c = p.c.upd (sockReduceMss net mtu) := by
        show stepNet net p.c ev = _
        unfold stepNet
        rw [hop]
        exact icmpInput_reported hmtu
      rw [hstep]
      refine ⟨?_, rfl, hrange.1⟩
      show (sockReduceMss net mtu p.c.s).maxSeg = _
      unfold sockReduceMss reduceMss
      rw [if_pos hip, if_pos hne]
      rfl

/-- **One report** is obeyed exactly if the MTU holds `ownMss` and `max_seg` is not below that. -/
theorem report_law_iff {m : ℕ} (h : ev.report net p.c = some m) :
    ((stepPath net p ev).c.s.maxSeg.toNat + 40 ≤ m ∧ (stepPath net p ev).c.s.maxSeg ≤ p.c.s.maxSeg) ↔
      (ownMss net).toNat + 40 ≤ m ∧ ownMss net ≤ p.c.s.maxSeg := by
  rw [(report_eq_some h).1]

/-- What `sock_reduce_mss` sets fits as long as `ownMss` and the old `max_seg` do. -/
theorem reduceMss_fits {m : ℕ} {maxSeg : Dword} (mtu : Word) (hmin : mssMin.toNat + 40 ≤ m)
    (hown : (ownMss net).toNat + 40 ≤ m) (hmax : maxSeg.toNat + 40 ≤ m) :
    (reduceMss net mtu maxSeg).toNat + 40 ≤ m := by
  have hclamp (x : Dword) (hx : x.toNat + 40 ≤ m) : (clampMss net x).toNat + 40 ≤ m := by
    unfold clampMss
    dsimp only
    split_ifs with h₁ h₂ h₂
    · exact hmin
    · have := BitVec.le_def.mp (BitVec.not_lt.mp h₂)
      omega
    · exact hx
    · have := BitVec.le_def.mp (BitVec.not_lt.mp h₂)
      omega
  unfold reduceMss
  split_ifs with h₁ h₂
  · exact hown
  · refine hclamp _ ?_
    rw [BitVec.toNat_sub_of_le (BitVec.le_def.mpr ?_)]
    · omega
    · exact (by decide : mssReduce.toNat ≤ mssMin.toNat).trans (BitVec.lt_def.mp h₂).le
  · exact hclamp _ hmax

/-- A data segment is no longer than `max_seg`. -/
theorem length_body_le {e : Env} {k : SendCall} (hk : k.Emitted e) {seg : OutSegment} (hseg : seg ∈ k.segs)
    (hdata : seg.payload ≠ []) : seg.body.length ≤ k.entry.maxSeg.toNat := by
  obtain ⟨buf, ok, hsegs⟩ := hk
  obtain ⟨n, -, hl, -⟩ := @sendLoop_turns e true (sendStart k.entry buf) k.entry.rtt.cwindow.toNat ok
  obtain ⟨seg', hturn, hall⟩ := @turns_segs e true (sendStart k.entry buf)
  rw [hsegs, hl, hall, show (sendStart k.entry buf).segs = [] from rfl, List.nil_append] at hseg
  obtain ⟨j, -, rfl⟩ := List.mem_map.mp hseg
  have hlen := (hturn j).length
  have hpos : 0 < turnData e (turns e true (sendStart k.entry buf) j) (true && j == 0) := by
    by_contra h
    rw [Int.toNat_of_nonpos (not_lt.mp h)] at hlen
    exact hdata (List.length_eq_zero_iff.mp hlen)
  have hroom := (turnData_le hpos).2
  have hmax : (turns e true (sendStart k.entry buf) j).s.maxSeg = k.entry.maxSeg :=
    (congrArg TcpSocket.maxSeg (@atTurn_turns e k.entry buf j).core :)
  have hsub := int_sub_le turnLen_le (hpos.trans_le hroom)
  have hopt := (hturn j).optLen
  have hbody : (seg' j).payload.length = (seg' j).body.length - (seg' j).optLen := List.length_drop
  rw [hmax] at hroom hsub
  omega

/-! ## Runs -/

/-- All reported MTUs hold `max_seg`, `ownMss` and the smallest segment size. -/
def Path.Obeys (net : Net) (p : Path) : Prop :=
  ∀ m ∈ p.reports, mssMin.toNat + 40 ≤ m ∧ (ownMss net).toNat + 40 ≤ m ∧ p.c.s.maxSeg.toNat + 40 ≤ m

/-- A step from such a `max_seg` leads to such ones only. -/
theorem Beat.fits {m : ℕ} (hp : p.Obeys net) (hok : PathOk net p ev) (hm : m ∈ p.reports) {s : TcpSocket}
    (h : Beat (MaxSegStep net p.c ev) p.c.s s) : s.maxSeg.toNat + 40 ≤ m := by
  obtain ⟨hmin, hown, hmax⟩ := hp m hm
  rcases Relation.ReflTransGen.cases_tail h.maxSeg with heq | ⟨x, -, hlast⟩
  · rwa [heq]
  · generalize s.maxSeg = m' at hlast
    cases hlast with
    | syn seg c₁ hop hentry htakes =>
      refine (foldl_takeMss_fits_iff (by omega) seg.mss p.c.s.maxSeg).mpr ⟨?_, hok.syn seg c₁ hop hentry htakes m hm⟩
      exact ⟨p.c.s.maxSeg, List.mem_cons_self .., hmax⟩
    | report g ip broadcast mtu hop hmtu hip => exact reduceMss_fits mtu hmin hown hmax

theorem stepPath_obeys (hp : p.Obeys net) (hok : PathOk net p ev) :
    (stepPath net p ev).Obeys net ∧ PathLaw net p ev := by
  have hpaces : Paces (MaxSegStep net p.c ev) p.c (stepPath net p ev).c := stepNet_paces net p.c ev
  -- the new report, if there is one, says what `max_seg` is
  have hobeys : (stepPath net p ev).Obeys net := by
    intro m hm
    rcases List.mem_append.mp hm with hm | hm
    · obtain ⟨hseg, -, hmin⟩ := report_eq_some (Option.mem_toList.mp hm)
      obtain ⟨hown, -⟩ := hok.report m (Option.mem_toList.mp hm)
      exact ⟨hmin, hown, by rwa [hseg]⟩
    · exact ⟨(hp m hm).1, (hp m hm).2.1, hpaces.beat.fits hp hok hm⟩
  refine ⟨hobeys, fun m hm => (hobeys m hm).2.2, fun m hm k hk seg hseg hdata => ?_, fun hne => ?_⟩
  · rcases List.mem_append.mp hm with hm | hm
    · rw [(report_eq_some (Option.mem_toList.mp hm)).2.1, List.drop_length] at hk
      exact absurd hk List.not_mem_nil
    · obtain ⟨hbeat, e, hk⟩ := hpaces.calls k hk
      have hfits := hbeat.fits hp hok hm
      have hlen := length_body_le hk hseg hdata
      show 40 + seg.body.length ≤ m
      omega
  · obtain ⟨m, hm⟩ := Option.ne_none_iff_exists'.mp hne
    rw [(report_eq_some hm).1]
    exact (hok.report m hm).2

end Reports

/-- **Path MTU reports are obeyed** in every run of a control block in which each reported MTU holds what
our own MTU gives and `max_seg` is not below that. -/
theorem mtu_obeyed (net : Net) (c : Conn) (evs : List NetEvent)
    (h : Always (stepPath net) (PathOk net) ⟨c, []⟩ evs) : Always (stepPath net) (PathLaw net) ⟨c, []⟩ evs :=
  always_of_invariant (I := Path.Obeys net) (fun _ _ hp hok => stepPath_obeys hp hok) evs
    (fun _ hm => absurd hm List.not_mem_nil) h

/-! ## A report below our MTU -/

/-- Router 0.0.0.3 reports the MTU `b₀ b₁` for a segment from 0.0.0.1:1024 to 0.0.0.2:80. -/
def needfragPacket (b₀ b₁ sum₀ sum₁ : Byte) : Packet :=
  packetOf ([0x45, 0, 0, 56, 0, 0, 0, 0, 64, 1, 0, 0, 0, 0, 0, 3, 0, 0, 0, 1] ++
    [3, 4, sum₀, sum₁, 0, 0, b₀, b₁] ++
    [0x45, 0, 0, 40, 0, 0, 0, 0, 64, 6, 0, 0, 0, 0, 0, 1, 0, 0, 0, 2] ++ [4, 0, 0, 80, 0, 0, 0, 0])

/-- An MTU of 1000 is reported, and `max_seg` stays at 1460. -/
theorem mtu_ignored : ¬ ∀ (net : Net) (c : Conn) (evs : List NetEvent),
    Always (stepPath net) (PathLaw net) ⟨c, []⟩ evs := by
  intro h
  have hlaw := (h {} (establishedConn []) [⟨{}, .icmp Icmp.oneHost (needfragPacket 3 0xe8 0x6f 0x92) false⟩]).1
  exact absurd (hlaw.maxSeg 1000 (by decide +kernel)) (by decide +kernel)

/-- An MTU of 1500 is reported, then four bytes are written. -/
def reportRun : List NetEvent :=
  [⟨{}, .icmp Icmp.oneHost (needfragPacket 5 0xdc 0x6d 0x9e) false⟩, ⟨{}, .conn (.write [1, 2, 3, 4])⟩]

theorem mtu_obeyed_run : Always (stepPath {}) (PathLaw {}) ⟨establishedConn [], []⟩ reportRun := by
  refine mtu_obeyed {} (establishedConn []) reportRun ⟨⟨fun m hm => ?_, fun _ _ hop => NetOp.noConfusion hop⟩,
    ⟨fun m hm => absurd hm (Option.not_mem_none m), fun _ _ hop => ?_⟩, trivial⟩
  · have hreport : NetEvent.report {} (establishedConn [])
        ⟨{}, .icmp Icmp.oneHost (needfragPacket 5 0xdc 0x6d 0x9e) false⟩ = some 1500 := by decide +kernel
    obtain rfl : 1500 = m := Option.some_inj.mp (hreport.symm.trans hm)
    decide +kernel
  · cases hop

end Watt32.Tcp
