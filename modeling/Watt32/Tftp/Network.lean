import Watt32.Lib.Run
import Watt32.Tftp.Client

/-!
# A transfer over a network that loses, repeats and reorders

The client, the server's sessions and every datagram that has been sent: what is delivered is any
of them, at any time and any number of times.

* `Net`, `stepNet`: the system and its steps.
* `FreshData`, `FreshAck`: no datagram is delayed past 65535 later blocks.
* `Safe`: what is written is a part of the file from its start, all of it on success.
-/

namespace Watt32.Tftp

open Chunks Machine

/-- A DATA datagram with the client's port, the server's session and the number of the block, of
which the packet has the lower half only. -/
structure DataGram where
  port : ℕ
  session : ℕ
  num : ℕ
  bytes : List Byte

/-- A datagram to the server; an acknowledgment has the number of the block, of which the packet
has the lower half only. -/
inductive ToServer
  | req (port : ℕ)
  | ack (session : ℕ) (block : Word) (num : ℕ)

/-- The system. `port` is the client's local port, `peer` the session that its socket is bound to
by the first datagram (`hisaddr` and `hisport`). `sessions` are at the server, each with the
client's port; `toClient` and `toServer` are all datagrams sent. -/
structure Net where
  client : Client
  port : ℕ
  peer : Option ℕ := none
  sessions : List (ℕ × Session) := []
  toClient : List DataGram := []
  toServer : List ToServer := []

/-- The client sends; a request goes out from a new port. -/
def Net.send (port : ℕ) (s : Net) : Sent → Net
  | .req => { s with port := port, peer := none, toServer := s.toServer ++ [.req port] }
  | .ack block =>
    match s.peer with
    | none => s
    | some k => { s with toServer := s.toServer ++ [.ack k block s.client.currblock.toNat] }

/-- The client's wait ends. -/
def Net.receive (cfg : Config) (port : ℕ) (s : Net) (r : Received) : Net :=
  (s.client.recv cfg r).2.foldl (Net.send port) { s with client := (s.client.recv cfg r).1 }

/-- Session `k` sends its block. -/
def Net.sendBlock (file : List Byte) (s : Net) (k : ℕ) : Net :=
  match s.sessions[k]? with
  | none => s
  | some (port, t) =>
    { s with toClient := s.toClient ++ [⟨port, k, t.block, t.packet file⟩] }

/-- What happens: the client's wait ends with a timeout, with a port that is unreachable or with a
datagram, the server gets a datagram, or a session sends its block again. `port` is for a new
request. -/
inductive NetEvent
  | timeout (port : ℕ)
  | unreachable (port : ℕ)
  | toClient (i port : ℕ)
  | toServer (i : ℕ)
  | resend (k : ℕ)

/-- One step of the system. -/
def stepNet (cfg : Config) (file : List Byte) (s : Net) : NetEvent → Net
  | .timeout port => s.receive cfg port .timeout
  | .unreachable port => s.receive cfg port .unreachable
  | .toClient i port =>
    match s.toClient[i]? with
    | none => s
    | some d =>
      if d.port = s.port ∧ (s.peer = none ∨ s.peer = some d.session) then
        { s with peer := some d.session }.receive cfg port (.packet d.bytes)
      else s
  | .toServer i =>
    match s.toServer[i]? with
    | none => s
    | some (.req port) =>
      { s with sessions := s.sessions ++ [(port, ({} : Session))] }.sendBlock file s.sessions.length
    | some (.ack k block _) =>
      match s.sessions[k]? with
      | none => s
      | some (port, t) =>
        let s' := { s with sessions := s.sessions.set k (port, (t.acked file block).1) }
        if (t.acked file block).2 then s'.sendBlock file k else s'
  | .resend k =>
    match s.sessions[k]? with
    | none => s
    | some (_, t) => if t.ended then s else s.sendBlock file k

/-- The system when the client starts. -/
def Net.start (cfg : Config) (isopen : Bool) (port : ℕ) : Net :=
  (Client.start cfg isopen).2.foldl (Net.send port)
    { client := (Client.start cfg isopen).1, port := port }

/-- A DATA datagram is not delivered when the client has taken 65535 later blocks. -/
def FreshData (s : Net) : NetEvent → Prop
  | .toClient i _ => ∀ d ∈ s.toClient[i]?, s.client.currblock.toNat < d.num + 65535
  | _ => True

/-- An acknowledgment is not delivered when its session has sent more than 65535 later blocks. -/
def FreshAck (s : Net) : NetEvent → Prop
  | .toServer i =>
    match s.toServer[i]? with
    | some (.ack k _ num) => ∀ p ∈ s.sessions[k]?, p.2.block ≤ num + 65535
    | _ => True
  | _ => True

instance : ∀ (s : Net) (e : NetEvent), Decidable (FreshData s e)
  | s, .toClient i _ =>
    inferInstanceAs (Decidable (∀ d ∈ s.toClient[i]?, s.client.currblock.toNat < d.num + 65535))
  | _, .timeout _ => .isTrue trivial
  | _, .unreachable _ => .isTrue trivial
  | _, .toServer _ => .isTrue trivial
  | _, .resend _ => .isTrue trivial

instance : ∀ (s : Net) (e : NetEvent), Decidable (FreshAck s e)
  | s, .toServer i =>
    match h : s.toServer[i]? with
    | none => .isTrue (by simp [FreshAck, h])
    | some (.req _) => .isTrue (by simp [FreshAck, h])
    | some (.ack k _ num) =>
      decidable_of_iff (∀ p ∈ s.sessions[k]?, p.2.block ≤ num + 65535) (by simp [FreshAck, h])
  | _, .timeout _ => .isTrue trivial
  | _, .unreachable _ => .isTrue trivial
  | _, .toClient _ _ => .isTrue trivial
  | _, .resend _ => .isTrue trivial

/-! ## The blocks of a file -/

/-- The blocks of the file up to number `m`; an empty one is not written. -/
def blocksTo (file : List Byte) (m : ℕ) : List (List Byte) :=
  (chunksTo segSize file m).filter (· ≠ [])

/-- What is written is the file's blocks from the first on, each once, and all of them if the
client is back with success. -/
structure Safe (file : List Byte) (s : Net) : Prop where
  blocks : s.client.written <+: blocksTo file (lastBlock file)
  bytes : s.client.written.flatten <+: file
  success : s.client.pc = .done 1 → s.client.written.flatten = file

section Blocks

variable {file : List Byte} {m n : ℕ}

theorem blocksTo_succ :
    blocksTo file (m + 1) = blocksTo file m ++
      if fileBlock file (m + 1) = [] then [] else [fileBlock file (m + 1)] := by
  unfold blocksTo
  rw [chunksTo_succ, List.filter_append]
  refine congrArg _ ?_
  unfold fileBlock
  rw [Nat.add_sub_cancel]
  by_cases h : chunk segSize file m = [] <;> simp [h]

theorem blocksTo_mono (h : m ≤ n) : blocksTo file m <+: blocksTo file n := by
  induction n, h using Nat.le_induction with
  | base => exact List.prefix_rfl
  | succ n _ ih =>
    rw [blocksTo_succ]
    exact ih.trans (List.prefix_append _ _)

theorem flatten_blocksTo : (blocksTo file m).flatten = (chunksTo segSize file m).flatten := by
  unfold blocksTo
  exact List.flatten_filter_ne_nil

theorem flatten_blocksTo_last : (blocksTo file (lastBlock file)).flatten = file :=
  flatten_blocksTo.trans (flatten_chunks (by decide))

end Blocks

end Watt32.Tftp
