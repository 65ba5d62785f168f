import GossipCore.Base.Progress
import GossipCore.Protocol.Handshake

/-! The tasks behind one established connection: one writes, one reads, and a supervisor
closes the connection when either ends, the token is cancelled or the transport is lost.
The bytes that the reading task is going to see are fixed at the start. -/
namespace GossipCore.Protocol
open Base Chat Wire
variable (pc : Postcard)

def handleBuffer : Nat := 1024

inductive SendStage where
  | receiving
  | writing (msg : ProtoMessage)
  | stopping
  | ended
  deriving DecidableEq, Repr

/-- The clones of tx, the sending task and its channel. -/
structure Outgoing where
  senders : Nat
  task : SendStage
  writeRx : List ProtoMessage
  /-- What tx has taken, what was written completely, and the write that failed with
  the part of its frame that went out. -/
  accepted : List ProtoMessage
  written : List ProtoMessage
  torn : Option (ProtoMessage × Bytes)
  finished : Bool
  deriving DecidableEq, Repr

inductive SendLabel where
  | cloneTx
  | dropTx
  | enqueue (msg : ProtoMessage)
  | write
  | refused (n : Nat)
  | stopped
  | recv
  | fail (n : Nat)
  | stoppedFail
  deriving DecidableEq, Repr

inductive RecvStage where
  | reading
  | forwarding (msg : ProtoMessage)
  | ended
  deriving DecidableEq, Repr

/-- The clones of rx, the receiving task and its channel. -/
structure Incoming where
  receivers : Nat
  task : RecvStage
  readRx : List ProtoMessage
  recv : ChunkReader UInt8
  recvBuf : Bytes
  /-- What was read, what rx has given out, and whether the stream ended with Ok(None). -/
  got : List ProtoMessage
  received : List ProtoMessage
  clean : Bool

inductive RecvLabel where
  | cloneRx
  | dropRx
  | receive
  | read
  | fail
  | forward
  deriving DecidableEq, Repr

namespace Outgoing

def spawn : Outgoing := ⟨1,.receiving,[],[],[],none,false⟩

/-- The message that the task is writing. -/
def inHand (o : Outgoing) : List ProtoMessage :=
  match o.task with
  | .writing m => [m]
  | _ => []

/-- The while loop of the task, and the finish after its last message. -/
def recv (o : Outgoing) : Option Outgoing :=
  match o.task, o.writeRx with
  | .receiving, m::rest => some { o with task := .writing m, writeRx := rest }
  | .receiving, [] => if o.senders = 0 then some { o with task := .stopping, finished := true } else none
  | _, _ => none

def write (o : Outgoing) : Option Outgoing :=
  match o.task with
  | .writing m =>
    match writeMessage pc m defaultMaxMessageSize with
    | .ok _ => some { o with task := .receiving, written := o.written++[m] }
    | .error _ => some { o with task := .ended }
  | _ => none

/-- A write that fails after some bytes of the frame. -/
def writeFails (o : Outgoing) (n : Nat) : Option Outgoing :=
  match o.task with
  | .writing m =>
    match writeMessage pc m defaultMaxMessageSize with
    | .ok bytes => some { o with task := .ended, torn := some (m,bytes.take n) }
    | .error _ => some { o with task := .ended }
  | _ => none

def stopped (o : Outgoing) : Option Outgoing :=
  match o.task with
  | .stopping => some { o with task := .ended }
  | _ => none

/-- The peer may refuse a write at any time; a connection that is down refuses all. -/
def step (down : Bool) (o : Outgoing) : SendLabel → Option Outgoing
  | .cloneTx => if o.senders = 0 then none else some { o with senders := o.senders+1 }
  | .dropTx => if o.senders = 0 then none else some { o with senders := o.senders-1 }
  | .enqueue m =>
    if o.senders ≠ 0 ∧ o.task ≠ .ended ∧ o.writeRx.length < handleBuffer then
      some { o with writeRx := o.writeRx++[m], accepted := o.accepted++[m] }
    else none
  | .write => if down then none else o.write pc
  | .refused n => o.writeFails pc n
  | .stopped => o.stopped
  | .recv => o.recv
  | .fail n => if down then o.writeFails pc n else none
  | .stoppedFail => if down then o.stopped else none

end Outgoing

namespace Incoming

def spawn (recv : ChunkReader UInt8) : Incoming := ⟨1,.reading,[],recv,[],[],[],false⟩

def inHand (i : Incoming) : List ProtoMessage :=
  match i.task with
  | .forwarding m => [m]
  | _ => []

/-- One read_message of the task. -/
def read (i : Incoming) : Option Incoming :=
  match i.task with
  | .reading =>
    match readMessage pc i.recv i.recvBuf defaultMaxMessageSize with
    | .value m rest r => some { i with task := .forwarding m, recv := r, recvBuf := rest, got := i.got++[m] }
    | .endOfStream => some { i with task := .ended, clean := true }
    | .error _ => some { i with task := .ended }
    | .panicked => some { i with task := .ended }
  | _ => none

def fail (i : Incoming) : Option Incoming :=
  match i.task with
  | .reading => some { i with task := .ended }
  | _ => none

/-- read_tx.send, which waits for room as long as a receiver is left. -/
def forward (i : Incoming) : Option Incoming :=
  match i.task with
  | .forwarding m =>
    if i.receivers = 0 then some { i with task := .ended }
    else if i.readRx.length < handleBuffer then some { i with task := .reading, readRx := i.readRx++[m] }
    else none
  | _ => none

def step (down : Bool) (i : Incoming) : RecvLabel → Option Incoming
  | .cloneRx => if i.receivers = 0 then none else some { i with receivers := i.receivers+1 }
  | .dropRx => if i.receivers = 0 then none else some { i with receivers := i.receivers-1 }
  | .receive =>
    match i.readRx with
    | m::rest => if i.receivers = 0 then none else some { i with readRx := rest, received := i.received++[m] }
    | [] => none
  | .read => i.read pc
  | .fail => if down then i.fail else none
  | .forward => i.forward

end Incoming

structure Tasks where
  outgoing : Outgoing
  incoming : Incoming
  cancelled : Bool
  /-- conn.closed() has resolved. -/
  down : Bool
  supervising : Bool
  closes : List ConnectionCloseReason

inductive TaskLabel where
  | send (l : SendLabel)
  | recv (l : RecvLabel)
  | cancel
  | lose
  | supervise
  deriving DecidableEq, Repr

/-- The steps of the three tasks; the others are taken by the holders of the handle, by
whoever cancels the token and by the transport. -/
def TaskLabel.Continues : TaskLabel → Prop
  | .send .cloneTx => False
  | .send .dropTx => False
  | .send (.enqueue _) => False
  | .recv .cloneRx => False
  | .recv .dropRx => False
  | .recv .receive => False
  | .cancel => False
  | .lose => False
  | _ => True

/-- The steps of the tasks that wait neither for the holders of the handle nor for the
peer. A write waits for the peer's credit and a read for its bytes. -/
def TaskLabel.Internal : TaskLabel → Prop
  | .send .recv => True
  | .send (.fail _) => True
  | .send .stoppedFail => True
  | .recv .fail => True
  | .recv .forward => True
  | .supervise => True
  | _ => False

namespace Tasks

/-- The tasks as process_established_connection spawns them, with one handle. -/
def spawn (recv : ChunkReader UInt8) : Tasks := ⟨.spawn,.spawn recv,false,false,true,[]⟩

/-- One of the four arms of the supervisor is ready. -/
def Triggered (s : Tasks) : Prop :=
  s.cancelled = true ∨ s.down = true ∨ s.outgoing.task = .ended ∨ s.incoming.task = .ended

instance (s : Tasks) : Decidable s.Triggered := inferInstanceAs (Decidable (_ ∨ _))

def step (s : Tasks) : TaskLabel → Option Tasks
  | .send l => (s.outgoing.step pc s.down l).map (fun o => { s with outgoing := o })
  | .recv l => (s.incoming.step pc s.down l).map (fun i => { s with incoming := i })
  | .cancel => some { s with cancelled := true }
  | .lose => some { s with down := true }
  | .supervise =>
    if s.supervising = true ∧ s.Triggered then
      some { s with supervising := false, closes := s.closes++[.normal], down := true }
    else none

variable {pc}

/-- What the sending task can still do: two steps for each message of its channel. -/
def sendWork (o : Outgoing) : Nat :=
  match o.task with
  | .receiving => 2*o.writeRx.length+2
  | .writing _ => 2*o.writeRx.length+3
  | .stopping => 1
  | .ended => 0

/-- Two steps for each message that the stream can still bring. -/
def recvWork (i : Incoming) : Nat :=
  match i.task with
  | .reading => 2*i.recv.remaining.length+1
  | .forwarding _ => 2*i.recv.remaining.length+2
  | .ended => 0

def work (s : Tasks) : Nat := sendWork s.outgoing+recvWork s.incoming+s.supervising.toNat

private theorem send_work {down : Bool} {o o' : Outgoing} {l : SendLabel} (hl : (TaskLabel.send l).Continues)
    (hs : o.step pc down l = some o') : sendWork o' < sendWork o := by
  have hwrite : o.write pc = some o' → sendWork o' < sendWork o := by
    intro hs
    unfold Outgoing.write at hs
    split at hs
    · rename_i m ht
      split at hs <;> cases hs <;> simp [sendWork,ht]
    · cases hs
  have hfails : ∀ n, o.writeFails pc n = some o' → sendWork o' < sendWork o := by
    intro n hs
    unfold Outgoing.writeFails at hs
    split at hs
    · rename_i m ht
      split at hs <;> cases hs <;> simp [sendWork,ht]
    · cases hs
  have hstopped : o.stopped = some o' → sendWork o' < sendWork o := by
    intro hs
    unfold Outgoing.stopped at hs
    split at hs <;> cases hs
    rename_i ht
    simp [sendWork,ht]
  cases l with
  | cloneTx => exact hl.elim
  | dropTx => exact hl.elim
  | enqueue m => exact hl.elim
  | write =>
    simp only [Outgoing.step] at hs
    split at hs
    · cases hs
    · exact hwrite hs
  | refused n => exact hfails n hs
  | stopped => exact hstopped hs
  | recv =>
    simp only [Outgoing.step,Outgoing.recv] at hs
    split at hs
    · rename_i m rest ht hq
      cases hs
      simp only [sendWork,ht,hq,List.length_cons]
      omega
    · rename_i ht hq
      split at hs <;> cases hs
      simp [sendWork,ht,hq]
    · cases hs
  | fail n =>
    simp only [Outgoing.step] at hs
    split at hs
    · exact hfails n hs
    · cases hs
  | stoppedFail =>
    simp only [Outgoing.step] at hs
    split at hs
    · exact hstopped hs
    · cases hs

private theorem recv_work {down : Bool} {i i' : Incoming} {l : RecvLabel} (hl : (TaskLabel.recv l).Continues)
    (hs : i.step pc down l = some i') : recvWork i' < recvWork i := by
  cases l with
  | cloneRx => exact hl.elim
  | dropRx => exact hl.elim
  | receive => exact hl.elim
  | read =>
    simp only [Incoming.step,Incoming.read] at hs
    split at hs
    · rename_i ht
      split at hs <;> cases hs
      · rename_i m rest r hread
        have hshort := readMessage_shortens hread
        simp only [recvWork,ht]
        omega
      all_goals simp [recvWork,ht]
    · cases hs
  | fail =>
    simp only [Incoming.step,Incoming.fail] at hs
    split at hs
    · split at hs <;> cases hs
      rename_i ht
      simp [recvWork,ht]
    · cases hs
  | forward =>
    simp only [Incoming.step,Incoming.forward] at hs
    split at hs
    · rename_i m ht
      split at hs
      · cases hs
        simp [recvWork,ht]
      · split at hs <;> cases hs
        simp [recvWork,ht]
    · cases hs

/-- A step of the tasks takes something from a count that the sum of both sides and the
supervisor's step make up. -/
private theorem count_lt (send : Outgoing → Nat) (recv : Incoming → Nat) {s t : Tasks} {l : TaskLabel}
    (hsend : ∀ m o, l = .send m → s.outgoing.step pc s.down m = some o → send o < send s.outgoing)
    (hrecv : ∀ m i, l = .recv m → s.incoming.step pc s.down m = some i → recv i < recv s.incoming)
    (hl : l.Continues) (hs : s.step pc l = some t) :
    send t.outgoing+recv t.incoming+t.supervising.toNat < send s.outgoing+recv s.incoming+s.supervising.toNat := by
  cases l with
  | send m =>
    obtain ⟨o,ho,rfl⟩ := Option.map_eq_some_iff.mp hs
    have hw := hsend m o rfl ho
    dsimp only
    omega
  | recv m =>
    obtain ⟨i,hi,rfl⟩ := Option.map_eq_some_iff.mp hs
    have hw := hrecv m i rfl hi
    dsimp only
    omega
  | cancel => exact hl.elim
  | lose => exact hl.elim
  | supervise =>
    simp only [step] at hs
    split at hs <;> cases hs
    rename_i hg
    simp only [hg.1,Bool.toNat_true,Bool.toNat_false]
    omega

theorem step_work {s t : Tasks} {l : TaskLabel} (hl : l.Continues) (hs : s.step pc l = some t) : t.work < s.work :=
  count_lt sendWork recvWork (fun _ _ he ho => send_work (he ▸ hl) ho) (fun _ _ he hi => recv_work (he ▸ hl) hi) hl hs

/-- What is left to do without any further message. -/
def sendRest : SendStage → Nat
  | .receiving => 2
  | .writing _ => 1
  | .stopping => 1
  | .ended => 0

def recvRest : RecvStage → Nat
  | .forwarding _ => 2
  | .reading => 1
  | .ended => 0

def rest (s : Tasks) : Nat := sendRest s.outgoing.task+recvRest s.incoming.task+s.supervising.toNat

end Tasks
end GossipCore.Protocol
