import GossipCore.Manager.ActorLifetime
import GossipCore.Persistence.PeerLists
import Mathlib.Algebra.Order.BigOperators.Group.List
import Mathlib.Algebra.GroupWithZero.Nat
import Mathlib.Algebra.Order.Group.Nat

/-! The bounded queues between two connected chat actors. A frame is its length on the
wire; each side's frames pass its tx channel, its send task, the stream and the
receive task of the other side in order. -/
namespace GossipCore.Manager
open Base Persistence

/-- The way of one side's frames to the other actor, every list oldest first. -/
structure Direction where
  /-- Requests of clients that wait in in_rx. -/
  inRx : Nat
  /-- The frame with which the actor is inside send_message. -/
  sending : Option Nat
  tx : List Nat
  /-- Frames that the send task has begun and the receive task has not read whole. -/
  stream : List Nat
  /-- Bytes of these that write_message has given to the transport. -/
  written : Nat
  /-- Bytes of these that read_message has taken from it. -/
  taken : Nat
  /-- The frame with which the receive task is inside read_tx.send. -/
  received : Option Nat
  /-- The read channel of the other side. -/
  read : List Nat
  deriving DecidableEq, Repr

inductive DirectionEvent where
  | request
  | handleRequest (frame : Option Nat)
  | sync (frame : Nat)
  | enqueue
  | recvWrite
  | write (n : Nat)
  | readBytes (n : Nat)
  | pushRead
  deriving DecidableEq, Repr

namespace Direction
variable (window : Nat)

def idle : Direction := ⟨0,none,[],[],0,0,none,[]⟩

def step (d : Direction) : DirectionEvent → Option Direction
  | .request => if d.inRx < channelBuffer then some { d with inRx := d.inRx+1 } else none
  -- a send that succeeds gives one frame, other requests none
  | .handleRequest frame =>
    if d.sending = none ∧ 0 < d.inRx then some { d with inRx := d.inRx-1, sending := frame } else none
  -- the arms of the tick and of a new connection state
  | .sync frame => if d.sending = none then some { d with sending := some frame } else none
  | .enqueue =>
    match d.sending with
    | some frame =>
      if d.tx.length < channelBuffer then some { d with sending := none, tx := d.tx++[frame] } else none
    | none => none
  -- write_rx.recv, once the frame before is written whole
  | .recvWrite =>
    match d.tx with
    | frame::rest =>
      if d.written = d.stream.sum then some { d with tx := rest, stream := d.stream++[frame] } else none
    | [] => none
  | .write n =>
    if d.written+n ≤ d.stream.sum ∧ d.written+n ≤ d.taken+window then some { d with written := d.written+n }
    else none
  | .readBytes n =>
    match d.received, d.stream with
    | none, frame::rest =>
      if d.taken+n ≤ d.written ∧ d.taken+n < frame then some { d with taken := d.taken+n }
      else if d.taken+n ≤ d.written ∧ d.taken+n = frame then
        some { d with stream := rest, written := d.written-frame, taken := 0, received := some frame }
      else none
    | _, _ => none
  | .pushRead =>
    match d.received with
    | some frame =>
      if d.read.length < channelBuffer then some { d with received := none, read := d.read++[frame] } else none
    | none => none

/-- The actor waits on a full tx channel, the send task on a full transport and the
receive task of the other side on a full read channel. -/
structure Blocked (d : Direction) : Prop where
  actor : d.sending.isSome ∧ d.tx.length = channelBuffer
  sendTask : d.written < d.stream.sum ∧ d.written = d.taken+window
  recvTask : d.received.isSome ∧ d.read.length = channelBuffer

/-- All frames that the other actor has not received yet. -/
def pending (d : Direction) : List Nat :=
  d.read++d.received.toList++d.stream++d.tx++d.sending.toList

/-- The frames behind those that the read side can hold and before those that the
write side can hold, which have to share the window. -/
def between (frames : List Nat) : List Nat :=
  (frames.take (frames.length-(channelBuffer+1))).drop (channelBuffer+1)

def Overfull (frames : List Nat) : Prop := window < (between frames).sum

/-- The frame that an event puts into the hands of the actor. -/
def emitted : DirectionEvent → Option Nat
  | .handleRequest frame => frame
  | .sync frame => some frame
  | _ => none

variable {window}

/-- What an event does to the direction, with the state that it needs. -/
inductive Moved (window : Nat) (d : Direction) : DirectionEvent → Direction → Prop where
  | request (hroom : d.inRx < channelBuffer) : Moved window d .request { d with inRx := d.inRx+1 }
  | handled (frame : Option Nat) (hs : d.sending = none) :
      Moved window d (.handleRequest frame) { d with inRx := d.inRx-1, sending := frame }
  | synced (frame : Nat) (hs : d.sending = none) :
      Moved window d (.sync frame) { d with sending := some frame }
  | enqueued (frame : Nat) (hs : d.sending = some frame) (hroom : d.tx.length < channelBuffer) :
      Moved window d .enqueue { d with sending := none, tx := d.tx++[frame] }
  | begun (frame : Nat) (rest : List Nat) (htx : d.tx = frame::rest) (hw : d.written = d.stream.sum) :
      Moved window d .recvWrite { d with tx := rest, stream := d.stream++[frame] }
  | wrote (n : Nat) (hroom : d.written+n ≤ d.taken+window) :
      Moved window d (.write n) { d with written := d.written+n }
  | readPart (n frame : Nat) (rest : List Nat) (hr : d.received = none) (hst : d.stream = frame::rest)
      (hpart : d.taken+n < frame) : Moved window d (.readBytes n) { d with taken := d.taken+n }
  | readWhole (n frame : Nat) (rest : List Nat) (hr : d.received = none) (hst : d.stream = frame::rest) :
      Moved window d (.readBytes n)
        { d with stream := rest, written := d.written-frame, taken := 0, received := some frame }
  | pushed (frame : Nat) (hr : d.received = some frame) (hroom : d.read.length < channelBuffer) :
      Moved window d .pushRead { d with received := none, read := d.read++[frame] }

theorem step_moved {d d' : Direction} {e : DirectionEvent} (h : step window d e = some d') :
    Moved window d e d' := by
  cases e with
  | request =>
    simp only [step] at h
    split at h <;> cases h
    exact .request ‹_›
  | handleRequest frame =>
    simp only [step] at h
    split at h <;> cases h
    rename_i hs
    exact .handled frame hs.1
  | sync frame =>
    simp only [step] at h
    split at h <;> cases h
    exact .synced frame ‹_›
  | enqueue =>
    simp only [step] at h
    split at h
    · rename_i frame hs
      split at h <;> cases h
      exact .enqueued frame hs ‹_›
    · cases h
  | recvWrite =>
    simp only [step] at h
    split at h
    · rename_i frame rest htx
      split at h <;> cases h
      exact .begun frame rest htx ‹_›
    · cases h
  | write n =>
    simp only [step] at h
    split at h <;> cases h
    rename_i hroom
    exact .wrote n hroom.2
  | readBytes n =>
    simp only [step] at h
    split at h
    · rename_i frame rest hr hst
      split at h
      · rename_i hpart
        cases h
        exact .readPart n frame rest hr hst hpart.2
      · split at h <;> cases h
        exact .readWhole n frame rest hr hst
    · cases h
  | pushRead =>
    simp only [step] at h
    split at h
    · rename_i frame hr
      split at h <;> cases h
      exact .pushed frame hr ‹_›
    · cases h

theorem step_pending {d d' : Direction} {e : DirectionEvent} (h : step window d e = some d') :
    d'.pending = d.pending++(emitted e).toList := by
  cases step_moved h with
  | request hroom => simp [pending,emitted]
  | handled frame hs => simp [pending,emitted,hs]
  | synced frame hs => simp [pending,emitted,hs]
  | enqueued frame hs hroom => simp [pending,emitted,hs]
  | begun frame rest htx hw => simp [pending,emitted,htx]
  | wrote n hroom => simp [pending,emitted]
  | readPart n frame rest hr hst hpart => simp [pending,emitted]
  | readWhole n frame rest hr hst => simp [pending,emitted,hr,hst]
  | pushed frame hr hroom => simp [pending,emitted,hr]

theorem emitted_none {d d' : Direction} {e : DirectionEvent} (hs : d.sending ≠ none)
    (h : step window d e = some d') : emitted e = none := by
  cases step_moved h with
  | handled frame hno => exact absurd hno hs
  | synced frame hno => exact absurd hno hs
  | _ => rfl

theorem Blocked.overfull {d : Direction} (h : Blocked window d) : Overfull window d.pending := by
  obtain ⟨frame,hf⟩ := Option.isSome_iff_exists.mp h.actor.1
  obtain ⟨first,hr⟩ := Option.isSome_iff_exists.mp h.recvTask.1
  have hread : (d.read++[first]).length = channelBuffer+1 := by simp [h.recvTask.2]
  have htx : (d.tx++[frame]).length = channelBuffer+1 := by simp [h.actor.2]
  have hsplit : d.pending = ((d.read++[first])++d.stream)++(d.tx++[frame]) := by simp [pending,hf,hr]
  have hmiddle : between d.pending = d.stream := by
    rw [between,hsplit,List.length_append,htx,Nat.add_sub_cancel,List.take_left]
    exact List.drop_left' hread
  have hw := h.sendTask
  unfold Overfull
  rw [hmiddle]
  omega

theorem between_tail (frames : List Nat) : (between frames.tail).Sublist (between frames) := by
  refine List.Sublist.drop ?_ _
  cases frames with
  | nil => exact List.Sublist.refl _
  | cons frame rest =>
    by_cases hn : channelBuffer+1 ≤ rest.length
    · rw [List.tail_cons,List.length_cons,Nat.sub_add_comm hn,List.take_succ_cons]
      exact List.sublist_cons_self _ _
    · rw [List.tail_cons,Nat.sub_eq_zero_of_le (Nat.le_of_not_le hn)]
      exact List.nil_sublist _

private theorem sum_le_of_sublist {l m : List Nat} (h : l.Sublist m) : l.sum ≤ m.sum :=
  h.sum_le_sum (fun _ _ => Nat.zero_le _)

/-- Taking the oldest frame away makes no direction overfull. -/
theorem Overfull.of_tail {frames : List Nat} (h : Overfull window frames.tail) : Overfull window frames :=
  Nat.lt_of_lt_of_le h (sum_le_of_sublist (between_tail frames))

theorem not_overfull_of_short {frames : List Nat} (h : frames.length ≤ channelBuffer+1) :
    ¬Overfull window frames := by
  unfold Overfull between
  rw [Nat.sub_eq_zero_of_le h,List.take_zero,List.drop_nil]
  exact Nat.not_lt_zero window

/-- What the channels and the transport keep to. -/
structure Bounded (window : Nat) (d : Direction) : Prop where
  read : d.read.length ≤ channelBuffer
  tx : d.tx.length ≤ channelBuffer
  window : d.written ≤ d.taken+window
  /-- All frames but the last that the send task has begun are written. -/
  behind : d.stream.dropLast.sum ≤ d.written
  taken : d.taken ≤ d.stream.headD 0
  received : d.received.isSome → d.taken = 0

theorem idle_bounded : Bounded window idle :=
  ⟨Nat.zero_le _,Nat.zero_le _,Nat.zero_le _,Nat.le_refl _,Nat.le_refl _,fun _ => rfl⟩

private theorem Bounded.recvWrite {d : Direction} (h : Bounded window d) {frame : Nat} {rest : List Nat}
    (htx : d.tx = frame::rest) (hw : d.written = d.stream.sum) :
    Bounded window { d with tx := rest, stream := d.stream++[frame] } := by
  have hlen := h.tx
  have htaken := h.taken
  rw [htx,List.length_cons] at hlen
  refine ⟨h.read,(Nat.lt_of_succ_le hlen).le,h.window,?_,?_,h.received⟩
  · rw [List.dropLast_concat,hw]
  · cases hst : d.stream with
    | nil =>
      rw [hst] at htaken
      exact htaken.trans (Nat.zero_le _)
    | cons first others =>
      rw [hst] at htaken
      exact htaken

private theorem Bounded.readWhole {d : Direction} (h : Bounded window d) {frame : Nat} {rest : List Nat}
    (hst : d.stream = frame::rest) :
    Bounded window { d with stream := rest, written := d.written-frame, taken := 0, received := some frame } := by
  have hbehind := h.behind
  have htaken := h.taken
  have hwindow := h.window
  rw [hst] at hbehind htaken
  simp only [List.headD_cons] at htaken
  refine ⟨h.read,h.tx,by simp only; omega,?_,Nat.zero_le _,fun _ => rfl⟩
  cases rest with
  | nil => exact Nat.zero_le _
  | cons next others =>
    rw [List.dropLast_cons_cons,List.sum_cons] at hbehind
    simp only
    omega

theorem step_bounded {d d' : Direction} {e : DirectionEvent} (hb : Bounded window d)
    (h : step window d e = some d') : Bounded window d' := by
  cases step_moved h with
  | request hroom => exact ⟨hb.read,hb.tx,hb.window,hb.behind,hb.taken,hb.received⟩
  | handled frame hs => exact ⟨hb.read,hb.tx,hb.window,hb.behind,hb.taken,hb.received⟩
  | synced frame hs => exact ⟨hb.read,hb.tx,hb.window,hb.behind,hb.taken,hb.received⟩
  | enqueued frame hs hroom =>
    refine ⟨hb.read,?_,hb.window,hb.behind,hb.taken,hb.received⟩
    rw [List.length_append]
    exact hroom
  | begun frame rest htx hw => exact hb.recvWrite htx hw
  | wrote n hroom =>
    exact ⟨hb.read,hb.tx,hroom,hb.behind.trans (Nat.le_add_right _ _),hb.taken,hb.received⟩
  | readPart n frame rest hr hst hpart =>
    refine ⟨hb.read,hb.tx,hb.window.trans ?_,hb.behind,?_,fun hsome => ?_⟩
    · exact Nat.add_le_add_right (Nat.le_add_right _ _) _
    · rw [hst]
      exact hpart.le
    · rw [hr] at hsome
      cases hsome
  | readWhole n frame rest hr hst => exact hb.readWhole hst
  | pushed frame hr hroom =>
    refine ⟨?_,hb.tx,hb.window,hb.behind,hb.taken,fun hsome => by cases hsome⟩
    rw [List.length_append]
    exact hroom

private theorem take_sublist_dropLast {l : List Nat} {k : Nat} (h : k < l.length ∨ k = 0) :
    (l.take k).Sublist l.dropLast := by
  rw [List.dropLast_eq_take]
  exact List.take_sublist_take_left (by omega)

private theorem dropLast_append_sublist (l m : List Nat) : (l++m).dropLast.Sublist (l++m.dropLast) := by
  cases m with
  | nil => simpa using List.dropLast_sublist l
  | cons b m => rw [List.dropLast_append_of_ne_nil (List.cons_ne_nil b m)]

/-- While the write side has a place left, the frames between the two sides are
written, up to a part of the first that the receive task may have taken. -/
private theorem Bounded.between_le {d : Direction} (h : Bounded window d)
    (hback : (d.tx++d.sending.toList).length ≤ channelBuffer) : (between d.pending).sum ≤ window := by
  have hsplit : d.pending = (d.read++d.received.toList++d.stream)++(d.tx++d.sending.toList) := by
    simp [pending]
  have hsub : (between d.pending).Sublist
      ((d.read++d.received.toList++d.stream.dropLast).drop (channelBuffer+1)) := by
    refine List.Sublist.drop ?_ _
    rw [hsplit,List.length_append,List.take_append_of_le_length (by omega)]
    exact (take_sublist_dropLast (by omega)).trans (dropLast_append_sublist _ _)
  refine (sum_le_of_sublist hsub).trans ?_
  have hwindow := h.window
  have hbehind := h.behind
  have hread := h.read
  cases hr : d.received with
  | some first =>
    have htaken : d.taken = 0 := h.received (by simp [hr])
    have hfront : (d.read++[first]).length ≤ channelBuffer+1 := by simpa using hread
    rw [Option.toList_some,List.drop_append,List.drop_of_length_le hfront,List.nil_append]
    refine (sum_le_of_sublist (List.drop_sublist _ _)).trans ?_
    omega
  | none =>
    have htaken := h.taken
    rw [Option.toList_none,List.append_nil,List.drop_append,List.drop_of_length_le (by omega),List.nil_append]
    refine (sum_le_of_sublist (List.drop_sublist_drop_left _ (i := 1) (by omega))).trans ?_
    rcases hst : d.stream with - | ⟨first,- | ⟨next,rest⟩⟩
    · exact Nat.zero_le _
    · exact Nat.zero_le _
    · rw [hst,List.dropLast_cons_cons,List.sum_cons] at hbehind
      rw [hst,List.headD_cons] at htaken
      rw [List.dropLast_cons_cons,List.drop_one,List.tail_cons]
      omega

/-- The actor of an overfull direction waits on a full tx channel. -/
theorem Bounded.waits {d : Direction} (h : Bounded window d) (ho : Overfull window d.pending) :
    d.sending.isSome ∧ d.tx.length = channelBuffer := by
  have hback : ¬(d.tx++d.sending.toList).length ≤ channelBuffer := fun hle =>
    absurd (h.between_le hle) (Nat.not_le.mpr ho)
  have htx := h.tx
  cases hs : d.sending with
  | none => simp [hs,htx] at hback
  | some frame =>
    rw [hs,List.length_append] at hback
    simp at hback
    exact ⟨rfl,by omega⟩

end Direction

/-- The two directions of the connection, by the side that sends. -/
abbrev Link := Side → Direction

inductive LinkLabel where
  | own (side : Side) (e : DirectionEvent)
  | receive (side : Side) (reply : Option Nat)
  deriving DecidableEq, Repr

namespace Link
variable (window : Nat)

def idle : Link := fun _ => Direction.idle

def step (s : Link) : LinkLabel → Option Link
  | .own i e => (Direction.step window (s i) e).map (Function.update s i)
  -- the select is biased, so a frame is only received when no request waits
  | .receive i reply =>
    match (s i).sending, (s i).inRx, (s i.other).read with
    | none, 0, _::rest =>
      some (Function.update (Function.update s i.other { s i.other with read := rest }) i
        { s i with sending := reply })
    | _, _, _ => none

def Deadlocked (s : Link) : Prop := ∀ i, (s i).Blocked window

/-- A step after which the actor has a frame to send leaves one of the directions
with frames that the read side, the window and the write side can hold. -/
def LeavesRoom (s : Link) : LinkLabel → Prop
  | .own i e => ∀ frame, Direction.emitted e = some frame →
    ¬Direction.Overfull window ((s i).pending++[frame]) ∨ ¬Direction.Overfull window (s i.other).pending
  | .receive i reply => ∀ frame, reply = some frame →
    ¬Direction.Overfull window ((s i).pending++[frame]) ∨
      ¬Direction.Overfull window (s i.other).pending.tail

variable {window}

theorem receive_pending {s s' : Link} {i : Side} {reply : Option Nat}
    (h : step window s (.receive i reply) = some s') : (s i).sending = none ∧
      (s' i).pending = (s i).pending++reply.toList ∧ (s' i.other).pending = (s i.other).pending.tail := by
  simp only [step] at h
  split at h
  · rename_i hs _ hr
    cases h
    refine ⟨hs,by simp [Direction.pending,hs],?_⟩
    simp [Function.update_of_ne i.other_ne,Direction.pending,hr]
  · cases h

private theorem room_after {s s' : Link} {i : Side} {new : Option Nat} {rest : List Nat}
    (hself : (s' i).pending = (s i).pending++new.toList) (hother : (s' i.other).pending = rest)
    (hmono : Direction.Overfull window rest → Direction.Overfull window (s i.other).pending)
    (hc : ∀ frame, new = some frame →
      ¬Direction.Overfull window ((s i).pending++[frame]) ∨ ¬Direction.Overfull window rest)
    (hroom : ∃ j, ¬Direction.Overfull window (s j).pending) :
    ∃ j, ¬Direction.Overfull window (s' j).pending := by
  cases new with
  | none =>
    obtain ⟨j,hj⟩ := hroom
    rcases i.eq_or_other j with rfl | rfl
    · refine ⟨j,?_⟩
      rw [hself,Option.toList_none,List.append_nil]
      exact hj
    · refine ⟨i.other,?_⟩
      rw [hother]
      exact fun ho => hj (hmono ho)
  | some frame =>
    rcases hc frame rfl with hc | hc
    · refine ⟨i,?_⟩
      rw [hself,Option.toList_some]
      exact hc
    · refine ⟨i.other,?_⟩
      rw [hother]
      exact hc

/-- One step under the condition. -/
theorem step_room {s s' : Link} {l : LinkLabel} (hroom : ∃ i, ¬Direction.Overfull window (s i).pending)
    (hc : LeavesRoom window s l) (h : step window s l = some s') :
    ∃ i, ¬Direction.Overfull window (s' i).pending := by
  cases l with
  | own i e =>
    obtain ⟨d,hd,rfl⟩ := Option.map_eq_some_iff.mp h
    have hself : (Function.update s i d i).pending = (s i).pending++(Direction.emitted e).toList := by
      rw [Function.update_self]
      exact Direction.step_pending hd
    refine room_after hself rfl ?_ ?_ hroom
    · rw [Function.update_of_ne i.other_ne]
      exact id
    · rw [Function.update_of_ne i.other_ne]
      exact hc
  | receive i reply =>
    obtain ⟨-,hself,hother⟩ := receive_pending h
    exact room_after hself hother Direction.Overfull.of_tail hc hroom

/-- Few frames on their way are no danger. -/
def short (s : Link) : Bool := [Side.left,.right].all (fun i => (s i).pending.length ≤ channelBuffer)

private theorem leavesRoom_of_short {s : Link} {l : LinkLabel} (h : short s) : LeavesRoom window s l := by
  have hlen : ∀ i, (s i).pending.length ≤ channelBuffer := by
    intro i
    cases i <;> simp [short] at h <;> omega
  have hroom : ∀ i frame, ¬Direction.Overfull window ((s i).pending++[frame]) := by
    intro i frame
    refine Direction.not_overfull_of_short ?_
    simpa using hlen i
  cases l with
  | own i e => exact fun frame _ => Or.inl (hroom i frame)
  | receive i reply => exact fun frame _ => Or.inl (hroom i frame)

/-- In a run in which no actor comes by a frame that makes both directions overfull,
the two actors never block each other. -/
theorem no_backpressure_deadlock {window : Nat} {labels : List LinkLabel} {s : Link}
    (h : run (step window) idle labels = some s) (hmeet : StepsMeet (step window) (LeavesRoom window) idle labels) :
    ¬Deadlocked window s := by
  intro hdead
  have hstart : ∃ i, ¬Direction.Overfull window (idle i).pending := ⟨.left,Nat.not_lt_zero window⟩
  obtain ⟨i,hi⟩ := run_invariant_of_meets (fun _ _ _ hroom hc hs => step_room hroom hc hs) h hstart hmeet
  exact hi (hdead i).overfull

/-- One message of the left side and the reply to it. -/
def exchange : List LinkLabel :=
  [.own .left .request,.own .left (.handleRequest (some 90)),.own .left .enqueue,.own .left .recvWrite,
    .own .left (.write 90),.own .left (.readBytes 90),.own .left .pushRead,.receive .right (some 40)]

theorem no_backpressure_deadlock_exchange : ∃ s, run (step 65536) idle exchange = some s ∧
    ¬Deadlocked 65536 s := by
  obtain ⟨s,hs⟩ := Option.isSome_iff_exists.mp (show (run (step 65536) idle exchange).isSome by decide +kernel)
  have hmeet : StepsMeet (step 65536) (LeavesRoom 65536) idle exchange :=
    stepsMeet_of_pass (fun _ _ => leavesRoom_of_short) (by decide +kernel)
  exact ⟨s,hs,no_backpressure_deadlock hs hmeet⟩

theorem step_bounded {s s' : Link} {l : LinkLabel} (hb : ∀ i, (s i).Bounded window)
    (h : step window s l = some s') : ∀ i, (s' i).Bounded window := by
  cases l with
  | own i e =>
    obtain ⟨d,hd,rfl⟩ := Option.map_eq_some_iff.mp h
    intro j
    rcases i.eq_or_other j with rfl | rfl
    · rw [Function.update_self]
      exact Direction.step_bounded (hb j) hd
    · rw [Function.update_of_ne i.other_ne]
      exact hb i.other
  | receive i reply =>
    simp only [step] at h
    split at h <;> cases h
    rename_i hr
    intro j
    rcases i.eq_or_other j with rfl | rfl
    · rw [Function.update_self]
      exact ⟨(hb j).read,(hb j).tx,(hb j).window,(hb j).behind,(hb j).taken,(hb j).received⟩
    · obtain ⟨hread,htx,hwindow,hbehind,htaken,hreceived⟩ := hb i.other
      rw [hr,List.length_cons] at hread
      rw [Function.update_of_ne i.other_ne,Function.update_self]
      exact ⟨(Nat.le_succ _).trans hread,htx,hwindow,hbehind,htaken,hreceived⟩

/-- Both directions are overfull, so that both actors wait. -/
structure Jammed (window : Nat) (s : Link) : Prop where
  bounded : ∀ i, (s i).Bounded window
  overfull : ∀ i, Direction.Overfull window (s i).pending

theorem step_jammed {s s' : Link} {l : LinkLabel} (hj : Jammed window s) (h : step window s l = some s') :
    Jammed window s' := by
  have hwait : ∀ i, (s i).sending ≠ none := by
    intro i hs
    have hsome := ((hj.bounded i).waits (hj.overfull i)).1
    rw [hs] at hsome
    cases hsome
  refine ⟨step_bounded hj.bounded h,?_⟩
  cases l with
  | own i e =>
    obtain ⟨d,hd,rfl⟩ := Option.map_eq_some_iff.mp h
    intro j
    rcases i.eq_or_other j with rfl | rfl
    · have hquiet : Direction.emitted e = none := Direction.emitted_none (hwait j) hd
      rw [Function.update_self,Direction.step_pending hd,hquiet,Option.toList_none,List.append_nil]
      exact hj.overfull j
    · rw [Function.update_of_ne i.other_ne]
      exact hj.overfull i.other
  | receive i reply => exact absurd (receive_pending h).1 (hwait i)

/-- Once a run has made both directions overfull, no later step ends either actor's wait. -/
theorem run_jammed {labels more : List LinkLabel} {s t : Link} (h : run (step window) idle labels = some s)
    (ho : ∀ i, Direction.Overfull window (s i).pending) (h' : run (step window) s more = some t) (i : Side) :
    (t i).sending.isSome ∧ (t i).tx.length = channelBuffer := by
  have hb := run_invariant (fun _ _ _ hs hst => step_bounded hs hst) h (fun _ => Direction.idle_bounded)
  have ht := run_invariant (fun _ _ _ hs hst => step_jammed hs hst) h' ⟨hb,ho⟩
  exact (ht.bounded i).waits (ht.overfull i)

/-- The steps of one side alone. -/
theorem run_own (window : Nat) (i : Side) (events : List DirectionEvent) (s : Link) :
    run (step window) s (events.map (.own i)) =
      (run (Direction.step window) (s i) events).map (Function.update s i) := by
  induction events generalizing s with
  | nil => simp [run]
  | cons e events ih =>
    simp only [List.map_cons,run,step]
    cases Direction.step window (s i) e with
    | none => rfl
    | some d =>
      simp only [Option.map_some,Option.bind_some,ih,Function.update_self]
      congr 1
      funext d'
      exact Function.update_idem d d' s

end Link

namespace Direction

/-- A send of a client whose frame has the given length. -/
def send (frame : Nat) : List DirectionEvent := [.request,.handleRequest (some frame)]

/-- The frame of such a send passes to the receive task. -/
def carry (frame : Nat) : List DirectionEvent :=
  send frame++[.enqueue,.recvWrite,.write frame,.readBytes frame]

/-- Sends of one side that fill its direction while the other actor receives nothing, all
with frames of one length but for one that is longer than what the window still lets
through. -/
def fill (frame window : Nat) : List DirectionEvent :=
  (List.replicate channelBuffer (carry frame++[.pushRead])).flatten++
    ((carry frame++(send (window+frame)++[.enqueue,.recvWrite,.write window]))++
      ((List.replicate channelBuffer (send frame++[.enqueue])).flatten++send frame))

/-- The first sends are in the read channel. -/
def passed (frame k : Nat) : Direction := { idle with read := List.replicate k frame }

/-- The read side and the window are full and the last sends are in the tx channel. -/
def queued (frame window k : Nat) : Direction :=
  ⟨0,none,List.replicate k frame,[window+frame],window,0,some frame,List.replicate channelBuffer frame⟩

private theorem run_passed {frame window k : Nat} (hw : frame ≤ window) (hk : k < channelBuffer) :
    run (step window) (passed frame k) (carry frame++[.pushRead]) = some (passed frame (k+1)) := by
  have hbuffer : 0 < channelBuffer := by decide
  simp [run,step,carry,send,passed,idle,hk,hw,hbuffer,List.replicate_succ']

private theorem run_queued {frame window k : Nat} (hk : k < channelBuffer) :
    run (step window) (queued frame window k) (send frame++[.enqueue]) = some (queued frame window (k+1)) := by
  have hbuffer : 0 < channelBuffer := by decide
  simp [run,step,send,queued,hk,hbuffer,List.replicate_succ']

private theorem run_window {frame window : Nat} (hw : frame ≤ window) :
    run (step window) (passed frame channelBuffer)
      (carry frame++(send (window+frame)++[.enqueue,.recvWrite,.write window])) = some (queued frame window 0) := by
  have hbuffer : 0 < channelBuffer := by decide
  simp [run,step,carry,send,passed,queued,idle,hw,hbuffer]

theorem run_fill {frame window : Nat} (hpos : 0 < frame) (hw : frame ≤ window) :
    ∃ d, run (step window) idle (fill frame window) = some d ∧ d.Blocked window := by
  have hpass := run_rounds (passed frame) (fun k hk => run_passed hw hk)
  have hqueue := run_rounds (queued frame window) (fun k hk => run_queued hk)
  have hstart : passed frame 0 = idle := rfl
  have hbuffer : 0 < channelBuffer := by decide
  refine ⟨{ queued frame window channelBuffer with sending := some frame },?_,?_⟩
  · rw [fill,← hstart,run_append,hpass,Option.bind_some,run_append,run_window hw,Option.bind_some,run_append,
      hqueue,Option.bind_some]
    simp [run,step,send,queued,hbuffer]
  · exact ⟨⟨rfl,List.length_replicate⟩,⟨by simpa [queued] using hpos,(Nat.zero_add window).symm⟩,
      ⟨rfl,List.length_replicate⟩⟩

end Direction

namespace Link

/-- Both peers fill their directions with sends over a window of 64 KiB. A sync message with
one change has some hundred bytes besides the text, and its Bloom filter grows by ten bits
with each change that the peer has not confirmed: the texts make up the rest of 4 KiB. -/
def fillBoth : List LinkLabel :=
  (Direction.fill 4096 65536).map (.own .left)++(Direction.fill 4096 65536).map (.own .right)

theorem sends_deadlock : ∃ s, run (step 65536) idle fillBoth = some s ∧ Deadlocked 65536 s := by
  obtain ⟨d,hrun,hblocked⟩ := Direction.run_fill (show 0 < 4096 by decide) (show 4096 ≤ 65536 by decide)
  have hleft : run (step 65536) idle ((Direction.fill 4096 65536).map (.own .left)) =
      some (Function.update idle .left d) := by rw [run_own,idle,hrun,Option.map_some]
  refine ⟨Function.update (Function.update idle .left d) .right d,?_,fun i => ?_⟩
  · rw [fillBoth,run_append,hleft,Option.bind_some,run_own,Function.update_of_ne (by decide),idle,hrun,
      Option.map_some]
  · cases i with
    | left => exact hblocked
    | right => exact hblocked

end Link
end GossipCore.Manager
