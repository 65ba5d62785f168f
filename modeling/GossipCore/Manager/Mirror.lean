import GossipCore.Base.Observer
import GossipCore.Base.Progress
import GossipCore.Manager.FrameDelivery

/-! What the receivers of a chat are told of its connection and its sync status. The actor
marks both watch channels as seen in its own arms only; a new receiver is told the present
values without that. -/
namespace GossipCore.Manager
open Base Chat

inductive UniffiChatConnectionState where
  | disconnected
  | connected (id : String)
  | reconnecting
  deriving DecidableEq, Repr

/-- The id is passed on as its text. -/
def UniffiChatConnectionState.ofState {U : Type} (toText : U → String) :
    ChatConnectionState U → UniffiChatConnectionState
  | .disconnected => .disconnected
  | .connected id => .connected (toText id)
  | .reconnecting => .reconnecting

/-- The calls of a receiver, each with the version of the value that it brought. -/
structure ReceiverLog where
  states : List (Nat × UniffiChatConnectionState)
  statuses : List (Nat × Bool)

namespace ReceiverLog
variable {U : Type} (toText : U → String)

def processConnectionState (w : Watch (ChatConnectionState U)) (r : ReceiverLog) : ReceiverLog :=
  { r with states := r.states++[(w.version,.ofState toText w.value)] }

def processSyncStatus (w : Watch Bool) (r : ReceiverLog) : ReceiverLog :=
  { r with statuses := r.statuses++[(w.version,w.value)] }

end ReceiverLog

/-- The actor with its channel of the sync status, and all values of both channels. -/
structure MirroredActor (E U K : Type) where
  actor : ChatActor E U K
  states : List (ChatConnectionState U)
  syncStatus : Watch Bool
  statuses : List Bool
  syncSeen : Nat
  /-- All receivers that have subscribed; the first one is in msg_receiver. -/
  receivers : List ReceiverLog

inductive MirrorLabel (U K : Type) where
  | actor (l : ActorLabel U K)
  | syncStatusChanged
  | subscribe

/-- A tick and a change of the connection generate only for a connected value. -/
def ChatActor.generatedIfConnected {E U K : Type} (a : ChatActor E U K) (msg : Bool) : Option Bool :=
  match a.conn.stateNotifier.value with
  | .connected _ => some msg
  | _ => none

/-- The call of generate_sync_message in a step of the actor: whether it gave a message. -/
def ChatActor.generated {E U K : Type} (a : ChatActor E U K) : ActorLabel U K → Option Bool
  | .start msg => a.generatedIfConnected msg
  | .connStateChanged msg => a.generatedIfConnected msg
  | .syncTick msg => a.generatedIfConnected msg
  | .documentOk reply msg =>
    match a.phase with
    -- an empty frame gets no reply exactly when nothing was generated
    | .inDocument .receiveSyncMessage => some (reply && msg)
    | .inDocument _ => some msg
    | _ => none
  | _ => none

/-- The steps that call handle_connection_state_change. -/
def ActorLabel.handlesChange {U K : Type} : ActorLabel U K → Bool
  | .start _ => true
  | .connStateChanged _ => true
  | _ => false

namespace MirroredActor
variable {E U K : Type}

def initial (conn : ChatConnection E U K) : MirroredActor E U K :=
  ⟨.new conn,[conn.stateNotifier.value],.channel false,[false],0,[]⟩

section Step
variable [LinearOrder E] [DecidableEq U] [DecidableEq K] (toText : U → String)

/-- The status channel after a step: is_synced means that no message was generated. -/
def nextStatus (s : MirroredActor E U K) (l : ActorLabel U K) : Watch Bool :=
  match s.actor.generated l with
  | some msg => s.syncStatus.sendIfModified (!msg)
  | none => s.syncStatus

def afterActor (s : MirroredActor E U K) (l : ActorLabel U K) (a : ChatActor E U K) : MirroredActor E U K :=
  { s with
    actor := a
    states := Watch.record s.actor.conn.stateNotifier a.conn.stateNotifier s.states
    syncStatus := s.nextStatus l
    statuses := Watch.record s.syncStatus (s.nextStatus l) s.statuses
    receivers :=
      if l.handlesChange then s.receivers.modifyHead (·.processConnectionState toText s.actor.conn.stateNotifier)
      else s.receivers }

def handleSubscription (s : MirroredActor E U K) : MirroredActor E U K :=
  let r : ReceiverLog := ⟨[],[]⟩
  { s with
    receivers :=
      ((r.processSyncStatus s.syncStatus).processConnectionState toText s.actor.conn.stateNotifier)::s.receivers }

def step (s : MirroredActor E U K) : MirrorLabel U K → Option (MirroredActor E U K)
  | .actor l => (s.actor.step l).map (s.afterActor toText l)
  | .syncStatusChanged =>
    if s.actor.phase = .idle ∧ s.syncSeen ≠ s.syncStatus.version then
      some { s with
        syncSeen := s.syncStatus.version
        receivers := s.receivers.modifyHead (·.processSyncStatus s.syncStatus) }
    else none
  | .subscribe => if s.actor.phase = .idle then some (s.handleSubscription toText) else none

/-- Everything that a step of the actor does to its connection and to what it has seen. -/
inductive Seen (a : ChatActor E U K) (l : ActorLabel U K) (b : ChatActor E U K) : Prop where
  | kept (hc : b.conn = a.conn) (hs : b.seen = a.seen) (hl : l.handlesChange = false)
  | wrote (e : ConnEvent U K) (hc : b.conn = a.conn.apply e) (hs : b.seen = a.seen) (hl : l.handlesChange = false)
  | handled (hc : b.conn = a.conn) (hs : b.seen = a.conn.stateNotifier.version) (hl : l.handlesChange = true)

omit [LinearOrder E] [DecidableEq U] [DecidableEq K] in
private theorem generateAndSend_frame (a : ChatActor E U K) (msg : Bool) :
    (a.generateAndSend msg).conn = a.conn ∧ (a.generateAndSend msg).seen = a.seen := by
  cases msg <;> exact ⟨rfl,rfl⟩

private theorem seen_handled (a : ChatActor E U K) {l : ActorLabel U K} (hl : l.handlesChange = true) (msg : Bool) :
    Seen a l (a.handleConnectionStateChange msg) := by
  unfold ChatActor.handleConnectionStateChange
  dsimp only
  split
  · obtain ⟨hc,hs⟩ := generateAndSend_frame
      { a with seen := a.conn.stateNotifier.version }.resetSyncState msg
    exact .handled hc hs hl
  · exact .handled rfl rfl hl

private theorem documentOk_seen {a b : ChatActor E U K} {reply msg : Bool}
    (h : a.step (.documentOk reply msg) = some b) : Seen a (.documentOk reply msg) b := by
  simp only [ChatActor.step] at h
  split at h
  · cases h
    exact .kept (generateAndSend_frame _ msg).1 (generateAndSend_frame _ msg).2 rfl
  · split at h <;> cases h
    · exact .kept (generateAndSend_frame _ msg).1 (generateAndSend_frame _ msg).2 rfl
    · exact .kept rfl rfl rfl
  · cases h
    exact .kept (generateAndSend_frame _ msg).1 (generateAndSend_frame _ msg).2 rfl
  · cases h

private theorem documentErr_seen {a b : ChatActor E U K} (h : a.step .documentErr = some b) :
    Seen a .documentErr b := by
  simp only [ChatActor.step] at h
  split at h
  · split at h <;> cases h <;> exact .kept rfl rfl rfl
  · cases h
    exact .kept rfl rfl rfl
  · cases h

private theorem actor_step_seen {a b : ChatActor E U K} {l : ActorLabel U K} (h : a.step l = some b) : Seen a l b := by
  cases l with
  | start msg =>
    simp only [ChatActor.step] at h
    split at h <;> cases h
    exact seen_handled a rfl msg
  | connStateChanged msg =>
    simp only [ChatActor.step] at h
    split at h <;> cases h
    exact seen_handled a rfl msg
  | syncTick msg =>
    simp only [ChatActor.step] at h
    split at h
    · split at h <;> cases h
      · exact .kept (generateAndSend_frame a msg).1 (generateAndSend_frame a msg).2 rfl
      · exact .kept rfl rfl rfl
    · cases h
  | localSend =>
    simp only [ChatActor.step] at h
    split at h <;> cases h
    exact .kept rfl rfl rfl
  | incoming =>
    simp only [ChatActor.step] at h
    split at h <;> cases h
    exact .kept rfl rfl rfl
  | acceptedHandle handle newId =>
    simp only [ChatActor.step] at h
    split at h <;> cases h
    exact .wrote (.updateHandle handle newId) rfl rfl rfl
  | otherRequest =>
    simp only [ChatActor.step] at h
    split at h <;> cases h
    exact .kept rfl rfl rfl
  | documentOk reply msg => exact documentOk_seen h
  | documentErr => exact documentErr_seen h
  | readState =>
    simp only [ChatActor.step] at h
    split at h <;> cases h
    unfold ChatActor.readState
    split <;> exact .kept rfl rfl rfl
  | enqueue =>
    simp only [ChatActor.step] at h
    split at h <;> cases h
    unfold ChatActor.enqueue
    split <;> exact .kept rfl rfl rfl
  | cancel =>
    simp only [ChatActor.step] at h
    split at h <;> cases h
    exact .wrote .close rfl rfl rfl
  | background e =>
    cases h
    exact .wrote e rfl rfl rfl
  | spawnReport handleId =>
    cases h
    exact .kept rfl rfl rfl
  | runReport handleId =>
    simp only [ChatActor.step] at h
    split at h <;> cases h
    exact .wrote (.failureReport handleId) rfl rfl rfl
  | channelClosed k =>
    cases h
    exact .kept rfl rfl rfl

private theorem sends_apply (conn : ChatConnection E U K) (e : ConnEvent U K) :
    Watch.Sends conn.stateNotifier (conn.apply e).stateNotifier := by
  have ho := ChatConnection.apply_outcome conn e
  generalize conn.apply e = next at ho
  cases ho with
  | unchanged => exact .same
  | leave => exact Watch.sends_sendIfModified _ _
  | switch => exact .send _
  | rotate => exact .send _

omit [LinearOrder E] [DecidableEq U] [DecidableEq K] in
private theorem sends_nextStatus (s : MirroredActor E U K) (l : ActorLabel U K) :
    Watch.Sends s.syncStatus (s.nextStatus l) := by
  unfold nextStatus
  split
  · exact Watch.sends_sendIfModified _ _
  · exact .same

/-- Both channels with their past, and what the receivers have been told of it. -/
structure Invariant (s : MirroredActor E U K) : Prop where
  published : s.actor.conn.Published
  states : s.actor.conn.stateNotifier.Carries s.states
  statuses : s.syncStatus.Carries s.statuses
  seen_le : s.actor.seen ≤ s.actor.conn.stateNotifier.version
  syncSeen_le : s.syncSeen ≤ s.syncStatus.version
  follows : ∀ r ∈ s.receivers, Follows (.ofState toText) s.states r.states ∧ Follows id s.statuses r.statuses
  told : ∀ r ∈ s.receivers.head?, Mirrors (.ofState toText) s.states s.actor.seen r.states ∧
    Mirrors id s.statuses s.syncSeen r.statuses

omit [LinearOrder E] [DecidableEq U] [DecidableEq K] in
theorem initial_invariant {conn : ChatConnection E U K} (hp : conn.Published) (hv : conn.stateNotifier.version = 0) :
    (initial conn).Invariant toText := by
  refine ⟨hp,⟨by simp [initial,ChatActor.new,hv],by simp [initial,ChatActor.new,hv]⟩,Watch.carries_channel false,
    Nat.le_refl _,Nat.le_refl _,fun r hr => ?_,fun r hr => ?_⟩
  · cases hr
  · cases hr

private theorem mem_modifyHead {rs : List ReceiverLog} {f : ReceiverLog → ReceiverLog} {r : ReceiverLog}
    (h : r ∈ rs.modifyHead f) : (∃ old ∈ rs, r = f old) ∨ r ∈ rs := by
  cases rs with
  | nil => exact Or.inr h
  | cons old rest =>
    rcases List.mem_cons.mp h with rfl | h
    · exact Or.inl ⟨old,List.mem_cons_self,rfl⟩
    · exact Or.inr (List.mem_cons_of_mem old h)

variable {toText}

private theorem actor_invariant {s : MirroredActor E U K} (h : s.Invariant toText) {l : ActorLabel U K}
    {a : ChatActor E U K} (hs : s.actor.step l = some a) : (s.afterActor toText l a).Invariant toText := by
  have hstatus := sends_nextStatus s l
  have hstatuses := h.statuses.record hstatus
  have hmore := Watch.record_extends s.syncStatus (s.nextStatus l) s.statuses
  have hsync : s.syncSeen ≤ (s.nextStatus l).version := h.syncSeen_le.trans hstatus.version_le
  -- a write is unseen at first, and the receivers stay as they are
  have hunseen : Watch.Sends s.actor.conn.stateNotifier a.conn.stateNotifier → a.conn.Published →
      a.seen = s.actor.seen → l.handlesChange = false → (s.afterActor toText l a).Invariant toText := by
    intro hsend hp hseen hl
    have hpast := Watch.record_extends s.actor.conn.stateNotifier a.conn.stateNotifier s.states
    have hrs : (s.afterActor toText l a).receivers = s.receivers := by simp [afterActor,hl]
    refine ⟨hp,h.states.record hsend,hstatuses,?_,hsync,fun r hr => ?_,fun r hr => ?_⟩
    · exact hseen ▸ h.seen_le.trans hsend.version_le
    · rw [hrs] at hr
      exact ⟨(h.follows r hr).1.extend hpast,(h.follows r hr).2.extend hmore⟩
    · rw [hrs] at hr
      obtain ⟨hst,hsy⟩ := h.told r hr
      exact ⟨hseen ▸ hst.extend hpast,hsy.extend hmore⟩
  cases actor_step_seen hs with
  | kept hc hseen hl => exact hunseen (hc ▸ .same) (hc ▸ h.published) hseen hl
  | wrote e hc hseen hl => exact hunseen (hc ▸ sends_apply _ e) (hc ▸ ChatConnection.apply_published h.published e) hseen hl
  | handled hc hseen hl =>
    have hrs : (s.afterActor toText l a).receivers =
        s.receivers.modifyHead (·.processConnectionState toText s.actor.conn.stateNotifier) := by simp [afterActor,hl]
    have hst : (s.afterActor toText l a).states = s.states := by simp [afterActor,hc,Watch.record]
    refine ⟨hc ▸ h.published,?_,hstatuses,?_,hsync,fun r hr => ?_,fun r hr => ?_⟩
    · rw [hst]
      exact hc ▸ h.states
    · exact hseen ▸ hc ▸ Nat.le_refl _
    · rw [hrs] at hr
      rw [hst]
      rcases mem_modifyHead hr with ⟨old,hold,rfl⟩ | hr
      · exact ⟨((h.follows old hold).1.tell h.states (Nat.zero_le _)).toFollows,(h.follows old hold).2.extend hmore⟩
      · exact ⟨(h.follows r hr).1,(h.follows r hr).2.extend hmore⟩
    · rw [hrs,List.head?_modifyHead] at hr
      obtain ⟨old,hold,rfl⟩ := Option.map_eq_some_iff.mp hr
      rw [hst]
      exact ⟨(h.told old hold).1.toFollows.tell h.states (hseen ▸ Nat.le_refl _),(h.told old hold).2.extend hmore⟩

theorem step_invariant {s t : MirroredActor E U K} {l : MirrorLabel U K} (h : s.Invariant toText)
    (hs : s.step toText l = some t) : t.Invariant toText := by
  cases l with
  | actor l =>
    obtain ⟨a,ha,rfl⟩ := Option.map_eq_some_iff.mp hs
    exact actor_invariant h ha
  | syncStatusChanged =>
    simp only [step] at hs
    split at hs <;> cases hs
    refine ⟨h.published,h.states,h.statuses,h.seen_le,Nat.le_refl _,fun r hr => ?_,fun r hr => ?_⟩
    · rcases mem_modifyHead hr with ⟨old,hold,rfl⟩ | hr
      · exact ⟨(h.follows old hold).1,((h.follows old hold).2.tell h.statuses (Nat.zero_le _)).toFollows⟩
      · exact h.follows r hr
    · rw [List.head?_modifyHead] at hr
      obtain ⟨old,hold,rfl⟩ := Option.map_eq_some_iff.mp hr
      exact ⟨(h.told old hold).1,(h.told old hold).2.toFollows.tell h.statuses (Nat.le_refl _)⟩
  | subscribe =>
    simp only [step] at hs
    split at hs <;> cases hs
    have hnew : Mirrors (UniffiChatConnectionState.ofState toText) s.states s.actor.seen
        [(s.actor.conn.stateNotifier.version,UniffiChatConnectionState.ofState toText s.actor.conn.stateNotifier.value)] ∧
        Mirrors id s.statuses s.syncSeen [(s.syncStatus.version,s.syncStatus.value)] :=
      ⟨Follows.nil.tell h.states h.seen_le,Follows.nil.tell h.statuses h.syncSeen_le⟩
    refine ⟨h.published,h.states,h.statuses,h.seen_le,h.syncSeen_le,fun r hr => ?_,fun r hr => ?_⟩
    · rcases List.mem_cons.mp hr with rfl | hr
      · exact ⟨hnew.1.toFollows,hnew.2.toFollows⟩
      · exact h.follows r hr
    · cases hr
      exact hnew

/-- What the actor still has to do in the handler that it is in. -/
def phaseWork : ActorPhase U K → Nat
  | .starting => 4
  | .idle => 0
  | .inDocument .receiveSyncMessage => 5
  | .inDocument _ => 4
  | .locking _ => 2
  | .enqueueing _ _ _ => 1
  | .stopped => 0

def unseenWork (seen version cost : Nat) : Nat := if seen = version then 0 else cost

def actorWork (a : ChatActor E U K) : Nat := phaseWork a.phase+unseenWork a.seen a.conn.stateNotifier.version 4

def work (s : MirroredActor E U K) : Nat := actorWork s.actor+unseenWork s.syncSeen s.syncStatus.version 1

/-- The steps by which the actor ends its handler and sees what was published. -/
def Continues : MirrorLabel U K → Prop
  | .actor (.start _) => True
  | .actor (.connStateChanged _) => True
  | .actor (.documentOk _ _) => True
  | .actor .documentErr => True
  | .actor .readState => True
  | .actor .enqueue => True
  | .syncStatusChanged => True
  | _ => False

/-- Those that do not wait for the connection: tx is bounded, and its send waits for room as
long as the peer does not read. -/
def Internal : MirrorLabel U K → Prop
  | .actor .enqueue => False
  | l => Continues l

/-- A call of generate_sync_message may have to be seen afterwards. -/
def generatedWork (a : ChatActor E U K) (l : ActorLabel U K) : Nat := (a.generated l).elim 0 (fun _ => 1)

omit [LinearOrder E] [DecidableEq U] [DecidableEq K] in
private theorem actorWork_generate (a : ChatActor E U K) (msg : Bool) :
    actorWork (a.generateAndSend msg) = 2+unseenWork a.seen a.conn.stateNotifier.version 4 := by
  cases msg <;> rfl

omit [LinearOrder E] [DecidableEq U] [DecidableEq K] in
/-- After a change was handled, its frame is left to be sent and its status to be seen. -/
private theorem actorWork_handled (a : ChatActor E U K) (msg : Bool) :
    actorWork (a.handleConnectionStateChange msg)+(a.generatedIfConnected msg).elim 0 (fun _ => 1) ≤ 3 := by
  unfold ChatActor.handleConnectionStateChange ChatActor.generatedIfConnected
  dsimp only
  cases a.conn.stateNotifier.value with
  | connected id =>
    dsimp only
    rw [actorWork_generate]
    simp [unseenWork,ChatActor.resetSyncState]
  | disconnected => simp [actorWork,phaseWork,unseenWork]
  | reconnecting => simp [actorWork,phaseWork,unseenWork]

private theorem documentOk_work {a b : ChatActor E U K} {reply msg : Bool}
    (h : a.step (.documentOk reply msg) = some b) :
    actorWork b+generatedWork a (.documentOk reply msg) < actorWork a := by
  simp only [ChatActor.step] at h
  split at h
  · rename_i hp
    cases h
    rw [actorWork_generate]
    simp only [actorWork,hp,phaseWork,generatedWork,ChatActor.generated,Option.elim_some]
    omega
  · rename_i hp
    have hg : generatedWork a (.documentOk reply msg) = 1 := by
      simp [generatedWork,ChatActor.generated,hp]
    rw [hg]
    split at h <;> cases h
    · rw [actorWork_generate]
      simp only [actorWork,hp,phaseWork]
      omega
    · simp only [actorWork,hp,phaseWork]
      omega
  · rename_i hp
    cases h
    rw [actorWork_generate]
    simp only [actorWork,hp,phaseWork,generatedWork,ChatActor.generated,Option.elim_some,ChatActor.resetSyncState]
    omega
  · cases h

private theorem documentErr_work {a b : ChatActor E U K} (h : a.step .documentErr = some b) :
    actorWork b+generatedWork a .documentErr < actorWork a := by
  simp only [ChatActor.step] at h
  split at h
  · rename_i hp
    split at h <;> cases h <;> simp [actorWork,hp,phaseWork,generatedWork,ChatActor.generated]
  · rename_i call _ hp
    cases h
    cases call <;> simp [actorWork,hp,phaseWork,generatedWork,ChatActor.generated]
  · cases h

private theorem actor_step_work {a b : ChatActor E U K} {l : ActorLabel U K} (hl : Continues (.actor l))
    (h : a.step l = some b) : actorWork b+generatedWork a l < actorWork a := by
  cases l with
  | start msg =>
    simp only [ChatActor.step] at h
    split at h <;> cases h
    rename_i hp
    have hle := actorWork_handled a msg
    have hw : 4 ≤ actorWork a := by simp [actorWork,hp,phaseWork]
    exact Nat.lt_of_le_of_lt hle hw
  | connStateChanged msg =>
    simp only [ChatActor.step] at h
    split at h <;> cases h
    rename_i hp
    have hle := actorWork_handled a msg
    have hw : 4 ≤ actorWork a := by simp [actorWork,hp.1,phaseWork,unseenWork,hp.2]
    exact Nat.lt_of_le_of_lt hle hw
  | documentOk reply msg => exact documentOk_work h
  | documentErr => exact documentErr_work h
  | readState =>
    simp only [ChatActor.step] at h
    split at h <;> cases h
    rename_i frame hp
    unfold ChatActor.readState
    split <;> simp [actorWork,hp,phaseWork,generatedWork,ChatActor.generated]
  | enqueue =>
    simp only [ChatActor.step] at h
    split at h <;> cases h
    rename_i frame tx handleId hp
    unfold ChatActor.enqueue
    split <;> simp [actorWork,hp,phaseWork,generatedWork,ChatActor.generated]
  | syncTick msg => exact hl.elim
  | localSend => exact hl.elim
  | incoming => exact hl.elim
  | acceptedHandle handle newId => exact hl.elim
  | otherRequest => exact hl.elim
  | cancel => exact hl.elim
  | background e => exact hl.elim
  | spawnReport handleId => exact hl.elim
  | runReport handleId => exact hl.elim
  | channelClosed k => exact hl.elim

omit [LinearOrder E] [DecidableEq U] [DecidableEq K] in
private theorem unseenWork_nextStatus (s : MirroredActor E U K) (l : ActorLabel U K) :
    unseenWork s.syncSeen (s.nextStatus l).version 1 ≤
      unseenWork s.syncSeen s.syncStatus.version 1+generatedWork s.actor l := by
  unfold nextStatus generatedWork
  cases s.actor.generated l with
  | none => exact Nat.le_refl _
  | some msg =>
    unfold unseenWork
    simp only [Option.elim_some]
    split <;> split <;> omega

theorem step_work {s t : MirroredActor E U K} {l : MirrorLabel U K} (hl : Continues l)
    (hs : s.step toText l = some t) : work t < work s := by
  cases l with
  | actor l =>
    obtain ⟨a,ha,rfl⟩ := Option.map_eq_some_iff.mp hs
    have hactor := actor_step_work hl ha
    have hstatus := s.unseenWork_nextStatus l
    simp only [work,afterActor]
    omega
  | syncStatusChanged =>
    simp only [step] at hs
    split at hs <;> cases hs
    rename_i hp
    simp [work,unseenWork,hp.2]
  | subscribe => exact hl.elim

variable (toText) in
/-- The receiver in place was told the state that the connection is in and the present sync
status last. -/
def UpToDate (s : MirroredActor E U K) : Prop :=
  ∀ r ∈ s.receivers.head?,
    r.states.getLast? = some (s.actor.conn.stateNotifier.version,.ofState toText (.ofInternal s.actor.conn.state)) ∧
    r.statuses.getLast? = some (s.syncStatus.version,s.syncStatus.value)

end Step
end MirroredActor
end GossipCore.Manager
