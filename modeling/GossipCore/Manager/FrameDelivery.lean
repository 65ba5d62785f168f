import GossipCore.Base.Runs
import GossipCore.Chat.Connection

/-! A chat actor and its connection at the granularity of await points. Frames
are numbered in the order in which they are generated; a number is kept until the
sync state that produced it is reset. Other tasks may act between any two steps. -/
namespace GossipCore.Manager
open Base Chat

/-- The document call that a handler awaits. -/
inductive DocumentCall where
  | addMessage
  | receiveSyncMessage
  | resetDocStateToPersisted
  deriving DecidableEq, Repr

/-- Where the actor's task is suspended. A frame of none is the empty sync reply,
which is sent like the others and carries nothing. -/
inductive ActorPhase (U K : Type) where
  | starting
  | idle
  | inDocument (call : DocumentCall)
  | locking (frame : Option Nat)
  | enqueueing (frame : Option Nat) (tx : K) (handleId : U)
  | stopped
  deriving DecidableEq, Repr

structure ChatActor (E U K : Type) where
  conn : ChatConnection E U K
  /-- The version that conn_state_rx has marked as seen. -/
  seen : Nat
  phase : ActorPhase U K
  resetDocState : Bool
  nextFrame : Nat
  /-- Frames generated since the last reset of the sync state. -/
  sinceReset : Finset Nat
  /-- Frames accepted so far by the channels of the connections' handles. -/
  enqueued : List (K × Option Nat)
  /-- Spawned failure reports that have not run yet. -/
  disconnectTasks : List U
  /-- Channels whose send task has ended. -/
  closedChannels : Finset K

/-- Steps of the actor itself, then those of the tasks around it. The flag of a
generating step says whether generate_sync_message returned a message. -/
inductive ActorLabel (U K : Type) where
  | start (some : Bool)
  | connStateChanged (some : Bool)
  | syncTick (some : Bool)
  | localSend
  | incoming
  | acceptedHandle (handle : ChatConnectionHandle U K) (newId : U)
  | otherRequest
  | documentOk (reply some : Bool)
  | documentErr
  | readState
  | enqueue
  | cancel
  | background (e : ConnEvent U K)
  | spawnReport (handleId : U)
  | runReport (handleId : U)
  | channelClosed (k : K)
  deriving DecidableEq, Repr

namespace ChatActor
variable {E U K : Type}

def new (conn : ChatConnection E U K) : ChatActor E U K :=
  ⟨conn,conn.stateNotifier.version,.starting,false,0,∅,[],[],∅⟩

def resetSyncState (s : ChatActor E U K) : ChatActor E U K := { s with sinceReset := ∅ }

/-- Generate a sync message and enter handle_outgoing_sync_message with it. -/
def generateAndSend (s : ChatActor E U K) : Bool → ChatActor E U K
  | true => { s with
      phase := .locking (some s.nextFrame)
      nextFrame := s.nextFrame+1
      sinceReset := insert s.nextFrame s.sinceReset }
  | false => { s with phase := .locking none }

/-- borrow_and_update followed by handle_connection_state_change. -/
def handleConnectionStateChange (s : ChatActor E U K) (msg : Bool) : ChatActor E U K :=
  let s := { s with seen := s.conn.stateNotifier.version }
  match s.conn.stateNotifier.value with
  | .connected _ => s.resetSyncState.generateAndSend msg
  | _ => { s with phase := .idle }

/-- The read-locked half of ChatConnection::send_message. -/
def readState (s : ChatActor E U K) (frame : Option Nat) : ChatActor E U K :=
  match s.conn.state with
  | .connected handle => { s with phase := .enqueueing frame handle.connection handle.id }
  | _ => { s with phase := .idle }

section Step
variable [LinearOrder E] [DecidableEq U] [DecidableEq K]

/-- The channel send: an accepted frame, or a spawned failure report. -/
def enqueue (s : ChatActor E U K) (frame : Option Nat) (tx : K) (handleId : U) : ChatActor E U K :=
  if tx ∈ s.closedChannels then
    { s with phase := .idle, disconnectTasks := handleId :: s.disconnectTasks }
  else
    { s with phase := .idle, enqueued := s.enqueued++[(tx,frame)] }

def step (s : ChatActor E U K) : ActorLabel U K → Option (ChatActor E U K)
  | .start msg =>
    if s.phase = .starting then some (s.handleConnectionStateChange msg) else none
  | .connStateChanged msg =>
    if s.phase = .idle ∧ s.seen ≠ s.conn.stateNotifier.version then
      some (s.handleConnectionStateChange msg)
    else none
  | .syncTick msg =>
    if s.phase = .idle then
      match s.conn.stateNotifier.value with
      | .connected _ => some (s.generateAndSend msg)
      -- the reconnect task that a disconnected tick spawns acts as a background step
      | _ => some s
    else none
  | .localSend => if s.phase = .idle then some { s with phase := .inDocument .addMessage } else none
  | .incoming =>
    match s.phase, s.conn.stateNotifier.value with
    | .idle, .connected _ => some { s with phase := .inDocument .receiveSyncMessage }
    | _, _ => none
  | .acceptedHandle handle newId =>
    if s.phase = .idle then some { s with conn := s.conn.apply (.updateHandle handle newId) } else none
  | .otherRequest => if s.phase = .idle then some s else none
  | .documentOk reply msg =>
    match s.phase with
    | .inDocument .addMessage => some (s.generateAndSend msg)
    | .inDocument .receiveSyncMessage =>
      let s := { s with resetDocState := false }
      -- an empty frame answered by nothing to send gets no reply
      if reply then some (s.generateAndSend msg) else some { s with phase := .idle }
    | .inDocument .resetDocStateToPersisted =>
      some ({ s.resetSyncState with resetDocState := true }.generateAndSend msg)
    | _ => none
  | .documentErr =>
    match s.phase with
    | .inDocument .receiveSyncMessage =>
      if s.resetDocState then some { s with phase := .idle }
      else some { s with phase := .inDocument .resetDocStateToPersisted }
    | .inDocument _ => some { s with phase := .idle }
    | _ => none
  | .readState =>
    match s.phase with
    | .locking frame => some (s.readState frame)
    | _ => none
  | .enqueue =>
    match s.phase with
    | .enqueueing frame tx handleId => some (s.enqueue frame tx handleId)
    | _ => none
  | .cancel => if s.phase = .idle then some { s with phase := .stopped, conn := s.conn.close } else none
  | .background e => some { s with conn := s.conn.apply e }
  | .spawnReport handleId => some { s with disconnectTasks := handleId :: s.disconnectTasks }
  | .runReport handleId =>
    if handleId ∈ s.disconnectTasks then
      some { s with
        disconnectTasks := s.disconnectTasks.erase handleId
        conn := s.conn.apply (.failureReport handleId) }
    else none
  | .channelClosed k => some { s with closedChannels := insert k s.closedChannels }

end Step

/-- The actor has an unseen change of the connection state, and the value it will
read is a connected one. -/
def ResetPending (s : ChatActor E U K) : Prop :=
  s.seen ≠ s.conn.stateNotifier.version ∧ ∃ id, s.conn.stateNotifier.value = .connected id

/-- The frame that the current handler still carries. -/
def carried (s : ChatActor E U K) : Option Nat :=
  match s.phase with
  | .locking frame => frame
  | .enqueueing frame _ _ => frame
  | _ => none

/-- What holds of the handle in use while nothing is unseen: every frame since
the reset is still carried, on its channel, or has a failure report under way. -/
structure Settled (s : ChatActor E U K) (handle : ChatConnectionHandle U K) : Prop where
  frames : ∀ f ∈ s.sinceReset, s.carried = some f ∨ (handle.connection,some f) ∈ s.enqueued ∨
    handle.id ∈ s.disconnectTasks
  target : ∀ frame tx id, s.phase = .enqueueing frame tx id → tx = handle.connection ∧ id = handle.id

structure Invariant (s : ChatActor E U K) : Prop where
  published : s.conn.Published
  seen_le : s.seen ≤ s.conn.stateNotifier.version
  starting : s.phase = .starting → s.sinceReset = ∅
  settled : s.seen = s.conn.stateNotifier.version → ∀ handle, s.conn.state = .connected handle →
    s.Settled handle

theorem new_invariant {conn : ChatConnection E U K} (h : conn.Published) : (new conn).Invariant :=
  ⟨h,Nat.le_refl _,fun _ => rfl,fun _ _ _ => ⟨by simp [new],by simp [new]⟩⟩

/-- Steps that touch neither the connection nor what the actor has seen of it. -/
private theorem invariant_of_settled {s t : ChatActor E U K} (h : s.Invariant)
    (hconn : t.conn = s.conn) (hseen : t.seen = s.seen) (hp : t.phase ≠ .starting)
    (hs : ∀ handle, s.conn.state = .connected handle → s.Settled handle → t.Settled handle) :
    t.Invariant := by
  refine ⟨hconn ▸ h.published,?_,fun he => absurd he hp,?_⟩
  · rw [hconn,hseen]
    exact h.seen_le
  · rw [hconn,hseen]
    intro hv handle hc
    exact hs handle hc (h.settled hv handle hc)

private theorem invariant_generateAndSend {s : ChatActor E U K} (h : s.Invariant)
    (hp : s.carried = none) (msg : Bool) : (s.generateAndSend msg).Invariant := by
  cases msg with
  | false =>
    refine invariant_of_settled h rfl rfl (by simp [generateAndSend]) (fun handle _ hs => ⟨?_,?_⟩)
    · intro f hf
      refine Or.inr ((hs.frames f hf).resolve_left ?_)
      simp [hp]
    · simp [generateAndSend]
  | true =>
    refine invariant_of_settled h rfl rfl (by simp [generateAndSend]) (fun handle _ hs => ⟨?_,?_⟩)
    · intro f hf
      rcases Finset.mem_insert.mp hf with rfl | hf
      · exact Or.inl rfl
      · refine Or.inr ((hs.frames f hf).resolve_left ?_)
        simp [hp]
    · simp [generateAndSend]

/-- Seeing a connected value empties the record before the next frame; any other
value leaves an unconnected state, about which nothing is said. -/
private theorem invariant_handleConnectionStateChange {s : ChatActor E U K} (h : s.Invariant)
    (hp : s.phase = .starting ∨ s.phase = .idle) (msg : Bool) :
    (s.handleConnectionStateChange msg).Invariant := by
  have hpub := h.published
  have hcar : s.carried = none := by rcases hp with hp | hp <;> simp [carried,hp]
  have hunconnected (hs : ∀ handle, s.conn.state ≠ .connected handle) :
      { s with seen := s.conn.stateNotifier.version, phase := .idle : ChatActor E U K }.Invariant :=
    ⟨hpub,Nat.le_refl _,by simp,fun _ handle hc => absurd hc (hs handle)⟩
  unfold handleConnectionStateChange
  dsimp only
  cases hs : s.conn.state with
  | disconnected =>
    rw [hpub,hs]
    exact hunconnected (by simp [hs])
  | reconnecting =>
    rw [hpub,hs]
    exact hunconnected (by simp [hs])
  | connected handle =>
    rw [hpub,hs]
    have hr : { s with seen := s.conn.stateNotifier.version, sinceReset := ∅ : ChatActor E U K }.Invariant := by
      refine ⟨hpub,Nat.le_refl _,fun _ => rfl,fun _ _ _ => ⟨by simp,?_⟩⟩
      intro frame tx id he
      rcases hp with hp | hp <;> simp [hp] at he
    exact invariant_generateAndSend hr hcar msg

private theorem invariant_readState {s : ChatActor E U K} (h : s.Invariant) {frame : Option Nat}
    (hp : s.phase = .locking frame) : (s.readState frame).Invariant := by
  unfold readState
  cases hs : s.conn.state with
  | disconnected => exact invariant_of_settled h rfl rfl (by simp) (by simp [hs])
  | reconnecting => exact invariant_of_settled h rfl rfl (by simp) (by simp [hs])
  | connected cur =>
    refine invariant_of_settled h rfl rfl (by simp) (fun handle hc hset => ⟨?_,?_⟩)
    · simpa [carried,hp] using hset.frames
    · cases hs.symm.trans hc
      rintro _ _ _ ⟨⟩
      exact ⟨rfl,rfl⟩

/-- A change of phase only, between two points where no frame is carried. -/
private theorem invariant_phase {s t : ChatActor E U K} (h : s.Invariant) (hc : s.carried = none)
    (hconn : t.conn = s.conn) (hseen : t.seen = s.seen) (hreset : t.sinceReset = s.sinceReset)
    (hq : t.enqueued = s.enqueued) (hd : t.disconnectTasks = s.disconnectTasks)
    (hp : t.phase = .idle ∨ ∃ call, t.phase = .inDocument call) : t.Invariant := by
  refine invariant_of_settled h hconn hseen ?_ (fun handle _ hset => ⟨?_,?_⟩)
  · rcases hp with hp | ⟨call,hp⟩ <;> simp [hp]
  · intro f hf
    rw [hreset] at hf
    rw [hq,hd]
    exact Or.inr ((hset.frames f hf).resolve_left (by simp [hc]))
  · intro frame tx id he
    rcases hp with hp | ⟨call,hp⟩ <;> simp [hp] at he

variable [LinearOrder E] [DecidableEq U] [DecidableEq K]

/-- A write to the connection either leaves the state as it is or is unseen. -/
private theorem invariant_apply {s : ChatActor E U K} (h : s.Invariant) (e : ConnEvent U K) :
    { s with conn := s.conn.apply e : ChatActor E U K }.Invariant := by
  have hle := ChatConnection.apply_version_le s.conn e
  refine ⟨ChatConnection.apply_published h.published e,h.seen_le.trans hle,h.starting,?_⟩
  intro hv handle hc
  have hseen := h.seen_le
  dsimp only at hv hc
  have hsame := ChatConnection.apply_state_of_version_eq h.published (e := e) (by omega)
  have hs := h.settled (by omega) handle (hsame.symm.trans hc)
  exact ⟨hs.frames,hs.target⟩

/-- Only a report for another handle can run while the state stays connected. -/
private theorem failureReport_ne {conn : ChatConnection E U K} {i : U}
    {handle : ChatConnectionHandle U K}
    (h : (conn.apply (.failureReport i)).state = .connected handle) : handle.id ≠ i := by
  intro he
  simp only [ChatConnection.apply,ChatConnection.setStateDisconnectedIfIdMatches] at h
  cases hs : conn.state with
  | disconnected => simp [hs] at h
  | reconnecting => simp [hs] at h
  | connected cur =>
    simp only [hs] at h
    split at h
    · cases h
    · rename_i hne
      cases hs.symm.trans h
      exact hne he

private theorem invariant_runReport {s : ChatActor E U K} (h : s.Invariant) (i : U) :
    { s with
      disconnectTasks := s.disconnectTasks.erase i
      conn := s.conn.apply (.failureReport i) : ChatActor E U K }.Invariant := by
  have hb := invariant_apply h (.failureReport i)
  refine ⟨hb.published,hb.seen_le,hb.starting,?_⟩
  intro hv handle hc
  have hs := hb.settled hv handle hc
  refine ⟨?_,hs.target⟩
  intro f hf
  refine (hs.frames f hf).imp id (Or.imp id ?_)
  exact (List.mem_erase_of_ne (failureReport_ne hc)).mpr

omit [LinearOrder E] [DecidableEq U] in
/-- The carried frame reaches the channel it was aimed at, or its report starts. -/
private theorem invariant_enqueue {s : ChatActor E U K} (h : s.Invariant) {frame : Option Nat}
    {tx : K} {id : U} (hp : s.phase = .enqueueing frame tx id) :
    (s.enqueue frame tx id).Invariant := by
  unfold enqueue
  split
  · refine invariant_of_settled h rfl rfl (by simp) (fun handle _ hset => ⟨?_,by simp⟩)
    obtain ⟨_,rfl⟩ := hset.target frame tx id hp
    intro f _
    exact Or.inr (Or.inr (by simp))
  · refine invariant_of_settled h rfl rfl (by simp) (fun handle _ hset => ⟨?_,by simp⟩)
    obtain ⟨rfl,_⟩ := hset.target frame tx id hp
    intro f hf
    rcases hset.frames f hf with hc | hq | hd
    · have hframe : frame = some f := by simpa [carried,hp] using hc
      exact Or.inr (Or.inl (by simp [hframe]))
    · exact Or.inr (Or.inl (by simp [hq]))
    · exact Or.inr (Or.inr hd)

private theorem invariant_documentOk {s t : ChatActor E U K} (h : s.Invariant) {reply msg : Bool}
    (hs : s.step (.documentOk reply msg) = some t) : t.Invariant := by
  simp only [step] at hs
  split at hs
  · rename_i hp
    cases hs
    exact invariant_generateAndSend h (by simp [carried,hp]) msg
  · rename_i hp
    have hc : s.carried = none := by simp [carried,hp]
    split at hs <;> cases hs
    · have hr : { s with resetDocState := false : ChatActor E U K }.Invariant :=
        ⟨h.published,h.seen_le,h.starting,fun hv handle hst =>
          ⟨(h.settled hv handle hst).frames,(h.settled hv handle hst).target⟩⟩
      exact invariant_generateAndSend hr hc msg
    · exact invariant_phase h hc rfl rfl rfl rfl rfl (Or.inl rfl)
  · rename_i hp
    cases hs
    have hr : { s with sinceReset := ∅, resetDocState := true : ChatActor E U K }.Invariant :=
      ⟨h.published,h.seen_le,fun _ => rfl,fun hv handle hst =>
        ⟨by simp,(h.settled hv handle hst).target⟩⟩
    exact invariant_generateAndSend hr (by simp [carried,hp]) msg
  · cases hs

private theorem invariant_documentErr {s t : ChatActor E U K} (h : s.Invariant)
    (hs : s.step .documentErr = some t) : t.Invariant := by
  simp only [step] at hs
  split at hs
  · rename_i hp
    have hc : s.carried = none := by simp [carried,hp]
    split at hs <;> cases hs
    · exact invariant_phase h hc rfl rfl rfl rfl rfl (Or.inl rfl)
    · exact invariant_phase h hc rfl rfl rfl rfl rfl (Or.inr ⟨_,rfl⟩)
  · rename_i call _ hp
    cases hs
    exact invariant_phase h (by simp [carried,hp]) rfl rfl rfl rfl rfl (Or.inl rfl)
  · cases hs

theorem step_invariant {s t : ChatActor E U K} {l : ActorLabel U K} (h : s.Invariant)
    (hs : s.step l = some t) : t.Invariant := by
  cases l with
  | start msg =>
    simp only [step] at hs
    split at hs <;> cases hs
    rename_i hp
    exact invariant_handleConnectionStateChange h (Or.inl hp) msg
  | connStateChanged msg =>
    simp only [step] at hs
    split at hs <;> cases hs
    rename_i hp
    exact invariant_handleConnectionStateChange h (Or.inr hp.1) msg
  | syncTick msg =>
    simp only [step] at hs
    split at hs
    · rename_i hp
      split at hs <;> cases hs
      · exact invariant_generateAndSend h (by simp [carried,hp]) msg
      · exact h
    · cases hs
  | localSend =>
    simp only [step] at hs
    split at hs <;> cases hs
    rename_i hp
    exact invariant_phase h (by simp [carried,hp]) rfl rfl rfl rfl rfl (Or.inr ⟨_,rfl⟩)
  | incoming =>
    simp only [step] at hs
    split at hs <;> cases hs
    rename_i hp _
    exact invariant_phase h (by simp [carried,hp]) rfl rfl rfl rfl rfl (Or.inr ⟨_,rfl⟩)
  | acceptedHandle handle newId =>
    simp only [step] at hs
    split at hs <;> cases hs
    exact invariant_apply h _
  | otherRequest =>
    simp only [step] at hs
    split at hs <;> cases hs
    exact h
  | documentOk reply msg => exact invariant_documentOk h hs
  | documentErr => exact invariant_documentErr h hs
  | readState =>
    simp only [step] at hs
    split at hs <;> cases hs
    rename_i frame hp
    exact invariant_readState h hp
  | enqueue =>
    simp only [step] at hs
    split at hs <;> cases hs
    rename_i frame tx id hp
    exact invariant_enqueue h hp
  | cancel =>
    simp only [step] at hs
    split at hs <;> cases hs
    rename_i hp
    have hb := invariant_apply h .close
    refine ⟨hb.published,hb.seen_le,by simp,?_⟩
    intro hv handle hst
    simp [ChatConnection.close,ChatConnection.setState] at hst
  | background e => cases hs; exact invariant_apply h e
  | spawnReport i =>
    cases hs
    refine ⟨h.published,h.seen_le,h.starting,fun hv handle hst => ⟨?_,(h.settled hv handle hst).target⟩⟩
    intro f hf
    exact ((h.settled hv handle hst).frames f hf).imp id (Or.imp id (List.mem_cons_of_mem _))
  | runReport i =>
    simp only [step] at hs
    split at hs <;> cases hs
    exact invariant_runReport h i
  | channelClosed k =>
    cases hs
    exact ⟨h.published,h.seen_le,h.starting,fun hv handle hst =>
      ⟨(h.settled hv handle hst).frames,(h.settled hv handle hst).target⟩⟩

/-- The unseen change is enabled at once, and its handler forgets every earlier
frame before it generates the next one. -/
private theorem resetPending_resets {s : ChatActor E U K} (hp : s.phase = .idle)
    (h : s.ResetPending) (msg : Bool) :
    ∃ t, s.step (.connStateChanged msg) = some t ∧ t.sinceReset ⊆ {s.nextFrame} := by
  obtain ⟨hne,id,hv⟩ := h
  refine ⟨s.handleConnectionStateChange msg,if_pos ⟨hp,hne⟩,?_⟩
  cases msg <;> simp [handleConnectionStateChange,hv,generateAndSend,resetSyncState]

/-- Between two handlers, while the connection runs through a handle, every frame
since the last reset is on that handle's channel, or a reset is due, or a failure
report with the handle's current id is under way. -/
theorem frame_enqueued_or_reset_due (localId remoteId : E) (conn : ChatConnection E U K)
    (hnew : conn = .new localId remoteId ∨ ∃ first, conn = .newConnected localId remoteId first)
    (labels : List (ActorLabel U K)) (s : ChatActor E U K)
    (hrun : run step (new conn) labels = some s) (hidle : s.phase = .idle)
    (handle : ChatConnectionHandle U K) (hconn : s.conn.state = .connected handle) :
    (∀ f ∈ s.sinceReset, (handle.connection,some f) ∈ s.enqueued ∨ s.ResetPending ∨
      handle.id ∈ s.disconnectTasks) ∧
    (s.ResetPending → ∀ msg, ∃ t, s.step (.connStateChanged msg) = some t ∧
      t.sinceReset ⊆ {s.nextFrame}) := by
  have hpub : conn.Published := by
    rcases hnew with rfl | ⟨first,rfl⟩
    · exact ChatConnection.new_published localId remoteId
    · exact ChatConnection.newConnected_published localId remoteId first
  have hinv : s.Invariant := run_invariant (fun _ _ _ hi hs => step_invariant hi hs) hrun (new_invariant hpub)
  refine ⟨?_,fun hr msg => resetPending_resets hidle hr msg⟩
  intro f hf
  by_cases hv : s.seen = s.conn.stateNotifier.version
  · rcases (hinv.settled hv handle hconn).frames f hf with hc | hq | hd
    · simp [carried,hidle] at hc
    · exact Or.inl hq
    · exact Or.inr (Or.inr hd)
  · refine Or.inr (Or.inl ⟨hv,handle.id,?_⟩)
    rw [hinv.published,hconn]
    rfl

/-- A frame sent to the first handle, then a replacement that is not yet seen. -/
theorem frame_enqueued_or_reset_due_replaced :
    ∃ s : ChatActor Nat Nat Nat,
      run step (new (.newConnected 0 1 ⟨10,.dial,1⟩)) [.start true,.readState,.enqueue,
        .background (.updateHandle ⟨11,.dial,2⟩ 0)] = some s ∧
      0 ∈ s.sinceReset ∧ (2,some 0) ∉ s.enqueued ∧ s.ResetPending := by
  refine ⟨_,rfl,by decide,by decide,?_⟩
  have h := (frame_enqueued_or_reset_due 0 1 (.newConnected 0 1 ⟨10,.dial,1⟩) (Or.inr ⟨_,rfl⟩)
    [.start true,.readState,.enqueue,.background (.updateHandle ⟨11,.dial,2⟩ 0)] _ rfl rfl
    ⟨11,.dial,2⟩ rfl).1 0 (by decide)
  rcases h with h | h | h
  · exact absurd h (by decide)
  · exact h
  · exact absurd h (by decide)

end ChatActor
end GossipCore.Manager
