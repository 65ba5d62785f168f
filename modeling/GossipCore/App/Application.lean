import GossipCore.Manager.ActorLifetime
import GossipCore.Protocol.Actor
import Mathlib.Data.Finset.Erase

/-! One application: AppActor with its managers, the protocol's actor, the chat actors and
the connections that they write to. The chat actors' tokens are children of AppActor's, the
connections' tokens are children of the protocol's. -/
namespace GossipCore.App
open Base Chat Protocol
open Manager hiding channelBuffer

/-- Where AppActor stands. After its loop it closes the pool, tells the protocol to shut
down and joins the protocol's actor. -/
inductive AppActorStage (E : Type) where
  | selecting
  | handling (remoteId : E) (accepted : Bool)
  | closingPool
  | cleaningUp
  | joining
  | finished

/-- A handler's call of send_message: not made, suspended on the full channel of a
connection, or over. A new actor announces its connection state before its loop. -/
inductive SendStage where
  | starting
  | idle
  | suspended (conn : Nat)
  | sent
  deriving DecidableEq, Repr

def SendStage.isOver : SendStage → Bool
  | .idle => true
  | .sent => true
  | _ => false

structure Application (E U : Type) where
  managers : AppState E
  protocol : ProtocolActor E U
  stage : AppActorStage E
  requestRx : List E
  poolOpen : Bool
  sends : Nat → SendStage
  /-- The frames that wait for the send task of a connection. -/
  writeRx : Nat → Nat
  /-- The connections whose tasks still run. -/
  live : Finset Nat

inductive Label (E U : Type) where
  | request (remoteId : E)
  | shutdown
  | client (l : AppLabel E)
  | drained (conn : Nat)
  | lost (conn : Nat)
  | cancelArm
  | recvRequest
  | acceptConn
  | handleChatManager
  | repositoryOpened (ok : Bool)
  | poolClosed
  | shutdownProtocol
  | join
  | protocol (e : ActorEvent E U)
  | supervise (conn : Nat)
  | started (i : Nat) (conn : Option Nat)
  | recvIn (i : Nat)
  | recvSubscribe (i : Nat)
  | otherArm (i : Nat) (conn : Option Nat)
  | send (i : Nat) (conn : Option Nat)
  | resume (i : Nat)
  | handlerDone (i : Nat)
  | actorCancelArm (i : Nat)

/-- The labels by which the application goes on with what was begun; clients and peers begin
something new, read what was sent and lose connections. -/
def Label.Continues {E U : Type} : Label E U → Prop
  | .request _ => False
  | .shutdown => False
  | .client _ => False
  | .drained _ => False
  | .lost _ => False
  | .protocol (.request _) => False
  | _ => True

/-- Those that wait for nobody outside. A query ends by itself; the awaits of a dial and of
a handshake end when the transport or the peer answers, and there is no timeout. -/
def Label.Internal {E U : Type} : Label E U → Prop
  | .protocol (.connected _) => False
  | .protocol (.biOpened _) => False
  | .protocol (.openWritten _ _) => False
  | .protocol (.biAccepted _) => False
  | .protocol (.openRead _ _) => False
  | l => l.Continues

theorem Label.Internal.continues {E U : Type} {l : Label E U} (h : l.Internal) : l.Continues := by
  unfold Label.Internal at h
  split at h
  all_goals first | exact h.elim | exact h

/-- Who takes a step. -/
inductive Party where
  | outside
  | appActor
  | protocol
  | chatActor
  deriving DecidableEq, Repr

def Label.party {E U : Type} : Label E U → Party
  | .request _ => .outside
  | .shutdown => .outside
  | .client _ => .outside
  | .drained _ => .outside
  | .lost _ => .outside
  | .protocol _ => .protocol
  | .supervise _ => .protocol
  | .started _ _ => .chatActor
  | .recvIn _ => .chatActor
  | .recvSubscribe _ => .chatActor
  | .otherArm _ _ => .chatActor
  | .send _ _ => .chatActor
  | .resume _ => .chatActor
  | .handlerDone _ => .chatActor
  | .actorCancelArm _ => .chatActor
  | _ => .appActor

/-- What clients do to the managers. -/
def isClient {E : Type} : AppLabel E → Bool
  | .call _ _ _ => true
  | .dropCall _ => true
  | .dropManager _ => true
  | _ => false

/-- Accepted connections are taken, and the token is cancelled, by AppActor. The channels
of the protocol live as long as the endpoint. -/
def isRouted {E U : Type} : ActorEvent E U → Bool
  | .acceptConn => false
  | .cancel => false
  | .dropSenders => false
  | .dropReceivers => false
  | _ => true

/-- The connection for which process_established_connection spawns its tasks. -/
def spawnsTasks {E U : Type} (a : ProtocolActor E U) : ActorEvent E U → Option Nat
  | .openWritten true _ =>
    match a.stage with
    | .writingOpen _ _ k => some k
    | _ => none
  | .openRead stream _ =>
    match a.stage, acceptHandshake stream with
    | .readingOpen k, .ok _ => some k
    | _, _ => none
  | _ => none

namespace Application
variable {E U : Type} [DecidableEq E] (remoteId : Nat → E)

def start : Application E U :=
  ⟨AppState.start,ProtocolActor.new,.selecting,[],true,fun _ => .starting,fun _ => 0,∅⟩

/-- ChatConnection::send_message: a message for no connection or for one that is gone is
only logged. -/
def sendMessage (s : Application E U) (i : Nat) (conn : Option Nat) (next : SendStage) : Application E U :=
  match conn with
  | some k =>
    if k ∈ s.live then
      if s.writeRx k < channelBuffer then
        { s with
          writeRx := Function.update s.writeRx k (s.writeRx k+1)
          sends := Function.update s.sends i next }
      else { s with sends := Function.update s.sends i (.suspended k) }
    else { s with sends := Function.update s.sends i next }
  | none => { s with sends := Function.update s.sends i next }

/-- A handler of another arm ends with its send; a client's message is still to be answered. -/
def afterSend (a : ActorTask) : SendStage :=
  match a.stage with
  | .selecting => .idle
  | _ => .sent

def resume (s : Application E U) (i : Nat) : Option (Application E U) :=
  match s.sends i with
  | .suspended k =>
    if k ∈ s.live ∧ channelBuffer ≤ s.writeRx k then none
    else some (s.sendMessage i (some k) (afterSend (s.managers.actors i)))
  | _ => none

/-- A step of a chat actor whose handler is not suspended. -/
def actorStep (s : Application E U) (l : AppLabel E) : Option (Application E U) :=
  (s.managers.step l).map (fun m => { s with managers := m })

/-- An error of accept_conn is only logged. -/
def afterAccept : Accepted U → AppActorStage E
  | .ok handle => .handling (remoteId handle.connection) true
  | .error _ => .selecting

def acceptConn (s : Application E U) : Option (Application E U) :=
  (s.protocol.step .acceptConn).map (fun a => { s with
    protocol := a
    stage := (s.protocol.acceptRx.head?).elim .selecting (afterAccept remoteId) })

def handleChatManager (s : Application E U) : Option (Application E U) :=
  match s.stage with
  | .handling p accepted => (s.managers.handleChatManager p accepted).map (fun m => { s with
      managers := m
      stage := if m.opening.isSome then s.stage else .selecting })
  | _ => none

def repositoryOpened (s : Application E U) (ok : Bool) : Option (Application E U) :=
  match s.stage with
  | .handling _ _ => (s.managers.repositoryOpened ok).map (fun m => { s with managers := m, stage := .selecting })
  | _ => none

def protocolStep (s : Application E U) (e : ActorEvent E U) : Option (Application E U) :=
  if isRouted e then
    (s.protocol.step e).map (fun a => { s with
      protocol := a
      live := (spawnsTasks s.protocol e).elim s.live (fun k => insert k s.live) })
  else none

/-- The selects are biased: nothing else is taken once the token is cancelled, and AppActor
looks at requests before connections. -/
def step (s : Application E U) : Label E U → Option (Application E U)
  | .request p =>
    match s.stage with
    | .finished => none
    | _ => if s.requestRx = [] then some { s with requestRx := [p] } else none
  | .shutdown => s.actorStep .cancel
  | .client l => if isClient l then s.actorStep l else none
  | .drained k =>
    if k ∈ s.live ∧ s.writeRx k ≠ 0 then some { s with writeRx := Function.update s.writeRx k (s.writeRx k-1) }
    else none
  | .lost k => if k ∈ s.live then some { s with live := s.live.erase k } else none
  | .cancelArm =>
    match s.stage with
    | .selecting => if s.managers.cancelled then some { s with stage := .closingPool } else none
    | _ => none
  | .recvRequest =>
    match s.stage, s.requestRx with
    | .selecting, p::rest =>
      if s.managers.cancelled then none else some { s with stage := .handling p false, requestRx := rest }
    | _, _ => none
  | .acceptConn =>
    match s.stage, s.requestRx with
    | .selecting, [] => if s.managers.cancelled then none else s.acceptConn remoteId
    | _, _ => none
  | .handleChatManager => s.handleChatManager
  | .repositoryOpened ok => s.repositoryOpened ok
  | .poolClosed =>
    match s.stage with
    | .closingPool => some { s with stage := .cleaningUp, poolOpen := false }
    | _ => none
  | .shutdownProtocol =>
    match s.stage with
    | .cleaningUp => (s.protocol.step .cancel).map (fun a => { s with protocol := a, stage := .joining })
    | _ => none
  | .join =>
    match s.stage with
    | .joining => if s.protocol.isReturned then some { s with stage := .finished } else none
    | _ => none
  | .protocol e => s.protocolStep e
  | .supervise k =>
    if k ∈ s.live ∧ s.protocol.cancelled then some { s with live := s.live.erase k } else none
  | .started i conn =>
    if (s.managers.actors i).stage ≠ .returned ∧ s.sends i = .starting then some (s.sendMessage i conn .idle)
    else none
  | .recvIn i => if s.managers.cancelled = false ∧ s.sends i = .idle then s.actorStep (.recvIn i) else none
  | .recvSubscribe i =>
    if s.managers.cancelled = false ∧ s.sends i = .idle then s.actorStep (.recvSubscribe i) else none
  | .otherArm i conn =>
    if s.managers.cancelled = false ∧ s.sends i = .idle then
      (s.actorStep (.otherArm i)).map (fun t => t.sendMessage i conn .idle)
    else none
  | .send i conn =>
    match (s.managers.actors i).stage, s.sends i with
    | .handlingIn (.single _), .idle => some (s.sendMessage i conn .sent)
    | _, _ => none
  | .resume i => s.resume i
  | .handlerDone i =>
    if (s.sends i).isOver then
      (s.actorStep (.handlerDone i)).map (fun t => { t with sends := Function.update t.sends i .idle })
    else none
  | .actorCancelArm i => if (s.sends i).isOver then s.actorStep (.cancelArm i) else none

/-- What a chat actor has left to do once its token is cancelled. -/
def taskWork (a : ActorTask) (send : SendStage) : Nat :=
  match a.stage, send with
  | .returned, .suspended _ => 1
  | .returned, _ => 0
  | .selecting, .starting => 3
  | .selecting, .suspended _ => 2
  | .selecting, _ => 1
  | _, .suspended _ => 3
  | _, .sent => 2
  | _, .idle => 4
  | _, .starting => 5

/-- One chat actor has moved. -/
structure TaskMoved (s : Application E U) (i : Nat) (t : Application E U) : Prop where
  others : ∀ j, j ≠ i → t.managers.actors j = s.managers.actors j ∧ t.sends j = s.sends j
  unborn : (s.managers.actors i).stage = .returned → s.sends i = .starting → t.sends i = .starting
  returned : (s.managers.actors i).stage = .returned → (t.managers.actors i).stage = .returned
  chatManagers : t.managers.chatManagers = s.managers.chatManagers
  spawned : t.managers.spawned = s.managers.spawned
  opening : t.managers.opening = s.managers.opening
  cancelled : t.managers.cancelled = s.managers.cancelled
  stage : t.stage = s.stage
  requests : t.requestRx = s.requestRx
  pool : t.poolOpen = s.poolOpen
  protocol : t.protocol = s.protocol
  live : t.live = s.live

/-- What one step can do; the invariants and the count use only this. -/
inductive Moved (s : Application E U) (l : Label E U) : Application E U → Prop where
  | task (i : Nat) (t : Application E U) (h : TaskMoved s i t) (hw : l.Continues → s.managers.cancelled = true →
      taskWork (t.managers.actors i) (t.sends i) < taskWork (s.managers.actors i) (s.sends i)) : Moved s l t
  | outside (requests : List E) (writes : Nat → Nat) (cancelled : Bool) (dropped : Finset Nat)
      (served : Option Nat) (hc : s.managers.cancelled = true → cancelled = true) (hl : ¬ l.Continues)
      (hq : (∀ p, l ≠ .request p) → requests = s.requestRx) : Moved s l { s with
        requestRx := requests
        writeRx := writes
        managers := { s.managers with cancelled := cancelled, dropped := dropped, served := served } }
  | ended (k : Nat) (hk : k ∈ s.live) (hw : l.Continues → s.protocol.cancelled = true) :
      Moved s l { s with live := s.live.erase k }
  | tookRequest (p : E) (rest : List E) (hst : s.stage = .selecting) (hc : s.managers.cancelled = false)
      (hq : s.requestRx = p::rest) : Moved s l { s with stage := .handling p false, requestRx := rest }
  | tookConn (result : Accepted U) (rest : List (Accepted U)) (hst : s.stage = .selecting)
      (hc : s.managers.cancelled = false) (hq : s.protocol.acceptRx = result::rest) : Moved s l { s with
        protocol := { s.protocol with acceptRx := rest, taken := s.protocol.taken++[result] }
        stage := afterAccept remoteId result }
  | stopped (hst : s.stage = .selecting) (hc : s.managers.cancelled = true) :
      Moved s l { s with stage := .closingPool }
  | poolClosed (hst : s.stage = .closingPool) : Moved s l { s with stage := .cleaningUp, poolOpen := false }
  | toldProtocol (hst : s.stage = .cleaningUp) : Moved s l { s with
      protocol := { s.protocol with cancelled := true }
      stage := .joining }
  | joined (hst : s.stage = .joining) (hr : s.protocol.isReturned = true) : Moved s l { s with stage := .finished }
  | opening (p : E) (accepted : Bool) (hst : s.stage = .handling p accepted) (hn : s.managers.opening = none)
      (hno : s.managers.chatManagers p = none) :
      Moved s l { s with managers := { s.managers with opening := some ⟨p,accepted⟩, served := none } }
  | used (p : E) (accepted : Bool) (hst : s.stage = .handling p accepted) (q : E)
      (hq : q = (s.managers.opening.map Opening.remoteId).getD p) (i : Nat)
      (hi : s.managers.chatManagers q = some i) (a : ActorTask) (ha : a.stage = (s.managers.actors i).stage) : Moved s l { s with
        managers := { s.managers.setActor i a with opening := none, served := some i }
        stage := .selecting }
  | spawned (p : E) (accepted : Bool) (hst : s.stage = .handling p accepted) (o : Opening E)
      (ho : s.managers.opening = some o) (hno : s.managers.chatManagers o.remoteId = none) (n : Nat) :
      Moved s l { s with
        managers := { s.managers with
          chatManagers := Function.update s.managers.chatManagers o.remoteId (some s.managers.spawned)
          actors := Function.update s.managers.actors s.managers.spawned (ActorTask.new n)
          spawned := s.managers.spawned+1
          opening := none
          served := some s.managers.spawned }
        stage := .selecting }
  | openFailed (p : E) (accepted : Bool) (hst : s.stage = .handling p accepted) (ho : s.managers.opening ≠ none) :
      Moved s l { s with managers := { s.managers with opening := none, served := none }, stage := .selecting }
  | protocol (e : ActorEvent E U) (he : isRouted e = true) (a : ProtocolActor E U) (ha : s.protocol.step e = some a)
      (hl : l = .protocol e) : Moved s l { s with
        protocol := a
        live := (spawnsTasks s.protocol e).elim s.live (fun k => insert k s.live) }

section Inversion
variable {remoteId} {s t : Application E U} {l : Label E U} {i : Nat}

omit [DecidableEq E] in
/-- send_message leaves everything but the frames and the stage of the send. -/
private theorem sendMessage_cases (s : Application E U) (i : Nat) (conn : Option Nat) (next : SendStage) :
    ∃ writes g, s.sendMessage i conn next =
        { s with writeRx := writes, sends := Function.update s.sends i g } ∧
      (g = next ∨ ∃ k, g = .suspended k ∧ k ∈ s.live ∧ channelBuffer ≤ s.writeRx k ∧ conn = some k) := by
  cases conn with
  | none => exact ⟨_,next,rfl,Or.inl rfl⟩
  | some k =>
    simp only [sendMessage]
    split
    · rename_i hk
      split
      · exact ⟨_,next,rfl,Or.inl rfl⟩
      · rename_i hfull
        exact ⟨_,_,rfl,Or.inr ⟨k,rfl,hk,Nat.not_lt.mp hfull,rfl⟩⟩
    · exact ⟨_,next,rfl,Or.inl rfl⟩

private theorem moved_send {conn : Option Nat} {next : SendStage}
    (hborn : (s.managers.actors i).stage = .returned → s.sends i ≠ .starting)
    (hw : l.Continues → s.managers.cancelled = true → ∀ g, g = next ∨ (∃ k, g = .suspended k) →
      (∀ k, s.sends i = .suspended k → g = next) →
        taskWork (s.managers.actors i) g < taskWork (s.managers.actors i) (s.sends i))
    (hroom : ∀ k, s.sends i = .suspended k → conn = some k ∧ ¬ (k ∈ s.live ∧ channelBuffer ≤ s.writeRx k)) :
    Moved remoteId s l (s.sendMessage i conn next) := by
  obtain ⟨writes,g,heq,hg⟩ := sendMessage_cases s i conn next
  rw [heq]
  refine .task i _ ⟨fun j hj => ⟨rfl,?_⟩,fun hr hu => absurd hu (hborn hr),id,rfl,rfl,rfl,rfl,rfl,rfl,rfl,rfl,rfl⟩
    (fun hl hc => ?_)
  · simp [Function.update_of_ne hj]
  · have hnext : g = next ∨ ∃ k, g = .suspended k := hg.imp_right (fun ⟨k,hk,_⟩ => ⟨k,hk⟩)
    have hgo : ∀ k, s.sends i = .suspended k → g = next := by
      intro k hk
      rcases hg with hg | ⟨k',-,hlive,hfull,hconn⟩
      · exact hg
      · obtain ⟨hsame,hno⟩ := hroom k hk
        cases hsame.symm.trans hconn
        exact absurd ⟨hlive,hfull⟩ hno
    simpa using hw hl hc g hnext hgo

omit [DecidableEq E] in
/-- The managers change at one actor, and the send of that actor. -/
private theorem taskMoved_of {m : AppState E} {a : ActorTask} {sends : Nat → SendStage}
    (hactors : m.actors = Function.update s.managers.actors i a)
    (hmap : m.chatManagers = s.managers.chatManagers)
    (hkeep : m.spawned = s.managers.spawned ∧ m.opening = s.managers.opening ∧ m.cancelled = s.managers.cancelled)
    (hreturned : (s.managers.actors i).stage = .returned → a.stage = .returned)
    (hsends : ∀ j, j ≠ i → sends j = s.sends j)
    (hunborn : (s.managers.actors i).stage = .returned → s.sends i = .starting → sends i = .starting) :
    TaskMoved s i { s with managers := m, sends := sends } := by
  refine ⟨fun j hj => ⟨?_,hsends j hj⟩,hunborn,fun hr => ?_,hmap,hkeep.1,hkeep.2.1,hkeep.2.2,rfl,rfl,rfl,rfl,rfl⟩
  · rw [hactors,Function.update_of_ne hj]
  · rw [hactors,Function.update_self]
    exact hreturned hr

private theorem moved_client {al : AppLabel E} (hl : isClient al = true) (hs : s.actorStep al = some t) :
    Moved remoteId s (.client al) t := by
  obtain ⟨m,hm,rfl⟩ := Option.map_eq_some_iff.mp hs
  cases al with
  | call j kind tx =>
    simp only [AppState.step] at hm
    split at hm
    · rename_i hlive
      obtain ⟨a,ha,rfl⟩ := Option.map_eq_some_iff.mp hm
      refine .task j _ (taskMoved_of (a := a) rfl rfl ⟨rfl,rfl,rfl⟩ (fun hr => absurd hr hlive.2.1) (fun _ _ => rfl)
        (fun _ hu => hu)) (fun hi => hi.elim)
    · cases hm
  | dropCall tx =>
    simp only [AppState.step] at hm
    split at hm <;> cases hm
    exact .outside s.requestRx s.writeRx s.managers.cancelled _ none id id (fun _ => rfl)
  | dropManager j =>
    simp only [AppState.step] at hm
    split at hm <;> cases hm
    exact .task j _ (taskMoved_of rfl rfl ⟨rfl,rfl,rfl⟩ id (fun _ _ => rfl) (fun _ hu => hu)) (fun hi => hi.elim)
  | _ => cases hl

/-- An arm of the select of a chat actor, which comes after the cancelled one. -/
private theorem moved_arm {al : AppLabel E} {next : Option ActorTask} (hc : s.managers.cancelled = false)
    (hstep : s.managers.step al = next.map (s.managers.setActor i))
    (hlive : (s.managers.actors i).stage = .returned → next = none) (hs : s.actorStep al = some t) :
    Moved remoteId s l t := by
  obtain ⟨m,hm,rfl⟩ := Option.map_eq_some_iff.mp hs
  rw [hstep] at hm
  obtain ⟨a,ha,rfl⟩ := Option.map_eq_some_iff.mp hm
  refine .task i _ (taskMoved_of (a := a) rfl rfl ⟨rfl,rfl,rfl⟩ (fun hr => ?_) (fun _ _ => rfl) (fun _ hu => hu))
    (fun _ hcancelled => ?_)
  · cases (hlive hr).symm.trans ha
  · cases hc.symm.trans hcancelled

private theorem moved_otherArm {conn : Option Nat} (hc : s.managers.cancelled = false) (hi : s.sends i = .idle)
    (hs : (s.actorStep (.otherArm i)).map (fun t => t.sendMessage i conn .idle) = some t) :
    Moved remoteId s l t := by
  obtain ⟨u,hu,rfl⟩ := Option.map_eq_some_iff.mp hs
  obtain ⟨m,hm,rfl⟩ := Option.map_eq_some_iff.mp hu
  simp only [AppState.step] at hm
  split at hm <;> cases hm
  obtain ⟨writes,g,heq,-⟩ := sendMessage_cases
    ({ s with managers := { s.managers with served := none } } : Application E U) i conn .idle
  rw [heq]
  refine .task i _ ⟨fun j hj => ⟨rfl,?_⟩,fun _ hu => ?_,id,rfl,rfl,rfl,rfl,rfl,rfl,rfl,rfl,rfl⟩
    (fun _ hcancelled => ?_)
  · simp [Function.update_of_ne hj]
  · cases hi.symm.trans hu
  · cases hc.symm.trans hcancelled

/-- The reply ends a handler. -/
private theorem reply_taskWork {a b : ActorTask} {dropped : Finset Nat} {send : SendStage}
    (h : a.reply dropped = some b) (hs : send.isOver = true) :
    a.stage ≠ .returned ∧ taskWork b .idle < taskWork a send := by
  have hdone : taskWork a.finish .idle = 0 := rfl
  have hnext : taskWork { a with stage := .selecting } .idle = 1 := rfl
  unfold ActorTask.reply at h
  cases hst : a.stage with
  | selecting => simp only [hst] at h; cases h
  | returned => simp only [hst] at h; cases h
  | handlingIn msg =>
    have hbusy : 2 ≤ taskWork a send := by
      cases send <;> simp [taskWork,hst]
    refine ⟨by simp,?_⟩
    cases msg <;> simp only [hst] at h <;> (try split at h) <;> cases h <;> omega
  | handlingSubscription tx =>
    have hbusy : 2 ≤ taskWork a send := by
      cases send <;> simp [taskWork,hst]
    simp only [hst] at h
    cases h
    exact ⟨by simp,by omega⟩

private theorem moved_handlerDone (hsend : (s.sends i).isOver = true)
    (hs : (s.actorStep (.handlerDone i)).map (fun t => { t with sends := Function.update t.sends i .idle }) =
      some t) : Moved remoteId s l t := by
  obtain ⟨u,hu,rfl⟩ := Option.map_eq_some_iff.mp hs
  obtain ⟨m,hm,rfl⟩ := Option.map_eq_some_iff.mp hu
  obtain ⟨a,ha,rfl⟩ := Option.map_eq_some_iff.mp hm
  obtain ⟨hrun,hw⟩ := reply_taskWork ha hsend
  refine .task i _ (taskMoved_of (a := a) rfl rfl ⟨rfl,rfl,rfl⟩ (fun hr => absurd hr hrun) (fun j hj => ?_)
    (fun hr => absurd hr hrun)) (fun _ _ => ?_)
  · simp [Function.update_of_ne hj]
  · simpa [AppState.setActor] using hw

private theorem moved_actorCancelArm (hsend : (s.sends i).isOver = true)
    (hs : s.actorStep (.cancelArm i) = some t) : Moved remoteId s l t := by
  obtain ⟨m,hm,rfl⟩ := Option.map_eq_some_iff.mp hs
  simp only [AppState.step] at hm
  split at hm <;> cases hm
  rename_i hcond
  refine .task i _ (taskMoved_of rfl rfl ⟨rfl,rfl,rfl⟩ (fun _ => rfl) (fun _ _ => rfl) (fun _ hu => hu))
    (fun _ _ => ?_)
  cases hst : s.sends i <;> simp_all [AppState.setActor,taskWork,ActorTask.finish,SendStage.isOver]

private theorem moved_started {conn : Option Nat} (hrun : (s.managers.actors i).stage ≠ .returned)
    (hsend : s.sends i = .starting) : Moved remoteId s l (s.sendMessage i conn .idle) := by
  refine moved_send (fun hr => absurd hr hrun) (fun _ _ g hg _ => ?_) (fun k hk => ?_)
  · rw [hsend]
    cases hst : (s.managers.actors i).stage with
    | returned => exact absurd hst hrun
    | _ => rcases hg with rfl | ⟨k,rfl⟩ <;> simp [taskWork,hst]
  · cases hsend.symm.trans hk

private theorem moved_single {conn : Option Nat} {tx : Nat}
    (hst : (s.managers.actors i).stage = .handlingIn (.single tx)) (hsend : s.sends i = .idle) :
    Moved remoteId s l (s.sendMessage i conn .sent) := by
  refine moved_send (fun hr => ?_) (fun _ _ g hg _ => ?_) (fun k hk => ?_)
  · cases hst.symm.trans hr
  · rcases hg with rfl | ⟨k,rfl⟩ <;> simp [taskWork,hst,hsend]
  · cases hsend.symm.trans hk

private theorem moved_resume (hs : s.resume i = some t) : Moved remoteId s l t := by
  unfold resume at hs
  split at hs
  · rename_i k hk
    split at hs <;> cases hs
    rename_i hroom
    refine moved_send (fun _ hu => ?_) (fun _ _ g _ hg => ?_) (fun k' hk' => ?_)
    · cases hk.symm.trans hu
    · rw [hg k hk,hk]
      cases hst : (s.managers.actors i).stage <;> simp [taskWork,afterSend,hst]
    · cases hk.symm.trans hk'
      exact ⟨rfl,hroom⟩
  · cases hs

omit [DecidableEq E] in
private theorem useManager_cases {m m' : AppState E} {accepted : Bool} (h : m.useManager i accepted = some m') :
    ∃ a, a.stage = (m.actors i).stage ∧ m' = { m.setActor i a with opening := none, served := some i } := by
  unfold AppState.useManager at h
  split at h
  · obtain ⟨a,ha,rfl⟩ := Option.map_eq_some_iff.mp h
    refine ⟨a,?_,rfl⟩
    unfold ActorTask.passAcceptedConnHandle at ha
    split at ha
    · cases ha
      rfl
    · split at ha <;> cases ha
      rfl
  · cases h
    exact ⟨(m.actors i).handOut,rfl,rfl⟩

private theorem moved_handleChatManager (hs : s.handleChatManager = some t) : Moved remoteId s l t := by
  unfold handleChatManager at hs
  split at hs
  · rename_i p accepted hst
    obtain ⟨m,hm,rfl⟩ := Option.map_eq_some_iff.mp hs
    unfold AppState.handleChatManager at hm
    split at hm
    · cases hm
    · rename_i hnone
      have hno : s.managers.opening = none := by simpa using hnone
      split at hm
      · rename_i i hi
        obtain ⟨a,ha,rfl⟩ := useManager_cases hm
        exact .used p accepted hst p (by rw [hno]; rfl) i hi a ha
      · rename_i hi
        cases hm
        exact .opening p accepted hst hno hi
  · cases hs

private theorem moved_repositoryOpened {ok : Bool} (hs : s.repositoryOpened ok = some t) :
    Moved remoteId s l t := by
  unfold repositoryOpened at hs
  split at hs
  · rename_i p accepted hst
    obtain ⟨m,hm,rfl⟩ := Option.map_eq_some_iff.mp hs
    unfold AppState.repositoryOpened at hm
    split at hm
    · cases hm
    · rename_i o ho
      split at hm
      · split at hm
        · rename_i i hi
          obtain ⟨a,ha,rfl⟩ := useManager_cases hm
          exact .used p accepted hst o.remoteId (by rw [ho]; rfl) i hi a ha
        · rename_i hi
          cases hm
          exact .spawned p accepted hst o ho hi _
      · cases hm
        exact .openFailed p accepted hst (by simp [ho])
  · cases hs

private theorem moved_protocol {e : ActorEvent E U} (hs : s.protocolStep e = some t) :
    Moved remoteId s (.protocol e) t := by
  unfold protocolStep at hs
  split at hs
  · rename_i he
    obtain ⟨a,ha,rfl⟩ := Option.map_eq_some_iff.mp hs
    exact .protocol e he a ha rfl
  · cases hs

private theorem moved_acceptConn (hst : s.stage = .selecting) (hc : s.managers.cancelled = false)
    (hs : s.acceptConn remoteId = some t) : Moved remoteId s l t := by
  obtain ⟨a,ha,rfl⟩ := Option.map_eq_some_iff.mp hs
  simp only [ProtocolActor.step] at ha
  split at ha
  · rename_i result rest hq
    split at ha <;> cases ha
    rw [hq]
    exact .tookConn result rest hst hc hq
  · cases ha

private theorem moved_outside (hl : l.party = .outside) (hs : s.step remoteId l = some t) : Moved remoteId s l t := by
  cases l with
  | request p =>
    simp only [step] at hs
    split at hs
    · cases hs
    · split at hs <;> cases hs
      exact .outside [p] s.writeRx s.managers.cancelled s.managers.dropped s.managers.served id id
        (fun hne => absurd rfl (hne p))
  | shutdown =>
    cases hs
    exact .outside _ _ true _ none (fun _ => rfl) id (fun _ => rfl)
  | client al =>
    simp only [step] at hs
    split at hs
    · rename_i hl
      exact moved_client hl hs
    · cases hs
  | drained k =>
    simp only [step] at hs
    split at hs <;> cases hs
    exact .outside s.requestRx _ s.managers.cancelled s.managers.dropped s.managers.served id id (fun _ => rfl)
  | lost k =>
    simp only [step] at hs
    split at hs <;> cases hs
    rename_i hk
    exact .ended k hk (fun hi => hi.elim)
  | _ => cases hl

private theorem moved_appActor (hl : l.party = .appActor) (hs : s.step remoteId l = some t) :
    Moved remoteId s l t := by
  cases l with
  | cancelArm =>
    simp only [step] at hs
    split at hs
    · rename_i hst
      split at hs <;> cases hs
      rename_i hc
      exact .stopped hst hc
    · cases hs
  | recvRequest =>
    simp only [step] at hs
    split at hs
    · rename_i p rest hst hq
      split at hs <;> cases hs
      rename_i hc
      exact .tookRequest p rest hst (Bool.eq_false_iff.mpr hc) hq
    · cases hs
  | acceptConn =>
    simp only [step] at hs
    split at hs
    · rename_i hst hq
      split at hs
      · cases hs
      · rename_i hc
        exact moved_acceptConn hst (Bool.eq_false_iff.mpr hc) hs
    · cases hs
  | handleChatManager => exact moved_handleChatManager hs
  | repositoryOpened ok => exact moved_repositoryOpened hs
  | poolClosed =>
    simp only [step] at hs
    split at hs <;> cases hs
    rename_i hst
    exact .poolClosed hst
  | shutdownProtocol =>
    simp only [step] at hs
    split at hs <;> cases hs
    rename_i hst
    exact .toldProtocol hst
  | join =>
    simp only [step] at hs
    split at hs
    · rename_i hst
      split at hs <;> cases hs
      rename_i hr
      exact .joined hst hr
    · cases hs
  | _ => cases hl

private theorem moved_ofProtocol (hl : l.party = .protocol) (hs : s.step remoteId l = some t) :
    Moved remoteId s l t := by
  cases l with
  | protocol e => exact moved_protocol hs
  | supervise k =>
    simp only [step] at hs
    split at hs <;> cases hs
    rename_i hk
    exact .ended k hk.1 (fun _ => hk.2)
  | _ => cases hl

private theorem moved_chatActor (hl : l.party = .chatActor) (hs : s.step remoteId l = some t) :
    Moved remoteId s l t := by
  cases l with
  | started i conn =>
    simp only [step] at hs
    split at hs <;> cases hs
    rename_i hi
    exact moved_started hi.1 hi.2
  | recvIn i =>
    simp only [step] at hs
    split at hs
    · rename_i hi
      exact moved_arm hi.1 rfl (fun hr => by simp [ActorTask.recvIn,hr]) hs
    · cases hs
  | recvSubscribe i =>
    simp only [step] at hs
    split at hs
    · rename_i hi
      exact moved_arm hi.1 rfl (fun hr => by simp [ActorTask.recvSubscribe,hr]) hs
    · cases hs
  | otherArm i conn =>
    simp only [step] at hs
    split at hs
    · rename_i hi
      exact moved_otherArm hi.1 hi.2 hs
    · cases hs
  | send i conn =>
    simp only [step] at hs
    split at hs <;> cases hs
    rename_i tx hst hsend
    exact moved_single hst hsend
  | resume i => exact moved_resume hs
  | handlerDone i =>
    simp only [step] at hs
    split at hs
    · rename_i hi
      exact moved_handlerDone hi hs
    · cases hs
  | actorCancelArm i =>
    simp only [step] at hs
    split at hs
    · rename_i hi
      exact moved_actorCancelArm hi hs
    · cases hs
  | _ => cases hl

variable (remoteId) in
theorem step_moved (hs : s.step remoteId l = some t) : Moved remoteId s l t := by
  cases hl : l.party with
  | outside => exact moved_outside hl hs
  | appActor => exact moved_appActor hl hs
  | protocol => exact moved_ofProtocol hl hs
  | chatActor => exact moved_chatActor hl hs

end Inversion

end Application
end GossipCore.App
