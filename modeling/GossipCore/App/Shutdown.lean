import GossipCore.App.Application
import GossipCore.Protocol.Agreement
import Mathlib.Algebra.Order.BigOperators.Group.Finset

/-! The shutdown of an application. Cancelling the token ends the selects, but a handler
that is suspended in a channel goes on waiting, and AppActor waits for others twice. -/
namespace GossipCore.App
open Base Chat Protocol
open Manager hiding channelBuffer
namespace Application
variable {E U : Type} [DecidableEq E] (remoteId : Nat → E)

/-- How far the shutdown has come at each stage of AppActor. -/
def Phase (s : Application E U) : Prop :=
  match s.stage with
  | .cleaningUp => s.poolOpen = false
  | .joining => s.poolOpen = false ∧ s.protocol.cancelled = true
  | .finished => s.poolOpen = false ∧ s.protocol.cancelled = true ∧ s.protocol.isReturned = true
  | _ => True

structure Inv (s : Application E U) : Prop where
  absent : ∀ i, s.managers.spawned ≤ i → (s.managers.actors i).stage = .returned ∧ s.sends i = .starting
  senders : s.protocol.sendersAlive = true
  receivers : s.protocol.receiversAlive = true
  opening : s.managers.opening ≠ none → ∃ p b, s.stage = .handling p b
  phase : s.Phase

omit [DecidableEq E] in
theorem start_inv : (start : Application E U).Inv := by
  refine ⟨fun _ _ => ⟨rfl,rfl⟩,rfl,rfl,fun h => absurd rfl h,trivial⟩

omit [DecidableEq E] in
/-- A cancelled token stays so, and a returned actor too. -/
private theorem protocol_keeps {a b : ProtocolActor E U} {e : ActorEvent E U} (hs : a.step e = some b) :
    (a.cancelled = true → b.cancelled = true) ∧ (a.isReturned = true → b.isReturned = true) := by
  cases ProtocolActor.step_moved hs with
  | queued r hr => exact ⟨id,id⟩
  | took result rest hq => exact ⟨id,id⟩
  | flagged cancelled senders receivers hc => exact ⟨hc,id⟩
  | finished hr => exact ⟨id,fun _ => rfl⟩
  | began r rest hst hq hc =>
    refine ⟨fun h => ?_,fun h => ?_⟩
    · cases hc.symm.trans h
    · simp [ProtocolActor.isReturned,hst] at h
  | advanced stage hr => exact ⟨id,fun h => by cases hr.symm.trans h⟩
  | answered e t result hr => exact ⟨id,fun h => by cases hr.symm.trans h⟩
  | decided k result reads hr => exact ⟨id,fun h => by cases hr.symm.trans h⟩
  | passed k result hst => exact ⟨id,fun h => by simp [ProtocolActor.isReturned,hst] at h⟩

omit [DecidableEq E] in
/-- Only AppActor takes from the accept channel, and nobody closes a channel. -/
theorem channels_kept {a b : ProtocolActor E U} {e : ActorEvent E U} (he : isRouted e = true)
    (hs : a.step e = some b) :
    b.sendersAlive = a.sendersAlive ∧ b.receiversAlive = a.receiversAlive ∧ b.taken = a.taken := by
  cases ProtocolActor.step_stepped hs with
  | acceptConn result rest hq hr => cases he
  | dropSenders => cases he
  | dropReceivers => cases he
  | recv r rest hst hq hc => cases r <;> exact ⟨rfl,rfl,rfl⟩
  | _ => exact ⟨rfl,rfl,rfl⟩

section Invariant
variable {s t : Application E U} {l : Label E U}

omit [DecidableEq E] in
/-- The phase at a stage before the shutdown is no condition. -/
private theorem phase_of_handling {p : E} {accepted : Bool} (hst : s.stage = .handling p accepted) : s.Phase := by
  simp [Phase,hst]

omit [DecidableEq E] in
private theorem Phase.protocol {a : ProtocolActor E U} {live : Finset Nat} (h : s.Phase)
    (hc : s.protocol.cancelled = true → a.cancelled = true)
    (hr : s.protocol.isReturned = true → a.isReturned = true) : { s with protocol := a, live := live }.Phase := by
  unfold Phase at h ⊢
  dsimp only
  split <;> simp_all

omit [DecidableEq E] in
private theorem TaskMoved.inv {i : Nat} (h : TaskMoved s i t) (hs : s.Inv) : t.Inv := by
  refine ⟨fun j hj => ?_,?_,?_,?_,?_⟩
  · rw [h.spawned] at hj
    obtain ⟨hr,hu⟩ := hs.absent j hj
    by_cases hji : j = i
    · subst hji
      exact ⟨h.returned hr,h.unborn hr hu⟩
    · rw [(h.others j hji).1,(h.others j hji).2]
      exact ⟨hr,hu⟩
  · rw [h.protocol]
    exact hs.senders
  · rw [h.protocol]
    exact hs.receivers
  · rw [h.opening,h.stage]
    exact hs.opening
  · have hp := hs.phase
    unfold Phase at hp ⊢
    rw [h.stage,h.pool,h.protocol]
    exact hp

omit [DecidableEq E] in
private theorem Inv.not_opening (hs : s.Inv) {stage : AppActorStage E} (hst : s.stage = stage)
    (hne : ∀ p b, stage ≠ .handling p b) (ho : s.managers.opening ≠ none) : False := by
  obtain ⟨p,b,hhandling⟩ := hs.opening ho
  exact hne p b (hst.symm.trans hhandling)

theorem step_inv (hs : s.Inv) (h : s.step remoteId l = some t) : t.Inv := by
  cases step_moved remoteId h with
  | task i _ hmoved => exact hmoved.inv hs
  | outside requests writes cancelled dropped served hc hl =>
    exact ⟨hs.absent,hs.senders,hs.receivers,hs.opening,hs.phase⟩
  | ended k hk hw => exact ⟨hs.absent,hs.senders,hs.receivers,hs.opening,hs.phase⟩
  | tookRequest p rest hst hc hq =>
    exact ⟨hs.absent,hs.senders,hs.receivers,fun ho => (hs.not_opening hst (by simp) ho).elim,trivial⟩
  | tookConn result rest hst hc hq =>
    refine ⟨hs.absent,hs.senders,hs.receivers,fun ho => (hs.not_opening hst (by simp) ho).elim,?_⟩
    cases result <;> trivial
  | stopped hst hc =>
    exact ⟨hs.absent,hs.senders,hs.receivers,fun ho => (hs.not_opening hst (by simp) ho).elim,trivial⟩
  | poolClosed hst =>
    exact ⟨hs.absent,hs.senders,hs.receivers,fun ho => (hs.not_opening hst (by simp) ho).elim,rfl⟩
  | toldProtocol hst =>
    have hp := hs.phase
    simp only [Phase,hst] at hp
    exact ⟨hs.absent,hs.senders,hs.receivers,fun ho => (hs.not_opening hst (by simp) ho).elim,hp,rfl⟩
  | joined hst hr =>
    have hp := hs.phase
    simp only [Phase,hst] at hp
    exact ⟨hs.absent,hs.senders,hs.receivers,fun ho => (hs.not_opening hst (by simp) ho).elim,hp.1,hp.2,hr⟩
  | opening p accepted hst hn hno =>
    exact ⟨hs.absent,hs.senders,hs.receivers,fun _ => ⟨p,accepted,hst⟩,phase_of_handling hst⟩
  | used p accepted hst q hq i hi a ha =>
    refine ⟨fun j hj => ?_,hs.senders,hs.receivers,fun ho => absurd rfl ho,trivial⟩
    obtain ⟨hr,hu⟩ := hs.absent j hj
    refine ⟨?_,hu⟩
    by_cases hji : j = i
    · subst hji
      simp [AppState.setActor,ha,hr]
    · simp [AppState.setActor,Function.update_of_ne hji,hr]
  | spawned p accepted hst o ho hno n =>
    refine ⟨fun j hj => ?_,hs.senders,hs.receivers,fun ho => absurd rfl ho,trivial⟩
    have hlt : s.managers.spawned < j := hj
    obtain ⟨hr,hu⟩ := hs.absent j hlt.le
    refine ⟨?_,hu⟩
    simpa only [Function.update_of_ne (Nat.ne_of_gt hlt)] using hr
  | openFailed p accepted hst ho => exact ⟨hs.absent,hs.senders,hs.receivers,fun h => absurd rfl h,trivial⟩
  | protocol e he a ha hl =>
    obtain ⟨hsenders,hreceivers,-⟩ := channels_kept he ha
    obtain ⟨hc,hr⟩ := protocol_keeps ha
    exact ⟨hs.absent,hsenders.trans hs.senders,hreceivers.trans hs.receivers,hs.opening,hs.phase.protocol hc hr⟩

end Invariant

def appWork : AppActorStage E → Bool → Nat
  | .handling _ _, false => 11
  | .handling _ _, true => 10
  | .selecting, _ => 6
  | .closingPool, _ => 5
  | .cleaningUp, _ => 4
  | .joining, _ => 1
  | .finished, _ => 0

/-- The steps that are left. A handshake may bring a connection that is then closed. -/
def work (s : Application E U) : Nat :=
  appWork s.stage s.managers.opening.isSome+
    ∑ i ∈ Finset.range s.managers.spawned, taskWork (s.managers.actors i) (s.sends i)+
    2*Network.actorWork s.protocol+s.live.card

section Work
variable {s t : Application E U} {l : Label E U}

omit [DecidableEq E] in
/-- The actor that moves has been spawned, and the others keep their work. -/
private theorem TaskMoved.lowers {i : Nat} (h : TaskMoved s i t) (hs : s.Inv)
    (hw : taskWork (t.managers.actors i) (t.sends i) < taskWork (s.managers.actors i) (s.sends i)) :
    t.work < s.work := by
  have hi : i < s.managers.spawned := by
    by_contra hn
    obtain ⟨hr,hu⟩ := hs.absent i (Nat.not_lt.mp hn)
    have hzero : taskWork (s.managers.actors i) (s.sends i) = 0 := by simp [taskWork,hr,hu]
    omega
  have hsum : ∑ j ∈ Finset.range s.managers.spawned, taskWork (t.managers.actors j) (t.sends j) <
      ∑ j ∈ Finset.range s.managers.spawned, taskWork (s.managers.actors j) (s.sends j) := by
    refine Finset.sum_lt_sum (fun j _ => ?_) ⟨i,Finset.mem_range.mpr hi,hw⟩
    by_cases hji : j = i
    · subst hji
      exact hw.le
    · rw [(h.others j hji).1,(h.others j hji).2]
  simp only [work,h.stage,h.opening,h.spawned,h.protocol,h.live]
  omega

omit [DecidableEq E] in
private theorem actorWork_cancel (a : ProtocolActor E U) :
    Network.actorWork { a with cancelled := true } ≤ Network.actorWork a+1 := by
  cases hst : a.stage <;> simp [Network.actorWork,Network.cancelWork,hst]

private theorem taskWork_selecting_le (n : Nat) (send : SendStage) : taskWork (ActorTask.new n) send ≤ 3 := by
  cases send <;> simp [taskWork,ActorTask.new]

omit [DecidableEq E] in
@[simp] private theorem appWork_selecting (opening : Bool) :
    appWork (.selecting : AppActorStage E) opening = 6 := rfl

omit [DecidableEq E] in
private theorem le_appWork_handling {p : E} {accepted : Bool} (hst : s.stage = .handling p accepted)
    (opening : Bool) :
    10 ≤ appWork s.stage opening := by
  rw [hst]
  cases opening <;> simp [appWork]

omit [DecidableEq E] in
private theorem own_of_continues {e : ActorEvent E U} (he : isRouted e = true) (hi : (Label.protocol e).Continues) :
    Network.Own e := by
  cases e with
  | request r => exact hi.elim
  | acceptConn => cases he
  | dropSenders => cases he
  | dropReceivers => cases he
  | cancel => cases he
  | _ => trivial

private theorem card_spawnsTasks (live : Finset Nat) (o : Option Nat) :
    (o.elim live (fun k => insert k live)).card ≤ live.card+1 := by
  cases o with
  | none => exact Nat.le_succ _
  | some k => exact Finset.card_insert_le k live

/-- Once the token is cancelled, every step that begins nothing new lowers the count. -/
theorem step_work (hs : s.Inv) (hc : s.managers.cancelled = true) (hl : l.Continues)
    (h : s.step remoteId l = some t) : t.work < s.work := by
  cases step_moved remoteId h with
  | task i _ hmoved hw => exact hmoved.lowers hs (hw hl hc)
  | outside requests writes cancelled dropped served hc hno => exact absurd hl hno
  | ended k hk hw =>
    have hcard := Finset.card_erase_add_one hk
    simp only [work]
    omega
  | tookRequest p rest hst hrunning => cases hrunning.symm.trans hc
  | tookConn result rest hst hrunning => cases hrunning.symm.trans hc
  | stopped hst hc =>
    simp only [work,appWork,hst]
    omega
  | poolClosed hst =>
    simp only [work,appWork,hst]
    omega
  | toldProtocol hst =>
    have hcancel := actorWork_cancel s.protocol
    simp only [work,appWork,hst]
    omega
  | joined hst hr =>
    simp only [work,appWork,hst]
    omega
  | opening p accepted hst hn hno =>
    simp only [work,appWork,hst,hn,Option.isSome_none,Option.isSome_some]
    omega
  | used p accepted hst q hq i hi a ha =>
    have hstage := le_appWork_handling hst s.managers.opening.isSome
    have hsame : ∀ j, taskWork (Function.update s.managers.actors i a j) (s.sends j) =
        taskWork (s.managers.actors j) (s.sends j) := by
      intro j
      by_cases hji : j = i
      · subst hji
        simp [taskWork,ha]
      · rw [Function.update_of_ne hji]
    simp only [work,AppState.setActor,hsame,appWork_selecting]
    omega
  | spawned p accepted hst o ho hno n =>
    have hstage := le_appWork_handling hst s.managers.opening.isSome
    have hnew := taskWork_selecting_le n (s.sends s.managers.spawned)
    have hold : ∑ j ∈ Finset.range s.managers.spawned,
        taskWork (Function.update s.managers.actors s.managers.spawned (ActorTask.new n) j) (s.sends j) =
        ∑ j ∈ Finset.range s.managers.spawned, taskWork (s.managers.actors j) (s.sends j) := by
      refine Finset.sum_congr rfl (fun j hj => ?_)
      rw [Function.update_of_ne (Nat.ne_of_lt (Finset.mem_range.mp hj))]
    simp only [work,Finset.sum_range_succ,hold,Function.update_self,appWork_selecting]
    omega
  | openFailed p accepted hst ho =>
    have hstage := le_appWork_handling hst s.managers.opening.isSome
    simp only [work,appWork_selecting]
    omega
  | protocol e he a ha heq =>
    subst heq
    have hactor := Network.step_actorWork hs.senders (own_of_continues he hl) ha
    have hcost : 1 ≤ Network.cost e := by
      unfold Network.cost
      split <;> omega
    have hcard := card_spawnsTasks s.live (spawnsTasks s.protocol e)
    simp only [work]
    omega

end Work

/-- Nothing of the application runs any more. -/
structure Stopped (s : Application E U) : Prop where
  app : s.stage = .finished
  pool : s.poolOpen = false
  protocol : s.protocol.isReturned = true
  actors : ∀ i, (s.managers.actors i).stage = .returned
  live : s.live = ∅

/-- AppActor cannot pass an accepted connection on, because the chat's actor does not empty
its channel while it waits for room on a connection that the peer does not read. -/
def AppWaits (s : Application E U) : Prop :=
  ∃ p i k, s.stage = .handling p true ∧ s.managers.chatManagers p = some i ∧
    Manager.channelBuffer ≤ (s.managers.actors i).inRx.length ∧ s.sends i = .suspended k ∧ k ∈ s.live ∧
    channelBuffer ≤ s.writeRx k

/-- The protocol's actor waits for room on the accept channel, and AppActor, which was its
only reader, waits for the protocol's actor. -/
def ProtocolWaits (s : Application E U) : Prop :=
  s.stage = .joining ∧ channelBuffer ≤ s.protocol.acceptRx.length ∧
    ∃ k result, s.protocol.stage = .passingOn k result

/-- The await is for the transport or for the peer of a dial or of a handshake. -/
def AwaitsPeer : ActorStage E U → Prop
  | .connecting _ _ => True
  | .openingBi _ _ _ => True
  | .writingOpen _ _ _ => True
  | .acceptingBi _ => True
  | .readingOpen _ => True
  | _ => False

/-- The protocol's actor waits for a peer that says nothing, and AppActor for the protocol's
actor, which looks at its token only between two requests. -/
def HandshakeWaits (s : Application E U) : Prop := s.stage = .joining ∧ AwaitsPeer s.protocol.stage

section Quiet
variable {s : Application E U}

private theorem actor_quiet (hq : Quiet (step remoteId) Label.Internal s) (hc : s.managers.cancelled = true)
    (i : Nat) (hi : (s.managers.actors i).stage ≠ .returned) :
    ∃ k, s.sends i = .suspended k ∧ k ∈ s.live ∧ channelBuffer ≤ s.writeRx k := by
  cases hsend : s.sends i with
  | starting =>
    have hstart := hq (.started i none) trivial
    simp [step,hi,hsend] at hstart
  | suspended k =>
    have hresume := hq (.resume i) trivial
    simp only [step,resume,hsend] at hresume
    split at hresume
    · rename_i hfull
      exact ⟨k,rfl,hfull⟩
    · cases hresume
  | _ =>
    -- the handler ends, or the actor is in its select
    have hdone := hq (.handlerDone i) trivial
    have harm := hq (.actorCancelArm i) trivial
    simp only [step,hsend,SendStage.isOver,if_true,actorStep,AppState.step,Option.map_eq_none_iff] at hdone harm
    cases hst : (s.managers.actors i).stage with
    | returned => exact absurd hst hi
    | selecting => simp [hc,hst] at harm
    | handlingIn msg =>
      unfold ActorTask.reply at hdone
      cases msg <;> simp only [hst] at hdone <;> (try split at hdone) <;> cases hdone
    | handlingSubscription tx => simp [ActorTask.reply,hst] at hdone

private theorem protocol_quiet (hs : s.Inv) (hq : Quiet (step remoteId) Label.Internal s)
    (hc : s.protocol.cancelled = true) (hr : s.protocol.isReturned = false) :
    (channelBuffer ≤ s.protocol.acceptRx.length ∧ ∃ k result, s.protocol.stage = .passingOn k result) ∨
      AwaitsPeer s.protocol.stage := by
  have hstep : ∀ e : ActorEvent E U, isRouted e = true → (Label.protocol e).Internal →
      s.protocol.step e = none := by
    intro e he hi
    have h := hq (.protocol e) hi
    simpa [step,protocolStep,he] using h
  cases hst : s.protocol.stage with
  | selecting => simpa [ProtocolActor.step,ProtocolActor.cancelArm,hst,hc] using hstep .cancelArm rfl trivial
  | passingOn k result =>
    have h := hstep .passedOn rfl trivial
    simp only [ProtocolActor.step,ProtocolActor.passedOn,hst,hs.receivers,if_true] at h
    split at h
    · cases h
    · rename_i hfull
      exact Or.inl ⟨Nat.not_lt.mp hfull,k,result,rfl⟩
  | returned => simp [ProtocolActor.isReturned,hst] at hr
  | _ => exact Or.inr trivial

/-- An answer of any kind ends such an await. -/
private theorem not_awaitsPeer [Nonempty U] (hq : Quiet (step remoteId) Label.Continues s) :
    ¬ AwaitsPeer s.protocol.stage := by
  obtain ⟨id⟩ := ‹Nonempty U›
  have hstep : ∀ e : ActorEvent E U, isRouted e = true → (Label.protocol e).Continues →
      s.protocol.step e = none := by
    intro e he hi
    have h := hq (.protocol e) hi
    simpa [step,protocolStep,he] using h
  intro hw
  cases hst : s.protocol.stage with
  | connecting e t =>
    simpa [ProtocolActor.step,ProtocolActor.connected,hst] using hstep (.connected none) rfl trivial
  | openingBi e t k =>
    simpa [ProtocolActor.step,ProtocolActor.biOpened,hst] using hstep (.biOpened false) rfl trivial
  | writingOpen e t k =>
    simpa [ProtocolActor.step,ProtocolActor.openWritten,hst] using hstep (.openWritten false id) rfl trivial
  | acceptingBi k =>
    simpa [ProtocolActor.step,ProtocolActor.biAccepted,hst] using hstep (.biAccepted false) rfl trivial
  | readingOpen k =>
    have h := hstep (.openRead ⟨[],by simp,.finished⟩ id) rfl trivial
    simp only [ProtocolActor.step,ProtocolActor.openRead,hst] at h
    split at h <;> cases h
  | _ =>
    rw [hst] at hw
    exact hw

/-- AppActor inside handle_chat_manager. -/
private theorem handling_quiet (hq : Quiet (step remoteId) Label.Internal s) (hc : s.managers.cancelled = true)
    {p : E} {accepted : Bool} (hst : s.stage = .handling p accepted) : s.AppWaits := by
  have hhandle := hq .handleChatManager trivial
  have hopened := hq (.repositoryOpened false) trivial
  simp only [step,handleChatManager,repositoryOpened,hst,Option.map_eq_none_iff] at hhandle hopened
  have hnone : s.managers.opening = none := by
    cases ho : s.managers.opening with
    | none => rfl
    | some o => simp [AppState.repositoryOpened,ho] at hopened
  simp only [AppState.handleChatManager,hnone,Option.isSome_none,Bool.false_eq_true,if_false] at hhandle
  cases hm : s.managers.chatManagers p with
  | none => simp [hm] at hhandle
  | some i =>
    simp only [hm,AppState.useManager] at hhandle
    cases accepted with
    | false => simp at hhandle
    | true =>
      simp only [if_true,Option.map_eq_none_iff,ActorTask.passAcceptedConnHandle] at hhandle
      split at hhandle
      · cases hhandle
      · rename_i hrun
        split at hhandle
        · cases hhandle
        · rename_i hfull
          obtain ⟨k,hsend,hlive,hwrites⟩ := actor_quiet remoteId hq hc i hrun
          exact ⟨p,i,k,hst,hm,Nat.not_lt.mp hfull,hsend,hlive,hwrites⟩

/-- Once the protocol's token is cancelled, the connections and then the chat actors end. -/
private theorem drained_quiet (hq : Quiet (step remoteId) Label.Internal s) (hc : s.managers.cancelled = true)
    (hp : s.protocol.cancelled = true) : s.live = ∅ ∧ ∀ i, (s.managers.actors i).stage = .returned := by
  have hlive : s.live = ∅ := by
    refine Finset.eq_empty_iff_forall_notMem.mpr (fun k hk => ?_)
    have h := hq (.supervise k) trivial
    simp [step,hk,hp] at h
  refine ⟨hlive,fun i => ?_⟩
  by_contra hrun
  obtain ⟨k,-,hk,-⟩ := actor_quiet remoteId hq hc i hrun
  rw [hlive] at hk
  cases hk

theorem quiet_cases (hs : s.Inv) (hq : Quiet (step remoteId) Label.Internal s)
    (hc : s.managers.cancelled = true) :
    s.Stopped ∨ s.AppWaits ∨ ((s.ProtocolWaits ∨ s.HandshakeWaits) ∧ s.live = ∅ ∧
      ∀ i, (s.managers.actors i).stage = .returned) := by
  have hphase := hs.phase
  cases hst : s.stage with
  | selecting =>
    have h := hq .cancelArm trivial
    simp [step,hst,hc] at h
  | handling p accepted => exact Or.inr (Or.inl (handling_quiet remoteId hq hc hst))
  | closingPool =>
    have h := hq .poolClosed trivial
    simp [step,hst] at h
  | cleaningUp =>
    have h := hq .shutdownProtocol trivial
    simp [step,hst,ProtocolActor.step] at h
  | joining =>
    simp only [Phase,hst] at hphase
    have hr : s.protocol.isReturned = false := by
      have h := hq .join trivial
      simpa [step,hst] using h
    refine Or.inr (Or.inr ⟨?_,drained_quiet remoteId hq hc hphase.2⟩)
    exact (protocol_quiet remoteId hs hq hphase.2 hr).imp (fun hfull => ⟨hst,hfull⟩) (fun hpeer => ⟨hst,hpeer⟩)
  | finished =>
    simp only [Phase,hst] at hphase
    obtain ⟨hpool,hcancel,hreturned⟩ := hphase
    obtain ⟨hlive,hactors⟩ := drained_quiet remoteId hq hc hcancel
    exact Or.inl ⟨hst,hpool,hreturned,hactors,hlive⟩

end Quiet

section Stable
variable {s t : Application E U} {l : Label E U}

private theorem step_cancelled (h : s.step remoteId l = some t) (hc : s.managers.cancelled = true) :
    t.managers.cancelled = true := by
  cases step_moved remoteId h with
  | task i _ hmoved => exact hmoved.cancelled.trans hc
  | outside requests writes cancelled dropped served hkeep => exact hkeep hc
  | used p accepted hst q hq i hi a ha => exact hc
  | _ => exact hc

/-- Once it has told the protocol, AppActor can only join it. -/
private theorem Moved.late (h : Moved remoteId s l t) (hst : s.stage = .joining ∨ s.stage = .finished) :
    (∃ i, TaskMoved s i t) ∨
    (t.managers.actors = s.managers.actors ∧ t.stage = s.stage ∧ t.poolOpen = s.poolOpen ∧ t.protocol = s.protocol ∧
      t.live ⊆ s.live) ∨
    (s.stage = .joining ∧ s.protocol.isReturned = true) ∨
    ∃ e a, isRouted e = true ∧ s.protocol.step e = some a ∧ t = { s with
      protocol := a
      live := (spawnsTasks s.protocol e).elim s.live (fun k => insert k s.live) } := by
  -- the stages before are excluded by their name
  have hearly {stage : AppActorStage E} (he : s.stage = stage) (hn : stage ≠ .joining ∧ stage ≠ .finished) : False :=
    hst.elim (fun hj => hn.1 (he.symm.trans hj)) (fun hf => hn.2 (he.symm.trans hf))
  cases h with
  | task i _ hmoved => exact Or.inl ⟨i,hmoved⟩
  | outside requests writes cancelled dropped served hkeep =>
    exact Or.inr (Or.inl ⟨rfl,rfl,rfl,rfl,Finset.Subset.refl _⟩)
  | ended k hk => exact Or.inr (Or.inl ⟨rfl,rfl,rfl,rfl,Finset.erase_subset k s.live⟩)
  | tookRequest p rest he => exact (hearly he (by simp)).elim
  | tookConn result rest he => exact (hearly he (by simp)).elim
  | stopped he => exact (hearly he (by simp)).elim
  | poolClosed he => exact (hearly he (by simp)).elim
  | toldProtocol he => exact (hearly he (by simp)).elim
  | joined he hr => exact Or.inr (Or.inr (Or.inl ⟨he,hr⟩))
  | opening p accepted he => exact (hearly he (by simp)).elim
  | used p accepted he => exact (hearly he (by simp)).elim
  | spawned p accepted he => exact (hearly he (by simp)).elim
  | openFailed p accepted he => exact (hearly he (by simp)).elim
  | protocol e he a ha => exact Or.inr (Or.inr (Or.inr ⟨e,a,he,ha,rfl⟩))

/-- Whatever clients and peers still do, nothing is started again. -/
private theorem step_stopped (hs : s.Stopped) (h : s.step remoteId l = some t) : t.Stopped := by
  rcases (step_moved remoteId h).late remoteId (Or.inr hs.app) with
    ⟨i,hmoved⟩ | ⟨hactors,hstage,hpool,hprotocol,hlive⟩ | ⟨hjoin,-⟩ | ⟨e,a,-,ha,rfl⟩
  · refine ⟨hmoved.stage.trans hs.app,hmoved.pool.trans hs.pool,?_,fun j => ?_,hmoved.live.trans hs.live⟩
    · rw [hmoved.protocol]
      exact hs.protocol
    · by_cases hji : j = i
      · subst hji
        exact hmoved.returned (hs.actors j)
      · rw [(hmoved.others j hji).1]
        exact hs.actors j
  · refine ⟨hstage.trans hs.app,hpool.trans hs.pool,?_,?_,?_⟩
    · rw [hprotocol]
      exact hs.protocol
    · rw [hactors]
      exact hs.actors
    · exact Finset.subset_empty.mp (hs.live ▸ hlive)
  · cases hs.app.symm.trans hjoin
  · have hnone : spawnsTasks s.protocol e = none := by
      have hr := hs.protocol
      unfold spawnsTasks
      cases hst : s.protocol.stage <;> simp [ProtocolActor.isReturned,hst] at hr
      split <;> rfl
    refine ⟨hs.app,hs.pool,(protocol_keeps ha).2 hs.protocol,hs.actors,?_⟩
    rw [hnone]
    exact hs.live

omit [DecidableEq E] in
/-- The protocol's actor cannot leave the full channel by itself. -/
private theorem passingOn_stays {a b : ProtocolActor E U} {e : ActorEvent E U} {k : Nat} {result : Accepted U}
    (he : isRouted e = true) (hr : a.receiversAlive = true) (hst : a.stage = .passingOn k result)
    (hfull : channelBuffer ≤ a.acceptRx.length) (hs : a.step e = some b) :
    b.stage = .passingOn k result ∧ b.acceptRx = a.acceptRx := by
  cases ProtocolActor.step_stepped hs with
  | request r => exact ⟨hst,rfl⟩
  | acceptConn => cases he
  | dropSenders => exact ⟨hst,rfl⟩
  | dropReceivers => exact ⟨hst,rfl⟩
  | cancel => exact ⟨hst,rfl⟩
  | passedOn k result h _ hlt => exact absurd hlt (Nat.not_lt.mpr hfull)
  | passedClosed k result h hclosed => cases hr.symm.trans hclosed
  | _ => simp_all

private theorem step_protocolWaits (hs : s.Inv) (hw : s.ProtocolWaits) (h : s.step remoteId l = some t) :
    t.ProtocolWaits := by
  obtain ⟨hstage,hfull,k,result,hst⟩ := hw
  rcases (step_moved remoteId h).late remoteId (Or.inl hstage) with
    ⟨i,hmoved⟩ | ⟨-,hsame,-,hprotocol,-⟩ | ⟨-,hr⟩ | ⟨e,a,he,ha,rfl⟩
  · refine ⟨hmoved.stage.trans hstage,?_,k,result,?_⟩
    · rw [hmoved.protocol]
      exact hfull
    · rw [hmoved.protocol]
      exact hst
  · refine ⟨hsame.trans hstage,?_,k,result,?_⟩
    · rw [hprotocol]
      exact hfull
    · rw [hprotocol]
      exact hst
  · simp [ProtocolActor.isReturned,hst] at hr
  · obtain ⟨hstays,hrx⟩ := passingOn_stays he hs.receivers hst hfull ha
    exact ⟨hstage,hrx ▸ hfull,k,result,hstays⟩

end Stable

theorem run_inv {labels : List (Label E U)} {s : Application E U} (h : run (step remoteId) start labels = some s) :
    s.Inv :=
  run_invariant (fun _ _ _ => step_inv remoteId) h start_inv

/-- After Application::shutdown the steps of the application are bounded in number, also
with all answers of peers that it waits for. Where none is left that waits for nobody,
everything has stopped for good, or one of three waits holds: AppActor behind a chat actor
whose peer does not read, the protocol's actor behind AppActor, or the protocol's actor in a
handshake with a peer that does not answer. Where every handshake is answered the third one
is out. -/
theorem shutdown_settles [Nonempty U] {labels : List (Label E U)} {s : Application E U}
    (h : run (step remoteId) start labels = some s) (hc : s.managers.cancelled = true) :
    (∀ more t, (∀ l ∈ more, l.Continues) → run (step remoteId) s more = some t → more.length ≤ s.work ∧
      (Quiet (step remoteId) Label.Internal t → t.Stopped ∨ t.AppWaits ∨
        ((t.ProtocolWaits ∨ t.HandshakeWaits) ∧ t.live = ∅ ∧ ∀ i, (t.managers.actors i).stage = .returned)) ∧
      (Quiet (step remoteId) Label.Continues t → t.Stopped ∨ t.AppWaits ∨
        (t.ProtocolWaits ∧ t.live = ∅ ∧ ∀ i, (t.managers.actors i).stage = .returned))) ∧
    (s.Stopped → ∀ more t, run (step remoteId) s more = some t → t.Stopped) := by
  have keeps : ∀ (u : Application E U) l v, u.Inv ∧ u.managers.cancelled = true → u.step remoteId l = some v →
      v.Inv ∧ v.managers.cancelled = true :=
    fun _ _ _ hu hst => ⟨step_inv remoteId hu.1 hst,step_cancelled remoteId hst hu.2⟩
  have lowers : ∀ (u : Application E U) (l : Label E U) v, u.Inv ∧ u.managers.cancelled = true → l.Continues →
      u.step remoteId l = some v → v.work < u.work := fun _ _ _ hu hl hst => step_work remoteId hu.1 hu.2 hl hst
  have hs : s.Inv ∧ s.managers.cancelled = true := ⟨run_inv remoteId h,hc⟩
  refine ⟨fun more t hmore hrun => ⟨?_,fun hq => ?_,fun hq => ?_⟩,fun hstop more t hrun => ?_⟩
  · have hlen := run_length_le keeps lowers hrun hs hmore
    omega
  · obtain ⟨ht,hct⟩ := run_invariant keeps hrun hs
    exact quiet_cases remoteId ht hq hct
  · obtain ⟨ht,hct⟩ := run_invariant keeps hrun hs
    refine (quiet_cases remoteId ht (fun l hl => hq l hl.continues) hct).imp_right (Or.imp_right ?_)
    rintro ⟨hwaits,hrest⟩
    exact ⟨hwaits.resolve_right (fun hw => not_awaitsPeer remoteId hq hw.2),hrest⟩
  · exact run_invariant (fun _ _ _ hu hst => step_stopped remoteId hu hst) hrun hstop

/-- A chat is opened, and then the application is shut down. -/
def openedChat : List (Label Unit Nat) :=
  [.request (),.recvRequest,.handleChatManager,.repositoryOpened true,.started 0 none,.shutdown]

def windUp : List (Label Unit Nat) :=
  [.actorCancelArm 0,.cancelArm,.poolClosed,.shutdownProtocol,.protocol .cancelArm,.join]

theorem shutdown_settles_opened : ∃ s t, run (step (fun _ => ())) start openedChat = some s ∧
    run (step (fun _ => ())) s windUp = some t ∧ windUp.length ≤ s.work ∧
    ∀ more u, run (step (fun _ => ())) t more = some u → u.Stopped := by
  obtain ⟨s,hs⟩ : ∃ s, run (step (fun _ => ())) start openedChat = some s := ⟨_,rfl⟩
  obtain ⟨t,ht⟩ : ∃ t, run (step (fun _ => ())) s windUp = some t := by
    cases hs
    exact ⟨_,rfl⟩
  have hc : s.managers.cancelled = true := by
    cases hs
    rfl
  have hboth : run (step (fun _ => ())) start (openedChat++windUp) = some t := by
    rw [run_append,hs]
    exact ht
  have hstop : t.Stopped := by
    cases hs
    cases ht
    refine ⟨rfl,rfl,rfl,fun i => ?_,rfl⟩
    cases i <;> rfl
  have hct : t.managers.cancelled = true := by
    cases hs
    cases ht
    rfl
  refine ⟨s,t,hs,ht,((shutdown_settles (fun _ => ()) hs hc).1 windUp t ?_ ht).1,
    (shutdown_settles (fun _ => ()) hboth hct).2 hstop⟩
  simp [windUp,Label.Continues]

/-- A peer that has connected and opens no stream leaves the application in the third wait. -/
example : ∃ s : Application Unit Nat, run (step (fun _ => ())) start [.protocol (.request (.accept 0)),.protocol .recv,
    .shutdown,.cancelArm,.poolClosed,.shutdownProtocol] = some s ∧ s.HandshakeWaits := ⟨_,rfl,rfl,trivial⟩

/-- A protocol actor that waits for room on the accept channel while AppActor waits for it
does so for ever: whatever comes, Application::shutdown does not return. -/
theorem full_accept_channel_blocks_shutdown {labels : List (Label E U)} {s : Application E U}
    (h : run (step remoteId) start labels = some s) (hw : s.ProtocolWaits) {more : List (Label E U)}
    {t : Application E U} (ht : run (step remoteId) s more = some t) : t.ProtocolWaits := by
  have keeps : ∀ (u : Application E U) l v, u.Inv ∧ u.ProtocolWaits → u.step remoteId l = some v →
      v.Inv ∧ v.ProtocolWaits :=
    fun _ _ _ hu hst => ⟨step_inv remoteId hu.1 hst,step_protocolWaits remoteId hu.1 hu.2 hst⟩
  exact (run_invariant keeps ht ⟨run_inv remoteId h,hw⟩).2

/-- One connection whose stream cannot be accepted: its error is put on the accept channel. -/
def failedAccept : List (Label Unit Nat) :=
  [.protocol (.request (.accept 0)),.protocol .recv,.protocol (.biAccepted false),.protocol .passedOn]

/-- The application after so many of them, none taken by AppActor. -/
def failedAccepts (n : Nat) : Application Unit Nat := { (start : Application Unit Nat) with
  protocol := { (ProtocolActor.new : ProtocolActor Unit Nat) with
    acceptRx := List.replicate n (.error .noStream)
    issued := List.replicate n (.accept 0)
    served := List.replicate n (.accept 0,.error (.handshake 0 .noStream)) } }

private theorem run_failedAccept {n : Nat} (hn : n < channelBuffer) :
    run (step (fun _ => ())) (failedAccepts n) failedAccept = some (failedAccepts (n+1)) := by
  have hroom : n < 1024 := hn
  simp [failedAccept,failedAccepts,run,step,protocolStep,isRouted,spawnsTasks,ProtocolActor.step,ProtocolActor.new,
    ProtocolActor.isReturned,ProtocolActor.recv,ProtocolActor.serve,ProtocolActor.biAccepted,ProtocolActor.refuse,
    ProtocolActor.passedOn,ProtocolActor.answer,ProtocolActor.answerOf,HandshakeError.closeReason,channelBuffer,
    hroom,List.replicate_succ']

/-- Another one is in service when the application is shut down. -/
def shutDownFull : List (Label Unit Nat) :=
  [.protocol (.request (.accept 0)),.protocol .recv,.protocol (.biAccepted false),.shutdown,.cancelArm,.poolClosed,
    .shutdownProtocol]

private theorem waits_shutDownFull {n : Nat} (hn : channelBuffer ≤ n) :
    ∃ s, run (step (fun _ => ())) (failedAccepts n) shutDownFull = some s ∧ s.ProtocolWaits := by
  refine ⟨_,rfl,rfl,?_,0,_,rfl⟩
  change channelBuffer ≤ (List.replicate n (.error .noStream : Accepted Nat)).length
  rw [List.length_replicate]
  exact hn

theorem full_accept_channel_blocks_shutdown_reached : ∃ s : Application Unit Nat,
    run (step (fun _ => ())) start ((List.replicate channelBuffer failedAccept).flatten++shutDownFull) = some s ∧
    ∀ more t, run (step (fun _ => ())) s more = some t → t.ProtocolWaits := by
  have hfill : run (step (fun _ => ())) start (List.replicate channelBuffer failedAccept).flatten =
      some (failedAccepts channelBuffer) := run_rounds failedAccepts (fun _ hk => run_failedAccept hk)
  obtain ⟨s,hs,hw⟩ := waits_shutDownFull (Nat.le_refl channelBuffer)
  have hrun : run (step (fun _ => ())) start ((List.replicate channelBuffer failedAccept).flatten++shutDownFull) =
      some s := by
    rw [run_append,hfill]
    exact hs
  exact ⟨s,hrun,fun more t ht => full_accept_channel_blocks_shutdown (fun _ => ()) hrun hw ht⟩

end Application
end GossipCore.App
