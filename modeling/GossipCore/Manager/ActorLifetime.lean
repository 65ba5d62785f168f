import GossipCore.Base.Runs
import Mathlib.Data.Finset.Insert
import Mathlib.Logic.Function.Basic

/-! The actors behind the managers that AppActor keeps, their clients and the calls
that these have under way. A call is a number; dropping it closes its oneshot. -/
namespace GossipCore.Manager
open Base

def channelBuffer : Nat := 1024

inductive InMessage where
  | single (tx : Nat)
  | all (tx : Nat)
  | passAcceptedConnHandle
  deriving DecidableEq, Repr

/-- Where Actor::run stands: in its select, inside a handler, or returned. -/
inductive RunStage where
  | selecting
  | handlingIn (msg : InMessage)
  | handlingSubscription (tx : Nat)
  | returned
  deriving DecidableEq, Repr

structure ActorTask where
  stage : RunStage
  inRx : List InMessage
  subscribeRx : List Nat
  /-- Clones of the manager, each keeping both channels open. -/
  senders : Nat
  /-- The clones among them that clients hold. -/
  clients : Nat
  deriving DecidableEq, Repr

/-- The request that AppActor is awaiting ChatRepository::new for. -/
structure Opening (P : Type) where
  remoteId : P
  accepted : Bool

structure AppState (P : Type) where
  chatManagers : P → Option Nat
  actors : Nat → ActorTask
  /-- The number of actors spawned so far. -/
  spawned : Nat
  opening : Option (Opening P)
  /-- The manager that the last step handed out or fed a connection. -/
  served : Option Nat
  issued : Finset Nat
  dropped : Finset Nat
  cancelled : Bool

inductive CallKind where
  | sendMessage
  | getAllMessages
  | subscribe
  deriving DecidableEq, Repr

inductive AppLabel (P : Type) where
  | getChatManager (remoteId : P)
  | acceptConn (remoteId : P)
  | repositoryOpened (ok : Bool)
  | call (manager : Nat) (kind : CallKind) (tx : Nat)
  | dropCall (tx : Nat)
  | dropManager (manager : Nat)
  | recvIn (manager : Nat)
  | recvSubscribe (manager : Nat)
  | otherArm (manager : Nat)
  | handlerDone (manager : Nat)
  | cancel
  | cancelArm (manager : Nat)
  deriving DecidableEq

namespace ActorTask

/-- A fresh actor whose manager has the given number of clones, one in the map. -/
def new (clients : Nat) : ActorTask := ⟨.selecting,[],[],clients+1,clients⟩

def handOut (a : ActorTask) : ActorTask := { a with senders := a.senders+1, clients := a.clients+1 }

/-- The send half of pass_accepted_conn_handle. A closed channel is only warned of. -/
def passAcceptedConnHandle (a : ActorTask) : Option ActorTask :=
  if a.stage = .returned then some a
  else if a.inRx.length < channelBuffer then some { a with inRx := a.inRx++[.passAcceptedConnHandle] }
  else none

/-- A client call up to its place in the channel. -/
def enqueue (a : ActorTask) (tx : Nat) : CallKind → Option ActorTask
  | .sendMessage =>
    if a.inRx.length < channelBuffer then some { a with inRx := a.inRx++[.single tx] } else none
  | .getAllMessages =>
    if a.inRx.length < channelBuffer then some { a with inRx := a.inRx++[.all tx] } else none
  | .subscribe =>
    if a.subscribeRx.length < channelBuffer then some { a with subscribeRx := a.subscribeRx++[tx] } else none

/-- The receivers are dropped with the actor. -/
def finish (a : ActorTask) : ActorTask := { a with stage := .returned, inRx := [], subscribeRx := [] }

def recvIn (a : ActorTask) : Option ActorTask :=
  match a.stage, a.inRx with
  | .selecting, msg::rest => some { a with stage := .handlingIn msg, inRx := rest }
  -- recv returns None once the last sender is gone, and the handler returns an error
  | .selecting, [] => if a.senders = 0 then some a.finish else none
  | _, _ => none

def recvSubscribe (a : ActorTask) : Option ActorTask :=
  match a.stage, a.subscribeRx with
  | .selecting, tx::rest => some { a with stage := .handlingSubscription tx, subscribeRx := rest }
  | .selecting, [] => if a.senders = 0 then some a.finish else none
  | _, _ => none

/-- The reply at the end of a handler. A dropped caller ends the run loop for
Single and All, and is only warned of for a subscription. -/
def reply (a : ActorTask) (dropped : Finset Nat) : Option ActorTask :=
  match a.stage with
  | .handlingIn (.single tx) => if tx ∈ dropped then some a.finish else some { a with stage := .selecting }
  | .handlingIn (.all tx) => if tx ∈ dropped then some a.finish else some { a with stage := .selecting }
  | .handlingIn .passAcceptedConnHandle => some { a with stage := .selecting }
  | .handlingSubscription _ => some { a with stage := .selecting }
  | _ => none

/-- The map's clone and the clients' clones are all there are. -/
def Counted (a : ActorTask) : Prop := a.senders = a.clients+1

theorem recvIn_spec {a b : ActorTask} (hc : a.Counted) (h : a.recvIn = some b) :
    a.stage = .selecting ∧ b.Counted ∧ b.stage ≠ .returned := by
  unfold recvIn at h
  split at h
  · rename_i hs _
    cases h
    exact ⟨hs,hc,by simp⟩
  · rw [if_neg (by rw [hc]; exact Nat.succ_ne_zero _)] at h
    cases h
  · cases h

theorem recvSubscribe_spec {a b : ActorTask} (hc : a.Counted) (h : a.recvSubscribe = some b) :
    a.stage = .selecting ∧ b.Counted ∧ b.stage ≠ .returned := by
  unfold recvSubscribe at h
  split at h
  · rename_i hs _
    cases h
    exact ⟨hs,hc,by simp⟩
  · rw [if_neg (by rw [hc]; exact Nat.succ_ne_zero _)] at h
    cases h
  · cases h

/-- The call that the end of the current handler answers through its oneshot, if a
dropped receiver is an error there. -/
def mustReach (a : ActorTask) : Option Nat :=
  match a.stage with
  | .handlingIn (.single tx) => some tx
  | .handlingIn (.all tx) => some tx
  | _ => none

theorem reply_spec {a b : ActorTask} {dropped : Finset Nat} (hc : a.Counted)
    (h : a.reply dropped = some b) : a.stage ≠ .returned ∧ b.Counted ∧
      (b.stage ≠ .returned ↔ ∀ tx, a.mustReach = some tx → tx ∉ dropped) := by
  have hreach : ∀ t, a.mustReach = some t → a.stage ≠ .returned →
      (if t ∈ dropped then some a.finish else some { a with stage := .selecting }) = some b →
      a.stage ≠ .returned ∧ b.Counted ∧ (b.stage ≠ .returned ↔ ∀ tx, a.mustReach = some tx → tx ∉ dropped) := by
    intro t ht hs h
    split at h <;> cases h
    · rename_i hd
      exact ⟨hs,hc,fun hr => absurd rfl hr,fun hall => absurd hd (hall t ht)⟩
    · rename_i hd
      refine ⟨hs,hc,fun _ tx htx => ?_,fun _ => by simp⟩
      cases ht.symm.trans htx
      exact hd
  unfold reply at h
  split at h
  · rename_i tx hs
    exact hreach tx (by simp [mustReach,hs]) (by simp [hs]) h
  · rename_i tx hs
    exact hreach tx (by simp [mustReach,hs]) (by simp [hs]) h
  · rename_i hs
    cases h
    exact ⟨by simp [hs],hc,fun _ tx htx => by simp [mustReach,hs] at htx,fun _ => by simp⟩
  · rename_i tx hs
    cases h
    exact ⟨by simp [hs],hc,fun _ tx htx => by simp [mustReach,hs] at htx,fun _ => by simp⟩
  · cases h

theorem enqueue_spec {a b : ActorTask} {tx : Nat} {kind : CallKind} (hc : a.Counted)
    (h : a.enqueue tx kind = some b) : b.Counted ∧ b.stage = a.stage := by
  cases kind <;> simp only [enqueue] at h <;> split at h <;> cases h <;> exact ⟨hc,rfl⟩

theorem passAcceptedConnHandle_spec {a b : ActorTask} (hc : a.Counted)
    (h : a.passAcceptedConnHandle = some b) : b.Counted ∧ b.stage = a.stage := by
  unfold passAcceptedConnHandle at h
  split at h
  · cases h
    exact ⟨hc,rfl⟩
  · split at h <;> cases h
    exact ⟨hc,rfl⟩

end ActorTask

namespace AppState
variable {P : Type} [DecidableEq P]

def start : AppState P :=
  ⟨fun _ => none,fun _ => (ActorTask.new 0).finish,0,none,none,∅,∅,false⟩

def setActor (s : AppState P) (i : Nat) (a : ActorTask) : AppState P :=
  { s with actors := Function.update s.actors i a, served := none }

/-- Use the manager of the map for a request of a client or for an accepted handle. -/
def useManager (s : AppState P) (i : Nat) (accepted : Bool) : Option (AppState P) :=
  if accepted then
    (s.actors i).passAcceptedConnHandle.map (fun a =>
      { s.setActor i a with opening := none, served := some i })
  else some { s.setActor i (s.actors i).handOut with opening := none, served := some i }

/-- The first half of handle_chat_manager. -/
def handleChatManager (s : AppState P) (remoteId : P) (accepted : Bool) : Option (AppState P) :=
  if s.opening.isSome then none
  else
    match s.chatManagers remoteId with
    | some i => s.useManager i accepted
    | none => some { s with opening := some ⟨remoteId,accepted⟩, served := none }

/-- The second half, after ChatRepository::new. The entry is looked up again. -/
def repositoryOpened (s : AppState P) (ok : Bool) : Option (AppState P) :=
  match s.opening with
  | none => none
  | some o =>
    if ok then
      match s.chatManagers o.remoteId with
      | some i => s.useManager i o.accepted
      | none =>
        some { s with
          chatManagers := Function.update s.chatManagers o.remoteId (some s.spawned)
          actors := Function.update s.actors s.spawned (ActorTask.new (if o.accepted then 0 else 1))
          spawned := s.spawned+1
          opening := none
          served := some s.spawned }
    else some { s with opening := none, served := none }

def step (s : AppState P) : AppLabel P → Option (AppState P)
  | .getChatManager remoteId => s.handleChatManager remoteId false
  | .acceptConn remoteId => s.handleChatManager remoteId true
  | .repositoryOpened ok => s.repositoryOpened ok
  | .call i kind tx =>
    if (s.actors i).clients ≠ 0 ∧ (s.actors i).stage ≠ .returned ∧ tx ∉ s.issued then
      ((s.actors i).enqueue tx kind).map (fun a => { s.setActor i a with issued := insert tx s.issued })
    else none
  | .dropCall tx =>
    if tx ∈ s.issued then some { s with dropped := insert tx s.dropped, served := none } else none
  | .dropManager i =>
    if (s.actors i).clients ≠ 0 then
      some (s.setActor i { s.actors i with
        senders := (s.actors i).senders-1
        clients := (s.actors i).clients-1 })
    else none
  | .recvIn i => (s.actors i).recvIn.map (s.setActor i)
  | .recvSubscribe i => (s.actors i).recvSubscribe.map (s.setActor i)
  | .otherArm i => if (s.actors i).stage = .selecting then some { s with served := none } else none
  | .handlerDone i => ((s.actors i).reply s.dropped).map (s.setActor i)
  | .cancel => some { s with cancelled := true, served := none }
  | .cancelArm i =>
    if s.cancelled ∧ (s.actors i).stage = .selecting then some (s.setActor i (s.actors i).finish) else none

/-- What the wiring of managers and actors guarantees while the token is not
cancelled, whatever clients do. -/
structure Wired (s : AppState P) : Prop where
  running : s.cancelled = false
  mapped : ∀ p i, s.chatManagers p = some i → i < s.spawned
  counted : ∀ i < s.spawned, (s.actors i).Counted
  absent : ∀ i, s.spawned ≤ i → (s.actors i).stage = .returned ∧ (s.actors i).clients = 0
  served : ∀ i, s.served = some i → i < s.spawned

/-- No spawned actor has returned from its run loop. -/
def AllRunning (s : AppState P) : Prop := ∀ i < s.spawned, (s.actors i).stage ≠ .returned

/-- The condition on the step: a handler that answers send_message or
get_all_messages finds its caller still waiting. -/
def CallerWaits (s : AppState P) : AppLabel P → Prop
  | .handlerDone i => ∀ tx, (s.actors i).mustReach = some tx → tx ∉ s.dropped
  | _ => True

omit [DecidableEq P] in
private theorem lt_spawned {s : AppState P} (h : Wired s) {i : Nat}
    (hi : (s.actors i).stage ≠ .returned ∨ (s.actors i).clients ≠ 0) : i < s.spawned := by
  by_contra hn
  obtain ⟨hr,hc⟩ := h.absent i (Nat.not_lt.mp hn)
  rcases hi with hi | hi
  · exact hi hr
  · exact hi hc

omit [DecidableEq P] in
/-- One actor of the wired state takes a step. -/
private theorem wired_setActor {s : AppState P} (h : Wired s) {i : Nat} (hi : i < s.spawned) {a : ActorTask}
    (ha : a.Counted) : Wired (s.setActor i a) ∧
      (AllRunning s → (AllRunning (s.setActor i a) ↔ a.stage ≠ .returned)) := by
  have hother : ∀ j, j ≠ i → (s.setActor i a).actors j = s.actors j := fun j hj => by simp [setActor,hj]
  have hself : (s.setActor i a).actors i = a := by simp [setActor]
  refine ⟨⟨h.running,h.mapped,?_,?_,fun _ he => by cases he⟩,fun hrun => ⟨?_,?_⟩⟩
  · intro j hj
    by_cases hji : j = i
    · rw [hji,hself]
      exact ha
    · rw [hother j hji]
      exact h.counted j hj
  · intro j hj
    have hji : j ≠ i := by
      rintro rfl
      exact absurd hi (Nat.not_lt.mpr hj)
    rw [hother j hji]
    exact h.absent j hj
  · intro hall
    have hai := hall i hi
    rwa [hself] at hai
  · intro hstage j hj
    by_cases hji : j = i
    · rw [hji,hself]
      exact hstage
    · rw [hother j hji]
      exact hrun j hj

omit [DecidableEq P] in
/-- A step of one task that a returned one cannot take. -/
private theorem wired_actorStep {s s' : AppState P} (h : Wired s) {i : Nat} {next : Option ActorTask}
    (hs : next.map (s.setActor i) = some s') (hlive : (s.actors i).stage = .returned → next = none) {good : Prop}
    (hspec : ∀ a, (s.actors i).Counted → next = some a → a.Counted ∧ (a.stage ≠ .returned ↔ good)) :
    Wired s' ∧ (AllRunning s → (AllRunning s' ↔ good)) := by
  obtain ⟨a,ha,rfl⟩ := Option.map_eq_some_iff.mp hs
  have hi : i < s.spawned := by
    refine lt_spawned h (Or.inl (fun hr => ?_))
    cases (hlive hr).symm.trans ha
  obtain ⟨hca,hstage⟩ := hspec a (h.counted i hi) ha
  obtain ⟨hw,hr⟩ := wired_setActor h hi hca
  exact ⟨hw,fun hrun => (hr hrun).trans hstage⟩

omit [DecidableEq P] in
private theorem wired_useManager {s s' : AppState P} (h : Wired s) {i : Nat} (hi : i < s.spawned)
    {accepted : Bool} (hs : s.useManager i accepted = some s') :
    Wired s' ∧ (AllRunning s → AllRunning s') := by
  have hkeep : ∀ a : ActorTask, a.Counted → a.stage = (s.actors i).stage →
      Wired { s.setActor i a with opening := none, served := some i } ∧
        (AllRunning s → AllRunning { s.setActor i a with opening := none, served := some i }) := by
    intro a ha hstage
    obtain ⟨hw,hr⟩ := wired_setActor h hi ha
    refine ⟨⟨hw.running,hw.mapped,hw.counted,hw.absent,?_⟩,fun hrun => (hr hrun).mpr ?_⟩
    · rintro _ ⟨⟩
      exact hi
    · rw [hstage]
      exact hrun i hi
  unfold useManager at hs
  split at hs
  · obtain ⟨a,ha,rfl⟩ := Option.map_eq_some_iff.mp hs
    obtain ⟨hc,hstage⟩ := ActorTask.passAcceptedConnHandle_spec (h.counted i hi) ha
    exact hkeep a hc hstage
  · cases hs
    exact hkeep _ (congrArg (·+1) (h.counted i hi)) rfl

private theorem wired_spawn {s : AppState P} (h : Wired s) (o : Opening P) :
    let s' : AppState P := { s with
      chatManagers := Function.update s.chatManagers o.remoteId (some s.spawned)
      actors := Function.update s.actors s.spawned (ActorTask.new (if o.accepted then 0 else 1))
      spawned := s.spawned+1
      opening := none
      served := some s.spawned }
    Wired s' ∧ (AllRunning s → AllRunning s') := by
  refine ⟨⟨h.running,?_,?_,?_,?_⟩,fun hrun => ?_⟩
  · intro p i hi
    by_cases hp : p = o.remoteId
    · subst hp
      simp only [Function.update_self] at hi
      cases hi
      exact Nat.lt_succ_self _
    · simp only [Function.update_of_ne hp] at hi
      exact (h.mapped p i hi).trans (Nat.lt_succ_self _)
  · intro i hi
    rcases Nat.lt_succ_iff_lt_or_eq.mp hi with hi | rfl
    · simp only [Function.update_of_ne (Nat.ne_of_lt hi)]
      exact h.counted i hi
    · simp only [Function.update_self]
      rfl
  · intro i hi
    have hlt : s.spawned < i := hi
    simp only [Function.update_of_ne (Nat.ne_of_gt hlt)]
    exact h.absent i hlt.le
  · rintro _ ⟨⟩
    exact Nat.lt_succ_self _
  · intro i hi
    rcases Nat.lt_succ_iff_lt_or_eq.mp hi with hi | rfl
    · simp only [Function.update_of_ne (Nat.ne_of_lt hi)]
      exact hrun i hi
    · simp only [Function.update_self]
      intro hstage
      cases hstage

private theorem wired_repositoryOpened {s s' : AppState P} (h : Wired s) {ok : Bool}
    (hs : s.repositoryOpened ok = some s') : Wired s' ∧ (AllRunning s → AllRunning s') := by
  unfold repositoryOpened at hs
  split at hs
  · cases hs
  · rename_i o ho
    split at hs
    · split at hs
      · rename_i i hm
        exact wired_useManager h (h.mapped _ _ hm) hs
      · cases hs
        exact wired_spawn h o
    · cases hs
      exact ⟨⟨h.running,h.mapped,h.counted,h.absent,fun _ he => by cases he⟩,fun hrun => hrun⟩

omit [DecidableEq P] in
private theorem wired_handleChatManager {s s' : AppState P} (h : Wired s) {remoteId : P} {accepted : Bool}
    (hs : s.handleChatManager remoteId accepted = some s') : Wired s' ∧ (AllRunning s → AllRunning s') := by
  unfold handleChatManager at hs
  split at hs
  · cases hs
  · split at hs
    · rename_i i hm
      exact wired_useManager h (h.mapped _ _ hm) hs
    · cases hs
      exact ⟨⟨h.running,h.mapped,h.counted,h.absent,fun _ he => by cases he⟩,fun hrun => hrun⟩

/-- A step without cancellation keeps the wiring, and it keeps all actors running
exactly when it meets the condition. -/
theorem step_wired {s s' : AppState P} {l : AppLabel P} (h : Wired s) (hl : l ≠ .cancel)
    (hs : step s l = some s') : Wired s' ∧ (AllRunning s → (AllRunning s' ↔ CallerWaits s l)) := by
  have hquiet : ∀ {t : AppState P} {m : AppLabel P}, CallerWaits s m → Wired t ∧ (AllRunning s → AllRunning t) →
      Wired t ∧ (AllRunning s → (AllRunning t ↔ CallerWaits s m)) := fun hm ht =>
    ⟨ht.1,fun hrun => ⟨fun _ => hm,fun _ => ht.2 hrun⟩⟩
  cases l with
  | getChatManager remoteId => exact hquiet trivial (wired_handleChatManager h hs)
  | acceptConn remoteId => exact hquiet trivial (wired_handleChatManager h hs)
  | repositoryOpened ok => exact hquiet trivial (wired_repositoryOpened h hs)
  | call i kind tx =>
    simp only [step] at hs
    split at hs
    · rename_i hc
      obtain ⟨a,ha,rfl⟩ := Option.map_eq_some_iff.mp hs
      have hi := lt_spawned h (Or.inr hc.1)
      obtain ⟨hca,hstage⟩ := ActorTask.enqueue_spec (h.counted i hi) ha
      obtain ⟨hw,hr⟩ := wired_setActor h hi hca
      refine hquiet trivial ⟨⟨hw.running,hw.mapped,hw.counted,hw.absent,hw.served⟩,fun hrun => ?_⟩
      exact (hr hrun).mpr (hstage ▸ hc.2.1)
    · cases hs
  | dropCall tx =>
    simp only [step] at hs
    split at hs <;> cases hs
    exact hquiet trivial
      ⟨⟨h.running,h.mapped,h.counted,h.absent,fun _ he => by cases he⟩,fun hrun => hrun⟩
  | dropManager i =>
    simp only [step] at hs
    split at hs <;> cases hs
    rename_i hc
    have hi := lt_spawned h (Or.inr hc)
    have hcount : (s.actors i).senders = (s.actors i).clients+1 := h.counted i hi
    obtain ⟨hw,hr⟩ := wired_setActor h hi (a := { s.actors i with
      senders := (s.actors i).senders-1
      clients := (s.actors i).clients-1 }) (by simp only [ActorTask.Counted]; omega)
    exact hquiet trivial ⟨hw,fun hrun => (hr hrun).mpr (hrun i hi)⟩
  | recvIn i =>
    refine wired_actorStep h hs (fun hr => by simp [ActorTask.recvIn,hr]) (fun a hc ha => ?_)
    obtain ⟨-,hca,hstage⟩ := ActorTask.recvIn_spec hc ha
    exact ⟨hca,fun _ => trivial,fun _ => hstage⟩
  | recvSubscribe i =>
    refine wired_actorStep h hs (fun hr => by simp [ActorTask.recvSubscribe,hr]) (fun a hc ha => ?_)
    obtain ⟨-,hca,hstage⟩ := ActorTask.recvSubscribe_spec hc ha
    exact ⟨hca,fun _ => trivial,fun _ => hstage⟩
  | otherArm i =>
    simp only [step] at hs
    split at hs <;> cases hs
    exact hquiet trivial
      ⟨⟨h.running,h.mapped,h.counted,h.absent,fun _ he => by cases he⟩,fun hrun => hrun⟩
  | handlerDone i =>
    refine wired_actorStep h hs (fun hr => by simp [ActorTask.reply,hr]) (fun a hc ha => ?_)
    exact (ActorTask.reply_spec hc ha).2
  | cancel => exact absurd rfl hl
  | cancelArm i =>
    simp only [step,h.running,Bool.false_eq_true,false_and,if_false] at hs
    cases hs

omit [DecidableEq P] in
theorem start_wired : Wired (start : AppState P) :=
  ⟨rfl,fun _ _ h => (by cases h),fun i hi => absurd hi (Nat.not_lt_zero i),fun _ _ => ⟨rfl,rfl⟩,
    fun _ h => by cases h⟩

/-- A run without cancellation keeps every chat actor in its loop, in all its states,
exactly when no answer of send_message or get_all_messages meets a dropped call. Then
every manager that is handed out or fed a connection has a running actor. -/
theorem actors_run_iff {labels : List (AppLabel P)} {s : AppState P}
    (h : run step start labels = some s) (hcancel : AppLabel.cancel ∉ labels) :
    ((∀ pre post u, labels = pre++post → run step start pre = some u →
        (∀ i < u.spawned, (u.actors i).stage ≠ .returned) ∧
        (∀ p i, u.chatManagers p = some i → (u.actors i).stage ≠ .returned) ∧
        ∀ i, u.served = some i → (u.actors i).stage ≠ .returned) ↔
      StepsMeet step CallerWaits start labels) := by
  have hne : ∀ l ∈ labels, l ≠ .cancel := by
    rintro l hl rfl
    exact hcancel hl
  -- the other two parts follow from the first, since only spawned actors are mapped or served
  have hparts : ∀ u : AppState P, Wired u → ((AllRunning u ∧
      (∀ p i, u.chatManagers p = some i → (u.actors i).stage ≠ .returned) ∧
      ∀ i, u.served = some i → (u.actors i).stage ≠ .returned) ↔ AllRunning u) := fun u hw =>
    ⟨fun h => h.1,fun h => ⟨h,fun p i hi => h i (hw.mapped p i hi),fun i hi => h i (hw.served i hi)⟩⟩
  have hstart : AllRunning (start : AppState P) := fun i hi => absurd hi (Nat.not_lt_zero i)
  refine prefixes_good_iff (fun l hl _ _ hw hs => (step_wired hw (hne l hl) hs).1) ?_ h start_wired
    ((hparts start start_wired).mpr hstart)
  intro l hl u v hw hg hs
  obtain ⟨hv,hiff⟩ := step_wired hw (hne l hl) hs
  exact (hparts v hv).trans (hiff hg.1)

/-- A client subscribes and drops that call, then sends a message and waits. -/
def droppedSubscription : List (AppLabel Unit) :=
  [.getChatManager (),.repositoryOpened true,.call 0 .subscribe 0,.dropCall 0,.recvSubscribe 0,
    .handlerDone 0,.call 0 .sendMessage 1,.recvIn 0,.handlerDone 0,.getChatManager ()]

theorem actors_run_dropped_subscription : ∃ s, run step start droppedSubscription = some s ∧
    s.served = some 0 ∧ (s.actors 0).stage ≠ .returned := by
  obtain ⟨s,hs,hserved⟩ : ∃ s, run step start droppedSubscription = some s ∧ s.served = some 0 := ⟨_,rfl,rfl⟩
  have hmeet : StepsMeet step CallerWaits start droppedSubscription := by
    iterate 5
      refine ⟨trivial,fun a ha => ?_⟩
      cases ha
    refine ⟨fun tx h => (by cases h),fun a ha => ?_⟩
    cases ha
    iterate 2
      refine ⟨trivial,fun a ha => ?_⟩
      cases ha
    refine ⟨fun tx h => ?_,fun a ha => ⟨trivial,fun _ _ => trivial⟩⟩
    cases h
    decide
  have hall := (actors_run_iff hs (by decide)).mpr hmeet
  exact ⟨s,hs,hserved,(hall droppedSubscription [] s (by simp) hs).2.2 0 hserved⟩

/-- A client drops its send_message call before the reply; the next request for the
chat gets the manager of an actor that has returned. -/
def droppedSend : List (AppLabel Unit) :=
  [.getChatManager (),.repositoryOpened true,.call 0 .sendMessage 0,.dropCall 0,.recvIn 0,
    .handlerDone 0,.getChatManager ()]

theorem dropped_send_ends_actor : ∃ s, run step start droppedSend = some s ∧
    AppLabel.cancel ∉ droppedSend ∧ s.served = some 0 ∧ (s.actors 0).stage = .returned :=
  ⟨_,rfl,by decide,rfl,rfl⟩

end AppState
end GossipCore.Manager
