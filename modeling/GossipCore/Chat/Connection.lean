import GossipCore.Base.Watch
import Mathlib.Data.Finset.Insert
import Mathlib.Order.Defs.LinearOrder

/-! The connection state machine of one chat. Every method holds the write lock
for its whole body, so each of them is one atomic step here. Endpoint ids, UUIDs
and transport connections are opaque; only their order and equality are used. -/
namespace GossipCore.Chat
open Base

inductive ConnOrigin where
  | accept
  | dial
  deriving DecidableEq, Repr

/-- A handle is made once for a transport connection on this side, together with
its channels and cancel token, so the connection names these as well. -/
structure ChatConnectionHandle (U K : Type) where
  id : U
  origin : ConnOrigin
  connection : K
  deriving DecidableEq, Repr

inductive InternalConnState (U K : Type) where
  | disconnected
  | connected (handle : ChatConnectionHandle U K)
  | reconnecting
  deriving DecidableEq, Repr

inductive ChatConnectionState (U : Type) where
  | disconnected
  | connected (id : U)
  | reconnecting
  deriving DecidableEq, Repr

/-- The published view of an internal state. -/
def ChatConnectionState.ofInternal {U K : Type} : InternalConnState U K → ChatConnectionState U
  | .disconnected => .disconnected
  | .connected handle => .connected handle.id
  | .reconnecting => .reconnecting

/-- The shared part of a connection, with the cancel tokens that its methods
have cancelled so far. -/
structure ChatConnection (E U K : Type) where
  localId : E
  remoteId : E
  state : InternalConnState U K
  stateNotifier : Watch (ChatConnectionState U)
  cancelled : Finset K

namespace ChatConnection
variable {E U K : Type}

/-- The reconnect task that the constructor also spawns is a separate step. -/
def new (localId remoteId : E) : ChatConnection E U K :=
  ⟨localId,remoteId,.disconnected,.channel (.ofInternal (.disconnected : InternalConnState U K)),∅⟩

def newConnected (localId remoteId : E) (handle : ChatConnectionHandle U K) :
    ChatConnection E U K :=
  ⟨localId,remoteId,.connected handle,.channel (.connected handle.id),∅⟩

/-- The transport connection in use, if the state is connected. -/
def current (conn : ChatConnection E U K) : Option K :=
  match conn.state with
  | .connected handle => some handle.connection
  | _ => none

theorem current_eq_some {conn : ChatConnection E U K} {k : K} :
    conn.current = some k ↔ ∃ handle, conn.state = .connected handle ∧ handle.connection = k := by
  unfold current
  cases conn.state <;> simp

section Methods
variable [DecidableEq U] [DecidableEq K]

def shutdown (conn : ChatConnection E U K) (handle : ChatConnectionHandle U K) :
    ChatConnection E U K :=
  { conn with cancelled := insert handle.connection conn.cancelled }

/-- The first lines of a write that leaves a connected state. -/
def shutdownCurrent (conn : ChatConnection E U K) : ChatConnection E U K :=
  match conn.state with
  | .connected old => conn.shutdown old
  | _ => conn

/-- Equal origins refresh; different origins are a glare, which the lower id
resolves towards its dial and the higher id towards its accept. -/
def shouldSwitch [LinearOrder E] (conn : ChatConnection E U K)
    (newHandle : ChatConnectionHandle U K) : Bool :=
  match conn.state with
  | .connected currentHandle =>
    if currentHandle.origin = newHandle.origin then true
    else match decide (conn.localId < conn.remoteId), newHandle.origin with
      | true, .dial => true
      | true, .accept => false
      | false, .accept => true
      | false, .dial => false
  | _ => true

/-- A refused handle is shut down and the id of the kept one is rotated, so that
the published value changes and the peer's lost frames are sent again. -/
def updateHandle [LinearOrder E] (conn : ChatConnection E U K)
    (newHandle : ChatConnectionHandle U K) (newId : U) : ChatConnection E U K :=
  if conn.shouldSwitch newHandle then
    let internalState := .connected newHandle
    { conn.shutdownCurrent with
      state := internalState
      stateNotifier := conn.stateNotifier.sendModify (.ofInternal internalState) }
  else
    match conn.state with
    | .connected currentHandle =>
      let rotated := .connected { currentHandle with id := newId }
      { conn.shutdown newHandle with
        state := rotated
        stateNotifier := conn.stateNotifier.sendModify (.ofInternal rotated) }
    | _ => conn.shutdown newHandle

def setState (conn : ChatConnection E U K) (newState : InternalConnState U K) :
    ChatConnection E U K :=
  { conn.shutdownCurrent with
    state := newState
    stateNotifier := conn.stateNotifier.sendIfModified (.ofInternal newState) }

def close (conn : ChatConnection E U K) : ChatConnection E U K := conn.setState .disconnected

def setStateDisconnectedIfIdMatches (conn : ChatConnection E U K) (expectedId : U) :
    ChatConnection E U K :=
  match conn.state with
  | .connected handle =>
    if handle.id = expectedId then
      { conn.shutdown handle with
        state := .disconnected
        stateNotifier := conn.stateNotifier.sendIfModified (.ofInternal (.disconnected : InternalConnState U K)) }
    else conn
  | _ => conn

def setStateIfDisconnected (conn : ChatConnection E U K) (newState : InternalConnState U K) :
    ChatConnection E U K × Bool :=
  match conn.state with
  | .disconnected =>
    ({ conn with
      state := newState
      stateNotifier := conn.stateNotifier.sendIfModified (.ofInternal newState) }, true)
  | _ => (conn, false)

def setStateIfReconnecting (conn : ChatConnection E U K) (newState : InternalConnState U K) :
    ChatConnection E U K × Bool :=
  match conn.state with
  | .reconnecting =>
    ({ conn with
      state := newState
      stateNotifier := conn.stateNotifier.sendIfModified (.ofInternal newState) }, true)
  | _ => (conn, false)

end Methods
end ChatConnection

/-- The atomic writes that the tasks around a connection perform: a delivered
handle, the entry of a reconnect task, its failed dial, a failure report of a
send or receive, and a close. -/
inductive ConnEvent (U K : Type) where
  | updateHandle (newHandle : ChatConnectionHandle U K) (newId : U)
  | enterReconnecting
  | dialFailed
  | failureReport (expectedId : U)
  | close
  deriving DecidableEq, Repr

namespace ChatConnection
variable {E U K : Type} [LinearOrder E] [DecidableEq U] [DecidableEq K]

def apply (conn : ChatConnection E U K) : ConnEvent U K → ChatConnection E U K
  | .updateHandle newHandle newId => conn.updateHandle newHandle newId
  | .enterReconnecting => (conn.setStateIfDisconnected .reconnecting).1
  | .dialFailed => (conn.setStateIfReconnecting .disconnected).1
  | .failureReport expectedId => conn.setStateDisconnectedIfIdMatches expectedId
  | .close => conn.close

/-- What one event can do: leave everything, change to an unconnected state after
shutting the current handle down, take the new handle and shut the old one down,
or shut the new handle down and rotate the id of the current one. -/
inductive Outcome (conn : ChatConnection E U K) : ConnEvent U K → ChatConnection E U K → Prop where
  | unchanged {e : ConnEvent U K} (he : ∀ h i, e ≠ .updateHandle h i) : Outcome conn e conn
  | leave {e : ConnEvent U K} (he : ∀ h i, e ≠ .updateHandle h i)
      (newState : InternalConnState U K) (hn : ∀ h, newState ≠ .connected h) :
      Outcome conn e { conn.shutdownCurrent with
        state := newState
        stateNotifier := conn.stateNotifier.sendIfModified (.ofInternal newState) }
  | switch (h : ChatConnectionHandle U K) (i : U) (hs : conn.shouldSwitch h = true) :
      Outcome conn (.updateHandle h i) { conn.shutdownCurrent with
        state := .connected h
        stateNotifier := conn.stateNotifier.sendModify (.connected h.id) }
  | rotate (cur h : ChatConnectionHandle U K) (i : U) (hc : conn.state = .connected cur)
      (hs : conn.shouldSwitch h = false) :
      Outcome conn (.updateHandle h i) { conn.shutdown h with
        state := .connected { cur with id := i }
        stateNotifier := conn.stateNotifier.sendModify (.connected i) }

omit [LinearOrder E] [DecidableEq U] in
private theorem shutdownCurrent_of_unconnected {conn : ChatConnection E U K}
    (h : ∀ cur, conn.state ≠ .connected cur) : conn.shutdownCurrent = conn := by
  unfold shutdownCurrent
  split
  · rename_i cur hc
    exact absurd hc (h cur)
  · rfl

private theorem outcome_setStateIf {conn : ChatConnection E U K} {e : ConnEvent U K}
    {newState : InternalConnState U K} (he : ∀ h i, e ≠ .updateHandle h i)
    (hn : ∀ h, newState ≠ .connected h) (hu : ∀ cur, conn.state ≠ .connected cur) :
    Outcome conn e { conn with
      state := newState
      stateNotifier := conn.stateNotifier.sendIfModified (.ofInternal newState) } := by
  have ho : Outcome conn e _ := .leave he newState hn
  rwa [shutdownCurrent_of_unconnected hu] at ho

private theorem outcome_updateHandle (conn : ChatConnection E U K)
    (h : ChatConnectionHandle U K) (i : U) :
    Outcome conn (.updateHandle h i) (conn.updateHandle h i) := by
  cases hs : conn.shouldSwitch h with
  | true =>
    rw [updateHandle,if_pos hs]
    exact .switch h i hs
  | false =>
    rw [updateHandle,if_neg (by simp [hs])]
    cases hc : conn.state with
    | connected cur => exact .rotate cur h i hc hs
    | disconnected => simp [shouldSwitch,hc] at hs
    | reconnecting => simp [shouldSwitch,hc] at hs

omit [LinearOrder E] [DecidableEq U] in
theorem shutdownCurrent_ids (conn : ChatConnection E U K) :
    conn.shutdownCurrent.localId = conn.localId ∧ conn.shutdownCurrent.remoteId = conn.remoteId := by
  unfold shutdownCurrent
  split <;> exact ⟨rfl,rfl⟩

omit [LinearOrder E] [DecidableEq U] in
theorem mem_shutdownCurrent (conn : ChatConnection E U K) {k : K}
    (h : k ∈ conn.shutdownCurrent.cancelled) : k ∈ conn.cancelled ∨ conn.current = some k := by
  unfold shutdownCurrent at h
  split at h
  · rename_i old hs
    rcases Finset.mem_insert.mp h with rfl | h
    · exact Or.inr (by simp [current,hs])
    · exact Or.inl h
  · exact Or.inl h

/-- Every event is one of the four outcomes; later invariants use only this. -/
theorem apply_outcome (conn : ChatConnection E U K) (e : ConnEvent U K) :
    Outcome conn e (conn.apply e) := by
  cases e with
  | updateHandle h i => exact outcome_updateHandle conn h i
  | close => exact .leave (by simp) _ (by simp)
  | enterReconnecting =>
    simp only [apply,setStateIfDisconnected]
    cases hc : conn.state with
    | disconnected => exact outcome_setStateIf (by simp) (by simp) (by simp [hc])
    | connected cur => exact .unchanged (by simp)
    | reconnecting => exact .unchanged (by simp)
  | dialFailed =>
    simp only [apply,setStateIfReconnecting]
    cases hc : conn.state with
    | reconnecting => exact outcome_setStateIf (by simp) (by simp) (by simp [hc])
    | connected cur => exact .unchanged (by simp)
    | disconnected => exact .unchanged (by simp)
  | failureReport expectedId =>
    simp only [apply,setStateDisconnectedIfIdMatches]
    cases hc : conn.state with
    | disconnected => exact .unchanged (by simp)
    | reconnecting => exact .unchanged (by simp)
    | connected cur =>
      dsimp only
      split
      · have ho : Outcome conn (.failureReport expectedId) _ := .leave (by simp) .disconnected (by simp)
        simpa only [shutdownCurrent,hc] using ho
      · exact .unchanged (by simp)

/-- The watch channel shows the internal state. -/
def Published (conn : ChatConnection E U K) : Prop :=
  conn.stateNotifier.value = .ofInternal conn.state

omit [LinearOrder E] [DecidableEq U] [DecidableEq K] in
theorem new_published (localId remoteId : E) :
    (new localId remoteId : ChatConnection E U K).Published := rfl

omit [LinearOrder E] [DecidableEq U] [DecidableEq K] in
theorem newConnected_published (localId remoteId : E) (handle : ChatConnectionHandle U K) :
    (newConnected localId remoteId handle).Published := rfl

theorem apply_published {conn : ChatConnection E U K} (h : conn.Published) (e : ConnEvent U K) :
    (conn.apply e).Published := by
  have ho := apply_outcome conn e
  generalize conn.apply e = next at ho
  cases ho with
  | unchanged => exact h
  | leave => exact Watch.sendIfModified_value _ _
  | switch => rfl
  | rotate => rfl

theorem apply_version_le (conn : ChatConnection E U K) (e : ConnEvent U K) :
    conn.stateNotifier.version ≤ (conn.apply e).stateNotifier.version := by
  have ho := apply_outcome conn e
  generalize conn.apply e = next at ho
  cases ho with
  | unchanged => exact Nat.le_refl _
  | leave => exact Watch.sendIfModified_version_le _ _
  | switch => exact Nat.le_succ _
  | rotate => exact Nat.le_succ _

omit [LinearOrder E] [DecidableEq U] [DecidableEq K] in
private theorem ofInternal_inj_of_unconnected {s t : InternalConnState U K}
    (ht : ∀ h, t ≠ .connected h)
    (he : ChatConnectionState.ofInternal s = ChatConnectionState.ofInternal t) : s = t := by
  cases s <;> cases t <;> simp_all [ChatConnectionState.ofInternal]

/-- No event changes the internal state without a new version on the channel. -/
theorem apply_state_of_version_eq {conn : ChatConnection E U K} (h : conn.Published)
    {e : ConnEvent U K} (hv : (conn.apply e).stateNotifier.version = conn.stateNotifier.version) :
    (conn.apply e).state = conn.state := by
  have ho := apply_outcome conn e
  generalize conn.apply e = next at ho hv
  cases ho with
  | unchanged => rfl
  | leave _ newState hn =>
    by_cases hd : conn.stateNotifier.value = .ofInternal newState
    · exact (ofInternal_inj_of_unconnected hn (h.symm.trans hd)).symm
    · simp [Watch.sendIfModified_of_ne hd] at hv
  | switch => simp at hv
  | rotate => simp at hv

/-- Each delivered handle is cancelled or in use. -/
def Accounted (delivered : Finset K) (conn : ChatConnection E U K) : Prop :=
  ∀ k ∈ delivered, k ∈ conn.cancelled ∨ conn.current = some k

omit [LinearOrder E] [DecidableEq U] in
private theorem accounted_shutdownCurrent {delivered : Finset K} {conn : ChatConnection E U K}
    (h : conn.Accounted delivered) : ∀ k ∈ delivered, k ∈ conn.shutdownCurrent.cancelled := by
  intro k hk
  have hc := h k hk
  cases hs : conn.state with
  | connected cur =>
    simp only [shutdownCurrent,hs,shutdown,Finset.mem_insert]
    simp only [current,hs,Option.some.injEq] at hc
    exact hc.elim Or.inr (fun he => Or.inl he.symm)
  | disconnected => simpa [shutdownCurrent,current,hs] using hc
  | reconnecting => simpa [shutdownCurrent,current,hs] using hc

/-- Events other than a delivery keep every delivered handle accounted for. -/
theorem apply_accounted {delivered : Finset K} {conn : ChatConnection E U K} {e : ConnEvent U K}
    (h : conn.Accounted delivered) (he : ∀ g i, e ≠ .updateHandle g i) :
    (conn.apply e).Accounted delivered := by
  have ho := apply_outcome conn e
  generalize conn.apply e = next at ho
  cases ho with
  | unchanged => exact h
  | leave => exact fun k hk => Or.inl (accounted_shutdownCurrent h k hk)
  | switch g i => exact absurd rfl (he g i)
  | rotate cur g i => exact absurd rfl (he g i)

/-- A delivery adds its own handle to the accounted ones: the old handle is shut
down on a switch, the new one on a refusal. -/
theorem updateHandle_accounted {delivered : Finset K} {conn : ChatConnection E U K}
    (h : conn.Accounted delivered) (g : ChatConnectionHandle U K) (i : U) :
    (conn.updateHandle g i).Accounted (insert g.connection delivered) := by
  have ho := outcome_updateHandle conn g i
  generalize conn.updateHandle g i = next at ho
  cases ho with
  | unchanged he => exact absurd rfl (he g i)
  | leave he => exact absurd rfl (he g i)
  | switch _ _ hs =>
    intro k hk
    rcases Finset.mem_insert.mp hk with rfl | hk
    · exact Or.inr rfl
    · exact Or.inl (accounted_shutdownCurrent h k hk)
  | rotate cur _ _ hc hs =>
    intro k hk
    rcases Finset.mem_insert.mp hk with rfl | hk
    · exact Or.inl (Finset.mem_insert_self _ _)
    · refine (h k hk).imp Finset.mem_insert_of_mem ?_
      simp [current,hc]

end ChatConnection
end GossipCore.Chat
