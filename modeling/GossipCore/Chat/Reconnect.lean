import GossipCore.Base.Runs
import GossipCore.Chat.Connection

/-! A connection with the reconnect tasks that were spawned for it. Each task is
suspended at the lock, at the protocol's queue or at the answer to its dial, and
anything may happen to the connection meanwhile. -/
namespace GossipCore.Chat
open Base

/-- Where a reconnect task stands. It enters the state Reconnecting, hands over its
request, waits for the answer and applies it. No handle means that the dial failed or
could not even be requested. -/
inductive ReconnectStage (U K : Type) where
  | spawned
  | entered
  | dialing
  | answered (handle : Option (ChatConnectionHandle U K))
  | done
  deriving DecidableEq, Repr

/-- The attempt still has its request to send, its dial unanswered or its failure to
apply. -/
def ReconnectStage.Pending {U K : Type} : ReconnectStage U K → Prop
  | .entered => True
  | .dialing => True
  | .answered none => True
  | _ => False

structure Reconnects (E U K : Type) where
  conn : ChatConnection E U K
  task : Nat → ReconnectStage U K
  spawned : Nat
  /-- The task for which Reconnecting was entered last. -/
  entry : Option Nat

/-- Steps of the tasks, then those of the chat actor and of the failure reports. -/
inductive ReconnectLabel (U K : Type) where
  | reconnect
  | enter (i : Nat)
  | request (i : Nat) (sent : Bool)
  | answer (i : Nat) (handle : Option (ChatConnectionHandle U K))
  | finish (i : Nat) (newId : U)
  | updateHandle (newHandle : ChatConnectionHandle U K) (newId : U)
  | failureReport (expectedId : U)
  | close
  deriving DecidableEq, Repr

namespace Reconnects
variable {E U K : Type}

def initial (conn : ChatConnection E U K) : Reconnects E U K := ⟨conn,fun _ => .done,0,none⟩

def setTask (s : Reconnects E U K) (i : Nat) (stage : ReconnectStage U K) : Reconnects E U K :=
  { s with task := Function.update s.task i stage }

section Step
variable [LinearOrder E] [DecidableEq U] [DecidableEq K]

/-- The first write of a task. It gives up unless the state is Disconnected. -/
def enter (s : Reconnects E U K) (i : Nat) : Reconnects E U K :=
  let next := s.conn.setStateIfDisconnected .reconnecting
  if next.2 then { s.setTask i .entered with conn := next.1, entry := some i }
  else { s.setTask i .done with conn := next.1 }

/-- The last write of a task. -/
def finish (s : Reconnects E U K) (i : Nat) (newId : U) :
    Option (ChatConnectionHandle U K) → Reconnects E U K
  | some handle => { s.setTask i .done with conn := s.conn.updateHandle handle newId }
  | none => { s.setTask i .done with conn := (s.conn.setStateIfReconnecting .disconnected).1 }

def step (s : Reconnects E U K) : ReconnectLabel U K → Option (Reconnects E U K)
  | .reconnect => some { s.setTask s.spawned .spawned with spawned := s.spawned+1 }
  | .enter i => if s.task i = .spawned then some (s.enter i) else none
  | .request i sent =>
    if s.task i = .entered then some (s.setTask i (if sent then .dialing else .answered none)) else none
  | .answer i handle => if s.task i = .dialing then some (s.setTask i (.answered handle)) else none
  | .finish i newId =>
    match s.task i with
    | .answered handle => some (s.finish i newId handle)
    | _ => none
  | .updateHandle newHandle newId => some { s with conn := s.conn.updateHandle newHandle newId }
  | .failureReport expectedId => some { s with conn := s.conn.setStateDisconnectedIfIdMatches expectedId }
  | .close => some { s with conn := s.conn.close }

end Step

/-- The condition on the step: a task enters Reconnecting only when no earlier attempt
is still pending. -/
def EntersAlone (s : Reconnects E U K) : ReconnectLabel U K → Prop
  | .enter _ => s.conn.state = .disconnected → ∀ j, ¬ (s.task j).Pending
  | _ => True

/-- At most one attempt is pending, and a state Reconnecting belongs to it. -/
structure OneAttempt (s : Reconnects E U K) : Prop where
  unique : ∀ i j, (s.task i).Pending → (s.task j).Pending → i = j
  owner : ∀ i, (s.task i).Pending → s.conn.state = .reconnecting → s.entry = some i

theorem initial_oneAttempt (conn : ChatConnection E U K) : (initial conn).OneAttempt :=
  ⟨fun _ _ h => h.elim,fun _ h => h.elim⟩

/-- Steps that start no attempt and do not enter Reconnecting. -/
private theorem OneAttempt.of_subset {s t : Reconnects E U K} (h : s.OneAttempt)
    (ht : ∀ i, (t.task i).Pending → (s.task i).Pending)
    (hc : t.conn.state = .reconnecting → s.conn.state = .reconnecting) (he : t.entry = s.entry) :
    t.OneAttempt where
  unique i j hi hj := h.unique i j (ht i hi) (ht j hj)
  owner i hi hr := by
    rw [he]
    exact h.owner i (ht i hi) (hc hr)

private theorem pending_setTask {s : Reconnects E U K} {i : Nat} {stage : ReconnectStage U K}
    (h : stage.Pending → (s.task i).Pending) (j : Nat) :
    ((s.setTask i stage).task j).Pending → (s.task j).Pending := by
  intro hj
  by_cases he : j = i
  · subst he
    exact h (by simpa [setTask] using hj)
  · simpa [setTask,Function.update_of_ne he] using hj

variable [LinearOrder E] [DecidableEq U] [DecidableEq K]

/-- Only the entry of a reconnect task leads into Reconnecting. -/
theorem reconnecting_of_apply {conn : ChatConnection E U K} {e : ConnEvent U K}
    (he : e ≠ .enterReconnecting) (h : (conn.apply e).state = .reconnecting) : conn.state = .reconnecting := by
  cases e with
  | enterReconnecting => exact absurd rfl he
  | updateHandle g i =>
    have ho := ChatConnection.apply_outcome conn (.updateHandle g i)
    generalize conn.apply (.updateHandle g i) = next at ho h
    cases ho with
    | unchanged hn => exact absurd rfl (hn g i)
    | leave hn => exact absurd rfl (hn g i)
    | switch => cases h
    | rotate => cases h
  | dialFailed =>
    simp only [ChatConnection.apply,ChatConnection.setStateIfReconnecting] at h
    split at h
    · cases h
    · exact h
  | failureReport expectedId =>
    simp only [ChatConnection.apply,ChatConnection.setStateDisconnectedIfIdMatches] at h
    split at h
    · split at h
      · cases h
      · exact h
    · exact h
  | close => cases h

theorem step_oneAttempt {s t : Reconnects E U K} {l : ReconnectLabel U K} (h : s.OneAttempt)
    (hc : s.EntersAlone l) (hs : s.step l = some t) : t.OneAttempt := by
  cases l with
  | reconnect =>
    cases hs
    exact h.of_subset (pending_setTask (fun hp => hp.elim)) id rfl
  | enter i =>
    simp only [step] at hs
    split at hs <;> cases hs
    unfold enter
    cases hst : s.conn.state with
    | disconnected =>
      simp only [ChatConnection.setStateIfDisconnected,hst,if_true]
      have hnone := hc hst
      have honly : ∀ j, ((s.setTask i .entered).task j).Pending → j = i := by
        intro j hj
        by_contra hne
        exact hnone j (by simpa [setTask,Function.update_of_ne hne] using hj)
      exact ⟨fun j k hj hk => (honly j hj).trans (honly k hk).symm,fun j hj _ => congrArg some (honly j hj).symm⟩
    | connected cur =>
      simp only [ChatConnection.setStateIfDisconnected,hst]
      exact h.of_subset (pending_setTask (fun hp => hp.elim)) id rfl
    | reconnecting =>
      simp only [ChatConnection.setStateIfDisconnected,hst]
      exact h.of_subset (pending_setTask (fun hp => hp.elim)) id rfl
  | request i sent =>
    simp only [step] at hs
    split at hs <;> cases hs
    rename_i hi
    exact h.of_subset (pending_setTask (fun _ => by rw [hi]; trivial)) id rfl
  | answer i handle =>
    simp only [step] at hs
    split at hs <;> cases hs
    rename_i hi
    exact h.of_subset (pending_setTask (fun _ => by rw [hi]; trivial)) id rfl
  | finish i newId =>
    simp only [step] at hs
    split at hs <;> cases hs
    rename_i handle hi
    cases handle with
    | some g =>
      exact h.of_subset (pending_setTask (fun hp => hp.elim))
        (reconnecting_of_apply (e := .updateHandle g newId) (by simp)) rfl
    | none =>
      exact h.of_subset (pending_setTask (fun hp => hp.elim))
        (reconnecting_of_apply (e := .dialFailed) (by simp)) rfl
  | updateHandle g newId =>
    cases hs
    exact h.of_subset (fun _ => id) (reconnecting_of_apply (e := .updateHandle g newId) (by simp)) rfl
  | failureReport expectedId =>
    cases hs
    exact h.of_subset (fun _ => id) (reconnecting_of_apply (e := .failureReport expectedId) (by simp)) rfl
  | close =>
    cases hs
    exact h.of_subset (fun _ => id) (reconnecting_of_apply (e := .close) (by simp)) rfl

/-- As long as every attempt is over before the next one enters Reconnecting, a single
dial is outstanding, and only its own failure ends the state it was made for. -/
theorem one_outstanding_dial {conn : ChatConnection E U K} {labels : List (ReconnectLabel U K)}
    {s : Reconnects E U K} (h : run step (initial conn) labels = some s)
    (hc : StepsMeet step EntersAlone (initial conn) labels) :
    (∀ i j, s.task i = .dialing → s.task j = .dialing → i = j) ∧
    ∀ i newId t, s.task i = .answered none → s.step (.finish i newId) = some t →
      s.conn.state = .reconnecting → t.conn.state ≠ .reconnecting → s.entry = some i := by
  have ho := run_invariant_of_meets (fun _ _ _ => step_oneAttempt) h (initial_oneAttempt conn) hc
  constructor
  · intro i j hi hj
    exact ho.unique i j (by rw [hi]; trivial) (by rw [hj]; trivial)
  · intro i newId t hi _ hr _
    exact ho.owner i (by rw [hi]; trivial) hr

/-- Two reconnect calls in a row. The second task finds the state taken. -/
def reconnectTwice : List (ReconnectLabel Nat Nat) :=
  [.reconnect,.reconnect,.enter 0,.enter 1,.request 0 true]

theorem one_outstanding_dial_twice : ∃ s : Reconnects Nat Nat Nat,
    run step (initial (.new 0 1)) reconnectTwice = some s ∧ s.task 0 = .dialing ∧
    ∀ i, s.task i = .dialing → i = 0 := by
  obtain ⟨s,hs,h0⟩ : ∃ s : Reconnects Nat Nat Nat,
      run step (initial (.new 0 1)) reconnectTwice = some s ∧ s.task 0 = .dialing := ⟨_,rfl,rfl⟩
  have hmeet : StepsMeet step EntersAlone (initial (.new 0 1) : Reconnects Nat Nat Nat) reconnectTwice := by
    refine ⟨trivial,fun _ h => ?_⟩
    cases h
    refine ⟨trivial,fun _ h => ?_⟩
    cases h
    refine ⟨fun _ j => ?_,fun _ h => ?_⟩
    · simp only [initial,setTask,Function.update_apply]
      split
      · simp [ReconnectStage.Pending]
      · split <;> simp [ReconnectStage.Pending]
    · cases h
      exact ⟨fun h => (by cases h),fun _ _ => ⟨trivial,fun _ _ => trivial⟩⟩
  obtain ⟨hone,-⟩ := one_outstanding_dial hs hmeet
  exact ⟨s,hs,h0,fun i hi => hone i 0 hi h0⟩

/-- A dial is still unanswered when an accepted connection comes and goes. -/
def slowDial : List (ReconnectLabel Nat Nat) :=
  [.reconnect,.enter 0,.request 0 true,.updateHandle ⟨1,.accept,7⟩ 2,.failureReport 1,.reconnect,.enter 1,
    .request 1 true]

/-- The next tick then dials a second time, and the failure of the first dial ends the
state that was entered for the second. -/
theorem slow_dial_meets_second_attempt : ∃ s t : Reconnects Nat Nat Nat,
    run step (initial (.new 0 1)) slowDial = some s ∧ s.task 0 = .dialing ∧ s.task 1 = .dialing ∧
    run step s [.answer 0 none,.finish 0 3] = some t ∧ s.conn.state = .reconnecting ∧ s.entry = some 1 ∧
    t.conn.state = .disconnected ∧ t.task 1 = .dialing :=
  ⟨_,_,rfl,rfl,rfl,rfl,rfl,rfl,rfl,rfl⟩

/-- What can still happen once the chat actor has stopped: its reconnect tasks go on,
and reports about the closed connection may arrive. -/
def AfterClose : ReconnectLabel U K → Prop
  | .reconnect => False
  | .updateHandle _ _ => False
  | .close => False
  | _ => True

/-- The condition on the step: no reconnect task applies a successful dial. -/
def DeliversNothing (s : Reconnects E U K) : ReconnectLabel U K → Prop
  | .finish i _ => ∀ handle, s.task i ≠ .answered (some handle)
  | _ => True

def closed (s : Reconnects E U K) : Reconnects E U K := { s with conn := s.conn.close }

theorem updateHandle_connected (conn : ChatConnection E U K)
    (g : ChatConnectionHandle U K) (i : U) : ∃ handle, (conn.updateHandle g i).state = .connected handle := by
  have ho := ChatConnection.apply_outcome conn (.updateHandle g i)
  simp only [ChatConnection.apply] at ho
  generalize conn.updateHandle g i = next at ho
  cases ho with
  | unchanged hn => exact absurd rfl (hn g i)
  | leave hn => exact absurd rfl (hn g i)
  | switch => exact ⟨_,rfl⟩
  | rotate => exact ⟨_,rfl⟩

private theorem step_unconnected {s t : Reconnects E U K} {l : ReconnectLabel U K}
    (h : ∀ handle, s.conn.state ≠ .connected handle) (hl : AfterClose l) (hc : s.DeliversNothing l)
    (hs : s.step l = some t) : ∀ handle, t.conn.state ≠ .connected handle := by
  have happly : ∀ e : ConnEvent U K, (∀ g i, e ≠ .updateHandle g i) →
      ∀ handle, (s.conn.apply e).state ≠ .connected handle := by
    intro e he
    have ho := ChatConnection.apply_outcome s.conn e
    generalize s.conn.apply e = next at ho
    cases ho with
    | unchanged => exact h
    | leave _ newState hn => exact hn
    | switch g i => exact absurd rfl (he g i)
    | rotate cur g i => exact absurd rfl (he g i)
  cases l with
  | reconnect => exact hl.elim
  | updateHandle g i => exact hl.elim
  | close => exact hl.elim
  | enter i =>
    simp only [step] at hs
    split at hs <;> cases hs
    have henter := happly .enterReconnecting (by simp)
    unfold enter
    dsimp only
    split <;> exact henter
  | request i sent =>
    simp only [step] at hs
    split at hs <;> cases hs
    exact h
  | answer i handle =>
    simp only [step] at hs
    split at hs <;> cases hs
    exact h
  | finish i newId =>
    simp only [step] at hs
    split at hs <;> cases hs
    rename_i handle hi
    cases handle with
    | some g => exact absurd hi (hc g)
    | none => exact happly .dialFailed (by simp)
  | failureReport expectedId =>
    cases hs
    exact happly (.failureReport expectedId) (by simp)

private theorem delivers_nothing {s t : Reconnects E U K} {l : ReconnectLabel U K} (hs : s.step l = some t)
    (h : ∀ handle, t.conn.state ≠ .connected handle) : s.DeliversNothing l := by
  cases l with
  | finish i newId =>
    intro g hi
    simp only [step,hi] at hs
    cases hs
    obtain ⟨handle,hg⟩ := updateHandle_connected s.conn g newId
    exact h handle hg
  | _ => trivial

/-- After the last close the connection stays unconnected for exactly as long as no
reconnect task that was under way comes back with a connection. -/
theorem close_final_iff (s : Reconnects E U K) {labels : List (ReconnectLabel U K)} {t : Reconnects E U K}
    (hl : ∀ l ∈ labels, AfterClose l) (h : run step s.closed labels = some t) :
    (∀ before after u, labels = before++after → run step s.closed before = some u →
      ∀ handle, u.conn.state ≠ .connected handle) ↔
      StepsMeet step DeliversNothing s.closed labels := by
  have hstart : ∀ handle, s.closed.conn.state ≠ .connected handle := by
    intro handle hc
    cases hc
  refine prefixes_good_iff (fun _ _ _ _ _ _ => trivial) ?_ h trivial hstart
  intro l hmem u v _ hu hs
  exact ⟨fun hv => delivers_nothing hs hv,fun hc => step_unconnected hu (hl l hmem) hc hs⟩

/-- A task waits for the answer to its dial when the chat is closed. -/
def waitingAtClose : List (ReconnectLabel Nat Nat) := [.reconnect,.enter 0,.request 0 true]

theorem close_final_failed_dial : ∃ s t : Reconnects Nat Nat Nat,
    run step (initial (.new 0 1)) waitingAtClose = some s ∧
    run step s.closed [.answer 0 none,.finish 0 5] = some t ∧
    ∀ handle, t.conn.state ≠ .connected handle := by
  obtain ⟨s,hs,t,ht,hmeet⟩ : ∃ s, run step (initial (.new 0 1)) waitingAtClose = some s ∧
      ∃ t : Reconnects Nat Nat Nat, run step s.closed [.answer 0 none,.finish 0 5] = some t ∧
      StepsMeet step DeliversNothing s.closed [.answer 0 none,.finish 0 5] := by
    refine ⟨_,rfl,_,rfl,trivial,fun _ h => ?_⟩
    cases h
    exact ⟨fun handle hh => (by cases hh),fun _ _ => trivial⟩
  have hl : ∀ l ∈ ([.answer 0 none,.finish 0 5] : List (ReconnectLabel Nat Nat)), AfterClose l := by
    simp [AfterClose]
  have hall := (close_final_iff s hl ht).mpr hmeet
  exact ⟨s,t,hs,ht,hall _ [] t (List.append_nil _).symm ht⟩

/-- The dial succeeds after the close, and its handle is taken and kept open. -/
theorem dial_answered_after_close : ∃ s t : Reconnects Nat Nat Nat,
    run step (initial (.new 0 1)) (waitingAtClose++[.close]) = some s ∧
    run step s [.answer 0 (some ⟨4,.dial,7⟩),.finish 0 5] = some t ∧
    t.conn.state = .connected ⟨4,.dial,7⟩ ∧ 7 ∉ t.conn.cancelled :=
  ⟨_,_,rfl,rfl,rfl,by decide⟩

end Reconnects
end GossipCore.Chat
