import GossipCore.Base.Progress
import GossipCore.Chat.Reconnect
import Mathlib.Algebra.Order.BigOperators.Group.Finset

/-! An attempt to reconnect ends when the protocol has answered its dial. While the state is
Reconnecting the task that entered it is still at work, and from every state the chat can be
connected again. -/
namespace GossipCore.Chat
open Base

/-- The task has entered Reconnecting and has not applied the answer to its dial. -/
def ReconnectStage.Started {U K : Type} : ReconnectStage U K → Prop
  | .entered => True
  | .dialing => True
  | .answered _ => True
  | _ => False

/-- What a task still has to do. -/
def ReconnectStage.work {U K : Type} : ReconnectStage U K → Nat
  | .spawned => 4
  | .entered => 3
  | .dialing => 2
  | .answered _ => 1
  | .done => 0

/-- The steps of the tasks. -/
def ReconnectLabel.Continues {U K : Type} : ReconnectLabel U K → Prop
  | .enter _ => True
  | .request _ _ => True
  | .answer _ _ => True
  | .finish _ _ => True
  | _ => False

/-- Those that do not wait for the protocol, which may hold a task up without a timeout. -/
def ReconnectLabel.Internal {U K : Type} : ReconnectLabel U K → Prop
  | .enter _ => True
  | .finish _ _ => True
  | _ => False

namespace Reconnects
variable {E U K : Type}

def work (s : Reconnects E U K) : Nat := ∑ i ∈ Finset.range s.spawned, (s.task i).work

/-- Only spawned tasks exist, and Reconnecting belongs to one that has not come back. -/
structure Attended (s : Reconnects E U K) : Prop where
  spawned : ∀ i, s.spawned ≤ i → s.task i = .done
  entry : s.conn.state = .reconnecting → ∃ i, s.entry = some i ∧ (s.task i).Started

@[simp] theorem setTask_self (s : Reconnects E U K) (i : Nat) (stage : ReconnectStage U K) :
    (s.setTask i stage).task i = stage := by simp [setTask]

theorem setTask_of_ne (s : Reconnects E U K) {i j : Nat} (h : j ≠ i) (stage : ReconnectStage U K) :
    (s.setTask i stage).task j = s.task j := by simp [setTask,Function.update_of_ne h]

/-- A task that is not done has been spawned. -/
private theorem Attended.lt {s : Reconnects E U K} (h : s.Attended) {i : Nat} (hi : s.task i ≠ .done) :
    i < s.spawned := by
  by_contra hle
  exact hi (h.spawned i (Nat.not_lt.mp hle))

section Step
variable [LinearOrder E] [DecidableEq U] [DecidableEq K]

/-- A step of the tasks moves one of them on. -/
private theorem step_task {s t : Reconnects E U K} {l : ReconnectLabel U K} (hl : l.Continues)
    (hs : s.step l = some t) : ∃ i stage, t.task = (s.setTask i stage).task ∧ t.spawned = s.spawned ∧
      stage.work < (s.task i).work := by
  cases l with
  | enter i =>
    simp only [step] at hs
    split at hs <;> cases hs
    rename_i hi
    unfold enter
    dsimp only
    split
    · exact ⟨i,.entered,rfl,rfl,by simp [hi,ReconnectStage.work]⟩
    · exact ⟨i,.done,rfl,rfl,by simp [hi,ReconnectStage.work]⟩
  | request i sent =>
    simp only [step] at hs
    split at hs <;> cases hs
    rename_i hi
    exact ⟨i,_,rfl,rfl,by cases sent <;> simp [hi,ReconnectStage.work]⟩
  | answer i handle =>
    simp only [step] at hs
    split at hs <;> cases hs
    rename_i hi
    exact ⟨i,_,rfl,rfl,by simp [hi,ReconnectStage.work]⟩
  | finish i newId =>
    simp only [step] at hs
    split at hs <;> cases hs
    rename_i handle hi
    refine ⟨i,.done,?_,?_,by simp [hi,ReconnectStage.work]⟩ <;> cases handle <;> rfl
  | reconnect => exact hl.elim
  | updateHandle g newId => exact hl.elim
  | failureReport expectedId => exact hl.elim
  | close => exact hl.elim

theorem step_work {s t : Reconnects E U K} {l : ReconnectLabel U K} (h : s.Attended) (hl : l.Continues)
    (hs : s.step l = some t) : t.work < s.work := by
  obtain ⟨i,stage,htask,hspawned,hlt⟩ := step_task hl hs
  have hmem : i ∈ Finset.range s.spawned := by
    refine Finset.mem_range.mpr (h.lt (fun hdone => ?_))
    rw [hdone] at hlt
    exact absurd hlt (Nat.not_lt_zero _)
  unfold work
  rw [htask,hspawned]
  refine Finset.sum_lt_sum (fun j _ => ?_) ⟨i,hmem,by rwa [setTask_self]⟩
  by_cases hj : j = i
  · subst hj
    rw [setTask_self]
    exact Nat.le_of_lt hlt
  · rw [setTask_of_ne s hj]

end Step
end Reconnects
end GossipCore.Chat
