import Mathlib.Tactic.Common

/-! The watch channel of the async runtime: one shared value and a version that
every notifying send advances. A receiver keeps the version it has marked seen. -/
namespace GossipCore.Base

structure Watch (α : Type) where
  value : α
  version : Nat
  deriving DecidableEq, Repr

namespace Watch
variable {α : Type}

def channel (a : α) : Watch α := ⟨a,0⟩

/-- Always notifies, also when the new value equals the old one. -/
def sendModify (w : Watch α) (a : α) : Watch α := ⟨a,w.version+1⟩

/-- Notifies only when the value differs. -/
def sendIfModified [DecidableEq α] (w : Watch α) (a : α) : Watch α :=
  if w.value ≠ a then ⟨a,w.version+1⟩ else w

@[simp] theorem sendModify_value (w : Watch α) (a : α) : (w.sendModify a).value = a := rfl
@[simp] theorem sendModify_version (w : Watch α) (a : α) :
    (w.sendModify a).version = w.version+1 := rfl

@[simp] theorem sendIfModified_value [DecidableEq α] (w : Watch α) (a : α) :
    (w.sendIfModified a).value = a := by
  unfold sendIfModified
  split
  · rfl
  · rename_i h
    exact not_not.mp h

theorem sendIfModified_of_ne [DecidableEq α] {w : Watch α} {a : α} (h : w.value ≠ a) :
    w.sendIfModified a = w.sendModify a := if_pos h

theorem sendIfModified_version_le [DecidableEq α] (w : Watch α) (a : α) :
    w.version ≤ (w.sendIfModified a).version := by
  unfold sendIfModified
  split
  · exact Nat.le_succ _
  · exact Nat.le_refl _

end Watch
end GossipCore.Base
