import GossipCore.Base.Watch
import Mathlib.Data.List.Infix

/-! Readers of a watch channel that hand on what they find there. A reader may miss values,
but it tells the others in their order, and once it has caught up the last one told is the
value of the channel. -/
namespace GossipCore.Base
variable {α β : Type}

namespace Watch

/-- The values that a channel has had, each at the index of its version. -/
def Carries (w : Watch α) (past : List α) : Prop :=
  past.length = w.version+1 ∧ past[w.version]? = some w.value

/-- What one write can do to a channel. -/
inductive Sends (w : Watch α) : Watch α → Prop where
  | same : Sends w w
  | send (a : α) : Sends w (w.sendModify a)

theorem sends_sendIfModified [DecidableEq α] (w : Watch α) (a : α) : Sends w (w.sendIfModified a) := by
  unfold sendIfModified
  split
  · exact .send a
  · exact .same

theorem Sends.version_le {w next : Watch α} (h : Sends w next) : w.version ≤ next.version := by
  cases h with
  | same => exact Nat.le_refl _
  | send a => exact Nat.le_succ _

/-- The values so far with the one of a new version. -/
def record (w next : Watch α) (past : List α) : List α :=
  if next.version = w.version then past else past++[next.value]

theorem record_extends (w next : Watch α) (past : List α) : past <+: record w next past := by
  unfold record
  split
  · exact List.prefix_rfl
  · exact List.prefix_append _ _

theorem carries_channel (a : α) : (channel a).Carries [a] := ⟨rfl,rfl⟩

theorem Carries.record {w next : Watch α} {past : List α} (h : w.Carries past) (hs : Sends w next) :
    next.Carries (record w next past) := by
  cases hs with
  | same => rwa [Watch.record,if_pos rfl]
  | send a =>
    have hne : (w.sendModify a).version ≠ w.version := Nat.succ_ne_self _
    rw [Watch.record,if_neg hne]
    refine ⟨by simp [h.1],?_⟩
    rw [sendModify_version,← h.1,List.getElem?_concat_length]

end Watch

/-- What was told, with its versions, are values that were published, in their order. -/
structure Follows (view : α → β) (past : List α) (told : List (Nat × β)) : Prop where
  ordered : told.Pairwise (fun p q => p.1 ≤ q.1)
  known : ∀ p ∈ told, past[p.1]?.map view = some p.2

/-- The last value told is not older than the version marked as seen. -/
structure Mirrors (view : α → β) (past : List α) (seen : Nat) (told : List (Nat × β)) : Prop
    extends Follows view past told where
  reached : ∃ p, told.getLast? = some p ∧ seen ≤ p.1

variable {view : α → β} {past : List α} {told : List (Nat × β)} {seen : Nat}

theorem Follows.nil : Follows view past [] := ⟨List.Pairwise.nil,fun _ h => absurd h (by simp)⟩

theorem Follows.extend (h : Follows view past told) {past' : List α} (hp : past <+: past') :
    Follows view past' told := by
  obtain ⟨more,rfl⟩ := hp
  refine ⟨h.ordered,fun p hm => ?_⟩
  obtain ⟨a,ha,hv⟩ := Option.map_eq_some_iff.mp (h.known p hm)
  have hlt : p.1 < past.length := (List.getElem?_eq_some_iff.mp ha).1
  rw [List.getElem?_append_left hlt,ha,Option.map_some,hv]

theorem Mirrors.extend (h : Mirrors view past seen told) {past' : List α} (hp : past <+: past') :
    Mirrors view past' seen told := ⟨h.toFollows.extend hp,h.reached⟩

/-- No version told is ahead of the channel. -/
private theorem Follows.le_version (h : Follows view past told) {w : Watch α} (hw : w.Carries past) {p : Nat × β}
    (hm : p ∈ told) : p.1 ≤ w.version := by
  obtain ⟨a,ha,-⟩ := Option.map_eq_some_iff.mp (h.known p hm)
  have hlt : p.1 < past.length := (List.getElem?_eq_some_iff.mp ha).1
  rw [hw.1] at hlt
  exact Nat.lt_succ_iff.mp hlt

/-- Telling the present value. -/
theorem Follows.tell (h : Follows view past told) {w : Watch α} (hw : w.Carries past) (hs : seen ≤ w.version) :
    Mirrors view past seen (told++[(w.version,view w.value)]) := by
  refine ⟨⟨?_,fun p hm => ?_⟩,⟨_,List.getLast?_concat,hs⟩⟩
  · rw [List.pairwise_append]
    refine ⟨h.ordered,List.pairwise_singleton _ _,fun p hp q hq => ?_⟩
    cases List.mem_singleton.mp hq
    exact h.le_version hw hp
  · rcases List.mem_append.mp hm with hm | hm
    · exact h.known p hm
    · cases List.mem_singleton.mp hm
      rw [hw.2]
      rfl

/-- A reader that has caught up has told the value of the channel last. -/
theorem Mirrors.current {w : Watch α} (h : Mirrors view past w.version told) (hw : w.Carries past) :
    told.getLast? = some (w.version,view w.value) := by
  obtain ⟨p,hp,hle⟩ := h.reached
  have hm : p ∈ told := List.mem_of_getLast? hp
  have heq : p.1 = w.version := Nat.le_antisymm (h.toFollows.le_version hw hm) hle
  have hk := h.known p hm
  rw [heq,hw.2,Option.map_some] at hk
  rw [hp,← heq,Option.some_inj.mp hk]

end GossipCore.Base
