import GossipCore.Persistence.Automerge

/-! What a sync state of automerge records about the peer. The laws are those of the
library's sync protocol; the last part is a session that keeps its records this way. -/
namespace GossipCore.Persistence
open Base

/-- The heads that the peer announced last, whether the state waits for an answer to
what it has announced of a document, and the changes it has put into messages. -/
structure SessionView {C S M O : Type} [DecidableEq C] (am : Automerge C S M O) where
  theirHeads : S → Option (Finset C)
  waiting : S → Doc C → Bool
  sent : S → Finset C
  announced : M → Finset C
  new_generates : ∀ d, (am.generateSyncMessage am.newState d).2 ≠ none
  /-- None means that the peer is up to date or that its answer is awaited. -/
  none_cases : ∀ s d, (am.generateSyncMessage s d).2 = none →
    waiting s d = true ∨ ∃ h, theirHeads s = some h ∧ d ⊆ am.graph.ancestorsOf h
  receive_heads : ∀ s d m, (am.receiveSyncMessage s d m).2.2 = true →
    theirHeads (am.receiveSyncMessage s d m).1 = some (announced m)
  receive_answers : ∀ s d m, (am.receiveSyncMessage s d m).2.2 = true →
    ∀ d', waiting (am.receiveSyncMessage s d m).1 d' = false
  sent_new : sent am.newState = ∅
  sent_generate : ∀ s d x, x ∈ sent (am.generateSyncMessage s d).1 ↔
    x ∈ sent s ∨ ∃ m, (am.generateSyncMessage s d).2 = some m ∧ x ∈ am.carried m
  sent_receive : ∀ s d m, sent (am.receiveSyncMessage s d m).1 ⊆ sent s

namespace Session

structure State where
  theirHeads : Option (Finset Nat)
  lastSentHeads : Option (Finset Nat)
  sentHashes : Finset Nat
  inFlight : Bool

structure Message where
  heads : Finset Nat
  changes : Finset Nat

/-- What the peer lacks as far as it has announced, less what has been sent before. -/
def changesToSend (s : State) (d : Doc Nat) : Finset Nat :=
  match s.theirHeads with
  | some h => (d \ Line.graph.ancestorsOf h) \ s.sentHashes
  | none => ∅

def generateSyncMessage (s : State) (d : Doc Nat) : State × Option Message :=
  let ourHeads := Line.graph.heads d
  if s.lastSentHeads = some ourHeads ∧
      (s.theirHeads = some ourHeads ∧ changesToSend s d = ∅ ∨ s.inFlight = true) then (s,none)
  else ({ s with lastSentHeads := some ourHeads, sentHashes := s.sentHashes ∪ changesToSend s d, inFlight := true },
    some ⟨ourHeads,changesToSend s d⟩)

/-- A peer without heads has lost everything, and the records are dropped. -/
def receiveSyncMessage (s : State) (d : Doc Nat) (m : Message) : State × Doc Nat × Bool :=
  if Line.graph.Closed (d ∪ m.changes) then
    if m.heads = ∅ then (⟨some ∅,none,∅,false⟩,d ∪ m.changes,true)
    else (⟨some m.heads,s.lastSentHeads,s.sentHashes \ Line.graph.ancestorsOf m.heads,false⟩,d ∪ m.changes,true)
  else ({ s with inFlight := false },d,false)

def automerge : Automerge Nat State Message Unit where
  graph := Line.graph
  newState := ⟨none,none,∅,false⟩
  receiveSyncMessage := receiveSyncMessage
  generateSyncMessage := generateSyncMessage
  carried := Message.changes
  makePatches _ _ := []
  rootKeys _ := []
  getRoot _ _ := none
  length _ _ := 0
  hydrateMessage _ _ _ := none
  receive_grows s d m := by
    unfold receiveSyncMessage
    split
    · split <;> exact Finset.subset_union_left
    · exact Finset.Subset.refl d
  receive_closed s d m hd := by
    unfold receiveSyncMessage
    split
    · split <;> assumption
    · exact hd
  carried_subset s d m h := by
    simp only [generateSyncMessage] at h
    split at h <;> cases h
    unfold changesToSend
    split
    · exact Finset.sdiff_subset.trans Finset.sdiff_subset
    · exact Finset.empty_subset d

private theorem receive_ok {s : State} {d : Doc Nat} {m : Message} (h : (receiveSyncMessage s d m).2.2 = true) :
    (receiveSyncMessage s d m).1.theirHeads = some m.heads ∧ (receiveSyncMessage s d m).1.inFlight = false ∧
      (receiveSyncMessage s d m).2.1 = d ∪ m.changes := by
  unfold receiveSyncMessage at h ⊢
  split
  · split
    · rename_i he
      exact ⟨congrArg some he.symm,rfl,rfl⟩
    · exact ⟨rfl,rfl,rfl⟩
  · rename_i hno
    simp [hno] at h

def view : SessionView automerge where
  theirHeads := State.theirHeads
  waiting s d := s.inFlight && decide (s.lastSentHeads = some (Line.graph.heads d))
  sent := State.sentHashes
  announced := Message.heads
  new_generates d := by simp [automerge,generateSyncMessage]
  none_cases s d h := by
    simp only [automerge,generateSyncMessage] at h
    split at h
    · rename_i hnone
      obtain ⟨hlast,⟨hheads,-⟩ | hflight⟩ := hnone
      · refine Or.inr ⟨_,hheads,fun c hc => ?_⟩
        obtain ⟨x,hx,hxc⟩ := Line.graph.exists_head_above hc
        exact Finset.mem_biUnion.mpr ⟨x,hx,hxc⟩
      · simp [hflight,hlast]
    · cases h
  receive_heads s d m h := (receive_ok h).1
  receive_answers s d m h d' := by
    rw [show (automerge.receiveSyncMessage s d m).1.inFlight = false from (receive_ok h).2.1,Bool.false_and]
  sent_new := rfl
  sent_generate s d x := by
    simp only [automerge,generateSyncMessage]
    split <;> simp
  sent_receive s d m := by
    simp only [automerge,receiveSyncMessage]
    split
    · split
      · exact Finset.empty_subset _
      · exact Finset.sdiff_subset
    · exact Finset.Subset.refl _

/-- What was sent before is left out of further messages. -/
theorem generate_skips {s : State} {d : Doc Nat} {m : Message} (h : (automerge.generateSyncMessage s d).2 = some m)
    {x : Nat} (hx : x ∈ automerge.carried m) : x ∉ s.sentHashes := by
  simp only [automerge,generateSyncMessage] at h
  split at h <;> cases h
  simp only [automerge,changesToSend] at hx
  split at hx
  · exact (Finset.mem_sdiff.mp hx).2
  · cases hx

end Session
end GossipCore.Persistence
