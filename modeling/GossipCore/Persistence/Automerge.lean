import GossipCore.Base.CausalHistory
import GossipCore.Persistence.Tables

/-! What the repository uses of the automerge library. A document is the set of
changes it holds, the encoders keep exactly these, and the sync session and the
reading interface are parameters with the laws the code relies on. -/
namespace GossipCore.Persistence
open Base

inductive ChatMessageContent where
  | text (value : String)
  deriving DecidableEq, Repr

structure ChatMessage where
  id : String
  senderNodeId : String
  content : ChatMessageContent
  createdAt : Int
  updatedAt : Int
  deriving DecidableEq, Repr

abbrev Doc (C : Type) := Finset C

/-- One component of a patch path: a map key or a list index. -/
inductive PathProp where
  | map (key : String)
  | seq (index : Nat)
  deriving DecidableEq, Repr

/-- A patch, of which only the path is read. -/
structure Patch (O : Type) where
  path : List (O × PathProp)

/-- Changes C, sync states S, sync messages M and object ids O. The receiving
operation reports success and may have grown the document also when it fails. -/
structure Automerge (C S M O : Type) where
  graph : ChangeGraph C
  newState : S
  receiveSyncMessage : S → Doc C → M → S × Doc C × Bool
  generateSyncMessage : S → Doc C → S × Option M
  carried : M → Finset C
  makePatches : Doc C → Doc C → List (Patch O)
  rootKeys : Doc C → List String
  getRoot : Doc C → String → Option O
  length : Doc C → O → Nat
  hydrateMessage : Doc C → O → Nat → Option ChatMessage
  receive_grows : ∀ s d m, d ⊆ (receiveSyncMessage s d m).2.1
  receive_closed : ∀ s d m, graph.Closed d → graph.Closed (receiveSyncMessage s d m).2.1
  carried_subset : ∀ s d m, (generateSyncMessage s d).2 = some m → carried m ⊆ d

namespace Automerge
variable {C S M O : Type} [DecidableEq C] (am : Automerge C S M O)

def save (doc : Doc C) : Blob C := doc

def load (document : Blob C) : Doc C := document

/-- The changes that are not ancestors of the given heads. Changes that still
wait for their dependencies are not part of any history and are left out. -/
def saveAfter (doc : Doc C) (heads : Finset C) : Blob C :=
  am.graph.ready doc \ am.graph.ancestorsOf heads

/-- The concatenated chunks, decoded into the document. -/
def loadIncremental (doc : Doc C) (chunks : List (Blob C)) : Doc C :=
  chunks.foldl (fun d chunk => d ∪ chunk) doc

def getHeads (doc : Doc C) : Finset C := am.graph.heads (am.graph.ready doc)

theorem getHeads_of_closed {doc : Doc C} (h : am.graph.Closed doc) :
    am.getHeads doc = am.graph.heads doc := by
  rw [getHeads,am.graph.ready_eq_of_closed h]

end Automerge

/-! A peer whose changes follow each other in one line. A session first announces
what it holds and sends changes once the other side has announced its own. -/
namespace Line

def graph : ChangeGraph Nat where
  deps
    | 0 => ∅
    | n+1 => {n}
  rank n := n
  rank_lt
    | 0, _, h => by cases h
    | n+1, p, h => by
      rw [Finset.mem_singleton.mp h]
      exact Nat.lt_succ_self n

structure SyncMessage where
  holds : Finset Nat
  changes : Finset Nat

structure SyncState where
  theirs : Option (Finset Nat)
  announced : Option (Finset Nat)

def lacking (s : SyncState) (d : Doc Nat) : Finset Nat :=
  match s.theirs with
  | some h => d \ h
  | none => ∅

def generateSyncMessage (s : SyncState) (d : Doc Nat) : SyncState × Option SyncMessage :=
  if lacking s d = ∅ ∧ s.announced = some d then (s,none)
  else (⟨s.theirs.map (fun h => h ∪ d),some d⟩,some ⟨d,lacking s d⟩)

def receiveSyncMessage (s : SyncState) (d : Doc Nat) (m : SyncMessage) : SyncState × Doc Nat × Bool :=
  if graph.Closed (d ∪ m.changes) then ({ s with theirs := some m.holds },d ∪ m.changes,true)
  else (s,d,false)

def automerge : Automerge Nat SyncState SyncMessage Unit where
  graph := graph
  newState := ⟨none,none⟩
  receiveSyncMessage := receiveSyncMessage
  generateSyncMessage := generateSyncMessage
  carried := SyncMessage.changes
  makePatches _ _ := []
  rootKeys _ := []
  getRoot _ _ := none
  length _ _ := 0
  hydrateMessage _ _ _ := none
  receive_grows s d m := by
    unfold receiveSyncMessage
    split
    · exact Finset.subset_union_left
    · exact Finset.Subset.refl d
  receive_closed s d m hd := by
    unfold receiveSyncMessage
    split
    · assumption
    · exact hd
  carried_subset s d m h := by
    unfold generateSyncMessage at h
    split at h <;> cases h
    unfold lacking
    split
    · exact Finset.sdiff_subset
    · exact Finset.empty_subset d

theorem closed_range (n : Nat) : graph.Closed (Finset.range n) := by
  intro c hc p hp
  have hlt := graph.rank_lt c p hp
  simp only [Finset.mem_range] at hc ⊢
  exact Nat.lt_trans hlt hc

theorem ancestors_eq_range (n : Nat) : graph.ancestors n = Finset.range (n+1) := by
  induction n with
  | zero => rfl
  | succ n ih =>
    ext x
    have hd : graph.deps (n+1) = {n} := rfl
    rw [graph.mem_ancestors,hd]
    simp only [Finset.mem_singleton,exists_eq_left,ih,Finset.mem_range]
    omega

theorem getHeads_range (n : Nat) : automerge.getHeads (Finset.range (n+1)) = {n} := by
  rw [automerge.getHeads_of_closed (closed_range (n+1))]
  ext x
  simp only [ChangeGraph.heads,Finset.mem_filter,Finset.mem_range,Finset.mem_singleton]
  constructor
  · rintro ⟨hx,hnone⟩
    by_contra hne
    have hlt : x+1 < n+1 := by omega
    exact hnone (x+1) hlt (Finset.mem_singleton_self x)
  · rintro rfl
    refine ⟨Nat.lt_succ_self x,fun y hy hdep => ?_⟩
    have hr : x < y := graph.rank_lt y x hdep
    omega

theorem saveAfter_range (n : Nat) : automerge.saveAfter (Finset.range (n+2)) {n} = {n+1} := by
  have hready : automerge.graph.ready (Finset.range (n+2)) = Finset.range (n+2) :=
    graph.ready_eq_of_closed (closed_range (n+2))
  have hpast : automerge.graph.ancestorsOf {n} = Finset.range (n+1) := by
    rw [ChangeGraph.ancestorsOf,Finset.singleton_biUnion]
    exact ancestors_eq_range n
  rw [Automerge.saveAfter,hready,hpast]
  ext x
  simp only [Finset.mem_sdiff,Finset.mem_range,Finset.mem_singleton]
  omega

end Line
end GossipCore.Persistence
