import GossipCore.Persistence.Messages
import Mathlib.Data.Multiset.Filter
import Mathlib.Data.Finset.Card
import Mathlib.Data.Finset.Dedup

/-! The changes that a chat document is made of, and what automerge shows of them.
A list object is named by the change that created it. -/
namespace GossipCore.Persistence
open Base

/-- A change of this program: the initial one, or the append of one message, to a list
that exists already or to one that the change creates under the key. -/
inductive Content (C : Type) where
  | chatInit
  | message (key : String) (list : Option C) (msg : ChatMessage)
  deriving DecidableEq

namespace Content
variable {C : Type}

def message? : Content C → Option ChatMessage
  | .chatInit => none
  | .message _ _ msg => some msg

/-- The list that the change appends to. -/
def target? (c : C) : Content C → Option C
  | .chatInit => none
  | .message _ list _ => some (list.getD c)

/-- The change puts a new list object under the key. -/
def Creates (key : String) (x : Content C) : Prop := ∃ msg, x = .message key none msg

theorem Creates.key_eq {key key' : String} {x : Content C} (h : x.Creates key) (h' : x.Creates key') :
    key = key' := by
  obtain ⟨msg,rfl⟩ := h
  obtain ⟨msg',h'⟩ := h'
  cases h'
  rfl

end Content

/-- Automerge for documents of such changes. Of several lists under one key only one
is visible; the entries of a list are its append changes in some order; a closed batch
of changes merges as a set. -/
structure ListDocs (C S M : Type) [DecidableEq C] extends Automerge C S M C where
  content : C → Content C
  entries : Doc C → C → List C
  receive_merges : ∀ s d m, graph.Closed (carried m) → (receiveSyncMessage s d m).2 = (d ∪ carried m,true)
  rootKeys_nodup : ∀ d, (rootKeys d).Nodup
  mem_rootKeys : ∀ d key, (Schema.stripListPrefix key).isSome →
    (key ∈ rootKeys d ↔ ∃ c ∈ d, (content c).Creates key)
  getRoot_some : ∀ d key l, (Schema.stripListPrefix key).isSome → getRoot d key = some l →
    l ∈ d ∧ (content l).Creates key
  getRoot_none : ∀ d key, (Schema.stripListPrefix key).isSome → getRoot d key = none →
    ∀ c ∈ d, ¬ (content c).Creates key
  entries_nodup : ∀ d l, (entries d l).Nodup
  mem_entries : ∀ d l c, c ∈ entries d l ↔ c ∈ d ∧ (content c).target? c = some l
  length_eq : ∀ d l, length d l = (entries d l).length

/-- An entry is read as the message that its change has appended. -/
structure ChatDocs (C S M : Type) [DecidableEq C] extends ListDocs C S M where
  hydrate_eq : ∀ d l i, hydrateMessage d l i = (entries d l)[i]?.bind (fun c => (content c).message?)

namespace ChatDocs
variable {C S M : Type} [DecidableEq C] (cd : ChatDocs C S M)

def message? (c : C) : Option ChatMessage := (cd.content c).message?

/-- What the transaction of add_message commits: ensure_peer_list takes the list under
the peer's key or creates one, and append_message inserts at its end. -/
def appendContent (d : Doc C) (peerId : String) (msg : ChatMessage) : Content C :=
  .message (Schema.peerListKey peerId) (Schema.getPeerList cd.toAutomerge d peerId) msg

/-- Every append goes to a list of the document, under a key of message lists. -/
def ListsPresent (d : Doc C) : Prop :=
  ∀ c ∈ d, ∀ key list msg, cd.content c = .message key list msg →
    (Schema.stripListPrefix key).isSome ∧ ∀ l, list = some l → l ∈ d ∧ (cd.content l).Creates key

/-- No key has two lists. -/
def SingleLists (d : Finset C) : Prop :=
  ∀ key, ∀ c ∈ d, ∀ c' ∈ d, (cd.content c).Creates key → (cd.content c').Creates key → c = c'

private theorem getAllPeerLists_nodup (d : Doc C) : (Schema.getAllPeerLists cd.toAutomerge d).Nodup := by
  refine (cd.rootKeys_nodup d).filterMap (fun key key' l hl hl' => ?_)
  split at hl
  · rename_i hp
    split at hl'
    · rename_i hp'
      have hx := (cd.getRoot_some d key l (by rw [hp]; rfl) hl).2
      exact hx.key_eq (cd.getRoot_some d key' l (by rw [hp']; rfl) hl').2
    · cases hl'
  · cases hl

/-- The entries of all visible lists, one list after the other. -/
def visible (d : Doc C) : List C :=
  (Schema.getAllPeerLists cd.toAutomerge d).flatMap (cd.entries d)

theorem visible_nodup (d : Doc C) : (cd.visible d).Nodup := by
  refine List.nodup_flatMap.mpr ⟨fun l _ => cd.entries_nodup d l,?_⟩
  refine (getAllPeerLists_nodup cd d).imp (fun {l l'} hne => ?_)
  intro c hc hc'
  have ht := ((cd.mem_entries d l c).mp hc).2
  have ht' := ((cd.mem_entries d l' c).mp hc').2
  exact hne (Option.some.inj (ht.symm.trans ht'))

theorem mem_visible {d : Doc C} (hlists : cd.ListsPresent d) (hone : cd.SingleLists d) {c : C} :
    c ∈ cd.visible d ↔ c ∈ d ∧ (cd.message? c).isSome := by
  simp only [visible,List.mem_flatMap,Schema.mem_getAllPeerLists,cd.mem_entries]
  constructor
  · rintro ⟨l,-,hc,ht⟩
    refine ⟨hc,?_⟩
    cases hx : cd.content c <;> simp [hx,Content.target?,message?,Content.message?] at ht ⊢
  · rintro ⟨hc,hm⟩
    cases hx : cd.content c with
    | chatInit => simp [message?,hx,Content.message?] at hm
    | message key list msg =>
      obtain ⟨hkey,hlist⟩ := hlists c hc key list msg hx
      obtain ⟨hl,hcreates⟩ : list.getD c ∈ d ∧ (cd.content (list.getD c)).Creates key := by
        cases list with
        | none => exact ⟨hc,msg,hx⟩
        | some l => exact hlist l rfl
      have hroot : cd.getRoot d key = some (list.getD c) := by
        cases hr : cd.getRoot d key with
        | none => exact absurd hcreates (cd.getRoot_none d key hkey hr _ hl)
        | some l =>
          obtain ⟨hl',hcreates'⟩ := cd.getRoot_some d key l hkey hr
          rw [hone key l hl' _ hl hcreates' hcreates]
      exact ⟨list.getD c,⟨key,(cd.mem_rootKeys d key hkey).mpr ⟨_,hl,hcreates⟩,hkey,hroot⟩,hc,
        by simp [Content.target?]⟩

omit [DecidableEq C] in
private theorem mapM_range {xs : List C} {f : C → Option ChatMessage} (h : ∀ x ∈ xs, (f x).isSome) :
    (List.range xs.length).mapM (fun i => (match xs[i]?.bind f with
      | some msg => Except.ok msg
      | none => Except.error LibError.automerge)) = .ok (xs.filterMap f) := by
  induction xs with
  | nil => rfl
  | cons x xs ih =>
    obtain ⟨msg,hmsg⟩ := Option.isSome_iff_exists.mp (h x List.mem_cons_self)
    have hrest : (List.range xs.length).mapM ((fun i => (match (x::xs)[i]?.bind f with
        | some msg => Except.ok msg
        | none => Except.error LibError.automerge)) ∘ Nat.succ) = .ok (xs.filterMap f) :=
      ih (fun y hy => h y (List.mem_cons_of_mem x hy))
    rw [List.length_cons,List.range_succ_eq_map,List.mapM_cons,List.mapM_map,hrest,
      List.filterMap_cons_some hmsg]
    simp only [List.getElem?_cons_zero,Option.bind_some,hmsg]
    rfl

theorem message?_isSome_of_entry {d : Doc C} {l c : C} (hc : c ∈ cd.entries d l) : (cd.message? c).isSome := by
  have ht := ((cd.mem_entries d l c).mp hc).2
  cases hx : cd.content c <;> simp [hx,Content.target?,message?,Content.message?] at ht ⊢

/-- The messages of one list. -/
def messages (d : Doc C) (l : C) : List ChatMessage := (cd.entries d l).filterMap cd.message?

/-- The messages of the visible lists, list by list. -/
def messageLists (d : Doc C) : List (List ChatMessage) :=
  (Schema.getAllPeerLists cd.toAutomerge d).map (cd.messages d)

theorem readLists_eq (d : Doc C) : readLists cd.toAutomerge d = .ok (cd.messageLists d) := by
  refine mapM_ok (fun l _ => ?_)
  rw [messages,← mapM_range (fun c hc => cd.message?_isSome_of_entry hc),cd.length_eq]
  refine congrArg (fun f => List.mapM f _) (funext fun i => ?_)
  rw [hydrateMessageAtIndex,cd.hydrate_eq]
  rfl

theorem flatten_messageLists (d : Doc C) :
    (cd.messageLists d).flatten = (cd.visible d).filterMap cd.message? := by
  rw [visible,List.filterMap_flatMap,List.flatMap]
  rfl

theorem length_messageLists_le (d : Doc C) : (cd.messageLists d).flatten.length ≤ d.card := by
  rw [flatten_messageLists]
  refine (List.length_filterMap_le _ _).trans ?_
  rw [← List.toFinset_card_of_nodup (cd.visible_nodup d)]
  refine Finset.card_le_card (fun c hc => ?_)
  obtain ⟨l,-,hc⟩ := List.mem_flatMap.mp (List.mem_toFinset.mp hc)
  exact ((cd.mem_entries d l c).mp hc).1

/-- One entry for each append in the document, and nothing else. -/
theorem getAllMessages_exact {d : Doc C} (hlists : cd.ListsPresent d) (hone : cd.SingleLists d)
    (hcard : d.card ≤ usizeMax-1) :
    ∃ msgs, getAllMessages cd.toAutomerge d = .ok msgs ∧
      (msgs : Multiset ChatMessage) = d.val.filterMap cd.message? := by
  have hvisible : (cd.visible d : Multiset C) = (d.filter (fun c => (cd.message? c).isSome)).val := by
    refine (Multiset.Nodup.ext (Multiset.coe_nodup.mpr (cd.visible_nodup d)) (Finset.nodup _)).mpr (fun c => ?_)
    rw [Finset.mem_val,Finset.mem_filter]
    exact mem_visible cd hlists hone
  refine ⟨_,getAllMessages_eq cd.toAutomerge (cd.readLists_eq d) ((cd.length_messageLists_le d).trans hcard),?_⟩
  rw [Multiset.coe_eq_coe.mpr (List.mergeSort_perm _ _),flatten_messageLists,← Multiset.filterMap_coe,hvisible,
    Finset.filter_val,Multiset.filterMap_filter]
  refine congrArg (fun f => Multiset.filterMap f d.val) (funext fun c => ?_)
  cases cd.message? c <;> rfl

theorem stripListPrefix_peerListKey (peerId : String) :
    (Schema.stripListPrefix (Schema.peerListKey peerId)).isSome := by
  simp [Schema.stripListPrefix,Schema.peerListKey]

end ChatDocs

/-! Documents over finitely many known changes. The earliest list under a key wins. -/
namespace Finite
variable {n : Nat} (graph : ChangeGraph (Fin n)) (content : Fin n → Content (Fin n))

def createdKey? : Content (Fin n) → Option String
  | .message key none _ => some key
  | _ => none

theorem creates_iff {key : String} {x : Content (Fin n)} : x.Creates key ↔ createdKey? x = some key := by
  cases x with
  | chatInit => simp [Content.Creates,createdKey?]
  | message key' list msg => cases list <;> simp [Content.Creates,createdKey?]

def entries (d : Doc (Fin n)) (l : Fin n) : List (Fin n) :=
  (List.finRange n).filter (fun c => c ∈ d ∧ (content c).target? c = some l)

def rootKeys (d : Doc (Fin n)) : List String :=
  (((List.finRange n).filter (fun c => c ∈ d)).filterMap (fun c => createdKey? (content c))).dedup

def getRoot (d : Doc (Fin n)) (key : String) : Option (Fin n) :=
  (List.finRange n).find? (fun c => c ∈ d ∧ createdKey? (content c) = some key)

def receiveSyncMessage (_ : Unit) (d m : Finset (Fin n)) : Unit × Finset (Fin n) × Bool :=
  if graph.Closed m then ((),d ∪ m,true) else ((),d,false)

/-- The new entries, at their place in the list. -/
def makePatches (before after : Doc (Fin n)) : List (Patch (Fin n)) :=
  ((List.finRange n).filter (fun c => c ∈ after \ before)).filterMap (fun c =>
    match content c with
    | .chatInit => none
    | .message key list _ => some ⟨[(c,.map key),(list.getD c,.seq ((entries content after (list.getD c)).idxOf c))]⟩)

def docs : ChatDocs (Fin n) Unit (Finset (Fin n)) where
  graph := graph
  newState := ()
  receiveSyncMessage := receiveSyncMessage graph
  generateSyncMessage _ d := ((),some d)
  carried m := m
  makePatches := makePatches content
  rootKeys := rootKeys content
  getRoot := getRoot content
  length d l := (entries content d l).length
  hydrateMessage d l i := (entries content d l)[i]?.bind (fun c => (content c).message?)
  receive_grows _ d m := by
    unfold receiveSyncMessage
    split
    · exact Finset.subset_union_left
    · exact Finset.Subset.refl d
  receive_closed _ d m hd := by
    unfold receiveSyncMessage
    split
    · rename_i hm
      exact graph.closed_union hd hm
    · exact hd
  carried_subset _ d m h := by
    cases h
    exact Finset.Subset.refl d
  content := content
  entries := entries content
  receive_merges _ d m hm := by simp only [receiveSyncMessage,if_pos hm]
  rootKeys_nodup d := List.nodup_dedup _
  mem_rootKeys d key _ := by simp [rootKeys,creates_iff]
  getRoot_some d key l _ h := by
    have hl := List.find?_some h
    simpa [creates_iff] using hl
  getRoot_none d key _ h c hc hx := by
    have hall := List.find?_eq_none.mp h c (List.mem_finRange c)
    simp [hc,creates_iff.mp hx] at hall
  entries_nodup d l := (List.nodup_finRange n).filter _
  mem_entries d l c := by simp [entries]
  length_eq _ _ := rfl
  hydrate_eq _ _ _ := rfl

end Finite

end GossipCore.Persistence
