import GossipCore.Persistence.MessageObjects
import GossipCore.Persistence.Pagination
import GossipCore.Persistence.Repository

/-! What add_message does to the lists. The new message is the last entry of the peer's own
list, and all other entries stay what and where they were. -/
namespace GossipCore.Persistence
open Base

/-- The message that add_message makes of the content, a new id and the clock. -/
def newMessage (myPeerId newMsgId : String) (msg : ChatMessageContent) (timestampMillisNow : Int) : ChatMessage where
  id := newMsgId
  senderNodeId := myPeerId
  content := msg
  createdAt := timestampMillisNow
  updatedAt := timestampMillisNow

namespace ChatDocs
variable {C S M : Type} [DecidableEq C] {cd : ChatDocs C S M}

theorem Built.closed {d : Doc C} (h : cd.Built d) : cd.graph.Closed d := by
  induction h with
  | chatInit c hc hdeps =>
    intro x hx
    rw [Finset.mem_singleton.mp hx,hdeps]
    exact Finset.empty_subset _
  | addMessage d hd c hdeps peerId msg hc ih =>
    refine cd.graph.closed_insert ih ?_
    rw [hdeps,cd.getHeads_of_closed ih]
    exact cd.graph.heads_subset d
  | merge d e hd he ihd ihe => exact cd.graph.closed_union ihd ihe

theorem Built.listsPresent {d : Doc C} (h : cd.Built d) : cd.ListsPresent d := by
  induction h with
  | chatInit c hc hdeps =>
    intro x hx key list msg hcontent
    rw [Finset.mem_singleton.mp hx,hc] at hcontent
    cases hcontent
  | addMessage d hd c hdeps peerId msg hc ih =>
    intro x hx key list msg' hcontent
    rcases Finset.mem_insert.mp hx with rfl | hx
    · obtain ⟨rfl,rfl,-⟩ := Content.message.inj (hc.symm.trans hcontent)
      have hkey := stripListPrefix_peerListKey peerId
      refine ⟨hkey,fun l hl => ?_⟩
      obtain ⟨hmem,hcreates⟩ := cd.getRoot_some d _ l hkey hl
      exact ⟨Finset.mem_insert_of_mem hmem,hcreates⟩
    · obtain ⟨hkey,hlist⟩ := ih x hx key list msg' hcontent
      exact ⟨hkey,fun l hl => ⟨Finset.mem_insert_of_mem (hlist l hl).1,(hlist l hl).2⟩⟩
  | merge d e hd he ihd ihe =>
    intro x hx key list msg hcontent
    rcases Finset.mem_union.mp hx with hx | hx
    · obtain ⟨hkey,hlist⟩ := ihd x hx key list msg hcontent
      exact ⟨hkey,fun l hl => ⟨Finset.mem_union_left e (hlist l hl).1,(hlist l hl).2⟩⟩
    · obtain ⟨hkey,hlist⟩ := ihe x hx key list msg hcontent
      exact ⟨hkey,fun l hl => ⟨Finset.mem_union_right d (hlist l hl).1,(hlist l hl).2⟩⟩

/-- A list with entries is in the document. -/
theorem ListsPresent.mem_of_entry {d : Doc C} (h : cd.ListsPresent d) {l x : C} (hx : x ∈ cd.entries d l) :
    l ∈ d := by
  obtain ⟨hmem,ht⟩ := (cd.mem_entries d l x).mp hx
  cases hcontent : cd.content x with
  | chatInit =>
    rw [hcontent] at ht
    cases ht
  | message key list msg =>
    rw [hcontent] at ht
    cases list with
    | none =>
      cases ht
      exact hmem
    | some l' =>
      cases ht
      exact ((h x hmem key _ msg hcontent).2 l' rfl).1

/-- The visible lists are those under the keys of message lists. -/
theorem mem_visibleLists {d : Doc C} {l : C} : l ∈ Schema.getAllPeerLists cd.toAutomerge d ↔
    ∃ key, (Schema.stripListPrefix key).isSome ∧ cd.getRoot d key = some l := by
  rw [Schema.mem_getAllPeerLists]
  refine exists_congr (fun key => ⟨And.right,fun h => ⟨?_,h⟩⟩)
  obtain ⟨hl,hcreates⟩ := cd.getRoot_some d key l h.1 h.2
  exact (cd.mem_rootKeys d key h.1).mpr ⟨l,hl,hcreates⟩

end ChatDocs

namespace StoredDocs
variable {C S M : Type} [DecidableEq C] (sd : StoredDocs C S M)

/-- The change c commits an append of the peer on top of the document. -/
structure Commits (d : Doc C) (peerId : String) (msg : ChatMessage) (c : C) : Prop where
  closed : sd.graph.Closed d
  lists : sd.toChatDocs.ListsPresent d
  deps : sd.graph.deps c = sd.getHeads d
  content : sd.content c = sd.toChatDocs.appendContent d peerId msg

namespace Commits
variable {sd} {d : Doc C} {peerId : String} {msg : ChatMessage} {c : C} (h : sd.Commits d peerId msg c)
include h

theorem notMem : c ∉ d := by
  refine sd.graph.notMem_of_deps_heads ?_
  rw [h.deps,sd.getHeads_of_closed h.closed]

theorem closed_insert : sd.graph.Closed (insert c d) := by
  refine sd.graph.closed_insert h.closed ?_
  rw [h.deps,sd.getHeads_of_closed h.closed]
  exact sd.graph.heads_subset d

theorem message : sd.toChatDocs.message? c = some msg := by
  have hx : sd.toChatDocs.content c = sd.toChatDocs.appendContent d peerId msg := h.content
  rw [ChatDocs.message?,hx]
  rfl

theorem content_eq : sd.content c = .message (Schema.peerListKey peerId)
    (Schema.getPeerList sd.toAutomerge d peerId) msg := h.content

/-- Only the first message of the peer creates a list, under the peer's own key. -/
theorem creates_iff {key : String} : (sd.content c).Creates key ↔
    key = Schema.peerListKey peerId ∧ Schema.getPeerList sd.toAutomerge d peerId = none := by
  rw [Content.Creates,h.content_eq]
  constructor
  · rintro ⟨msg',hx⟩
    obtain ⟨hkey,hnone,-⟩ := Content.message.inj hx
    exact ⟨hkey.symm,hnone⟩
  · rintro ⟨rfl,hnone⟩
    exact ⟨msg,by rw [hnone]⟩

private theorem getRoot_frame {key : String} (hkey : (Schema.stripListPrefix key).isSome)
    (hno : ¬ (sd.content c).Creates key) : sd.getRoot (insert c d) key = sd.getRoot d key := by
  refine sd.getRoot_frame d _ key hkey h.closed h.closed_insert (Finset.subset_insert c d) (fun x hx hnew => ?_)
  rcases Finset.mem_insert.mp hx with rfl | hx
  · exact hno
  · exact absurd hx hnew

/-- A list that there was stays under its key. -/
theorem getRoot_of_some {key : String} (hkey : (Schema.stripListPrefix key).isSome) {l : C}
    (hl : sd.getRoot d key = some l) : sd.getRoot (insert c d) key = some l := by
  rw [h.getRoot_frame hkey,hl]
  rintro hx
  obtain ⟨rfl,hnone⟩ := h.creates_iff.mp hx
  cases hl.symm.trans hnone

/-- The list that the message goes to. -/
theorem getRoot_own : sd.getRoot (insert c d) (Schema.peerListKey peerId) =
    some ((Schema.getPeerList sd.toAutomerge d peerId).getD c) := by
  have hkey := ChatDocs.stripListPrefix_peerListKey peerId
  cases hown : Schema.getPeerList sd.toAutomerge d peerId with
  | some l => exact h.getRoot_of_some hkey hown
  | none =>
    have hcreates := h.creates_iff.mpr ⟨rfl,hown⟩
    cases hroot : sd.getRoot (insert c d) (Schema.peerListKey peerId) with
    | none => exact absurd hcreates (sd.getRoot_none _ _ hkey hroot c (Finset.mem_insert_self c d))
    | some l =>
      obtain ⟨hl,hx⟩ := sd.getRoot_some _ _ l hkey hroot
      rcases Finset.mem_insert.mp hl with rfl | hl
      · rfl
      · exact absurd hx (sd.getRoot_none d _ hkey hown l hl)

theorem getRoot_cases {key : String} (hkey : (Schema.stripListPrefix key).isSome) {l : C}
    (hl : sd.getRoot (insert c d) key = some l) :
    sd.getRoot d key = some l ∨ l = (Schema.getPeerList sd.toAutomerge d peerId).getD c := by
  by_cases hx : (sd.content c).Creates key
  · obtain ⟨rfl,-⟩ := h.creates_iff.mp hx
    exact Or.inr (Option.some.inj (hl.symm.trans h.getRoot_own))
  · exact Or.inl ((h.getRoot_frame hkey hx).symm.trans hl)

theorem target : (sd.content c).target? c = some ((Schema.getPeerList sd.toAutomerge d peerId).getD c) := by
  rw [h.content_eq]
  rfl

theorem entries_own : sd.entries (insert c d) ((Schema.getPeerList sd.toAutomerge d peerId).getD c) =
    sd.entries d ((Schema.getPeerList sd.toAutomerge d peerId).getD c)++[c] :=
  sd.entries_append d c _ h.closed h.deps h.target

theorem entries_other {l : C} (hne : l ≠ (Schema.getPeerList sd.toAutomerge d peerId).getD c) :
    sd.entries (insert c d) l = sd.entries d l := by
  have hsub := sd.entries_sublist d _ l h.closed h.closed_insert (Finset.subset_insert c d)
  have hperm : (sd.entries d l).Perm (sd.entries (insert c d) l) := by
    refine (List.perm_ext_iff_of_nodup (sd.entries_nodup d l) (sd.entries_nodup _ l)).mpr (fun x => ?_)
    rw [sd.mem_entries,sd.mem_entries]
    refine and_congr_left (fun hx => ⟨Finset.mem_insert_of_mem,fun hmem => ?_⟩)
    rcases Finset.mem_insert.mp hmem with rfl | hmem
    · exact absurd (Option.some.inj (hx.symm.trans h.target)) hne
    · exact hmem
  exact (hsub.eq_of_length hperm.length_eq).symm

/-- What the lists show is what they showed, with the new entry. -/
theorem mem_visible {x : C} :
    x ∈ sd.toChatDocs.visible (insert c d) ↔ x = c ∨ x ∈ sd.toChatDocs.visible d := by
  simp only [ChatDocs.visible,List.mem_flatMap,ChatDocs.mem_visibleLists]
  constructor
  · rintro ⟨l,⟨key,hkey,hl⟩,hx⟩
    by_cases hown : l = (Schema.getPeerList sd.toAutomerge d peerId).getD c
    · subst hown
      have hx' : x ∈ sd.entries d ((Schema.getPeerList sd.toAutomerge d peerId).getD c)++[c] := h.entries_own ▸ hx
      rcases List.mem_append.mp hx' with hold | hnew
      · refine Or.inr ⟨_,?_,hold⟩
        cases hroot : Schema.getPeerList sd.toAutomerge d peerId with
        | some l => exact ⟨_,ChatDocs.stripListPrefix_peerListKey peerId,hroot⟩
        | none =>
          rw [hroot] at hold
          exact absurd (h.lists.mem_of_entry hold) h.notMem
      · exact Or.inl (List.mem_singleton.mp hnew)
    · have hroot := (h.getRoot_cases hkey hl).resolve_right hown
      exact Or.inr ⟨l,⟨key,hkey,hroot⟩,h.entries_other hown ▸ hx⟩
  · rintro (rfl | ⟨l,⟨key,hkey,hl⟩,hx⟩)
    · refine ⟨_,⟨_,ChatDocs.stripListPrefix_peerListKey peerId,h.getRoot_own⟩,?_⟩
      exact (sd.mem_entries _ _ x).mpr ⟨Finset.mem_insert_self x d,h.target⟩
    · refine ⟨l,⟨key,hkey,h.getRoot_of_some hkey hl⟩,?_⟩
      exact (sd.entries_sublist d _ l h.closed h.closed_insert (Finset.subset_insert c d)).subset hx

theorem perm_messages : (sd.toChatDocs.messageLists (insert c d)).flatten.Perm
    (msg::(sd.toChatDocs.messageLists d).flatten) := by
  have hnew : c ∉ sd.toChatDocs.visible d := fun hc => h.notMem (sd.toChatDocs.mem_of_visible hc)
  have hvisible : (sd.toChatDocs.visible (insert c d)).Perm (c::sd.toChatDocs.visible d) := by
    refine (List.perm_ext_iff_of_nodup (sd.toChatDocs.visible_nodup _)
      (List.nodup_cons.mpr ⟨hnew,sd.toChatDocs.visible_nodup d⟩)).mpr (fun x => ?_)
    rw [h.mem_visible,List.mem_cons]
  rw [ChatDocs.flatten_messageLists,ChatDocs.flatten_messageLists,← List.filterMap_cons_some h.message]
  exact hvisible.filterMap _

/-- The new message goes to its place in the listing. -/
theorem getAllMessages_insert (hids : sd.toChatDocs.DistinctIds (insert c d))
    (hfits : (sd.toChatDocs.messageLists (insert c d)).flatten.length ≤ usizeMax-1) :
    ∃ before, getAllMessages sd.toAutomerge d = .ok before ∧
      getAllMessages sd.toAutomerge (insert c d) =
        .ok (before.orderedInsert (fun a b => messageLe a b = true) msg) := by
  have hlen := h.perm_messages.length_eq
  rw [List.length_cons] at hlen
  have hbefore := getAllMessages_eq sd.toAutomerge (sd.toChatDocs.readLists_eq d) (by omega)
  have hafter := getAllMessages_eq sd.toAutomerge (sd.toChatDocs.readLists_eq (insert c d)) hfits
  refine ⟨_,hbefore,hafter.trans (congrArg Except.ok ?_)⟩
  exact mergeSort_eq_orderedInsert messageLe_trans messageLe_total h.perm_messages
    (strictlyOrdered_of_ids hids.nodup).antisymm

theorem hydrate_own : hydrateMessageAtIndex sd.toAutomerge (insert c d)
    ((Schema.getPeerList sd.toAutomerge d peerId).getD c)
    (sd.length d ((Schema.getPeerList sd.toAutomerge d peerId).getD c)) = .ok msg := by
  rw [hydrateMessageAtIndex_ok,sd.hydrate_object,h.entries_own,sd.length_eq,List.getElem?_concat_length,
    Option.bind_some,sd.object_message c _ _ msg h.content_eq,Schema.hydrateMessage_appendMessage]

/-- The entries that a list had are read as before. -/
theorem hydrate_kept {l : C} {i : Nat} (hi : i < sd.length d l) :
    hydrateMessageAtIndex sd.toAutomerge (insert c d) l i = hydrateMessageAtIndex sd.toAutomerge d l i := by
  rw [sd.length_eq] at hi
  have hentry : (sd.entries (insert c d) l)[i]? = (sd.entries d l)[i]? := by
    by_cases hown : l = (Schema.getPeerList sd.toAutomerge d peerId).getD c
    · subst hown
      rw [h.entries_own,List.getElem?_append_left hi]
    · rw [h.entries_other hown]
  rw [hydrateMessageAtIndex,hydrateMessageAtIndex,sd.hydrate_object,sd.hydrate_object,hentry]

theorem length_insert {key : String} (hkey : (Schema.stripListPrefix key).isSome) {l : C}
    (hl : sd.getRoot d key = some l) :
    sd.length (insert c d) l = sd.length d l+(if key = Schema.peerListKey peerId then 1 else 0) := by
  rw [sd.length_eq,sd.length_eq]
  by_cases hown : key = Schema.peerListKey peerId
  · subst hown
    have htarget : (Schema.getPeerList sd.toAutomerge d peerId).getD c = l := by
      rw [Schema.getPeerList,hl,Option.getD_some]
    rw [if_pos rfl,← htarget,h.entries_own,List.length_append,List.length_singleton]
  · rw [if_neg hown,h.entries_other,Nat.add_zero]
    rintro rfl
    have hcreates := (sd.getRoot_some _ _ _ hkey (h.getRoot_of_some hkey hl)).2
    have hcreates' := (sd.getRoot_some _ _ _ (ChatDocs.stripListPrefix_peerListKey peerId) h.getRoot_own).2
    exact hown (hcreates.key_eq hcreates')

end Commits

section AddMessage
variable {I : Type} [DecidableEq I]

omit [DecidableEq I] in
/-- A call that succeeds has committed, and returns its message. -/
private theorem addMessage_ok {chatId : I} {commit : Option C} {ok : Bool} {msg m : ChatMessage} {t t' : Tables I C}
    {repo repo' : ChatRepository C S} {sync : Option M}
    (h : repo.addMessage sd.toAutomerge chatId commit ok msg t = (.ok (m,sync),t',repo')) :
    m = msg ∧ ∃ c, commit = some c ∧ repo'.doc = insert c repo.doc := by
  cases commit with
  | none => cases h
  | some c =>
    simp only [ChatRepository.addMessage,ChatRepository.persistAndGenerate] at h
    have hdoc := (repo.transact c).persistChat_doc sd.toAutomerge chatId ok t
    split at h
    · cases h
    · obtain ⟨hres,hstate⟩ := Prod.mk.inj h
      cases hres
      cases hstate
      exact ⟨rfl,c,rfl,hdoc⟩

omit [DecidableEq I] in
/-- A call of add_message that returns a message has put this message, and nothing else,
into the listing and at the end of the peer's own list. -/
theorem add_message_exact {repo : ChatRepository C S} (hbuilt : sd.toChatDocs.Built repo.doc)
    {peerId newMsgId : String} {content : ChatMessageContent} {now : Int} {commit : Option C}
    (hcommit : ∀ c ∈ commit, sd.graph.deps c = sd.getHeads repo.doc ∧
      sd.content c = sd.toChatDocs.appendContent repo.doc peerId (newMessage peerId newMsgId content now))
    {chatId : I} {ok : Bool} {t t' : Tables I C} {repo' : ChatRepository C S} {m : ChatMessage} {sync : Option M}
    (hok : repo.addMessage sd.toAutomerge chatId commit ok (newMessage peerId newMsgId content now) t =
      (.ok (m,sync),t',repo'))
    (hids : sd.toChatDocs.DistinctIds repo'.doc)
    (hfits : (sd.toChatDocs.messageLists repo'.doc).flatten.length ≤ usizeMax-1) :
    (∃ before, getAllMessages sd.toAutomerge repo.doc = .ok before ∧
      getAllMessages sd.toAutomerge repo'.doc = .ok (before.orderedInsert (fun a b => messageLe a b = true) m)) ∧
    (∃ own, Schema.getPeerList sd.toAutomerge repo'.doc peerId = some own ∧
      hydrateMessageAtIndex sd.toAutomerge repo'.doc own (sd.length repo'.doc own-1) = .ok m) ∧
    ∀ key l, (Schema.stripListPrefix key).isSome → sd.getRoot repo.doc key = some l →
      sd.getRoot repo'.doc key = some l ∧
      sd.length repo'.doc l = sd.length repo.doc l+(if key = Schema.peerListKey peerId then 1 else 0) ∧
      ∀ i < sd.length repo.doc l, hydrateMessageAtIndex sd.toAutomerge repo'.doc l i =
        hydrateMessageAtIndex sd.toAutomerge repo.doc l i := by
  obtain ⟨rfl,c,rfl,hdoc⟩ := sd.addMessage_ok hok
  obtain ⟨hdeps,hcontent⟩ := hcommit c rfl
  have h : sd.Commits repo.doc peerId (newMessage peerId newMsgId content now) c :=
    ⟨hbuilt.closed,hbuilt.listsPresent,hdeps,hcontent⟩
  rw [hdoc] at hids hfits ⊢
  refine ⟨h.getAllMessages_insert hids hfits,⟨_,h.getRoot_own,?_⟩,fun key l hkey hl => ?_⟩
  · have hlen : sd.length (insert c repo.doc) ((Schema.getPeerList sd.toAutomerge repo.doc peerId).getD c)-1 =
        sd.length repo.doc ((Schema.getPeerList sd.toAutomerge repo.doc peerId).getD c) := by
      rw [sd.length_eq,sd.length_eq,h.entries_own,List.length_append,List.length_singleton,Nat.add_sub_cancel]
    rw [hlen]
    exact h.hydrate_own
  · exact ⟨h.getRoot_of_some hkey hl,h.length_insert hkey hl,fun i hi => h.hydrate_kept hi⟩

end AddMessage

theorem rank_twoClocks (c : Fin 6) : twoClocks.graph.rank c = c := rfl

/-- The sample of two peers, with the objects of their messages. -/
def storedClocks : StoredDocs (Fin 6) Unit (Finset (Fin 6)) :=
  Finite.stored twoClocks.graph twoClocks.content rank_twoClocks

private theorem storedClocks_built : storedClocks.toChatDocs.Built {0,1,3} := by
  have hzero : storedClocks.toChatDocs.Built {0} := .chatInit 0 rfl rfl
  have hone : storedClocks.toChatDocs.Built (insert 1 {0}) :=
    .addMessage {0} hzero 1 (by decide +kernel) "A" (newMessage "A" "m1" (.text "hello") 2) (by decide +kernel)
  have hthree : storedClocks.toChatDocs.Built (insert 3 {0}) :=
    .addMessage {0} hzero 3 (by decide +kernel) "B" (newMessage "B" "m3" (.text "hi") 3) (by decide +kernel)
  have hmerged : ({0,1,3} : Doc (Fin 6)) = insert 1 {0} ∪ insert 3 {0} := by decide
  rw [hmerged]
  exact .merge _ _ hone hthree

/-- A's call on the merged document, with its clock set back. -/
theorem add_message_after_merge : ∃ sync t' repo',
    (ChatRepository.new storedClocks.toAutomerge {0,1,3} {1,3}).addMessage storedClocks.toAutomerge () (some 5) true
      (newMessage "A" "m5" (.text "again") 1) Tables.empty =
        (.ok (newMessage "A" "m5" (.text "again") 1,sync),t',repo') ∧
    ∃ before, getAllMessages storedClocks.toAutomerge {0,1,3} = .ok before ∧
      getAllMessages storedClocks.toAutomerge repo'.doc = .ok (before.orderedInsert
        (fun a b => messageLe a b = true) (newMessage "A" "m5" (.text "again") 1)) := by
  have hcommit : ∀ c ∈ some (5 : Fin 6), storedClocks.graph.deps c = storedClocks.getHeads {0,1,3} ∧
      storedClocks.content c = storedClocks.toChatDocs.appendContent {0,1,3} "A"
        (newMessage "A" "m5" (.text "again") 1) := by
    decide +kernel
  have hbuilt : storedClocks.toChatDocs.Built (ChatRepository.new storedClocks.toAutomerge {0,1,3} {1,3}).doc :=
    storedClocks_built
  obtain ⟨sync,t',repo',hok⟩ : ∃ sync t' repo',
      (ChatRepository.new storedClocks.toAutomerge {0,1,3} {1,3}).addMessage storedClocks.toAutomerge () (some 5)
        true (newMessage "A" "m5" (.text "again") 1) Tables.empty =
          (.ok (newMessage "A" "m5" (.text "again") 1,sync),t',repo') := ⟨_,_,_,rfl⟩
  obtain ⟨-,c,hc,hdoc⟩ := addMessage_ok storedClocks hok
  cases hc
  have hids : storedClocks.toChatDocs.DistinctIds repo'.doc := by
    rw [hdoc]
    unfold ChatDocs.DistinctIds
    decide +kernel
  have hfits : (storedClocks.toChatDocs.messageLists repo'.doc).flatten.length ≤ usizeMax-1 := by
    rw [hdoc]
    decide +kernel
  exact ⟨sync,t',repo',hok,(add_message_exact storedClocks hbuilt hcommit hok hids hfits).1⟩

end StoredDocs
end GossipCore.Persistence
