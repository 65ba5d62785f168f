import GossipCore.Persistence.AddMessage
import Mathlib.Data.Fintype.Powerset

/-! The messages of a received batch. They are found by the patches whose paths run through
an entry of a message list, of which the batch makes one for each key that it assigns. -/
namespace GossipCore.Persistence
open Base

/-- The key and the index of the list element that the path of a patch runs through. -/
def Patch.element? {O : Type} (patch : Patch O) : Option (String × Nat) :=
  match patch.path with
  | (_,.map key)::(_,.seq index)::_ => some (key,index)
  | _ => none

section Extraction
variable {C S M O : Type} (am : Automerge C S M O)

/-- What extraction reads at a patch. -/
def reported (doc : Doc C) (patch : Patch O) : Option ChatMessage := do
  let (key,index) ← patch.element?
  let _ ← Schema.stripListPrefix key
  let list ← am.getRoot doc key
  am.hydrateMessage doc list index

variable {am} {doc : Doc C} {patch : Patch O}

theorem reported_eq_some {msg : ChatMessage} : reported am doc patch = some msg ↔
    ∃ key index list, patch.element? = some (key,index) ∧ (Schema.stripListPrefix key).isSome ∧
      am.getRoot doc key = some list ∧ am.hydrateMessage doc list index = some msg := by
  simp only [reported,bind,Option.bind_eq_some_iff,Option.isSome_iff_exists,Prod.exists]
  constructor
  · rintro ⟨key,index,he,peerId,hpeer,list,hlist,hmsg⟩
    exact ⟨key,index,list,he,⟨peerId,hpeer⟩,hlist,hmsg⟩
  · rintro ⟨key,index,list,he,⟨peerId,hpeer⟩,hlist,hmsg⟩
    exact ⟨key,index,he,peerId,hpeer,list,hlist,hmsg⟩

theorem patchedMessage_eq (hread : ∀ key index list, patch.element? = some (key,index) →
    (Schema.stripListPrefix key).isSome → am.getRoot doc key = some list →
    (am.hydrateMessage doc list index).isSome) : patchedMessage am doc patch = .ok (reported am doc patch) := by
  unfold patchedMessage reported
  split
  · rename_i _ key _ index rest hpath
    have he : patch.element? = some (key,index) := by
      rw [Patch.element?,hpath]
    rw [he]
    cases hpeer : Schema.stripListPrefix key with
    | none => simp only [bind,Option.bind,hpeer]
    | some peerId =>
      have hroot : Schema.getPeerList am doc peerId = am.getRoot doc key := by
        rw [Schema.getPeerList,peerListKey_of_stripListPrefix hpeer]
      cases hlist : am.getRoot doc key with
      | none => simp only [hroot,hlist,bind,Option.bind,hpeer]
      | some list =>
        obtain ⟨msg,hmsg⟩ := Option.isSome_iff_exists.mp (hread key index list he (by rw [hpeer]; rfl) hlist)
        simp only [hroot,hlist,bind,Option.bind,hpeer,(hydrateMessageAtIndex_ok am).mpr hmsg,hmsg]
        rfl
  · rename_i hpath
    have he : patch.element? = none := by
      unfold Patch.element?
      split
      · rename_i _ key _ index rest hother
        exact absurd hother (hpath _ key _ index rest)
      · rfl
    rw [he]
    rfl

theorem extract_eq {patches : List (Patch O)} (hread : ∀ patch ∈ patches, ∀ key index list,
    patch.element? = some (key,index) → (Schema.stripListPrefix key).isSome → am.getRoot doc key = some list →
    (am.hydrateMessage doc list index).isSome) : extractNewMessagesFromPatches am doc patches =
      .ok ((patches.filterMap (reported am doc)).mergeSort (fun a b => decide (a.createdAt ≤ b.createdAt))) := by
  rw [extractNewMessagesFromPatches,mapM_ok (fun patch hp => patchedMessage_eq (hread patch hp))]
  simp only [bind,Except.bind,pure,Except.pure,List.filterMap_map,Function.id_comp]

end Extraction

namespace Finite
variable {n : Nat} (graph : ChangeGraph (Fin n)) (content : Fin n → Content (Fin n))

/-- One patch for each assignment of the new changes: a new list under the root, the insertion
into the list, and the keys of the message. -/
def keyPatches (before after : Doc (Fin n)) : List (Patch (Fin n)) :=
  ((List.finRange n).filter (fun c => c ∈ after \ before)).flatMap (fun c =>
    match content c with
    | .chatInit => [⟨[]⟩]
    | .message key list _ =>
      (if list = none then [⟨[]⟩] else [])++⟨[(c,.map key)]⟩::(object content c).map (fun e =>
        ⟨(c,.map key)::(list.getD c,.seq ((entries content after (list.getD c)).idxOf c))::
          e.1.dropLast.map (fun k => (c,.map k))⟩))

def patched (hrank : ∀ c, graph.rank c = c) : StoredDocs (Fin n) Unit (Finset (Fin n)) :=
  { stored graph content hrank with makePatches := keyPatches content }

end Finite

/-- The sample of two peers, with a patch for each assignment. -/
def patchDocs : StoredDocs (Fin 6) Unit (Finset (Fin 6)) :=
  Finite.patched twoClocks.graph twoClocks.content StoredDocs.rank_twoClocks

namespace ChatDocs
variable {C S M : Type} [DecidableEq C] (cd : ChatDocs C S M)

/-- A merge of a batch into a document. -/
structure Merges (before after : Doc C) : Prop where
  before_closed : cd.graph.Closed before
  after_closed : cd.graph.Closed after
  grows : before ⊆ after

/-- The patches of a merge. An entry is only ever written by the change that appended it;
some patch runs through each entry that was not visible before, at its final index, and no
patch runs through an entry that the batch has not written. -/
structure PatchesEntries : Prop where
  covers : ∀ before after, cd.Merges before after → ∀ key l i c, (Schema.stripListPrefix key).isSome →
    cd.getRoot after key = some l → (cd.entries after l)[i]? = some c → c ∉ cd.visible before →
    ∃ patch ∈ cd.makePatches before after, patch.element? = some (key,i)
  touched : ∀ before after, cd.Merges before after → ∀ patch ∈ cd.makePatches before after,
    ∀ key i, patch.element? = some (key,i) → (Schema.stripListPrefix key).isSome →
    ∀ l, cd.getRoot after key = some l → ∃ c, (cd.entries after l)[i]? = some c ∧ c ∉ before

private theorem patchDocs_key {d : Doc (Fin 6)} {key : String} {l : Fin 6} (h : patchDocs.getRoot d key = some l) :
    key ∈ Finite.createdKey? (patchDocs.content l) := by
  have hfound := List.find?_some h
  simp only [decide_eq_true_eq] at hfound
  exact hfound.2

private theorem patchDocs_count {before after : Doc (Fin 6)} (hm : patchDocs.toChatDocs.Merges before after)
    {key : String} {l c : Fin 6} {i : Nat} (hl : patchDocs.getRoot after key = some l)
    (hi : (patchDocs.entries after l)[i]? = some c) (hnew : c ∉ patchDocs.toChatDocs.visible before) :
    0 < (patchDocs.object c).length ∧ (patchDocs.makePatches before after).countP
      (fun patch => patch.element? = some (key,i)) = (patchDocs.object c).length := by
  have hcheck : ∀ before : Finset (Fin 6), patchDocs.graph.Closed before → ∀ after : Finset (Fin 6),
      patchDocs.graph.Closed after → before ⊆ after → ∀ l : Fin 6,
      ∀ key ∈ Finite.createdKey? (patchDocs.content l), patchDocs.getRoot after key = some l →
      ∀ i : Fin 6, ∀ c ∈ (patchDocs.entries after l)[i.val]?, c ∉ patchDocs.toChatDocs.visible before →
      0 < (patchDocs.object c).length ∧ (patchDocs.makePatches before after).countP
        (fun patch => patch.element? = some (key,i.val)) = (patchDocs.object c).length := by
    decide +kernel
  have hlen : (patchDocs.entries after l).length ≤ 6 := List.length_filter_le _ _
  have hlt : i < (patchDocs.entries after l).length := (List.getElem?_eq_some_iff.mp hi).1
  exact hcheck before hm.before_closed after hm.after_closed hm.grows l key (patchDocs_key hl) hl ⟨i,by omega⟩ c
    hi hnew

theorem patchDocs_patches : patchDocs.toChatDocs.PatchesEntries where
  covers before after hm key l i c _ hl hi hnew := by
    obtain ⟨hpos,hcount⟩ := patchDocs_count hm hl hi hnew
    rw [← hcount] at hpos
    obtain ⟨patch,hp,he⟩ := List.countP_pos_iff.mp hpos
    exact ⟨patch,hp,of_decide_eq_true he⟩
  touched := by
    have hcheck : ∀ before : Finset (Fin 6), patchDocs.graph.Closed before → ∀ after : Finset (Fin 6),
        patchDocs.graph.Closed after → before ⊆ after →
        (patchDocs.makePatches before after).all (fun patch => ∀ e ∈ patch.element?,
          ∀ l ∈ patchDocs.getRoot after e.1, ∃ c, (patchDocs.entries after l)[e.2]? = some c ∧ c ∉ before) := by
      decide +kernel
    intro before after hm patch hp key i he _ l hl
    have hall := hcheck before hm.before_closed after hm.after_closed hm.grows
    have hpatch := of_decide_eq_true (List.all_eq_true.mp hall patch hp)
    exact hpatch (key,i) he l hl

variable {cd}

theorem visible_iff_getElem? {d : Doc C} {c : C} : c ∈ cd.visible d ↔ ∃ key l, ∃ i : Nat,
    (Schema.stripListPrefix key).isSome ∧ cd.getRoot d key = some l ∧ (cd.entries d l)[i]? = some c := by
  simp only [visible,List.mem_flatMap,mem_visibleLists]
  constructor
  · rintro ⟨l,⟨key,hkey,hl⟩,hc⟩
    obtain ⟨i,hi⟩ := List.mem_iff_getElem?.mp hc
    exact ⟨key,l,i,hkey,hl,hi⟩
  · rintro ⟨key,l,i,hkey,hl,hi⟩
    exact ⟨l,⟨key,hkey,hl⟩,List.mem_of_getElem? hi⟩

/-- A patch that reports something runs through an entry of the batch. -/
theorem PatchesEntries.entry_of_reported (h : cd.PatchesEntries) {before after : Doc C}
    (hm : cd.Merges before after) {patch : Patch C} (hp : patch ∈ cd.makePatches before after) {msg : ChatMessage}
    (hmsg : reported cd.toAutomerge after patch = some msg) :
    ∃ c ∈ cd.visible after, c ∉ before ∧ cd.message? c = some msg := by
  obtain ⟨key,i,l,he,hkey,hl,hread⟩ := reported_eq_some.mp hmsg
  obtain ⟨c,hc,hnew⟩ := h.touched before after hm patch hp key i he hkey l hl
  rw [cd.hydrate_eq,hc] at hread
  exact ⟨c,visible_iff_getElem?.mpr ⟨key,l,i,hkey,hl,hc⟩,hnew,hread⟩

/-- All patches of a merge can be read. -/
theorem PatchesEntries.extract_eq (h : cd.PatchesEntries) {before after : Doc C} (hm : cd.Merges before after) :
    extractNewMessagesFromPatches cd.toAutomerge after (cd.makePatches before after) =
      .ok (((cd.makePatches before after).filterMap (reported cd.toAutomerge after)).mergeSort
        (fun a b => decide (a.createdAt ≤ b.createdAt))) := by
  refine Persistence.extract_eq (fun patch hp key i l he hkey hl => ?_)
  obtain ⟨c,hc,-⟩ := h.touched before after hm patch hp key i he hkey l hl
  rw [cd.hydrate_eq,hc]
  exact cd.message?_isSome_of_entry (List.mem_of_getElem? hc)

variable (cd) in
theorem mem_getAllMessages {d : Doc C} (hfits : d.card ≤ usizeMax-1) :
    ∃ all, getAllMessages cd.toAutomerge d = .ok all ∧
      ∀ msg, msg ∈ all ↔ ∃ c ∈ cd.visible d, cd.message? c = some msg := by
  refine ⟨_,getAllMessages_eq cd.toAutomerge (cd.readLists_eq d) ((cd.length_messageLists_le d).trans hfits),?_⟩
  intro msg
  rw [List.mem_mergeSort,flatten_messageLists,List.mem_filterMap]

/-- Extraction returns the messages of the entries that were not visible before. By their
ids these are the messages that the listing had not. -/
theorem extraction_finds_new_messages (h : cd.PatchesEntries) {before after : Doc C} (hm : cd.Merges before after)
    (hfits : after.card ≤ usizeMax-1) :
    ∃ msgs, extractNewMessagesFromPatches cd.toAutomerge after (cd.makePatches before after) = .ok msgs ∧
      (∀ msg, msg ∈ msgs ↔ ∃ c ∈ cd.visible after, c ∉ cd.visible before ∧ cd.message? c = some msg) ∧
      (cd.DistinctIds after → ∃ all old, getAllMessages cd.toAutomerge after = .ok all ∧
        getAllMessages cd.toAutomerge before = .ok old ∧ ∀ msg, msg ∈ msgs ↔ msg ∈ all ∧ msg ∉ old) := by
  have hentries : ∀ msg, msg ∈ ((cd.makePatches before after).filterMap (reported cd.toAutomerge after)).mergeSort
      (fun a b => decide (a.createdAt ≤ b.createdAt)) ↔
      ∃ c ∈ cd.visible after, c ∉ cd.visible before ∧ cd.message? c = some msg := by
    intro msg
    rw [List.mem_mergeSort,List.mem_filterMap]
    constructor
    · rintro ⟨patch,hp,hmsg⟩
      obtain ⟨c,hc,hnew,hread⟩ := h.entry_of_reported hm hp hmsg
      exact ⟨c,hc,fun hold => hnew (cd.mem_of_visible hold),hread⟩
    · rintro ⟨c,hc,hnew,hread⟩
      obtain ⟨key,l,i,hkey,hroot,hi⟩ := visible_iff_getElem?.mp hc
      obtain ⟨patch,hp,he⟩ := h.covers before after hm key l i c hkey hroot hi hnew
      refine ⟨patch,hp,reported_eq_some.mpr ⟨key,i,l,he,hkey,hroot,?_⟩⟩
      rw [cd.hydrate_eq,hi]
      exact hread
  refine ⟨_,h.extract_eq hm,hentries,fun hids => ?_⟩
  obtain ⟨all,hall,hmem⟩ := cd.mem_getAllMessages hfits
  obtain ⟨old,hold,hmem'⟩ := cd.mem_getAllMessages ((Finset.card_le_card hm.grows).trans hfits)
  refine ⟨all,old,hall,hold,fun msg => ?_⟩
  rw [hentries,hmem,hmem']
  constructor
  · rintro ⟨c,hc,hnew,hread⟩
    refine ⟨⟨c,hc,hread⟩,?_⟩
    rintro ⟨c',hc',hread'⟩
    have hsame := hids c (cd.mem_of_visible hc) c' (hm.grows (cd.mem_of_visible hc')) msg hread msg hread' rfl
    exact hnew (hsame ▸ hc')
  · rintro ⟨⟨c,hc,hread⟩,hno⟩
    exact ⟨c,hc,fun hold => hno ⟨c,hold,hread⟩,hread⟩

private theorem patchDocs_merges : patchDocs.toChatDocs.Merges {0,1} {0,1,2,3} :=
  ⟨by decide +kernel,by decide +kernel,by decide⟩

/-- A batch with a message of A for its list and a new list of B. -/
theorem extraction_finds_batch_of_both : ∃ msgs all old,
    extractNewMessagesFromPatches patchDocs.toAutomerge {0,1,2,3} (patchDocs.makePatches {0,1} {0,1,2,3}) =
      .ok msgs ∧
    getAllMessages patchDocs.toAutomerge {0,1,2,3} = .ok all ∧
    getAllMessages patchDocs.toAutomerge {0,1} = .ok old ∧
    ∀ msg, msg ∈ msgs ↔ msg ∈ all ∧ msg ∉ old := by
  have hids : patchDocs.toChatDocs.DistinctIds {0,1,2,3} := by
    unfold DistinctIds
    decide +kernel
  obtain ⟨msgs,hmsgs,-,hset⟩ := extraction_finds_new_messages patchDocs_patches patchDocs_merges (by decide)
  obtain ⟨all,old,hall,hold,hmem⟩ := hset hids
  exact ⟨msgs,all,old,hmsgs,hall,hold,hmem⟩

end ChatDocs

namespace StoredDocs
variable {C S M : Type} [DecidableEq C] {sd : StoredDocs C S M}

variable (sd) in
/-- Each key that append_message assigns gives a patch that runs through the entry. -/
def PatchPerKey : Prop := ∀ before after, sd.toChatDocs.Merges before after → ∀ key l i c,
  (Schema.stripListPrefix key).isSome → sd.getRoot after key = some l → (sd.entries after l)[i]? = some c →
  c ∉ sd.toChatDocs.visible before →
  (sd.makePatches before after).countP (fun patch => patch.element? = some (key,i)) = (sd.object c).length

/-- A message that becomes visible is reported once for each of its keys. -/
theorem PatchPerKey.count_reported (hkeys : sd.PatchPerKey) {before after : Doc C}
    (hm : sd.toChatDocs.Merges before after) {c : C} (hc : c ∈ sd.toChatDocs.visible after)
    (hnew : c ∉ sd.toChatDocs.visible before) :
    ∃ msg, 6 ≤ ((sd.makePatches before after).filterMap (reported sd.toAutomerge after)).count msg := by
  obtain ⟨key,l,i,hkey,hroot,hi⟩ := ChatDocs.visible_iff_getElem?.mp hc
  obtain ⟨msg,hmsg⟩ := Option.isSome_iff_exists.mp
    (sd.toChatDocs.message?_isSome_of_entry (List.mem_of_getElem? hi))
  have hcount := hkeys before after hm key l i c hkey hroot hi hnew
  have hsix : (sd.object c).length = 6 := by
    cases hx : sd.content c with
    | chatInit =>
      rw [ChatDocs.message?,show sd.toChatDocs.content c = .chatInit from hx] at hmsg
      cases hmsg
    | message key list msg => rw [sd.object_message c key list msg hx,Schema.length_appendMessage]
  refine ⟨msg,?_⟩
  rw [← hsix,← hcount,List.count,List.countP_filterMap]
  refine List.countP_mono_left (fun patch _ he => ?_)
  have hread : reported sd.toAutomerge after patch = some msg := by
    refine reported_eq_some.mpr ⟨key,i,l,of_decide_eq_true he,hkey,hroot,?_⟩
    refine (sd.toChatDocs.hydrate_eq after l i).trans ?_
    rw [show (sd.toChatDocs.entries after l)[i]? = some c from hi]
    exact hmsg
  rw [hread]
  simp

/-- What is reported agrees with the listing exactly when the batch shows nothing new. -/
theorem reported_agree_iff (h : sd.toChatDocs.PatchesEntries) (hkeys : sd.PatchPerKey) {before after : Doc C}
    (hm : sd.toChatDocs.Merges before after) (hfits : after.card ≤ usizeMax-1) :
    (∃ msgs all, extractNewMessagesFromPatches sd.toAutomerge after (sd.makePatches before after) = .ok msgs ∧
      getAllMessages sd.toAutomerge after = .ok all ∧ msgs.Nodup ∧ msgs.Sublist all) ↔
    ∀ c ∈ sd.toChatDocs.visible after, c ∈ sd.toChatDocs.visible before := by
  have hextract := h.extract_eq hm
  constructor
  · rintro ⟨msgs,all,hmsgs,-,hnodup,-⟩ c hc
    by_contra hnew
    obtain ⟨msg,hcount⟩ := hkeys.count_reported hm hc hnew
    cases hextract.symm.trans hmsgs
    have hle := List.nodup_iff_count_le_one.mp hnodup msg
    rw [(List.mergeSort_perm _ _).count_eq] at hle
    exact absurd (hcount.trans hle) (by decide)
  · intro hold
    obtain ⟨all,hall,-⟩ := sd.toChatDocs.mem_getAllMessages hfits
    have hnone : (sd.toChatDocs.makePatches before after).filterMap
        (reported sd.toChatDocs.toAutomerge after) = [] := by
      refine List.filterMap_eq_nil_iff.mpr (fun patch hp => ?_)
      by_contra hsome
      obtain ⟨msg,hmsg⟩ := Option.ne_none_iff_exists'.mp hsome
      obtain ⟨c,hc,hnew,-⟩ := h.entry_of_reported hm hp hmsg
      exact hnew (sd.toChatDocs.mem_of_visible (hold c hc))
    rw [hnone,List.mergeSort_nil] at hextract
    exact ⟨[],all,hextract,hall,List.nodup_nil,List.nil_sublist all⟩

private theorem patchDocs_keys : patchDocs.PatchPerKey := fun _ _ hm _ _ _ _ _ hl hi hnew =>
  (ChatDocs.patchDocs_count hm hl hi hnew).2

/-- The change that creates the chat has a patch and no message. -/
theorem reported_agree_without_news : (patchDocs.makePatches ∅ {0}).length = 1 ∧ ∃ msgs all,
    extractNewMessagesFromPatches patchDocs.toAutomerge {0} (patchDocs.makePatches ∅ {0}) = .ok msgs ∧
    getAllMessages patchDocs.toAutomerge {0} = .ok all ∧ msgs.Nodup ∧ msgs.Sublist all :=
  ⟨by decide +kernel,(reported_agree_iff ChatDocs.patchDocs_patches patchDocs_keys
    ⟨by decide +kernel,by decide +kernel,by decide⟩ (by decide)).mpr (by decide +kernel)⟩

/-- The first message of B arrives and is reported six times. -/
theorem received_message_is_reported_six_times :
    patchDocs.toChatDocs.PatchesEntries ∧ patchDocs.PatchPerKey ∧ patchDocs.toChatDocs.Merges {0,1} {0,1,3} ∧
    extractNewMessagesFromPatches patchDocs.toAutomerge {0,1,3} (patchDocs.makePatches {0,1} {0,1,3}) =
      .ok (List.replicate 6 (newMessage "B" "m3" (.text "hi") 3)) := by
  have hm : patchDocs.toChatDocs.Merges {0,1} {0,1,3} := ⟨by decide +kernel,by decide +kernel,by decide⟩
  have hreported : (patchDocs.makePatches {0,1} {0,1,3}).filterMap (reported patchDocs.toAutomerge {0,1,3}) =
      List.replicate 6 (newMessage "B" "m3" (.text "hi") 3) := by
    decide +kernel
  refine ⟨ChatDocs.patchDocs_patches,patchDocs_keys,hm,(ChatDocs.patchDocs_patches.extract_eq hm).trans ?_⟩
  exact congrArg Except.ok (List.perm_replicate.mp (hreported ▸ List.mergeSort_perm _ _))

end StoredDocs
end GossipCore.Persistence
