import GossipCore.Persistence.ChatDocument

/-! Pages of the listing. A page is cut out of the merged ends of the lists, which agree
with the end of the whole listing as long as the lists are in the order of the listing. -/
namespace GossipCore.Persistence
open Base

theorem messageLe_trans (a b c : ChatMessage) (hab : messageLe a b = true) (hbc : messageLe b c = true) :
    messageLe a c = true := by
  simp only [messageLe,Bool.or_eq_true,Bool.and_eq_true,decide_eq_true_eq] at hab hbc ⊢
  rcases hab with hab | ⟨hab,hid⟩
  · rcases hbc with hbc | ⟨hbc,-⟩
    · exact Or.inl (lt_trans hab hbc)
    · exact Or.inl (hbc ▸ hab)
  · rcases hbc with hbc | ⟨hbc,hid'⟩
    · exact Or.inl (hab ▸ hbc)
    · exact Or.inr ⟨hab.trans hbc,String.le_trans hid hid'⟩

theorem messageLe_total (a b : ChatMessage) : (messageLe a b || messageLe b a) = true := by
  simp only [messageLe,Bool.or_eq_true,Bool.and_eq_true,decide_eq_true_eq]
  rcases lt_trichotomy a.createdAt b.createdAt with hlt | heq | hlt
  · exact Or.inl (Or.inl hlt)
  · rcases String.le_total a.id b.id with hid | hid
    · exact Or.inl (Or.inr ⟨heq,hid⟩)
    · exact Or.inr (Or.inr ⟨heq.symm,hid⟩)
  · exact Or.inr (Or.inl hlt)

theorem id_eq_of_messageLe {a b : ChatMessage} (hab : messageLe a b = true) (hba : messageLe b a = true) :
    a.id = b.id := by
  simp only [messageLe,Bool.or_eq_true,Bool.and_eq_true,decide_eq_true_eq] at hab hba
  rcases hab with hab | ⟨hab,hid⟩
  · rcases hba with hba | ⟨hba,-⟩
    · exact absurd hba (lt_asymm hab)
    · exact absurd hab (hba ▸ lt_irrefl _)
  · rcases hba with hba | ⟨-,hid'⟩
    · exact absurd hba (hab ▸ lt_irrefl _)
    · exact String.le_antisymm hid hid'

/-- Two messages of A at times 2 and 4 and one of B at time 3. In the last two changes A's
clock is set back to 1 after its first message, once alone and once after B's message. -/
def twoClocks : ChatDocs (Fin 6) Unit (Finset (Fin 6)) :=
  Finite.docs
    { deps := fun | 0 => ∅ | 2 => {1} | 4 => {1} | 5 => {1,3} | _ => {0}
      rank := fun c => c
      rank_lt := by decide }
    (fun
      | 0 => .chatInit
      | 1 => .message "msgs_A" none ⟨"m1","A",.text "hello",2,2⟩
      | 2 => .message "msgs_A" (some 1) ⟨"m2","A",.text "bye",4,4⟩
      | 3 => .message "msgs_B" none ⟨"m3","B",.text "hi",3,3⟩
      | 4 => .message "msgs_A" (some 1) ⟨"m4","A",.text "again",1,1⟩
      | 5 => .message "msgs_A" (some 1) ⟨"m5","A",.text "again",1,1⟩)

section Pages
variable {C S M O : Type} (am : Automerge C S M O)

/-- With every list in the order of the listing, a page is a slice of the listing, counted
from its end. -/
theorem page_is_slice {doc : Doc C} {lists : List (List ChatMessage)} (hread : readLists am doc = .ok lists)
    (hsorted : ∀ l ∈ lists, l.Pairwise (fun a b => messageLe a b = true)) (hfits : lists.flatten.length ≤ usizeMax-1)
    {offset limit : Nat} (hsum : offset+limit ≤ usizeMax) :
    getAllMessages am doc = .ok (lists.flatten.mergeSort messageLe) ∧
    getMessages am doc offset limit = .ok (((lists.flatten.mergeSort messageLe).rdrop offset).rtake limit) := by
  refine ⟨getAllMessages_eq am hread hfits,?_⟩
  rw [getMessages_eq am hread hsum]
  exact congrArg Except.ok (page_of_rtake_eq (rtake_mergedTails messageLe_trans messageLe_total hsorted))

private theorem twoClocks_lists : readLists twoClocks.toAutomerge {0,1,2,3} =
    .ok [[⟨"m1","A",.text "hello",2,2⟩,⟨"m2","A",.text "bye",4,4⟩],[⟨"m3","B",.text "hi",3,3⟩]] := by
  decide +kernel

theorem second_page_is_slice :
    getAllMessages twoClocks.toAutomerge {0,1,2,3} =
      .ok [⟨"m1","A",.text "hello",2,2⟩,⟨"m3","B",.text "hi",3,3⟩,⟨"m2","A",.text "bye",4,4⟩] ∧
    getMessages twoClocks.toAutomerge {0,1,2,3} 1 1 = .ok [⟨"m3","B",.text "hi",3,3⟩] := by
  have hall : [[⟨"m1","A",.text "hello",2,2⟩,⟨"m2","A",.text "bye",4,4⟩],
      [⟨"m3","B",.text "hi",3,3⟩]].flatten.mergeSort messageLe =
      [⟨"m1","A",.text "hello",2,2⟩,⟨"m3","B",.text "hi",3,3⟩,⟨"m2","A",.text "bye",4,4⟩] := by
    simp [List.mergeSort,messageLe]
  have hsum : 1+1 ≤ usizeMax := by decide
  have hslice := page_is_slice twoClocks.toAutomerge twoClocks_lists (by decide) (by decide) hsum
  rw [hall] at hslice
  exact hslice

/-- A Vec takes at most isize::MAX bytes, so no listing has more entries. -/
def isizeMax : Nat := 2^63-1

/-- The number of pages of k messages. -/
def pageCount (total k : Nat) : Nat := (total+k-1)/k

/-- All pages of k messages, from the last page down to page 0. -/
def walkPages (doc : Doc C) (k : Nat) : Except LibError (List ChatMessage) := do
  let all ← getAllMessages am doc
  let pages ← (List.range (pageCount all.length k)).reverse.mapM (fun i => getMessages am doc (i*k) k)
  return pages.flatten

private theorem le_pageCount_mul (total : Nat) {k : Nat} (hk : 1 ≤ k) : total ≤ pageCount total k*k := by
  have hdiv := Nat.div_add_mod (total+k-1) k
  have hmod := Nat.mod_lt (total+k-1) hk
  rw [pageCount,Nat.mul_comm]
  omega

/-- No offset of a page overflows. -/
private theorem page_fits {total k i : Nat} (hk : 1 ≤ k) (hmax : k ≤ usizeMax) (htotal : total ≤ isizeMax)
    (hi : i < pageCount total k) : i*k+k ≤ usizeMax := by
  have hle : (i+1)*k ≤ total+k-1 := by
    calc (i+1)*k
      _ ≤ pageCount total k*k := Nat.mul_le_mul_right k hi
      _ ≤ total+k-1 := Nat.div_mul_le_self _ _
  rw [Nat.add_mul,Nat.one_mul] at hle
  rcases Nat.eq_zero_or_pos i with rfl | hpos
  · simpa using hmax
  · have hik : k ≤ i*k := Nat.le_mul_of_pos_left k hpos
    have hdouble : isizeMax+isizeMax ≤ usizeMax := by decide
    omega

private theorem walkPages_ok {doc : Doc C} {lists : List (List ChatMessage)} (hread : readLists am doc = .ok lists)
    (hfits : lists.flatten.length ≤ isizeMax) {k : Nat} (hk : 1 ≤ k) (hmax : k ≤ usizeMax) :
    walkPages am doc k = .ok ((List.range (pageCount lists.flatten.length k)).reverse.map (fun i =>
      ((mergedTails messageLe lists (i*k+k)).rdrop (i*k)).rtake k)).flatten := by
  have hpages : (List.range (pageCount lists.flatten.length k)).reverse.mapM (fun i => getMessages am doc (i*k) k) =
      .ok ((List.range (pageCount lists.flatten.length k)).reverse.map (fun i =>
        ((mergedTails messageLe lists (i*k+k)).rdrop (i*k)).rtake k)) := by
    refine mapM_ok (fun i hi => ?_)
    rw [List.mem_reverse,List.mem_range] at hi
    exact getMessages_eq am hread (page_fits hk hmax hfits hi)
  rw [walkPages,getAllMessages_eq am hread (hfits.trans (by decide))]
  simp only [bind,Except.bind,pure,Except.pure,List.length_mergeSort,hpages]

/-- Page 0 comes last, so it has to be the end of the listing. -/
private theorem rtake_of_walk {doc : Doc C} {lists : List (List ChatMessage)} (hread : readLists am doc = .ok lists)
    (hfits : lists.flatten.length ≤ isizeMax) {k : Nat} (hk : 1 ≤ k) (hn : k ≤ lists.flatten.length)
    (h : walkPages am doc k = getAllMessages am doc) :
    (mergedTails messageLe lists k).rtake k = (lists.flatten.mergeSort messageLe).rtake k := by
  have hmax : k ≤ usizeMax := hn.trans (hfits.trans (by decide))
  rw [walkPages_ok am hread hfits hk hmax,getAllMessages_eq am hread (hfits.trans (by decide))] at h
  have hall := Except.ok.inj h
  obtain ⟨n,hcount⟩ : ∃ n, pageCount lists.flatten.length k = n+1 := by
    refine Nat.exists_eq_succ_of_ne_zero (fun hzero => ?_)
    have hle := le_pageCount_mul lists.flatten.length hk
    rw [hzero,Nat.zero_mul] at hle
    omega
  rw [hcount,List.range_succ_eq_map,List.reverse_cons,List.map_append,List.flatten_append] at hall
  have hzero : ([0].map (fun i => ((mergedTails messageLe lists (i*k+k)).rdrop (i*k)).rtake k)).flatten =
      (mergedTails messageLe lists k).rtake k := by
    simp
  have hlen : k ≤ ((mergedTails messageLe lists k).rtake k).length := by
    have htails := le_length_mergedTails messageLe lists k
    rw [length_rtake]
    omega
  have hself : ((mergedTails messageLe lists k).rtake k).rtake k = (mergedTails messageLe lists k).rtake k := by
    refine rtake_of_length_le ?_
    rw [length_rtake]
    exact Nat.min_le_left _ _
  rw [hzero] at hall
  rw [← hall,rtake_append_of_le hlen,hself]

omit am in
theorem strictlyOrdered_of_ids {lists : List (List ChatMessage)} (h : (lists.flatten.map ChatMessage.id).Nodup) :
    StrictlyOrdered messageLe lists where
  trans := messageLe_trans
  total := messageLe_total
  antisymm _ ha _ hb hab hba := List.inj_on_of_nodup_map h ha hb (id_eq_of_messageLe hab hba)
  nodup := h.of_map _

/-- The pages show every message once exactly when the tails of the lists cover the end of
the listing at every depth. -/
theorem walkPages_eq_iff {doc : Doc C} {lists : List (List ChatMessage)} (hread : readLists am doc = .ok lists)
    (hids : (lists.flatten.map ChatMessage.id).Nodup) (hfits : lists.flatten.length ≤ isizeMax) :
    (∀ k, 1 ≤ k → k ≤ usizeMax → walkPages am doc k = getAllMessages am doc) ↔ TailsCover messageLe lists := by
  rw [← rtake_mergedTails_iff (strictlyOrdered_of_ids hids)]
  constructor
  · intro h k
    rcases Nat.eq_zero_or_pos k with rfl | hk
    · simp
    · rcases Nat.lt_or_ge lists.flatten.length k with hshort | hlong
      · rw [mergedTails_of_length_le hshort.le]
      · exact rtake_of_walk am hread hfits hk hlong (h k hk (hlong.trans (hfits.trans (by decide))))
  · intro h k hk hmax
    rw [walkPages_ok am hread hfits hk hmax,getAllMessages_eq am hread (hfits.trans (by decide))]
    have hpage : ∀ i, ((mergedTails messageLe lists (i*k+k)).rdrop (i*k)).rtake k =
        ((lists.flatten.mergeSort messageLe).rdrop (i*k)).rtake k := fun i => page_of_rtake_eq (h (i*k+k))
    simp only [hpage]
    rw [flatten_pages,rtake_of_length_le]
    rw [List.length_mergeSort]
    exact le_pageCount_mul _ hk

end Pages

namespace ChatDocs
variable {C S M : Type} [DecidableEq C] (cd : ChatDocs C S M)

/-- Different appends carry different message ids. -/
def DistinctIds (d : Finset C) : Prop :=
  ∀ c ∈ d, ∀ c' ∈ d, ∀ m ∈ cd.message? c, ∀ m' ∈ cd.message? c', m.id = m'.id → c = c'

/-- The documents of the peers: a new chat, the commit of an add_message call on top of
all changes there are, and the merge of two documents. -/
inductive Built : Doc C → Prop where
  | chatInit (c : C) (hc : cd.content c = .chatInit) (hdeps : cd.graph.deps c = ∅) : Built {c}
  | addMessage (d : Doc C) (hd : Built d) (c : C) (hdeps : cd.graph.deps c = cd.getHeads d) (peerId : String)
      (msg : ChatMessage) (hc : cd.content c = cd.appendContent d peerId msg) : Built (insert c d)
  | merge (d e : Doc C) (hd : Built d) (he : Built e) : Built (d ∪ e)

theorem mem_of_visible {d : Doc C} {c : C} (h : c ∈ cd.visible d) : c ∈ d := by
  obtain ⟨l,-,hc⟩ := List.mem_flatMap.mp h
  exact ((cd.mem_entries d l c).mp hc).1

variable {cd}

theorem DistinctIds.nodup {d : Doc C} (h : cd.DistinctIds d) :
    ((cd.messageLists d).flatten.map ChatMessage.id).Nodup := by
  rw [flatten_messageLists,List.Nodup,List.pairwise_map,List.pairwise_filterMap]
  refine (cd.visible_nodup d).imp_of_mem (fun {c c'} hc hc' hne m hm m' hm' hid => hne ?_)
  exact h c (cd.mem_of_visible hc) c' (cd.mem_of_visible hc') m hm m' hm' hid

/-- The pages of every size show every message once exactly when no message has more
entries behind it in its own list than there are later messages in the listing. -/
theorem pages_show_every_message_iff {d : Doc C} (hids : cd.DistinctIds d)
    (hfits : (cd.messageLists d).flatten.length ≤ isizeMax) :
    (∀ k, 1 ≤ k → k ≤ usizeMax → walkPages cd.toAutomerge d k = getAllMessages cd.toAutomerge d) ↔
      TailsCover messageLe (cd.messageLists d) :=
  walkPages_eq_iff cd.toAutomerge (cd.readLists_eq d) hids.nodup hfits

private theorem twoClocks_built : twoClocks.Built {0,1,2,3} := by
  have hzero : twoClocks.Built {0} := .chatInit 0 rfl rfl
  have hone : twoClocks.Built (insert 1 {0}) :=
    .addMessage {0} hzero 1 (by decide +kernel) "A" ⟨"m1","A",.text "hello",2,2⟩ (by decide +kernel)
  have htwo : twoClocks.Built (insert 2 (insert 1 {0})) :=
    .addMessage _ hone 2 (by decide +kernel) "A" ⟨"m2","A",.text "bye",4,4⟩ (by decide +kernel)
  have hthree : twoClocks.Built (insert 3 {0}) :=
    .addMessage {0} hzero 3 (by decide +kernel) "B" ⟨"m3","B",.text "hi",3,3⟩ (by decide +kernel)
  have hmerged : ({0,1,2,3} : Doc (Fin 6)) = insert 2 (insert 1 {0}) ∪ insert 3 {0} := by decide
  rw [hmerged]
  exact .merge _ _ htwo hthree

/-- With the clocks going forward, the pages show both lists. -/
theorem pages_show_every_message_in_order : twoClocks.Built {0,1,2,3} ∧
    ∀ k, 1 ≤ k → k ≤ usizeMax →
      walkPages twoClocks.toAutomerge {0,1,2,3} k = getAllMessages twoClocks.toAutomerge {0,1,2,3} := by
  have hids : twoClocks.DistinctIds {0,1,2,3} := by
    unfold ChatDocs.DistinctIds
    decide +kernel
  have hsorted : ∀ l ∈ twoClocks.messageLists {0,1,2,3}, l.Pairwise (fun a b => messageLe a b = true) := by
    decide +kernel
  refine ⟨twoClocks_built,(pages_show_every_message_iff hids (by decide +kernel)).mpr ?_⟩
  exact tailsCover_of_sorted (strictlyOrdered_of_ids hids.nodup) hsorted

/-- A's clock is set back between two messages: pages of one message show the second one
twice and the first one never. -/
theorem page_walk_after_clock_set_back : twoClocks.Built {0,1,4} ∧ twoClocks.DistinctIds {0,1,4} ∧
    walkPages twoClocks.toAutomerge {0,1,4} 1 =
      .ok [⟨"m4","A",.text "again",1,1⟩,⟨"m4","A",.text "again",1,1⟩] ∧
    getAllMessages twoClocks.toAutomerge {0,1,4} =
      .ok [⟨"m4","A",.text "again",1,1⟩,⟨"m1","A",.text "hello",2,2⟩] := by
  have hone : twoClocks.Built (insert 1 {0}) := .addMessage {0} (.chatInit 0 rfl rfl) 1 (by decide +kernel) "A"
    ⟨"m1","A",.text "hello",2,2⟩ (by decide +kernel)
  have hbuilt : twoClocks.Built (insert 4 (insert 1 {0})) :=
    .addMessage _ hone 4 (by decide +kernel) "A" ⟨"m4","A",.text "again",1,1⟩ (by decide +kernel)
  have hread : readLists twoClocks.toAutomerge {0,1,4} =
      .ok [[⟨"m1","A",.text "hello",2,2⟩,⟨"m4","A",.text "again",1,1⟩]] := by
    decide +kernel
  have hsort : ([⟨"m1","A",.text "hello",2,2⟩,⟨"m4","A",.text "again",1,1⟩] : List ChatMessage).mergeSort messageLe =
      [⟨"m4","A",.text "again",1,1⟩,⟨"m1","A",.text "hello",2,2⟩] := by
    simp [List.mergeSort,messageLe]
  refine ⟨?_,?_,?_,?_⟩
  · exact (by decide : ({0,1,4} : Doc (Fin 6)) = insert 4 (insert 1 {0})) ▸ hbuilt
  · unfold ChatDocs.DistinctIds
    decide +kernel
  · rw [walkPages_ok twoClocks.toAutomerge hread (by decide) (by decide) (by decide)]
    simp [pageCount,mergedTails,List.range_succ,List.rtake,List.rdrop,hsort]
  · rw [getAllMessages_eq twoClocks.toAutomerge hread (by decide)]
    exact congrArg Except.ok hsort

end ChatDocs
end GossipCore.Persistence
