import GossipCore.Base.KeyedView
import GossipCore.Persistence.NewMessages
import GossipCore.Persistence.PeerLists

/-! The message list that a receiver keeps. It starts from the listing, is subscribed by a
second request, and is told only of what is new from then on, several times and in no useful
order. -/
namespace GossipCore.Manager
open Base Persistence

/-- process_messages of the receiver. -/
def processMessages (current msgs : List ChatMessage) : List ChatMessage :=
  (addAll ChatMessage.id current msgs).mergeSort messageLe

/-- handle_incomming_message passes on what was extracted, unless it is empty. -/
def passOn (msgs current : List ChatMessage) : List ChatMessage :=
  if msgs.isEmpty then current else processMessages current msgs

section Calls
variable {I C S M : Type} [DecidableEq I] [DecidableEq C] (cd : ChatDocs C S M) (chatId : I)

/-- What the INSERT of a receive_sync_message call lets it return. -/
def extracted (t : Tables I C) (p : Process I C S) : List ChatMessage :=
  match p.activity, p.repo with
  | .persisting (.receiveSyncMessage before), some repo =>
    match (repo.persistAndExtract cd.toAutomerge chatId true before t).1 with
    | .ok (messages,_) => messages
    | .error _ => []
  | _, _ => []

/-- What the INSERT of an add_message call lets it return. -/
def added (t : Tables I C) (p : Process I C S) : List ChatMessage :=
  match p.activity, p.repo with
  | .persisting (.addMessage msg _), some repo =>
    match (repo.persistAndGenerate cd.toAutomerge chatId true msg t).1 with
    | .ok (msg,_) => [msg]
    | .error _ => []
  | _, _ => []

end Calls

/-- The list of a receiver, and the messages that were reported to others after it was
listed and before it was subscribed. -/
structure ReceiverView where
  allMsgs : List ChatMessage
  missed : List ChatMessage

namespace ReceiverView

def tell (msgs : List ChatMessage) (v : ReceiverView) : ReceiverView := { v with allMsgs := passOn msgs v.allMsgs }

def miss (msgs : List ChatMessage) (v : ReceiverView) : ReceiverView :=
  { v with missed := v.missed++msgs.filter (fun m => m ∉ v.allMsgs) }

/-- The caller of send_message adds what it has returned. -/
def collect (msg : ChatMessage) (v : ReceiverView) : ReceiverView :=
  { v with allMsgs := addNew ChatMessage.id v.allMsgs msg }

end ReceiverView

section Side
variable {I C S M : Type} [DecidableEq C] (cd : ChatDocs C S M)

/-- The message of some change in the document. -/
def Holds (d : Finset C) (msg : ChatMessage) : Prop := ∃ c ∈ d, cd.message? c = some msg

/-- The changes that the calls of a peer have made known: one that is still writing its
row has not returned what it adds. -/
def known (p : Process I C S) : Finset C :=
  match p.activity with
  | .persisting (.addMessage _ c) => p.doc.erase c
  | .persisting (.receiveSyncMessage before) => before
  | _ => p.doc

def PendingIn (d : Finset C) : PendingCall C → Prop
  | .addMessage msg c => c ∈ d ∧ cd.message? c = some msg
  | .receiveSyncMessage before => cd.graph.Closed before ∧ before ⊆ d

/-- The list, what it has missed and what is still to be added to it hold the messages that
are known; nothing that it has missed is on the list. -/
structure ReceiverView.Shows (d : Finset C) (returned : List ChatMessage) (v : ReceiverView) : Prop where
  nodup : (v.allMsgs.map ChatMessage.id).Nodup
  shown : ∀ msg, msg ∈ v.allMsgs ∨ msg ∈ v.missed ∨ msg ∈ returned ↔ Holds cd d msg
  apart : ∀ msg ∈ v.missed, msg ∉ v.allMsgs ∧ msg ∉ returned

/-- What the calls of a peer have made known, at each of its receivers. -/
structure Shows (p : Process I C S) (listed subscribed : Option ReceiverView) (returned : List ChatMessage) : Prop where
  opened : p.repo = none → listed = none ∧ subscribed = none
  loads : ∀ load, p.activity ≠ .resetting load
  pending : ∀ call, p.activity = .persisting call → PendingIn cd p.doc call
  sent : ∀ msg ∈ returned, Holds cd (known p) msg
  once : returned.Nodup
  listed : ∀ v ∈ listed, v.Shows cd (known p) returned
  subscribed : ∀ v ∈ subscribed, v.Shows cd (known p) returned

/-- The facts about a document of the peers that its listing rests on. -/
structure Listed (d : Finset C) : Prop where
  distinct : cd.DistinctIds d
  lists : cd.ListsPresent d
  single : cd.SingleLists d

variable {cd}

theorem Listed.injective {d : Finset C} (h : Listed cd d) (a b : ChatMessage) (ha : Holds cd d a)
    (hb : Holds cd d b) (hid : a.id = b.id) : a = b := by
  obtain ⟨c,hc,hm⟩ := ha
  obtain ⟨c',hc',hm'⟩ := hb
  have hsame := h.distinct c hc c' hc' a hm b hm' hid
  exact Option.some.inj (hm.symm.trans (hsame ▸ hm'))

theorem Listed.mem_visible {d : Finset C} (h : Listed cd d) {c : C} :
    c ∈ cd.visible d ↔ c ∈ d ∧ (cd.message? c).isSome := cd.mem_visible h.lists h.single

/-- The listing has the messages of the document. -/
theorem Listed.mem_all {d : Finset C} (h : Listed cd d) (hfits : d.card ≤ usizeMax-1) :
    ∃ all, getAllMessages cd.toAutomerge d = .ok all ∧ (all.map ChatMessage.id).Nodup ∧
      all.Pairwise (fun a b => messageLe a b = true) ∧ ∀ msg, msg ∈ all ↔ Holds cd d msg := by
  refine ⟨_,getAllMessages_eq cd.toAutomerge (cd.readLists_eq d) ((cd.length_messageLists_le d).trans hfits),?_,
    List.pairwise_mergeSort messageLe_trans messageLe_total _,fun msg => ?_⟩
  · rw [((List.mergeSort_perm _ _).map _).nodup_iff]
    exact h.distinct.nodup
  · rw [List.mem_mergeSort,ChatDocs.flatten_messageLists,List.mem_filterMap]
    refine exists_congr (fun c => ⟨fun hc => ⟨(h.mem_visible.mp hc.1).1,hc.2⟩,fun hc => ⟨?_,hc.2⟩⟩)
    exact h.mem_visible.mpr ⟨hc.1,by rw [hc.2]; rfl⟩

/-- What is extracted from a merge are the messages of its new changes. -/
theorem mem_extracted (hpatch : cd.PatchesEntries) {before after : Finset C} (hm : cd.Merges before after)
    (hb : Listed cd before) (ha : Listed cd after) : ∃ msgs,
      extractNewMessagesFromPatches cd.toAutomerge after (cd.makePatches before after) = .ok msgs ∧
      ∀ msg, msg ∈ msgs ↔ Holds cd (after \ before) msg := by
  refine ⟨_,hpatch.extract_eq hm,fun msg => ?_⟩
  rw [List.mem_mergeSort,List.mem_filterMap]
  constructor
  · rintro ⟨patch,hp,hmsg⟩
    obtain ⟨c,hc,hnew,hread⟩ := hpatch.entry_of_reported hm hp hmsg
    exact ⟨c,Finset.mem_sdiff.mpr ⟨cd.mem_of_visible hc,hnew⟩,hread⟩
  · rintro ⟨c,hc,hread⟩
    obtain ⟨hafter,hnew⟩ := Finset.mem_sdiff.mp hc
    have hvisible : c ∈ cd.visible after := ha.mem_visible.mpr ⟨hafter,by rw [hread]; rfl⟩
    obtain ⟨key,l,i,hkey,hroot,hi⟩ := ChatDocs.visible_iff_getElem?.mp hvisible
    obtain ⟨patch,hp,he⟩ := hpatch.covers before after hm key l i c hkey hroot hi
      (fun hold => hnew (hb.mem_visible.mp hold).1)
    refine ⟨patch,hp,reported_eq_some.mpr ⟨key,i,l,he,hkey,hroot,?_⟩⟩
    rw [cd.hydrate_eq,hi]
    exact hread

section Views
variable {d d' : Finset C} {returned msgs : List ChatMessage} {msg : ChatMessage} {v : ReceiverView}

theorem ReceiverView.Shows.holds (h : v.Shows cd d returned) {x : ChatMessage} (hx : x ∈ v.allMsgs) : Holds cd d x :=
  (h.shown x).mp (Or.inl hx)

/-- Nothing that was not known before is missed already. -/
theorem ReceiverView.Shows.not_missed (h : v.Shows cd d returned) {x : ChatMessage} (hx : ¬Holds cd d x) :
    x ∉ v.missed := fun hm => hx ((h.shown x).mp (Or.inr (Or.inl hm)))

theorem ReceiverView.Shows.append (h : v.Shows cd d returned)
    (hknown : ∀ x, Holds cd d' x ↔ Holds cd d x ∨ x = msg) (hnew : ¬Holds cd d msg) :
    v.Shows cd d' (returned++[msg]) := by
  refine ⟨h.nodup,fun x => ?_,fun x hx => ⟨(h.apart x hx).1,fun hret => ?_⟩⟩
  · rw [hknown,← h.shown,List.mem_append,List.mem_singleton,or_assoc,or_assoc]
  · rcases List.mem_append.mp hret with hret | hret
    · exact (h.apart x hx).2 hret
    · exact h.not_missed hnew (List.mem_singleton.mp hret ▸ hx)

/-- The list after passOn, which may be told what it has. -/
theorem ReceiverView.Shows.tell (h : v.Shows cd d returned)
    (hinj : ∀ a b, Holds cd d' a → Holds cd d' b → a.id = b.id → a = b)
    (hknown : ∀ x, Holds cd d' x ↔ Holds cd d x ∨ x ∈ msgs) (hnew : ∀ x ∈ msgs, ¬Holds cd d x) :
    (v.tell msgs).Shows cd d' returned := by
  have hadd : ∀ x, x ∈ addAll ChatMessage.id v.allMsgs msgs ↔ x ∈ v.allMsgs ∨ x ∈ msgs := fun x =>
    mem_addAll (Holds cd d') hinj (fun y hy => (hknown y).mpr (Or.inl (h.holds hy)))
      (fun y hy => (hknown y).mpr (Or.inr hy))
  have hpass : ((v.tell msgs).allMsgs.map ChatMessage.id).Nodup ∧
      ∀ x, x ∈ (v.tell msgs).allMsgs ↔ x ∈ v.allMsgs ∨ x ∈ msgs := by
    simp only [ReceiverView.tell,passOn]
    split
    · rename_i hempty
      rw [List.isEmpty_iff.mp hempty]
      exact ⟨h.nodup,fun x => by simp⟩
    · refine ⟨?_,fun x => ?_⟩
      · rw [processMessages,((List.mergeSort_perm _ _).map _).nodup_iff]
        exact nodup_addAll h.nodup msgs
      · rw [processMessages,List.mem_mergeSort,hadd]
  refine ⟨hpass.1,fun x => ?_,fun x hx => ⟨fun hin => ?_,(h.apart x hx).2⟩⟩
  · rw [hpass.2,hknown,← h.shown,or_assoc,or_comm (a := x ∈ msgs),← or_assoc,← or_assoc,← or_assoc]
    rfl
  · rcases (hpass.2 x).mp hin with hin | hin
    · exact (h.apart x hx).1 hin
    · exact h.not_missed (hnew x hin) hx

/-- What a list is not told is missed, unless it is there already. -/
theorem ReceiverView.Shows.miss (hnodup : (v.allMsgs.map ChatMessage.id).Nodup)
    (hshown : ∀ x, x ∈ v.allMsgs ∨ x ∈ v.missed ∨ x ∈ msgs ∨ x ∈ returned ↔ Holds cd d x)
    (hapart : ∀ x ∈ v.missed, x ∉ v.allMsgs ∧ x ∉ returned) (hmsgs : ∀ x ∈ msgs, x ∉ returned) :
    (v.miss msgs).Shows cd d returned := by
  have hmissed : ∀ x, x ∈ (v.miss msgs).missed ↔ x ∈ v.missed ∨ x ∈ msgs ∧ x ∉ v.allMsgs := fun x => by
    simp only [ReceiverView.miss,List.mem_append,List.mem_filter,decide_eq_true_eq]
  refine ⟨hnodup,fun x => ?_,fun x hx => ?_⟩
  · rw [hmissed,← hshown]
    by_cases hx : x ∈ v.allMsgs
    · exact iff_of_true (Or.inl hx) (Or.inl hx)
    · rw [and_iff_left hx,or_assoc]
      rfl
  · rcases (hmissed x).mp hx with hx | ⟨hx,hout⟩
    · exact hapart x hx
    · exact ⟨hout,hmsgs x hx⟩

/-- A frame that is handled between the listing and the subscription. -/
theorem ReceiverView.Shows.miss_new (h : v.Shows cd d returned)
    (hknown : ∀ x, Holds cd d' x ↔ Holds cd d x ∨ x ∈ msgs) (hnew : ∀ x ∈ msgs, ¬Holds cd d x) :
    (v.miss msgs).Shows cd d' returned := by
  refine .miss h.nodup (fun x => ?_) h.apart (fun x hx hret => hnew x hx ((h.shown x).mp (Or.inr (Or.inr hret))))
  rw [hknown,← h.shown,or_assoc,or_assoc,or_comm (a := x ∈ returned)]

/-- The caller of send_message adds its message to a list that may have it already. -/
theorem ReceiverView.Shows.collect (h : v.Shows cd d (msg::returned))
    (hinj : ∀ a b, Holds cd d a → Holds cd d b → a.id = b.id → a = b) : (v.collect msg).Shows cd d returned := by
  have hmsg : Holds cd d msg := (h.shown msg).mp (Or.inr (Or.inr List.mem_cons_self))
  have hmem : ∀ x, x ∈ (v.collect msg).allMsgs ↔ x ∈ v.allMsgs ∨ x = msg := fun x =>
    mem_addNew (fun z hz hid => hinj z msg (h.holds hz) hmsg hid)
  refine ⟨nodup_addNew h.nodup msg,fun x => ?_,fun x hx => ?_⟩
  · rw [hmem,← h.shown,List.mem_cons,or_assoc,or_left_comm (a := x = msg)]
    rfl
  · obtain ⟨hout,hret⟩ := h.apart x hx
    rw [List.mem_cons,not_or] at hret
    exact ⟨fun hin => ((hmem x).mp hin).elim hout hret.1,hret.2⟩

/-- The caller adds its message to the list of another receiver. -/
theorem ReceiverView.Shows.miss_sent (h : v.Shows cd d (msg::returned)) (honce : msg ∉ returned) :
    (v.miss [msg]).Shows cd d returned := by
  refine .miss h.nodup (fun x => ?_) (fun x hx => ⟨(h.apart x hx).1,fun hret => ?_⟩) (fun x hx => ?_)
  · rw [← h.shown,List.mem_singleton,List.mem_cons]
  · exact (h.apart x hx).2 (List.mem_cons_of_mem msg hret)
  · rw [List.mem_singleton.mp hx]
    exact honce

/-- The list as it stands and the messages of the document. -/
theorem ReceiverView.Shows.mem_iff (h : v.Shows cd d []) (x : ChatMessage) :
    x ∈ v.allMsgs ↔ Holds cd d x ∧ x ∉ v.missed := by
  rw [← h.shown]
  constructor
  · exact fun hx => ⟨Or.inl hx,fun hm => (h.apart x hm).1 hx⟩
  · rintro ⟨hx | hx | hx,hm⟩
    · exact hx
    · exact absurd hx hm
    · cases hx

end Views

theorem shows_new : Shows cd (Process.new : Process I C S) none none [] where
  opened _ := ⟨rfl,rfl⟩
  loads := by simp [Process.new]
  pending := by simp [Process.new]
  sent := by simp
  once := List.nodup_nil
  listed := by simp
  subscribed := by simp

variable {p : Process I C S} {listed subscribed : Option ReceiverView} {returned : List ChatMessage}
  {repo : ChatRepository C S}

/-- A step that starts or ends nothing that changes what is known. -/
theorem Shows.of_known {q : Process I C S} (h : Shows cd p listed subscribed returned)
    (hopen : q.repo = none → listed = none ∧ subscribed = none) (hloads : ∀ load, q.activity ≠ .resetting load)
    (hpending : ∀ call, q.activity = .persisting call → PendingIn cd q.doc call) (hk : known q = known p) :
    Shows cd q listed subscribed returned :=
  ⟨hopen,hloads,hpending,hk ▸ h.sent,h.once,hk ▸ h.listed,hk ▸ h.subscribed⟩

private theorem shows_idle (hsent : ∀ msg ∈ returned, Holds cd repo.doc msg) (honce : returned.Nodup)
    (hlisted : ∀ v ∈ listed, v.Shows cd repo.doc returned) (hsubscribed : ∀ v ∈ subscribed, v.Shows cd repo.doc returned) :
    Shows cd ⟨some repo,(.idle : Activity I C)⟩ listed subscribed returned :=
  ⟨fun h => (by cases h),fun _ h => (by cases h),fun _ h => (by cases h),hsent,honce,hlisted,hsubscribed⟩

theorem Shows.begins_add (h : Shows cd ⟨some repo,(.idle : Activity I C)⟩ listed subscribed returned) {c : C}
    {msg : ChatMessage} (hc : c ∉ repo.doc) (hmsg : cd.message? c = some msg) :
    Shows cd ⟨some (repo.transact c),(.persisting (.addMessage msg c) : Activity I C)⟩ listed subscribed returned := by
  refine h.of_known (fun hn => (by cases hn)) (fun _ hl => (by cases hl)) (fun call hcall => ?_)
    (Finset.erase_insert hc)
  cases hcall
  exact ⟨Finset.mem_insert_self c repo.doc,hmsg⟩

theorem Shows.begins_receive (h : Shows cd ⟨some repo,(.idle : Activity I C)⟩ listed subscribed returned)
    {repo' : ChatRepository C S} (hclosed : cd.graph.Closed repo.doc) (hgrow : repo.doc ⊆ repo'.doc) :
    Shows cd ⟨some repo',(.persisting (.receiveSyncMessage repo.doc) : Activity I C)⟩ listed subscribed returned := by
  refine h.of_known (fun hn => (by cases hn)) (fun _ hl => (by cases hl)) (fun call hcall => ?_) rfl
  cases hcall
  exact ⟨hclosed,hgrow⟩

theorem added_eq (chatId : I) {t : Tables I C} {msg : ChatMessage} {c : C} :
    added cd chatId t ⟨some repo,.persisting (.addMessage msg c)⟩ = [msg] ∧
    (repo.persistAndGenerate cd.toAutomerge chatId true msg t).2.2.doc = repo.doc := by
  have hok := repo.persistChat_ok cd.toAutomerge chatId rfl t
  have hdoc := repo.persistChat_doc cd.toAutomerge chatId true t
  simp only [added,ChatRepository.persistAndGenerate,hok,true_and]
  exact hdoc

theorem extracted_eq (chatId : I) (hpatch : cd.PatchesEntries) {t : Tables I C} {before : Finset C}
    (hm : cd.Merges before repo.doc) (hb : Listed cd before) (ha : Listed cd repo.doc) :
    (∀ msg, msg ∈ extracted cd chatId t ⟨some repo,.persisting (.receiveSyncMessage before)⟩ ↔
      Holds cd (repo.doc \ before) msg) ∧
    (repo.persistAndExtract cd.toAutomerge chatId true before t).2.2.doc = repo.doc := by
  have hok := repo.persistChat_ok cd.toAutomerge chatId rfl t
  have hdoc := repo.persistChat_doc cd.toAutomerge chatId true t
  obtain ⟨msgs,hmsgs,hmem⟩ := mem_extracted hpatch hm hb ha
  simp only [extracted,ChatRepository.persistAndExtract,hok,hdoc,hmsgs]
  exact ⟨hmem,hdoc⟩

/-- A part of a document and the rest of it hold different messages. -/
theorem Listed.holds_split {d before : Finset C} (h : Listed cd d) (hsub : before ⊆ d) :
    (∀ x, Holds cd d x ↔ Holds cd before x ∨ Holds cd (d \ before) x) ∧
    ∀ x, Holds cd (d \ before) x → ¬Holds cd before x := by
  constructor
  · intro x
    constructor
    · rintro ⟨c,hc,hx⟩
      by_cases hb : c ∈ before
      · exact Or.inl ⟨c,hb,hx⟩
      · exact Or.inr ⟨c,Finset.mem_sdiff.mpr ⟨hc,hb⟩,hx⟩
    · rintro (⟨c,hc,hx⟩ | ⟨c,hc,hx⟩)
      · exact ⟨c,hsub hc,hx⟩
      · exact ⟨c,(Finset.mem_sdiff.mp hc).1,hx⟩
  · rintro x ⟨c,hc,hx⟩ ⟨c',hc',hx'⟩
    obtain ⟨hin,hout⟩ := Finset.mem_sdiff.mp hc
    have hsame := h.distinct c hin c' (hsub hc') x hx x hx' rfl
    exact hout (hsame ▸ hc')

/-- The call has written its row and returns its message. -/
theorem Shows.adds {msg : ChatMessage} {c : C} {repo' : ChatRepository C S}
    (h : Shows cd ⟨some repo,(.persisting (.addMessage msg c) : Activity I C)⟩ listed subscribed returned)
    (hdoc : repo'.doc = repo.doc) (hl : Listed cd repo.doc) :
    Shows cd ⟨some repo',(.idle : Activity I C)⟩ listed subscribed (returned++[msg]) := by
  obtain ⟨hc,hmsg⟩ : c ∈ repo.doc ∧ cd.message? c = some msg := h.pending _ rfl
  obtain ⟨hsplit,hdisjoint⟩ := hl.holds_split (Finset.erase_subset c repo.doc)
  have hrest : ∀ x, Holds cd (repo.doc \ repo.doc.erase c) x ↔ x = msg := by
    intro x
    rw [Finset.sdiff_erase_self hc]
    constructor
    · rintro ⟨c',hc',hx⟩
      rw [Finset.mem_singleton.mp hc'] at hx
      exact Option.some.inj (hx.symm.trans hmsg)
    · rintro rfl
      exact ⟨c,Finset.mem_singleton_self c,hmsg⟩
  have hknown : ∀ x, Holds cd repo'.doc x ↔ Holds cd (repo.doc.erase c) x ∨ x = msg := fun x => by
    rw [hdoc,hsplit,hrest]
  have hnew : ¬Holds cd (repo.doc.erase c) msg := hdisjoint msg ((hrest msg).mpr rfl)
  refine shows_idle (fun x hx => ?_) ?_ (fun v hv => (h.listed v hv).append hknown hnew)
    (fun v hv => (h.subscribed v hv).append hknown hnew)
  · exact (hknown x).mpr ((List.mem_append.mp hx).imp (h.sent x) List.mem_singleton.mp)
  · refine List.nodup_append.mpr ⟨h.once,List.nodup_singleton msg,fun x hx y hy he => hnew ?_⟩
    rw [← List.mem_singleton.mp hy,← he]
    exact h.sent x hx

/-- The call has written its row and hands what it has extracted to the receiver. -/
theorem Shows.receives {before : Finset C} {repo' : ChatRepository C S}
    (h : Shows cd ⟨some repo,(.persisting (.receiveSyncMessage before) : Activity I C)⟩ listed subscribed returned)
    (hdoc : repo'.doc = repo.doc) (hl : Listed cd repo.doc) {msgs : List ChatMessage}
    (hmsgs : ∀ msg, msg ∈ msgs ↔ Holds cd (repo.doc \ before) msg) :
    Shows cd ⟨some repo',(.idle : Activity I C)⟩ (listed.map (·.miss msgs)) (subscribed.map (·.tell msgs)) returned := by
  obtain ⟨-,hgrow⟩ := h.pending _ rfl
  obtain ⟨hsplit,hdisjoint⟩ := hl.holds_split hgrow
  have hknown : ∀ x, Holds cd repo'.doc x ↔ Holds cd before x ∨ x ∈ msgs := fun x => by rw [hdoc,hsplit,hmsgs]
  have hnew : ∀ x ∈ msgs, ¬Holds cd before x := fun x hx => hdisjoint x ((hmsgs x).mp hx)
  refine shows_idle (fun x hx => (hknown x).mpr (Or.inl (h.sent x hx))) h.once ?_ ?_
  · intro next hnext
    obtain ⟨v,hv,rfl⟩ := Option.map_eq_some_iff.mp hnext
    exact (h.listed v hv).miss_new hknown hnew
  · intro next hnext
    obtain ⟨v,hv,rfl⟩ := Option.map_eq_some_iff.mp hnext
    exact (h.subscribed v hv).tell (hdoc.symm ▸ hl.injective) hknown hnew

theorem Shows.known_subset (h : Shows cd p listed subscribed returned) : known p ⊆ p.doc := by
  unfold known
  split
  · exact Finset.erase_subset _ _
  · rename_i ha
    exact (h.pending _ ha).2
  · exact Finset.Subset.refl _

/-- The caller of send_message adds its message to the list of the subscribed receiver. -/
theorem Shows.collects {v : ReceiverView} {rest : List ChatMessage} {msg : ChatMessage}
    (h : Shows cd p listed (some v) (msg::rest)) (hl : Listed cd p.doc) :
    Shows cd p (listed.map (·.miss [msg])) (some (v.collect msg)) rest := by
  have hin : ∀ x, Holds cd (known p) x → Holds cd p.doc x := fun x ⟨c,hc,hx⟩ => ⟨c,h.known_subset hc,hx⟩
  obtain ⟨honce,hrest⟩ := List.nodup_cons.mp h.once
  refine ⟨fun hn => (by cases (h.opened hn).2),h.loads,h.pending,fun x hx => h.sent x (List.mem_cons_of_mem msg hx),
    hrest,?_,?_⟩
  · intro next hnext
    obtain ⟨w,hw,rfl⟩ := Option.map_eq_some_iff.mp hnext
    exact (h.listed w hw).miss_sent honce
  · intro next hnext
    cases hnext
    exact (h.subscribed v rfl).collect (fun a b ha hb => hl.injective a b (hin a ha) (hin b hb))

/-- The listing between two calls. -/
theorem Shows.lists (h : Shows cd ⟨some repo,(.idle : Activity I C)⟩ listed subscribed returned)
    {all : List ChatMessage} (hnodup : (all.map ChatMessage.id).Nodup) (hall : ∀ msg, msg ∈ all ↔ Holds cd repo.doc msg) :
    Shows cd ⟨some repo,(.idle : Activity I C)⟩ (some ⟨all,[]⟩) subscribed returned := by
  refine shows_idle h.sent h.once (fun v hv => ?_) h.subscribed
  cases hv
  refine ⟨hnodup,fun x => ?_,fun x hx => (by cases hx)⟩
  rw [hall]
  exact or_iff_left_of_imp (fun hx => hx.elim (fun hx => (by cases hx)) (h.sent x))

/-- The receiver that was listed takes the place of the one before. -/
theorem Shows.subscribes {v : ReceiverView} (h : Shows cd p (some v) subscribed returned) :
    Shows cd p none (some v) returned where
  opened hn := by cases (h.opened hn).1
  loads := h.loads
  pending := h.pending
  sent := h.sent
  once := h.once
  listed _ hw := by cases hw
  subscribed := h.listed

section Steps
variable [DecidableEq I] {chatId : I} {t t' : Tables I C} {q : Process I C S} {r : Option (Returned C)}

theorem Shows.step_open (h : Shows cd p listed subscribed returned)
    (hs : p.step cd.toAutomerge chatId t .open = some (t',q,r)) : Shows cd q listed subscribed returned := by
  obtain ⟨repo,activity⟩ := p
  simp only [Process.step] at hs
  split at hs <;> cases hs
  exact h.of_known h.opened (fun _ hl => (by cases hl)) (fun _ hc => (by cases hc)) rfl

theorem Shows.step_add (h : Shows cd p listed subscribed returned) {msg : ChatMessage} {c : C}
    (hclosed : cd.graph.Closed p.doc) (hmsg : cd.message? c = some msg)
    (hs : p.step cd.toAutomerge chatId t (.addMessage msg (some c)) = some (t',q,r)) :
    Shows cd q listed subscribed returned := by
  obtain ⟨repo,activity⟩ := p
  simp only [Process.step] at hs
  split at hs
  · rename_i repo c' hcommit
    split at hs <;> cases hs
    rename_i hdeps
    cases hcommit
    refine h.begins_add (cd.graph.notMem_of_deps_heads ?_) hmsg
    exact hdeps.trans (cd.getHeads_of_closed hclosed)
  · rename_i hcommit
    cases hcommit
  · cases hs

theorem Shows.step_receive (h : Shows cd p listed subscribed returned) {m : M} (hclosed : cd.graph.Closed p.doc)
    (hm : cd.graph.Closed (cd.carried m))
    (hs : p.step cd.toAutomerge chatId t (.receiveSyncMessage (some m)) = some (t',q,r)) :
    Shows cd q listed subscribed returned := by
  obtain ⟨repo,activity⟩ := p
  simp only [Process.step] at hs
  split at hs
  · rename_i repo m' hsome
    cases hsome
    have happlied : (repo.applySyncMessage cd.toAutomerge m).1.doc = repo.doc ∪ cd.carried m ∧
        (repo.applySyncMessage cd.toAutomerge m).2 = true := by
      simp only [ChatRepository.applySyncMessage,cd.receive_merges _ _ _ hm,and_self]
    rw [if_pos happlied.2] at hs
    cases hs
    refine h.begins_receive hclosed ?_
    rw [happlied.1]
    exact Finset.subset_union_left
  · rename_i hsome
    cases hsome
  · cases hs

omit [DecidableEq I] in
/-- A peer that is being opened has no receiver and nothing that it could show. -/
private theorem Shows.nothing {load : LoadState I C} (h : Shows cd ⟨none,.opening load⟩ listed subscribed returned) :
    listed = none ∧ subscribed = none ∧ returned = [] := by
  obtain ⟨hlisted,hsubscribed⟩ := h.opened rfl
  refine ⟨hlisted,hsubscribed,List.eq_nil_iff_forall_not_mem.mpr (fun msg hmsg => ?_)⟩
  obtain ⟨c,hc,-⟩ := h.sent msg hmsg
  cases hc

omit [DecidableEq I] in
private theorem shows_resumeOpen (load : LoadState I C) :
    Shows cd (Process.resumeOpen cd.toAutomerge load : Process I C S × Option (Returned C)).1 none none [] := by
  cases load <;> exact ⟨fun _ => ⟨rfl,rfl⟩,fun _ hl => (by cases hl),fun _ hc => (by cases hc),
    fun _ hm => (by cases hm),List.nodup_nil,fun _ hm => (by cases hm),fun _ hm => (by cases hm)⟩

/-- A statement of a peer to which nothing fails: of a load, or the INSERT of a call. -/
theorem Shows.step_sql (hpatch : cd.PatchesEntries) (h : Shows cd p listed subscribed returned) {initial : C}
    (hlisted : ∀ d, cd.graph.Closed d → d ⊆ p.doc → Listed cd d) (hclosed : cd.graph.Closed p.doc)
    (hs : p.step cd.toAutomerge chatId t (.sql true initial) = some (t',q,r)) :
    Shows cd q (listed.map (·.miss (extracted cd chatId t p))) (subscribed.map (·.tell (extracted cd chatId t p)))
      (returned++added cd chatId t p) := by
  obtain ⟨repo,activity⟩ := p
  simp only [Process.step] at hs
  split at hs
  · split at hs
    · rename_i load
      obtain ⟨rfl,rfl,rfl⟩ := h.nothing
      simp only [Option.some.injEq,Prod.mk.injEq] at hs
      have hq : (Process.resumeOpen cd.toAutomerge (loadStep cd.toAutomerge chatId true initial t load).2).1 = q :=
        congrArg Prod.fst hs.2
      rw [← hq]
      exact shows_resumeOpen _
    · rename_i load repo
      exact absurd rfl (h.loads load)
    · rename_i msg c repo
      cases hs
      obtain ⟨hadded,hdoc⟩ : added cd chatId t ⟨some repo,.persisting (.addMessage msg c)⟩ = [msg] ∧
          (repo.persistAndGenerate cd.toAutomerge chatId true msg t).2.2.doc = repo.doc := added_eq chatId
      have hnone : extracted cd chatId t ⟨some repo,.persisting (.addMessage msg c)⟩ = [] := rfl
      have hmiss : (fun v : ReceiverView => v.miss []) = id := funext fun v => by simp [ReceiverView.miss]
      have htell : (fun v : ReceiverView => v.tell []) = id := rfl
      rw [hadded,hnone,hmiss,htell,Option.map_id,id,id]
      exact h.adds hdoc (hlisted repo.doc hclosed (Finset.Subset.refl _))
    · rename_i before repo
      cases hs
      obtain ⟨hbefore,hgrow⟩ := h.pending _ rfl
      have hl : Listed cd repo.doc := hlisted repo.doc hclosed (Finset.Subset.refl _)
      obtain ⟨hmsgs,hdoc⟩ := extracted_eq (t := t) chatId hpatch ⟨hbefore,hclosed,hgrow⟩
        (hlisted before hbefore hgrow) hl
      rw [show added cd chatId t ⟨some repo,.persisting (.receiveSyncMessage before)⟩ = [] from rfl,List.append_nil]
      exact h.receives hdoc hl hmsgs
    · cases hs
  · cases hs

end Steps
end Side

end GossipCore.Manager
