import GossipCore.Base.TailMerge
import GossipCore.Persistence.Automerge

/-! Reading messages out of a document: the per-peer lists of the schema, the
paginated listing and the extraction of new messages from patches. -/
namespace GossipCore.Persistence
open Base

inductive LibError where
  | sqlx
  | automerge
  | unexpected (message : String)
  deriving DecidableEq, Repr

namespace Keys

def listPrefix : String := "msgs_"

end Keys

/-- Every usize of the supported targets is 64 bits wide. -/
def usizeMax : Nat := 2^64-1

namespace Schema
variable {C S M O : Type} (am : Automerge C S M O)

def peerListKey (peerId : String) : String := Keys.listPrefix++peerId

/-- The rest of a key after the prefix of message lists. -/
def stripListPrefix (key : String) : Option String :=
  if Keys.listPrefix.toList.isPrefixOf key.toList then
    some (String.ofList (key.toList.drop Keys.listPrefix.length))
  else none

def getAllPeerLists (doc : Doc C) : List O :=
  (am.rootKeys doc).filterMap (fun key =>
    match stripListPrefix key with
    | some _ => am.getRoot doc key
    | none => none)

def getPeerList (doc : Doc C) (peerId : String) : Option O := am.getRoot doc (peerListKey peerId)

theorem mem_getAllPeerLists {doc : Doc C} {list : O} :
    list ∈ getAllPeerLists am doc ↔
      ∃ key ∈ am.rootKeys doc, (stripListPrefix key).isSome ∧ am.getRoot doc key = some list := by
  simp only [getAllPeerLists,List.mem_filterMap]
  refine exists_congr (fun key => and_congr_right (fun _ => ?_))
  cases stripListPrefix key <;> simp

end Schema

section Traversal
variable {α β γ : Type} {f : α → Except LibError β}

theorem mapM_cons_ok {x : α} {xs : List α} {ys : List β} (h : (x::xs).mapM f = .ok ys) :
    ∃ y rest, f x = .ok y ∧ xs.mapM f = .ok rest ∧ ys = y::rest := by
  rw [List.mapM_cons] at h
  cases hx : f x with
  | error e =>
    rw [hx] at h
    cases h
  | ok y =>
    cases hxs : xs.mapM f with
    | error e =>
      rw [hx,hxs] at h
      cases h
    | ok rest =>
      rw [hx,hxs] at h
      cases h
      exact ⟨y,rest,rfl,rfl,rfl⟩

theorem mapM_ok_length {xs : List α} {ys : List β} (h : xs.mapM f = .ok ys) : ys.length = xs.length := by
  induction xs generalizing ys with
  | nil =>
    cases h
    rfl
  | cons x xs ih =>
    obtain ⟨y,rest,-,hrest,rfl⟩ := mapM_cons_ok h
    rw [List.length_cons,List.length_cons,ih hrest]

theorem mapM_ok_drop {xs : List α} {ys : List β} (h : xs.mapM f = .ok ys) (n : Nat) :
    (xs.drop n).mapM f = .ok (ys.drop n) := by
  induction xs generalizing ys n with
  | nil =>
    cases h
    cases n <;> rfl
  | cons x xs ih =>
    cases n with
    | zero => exact h
    | succ n =>
      obtain ⟨y,rest,-,hrest,rfl⟩ := mapM_cons_ok h
      exact ih hrest n

/-- A second traversal whose results follow from those of the first. -/
theorem mapM_ok_map {xs : List α} {ys : List β} (h : xs.mapM f = .ok ys) {g : α → Except LibError γ} {k : β → γ}
    (hk : ∀ x ∈ xs, ∀ y, f x = .ok y → g x = .ok (k y)) : xs.mapM g = .ok (ys.map k) := by
  induction xs generalizing ys with
  | nil =>
    cases h
    rfl
  | cons x xs ih =>
    obtain ⟨y,rest,hx,hrest,rfl⟩ := mapM_cons_ok h
    rw [List.mapM_cons,hk x List.mem_cons_self y hx,ih hrest (fun z hz => hk z (List.mem_cons_of_mem x hz))]
    rfl

/-- A traversal that succeeds has a result for each element and no other results. -/
theorem mapM_ok_mem {xs : List α} {ys : List β} (h : xs.mapM f = .ok ys) :
    (∀ x ∈ xs, ∃ y ∈ ys, f x = .ok y) ∧ ∀ y ∈ ys, ∃ x ∈ xs, f x = .ok y := by
  induction xs generalizing ys with
  | nil =>
    cases h
    exact ⟨fun _ hx => (by cases hx),fun _ hy => by cases hy⟩
  | cons x xs ih =>
    obtain ⟨y,rest,hx,hrest,rfl⟩ := mapM_cons_ok h
    obtain ⟨hto,hfrom⟩ := ih hrest
    constructor
    · intro a ha
      rcases List.mem_cons.mp ha with rfl | ha
      · exact ⟨y,List.mem_cons_self,hx⟩
      · obtain ⟨b,hb,hab⟩ := hto a ha
        exact ⟨b,List.mem_cons_of_mem y hb,hab⟩
    · intro b hb
      rcases List.mem_cons.mp hb with rfl | hb
      · exact ⟨x,List.mem_cons_self,hx⟩
      · obtain ⟨a,ha,hab⟩ := hfrom b hb
        exact ⟨a,List.mem_cons_of_mem x ha,hab⟩

theorem mapM_ok {g : α → β} {xs : List α} (h : ∀ x ∈ xs, f x = .ok (g x)) : xs.mapM f = .ok (xs.map g) := by
  induction xs with
  | nil => rfl
  | cons x xs ih =>
    rw [List.mapM_cons,h x List.mem_cons_self,ih (fun y hy => h y (List.mem_cons_of_mem x hy))]
    rfl

theorem mapM_ok_iff {xs : List α} : (∃ ys, xs.mapM f = .ok ys) ↔ ∀ x ∈ xs, ∃ y, f x = .ok y := by
  constructor
  · rintro ⟨ys,h⟩ x hx
    obtain ⟨y,-,hy⟩ := (mapM_ok_mem h).1 x hx
    exact ⟨y,hy⟩
  · intro h
    induction xs with
    | nil => exact ⟨[],rfl⟩
    | cons x xs ih =>
      obtain ⟨y,hy⟩ := h x List.mem_cons_self
      obtain ⟨ys,hys⟩ := ih (fun z hz => h z (List.mem_cons_of_mem x hz))
      refine ⟨y::ys,?_⟩
      rw [List.mapM_cons,hy,hys]
      rfl

end Traversal

section Listing
variable {C S M O : Type} (am : Automerge C S M O)

def hydrateMessageAtIndex (doc : Doc C) (list : O) (idx : Nat) : Except LibError ChatMessage :=
  match am.hydrateMessage doc list idx with
  | some msg => .ok msg
  | none => .error .automerge

/-- Creation time first, then the message id. -/
def messageLe (a b : ChatMessage) : Bool :=
  decide (a.createdAt < b.createdAt) || (decide (a.createdAt = b.createdAt) && decide (a.id ≤ b.id))

/-- The last fetchDepth entries of one list. -/
def listTail (doc : Doc C) (fetchDepth : Nat) (list : O) : Except LibError (List ChatMessage) :=
  let len := am.length doc list
  ((List.range len).drop (len-fetchDepth)).mapM (hydrateMessageAtIndex am doc list)

/-- The offset is counted from the most recent message. -/
def getMessages (doc : Doc C) (offset limit : Nat) : Except LibError (List ChatMessage) := do
  let fetchDepth := (offset+limit) % 2^64
  let tails ← (Schema.getAllPeerLists am doc).mapM (listTail am doc fetchDepth)
  let candidates := tails.flatten.mergeSort messageLe
  let last := candidates.length-offset
  let start := last-limit
  if start ≥ last then return []
  return (candidates.take last).drop start

def getAllMessages (doc : Doc C) : Except LibError (List ChatMessage) :=
  getMessages am doc 0 (usizeMax-1)

/-- The message that a patch points into, if its path runs through an entry of a
message list that the document has. -/
def patchedMessage (doc : Doc C) (patch : Patch O) : Except LibError (Option ChatMessage) :=
  match patch.path with
  | (_,.map key) :: (_,.seq index) :: _ =>
    match Schema.stripListPrefix key with
    | some peerIdSuffix =>
      match Schema.getPeerList am doc peerIdSuffix with
      | some list => (hydrateMessageAtIndex am doc list index).map some
      | none => .ok none
    | none => .ok none
  | _ => .ok none

def extractNewMessagesFromPatches (doc : Doc C) (patches : List (Patch O)) :
    Except LibError (List ChatMessage) := do
  let found ← patches.mapM (patchedMessage am doc)
  return (found.filterMap id).mergeSort (fun a b => decide (a.createdAt ≤ b.createdAt))

/-- The messages that can be read from the lists of the document, in no particular order. -/
def listing (doc : Doc C) : List ChatMessage :=
  (Schema.getAllPeerLists am doc).flatMap (fun list =>
    (List.range (am.length doc list)).filterMap (am.hydrateMessage doc list))

theorem hydrateMessageAtIndex_ok {doc : Doc C} {list : O} {idx : Nat} {msg : ChatMessage} :
    hydrateMessageAtIndex am doc list idx = .ok msg ↔ am.hydrateMessage doc list idx = some msg := by
  unfold hydrateMessageAtIndex
  cases am.hydrateMessage doc list idx <;> simp

private theorem mem_listing_of_listTail {doc : Doc C} {depth : Nat} {list : O} {tail : List ChatMessage}
    (hl : list ∈ Schema.getAllPeerLists am doc) (h : listTail am doc depth list = .ok tail)
    {msg : ChatMessage} (hm : msg ∈ tail) : msg ∈ listing am doc := by
  obtain ⟨idx,hidx,hmsg⟩ := (mapM_ok_mem h).2 msg hm
  refine List.mem_flatMap.mpr ⟨list,hl,List.mem_filterMap.mpr ⟨idx,List.mem_of_mem_drop hidx,?_⟩⟩
  exact (hydrateMessageAtIndex_ok am).mp hmsg

/-- A page of messages has nothing that is not in some list. -/
theorem mem_listing_of_getMessages {doc : Doc C} {offset limit : Nat} {msgs : List ChatMessage}
    (h : getMessages am doc offset limit = .ok msgs) {msg : ChatMessage} (hm : msg ∈ msgs) :
    msg ∈ listing am doc := by
  unfold getMessages at h
  cases ht : (Schema.getAllPeerLists am doc).mapM (listTail am doc ((offset+limit)%2^64)) with
  | error e =>
    simp only [ht] at h
    cases h
  | ok tails =>
    simp only [ht,bind,Except.bind,pure,Except.pure] at h
    have hsub : msg ∈ tails.flatten := by
      split at h
      · cases h
        cases hm
      · cases h
        exact List.mem_mergeSort.mp (List.mem_of_mem_take (List.mem_of_mem_drop hm))
    obtain ⟨tail,htail,hmsg⟩ := List.mem_flatten.mp hsub
    obtain ⟨list,hlist,hl⟩ := (mapM_ok_mem ht).2 tail htail
    exact mem_listing_of_listTail am hlist hl hmsg

/-- All entries of all lists, list by list. -/
def readLists (doc : Doc C) : Except LibError (List (List ChatMessage)) :=
  (Schema.getAllPeerLists am doc).mapM (fun list =>
    (List.range (am.length doc list)).mapM (hydrateMessageAtIndex am doc list))

/-- A page is cut out of the merged tails of the lists. -/
theorem getMessages_eq {doc : Doc C} {lists : List (List ChatMessage)} (hread : readLists am doc = .ok lists)
    {offset limit : Nat} (hsum : offset+limit ≤ usizeMax) :
    getMessages am doc offset limit = .ok (((mergedTails messageLe lists (offset+limit)).rdrop offset).rtake limit) := by
  have hdepth : (offset+limit)%2^64 = offset+limit := Nat.mod_eq_of_lt (by rw [usizeMax] at hsum; omega)
  have htails : (Schema.getAllPeerLists am doc).mapM (listTail am doc (offset+limit)) =
      .ok (lists.map (fun l => l.rtake (offset+limit))) := by
    refine mapM_ok_map hread (fun list _ msgs hmsgs => ?_)
    have hlen := mapM_ok_length hmsgs
    rw [List.length_range] at hlen
    rw [listTail,mapM_ok_drop hmsgs,List.rtake,hlen]
  rw [getMessages,hdepth,htails]
  simp only [bind,Except.bind,pure,Except.pure,mergedTails]
  generalize ((lists.map (fun l => l.rtake (offset+limit))).flatten).mergeSort messageLe = candidates
  have hslice : (candidates.rdrop offset).rtake limit =
      (candidates.take (candidates.length-offset)).drop (candidates.length-offset-limit) := by
    rw [List.rtake,List.rdrop,List.length_take,Nat.min_eq_left (Nat.sub_le _ _)]
  rw [hslice]
  split
  · rename_i hempty
    rw [List.drop_of_length_le ((List.length_take_le _ _).trans hempty)]
  · rfl

/-- The whole listing is the merge of all entries. -/
theorem getAllMessages_eq {doc : Doc C} {lists : List (List ChatMessage)} (hread : readLists am doc = .ok lists)
    (hfits : lists.flatten.length ≤ usizeMax-1) :
    getAllMessages am doc = .ok (lists.flatten.mergeSort messageLe) := by
  rw [getAllMessages,getMessages_eq am hread (by decide),Nat.zero_add,mergedTails_of_length_le hfits,
    List.rdrop_zero,rtake_of_length_le]
  rw [List.length_mergeSort]
  exact hfits

theorem peerListKey_of_stripListPrefix {key peerId : String} (h : Schema.stripListPrefix key = some peerId) :
    Schema.peerListKey peerId = key := by
  unfold Schema.stripListPrefix at h
  split at h
  · rename_i hp
    cases h
    obtain ⟨rest,hrest⟩ := List.isPrefixOf_iff_prefix.mp hp
    apply String.toList_inj.mp
    rw [Schema.peerListKey,String.toList_append,String.toList_ofList,← hrest,← String.length_toList,
      List.drop_left]
  · cases h

/-- Extraction returns the entry that a patch runs through. -/
theorem mem_extractNewMessages {doc : Doc C} {patches : List (Patch O)} {msgs : List ChatMessage}
    (h : extractNewMessagesFromPatches am doc patches = .ok msgs) {patch : Patch O} (hp : patch ∈ patches)
    {o o' : O} {key : String} {idx : Nat} {rest : List (O × PathProp)}
    (hpath : patch.path = (o,.map key)::(o',.seq idx)::rest) (hkey : (Schema.stripListPrefix key).isSome)
    {list : O} (hlist : am.getRoot doc key = some list) {msg : ChatMessage}
    (hmsg : am.hydrateMessage doc list idx = some msg) : msg ∈ msgs := by
  obtain ⟨peerId,hpeer⟩ := Option.isSome_iff_exists.mp hkey
  have hpatched : patchedMessage am doc patch = .ok (some msg) := by
    have hroot : Schema.getPeerList am doc peerId = some list := by
      rw [Schema.getPeerList,peerListKey_of_stripListPrefix hpeer,hlist]
    simp only [patchedMessage,hpath,hpeer,hroot,(hydrateMessageAtIndex_ok am).mpr hmsg]
    rfl
  unfold extractNewMessagesFromPatches at h
  cases hf : patches.mapM (patchedMessage am doc) with
  | error e =>
    rw [hf] at h
    cases h
  | ok found =>
    rw [hf] at h
    cases h
    obtain ⟨y,hy,he⟩ := (mapM_ok_mem hf).1 patch hp
    cases hpatched.symm.trans he
    exact List.mem_mergeSort.mpr (List.mem_filterMap.mpr ⟨some msg,hy,rfl⟩)

end Listing
end GossipCore.Persistence
