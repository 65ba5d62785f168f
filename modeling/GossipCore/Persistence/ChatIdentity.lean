import GossipCore.Persistence.CreationRace
import GossipCore.Persistence.Messages
import Mathlib.Data.Char
import Mathlib.Data.List.Destutter

/-! The key of a chat in the tables: both ids in order, joined by an underscore. The
listing of remote peers takes the keys apart again. -/
namespace GossipCore.Persistence

/-- Display and FromStr of a type whose texts parse back. -/
structure TextForm (α : Type) where
  display : α → String
  fromStr : String → Option α
  fromStr_display : ∀ a, fromStr (display a) = some a

theorem TextForm.display_inj {α : Type} (form : TextForm α) {a b : α} (h : form.display a = form.display b) :
    a = b :=
  Option.some.inj ((form.fromStr_display a).symm.trans (h ▸ form.fromStr_display b))

/-- The text form of EndpointId, which is free of underscores. -/
structure EndpointIds (E : Type) extends TextForm E where
  display_underscore : ∀ e, '_' ∉ (display e).toList

structure ChatId (E : Type) where
  myId : E
  remoteId : E
  deriving DecidableEq, Repr

section Keys
variable {E : Type} [LinearOrder E] (ids : EndpointIds E)

/-- Display of ChatId: the two ids are sorted first. -/
def ChatId.display (id : ChatId E) : String :=
  ids.display (min id.myId id.remoteId)++"_"++ids.display (max id.myId id.remoteId)

def splitOnceList (sep : Char) : List Char → Option (List Char × List Char)
  | [] => none
  | c::cs => if c = sep then some ([],cs) else (splitOnceList sep cs).map (fun parts => (c::parts.1,parts.2))

/-- str::split_once: what stands before and after the first separator. -/
def splitOnce (sep : Char) (s : String) : Option (String × String) :=
  (splitOnceList sep s.toList).map (fun parts => (String.ofList parts.1,String.ofList parts.2))

/-- The text of the remote id in a key, or none where the loop goes on to the next row:
the chat with oneself, a key without the own id, a key that is no pair. -/
def remoteIdStr (myIdStr chatId : String) : Option String :=
  match splitOnce '_' chatId with
  | some (first,second) =>
    match decide (first = myIdStr), decide (second = myIdStr) with
    | true, false => some second
    | false, true => some first
    | true, true => none
    | false, false => none
  | none => none

def parseRemoteId (remoteIdStr : String) : Except LibError E :=
  match ids.fromStr remoteIdStr with
  | some e => .ok e
  | none => .error (.unexpected ("Expected to parse EndpointId from string. Value: "++remoteIdStr))

/-- Vec::dedup drops repetitions of neighbours only, which is enough after the sort. -/
def listChatsRemotePeersIds (myId : E) (chatIds : List String) : Except LibError (List E) := do
  let peerIds ← (chatIds.filterMap (remoteIdStr (ids.display myId))).mapM (parseRemoteId ids)
  return (peerIds.mergeSort (fun a b => decide (a ≤ b))).destutter (· ≠ ·)

private theorem splitOnceList_append {sep : Char} {a b : List Char} (h : sep ∉ a) :
    splitOnceList sep (a++sep::b) = some (a,b) := by
  induction a with
  | nil => simp [splitOnceList]
  | cons c cs ih =>
    obtain ⟨hc,hcs⟩ := not_or.mp (mt List.mem_cons.mpr h)
    simp [splitOnceList,Ne.symm hc,ih hcs]

theorem splitOnce_display (id : ChatId E) : splitOnce '_' (id.display ids) =
    some (ids.display (min id.myId id.remoteId),ids.display (max id.myId id.remoteId)) := by
  have hlist : (id.display ids).toList =
      (ids.display (min id.myId id.remoteId)).toList++ '_'::(ids.display (max id.myId id.remoteId)).toList := by
    simp [ChatId.display,String.toList_append]
  simp [splitOnce,hlist,splitOnceList_append (ids.display_underscore _)]

theorem ChatId.display_swap (a b : E) : (ChatId.mk a b).display ids = (ChatId.mk b a).display ids := by
  simp [ChatId.display,min_comm a b,max_comm a b]

omit ids in
private theorem pair_eq_of_min_max {a b c d : E} (hmin : min a b = min c d) (hmax : max a b = max c d) :
    (a = c ∧ b = d) ∨ (a = d ∧ b = c) := by
  rcases le_total a b with hab | hab <;> rcases le_total c d with hcd | hcd <;>
    simp only [min_eq_left,min_eq_right,max_eq_left,max_eq_right,hab,hcd] at hmin hmax
  · exact Or.inl ⟨hmin,hmax⟩
  · exact Or.inr ⟨hmin,hmax⟩
  · exact Or.inr ⟨hmax,hmin⟩
  · exact Or.inl ⟨hmax,hmin⟩

/-- Two chats share a key exactly when they are between the same two peers. -/
theorem ChatId.display_eq_iff (a b : ChatId E) : a.display ids = b.display ids ↔
    (a.myId = b.myId ∧ a.remoteId = b.remoteId) ∨ (a.myId = b.remoteId ∧ a.remoteId = b.myId) := by
  constructor
  · intro h
    have hparts := (splitOnce_display ids a).symm.trans (h ▸ splitOnce_display ids b)
    obtain ⟨hmin,hmax⟩ := Prod.mk.inj (Option.some.inj hparts)
    exact pair_eq_of_min_max (ids.display_inj hmin) (ids.display_inj hmax)
  · obtain ⟨x,y⟩ := a
    obtain ⟨z,w⟩ := b
    rintro (⟨rfl,rfl⟩ | ⟨rfl,rfl⟩)
    · rfl
    · exact ChatId.display_swap ids _ _

/-- The remote id is found on either side of the underscore. -/
theorem remoteIdStr_display {myId remoteId : E} (h : remoteId ≠ myId) :
    remoteIdStr (ids.display myId) ((ChatId.mk myId remoteId).display ids) = some (ids.display remoteId) := by
  have hne : ids.display remoteId ≠ ids.display myId := fun he => h (ids.display_inj he)
  unfold remoteIdStr
  rw [splitOnce_display]
  rcases le_total myId remoteId with hle | hle
  · simp [min_eq_left hle,max_eq_right hle,hne]
  · simp [min_eq_right hle,max_eq_left hle,hne]

omit [LinearOrder E] in
private theorem mem_destutter' [DecidableEq E] {a x : E} {l : List E} :
    x ∈ l.destutter' (· ≠ ·) a ↔ x = a ∨ x ∈ l := by
  induction l generalizing a with
  | nil => simp
  | cons b l ih =>
    rw [List.destutter'_cons]
    split
    · simp [ih]
    · rename_i hab
      have hab' : a = b := not_not.mp hab
      simp [ih,hab']

omit [LinearOrder E] in
private theorem mem_destutter [DecidableEq E] {x : E} {l : List E} : x ∈ l.destutter (· ≠ ·) ↔ x ∈ l := by
  cases l with
  | nil => simp
  | cons a l => simp [List.destutter_cons',mem_destutter']

omit ids in
private theorem pairwise_lt_of_ne {l : List E} (hle : l.Pairwise (· ≤ ·)) (hne : l.IsChain (· ≠ ·)) :
    l.Pairwise (· < ·) := by
  induction l with
  | nil => exact List.Pairwise.nil
  | cons a l ih =>
    obtain ⟨ha,hrest⟩ := List.pairwise_cons.mp hle
    obtain ⟨hhead,hchain⟩ := List.isChain_cons.mp hne
    refine List.pairwise_cons.mpr ⟨fun x hx => ?_,ih hrest hchain⟩
    cases l with
    | nil => cases hx
    | cons b l =>
      have hab : a < b := lt_of_le_of_ne (ha b List.mem_cons_self) (hhead b rfl)
      rcases List.mem_cons.mp hx with rfl | hx
      · exact hab
      · exact lt_of_lt_of_le hab ((List.pairwise_cons.mp hrest).1 x hx)

omit ids in
private theorem sorted_dedup (l : List E) :
    ((l.mergeSort (fun a b => decide (a ≤ b))).destutter (· ≠ ·)).Pairwise (· < ·) := by
  have htrans : ∀ a b c : E, decide (a ≤ b) = true → decide (b ≤ c) = true → decide (a ≤ c) = true := by
    intro a b c hab hbc
    exact decide_eq_true (le_trans (of_decide_eq_true hab) (of_decide_eq_true hbc))
  have htotal : ∀ a b : E, (decide (a ≤ b) || decide (b ≤ a)) = true := by
    intro a b
    simpa using le_total a b
  have hsorted := (List.pairwise_mergeSort htrans htotal l).imp of_decide_eq_true
  exact pairwise_lt_of_ne (hsorted.sublist (List.destutter_sublist (· ≠ ·) _)) (List.isChain_destutter (· ≠ ·) _)

/-- Rows whose remote texts all parse are listed in order and without repetition. -/
private theorem listChats_ok {myId : E} {chatIds : List String} {remotes : List E}
    (h : ∀ s, s ∈ chatIds.filterMap (remoteIdStr (ids.display myId)) ↔ ∃ e ∈ remotes, ids.display e = s) :
    ∃ peers, listChatsRemotePeersIds ids myId chatIds = .ok peers ∧ peers.Pairwise (· < ·) ∧
      ∀ e, e ∈ peers ↔ e ∈ remotes := by
  have hparse : ∀ s ∈ chatIds.filterMap (remoteIdStr (ids.display myId)), ∃ e, parseRemoteId ids s = .ok e := by
    intro s hs
    obtain ⟨e,-,rfl⟩ := (h s).mp hs
    exact ⟨e,by rw [parseRemoteId,ids.fromStr_display]⟩
  obtain ⟨parsed,hp⟩ := mapM_ok_iff.mpr hparse
  obtain ⟨hto,hfrom⟩ := mapM_ok_mem hp
  refine ⟨_,by rw [listChatsRemotePeersIds,hp]; rfl,sorted_dedup parsed,fun e => ?_⟩
  rw [mem_destutter,List.mem_mergeSort]
  constructor
  · intro he
    obtain ⟨s,hs,hse⟩ := hfrom e he
    obtain ⟨e',he',rfl⟩ := (h s).mp hs
    rw [parseRemoteId,ids.fromStr_display] at hse
    cases hse
    exact he'
  · intro he
    obtain ⟨e',he',hse⟩ := hto (ids.display e) ((h _).mpr ⟨e,he,rfl⟩)
    rw [parseRemoteId,ids.fromStr_display] at hse
    cases hse
    exact he'

end Keys

namespace LoadState
variable {I C : Type}

def isReturned : LoadState I C → Bool
  | .returned _ _ => true
  | _ => false

/-- The call has found a row or made one. -/
def pastRow : LoadState I C → Bool
  | .selectLog _ => true
  | .compacting _ _ _ => true
  | .returned _ _ => true
  | _ => false

end LoadState

section Opens
variable {I C S M O : Type} [DecidableEq I] [DecidableEq C] (am : Automerge C S M O)

/-- What a statement leaves of the rows of chats. -/
structure KeepsRows (chatId : I) (t : Tables I C) (l : LoadState I C) (t' : Tables I C) (l' : LoadState I C) :
    Prop where
  pastRow : l'.pastRow = true → (t'.chats chatId).isSome
  row_iff : (t'.chats chatId).isSome ↔ (t.chats chatId).isSome ∨ l'.isReturned = true
  returned : l.isReturned = true → l'.isReturned = true
  others : ∀ k, k ≠ chatId → t'.chats k = t.chats k

omit [DecidableEq I] [DecidableEq C] in
private theorem keepsRows_read {chatId : I} {t : Tables I C} {l l' : LoadState I C}
    (hpast : l'.pastRow = true → (t.chats chatId).isSome) (hret : l.isReturned = true → l'.isReturned = true) :
    KeepsRows chatId t l t l' where
  pastRow := hpast
  row_iff := by
    refine ⟨Or.inl,fun h => h.elim id (fun hr => hpast ?_)⟩
    cases l' <;> simp_all [LoadState.isReturned,LoadState.pastRow]
  returned := hret
  others _ _ := rfl

private theorem keepsRows_statement {chatId : I} {c : C} {t t' : Tables I C} {l l' : LoadState I C}
    (h : l.pastRow = true → (t.chats chatId).isSome) (hs : Statement chatId c t l t' l') :
    KeepsRows chatId t l t' l' := by
  cases hs with
  | found document hrow => exact keepsRows_read (fun _ => by simp [hrow]) (fun hr => by cases hr)
  | missing => exact keepsRows_read (fun hp => by cases hp) (fun hr => by cases hr)
  | loaded => exact keepsRows_read (fun _ => h rfl) (fun _ => rfl)
  | compacts => exact keepsRows_read (fun _ => h rfl) (fun hr => by cases hr)
  | advances => exact keepsRows_read (fun _ => h rfl) (fun hr => by cases hr)
  | ignored => exact keepsRows_read (fun hp => by cases hp) (fun hr => by cases hr)
  | ended => exact keepsRows_read h id
  | commits snapshot rows heads =>
    have hrow : ((t.compact chatId (loadedDoc snapshot rows) (maxLogId rows)).chats chatId).isSome := by
      simpa [Tables.compact,Tables.deleteLog,Tables.updateDocument] using h rfl
    exact ⟨fun _ => hrow,⟨fun _ => Or.inr rfl,fun _ => hrow⟩,fun _ => rfl,fun k hk => Function.update_of_ne hk _ _⟩
  | creates doc heads hn =>
    have hrow : ((t.insertOrIgnoreChat chatId doc).1.chats chatId).isSome := by
      simp [Tables.insertOrIgnoreChat,hn]
    refine ⟨fun _ => hrow,⟨fun _ => Or.inr rfl,fun _ => hrow⟩,fun _ => rfl,fun k hk => ?_⟩
    simp [Tables.insertOrIgnoreChat,hn,Function.update_of_ne hk]

private theorem loadStep_rows {chatId : I} (ok : Bool) (initial : C) {t : Tables I C} {l : LoadState I C}
    (h : l.pastRow = true → (t.chats chatId).isSome) :
    KeepsRows chatId t l (loadStep am chatId ok initial t l).1 (loadStep am chatId ok initial t l).2 := by
  cases ok with
  | true => exact keepsRows_statement h (loadStep_statement am chatId initial t l)
  | false =>
    cases l with
    | returned doc heads => exact keepsRows_read h id
    | _ => exact keepsRows_read (fun hp => by cases hp) (fun hr => by cases hr)

/-- A call leaves a row for its chat exactly when there was one or it returns, and it
touches no other chat. -/
theorem getPersistedDocState_rows {chatId : I} (initial : C) (oks : List Bool) {t : Tables I C}
    {l : LoadState I C} (h : l.pastRow = true → (t.chats chatId).isSome) :
    KeepsRows chatId t l (getPersistedDocState am chatId initial oks t l).1
      (getPersistedDocState am chatId initial oks t l).2 := by
  induction oks generalizing t l with
  | nil => exact keepsRows_read h id
  | cons ok oks ih =>
    have hstep := loadStep_rows am ok initial h
    have hrest := ih hstep.pastRow
    refine ⟨hrest.pastRow,?_,fun hr => hrest.returned (hstep.returned hr),fun k hk => ?_⟩
    · rw [getPersistedDocState,hrest.row_iff,hstep.row_iff]
      constructor
      · rintro ((ht | hr) | hr)
        · exact Or.inl ht
        · exact Or.inr (hrest.returned hr)
        · exact Or.inr hr
      · rintro (ht | hr)
        · exact Or.inl (Or.inl ht)
        · exact Or.inr hr
    · exact (hrest.others k hk).trans (hstep.others k hk)

end Opens

/-- One call for a chat with a remote peer, with the outcomes of its statements. -/
structure ChatOpen (E C : Type) where
  remoteId : E
  initial : C
  outcomes : List Bool
  deriving DecidableEq, Repr

section Listing
variable {E C S M O : Type} [LinearOrder E] [DecidableEq C] (ids : EndpointIds E) (am : Automerge C S M O)

/-- The tables after the calls, and the remote ids of those that returned. -/
def openChats (myId : E) : Tables String C → List (ChatOpen E C) → Tables String C × List E
  | t, [] => (t,[])
  | t, o::os =>
    let next := getPersistedDocState am ((ChatId.mk myId o.remoteId).display ids) o.initial o.outcomes t
      .selectSnapshot
    let rest := openChats myId next.1 os
    (rest.1,if next.2.isReturned then o.remoteId::rest.2 else rest.2)

private theorem openChats_rows (myId : E) (t : Tables String C) (opens : List (ChatOpen E C)) (key : String) :
    ((openChats ids am myId t opens).1.chats key).isSome ↔
      (t.chats key).isSome ∨ ∃ e ∈ (openChats ids am myId t opens).2, (ChatId.mk myId e).display ids = key := by
  induction opens generalizing t with
  | nil => simp [openChats]
  | cons o os ih =>
    simp only [openChats]
    generalize hkey : (ChatId.mk myId o.remoteId).display ids = chatId
    have hload : KeepsRows chatId t .selectSnapshot _ _ := getPersistedDocState_rows am o.initial o.outcomes
      (fun h => by cases h)
    generalize getPersistedDocState am chatId o.initial o.outcomes t .selectSnapshot = next at hload
    have hnext : (next.1.chats key).isSome ↔ (t.chats key).isSome ∨ (next.2.isReturned = true ∧ chatId = key) := by
      by_cases hk : key = chatId
      · subst hk
        simpa using hload.row_iff
      · rw [hload.others key hk]
        simp [Ne.symm hk]
    rw [ih,hnext]
    cases hr : next.2.isReturned <;> simp [hkey,or_assoc]

/-- Only calls of the list return, and those do whose statements all work. -/
private theorem mem_opened (myId : E) (t : Tables String C) (opens : List (ChatOpen E C)) :
    (∀ e ∈ (openChats ids am myId t opens).2, ∃ o ∈ opens, o.remoteId = e) ∧
    ∀ o ∈ opens, false ∉ o.outcomes → 8 ≤ o.outcomes.length → o.remoteId ∈ (openChats ids am myId t opens).2 := by
  induction opens generalizing t with
  | nil => exact ⟨fun _ h => (by cases h),fun _ h => (by cases h)⟩
  | cons o os ih =>
    obtain ⟨hfrom,hto⟩ := ih (getPersistedDocState am ((ChatId.mk myId o.remoteId).display ids) o.initial o.outcomes t
      .selectSnapshot).1
    simp only [openChats]
    constructor
    · intro e he
      split at he
      · rcases List.mem_cons.mp he with rfl | he
        · exact ⟨o,List.mem_cons_self,rfl⟩
        · obtain ⟨o',ho',rfl⟩ := hfrom e he
          exact ⟨o',List.mem_cons_of_mem o ho',rfl⟩
      · obtain ⟨o',ho',rfl⟩ := hfrom e he
        exact ⟨o',List.mem_cons_of_mem o ho',rfl⟩
    · intro o' ho' hok hlen
      rcases List.mem_cons.mp ho' with rfl | ho'
      · have hleft : (LoadState.selectSnapshot : LoadState String C).left
            (t.chats ((ChatId.mk myId o'.remoteId).display ids)).isSome ≤ o'.outcomes.length := by
          simp only [LoadState.left]
          split <;> omega
        obtain ⟨doc,heads,hr⟩ := getPersistedDocState_returns am o'.initial hok (by simp) hleft
        rw [hr]
        exact List.mem_cons_self
      · split
        · exact List.mem_cons_of_mem _ (hto o' ho' hok hlen)
        · exact hto o' ho' hok hlen

/-- The chats opened by one peer are listed again as the set of their remote ids, in
order: an open whose statements work returns, and those that have returned are listed.
Other rows of the table are skipped if they cannot be attributed to the own id. Both peers
of a chat use one key, and different pairs of peers use different keys. -/
theorem chat_identity_round_trip (myId : E) {t : Tables String C} {opens : List (ChatOpen E C)}
    (hother : ∀ key, (t.chats key).isSome → remoteIdStr (ids.display myId) key = none)
    (hremote : ∀ o ∈ opens, o.remoteId ≠ myId) {chatIds : List String}
    (hrows : ∀ key, key ∈ chatIds ↔ ((openChats ids am myId t opens).1.chats key).isSome) :
    (∃ peers, listChatsRemotePeersIds ids myId chatIds = .ok peers ∧ peers.Pairwise (· < ·) ∧
      ∀ e, e ∈ peers ↔ e ∈ (openChats ids am myId t opens).2) ∧
    (∀ e ∈ (openChats ids am myId t opens).2, ∃ o ∈ opens, o.remoteId = e) ∧
    (∀ o ∈ opens, false ∉ o.outcomes → 8 ≤ o.outcomes.length → o.remoteId ∈ (openChats ids am myId t opens).2) ∧
    (∀ a b, (ChatId.mk a b).display ids = (ChatId.mk b a).display ids) ∧
    ∀ a b : ChatId E, a.display ids = b.display ids ↔
      (a.myId = b.myId ∧ a.remoteId = b.remoteId) ∨ (a.myId = b.remoteId ∧ a.remoteId = b.myId) := by
  obtain ⟨hfrom,hto⟩ := mem_opened ids am myId t opens
  refine ⟨listChats_ok ids (fun s => ?_),hfrom,hto,ChatId.display_swap ids,ChatId.display_eq_iff ids⟩
  have hopened : ∀ e ∈ (openChats ids am myId t opens).2, e ≠ myId := by
    intro e he
    obtain ⟨o,ho,rfl⟩ := hfrom e he
    exact hremote o ho
  rw [List.mem_filterMap]
  constructor
  · rintro ⟨key,hkey,hs⟩
    rcases (openChats_rows ids am myId t opens key).mp ((hrows key).mp hkey) with hold | ⟨e,he,rfl⟩
    · cases (hother key hold).symm.trans hs
    · exact ⟨e,he,Option.some.inj ((remoteIdStr_display ids (hopened e he)).symm.trans hs)⟩
  · rintro ⟨e,he,rfl⟩
    refine ⟨(ChatId.mk myId e).display ids,(hrows _).mpr ?_,remoteIdStr_display ids (hopened e he)⟩
    exact (openChats_rows ids am myId t opens _).mpr (Or.inr ⟨e,he,rfl⟩)

/-- Ids of one character. -/
def charIds : EndpointIds {c : Char // c ≠ '_'} where
  display c := String.ofList [c.1]
  fromStr s :=
    match s.toList with
    | [c] => if h : c ≠ '_' then some ⟨c,h⟩ else none
    | _ => none
  display_underscore c := by simp [Ne.symm c.2]
  fromStr_display c := by simp [c.2]

/-- A chat with z, a chat with a, and the first one again. -/
def threeOpens : List (ChatOpen {c : Char // c ≠ '_'} Nat) :=
  [⟨⟨'z',by decide⟩,0,List.replicate 8 true⟩,⟨⟨'a',by decide⟩,1,List.replicate 8 true⟩,
    ⟨⟨'z',by decide⟩,2,List.replicate 8 true⟩]

theorem chat_identity_three_opens :
    (∀ key, key ∈ ["m_z","a_m"] ↔
      ((openChats charIds Line.automerge ⟨'m',by decide⟩ Tables.empty threeOpens).1.chats key).isSome) ∧
    ∃ peers, listChatsRemotePeersIds charIds ⟨'m',by decide⟩ ["m_z","a_m"] = .ok peers ∧
      peers.Pairwise (· < ·) ∧ ∀ e, e ∈ peers ↔ ∃ o ∈ threeOpens, o.remoteId = e := by
  have hopened : (openChats charIds Line.automerge ⟨'m',by decide⟩ Tables.empty threeOpens).2 =
      [⟨'z',by decide⟩,⟨'a',by decide⟩,⟨'z',by decide⟩] := by decide +kernel
  have hrows : ∀ key, key ∈ ["m_z","a_m"] ↔
      ((openChats charIds Line.automerge ⟨'m',by decide⟩ Tables.empty threeOpens).1.chats key).isSome := by
    intro key
    have hz : (ChatId.mk (⟨'m',by decide⟩ : {c : Char // c ≠ '_'}) ⟨'z',by decide⟩).display charIds = "m_z" := by
      decide +kernel
    have ha : (ChatId.mk (⟨'m',by decide⟩ : {c : Char // c ≠ '_'}) ⟨'a',by decide⟩).display charIds = "a_m" := by
      decide +kernel
    rw [openChats_rows,hopened]
    simp only [Tables.empty,Option.isSome_none,Bool.false_eq_true,false_or,List.mem_cons,List.not_mem_nil,or_false,
      exists_eq_or_imp,exists_eq_left,hz,ha]
    grind
  obtain ⟨⟨peers,hpeers,hsorted,hmem⟩,hfrom,hto,-,-⟩ := chat_identity_round_trip charIds Line.automerge
    ⟨'m',by decide⟩ (fun _ h => by cases h) (by decide +kernel) hrows
  refine ⟨hrows,peers,hpeers,hsorted,fun e => (hmem e).trans ⟨hfrom e,?_⟩⟩
  rintro ⟨o,ho,rfl⟩
  have hworks : false ∉ o.outcomes ∧ 8 ≤ o.outcomes.length := by
    have hall : ∀ o ∈ threeOpens, false ∉ o.outcomes ∧ 8 ≤ o.outcomes.length := by decide
    exact hall o ho
  exact hto o ho hworks.1 hworks.2

end Listing
end GossipCore.Persistence
