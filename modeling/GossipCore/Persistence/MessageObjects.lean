import GossipCore.Persistence.ChatDocument

/-! The automerge object of a message. append_message writes it with one put for each key,
and the derived decoder reads it back by the names of the fields. -/
namespace GossipCore.Persistence
open Base

namespace Keys

def id : String := "id"

def sender : String := "sender_node_id"

def content : String := "content"

def contentText : String := "Text"

def createdAt : String := "created_at"

def updatedAt : String := "updated_at"

end Keys

/-- What a key of a map is assigned: a scalar or a new map. -/
inductive Assigned where
  | str (value : String)
  | int (value : Int)
  | map
  deriving DecidableEq, Repr

/-- A map object with the maps below it, as the assignments in it with their paths. -/
abbrev MapObject := List (List String × Assigned)

namespace MapObject

/-- A put replaces what the key has held, with everything below it. -/
def put (o : MapObject) (obj : List String) (key : String) (value : Assigned) : MapObject :=
  o.filter (fun e => !(obj++[key]).isPrefixOf e.1)++[(obj++[key],value)]

def keys (o : MapObject) (obj : List String) : List String :=
  o.filterMap (fun e => if e.1.dropLast = obj then e.1.getLast? else none)

def hydrateStr (o : MapObject) (path : List String) : Option String :=
  match o.lookup path with
  | some (.str value) => some value
  | _ => none

def hydrateInt (o : MapObject) (path : List String) : Option Int :=
  match o.lookup path with
  | some (.int value) => some value
  | _ => none

/-- A newtype variant is a map with the name of the variant as its only key. -/
def hydrateContent (o : MapObject) (obj : List String) : Option ChatMessageContent :=
  match o.lookup obj,o.keys obj with
  | some .map,["Text"] => (o.hydrateStr (obj++["Text"])).map .text
  | _,_ => none

/-- A struct is a map with a key for each field. -/
def hydrateMessage (o : MapObject) : Option ChatMessage := do
  let id ← o.hydrateStr ["id"]
  let senderNodeId ← o.hydrateStr ["sender_node_id"]
  let content ← o.hydrateContent ["content"]
  let createdAt ← o.hydrateInt ["created_at"]
  let updatedAt ← o.hydrateInt ["updated_at"]
  return ⟨id,senderNodeId,content,createdAt,updatedAt⟩

end MapObject

namespace Schema

/-- The puts of append_message into the map that it has inserted at the end of the list. -/
def appendMessage (msg : ChatMessage) : MapObject :=
  let o := MapObject.put [] [] Keys.id (.str msg.id)
  let o := o.put [] Keys.sender (.str msg.senderNodeId)
  let o := o.put [] Keys.createdAt (.int msg.createdAt)
  let o := o.put [] Keys.updatedAt (.int msg.updatedAt)
  let o := o.put [] Keys.content .map
  match msg.content with
  | .text textVal => o.put [Keys.content] Keys.contentText (.str textVal)

/-- No put of append_message replaces an earlier one. -/
theorem appendMessage_eq (id senderNodeId textVal : String) (createdAt updatedAt : Int) :
    appendMessage ⟨id,senderNodeId,.text textVal,createdAt,updatedAt⟩ =
      [(["id"],.str id),(["sender_node_id"],.str senderNodeId),(["created_at"],.int createdAt),
        (["updated_at"],.int updatedAt),(["content"],.map),(["content","Text"],.str textVal)] := by
  simp [appendMessage,MapObject.put,List.isPrefixOf,Keys.id,Keys.sender,Keys.createdAt,Keys.updatedAt,Keys.content,
    Keys.contentText]

theorem hydrateMessage_appendMessage (msg : ChatMessage) : (appendMessage msg).hydrateMessage = some msg := by
  obtain ⟨id,senderNodeId,⟨textVal⟩,createdAt,updatedAt⟩ := msg
  rw [appendMessage_eq]
  simp [MapObject.hydrateMessage,MapObject.hydrateStr,MapObject.hydrateInt,MapObject.hydrateContent,MapObject.keys,
    List.lookup_cons]

theorem length_appendMessage (msg : ChatMessage) : (appendMessage msg).length = 6 := by
  obtain ⟨id,senderNodeId,⟨textVal⟩,createdAt,updatedAt⟩ := msg
  rw [appendMessage_eq]
  rfl

end Schema

/-- Automerge that keeps the objects of the messages. The entries of a list keep their
order when changes arrive, an append on top of all changes comes last, and a key keeps its
list until a change puts another one there. -/
structure StoredDocs (C S M : Type) [DecidableEq C] extends ListDocs C S M where
  object : C → MapObject
  object_message : ∀ c key list msg, content c = .message key list msg → object c = Schema.appendMessage msg
  hydrate_object : ∀ d l i, hydrateMessage d l i = (entries d l)[i]?.bind (fun c => (object c).hydrateMessage)
  entries_sublist : ∀ d d' l, graph.Closed d → graph.Closed d' → d ⊆ d' → (entries d l).Sublist (entries d' l)
  entries_append : ∀ d c l, graph.Closed d → graph.deps c = toAutomerge.getHeads d →
    (content c).target? c = some l → entries (insert c d) l = entries d l++[c]
  getRoot_frame : ∀ d d' key, (Schema.stripListPrefix key).isSome → graph.Closed d → graph.Closed d' → d ⊆ d' →
    (∀ c ∈ d', c ∉ d → ¬ (content c).Creates key) → getRoot d' key = getRoot d key

namespace StoredDocs
variable {C S M : Type} [DecidableEq C] (sd : StoredDocs C S M)

/-- What is read of an entry is the message that was appended. -/
def toChatDocs : ChatDocs C S M where
  toListDocs := sd.toListDocs
  hydrate_eq d l i := by
    rw [sd.hydrate_object]
    cases hi : (sd.entries d l)[i]? with
    | none => rfl
    | some c =>
      have ht := ((sd.mem_entries d l c).mp (List.mem_of_getElem? hi)).2
      cases hx : sd.content c with
      | chatInit =>
        rw [hx] at ht
        cases ht
      | message key list msg =>
        simp only [Option.bind_some,sd.object_message c key list msg hx,Schema.hydrateMessage_appendMessage,hx]
        rfl

end StoredDocs

namespace Finite
variable {n : Nat} (graph : ChangeGraph (Fin n)) (content : Fin n → Content (Fin n))

def object (c : Fin n) : MapObject :=
  match content c with
  | .chatInit => []
  | .message _ _ msg => Schema.appendMessage msg

private theorem object_of_message {c : Fin n} {key : String} {list : Option (Fin n)} {msg : ChatMessage}
    (h : content c = .message key list msg) : object content c = Schema.appendMessage msg := by
  rw [object,h]

/-- On top of all changes comes a change of greater rank. -/
private theorem lt_of_deps_heads (hrank : ∀ c, graph.rank c = c) {d : Doc (Fin n)} {c : Fin n}
    (hd : graph.Closed d) (hc : graph.deps c = (docs graph content).getHeads d) {x : Fin n} (hx : x ∈ d) :
    x < c := by
  obtain ⟨h,hh,hanc⟩ := graph.exists_head_above hx
  have hheads : (docs graph content).getHeads d = graph.heads d := (docs graph content).getHeads_of_closed hd
  rw [← hheads,← hc] at hh
  have hle := graph.rank_le_of_ancestor hanc
  have hlt := graph.rank_lt c h hh
  rw [hrank,hrank] at hle hlt
  exact Fin.lt_def.mpr (Nat.lt_of_le_of_lt hle hlt)

private theorem entries_insert {d : Doc (Fin n)} {c l : Fin n} (hlt : ∀ x ∈ d, x < c)
    (ht : (content c).target? c = some l) : entries content (insert c d) l = entries content d l++[c] := by
  have hsorted : ∀ e : Doc (Fin n), (entries content e l).Pairwise (fun x y => x < y) := fun e =>
    (List.pairwise_lt_finRange n).filter _
  have hnew : ∀ x ∈ entries content d l, x < c := by
    intro x hx
    have hmem := (List.mem_filter.mp hx).2
    simp only [decide_eq_true_eq] at hmem
    exact hlt x hmem.1
  have hright : (entries content d l++[c]).Pairwise (fun x y => x < y) := by
    refine List.pairwise_append.mpr ⟨hsorted d,List.pairwise_singleton _ _,fun x hx y hy => ?_⟩
    rw [List.mem_singleton.mp hy]
    exact hnew x hx
  have hasymm : ∀ x y : Fin n, x < y → y < x → x = y := fun x y hxy hyx => absurd hyx (Fin.lt_asymm hxy)
  refine List.Perm.eq_of_pairwise (fun x y _ _ => hasymm x y) (hsorted _) hright ?_
  refine (List.perm_ext_iff_of_nodup ((hsorted _).imp Fin.ne_of_lt) (hright.imp Fin.ne_of_lt)).mpr (fun x => ?_)
  simp only [entries,List.mem_append,List.mem_filter,List.mem_finRange,true_and,decide_eq_true_eq,
    Finset.mem_insert,List.mem_singleton]
  constructor
  · rintro ⟨rfl | hx,htarget⟩
    · exact Or.inr rfl
    · exact Or.inl ⟨hx,htarget⟩
  · rintro (⟨hx,htarget⟩ | rfl)
    · exact ⟨Or.inr hx,htarget⟩
    · exact ⟨Or.inl rfl,ht⟩

/-- Documents over finitely many known changes, numbered along their dependencies, with the
objects of their messages. -/
def stored (hrank : ∀ c, graph.rank c = c) : StoredDocs (Fin n) Unit (Finset (Fin n)) where
  toListDocs :=
    { (docs graph content).toListDocs with
      hydrateMessage := fun d l i => (entries content d l)[i]?.bind (fun c => (object content c).hydrateMessage) }
  object := object content
  object_message _ _ _ _ hc := object_of_message content hc
  hydrate_object _ _ _ := rfl
  entries_sublist d d' l _ _ hsub := by
    refine List.monotone_filter_right _ (fun c hc => ?_)
    simp only [decide_eq_true_eq] at hc ⊢
    exact ⟨hsub hc.1,hc.2⟩
  entries_append d c l hd hdeps htarget :=
    entries_insert content (fun _ hx => lt_of_deps_heads graph content hrank hd hdeps hx) htarget
  getRoot_frame d d' key _ _ _ hsub hno := by
    refine congrArg (fun p => List.find? p _) (funext fun c => ?_)
    refine decide_eq_decide.mpr (and_congr_left (fun hx => ?_))
    refine ⟨fun hc => ?_,fun hc => hsub hc⟩
    by_contra hnew
    exact hno c hc hnew (creates_iff.mpr hx)

end Finite
end GossipCore.Persistence
