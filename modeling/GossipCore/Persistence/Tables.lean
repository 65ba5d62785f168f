import Mathlib.Data.Finset.Lattice.Lemmas
import Mathlib.Data.List.Basic

/-! The chat tables of the database and the statements that the repository runs
on them. A document blob is identified with the set of changes it encodes. -/
namespace GossipCore.Persistence

abbrev Blob (C : Type) := Finset C

structure LogRow (I C : Type) where
  id : Nat
  chatId : I
  data : Blob C

/-- The rows of chat_log are kept in the order of their ids, and the sequence is
the largest id that AUTOINCREMENT has ever given out. -/
@[ext]
structure Tables (I C : Type) where
  chats : I → Option (Blob C)
  chatLog : List (LogRow I C)
  sequence : Nat
  ordered : chatLog.Pairwise (fun r s => r.id < s.id)
  bounded : ∀ r ∈ chatLog, r.id ≤ sequence

namespace Tables
variable {I C : Type} [DecidableEq I]

def empty : Tables I C := ⟨fun _ => none,[],0,List.Pairwise.nil,by simp⟩

/-- SELECT document FROM chats WHERE chat_id = ? -/
def selectDocument (t : Tables I C) (chatId : I) : Option (Blob C) := t.chats chatId

/-- SELECT id, data FROM chat_log WHERE chat_id = ? ORDER BY id ASC -/
def selectLog (t : Tables I C) (chatId : I) : List (LogRow I C) :=
  t.chatLog.filter (fun r => r.chatId = chatId)

/-- INSERT OR IGNORE INTO chats, with the number of rows it affected. -/
def insertOrIgnoreChat (t : Tables I C) (chatId : I) (document : Blob C) : Tables I C × Nat :=
  match t.chats chatId with
  | none => ({ t with chats := Function.update t.chats chatId (some document) },1)
  | some _ => (t,0)

/-- UPDATE chats SET document = ? WHERE chat_id = ? -/
def updateDocument (t : Tables I C) (chatId : I) (document : Blob C) : Tables I C :=
  { t with chats := Function.update t.chats chatId ((t.chats chatId).map (fun _ => document)) }

/-- DELETE FROM chat_log WHERE chat_id = ? AND id <= ? -/
def deleteLog (t : Tables I C) (chatId : I) (maxId : Nat) : Tables I C where
  chats := t.chats
  chatLog := t.chatLog.filter (fun r => ¬ (r.chatId = chatId ∧ r.id ≤ maxId))
  sequence := t.sequence
  ordered := t.ordered.filter _
  bounded r hr := t.bounded r (List.mem_of_mem_filter hr)

/-- INSERT INTO chat_log (chat_id, data) VALUES (?, ?) -/
def insertLog (t : Tables I C) (chatId : I) (data : Blob C) : Tables I C where
  chats := t.chats
  chatLog := t.chatLog++[⟨t.sequence+1,chatId,data⟩]
  sequence := t.sequence+1
  ordered := by
    refine List.pairwise_append.mpr ⟨t.ordered,List.pairwise_singleton _ _,?_⟩
    intro r hr s hs
    have := t.bounded r hr
    rw [List.mem_singleton.mp hs]
    exact Nat.lt_succ_of_le this
  bounded r hr := by
    rcases List.mem_append.mp hr with hr | hr
    · exact (t.bounded r hr).trans (Nat.le_succ _)
    · rw [List.mem_singleton.mp hr]

section Stored
variable [DecidableEq C]

/-- The changes kept for a chat, in its snapshot and in its log rows. -/
def stored (t : Tables I C) (chatId : I) : Finset C :=
  (t.chats chatId).getD ∅ ∪ (t.selectLog chatId).foldr (fun r acc => r.data ∪ acc) ∅

omit [DecidableEq I] in
private theorem mem_foldr_data {rows : List (LogRow I C)} {x : C} :
    x ∈ rows.foldr (fun r acc => r.data ∪ acc) ∅ ↔ ∃ r ∈ rows, x ∈ r.data := by
  induction rows with
  | nil => simp
  | cons r rows ih => simp [ih]

theorem mem_stored {t : Tables I C} {chatId : I} {x : C} :
    x ∈ t.stored chatId ↔ (∃ b, t.chats chatId = some b ∧ x ∈ b) ∨
      ∃ r ∈ t.selectLog chatId, x ∈ r.data := by
  rw [stored,Finset.mem_union,mem_foldr_data]
  cases t.chats chatId <;> simp

omit [DecidableEq C] in
theorem selectLog_insertLog (t : Tables I C) (chatId : I) (data : Blob C) :
    (t.insertLog chatId data).selectLog chatId =
      t.selectLog chatId++[⟨t.sequence+1,chatId,data⟩] := by
  simp [selectLog,insertLog,List.filter_append]

theorem stored_insertLog (t : Tables I C) (chatId : I) (data : Blob C) :
    (t.insertLog chatId data).stored chatId = t.stored chatId ∪ data := by
  ext x
  simp only [Finset.mem_union,mem_stored,selectLog_insertLog]
  simp only [insertLog,List.mem_append,List.mem_singleton,or_and_right,exists_or,exists_eq_left]
  exact or_assoc.symm

theorem stored_insertOrIgnoreChat (t : Tables I C) (chatId : I) (document : Blob C)
    (h : t.chats chatId = none) : (t.insertOrIgnoreChat chatId document).1.stored chatId =
      document ∪ t.stored chatId := by
  ext x
  simp [mem_stored,insertOrIgnoreChat,h,selectLog]

/-- The compaction transaction, at the moment of its commit. -/
def compact (t : Tables I C) (chatId : I) (document : Blob C) (maxId : Nat) : Tables I C :=
  (t.updateDocument chatId document).deleteLog chatId maxId

theorem mem_stored_compact {t : Tables I C} {chatId : I} {document : Blob C} {maxId : Nat} {x : C} :
    x ∈ (t.compact chatId document maxId).stored chatId ↔
      ((t.chats chatId).isSome ∧ x ∈ document) ∨
      ∃ r ∈ t.selectLog chatId, maxId < r.id ∧ x ∈ r.data := by
  simp only [mem_stored,compact,deleteLog,updateDocument,selectLog,Function.update_self]
  refine or_congr ?_ ?_
  · cases t.chats chatId <;> simp
  · constructor
    · rintro ⟨r,hr,hx⟩
      simp only [List.mem_filter,decide_eq_true_eq,not_and,not_le] at hr
      exact ⟨r,by simp [hr],hr.1.2 hr.2,hx⟩
    · rintro ⟨r,hr,hlt,hx⟩
      simp only [List.mem_filter,decide_eq_true_eq] at hr
      exact ⟨r,by simp [hr,hlt],hx⟩

omit [DecidableEq C] in
/-- After a compaction only the rows above the bound are left. -/
theorem selectLog_compact (t : Tables I C) (chatId : I) (document : Blob C) (maxId : Nat) :
    (t.compact chatId document maxId).selectLog chatId =
      (t.selectLog chatId).filter (fun r => maxId < r.id) := by
  simp only [selectLog,compact,deleteLog,updateDocument,List.filter_filter]
  refine List.filter_congr (fun r _ => ?_)
  by_cases hr : r.chatId = chatId <;> simp [hr]

end Stored
end Tables
end GossipCore.Persistence
