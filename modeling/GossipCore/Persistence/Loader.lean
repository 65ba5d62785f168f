import GossipCore.Persistence.Automerge

/-! The loading loop of a chat document, one SQL statement per step. Between two
statements other tasks may act on the tables, so the state keeps what was read. -/
namespace GossipCore.Persistence
open Base

def chatLogsLimit : Nat := 512

/-- Positions inside the compaction transaction. -/
inductive TxStage where
  | begin
  | update
  | delete
  | commit
  deriving DecidableEq, Repr

/-- Where a call of get_persisted_doc_state stands. Every constructor but the last
two names the statement it is about to run. -/
inductive LoadState (I C : Type) where
  | selectSnapshot
  | selectLog (snapshot : Blob C)
  | compacting (stage : TxStage) (snapshot : Blob C) (rows : List (LogRow I C))
  | insertSnapshot (doc : Doc C)
  | returned (doc : Doc C) (heads : Finset C)
  | failed

variable {I C S M O : Type} [DecidableEq I] [DecidableEq C] (am : Automerge C S M O)

/-- The document made from one snapshot and the log rows read after it. -/
def loadedDoc (snapshot : Blob C) (rows : List (LogRow I C)) : Doc C :=
  Automerge.loadIncremental (Automerge.load snapshot) (rows.map LogRow.data)

def maxLogId (rows : List (LogRow I C)) : Nat :=
  match rows.getLast? with
  | some r => r.id
  | none => 0

/-- Run the pending statement. A failed statement has no effect and makes the call
return an error; a failure inside the transaction rolls it back. The initial
change is the one that reconciling ChatInit into a new document makes. -/
def loadStep (chatId : I) (ok : Bool) (initial : C) (t : Tables I C) :
    LoadState I C → Tables I C × LoadState I C
  | .selectSnapshot =>
    if ok then
      match t.selectDocument chatId with
      | some document => (t,.selectLog document)
      | none => (t,.insertSnapshot {initial})
    else (t,.failed)
  | .selectLog snapshot =>
    if ok then
      let rows := t.selectLog chatId
      if rows.length > chatLogsLimit then (t,.compacting .begin snapshot rows)
      else
        let doc := loadedDoc snapshot rows
        (t,.returned doc (am.getHeads doc))
    else (t,.failed)
  | .compacting stage snapshot rows =>
    if ok then
      match stage with
      | .begin => (t,.compacting .update snapshot rows)
      | .update => (t,.compacting .delete snapshot rows)
      | .delete => (t,.compacting .commit snapshot rows)
      | .commit =>
        let doc := loadedDoc snapshot rows
        (t.compact chatId (Automerge.save doc) (maxLogId rows),.returned doc (am.getHeads doc))
    else (t,.failed)
  | .insertSnapshot doc =>
    if ok then
      match t.insertOrIgnoreChat chatId (Automerge.save doc) with
      | (t',0) => (t',.selectSnapshot)
      | (t',_) => (t',.returned doc (am.getHeads doc))
    else (t,.failed)
  | .returned doc heads => (t,.returned doc heads)
  | .failed => (t,.failed)

/-- A call of get_persisted_doc_state that nothing interrupts, with the outcomes of
the statements it runs. -/
def getPersistedDocState (chatId : I) (initial : C) :
    List Bool → Tables I C → LoadState I C → Tables I C × LoadState I C
  | [], t, l => (t,l)
  | ok::oks, t, l =>
    let next := loadStep am chatId ok initial t l
    getPersistedDocState chatId initial oks next.1 next.2

/-- Only a failed statement makes a load fail. -/
theorem getPersistedDocState_failed {chatId : I} {initial : C} {oks : List Bool} {t : Tables I C}
    {l : LoadState I C} (hl : l ≠ .failed)
    (h : (getPersistedDocState am chatId initial oks t l).2 = .failed) : false ∈ oks := by
  induction oks generalizing t l with
  | nil => exact absurd h hl
  | cons ok oks ih =>
    cases ok with
    | false => exact List.mem_cons_self
    | true =>
      refine List.mem_cons_of_mem _ (ih ?_ h)
      cases l with
      | selectSnapshot =>
        simp only [loadStep,if_true]
        split <;> simp
      | selectLog snapshot =>
        simp only [loadStep,if_true]
        split <;> simp
      | compacting stage snapshot rows => cases stage <;> simp [loadStep]
      | insertSnapshot doc =>
        simp only [loadStep,if_true]
        split <;> simp
      | returned doc heads => simp [loadStep]
      | failed => exact absurd rfl hl

omit [DecidableEq I] in
private theorem mem_loadIncremental {doc : Doc C} {chunks : List (Blob C)} {x : C} :
    x ∈ Automerge.loadIncremental doc chunks ↔ x ∈ doc ∨ ∃ b ∈ chunks, x ∈ b := by
  unfold Automerge.loadIncremental
  induction chunks generalizing doc with
  | nil => simp
  | cons b chunks ih => simp [ih,or_assoc]

omit [DecidableEq I] in
theorem mem_loadedDoc {snapshot : Blob C} {rows : List (LogRow I C)} {x : C} :
    x ∈ loadedDoc snapshot rows ↔ x ∈ snapshot ∨ ∃ r ∈ rows, x ∈ r.data := by
  simp [loadedDoc,mem_loadIncremental,Automerge.load]

/-- Snapshot and rows read from the same tables give the stored changes. -/
theorem loadedDoc_eq_stored {t : Tables I C} {chatId : I} {snapshot : Blob C}
    (h : t.chats chatId = some snapshot) :
    loadedDoc snapshot (t.selectLog chatId) = t.stored chatId := by
  ext x
  simp [mem_loadedDoc,Tables.mem_stored,h]

omit [DecidableEq C] in
/-- The last row read carries the largest id. -/
theorem le_maxLogId {t : Tables I C} {chatId : I} {r : LogRow I C} (hr : r ∈ t.selectLog chatId) :
    r.id ≤ maxLogId (t.selectLog chatId) := by
  have ho : (t.selectLog chatId).Pairwise (fun r s => r.id < s.id) := t.ordered.filter _
  generalize t.selectLog chatId = rows at hr ho
  unfold maxLogId
  have hne : rows ≠ [] := List.ne_nil_of_mem hr
  rw [List.getLast?_eq_some_getLast hne]
  rw [← List.dropLast_concat_getLast hne] at hr ho
  rcases List.mem_append.mp hr with hr | hr
  · exact ((List.pairwise_append.mp ho).2.2 r hr _ (by simp)).le
  · rw [List.mem_singleton.mp hr]

/-- What one statement can do to the tables: nothing, the first snapshot of the
chat, or the commit of a compaction. -/
inductive LoadWrite (chatId : I) (t : Tables I C) (l : LoadState I C) : Tables I C → LoadState I C → Prop where
  | read (l' : LoadState I C) : LoadWrite chatId t l t l'
  | create (doc : Doc C) (hl : l = .insertSnapshot doc) (hn : t.chats chatId = none) (heads : Finset C) :
      LoadWrite chatId t l (t.insertOrIgnoreChat chatId doc).1 (.returned doc heads)
  | commit (snapshot : Blob C) (rows : List (LogRow I C)) (hl : l = .compacting .commit snapshot rows)
      (heads : Finset C) : LoadWrite chatId t l
        (t.compact chatId (loadedDoc snapshot rows) (maxLogId rows)) (.returned (loadedDoc snapshot rows) heads)

theorem loadStep_write (chatId : I) (ok : Bool) (initial : C) (t : Tables I C) (l : LoadState I C) :
    LoadWrite chatId t l (loadStep am chatId ok initial t l).1 (loadStep am chatId ok initial t l).2 := by
  cases ok with
  | false => cases l <;> exact .read _
  | true =>
    cases l with
    | selectSnapshot =>
      simp only [loadStep,if_true]
      cases t.selectDocument chatId <;> exact .read _
    | selectLog snapshot =>
      simp only [loadStep,if_true]
      split <;> exact .read _
    | compacting stage snapshot rows =>
      cases stage with
      | commit => exact .commit snapshot rows rfl _
      | _ => exact .read _
    | insertSnapshot doc =>
      simp only [loadStep,if_true,Automerge.save]
      cases hn : t.chats chatId with
      | none =>
        have hw := LoadWrite.create (t := t) (l := .insertSnapshot doc) doc rfl hn (am.getHeads doc)
        simpa [Tables.insertOrIgnoreChat,hn] using hw
      | some b => simpa [Tables.insertOrIgnoreChat,hn] using LoadWrite.read _
    | returned doc heads => exact .read _
    | failed => exact .read _

end GossipCore.Persistence
