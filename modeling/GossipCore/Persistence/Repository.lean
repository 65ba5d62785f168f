import GossipCore.Base.Watch
import GossipCore.Persistence.Loader
import GossipCore.Persistence.Messages

/-! The chat repository over one chat's rows. Operations take the outcome of their
INSERT as an argument; a failed statement leaves the tables as they were. -/
namespace GossipCore.Persistence
open Base

structure ChatRepository (C S : Type) where
  doc : Doc C
  syncState : S
  lastSavedHeads : Finset C
  syncStatus : Watch Bool

namespace ChatRepository
variable {I C S M O : Type} [DecidableEq I] [DecidableEq C] (am : Automerge C S M O)

/-- A repository around a loaded document. -/
def new (doc : Doc C) (heads : Finset C) : ChatRepository C S :=
  ⟨doc,am.newState,heads,.channel false⟩

def generateSyncMessage (repo : ChatRepository C S) : ChatRepository C S × Option M :=
  let next := am.generateSyncMessage repo.syncState repo.doc
  ({ repo with
    syncState := next.1
    syncStatus := repo.syncStatus.sendIfModified next.2.isNone },next.2)

def resetSyncState (repo : ChatRepository C S) : ChatRepository C S :=
  { repo with syncState := am.newState }

/-- Write the changes since the last saved heads as one log row. -/
def persistChat (chatId : I) (ok : Bool) (t : Tables I C) (repo : ChatRepository C S) :
    Except LibError Unit × Tables I C × ChatRepository C S :=
  let newChanges := am.saveAfter repo.doc repo.lastSavedHeads
  if newChanges ≠ ∅ then
    if ok then
      (.ok (),t.insertLog chatId newChanges,{ repo with lastSavedHeads := am.getHeads repo.doc })
    else (.error .sqlx,t,repo)
  else (.ok (),t,repo)

/-- The in-memory commit of a new change. -/
def transact (repo : ChatRepository C S) (c : C) : ChatRepository C S :=
  { repo with doc := insert c repo.doc }

/-- The part of add_message after the transaction. -/
def persistAndGenerate (chatId : I) (ok : Bool) (msg : ChatMessage) (t : Tables I C)
    (repo : ChatRepository C S) :
    Except LibError (ChatMessage × Option M) × Tables I C × ChatRepository C S :=
  let saved := repo.persistChat am chatId ok t
  match saved.1 with
  | .error e => (.error e,saved.2)
  | .ok _ =>
    let next := saved.2.2.generateSyncMessage am
    (.ok (msg,next.2),saved.2.1,next.1)

/-- The commit is none when the transaction itself fails and rolls back. -/
def addMessage (chatId : I) (commit : Option C) (ok : Bool) (msg : ChatMessage) (t : Tables I C)
    (repo : ChatRepository C S) :
    Except LibError (ChatMessage × Option M) × Tables I C × ChatRepository C S :=
  match commit with
  | none => (.error .automerge,t,repo)
  | some c => (repo.transact c).persistAndGenerate am chatId ok msg t

/-- Apply a sync message to document and sync state, with its success. -/
def applySyncMessage (repo : ChatRepository C S) (msg : M) : ChatRepository C S × Bool :=
  let next := am.receiveSyncMessage repo.syncState repo.doc msg
  ({ repo with doc := next.2.1, syncState := next.1 },next.2.2)

/-- The part of receive_sync_message after the message has been applied; before
is the document that the patch log started from. -/
def persistAndExtract (chatId : I) (ok : Bool) (before : Doc C) (t : Tables I C)
    (repo : ChatRepository C S) :
    Except LibError (List ChatMessage × Option (Option M)) × Tables I C × ChatRepository C S :=
  let saved := repo.persistChat am chatId ok t
  match saved.1 with
  | .error e => (.error e,saved.2)
  | .ok _ =>
    match extractNewMessagesFromPatches am saved.2.2.doc (am.makePatches before saved.2.2.doc) with
    | .error e => (.error e,saved.2)
    | .ok messages =>
      let next := saved.2.2.generateSyncMessage am
      (.ok (messages,some next.2),saved.2.1,next.1)

/-- An empty frame is answered only when there is something to send. -/
def receiveEmpty (repo : ChatRepository C S) : Option (Option M) × ChatRepository C S :=
  let next := repo.generateSyncMessage am
  (if next.2.isNone then none else some next.2,next.1)

def receiveSyncMessage (chatId : I) (ok : Bool) (inSyncMsg : Option M) (t : Tables I C)
    (repo : ChatRepository C S) :
    Except LibError (List ChatMessage × Option (Option M)) × Tables I C × ChatRepository C S :=
  match inSyncMsg with
  | some msg =>
    let applied := repo.applySyncMessage am msg
    if applied.2 then applied.1.persistAndExtract am chatId ok repo.doc t
    else (.error .automerge,t,applied.1)
  | none =>
    let next := repo.receiveEmpty am
    (.ok ([],next.1),t,next.2)

/-- The assignments of reset_doc_state_to_persisted after a successful load. -/
def resetTo (repo : ChatRepository C S) (doc : Doc C) (heads : Finset C) : ChatRepository C S :=
  resetSyncState am { repo with doc := doc, lastSavedHeads := heads }

/-- The whole call, when its statements are given up to the last one. -/
def resetDocStateToPersisted (chatId : I) (oks : List Bool) (initial : C) (t : Tables I C)
    (repo : ChatRepository C S) : Option (Except LibError Unit × Tables I C × ChatRepository C S) :=
  let loaded := getPersistedDocState am chatId initial oks t .selectSnapshot
  match loaded.2 with
  | .returned doc heads => some (.ok (),loaded.1,repo.resetTo am doc heads)
  | .failed => some (.error .sqlx,loaded.1,repo)
  | _ => none

theorem resetDocStateToPersisted_error {chatId : I} {oks : List Bool} {initial : C} {t t' : Tables I C}
    {repo repo' : ChatRepository C S} {e : LibError}
    (h : repo.resetDocStateToPersisted am chatId oks initial t = some (.error e,t',repo')) : false ∈ oks := by
  unfold resetDocStateToPersisted at h
  simp only at h
  split at h
  · cases h
  · rename_i hf
    exact getPersistedDocState_failed am (by simp) hf
  · cases h

omit [DecidableEq I] in
/-- Persisting has three outcomes: nothing to write, one new row, or an error. -/
theorem persistChat_cases (chatId : I) (ok : Bool) (t : Tables I C) (repo : ChatRepository C S) :
    (am.saveAfter repo.doc repo.lastSavedHeads = ∅ ∧ repo.persistChat am chatId ok t = (.ok (),t,repo)) ∨
    (ok = true ∧ repo.persistChat am chatId ok t = (.ok (),
      t.insertLog chatId (am.saveAfter repo.doc repo.lastSavedHeads),
      { repo with lastSavedHeads := am.getHeads repo.doc })) ∨
    (ok = false ∧ am.saveAfter repo.doc repo.lastSavedHeads ≠ ∅ ∧
      repo.persistChat am chatId ok t = (.error .sqlx,t,repo)) := by
  by_cases hn : am.saveAfter repo.doc repo.lastSavedHeads = ∅
  · exact Or.inl ⟨hn,by simp [persistChat,hn]⟩
  · cases ok with
    | true => exact Or.inr (Or.inl ⟨rfl,by simp [persistChat,hn]⟩)
    | false => exact Or.inr (Or.inr ⟨rfl,hn,by simp [persistChat,hn]⟩)

omit [DecidableEq I] in
theorem persistChat_doc (chatId : I) (ok : Bool) (t : Tables I C) (repo : ChatRepository C S) :
    (repo.persistChat am chatId ok t).2.2.doc = repo.doc := by
  rcases persistChat_cases am chatId ok t repo with ⟨-,h⟩ | ⟨-,h⟩ | ⟨-,-,h⟩ <;> rw [h]

omit [DecidableEq I] in
/-- An INSERT that works is all that persisting needs. -/
theorem persistChat_ok (chatId : I) {ok : Bool} (hok : ok = true) (t : Tables I C) (repo : ChatRepository C S) :
    (repo.persistChat am chatId ok t).1 = .ok () := by
  rcases persistChat_cases am chatId ok t repo with ⟨-,h⟩ | ⟨-,h⟩ | ⟨hno,-,-⟩
  · rw [h]
  · rw [h]
  · rw [hok] at hno
    cases hno

/-- The four ways a sync message can end: refused by automerge, not written, written
but not readable, or merged. -/
inductive Received (chatId : I) (ok : Bool) (msg : M) (t : Tables I C) (repo : ChatRepository C S) :
    Except LibError (List ChatMessage × Option (Option M)) × Tables I C × ChatRepository C S → Prop where
  | refused (ha : (repo.applySyncMessage am msg).2 = false) :
      Received chatId ok msg t repo (.error .automerge,t,(repo.applySyncMessage am msg).1)
  | unwritten (ha : (repo.applySyncMessage am msg).2 = true) (hok : ok = false)
      (hn : am.saveAfter (repo.applySyncMessage am msg).1.doc repo.lastSavedHeads ≠ ∅) :
      Received chatId ok msg t repo (.error .sqlx,t,(repo.applySyncMessage am msg).1)
  | unreadable (ha : (repo.applySyncMessage am msg).2 = true)
      (hp : ((repo.applySyncMessage am msg).1.persistChat am chatId ok t).1 = .ok ()) (e : LibError)
      (he : extractNewMessagesFromPatches am (repo.applySyncMessage am msg).1.doc
        (am.makePatches repo.doc (repo.applySyncMessage am msg).1.doc) = .error e) :
      Received chatId ok msg t repo (.error e,((repo.applySyncMessage am msg).1.persistChat am chatId ok t).2)
  | merged (ha : (repo.applySyncMessage am msg).2 = true)
      (hp : ((repo.applySyncMessage am msg).1.persistChat am chatId ok t).1 = .ok ())
      (messages : List ChatMessage)
      (he : extractNewMessagesFromPatches am (repo.applySyncMessage am msg).1.doc
        (am.makePatches repo.doc (repo.applySyncMessage am msg).1.doc) = .ok messages) :
      Received chatId ok msg t repo
        (.ok (messages,some (((repo.applySyncMessage am msg).1.persistChat am chatId ok t).2.2.generateSyncMessage am).2),
          ((repo.applySyncMessage am msg).1.persistChat am chatId ok t).2.1,
          (((repo.applySyncMessage am msg).1.persistChat am chatId ok t).2.2.generateSyncMessage am).1)

omit [DecidableEq I] in
theorem receiveSyncMessage_received (chatId : I) (ok : Bool) (msg : M) (t : Tables I C)
    (repo : ChatRepository C S) :
    Received am chatId ok msg t repo (repo.receiveSyncMessage am chatId ok (some msg) t) := by
  simp only [receiveSyncMessage]
  cases ha : (repo.applySyncMessage am msg).2 with
  | false => exact .refused ha
  | true =>
    have hdoc := (repo.applySyncMessage am msg).1.persistChat_doc am chatId ok t
    simp only [if_true,persistAndExtract,hdoc]
    cases hp : ((repo.applySyncMessage am msg).1.persistChat am chatId ok t).1 with
    | error e =>
      rcases (repo.applySyncMessage am msg).1.persistChat_cases am chatId ok t with
        ⟨-,h⟩ | ⟨-,h⟩ | ⟨hok,hn,h⟩
      · rw [h] at hp
        cases hp
      · rw [h] at hp
        cases hp
      · rw [h] at hp ⊢
        cases hp
        exact .unwritten ha hok hn
    | ok u =>
      cases he : extractNewMessagesFromPatches am (repo.applySyncMessage am msg).1.doc
          (am.makePatches repo.doc (repo.applySyncMessage am msg).1.doc) with
      | error e => exact .unreadable ha hp e he
      | ok messages => exact .merged ha hp messages he

omit [DecidableEq I] in
/-- A send that returns an error has committed nothing, or its INSERT has failed. -/
theorem addMessage_error {chatId : I} {commit : Option C} {ok : Bool} {msg : ChatMessage} {t : Tables I C}
    {repo : ChatRepository C S} {e : LibError}
    (h : (repo.addMessage am chatId commit ok msg t).1 = .error e) :
    (commit = none ∧ (repo.addMessage am chatId commit ok msg t).2 = (t,repo)) ∨
      ∃ c, commit = some c ∧ ok = false ∧
        (repo.addMessage am chatId commit ok msg t).2 = (t,repo.transact c) := by
  cases commit with
  | none => exact Or.inl ⟨rfl,rfl⟩
  | some c =>
    refine Or.inr ⟨c,rfl,?_⟩
    simp only [addMessage,persistAndGenerate] at h ⊢
    rcases (repo.transact c).persistChat_cases am chatId ok t with ⟨-,hp⟩ | ⟨-,hp⟩ | ⟨hok,-,hp⟩
    · rw [hp] at h
      cases h
    · rw [hp] at h
      cases h
    · rw [hp]
      exact ⟨hok,rfl⟩

end ChatRepository
end GossipCore.Persistence
