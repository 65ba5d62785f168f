import GossipCore.Manager.PersistBeforeSend
import GossipCore.Persistence.Growth

/-! What one handler of a chat actor can do, whatever fails in it. Rows and memory
agree in every reachable state, and every later invariant is read off these cases. -/
namespace GossipCore.Manager
open Base Persistence

namespace SyncActor
variable {I C S M O : Type} [DecidableEq I] [DecidableEq C] (am : Automerge C S M O) (chatId : I)

/-- The rows and the memory agree, whatever has failed. -/
structure Tracked (s : SyncActor I C S M) : Prop where
  tables : s.tables.Sound chatId am.graph
  memory : ∀ m, s.memory = some m → RepoSound am chatId s.tables m.doc

theorem tracked_of_memory {t : Tables I C} (ht : t.Sound chatId am.graph) {m : SyncMemory C S}
    (hm : RepoSound am chatId t m.doc) (x : Option M) (u : Bool) :
    Tracked am chatId (⟨t,some m,x,u⟩ : SyncActor I C S M) where
  tables := ht
  memory _ h := by
    cases h
    exact hm

theorem Recovered.tracked {s s' : SyncActor I C S M} {m : SyncMemory C S} {oks : List Bool} {i : C}
    (h : Recovered am chatId s m oks i s') (ht : s.tables.Sound chatId am.graph)
    (hm : RepoSound am chatId s.tables m.doc) : Tracked am chatId s' := by
  cases h with
  | gaveUp hf => exact tracked_of_memory am chatId ht hm _ _
  | reloaded hf t ht' hs hr hl => exact tracked_of_memory am chatId ht' (repoSound_generate am chatId hr) _ _
  | reloadFailed hf t ht' hs hr e hl => exact tracked_of_memory am chatId ht' hr _ _

theorem repoSound_apply {t : Tables I C} {doc : ChatRepository C S} (h : RepoSound am chatId t doc) (msg : M) :
    RepoSound am chatId t (doc.applySyncMessage am msg).1 :=
  ⟨h.row,h.saved,h.held.trans (am.receive_grows _ _ _),am.receive_closed _ _ _ h.closed⟩

theorem repoSound_transact {t : Tables I C} {doc : ChatRepository C S} (h : RepoSound am chatId t doc) {c : C}
    (hc : am.graph.deps c = am.getHeads doc.doc) : RepoSound am chatId t (doc.transact c) := by
  refine ⟨h.row,h.saved,h.held.trans (Finset.subset_insert _ _),am.graph.closed_insert h.closed ?_⟩
  rw [hc,Automerge.getHeads,am.graph.ready_eq_of_closed h.closed]
  exact am.graph.heads_subset _

/-- A persist that has worked: the rows hold the document, and of the memory only the
saved heads are new. -/
structure Persisted (repo : ChatRepository C S) (t : Tables I C) (repo' : ChatRepository C S) : Prop where
  tables : t.Sound chatId am.graph
  sound : RepoSound am chatId t repo'
  stored : t.stored chatId = repo.doc
  doc : repo'.doc = repo.doc
  syncState : repo'.syncState = repo.syncState
  syncStatus : repo'.syncStatus = repo.syncStatus

theorem persistChat_persisted {t : Tables I C} (ht : t.Sound chatId am.graph) {repo : ChatRepository C S}
    (hr : RepoSound am chatId t repo) {ok : Bool} (h : (repo.persistChat am chatId ok t).1 = .ok ()) :
    Persisted am chatId repo (repo.persistChat am chatId ok t).2.1 (repo.persistChat am chatId ok t).2.2 := by
  obtain ⟨ht',hr',-,hok⟩ := persistChat_sound am chatId ht hr ok
  have hdoc := repo.persistChat_doc am chatId ok t
  refine ⟨ht',hr',(hok h).symm.trans hdoc,hdoc,?_,?_⟩
  · rcases repo.persistChat_cases am chatId ok t with ⟨-,hp⟩ | ⟨-,hp⟩ | ⟨-,-,hp⟩ <;> rw [hp]
  · rcases repo.persistChat_cases am chatId ok t with ⟨-,hp⟩ | ⟨-,hp⟩ | ⟨-,-,hp⟩ <;> rw [hp]

/-- What a failed receive_sync_message leaves in the rows and in memory. -/
inductive Rejected (s : SyncActor I C S M) (m : SyncMemory C S) (msg : M) (ok : Bool) :
    Tables I C → ChatRepository C S → Prop where
  | refused (ha : (m.doc.applySyncMessage am msg).2 = false) :
      Rejected s m msg ok s.tables (m.doc.applySyncMessage am msg).1
  | unwritten (ha : (m.doc.applySyncMessage am msg).2 = true) (hok : ok = false) :
      Rejected s m msg ok s.tables (m.doc.applySyncMessage am msg).1
  | unreadable (ha : (m.doc.applySyncMessage am msg).2 = true) (t : Tables I C) (doc : ChatRepository C S)
      (hp : Persisted am chatId (m.doc.applySyncMessage am msg).1 t doc)
      (hw : ok = true ∨ t.stored chatId = s.tables.stored chatId) (e : LibError)
      (he : extractNewMessagesFromPatches am (m.doc.applySyncMessage am msg).1.doc
        (am.makePatches m.doc.doc (m.doc.applySyncMessage am msg).1.doc) = .error e) :
      Rejected s m msg ok t doc

/-- The handlers that leave rows and memory alone. -/
def Ignored : SyncLabel C M → Prop
  | .localSend _ none _ => True
  | .incoming .undecodable _ _ _ => True
  | .syncTick false => True
  | .connStateChanged false => True
  | _ => False

/-- The cases of a handler. -/
inductive Handled (s : SyncActor I C S M) : SyncLabel C M → SyncActor I C S M → Prop where
  | crash : Handled s .crash { s with memory := none, generated := none, unsaved := false }
  | opened (oks : List Bool) (i : C) (hn : s.memory = none) (t : Tables I C)
      (ht : t.Sound chatId am.graph) (hrow : t.chats chatId ≠ none)
      (hs : t.stored chatId ⊆ s.tables.stored chatId ∪ {i}) : Handled s (.open oks i)
        ⟨t,some ⟨ChatRepository.new am (t.stored chatId) (am.getHeads (t.stored chatId)),false⟩,none,false⟩
  | openFailed (oks : List Bool) (i : C) (hn : s.memory = none) (t : Tables I C)
      (ht : t.Sound chatId am.graph) (hs : t.stored chatId ⊆ s.tables.stored chatId ∪ {i}) :
      Handled s (.open oks i) { s with tables := t, generated := none }
  | ignored (m : SyncMemory C S) (hm : s.memory = some m) (l : SyncLabel C M) (hl : Ignored l) :
      Handled s l { s with generated := none }
  | sendFailed (m : SyncMemory C S) (hm : s.memory = some m) (msg : ChatMessage) (c : C)
      (hc : am.graph.deps c = am.getHeads m.doc.doc)
      (hres : ∃ e, (m.doc.addMessage am chatId (some c) false msg s.tables).1 = .error e) :
      Handled s (.localSend msg (some c) false) ⟨s.tables,some { m with doc := m.doc.transact c },none,true⟩
  | sent (m : SyncMemory C S) (hm : s.memory = some m) (msg : ChatMessage) (c : C)
      (hc : am.graph.deps c = am.getHeads m.doc.doc) (t : Tables I C) (doc : ChatRepository C S)
      (hp : Persisted am chatId (m.doc.transact c) t doc)
      (hres : ∃ x, (m.doc.addMessage am chatId (some c) true msg s.tables).1 = .ok (msg,x)) :
      Handled s (.localSend msg (some c) true)
        ⟨t,some { m with doc := (doc.generateSyncMessage am).1 },(doc.generateSyncMessage am).2,false⟩
  | tick (m : SyncMemory C S) (hm : s.memory = some m) : Handled s (.syncTick true) (s.generate am m)
  | connected (m : SyncMemory C S) (hm : s.memory = some m) :
      Handled s (.connStateChanged true) (s.generate am { m with doc := m.doc.resetSyncState am })
  | answered (m : SyncMemory C S) (hm : s.memory = some m) (ok : Bool) (oks : List Bool) (i : C) :
      Handled s (.incoming .empty ok oks i) (s.generate am { m with resetDocState := false })
  | merged (m : SyncMemory C S) (hm : s.memory = some m) (msg : M) (ok : Bool) (oks : List Bool) (i : C)
      (ha : (m.doc.applySyncMessage am msg).2 = true) (t : Tables I C) (doc : ChatRepository C S)
      (hp : Persisted am chatId (m.doc.applySyncMessage am msg).1 t doc) (messages : List ChatMessage)
      (he : extractNewMessagesFromPatches am (m.doc.applySyncMessage am msg).1.doc
        (am.makePatches m.doc.doc (m.doc.applySyncMessage am msg).1.doc) = .ok messages) (u : Bool)
      (hres : ∃ reply, (m.doc.receiveSyncMessage am chatId ok (some msg) s.tables).1 = .ok (messages,reply)) :
      Handled s (.incoming (.sync msg) ok oks i)
        ⟨t,some ⟨(doc.generateSyncMessage am).1,false⟩,(doc.generateSyncMessage am).2,u⟩
  | rejected (m : SyncMemory C S) (hm : s.memory = some m) (msg : M) (ok : Bool) (oks : List Bool) (i : C)
      (t : Tables I C) (doc : ChatRepository C S) (hj : Rejected am chatId s m msg ok t doc) (u : Bool)
      (s' : SyncActor I C S M)
      (e : LibError) (hres : m.doc.receiveSyncMessage am chatId ok (some msg) s.tables = (.error e,t,doc))
      (hr : Recovered am chatId { s with tables := t, unsaved := u } { m with doc := doc } oks i s') :
      Handled s (.incoming (.sync msg) ok oks i) s'

/-- In memory such a frame has been applied, with nothing published. -/
theorem Rejected.memory {s : SyncActor I C S M} {m : SyncMemory C S} {msg : M} {ok : Bool} {t : Tables I C}
    {doc : ChatRepository C S} (h : Rejected am chatId s m msg ok t doc) :
    doc.doc = (m.doc.applySyncMessage am msg).1.doc ∧
      doc.syncState = (m.doc.applySyncMessage am msg).1.syncState ∧ doc.syncStatus = m.doc.syncStatus := by
  cases h with
  | refused ha => exact ⟨rfl,rfl,rfl⟩
  | unwritten ha hok => exact ⟨rfl,rfl,rfl⟩
  | unreadable ha t doc hp hw e he => exact ⟨hp.doc,hp.syncState,hp.syncStatus⟩

theorem Rejected.sound {s : SyncActor I C S M} {m : SyncMemory C S} {msg : M} {ok : Bool} {t : Tables I C}
    {doc : ChatRepository C S} (h : Rejected am chatId s m msg ok t doc) (hs : Tracked am chatId s)
    (hm : s.memory = some m) : t.Sound chatId am.graph ∧ RepoSound am chatId t doc := by
  have happ := repoSound_apply am chatId (hs.memory m hm) msg
  cases h with
  | refused ha => exact ⟨hs.tables,happ⟩
  | unwritten ha hok => exact ⟨hs.tables,happ⟩
  | unreadable ha t doc hp hw e he => exact ⟨hp.tables,hp.sound⟩

theorem Handled.tracked {s s' : SyncActor I C S M} {l : SyncLabel C M} (h : Handled am chatId s l s')
    (hs : Tracked am chatId s) : Tracked am chatId s' := by
  cases h with
  | crash => exact ⟨hs.tables,fun _ h => by cases h⟩
  | opened oks i hn t ht hrow hst =>
    exact tracked_of_memory am chatId ht (repoSound_loaded am chatId ht hrow rfl rfl) _ _
  | openFailed oks i hn t ht hst => exact ⟨ht,fun m h => absurd (hn.symm.trans h) (by simp)⟩
  | ignored m hm l hl => exact ⟨hs.tables,hs.memory⟩
  | sendFailed m hm msg c hc hres =>
    exact tracked_of_memory am chatId hs.tables (repoSound_transact am chatId (hs.memory m hm) hc) _ _
  | sent m hm msg c hc t doc hp hres =>
    exact tracked_of_memory am chatId hp.tables (repoSound_generate am chatId hp.sound) _ _
  | tick m hm => exact tracked_of_memory am chatId hs.tables (repoSound_generate am chatId (hs.memory m hm)) _ _
  | connected m hm =>
    obtain ⟨hrow,hsaved,hheld,hclosed⟩ := hs.memory m hm
    have hreset : RepoSound am chatId s.tables (m.doc.resetSyncState am) := ⟨hrow,hsaved,hheld,hclosed⟩
    exact tracked_of_memory am chatId hs.tables (repoSound_generate am chatId hreset) _ _
  | answered m hm ok oks i =>
    exact tracked_of_memory am chatId hs.tables (repoSound_generate am chatId (hs.memory m hm)) _ _
  | merged m hm msg ok oks i ha t doc hp messages he u hres =>
    exact tracked_of_memory am chatId hp.tables (repoSound_generate am chatId hp.sound) _ _
  | rejected m hm msg ok oks i t doc hj u s' e hres hr =>
    obtain ⟨ht,hd⟩ := hj.sound am chatId hs hm
    exact hr.tracked am chatId ht hd

private theorem handleSingle_handled {s : SyncActor I C S M} (hs : Tracked am chatId s) {m : SyncMemory C S}
    (hm : s.memory = some m) (msg : ChatMessage) {c : C} (hc : am.graph.deps c = am.getHeads m.doc.doc)
    (ok : Bool) :
    Handled am chatId s (.localSend msg (some c) ok) (s.handleSingle am chatId m msg (some c) ok) := by
  have hd' := hs.memory m hm
  have hd := repoSound_transact am chatId hd' hc
  have hout : m.doc.addMessage am chatId (some c) ok msg s.tables =
      (m.doc.transact c).persistAndGenerate am chatId ok msg s.tables := rfl
  simp only [ChatRepository.persistAndGenerate] at hout
  cases hp : ((m.doc.transact c).persistChat am chatId ok s.tables).1 with
  | ok u =>
    have hok : ok = true := by
      rcases (m.doc.transact c).persistChat_cases am chatId ok s.tables with ⟨he,-⟩ | ⟨hok,-⟩ | ⟨-,-,h⟩
      · rw [hd.saveAfter] at he
        have hstored := hd'.held (Finset.sdiff_eq_empty_iff_subset.mp he (Finset.mem_insert_self c m.doc.doc))
        rw [am.getHeads_of_closed hd'.closed] at hc
        exact absurd hstored (am.graph.notMem_of_deps_heads hc)
      · exact hok
      · rw [h] at hp
        cases hp
    subst hok
    simp only [hp] at hout
    simp only [handleSingle,hout]
    exact .sent m hm msg c hc _ _ (persistChat_persisted am chatId hs.tables hd hp) ⟨_,congrArg Prod.fst hout⟩
  | error e =>
    simp only [hp] at hout
    have herr : (m.doc.addMessage am chatId (some c) ok msg s.tables).1 = .error e := congrArg Prod.fst hout
    obtain ⟨h,-⟩ | ⟨x,h,rfl,hafter⟩ := ChatRepository.addMessage_error am herr
    · cases h
    · cases h
      simp only [handleSingle,herr,hafter,Option.isSome_some,Bool.or_true]
      exact .sendFailed m hm msg c hc ⟨e,herr⟩

/-- A persist that works has written, or has had nothing to write. -/
private theorem persistChat_wrote {t : Tables I C} {repo : ChatRepository C S} {ok : Bool}
    (h : (repo.persistChat am chatId ok t).1 = .ok ()) :
    ok = true ∨ (repo.persistChat am chatId ok t).2.1.stored chatId = t.stored chatId := by
  rcases repo.persistChat_cases am chatId ok t with ⟨-,hp⟩ | ⟨hok,-⟩ | ⟨-,-,hp⟩
  · exact Or.inr (by rw [hp])
  · exact Or.inl hok
  · rw [hp] at h
    cases h

private theorem handleIncomming_handled {s s' : SyncActor I C S M} (hs : Tracked am chatId s)
    {m : SyncMemory C S} (hm : s.memory = some m) {msg : M} {ok : Bool} {oks : List Bool} {i : C}
    (hi : am.graph.deps i = ∅) (h : s.handleIncomming am chatId m (.sync msg) ok oks i = some s') :
    Handled am chatId s (.incoming (.sync msg) ok oks i) s' := by
  have happ := repoSound_apply am chatId (hs.memory m hm) msg
  simp only [handleIncomming] at h
  generalize s.leavesUnsaved am chatId m msg ok = u at h
  have hr := ChatRepository.receiveSyncMessage_received am chatId ok msg s.tables m.doc
  generalize hout : m.doc.receiveSyncMessage am chatId ok (some msg) s.tables = out at h hr
  have hfail : ∀ e t doc, m.doc.receiveSyncMessage am chatId ok (some msg) s.tables = (.error e,t,doc) →
      Rejected am chatId s m msg ok t doc →
      recover am chatId { s with tables := t, unsaved := u } { m with doc := doc } oks i = some s' →
      Handled am chatId s (.incoming (.sync msg) ok oks i) s' := by
    intro e t doc hres hj he
    obtain ⟨ht,hd⟩ := hj.sound am chatId hs hm
    exact .rejected m hm msg ok oks i t doc hj u s' e hres (recover_recovered am chatId he ht hd hi)
  cases hr with
  | refused ha => exact hfail _ _ _ hout (.refused ha) h
  | unwritten ha hok hn => exact hfail _ _ _ hout (.unwritten ha hok) h
  | unreadable ha hp e he =>
    refine hfail _ _ _ hout (.unreadable ha _ _ ?_ (persistChat_wrote am chatId hp) e he) h
    exact persistChat_persisted am chatId hs.tables happ hp
  | merged ha hp messages he =>
    cases h
    exact .merged m hm msg ok oks i ha _ _ (persistChat_persisted am chatId hs.tables happ hp) messages he u
      ⟨_,congrArg Prod.fst hout⟩

private theorem openChat_handled {s s' : SyncActor I C S M} (hs : Tracked am chatId s) (hn : s.memory = none)
    {oks : List Bool} {i : C} (hi : am.graph.deps i = ∅) (h : s.openChat am chatId oks i = some s') :
    Handled am chatId s (.open oks i) s' := by
  obtain ⟨ht,hf,-⟩ := getPersistedDocState_sound am chatId hi oks hs.tables (l := .selectSnapshot) trivial
  obtain ⟨-,hst⟩ := getPersistedDocState_stored am chatId hi oks hs.tables (l := .selectSnapshot) trivial
    (Finset.empty_subset _)
  unfold SyncActor.openChat at h
  generalize getPersistedDocState am chatId i oks s.tables .selectSnapshot = loaded at *
  obtain ⟨t,l⟩ := loaded
  cases l with
  | returned doc heads =>
    obtain ⟨hrow,hdoc,hheads⟩ := hf
    cases h
    rw [hheads,hdoc]
    exact .opened oks i hn t ht hrow hst
  | failed =>
    cases h
    exact .openFailed oks i hn t ht hst
  | _ => cases h

/-- Every step of the actor is one of these cases. -/
theorem step_handled {s s' : SyncActor I C S M} {l : SyncLabel C M} (hs : Tracked am chatId s)
    (h : step am chatId s l = some s') : Handled am chatId s l s' := by
  cases l with
  | «open» oks i =>
    simp only [step] at h
    split at h
    · rename_i hn
      exact openChat_handled am chatId hs (Option.isNone_iff_eq_none.mp hn.1) hn.2 h
    · cases h
  | localSend msg commit ok =>
    simp only [step] at h
    split at h
    · rename_i m hm
      split at h <;> cases h
      rename_i hc
      cases commit with
      | none =>
        have hsame : s.handleSingle am chatId m msg none ok = { s with generated := none } := by
          simp [handleSingle,ChatRepository.addMessage,hm]
        rw [hsame]
        exact .ignored m hm _ trivial
      | some c => exact handleSingle_handled am chatId hs hm msg (hc c rfl) ok
    · cases h
  | incoming frame ok oks i =>
    simp only [step] at h
    split at h
    · rename_i m hm
      split at h
      · rename_i hi
        cases frame with
        | undecodable =>
          cases h
          exact .ignored m hm _ trivial
        | empty =>
          have hsame : s.handleIncomming am chatId m .empty ok oks i =
              some (s.generate am { m with resetDocState := false }) := by
            simp only [handleIncomming,ChatRepository.receiveSyncMessage,ChatRepository.receiveEmpty,
              SyncActor.generate]
            cases (m.doc.generateSyncMessage am).2 <;> rfl
          cases hsame.symm.trans h
          exact .answered m hm ok oks i
        | sync msg => exact handleIncomming_handled am chatId hs hm hi h
      · cases h
    · cases h
  | syncTick connected =>
    simp only [step] at h
    split at h
    · rename_i m hm
      cases connected with
      | true =>
        cases h
        exact .tick m hm
      | false =>
        cases h
        exact .ignored m hm _ trivial
    · cases h
  | connStateChanged connected =>
    simp only [step] at h
    split at h
    · rename_i m hm
      cases connected with
      | true =>
        cases h
        exact .connected m hm
      | false =>
        cases h
        exact .ignored m hm _ trivial
    · cases h
  | crash =>
    cases h
    exact .crash

theorem initial_tracked {t : Tables I C} (hn : t.chats chatId = none) (hl : t.selectLog chatId = []) :
    Tracked am chatId (initial t : SyncActor I C S M) :=
  ⟨Tables.sound_of_absent hn hl,fun _ h => by cases h⟩

theorem step_tracked {s s' : SyncActor I C S M} {l : SyncLabel C M} (hs : Tracked am chatId s)
    (h : step am chatId s l = some s') : Tracked am chatId s' :=
  (step_handled am chatId hs h).tracked am chatId hs

/-- In every state of every run. -/
theorem run_tracked {t : Tables I C} (hn : t.chats chatId = none) (hl : t.selectLog chatId = [])
    {labels : List (SyncLabel C M)} {s : SyncActor I C S M}
    (h : run (step am chatId) (initial t) labels = some s) : Tracked am chatId s :=
  run_invariant (fun _ _ _ => step_tracked am chatId) h (initial_tracked am chatId hn hl)

/-- A chat that has just been opened shows what is stored, with a new sync state. -/
theorem memory_of_opened {t : Tables I C} (hn : t.chats chatId = none) (hl : t.selectLog chatId = [])
    {before : List (SyncLabel C M)} {oks : List Bool} {i : C} {s : SyncActor I C S M}
    (h : run (step am chatId) (initial t) (before++[.open oks i]) = some s) {m : SyncMemory C S}
    (hm : s.memory = some m) :
    m = ⟨ChatRepository.new am (s.tables.stored chatId) (am.getHeads (s.tables.stored chatId)),false⟩ := by
  rw [run_append] at h
  obtain ⟨u,hu,hopen⟩ := Option.bind_eq_some_iff.mp h
  obtain ⟨v,hv,hend⟩ := run_cons hopen
  cases hend
  cases step_handled am chatId (run_tracked am chatId hn hl hu) hv with
  | opened oks i hnone t' ht' hrow hst =>
    cases hm
    rfl
  | openFailed oks i hnone t' ht' hst => cases hnone.symm.trans hm
  | ignored m' hm' l hl' => cases hl'

end SyncActor
end GossipCore.Manager
