import GossipCore.Manager.Handlers

/-! What a call that returns an error leaves behind: in the rows, in memory, and in
what later calls write and send. -/
namespace GossipCore.Manager
open Base Persistence

namespace SyncActor

section Receive
variable {I C S M O : Type} [DecidableEq I] [DecidableEq C] (am : Automerge C S M O) (chatId : I)

/-- Every patch that points into a message list finds a message there. -/
def Readable (before after : Doc C) : Prop :=
  ∀ patch ∈ am.makePatches before after, ∃ msg, patchedMessage am after patch = .ok msg

omit [DecidableEq C] in
/-- Extraction succeeds exactly on a readable merge. -/
theorem extract_ok_iff {before after : Doc C} :
    (∃ msgs, extractNewMessagesFromPatches am after (am.makePatches before after) = .ok msgs) ↔
      Readable am before after := by
  rw [Readable,← mapM_ok_iff,extractNewMessagesFromPatches]
  cases (am.makePatches before after).mapM (patchedMessage am after) with
  | error e => exact ⟨fun ⟨_,h⟩ => (by cases h),fun ⟨_,h⟩ => by cases h⟩
  | ok found => exact ⟨fun _ => ⟨found,rfl⟩,fun _ => ⟨_,rfl⟩⟩

omit [DecidableEq C] in
theorem not_readable_of_error {before after : Doc C} {e : LibError}
    (h : extractNewMessagesFromPatches am after (am.makePatches before after) = .error e) :
    ¬Readable am before after := by
  intro hread
  obtain ⟨msgs,hmsgs⟩ := (extract_ok_iff am).mpr hread
  cases h.symm.trans hmsgs

/-- A frame that automerge takes, that is written and that is readable is not rejected. -/
theorem Rejected.not_merged {s : SyncActor I C S M} {m : SyncMemory C S} {msg : M} {ok : Bool} {t : Tables I C}
    {doc : ChatRepository C S} (h : Rejected am chatId s m msg ok t doc)
    (hyes : (m.doc.applySyncMessage am msg).2 = true) (hok : ok = true) :
    ¬Readable am m.doc.doc (m.doc.applySyncMessage am msg).1.doc := by
  cases h with
  | refused ha => cases ha.symm.trans hyes
  | unwritten ha hno => cases hno.symm.trans hok
  | unreadable ha t doc hp hw e he => exact not_readable_of_error am he

/-- The rows and the repository after a call stand for what was stored before it: a
reload gives that document, and it can be listed if it could be listed before. -/
def KeepsStored (t : Tables I C) (after : Tables I C × ChatRepository C S) : Prop :=
  after.1.stored chatId = t.stored chatId ∧
  ∀ oks i t' repo', am.graph.deps i = ∅ →
    after.2.resetDocStateToPersisted am chatId oks i after.1 = some (.ok (),t',repo') →
    repo'.doc = t.stored chatId ∧
      ((∃ msgs, getAllMessages am (t.stored chatId) = .ok msgs) →
        ∃ msgs, getAllMessages am repo'.doc = .ok msgs)

private theorem keepsStored_of_stored {t t' : Tables I C} (ht : t'.Sound chatId am.graph)
    {repo : ChatRepository C S} (hr : RepoSound am chatId t' repo)
    (hs : t'.stored chatId = t.stored chatId) : KeepsStored am chatId t (t',repo) := by
  refine ⟨hs,fun oks i u repo' hi h => ?_⟩
  obtain ⟨-,-,-,⟨-,hrepo⟩ | ⟨he,-⟩⟩ := resetDocStateToPersisted_sound am chatId ht hr hi h
  · have hdoc : repo'.doc = t.stored chatId := by
      rw [hrepo]
      exact hs
    exact ⟨hdoc,fun hm => hdoc ▸ hm⟩
  · cases he

/-- A persist that works although its INSERT would fail has had nothing to write. -/
private theorem doc_stored_of_not_ok {t : Tables I C} {repo : ChatRepository C S}
    (hr : RepoSound am chatId t repo) (h : (repo.persistChat am chatId false t).1 = .ok ()) :
    repo.doc ⊆ t.stored chatId := by
  rcases repo.persistChat_cases am chatId false t with ⟨he,-⟩ | ⟨hok,-⟩ | ⟨-,-,hp⟩
  · rw [hr.saveAfter] at he
    exact Finset.sdiff_eq_empty_iff_subset.mp he
  · cases hok
  · rw [hp] at h
    cases h

/-- A rejected sync message is undone by a reload unless it was rejected after its
changes had been written. -/
theorem rejected_message_undone_iff {t : Tables I C} (hn : t.chats chatId = none)
    (hl : t.selectLog chatId = []) {labels : List (SyncLabel C M)} {s : SyncActor I C S M}
    (h : run (step am chatId) (initial t) labels = some s) {m : SyncMemory C S} (hm : s.memory = some m)
    (inSyncMsg : Option M) (ok : Bool) :
    ((∃ e, (m.doc.receiveSyncMessage am chatId ok inSyncMsg s.tables).1 = .error e) →
      KeepsStored am chatId s.tables (m.doc.receiveSyncMessage am chatId ok inSyncMsg s.tables).2) ↔
    ∀ msg, inSyncMsg = some msg →
      (m.doc.applySyncMessage am msg).2 = false ∨ ok = false ∨
      (m.doc.applySyncMessage am msg).1.doc ⊆ s.tables.stored chatId ∨
      Readable am m.doc.doc (m.doc.applySyncMessage am msg).1.doc := by
  have hs := run_tracked am chatId hn hl h
  cases inSyncMsg with
  | none => exact ⟨fun _ _ he => (by cases he),fun _ ⟨_,he⟩ => by cases he⟩
  | some msg =>
    have happ := repoSound_apply am chatId (hs.memory m hm) msg
    have hkeep := keepsStored_of_stored am chatId (t := s.tables) hs.tables happ rfl
    simp only [Option.some.injEq,forall_eq']
    have hr := m.doc.receiveSyncMessage_received am chatId ok msg s.tables
    generalize m.doc.receiveSyncMessage am chatId ok (some msg) s.tables = out at hr
    cases hr with
    | refused ha => exact ⟨fun _ => Or.inl ha,fun _ _ => hkeep⟩
    | unwritten ha hok hnew => exact ⟨fun _ => Or.inr (Or.inl hok),fun _ _ => hkeep⟩
    | unreadable ha hp e he =>
      have hsaved := persistChat_persisted am chatId hs.tables happ hp
      constructor
      · intro hall
        have hsame := (hall ⟨e,rfl⟩).1
        exact Or.inr (Or.inr (Or.inl (hsaved.stored.symm.trans hsame).subset))
      · intro hcond _
        have hsub : (m.doc.applySyncMessage am msg).1.doc ⊆ s.tables.stored chatId := by
          rcases hcond with hno | rfl | hsub | hread
          · rw [ha] at hno
            cases hno
          · exact doc_stored_of_not_ok am chatId happ hp
          · exact hsub
          · exact absurd hread (not_readable_of_error am he)
        refine keepsStored_of_stored am chatId hsaved.tables hsaved.sound ?_
        exact hsaved.stored.trans (Finset.Subset.antisymm hsub happ.held)
    | merged ha hp messages he =>
      refine ⟨fun _ => Or.inr (Or.inr (Or.inr ((extract_ok_iff am).mp ⟨messages,he⟩))),?_⟩
      rintro - ⟨e,he'⟩
      cases he'

end Receive

/-- The changes of a line, of which the first after the initial one puts an entry into
B's list that is no message of this program. -/
def unreadableEntry : Automerge Nat Unit (Finset Nat) Unit where
  graph := Line.graph
  newState := ()
  receiveSyncMessage _ d m := if Line.graph.Closed (d ∪ m) then ((),d ∪ m,true) else ((),d,false)
  generateSyncMessage _ d := ((),some d)
  carried m := m
  makePatches before after := if 1 ∈ after \ before then [⟨[((),.map "msgs_B"),((),.seq 0)]⟩] else []
  rootKeys d := if 1 ∈ d then ["msgs_B"] else []
  getRoot d key := if 1 ∈ d ∧ key = "msgs_B" then some () else none
  length d _ := if 1 ∈ d then 1 else 0
  hydrateMessage _ _ _ := none
  receive_grows _ d m := by
    split
    · exact Finset.subset_union_left
    · exact Finset.Subset.refl d
  receive_closed _ d m hd := by
    split
    · assumption
    · exact hd
  carried_subset _ d m h := by
    cases h
    exact Finset.Subset.refl d

/-- The chat after ChatRepository::new has created it. -/
def opened : SyncActor Unit Nat Unit (Finset Nat) :=
  ⟨⟨fun _ => some {0},[],0,List.Pairwise.nil,by simp⟩,some ⟨ChatRepository.new unreadableEntry {0} {0},false⟩,none,false⟩

theorem run_opened : run (step unreadableEntry ()) (initial Tables.empty) [.open [true,true] 0] = some opened := by
  rfl

theorem rejected_message_undone_unwritten :
    KeepsStored unreadableEntry () opened.tables
      ((ChatRepository.new unreadableEntry {0} {0}).receiveSyncMessage unreadableEntry () false (some {1})
        opened.tables).2 :=
  (rejected_message_undone_iff unreadableEntry () rfl rfl run_opened rfl (some {1}) false).mpr
    (fun _ _ => Or.inr (Or.inl rfl)) ⟨.sqlx,rfl⟩

/-- The entry is stored before it is found to be unreadable. -/
theorem unreadable_entry_is_stored :
    run (step unreadableEntry ()) (initial Tables.empty) [.open [true,true] 0] = some opened ∧
    ∃ out, (ChatRepository.new unreadableEntry {0} {0}).receiveSyncMessage unreadableEntry () true (some {1})
        opened.tables = out ∧
      out.1 = .error .automerge ∧ opened.tables.stored () = {0} ∧ out.2.1.stored () = {0,1} ∧
      getAllMessages unreadableEntry {0} = .ok [] ∧ getAllMessages unreadableEntry {0,1} = .error .automerge ∧
      ¬ KeepsStored unreadableEntry () opened.tables out.2 := by
  refine ⟨rfl,_,rfl,?_,?_,?_,?_,?_,?_⟩
  · decide +kernel
  · decide +kernel
  · decide +kernel
  · decide +kernel
  · decide +kernel
  · rintro ⟨h,-⟩
    revert h
    decide +kernel

section Send
variable {I C S M : Type} [DecidableEq I] [DecidableEq C] (cd : ChatDocs C S M) (chatId : I)

/-- No change of the set appends the message. -/
def Lacks (msg : ChatMessage) (d : Finset C) : Prop := ∀ c ∈ d, cd.message? c ≠ some msg

/-- The steps that do not bring the message: it is not sent again, and neither a frame
nor a new chat contains it. -/
def Without (msg : ChatMessage) : SyncLabel C M → Prop
  | .open _ i => cd.message? i ≠ some msg
  | .localSend _ (some c) _ => cd.message? c ≠ some msg
  | .incoming (.sync m) _ _ _ =>
    ∀ s d, ∀ c ∈ (cd.receiveSyncMessage s d m).2.1, c ∈ d ∨ cd.message? c ≠ some msg
  | _ => True

/-- A call that left no trace: the listing is the same, and in no later run does a
generated sync message or a row of chat_log contain the message. -/
def LeavesNoTrace (msg : ChatMessage) (before after : Doc C) (s : SyncActor I C S M) : Prop :=
  getAllMessages cd.toAutomerge after = getAllMessages cd.toAutomerge before ∧
  ∀ later s', run (step cd.toAutomerge chatId) s later = some s' → (∀ l ∈ later, Without cd msg l) →
    (∀ x, s'.generated = some x → Lacks cd msg (cd.carried x)) ∧
    ∀ r ∈ s'.tables.selectLog chatId, Lacks cd msg r.data

/-- The message is nowhere in the state. -/
structure Absent (msg : ChatMessage) (s : SyncActor I C S M) : Prop where
  tracked : Tracked cd.toAutomerge chatId s
  stored : Lacks cd msg (s.tables.stored chatId)
  memory : ∀ m, s.memory = some m → Lacks cd msg m.doc.doc
  generated : ∀ x, s.generated = some x → Lacks cd msg (cd.carried x)

private theorem lacks_insert {msg : ChatMessage} {d : Finset C} {c : C} (hc : cd.message? c ≠ some msg)
    (hd : Lacks cd msg d) : Lacks cd msg (insert c d) := by
  intro x hx
  rcases Finset.mem_insert.mp hx with rfl | hx
  · exact hc
  · exact hd x hx

private theorem lacks_opened {msg : ChatMessage} {d e : Finset C} {i : C} (hi : cd.message? i ≠ some msg)
    (hd : Lacks cd msg d) (h : e ⊆ d ∪ {i}) : Lacks cd msg e := by
  intro x hx
  rcases Finset.mem_union.mp (h hx) with hx | hx
  · exact hd x hx
  · exact Finset.mem_singleton.mp hx ▸ hi

private theorem lacks_applied {msg : ChatMessage} {x : M} {ok : Bool} {oks : List Bool} {i : C}
    (hw : Without cd msg (.incoming (.sync x) ok oks i)) {doc : ChatRepository C S}
    (hd : Lacks cd msg doc.doc) : Lacks cd msg (doc.applySyncMessage cd.toAutomerge x).1.doc := by
  intro c hc
  rcases hw doc.syncState doc.doc c hc with hin | hne
  · exact hd c hin
  · exact hne

omit [DecidableEq I] in
private theorem lacks_generated {msg : ChatMessage} {doc : ChatRepository C S} (hd : Lacks cd msg doc.doc)
    (x : M) (hx : (doc.generateSyncMessage cd.toAutomerge).2 = some x) : Lacks cd msg (cd.carried x) :=
  fun c hc => hd c (cd.carried_subset _ _ _ hx hc)

private theorem absent_generate {msg : ChatMessage} {t : Tables I C} {doc : ChatRepository C S} {f u : Bool}
    (ht : Tracked cd.toAutomerge chatId (⟨t,some ⟨(doc.generateSyncMessage cd.toAutomerge).1,f⟩,
      (doc.generateSyncMessage cd.toAutomerge).2,u⟩ : SyncActor I C S M))
    (hst : Lacks cd msg (t.stored chatId)) (hd : Lacks cd msg doc.doc) :
    Absent cd chatId msg (⟨t,some ⟨(doc.generateSyncMessage cd.toAutomerge).1,f⟩,
      (doc.generateSyncMessage cd.toAutomerge).2,u⟩ : SyncActor I C S M) where
  tracked := ht
  stored := hst
  memory m hm := by
    cases hm
    exact hd
  generated := lacks_generated cd hd

private theorem absent_silent {msg : ChatMessage} {t : Tables I C} {m : SyncMemory C S} {u : Bool}
    (ht : Tracked cd.toAutomerge chatId (⟨t,some m,none,u⟩ : SyncActor I C S M))
    (hst : Lacks cd msg (t.stored chatId)) (hd : Lacks cd msg m.doc.doc) :
    Absent cd chatId msg (⟨t,some m,none,u⟩ : SyncActor I C S M) where
  tracked := ht
  stored := hst
  memory m hm := by
    cases hm
    exact hd
  generated _ hx := by cases hx

theorem step_absent {msg : ChatMessage} {s s' : SyncActor I C S M} {l : SyncLabel C M}
    (h : Absent cd chatId msg s) (hw : Without cd msg l) (hs : step cd.toAutomerge chatId s l = some s') :
    Absent cd chatId msg s' := by
  have hh := step_handled cd.toAutomerge chatId h.tracked hs
  have ht := hh.tracked cd.toAutomerge chatId h.tracked
  cases hh with
  | crash => exact ⟨ht,h.stored,fun _ hm => (by cases hm),fun _ hx => by cases hx⟩
  | opened oks i hn t hsound hrow hst =>
    have hnew := lacks_opened cd hw h.stored hst
    exact absent_silent cd chatId ht hnew hnew
  | openFailed oks i hn t hsound hst =>
    exact ⟨ht,lacks_opened cd hw h.stored hst,h.memory,fun _ hx => by cases hx⟩
  | ignored m hm l hl => exact ⟨ht,h.stored,h.memory,fun _ hx => by cases hx⟩
  | sendFailed m hm sent c hc hres => exact absent_silent cd chatId ht h.stored (lacks_insert cd hw (h.memory m hm))
  | sent m hm sent c hc t doc hp hres =>
    have hnew : Lacks cd msg (m.doc.transact c).doc := lacks_insert cd hw (h.memory m hm)
    exact absent_generate cd chatId ht (hp.stored ▸ hnew) (hp.doc ▸ hnew)
  | tick m hm => exact absent_generate cd chatId ht h.stored (h.memory m hm)
  | connected m hm => exact absent_generate cd chatId ht h.stored (h.memory m hm)
  | answered m hm ok oks i => exact absent_generate cd chatId ht h.stored (h.memory m hm)
  | merged m hm x ok oks i ha t doc hp messages he u hres =>
    have hnew := lacks_applied cd hw (h.memory m hm)
    exact absent_generate cd chatId ht (hp.stored ▸ hnew) (hp.doc ▸ hnew)
  | rejected m hm x ok oks i t doc hj u s' e hres hr =>
    have hnew := lacks_applied cd hw (h.memory m hm)
    have hleft : Lacks cd msg (t.stored chatId) ∧ Lacks cd msg doc.doc := by
      cases hj with
      | refused ha => exact ⟨h.stored,hnew⟩
      | unwritten ha hok => exact ⟨h.stored,hnew⟩
      | unreadable ha t doc hp hw e he => exact ⟨hp.stored ▸ hnew,hp.doc ▸ hnew⟩
    cases hr with
    | gaveUp hf => exact absent_silent cd chatId ht hleft.1 hleft.2
    | reloaded hf t' ht' hst hr hl => exact absent_generate cd chatId ht (hst ▸ hleft.1) hleft.1
    | reloadFailed hf t' ht' hst hr e hl => exact absent_silent cd chatId ht (hst ▸ hleft.1) hleft.2

private theorem run_absent {msg : ChatMessage} {s s' : SyncActor I C S M} {later : List (SyncLabel C M)}
    (h : Absent cd chatId msg s) (hr : run (step cd.toAutomerge chatId) s later = some s')
    (hw : ∀ l ∈ later, Without cd msg l) : Absent cd chatId msg s' := by
  have hmeets : StepsMeet (step cd.toAutomerge chatId) (fun _ l => Without cd msg l) s later :=
    stepsMeet_of_forall_mem (fun l hl _ => hw l hl)
  exact run_invariant_of_meets (fun _ _ _ ha hc hs => step_absent cd chatId ha hc hs) hr h hmeets

/-- The send that follows a failed INSERT writes what the failed call left behind. -/
private theorem next_send_writes {s : SyncActor I C S M} (hs : Tracked cd.toAutomerge chatId s)
    {m : SyncMemory C S} (hm : s.memory = some m) {c c' : C} (hc : c ∈ m.doc.doc)
    (hnew : c ∉ s.tables.stored chatId) (hc' : cd.graph.deps c' = cd.getHeads m.doc.doc) (sent : ChatMessage) :
    ∃ s', step cd.toAutomerge chatId s (.localSend sent (some c') true) = some s' ∧
      ∃ r ∈ s'.tables.selectLog chatId, c ∈ r.data := by
  have hd := repoSound_transact cd.toAutomerge chatId (hs.memory m hm) hc'
  have hrow : c ∈ cd.saveAfter (m.doc.transact c').doc (m.doc.transact c').lastSavedHeads := by
    rw [hd.saveAfter]
    exact Finset.mem_sdiff.mpr ⟨Finset.mem_insert_of_mem hc,hnew⟩
  have hstep : step cd.toAutomerge chatId s (.localSend sent (some c') true) =
      some (s.handleSingle cd.toAutomerge chatId m sent (some c') true) := by
    simp only [step,hm]
    exact if_pos (fun x hx => by cases hx; exact hc')
  refine ⟨_,hstep,?_⟩
  rcases (m.doc.transact c').persistChat_cases cd.toAutomerge chatId true s.tables with ⟨he,-⟩ | ⟨-,hp⟩ | ⟨hf,-⟩
  · rw [he] at hrow
    cases hrow
  · simp only [handleSingle,ChatRepository.addMessage,ChatRepository.persistAndGenerate,hp,
      Tables.selectLog_insertLog]
    exact ⟨_,List.mem_append_right _ (List.mem_singleton_self _),hrow⟩
  · cases hf

/-- A failed send leaves no trace exactly when it failed in its transaction. -/
theorem failed_send_no_trace_iff (peerId : String) {t : Tables I C} (hn : t.chats chatId = none)
    (hl : t.selectLog chatId = []) {labels : List (SyncLabel C M)} {s : SyncActor I C S M}
    (h : run (step cd.toAutomerge chatId) (initial t) labels = some s) {m : SyncMemory C S}
    (hm : s.memory = some m) {msg : ChatMessage} (hfresh : Lacks cd msg m.doc.doc) {commit : Option C}
    (hc : ∀ c, commit = some c → cd.graph.deps c = cd.getHeads m.doc.doc ∧
      cd.content c = cd.appendContent m.doc.doc peerId msg)
    (hnext : ∀ c, commit = some c → ∃ c', cd.graph.deps c' = cd.getHeads (insert c m.doc.doc) ∧
      cd.message? c' ≠ some msg) {ok : Bool} {e : LibError}
    (herr : (m.doc.addMessage cd.toAutomerge chatId commit ok msg s.tables).1 = .error e) :
    LeavesNoTrace cd chatId msg m.doc.doc (m.doc.addMessage cd.toAutomerge chatId commit ok msg s.tables).2.2.doc
      (s.handleSingle cd.toAutomerge chatId m msg commit ok) ↔ commit = none := by
  have hs := run_tracked cd.toAutomerge chatId hn hl h
  have hd := hs.memory m hm
  have hafter : s.handleSingle cd.toAutomerge chatId m msg commit ok =
      ⟨(m.doc.addMessage cd.toAutomerge chatId commit ok msg s.tables).2.1,
        some { m with doc := (m.doc.addMessage cd.toAutomerge chatId commit ok msg s.tables).2.2 },none,
        s.unsaved || commit.isSome⟩ := by
    simp only [handleSingle,herr]
  rcases ChatRepository.addMessage_error cd.toAutomerge herr with ⟨rfl,hout⟩ | ⟨c,rfl,rfl,hout⟩
  · rw [hafter,hout]
    refine ⟨fun _ => rfl,fun _ => ⟨rfl,fun later s' hr hw => ?_⟩⟩
    have ha := absent_silent cd chatId (tracked_of_memory cd.toAutomerge chatId hs.tables hd none
      (s.unsaved || (none : Option C).isSome))
      (fun x hx => hfresh x (hd.held hx)) hfresh
    have ha' := run_absent cd chatId ha hr hw
    refine ⟨ha'.generated,fun r hr x hx => ha'.stored x ?_⟩
    exact Tables.mem_stored.mpr (Or.inr ⟨r,hr,hx⟩)
  · obtain ⟨hdeps,hcontent⟩ := hc c rfl
    obtain ⟨c',hc',hother⟩ := hnext c rfl
    have hmsg : cd.message? c = some msg := by
      rw [ChatDocs.message?,hcontent]
      rfl
    rw [hafter,hout]
    constructor
    · rintro ⟨-,hlater⟩
      have ht := tracked_of_memory cd.toAutomerge chatId (M := M) (m := ⟨m.doc.transact c,m.resetDocState⟩)
        hs.tables (repoSound_transact cd.toAutomerge chatId hd hdeps) none true
      obtain ⟨s',hstep,r,hr,hcr⟩ := next_send_writes cd chatId ht rfl (Finset.mem_insert_self c m.doc.doc)
        (fun hst => hfresh c (hd.held hst) hmsg) hc' msg
      have hrun : run (step cd.toAutomerge chatId) (⟨s.tables,some ⟨m.doc.transact c,m.resetDocState⟩,none,true⟩ :
          SyncActor I C S M) [.localSend msg (some c') true] = some s' := by
        rw [run,hstep]
        rfl
      simp only [Option.isSome_some,Bool.or_true] at hlater
      obtain ⟨-,hrows⟩ := hlater _ s' hrun (by simpa [Without] using hother)
      exact absurd hmsg (hrows r hr c hcr)
    · intro he
      cases he

end Send

/-- The initial change and two messages of A, one after the other. -/
def twoMessages : ChatDocs (Fin 3) Unit (Finset (Fin 3)) :=
  Finite.docs
    { deps := fun | 1 => {0} | 2 => {1} | _ => ∅
      rank := fun c => c
      rank_lt := by decide }
    (fun
      | 1 => .message "msgs_A" none ⟨"m1","A",.text "hello",1,1⟩
      | 2 => .message "msgs_A" (some 1) ⟨"m2","A",.text "hello",2,2⟩
      | _ => .chatInit)

/-- The chat of A after ChatRepository::new has created it. -/
def created : SyncActor Unit (Fin 3) Unit (Finset (Fin 3)) :=
  ⟨⟨fun _ => some {0},[],0,List.Pairwise.nil,by simp⟩,
    some ⟨ChatRepository.new twoMessages.toAutomerge {0} {0},false⟩,none,false⟩

theorem run_created :
    run (step twoMessages.toAutomerge ()) (initial Tables.empty) [.open [true,true] 0] = some created := by
  rfl

theorem failed_send_no_trace_refused : LeavesNoTrace twoMessages () ⟨"m1","A",.text "hello",1,1⟩ {0} {0}
    (created.handleSingle twoMessages.toAutomerge () ⟨ChatRepository.new twoMessages.toAutomerge {0} {0},false⟩
      ⟨"m1","A",.text "hello",1,1⟩ none true) := by
  have hfresh : Lacks twoMessages ⟨"m1","A",.text "hello",1,1⟩ {0} := by
    intro c hc
    rw [Finset.mem_singleton.mp hc]
    decide
  have herr : ((ChatRepository.new twoMessages.toAutomerge {0} {0}).addMessage twoMessages.toAutomerge () none true
      ⟨"m1","A",.text "hello",1,1⟩ created.tables).1 = .error .automerge := rfl
  have hiff := failed_send_no_trace_iff twoMessages () "A" rfl rfl run_created
    (m := ⟨ChatRepository.new twoMessages.toAutomerge {0} {0},false⟩) rfl hfresh (fun _ h => by cases h)
    (fun _ h => by cases h) herr
  exact hiff.mpr rfl

/-- The INSERT of the first message fails, and the row of the second contains both. -/
theorem failed_send_is_written_later :
    run (step twoMessages.toAutomerge ()) (initial Tables.empty) [.open [true,true] 0] = some created ∧
    ∃ out, (ChatRepository.new twoMessages.toAutomerge {0} {0}).addMessage twoMessages.toAutomerge () (some 1) false
        ⟨"m1","A",.text "hello",1,1⟩ created.tables = out ∧ out.1 = .error .sqlx ∧
      ¬ LeavesNoTrace twoMessages () ⟨"m1","A",.text "hello",1,1⟩ {0} out.2.2.doc
        (created.handleSingle twoMessages.toAutomerge () ⟨ChatRepository.new twoMessages.toAutomerge {0} {0},false⟩
          ⟨"m1","A",.text "hello",1,1⟩ (some 1) false) := by
  refine ⟨run_created,_,rfl,by decide +kernel,?_⟩
  rintro ⟨-,hlater⟩
  have hrun : (run (step twoMessages.toAutomerge ()) (created.handleSingle twoMessages.toAutomerge ()
      ⟨ChatRepository.new twoMessages.toAutomerge {0} {0},false⟩ ⟨"m1","A",.text "hello",1,1⟩ (some 1) false)
      [.localSend ⟨"m2","A",.text "hello",2,2⟩ (some 2) true]).map
        (fun s => (s.tables.selectLog ()).map LogRow.data) = some [{1,2}] := by
    decide +kernel
  obtain ⟨s,hs,hdata⟩ := Option.map_eq_some_iff.mp hrun
  obtain ⟨r,hr,hd⟩ := List.mem_map.mp (hdata ▸ List.mem_singleton_self ({1,2} : Finset (Fin 3)))
  obtain ⟨-,hrows⟩ := hlater _ s hs
    (by simp [Without,twoMessages,Finite.docs,ChatDocs.message?,Content.message?])
  exact absurd (hrows r hr 1 (hd ▸ by decide)) (by decide)

end SyncActor
end GossipCore.Manager
