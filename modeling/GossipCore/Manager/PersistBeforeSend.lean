import GossipCore.Persistence.SingleOwner

/-! A chat actor over its repository, one handler per step. The question is which
handlers may hand out a sync message with a change that a restart would forget. -/
namespace GossipCore.Manager
open Base Persistence

/-- The payload of a Sync frame: none, bytes that do not decode, or a message. -/
inductive IncomingFrame (M : Type) where
  | empty
  | undecodable
  | sync (msg : M)

structure SyncMemory (C S : Type) where
  doc : ChatRepository C S
  resetDocState : Bool

structure SyncActor (I C S M : Type) where
  tables : Tables I C
  memory : Option (SyncMemory C S)
  /-- What generate_sync_message returned in the last handler. -/
  generated : Option M
  /-- A change was left unsaved by a failure, and neither a later persist nor a
  reload has succeeded since. -/
  unsaved : Bool

/-- The outcomes of the INSERT and of the statements of a reload are part of the
label, and so are the changes that automerge makes. -/
inductive SyncLabel (C M : Type) where
  | open (oks : List Bool) (initial : C)
  | localSend (msg : ChatMessage) (commit : Option C) (ok : Bool)
  | incoming (frame : IncomingFrame M) (ok : Bool) (oks : List Bool) (initial : C)
  | syncTick (connected : Bool)
  | connStateChanged (connected : Bool)
  | crash

namespace SyncActor
variable {I C S M O : Type} [DecidableEq I] [DecidableEq C] (am : Automerge C S M O) (chatId : I)

def initial (t : Tables I C) : SyncActor I C S M := ⟨t,none,none,false⟩

/-- A handler that generates without touching the tables. -/
def generate (s : SyncActor I C S M) (m : SyncMemory C S) : SyncActor I C S M :=
  let next := m.doc.generateSyncMessage am
  { s with memory := some { m with doc := next.1 }, generated := next.2 }

/-- ChatRepository::new, then the actor around it. -/
def openChat (s : SyncActor I C S M) (oks : List Bool) (i : C) : Option (SyncActor I C S M) :=
  let loaded := getPersistedDocState am chatId i oks s.tables .selectSnapshot
  match loaded.2 with
  | .returned doc heads => some ⟨loaded.1,some ⟨ChatRepository.new am doc heads,false⟩,none,false⟩
  | .failed => some { s with tables := loaded.1, generated := none }
  | _ => none

/-- The arm for InMessage::Single. -/
def handleSingle (s : SyncActor I C S M) (m : SyncMemory C S) (msg : ChatMessage) (commit : Option C)
    (ok : Bool) : SyncActor I C S M :=
  let out := m.doc.addMessage am chatId commit ok msg s.tables
  match out.1 with
  | .ok (_,syncMsg) => ⟨out.2.1,some { m with doc := out.2.2 },syncMsg,false⟩
  | .error _ => ⟨out.2.1,some { m with doc := out.2.2 },none,s.unsaved || commit.isSome⟩

/-- The error branch of handle_incomming_message: one reload, then give up until a
message has been received again. -/
def recover (s : SyncActor I C S M) (m : SyncMemory C S) (oks : List Bool) (i : C) :
    Option (SyncActor I C S M) :=
  if m.resetDocState then some { s with memory := some m, generated := none }
  else
    match m.doc.resetDocStateToPersisted am chatId oks i s.tables with
    | some (.ok _,t,doc) => some (generate am { s with tables := t, unsaved := false } ⟨doc,true⟩)
    | some (.error _,t,doc) => some { s with tables := t, memory := some { m with doc := doc }, generated := none }
    | none => none

/-- Whether a received message leaves something unsaved: its INSERT failed, or it was
refused after part of it had been applied. -/
def leavesUnsaved (s : SyncActor I C S M) (m : SyncMemory C S) (msg : M) (ok : Bool) : Bool :=
  let applied := m.doc.applySyncMessage am msg
  if applied.2 then
    match (applied.1.persistChat am chatId ok s.tables).1 with
    | .ok _ => false
    | .error _ => true
  else s.unsaved || decide (applied.1.doc ≠ m.doc.doc)

def handleIncomming (s : SyncActor I C S M) (m : SyncMemory C S) (frame : IncomingFrame M) (ok : Bool)
    (oks : List Bool) (i : C) : Option (SyncActor I C S M) :=
  match frame with
  | .undecodable => some { s with generated := none }
  | .empty =>
    let out := m.doc.receiveSyncMessage am chatId ok none s.tables
    match out.1 with
    | .ok (_,reply) => some ⟨out.2.1,some ⟨out.2.2,false⟩,reply.join,s.unsaved⟩
    | .error _ => recover am chatId { s with tables := out.2.1 } { m with doc := out.2.2 } oks i
  | .sync msg =>
    let out := m.doc.receiveSyncMessage am chatId ok (some msg) s.tables
    let unsaved := s.leavesUnsaved am chatId m msg ok
    match out.1 with
    | .ok (_,reply) => some ⟨out.2.1,some ⟨out.2.2,false⟩,reply.join,unsaved⟩
    | .error _ => recover am chatId { s with tables := out.2.1, unsaved := unsaved } { m with doc := out.2.2 } oks i

def step (s : SyncActor I C S M) : SyncLabel C M → Option (SyncActor I C S M)
  | .open oks i => if s.memory.isNone ∧ am.graph.deps i = ∅ then s.openChat am chatId oks i else none
  | .localSend msg commit ok =>
    match s.memory with
    | some m =>
      if ∀ c, commit = some c → am.graph.deps c = am.getHeads m.doc.doc then
        some (s.handleSingle am chatId m msg commit ok)
      else none
    | none => none
  | .incoming frame ok oks i =>
    match s.memory with
    | some m => if am.graph.deps i = ∅ then s.handleIncomming am chatId m frame ok oks i else none
    | none => none
  | .syncTick connected =>
    match s.memory with
    | some m => if connected then some (s.generate am m) else some { s with generated := none }
    | none => none
  | .connStateChanged connected =>
    match s.memory with
    | some m =>
      if connected then some (s.generate am { m with doc := m.doc.resetSyncState am })
      else some { s with generated := none }
    | none => none
  | .crash => some { s with memory := none, generated := none, unsaved := false }

/-- The condition on the step: a handler that generates without persisting first
finds nothing unsaved. -/
def GeneratesSaved (s : SyncActor I C S M) : SyncLabel C M → Prop
  | .incoming .empty _ _ _ => s.unsaved = false
  | .syncTick true => s.unsaved = false
  | .connStateChanged true => s.unsaved = false
  | _ => True

/-- The document is stored, and so is what a message made from it carries. -/
structure Handed (t : Tables I C) (doc : ChatRepository C S) (msg : Option M) : Prop where
  stored : doc.doc = t.stored chatId
  carried : ∀ m, msg = some m → am.carried m ⊆ t.stored chatId

theorem generate_handed {t : Tables I C} {doc : ChatRepository C S} (h : doc.doc = t.stored chatId) :
    Handed am chatId t (doc.generateSyncMessage am).1 (doc.generateSyncMessage am).2 :=
  ⟨h,fun _ hm => h ▸ am.carried_subset _ _ _ hm⟩

theorem repoSound_generate {t : Tables I C} {doc : ChatRepository C S}
    (h : RepoSound am chatId t doc) : RepoSound am chatId t (doc.generateSyncMessage am).1 :=
  ⟨h.row,h.saved,h.held,h.closed⟩

private theorem persistAndGenerate_sound {t : Tables I C} (ht : t.Sound chatId am.graph)
    {doc : ChatRepository C S} (hd : RepoSound am chatId t doc) (ok : Bool) (msg : ChatMessage) :
    (doc.persistAndGenerate am chatId ok msg t).2.1.Sound chatId am.graph ∧
      RepoSound am chatId (doc.persistAndGenerate am chatId ok msg t).2.1
        (doc.persistAndGenerate am chatId ok msg t).2.2 ∧
      ∀ x, (doc.persistAndGenerate am chatId ok msg t).1 = .ok x →
        Handed am chatId (doc.persistAndGenerate am chatId ok msg t).2.1
          (doc.persistAndGenerate am chatId ok msg t).2.2 x.2 := by
  obtain ⟨ht',hd',-,hok⟩ := persistChat_sound am chatId ht hd ok
  unfold ChatRepository.persistAndGenerate
  generalize doc.persistChat am chatId ok t = saved at *
  obtain ⟨res,t',doc'⟩ := saved
  cases res with
  | error e => exact ⟨ht',hd',fun _ h => by cases h⟩
  | ok u =>
    refine ⟨ht',repoSound_generate am chatId hd',fun x hx => ?_⟩
    cases hx
    exact generate_handed am chatId (hok rfl)

private theorem persistAndExtract_sound {t : Tables I C} (ht : t.Sound chatId am.graph)
    {doc : ChatRepository C S} (hd : RepoSound am chatId t doc) (ok : Bool) (before : Doc C) :
    (doc.persistAndExtract am chatId ok before t).2.1.Sound chatId am.graph ∧
      RepoSound am chatId (doc.persistAndExtract am chatId ok before t).2.1
        (doc.persistAndExtract am chatId ok before t).2.2 ∧
      ((doc.persistChat am chatId ok t).1 = .ok () →
        (doc.persistAndExtract am chatId ok before t).2.2.doc =
          (doc.persistAndExtract am chatId ok before t).2.1.stored chatId) ∧
      ∀ x, (doc.persistAndExtract am chatId ok before t).1 = .ok x →
        Handed am chatId (doc.persistAndExtract am chatId ok before t).2.1
          (doc.persistAndExtract am chatId ok before t).2.2 x.2.join := by
  obtain ⟨ht',hd',-,hok⟩ := persistChat_sound am chatId ht hd ok
  unfold ChatRepository.persistAndExtract
  generalize doc.persistChat am chatId ok t = saved at *
  obtain ⟨res,t',doc'⟩ := saved
  cases res with
  | error e => exact ⟨ht',hd',hok,fun _ h => by cases h⟩
  | ok u =>
    dsimp only
    cases extractNewMessagesFromPatches am doc'.doc (am.makePatches before doc'.doc) with
    | error e => exact ⟨ht',hd',hok,fun _ h => by cases h⟩
    | ok messages =>
      refine ⟨ht',repoSound_generate am chatId hd',hok,fun x hx => ?_⟩
      cases hx
      exact generate_handed am chatId (hok rfl)

/-- The invariant: the rows and the memory agree, and nothing that has been handed out
is missing from the rows. -/
structure Kept (s : SyncActor I C S M) : Prop where
  tables : s.tables.Sound chatId am.graph
  memory : ∀ m, s.memory = some m → RepoSound am chatId s.tables m.doc
  saved : ∀ m, s.memory = some m → s.unsaved = false → m.doc.doc = s.tables.stored chatId
  generated : ∀ x, s.generated = some x → am.carried x ⊆ s.tables.stored chatId

/-- A handler that ends with a stored document and a message made from it. -/
private theorem kept_of_handed {t : Tables I C} (ht : t.Sound chatId am.graph) {m : SyncMemory C S}
    (hm : RepoSound am chatId t m.doc) {x : Option M} (hx : Handed am chatId t m.doc x) (u : Bool) :
    Kept am chatId (⟨t,some m,x,u⟩ : SyncActor I C S M) where
  tables := ht
  memory _ h := by
    cases h
    exact hm
  saved _ h _ := by
    cases h
    exact hx.stored
  generated := hx.carried

private theorem Kept.generate {s : SyncActor I C S M} (h : Kept am chatId s) {m : SyncMemory C S}
    (hm : RepoSound am chatId s.tables m.doc) (hd : m.doc.doc = s.tables.stored chatId) :
    Kept am chatId (s.generate am m) :=
  kept_of_handed am chatId h.tables (repoSound_generate am chatId hm) (generate_handed am chatId hd) s.unsaved

/-- What the error branch of handle_incomming_message can come to. -/
inductive Recovered (s : SyncActor I C S M) (m : SyncMemory C S) (oks : List Bool) (i : C) :
    SyncActor I C S M → Prop where
  | gaveUp (hf : m.resetDocState = true) : Recovered s m oks i { s with memory := some m, generated := none }
  | reloaded (hf : m.resetDocState = false) (t : Tables I C) (ht : t.Sound chatId am.graph)
      (hs : t.stored chatId = s.tables.stored chatId)
      (hr : RepoSound am chatId t
        (m.doc.resetTo am (s.tables.stored chatId) (am.getHeads (s.tables.stored chatId))))
      (hl : m.doc.resetDocStateToPersisted am chatId oks i s.tables = some (.ok (),t,
        m.doc.resetTo am (s.tables.stored chatId) (am.getHeads (s.tables.stored chatId)))) :
      Recovered s m oks i (generate am { s with tables := t, unsaved := false }
        ⟨m.doc.resetTo am (s.tables.stored chatId) (am.getHeads (s.tables.stored chatId)),true⟩)
  | reloadFailed (hf : m.resetDocState = false) (t : Tables I C) (ht : t.Sound chatId am.graph)
      (hs : t.stored chatId = s.tables.stored chatId) (hr : RepoSound am chatId t m.doc) (e : LibError)
      (hl : m.doc.resetDocStateToPersisted am chatId oks i s.tables = some (.error e,t,m.doc)) :
      Recovered s m oks i { s with tables := t, memory := some m, generated := none }

theorem recover_recovered {s s' : SyncActor I C S M} {m : SyncMemory C S} {oks : List Bool} {i : C}
    (h : s.recover am chatId m oks i = some s') (ht : s.tables.Sound chatId am.graph)
    (hm : RepoSound am chatId s.tables m.doc) (hi : am.graph.deps i = ∅) :
    Recovered am chatId s m oks i s' := by
  unfold SyncActor.recover at h
  split at h
  · rename_i hf
    cases h
    exact .gaveUp hf
  · rename_i hf
    have hf' : m.resetDocState = false := by simpa using hf
    split at h
    · rename_i t doc hl
      obtain ⟨ht',hr',hs,⟨-,rfl⟩ | ⟨he,-⟩⟩ := resetDocStateToPersisted_sound am chatId ht hm hi hl
      · cases h
        exact .reloaded hf' t ht' hs hr' hl
      · cases he
    · rename_i t doc hl
      obtain ⟨ht',hr',hs,⟨he,-⟩ | ⟨-,rfl⟩⟩ := resetDocStateToPersisted_sound am chatId ht hm hi hl
      · cases he
      · cases h
        exact .reloadFailed hf' t ht' hs hr' _ hl
    · cases h

private theorem recover_kept {s s' : SyncActor I C S M} {m : SyncMemory C S} {oks : List Bool} {i : C}
    (h : s.recover am chatId m oks i = some s') (ht : s.tables.Sound chatId am.graph)
    (hm : RepoSound am chatId s.tables m.doc)
    (hs : s.unsaved = false → m.doc.doc = s.tables.stored chatId) (hi : am.graph.deps i = ∅) :
    Kept am chatId s' := by
  cases recover_recovered am chatId h ht hm hi with
  | gaveUp hf => exact ⟨ht,fun _ h => by cases h; exact hm,fun _ h => by cases h; exact hs,fun _ h => by cases h⟩
  | reloaded hf t ht' hst hr hl =>
    exact kept_of_handed am chatId ht' (repoSound_generate am chatId hr) (generate_handed am chatId hst.symm) false
  | reloadFailed hf t ht' hst hr e hl =>
    refine ⟨ht',fun _ h => ?_,fun _ h hu => ?_,fun _ h => by cases h⟩
    · cases h
      exact hr
    · cases h
      exact (hs hu).trans hst.symm

private theorem Kept.openChat {s s' : SyncActor I C S M} (h : Kept am chatId s) (hn : s.memory = none)
    {oks : List Bool} {i : C} (hi : am.graph.deps i = ∅) (ho : s.openChat am chatId oks i = some s') :
    Kept am chatId s' := by
  obtain ⟨ht',hf,-⟩ := getPersistedDocState_sound am chatId hi oks h.tables (l := .selectSnapshot) trivial
  unfold SyncActor.openChat at ho
  generalize getPersistedDocState am chatId i oks s.tables .selectSnapshot = loaded at *
  obtain ⟨t',l'⟩ := loaded
  cases l' with
  | returned doc heads =>
    obtain ⟨hrow,hdoc,hheads⟩ := hf
    cases ho
    exact kept_of_handed am chatId (x := none) ht' (repoSound_loaded am chatId ht' hrow hdoc hheads)
      ⟨hdoc,fun _ h => by cases h⟩ false
  | failed =>
    cases ho
    exact ⟨ht',fun _ h => absurd (hn.symm.trans h) (by simp),fun _ h => absurd (hn.symm.trans h) (by simp),
      fun _ h => by cases h⟩
  | _ => cases ho

private theorem Kept.handleSingle {s : SyncActor I C S M} (h : Kept am chatId s) {m : SyncMemory C S}
    (hm : s.memory = some m) (msg : ChatMessage) {commit : Option C}
    (hc : ∀ c, commit = some c → am.graph.deps c = am.getHeads m.doc.doc) (ok : Bool) :
    Kept am chatId (s.handleSingle am chatId m msg commit ok) := by
  have hd := h.memory m hm
  unfold SyncActor.handleSingle
  cases commit with
  | none =>
    refine ⟨h.tables,fun _ he => ?_,fun _ he hu => ?_,fun _ he => by cases he⟩
    · cases he
      exact hd
    · cases he
      have hu' : (s.unsaved || false) = false := hu
      exact h.saved m hm (by simpa using hu')
  | some c =>
    have hd' : RepoSound am chatId s.tables (m.doc.transact c) := by
      refine ⟨hd.row,hd.saved,hd.held.trans (Finset.subset_insert _ _),am.graph.closed_insert hd.closed ?_⟩
      rw [hc c rfl,Automerge.getHeads,am.graph.ready_eq_of_closed hd.closed]
      exact am.graph.heads_subset _
    obtain ⟨ht',hd'',hok⟩ := persistAndGenerate_sound am chatId h.tables hd' ok msg
    simp only [ChatRepository.addMessage]
    generalize (m.doc.transact c).persistAndGenerate am chatId ok msg s.tables = out at *
    obtain ⟨res,t',doc'⟩ := out
    cases res with
    | ok x => exact kept_of_handed am chatId ht' hd'' (hok x rfl) false
    | error e =>
      refine ⟨ht',fun _ he => ?_,fun _ _ hu => ?_,fun _ he => by cases he⟩
      · cases he
        exact hd''
      · simp at hu

private theorem Kept.handleIncomming {s s' : SyncActor I C S M} (h : Kept am chatId s) {m : SyncMemory C S}
    (hm : s.memory = some m) {frame : IncomingFrame M} (hu : frame = .empty → s.unsaved = false) {ok : Bool}
    {oks : List Bool} {i : C} (hi : am.graph.deps i = ∅)
    (hs : s.handleIncomming am chatId m frame ok oks i = some s') : Kept am chatId s' := by
  have hd := h.memory m hm
  cases frame with
  | undecodable =>
    cases hs
    exact ⟨h.tables,h.memory,h.saved,fun _ he => by cases he⟩
  | empty =>
    have hg := generate_handed am chatId (h.saved m hm (hu rfl))
    cases hs
    refine kept_of_handed am chatId (m := ⟨(m.doc.generateSyncMessage am).1,false⟩) h.tables
      (repoSound_generate am chatId hd) ⟨hg.stored,fun x hx => hg.carried x ?_⟩ _
    simp only [ChatRepository.receiveEmpty] at hx
    revert hx
    cases (m.doc.generateSyncMessage am).2 <;> simp
  | sync msg =>
    have happ : RepoSound am chatId s.tables (m.doc.applySyncMessage am msg).1 :=
      ⟨hd.row,hd.saved,hd.held.trans (am.receive_grows _ _ _),am.receive_closed _ _ _ hd.closed⟩
    simp only [SyncActor.handleIncomming,ChatRepository.receiveSyncMessage] at hs
    by_cases ha : (m.doc.applySyncMessage am msg).2
    · obtain ⟨ht',hd',hsaved,hok⟩ := persistAndExtract_sound am chatId h.tables happ ok m.doc.doc
      have hflag : s.leavesUnsaved am chatId m msg ok = false →
          ((m.doc.applySyncMessage am msg).1.persistChat am chatId ok s.tables).1 = .ok () := by
        simp only [leavesUnsaved,ha,if_true]
        split
        · intro _
          assumption
        · simp
      simp only [ha,if_true] at hs
      generalize (m.doc.applySyncMessage am msg).1.persistAndExtract am chatId ok m.doc.doc s.tables = out at *
      obtain ⟨res,t',doc'⟩ := out
      cases res with
      | ok x =>
        cases hs
        exact kept_of_handed am chatId (m := ⟨doc',false⟩) ht' hd' (hok x rfl) _
      | error e => exact recover_kept am chatId hs ht' hd' (fun hf => hsaved (hflag hf)) hi
    · simp only [ha,Bool.false_eq_true,if_false] at hs
      refine recover_kept am chatId hs h.tables happ (fun hf => ?_) hi
      simp only [leavesUnsaved,ha,Bool.false_eq_true,if_false,Bool.or_eq_false_iff,decide_eq_false_iff_not,
        not_not] at hf
      exact hf.2.trans (h.saved m hm hf.1)

theorem step_kept {s s' : SyncActor I C S M} {l : SyncLabel C M} (h : Kept am chatId s)
    (hc : GeneratesSaved s l) (hs : step am chatId s l = some s') : Kept am chatId s' := by
  have hquiet : Kept am chatId { s with generated := none } :=
    ⟨h.tables,h.memory,h.saved,fun _ he => by cases he⟩
  cases l with
  | «open» oks i =>
    simp only [step] at hs
    split at hs
    · rename_i hn
      exact h.openChat am chatId (Option.isNone_iff_eq_none.mp hn.1) hn.2 hs
    · cases hs
  | localSend msg commit ok =>
    simp only [step] at hs
    split at hs
    · rename_i m hm
      split at hs <;> cases hs
      rename_i hcommit
      exact h.handleSingle am chatId hm msg hcommit ok
    · cases hs
  | incoming frame ok oks i =>
    simp only [step] at hs
    split at hs
    · rename_i m hm
      split at hs
      · rename_i hi
        refine h.handleIncomming am chatId hm ?_ hi hs
        rintro rfl
        exact hc
      · cases hs
    · cases hs
  | syncTick connected =>
    simp only [step] at hs
    split at hs
    · rename_i m hm
      cases connected with
      | true =>
        cases hs
        exact h.generate am chatId (h.memory m hm) (h.saved m hm hc)
      | false =>
        cases hs
        exact hquiet
    · cases hs
  | connStateChanged connected =>
    simp only [step] at hs
    split at hs
    · rename_i m hm
      have hd := h.memory m hm
      cases connected with
      | true =>
        cases hs
        exact h.generate am chatId ⟨hd.row,hd.saved,hd.held,hd.closed⟩ (h.saved m hm hc)
      | false =>
        cases hs
        exact hquiet
    · cases hs
  | crash =>
    cases hs
    exact ⟨h.tables,fun _ he => (by cases he),fun _ he => (by cases he),fun _ he => by cases he⟩

theorem initial_kept {t : Tables I C} (hn : t.chats chatId = none) (hl : t.selectLog chatId = []) :
    Kept am chatId (initial t : SyncActor I C S M) :=
  ⟨Tables.sound_of_absent hn hl,fun _ h => (by cases h),fun _ h => (by cases h),fun _ h => by cases h⟩

/-- In a run whose generating steps find nothing unsaved, every change of every sync
message was stored when the message was made. -/
theorem generated_changes_stored {t : Tables I C} (hn : t.chats chatId = none)
    (hl : t.selectLog chatId = []) {labels : List (SyncLabel C M)} {s : SyncActor I C S M}
    (h : run (step am chatId) (initial t) labels = some s)
    (hc : StepsMeet (step am chatId) GeneratesSaved (initial t) labels) :
    ∀ m, s.generated = some m → am.carried m ⊆ s.tables.stored chatId := by
  have hk : Kept am chatId s :=
    run_invariant_of_meets (fun _ _ _ => step_kept am chatId) h (initial_kept am chatId hn hl) hc
  exact hk.generated

/-- The chat is created, the peer announces the same history, and a message is sent
whose INSERT has the given outcome. -/
def sendAfterAnnounce (ok : Bool) : List (SyncLabel Nat Line.SyncMessage) :=
  [.open [true,true] 0,.incoming (.sync ⟨{0},∅⟩) true [] 0,
    .localSend ⟨"m1","A",.text "hello",1,1⟩ (some 1) ok]

theorem generated_changes_stored_send : ∃ s : SyncActor Unit Nat Line.SyncState Line.SyncMessage,
    run (step Line.automerge ()) (initial Tables.empty) (sendAfterAnnounce true) = some s ∧
    ∃ m, s.generated = some m ∧ 1 ∈ m.changes ∧ m.changes ⊆ s.tables.stored () := by
  obtain ⟨s,hs,m,hm,hc⟩ : ∃ s : SyncActor Unit Nat Line.SyncState Line.SyncMessage,
      run (step Line.automerge ()) (initial Tables.empty) (sendAfterAnnounce true) = some s ∧
      ∃ m, s.generated = some m ∧ 1 ∈ m.changes := ⟨_,rfl,_,rfl,by decide⟩
  have hmeet : StepsMeet (step Line.automerge ()) GeneratesSaved
      (initial Tables.empty : SyncActor Unit Nat Line.SyncState Line.SyncMessage) (sendAfterAnnounce true) :=
    ⟨trivial,fun _ _ => ⟨trivial,fun _ _ => ⟨trivial,fun _ _ => trivial⟩⟩⟩
  exact ⟨s,hs,m,hm,hc,generated_changes_stored Line.automerge () rfl rfl hs hmeet m hm⟩

/-- After a failed INSERT the next tick hands out the change that is only in memory. -/
theorem tick_generates_unstored_change : ∃ s : SyncActor Unit Nat Line.SyncState Line.SyncMessage,
    run (step Line.automerge ()) (initial Tables.empty) (sendAfterAnnounce false++[.syncTick true]) = some s ∧
    ∃ m, s.generated = some m ∧ 1 ∈ Line.automerge.carried m ∧ 1 ∉ s.tables.stored () :=
  ⟨_,rfl,_,rfl,by decide,by decide⟩

end SyncActor
end GossipCore.Manager
