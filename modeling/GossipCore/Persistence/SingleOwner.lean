import GossipCore.Persistence.Process

/-! One task owns the chat. Its memory, the saved heads, the snapshot and the log
rows describe the same history in every state of every run. -/
namespace GossipCore.Persistence
open Base

namespace Tables
variable {I C : Type} [DecidableEq I]

/-- The blobs kept for a chat: its snapshot, then its log rows. -/
def blobs (t : Tables I C) (chatId : I) : List (Blob C) :=
  (t.chats chatId).toList++(t.selectLog chatId).map LogRow.data

variable [DecidableEq C]

theorem mem_stored_blobs {t : Tables I C} {chatId : I} {x : C} :
    x ∈ t.stored chatId ↔ ∃ b ∈ t.blobs chatId, x ∈ b := by
  rw [mem_stored,blobs]
  simp only [List.mem_append,Option.mem_toList,List.mem_map,or_and_right,exists_or]
  refine or_congr ⟨?_,?_⟩ ⟨?_,?_⟩
  · rintro ⟨b,hb,hx⟩
    exact ⟨b,hb,hx⟩
  · rintro ⟨b,hb,hx⟩
    exact ⟨b,hb,hx⟩
  · rintro ⟨r,hr,hx⟩
    exact ⟨r.data,⟨r,hr,rfl⟩,hx⟩
  · rintro ⟨b,⟨r,hr,rfl⟩,hx⟩
    exact ⟨r,hr,hx⟩

theorem stored_of_blobs {t : Tables I C} {chatId : I} {b : Blob C} (h : t.blobs chatId = [b]) :
    t.stored chatId = b := by
  ext x
  simp [mem_stored_blobs,h]

/-- What holds of the rows of a chat between any two statements of its owner. -/
structure Sound (t : Tables I C) (chatId : I) (G : ChangeGraph C) : Prop where
  separate : (t.blobs chatId).Pairwise Disjoint
  absent : t.chats chatId = none → t.selectLog chatId = []
  closed : G.Closed (t.stored chatId)

theorem sound_of_blobs {t : Tables I C} {chatId : I} {G : ChangeGraph C} {b : Blob C}
    (h : t.blobs chatId = [b]) (hc : t.chats chatId ≠ none) (hb : G.Closed b) : t.Sound chatId G where
  separate := h ▸ List.pairwise_singleton _ _
  absent hn := absurd hn hc
  closed := (stored_of_blobs h).symm ▸ hb

theorem sound_of_absent {t : Tables I C} {chatId : I} {G : ChangeGraph C} (hn : t.chats chatId = none)
    (hl : t.selectLog chatId = []) : t.Sound chatId G where
  separate := by simp [blobs,hn,hl]
  absent _ := hl
  closed := by simp [stored,hn,hl,ChangeGraph.Closed]

/-- A row of changes that were not stored before keeps the blobs separate. -/
theorem Sound.insertLog {t : Tables I C} {chatId : I} {G : ChangeGraph C} (h : t.Sound chatId G)
    (hrow : t.chats chatId ≠ none) {data : Blob C} (hnew : Disjoint (t.stored chatId) data)
    (hc : G.Closed (t.stored chatId ∪ data)) : (t.insertLog chatId data).Sound chatId G where
  separate := by
    have hb : (t.insertLog chatId data).blobs chatId = t.blobs chatId++[data] := by
      rw [blobs,selectLog_insertLog]
      simp [blobs,Tables.insertLog]
    rw [hb]
    refine List.pairwise_append.mpr ⟨h.separate,List.pairwise_singleton _ _,?_⟩
    intro b hb d hd
    rw [List.mem_singleton.mp hd]
    exact hnew.mono_left (fun x hx => mem_stored_blobs.mpr ⟨b,hb,hx⟩)
  absent hn := absurd hn hrow
  closed := by rwa [stored_insertLog]

end Tables

variable {I C S M O : Type} [DecidableEq I] [DecidableEq C] (am : Automerge C S M O) (chatId : I)

/-- What a load has read so far still describes the tables. -/
def LoadState.Fresh (t : Tables I C) : LoadState I C → Prop
  | .selectSnapshot => True
  | .selectLog snapshot => t.chats chatId = some snapshot
  | .compacting _ snapshot rows => t.chats chatId = some snapshot ∧ rows = t.selectLog chatId
  | .insertSnapshot doc => t.chats chatId = none ∧ am.graph.Closed doc
  | .returned doc heads => t.chats chatId ≠ none ∧ doc = t.stored chatId ∧ heads = am.getHeads doc
  | .failed => True

omit [DecidableEq C] in
private theorem blobs_create {t : Tables I C} (hn : t.chats chatId = none)
    (ha : t.selectLog chatId = []) (doc : Doc C) :
    (t.insertOrIgnoreChat chatId doc).1.blobs chatId = [doc] := by
  have hl : (t.insertOrIgnoreChat chatId doc).1.selectLog chatId = [] := by
    simpa [Tables.insertOrIgnoreChat,hn,Tables.selectLog] using ha
  rw [Tables.blobs,hl]
  simp [Tables.insertOrIgnoreChat,hn]

omit [DecidableEq C] in
private theorem blobs_compact {t : Tables I C} {snapshot : Blob C} (hs : t.chats chatId = some snapshot)
    (doc : Doc C) : (t.compact chatId doc (maxLogId (t.selectLog chatId))).blobs chatId = [doc] := by
  have hl : (t.compact chatId doc (maxLogId (t.selectLog chatId))).selectLog chatId = [] := by
    rw [Tables.selectLog_compact,List.filter_eq_nil_iff]
    intro r hr
    simpa using le_maxLogId hr
  rw [Tables.blobs,hl]
  simp [Tables.compact,Tables.updateDocument,Tables.deleteLog,hs]

/-- A statement of a load keeps the rows sound and changes what is stored only by
creating the chat. -/
theorem loadStep_sound {t : Tables I C} (ht : t.Sound chatId am.graph) {l : LoadState I C}
    (hl : l.Fresh am chatId t) (ok : Bool) {initial : C} (hi : am.graph.deps initial = ∅) :
    (loadStep am chatId ok initial t l).1.Sound chatId am.graph ∧
      (loadStep am chatId ok initial t l).2.Fresh am chatId (loadStep am chatId ok initial t l).1 ∧
      (t.chats chatId ≠ none → (loadStep am chatId ok initial t l).1.chats chatId ≠ none ∧
        (loadStep am chatId ok initial t l).1.stored chatId = t.stored chatId) := by
  cases ok with
  | false => cases l <;> exact ⟨ht,by trivial,fun h => ⟨h,rfl⟩⟩
  | true =>
    cases l with
    | selectSnapshot =>
      simp only [loadStep,if_true,Tables.selectDocument]
      cases hd : t.chats chatId with
      | some document =>
        refine ⟨ht,hd,fun _ => ⟨?_,rfl⟩⟩
        simp [hd]
      | none =>
        refine ⟨ht,⟨hd,?_⟩,fun h => absurd rfl h⟩
        intro c hc
        rw [Finset.mem_singleton.mp hc,hi]
        exact Finset.empty_subset _
    | selectLog snapshot =>
      simp only [loadStep,if_true]
      split
      · exact ⟨ht,⟨hl,rfl⟩,fun h => ⟨h,rfl⟩⟩
      · exact ⟨ht,⟨hl ▸ Option.some_ne_none _,loadedDoc_eq_stored hl,rfl⟩,fun h => ⟨h,rfl⟩⟩
    | compacting stage snapshot rows =>
      obtain ⟨hs,rfl⟩ := hl
      cases stage with
      | commit =>
        simp only [loadStep,if_true,Automerge.save]
        have hb := blobs_compact chatId hs (loadedDoc snapshot (t.selectLog chatId))
        have hstored := Tables.stored_of_blobs hb
        have hrow : (t.compact chatId (loadedDoc snapshot (t.selectLog chatId))
            (maxLogId (t.selectLog chatId))).chats chatId ≠ none := by
          simp [Tables.compact,Tables.updateDocument,Tables.deleteLog,hs]
        have heq := loadedDoc_eq_stored hs
        refine ⟨Tables.sound_of_blobs hb hrow (heq ▸ ht.closed),⟨hrow,hstored.symm,rfl⟩,fun _ => ⟨hrow,?_⟩⟩
        rw [hstored,heq]
      | _ => exact ⟨ht,⟨hs,rfl⟩,fun h => ⟨h,rfl⟩⟩
    | insertSnapshot doc =>
      obtain ⟨hn,hc⟩ := hl
      have hb := blobs_create chatId hn (ht.absent hn) doc
      have hrow : (t.insertOrIgnoreChat chatId doc).1.chats chatId ≠ none := by
        simp [Tables.insertOrIgnoreChat,hn]
      have hstep : loadStep am chatId true initial t (.insertSnapshot doc) =
          ((t.insertOrIgnoreChat chatId doc).1,.returned doc (am.getHeads doc)) := by
        simp [loadStep,Automerge.save,Tables.insertOrIgnoreChat,hn]
      rw [hstep]
      exact ⟨Tables.sound_of_blobs hb hrow hc,⟨hrow,(Tables.stored_of_blobs hb).symm,rfl⟩,
        fun h => absurd hn h⟩
    | returned doc heads => exact ⟨ht,hl,fun h => ⟨h,rfl⟩⟩
    | failed => exact ⟨ht,trivial,fun h => ⟨h,rfl⟩⟩

theorem getPersistedDocState_sound {initial : C} (hi : am.graph.deps initial = ∅) (oks : List Bool)
    {t : Tables I C} (ht : t.Sound chatId am.graph) {l : LoadState I C} (hl : l.Fresh am chatId t) :
    (getPersistedDocState am chatId initial oks t l).1.Sound chatId am.graph ∧
      (getPersistedDocState am chatId initial oks t l).2.Fresh am chatId
        (getPersistedDocState am chatId initial oks t l).1 ∧
      (t.chats chatId ≠ none → (getPersistedDocState am chatId initial oks t l).1.chats chatId ≠ none ∧
        (getPersistedDocState am chatId initial oks t l).1.stored chatId = t.stored chatId) := by
  induction oks generalizing t l with
  | nil => exact ⟨ht,hl,fun h => ⟨h,rfl⟩⟩
  | cons ok oks ih =>
    obtain ⟨ht',hl',hk⟩ := loadStep_sound am chatId ht hl ok hi
    obtain ⟨ht'',hl'',hk'⟩ := ih ht' hl'
    refine ⟨ht'',hl'',fun h => ⟨(hk' (hk h).1).1,?_⟩⟩
    exact (hk' (hk h).1).2.trans (hk h).2

/-- The repository agrees with the rows: its saved heads stand for them and its
document holds them. -/
structure RepoSound (t : Tables I C) (repo : ChatRepository C S) : Prop where
  row : t.chats chatId ≠ none
  saved : t.stored chatId = am.graph.ancestorsOf repo.lastSavedHeads
  held : t.stored chatId ⊆ repo.doc
  closed : am.graph.Closed repo.doc

theorem repoSound_loaded {t : Tables I C} (ht : t.Sound chatId am.graph) {repo : ChatRepository C S}
    (hrow : t.chats chatId ≠ none) (hd : repo.doc = t.stored chatId)
    (hh : repo.lastSavedHeads = am.getHeads repo.doc) : RepoSound am chatId t repo where
  row := hrow
  saved := by
    have hc : am.graph.Closed repo.doc := hd ▸ ht.closed
    rw [hh,Automerge.getHeads,am.graph.ready_eq_of_closed hc,am.graph.ancestorsOf_heads hc,hd]
  held := hd ▸ Finset.Subset.refl _
  closed := hd ▸ ht.closed

/-- Other rows with the same changes serve the repository as well. -/
theorem RepoSound.of_stored {t t' : Tables I C} {repo : ChatRepository C S} (h : RepoSound am chatId t repo)
    (hrow : t'.chats chatId ≠ none) (hs : t'.stored chatId = t.stored chatId) : RepoSound am chatId t' repo :=
  ⟨hrow,hs.trans h.saved,hs ▸ h.held,h.closed⟩

theorem RepoSound.saveAfter {t : Tables I C} {repo : ChatRepository C S}
    (h : RepoSound am chatId t repo) :
    am.saveAfter repo.doc repo.lastSavedHeads = repo.doc \ t.stored chatId := by
  rw [Automerge.saveAfter,am.graph.ready_eq_of_closed h.closed,h.saved]

/-- Persisting keeps everything in step, and on success the rows hold the document. -/
theorem persistChat_sound {t : Tables I C} (ht : t.Sound chatId am.graph) {repo : ChatRepository C S}
    (hr : RepoSound am chatId t repo) (ok : Bool) :
    (repo.persistChat am chatId ok t).2.1.Sound chatId am.graph ∧
      RepoSound am chatId (repo.persistChat am chatId ok t).2.1 (repo.persistChat am chatId ok t).2.2 ∧
      t.stored chatId ⊆ (repo.persistChat am chatId ok t).2.1.stored chatId ∧
      ((repo.persistChat am chatId ok t).1 = .ok () → (repo.persistChat am chatId ok t).2.2.doc =
        (repo.persistChat am chatId ok t).2.1.stored chatId) := by
  have hnew := hr.saveAfter
  rcases repo.persistChat_cases am chatId ok t with ⟨he,hp⟩ | ⟨-,hp⟩ | ⟨-,-,hp⟩
  · rw [hp]
    refine ⟨ht,hr,Finset.Subset.refl _,fun _ => ?_⟩
    exact Finset.Subset.antisymm (Finset.sdiff_eq_empty_iff_subset.mp (hnew ▸ he)) hr.held
  · rw [hp,hnew]
    have hall : t.stored chatId ∪ (repo.doc \ t.stored chatId) = repo.doc :=
      Finset.union_sdiff_of_subset hr.held
    have hsound := ht.insertLog hr.row Finset.disjoint_sdiff (hall.symm ▸ hr.closed)
    have hstored : repo.doc = (t.insertLog chatId (repo.doc \ t.stored chatId)).stored chatId := by
      rw [Tables.stored_insertLog,hall]
    exact ⟨hsound,repoSound_loaded am chatId hsound hr.row hstored rfl,hstored ▸ hr.held,fun _ => hstored⟩
  · rw [hp]
    exact ⟨ht,hr,Finset.Subset.refl _,fun h => by cases h⟩

/-- A reload keeps what is stored. It puts exactly that into memory, or leaves the
memory as it was. -/
theorem resetDocStateToPersisted_sound {t t' : Tables I C} (ht : t.Sound chatId am.graph)
    {repo repo' : ChatRepository C S} (hr : RepoSound am chatId t repo) {i : C} (hi : am.graph.deps i = ∅)
    {oks : List Bool} {r : Except LibError Unit}
    (h : repo.resetDocStateToPersisted am chatId oks i t = some (r,t',repo')) :
    t'.Sound chatId am.graph ∧ RepoSound am chatId t' repo' ∧ t'.stored chatId = t.stored chatId ∧
      ((r = .ok () ∧ repo' = repo.resetTo am (t.stored chatId) (am.getHeads (t.stored chatId))) ∨
        (r = .error .sqlx ∧ repo' = repo)) := by
  obtain ⟨ht',hf,hk⟩ := getPersistedDocState_sound am chatId hi oks ht (l := .selectSnapshot) trivial
  obtain ⟨hrow,hstored⟩ := hk hr.row
  unfold ChatRepository.resetDocStateToPersisted at h
  generalize getPersistedDocState am chatId i oks t .selectSnapshot = loaded at *
  obtain ⟨u,l⟩ := loaded
  cases l with
  | returned doc heads =>
    obtain ⟨-,hdoc,hheads⟩ := hf
    cases h
    refine ⟨ht',repoSound_loaded am chatId ht' hrow hdoc hheads,hstored,Or.inl ⟨rfl,?_⟩⟩
    rw [hheads,hdoc.trans hstored]
  | failed =>
    cases h
    exact ⟨ht',hr.of_stored am chatId hrow hstored,hstored,Or.inr ⟨rfl,rfl⟩⟩
  | _ => cases h

/-- The rows and the owner, with the changes of all sends that returned Ok, the
result of the last step, and what was stored when the current load began. -/
structure OwnerState (I C S : Type) where
  tables : Tables I C
  process : Process I C S
  acked : Finset C
  last : Option (Returned C)
  atLoad : Option (Finset C)

namespace OwnerState

def initial (t : Tables I C) : OwnerState I C S := ⟨t,Process.new,∅,none,none⟩

def ackedAfter (acked : Finset C) : Option (Returned C) → Finset C
  | some (.addedMessage c) => insert c acked
  | _ => acked

def step (s : OwnerState I C S) (l : ProcessLabel C M) : Option (OwnerState I C S) :=
  (s.process.step am chatId s.tables l).map (fun next => {
    tables := next.1
    process := next.2.1
    acked := ackedAfter s.acked next.2.2
    last := next.2.2
    atLoad := if s.process.activity.load?.isSome then s.atLoad
      else (s.tables.chats chatId).map (fun _ => s.tables.stored chatId) })

/-- The invariant of the owner. -/
structure Owned (s : OwnerState I C S) : Prop where
  tables : s.tables.Sound chatId am.graph
  repo : ∀ repo, s.process.repo = some repo → RepoSound am chatId s.tables repo
  load : ∀ l, s.process.activity.load? = some l → l.Fresh am chatId s.tables
  began : s.process.activity.load?.isSome → ∀ b, s.atLoad = some b →
    s.tables.chats chatId ≠ none ∧ s.tables.stored chatId = b
  pending : ∀ msg c, s.process.activity = .persisting (.addMessage msg c) →
    ∃ repo, s.process.repo = some repo ∧ c ∈ repo.doc
  acked : s.acked ⊆ s.tables.stored chatId
  exact : s.last ≠ none → s.last ≠ some .error → s.last ≠ some .receivedEmpty →
    ∃ repo, s.process.repo = some repo ∧ repo.doc = s.tables.stored chatId
  reopened : s.last = some .opened ∨ s.last = some .reset → ∀ b, s.atLoad = some b →
    s.tables.stored chatId = b

/-- A step that leaves the rows alone and completes nothing. -/
private theorem Owned.quiet {s : OwnerState I C S} (h : Owned am chatId s) {p : Process I C S}
    {r : Option (Returned C)} {b : Option (Finset C)}
    (hr : ∀ repo, p.repo = some repo → RepoSound am chatId s.tables repo)
    (hl : ∀ l, p.activity.load? = some l → l = .selectSnapshot ∧
      b = (s.tables.chats chatId).map (fun _ => s.tables.stored chatId))
    (hp : ∀ msg c, p.activity = .persisting (.addMessage msg c) → ∃ repo, p.repo = some repo ∧ c ∈ repo.doc)
    (hres : r = none ∨ r = some .error ∨ r = some .receivedEmpty) :
    Owned am chatId ⟨s.tables,p,s.acked,r,b⟩ where
  tables := h.tables
  repo := hr
  load l hl' := by
    rw [(hl l hl').1]
    trivial
  began hs b' hb := by
    obtain ⟨l,hl'⟩ := Option.isSome_iff_exists.mp hs
    have hb' : (s.tables.chats chatId).map (fun _ => s.tables.stored chatId) = some b' :=
      (hl l hl').2.symm.trans hb
    obtain ⟨d,hd,rfl⟩ := Option.map_eq_some_iff.mp hb'
    exact ⟨hd ▸ Option.some_ne_none d,rfl⟩
  pending := hp
  acked := h.acked
  exact hn he hm := by rcases hres with rfl | rfl | rfl <;> contradiction
  reopened ho := by rcases hres with rfl | rfl | rfl <;> rcases ho with ho | ho <;> cases ho

/-- A statement of a load, for both callers of the loading loop. -/
private theorem Owned.loadStatement {s : OwnerState I C S} (h : Owned am chatId s) {l : LoadState I C}
    (hl : s.process.activity.load? = some l) (pending : LoadState I C → Activity I C)
    (hpend : ∀ l, (pending l).load? = some l) (done : Doc C → Finset C → ChatRepository C S)
    (hdone : ∀ d hs, (done d hs).doc = d ∧ (done d hs).lastSavedHeads = hs)
    (result : Returned C) (ok : Bool) {i : C} (hi : am.graph.deps i = ∅) :
    Owned am chatId ⟨(loadStep am chatId ok i s.tables l).1,
      (Process.resume s.process.repo pending done result (loadStep am chatId ok i s.tables l).2).1,s.acked,
      (Process.resume s.process.repo pending done result (loadStep am chatId ok i s.tables l).2).2,
      s.atLoad⟩ := by
  obtain ⟨ht,hf,hk⟩ := loadStep_sound am chatId h.tables (h.load l hl) ok hi
  generalize (loadStep am chatId ok i s.tables l).1 = t at ht hf hk
  generalize (loadStep am chatId ok i s.tables l).2 = l' at hf
  have hgrow : s.tables.stored chatId ⊆ t.stored chatId := by
    by_cases hn : s.tables.chats chatId = none
    · rw [Tables.stored,hn,h.tables.absent hn]
      exact Finset.empty_subset _
    · rw [(hk hn).2]
  have hbegan : ∀ b, s.atLoad = some b → t.chats chatId ≠ none ∧ t.stored chatId = b := by
    intro b hb
    obtain ⟨hrow,hs⟩ := h.began (by rw [hl]; rfl) b hb
    exact ⟨(hk hrow).1,(hk hrow).2.trans hs⟩
  have hrepo : ∀ repo, s.process.repo = some repo → RepoSound am chatId t repo := by
    intro repo hr
    have hrs := h.repo repo hr
    exact hrs.of_stored am chatId (hk hrs.row).1 (hk hrs.row).2
  have hmid : ∀ l'' : LoadState I C, l''.Fresh am chatId t →
      Owned am chatId ⟨t,⟨s.process.repo,pending l''⟩,s.acked,none,s.atLoad⟩ := fun l'' hf'' =>
    { tables := ht
      repo := hrepo
      load := fun m hm => by
        cases (hpend l'').symm.trans hm
        exact hf''
      began := fun _ => hbegan
      pending := fun msg c hp => by cases (hpend l'').symm.trans (congrArg Activity.load? hp)
      acked := h.acked.trans hgrow
      exact := fun hn => absurd rfl hn
      reopened := fun ho => by rcases ho with ho | ho <;> cases ho }
  cases l' with
  | returned doc heads =>
    obtain ⟨hrow,hd,hh⟩ := hf
    obtain ⟨hdd,hdh⟩ := hdone doc heads
    exact
      { tables := ht
        repo := fun repo hr => by
          cases hr
          exact repoSound_loaded am chatId ht hrow (hdd.trans hd) (by rw [hdh,hdd,hh])
        load := fun m hm => by cases hm
        began := fun hs => by cases hs
        pending := fun msg c hp => by cases hp
        acked := h.acked.trans hgrow
        exact := fun _ _ _ => ⟨_,rfl,hdd.trans hd⟩
        reopened := fun _ b hb => (hbegan b hb).2 }
  | failed =>
    exact
      { tables := ht
        repo := hrepo
        load := fun m hm => by cases hm
        began := fun hs => by cases hs
        pending := fun msg c hp => by cases hp
        acked := h.acked.trans hgrow
        exact := fun _ he => absurd rfl he
        reopened := fun ho => by rcases ho with ho | ho <;> cases ho }
  | selectSnapshot => exact hmid _ hf
  | selectLog snapshot => exact hmid _ hf
  | compacting stage snapshot rows => exact hmid _ hf
  | insertSnapshot doc => exact hmid _ hf

private theorem Owned.persistStatement {s : OwnerState I C S} (h : Owned am chatId s)
    {repo repo' : ChatRepository C S} {call : PendingCall C} (hr : s.process.repo = some repo)
    (ha : s.process.activity = .persisting call) (ok : Bool)
    (hd : repo'.doc = (repo.persistChat am chatId ok s.tables).2.2.doc)
    (hh : repo'.lastSavedHeads = (repo.persistChat am chatId ok s.tables).2.2.lastSavedHeads)
    {r : Returned C} {a : Finset C}
    (hres : (r = .error ∧ a = s.acked) ∨
      ((repo.persistChat am chatId ok s.tables).1 = .ok () ∧ r = call.returned ∧
        (a = s.acked ∨ ∃ msg c, call = .addMessage msg c ∧ a = insert c s.acked))) (b : Option (Finset C)) :
    Owned am chatId ⟨(repo.persistChat am chatId ok s.tables).2.1,⟨some repo',.idle⟩,a,some r,b⟩ := by
  have hrs := h.repo repo hr
  obtain ⟨ht,hrs',hgrow,hok⟩ := persistChat_sound am chatId h.tables hrs ok
  have hdoc := repo.persistChat_doc am chatId ok s.tables
  generalize repo.persistChat am chatId ok s.tables = out at *
  refine
    { tables := ht
      repo := ?_
      load := fun m hm => by cases hm
      began := fun hs => by cases hs
      pending := fun msg c hp => by cases hp
      acked := ?_
      exact := ?_
      reopened := ?_ }
  · rintro _ ⟨⟩
    exact ⟨hrs'.row,hh ▸ hrs'.saved,hd ▸ hrs'.held,hd ▸ hrs'.closed⟩
  · rcases hres with ⟨-,rfl⟩ | ⟨hsaved,-,rfl | ⟨msg,c,rfl,rfl⟩⟩
    · exact h.acked.trans hgrow
    · exact h.acked.trans hgrow
    · obtain ⟨repo'',hr'',hc⟩ := h.pending msg c ha
      cases hr.symm.trans hr''
      refine Finset.insert_subset ?_ (h.acked.trans hgrow)
      rw [← hok hsaved,hdoc]
      exact hc
  · intro _ he _
    rcases hres with ⟨rfl,-⟩ | ⟨hsaved,-,-⟩
    · exact absurd rfl he
    · exact ⟨repo',rfl,hd.trans (hok hsaved)⟩
  · intro ho
    rcases hres with ⟨rfl,-⟩ | ⟨-,rfl,-⟩
    · rcases ho with ho | ho <;> cases ho
    · cases call <;> rcases ho with ho | ho <;> cases ho

omit [DecidableEq I] in
private theorem ackedAfter_resume (acked : Finset C) {repo : Option (ChatRepository C S)}
    {pending : LoadState I C → Activity I C} {done : Doc C → Finset C → ChatRepository C S}
    {result : Returned C} (hres : ∀ c, result ≠ .addedMessage c) (l : LoadState I C) :
    ackedAfter acked (Process.resume repo pending done result l).2 = acked := by
  cases l with
  | returned doc heads =>
    cases result with
    | addedMessage c => exact absurd rfl (hres c)
    | _ => rfl
  | _ => rfl

/-- Every step of the owner keeps the invariant. -/
theorem step_owned {s s' : OwnerState I C S} {l : ProcessLabel C M} (h : Owned am chatId s)
    (hs : step am chatId s l = some s') : Owned am chatId s' := by
  obtain ⟨⟨t,p,r⟩,hn,rfl⟩ := Option.map_eq_some_iff.mp hs
  have hm := Process.step_moved am chatId hn
  clear hs hn
  cases hm with
  | crash =>
    exact h.quiet am chatId (fun _ hr => by cases hr) (fun _ hl => by cases hl) (fun _ _ hp => by cases hp)
      (Or.inl rfl)
  | «open» hr ha =>
    refine h.quiet am chatId (fun _ hr => by cases hr) ?_ (fun _ _ hp => by cases hp) (Or.inl rfl)
    intro l hl
    cases hl
    simp [ha,Activity.load?]
  | beginReset repo hr ha =>
    refine h.quiet am chatId ?_ ?_ (fun _ _ hp => by cases hp) (Or.inl rfl)
    · rintro _ ⟨⟩
      exact h.repo repo hr
    · intro l hl
      cases hl
      simp [ha,Activity.load?]
  | unsaved _ repo repo' hr ha hd hh r hres =>
    have hrs := h.repo repo hr
    have hnew : RepoSound am chatId s.tables repo' := ⟨hrs.row,hh ▸ hrs.saved,hd ▸ hrs.held,hd ▸ hrs.closed⟩
    rcases hres with rfl | rfl
    · refine h.quiet am chatId ?_ (fun _ hl => by cases hl) (fun _ _ hp => by cases hp) (Or.inr (Or.inl rfl))
      rintro _ ⟨⟩
      exact hnew
    · refine h.quiet am chatId ?_ (fun _ hl => by cases hl) (fun _ _ hp => by cases hp) (Or.inr (Or.inr rfl))
      rintro _ ⟨⟩
      exact hnew
  | transact repo hr ha msg c hc =>
    have hrs := h.repo repo hr
    refine h.quiet am chatId ?_ (fun _ hl => by cases hl) ?_ (Or.inl rfl)
    · rintro _ ⟨⟩
      refine ⟨hrs.row,hrs.saved,hrs.held.trans (Finset.subset_insert _ _),am.graph.closed_insert hrs.closed ?_⟩
      rw [hc,Automerge.getHeads,am.graph.ready_eq_of_closed hrs.closed]
      exact am.graph.heads_subset _
    · rintro _ _ ⟨⟩
      exact ⟨_,rfl,Finset.mem_insert_self _ _⟩
  | receive repo hr ha msg a r har =>
    have hrs := h.repo repo hr
    have hnew : RepoSound am chatId s.tables (repo.applySyncMessage am msg).1 :=
      ⟨hrs.row,hrs.saved,hrs.held.trans (am.receive_grows _ _ _),am.receive_closed _ _ _ hrs.closed⟩
    rcases har with ⟨rfl,rfl,-⟩ | ⟨rfl,rfl⟩
    · refine h.quiet am chatId ?_ (fun _ hl => by cases hl) (fun _ _ hp => by cases hp) (Or.inr (Or.inl rfl))
      rintro _ ⟨⟩
      exact hnew
    · refine h.quiet am chatId ?_ (fun _ hl => by cases hl) (fun _ _ hp => by cases hp) (Or.inl rfl)
      rintro _ ⟨⟩
      exact hnew
  | openStatement load hr ha ok i hi =>
    have hl : s.process.activity.load? = some load := congrArg Activity.load? ha
    have ho := h.loadStatement am chatId hl .opening (fun _ => rfl) (ChatRepository.new am)
      (fun _ _ => ⟨rfl,rfl⟩) .opened ok hi
    rw [hr] at ho
    simp only [hl,Option.isSome_some,if_true,Process.resumeOpen]
    rw [ackedAfter_resume]
    · exact ho
    · exact fun _ h => by cases h
  | resetStatement repo load hr ha ok i hi =>
    have hl : s.process.activity.load? = some load := congrArg Activity.load? ha
    have ho := h.loadStatement am chatId hl .resetting (fun _ => rfl) (repo.resetTo am)
      (fun _ _ => ⟨rfl,rfl⟩) .reset ok hi
    rw [hr] at ho
    simp only [hl,Option.isSome_some,if_true,Process.resumeReset]
    rw [ackedAfter_resume]
    · exact ho
    · exact fun _ h => by cases h
  | persist repo repo' call hr ha ok _ e hp hd hh r hres =>
    refine h.persistStatement am chatId hr ha ok hd hh ?_ _
    rcases hres with rfl | ⟨rfl,rfl⟩
    · exact Or.inl ⟨rfl,rfl⟩
    · refine Or.inr ⟨hp,rfl,?_⟩
      cases call with
      | addMessage msg c => exact Or.inr ⟨msg,c,rfl,rfl⟩
      | receiveSyncMessage before => exact Or.inl rfl

theorem initial_owned {t : Tables I C} (hn : t.chats chatId = none) (hl : t.selectLog chatId = []) :
    Owned am chatId (initial t : OwnerState I C S) where
  tables := Tables.sound_of_absent hn hl
  repo _ h := by cases h
  load _ h := by cases h
  began h := by cases h
  pending _ _ h := by cases h
  acked := Finset.empty_subset _
  exact h := absurd rfl h
  reopened h := by rcases h with h | h <;> cases h

/-- Single-owner durability. -/
theorem owner_rows_are_saved_history {t : Tables I C} (hn : t.chats chatId = none)
    (hl : t.selectLog chatId = []) {labels : List (ProcessLabel C M)} {s : OwnerState I C S}
    (h : run (step am chatId) (initial t) labels = some s) :
    (s.tables.blobs chatId).Pairwise Disjoint ∧
    (∀ repo, s.process.repo = some repo →
      s.tables.stored chatId = am.graph.ancestorsOf repo.lastSavedHeads ∧
      s.tables.stored chatId ⊆ repo.doc) ∧
    ((∃ c, s.last = some (.addedMessage c)) ∨ s.last = some .receivedMessage →
      ∃ repo, s.process.repo = some repo ∧ repo.doc = s.tables.stored chatId) ∧
    (s.last = some .opened ∨ s.last = some .reset →
      ∃ repo, s.process.repo = some repo ∧ repo.doc = s.tables.stored chatId ∧
        (∀ b, s.atLoad = some b → repo.doc = b) ∧ s.acked ⊆ repo.doc) ∧
    s.acked ⊆ s.tables.stored chatId := by
  have ho := run_invariant (fun _ _ _ => step_owned am chatId) h (initial_owned am chatId hn hl)
  refine ⟨ho.tables.separate,fun repo hr => ⟨(ho.repo repo hr).saved,(ho.repo repo hr).held⟩,?_,?_,ho.acked⟩
  · intro hlast
    refine ho.exact ?_ ?_ ?_ <;> rcases hlast with ⟨c,hlast⟩ | hlast <;> rw [hlast] <;> simp
  · intro hlast
    obtain ⟨repo,hr,hd⟩ : ∃ repo, s.process.repo = some repo ∧ repo.doc = s.tables.stored chatId := by
      refine ho.exact ?_ ?_ ?_ <;> rcases hlast with hlast | hlast <;> rw [hlast] <;> simp
    exact ⟨repo,hr,hd,fun b hb => hd.trans (ho.reopened hlast b hb),hd ▸ ho.acked⟩

/-- Create the chat, send one message, crash, and open the chat again. -/
def sendThenReopen : List (ProcessLabel Nat Line.SyncMessage) :=
  [.open,.sql true 0,.sql true 0,.addMessage ⟨"m1","A",.text "hello",1,1⟩ (some 1),.sql true 0,
    .crash,.open,.sql true 0,.sql true 0]

theorem owner_rows_after_reopen :
    ∃ s, run (step Line.automerge ()) (initial Tables.empty) sendThenReopen = some s ∧
      s.last = some .opened ∧ 1 ∈ s.acked ∧
      ∃ repo, s.process.repo = some repo ∧ repo.doc = s.tables.stored () ∧ 1 ∈ repo.doc := by
  obtain ⟨s,hs,hlast,hack⟩ : ∃ s, run (step Line.automerge ()) (initial Tables.empty) sendThenReopen = some s ∧
      s.last = some .opened ∧ 1 ∈ s.acked := ⟨_,rfl,rfl,by decide⟩
  obtain ⟨-,-,-,hopen,-⟩ := owner_rows_are_saved_history Line.automerge () rfl rfl hs
  obtain ⟨repo,hr,hd,-,hsub⟩ := hopen (Or.inl hlast)
  exact ⟨s,hs,hlast,hack,repo,hr,hd,hsub hack⟩

end OwnerState
end GossipCore.Persistence
