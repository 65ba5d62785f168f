import GossipCore.Persistence.ChatDocument
import GossipCore.Persistence.SingleOwner

/-! What a run without failures adds to the changes of an owner: nothing but its own
appends, the batches it receives and the initial change. -/
namespace GossipCore.Persistence
open Base

variable {I C S M : Type} [DecidableEq I] [DecidableEq C]

/-- The document of a new chat that has not been inserted yet. -/
def LoadState.draft : LoadState I C → Finset C
  | .insertSnapshot doc => doc
  | _ => ∅

section Load
variable {O : Type} (am : Automerge C S M O) (chatId : I)

/-- A new chat is drafted with its initial change only. -/
theorem loadStep_draft (ok : Bool) (i : C) (t : Tables I C) (l : LoadState I C) :
    (loadStep am chatId ok i t l).2.draft ⊆ {i} := by
  cases ok with
  | false => cases l <;> exact Finset.empty_subset _
  | true =>
    cases l with
    | selectSnapshot =>
      simp only [loadStep,if_true]
      split
      · exact Finset.empty_subset _
      · exact Finset.Subset.refl _
    | selectLog snapshot =>
      simp only [loadStep,if_true]
      split <;> exact Finset.empty_subset _
    | compacting stage snapshot rows => cases stage <;> exact Finset.empty_subset _
    | insertSnapshot doc =>
      simp only [loadStep,if_true]
      split <;> exact Finset.empty_subset _
    | returned doc heads => exact Finset.empty_subset _
    | failed => exact Finset.empty_subset _

/-- A statement of a load stores nothing but the new chat's document. -/
theorem loadStep_stored {t : Tables I C} (ht : t.Sound chatId am.graph) {l : LoadState I C}
    (hl : l.Fresh am chatId t) (ok : Bool) {i : C} (hi : am.graph.deps i = ∅) :
    t.stored chatId ⊆ (loadStep am chatId ok i t l).1.stored chatId ∧
      (loadStep am chatId ok i t l).1.stored chatId ⊆ t.stored chatId ∪ l.draft := by
  by_cases hn : t.chats chatId = none
  · have hw := loadStep_write am chatId ok i t l
    generalize (loadStep am chatId ok i t l).1 = t' at hw ⊢
    generalize (loadStep am chatId ok i t l).2 = l' at hw
    cases hw with
    | read => exact ⟨Finset.Subset.refl _,Finset.subset_union_left⟩
    | create doc hl' _ heads =>
      rw [hl',Tables.stored_insertOrIgnoreChat _ _ _ hn,Finset.union_comm]
      exact ⟨Finset.subset_union_left,Finset.Subset.refl _⟩
    | commit snapshot rows hl' heads =>
      rw [hl'] at hl
      cases hn.symm.trans hl.1
  · rw [((loadStep_sound am chatId ht hl ok hi).2.2 hn).2]
    exact ⟨Finset.Subset.refl _,Finset.subset_union_left⟩

/-- A whole load adds at most the initial change to what is stored. -/
theorem getPersistedDocState_stored {i : C} (hi : am.graph.deps i = ∅) (oks : List Bool) {t : Tables I C}
    (ht : t.Sound chatId am.graph) {l : LoadState I C} (hl : l.Fresh am chatId t) (hd : l.draft ⊆ {i}) :
    t.stored chatId ⊆ (getPersistedDocState am chatId i oks t l).1.stored chatId ∧
      (getPersistedDocState am chatId i oks t l).1.stored chatId ⊆ t.stored chatId ∪ {i} := by
  induction oks generalizing t l with
  | nil => exact ⟨Finset.Subset.refl _,Finset.subset_union_left⟩
  | cons ok oks ih =>
    obtain ⟨hgrow,hbound⟩ := loadStep_stored am chatId ht hl ok hi
    obtain ⟨ht',hl',-⟩ := loadStep_sound am chatId ht hl ok hi
    obtain ⟨hgrow',hbound'⟩ := ih ht' hl' (loadStep_draft am chatId ok i t l)
    refine ⟨hgrow.trans hgrow',hbound'.trans ?_⟩
    refine Finset.union_subset (hbound.trans ?_) Finset.subset_union_right
    exact Finset.union_subset_union_right hd

end Load

namespace Process
variable (cd : ChatDocs C S M) (chatId : I)

def doc (p : Process I C S) : Finset C :=
  match p.repo with
  | some repo => repo.doc
  | none => ∅

def draft (p : Process I C S) : Finset C :=
  match p.activity.load? with
  | some l => l.draft
  | none => ∅

/-- All changes that the peer has, on disk or in memory. -/
def changes (t : Tables I C) (p : Process I C S) : Finset C := t.stored chatId ∪ p.doc ∪ p.draft

/-- Between two calls everything in memory is stored. -/
def Saved (t : Tables I C) (p : Process I C S) : Prop :=
  (∀ call, p.activity ≠ .persisting call) → ∀ repo, p.repo = some repo → repo.doc = t.stored chatId

/-- What a step can add to the changes of the peer. -/
def gain : ProcessLabel C M → Finset C
  | .addMessage _ (some c) => {c}
  | .receiveSyncMessage (some m) => cd.carried m
  | .sql _ i => {i}
  | _ => ∅

/-- The labels of a run in which nothing fails. -/
def Succeeds : ProcessLabel C M → Prop
  | .sql ok _ => ok = true
  | .receiveSyncMessage (some m) => cd.graph.Closed (cd.carried m)
  | _ => True

/-- What a step of the owner does to its changes. -/
structure Grows (t : Tables I C) (p : Process I C S) (l : ProcessLabel C M) (t' : Tables I C)
    (p' : Process I C S) : Prop where
  stored : t.stored chatId ⊆ t'.stored chatId
  bound : changes chatId t' p' ⊆ changes chatId t p ∪ gain cd l
  saved : Saved chatId t' p'

private theorem changes_subset {t : Tables I C} {p : Process I C S} {x : Finset C}
    (hs : t.stored chatId ⊆ x) (hd : ∀ repo, p.repo = some repo → repo.doc ⊆ x)
    (hl : ∀ l, p.activity.load? = some l → l.draft ⊆ x) : changes chatId t p ⊆ x := by
  refine Finset.union_subset (Finset.union_subset hs ?_) ?_
  · unfold doc
    split
    · rename_i repo hr
      exact hd repo hr
    · exact Finset.empty_subset _
  · unfold draft
    split
    · rename_i l hl'
      exact hl l hl'
    · exact Finset.empty_subset _

theorem stored_subset_changes (t : Tables I C) (p : Process I C S) :
    t.stored chatId ⊆ changes chatId t p :=
  Finset.subset_union_left.trans Finset.subset_union_left

theorem doc_subset_changes {t : Tables I C} {p : Process I C S} {repo : ChatRepository C S}
    (h : p.repo = some repo) : repo.doc ⊆ changes chatId t p := by
  have hd : p.doc = repo.doc := by simp [doc,h]
  exact hd ▸ Finset.subset_union_right.trans Finset.subset_union_left

private theorem draft_subset_changes {t : Tables I C} {p : Process I C S} {l : LoadState I C}
    (h : p.activity.load? = some l) : l.draft ⊆ changes chatId t p := by
  have hd : p.draft = l.draft := by simp [draft,h]
  exact hd ▸ Finset.subset_union_right

/-- A statement of a load, for both callers of the loading loop. -/
private theorem grows_loadStatement {t : Tables I C} (ht : t.Sound chatId cd.graph) {p : Process I C S}
    (hp : ∀ repo, p.repo = some repo → t.chats chatId ≠ none ∧ repo.doc = t.stored chatId)
    {l : LoadState I C} (hl : p.activity.load? = some l) (hf : l.Fresh cd.toAutomerge chatId t)
    (pending : LoadState I C → Activity I C) (hpend : ∀ l, (pending l).load? = some l)
    (done : Doc C → Finset C → ChatRepository C S) (hdone : ∀ d hs, (done d hs).doc = d)
    (result : Returned C) (ok : Bool) {i : C} (hi : cd.graph.deps i = ∅) :
    Grows cd chatId t p (.sql ok i) (loadStep cd.toAutomerge chatId ok i t l).1
      (resume p.repo pending done result (loadStep cd.toAutomerge chatId ok i t l).2).1 := by
  obtain ⟨hgrow,hbound⟩ := loadStep_stored cd.toAutomerge chatId ht hf ok hi
  obtain ⟨-,hf',hk⟩ := loadStep_sound cd.toAutomerge chatId ht hf ok hi
  have hdraft := loadStep_draft cd.toAutomerge chatId ok i t l
  generalize (loadStep cd.toAutomerge chatId ok i t l).1 = t' at *
  generalize (loadStep cd.toAutomerge chatId ok i t l).2 = l' at *
  have hstored : t'.stored chatId ⊆ changes chatId t p ∪ gain cd (.sql ok i) :=
    (hbound.trans (Finset.union_subset (stored_subset_changes chatId t p) (draft_subset_changes chatId hl))).trans
      Finset.subset_union_left
  have hkeep : ∀ repo, p.repo = some repo → repo.doc = t'.stored chatId := by
    intro repo hr
    obtain ⟨hrow,hd⟩ := hp repo hr
    rw [hd,(hk hrow).2]
  have hmid : ∀ a : Activity I C, (∀ m, a.load? = some m → m.draft ⊆ {i}) →
      Grows cd chatId t p (.sql ok i) t' ⟨p.repo,a⟩ := fun a ha =>
    { stored := hgrow
      bound := changes_subset chatId hstored (fun repo hr => hkeep repo hr ▸ hstored)
        (fun m hm => (ha m hm).trans Finset.subset_union_right)
      saved := fun _ => hkeep }
  have hpending : ∀ m : LoadState I C, m.draft ⊆ {i} → Grows cd chatId t p (.sql ok i) t' ⟨p.repo,pending m⟩ := by
    intro m hm
    refine hmid _ (fun m' hm' => ?_)
    cases (hpend m).symm.trans hm'
    exact hm
  cases l' with
  | returned d heads =>
    obtain ⟨-,hd,-⟩ := hf'
    have hdoc : (done d heads).doc = t'.stored chatId := (hdone d heads).trans hd
    refine ⟨hgrow,changes_subset chatId hstored ?_ (fun _ h => by cases h),fun _ => ?_⟩
    · rintro _ ⟨⟩
      exact hdoc ▸ hstored
    · rintro _ ⟨⟩
      exact hdoc
  | failed => exact hmid _ (fun _ h => by cases h)
  | selectSnapshot => exact hpending _ hdraft
  | selectLog snapshot => exact hpending _ hdraft
  | compacting stage snapshot rows => exact hpending _ hdraft
  | insertSnapshot d => exact hpending _ hdraft

/-- A step that leaves the rows alone and keeps or loses what is in memory. -/
private theorem grows_quiet {t : Tables I C} {p p' : Process I C S} {l : ProcessLabel C M}
    (hd : ∀ repo, p'.repo = some repo → repo.doc ⊆ changes chatId t p ∪ gain cd l)
    (hl : ∀ m, p'.activity.load? = some m → m = .selectSnapshot) (hs : Saved chatId t p') :
    Grows cd chatId t p l t p' where
  stored := Finset.Subset.refl _
  bound := by
    refine changes_subset chatId ((stored_subset_changes chatId t p).trans Finset.subset_union_left) hd ?_
    intro m hm
    rw [hl m hm]
    exact Finset.empty_subset _
  saved := hs

/-- Every step of an owner to which nothing fails. -/
theorem step_grows {t t' : Tables I C} {p p' : Process I C S} {l : ProcessLabel C M} {r : Option (Returned C)}
    (ht : t.Sound chatId cd.graph) (hr : ∀ repo, p.repo = some repo → RepoSound cd.toAutomerge chatId t repo)
    (hl : ∀ m, p.activity.load? = some m → m.Fresh cd.toAutomerge chatId t) (hs : Saved chatId t p)
    (hok : Succeeds cd l) (h : p.step cd.toAutomerge chatId t l = some (t',p',r)) :
    Grows cd chatId t p l t' p' := by
  have hidle : ∀ {repo}, p.repo = some repo → p.activity = .idle → repo.doc = t.stored chatId := by
    intro repo hrepo ha
    exact hs (fun call hc => by cases ha.symm.trans hc) repo hrepo
  have hkeep : ∀ {repo : ChatRepository C S}, p.repo = some repo → repo.doc ⊆ changes chatId t p ∪ gain cd l :=
    fun hrepo => (doc_subset_changes chatId hrepo).trans Finset.subset_union_left
  cases step_moved cd.toAutomerge chatId h with
  | crash =>
    exact grows_quiet cd chatId (fun _ h => by cases h) (fun _ h => by cases h) (fun _ _ h => by cases h)
  | «open» hn ha =>
    refine grows_quiet cd chatId (fun _ h => by cases h) ?_ (fun _ _ h => by cases h)
    rintro _ ⟨⟩
    rfl
  | beginReset repo hrepo ha =>
    refine grows_quiet cd chatId ?_ ?_ (fun _ => ?_)
    · rintro _ ⟨⟩
      exact hkeep hrepo
    · rintro _ ⟨⟩
      rfl
    · rintro _ ⟨⟩
      exact hidle hrepo ha
  | unsaved _ repo repo' hrepo ha hd hh r hres =>
    refine grows_quiet cd chatId ?_ (fun _ h => by cases h) (fun _ => ?_)
    · rintro _ ⟨⟩
      exact hd ▸ hkeep hrepo
    · rintro _ ⟨⟩
      exact hd.trans (hidle hrepo ha)
  | transact repo hrepo ha msg c hc =>
    refine grows_quiet cd chatId ?_ (fun _ h => by cases h) (fun hn => absurd rfl (hn _))
    rintro _ ⟨⟩
    refine Finset.insert_subset (Finset.mem_union_right _ (Finset.mem_singleton_self c)) ?_
    exact hkeep hrepo
  | receive repo hrepo ha msg a r har =>
    have hmerge := cd.receive_merges repo.syncState repo.doc msg hok
    rcases har with ⟨-,-,hno⟩ | ⟨rfl,-⟩
    · have hyes : (repo.applySyncMessage cd.toAutomerge msg).2 = true := congrArg Prod.snd hmerge
      rw [hyes] at hno
      cases hno
    · refine grows_quiet cd chatId ?_ (fun _ h => by cases h) (fun hn => absurd rfl (hn _))
      rintro _ ⟨⟩
      have hdoc : (repo.applySyncMessage cd.toAutomerge msg).1.doc = repo.doc ∪ cd.carried msg :=
        congrArg Prod.fst hmerge
      rw [hdoc]
      exact Finset.union_subset (hkeep hrepo) Finset.subset_union_right
  | openStatement load hn ha ok i hi =>
    have hload : p.activity.load? = some load := congrArg Activity.load? ha
    have hg := grows_loadStatement cd chatId ht (fun repo h => by cases hn.symm.trans h) hload (hl load hload)
      .opening (fun _ => rfl) (ChatRepository.new cd.toAutomerge) (fun _ _ => rfl) .opened ok hi
    rwa [hn] at hg
  | resetStatement repo load hrepo ha ok i hi =>
    have hload : p.activity.load? = some load := congrArg Activity.load? ha
    have hdoc : ∀ repo', p.repo = some repo' → t.chats chatId ≠ none ∧ repo'.doc = t.stored chatId := by
      intro repo' h'
      exact ⟨(hr repo' h').row,hs (fun call hc => by cases ha.symm.trans hc) repo' h'⟩
    have hg := grows_loadStatement cd chatId ht hdoc hload (hl load hload)
      .resetting (fun _ => rfl) (repo.resetTo cd.toAutomerge) (fun _ _ => rfl) .reset ok hi
    rwa [hrepo] at hg
  | persist repo repo' call hrepo ha ok i e hp hd hh r hres =>
    obtain ⟨-,-,hgrow,hsaved⟩ := persistChat_sound cd.toAutomerge chatId ht (hr repo hrepo) ok
    have hdoc := repo.persistChat_doc cd.toAutomerge chatId ok t
    have hstored := hsaved (repo.persistChat_ok cd.toAutomerge chatId hok t)
    have hbound : repo'.doc ⊆ changes chatId t p ∪ gain cd (.sql ok i) := by
      rw [hd,hdoc]
      exact hkeep hrepo
    refine ⟨hgrow,changes_subset chatId ?_ ?_ (fun _ h => by cases h),fun _ => ?_⟩
    · rw [← hstored,← hd]
      exact hbound
    · rintro _ ⟨⟩
      exact hbound
    · rintro _ ⟨⟩
      exact hd.trans hstored

end Process

end GossipCore.Persistence
