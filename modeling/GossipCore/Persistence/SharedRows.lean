import GossipCore.Persistence.Process

/-! Any number of tasks on the rows of one chat, with their statements interleaved.
A loader commits a compaction from what it read some statements ago. -/
namespace GossipCore.Persistence
open Base

namespace Tables
variable {I C : Type} [DecidableEq I]

/-- What every statement does to the rows of a chat: its row in chats stays, ids are
not given out again, and a row that was not there before has a new id. -/
structure Later (chatId : I) (t t' : Tables I C) : Prop where
  row : t.chats chatId ≠ none → t'.chats chatId ≠ none
  sequence : t.sequence ≤ t'.sequence
  fresh : ∀ r ∈ t'.selectLog chatId, r ∈ t.selectLog chatId ∨ t.sequence < r.id

theorem Later.refl (chatId : I) (t : Tables I C) : t.Later chatId t :=
  ⟨id,Nat.le_refl _,fun _ hr => Or.inl hr⟩

theorem later_insertLog (chatId : I) (t : Tables I C) (data : Blob C) :
    t.Later chatId (t.insertLog chatId data) where
  row := id
  sequence := Nat.le_succ _
  fresh r hr := by
    rw [selectLog_insertLog] at hr
    rcases List.mem_append.mp hr with hr | hr
    · exact Or.inl hr
    · rw [List.mem_singleton.mp hr]
      exact Or.inr (Nat.lt_succ_self _)

theorem later_insertOrIgnoreChat {chatId : I} {t : Tables I C} (hn : t.chats chatId = none)
    (document : Blob C) : t.Later chatId (t.insertOrIgnoreChat chatId document).1 where
  row h := absurd hn h
  sequence := by simp [insertOrIgnoreChat,hn]
  fresh r hr := Or.inl (by simpa [insertOrIgnoreChat,hn,selectLog] using hr)

theorem later_compact (chatId : I) (t : Tables I C) (document : Blob C) (maxId : Nat) :
    t.Later chatId (t.compact chatId document maxId) where
  row h := by simpa [compact,updateDocument,deleteLog] using h
  sequence := Nat.le_refl _
  fresh r hr := by
    rw [selectLog_compact] at hr
    exact Or.inl (List.mem_of_mem_filter hr)

end Tables

variable {I C S M O : Type} [DecidableEq I] [DecidableEq C] (am : Automerge C S M O) (chatId : I)

/-- A loader that is going to compact has read every row it is going to delete. -/
def LoadState.Covers (t : Tables I C) : LoadState I C → Prop
  | .selectLog _ => t.chats chatId ≠ none
  | .compacting _ _ rows => t.chats chatId ≠ none ∧ maxLogId rows ≤ t.sequence ∧
      ∀ r ∈ t.selectLog chatId, r.id ≤ maxLogId rows → r ∈ rows
  | _ => True

/-- Every change of the current snapshot is in the snapshot or in a log row that the
loader read, or in a log row newer than all of these. -/
def KnowsSnapshot (t : Tables I C) (snapshot : Blob C) (rows : List (LogRow I C)) : Prop :=
  ∀ b, t.chats chatId = some b → ∀ x ∈ b, x ∈ snapshot ∨ (∃ r ∈ rows, x ∈ r.data) ∨
    ∃ r ∈ t.selectLog chatId, maxLogId rows < r.id ∧ x ∈ r.data

omit [DecidableEq C] in
theorem LoadState.Covers.later {t t' : Tables I C} (h : t.Later chatId t') {l : LoadState I C}
    (hl : l.Covers chatId t) : l.Covers chatId t' := by
  cases l with
  | selectLog snapshot => exact h.row hl
  | compacting stage snapshot rows =>
    obtain ⟨hrow,hseq,hread⟩ := hl
    refine ⟨h.row hrow,hseq.trans h.sequence,fun r hr hle => ?_⟩
    rcases h.fresh r hr with hr | hlt
    · exact hread r hr hle
    · exact absurd (hle.trans hseq) (Nat.not_le.mpr hlt)
  | _ => trivial

omit [DecidableEq C] in
private theorem maxLogId_le_sequence (t : Tables I C) : maxLogId (t.selectLog chatId) ≤ t.sequence := by
  unfold maxLogId
  cases h : (t.selectLog chatId).getLast? with
  | none => exact Nat.zero_le _
  | some r => exact t.bounded r (List.mem_of_mem_filter (List.mem_of_getLast? h))

theorem loadStep_later (ok : Bool) (initial : C) (t : Tables I C) (l : LoadState I C) :
    t.Later chatId (loadStep am chatId ok initial t l).1 := by
  have hw := loadStep_write am chatId ok initial t l
  generalize (loadStep am chatId ok initial t l).1 = t' at hw ⊢
  generalize (loadStep am chatId ok initial t l).2 = l' at hw
  cases hw with
  | read => exact .refl chatId t
  | create doc hl hn heads => exact Tables.later_insertOrIgnoreChat hn doc
  | commit snapshot rows hl heads => exact Tables.later_compact chatId t _ _

theorem loadStep_covers (ok : Bool) (initial : C) {t : Tables I C} {l : LoadState I C}
    (hl : l.Covers chatId t) :
    (loadStep am chatId ok initial t l).2.Covers chatId (loadStep am chatId ok initial t l).1 := by
  cases ok with
  | false => cases l <;> trivial
  | true =>
    cases l with
    | selectSnapshot =>
      simp only [loadStep,if_true,Tables.selectDocument]
      cases hd : t.chats chatId with
      | some document =>
        change t.chats chatId ≠ none
        rw [hd]
        exact Option.some_ne_none document
      | none => trivial
    | selectLog snapshot =>
      simp only [loadStep,if_true]
      split
      · exact ⟨hl,maxLogId_le_sequence chatId t,fun r hr _ => hr⟩
      · trivial
    | compacting stage snapshot rows => cases stage <;> first | exact hl | trivial
    | insertSnapshot doc =>
      simp only [loadStep,if_true]
      split <;> trivial
    | returned doc heads => trivial
    | failed => trivial

/-- A commit keeps every stored change exactly when its loader knows the current
snapshot: the rows it deletes have all been read. -/
theorem compact_stored_iff {t : Tables I C} {stage : TxStage} {snapshot : Blob C}
    {rows : List (LogRow I C)} (hl : (LoadState.compacting stage snapshot rows).Covers chatId t) :
    t.stored chatId ⊆ (t.compact chatId (loadedDoc snapshot rows) (maxLogId rows)).stored chatId ↔
      KnowsSnapshot chatId t snapshot rows := by
  obtain ⟨hrow,-,hread⟩ := hl
  have hsome : (t.chats chatId).isSome := Option.isSome_iff_ne_none.mpr hrow
  constructor
  · intro hsub b hb x hx
    have hx' := hsub (Tables.mem_stored.mpr (Or.inl ⟨b,hb,hx⟩))
    rcases Tables.mem_stored_compact.mp hx' with ⟨-,hd⟩ | hlog
    · rcases mem_loadedDoc.mp hd with hs | hr
      · exact Or.inl hs
      · exact Or.inr (Or.inl hr)
    · exact Or.inr (Or.inr hlog)
  · intro hknows x hx
    rw [Tables.mem_stored_compact,mem_loadedDoc]
    rcases Tables.mem_stored.mp hx with ⟨b,hb,hxb⟩ | ⟨r,hr,hxr⟩
    · rcases hknows b hb x hxb with hs | hrows | hlog
      · exact Or.inl ⟨hsome,Or.inl hs⟩
      · exact Or.inl ⟨hsome,Or.inr hrows⟩
      · exact Or.inr hlog
    · by_cases hle : r.id ≤ maxLogId rows
      · exact Or.inl ⟨hsome,Or.inr ⟨r,hread r hr hle,hxr⟩⟩
      · exact Or.inr ⟨r,hr,Nat.not_le.mp hle,hxr⟩

/-- A statement of a load keeps every stored change, unless it commits a compaction
whose loader does not know the current snapshot. -/
theorem loadStep_stored_iff (ok : Bool) (initial : C) {t : Tables I C} {l : LoadState I C}
    (hl : l.Covers chatId t) :
    t.stored chatId ⊆ (loadStep am chatId ok initial t l).1.stored chatId ↔
      ∀ snapshot rows, ok = true → l = .compacting .commit snapshot rows →
        KnowsSnapshot chatId t snapshot rows := by
  cases ok with
  | false =>
    have ht : (loadStep am chatId false initial t l).1 = t := by cases l <;> rfl
    rw [ht]
    exact ⟨fun _ _ _ h => (by cases h),fun _ => Finset.Subset.refl _⟩
  | true =>
    by_cases hc : ∃ snapshot rows, l = .compacting .commit snapshot rows
    · obtain ⟨snapshot,rows,rfl⟩ := hc
      refine (compact_stored_iff chatId hl).trans ⟨?_,fun h => h snapshot rows rfl rfl⟩
      rintro h _ _ - ⟨⟩
      exact h
    · refine ⟨fun _ snapshot rows _ he => absurd ⟨snapshot,rows,he⟩ hc,fun _ => ?_⟩
      have hw := loadStep_write am chatId true initial t l
      generalize (loadStep am chatId true initial t l).1 = t' at hw ⊢
      generalize (loadStep am chatId true initial t l).2 = l' at hw
      cases hw with
      | read => exact Finset.Subset.refl _
      | create doc hl' hn heads =>
        rw [Tables.stored_insertOrIgnoreChat _ _ _ hn]
        exact Finset.subset_union_right
      | commit snapshot rows hl' heads => exact absurd ⟨snapshot,rows,hl'⟩ hc

theorem persistChat_later (ok : Bool) (t : Tables I C) (repo : ChatRepository C S) :
    t.Later chatId (repo.persistChat am chatId ok t).2.1 ∧
      t.stored chatId ⊆ (repo.persistChat am chatId ok t).2.1.stored chatId := by
  rcases repo.persistChat_cases am chatId ok t with ⟨-,h⟩ | ⟨-,h⟩ | ⟨-,-,h⟩
  · rw [h]
    exact ⟨.refl chatId t,Finset.Subset.refl _⟩
  · rw [h]
    refine ⟨Tables.later_insertLog chatId t _,?_⟩
    rw [Tables.stored_insertLog]
    exact Finset.subset_union_left
  · rw [h]
    exact ⟨.refl chatId t,Finset.Subset.refl _⟩

namespace Process

/-- The step commits only compactions whose loader knows the current snapshot. -/
def CommitKnows (t : Tables I C) (p : Process I C S) (l : ProcessLabel C M) : Prop :=
  ∀ initial snapshot rows, l = .sql true initial →
    p.activity.load? = some (.compacting .commit snapshot rows) → KnowsSnapshot chatId t snapshot rows

omit [DecidableEq I] [DecidableEq C] in
private theorem resume_load {repo : Option (ChatRepository C S)} {pending : LoadState I C → Activity I C}
    (hp : ∀ l, (pending l).load? = some l) {done : Doc C → Finset C → ChatRepository C S}
    {result : Returned C} {l m : LoadState I C}
    (h : (resume repo pending done result l).1.activity.load? = some m) : m = l := by
  cases l with
  | returned doc heads => cases h
  | failed => cases h
  | _ => exact Option.some.inj (h.symm.trans (hp _))

omit [DecidableEq C] in
private theorem commitKnows_sql_iff {t : Tables I C} {p : Process I C S} {load : LoadState I C}
    (hl : p.activity.load? = some load) (ok : Bool) (i : C) :
    CommitKnows chatId t p (.sql ok i : ProcessLabel C M) ↔
      ∀ snapshot rows, ok = true → load = .compacting .commit snapshot rows →
        KnowsSnapshot chatId t snapshot rows := by
  constructor
  · rintro h snapshot rows rfl rfl
    exact h i snapshot rows rfl hl
  · rintro h _ snapshot rows ⟨⟩ hm
    exact h snapshot rows rfl (Option.some.inj (hl.symm.trans hm))

/-- One step of one task, for the rows, for its own reads and for what is stored. -/
theorem step_shared {t t' : Tables I C} {p p' : Process I C S} {l : ProcessLabel C M}
    {r : Option (Returned C)} (h : step am chatId t p l = some (t',p',r))
    (hc : ∀ m, p.activity.load? = some m → m.Covers chatId t) :
    t.Later chatId t' ∧ (∀ m, p'.activity.load? = some m → m.Covers chatId t') ∧
      (t.stored chatId ⊆ t'.stored chatId ↔ CommitKnows chatId t p l) := by
  have hquiet : (∀ m, p.activity.load? = some m → ∀ ok i, l ≠ .sql ok i) →
      (t.stored chatId ⊆ t.stored chatId ↔ CommitKnows chatId t p l) := fun hn =>
    ⟨fun _ i _ _ hl hm => absurd hl (hn _ hm true i),fun _ => Finset.Subset.refl _⟩
  have hidle : ∀ q : Process I C S, q.activity.load? = none → ∀ m, q.activity.load? = some m →
      m.Covers chatId t := fun q hq m hm => by cases hq.symm.trans hm
  cases step_moved am chatId h with
  | crash => exact ⟨.refl chatId t,hidle _ rfl,hquiet (fun _ _ _ _ h => by cases h)⟩
  | «open» hr ha =>
    refine ⟨.refl chatId t,?_,hquiet (fun _ _ _ _ h => by cases h)⟩
    rintro _ ⟨⟩
    trivial
  | beginReset repo hr ha =>
    refine ⟨.refl chatId t,?_,hquiet (fun _ _ _ _ h => by cases h)⟩
    rintro _ ⟨⟩
    trivial
  | unsaved _ repo repo' hr ha hd hh r hres =>
    exact ⟨.refl chatId t,hidle _ rfl,hquiet (fun m hm => by rw [ha] at hm; cases hm)⟩
  | transact repo hr ha msg c hc' =>
    exact ⟨.refl chatId t,hidle _ rfl,hquiet (fun _ _ _ _ h => by cases h)⟩
  | receive repo hr ha msg a r har =>
    refine ⟨.refl chatId t,hidle _ ?_,hquiet (fun _ _ _ _ h => by cases h)⟩
    rcases har with ⟨rfl,-⟩ | ⟨rfl,-⟩ <;> rfl
  | openStatement load hr ha ok i hi =>
    have hl : p.activity.load? = some load := congrArg Activity.load? ha
    refine ⟨loadStep_later am chatId ok i t load,?_,?_⟩
    · intro m hm
      rw [resume_load (fun _ => rfl) hm]
      exact loadStep_covers am chatId ok i (hc load hl)
    · exact (loadStep_stored_iff am chatId ok i (hc load hl)).trans (commitKnows_sql_iff chatId hl ok i).symm
  | resetStatement repo load hr ha ok i hi =>
    have hl : p.activity.load? = some load := congrArg Activity.load? ha
    refine ⟨loadStep_later am chatId ok i t load,?_,?_⟩
    · intro m hm
      rw [resume_load (fun _ => rfl) hm]
      exact loadStep_covers am chatId ok i (hc load hl)
    · exact (loadStep_stored_iff am chatId ok i (hc load hl)).trans (commitKnows_sql_iff chatId hl ok i).symm
  | persist repo repo' call hr ha ok i e hp hd hh r hres =>
    obtain ⟨hlater,hsub⟩ := persistChat_later am chatId ok t repo
    refine ⟨hlater,fun m hm => (by cases hm),fun _ _ _ _ _ hm => ?_,fun _ => hsub⟩
    rw [ha] at hm
    cases hm

end Process

/-- The tables with all tasks that work on the chat. -/
structure Shared (I C S : Type) where
  tables : Tables I C
  tasks : Nat → Process I C S

namespace Shared

def initial (t : Tables I C) : Shared I C S := ⟨t,fun _ => Process.new⟩

def set (s : Shared I C S) (i : Nat) (t : Tables I C) (p : Process I C S) : Shared I C S :=
  ⟨t,Function.update s.tasks i p⟩

omit [DecidableEq I] [DecidableEq C] in
theorem set_self (s : Shared I C S) (i : Nat) (t : Tables I C) (p : Process I C S) :
    (s.set i t p).tasks i = p := by simp [set]

omit [DecidableEq I] [DecidableEq C] in
theorem set_ne (s : Shared I C S) {i j : Nat} (h : j ≠ i) (t : Tables I C) (p : Process I C S) :
    (s.set i t p).tasks j = s.tasks j := by simp [set,h]

/-- One task takes a step, the others keep their memory. -/
def step (s : Shared I C S) (l : Nat × ProcessLabel C M) : Option (Shared I C S) :=
  ((s.tasks l.1).step am chatId s.tables l.2).map (fun next => s.set l.1 next.1 next.2.1)

/-- The condition on the step: when it commits a compaction, every change of the
current snapshot was read by the committing loader or is in a newer row. -/
def CommitKnows (s : Shared I C S) (l : Nat × ProcessLabel C M) : Prop :=
  (s.tasks l.1).CommitKnows chatId s.tables l.2

def Covered (s : Shared I C S) : Prop :=
  ∀ i m, (s.tasks i).activity.load? = some m → m.Covers chatId s.tables

omit [DecidableEq C] in
theorem initial_covered (t : Tables I C) : Covered chatId (initial t : Shared I C S) :=
  fun _ _ h => by cases h

theorem step_covered {s s' : Shared I C S} {l : Nat × ProcessLabel C M} (hc : Covered chatId s)
    (h : step am chatId s l = some s') : Covered chatId s' ∧
      (s.tables.stored chatId ⊆ s'.tables.stored chatId ↔ CommitKnows chatId s l) := by
  obtain ⟨⟨t,p,r⟩,hn,rfl⟩ := Option.map_eq_some_iff.mp h
  obtain ⟨hlater,hown,hiff⟩ := Process.step_shared am chatId hn (hc l.1)
  refine ⟨fun i m hm => ?_,hiff⟩
  by_cases hi : i = l.1
  · subst hi
    rw [set_self] at hm
    exact hown m hm
  · rw [set_ne _ hi] at hm
    exact (hc i m hm).later chatId hlater

/-- Along a run no stored change is ever lost exactly when every commit of a
compaction meets the condition. -/
theorem stored_never_shrinks_iff (t : Tables I C) {labels : List (Nat × ProcessLabel C M)}
    {s : Shared I C S} (h : run (step am chatId) (initial t) labels = some s) :
    (∀ pre mid post, labels = pre++mid++post → ∀ u v, run (step am chatId) (initial t) pre = some u →
      run (step am chatId) u mid = some v → u.tables.stored chatId ⊆ v.tables.stored chatId) ↔
    StepsMeet (step am chatId) (CommitKnows chatId) (initial t) labels := by
  have hcov : ∀ {u : Shared I C S} {ls : List (Nat × ProcessLabel C M)},
      run (step am chatId) (initial t) ls = some u → Covered chatId u := fun hr =>
    run_invariant (fun _ _ _ hc hs => (step_covered am chatId hc hs).1) hr (initial_covered chatId t)
  constructor
  · intro hall
    refine stepsMeet_iff_split.mpr (fun pre l post he u hu => ?_)
    rw [he,run_append,hu] at h
    obtain ⟨v,hv,-⟩ := run_cons h
    refine (step_covered am chatId (hcov hu) hv).2.mp (hall pre [l] post (by simp [he]) u v hu ?_)
    simp [run,hv]
  · intro hmeet pre mid post he u v hu hv
    rw [he,List.append_assoc] at hmeet
    have hmid := (stepsMeet_append hu hmeet).2
    have hmid' := (stepsMeet_append hv hmid).1
    refine (run_related (fun a b => a.tables.stored chatId ⊆ b.tables.stored chatId)
      (fun _ => Finset.Subset.refl _) (fun _ _ _ => Finset.Subset.trans) ?_ hv (hcov hu) hmid').2
    intro a l b ha hc hs
    obtain ⟨hb,hiff⟩ := step_covered am chatId ha hs
    exact ⟨hb,hiff.mpr hc⟩

/-- The memory of one task and the tables, while no other task acts. -/
def alone (x : Tables I C × Process I C S) (l : ProcessLabel C M) : Option (Tables I C × Process I C S) :=
  (x.2.step am chatId x.1 l).map (fun next => (next.1,next.2.1))

theorem run_alone {s : Shared I C S} {i : Nat} {t : Tables I C} {p q : Process I C S}
    {ls : List (ProcessLabel C M)} (hi : s.tasks i = q)
    (h : run (alone am chatId) (s.tables,q) ls = some (t,p)) :
    run (step am chatId) s (ls.map (Prod.mk i)) = some (s.set i t p) := by
  induction ls generalizing s q with
  | nil =>
    cases h
    simp [run,set,← hi]
  | cons l ls ih =>
    obtain ⟨⟨t₁,p₁⟩,ht,hr⟩ := run_cons h
    obtain ⟨⟨u,q₁,r⟩,hu,he⟩ := Option.map_eq_some_iff.mp ht
    obtain ⟨rfl,rfl⟩ := Prod.mk.inj he
    have hs : step am chatId s (i,l) = some (s.set i u q₁) := by simp [step,hi,hu]
    rw [List.map_cons,run,hs,Option.bind_some,ih (set_self _ _ _ _) hr]
    simp [set]

theorem stepsMeet_alone {s : Shared I C S} {i : Nat} {q : Process I C S} {ls : List (ProcessLabel C M)}
    (hi : s.tasks i = q)
    (h : StepsMeet (alone am chatId) (fun x l => x.2.CommitKnows chatId x.1 l) (s.tables,q) ls) :
    StepsMeet (step am chatId) (CommitKnows chatId) s (ls.map (Prod.mk i)) := by
  induction ls generalizing s q with
  | nil => trivial
  | cons l ls ih =>
    subst hi
    refine ⟨h.1,fun u hu => ?_⟩
    obtain ⟨⟨t,p,r⟩,hst,rfl⟩ := Option.map_eq_some_iff.mp hu
    refine ih (set_self s i t p) (h.2 (t,p) ?_)
    simp only [alone,hst,Option.map_some]

/-! A loader that stalls before its commit. The writer is task 0, the stalled loader
task 1 and a faster one task 2. -/

private def row (n : Nat) : LogRow Unit Nat := ⟨n+1,(),{n+1}⟩

/-- The tables after n messages without a compaction. -/
private def history (n : Nat) : Tables Unit Nat where
  chats _ := some {0}
  chatLog := (List.range n).map row
  sequence := n
  ordered := by
    rw [List.pairwise_map]
    exact List.pairwise_lt_range.imp (fun h => Nat.succ_lt_succ h)
  bounded r hr := by
    obtain ⟨k,hk,rfl⟩ := List.mem_map.mp hr
    exact List.mem_range.mp hk

private theorem history_insertLog (n : Nat) : (history n).insertLog () {n+1} = history (n+1) := by
  refine Tables.ext rfl ?_ rfl
  change (List.range n).map row++[row n] = (List.range (n+1)).map row
  simp [List.range_succ]

private theorem history_selectLog (n : Nat) : (history n).selectLog () = (List.range n).map row := by
  simp [Tables.selectLog,history]

private theorem maxLogId_rows (n : Nat) : maxLogId ((List.range n).map row) = n := by
  cases n with
  | zero => rfl
  | succ n => simp [maxLogId,List.range_succ,row]

private theorem loadedDoc_rows (n : Nat) : loadedDoc {0} ((List.range n).map row) = Finset.range (n+1) := by
  ext x
  rw [mem_loadedDoc]
  simp only [Finset.mem_singleton,List.mem_map,List.mem_range,exists_exists_and_eq_and,row,Finset.mem_range]
  constructor
  · rintro (rfl | ⟨k,hk,rfl⟩) <;> omega
  · intro hx
    cases x with
    | zero => exact Or.inl rfl
    | succ k => exact Or.inr ⟨k,by omega,rfl⟩

/-- The writer holds everything up to change n, and the rows keep it. -/
private structure Writing (n : Nat) (s : Shared Unit Nat Line.SyncState) : Prop where
  tables : s.tables = history n
  writer : ∃ repo, s.tasks 0 = ⟨some repo,.idle⟩ ∧ repo.doc = Finset.range (n+1) ∧ repo.lastSavedHeads = {n}

private def message : ChatMessage := ⟨"m","A",.text "hello",0,0⟩

private def send (n : Nat) : List (ProcessLabel Nat Line.SyncMessage) :=
  [.addMessage message (some (n+1)),.sql true 0]

private theorem run_send {n : Nat} {s : Shared Unit Nat Line.SyncState} (h : Writing n s) :
    ∃ s', run (step Line.automerge ()) s ((send n).map (Prod.mk 0)) = some s' ∧ Writing (n+1) s' ∧
      ∀ j ≠ 0, s'.tasks j = s.tasks j := by
  obtain ⟨ht,repo,hp,hd,hh⟩ := h
  have hdeps : Line.automerge.graph.deps (n+1) = Line.automerge.getHeads repo.doc := by
    rw [hd,Line.getHeads_range]
    rfl
  have hdoc : insert (n+1) repo.doc = Finset.range (n+2) := by rw [hd,← Finset.range_add_one]
  have hsaved : (repo.transact (n+1)).persistChat Line.automerge () true s.tables =
      (.ok (),history (n+1),⟨Finset.range (n+2),repo.syncState,{n+1},repo.syncStatus⟩) := by
    simp [ChatRepository.persistChat,ChatRepository.transact,hdoc,hh,ht,Line.saveAfter_range,
      Line.getHeads_range,history_insertLog]
  obtain ⟨hadd,hsql⟩ :=
    Process.addMessage_steps Line.automerge () s.tables repo message (n+1) 0 true hdeps rfl
  simp only [ChatRepository.addMessage,ChatRepository.persistAndGenerate,hsaved] at hsql
  let repo' := (ChatRepository.generateSyncMessage Line.automerge
    ⟨Finset.range (n+2),repo.syncState,{n+1},repo.syncStatus⟩).1
  have hrun : run (alone Line.automerge ()) (s.tables,⟨some repo,.idle⟩) (send n) =
      some (history (n+1),⟨some repo',.idle⟩) := by
    simp only [send,run,alone,hadd,hsql,Option.map_some,Option.bind_some,repo']
  exact ⟨_,run_alone Line.automerge () hp hrun,⟨rfl,repo',set_self _ _ _ _,rfl,rfl⟩,
    fun j hj => set_ne _ hj _ _⟩

private theorem run_sends {n : Nat} (m : Nat) {s : Shared Unit Nat Line.SyncState} (h : Writing n s) :
    ∃ s', run (step Line.automerge ()) s (((List.range m).flatMap (fun k => send (n+k))).map (Prod.mk 0)) =
        some s' ∧ Writing (n+m) s' ∧ ∀ j ≠ 0, s'.tasks j = s.tasks j := by
  induction m with
  | zero => exact ⟨s,rfl,h,fun _ _ => rfl⟩
  | succ m ih =>
    obtain ⟨u,hu,hw,hkeep⟩ := ih
    obtain ⟨v,hv,hw',hkeep'⟩ := run_send hw
    refine ⟨v,?_,hw',fun j hj => (hkeep' j hj).trans (hkeep j hj)⟩
    rw [List.range_succ,List.flatMap_append,List.map_append,run_append,hu]
    simpa using hv

/-- A loader opens the chat and reads snapshot and log. -/
private def read : List (ProcessLabel Nat Line.SyncMessage) := [.open,.sql true 0,.sql true 0]

private theorem run_read {n : Nat} (hn : chatLogsLimit < n) {s : Shared Unit Nat Line.SyncState} {i : Nat}
    (ht : s.tables = history n) (hi : s.tasks i = Process.new) :
    run (step Line.automerge ()) s (read.map (Prod.mk i)) = some (s.set i (history n)
      ⟨none,.opening (.compacting .begin {0} ((List.range n).map row))⟩) := by
  refine run_alone Line.automerge () hi ?_
  have hroot : Line.automerge.graph.deps 0 = ∅ := rfl
  have hdoc : (history n).selectDocument () = some {0} := rfl
  have hlong : chatLogsLimit < ((List.range n).map row).length := by simpa using hn
  simp only [read,run,alone,ht,Process.new,Process.step,hroot,loadStep,hdoc,if_true,history_selectLog,
    if_pos hlong,Process.resumeOpen,Process.resume,Option.map_some,Option.bind_some]

/-- The loader runs its compaction transaction. -/
private def commit : List (ProcessLabel Nat Line.SyncMessage) := List.replicate 4 (.sql true 0)

private theorem run_commit {b : Blob Nat} {rows : List (LogRow Unit Nat)}
    {s : Shared Unit Nat Line.SyncState} {i : Nat}
    (hi : s.tasks i = ⟨none,.opening (.compacting .begin b rows)⟩) :
    run (step Line.automerge ()) s (commit.map (Prod.mk i)) =
      some (s.set i (s.tables.compact () (loadedDoc b rows) (maxLogId rows))
        ⟨some (.new Line.automerge (loadedDoc b rows) (Line.automerge.getHeads (loadedDoc b rows))),.idle⟩) :=
  run_alone Line.automerge () hi rfl

private theorem read_meets {n : Nat} {s : Shared Unit Nat Line.SyncState} {i : Nat}
    (ht : s.tables = history n) (hi : s.tasks i = Process.new) :
    StepsMeet (step Line.automerge ()) (CommitKnows ()) s (read.map (Prod.mk i)) := by
  refine stepsMeet_alone Line.automerge () hi ?_
  rw [ht]
  iterate 2
    refine ⟨fun _ _ _ _ h => (by cases h),fun a ha => ?_⟩
    cases ha
  exact ⟨fun _ _ _ _ h => (by cases h),fun _ _ => trivial⟩

private theorem commit_meets {b : Blob Nat} {rows : List (LogRow Unit Nat)} {s : Shared Unit Nat Line.SyncState}
    {i : Nat} (hi : s.tasks i = ⟨none,.opening (.compacting .begin b rows)⟩) (hk : KnowsSnapshot () s.tables b rows) :
    StepsMeet (step Line.automerge ()) (CommitKnows ()) s (commit.map (Prod.mk i)) := by
  refine stepsMeet_alone Line.automerge () hi ?_
  iterate 3
    refine ⟨fun _ _ _ _ h => (by cases h),fun a ha => ?_⟩
    cases ha
  refine ⟨fun _ _ _ _ h => ?_,fun _ _ => trivial⟩
  cases h
  exact hk

/-- Two loaders read the same rows, and one commits after the other. -/
def racingLoaders : List (Nat × ProcessLabel Nat Line.SyncMessage) :=
  read.map (Prod.mk 1)++read.map (Prod.mk 2)++commit.map (Prod.mk 1)++commit.map (Prod.mk 2)

/-- The first loader finds the snapshot that it has read, the second one that of the first,
whose changes it has read in the rows. -/
private theorem racingLoaders_meets : ∃ s : Shared Unit Nat Line.SyncState,
    run (step Line.automerge ()) (initial (history 513)) racingLoaders = some s ∧ s.tables.selectLog () = [] ∧
    StepsMeet (step Line.automerge ()) (CommitKnows ()) (initial (history 513)) racingLoaders := by
  let start : Shared Unit Nat Line.SyncState := initial (history 513)
  obtain ⟨rows,hrows⟩ : ∃ rows, rows = (List.range 513).map row := ⟨_,rfl⟩
  have hread₁ := run_read (i := 1) (s := start) (by decide) rfl rfl
  rw [← hrows] at hread₁
  obtain ⟨a,ha,hat,ha₁,ha₂⟩ : ∃ a, run (step Line.automerge ()) start (read.map (Prod.mk 1)) = some a ∧
      a.tables = history 513 ∧ a.tasks 1 = ⟨none,.opening (.compacting .begin {0} rows)⟩ ∧
      a.tasks 2 = Process.new := ⟨_,hread₁,rfl,set_self _ _ _ _,set_ne _ (by decide) _ _⟩
  have hread₂ := run_read (by decide) hat ha₂
  rw [← hrows] at hread₂
  obtain ⟨b,hb,hbt,hb₁,hb₂⟩ : ∃ b, run (step Line.automerge ()) a (read.map (Prod.mk 2)) = some b ∧
      b.tables = history 513 ∧ b.tasks 1 = ⟨none,.opening (.compacting .begin {0} rows)⟩ ∧
      b.tasks 2 = ⟨none,.opening (.compacting .begin {0} rows)⟩ :=
    ⟨_,hread₂,rfl,(set_ne a (by decide) _ _).trans ha₁,set_self _ _ _ _⟩
  have hcommit₁ := run_commit hb₁
  obtain ⟨c,hc,hct,hc₂⟩ : ∃ c, run (step Line.automerge ()) b (commit.map (Prod.mk 1)) = some c ∧
      c.tables = (history 513).compact () (loadedDoc {0} rows) (maxLogId rows) ∧
      c.tasks 2 = ⟨none,.opening (.compacting .begin {0} rows)⟩ :=
    ⟨_,hcommit₁,by rw [← hbt]; rfl,(set_ne b (by decide) _ _).trans hb₂⟩
  obtain ⟨d,hd,hdt⟩ : ∃ d, run (step Line.automerge ()) c (commit.map (Prod.mk 2)) = some d ∧
      d.tables = c.tables.compact () (loadedDoc {0} rows) (maxLogId rows) := ⟨_,run_commit hc₂,rfl⟩
  have hknows₁ : KnowsSnapshot () b.tables {0} rows := by
    intro snapshot hs x hx
    rw [hbt] at hs
    cases hs
    exact Or.inl hx
  have hknows₂ : KnowsSnapshot () c.tables {0} rows := by
    intro snapshot hs x hx
    have hfirst : c.tables.chats () = some (loadedDoc {0} rows) := by
      rw [hct]
      simp [Tables.compact,Tables.updateDocument,Tables.deleteLog,history]
    cases hs.symm.trans hfirst
    exact (mem_loadedDoc.mp hx).imp_right Or.inl
  have hrunb : run (step Line.automerge ()) start (read.map (Prod.mk 1)++read.map (Prod.mk 2)) = some b := by
    rw [run_append,ha]
    exact hb
  have hrunc : run (step Line.automerge ()) start
      (read.map (Prod.mk 1)++read.map (Prod.mk 2)++commit.map (Prod.mk 1)) = some c := by
    rw [run_append,hrunb]
    exact hc
  refine ⟨d,?_,?_,?_⟩
  · rw [racingLoaders,run_append,hrunc]
    exact hd
  · rw [hdt,Tables.selectLog_compact,hct,Tables.selectLog_compact,history_selectLog,hrows,maxLogId_rows]
    have hnone : ((List.range 513).map row).filter (fun r => decide (513 < r.id)) = [] := by
      refine List.filter_eq_nil_iff.mpr (fun r hr => ?_)
      obtain ⟨n,hn,rfl⟩ := List.mem_map.mp hr
      have hlt := List.mem_range.mp hn
      exact fun hgt => Nat.not_lt.mpr hlt (of_decide_eq_true hgt)
    rw [hnone,List.filter_nil]
  · have hreads := (read_meets rfl rfl).append ha (read_meets hat ha₂)
    exact (hreads.append hrunb (commit_meets hb₁ hknows₁)).append hrunc (commit_meets hc₂ hknows₂)

theorem racing_loaders_never_shrink : ∃ s : Shared Unit Nat Line.SyncState,
    run (step Line.automerge ()) (initial (history 513)) racingLoaders = some s ∧ s.tables.selectLog () = [] ∧
    ∀ pre mid post, racingLoaders = pre++mid++post → ∀ u v : Shared Unit Nat Line.SyncState,
      run (step Line.automerge ()) (initial (history 513)) pre = some u →
      run (step Line.automerge ()) u mid = some v → u.tables.stored () ⊆ v.tables.stored () := by
  obtain ⟨s,hs,hempty,hmeets⟩ := racingLoaders_meets
  exact ⟨s,hs,hempty,(stored_never_shrinks_iff Line.automerge () (history 513) hs).mpr hmeets⟩

/-- Change 514 is stored, a second loader moves it into the snapshot, and the stalled
loader then writes the snapshot that it made before. -/
def stalledLoader : List (Nat × ProcessLabel Nat Line.SyncMessage) :=
  read.map (Prod.mk 0)++((List.range 513).flatMap (fun k => send (0+k))).map (Prod.mk 0)++
    read.map (Prod.mk 1)++(send 513).map (Prod.mk 0)

private theorem run_create : ∃ u, run (step Line.automerge ()) (initial Tables.empty)
    (read.map (Prod.mk 0)) = some u ∧ Writing 0 u ∧ ∀ j ≠ 0, u.tasks j = Process.new := by
  have hrun : run (alone Line.automerge ()) (Tables.empty,Process.new) read =
      some (history 0,⟨some (.new Line.automerge {0} (Line.automerge.getHeads {0})),.idle⟩) := by
    have ht : (Tables.empty.insertOrIgnoreChat () ({0} : Blob Nat)).1 = history 0 :=
      Tables.ext (funext fun _ => rfl) rfl rfl
    rw [← ht]
    rfl
  refine ⟨_,run_alone Line.automerge () rfl hrun,⟨rfl,_,set_self _ _ _ _,rfl,Line.getHeads_range 0⟩,
    fun j hj => set_ne _ hj _ _⟩

private theorem run_stalledLoader : ∃ u, run (step Line.automerge ()) (initial Tables.empty) stalledLoader =
    some u ∧ u.tables = history 514 ∧
    u.tasks 1 = ⟨none,.opening (.compacting .begin {0} ((List.range 513).map row))⟩ ∧
    u.tasks 2 = Process.new := by
  obtain ⟨a,ha,hw,hnew⟩ := run_create
  obtain ⟨b,hb,hwb,hkb⟩ := run_sends 513 hw
  rw [Nat.zero_add] at hwb
  have hb1 : b.tasks 1 = Process.new := (hkb 1 (by decide)).trans (hnew 1 (by decide))
  have hb2 : b.tasks 2 = Process.new := (hkb 2 (by decide)).trans (hnew 2 (by decide))
  have hc := run_read (by decide) hwb.tables hb1
  obtain ⟨repo,hp,hd,hh⟩ := hwb.writer
  obtain ⟨u,hu,hwu,hku⟩ := run_send (n := 513) (s := b.set 1 (history 513) _)
    ⟨rfl,repo,(set_ne b (by decide) _ _).trans hp,hd,hh⟩
  refine ⟨u,?_,hwu.tables,?_,?_⟩
  · rw [stalledLoader,run_append,run_append,run_append,ha,Option.bind_some,hb,Option.bind_some,hc,
      Option.bind_some]
    exact hu
  · exact (hku 1 (by decide)).trans (set_self _ _ _ _)
  · exact (hku 2 (by decide)).trans ((set_ne _ (by decide) _ _).trans hb2)

theorem compaction_loses_stored_change : ∃ u v : Shared Unit Nat Line.SyncState,
    run (step Line.automerge ()) (initial Tables.empty) stalledLoader = some u ∧
    run (step Line.automerge ()) u (read.map (Prod.mk 2)++commit.map (Prod.mk 2)++commit.map (Prod.mk 1)) =
      some v ∧ 514 ∈ u.tables.stored () ∧ 514 ∉ v.tables.stored () := by
  obtain ⟨u,hu,ht,h1,h2⟩ := run_stalledLoader
  have hread := run_read (by decide) ht h2
  obtain ⟨a,ha,hat,ha1,ha2⟩ : ∃ a, run (step Line.automerge ()) u (read.map (Prod.mk 2)) = some a ∧
      a.tables = history 514 ∧
      a.tasks 1 = ⟨none,.opening (.compacting .begin {0} ((List.range 513).map row))⟩ ∧
      a.tasks 2 = ⟨none,.opening (.compacting .begin {0} ((List.range 514).map row))⟩ :=
    ⟨_,hread,rfl,(set_ne u (by decide) _ _).trans h1,set_self u 2 _ _⟩
  have hcommit := run_commit ha2
  obtain ⟨b,hb,hbt,hb1⟩ : ∃ b, run (step Line.automerge ()) a (commit.map (Prod.mk 2)) = some b ∧
      b.tables = (history 514).compact () (Finset.range 515) 514 ∧
      b.tasks 1 = ⟨none,.opening (.compacting .begin {0} ((List.range 513).map row))⟩ := by
    refine ⟨_,hcommit,?_,(set_ne a (by decide) _ _).trans ha1⟩
    change a.tables.compact _ _ _ = _
    rw [hat,loadedDoc_rows,maxLogId_rows]
  have hstale := run_commit hb1
  have hrest : run (step Line.automerge ()) u
      (read.map (Prod.mk 2)++commit.map (Prod.mk 2)++commit.map (Prod.mk 1)) =
      run (step Line.automerge ()) b (commit.map (Prod.mk 1)) := by
    rw [run_append,run_append,ha,Option.bind_some,hb,Option.bind_some]
  refine ⟨u,_,hu,hrest.trans hstale,?_,?_⟩
  · rw [ht,Tables.mem_stored,history_selectLog]
    exact Or.inr ⟨row 513,List.mem_map_of_mem (by simp),by simp [row]⟩
  · change 514 ∉ (b.tables.compact () (loadedDoc {0} _) _).stored ()
    rw [Tables.mem_stored_compact,loadedDoc_rows,hbt,Tables.selectLog_compact,history_selectLog]
    rintro (⟨-,hdoc⟩ | ⟨r,hr,-,-⟩)
    · simp at hdoc
    · obtain ⟨hmem,hlt⟩ := List.mem_filter.mp hr
      obtain ⟨k,hk,rfl⟩ := List.mem_map.mp hmem
      have hk' := List.mem_range.mp hk
      have hid : 514 < k+1 := of_decide_eq_true hlt
      omega

end Shared
end GossipCore.Persistence
