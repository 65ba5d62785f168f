import GossipCore.Base.Runs
import GossipCore.Persistence.Loader

/-! Concurrent first opens of one chat. Any number of calls of get_persisted_doc_state run
their statements in any order, and calls that have returned append log rows in between. -/
namespace GossipCore.Persistence
open Base

/-- The statements left in the compaction transaction. -/
def TxStage.left : TxStage → Nat
  | .begin => 4
  | .update => 3
  | .delete => 2
  | .commit => 1

namespace LoadState
variable {I C : Type}

/-- How many statements a call still runs at most, by whether the chat has a row. -/
def left (present : Bool) : LoadState I C → Nat
  | .selectSnapshot => if present then 6 else 8
  | .insertSnapshot _ => 7
  | .selectLog _ => 5
  | .compacting stage _ _ => stage.left
  | .returned _ _ => 0
  | .failed => 0

/-- What the call has read or returned so far contains the change. -/
def Contains (c : C) : LoadState I C → Prop
  | .selectSnapshot => True
  | .insertSnapshot _ => True
  | .selectLog snapshot => c ∈ snapshot
  | .compacting _ snapshot _ => c ∈ snapshot
  | .returned doc _ => c ∈ doc
  | .failed => False

/-- The call has not found a row yet. -/
def Creating : LoadState I C → Prop
  | .selectSnapshot => True
  | .insertSnapshot _ => True
  | _ => False

/-- The call is at the top of its loop. -/
def startsPass : LoadState I C → Bool
  | .selectSnapshot => true
  | _ => false

end LoadState

section Statement
variable {I C S M O : Type} [DecidableEq I] [DecidableEq C] (am : Automerge C S M O)

/-- What one successful statement of a call can do. -/
inductive Statement (chatId : I) (initial : C) (t : Tables I C) :
    LoadState I C → Tables I C → LoadState I C → Prop where
  | found (document : Blob C) (h : t.chats chatId = some document) :
      Statement chatId initial t .selectSnapshot t (.selectLog document)
  | missing (h : t.chats chatId = none) :
      Statement chatId initial t .selectSnapshot t (.insertSnapshot {initial})
  | loaded (snapshot : Blob C) (rows : List (LogRow I C)) (heads : Finset C) :
      Statement chatId initial t (.selectLog snapshot) t (.returned (loadedDoc snapshot rows) heads)
  | compacts (snapshot : Blob C) (rows : List (LogRow I C)) :
      Statement chatId initial t (.selectLog snapshot) t (.compacting .begin snapshot rows)
  | advances (stage stage' : TxStage) (snapshot : Blob C) (rows : List (LogRow I C))
      (h : stage.left = stage'.left+1) :
      Statement chatId initial t (.compacting stage snapshot rows) t (.compacting stage' snapshot rows)
  | commits (snapshot : Blob C) (rows : List (LogRow I C)) (heads : Finset C) :
      Statement chatId initial t (.compacting .commit snapshot rows)
        (t.compact chatId (loadedDoc snapshot rows) (maxLogId rows)) (.returned (loadedDoc snapshot rows) heads)
  | creates (doc : Doc C) (heads : Finset C) (h : t.chats chatId = none) :
      Statement chatId initial t (.insertSnapshot doc) (t.insertOrIgnoreChat chatId doc).1 (.returned doc heads)
  | ignored (doc : Doc C) (document : Blob C) (h : t.chats chatId = some document) :
      Statement chatId initial t (.insertSnapshot doc) t .selectSnapshot
  | ended (l : LoadState I C) (h : l.left true = 0) : Statement chatId initial t l t l

theorem loadStep_statement (chatId : I) (initial : C) (t : Tables I C) (l : LoadState I C) :
    Statement chatId initial t l (loadStep am chatId true initial t l).1
      (loadStep am chatId true initial t l).2 := by
  cases l with
  | selectSnapshot =>
    simp only [loadStep,if_true,Tables.selectDocument]
    cases h : t.chats chatId with
    | none => exact .missing h
    | some document => exact .found document h
  | selectLog snapshot =>
    simp only [loadStep,if_true]
    split
    · exact .compacts snapshot _
    · exact .loaded snapshot _ _
  | compacting stage snapshot rows =>
    cases stage with
    | begin => exact .advances .begin .update snapshot rows rfl
    | update => exact .advances .update .delete snapshot rows rfl
    | delete => exact .advances .delete .commit snapshot rows rfl
    | commit => exact .commits snapshot rows _
  | insertSnapshot doc =>
    simp only [loadStep,if_true,Automerge.save]
    cases h : t.chats chatId with
    | none =>
      have hs : Statement chatId initial t _ _ _ := .creates doc (am.getHeads doc) h
      simpa [Tables.insertOrIgnoreChat,h] using hs
    | some document =>
      have hs : Statement chatId initial t _ _ _ := .ignored doc document h
      simpa [Tables.insertOrIgnoreChat,h] using hs
  | returned doc heads => exact .ended _ rfl
  | failed => exact .ended _ rfl

/-- It uses up one of the statements that are left. -/
theorem Statement.left_le {chatId : I} {c : C} {t t' : Tables I C} {l l' : LoadState I C}
    (h : Statement chatId c t l t' l') :
    l'.left (t'.chats chatId).isSome ≤ l.left (t.chats chatId).isSome-1 := by
  cases h with
  | found document hrow => simp [LoadState.left,hrow]
  | missing hrow => simp [LoadState.left,hrow]
  | loaded => simp [LoadState.left]
  | compacts => simp [LoadState.left,TxStage.left]
  | advances stage stage' _ _ hs => simp [LoadState.left,hs]
  | commits => simp [LoadState.left]
  | creates => simp [LoadState.left]
  | ignored doc document hrow => simp [LoadState.left,hrow]
  | ended _ hzero =>
    cases l with
    | returned doc heads => exact Nat.zero_le _
    | failed => exact Nat.zero_le _
    | compacting stage snapshot rows => cases stage <;> cases hzero
    | _ => cases hzero

theorem Statement.ne_failed {chatId : I} {c : C} {t t' : Tables I C} {l l' : LoadState I C}
    (h : Statement chatId c t l t' l') (hl : l ≠ .failed) : l' ≠ .failed := by
  cases h with
  | ended => exact hl
  | _ => simp

/-- A call all of whose statements work returns once it has run those that are left. -/
theorem getPersistedDocState_returns {chatId : I} (initial : C) {oks : List Bool} (hok : false ∉ oks) {t : Tables I C}
    {l : LoadState I C} (hl : l ≠ .failed) (hleft : l.left (t.chats chatId).isSome ≤ oks.length) :
    ∃ doc heads, (getPersistedDocState am chatId initial oks t l).2 = .returned doc heads := by
  induction oks generalizing t l with
  | nil =>
    cases l with
    | returned doc heads => exact ⟨doc,heads,rfl⟩
    | failed => exact absurd rfl hl
    | selectSnapshot => cases h : (t.chats chatId).isSome <;> simp [LoadState.left,h] at hleft
    | compacting stage snapshot rows => cases stage <;> simp [LoadState.left,TxStage.left] at hleft
    | _ => simp [LoadState.left] at hleft
  | cons ok oks ih =>
    obtain ⟨hhead,hrest⟩ := not_or.mp (mt List.mem_cons.mpr hok)
    obtain rfl : ok = true := by simpa using Ne.symm hhead
    have hst := loadStep_statement am chatId initial t l
    have hle := hst.left_le
    rw [List.length_cons] at hleft
    exact ih hrest (hst.ne_failed hl) (by omega)

end Statement

/-- The tables, the calls with the number of passes each has begun, and the inserts that
affected a row. -/
structure Openings (T I C : Type) where
  tables : Tables I C
  call : T → LoadState I C
  passes : T → Nat
  created : List (T × Doc C)

/-- A call runs its next statement, or a call that has returned appends a log row. -/
inductive OpeningLabel (T C : Type) where
  | sql (i : T)
  | append (i : T) (data : Blob C)
  deriving DecidableEq

namespace Openings
variable {T I C S M O : Type} [DecidableEq T] [DecidableEq I] [DecidableEq C]
variable (am : Automerge C S M O) (chatId : I) (initial : T → Nat → C)

def start (t : Tables I C) : Openings T I C := ⟨t,fun _ => .selectSnapshot,fun _ => 0,[]⟩

/-- The insert of the call, if it affects a row. -/
def creation (s : Openings T I C) (i : T) : List (T × Doc C) :=
  match s.call i with
  | .insertSnapshot doc => if (s.tables.insertOrIgnoreChat chatId (Automerge.save doc)).2 > 0 then [(i,doc)] else []
  | _ => []

/-- Each pass makes a new document, with an initial change of its own. -/
def step (s : Openings T I C) : OpeningLabel T C → Option (Openings T I C)
  | .sql i =>
    let next := loadStep am chatId true (initial i (s.passes i)) s.tables (s.call i)
    some ⟨next.1,Function.update s.call i next.2,
      Function.update s.passes i (s.passes i+(if (s.call i).startsPass then 1 else 0)),
      s.created++s.creation chatId i⟩
  | .append i data =>
    match s.call i with
    | .returned _ _ => some { s with tables := s.tables.insertLog chatId data }
    | _ => none

variable {am chatId initial}

/-- A second pass is begun only when the chat has its row, and what a call is about to
insert is the document of its first pass. -/
def PassesBounded (present : Prop) (initial : Nat → C) (n : Nat) : LoadState I C → Prop
  | .selectSnapshot => n = 0 ∨ (n = 1 ∧ present)
  | .insertSnapshot doc => n = 1 ∧ doc = {initial 0}
  | _ => n ≤ 2

/-- There is no row and nobody has found one, or there is the row of one winner and its
initial change is in the row and in everything that was read from it. -/
structure Agreed (chatId : I) (initial : T → Nat → C) (s : Openings T I C) : Prop where
  unmade : s.tables.chats chatId = none → s.created = [] ∧ ∀ i, (s.call i).Creating
  made : ∀ b, s.tables.chats chatId = some b → ∃ w, s.created = [(w,{initial w 0})] ∧ initial w 0 ∈ b ∧
    ∀ i, (s.call i).Contains (initial w 0)
  passes : ∀ i, PassesBounded (s.tables.chats chatId ≠ none) (initial i) (s.passes i) (s.call i)

omit [DecidableEq T] [DecidableEq I] [DecidableEq C] in
theorem start_agreed {t : Tables I C} (h : t.chats chatId = none) :
    Agreed chatId initial (start t : Openings T I C) where
  unmade _ := ⟨rfl,fun _ => trivial⟩
  made b hb := by cases h.symm.trans hb
  passes _ := Or.inl rfl

omit [DecidableEq T] [DecidableEq I] [DecidableEq C] in
private theorem PassesBounded.mono {p q : Prop} (hpq : p → q) {inits : Nat → C} {n : Nat} {l : LoadState I C}
    (h : PassesBounded p inits n l) : PassesBounded q inits n l := by
  cases l with
  | selectSnapshot => exact h.imp id (And.imp_right hpq)
  | _ => exact h

omit [DecidableEq I] [DecidableEq C] in
/-- A statement that does not touch the row of the chat. -/
private theorem Agreed.read {s : Openings T I C} (h : Agreed chatId initial s) {i : T} {l : LoadState I C} {n : Nat}
    (hcreating : s.tables.chats chatId = none → l.Creating)
    (hcontains : ∀ b c, s.tables.chats chatId = some b → c ∈ b → (s.call i).Contains c → l.Contains c)
    (hpasses : PassesBounded (s.tables.chats chatId ≠ none) (initial i) n l) :
    Agreed chatId initial ⟨s.tables,Function.update s.call i l,Function.update s.passes i n,s.created⟩ := by
  constructor
  · intro hn
    refine ⟨(h.unmade hn).1,fun j => ?_⟩
    by_cases hj : j = i
    · subst hj
      simpa using hcreating hn
    · simpa [Function.update_of_ne hj] using (h.unmade hn).2 j
  · intro b hb
    obtain ⟨w,hw,hin,hall⟩ := h.made b hb
    refine ⟨w,hw,hin,fun j => ?_⟩
    by_cases hj : j = i
    · subst hj
      simpa using hcontains b _ hb hin (hall j)
    · simpa [Function.update_of_ne hj] using hall j
  · intro j
    by_cases hj : j = i
    · subst hj
      simpa using hpasses
    · simpa [Function.update_of_ne hj] using h.passes j

omit [DecidableEq C] in
/-- The one insert that finds no row decides the winner. -/
private theorem Agreed.create {s : Openings T I C} (h : Agreed chatId initial s) {i : T} {doc : Doc C}
    (heads : Finset C) (hl : s.call i = .insertSnapshot doc) (hn : s.tables.chats chatId = none) :
    Agreed chatId initial ⟨(s.tables.insertOrIgnoreChat chatId doc).1,Function.update s.call i (.returned doc heads),
      Function.update s.passes i (s.passes i),s.created++[(i,doc)]⟩ := by
  obtain ⟨hempty,hcreating⟩ := h.unmade hn
  have hpass := h.passes i
  rw [hl] at hpass
  obtain ⟨hone,rfl⟩ := hpass
  have hrow : (s.tables.insertOrIgnoreChat chatId {initial i 0}).1.chats chatId = some {initial i 0} := by
    simp [Tables.insertOrIgnoreChat,hn]
  constructor
  · intro hn'
    cases hrow.symm.trans hn'
  · intro b hb
    cases hrow.symm.trans hb
    refine ⟨i,by simp [hempty],Finset.mem_singleton_self _,fun j => ?_⟩
    by_cases hj : j = i
    · subst hj
      simp [LoadState.Contains]
    · have hc := hcreating j
      simp only [Function.update_of_ne hj]
      cases hs : s.call j <;> simp [hs,LoadState.Creating,LoadState.Contains] at hc ⊢
  · intro j
    by_cases hj : j = i
    · subst hj
      simp [PassesBounded,hone]
    · simp only [Function.update_of_ne hj]
      exact (h.passes j).mono (fun _ => by rw [hrow]; simp)

/-- A compaction keeps the winner's change in the row, since its snapshot has it. -/
private theorem Agreed.commit {s : Openings T I C} (h : Agreed chatId initial s) {i : T} {snapshot : Blob C}
    {rows : List (LogRow I C)} (heads : Finset C) (hl : s.call i = .compacting .commit snapshot rows) :
    Agreed chatId initial ⟨s.tables.compact chatId (loadedDoc snapshot rows) (maxLogId rows),
      Function.update s.call i (.returned (loadedDoc snapshot rows) heads),
      Function.update s.passes i (s.passes i),s.created⟩ := by
  have hrow : (s.tables.compact chatId (loadedDoc snapshot rows) (maxLogId rows)).chats chatId =
      (s.tables.chats chatId).map (fun _ => loadedDoc snapshot rows) := Function.update_self _ _ _
  cases hb : s.tables.chats chatId with
  | none =>
    have hc := (h.unmade hb).2 i
    rw [hl] at hc
    exact hc.elim
  | some b =>
    rw [hb] at hrow
    obtain ⟨w,hw,-,hall⟩ := h.made b hb
    have hin : initial w 0 ∈ loadedDoc snapshot rows := by
      have hc := hall i
      rw [hl] at hc
      exact mem_loadedDoc.mpr (Or.inl hc)
    constructor
    · intro hn
      cases hrow.symm.trans hn
    · intro b' hb'
      cases hrow.symm.trans hb'
      refine ⟨w,hw,hin,fun j => ?_⟩
      by_cases hj : j = i
      · subst hj
        simp only [Function.update_self]
        exact hin
      · simpa [Function.update_of_ne hj] using hall j
    · intro j
      by_cases hj : j = i
      · subst hj
        have hp := h.passes j
        rw [hl] at hp
        simp only [Function.update_self]
        exact hp
      · simp only [Function.update_of_ne hj]
        exact (h.passes j).mono (fun _ => by rw [hrow]; simp)

omit [DecidableEq T] [DecidableEq C] in
private theorem creation_eq {s : Openings T I C} {i : T} {l : LoadState I C} (hl : s.call i = l)
    (h : ∀ doc, l = .insertSnapshot doc → s.tables.chats chatId ≠ none) : s.creation chatId i = [] := by
  unfold creation
  rw [hl]
  split
  · rename_i doc
    obtain ⟨b,hb⟩ := Option.ne_none_iff_exists'.mp (h doc rfl)
    simp [Tables.insertOrIgnoreChat,hb]
  · rfl

theorem step_agreed {s t : Openings T I C} {l : OpeningLabel T C} (h : Agreed chatId initial s)
    (hs : s.step am chatId initial l = some t) : Agreed chatId initial t := by
  cases l with
  | append i data =>
    simp only [step] at hs
    split at hs
    · cases hs
      exact ⟨h.unmade,h.made,h.passes⟩
    · cases hs
  | sql i =>
    cases hs
    have hst := loadStep_statement am chatId (initial i (s.passes i)) s.tables (s.call i)
    have hpass := h.passes i
    have hunmade : s.tables.chats chatId = none → (s.call i).Creating := fun hn => (h.unmade hn).2 i
    generalize hn : loadStep am chatId true (initial i (s.passes i)) s.tables (s.call i) = next at hst ⊢
    obtain ⟨tables,l'⟩ := next
    generalize hl : s.call i = l at hst hpass hunmade
    dsimp only at hst
    cases hst with
    | found document hrow =>
      rw [creation_eq hl (by simp),List.append_nil]
      refine h.read (fun hnone => ?_) (fun b c hb hc _ => ?_) ?_
      · cases hrow.symm.trans hnone
      · cases hrow.symm.trans hb
        exact hc
      · rcases hpass with hz | ⟨hz,-⟩ <;> simp [LoadState.startsPass,PassesBounded,hz]
    | missing hrow =>
      rw [creation_eq hl (by simp),List.append_nil]
      refine h.read (fun _ => trivial) (fun _ _ _ _ _ => trivial) ?_
      rcases hpass with hz | ⟨-,hne⟩
      · simp [LoadState.startsPass,PassesBounded,hz]
      · exact absurd hrow hne
    | loaded snapshot rows heads =>
      rw [creation_eq hl (by simp),List.append_nil]
      refine h.read (fun hnone => (hunmade hnone).elim) (fun b c _ _ hc => ?_) hpass
      rw [hl] at hc
      exact mem_loadedDoc.mpr (Or.inl hc)
    | compacts snapshot rows =>
      rw [creation_eq hl (by simp),List.append_nil]
      refine h.read (fun hnone => (hunmade hnone).elim) (fun b c _ _ hc => ?_) hpass
      rw [hl] at hc
      exact hc
    | advances stage stage' snapshot rows =>
      rw [creation_eq hl (by simp),List.append_nil]
      refine h.read (fun hnone => (hunmade hnone).elim) (fun b c _ _ hc => ?_) hpass
      rw [hl] at hc
      exact hc
    | commits snapshot rows heads =>
      rw [creation_eq hl (by simp),List.append_nil]
      exact h.commit heads hl
    | creates doc heads hrow =>
      have hcreation : s.creation chatId i = [(i,doc)] := by
        simp [creation,hl,Tables.insertOrIgnoreChat,hrow,Automerge.save]
      rw [hcreation]
      exact h.create heads hl hrow
    | ignored doc document hrow =>
      have hne : s.tables.chats chatId ≠ none := by simp [hrow]
      rw [creation_eq hl (fun _ _ => hne),List.append_nil]
      exact h.read (fun hnone => absurd hnone hne) (fun _ _ _ _ _ => trivial) (Or.inr ⟨hpass.1,hne⟩)
    | ended _ hzero =>
      have hcase : ∀ doc, l' ≠ .insertSnapshot doc := by
        rintro doc rfl
        cases hzero
      rw [creation_eq hl (fun doc hd => absurd hd (hcase doc)),List.append_nil]
      refine h.read hunmade (fun _ _ _ _ hc => hl ▸ hc) ?_
      cases l' with
      | selectSnapshot => cases hzero
      | _ => exact hpass

/-- The statements that call i still runs at most. -/
def leftFor (chatId : I) (s : Openings T I C) (i : T) : Nat := (s.call i).left (s.tables.chats chatId).isSome

omit [DecidableEq C] [DecidableEq I] in
private theorem left_le {present present' : Bool} (h : present = true → present' = true) (l : LoadState I C) :
    l.left present' ≤ l.left present := by
  cases l with
  | selectSnapshot => cases present <;> cases present' <;> simp_all [LoadState.left]
  | _ => exact Nat.le_refl _

private theorem isSome_of_statement {c : C} {t t' : Tables I C} {l l' : LoadState I C}
    (h : Statement chatId c t l t' l') (hp : (t.chats chatId).isSome = true) : (t'.chats chatId).isSome = true := by
  cases h with
  | commits snapshot rows => simpa [Tables.compact,Tables.deleteLog,Tables.updateDocument] using hp
  | creates doc heads hn => simp [hn] at hp
  | _ => exact hp

/-- A statement of the call itself uses up one of those left; nothing else adds any. -/
private theorem leftFor_step {s t : Openings T I C} {l : OpeningLabel T C}
    (hs : s.step am chatId initial l = some t) (i : T) :
    leftFor chatId t i ≤ leftFor chatId s i-(if l = .sql i then 1 else 0) := by
  cases l with
  | append j data =>
    simp only [step] at hs
    split at hs
    · cases hs
      exact Nat.le_refl _
    · cases hs
  | sql j =>
    cases hs
    have hst := loadStep_statement am chatId (initial j (s.passes j)) s.tables (s.call j)
    by_cases hj : i = j
    · subst hj
      simpa [leftFor] using hst.left_le
    · simp only [leftFor,Function.update_of_ne hj,OpeningLabel.sql.injEq,Ne.symm hj,if_false,Nat.sub_zero]
      exact left_le (isSome_of_statement hst) _

private theorem leftFor_run {s t : Openings T I C} {labels : List (OpeningLabel T C)}
    (h : run (step am chatId initial) s labels = some t) (i : T) :
    leftFor chatId t i ≤ leftFor chatId s i-labels.count (.sql i) := by
  induction labels generalizing s with
  | nil =>
    cases h
    exact Nat.le_refl _
  | cons l labels ih =>
    obtain ⟨u,hu,hr⟩ := run_cons h
    have hstep := leftFor_step hu i
    have hrest := ih hr
    rw [List.count_cons]
    simp only [beq_iff_eq]
    omega

/-- However the statements of any number of first opens interleave, at most one insert
takes effect; a call that has run eight statements has returned, after at most two passes,
with the winner's initial change in its document. -/
theorem creation_race {tables : Tables I C} (hnew : tables.chats chatId = none)
    {labels : List (OpeningLabel T C)} {s : Openings T I C}
    (h : run (step am chatId initial) (start tables) labels = some s) :
    s.created.length ≤ 1 ∧ ((s.tables.chats chatId).isSome ↔ s.created.length = 1) ∧
    (∀ i, s.passes i ≤ 2) ∧ (∀ i, (s.step am chatId initial (.sql i)).isSome) ∧
    (∀ i, 8 ≤ labels.count (.sql i) → ∃ doc heads, s.call i = .returned doc heads) ∧
    ∀ i doc heads, s.call i = .returned doc heads → ∃ w, s.created = [(w,{initial w 0})] ∧
      initial w 0 ∈ doc ∧ ∀ n, initial i n ≠ initial w 0 → doc ≠ {initial i n} := by
  have hinv : Agreed chatId initial s := run_invariant (fun _ _ _ => step_agreed) h (start_agreed hnew)
  have hmade : (s.tables.chats chatId = none ∧ s.created = [] ∧ ∀ i, (s.call i).Creating) ∨
      ∃ b w, s.tables.chats chatId = some b ∧ s.created = [(w,{initial w 0})] ∧
        ∀ i, (s.call i).Contains (initial w 0) := by
    cases hrow : s.tables.chats chatId with
    | none => exact Or.inl ⟨rfl,hinv.unmade hrow⟩
    | some b =>
      obtain ⟨w,hw,-,hall⟩ := hinv.made b hrow
      exact Or.inr ⟨b,w,rfl,hw,hall⟩
  refine ⟨?_,?_,?_,fun _ => rfl,?_,?_⟩
  · rcases hmade with ⟨-,hc,-⟩ | ⟨b,w,-,hc,-⟩ <;> simp [hc]
  · rcases hmade with ⟨hr,hc,-⟩ | ⟨b,w,hr,hc,-⟩ <;> simp [hr,hc]
  · intro i
    have hp := hinv.passes i
    cases hl : s.call i <;> simp only [hl,PassesBounded] at hp <;> omega
  · intro i hi
    have hzero : leftFor chatId s i = 0 := by
      have hrun := leftFor_run h i
      have hstart : leftFor chatId (start tables : Openings T I C) i = 8 := by
        simp [leftFor,start,LoadState.left,hnew]
      omega
    cases hl : s.call i with
    | returned doc heads => exact ⟨doc,heads,rfl⟩
    | failed =>
      rcases hmade with ⟨-,-,hc⟩ | ⟨b,w,-,-,hc⟩
      · exact (hl ▸ hc i : LoadState.Creating LoadState.failed).elim
      · exact (hl ▸ hc i : LoadState.Contains _ LoadState.failed).elim
    | selectSnapshot =>
      simp only [leftFor,hl,LoadState.left] at hzero
      split at hzero <;> cases hzero
    | compacting stage snapshot rows =>
      simp only [leftFor,hl,LoadState.left] at hzero
      cases stage <;> cases hzero
    | _ =>
      simp only [leftFor,hl,LoadState.left] at hzero
      cases hzero
  · intro i doc heads hl
    rcases hmade with ⟨-,-,hc⟩ | ⟨b,w,-,hw,hc⟩
    · have hi := hc i
      rw [hl] at hi
      exact hi.elim
    · have hi := hc i
      rw [hl] at hi
      refine ⟨w,hw,hi,?_⟩
      rintro n hne rfl
      exact hne (Finset.mem_singleton.mp hi).symm

/-- Two calls both see no row and both insert; the first one to return appends a log row
before the other reads. -/
def twoOpens : List (OpeningLabel Nat Nat) :=
  [.sql 0,.sql 1,.sql 1,.append 1 {12},.sql 0,.sql 0,.sql 0,.sql 0,.sql 0,.sql 0,.sql 0]

theorem creation_race_two : ∃ s : Openings Nat Unit Nat,
    run (step Line.automerge () (fun i n => 10*i+n)) (start Tables.empty) twoOpens = some s ∧
    s.created.length = 1 ∧ s.passes 0 = 2 ∧ ∃ doc heads, s.call 0 = .returned doc heads ∧ 10 ∈ doc ∧ doc ≠ {0} := by
  obtain ⟨s,hs,hcreated,hpasses⟩ : ∃ s : Openings Nat Unit Nat,
      run (step Line.automerge () (fun i n => 10*i+n)) (start Tables.empty) twoOpens = some s ∧
      s.created = [(1,{10})] ∧ s.passes 0 = 2 := ⟨_,rfl,rfl,rfl⟩
  obtain ⟨-,-,-,-,hreturns,hagree⟩ := creation_race (by rfl) hs
  obtain ⟨doc,heads,hl⟩ := hreturns 0 (by decide)
  obtain ⟨w,hw,hin,hne⟩ := hagree 0 doc heads hl
  rw [hcreated] at hw
  cases hw
  exact ⟨s,hs,by rw [hcreated]; rfl,hpasses,doc,heads,hl,hin,hne 0 (by decide)⟩

end Openings
end GossipCore.Persistence
