import GossipCore.Persistence.Growth

/-! Two peers with one chat, each with its own database, exchanging batches of changes.
Every message list has a single creator among the changes that survive. -/
namespace GossipCore.Persistence
open Base

variable {I C S M : Type} [DecidableEq I] [DecidableEq C]

inductive Side where
  | left
  | right
  deriving DecidableEq, Repr

namespace Side

def other : Side → Side
  | .left => .right
  | .right => .left

theorem eq_or_other (i j : Side) : j = i ∨ j = i.other := by
  cases i <;> cases j <;> simp [other]

theorem other_ne (i : Side) : i.other ≠ i := by cases i <;> simp [other]

theorem other_other (i : Side) : i.other.other = i := by cases i <;> rfl

end Side

/-- Both peers with their databases, the batches that each has sent, and two records:
every message change ever made, and every change ever stored. -/
structure PairState (I C S M : Type) where
  peer : Side → OwnerState I C S
  sent : Side → List M
  made : Finset C
  everStored : Finset C

inductive PairLabel (C M : Type) where
  | open (side : Side)
  | addMessage (side : Side) (msg : ChatMessage) (c : C)
  | sql (side : Side) (initial : C)
  | crash (side : Side)
  | send (side : Side) (batch : M)
  | deliver (side : Side) (k : Nat)

namespace PairState
variable (cd : ChatDocs C S M) (chatId : I) (ids : Side → String)

def initial (t : Side → Tables I C) : PairState I C S M :=
  ⟨fun i => OwnerState.initial (t i),fun _ => [],∅,∅⟩

/-- One peer takes a step. A document that does not fit into memory cannot be made. -/
def ownerStep (s : PairState I C S M) (i : Side) (l : ProcessLabel C M) : Option (PairState I C S M) :=
  ((s.peer i).step cd.toAutomerge chatId l).bind (fun p =>
    if p.process.doc.card ≤ usizeMax-1 then
      some { s with
        peer := Function.update s.peer i p
        everStored := s.everStored ∪ p.tables.stored chatId }
    else none)

/-- No statement fails. A batch is sent between two calls of the sender, from what its
document then holds, and a sent batch can be delivered at any later time. -/
def step (s : PairState I C S M) : PairLabel C M → Option (PairState I C S M)
  | .open i => s.ownerStep cd chatId i .open
  | .addMessage i msg c =>
    if cd.content c = cd.appendContent (s.peer i).process.doc (ids i) msg then
      (s.ownerStep cd chatId i (.addMessage msg (some c))).map (fun t => { t with made := insert c t.made })
    else none
  | .sql i initial => if cd.content initial = .chatInit then s.ownerStep cd chatId i (.sql true initial) else none
  | .crash i => s.ownerStep cd chatId i .crash
  | .send i batch =>
    match (s.peer i).process.activity with
    | .idle =>
      if cd.carried batch ⊆ (s.peer i).process.doc ∧ cd.graph.Closed (cd.carried batch) then
        some { s with sent := Function.update s.sent i (s.sent i++[batch]) }
      else none
    | _ => none
  | .deliver i k =>
    match (s.sent i.other)[k]? with
    | some batch => s.ownerStep cd chatId i (.receiveSyncMessage (some batch))
    | none => none

/-- The message list of a peer. -/
def key (i : Side) : String := Schema.peerListKey (ids i)

/-- The change appends to the list of peer i. -/
def By (i : Side) (c : C) : Prop := ∃ list msg, cd.content c = .message (key ids i) list msg

def changes (s : PairState I C S M) (i : Side) : Finset C :=
  (s.peer i).process.changes chatId (s.peer i).tables

/-- The changes that this program makes: the initial one, or an append to the list of
one of the peers, which its own past has created if it does not create it itself. -/
def WellMade (c : C) : Prop :=
  cd.content c = .chatInit ∨ ∃ i list msg, cd.content c = .message (key ids i) list msg ∧
    ∀ l, list = some l → l ∈ cd.graph.ancestors c ∧ (cd.content l).Creates (key ids i)

structure Invariant (s : PairState I C S M) : Prop where
  owned : ∀ i, (s.peer i).Owned cd.toAutomerge chatId
  saved : ∀ i, (s.peer i).process.Saved chatId (s.peer i).tables
  fits : ∀ i, (s.peer i).process.doc.card ≤ usizeMax-1
  ever : ∀ c ∈ s.everStored, ∃ i, c ∈ (s.peer i).tables.stored chatId
  sent : ∀ i, ∀ m ∈ s.sent i, cd.graph.Closed (cd.carried m) ∧
    cd.carried m ⊆ (s.peer i).tables.stored chatId
  wellMade : ∀ i, ∀ c ∈ s.changes chatId i, WellMade cd ids c
  /-- Whatever one peer has of the other's messages, the other one has stored. -/
  home : ∀ i, ∀ c ∈ s.changes chatId i.other, By cd ids i c → c ∈ (s.peer i).tables.stored chatId
  single : ∀ i, ∀ c ∈ s.changes chatId i, ∀ c' ∈ s.changes chatId i,
    (cd.content c).Creates (key ids i) → (cd.content c').Creates (key ids i) → c = c'

private theorem key_other {ids : Side → String} (hids : ids .left ≠ ids .right) (i : Side) :
    key ids i ≠ key ids i.other := by
  have hinj : ∀ a b : String, Schema.peerListKey a = Schema.peerListKey b → a = b := by
    intro a b h
    simpa [Schema.peerListKey] using h
  cases i with
  | left => exact fun h => hids (hinj _ _ h)
  | right => exact fun h => hids (hinj _ _ h).symm

/-- The changes that peer i may gain in a step. -/
structure Admits (s : PairState I C S M) (i : Side) (new : Finset C) : Prop where
  wellMade : ∀ c ∈ new, WellMade cd ids c
  home : ∀ c ∈ new, By cd ids i.other c → c ∈ (s.peer i.other).tables.stored chatId
  single : ∀ c ∈ new, (cd.content c).Creates (key ids i) → c ∈ s.changes chatId i ∨
    (new = {c} ∧ ∀ c' ∈ s.changes chatId i, ¬ (cd.content c').Creates (key ids i))

private theorem admits_empty (s : PairState I C S M) (i : Side) : Admits cd chatId ids s i ∅ :=
  ⟨fun _ h => (by cases h),fun _ h => (by cases h),fun _ h => (by cases h)⟩

/-- No message is gained with an initial change. -/
private theorem admits_chatInit (s : PairState I C S M) (i : Side) {c : C} (hc : cd.content c = .chatInit) :
    Admits cd chatId ids s i {c} where
  wellMade x hx := by
    rw [Finset.mem_singleton.mp hx]
    exact Or.inl hc
  home x hx := by
    rw [Finset.mem_singleton.mp hx]
    rintro ⟨list,msg,h⟩
    cases hc.symm.trans h
  single x hx := by
    rw [Finset.mem_singleton.mp hx]
    rintro ⟨msg,h⟩
    cases hc.symm.trans h

/-- The append of a peer goes to the list that its document has, or creates the first. -/
private theorem Invariant.admits_append (hids : ids .left ≠ ids .right) {s : PairState I C S M}
    (h : Invariant cd chatId ids s) {i : Side} {repo : ChatRepository C S} {c : C} {msg : ChatMessage}
    (hr : (s.peer i).process.repo = some repo) (ha : (s.peer i).process.activity = .idle)
    (hc : cd.graph.deps c = cd.getHeads repo.doc)
    (hx : cd.content c = cd.appendContent repo.doc (ids i) msg) : Admits cd chatId ids s i {c} where
  wellMade x hmem := by
    rw [Finset.mem_singleton.mp hmem]
    refine Or.inr ⟨i,_,msg,hx,fun l hl => ?_⟩
    obtain ⟨hld,hcreates⟩ := cd.getRoot_some _ _ l (ChatDocs.stripListPrefix_peerListKey (ids i)) hl
    have hclosed := ((h.owned i).repo repo hr).closed
    obtain ⟨head,hhead,hanc⟩ := cd.graph.exists_head_above hld
    rw [← cd.getHeads_of_closed hclosed,← hc] at hhead
    exact ⟨cd.graph.mem_ancestors.mpr (Or.inr ⟨head,hhead,hanc⟩),hcreates⟩
  home x hmem := by
    rw [Finset.mem_singleton.mp hmem]
    rintro ⟨list,msg',h'⟩
    exact absurd (Content.message.inj (hx.symm.trans h')).1 (key_other hids i)
  single x hmem := by
    rw [Finset.mem_singleton.mp hmem]
    rintro ⟨msg',h'⟩
    refine Or.inr ⟨rfl,fun c' hc' => ?_⟩
    have hnone : Schema.getPeerList cd.toAutomerge repo.doc (ids i) = none :=
      (Content.message.inj (hx.symm.trans h')).2.1
    refine cd.getRoot_none _ _ (ChatDocs.stripListPrefix_peerListKey (ids i)) hnone c' ?_
    have hdoc := h.saved i (fun call hcall => by cases ha.symm.trans hcall) repo hr
    have hall : s.changes chatId i = repo.doc := by
      simp [PairState.changes,Process.changes,Process.doc,Process.draft,hr,ha,Activity.load?,hdoc]
    exact hall ▸ hc'

/-- What comes from the other peer is stored there. -/
private theorem Invariant.admits_carried {s : PairState I C S M} (h : Invariant cd chatId ids s) {i : Side}
    {batch : Finset C} (hb : batch ⊆ (s.peer i.other).tables.stored chatId) :
    Admits cd chatId ids s i batch where
  wellMade c hc := h.wellMade i.other c (Process.stored_subset_changes chatId _ _ (hb hc))
  home c hc _ := hb hc
  single c hc := by
    rintro ⟨msg,hx⟩
    have hhome := h.home i c (Process.stored_subset_changes chatId _ _ (hb hc)) ⟨none,msg,hx⟩
    exact Or.inl (Process.stored_subset_changes chatId _ _ hhome)

private theorem Invariant.single_admits {s : PairState I C S M} (h : Invariant cd chatId ids s) {i : Side}
    {new : Finset C} (hn : Admits cd chatId ids s i new) :
    ∀ c ∈ s.changes chatId i ∪ new, ∀ c' ∈ s.changes chatId i ∪ new,
      (cd.content c).Creates (key ids i) → (cd.content c').Creates (key ids i) → c = c' := by
  have hsplit : ∀ c ∈ s.changes chatId i ∪ new, (cd.content c).Creates (key ids i) → c ∈ s.changes chatId i ∨
      (new = {c} ∧ ∀ c' ∈ s.changes chatId i, ¬ (cd.content c').Creates (key ids i)) := by
    intro c hc hx
    rcases Finset.mem_union.mp hc with hc | hc
    · exact Or.inl hc
    · exact hn.single c hc hx
  intro c hc c' hc' hx hx'
  rcases hsplit c hc hx with hold | ⟨hnew,hno⟩ <;> rcases hsplit c' hc' hx' with hold' | ⟨hnew',hno'⟩
  · exact h.single i c hold c' hold' hx hx'
  · exact absurd hx (hno' c hold)
  · exact absurd hx' (hno c' hold')
  · exact Finset.singleton_injective (hnew.symm.trans hnew')

private theorem processStep_of_step {am : Automerge C S M C} {s p : OwnerState I C S} {l : ProcessLabel C M}
    (h : s.step am chatId l = some p) :
    ∃ r, s.process.step am chatId s.tables l = some (p.tables,p.process,r) := by
  obtain ⟨⟨t,q,r⟩,hstep,rfl⟩ := Option.map_eq_some_iff.mp h
  exact ⟨r,hstep⟩

/-- A step of one peer that gains admitted changes. -/
private theorem Invariant.ownerStep {s s' : PairState I C S M} (h : Invariant cd chatId ids s) {i : Side}
    {l : ProcessLabel C M} (hok : Process.Succeeds cd l) (hn : Admits cd chatId ids s i (Process.gain cd l))
    (hs : s.ownerStep cd chatId i l = some s') : Invariant cd chatId ids s' := by
  obtain ⟨p,hp,hs⟩ := Option.bind_eq_some_iff.mp hs
  split at hs <;> cases hs
  rename_i hfits
  have howned := OwnerState.step_owned cd.toAutomerge chatId (h.owned i) hp
  obtain ⟨r,hstep⟩ := processStep_of_step chatId hp
  have hg := Process.step_grows cd chatId (h.owned i).tables (h.owned i).repo (h.owned i).load (h.saved i) hok hstep
  have hsame : Function.update s.peer i p i = p := Function.update_self i p s.peer
  have hother : Function.update s.peer i p i.other = s.peer i.other := Function.update_of_ne i.other_ne p s.peer
  have hgrow : ∀ j, (s.peer j).tables.stored chatId ⊆ (Function.update s.peer i p j).tables.stored chatId := by
    intro j
    rcases i.eq_or_other j with rfl | rfl
    · rw [hsame]
      exact hg.stored
    · rw [hother]
  have hgain : ∀ c ∈ p.process.changes chatId p.tables, c ∈ s.changes chatId i ∪ Process.gain cd l :=
    fun c hc => hg.bound hc
  constructor
  case owned =>
    refine (Function.forall_update_iff s.peer (fun _ q => q.Owned cd.toAutomerge chatId)).mpr ⟨howned,?_⟩
    exact fun j _ => h.owned j
  case saved =>
    refine (Function.forall_update_iff s.peer (fun _ q => q.process.Saved chatId q.tables)).mpr ⟨hg.saved,?_⟩
    exact fun j _ => h.saved j
  case fits =>
    refine (Function.forall_update_iff s.peer (fun _ q => q.process.doc.card ≤ usizeMax-1)).mpr ⟨hfits,?_⟩
    exact fun j _ => h.fits j
  case ever =>
    intro c hc
    rcases Finset.mem_union.mp hc with hc | hc
    · obtain ⟨j,hj⟩ := h.ever c hc
      exact ⟨j,hgrow j hj⟩
    · refine ⟨i,?_⟩
      simpa only [hsame] using hc
  case sent =>
    intro j m hm
    exact ⟨(h.sent j m hm).1,(h.sent j m hm).2.trans (hgrow j)⟩
  case wellMade =>
    intro j c hc
    rcases i.eq_or_other j with rfl | rfl
    · simp only [changes,hsame] at hc
      rcases Finset.mem_union.mp (hgain c hc) with hc | hc
      · exact h.wellMade _ c hc
      · exact hn.wellMade c hc
    · simp only [changes,hother] at hc
      exact h.wellMade _ c hc
  case home =>
    intro j c hc hby
    rcases i.eq_or_other j with rfl | rfl
    · simp only [changes,hother] at hc
      exact hgrow _ (h.home _ c hc hby)
    · simp only [changes,Side.other_other,hsame] at hc
      refine hgrow _ ?_
      rcases Finset.mem_union.mp (hgain c hc) with hc | hc
      · exact h.home _ c (i.other_other.symm ▸ hc) hby
      · exact hn.home c hc hby
  case single =>
    intro j c hc c' hc'
    rcases i.eq_or_other j with rfl | rfl
    · simp only [changes,hsame] at hc hc'
      exact h.single_admits cd chatId ids hn c (hgain c hc) c' (hgain c' hc')
    · simp only [changes,hother] at hc hc'
      exact h.single _ c hc c' hc'

/-- A new message is appended between two calls, after everything in the document. -/
private theorem step_addMessage {t : Tables I C} {p : Process I C S} {msg : ChatMessage} {c : C}
    {next : Tables I C × Process I C S × Option (Returned C)}
    (h : p.step cd.toAutomerge chatId t (.addMessage msg (some c)) = some next) :
    ∃ repo, p.repo = some repo ∧ p.activity = .idle ∧ cd.graph.deps c = cd.getHeads repo.doc := by
  simp only [Process.step] at h
  split at h
  · rename_i repo c' hr ha hsome
    cases hsome
    split at h <;> cases h
    rename_i hc
    exact ⟨repo,hr,ha,hc⟩
  · rename_i hnone
    cases hnone
  · cases h

theorem step_invariant (hids : ids .left ≠ ids .right) {s s' : PairState I C S M} {l : PairLabel C M}
    (h : Invariant cd chatId ids s) (hs : s.step cd chatId ids l = some s') : Invariant cd chatId ids s' := by
  cases l with
  | «open» i => exact h.ownerStep cd chatId ids (l := .open) trivial (admits_empty cd chatId ids s i) hs
  | crash i => exact h.ownerStep cd chatId ids (l := .crash) trivial (admits_empty cd chatId ids s i) hs
  | sql i initial =>
    simp only [step] at hs
    split at hs
    · rename_i hi
      exact h.ownerStep cd chatId ids (l := .sql true initial) rfl (admits_chatInit cd chatId ids s i hi) hs
    · cases hs
  | addMessage i msg c =>
    simp only [step] at hs
    split at hs
    · rename_i hx
      obtain ⟨s₁,hs₁,rfl⟩ := Option.map_eq_some_iff.mp hs
      obtain ⟨p,hp,-⟩ := Option.bind_eq_some_iff.mp hs₁
      obtain ⟨r,hstep⟩ := processStep_of_step chatId hp
      obtain ⟨repo,hr,ha,hc⟩ := step_addMessage cd chatId hstep
      have hdoc : (s.peer i).process.doc = repo.doc := by simp only [Process.doc,hr]
      have hinv := h.ownerStep cd chatId ids (l := .addMessage msg (some c)) trivial
        (h.admits_append cd chatId ids hids hr ha hc (hdoc ▸ hx)) hs₁
      exact ⟨hinv.owned,hinv.saved,hinv.fits,hinv.ever,hinv.sent,hinv.wellMade,hinv.home,hinv.single⟩
    · cases hs
  | send i batch =>
    simp only [step] at hs
    split at hs
    · rename_i ha
      split at hs <;> cases hs
      rename_i hb
      have hstored : cd.carried batch ⊆ (s.peer i).tables.stored chatId := by
        cases hr : (s.peer i).process.repo with
        | none =>
          have hdoc : (s.peer i).process.doc = ∅ := by simp only [Process.doc,hr]
          exact (hdoc ▸ hb.1).trans (Finset.empty_subset _)
        | some repo =>
          have hdoc : (s.peer i).process.doc = repo.doc := by simp only [Process.doc,hr]
          rw [← h.saved i (fun call hcall => by cases ha.symm.trans hcall) repo hr]
          exact hdoc ▸ hb.1
      refine ⟨h.owned,h.saved,h.fits,h.ever,?_,h.wellMade,h.home,h.single⟩
      intro j m hm
      by_cases hj : j = i
      · cases hj
        simp only [Function.update_self] at hm
        rcases List.mem_append.mp hm with hm | hm
        · exact h.sent _ m hm
        · rw [List.mem_singleton.mp hm]
          exact ⟨hb.2,hstored⟩
      · simp only [Function.update_of_ne hj] at hm
        exact h.sent j m hm
    · cases hs
  | deliver i k =>
    simp only [step] at hs
    split at hs
    · rename_i batch hk
      obtain ⟨hclosed,hstored⟩ := h.sent i.other batch (List.mem_of_getElem? hk)
      exact h.ownerStep cd chatId ids (l := .receiveSyncMessage (some batch)) hclosed
        (h.admits_carried cd chatId ids hstored) hs
    · cases hs

theorem initial_invariant {t : Side → Tables I C} (hn : ∀ i, (t i).chats chatId = none)
    (hl : ∀ i, (t i).selectLog chatId = []) : Invariant cd chatId ids (initial t : PairState I C S M) := by
  have hempty : ∀ i, (initial t : PairState I C S M).changes chatId i = ∅ := by
    intro i
    have hstored : (t i).stored chatId = ∅ := by simp [Tables.stored,hn i,hl i]
    simp [changes,initial,OwnerState.initial,Process.changes,Process.new,Process.doc,Process.draft,
      Activity.load?,hstored]
  have hnone : ∀ i c, c ∉ (initial t : PairState I C S M).changes chatId i := by
    intro i c
    rw [hempty i]
    exact Finset.notMem_empty c
  constructor
  case owned => exact fun i => OwnerState.initial_owned cd.toAutomerge chatId (hn i) (hl i)
  case saved => exact fun _ _ _ h => by cases h
  case fits => exact fun _ => Nat.zero_le _
  case ever => exact fun _ h => by cases h
  case sent => exact fun _ _ h => by cases h
  case wellMade => exact fun i c hc => absurd hc (hnone i c)
  case home => exact fun i c hc => absurd hc (hnone i.other c)
  case single => exact fun i c hc => absurd hc (hnone i c)

/-- All changes but those that a crash has discarded before their INSERT. -/
def surviving (s : PairState I C S M) : Finset C :=
  s.everStored ∪ (s.peer .left).process.doc ∪ (s.peer .right).process.doc

private theorem Invariant.mem_changes {s : PairState I C S M} (h : Invariant cd chatId ids s) {c : C}
    (hc : c ∈ s.surviving) : ∃ i, c ∈ s.changes chatId i := by
  have hdoc : ∀ i, c ∈ (s.peer i).process.doc → c ∈ s.changes chatId i := fun i hc =>
    Finset.mem_union_left _ (Finset.mem_union_right _ hc)
  rcases Finset.mem_union.mp hc with hc | hc
  · rcases Finset.mem_union.mp hc with hc | hc
    · obtain ⟨i,hi⟩ := h.ever c hc
      exact ⟨i,Process.stored_subset_changes chatId _ _ hi⟩
    · exact ⟨.left,hdoc .left hc⟩
  · exact ⟨.right,hdoc .right hc⟩

private theorem Invariant.singleLists {s : PairState I C S M} (h : Invariant cd chatId ids s) :
    cd.SingleLists s.surviving := by
  have hown : ∀ {i c}, c ∈ s.surviving → By cd ids i c → c ∈ s.changes chatId i := by
    intro i c hc hby
    obtain ⟨j,hj⟩ := h.mem_changes cd chatId ids hc
    rcases i.eq_or_other j with rfl | rfl
    · exact hj
    · exact Process.stored_subset_changes chatId _ _ (h.home i c hj hby)
  rintro key c hc c' hc' ⟨msg,hx⟩ ⟨msg',hx'⟩
  obtain ⟨j,hj⟩ := h.mem_changes cd chatId ids hc
  rcases h.wellMade j c hj with hinit | ⟨i,list,m,hx₁,-⟩
  · cases hinit.symm.trans hx
  · obtain ⟨hkey,-,-⟩ := Content.message.inj (hx₁.symm.trans hx)
    cases hkey
    exact h.single i c (hown hc ⟨_,_,hx⟩) c' (hown hc' ⟨_,_,hx'⟩) ⟨msg,hx⟩ ⟨msg',hx'⟩

private theorem Invariant.listsPresent {s : PairState I C S M} (h : Invariant cd chatId ids s) {i : Side}
    {repo : ChatRepository C S} (hr : (s.peer i).process.repo = some repo) : cd.ListsPresent repo.doc := by
  intro c hc key list msg hx
  rcases h.wellMade i c (Process.doc_subset_changes chatId hr hc) with hinit | ⟨j,list',m,hx',hpast⟩
  · cases hinit.symm.trans hx
  · obtain ⟨rfl,rfl,-⟩ := Content.message.inj (hx'.symm.trans hx)
    refine ⟨ChatDocs.stripListPrefix_peerListKey (ids j),fun l hl => ?_⟩
    obtain ⟨hanc,hcreates⟩ := hpast l hl
    exact ⟨cd.graph.ancestors_subset_of_closed ((h.owned i).repo repo hr).closed hc hanc,hcreates⟩

private theorem Invariant.getAllMessages {s : PairState I C S M} (h : Invariant cd chatId ids s) {i : Side}
    {repo : ChatRepository C S} (hr : (s.peer i).process.repo = some repo) :
    ∃ msgs, getAllMessages cd.toAutomerge repo.doc = .ok msgs ∧
      (msgs : Multiset ChatMessage) = repo.doc.val.filterMap cd.message? := by
  have hdoc : (s.peer i).process.doc = repo.doc := by simp only [Process.doc,hr]
  have hsub : repo.doc ⊆ s.surviving := by
    rw [← hdoc]
    cases i with
    | left => exact Finset.subset_union_right.trans Finset.subset_union_left
    | right => exact Finset.subset_union_right
  refine cd.getAllMessages_exact (h.listsPresent cd chatId ids hr) ?_ (hdoc ▸ h.fits i)
  intro key c hc c' hc'
  exact h.singleLists cd chatId ids key c (hsub hc) c' (hsub hc')

/-- Among the changes that survive every key has one list, so no message is hidden. -/
theorem peer_lists_show_every_message (hids : ids .left ≠ ids .right) {t : Side → Tables I C}
    (hn : ∀ i, (t i).chats chatId = none) (hl : ∀ i, (t i).selectLog chatId = [])
    {labels : List (PairLabel C M)} {s : PairState I C S M}
    (h : run (step cd chatId ids) (initial t) labels = some s) :
    cd.SingleLists s.surviving ∧
    (∀ i repo, (s.peer i).process.repo = some repo →
      ∃ msgs, Persistence.getAllMessages cd.toAutomerge repo.doc = .ok msgs ∧
        (msgs : Multiset ChatMessage) = repo.doc.val.filterMap cd.message?) ∧
    (∀ left right, (s.peer .left).process.repo = some left → (s.peer .right).process.repo = some right →
      left.doc = right.doc → ∃ msgs, Persistence.getAllMessages cd.toAutomerge left.doc = .ok msgs ∧
        Persistence.getAllMessages cd.toAutomerge right.doc = .ok msgs) := by
  have hinv := run_invariant (fun _ _ _ => step_invariant cd chatId ids hids) h
    (initial_invariant cd chatId ids hn hl)
  refine ⟨hinv.singleLists cd chatId ids,fun i repo hr => hinv.getAllMessages cd chatId ids hr,?_⟩
  intro left right hleft hright hdoc
  obtain ⟨msgs,hmsgs,-⟩ := hinv.getAllMessages cd chatId ids hleft
  exact ⟨msgs,hmsgs,hdoc ▸ hmsgs⟩

/-- A's initial change 0, two first messages 1 and 2 of A, B's initial change 3 and
B's first message 4, made after it has seen 1. -/
def sampleGraph : ChangeGraph (Fin 5) where
  deps
    | 1 => {0}
    | 2 => {0}
    | 4 => {1,3}
    | _ => ∅
  rank c := c
  rank_lt := by decide

def sampleContent : Fin 5 → Content (Fin 5)
  | 1 => .message "msgs_A" none ⟨"m1","A",.text "hello",1,1⟩
  | 2 => .message "msgs_A" none ⟨"m2","A",.text "again",2,2⟩
  | 4 => .message "msgs_B" none ⟨"m4","B",.text "hi",3,3⟩
  | _ => .chatInit

def sampleIds : Side → String
  | .left => "A"
  | .right => "B"

def sampleDocs : ChatDocs (Fin 5) Unit (Finset (Fin 5)) := Finite.docs sampleGraph sampleContent

/-- Each peer sends one message, and each receives all of the other's changes. -/
def exchange : List (PairLabel (Fin 5) (Finset (Fin 5))) :=
  [.open .left,.sql .left 0,.sql .left 0,.addMessage .left ⟨"m1","A",.text "hello",1,1⟩ 1,.sql .left 0,
    .send .left {0,1},.open .right,.sql .right 3,.sql .right 3,.deliver .right 0,.sql .right 3,
    .addMessage .right ⟨"m4","B",.text "hi",3,3⟩ 4,.sql .right 3,.send .right {0,1,3,4},.deliver .left 0,
    .sql .left 0]

private theorem exchange_docs :
    (run (step sampleDocs () sampleIds) (initial fun _ => Tables.empty) exchange).map (fun s =>
      ((s.peer .left).process.repo.map ChatRepository.doc,(s.peer .right).process.repo.map ChatRepository.doc)) =
        some (some {0,1,3,4},some {0,1,3,4}) := by
  decide +kernel

theorem peer_lists_after_exchange :
    ∃ s left right, run (step sampleDocs () sampleIds) (initial fun _ => Tables.empty) exchange = some s ∧
      sampleDocs.SingleLists s.surviving ∧ (s.peer .left).process.repo = some left ∧
      (s.peer .right).process.repo = some right ∧
      ∃ msgs, Persistence.getAllMessages sampleDocs.toAutomerge left.doc = .ok msgs ∧
        Persistence.getAllMessages sampleDocs.toAutomerge right.doc = .ok msgs ∧
        (msgs : Multiset ChatMessage) = {⟨"m1","A",.text "hello",1,1⟩,⟨"m4","B",.text "hi",3,3⟩} := by
  obtain ⟨s,hs,hdocs⟩ := Option.map_eq_some_iff.mp exchange_docs
  obtain ⟨hleft,hright⟩ := Prod.mk.inj hdocs
  obtain ⟨left,hleft,hl⟩ := Option.map_eq_some_iff.mp hleft
  obtain ⟨right,hright,hr⟩ := Option.map_eq_some_iff.mp hright
  obtain ⟨hone,hall,hsame⟩ := peer_lists_show_every_message sampleDocs () sampleIds (by decide)
    (fun _ => rfl) (fun _ => rfl) hs
  obtain ⟨msgs,hmsgs,hexact⟩ := hall .left left hleft
  obtain ⟨msgs',hmsgs',hright'⟩ := hsame left right hleft hright (hl.trans hr.symm)
  cases hmsgs.symm.trans hmsgs'
  refine ⟨s,left,right,hs,hone,hleft,hright,msgs,hmsgs,hright',?_⟩
  rw [hexact,hl]
  decide +kernel

/-- A crash discards the first message before its INSERT, and the next one creates the
list of the peer again. -/
def crashBeforeInsert : List (PairLabel (Fin 5) (Finset (Fin 5))) :=
  [.open .left,.sql .left 0,.sql .left 0,.addMessage .left ⟨"m1","A",.text "hello",1,1⟩ 1,.crash .left,
    .open .left,.sql .left 0,.sql .left 0,.addMessage .left ⟨"m2","A",.text "again",2,2⟩ 2,.sql .left 0]

theorem crash_lets_two_changes_create_a_list :
    ∃ s, run (step sampleDocs () sampleIds) (initial fun _ => Tables.empty) crashBeforeInsert = some s ∧
      ¬ sampleDocs.SingleLists s.made := by
  have hrun : (run (step sampleDocs () sampleIds) (initial fun _ => Tables.empty) crashBeforeInsert).map made =
      some {1,2} := by
    decide +kernel
  obtain ⟨s,hs,hmade⟩ := Option.map_eq_some_iff.mp hrun
  refine ⟨s,hs,fun h => ?_⟩
  rw [hmade] at h
  exact absurd (h "msgs_A" 1 (by decide) 2 (by decide) ⟨_,rfl⟩ ⟨_,rfl⟩) (by decide)

end PairState
end GossipCore.Persistence
