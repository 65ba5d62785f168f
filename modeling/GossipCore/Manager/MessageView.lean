import GossipCore.Manager.ReceiverView

/-! The message lists of two peers and their receivers, over runs with crashes in which the
listing and the subscription of a receiver come apart. -/
namespace GossipCore.Manager
open Base Persistence

/-- Two peers, each with the receiver that has got its first listing, the one that is
subscribed, and what send_message has returned and its caller has not added yet. -/
structure ViewedPair (I C S M : Type) where
  pair : PairState I C S M
  listed : Side → Option ReceiverView
  subscribed : Side → Option ReceiverView
  returned : Side → List ChatMessage

inductive ViewLabel (C M : Type) where
  | pair (l : PairLabel C M)
  | getAllMessages (side : Side)
  | subscribe (side : Side)
  | collect (side : Side)

namespace ViewedPair
variable {I C S M : Type} [DecidableEq I] [DecidableEq C] (cd : ChatDocs C S M) (chatId : I) (ids : Side → String)

def initial (t : Side → Tables I C) : ViewedPair I C S M := ⟨.initial t,fun _ => none,fun _ => none,fun _ => []⟩

/-- The lists after a step of the peers. A crash takes the receivers with it. -/
def record (s : ViewedPair I C S M) (pair : PairState I C S M) : PairLabel C M → ViewedPair I C S M
  | .crash i =>
    ⟨pair,Function.update s.listed i none,Function.update s.subscribed i none,Function.update s.returned i []⟩
  | .sql i _ =>
    let owner := s.pair.peer i
    let msgs := extracted cd chatId owner.tables owner.process
    ⟨pair,Function.update s.listed i ((s.listed i).map (·.miss msgs)),
      Function.update s.subscribed i ((s.subscribed i).map (·.tell msgs)),
      Function.update s.returned i (s.returned i++added cd chatId owner.tables owner.process)⟩
  | _ => { s with pair := pair }

/-- A new message has an id that no message had before. -/
def freshId (s : ViewedPair I C S M) : PairLabel C M → Bool
  | .addMessage _ msg _ => decide (∀ c ∈ s.pair.made, ∀ old ∈ cd.message? c, old.id ≠ msg.id)
  | _ => true

/-- The listing and the subscription are two requests, which the chat's actor takes between
its handlers. -/
def step (s : ViewedPair I C S M) : ViewLabel C M → Option (ViewedPair I C S M)
  | .pair l => if s.freshId cd l then (s.pair.step cd chatId ids l).map (fun pair => s.record cd chatId pair l) else none
  | .getAllMessages i =>
    match (s.pair.peer i).process.repo, (s.pair.peer i).process.activity with
    | some repo, .idle =>
      match getAllMessages cd.toAutomerge repo.doc with
      | .ok all => some { s with listed := Function.update s.listed i (some ⟨all,[]⟩) }
      | .error _ => none
    | _, _ => none
  | .subscribe i =>
    match (s.pair.peer i).process.activity, s.listed i with
    | .idle, some v => some { s with
        listed := Function.update s.listed i none
        subscribed := Function.update s.subscribed i (some v) }
    | _, _ => none
  | .collect i =>
    match s.subscribed i, s.returned i with
    | some v, msg::rest => some { s with
        listed := Function.update s.listed i ((s.listed i).map (·.miss [msg]))
        subscribed := Function.update s.subscribed i (some (v.collect msg))
        returned := Function.update s.returned i rest }
    | _, _ => none

/-- The invariant: the documents can be listed, every message in them was made by
add_message with an id of its own, and each side shows what its calls have made known. -/
structure Invariant (s : ViewedPair I C S M) : Prop where
  pair : PairState.Invariant cd chatId ids s.pair
  distinct : cd.DistinctIds s.pair.made
  made : ∀ i, ∀ c ∈ s.pair.changes chatId i, (cd.message? c).isSome → c ∈ s.pair.made
  shows : ∀ i, Shows cd (s.pair.peer i).process (s.listed i) (s.subscribed i) (s.returned i)

variable {cd chatId ids}

private theorem single_of_changes {s : PairState I C S M} (h : PairState.Invariant cd chatId ids s) (i : Side) :
    cd.SingleLists (s.changes chatId i) := by
  rintro key c hc c' hc' ⟨msg,hx⟩ ⟨msg',hx'⟩
  rcases h.wellMade i c hc with hinit | ⟨j,list,m,hmade,-⟩
  · cases hinit.symm.trans hx
  · obtain ⟨rfl,-,-⟩ := Content.message.inj (hmade.symm.trans hx)
    rcases i.eq_or_other j with rfl | rfl
    · exact h.single _ c hc c' hc' ⟨msg,hx⟩ ⟨msg',hx'⟩
    · have hhome : ∀ x ∈ s.changes chatId i, PairState.By cd ids i.other x → x ∈ s.changes chatId i.other :=
        fun x hx hby => Process.stored_subset_changes chatId _ _ (h.home i.other x (i.other_other.symm ▸ hx) hby)
      exact h.single _ c (hhome c hc ⟨_,_,hx⟩) c' (hhome c' hc' ⟨_,_,hx'⟩) ⟨msg,hx⟩ ⟨msg',hx'⟩

/-- Everything that a peer has can be listed. -/
theorem Invariant.listed {s : ViewedPair I C S M} (h : Invariant cd chatId ids s) {i : Side} {d : Finset C}
    (hclosed : cd.graph.Closed d) (hd : d ⊆ s.pair.changes chatId i) : Listed cd d where
  distinct c hc c' hc' m hm m' hm' hid := by
    refine h.distinct c (h.made i c (hd hc) ?_) c' (h.made i c' (hd hc') ?_) m hm m' hm' hid
    · rw [Option.mem_def.mp hm]
      rfl
    · rw [Option.mem_def.mp hm']
      rfl
  lists c hc key list msg hx := by
    rcases h.pair.wellMade i c (hd hc) with hinit | ⟨j,list',m,hmade,hpast⟩
    · cases hinit.symm.trans hx
    · obtain ⟨rfl,rfl,-⟩ := Content.message.inj (hmade.symm.trans hx)
      refine ⟨ChatDocs.stripListPrefix_peerListKey (ids j),fun l hl => ?_⟩
      obtain ⟨hanc,hcreates⟩ := hpast l hl
      exact ⟨cd.graph.ancestors_subset_of_closed hclosed hc hanc,hcreates⟩
  single key c hc c' hc' := single_of_changes h.pair i key c (hd hc) c' (hd hc')

/-- A step of one peer: its process has moved, and the other peer is as it was. -/
private theorem ownerStep_inv {s s' : PairState I C S M} {i : Side} {l : ProcessLabel C M}
    (h : s.ownerStep cd chatId i l = some s') : ∃ q r, (s.peer i).process.step cd.toAutomerge chatId (s.peer i).tables l =
      some (q.tables,q.process,r) ∧ s'.peer = Function.update s.peer i q ∧ s'.made = s.made := by
  obtain ⟨q,hq,hs⟩ := Option.bind_eq_some_iff.mp h
  obtain ⟨r,hstep⟩ : ∃ r, (s.peer i).process.step cd.toAutomerge chatId (s.peer i).tables l =
      some (q.tables,q.process,r) := by
    obtain ⟨⟨t,p,r⟩,hstep,rfl⟩ := Option.map_eq_some_iff.mp hq
    exact ⟨r,hstep⟩
  split at hs <;> cases hs
  exact ⟨q,r,hstep,rfl,rfl⟩

/-- A step of one peer after which its lists show what is known. -/
private theorem Invariant.moved {s : ViewedPair I C S M} (h : Invariant cd chatId ids s) {i : Side}
    {l : ProcessLabel C M} (hok : Process.Succeeds cd l) {q : OwnerState I C S} {r : Option (Returned C)}
    (hstep : (s.pair.peer i).process.step cd.toAutomerge chatId (s.pair.peer i).tables l = some (q.tables,q.process,r))
    {pair : PairState I C S M} (hinv : PairState.Invariant cd chatId ids pair)
    (hpeer : pair.peer = Function.update s.pair.peer i q) (hmade : s.pair.made ⊆ pair.made)
    (hdistinct : cd.DistinctIds pair.made)
    (hgain : ∀ c ∈ Process.gain cd l, (cd.message? c).isSome → c ∈ pair.made)
    {listed subscribed : Option ReceiverView} {returned : List ChatMessage}
    (hq : Shows cd q.process listed subscribed returned) :
    Invariant cd chatId ids ⟨pair,Function.update s.listed i listed,Function.update s.subscribed i subscribed,
      Function.update s.returned i returned⟩ := by
  have howned := h.pair.owned i
  have hg := Process.step_grows cd chatId howned.tables howned.repo howned.load (h.pair.saved i) hok hstep
  refine ⟨hinv,hdistinct,fun j c hc hm => ?_,fun j => ?_⟩
  · by_cases hj : j = i
    · subst hj
      simp only [PairState.changes,hpeer,Function.update_self] at hc
      rcases Finset.mem_union.mp (hg.bound hc) with hc | hc
      · exact hmade (h.made j c hc hm)
      · exact hgain c hc hm
    · simp only [PairState.changes,hpeer,Function.update_of_ne hj] at hc
      exact hmade (h.made j c hc hm)
  · by_cases hj : j = i
    · subst hj
      simpa only [hpeer,Function.update_self] using hq
    · simpa only [hpeer,Function.update_of_ne hj] using h.shows j

private theorem Invariant.closed {s : ViewedPair I C S M} (h : Invariant cd chatId ids s) (i : Side) :
    cd.graph.Closed (s.pair.peer i).process.doc := by
  unfold Process.doc
  split
  · rename_i repo hr
    exact ((h.pair.owned i).repo repo hr).closed
  · exact fun _ hc => by cases hc

private theorem doc_subset_changes (s : PairState I C S M) (i : Side) :
    (s.peer i).process.doc ⊆ s.changes chatId i :=
  Finset.subset_union_right.trans Finset.subset_union_left

private theorem Invariant.distinct_insert {s : ViewedPair I C S M} (h : Invariant cd chatId ids s) {c : C}
    {msg : ChatMessage} (hmsg : cd.message? c = some msg)
    (hfresh : ∀ x ∈ s.pair.made, ∀ old ∈ cd.message? x, old.id ≠ msg.id) : cd.DistinctIds (insert c s.pair.made) := by
  intro x hx y hy m hm m' hm' hid
  rcases Finset.mem_insert.mp hx with hxc | hxs <;> rcases Finset.mem_insert.mp hy with hyc | hys
  · exact hxc.trans hyc.symm
  · cases hmsg.symm.trans (hxc ▸ hm)
    exact absurd hid.symm (hfresh y hys m' hm')
  · cases hmsg.symm.trans (hyc ▸ hm')
    exact absurd hid (hfresh x hxs m hm)
  · exact h.distinct x hxs y hys m hm m' hm' hid

/-- A side whose lists change while the peers stand still. -/
private theorem Invariant.shows_side {s : ViewedPair I C S M} (h : Invariant cd chatId ids s) {i : Side}
    {listed subscribed : Option ReceiverView} {returned : List ChatMessage}
    (hi : Shows cd (s.pair.peer i).process listed subscribed returned) :
    Invariant cd chatId ids ⟨s.pair,Function.update s.listed i listed,Function.update s.subscribed i subscribed,
      Function.update s.returned i returned⟩ := by
  refine ⟨h.pair,h.distinct,h.made,fun j => ?_⟩
  by_cases hj : j = i
  · subst hj
    simpa only [Function.update_self] using hi
  · simpa only [Function.update_of_ne hj] using h.shows j

private theorem Invariant.pairStep (hids : ids .left ≠ ids .right) (hpatch : cd.PatchesEntries)
    {s : ViewedPair I C S M} {l : PairLabel C M} (h : Invariant cd chatId ids s) (hfresh : s.freshId cd l = true)
    {pair : PairState I C S M} (hpair : s.pair.step cd chatId ids l = some pair) :
    Invariant cd chatId ids (s.record cd chatId pair l) := by
  have hinv := PairState.step_invariant cd chatId ids hids h.pair hpair
  cases l with
  | «open» i =>
    obtain ⟨q,r,hstep,hpeer,hmade⟩ := ownerStep_inv hpair
    have hmoved := h.moved (l := .open) trivial hstep hinv hpeer (hmade ▸ Finset.Subset.refl _) (hmade ▸ h.distinct)
      (fun c hc => by cases hc) ((h.shows i).step_open hstep)
    simp only [Function.update_eq_self] at hmoved
    exact hmoved
  | crash i =>
    obtain ⟨q,r,hstep,hpeer,hmade⟩ := ownerStep_inv hpair
    obtain ⟨-,hq,-⟩ : _ ∧ Process.new = q.process ∧ _ := by
      simpa only [Process.step,Option.some.injEq,Prod.mk.injEq] using hstep
    exact h.moved (l := .crash) trivial hstep hinv hpeer (hmade ▸ Finset.Subset.refl _) (hmade ▸ h.distinct)
      (fun c hc => by cases hc) (hq ▸ shows_new)
  | addMessage i msg c =>
    simp only [PairState.step] at hpair
    split at hpair
    · rename_i hcontent
      obtain ⟨pair₁,hs₁,rfl⟩ := Option.map_eq_some_iff.mp hpair
      obtain ⟨q,r,hstep,hpeer,hmade⟩ := ownerStep_inv hs₁
      have hmsg : cd.message? c = some msg := by rw [ChatDocs.message?,hcontent]; rfl
      have hmoved := h.moved (l := .addMessage msg (some c)) trivial hstep hinv hpeer
        (hmade ▸ Finset.subset_insert c _) ?_ (fun x hx _ => ?_) ((h.shows i).step_add (h.closed i) hmsg hstep)
      · simp only [Function.update_eq_self] at hmoved
        exact hmoved
      · rw [hmade]
        exact h.distinct_insert hmsg (of_decide_eq_true hfresh)
      · rw [Finset.mem_singleton.mp hx]
        exact Finset.mem_insert_self c _
    · cases hpair
  | sql i initial =>
    simp only [PairState.step] at hpair
    split at hpair
    · rename_i hinit
      obtain ⟨q,r,hstep,hpeer,hmade⟩ := ownerStep_inv hpair
      refine h.moved (l := .sql true initial) rfl hstep hinv hpeer (hmade ▸ Finset.Subset.refl _) (hmade ▸ h.distinct)
        (fun c hc hm => ?_) ((h.shows i).step_sql hpatch (fun d hd hsub => ?_) (h.closed i) hstep)
      · rw [Finset.mem_singleton.mp hc,ChatDocs.message?,hinit] at hm
        cases hm
      · exact h.listed hd (hsub.trans (doc_subset_changes s.pair i))
    · cases hpair
  | send i batch =>
    simp only [PairState.step] at hpair
    split at hpair
    · split at hpair <;> cases hpair
      exact ⟨hinv,h.distinct,h.made,h.shows⟩
    · cases hpair
  | deliver i k =>
    simp only [PairState.step] at hpair
    split at hpair
    · rename_i batch hk
      obtain ⟨q,r,hstep,hpeer,hmade⟩ := ownerStep_inv hpair
      obtain ⟨hclosed,hstored⟩ := h.pair.sent i.other batch (List.mem_of_getElem? hk)
      have hmoved := h.moved (l := .receiveSyncMessage (some batch)) hclosed hstep hinv hpeer
        (hmade ▸ Finset.Subset.refl _) (hmade ▸ h.distinct) (fun c hc hm => ?_)
        ((h.shows i).step_receive (h.closed i) hclosed hstep)
      · simp only [Function.update_eq_self] at hmoved
        exact hmoved
      · rw [hmade]
        exact h.made i.other c (Process.stored_subset_changes chatId _ _ (hstored hc)) hm
    · cases hpair

theorem step_invariant (hids : ids .left ≠ ids .right) (hpatch : cd.PatchesEntries) {s s' : ViewedPair I C S M}
    {l : ViewLabel C M} (h : Invariant cd chatId ids s) (hs : s.step cd chatId ids l = some s') :
    Invariant cd chatId ids s' := by
  cases l with
  | getAllMessages i =>
    simp only [step] at hs
    split at hs
    · rename_i repo hr ha
      split at hs <;> cases hs
      rename_i all hall
      have hp : (s.pair.peer i).process = ⟨some repo,.idle⟩ := by rw [← hr,← ha]
      have hi := h.shows i
      have hdoc := h.closed i
      have hsub : (s.pair.peer i).process.doc ⊆ s.pair.changes chatId i := doc_subset_changes s.pair i
      rw [hp] at hi hdoc hsub
      obtain ⟨all',hall',hnodup,-,hmem⟩ := (h.listed hdoc hsub).mem_all (by simpa only [hp] using h.pair.fits i)
      cases hall.symm.trans hall'
      have hside := h.shows_side (hp ▸ hi.lists hnodup hmem)
      simp only [Function.update_eq_self] at hside
      exact hside
    · cases hs
  | subscribe i =>
    simp only [step] at hs
    split at hs <;> cases hs
    rename_i v ha hlisted
    have hi := h.shows i
    rw [hlisted] at hi
    have hside := h.shows_side hi.subscribes
    simp only [Function.update_eq_self] at hside
    exact hside
  | collect i =>
    simp only [step] at hs
    split at hs <;> cases hs
    rename_i v msg rest hcur hret
    have hi := h.shows i
    rw [hcur,hret] at hi
    exact h.shows_side (hi.collects (h.listed (h.closed i) (doc_subset_changes s.pair i)))
  | pair l =>
    simp only [step] at hs
    split at hs
    · rename_i hfresh
      obtain ⟨pair,hpair,rfl⟩ := Option.map_eq_some_iff.mp hs
      exact h.pairStep hids hpatch hfresh hpair
    · cases hs

theorem initial_invariant {t : Side → Tables I C} (hn : ∀ i, (t i).chats chatId = none)
    (hl : ∀ i, (t i).selectLog chatId = []) : Invariant cd chatId ids (initial t : ViewedPair I C S M) where
  pair := PairState.initial_invariant cd chatId ids hn hl
  distinct := fun c hc => by cases hc
  made i c hc _ := by
    have hempty : (PairState.initial t : PairState I C S M).changes chatId i = ∅ := by
      have hstored : (t i).stored chatId = ∅ := by simp [Tables.stored,hn i,hl i]
      simp [PairState.changes,PairState.initial,OwnerState.initial,Process.changes,Process.new,Process.doc,
        Process.draft,Activity.load?,hstored]
    rw [show (initial t : ViewedPair I C S M).pair = PairState.initial t from rfl,hempty] at hc
    cases hc
  shows _ := shows_new

/-- A side between two calls, without results that are still to be added. -/
private theorem Invariant.shows_idle {s : ViewedPair I C S M} (h : Invariant cd chatId ids s) {i : Side}
    {v : ReceiverView} (hcur : s.subscribed i = some v) (hret : s.returned i = [])
    (ha : (s.pair.peer i).process.activity = .idle) : v.Shows cd (s.pair.peer i).process.doc [] := by
  have hi := (h.shows i).subscribed v hcur
  have hknown : known (s.pair.peer i).process = (s.pair.peer i).process.doc := by simp only [known,ha]
  rw [hret,hknown] at hi
  exact hi

section Misses
variable {s s' : ViewedPair I C S M} {l : ViewLabel C M} {i : Side}

end Misses

end ViewedPair
end GossipCore.Manager
