import GossipCore.Manager.Recovery
import GossipCore.Persistence.Growth

/-! Two chats that have fallen silent hold the same changes. Connections may be lost, either
side may crash and reload; what counts is that somebody has announced its heads since, and
that no handler has left its document without a call of generate_sync_message. -/
namespace GossipCore.Manager
open Base Persistence SyncActor

/-- What a message announces, and when automerge keeps silent. Last_sent_heads counts as
sent once the state has given a message; a state that finds the peer's data gone may give
one without changing. -/
structure HeadsAnnounced {C S M O : Type} [DecidableEq C] {am : Automerge C S M O} (view : SessionView am) where
  lastSent : S → Option (Finset C)
  lastSent_new : lastSent am.newState = none
  announces : ∀ s d m, am.graph.Closed d → (am.generateSyncMessage s d).2 = some m →
    view.announced m = am.getHeads d
  silent : ∀ s d, am.graph.Closed d → (am.generateSyncMessage s d).2 = none →
    lastSent s = some (am.getHeads d) ∧ (view.waiting s d = true ∨ view.theirHeads s = some (am.getHeads d))
  lastSent_generate : ∀ s d h, am.graph.Closed d → lastSent (am.generateSyncMessage s d).1 = some h →
    lastSent s = some h ∨ h = am.getHeads d
  lastSent_receive : ∀ s d m h, (am.receiveSyncMessage s d m).2.2 = true →
    lastSent (am.receiveSyncMessage s d m).1 = some h → lastSent s = some h ∨ h ⊆ d

/-- The sync session keeps its records this way. -/
def sessionHeads : HeadsAnnounced Session.view where
  lastSent := Session.State.lastSentHeads
  lastSent_new := rfl
  announces s d m hd h := by
    rw [Session.automerge.getHeads_of_closed hd]
    simp only [Session.automerge,Session.generateSyncMessage] at h
    split at h <;> cases h
    rfl
  silent s d hd h := by
    rw [Session.automerge.getHeads_of_closed hd]
    simp only [Session.automerge,Session.generateSyncMessage] at h
    split at h
    · rename_i hnone
      obtain ⟨hlast,⟨hheads,-⟩ | hflight⟩ := hnone
      · exact ⟨hlast,Or.inr hheads⟩
      · exact ⟨hlast,Or.inl (by simp [Session.view,hflight,hlast])⟩
    · cases h
  lastSent_generate s d h hd hs := by
    rw [Session.automerge.getHeads_of_closed hd]
    simp only [Session.automerge,Session.generateSyncMessage] at hs
    split at hs
    · exact Or.inl hs
    · cases hs
      exact Or.inr rfl
  lastSent_receive s d m h hok hs := by
    simp only [Session.automerge,Session.receiveSyncMessage] at hs
    split at hs
    · split at hs
      · cases hs
      · exact Or.inl hs
    · exact Or.inl hs

variable {I C S M O : Type} [DecidableEq I] [DecidableEq C] {am : Automerge C S M O} {view : SessionView am}
  (heads : HeadsAnnounced view) (chatId : I)

/-- What happens to two chats besides the handlers on a connection: all frames on their way
are lost with it, and a side crashes and opens its chat again. -/
inductive SyncLinkLabel (C M : Type) where
  | pair (l : SyncPairLabel C M)
  | lost
  | crash (side : Side)
  | reopen (side : Side) (oks : List Bool) (initial : C)

def SyncLinkLabel.KeepsLink {C M : Type} : SyncLinkLabel C M → Prop
  | .lost => False
  | .crash _ => False
  | _ => True

namespace SyncPair

/-- Before either side has opened the chat. -/
def start (t : Side → Tables I C) : SyncPair I C S M := ⟨fun i => initial (t i),fun _ => []⟩

variable (am) in
def linkStep (s : SyncPair I C S M) : SyncLinkLabel C M → Option (SyncPair I C S M)
  | .pair l => s.step am chatId l
  | .lost => some { s with inFlight := fun _ => [] }
  | .crash side => ((s.actor side).step am chatId .crash).map
      (fun a => ⟨Function.update s.actor side a,fun _ => []⟩)
  | .reopen side oks i => ((s.actor side).step am chatId (.open oks i)).map
      (fun a => { s with actor := Function.update s.actor side a })

variable (am) in
/-- The handler succeeds, or it fails and the document is reloaded. Both end in a call of
generate_sync_message. -/
def finishes (s : SyncActor I C S M) (l : SyncLabel C M) : Bool :=
  match l with
  | .localSend _ (some _) _ => sendsEmpty am chatId s l
  | .incoming (.sync _) _ _ _ => sendsEmpty am chatId s l
  | _ => true

variable (am) in
/-- The condition on the step, for the handlers of both sides. -/
def completes (s : SyncPair I C S M) : SyncLinkLabel C M → Bool
  | .pair (.handle side l) => finishes am chatId (s.actor side) l
  | .pair (.deliver side ok oks i) =>
    match s.inFlight side with
    | frame::_ => finishes am chatId (s.actor side) (.incoming (received frame) ok oks i)
    | [] => true
  | _ => true

/-- What such a handler does. The call is made for a repository whose announced heads are
in the old document, and which has heard the received message. -/
inductive Finished (s : SyncActor I C S M) (l : SyncLabel C M) (s' : SyncActor I C S M) : Prop where
  | ignored (hl : Ignored l) (hm : s'.memory = s.memory) (ht : s'.tables = s.tables) (hg : s'.generated = none)
  | generated (m : SyncMemory C S) (hm : s.memory = some m) (repo : ChatRepository C S) (flag : Bool)
      (hm' : s'.memory = some ⟨(repo.generateSyncMessage am).1,flag⟩)
      (hg : s'.generated = (repo.generateSyncMessage am).2) (saved : s'.tables.stored chatId = repo.doc)
      (told : ∀ h, heads.lastSent repo.syncState = some h → h ⊆ m.doc.doc)
      (grows : repo.syncState = am.newState ∨ m.doc.doc ⊆ repo.doc) (kept : s.tables.stored chatId ⊆ repo.doc)
      (made : ∀ msg c ok, l = .localSend msg (some c) ok → c ∈ repo.doc)
      (heard : ∀ x ok oks i, l = .incoming (.sync x) ok oks i → repo.syncState = am.newState ∨
        (view.waiting repo.syncState repo.doc = false ∧ view.theirHeads repo.syncState = some (view.announced x)))

/-- An open chat whose document is stored, and whose announced heads are in it. -/
structure Current (s : SyncActor I C S M) : Prop where
  tracked : Tracked am chatId s
  saved : ∀ m, s.memory = some m → s.tables.stored chatId = m.doc.doc
  told : ∀ m, s.memory = some m → ∀ h, heads.lastSent m.doc.syncState = some h → h ⊆ m.doc.doc

variable {heads}

private theorem told_new {m : SyncMemory C S} {repo : ChatRepository C S} (hs : repo.syncState = am.newState) :
    ∀ h, heads.lastSent repo.syncState = some h → h ⊆ m.doc.doc := by
  intro h hh
  rw [hs,heads.lastSent_new] at hh
  cases hh

theorem handled_finished {s s' : SyncActor I C S M} {l : SyncLabel C M} (hs : Current heads chatId s)
    (h : Handled am chatId s l s') (hf : finishes am chatId s l = true) (hl : ∀ oks i, l ≠ .open oks i)
    (hc : l ≠ .crash) : Finished heads chatId s l s' := by
  cases h with
  | crash => exact absurd rfl hc
  | opened oks i => exact absurd rfl (hl oks i)
  | openFailed oks i => exact absurd rfl (hl oks i)
  | ignored m hm l hi => exact .ignored hi rfl rfl rfl
  | sendFailed m hm msg c hdeps hres =>
    obtain ⟨e,he⟩ := hres
    simp only [finishes,sendsEmpty,hm,he] at hf
    cases hf
  | sent m hm msg c hdeps t doc hp hres =>
    have hsub : m.doc.doc ⊆ doc.doc := by
      rw [hp.doc]
      exact Finset.subset_insert _ _
    refine .generated m hm doc m.resetDocState rfl rfl (hp.stored.trans hp.doc.symm) ?_ (Or.inr hsub)
      ((hs.saved m hm).trans_subset hsub) (fun _ _ _ he => ?_) (fun _ _ _ _ he => by cases he)
    · rw [hp.syncState]
      exact hs.told m hm
    · cases he
      rw [hp.doc]
      exact Finset.mem_insert_self _ _
  | tick m hm =>
    exact .generated m hm m.doc m.resetDocState rfl rfl (hs.saved m hm) (hs.told m hm)
      (Or.inr (Finset.Subset.refl _)) (hs.saved m hm).subset (fun _ _ _ he => by cases he)
      (fun _ _ _ _ he => by cases he)
  | connected m hm =>
    exact .generated m hm (m.doc.resetSyncState am) m.resetDocState rfl rfl (hs.saved m hm) (told_new rfl)
      (Or.inl rfl) (hs.saved m hm).subset (fun _ _ _ he => by cases he) (fun _ _ _ _ he => by cases he)
  | answered m hm ok oks i =>
    exact .generated m hm m.doc false rfl rfl (hs.saved m hm) (hs.told m hm)
      (Or.inr (Finset.Subset.refl _)) (hs.saved m hm).subset (fun _ _ _ he => by cases he)
      (fun _ _ _ _ he => by cases he)
  | merged m hm x ok oks i ha t doc hp messages he u hres =>
    have hsub : m.doc.doc ⊆ doc.doc := by
      rw [hp.doc]
      exact am.receive_grows _ _ _
    refine .generated m hm doc false rfl rfl (hp.stored.trans hp.doc.symm) (fun h hh => ?_) (Or.inr hsub)
      ((hs.saved m hm).trans_subset hsub) (fun _ _ _ he => by cases he) (fun y ok' oks' i' he' => Or.inr ?_)
    · rw [hp.syncState] at hh
      rcases heads.lastSent_receive _ _ _ h ha hh with hold | hsub
      · exact hs.told m hm h hold
      · exact hsub
    · cases he'
      rw [hp.syncState]
      exact ⟨view.receive_answers _ _ _ ha _,view.receive_heads _ _ _ ha⟩
  | rejected m hm x ok oks i t doc hj u s' e hres hr =>
    simp only [finishes,sendsEmpty,hm,hres] at hf
    cases hr with
    | gaveUp hflag =>
      rw [show m.resetDocState = true from hflag] at hf
      cases hf
    | reloadFailed hflag t' ht' hst hrs e' hload =>
      rw [show m.resetDocState = false from hflag,
        show doc.resetDocStateToPersisted am chatId oks i t = some (.error e',t',doc) from hload] at hf
      cases hf
    | reloaded hflag t' ht' hst hrs hload =>
      refine .generated m hm _ true rfl rfl hst (told_new rfl) (Or.inl rfl) ?_ (fun _ _ _ he => by cases he)
        (fun _ _ _ _ _ => Or.inl rfl)
      -- what the message has brought to the rows before it was refused stays there
      cases hj with
      | refused ha => exact Finset.Subset.refl _
      | unwritten ha hok => exact Finset.Subset.refl _
      | unreadable ha t doc hp hw e he =>
        exact (hs.saved m hm).trans_subset ((am.receive_grows _ _ _).trans hp.stored.symm.subset)

private theorem getHeads_subset {d : Doc C} (h : am.graph.Closed d) : am.getHeads d ⊆ d := by
  rw [am.getHeads_of_closed h]
  exact am.graph.heads_subset d

/-- Closed documents with the same heads are the same. -/
private theorem doc_eq_of_heads {d e : Doc C} (hd : am.graph.Closed d) (he : am.graph.Closed e)
    (h : am.getHeads d = am.getHeads e) : d = e := by
  rw [am.getHeads_of_closed hd,am.getHeads_of_closed he] at h
  rw [← am.graph.ancestorsOf_heads hd,← am.graph.ancestorsOf_heads he,h]

/-- A closed document has all that its heads are in. -/
private theorem subset_of_heads {d e : Doc C} (hd : am.graph.Closed d) (he : am.graph.Closed e)
    (h : am.getHeads d ⊆ e) : d ⊆ e := by
  rw [am.getHeads_of_closed hd] at h
  intro c hc
  obtain ⟨x,hx,hxc⟩ := am.graph.exists_head_above hc
  exact am.graph.ancestors_subset_of_closed he (h hx) hxc

theorem Finished.current {s s' : SyncActor I C S M} {l : SyncLabel C M} (h : Finished heads chatId s l s')
    (hs : Current heads chatId s) (ht : Tracked am chatId s') : Current heads chatId s' := by
  cases h with
  | ignored hi hm htab hg =>
    refine ⟨ht,fun m hm' => ?_,fun m hm' => hs.told m (hm ▸ hm')⟩
    rw [htab]
    exact hs.saved m (hm ▸ hm')
  | generated m hm repo flag hm' hg saved told grows kept made heard =>
    have hclosed : am.graph.Closed repo.doc := (ht.memory _ hm').closed
    refine ⟨ht,fun m₁ hm₁ => ?_,fun m₁ hm₁ h hh => ?_⟩
    · cases hm'.symm.trans hm₁
      exact saved
    · cases hm'.symm.trans hm₁
      rcases heads.lastSent_generate _ _ h hclosed hh with hold | rfl
      · rcases grows with hnew | hsub
        · exact told_new (m := ⟨repo,flag⟩) hnew h hold
        · exact (told h hold).trans hsub
      · exact getHeads_subset hclosed

/-- A message tells the heads of the document that it was generated for. -/
theorem Finished.announces {s s' : SyncActor I C S M} {l : SyncLabel C M} (h : Finished heads chatId s l s')
    (ht : Tracked am chatId s') {x : M} (hx : s'.generated = some x) :
    ∃ m, s'.memory = some m ∧ view.announced x = am.getHeads m.doc.doc := by
  cases h with
  | ignored hi hm htab hg => cases hg.symm.trans hx
  | generated m hm repo flag hm' hg saved told grows kept made heard =>
    exact ⟨_,hm',heads.announces _ _ x (ht.memory _ hm').closed (hg.symm.trans hx)⟩

/-- A handler that gives no message leaves the document as it was. -/
theorem Finished.unchanged {s s' : SyncActor I C S M} {l : SyncLabel C M} (h : Finished heads chatId s l s')
    (hs : Current heads chatId s) (ht : Tracked am chatId s') (hg : s'.generated = none) {m : SyncMemory C S}
    (hm : s.memory = some m) : ∃ m', s'.memory = some m' ∧ m'.doc.doc = m.doc.doc := by
  cases h with
  | ignored hi hmem htab hg => exact ⟨m,hmem.trans hm,rfl⟩
  | generated m₀ hm₀ repo flag hm' hg' saved told grows kept made heard =>
    cases hm.symm.trans hm₀
    have hclosed : am.graph.Closed repo.doc := (ht.memory _ hm').closed
    have hnone : (am.generateSyncMessage repo.syncState repo.doc).2 = none := hg'.symm.trans hg
    refine ⟨_,hm',?_⟩
    rcases grows with hnew | hsub
    · rw [hnew] at hnone
      exact absurd hnone (view.new_generates _)
    · obtain ⟨hlast,-⟩ := heads.silent _ _ hclosed hnone
      have hback : repo.doc ⊆ m.doc.doc := subset_of_heads hclosed (hs.tracked.memory m hm).closed (told _ hlast)
      exact Finset.Subset.antisymm hback hsub

/-- A received message that is not answered by one has told the heads of the document. -/
theorem Finished.agrees {s s' : SyncActor I C S M} {x : M} {ok : Bool} {oks : List Bool} {i : C}
    (h : Finished heads chatId s (.incoming (.sync x) ok oks i) s') (ht : Tracked am chatId s')
    (hg : s'.generated = none) : ∃ m, s'.memory = some m ∧ view.announced x = am.getHeads m.doc.doc := by
  cases h with
  | ignored hi => exact hi.elim
  | generated m hm repo flag hm' hg' saved told grows kept made heard =>
    have hnone : (am.generateSyncMessage repo.syncState repo.doc).2 = none := hg'.symm.trans hg
    refine ⟨_,hm',?_⟩
    rcases heard x ok oks i rfl with hnew | ⟨hwait,htheirs⟩
    · rw [hnew] at hnone
      exact absurd hnone (view.new_generates _)
    · obtain ⟨-,hw | hequal⟩ := heads.silent _ _ (ht.memory _ hm').closed hnone
      · cases hwait.symm.trans hw
      · exact Option.some_inj.mp (htheirs.symm.trans hequal)

/-- The last message among frames. -/
def lastMessage (frames : List (Option M)) : Option M := (frames.filterMap id).getLast?

private theorem lastMessage_concat (frames : List (Option M)) (x : M) :
    lastMessage (frames++[some x]) = some x := by
  simp [lastMessage]

private theorem lastMessage_append_none (frames : List (Option M)) :
    lastMessage (frames++[none]) = lastMessage frames := by
  simp [lastMessage]

private theorem lastMessage_cons_none (frames : List (Option M)) :
    lastMessage (none::frames) = lastMessage frames := by
  simp [lastMessage]

/-- A frame taken from the front is the last message only if no other is left. -/
private theorem lastMessage_cons_some (x : M) (frames : List (Option M)) :
    lastMessage (some x::frames) = some ((lastMessage frames).getD x) := by
  simp only [lastMessage,List.filterMap_cons,id_eq,List.getLast?_cons]

theorem lastMessage_eq_none {frames : List (Option M)} : lastMessage frames = none ↔ ∀ x, some x ∉ frames := by
  simp [lastMessage,Option.forall]

/-- The invariant: a side's last message on its way announces the heads of its document. -/
structure Telling (heads : HeadsAnnounced view) (s : SyncPair I C S M) : Prop where
  current : ∀ i, Current heads chatId (s.actor i)
  last : ∀ i x, lastMessage (s.inFlight i.other) = some x →
    ∃ m, (s.actor i).memory = some m ∧ view.announced x = am.getHeads m.doc.doc

/-- When no message is on its way, both documents are the same. -/
def Agreed (s : SyncPair I C S M) : Prop :=
  (∀ i, lastMessage (s.inFlight i) = none) → ∃ doc, ∀ i, ∃ m, (s.actor i).memory = some m ∧ m.doc.doc = doc

private theorem lastMessage_outgoing (frames : List (Option M)) (s s' : SyncActor I C S M) (l : SyncLabel C M) :
    lastMessage (frames++outgoing am chatId s s' l) = s'.generated.or (lastMessage frames) := by
  unfold outgoing
  cases s'.generated with
  | some x => exact lastMessage_concat frames x
  | none =>
    dsimp only
    split
    · exact lastMessage_append_none frames
    · rw [List.append_nil]
      rfl

/-- What a handler of one side leaves of the pair. -/
structure Acted (heads : HeadsAnnounced view) (s : SyncPair I C S M) (side : Side) (rest : List (Option M))
    (l : SyncLabel C M) (s' : SyncPair I C S M) : Prop where
  other : s'.actor side.other = s.actor side.other
  taken : s'.inFlight side = rest
  sent : lastMessage (s'.inFlight side.other) =
    (s'.actor side).generated.or (lastMessage (s.inFlight side.other))
  finished : Finished heads chatId (s.actor side) l (s'.actor side)
  tracked : Tracked am chatId (s'.actor side)

section Act
variable {s s' : SyncPair I C S M} {side : Side} {rest : List (Option M)} {l : SyncLabel C M}

private theorem acted (h : Telling chatId heads s) (hf : finishes am chatId (s.actor side) l = true)
    (hl : ∀ oks i, l ≠ .open oks i) (hc : l ≠ .crash) (hs : s.act am chatId side rest l = some s') :
    Acted chatId heads s side rest l s' := by
  obtain ⟨a,ha,rfl⟩ := Option.map_eq_some_iff.mp hs
  have hh := step_handled am chatId (h.current side).tracked ha
  have hself : Function.update s.actor side a side = a := Function.update_self ..
  refine ⟨Function.update_of_ne side.other_ne ..,?_,?_,?_,?_⟩
  · simp only [Function.update_of_ne side.other_ne.symm,Function.update_self]
  · simp only [Function.update_self]
    exact lastMessage_outgoing chatId _ _ _ _
  · simp only [hself]
    exact handled_finished chatId (h.current side) hh hf hl hc
  · simp only [hself]
    exact hh.tracked am chatId (h.current side).tracked

theorem Acted.telling (ha : Acted chatId heads s side rest l s') (h : Telling chatId heads s)
    (hrest : ∀ x, lastMessage rest = some x → lastMessage (s.inFlight side) = some x) :
    Telling chatId heads s' := by
  have hcur := h.current side
  refine ⟨fun i => ?_,fun i x hx => ?_⟩
  · rcases side.eq_or_other i with rfl | rfl
    · exact ha.finished.current chatId hcur ha.tracked
    · rw [ha.other]
      exact h.current _
  · rcases side.eq_or_other i with rfl | rfl
    · rw [ha.sent] at hx
      cases hg : (s'.actor i).generated with
      | some y =>
        rw [hg,Option.some_or] at hx
        cases hx
        exact ha.finished.announces chatId ha.tracked hg
      | none =>
        rw [hg,Option.none_or] at hx
        obtain ⟨m,hm,hann⟩ := h.last i x hx
        obtain ⟨m',hm',hdoc⟩ := ha.finished.unchanged chatId hcur ha.tracked hg hm
        exact ⟨m',hm',hdoc ▸ hann⟩
    · rw [Side.other_other,ha.taken] at hx
      rw [ha.other]
      exact h.last side.other x (by rw [Side.other_other]; exact hrest x hx)

/-- A handler keeps the agreement, and so does a message that it need not answer. -/
theorem Acted.agreed (ha : Acted chatId heads s side rest l s') (h : Telling chatId heads s) (hagreed : s.Agreed)
    (hrest : lastMessage rest = none → lastMessage (s.inFlight side) = none ∨
      ∃ x ok oks i, l = .incoming (.sync x) ok oks i ∧ lastMessage (s.inFlight side) = some x) : s'.Agreed := by
  intro hsilent
  have hside := hsilent side
  have hother := hsilent side.other
  rw [ha.taken] at hside
  rw [ha.sent,Option.or_eq_none_iff] at hother
  obtain ⟨hg,hother⟩ := hother
  -- the new memory of the side and that of the other have one document
  obtain ⟨m,p,hm,hp,hdoc⟩ : ∃ m p, (s'.actor side).memory = some m ∧ (s.actor side.other).memory = some p ∧
      m.doc.doc = p.doc.doc := by
    rcases hrest hside with hnone | ⟨x,ok,oks,i,rfl,hx⟩
    · obtain ⟨doc,hall⟩ := hagreed (fun i => by rcases side.eq_or_other i with rfl | rfl <;> assumption)
      obtain ⟨m,hm,hmd⟩ := hall side
      obtain ⟨p,hp,hpd⟩ := hall side.other
      obtain ⟨m',hm',hd⟩ := ha.finished.unchanged chatId (h.current side) ha.tracked hg hm
      exact ⟨m',p,hm',hp,(hd.trans hmd).trans hpd.symm⟩
    · obtain ⟨p,hp,hann⟩ := h.last side.other x (by rw [Side.other_other]; exact hx)
      obtain ⟨m,hm,hown⟩ := ha.finished.agrees chatId ha.tracked hg
      exact ⟨m,p,hm,hp,doc_eq_of_heads (ha.tracked.memory m hm).closed
        ((h.current side.other).tracked.memory p hp).closed (hown.symm.trans hann)⟩
  refine ⟨m.doc.doc,fun i => ?_⟩
  rcases side.eq_or_other i with rfl | rfl
  · exact ⟨m,hm,rfl⟩
  · exact ⟨p,ha.other ▸ hp,hdoc.symm⟩

end Act

/-- A handler in the pair, and what it takes from the frames on their way to its side. -/
private theorem pair_acted {s s' : SyncPair I C S M} {l : SyncPairLabel C M} (h : Telling chatId heads s)
    (hc : completes am chatId s (.pair l) = true) (hs : s.step am chatId l = some s') :
    ∃ side rest sl, Acted chatId heads s side rest sl s' ∧
      (∀ i al, l = .handle i al → i = side ∧ al = sl) ∧
      (∀ x, lastMessage rest = some x → lastMessage (s.inFlight side) = some x) ∧
      (lastMessage rest = none → lastMessage (s.inFlight side) = none ∨
        ∃ x ok oks i, sl = .incoming (.sync x) ok oks i ∧ lastMessage (s.inFlight side) = some x) := by
  cases l with
  | handle side l =>
    simp only [step] at hs
    split at hs
    · rename_i hlocal
      have ha := acted chatId h hc (fun _ _ he => by rw [he] at hlocal; cases hlocal)
        (fun he => by rw [he] at hlocal; cases hlocal) hs
      refine ⟨side,s.inFlight side,l,ha,fun _ _ he => ?_,fun _ => id,Or.inl⟩
      cases he
      exact ⟨rfl,rfl⟩
    · cases hs
  | deliver side ok oks i =>
    simp only [step] at hs
    cases hq : s.inFlight side with
    | nil =>
      rw [hq] at hs
      cases hs
    | cons frame rest =>
      rw [hq] at hs
      simp only [completes,hq] at hc
      have ha := acted chatId h hc (fun _ _ he => by cases he) (fun he => by cases he) hs
      refine ⟨side,rest,_,ha,(fun _ _ he => by cases he),?_⟩
      rw [hq]
      cases frame with
      | none =>
        rw [lastMessage_cons_none]
        exact ⟨fun _ => id,Or.inl⟩
      | some x =>
        rw [lastMessage_cons_some]
        refine ⟨fun y hy => by rw [hy]; rfl,fun hnone => Or.inr ⟨x,ok,oks,i,rfl,by rw [hnone]; rfl⟩⟩

/-- An opened chat has everything that is stored, and nothing announced. -/
private theorem current_of_opened {s s' : SyncActor I C S M} {oks : List Bool} {i : C}
    (hs : Current heads chatId s) (h : Handled am chatId s (.open oks i) s') : Current heads chatId s' := by
  have ht := h.tracked am chatId hs.tracked
  cases h with
  | opened _ _ hn t ht' hrow hst =>
    refine ⟨ht,fun m hm => ?_,fun m hm => ?_⟩
    · cases hm
      rfl
    · cases hm
      exact told_new rfl
  | openFailed _ _ hn t ht' hst =>
    refine ⟨ht,fun m hm => ?_,fun m hm => ?_⟩ <;> cases hn.symm.trans hm
  | ignored m hm l hl => exact hl.elim

theorem linkStep_telling {s s' : SyncPair I C S M} {l : SyncLinkLabel C M} (h : Telling chatId heads s)
    (hc : completes am chatId s l = true) (hs : s.linkStep am chatId l = some s') : Telling chatId heads s' := by
  cases l with
  | pair l =>
    obtain ⟨side,rest,sl,ha,-,hrest,-⟩ := pair_acted chatId h hc hs
    exact ha.telling chatId h hrest
  | lost =>
    cases hs
    exact ⟨h.current,fun i x hx => by cases hx⟩
  | crash side =>
    simp only [linkStep,Option.map_eq_some_iff] at hs
    obtain ⟨a,ha,rfl⟩ := hs
    refine ⟨fun i => ?_,fun i x hx => by cases hx⟩
    rcases side.eq_or_other i with rfl | rfl
    · simp only [Function.update_self]
      cases ha
      refine ⟨⟨(h.current i).tracked.tables,fun m hm => ?_⟩,fun m hm => ?_,fun m hm => ?_⟩ <;> cases hm
    · simp only [Function.update_of_ne side.other_ne]
      exact h.current _
  | reopen side oks i =>
    simp only [linkStep,Option.map_eq_some_iff] at hs
    obtain ⟨a,ha,rfl⟩ := hs
    have hh := step_handled am chatId (h.current side).tracked ha
    refine ⟨fun j => ?_,fun j x hx => ?_⟩
    · rcases side.eq_or_other j with rfl | rfl
      · simp only [Function.update_self]
        exact current_of_opened chatId (h.current j) hh
      · simp only [Function.update_of_ne side.other_ne]
        exact h.current _
    · obtain ⟨m,hm,hann⟩ := h.last j x hx
      rcases side.eq_or_other j with rfl | rfl
      · simp only [SyncActor.step,hm,Option.isNone_some,Bool.false_eq_true,false_and,if_false] at ha
        cases ha
      · exact ⟨m,by simpa only [Function.update_of_ne side.other_ne] using hm,hann⟩

theorem linkStep_agreed {s s' : SyncPair I C S M} {l : SyncLinkLabel C M} (h : Telling chatId heads s)
    (ha : s.Agreed) (hl : l.KeepsLink) (hc : completes am chatId s l = true)
    (hs : s.linkStep am chatId l = some s') : s'.Agreed := by
  cases l with
  | pair l =>
    obtain ⟨side,rest,sl,hacted,-,-,hrest⟩ := pair_acted chatId h hc hs
    exact hacted.agreed chatId h ha hrest
  | lost => exact hl.elim
  | crash side => exact hl.elim
  | reopen side oks i =>
    simp only [linkStep,Option.map_eq_some_iff] at hs
    obtain ⟨a,hstep,rfl⟩ := hs
    intro hsilent
    obtain ⟨doc,hall⟩ := ha hsilent
    obtain ⟨m,hm,-⟩ := hall side
    simp only [SyncActor.step,hm,Option.isNone_some,Bool.false_eq_true,false_and,if_false] at hstep
    cases hstep

/-- A new sync state has always something to say. -/
private theorem connected_agreed {s s' : SyncPair I C S M} {i : Side} (h : Telling chatId heads s)
    (hs : s.step am chatId (.handle i (.connStateChanged true)) = some s') : s'.Agreed := by
  intro hsilent
  obtain ⟨side,rest,sl,ha,hlabel,-,-⟩ := pair_acted chatId h rfl hs
  obtain ⟨rfl,rfl⟩ := hlabel _ _ rfl
  have hquiet := hsilent i.other
  rw [ha.sent,Option.or_eq_none_iff] at hquiet
  obtain ⟨a,hstep,rfl⟩ := Option.map_eq_some_iff.mp hs
  simp only [Function.update_self] at hquiet
  cases step_handled am chatId (h.current i).tracked hstep with
  | ignored m hm l hl => exact hl.elim
  | connected m hm => exact absurd hquiet.1 (view.new_generates _)

/-- What a side has stored it keeps. -/
def KeepsStored (s s' : SyncPair I C S M) : Prop :=
  ∀ i, (s.actor i).tables.stored chatId ⊆ (s'.actor i).tables.stored chatId

private theorem keepsStored_update {s : SyncPair I C S M} {side : Side} {a : SyncActor I C S M}
    {frames : Side → List (Option M)} (h : (s.actor side).tables.stored chatId ⊆ a.tables.stored chatId) :
    KeepsStored chatId s ⟨Function.update s.actor side a,frames⟩ := by
  intro i
  rcases side.eq_or_other i with rfl | rfl
  · simpa only [Function.update_self] using h
  · simp only [Function.update_of_ne side.other_ne]
    exact Finset.Subset.refl _

private theorem stored_subset_opened {s s' : SyncActor I C S M} (hs : Tracked am chatId s) {oks : List Bool}
    {i : C} (hi : am.graph.deps i = ∅) (h : s.openChat am chatId oks i = some s') :
    s.tables.stored chatId ⊆ s'.tables.stored chatId := by
  obtain ⟨hgrow,-⟩ := getPersistedDocState_stored am chatId hi oks hs.tables (l := .selectSnapshot) trivial
    (Finset.empty_subset _)
  unfold SyncActor.openChat at h
  generalize getPersistedDocState am chatId i oks s.tables .selectSnapshot = loaded at *
  obtain ⟨t,l⟩ := loaded
  cases l <;> cases h <;> exact hgrow

theorem Finished.stored {s s' : SyncActor I C S M} {l : SyncLabel C M} (h : Finished heads chatId s l s') :
    s.tables.stored chatId ⊆ s'.tables.stored chatId := by
  cases h with
  | ignored hi hm ht hg => rw [ht]
  | generated m hm repo flag hm' hg saved told grows kept made heard =>
    rw [saved]
    exact kept

theorem linkStep_stored {s s' : SyncPair I C S M} {l : SyncLinkLabel C M} (h : Telling chatId heads s)
    (hc : completes am chatId s l = true) (hs : s.linkStep am chatId l = some s') : KeepsStored chatId s s' := by
  cases l with
  | pair l =>
    obtain ⟨side,rest,sl,ha,-⟩ := pair_acted chatId h hc hs
    intro i
    rcases side.eq_or_other i with rfl | rfl
    · exact ha.finished.stored chatId
    · rw [ha.other]
  | lost =>
    cases hs
    exact fun _ => Finset.Subset.refl _
  | crash side =>
    simp only [linkStep,Option.map_eq_some_iff] at hs
    obtain ⟨a,ha,rfl⟩ := hs
    cases ha
    exact keepsStored_update chatId (Finset.Subset.refl _)
  | reopen side oks i =>
    simp only [linkStep,Option.map_eq_some_iff] at hs
    obtain ⟨a,ha,rfl⟩ := hs
    simp only [SyncActor.step] at ha
    split at ha
    · rename_i hopen
      exact keepsStored_update chatId (stored_subset_opened chatId (h.current side).tracked hopen.2 ha)
    · cases ha

/-- A change that a completed handler has made is stored. -/
private theorem made_stored {s s' : SyncPair I C S M} {i : Side} {msg : ChatMessage} {c : C} {ok : Bool}
    (h : Telling chatId heads s)
    (hc : completes am chatId s (.pair (.handle i (.localSend msg (some c) ok))) = true)
    (hs : s.step am chatId (.handle i (.localSend msg (some c) ok)) = some s') :
    c ∈ (s'.actor i).tables.stored chatId := by
  obtain ⟨side,rest,sl,ha,hlabel,-,-⟩ := pair_acted chatId h hc hs
  obtain ⟨rfl,rfl⟩ := hlabel _ _ rfl
  cases ha.finished with
  | ignored hi => exact hi.elim
  | generated m hm repo flag hm' hg saved told grows kept made heard =>
    rw [saved]
    exact made msg c ok rfl

theorem start_telling {t : Side → Tables I C} (hn : ∀ i, (t i).chats chatId = none)
    (hl : ∀ i, (t i).selectLog chatId = []) : Telling chatId heads (start t) := by
  refine ⟨fun i => ⟨initial_tracked am chatId (hn i) (hl i),fun m hm => ?_,fun m hm => ?_⟩,fun i x hx => ?_⟩
  · cases hm
  · cases hm
  · cases hx

/-- A run of completed handlers: everything stored stays, and the invariant. -/
theorem run_telling {s s' : SyncPair I C S M} {ls : List (SyncLinkLabel C M)} (h : Telling chatId heads s)
    (hc : StepsMeet (linkStep am chatId) (fun s l => completes am chatId s l = true) s ls)
    (hr : run (linkStep am chatId) s ls = some s') : Telling chatId heads s' ∧ KeepsStored chatId s s' :=
  run_related (KeepsStored chatId) (fun _ _ => Finset.Subset.refl _)
    (fun _ _ _ h₁ h₂ i => (h₁ i).trans (h₂ i))
    (fun _ _ _ ht hl hst => ⟨linkStep_telling chatId ht hl hst,linkStep_stored chatId ht hl hst⟩) hr h hc

/-- Every change of the run is stored at its end by the side that made it. -/
theorem run_made {s s' : SyncPair I C S M} {ls : List (SyncLinkLabel C M)} (h : Telling chatId heads s)
    (hc : StepsMeet (linkStep am chatId) (fun s l => completes am chatId s l = true) s ls)
    (hr : run (linkStep am chatId) s ls = some s') {i : Side} {msg : ChatMessage} {c : C} {ok : Bool}
    (hmem : .pair (.handle i (.localSend msg (some c) ok)) ∈ ls) : c ∈ (s'.actor i).tables.stored chatId := by
  obtain ⟨pre,post,rfl⟩ := List.append_of_mem hmem
  rw [run_append] at hr
  obtain ⟨u,hu,hrest⟩ := Option.bind_eq_some_iff.mp hr
  obtain ⟨v,hv,hpost⟩ := run_cons hrest
  obtain ⟨hcpre,hchere,hcpost⟩ := stepsMeet_append hu hc
  obtain ⟨htell,-⟩ := run_telling chatId h hcpre hu
  have hmade := made_stored chatId htell hchere hv
  obtain ⟨-,hkeeps⟩ := run_telling chatId (linkStep_telling chatId htell hchere hv) (hcpost v hv) hpost
  exact hkeeps i hmade

/-- While the link stays up, two sides that agree when nothing is on its way go on so. -/
theorem run_agreed {s s' : SyncPair I C S M} {ls : List (SyncLinkLabel C M)} (h : Telling chatId heads s)
    (ha : s.Agreed)
    (hc : StepsMeet (linkStep am chatId) (fun s l => completes am chatId s l = true) s ls)
    (hup : ∀ l ∈ ls, l.KeepsLink) (hr : run (linkStep am chatId) s ls = some s') : s'.Agreed := by
  have hboth : StepsMeet (linkStep am chatId) (fun s l => completes am chatId s l = true ∧ l.KeepsLink) s ls := by
    refine stepsMeet_iff_split.mpr (fun pre l post he u hu => ⟨stepsMeet_iff_split.mp hc pre l post he u hu,?_⟩)
    exact hup l (he ▸ List.mem_append_right pre List.mem_cons_self)
  have hkeeps : ∀ u l v, Telling chatId heads u ∧ u.Agreed → completes am chatId u l = true ∧ l.KeepsLink →
      linkStep am chatId u l = some v → Telling chatId heads v ∧ v.Agreed := by
    intro u l v hu hl hst
    exact ⟨linkStep_telling chatId hu.1 hl.1 hst,linkStep_agreed chatId hu.1 hu.2 hl.2 hl.1 hst⟩
  exact (run_invariant_of_meets hkeeps hr ⟨h,ha⟩ hboth).2

/-- Since the last loss of the link, one side has been told that it is connected, and no
message is on its way: both sides show and store one document, with every change that was
made at either, before or after the losses. -/
theorem silence_means_convergence (heads : HeadsAnnounced view) (chatId : I) {t : Side → Tables I C}
    (hn : ∀ i, (t i).chats chatId = none) (hl : ∀ i, (t i).selectLog chatId = [])
    {before after : List (SyncLinkLabel C M)} {i : Side} {s : SyncPair I C S M}
    (h : run (linkStep am chatId) (start t) (before++.pair (.handle i (.connStateChanged true))::after) = some s)
    (hc : StepsMeet (linkStep am chatId) (fun s l => completes am chatId s l = true) (start t)
      (before++.pair (.handle i (.connStateChanged true))::after))
    (hup : ∀ l ∈ after, l.KeepsLink) (hq : ∀ j x, some x ∉ s.inFlight j) :
    ∃ doc, (∀ j, (∃ m, (s.actor j).memory = some m ∧ m.doc.doc = doc) ∧
        (s.actor j).tables.stored chatId = doc) ∧
      ∀ j msg c ok, .pair (.handle j (.localSend msg (some c) ok)) ∈ before++after → c ∈ doc := by
  have hstart : Telling chatId heads (start t) := start_telling chatId hn hl
  obtain ⟨hend,-⟩ := run_telling chatId hstart hc h
  have hmade : ∀ j msg c ok, .pair (.handle j (.localSend msg (some c) ok)) ∈ before++after →
      c ∈ (s.actor j).tables.stored chatId := by
    intro j msg c ok hmem
    rcases List.mem_append.mp hmem with hb | ha
    · exact run_made chatId hstart hc h (List.mem_append_left _ hb)
    · exact run_made chatId hstart hc h (List.mem_append_right _ (List.mem_cons_of_mem _ ha))
  rw [run_append] at h
  obtain ⟨u,hu,hrest⟩ := Option.bind_eq_some_iff.mp h
  obtain ⟨v,hv,hpost⟩ := run_cons hrest
  obtain ⟨hcpre,hchere,hcpost⟩ := stepsMeet_append hu hc
  obtain ⟨htell,-⟩ := run_telling chatId hstart hcpre hu
  have hagreed : s.Agreed := run_agreed chatId (linkStep_telling chatId htell hchere hv)
    (connected_agreed chatId htell hv) (hcpost v hv) hup hpost
  obtain ⟨doc,hall⟩ := hagreed (fun j => lastMessage_eq_none.mpr (hq j))
  have hsaved : ∀ j, (s.actor j).tables.stored chatId = doc := by
    intro j
    obtain ⟨m,hm,rfl⟩ := hall j
    exact (hend.current j).saved m hm
  refine ⟨doc,fun j => ⟨hall j,hsaved j⟩,fun j msg c ok hmem => ?_⟩
  rw [← hsaved j]
  exact hmade j msg c ok hmem

/-- The left side's message is lost with the connection, and the right side crashes. -/
def messageLost : List (SyncLinkLabel Nat Session.Message) :=
  [.reopen .left [true,true] 0,.reopen .right [true,true] 0,.pair (.handle .left (.connStateChanged true)),
    .pair (.handle .left (.localSend ⟨"m1","A",.text "hello",1,1⟩ (some 1) true)),.lost,.crash .right,
    .reopen .right [true,true] 0]

/-- Both are connected again, and the frames of either side arrive in turn. -/
def exchanged : List (SyncLinkLabel Nat Session.Message) :=
  .pair (.handle .right (.connStateChanged true))::
    (List.replicate 3 [.pair (.deliver .right true [] 0),.pair (.deliver .left true [] 0)]).flatten

theorem silence_means_convergence_after_loss :
    ∃ s, run (linkStep Session.automerge ()) (start (fun _ => Tables.empty))
        (messageLost++.pair (.handle .left (.connStateChanged true))::exchanged) = some s ∧
      ∃ doc, (∀ j, (∃ m, (s.actor j).memory = some m ∧ m.doc.doc = doc) ∧
        (s.actor j).tables.stored () = doc) ∧ 1 ∈ doc := by
  have hquiet : (run (linkStep Session.automerge ()) (start (fun _ => Tables.empty))
      (messageLost++.pair (.handle .left (.connStateChanged true))::exchanged)).any
        (fun s => (lastMessage (s.inFlight .left)).isNone && (lastMessage (s.inFlight .right)).isNone) = true := by
    decide +kernel
  obtain ⟨s,hs,hq⟩ := (Option.any_eq_true _ _).mp hquiet
  obtain ⟨hleft,hright⟩ := Bool.and_eq_true_iff.mp hq
  have hsilent : ∀ j x, some x ∉ s.inFlight j := by
    intro j
    refine lastMessage_eq_none.mp ?_
    cases j with
    | left => exact Option.isNone_iff_eq_none.mp hleft
    | right => exact Option.isNone_iff_eq_none.mp hright
  have hup : ∀ l ∈ exchanged, l.KeepsLink := by
    simp [exchanged,SyncLinkLabel.KeepsLink]
  obtain ⟨doc,hall,hmade⟩ := silence_means_convergence sessionHeads () (fun _ => rfl) (fun _ => rfl) hs
    (stepsMeet_of_pass (fun _ _ => id) (by decide +kernel)) hup hsilent
  refine ⟨s,hs,doc,hall,hmade .left ⟨"m1","A",.text "hello",1,1⟩ 1 true ?_⟩
  simp [messageLost]

end SyncPair
end GossipCore.Manager
