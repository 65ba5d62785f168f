import Mathlib.Tactic.Common

/-! Finite runs of a partial step function over a list of labels. A label that
the state does not allow ends the run with none. -/
namespace GossipCore.Base
variable {σ ℓ : Type}

def run (step : σ → ℓ → Option σ) : σ → List ℓ → Option σ
  | s, [] => some s
  | s, l::ls => (step s l).bind (fun t => run step t ls)

/-- Every step of the run from s is taken in a state where the condition holds
of the label. Labels after a refused one are not constrained. -/
def StepsMeet (step : σ → ℓ → Option σ) (cond : σ → ℓ → Prop) : σ → List ℓ → Prop
  | _, [] => True
  | s, l::ls => cond s l ∧ ∀ t, step s l = some t → StepsMeet step cond t ls

theorem run_cons {step : σ → ℓ → Option σ} {s u : σ} {l : ℓ} {ls : List ℓ}
    (h : run step s (l::ls) = some u) : ∃ t, step s l = some t ∧ run step t ls = some u :=
  Option.bind_eq_some_iff.mp h

theorem run_append (step : σ → ℓ → Option σ) (s : σ) (ls ms : List ℓ) :
    run step s (ls++ms) = (run step s ls).bind (fun t => run step t ms) := by
  induction ls generalizing s with
  | nil => rfl
  | cons l ls ih =>
    simp only [List.cons_append,run]
    cases step s l with
    | none => rfl
    | some t => exact ih t

/-- A schedule that repeats one round takes its steps round by round. -/
theorem run_rounds {step : σ → ℓ → Option σ} {round : List ℓ} {n : Nat} (f : Nat → σ)
    (h : ∀ k < n, run step (f k) round = some (f (k+1))) :
    run step (f 0) (List.replicate n round).flatten = some (f n) := by
  induction n with
  | zero => rfl
  | succ n ih =>
    have hrest := ih (fun k hk => h k (Nat.lt_succ_of_lt hk))
    rw [List.replicate_succ',List.flatten_concat,run_append,hrest]
    exact h n (Nat.lt_succ_self n)

/-- What holds at the start and is kept by every step holds at the end. -/
theorem run_invariant {step : σ → ℓ → Option σ} {inv : σ → Prop}
    (keeps : ∀ s l t, inv s → step s l = some t → inv t) {s t : σ} {ls : List ℓ}
    (h : run step s ls = some t) (hs : inv s) : inv t := by
  induction ls generalizing s with
  | nil => cases h; exact hs
  | cons l ls ih =>
    obtain ⟨u,hu,hr⟩ := run_cons h
    exact ih hr (keeps s l u hs hu)

/-- What does not hold at the start and holds at the end begins to hold at some step. -/
theorem run_begins {step : σ → ℓ → Option σ} {p : σ → Prop} {s t : σ} {ls : List ℓ}
    (h : run step s ls = some t) (hs : ¬ p s) (ht : p t) :
    ∃ before l after u v, ls = before++l::after ∧ run step s before = some u ∧ ¬ p u ∧
      step u l = some v ∧ p v ∧ run step v after = some t := by
  induction ls generalizing s with
  | nil =>
    cases h
    exact absurd ht hs
  | cons l ls ih =>
    obtain ⟨w,hw,hr⟩ := run_cons h
    by_cases hp : p w
    · exact ⟨[],l,ls,s,w,rfl,rfl,hs,hw,hp,hr⟩
    · obtain ⟨before,m,after,u,v,rfl,hu,hno,hstep,hv,hrest⟩ := ih hr hp
      refine ⟨l::before,m,after,u,v,rfl,?_,hno,hstep,hv,hrest⟩
      rw [run,hw]
      exact hu

/-- The same for steps that are only taken under a condition. -/
theorem run_invariant_of_meets {step : σ → ℓ → Option σ} {inv : σ → Prop} {cond : σ → ℓ → Prop}
    (keeps : ∀ s l t, inv s → cond s l → step s l = some t → inv t) {s t : σ} {ls : List ℓ}
    (h : run step s ls = some t) (hs : inv s) (hc : StepsMeet step cond s ls) : inv t := by
  induction ls generalizing s with
  | nil => cases h; exact hs
  | cons l ls ih =>
    obtain ⟨u,hu,hr⟩ := run_cons h
    exact ih hr (keeps s l u hs hc.1 hu) (hc.2 u hu)

/-- An invariant together with a condition on the steps relates the two ends of
a run by every reflexive and transitive relation that single steps respect. -/
theorem run_related {step : σ → ℓ → Option σ} {inv : σ → Prop} {cond : σ → ℓ → Prop}
    (rel : σ → σ → Prop) (refl : ∀ s, rel s s) (trans : ∀ s t u, rel s t → rel t u → rel s u)
    (keeps : ∀ s l t, inv s → cond s l → step s l = some t → inv t ∧ rel s t)
    {s t : σ} {ls : List ℓ} (h : run step s ls = some t) (hs : inv s)
    (hc : StepsMeet step cond s ls) : inv t ∧ rel s t := by
  induction ls generalizing s with
  | nil => cases h; exact ⟨hs,refl _⟩
  | cons l ls ih =>
    obtain ⟨u,hu,hr⟩ := run_cons h
    obtain ⟨hi,hrel⟩ := keeps s l u hs hc.1 hu
    obtain ⟨hj,hrest⟩ := ih hr hi (hc.2 u hu)
    exact ⟨hj,trans s u t hrel hrest⟩

/-- The condition is met along a run exactly when it holds before each label. -/
theorem stepsMeet_iff_split {step : σ → ℓ → Option σ} {cond : σ → ℓ → Prop} {s : σ} {ls : List ℓ} :
    StepsMeet step cond s ls ↔
      ∀ pre l post, ls = pre++l::post → ∀ t, run step s pre = some t → cond t l := by
  induction ls generalizing s with
  | nil => exact ⟨fun _ pre l post h => by cases pre <;> simp at h,fun _ => trivial⟩
  | cons m ls ih =>
    constructor
    · rintro ⟨hm,hrest⟩ pre l post h t ht
      cases pre with
      | nil =>
        cases h
        cases ht
        exact hm
      | cons k pre =>
        cases h
        obtain ⟨u,hu,hr⟩ := run_cons ht
        exact ih.mp (hrest u hu) pre l post rfl t hr
    · intro h
      refine ⟨h [] m ls rfl s rfl,fun u hu => ih.mpr ?_⟩
      intro pre l post he t ht
      refine h (m::pre) l post (he ▸ rfl) t ?_
      rw [run,hu]
      exact ht

/-- When the condition decides at each step whether what is good stays so, all states
of a run are good exactly when its steps meet the condition. -/
theorem prefixes_good_iff {step : σ → ℓ → Option σ} {inv good : σ → Prop} {cond : σ → ℓ → Prop} {ls : List ℓ}
    (keeps : ∀ l ∈ ls, ∀ s t, inv s → step s l = some t → inv t)
    (decides : ∀ l ∈ ls, ∀ s t, inv s → good s → step s l = some t → (good t ↔ cond s l))
    {s u : σ} (h : run step s ls = some u) (hi : inv s) (hg : good s) :
    (∀ pre post t, ls = pre++post → run step s pre = some t → good t) ↔ StepsMeet step cond s ls := by
  induction ls generalizing s with
  | nil =>
    refine ⟨fun _ => trivial,fun _ pre post t he ht => ?_⟩
    obtain ⟨rfl,-⟩ := List.append_eq_nil_iff.mp he.symm
    cases ht
    exact hg
  | cons l ls ih =>
    obtain ⟨v,hv,hr⟩ := run_cons h
    have hdecides := decides l List.mem_cons_self s v hi hg hv
    have hrest := fun hgv => ih (fun m hm => keeps m (List.mem_cons_of_mem l hm))
      (fun m hm => decides m (List.mem_cons_of_mem l hm)) hr (keeps l List.mem_cons_self s v hi hv) hgv
    constructor
    · intro hall
      have hgv : good v := hall [l] ls v rfl (by simp [run,hv])
      refine ⟨hdecides.mp hgv,fun w hw => ?_⟩
      cases hv.symm.trans hw
      refine (hrest hgv).mp (fun pre post t he ht => hall (l::pre) post t (he ▸ rfl) ?_)
      rw [run,hv]
      exact ht
    · rintro ⟨hc,hmeet⟩ pre post t he ht
      cases pre with
      | nil =>
        cases ht
        exact hg
      | cons m pre =>
        cases he
        obtain ⟨w,hw,hpre⟩ := run_cons ht
        cases hv.symm.trans hw
        exact (hrest (hdecides.mpr hc)).mpr (hmeet v hv) pre post t rfl hpre

theorem stepsMeet_of_forall_mem {step : σ → ℓ → Option σ} {cond : σ → ℓ → Prop} {s : σ} {ls : List ℓ}
    (h : ∀ l ∈ ls, ∀ t, cond t l) : StepsMeet step cond s ls := by
  refine stepsMeet_iff_split.mpr (fun pre l post he t _ => h l ?_ t)
  rw [he]
  exact List.mem_append_right pre List.mem_cons_self

/-- A test of every step of the run from s. -/
def stepsPass (step : σ → ℓ → Option σ) (test : σ → ℓ → Bool) : σ → List ℓ → Bool
  | _, [] => true
  | s, l::ls => test s l && (step s l).all (fun t => stepsPass step test t ls)

theorem stepsMeet_of_pass {step : σ → ℓ → Option σ} {cond : σ → ℓ → Prop} {test : σ → ℓ → Bool}
    (h : ∀ s l, test s l = true → cond s l) {s : σ} {ls : List ℓ} (hp : stepsPass step test s ls = true) :
    StepsMeet step cond s ls := by
  induction ls generalizing s with
  | nil => trivial
  | cons l ls ih =>
    obtain ⟨htest,hrest⟩ := Bool.and_eq_true_iff.mp hp
    refine ⟨h s l htest,fun t ht => ih ?_⟩
    rw [ht] at hrest
    exact hrest

theorem stepsMeet_append {step : σ → ℓ → Option σ} {cond : σ → ℓ → Prop} {s t : σ}
    {ls ms : List ℓ} (hr : run step s ls = some t) (h : StepsMeet step cond s (ls++ms)) :
    StepsMeet step cond s ls ∧ StepsMeet step cond t ms := by
  induction ls generalizing s with
  | nil => cases hr; exact ⟨trivial,h⟩
  | cons l ls ih =>
    obtain ⟨u,hu,hrest⟩ := run_cons hr
    obtain ⟨hl,ht⟩ := h
    refine ⟨⟨hl,?_⟩,(ih hrest (ht u hu)).2⟩
    intro v hv
    cases hu.symm.trans hv
    exact (ih hrest (ht u hu)).1

theorem StepsMeet.append {step : σ → ℓ → Option σ} {cond : σ → ℓ → Prop} {s t : σ} {ls ms : List ℓ}
    (hr : run step s ls = some t) (h : StepsMeet step cond s ls) (h' : StepsMeet step cond t ms) :
    StepsMeet step cond s (ls++ms) := by
  induction ls generalizing s with
  | nil => cases hr; exact h'
  | cons l ls ih =>
    obtain ⟨u,hu,hrest⟩ := run_cons hr
    refine ⟨h.1,fun v hv => ?_⟩
    cases hu.symm.trans hv
    exact ih hrest (h.2 u hu)

end GossipCore.Base
