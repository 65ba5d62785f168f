import GossipCore.Base.Runs
import Mathlib.Algebra.BigOperators.Group.Finset.Basic

/-! Labels that a system takes by itself, and a count that each of them lowers: such
runs end, and they end in a state where the system has nothing left to do. -/
namespace GossipCore.Base
variable {σ ℓ : Type} {step : σ → ℓ → Option σ} {internal : ℓ → Prop}

/-- No label of the system itself is possible. -/
def Quiet (step : σ → ℓ → Option σ) (internal : ℓ → Prop) (s : σ) : Prop :=
  ∀ l, internal l → step s l = none

/-- A run of such labels is no longer than the count at its start. -/
theorem run_length_le {inv : σ → Prop} {count : σ → Nat}
    (keeps : ∀ s l t, inv s → step s l = some t → inv t)
    (lowers : ∀ s l t, inv s → internal l → step s l = some t → count t < count s)
    {s t : σ} {ls : List ℓ} (h : run step s ls = some t) (hs : inv s) (hl : ∀ l ∈ ls, internal l) :
    ls.length+count t ≤ count s := by
  induction ls generalizing s with
  | nil =>
    cases h
    exact Nat.le_of_eq (Nat.zero_add _)
  | cons l ls ih =>
    obtain ⟨u,hu,hr⟩ := run_cons h
    have hlow := lowers s l u hs (hl l List.mem_cons_self) hu
    have hrest := ih hr (keeps s l u hs hu) (fun m hm => hl m (List.mem_cons_of_mem l hm))
    rw [List.length_cons]
    omega

/-- Every state of the invariant has a run of such labels to a quiet state. -/
theorem exists_run_quiet {inv : σ → Prop} {count : σ → Nat}
    (keeps : ∀ s l t, inv s → step s l = some t → inv t)
    (lowers : ∀ s l t, inv s → internal l → step s l = some t → count t < count s)
    (s : σ) (hs : inv s) :
    ∃ ls t, (∀ l ∈ ls, internal l) ∧ run step s ls = some t ∧ inv t ∧ Quiet step internal t := by
  induction hc : count s using Nat.strongRecOn generalizing s with
  | ind n ih =>
    by_cases hq : Quiet step internal s
    · exact ⟨[],s,by simp,rfl,hs,hq⟩
    · simp only [Quiet,not_forall] at hq
      obtain ⟨l,hl,hne⟩ := hq
      obtain ⟨u,hu⟩ := Option.ne_none_iff_exists'.mp hne
      have hlow := lowers s l u hs hl hu
      obtain ⟨ls,t,hls,hrun,ht,hquiet⟩ := ih (count u) (hc ▸ hlow) u (keeps s l u hs hu) rfl
      refine ⟨l::ls,t,List.forall_mem_cons.mpr ⟨hl,hls⟩,?_,ht,hquiet⟩
      rw [run,hu]
      exact hrun

/-- A sum over all parts of a system, one of which changes. -/
theorem sum_update_part {ι β : Type} [Fintype ι] [DecidableEq ι] (count : β → Nat) (parts : ι → β) (i : ι) (b : β) :
    ∑ j, count (Function.update parts i b j)+count (parts i) = ∑ j, count (parts j)+count b := by
  have hafter := Finset.add_sum_erase Finset.univ (fun j => count (Function.update parts i b j)) (Finset.mem_univ i)
  have hbefore := Finset.add_sum_erase Finset.univ (fun j => count (parts j)) (Finset.mem_univ i)
  have hrest : ∑ j ∈ Finset.univ.erase i, count (Function.update parts i b j) =
      ∑ j ∈ Finset.univ.erase i, count (parts j) := by
    refine Finset.sum_congr rfl (fun j hj => ?_)
    rw [Function.update_of_ne (Finset.ne_of_mem_erase hj)]
  rw [Function.update_self] at hafter
  rw [hrest] at hafter
  omega

end GossipCore.Base
