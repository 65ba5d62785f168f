import Mathlib.Data.Finset.Max
import Mathlib.Data.Finset.Union

/-! Finite histories of changes that name their dependencies. A change can only
name changes that existed before it, which the rank records. -/
namespace GossipCore.Base

structure ChangeGraph (C : Type) where
  deps : C → Finset C
  rank : C → Nat
  rank_lt : ∀ c, ∀ p ∈ deps c, rank p < rank c

namespace ChangeGraph
variable {C : Type} [DecidableEq C] (G : ChangeGraph C)

/-- The changes reached from c along at most n dependencies. -/
def ancestorsWithin : Nat → C → Finset C
  | 0, c => {c}
  | n+1, c => insert c ((G.deps c).biUnion (ancestorsWithin n))

/-- A change and everything it depends on, directly or not. Ranks fall along
dependencies, so the rank of c bounds the way. -/
def ancestors (c : C) : Finset C := G.ancestorsWithin (G.rank c) c

def ancestorsOf (hs : Finset C) : Finset C := hs.biUnion G.ancestors

def Closed (d : Finset C) : Prop := ∀ c ∈ d, G.deps c ⊆ d

instance (d : Finset C) : Decidable (G.Closed d) := inferInstanceAs (Decidable (∀ c ∈ d, _))

/-- The changes that nothing else in the set depends on. -/
def heads (d : Finset C) : Finset C := d.filter (fun c => ∀ x ∈ d, c ∉ G.deps x)

/-- The changes whose whole past is present. The others wait in a queue. -/
def ready (d : Finset C) : Finset C := d.filter (fun c => G.ancestors c ⊆ d)

private theorem ancestorsWithin_eq {m n : Nat} {c : C} (hm : G.rank c ≤ m) (hn : G.rank c ≤ n) :
    G.ancestorsWithin m c = G.ancestorsWithin n c := by
  have hroot : ∀ {c : C}, G.rank c ≤ 0 → G.deps c = ∅ := by
    intro c hc
    refine Finset.eq_empty_of_forall_notMem (fun p hp => ?_)
    exact Nat.not_lt_zero _ (Nat.lt_of_lt_of_le (G.rank_lt c p hp) hc)
  induction m generalizing n c with
  | zero =>
    cases n with
    | zero => rfl
    | succ n => simp [ancestorsWithin,hroot hm]
  | succ m ih =>
    cases n with
    | zero => simp [ancestorsWithin,hroot hn]
    | succ n =>
      simp only [ancestorsWithin]
      refine congrArg (insert c) (Finset.biUnion_congr rfl (fun p hp => ?_))
      have hlt := G.rank_lt c p hp
      exact ih (by omega) (by omega)

theorem mem_ancestors {x c : C} :
    x ∈ G.ancestors c ↔ x = c ∨ ∃ p ∈ G.deps c, x ∈ G.ancestors p := by
  have hstep : G.ancestors c = insert c ((G.deps c).biUnion G.ancestors) := by
    rw [ancestors,G.ancestorsWithin_eq (Nat.le_refl _) (Nat.le_succ _),ancestorsWithin]
    refine congrArg (insert c) (Finset.biUnion_congr rfl (fun p hp => ?_))
    exact G.ancestorsWithin_eq (G.rank_lt c p hp).le (Nat.le_refl _)
  rw [hstep]
  simp

theorem self_mem_ancestors (c : C) : c ∈ G.ancestors c := G.mem_ancestors.mpr (Or.inl rfl)

theorem rank_le_of_ancestor {x c : C} (h : x ∈ G.ancestors c) : G.rank x ≤ G.rank c := by
  induction hn : G.rank c using Nat.strong_induction_on generalizing c with
  | _ n ih =>
    subst hn
    rcases G.mem_ancestors.mp h with rfl | ⟨p,hp,hx⟩
    · exact Nat.le_refl _
    · exact (ih _ (G.rank_lt c p hp) hx rfl).trans (G.rank_lt c p hp).le

theorem ancestors_subset_of_closed {d : Finset C} (h : G.Closed d) {c : C} (hc : c ∈ d) :
    G.ancestors c ⊆ d := by
  induction hn : G.rank c using Nat.strong_induction_on generalizing c with
  | _ n ih =>
    intro x hx
    rcases G.mem_ancestors.mp hx with rfl | ⟨p,hp,hx⟩
    · exact hc
    · exact ih _ (hn ▸ G.rank_lt c p hp) (h c hc hp) rfl hx

theorem heads_subset (d : Finset C) : G.heads d ⊆ d := Finset.filter_subset _ _

theorem closed_union {d e : Finset C} (hd : G.Closed d) (he : G.Closed e) : G.Closed (d ∪ e) := by
  intro c hc
  rcases Finset.mem_union.mp hc with hc | hc
  · exact (hd c hc).trans Finset.subset_union_left
  · exact (he c hc).trans Finset.subset_union_right

theorem closed_insert {d : Finset C} (h : G.Closed d) {c : C} (hc : G.deps c ⊆ d) :
    G.Closed (insert c d) := by
  intro x hx
  rcases Finset.mem_insert.mp hx with rfl | hx
  · exact hc.trans (Finset.subset_insert _ _)
  · exact (h x hx).trans (Finset.subset_insert _ _)

/-- Among the members above a change, one of greatest rank is a head. -/
theorem exists_head_above {d : Finset C} {c : C} (hc : c ∈ d) :
    ∃ h ∈ G.heads d, c ∈ G.ancestors h := by
  have hne : (d.filter (fun x => c ∈ G.ancestors x)).Nonempty :=
    ⟨c,Finset.mem_filter.mpr ⟨hc,G.self_mem_ancestors c⟩⟩
  obtain ⟨h,hh,hmax⟩ := Finset.exists_max_image _ G.rank hne
  obtain ⟨hd,ha⟩ := Finset.mem_filter.mp hh
  refine ⟨h,Finset.mem_filter.mpr ⟨hd,?_⟩,ha⟩
  intro x hx hdep
  have hle := hmax x (Finset.mem_filter.mpr ⟨hx,G.mem_ancestors.mpr (Or.inr ⟨h,hdep,ha⟩)⟩)
  have hlt := G.rank_lt x h hdep
  omega

/-- A change on top of a history is not part of it. -/
theorem notMem_of_deps_heads {d : Finset C} {c : C} (h : G.deps c = G.heads d) : c ∉ d := by
  intro hc
  obtain ⟨x,hx,-⟩ := G.exists_head_above hc
  have hnone := (Finset.mem_filter.mp hx).2 c hc
  rw [h] at hnone
  exact hnone hx

/-- A closed history is recovered from its heads. -/
theorem ancestorsOf_heads {d : Finset C} (h : G.Closed d) : G.ancestorsOf (G.heads d) = d := by
  ext c
  simp only [ancestorsOf,Finset.mem_biUnion]
  constructor
  · rintro ⟨x,hx,hc⟩
    exact G.ancestors_subset_of_closed h (G.heads_subset d hx) hc
  · intro hc
    exact G.exists_head_above hc

theorem ready_eq_of_closed {d : Finset C} (h : G.Closed d) : G.ready d = d :=
  Finset.filter_true_of_mem (fun _ hc => G.ancestors_subset_of_closed h hc)

end ChangeGraph
end GossipCore.Base
