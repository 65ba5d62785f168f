import Mathlib.Data.List.Nodup

/-! A list kept by adding what is not known yet by its key. Whatever repetitions it is
told, and in whatever order, it holds each element once. -/
namespace GossipCore.Base
variable {α κ : Type} [DecidableEq κ] (key : α → κ)

def addNew (xs : List α) (x : α) : List α := if xs.any (fun y => key y = key x) then xs else xs++[x]

def addAll (xs batch : List α) : List α := batch.foldl (addNew key) xs

section
variable {key}

theorem mem_addNew {xs : List α} {x y : α} (hinj : ∀ z ∈ xs, key z = key x → z = x) :
    y ∈ addNew key xs x ↔ y ∈ xs ∨ y = x := by
  unfold addNew
  split
  · rename_i hany
    obtain ⟨z,hz,hkey⟩ := List.any_eq_true.mp hany
    have hzx := hinj z hz (of_decide_eq_true hkey)
    refine ⟨Or.inl,fun h => h.elim id (fun hy => ?_)⟩
    rw [hy,← hzx]
    exact hz
  · rw [List.mem_append,List.mem_singleton]

theorem nodup_addNew {xs : List α} (h : (xs.map key).Nodup) (x : α) : ((addNew key xs x).map key).Nodup := by
  unfold addNew
  split
  · exact h
  · rename_i hany
    rw [List.map_append,List.map_singleton]
    refine List.nodup_append.mpr ⟨h,List.nodup_singleton _,?_⟩
    rintro k hk k' hk' rfl
    obtain ⟨y,hy,rfl⟩ := List.mem_map.mp hk
    exact hany (List.any_eq_true.mpr ⟨y,hy,decide_eq_true (List.mem_singleton.mp hk')⟩)

theorem nodup_addAll {xs : List α} (h : (xs.map key).Nodup) (batch : List α) :
    ((addAll key xs batch).map key).Nodup := by
  induction batch generalizing xs with
  | nil => exact h
  | cons x batch ih => exact ih (nodup_addNew h x)

/-- As long as the key tells all elements apart, nothing is left out and nothing is made up. -/
theorem mem_addAll (all : α → Prop) (hinj : ∀ a b, all a → all b → key a = key b → a = b) {xs batch : List α}
    (hxs : ∀ x ∈ xs, all x) (hbatch : ∀ x ∈ batch, all x) {y : α} :
    y ∈ addAll key xs batch ↔ y ∈ xs ∨ y ∈ batch := by
  induction batch generalizing xs with
  | nil => simp [addAll]
  | cons x batch ih =>
    have hx := hbatch x List.mem_cons_self
    have hadd : ∀ {z}, z ∈ addNew key xs x ↔ z ∈ xs ∨ z = x :=
      mem_addNew (fun z hz hk => hinj z x (hxs z hz) hx hk)
    have hxs' : ∀ z ∈ addNew key xs x, all z := fun z hz => (hadd.mp hz).elim (hxs z) (fun he => he ▸ hx)
    rw [addAll,List.foldl_cons,← addAll,ih hxs' (fun z hz => hbatch z (List.mem_cons_of_mem x hz)),hadd,
      List.mem_cons,or_assoc]

end
end GossipCore.Base
