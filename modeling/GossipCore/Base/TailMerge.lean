import Mathlib.Data.List.DropRight
import Mathlib.Data.List.Nodup
import Mathlib.Data.List.Pairwise
import Mathlib.Data.List.Perm.Basic
import Mathlib.Data.List.Sort
import Mathlib.Tactic.Common

/-! The end of a merged list. A stable sort of several lists is compared with the sort of
their last entries only, and a list is put together again from its pages. -/
namespace GossipCore.Base

section Ends
variable {α : Type}

theorem rtake_of_length_le {l : List α} {k : Nat} (h : l.length ≤ k) : l.rtake k = l := by
  rw [List.rtake,Nat.sub_eq_zero_of_le h,List.drop_zero]

theorem rtake_append_of_le {l m : List α} {k : Nat} (h : k ≤ m.length) : (l++m).rtake k = m.rtake k := by
  rw [List.rtake,List.length_append,Nat.add_sub_assoc h,List.drop_append,Nat.add_sub_cancel_left,
    List.drop_of_length_le (Nat.le_add_right _ _),List.nil_append]
  rfl

theorem length_rtake (l : List α) (k : Nat) : (l.rtake k).length = min k l.length := by
  rw [List.rtake,List.length_drop]
  omega

/-- A page that ends offset entries before the end lies within the last offset+limit. -/
theorem page_of_rtake_eq {l m : List α} {offset limit : Nat}
    (h : l.rtake (offset+limit) = m.rtake (offset+limit)) :
    (l.rdrop offset).rtake limit = (m.rdrop offset).rtake limit := by
  have hpage : ∀ xs : List α, (xs.rdrop offset).rtake limit =
      (((xs.rtake (offset+limit)).reverse.drop offset).take limit).reverse := by
    intro xs
    rw [List.rdrop_eq_reverse_drop_reverse,List.rtake_eq_reverse_take_reverse,List.reverse_reverse,
      List.rtake_eq_reverse_take_reverse,List.reverse_reverse,List.drop_take,Nat.add_sub_cancel_left,
      List.take_take,Nat.min_self]
  rw [hpage l,hpage m,h]

/-- The pages of size k, from the n-th down to the first, are the last n*k entries. -/
theorem flatten_pages (l : List α) (k n : Nat) :
    ((List.range n).reverse.map (fun i => (l.rdrop (i*k)).rtake k)).flatten = l.rtake (n*k) := by
  induction n with
  | zero => simp
  | succ n ih =>
    rw [List.range_succ,List.reverse_append,List.reverse_singleton,List.singleton_append,List.map_cons,
      List.flatten_cons,ih]
    have hsplit : ∀ r : List α, r.take (n*k+k) = r.take (n*k)++(r.drop (n*k)).take k := by
      intro r
      rw [List.take_add]
    rw [List.rdrop_eq_reverse_drop_reverse,List.rtake_eq_reverse_take_reverse,List.reverse_reverse,
      List.rtake_eq_reverse_take_reverse,List.rtake_eq_reverse_take_reverse,Nat.add_mul,Nat.one_mul,hsplit,
      List.reverse_append]

/-- The last k entries of each list, merged. -/
def mergedTails (le : α → α → Bool) (lists : List (List α)) (k : Nat) : List α :=
  ((lists.map (fun l => l.rtake k)).flatten).mergeSort le

/-- Tails that are long enough are the lists themselves. -/
theorem mergedTails_of_length_le {le : α → α → Bool} {lists : List (List α)} {k : Nat}
    (h : lists.flatten.length ≤ k) : mergedTails le lists k = lists.flatten.mergeSort le := by
  rw [mergedTails,List.map_congr_left (g := id) (fun l hl => ?_),List.map_id]
  exact rtake_of_length_le ((List.sublist_flatten_of_mem hl).length_le.trans h)

/-- The tails of several lists together have k entries, unless there are fewer at all. -/
theorem le_length_mergedTails (le : α → α → Bool) (lists : List (List α)) (k : Nat) :
    min k lists.flatten.length ≤ (mergedTails le lists k).length := by
  rw [mergedTails,List.length_mergeSort]
  induction lists with
  | nil => simp
  | cons l lists ih =>
    rw [List.map_cons,List.flatten_cons,List.flatten_cons,List.length_append,List.length_append,length_rtake]
    omega

end Ends

section Stable
variable {α : Type} {le : α → α → Bool}

private theorem append_eq_of_split {p : α → Bool} {a b c d : List α} (h : a++b = c++d)
    (ha : ∀ x ∈ a, p x = false) (hb : ∀ x ∈ b, p x = true) (hc : ∀ x ∈ c, p x = false)
    (hd : ∀ x ∈ d, p x = true) : a = c ∧ b = d := by
  have hfirst : ∀ u v : List α, (∀ x ∈ u, p x = false) → (∀ x ∈ v, p x = true) →
      (u++v).filter (fun x => !p x) = u := by
    intro u v hu hv
    rw [List.filter_append,List.filter_eq_self.mpr (fun x hx => by simp [hu x hx]),
      List.filter_eq_nil_iff.mpr (fun x hx => by simp [hv x hx]),List.append_nil]
  have hac : a = c := by rw [← hfirst a b ha hb,h,hfirst c d hc hd]
  subst hac
  exact ⟨rfl,List.append_cancel_left h⟩

variable (trans : ∀ a b c, le a b = true → le b c = true → le a c = true)
  (total : ∀ a b, (le a b || le b a) = true)
include trans total

/-- A stable sort puts its first element behind the smaller ones and before the rest. -/
private theorem mergeSort_head (a : α) (l : List α) : ∃ m₁ m₂, (a::l).mergeSort le = m₁++a::m₂ ∧
    l.mergeSort le = m₁++m₂ ∧ (∀ b ∈ m₁, le a b = false) ∧ ∀ b ∈ m₂, le a b = true := by
  obtain ⟨m₁,m₂,hal,hl,hlt⟩ := List.mergeSort_cons trans total a l
  refine ⟨m₁,m₂,hal,hl,fun b hb => by simpa using hlt b hb,fun b hb => ?_⟩
  have hsorted := List.pairwise_mergeSort trans total (a::l)
  rw [hal] at hsorted
  exact (List.pairwise_cons.mp (List.pairwise_append.mp hsorted).2.1).1 b hb

/-- Taking one element out of the input takes it out of the sorted list. Behind it stand
at least the later elements that it is not greater than. -/
theorem mergeSort_append_cons (u : List α) (a : α) (v : List α) : ∃ m₁ m₂,
    (u++a::v).mergeSort le = m₁++a::m₂ ∧ (u++v).mergeSort le = m₁++m₂ ∧ v.countP (le a) ≤ m₂.length := by
  induction u with
  | nil =>
    obtain ⟨m₁,m₂,hal,hl,hlt,-⟩ := mergeSort_head trans total a v
    refine ⟨m₁,m₂,hal,hl,?_⟩
    have hzero : m₁.countP (le a) = 0 := List.countP_eq_zero.mpr (fun b hb => by simp [hlt b hb])
    have hperm := (List.mergeSort_perm v le).countP_eq (le a)
    rw [hl,List.countP_append,hzero,Nat.zero_add] at hperm
    exact hperm ▸ List.countP_le_length
  | cons x u ih =>
    obtain ⟨m₁,m₂,hwith,hwithout,hcount⟩ := ih
    obtain ⟨p₁,p₂,hp,hpl,hp₁,hp₂⟩ := mergeSort_head trans total x (u++a::v)
    obtain ⟨q₁,q₂,hq,hql,hq₁,hq₂⟩ := mergeSort_head trans total x (u++v)
    rw [hwith] at hpl
    rw [hwithout] at hql
    rw [List.cons_append,List.cons_append,hp,hq]
    -- x goes before a or after it, in the same place of both lists
    rcases List.append_eq_append_iff.mp hpl with ⟨c,rfl,hc⟩ | ⟨c,rfl,rfl⟩
    · cases c with
      | nil =>
        rw [List.nil_append] at hc
        subst hc
        obtain ⟨rfl,rfl⟩ := append_eq_of_split hql.symm hq₁ hq₂ (by simpa using hp₁)
          (fun b hb => hp₂ b (List.mem_cons_of_mem a hb))
        exact ⟨q₁++[x],q₂,by simp,by simp,hcount⟩
      | cons y c =>
        obtain ⟨hay,hm₂⟩ := List.cons.inj hc
        subst hay
        have hmid : m₂ = c++p₂ := hm₂
        rw [hmid,← List.append_assoc] at hql
        rw [hmid] at hcount
        obtain ⟨rfl,rfl⟩ := append_eq_of_split hql.symm hq₁ hq₂
          (fun b hb => hp₁ b (by simp at hb ⊢; tauto)) hp₂
        refine ⟨m₁,c++x::q₂,by simp,by simp,hcount.trans ?_⟩
        simp only [List.length_append,List.length_cons]
        exact Nat.le_succ _
    · rw [List.append_assoc] at hql
      obtain ⟨rfl,rfl⟩ := append_eq_of_split hql.symm hq₁ hq₂ hp₁
        (fun b hb => hp₂ b (by simp at hb ⊢; tauto))
      exact ⟨q₁++x::c,m₂,by simp,by simp,hcount⟩

private theorem rtake_mergeSort_cons {k : Nat} (u : List α) {a : α} {v : List α} (h : k ≤ v.countP (le a)) :
    ((u++a::v).mergeSort le).rtake k = ((u++v).mergeSort le).rtake k := by
  obtain ⟨m₁,m₂,hwith,hwithout,hcount⟩ := mergeSort_append_cons trans total u a v
  have hk : k ≤ m₂.length := h.trans hcount
  rw [hwith,hwithout,rtake_append_of_le hk,← List.singleton_append,← List.append_assoc,rtake_append_of_le hk]

/-- Of one sorted part only the last k entries matter for the last k of the whole. -/
private theorem rtake_mergeSort_part {k : Nat} (u : List α) {l : List α} (v : List α)
    (h : l.Pairwise (fun a b => le a b = true)) :
    ((u++(l.rtake k++v)).mergeSort le).rtake k = ((u++(l++v)).mergeSort le).rtake k := by
  induction l with
  | nil => rw [List.rtake_nil]
  | cons a l ih =>
    obtain ⟨ha,hl⟩ := List.pairwise_cons.mp h
    rcases Nat.lt_or_ge l.length k with hshort | hlong
    · have hall : (a::l).rtake k = a::l := rtake_of_length_le hshort
      rw [hall]
    · have hcount : k ≤ (l++v).countP (le a) := by
        rw [List.countP_append,List.countP_eq_length.mpr ha]
        exact hlong.trans (Nat.le_add_right _ _)
      have htail : (a::l).rtake k = l.rtake k := rtake_append_of_le (l := [a]) hlong
      rw [htail,ih hl,List.cons_append,rtake_mergeSort_cons trans total u hcount]

/-- The last k entries of sorted lists, merged, end like the lists themselves. -/
theorem rtake_mergedTails {k : Nat} {lists : List (List α)}
    (h : ∀ l ∈ lists, l.Pairwise (fun a b => le a b = true)) :
    (mergedTails le lists k).rtake k = (lists.flatten.mergeSort le).rtake k := by
  have hfrom : ∀ u : List α, ((u++(lists.map (fun l => l.rtake k)).flatten).mergeSort le).rtake k =
      ((u++lists.flatten).mergeSort le).rtake k := by
    induction lists with
    | nil => exact fun _ => rfl
    | cons l lists ih =>
      intro u
      rw [List.map_cons,List.flatten_cons,List.flatten_cons,← List.append_assoc,
        ih (fun m hm => h m (List.mem_cons_of_mem l hm)),List.append_assoc,
        rtake_mergeSort_part trans total u _ (h l List.mem_cons_self)]
  exact hfrom []

/-- One more element goes to its place in the sorted list, where the order tells the
elements apart. -/
theorem mergeSort_eq_orderedInsert {a : α} {l l' : List α} (hperm : l'.Perm (a::l))
    (antisymm : ∀ x ∈ l', ∀ y ∈ l', le x y = true → le y x = true → x = y) :
    l'.mergeSort le = (l.mergeSort le).orderedInsert (fun x y => le x y = true) a := by
  have : IsTrans α (fun x y => le x y = true) := ⟨trans⟩
  have : Std.Total (fun x y => le x y = true) := ⟨fun x y => by simpa using total x y⟩
  have hinsert : ((l.mergeSort le).orderedInsert (fun x y => le x y = true) a).Perm l' :=
    (List.perm_orderedInsert _ a _).trans (((List.mergeSort_perm l le).cons a).trans hperm.symm)
  have hsort := List.mergeSort_perm l' le
  refine List.Perm.eq_of_pairwise (fun x y hx hy => antisymm x (hsort.mem_iff.mp hx) y (hinsert.mem_iff.mp hy))
    (List.pairwise_mergeSort trans total l') ((List.pairwise_mergeSort trans total l).orderedInsert a _)
    (hsort.trans hinsert.symm)

end Stable

section Distinct
variable {α : Type} [DecidableEq α] {le : α → α → Bool} {lists : List (List α)}

/-- The lists hold distinct elements, and the order tells them apart. -/
structure StrictlyOrdered (le : α → α → Bool) (lists : List (List α)) : Prop where
  trans : ∀ a b c, le a b = true → le b c = true → le a c = true
  total : ∀ a b, (le a b || le b a) = true
  antisymm : ∀ a ∈ lists.flatten, ∀ b ∈ lists.flatten, le a b = true → le b a = true → a = b
  nodup : lists.flatten.Nodup

/-- Behind every element of a list come at most as many entries of that list as there are
greater elements in all lists together. -/
def TailsCover (le : α → α → Bool) (lists : List (List α)) : Prop :=
  ∀ l ∈ lists, ∀ pre a post, l = pre++a::post → post.length ≤ lists.flatten.countP (fun b => !le b a)

omit [DecidableEq α] in
private theorem StrictlyOrdered.count_greater (h : StrictlyOrdered le lists) {a : α} {m₁ m₂ : List α}
    (hs : lists.flatten.mergeSort le = m₁++a::m₂) : lists.flatten.countP (fun b => !le b a) = m₂.length := by
  have hperm := List.mergeSort_perm lists.flatten le
  have hsorted := List.pairwise_mergeSort h.trans h.total lists.flatten
  have hnodup := hperm.nodup_iff.mpr h.nodup
  have hmem : ∀ b ∈ m₁++a::m₂, b ∈ lists.flatten := fun b hb => hperm.mem_iff.mp (hs ▸ hb)
  rw [hs] at hsorted hnodup
  obtain ⟨-,hright,hcross⟩ := List.pairwise_append.mp hsorted
  have hbefore : m₁.countP (fun b => !le b a) = 0 := by
    refine List.countP_eq_zero.mpr (fun b hb => ?_)
    simp [hcross b hb a List.mem_cons_self]
  have hrefl : le a a = true := by simpa using h.total a a
  have hafter : m₂.countP (fun b => !le b a) = m₂.length := by
    refine List.countP_eq_length.mpr (fun b hb => ?_)
    have hab := (List.pairwise_cons.mp hright).1 b hb
    have hne : a ≠ b := by
      rintro rfl
      exact (List.nodup_cons.mp (List.nodup_append.mp hnodup).2.1).1 hb
    simp only [Bool.not_eq_true']
    refine Bool.eq_false_iff.mpr (fun hba => hne ?_)
    exact h.antisymm a (hmem a (by simp)) b (hmem b (by simp [hb])) hab hba
  rw [← hperm.countP_eq,hs,List.countP_append,List.countP_cons,hbefore,hafter,hrefl]
  simp

omit [DecidableEq α] in
private theorem mem_rtake_of_split {pre post : List α} {a : α} {k : Nat} (h : post.length < k) :
    a ∈ (pre++a::post).rtake k := by
  rw [List.rtake,List.drop_append]
  refine List.mem_append_right _ ?_
  rw [List.length_append,List.length_cons]
  have hzero : pre.length+(post.length+1)-k-pre.length = 0 := by omega
  rw [hzero]
  exact List.mem_cons_self

omit [DecidableEq α] in
private theorem StrictlyOrdered.eq_of_mem (h : StrictlyOrdered le lists) {l l' : List α} (hl : l ∈ lists)
    (hl' : l' ∈ lists) {a : α} (ha : a ∈ l) (ha' : a ∈ l') : l = l' := by
  by_contra hne
  have : Std.Symm (List.Disjoint (α := α)) := ⟨fun _ _ hd _ hb hc => hd hc hb⟩
  exact (List.nodup_flatten.mp h.nodup).2.forall hl hl' hne ha ha'

omit [DecidableEq α] in
/-- Every element among the k greatest is one of the last k of its list. -/
private theorem mem_tails (h : StrictlyOrdered le lists) (hcover : TailsCover le lists) {k : Nat} {a : α}
    (ha : a ∈ (lists.flatten.mergeSort le).rtake k) : a ∈ (lists.map (fun l => l.rtake k)).flatten := by
  obtain ⟨b₁,b₂,hb⟩ := List.append_of_mem ha
  have hsplit : lists.flatten.mergeSort le = ((lists.flatten.mergeSort le).rdrop k++b₁)++a::b₂ := by
    rw [List.append_assoc,← hb,List.rdrop,List.rtake,List.take_append_drop]
  have hcount := h.count_greater hsplit
  have hlt : b₂.length < k := by
    have hlen := congrArg List.length hb
    rw [length_rtake,List.length_append,List.length_cons] at hlen
    omega
  have hmem : a ∈ lists.flatten := (List.mergeSort_perm _ le).mem_iff.mp (hsplit ▸ by simp)
  obtain ⟨l,hl,hal⟩ := List.mem_flatten.mp hmem
  obtain ⟨pre,post,rfl⟩ := List.append_of_mem hal
  have hpost := hcover _ hl pre a post rfl
  refine List.mem_flatten.mpr ⟨_,List.mem_map_of_mem hl,mem_rtake_of_split ?_⟩
  omega

private theorem mergedTails_eq_filter (h : StrictlyOrdered le lists) (k : Nat) :
    mergedTails le lists k =
      (lists.flatten.mergeSort le).filter (fun a => a ∈ (lists.map (fun l => l.rtake k)).flatten) := by
  have hsub : (lists.map (fun l => l.rtake k)).flatten.Sublist lists.flatten := by
    clear h
    induction lists with
    | nil => exact List.Sublist.refl _
    | cons l lists ih => exact (List.drop_sublist _ l).append ih
  have hperm := List.mergeSort_perm lists.flatten le
  refine List.Perm.eq_of_pairwise (fun a b ha hb => ?_) (List.pairwise_mergeSort h.trans h.total _)
    ((List.pairwise_mergeSort h.trans h.total _).filter _) ?_
  · exact h.antisymm a (hsub.subset (List.mem_mergeSort.mp ha)) b (hperm.mem_iff.mp (List.mem_of_mem_filter hb))
  · refine (List.mergeSort_perm _ le).trans ?_
    refine (List.perm_ext_iff_of_nodup (hsub.nodup h.nodup) ((hperm.nodup_iff.mpr h.nodup).filter _)).mpr (fun a => ?_)
    rw [List.mem_filter,List.mem_mergeSort,decide_eq_true_iff]
    exact ⟨fun ha => ⟨hsub.subset ha,ha⟩,And.right⟩

/-- For distinct elements, the merged ends agree with the end of the whole at every depth
exactly when no list hides an element behind too many later entries. -/
theorem rtake_mergedTails_iff (h : StrictlyOrdered le lists) :
    (∀ k, (mergedTails le lists k).rtake k =
      (lists.flatten.mergeSort le).rtake k) ↔ TailsCover le lists := by
  constructor
  · rintro hall l hl pre a post rfl
    have hmem : a ∈ lists.flatten := List.mem_flatten.mpr ⟨_,hl,by simp⟩
    obtain ⟨m₁,m₂,hsplit⟩ := List.append_of_mem (List.mem_mergeSort.mpr hmem)
    rw [h.count_greater hsplit]
    have hlast : a ∈ (lists.flatten.mergeSort le).rtake (m₂.length+1) := by
      rw [hsplit]
      exact mem_rtake_of_split (Nat.lt_succ_self _)
    rw [← hall] at hlast
    obtain ⟨l',hl',hal'⟩ := List.mem_flatten.mp (List.mem_mergeSort.mp (List.mem_of_mem_drop hlast))
    obtain ⟨l,hin,rfl⟩ := List.mem_map.mp hl'
    have hsame := h.eq_of_mem hin hl (List.mem_of_mem_drop hal') (by simp)
    rw [hsame] at hal'
    by_contra hlong
    have hpost : (pre++a::post).rtake (m₂.length+1) = post.rtake (m₂.length+1) := by
      rw [← List.singleton_append,← List.append_assoc]
      exact rtake_append_of_le (Nat.not_le.mp hlong)
    rw [hpost] at hal'
    have hnodup := (List.nodup_flatten.mp h.nodup).1 _ hl
    exact (List.nodup_cons.mp (List.nodup_append.mp hnodup).2.1).1 (List.mem_of_mem_drop hal')
  · intro hcover k
    have hkeep : ((lists.flatten.mergeSort le).rtake k).filter
        (fun a => a ∈ (lists.map (fun l => l.rtake k)).flatten) = (lists.flatten.mergeSort le).rtake k :=
      List.filter_eq_self.mpr (fun a ha => decide_eq_true (mem_tails h hcover ha))
    rw [mergedTails_eq_filter h k]
    generalize lists.flatten.mergeSort le = sorted at hkeep ⊢
    generalize (fun a => decide (a ∈ (lists.map (fun l => l.rtake k)).flatten)) = test at hkeep ⊢
    rcases Nat.lt_or_ge sorted.length k with hshort | hlong
    · rw [rtake_of_length_le hshort.le] at hkeep ⊢
      rw [hkeep,rtake_of_length_le hshort.le]
    · have hfilter : sorted.filter test = (sorted.rdrop k).filter test++sorted.rtake k := by
        rw [← hkeep,← List.filter_append,List.rdrop,List.rtake,List.take_append_drop]
      have hlen : (sorted.rtake k).length = k := by
        rw [length_rtake]
        exact Nat.min_eq_left hlong
      rw [hfilter,rtake_append_of_le hlen.ge,rtake_of_length_le hlen.le]

/-- Sorted lists hide nothing: all entries behind an element are greater. -/
theorem tailsCover_of_sorted (h : StrictlyOrdered le lists)
    (hsorted : ∀ l ∈ lists, l.Pairwise (fun a b => le a b = true)) : TailsCover le lists :=
  (rtake_mergedTails_iff h).mp (fun _ => rtake_mergedTails h.trans h.total hsorted)

end Distinct
end GossipCore.Base
