import Mathlib.Algebra.Order.BigOperators.Group.List
import Mathlib.Algebra.Order.Group.Nat
import Mathlib.Data.List.Nodup
import Mathlib.Data.List.Sort
import Mathlib.Tactic

/-!
# Ordered queries with a row limit

`ORDER BY … LIMIT n` is `top le n l`, the first `n` rows of the sorted list. `mem_top` says which
rows that are: those with fewer than `n` rows ahead of them. `top_flat_map` says that a limited
query over the union of several parts can be answered from limited queries over each part, if the
same limit is applied to all of them.
-/

namespace AccessRelay.Data

variable {α : Type*} {le : α → α → Bool}

/-- An order that rows can be listed in. -/
structure IsListing (le : α → α → Bool) : Prop where
  trans : ∀ a b c : α, le a b = true → le b c = true → le a c = true
  total : ∀ a b : α, (le a b || le b a) = true

/-- No two rows of `l` have the same place in the order. -/
def Strict (le : α → α → Bool) (l : List α) : Prop :=
  ∀ a ∈ l, ∀ b ∈ l, le a b = true → le b a = true → a = b

/-- The first `n` rows, in order. -/
def top (le : α → α → Bool) (n : Nat) (l : List α) : List α := (l.mergeSort le).take n

/-- The number of rows of `l` that come before `x`. -/
def ahead (le : α → α → Bool) (l : List α) (x : α) : Nat := l.countP fun y => le y x && !le x y

section Members

variable {l : List α} {x : α} {n : Nat}

theorem ahead_perm {l' : List α} (h : l.Perm l') : ahead le l x = ahead le l' x :=
  h.countP_eq _

/-- In a list that is in order, the rows before a row are those ahead of it. -/
theorem ahead_split {front back : List α}
    (hsorted : (front ++ x :: back).Pairwise fun a b => le a b)
    (hstrict : Strict le (front ++ x :: back)) (hnodup : (front ++ x :: back).Nodup) :
    ahead le (front ++ x :: back) x = front.length := by
  obtain ⟨-, hback, hcross⟩ := List.pairwise_append.mp hsorted
  have hx : x ∈ front ++ x :: back := List.mem_append_right _ List.mem_cons_self
  have hfront : front.countP (fun y => le y x && !le x y) = front.length := by
    refine List.countP_eq_length.mpr fun y hy => ?_
    have hne : y ≠ x := by
      rintro rfl
      exact (List.disjoint_of_nodup_append hnodup) hy List.mem_cons_self
    have hle := hcross y hy x List.mem_cons_self
    have hnot : le x y ≠ true := by
      intro hge
      exact hne (hstrict y (List.mem_append_left _ hy) x hx hle hge)
    simp [hle, hnot]
  have hrest : (x :: back).countP (fun y => le y x && !le x y) = 0 := by
    refine List.countP_eq_zero.mpr fun y hy => ?_
    rcases List.mem_cons.mp hy with rfl | hy
    · simp
    · simp [(List.pairwise_cons.mp hback).1 y hy]
  rw [ahead, List.countP_append, hfront, hrest, Nat.add_zero]

/-- A limited query returns the rows with fewer rows ahead of them than the limit. -/
theorem mem_top (hle : IsListing le) (hstrict : Strict le l) (hnodup : l.Nodup) :
    x ∈ top le n l ↔ x ∈ l ∧ ahead le l x < n := by
  unfold top
  have hperm := List.mergeSort_perm l le
  by_cases hx : x ∈ l
  · have hsorted := List.pairwise_mergeSort hle.trans hle.total l
    have hnodup' := hperm.nodup_iff.mpr hnodup
    obtain ⟨front, back, hsplit⟩ := List.append_of_mem (hperm.mem_iff.mpr hx)
    have hahead : ahead le l x = front.length := by
      rw [← ahead_perm hperm, hsplit]
      rw [hsplit] at hsorted hnodup' hperm
      refine ahead_split hsorted ?_ hnodup'
      intro a ha b hb
      exact hstrict a (hperm.mem_iff.mp ha) b (hperm.mem_iff.mp hb)
    have hnotFront : x ∉ front := by
      intro hmem
      rw [hsplit] at hnodup'
      exact (List.disjoint_of_nodup_append hnodup') hmem List.mem_cons_self
    rw [hsplit, List.take_append, List.mem_append, hahead]
    constructor
    · rintro (hfront | hrest)
      · exact absurd (List.mem_of_mem_take hfront) hnotFront
      · refine ⟨hx, ?_⟩
        by_contra hle
        rw [Nat.sub_eq_zero_of_le (Nat.not_lt.mp hle)] at hrest
        exact absurd hrest List.not_mem_nil
    · intro hlt
      obtain ⟨k, hk⟩ : ∃ k, n - front.length = k + 1 := ⟨n - front.length - 1, by omega⟩
      rw [hk, List.take_succ_cons]
      exact .inr List.mem_cons_self
  · refine iff_of_false ?_ fun h => hx h.1
    intro hmem
    exact hx (hperm.mem_iff.mp (List.mem_of_mem_take hmem))

end Members

theorem Strict.mono {l l' : List α} (h : Strict le l) (hsubset : l' ⊆ l) : Strict le l' :=
  fun a ha b hb => h a (hsubset ha) b (hsubset hb)

@[simp] theorem length_top (n : Nat) (l : List α) : (top le n l).length = min n l.length := by
  rw [top, List.length_take, List.length_mergeSort]

theorem top_subset (n : Nat) (l : List α) : top le n l ⊆ l := fun _ h =>
  (List.mergeSort_perm l le).mem_iff.mp (List.mem_of_mem_take h)

theorem top_nodup {n : Nat} {l : List α} (h : l.Nodup) : (top le n l).Nodup :=
  (List.take_sublist n _).nodup ((List.mergeSort_perm l le).nodup_iff.mpr h)

section Parts

variable {l l' : List α} {n : Nat}

/-- There is one way to put the rows in order. -/
theorem sorted_unique (hstrict : Strict le l) (hsorted : l.Pairwise fun a b => le a b)
    (hsorted' : l'.Pairwise fun a b => le a b) (hperm : l.Perm l') : l = l' :=
  List.Perm.eq_of_pairwise (fun a b ha hb => hstrict a ha b (hperm.mem_iff.mpr hb)) hsorted
    hsorted' hperm

theorem merge_sort_perm (hle : IsListing le) (hstrict : Strict le l) (hperm : l.Perm l') :
    l.mergeSort le = l'.mergeSort le := by
  have hperm' := List.mergeSort_perm l le
  refine sorted_unique (hstrict.mono fun a ha => hperm'.mem_iff.mp ha)
    (List.pairwise_mergeSort hle.trans hle.total l)
    (List.pairwise_mergeSort hle.trans hle.total l') ?_
  exact (hperm'.trans hperm).trans (List.mergeSort_perm l' le).symm

theorem top_sorted (hle : IsListing le) : (top le n l).Pairwise fun a b => le a b :=
  (List.pairwise_mergeSort hle.trans hle.total l).sublist (List.take_sublist n _)

/-- Sorting two parts is sorting each and merging. -/
theorem merge_sort_append (hle : IsListing le) (hstrict : Strict le (l ++ l')) :
    (l ++ l').mergeSort le = (l.mergeSort le).merge (l'.mergeSort le) le := by
  have hsorted : ∀ rows : List α, (rows.mergeSort le).Pairwise fun a b => le a b :=
    List.pairwise_mergeSort hle.trans hle.total
  have hperm : ((l.mergeSort le).merge (l'.mergeSort le) le).Perm (l ++ l') :=
    (List.merge_perm_append le).trans
      ((List.mergeSort_perm l le).append (List.mergeSort_perm l' le))
  have hperm' := List.mergeSort_perm (l ++ l') le
  exact sorted_unique (hstrict.mono fun a ha => hperm'.mem_iff.mp ha) (hsorted _)
    (List.pairwise_merge hle.trans hle.total _ _ (hsorted l) (hsorted l'))
    (hperm'.trans hperm.symm)

/-- The first rows of a merge come from the first rows of both sides. -/
theorem take_merge (n : Nat) (l l' : List α) :
    (l.merge l' le).take n = ((l.take n).merge (l'.take n) le).take n := by
  induction n generalizing l l' with
  | zero => rfl
  | succ n ih =>
      cases l with
      | nil => simp [List.nil_merge, List.take_take]
      | cons a l =>
          cases l' with
          | nil => simp [List.merge_right, List.take_take]
          | cons b l' =>
              have hcut : ∀ (c : α) (rows : List α),
                  (c :: rows.take n).take n = (c :: rows).take n := by
                intro c rows
                cases n with
                | zero => rfl
                | succ n => simp [List.take_take]
              simp only [List.take_succ_cons, List.cons_merge_cons]
              split_ifs
              · rw [List.take_succ_cons, List.take_succ_cons, ih l (b :: l'),
                  ih (l.take n) (b :: l'.take n), hcut, List.take_take, Nat.min_self]
              · rw [List.take_succ_cons, List.take_succ_cons, ih (a :: l) l',
                  ih (a :: l.take n) (l'.take n), hcut, List.take_take, Nat.min_self]

/-- A limited query over two parts needs only the limited queries over each. -/
theorem top_append (hle : IsListing le) (hstrict : Strict le (l ++ l')) :
    top le n (l ++ l') = top le n (top le n l ++ top le n l') := by
  have hsubset : top le n l ++ top le n l' ⊆ l ++ l' :=
    List.append_subset.mpr ⟨fun a ha => List.mem_append_left _ (top_subset n l ha),
      fun a ha => List.mem_append_right _ (top_subset n l' ha)⟩
  show ((l ++ l').mergeSort le).take n = ((top le n l ++ top le n l').mergeSort le).take n
  rw [merge_sort_append hle hstrict, merge_sort_append hle (hstrict.mono hsubset),
    List.mergeSort_of_pairwise (top_sorted hle), List.mergeSort_of_pairwise (top_sorted hle)]
  exact take_merge n _ _

/-- A limited query is not changed by limiting it again. -/
theorem top_top (hle : IsListing le) : top le n (top le n l) = top le n l := by
  show ((top le n l).mergeSort le).take n = top le n l
  rw [List.mergeSort_of_pairwise (top_sorted hle)]
  exact List.take_of_length_le (by rw [length_top]; omega)

/-- A limited query over the union of parts needs only the limited queries over each. -/
theorem top_flat_map {β : Type*} (hle : IsListing le) (part : β → List α) (names : List β)
    (hstrict : Strict le (names.flatMap part)) :
    top le n (names.flatMap fun name => top le n (part name)) = top le n (names.flatMap part) := by
  induction names with
  | nil => rfl
  | cons name names ih =>
      have hrest := ih (hstrict.mono fun a ha => List.mem_append_right _ ha)
      have hsubset : (name :: names).flatMap (fun name => top le n (part name)) ⊆
          (name :: names).flatMap part := by
        intro a ha
        obtain ⟨other, hother, hmem⟩ := List.mem_flatMap.mp ha
        exact List.mem_flatMap.mpr ⟨other, hother, top_subset n _ hmem⟩
      rw [List.flatMap_cons, List.flatMap_cons] at *
      rw [top_append hle (hstrict.mono hsubset), top_top hle, hrest, ← top_append hle hstrict]

end Parts

section Names

variable {κ : Type*} {names : List κ}

/-- Rows with one of several names, name by name. -/
theorem flat_map_filter_perm [DecidableEq κ] (hnames : names.Nodup) {key : α → κ} {p : α → Bool}
    (hp : ∀ x, p x = true ↔ key x ∈ names) (l : List α) :
    (names.flatMap fun name => l.filter fun x => key x = name).Perm (l.filter p) := by
  induction names generalizing p with
  | nil =>
      have hnone : l.filter p = [] := List.filter_eq_nil_iff.mpr fun x _ hx =>
        List.not_mem_nil ((hp x).mp hx)
      rw [hnone]
      rfl
  | cons name names ih =>
      obtain ⟨hname, hrest⟩ := List.nodup_cons.mp hnames
      have hsplit := List.filter_append_perm (fun x => decide (key x = name)) (l.filter p)
      have hfirst : (l.filter p).filter (fun x => decide (key x = name)) =
          l.filter fun x => decide (key x = name) := by
        rw [List.filter_filter]
        refine List.filter_congr fun x _ => ?_
        by_cases hx : key x = name
        · simp [hx, (hp x).mpr (hx ▸ List.mem_cons_self)]
        · simp [hx]
      rw [hfirst, List.filter_filter] at hsplit
      rw [List.flatMap_cons]
      refine ((ih hrest ?_).append_left _).trans hsplit
      intro x
      rw [Bool.and_eq_true, hp x, List.mem_cons]
      by_cases hx : key x = name
      · simp [hx, hname]
      · simp [hx]

/-- Cutting every number at `m` does not raise the sum, and keeps it only if all are at most
`m`. -/
theorem sum_min_le (f : κ → Nat) (m : Nat) (names : List κ) :
    (names.map fun name => min m (f name)).sum ≤ (names.map f).sum ∧
      ((names.map f).sum ≤ (names.map fun name => min m (f name)).sum ↔
        ∀ name ∈ names, f name ≤ m) := by
  induction names with
  | nil => simp
  | cons name names ih =>
      obtain ⟨hle, hiff⟩ := ih
      simp only [List.map_cons, List.sum_cons, List.forall_mem_cons, ← hiff]
      omega

/-- If the numbers cut at `m` sum up to less than `m`, none was cut. -/
theorem sum_le_of_sum_min_lt {f : κ → Nat} {m : Nat}
    (h : (names.map fun name => min m (f name)).sum < m) :
    (names.map f).sum ≤ (names.map fun name => min m (f name)).sum := by
  refine (sum_min_le f m names).2.mpr fun name hname => ?_
  have hmember : min m (f name) ≤ (names.map fun name => min m (f name)).sum :=
    List.le_sum_of_mem (List.mem_map.mpr ⟨name, hname, rfl⟩)
  omega

/-- The numbers cut at `m` sum up to at most `m` exactly if the numbers do, or all of them but one
are zero. -/
theorem sum_min_le_iff (f : κ → Nat) {m : Nat} (hm : 0 < m) (hnames : names.Nodup) :
    (names.map fun name => min m (f name)).sum ≤ m ↔
      (names.map f).sum ≤ m ∨ ∃ name ∈ names, ∀ other ∈ names, other ≠ name → f other = 0 := by
  obtain ⟨hle, hiff⟩ := sum_min_le f m names
  constructor
  · intro hsum
    by_cases hall : ∀ name ∈ names, f name ≤ m
    · exact .inl ((hiff.mpr hall).trans hsum)
    · push Not at hall
      obtain ⟨name, hname, hlarge⟩ := hall
      refine .inr ⟨name, hname, ?_⟩
      intro other hother hne
      obtain ⟨front, back, rfl⟩ := List.append_of_mem hname
      simp only [List.map_append, List.map_cons, List.sum_append, List.sum_cons] at hsum
      have hmem : other ∈ front ∨ other ∈ back := by
        simpa [hne] using hother
      have hmember : ∀ {side : List κ}, other ∈ side →
          min m (f other) ≤ (side.map fun name => min m (f name)).sum :=
        fun hside => List.le_sum_of_mem (List.mem_map.mpr ⟨other, hside, rfl⟩)
      rcases hmem with hmem | hmem
      · have hcut := hmember hmem
        omega
      · have hcut := hmember hmem
        omega
  · intro h
    rcases h with hsum | ⟨name, hname, hzero⟩
    · exact hle.trans hsum
    · obtain ⟨front, back, rfl⟩ := List.append_of_mem hname
      have hnodup := List.nodup_middle.mp hnames
      rw [List.nodup_cons, List.mem_append, not_or] at hnodup
      have hside : ∀ side : List κ, (∀ other ∈ side, other ∈ front ++ name :: back) →
          name ∉ side → (side.map fun name => min m (f name)).sum = 0 := by
        intro side hsubset hnot
        refine List.sum_eq_zero fun value hvalue => ?_
        obtain ⟨other, hother, rfl⟩ := List.mem_map.mp hvalue
        have hne : other ≠ name := fun heq => hnot (heq ▸ hother)
        rw [hzero other (hsubset other hother) hne, Nat.min_zero]
      have hfront := hside front (fun other h => List.mem_append_left _ h) hnodup.1.1
      have hback := hside back (fun other h => List.mem_append_right _ (List.mem_cons_of_mem _ h))
        hnodup.1.2
      simp only [List.map_append, List.map_cons, List.sum_append, List.sum_cons, hfront, hback]
      omega

end Names

end AccessRelay.Data
