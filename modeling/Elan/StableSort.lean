import Mathlib.Data.List.Sort

/-! Selecting from a stably sorted list.
The head of a stable sort is the first of the least elements of the input, and a
relation `OrderedBy` describes every answer an ordering clause may give. -/
namespace StableSort

variable {α : Type*}

/-- `x` is the first of the least elements of `xs`: what stands before it is
strictly greater, and nothing after it is smaller. -/
def FirstLeast (r : α → α → Prop) (xs : List α) (x : α) : Prop :=
  ∃ pre post, xs = pre ++ x :: post ∧ (∀ y ∈ pre, ¬ r y x) ∧ ∀ y ∈ post, r x y

theorem FirstLeast.mem {r : α → α → Prop} {xs : List α} {x : α} (h : FirstLeast r xs x) :
    x ∈ xs := by
  obtain ⟨pre,post,rfl,-,-⟩ := h
  simp

theorem FirstLeast.unique {r : α → α → Prop} {xs : List α} {x y : α} (hx : FirstLeast r xs x)
    (hy : FirstLeast r xs y) : x = y := by
  obtain ⟨pre,post,hxs,hpre,hpost⟩ := hx
  obtain ⟨pre',post',hxs',hpre',hpost'⟩ := hy
  rw [hxs] at hxs'
  rcases List.append_eq_append_iff.mp hxs' with ⟨w,rfl,hw⟩ | ⟨w,rfl,hw⟩
  · cases w with
    | nil => simp_all
    | cons c cs =>
      obtain ⟨rfl,rfl⟩ := List.cons.inj hw
      exact absurd (hpost y (by simp)) (hpre' x (by simp))
  · cases w with
    | nil => simp_all
    | cons c cs =>
      obtain ⟨rfl,rfl⟩ := List.cons.inj hw
      exact absurd (hpost' x (by simp)) (hpre y (by simp))

/-- Selecting among the rows that pass a filter, stated on the unfiltered list. -/
theorem firstLeast_filter (r : α → α → Prop) (f : α → Bool) (xs : List α) (x : α) :
    FirstLeast r (xs.filter f) x ↔
      ∃ pre post, xs = pre ++ x :: post ∧ f x ∧ (∀ y ∈ pre, f y → ¬ r y x) ∧
        ∀ y ∈ post, f y → r x y := by
  constructor
  · rintro ⟨pre,post,hxs,hpre,hpost⟩
    obtain ⟨l,m,rfl,rfl,hm⟩ := List.filter_eq_append_iff.mp hxs
    obtain ⟨l',post',rfl,hl',hx,rfl⟩ := List.filter_eq_cons_iff.mp hm
    refine ⟨l ++ l',post',by simp,hx,?_,?_⟩
    · intro y hy hfy
      rcases List.mem_append.mp hy with hy | hy
      · exact hpre y (List.mem_filter.mpr ⟨hy,hfy⟩)
      · exact absurd hfy (hl' y hy)
    · intro y hy hfy
      exact hpost y (List.mem_filter.mpr ⟨hy,hfy⟩)
  · rintro ⟨pre,post,rfl,hx,hpre,hpost⟩
    refine ⟨pre.filter f,post.filter f,by simp [hx],?_,?_⟩
    · intro y hy
      exact hpre y (List.mem_filter.mp hy).1 (List.mem_filter.mp hy).2
    · intro y hy
      exact hpost y (List.mem_filter.mp hy).1 (List.mem_filter.mp hy).2

theorem orderedInsert_head (r : α → α → Prop) [DecidableRel r] {a : α} {xs : List α} {x : α}
    (hx : (xs.orderedInsert r a).head? = some x) :
    x = a ∧ (∀ y, xs.head? = some y → r a y) ∨ xs.head? = some x ∧ ¬ r a x := by
  cases xs with
  | nil =>
    simp only [List.orderedInsert_nil,List.head?_cons,Option.some.injEq] at hx
    exact Or.inl ⟨hx.symm,by simp⟩
  | cons b bs =>
    rw [List.orderedInsert_cons] at hx
    split_ifs at hx with hab <;> simp only [List.head?_cons,Option.some.injEq] at hx <;> subst hx
    · exact Or.inl ⟨rfl,by simpa using hab⟩
    · exact Or.inr ⟨rfl,hab⟩

theorem head_none_iff (r : α → α → Prop) [DecidableRel r] (xs : List α) :
    (xs.insertionSort r).head? = none ↔ xs = [] := by
  rw [List.head?_eq_none_iff,← List.length_eq_zero_iff,List.length_insertionSort,
    List.length_eq_zero_iff]

section
variable (r : α → α → Prop) [DecidableRel r] [Std.Total r] [IsTrans α r]

theorem head_le {xs : List α} {x : α} (hx : (xs.insertionSort r).head? = some x) :
    ∀ y ∈ xs, r x y := by
  intro y hy
  obtain ⟨ys,hys⟩ := List.head?_eq_some_iff.mp hx
  have hsorted := List.pairwise_insertionSort r xs
  have hmem : y ∈ xs.insertionSort r := (List.mem_insertionSort r).mpr hy
  rw [hys] at hsorted hmem
  rcases List.mem_cons.mp hmem with rfl | hmem
  · exact (Std.Total.total y y).elim id id
  · exact (List.pairwise_cons.mp hsorted).1 y hmem

/-- The head of a stable sort is the first least element of its input. -/
theorem head_firstLeast {xs : List α} {x : α} (hx : (xs.insertionSort r).head? = some x) :
    FirstLeast r xs x := by
  induction xs generalizing x with
  | nil => simp at hx
  | cons a as ih =>
    rw [List.insertionSort_cons] at hx
    rcases orderedInsert_head r hx with ⟨rfl,hle⟩ | ⟨hhead,hlt⟩
    · refine ⟨[],as,rfl,by simp,?_⟩
      intro y hy
      cases hs : (as.insertionSort r).head? with
      | none => simp [(head_none_iff r as).mp hs] at hy
      | some z => exact IsTrans.trans _ _ _ (hle z hs) (head_le r hs y hy)
    · obtain ⟨pre,post,rfl,hpre,hpost⟩ := ih hhead
      exact ⟨a :: pre,post,rfl,by simpa using ⟨hlt,hpre⟩,hpost⟩

theorem head_iff {xs : List α} {x : α} :
    (xs.insertionSort r).head? = some x ↔ FirstLeast r xs x := by
  refine ⟨head_firstLeast r,fun h => ?_⟩
  cases hs : (xs.insertionSort r).head? with
  | none => rw [(head_none_iff r xs).mp hs] at h; simpa using h.mem
  | some y => rw [(head_firstLeast r hs).unique h]

end

/-- `ys` is an answer of an ordering clause over the rows `xs`: the same rows, in
an order the key allows. Rows that tie may come in any order. -/
def OrderedBy (r : α → α → Prop) (xs ys : List α) : Prop :=
  ys.Perm xs ∧ ys.Pairwise r

theorem orderedBy_insertionSort (r : α → α → Prop) [DecidableRel r] [Std.Total r] [IsTrans α r]
    (xs : List α) : OrderedBy r xs (xs.insertionSort r) :=
  ⟨List.perm_insertionSort r xs,List.pairwise_insertionSort r xs⟩

theorem OrderedBy.mem_iff {r : α → α → Prop} {xs ys : List α} (h : OrderedBy r xs ys) {x : α} :
    x ∈ ys ↔ x ∈ xs :=
  h.1.mem_iff

theorem OrderedBy.filter {r : α → α → Prop} {xs ys : List α} (h : OrderedBy r xs ys)
    (p : α → Bool) : OrderedBy r (xs.filter p) (ys.filter p) :=
  ⟨h.1.filter p,h.2.filter p⟩

theorem OrderedBy.unique {r : α → α → Prop} {xs ys zs : List α} (hy : OrderedBy r xs ys)
    (hz : OrderedBy r xs zs) (hties : ∀ a ∈ xs, ∀ b ∈ xs, r a b → r b a → a = b) : ys = zs := by
  apply List.Perm.eq_of_pairwise ?_ hy.2 hz.2 (hy.1.trans hz.1.symm)
  intro a b ha hb hab hba
  exact hties a (hy.mem_iff.mp ha) b (hz.mem_iff.mp hb) hab hba

/-- Without ties an element is among the first `n` exactly when fewer than `n` come before it. -/
theorem OrderedBy.mem_take_iff {r : α → α → Prop} [DecidableRel r] [Std.Refl r] {xs zs : List α}
    (h : OrderedBy r xs zs) (hnodup : xs.Nodup)
    (hties : ∀ a ∈ xs, ∀ b ∈ xs, r a b → r b a → a = b) {x : α} (hx : x ∈ xs) {n : ℕ} :
    x ∈ zs.take n ↔ (xs.countP fun y => !decide (r x y)) < n := by
  obtain ⟨pre,post,rfl⟩ := List.append_of_mem (h.mem_iff.mpr hx)
  have hz : (pre ++ x :: post).Nodup := h.1.nodup_iff.mpr hnodup
  have hlt : ∀ y ∈ pre, ¬ r x y := by
    intro y hy hxy
    have hyx : r y x := (List.pairwise_append.mp h.2).2.2 y hy x (by simp)
    have hsame : y = x := hties y (h.mem_iff.mp (by simp [hy])) x hx hyx hxy
    subst hsame
    exact (List.nodup_append.mp hz).2.2 y hy y (by simp) rfl
  have hle : ∀ y ∈ x :: post, r x y := by
    intro y hy
    rcases List.mem_cons.mp hy with rfl | hy
    · exact Std.Refl.refl y
    · exact (List.pairwise_cons.mp (List.pairwise_append.mp h.2).2.1).1 y hy
  have hcount : (xs.countP fun y => !decide (r x y)) = pre.length := by
    have hpre : (pre.countP fun y => !decide (r x y)) = pre.length :=
      List.countP_eq_length.mpr fun y hy => by simpa using hlt y hy
    have hpost : ((x :: post).countP fun y => !decide (r x y)) = 0 :=
      List.countP_eq_zero.mpr fun y hy => by simpa using hle y hy
    rw [← h.1.countP_eq,List.countP_append,hpre,hpost,Nat.add_zero]
  have hfresh : x ∉ pre := fun hxp => hlt x hxp (hle x (by simp))
  rw [hcount]
  constructor
  · intro hmem
    by_contra hn
    rw [List.take_append_of_le_length (by omega)] at hmem
    exact hfresh (List.mem_of_mem_take hmem)
  · intro hn
    obtain ⟨k,rfl⟩ := Nat.exists_eq_add_of_lt hn
    rw [List.take_append]
    apply List.mem_append_right
    rw [show pre.length + k + 1 - pre.length = k + 1 by omega,List.take_succ_cons]
    exact List.mem_cons_self

/-- `ys` are the first `n` of the rows `xs`, in an order the key allows. -/
def Leading (r : α → α → Prop) (n : ℕ) (xs ys : List α) : Prop :=
  ∃ zs, OrderedBy r xs zs ∧ ys = zs.take n

theorem Leading.length {r : α → α → Prop} {n : ℕ} {xs ys : List α} (h : Leading r n xs ys) :
    ys.length = min n xs.length := by
  obtain ⟨zs,hzs,rfl⟩ := h
  rw [List.length_take,hzs.1.length_eq]

theorem Leading.unique {r : α → α → Prop} {n : ℕ} {xs ys zs : List α} (hy : Leading r n xs ys)
    (hz : Leading r n xs zs) (hties : ∀ a ∈ xs, ∀ b ∈ xs, r a b → r b a → a = b) : ys = zs := by
  obtain ⟨ys',hys',rfl⟩ := hy
  obtain ⟨zs',hzs',rfl⟩ := hz
  rw [hys'.unique hzs' hties]

theorem take_filter_of_forall {p : α → Bool} {xs : List α} {n : ℕ}
    (h : ∀ x ∈ xs.take n, p x = true) : (xs.filter p).take n = xs.take n := by
  induction xs generalizing n with
  | nil => simp
  | cons x xs ih =>
    cases n with
    | zero => simp
    | succ n =>
      have hx : p x = true := h x (by simp)
      have hrest : ∀ y ∈ xs.take n, p y = true := fun y hy => h y (by simp [hy])
      rw [List.filter_cons_of_pos hx,List.take_succ_cons,List.take_succ_cons,ih hrest]

/-- Filtering the first `n` rows finds the first `n` of those that pass exactly when nothing is
left out for rows that do not. -/
theorem leading_filter_iff {r : α → α → Prop} {p : α → Bool} {n : ℕ} {xs zs : List α}
    (hzs : OrderedBy r xs zs) : Leading r n (xs.filter p) ((zs.take n).filter p) ↔
      (∀ x ∈ zs.take n, p x = true) ∨ ∀ x ∈ zs.drop n, p x = false := by
  have hsplit : zs.filter p = (zs.take n).filter p ++ (zs.drop n).filter p := by
    rw [← List.filter_append,List.take_append_drop]
  constructor
  · intro h
    have hlength : ((zs.take n).filter p).length = min n (zs.filter p).length := by
      rw [h.length,(hzs.filter p).1.length_eq]
    have htake : (zs.take n).length ≤ n := List.length_take_le n zs
    by_contra hcut
    simp only [not_or,not_forall] at hcut
    obtain ⟨⟨x,hx,hpx⟩,y,hy,hpy⟩ := hcut
    have hless : ((zs.take n).filter p).length < (zs.take n).length := by
      apply List.length_filter_lt_length_iff_exists.mpr
      exact ⟨x,hx,by simpa using hpx⟩
    have hmore : 0 < ((zs.drop n).filter p).length := by
      apply List.length_pos_of_mem (a := y)
      exact List.mem_filter.mpr ⟨hy,by simpa using hpy⟩
    rw [hsplit,List.length_append] at hlength
    omega
  · intro h
    refine ⟨zs.filter p,hzs.filter p,?_⟩
    rcases h with hall | hnone
    · rw [List.filter_eq_self.mpr hall,take_filter_of_forall hall]
    · have hnil : (zs.drop n).filter p = [] := by
        apply List.filter_eq_nil_iff.mpr
        simpa using hnone
      have htake : ((zs.take n).filter p).length ≤ n :=
        (List.length_filter_le _ _).trans (List.length_take_le n zs)
      rw [hsplit,hnil,List.append_nil,List.take_of_length_le htake]

end StableSort
