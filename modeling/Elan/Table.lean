import Mathlib.Data.List.Nodup

/-! Rows in the order they were inserted, with columns that are unique: inserting a row at
the end, looking one up by its key, and changing the rows of a key in place. -/
namespace Table

theorem nodup_map_concat {α β : Type} (f : α → β) {xs : List α} {x : α} (h : (xs.map f).Nodup)
    (hx : f x ∉ xs.map f) : ((xs ++ [x]).map f).Nodup := by
  rw [List.map_append,List.nodup_append]
  refine ⟨h,by simp,?_⟩
  rintro a ha b hb rfl
  rw [List.map_singleton,List.mem_singleton] at hb
  exact hx (hb ▸ ha)

theorem forall_mem_concat {α : Type} {P : α → Prop} {xs : List α} {x : α} (h : ∀ a ∈ xs, P a)
    (hx : P x) : ∀ a ∈ xs ++ [x], P a := by
  intro a ha
  rcases List.mem_append.mp ha with ha | ha
  · exact h a ha
  · exact List.mem_singleton.mp ha ▸ hx

/-- A key that no two elements share picks out one element. -/
theorem filter_key_eq {α β : Type} [DecidableEq α] [DecidableEq β] (f : α → β) {xs : List α}
    {x : α} (h : (xs.map f).Nodup) (hx : x ∈ xs) : xs.filter (f · = f x) = [x] := by
  have hfilter : xs.filter (f · = f x) = xs.filter (· = x) := by
    refine List.filter_congr fun y hy => ?_
    exact decide_eq_decide.mpr ⟨List.inj_on_of_nodup_map h hy hx,congrArg f⟩
  rw [hfilter,List.filter_eq,List.count_eq_one_of_mem (List.Nodup.of_map _ h) hx]
  rfl

theorem mem_map_concat {α β : Type} {f : α → β} {xs : List α} {b : β} (x : α)
    (h : b ∈ xs.map f) : b ∈ (xs ++ [x]).map f := by
  rw [List.map_append]
  exact List.mem_append_left _ h

theorem exists_of_forall₂ {α β : Type} {R : α → β → Prop} {xs : List α} {ys : List β}
    (h : List.Forall₂ R xs ys) {y : β} (hy : y ∈ ys) : ∃ x ∈ xs, R x y := by
  induction h with
  | nil => cases hy
  | @cons x z xs zs hx _ ih =>
    rcases List.mem_cons.mp hy with rfl | hy
    · exact ⟨x,by simp,hx⟩
    · obtain ⟨w,hw,hR⟩ := ih hy
      exact ⟨w,by simp [hw],hR⟩

/-- Rows read one by one: the first one that fails decides for all. -/
theorem mapM_eq_ok {α β ε : Type} {f : α → Except ε β} {xs : List α} {ys : List β} :
    xs.mapM f = .ok ys ↔ List.Forall₂ (fun x y => f x = .ok y) xs ys := by
  induction xs generalizing ys with
  | nil => simp [pure,Except.pure,eq_comm]
  | cons x xs ih =>
    rw [List.mapM_cons,List.forall₂_cons_left_iff]
    cases hx : f x with
    | error e => simp [bind,Except.bind]
    | ok y =>
      cases hxs : xs.mapM f with
      | error e =>
        simp only [bind,Except.bind,reduceCtorEq,false_iff]
        rintro ⟨z,zs,-,hzs,-⟩
        rw [← ih,hxs] at hzs
        cases hzs
      | ok zs =>
        have hzs := ih.mp hxs
        simp only [bind,Except.bind,pure,Except.pure,Except.ok.injEq]
        constructor
        · rintro rfl
          exact ⟨y,zs,rfl,hzs,rfl⟩
        · rintro ⟨z,zs',rfl,hzs',rfl⟩
          rw [← ih,hxs] at hzs'
          cases hzs'
          rfl

theorem mem_of_mapM {α β ε : Type} {f : α → Except ε β} {xs : List α} {ys : List β}
    (h : xs.mapM f = .ok ys) {y : β} : y ∈ ys ↔ ∃ x ∈ xs, f x = .ok y := by
  have h₂ := mapM_eq_ok.mp h
  clear h
  induction h₂ with
  | nil => simp
  | cons hx _ ih =>
    simp only [List.mem_cons,ih,exists_eq_or_imp,hx,Except.ok.injEq]
    exact or_congr_left eq_comm

theorem exists_mapM {α β ε : Type} {f : α → Except ε β} {xs : List α}
    (h : ∀ x ∈ xs, ∃ y, f x = .ok y) : ∃ ys, xs.mapM f = .ok ys := by
  simp only [mapM_eq_ok]
  induction xs with
  | nil => exact ⟨[],.nil⟩
  | cons x xs ih =>
    obtain ⟨ys,hys⟩ := ih fun x hx => h x (by simp [hx])
    obtain ⟨y,hy⟩ := h x (by simp)
    exact ⟨y :: ys,.cons hy hys⟩

theorem exists_of_mapM {α β ε : Type} {f : α → Except ε β} {xs : List α} {ys : List β}
    (h : xs.mapM f = .ok ys) {x : α} (hx : x ∈ xs) : ∃ y ∈ ys, f x = .ok y := by
  obtain ⟨y,hy⟩ : ∃ y, f x = .ok y := by
    have h₂ := mapM_eq_ok.mp h
    clear h
    induction h₂ with
    | nil => cases hx
    | cons hy _ ih => exact (List.mem_cons.mp hx).elim (fun he => ⟨_,he ▸ hy⟩) ih
  exact ⟨y,(mem_of_mapM h).mpr ⟨x,hx,hy⟩,hy⟩

theorem flatMap_ite_singleton {α : Type} (p : α → Bool) (xs : List α) :
    (xs.flatMap fun x => if p x then [x] else []) = xs.filter p := by
  induction xs with
  | nil => rfl
  | cons x xs ih => by_cases hp : p x <;> simp [hp,ih]

section
variable {α β : Type} [DecidableEq β] {f : α → β}

def lookup (f : α → β) (k : β) (xs : List α) : Option α := xs.find? (f · = k)

theorem lookup_eq_some_iff {xs : List α} (h : (xs.map f).Nodup) {k : β} {x : α} :
    lookup f k xs = some x ↔ x ∈ xs ∧ f x = k := by
  constructor
  · intro hx
    exact ⟨List.mem_of_find?_eq_some hx,by simpa using List.find?_some hx⟩
  · intro ⟨hx,hk⟩
    cases hl : lookup f k xs with
    | none => exact absurd hk (by simpa using List.find?_eq_none.mp hl x hx)
    | some y =>
      have hy : f y = k := by simpa using List.find?_some hl
      rw [List.inj_on_of_nodup_map h (List.mem_of_find?_eq_some hl) hx (hy.trans hk.symm)]

theorem lookup_eq_none_iff {xs : List α} {k : β} : lookup f k xs = none ↔ k ∉ xs.map f := by
  simp [lookup,List.find?_eq_none]

theorem lookup_concat {xs : List α} {x : α} (hx : f x ∉ xs.map f) (k : β) :
    lookup f k (xs ++ [x]) = if k = f x then some x else lookup f k xs := by
  unfold lookup
  rw [List.find?_append]
  by_cases hk : k = f x
  · have hnone : xs.find? (f · = f x) = none := lookup_eq_none_iff.mpr hx
    simp [hnone,hk]
  · simp [hk,Ne.symm hk]

def update (p : α → Bool) (u : α → α) (xs : List α) : List α :=
  xs.map fun x => if p x then u x else x

theorem map_update {γ : Type} {g : α → γ} {p : α → Bool} {u : α → α} (hg : ∀ x, g (u x) = g x)
    (xs : List α) : (update p u xs).map g = xs.map g := by
  unfold update
  rw [List.map_map]
  apply List.map_congr_left
  intro x _
  by_cases hp : p x <;> simp [hp,hg]

theorem lookup_update {p : α → Bool} {u : α → α} (hf : ∀ x, f (u x) = f x) (k : β)
    (xs : List α) :
    lookup f k (update p u xs) = (lookup f k xs).map fun x => if p x then u x else x := by
  have hkeep : ∀ x, f (if p x then u x else x) = f x := fun x => by
    by_cases hp : p x <;> simp [hp,hf]
  induction xs with
  | nil => rfl
  | cons x xs ih =>
    by_cases hx : f x = k
    · simp [lookup,update,hkeep,hx]
    · have hupdated : lookup f k (update p u (x :: xs)) = lookup f k (update p u xs) := by
        simp only [lookup,update,List.map_cons,List.find?_cons,hkeep,decide_eq_false hx]
      have hlookup : lookup f k (x :: xs) = lookup f k xs := by
        simp only [lookup,List.find?_cons,decide_eq_false hx]
      rw [hupdated,hlookup,ih]

/-- Insert a row; when its key is there already, change the row of that key instead. -/
def upsert (f : α → β) (u : α → α) (x : α) (xs : List α) : List α :=
  if f x ∈ xs.map f then update (f · = f x) u xs else xs ++ [x]

theorem lookup_upsert {u : α → α} (hu : ∀ y, f (u y) = f y) (x : α) (k : β) (xs : List α) :
    lookup f k (upsert f u x xs) =
      if k = f x then some (((lookup f k xs).map u).getD x) else lookup f k xs := by
  unfold upsert
  by_cases hx : f x ∈ xs.map f
  · rw [if_pos hx,lookup_update hu]
    cases hl : lookup f k xs with
    | none =>
      have hk : k ≠ f x := fun hk => lookup_eq_none_iff.mp hl (hk ▸ hx)
      simp [hk]
    | some y =>
      have hy : f y = k := by simpa using List.find?_some hl
      by_cases hk : k = f x <;> simp [hy,hk]
  · rw [if_neg hx,lookup_concat hx]
    by_cases hk : k = f x
    · rw [if_pos hk,if_pos hk,lookup_eq_none_iff.mpr (hk ▸ hx)]
      rfl
    · rw [if_neg hk,if_neg hk]

theorem mem_upsert {u : α → α} {x y : α} {xs : List α} (hy : y ∈ upsert f u x xs) :
    y ∈ xs ∨ y = x ∨ ∃ z ∈ xs, f z = f x ∧ y = u z := by
  unfold upsert at hy
  by_cases hx : f x ∈ xs.map f
  · rw [if_pos hx] at hy
    obtain ⟨z,hz,rfl⟩ := List.mem_map.mp hy
    by_cases hk : f z = f x
    · exact .inr (.inr ⟨z,hz,hk,by simp [hk]⟩)
    · exact .inl (by simpa [hk] using hz)
  · rw [if_neg hx] at hy
    exact (List.mem_append.mp hy).imp id fun h => .inl (List.mem_singleton.mp h)

theorem nodup_upsert {u : α → α} (hu : ∀ y, f (u y) = f y) (x : α) {xs : List α}
    (h : (xs.map f).Nodup) : ((upsert f u x xs).map f).Nodup := by
  unfold upsert
  by_cases hx : f x ∈ xs.map f
  · rw [if_pos hx,map_update hu]
    exact h
  · rw [if_neg hx]
    exact nodup_map_concat f h hx

theorem mem_map_upsert {u : α → α} (hu : ∀ y, f (u y) = f y) (x : α) {xs : List α} {k : β}
    (h : k ∈ xs.map f) : k ∈ (upsert f u x xs).map f := by
  unfold upsert
  by_cases hx : f x ∈ xs.map f
  · rwa [if_pos hx,map_update hu]
  · rw [if_neg hx]
    exact mem_map_concat x h

end

end Table
