import Elan.IamTypes
import Elan.Table

/-! Hash maps with text keys: lookup and insertion, maps collected from pairs, and values
grouped under their key. -/
namespace Elan
namespace StringMap

open Table

variable {V W : Type}

def empty : StringMap V := ⟨[],List.nodup_nil⟩

def keys (m : StringMap V) : List String := m.entries.map Prod.fst

def get? (m : StringMap V) (k : String) : Option V := (lookup Prod.fst k m.entries).map Prod.snd

def overwrite (v : V) (e : String × V) : String × V := (e.1,v)

@[simp] theorem overwrite_fst (v : V) (e : String × V) : (overwrite v e).1 = e.1 := rfl

/-- The value of a key that is there already is overwritten. -/
def insert (m : StringMap V) (k : String) (v : V) : StringMap V where
  entries := upsert Prod.fst (overwrite v) (k,v) m.entries
  nodup := nodup_upsert (overwrite_fst v) (k,v) m.nodup

/-- Insert pairs one after the other, so that the last of a key is kept. -/
def collect (es : List (String × V)) : StringMap V :=
  es.foldl (fun m e => m.insert e.1 e.2) empty

/-- Append to the list of a key, which is empty when the key is new. -/
def push (m : StringMap (List V)) (k : String) (v : V) : StringMap (List V) :=
  m.insert k ((m.get? k).getD [] ++ [v])

@[simp] theorem get?_empty (k : String) : (empty : StringMap V).get? k = none := rfl

theorem mem_keys {m : StringMap V} {k : String} : k ∈ m.keys ↔ ∃ v, m.get? k = some v := by
  unfold get? keys
  cases h : lookup Prod.fst k m.entries with
  | none => simpa using lookup_eq_none_iff.mp h
  | some e =>
    obtain ⟨hmem,hk⟩ := (lookup_eq_some_iff m.nodup).mp h
    exact iff_of_true (hk ▸ List.mem_map_of_mem hmem) ⟨e.2,rfl⟩

theorem keys_nodup (m : StringMap V) : m.keys.Nodup := m.nodup

theorem mem_entries {m : StringMap V} {k : String} {v : V} :
    (k,v) ∈ m.entries ↔ m.get? k = some v := by
  unfold get?
  constructor
  · intro h
    rw [(lookup_eq_some_iff m.nodup).mpr ⟨h,rfl⟩]
    rfl
  · intro h
    obtain ⟨e,he,rfl⟩ := Option.map_eq_some_iff.mp h
    obtain ⟨hmem,rfl⟩ := (lookup_eq_some_iff m.nodup).mp he
    exact hmem

theorem get?_insert (m : StringMap V) (k : String) (v : V) (k' : String) :
    (m.insert k v).get? k' = if k' = k then some v else m.get? k' := by
  unfold get? insert
  rw [lookup_upsert (overwrite_fst v)]
  by_cases hk : k' = k
  · rw [if_pos hk,if_pos hk]
    cases lookup Prod.fst k' m.entries <;> rfl
  · rw [if_neg hk,if_neg hk]

theorem get?_push (m : StringMap (List V)) (k : String) (v : V) (k' : String) :
    (m.push k v).get? k' =
      if k' = k then some ((m.get? k).getD [] ++ [v]) else m.get? k' :=
  get?_insert m k _ k'

theorem get?_foldl (es : List (String × V)) (m : StringMap V) (k : String) :
    (es.foldl (fun m e => m.insert e.1 e.2) m).get? k =
      ((es.reverse.find? (·.1 = k)).map Prod.snd).or (m.get? k) := by
  induction es generalizing m with
  | nil => rfl
  | cons e es ih =>
    rw [List.foldl_cons,ih,get?_insert,List.reverse_cons,List.find?_append]
    cases es.reverse.find? (·.1 = k) with
    | some e' => rfl
    | none =>
      by_cases hk : e.1 = k
      · simp [hk]
      · simp [hk,Ne.symm hk]

theorem get?_collect (es : List (String × V)) (k : String) :
    (collect es).get? k = (es.reverse.find? (·.1 = k)).map Prod.snd := by
  unfold collect
  rw [get?_foldl,get?_empty,Option.or_none]

theorem exists_of_collect {es : List (String × V)} {k : String} {v : V}
    (h : (collect es).get? k = some v) : (k,v) ∈ es := by
  rw [get?_collect] at h
  obtain ⟨e,he,rfl⟩ := Option.map_eq_some_iff.mp h
  have hk : e.1 = k := by simpa using List.find?_some he
  exact hk ▸ List.mem_reverse.mp (List.mem_of_find?_eq_some he)

theorem isSome_collect {es : List (String × V)} {k : String} :
    ((collect es).get? k).isSome ↔ k ∈ es.map Prod.fst := by
  rw [get?_collect,Option.isSome_map,List.find?_isSome]
  simp

/-- Where no two pairs share a key, the map holds the pairs. -/
theorem get?_collect_of_nodup {es : List (String × V)} (h : (es.map Prod.fst).Nodup) {k : String}
    {v : V} : (collect es).get? k = some v ↔ (k,v) ∈ es := by
  constructor
  · exact exists_of_collect
  · intro hmem
    obtain ⟨w,hw⟩ := Option.isSome_iff_exists.mp
      (isSome_collect.mpr (List.mem_map_of_mem (f := Prod.fst) hmem))
    have hpair := List.inj_on_of_nodup_map h (exists_of_collect hw) hmem rfl
    rw [hw,(Prod.mk.inj hpair).2]

theorem get?_collect_entries (m : StringMap V) (f : String → V → W) (k : String) :
    (collect (m.entries.map fun e => (e.1,f e.1 e.2))).get? k = (m.get? k).map (f k) := by
  have hkeys : ((m.entries.map fun e => (e.1,f e.1 e.2)).map Prod.fst).Nodup := by
    rw [List.map_map]
    exact m.nodup
  cases hm : m.get? k with
  | none =>
    rw [Option.map_none,← Option.not_isSome_iff_eq_none,isSome_collect,List.map_map]
    intro hk
    obtain ⟨v,hv⟩ := mem_keys.mp hk
    rw [hm] at hv
    cases hv
  | some v =>
    apply (get?_collect_of_nodup hkeys).mpr
    exact List.mem_map.mpr ⟨(k,v),mem_entries.mpr hm,rfl⟩

theorem entries_collect {es : List (String × V)} (h : (es.map Prod.fst).Nodup) :
    (collect es).entries = es := by
  induction es using List.reverseRecOn with
  | nil => rfl
  | append_singleton es e ih =>
    rw [List.map_append] at h
    obtain ⟨hes,-,hdisjoint⟩ := List.nodup_append.mp h
    have hnew : e.1 ∉ ((collect es).entries).map Prod.fst := by
      rw [ih hes]
      exact fun hmem => hdisjoint e.1 hmem e.1 (by simp) rfl
    have hinsert : collect (es ++ [e]) = (collect es).insert e.1 e.2 := by simp [collect]
    have hentries : ((collect es).insert e.1 e.2).entries = (collect es).entries ++ [e] :=
      if_neg hnew
    rw [hinsert,hentries,ih hes]

theorem collect_entries (m : StringMap V) : collect m.entries = m := by
  obtain ⟨es,hes⟩ := m
  have h : (collect es).entries = es := entries_collect hes
  rcases hm : collect es with ⟨entries,hentries⟩
  rw [hm] at h
  cases h
  rfl

end StringMap
end Elan
