import Mathlib

/-!
# JSON values, key order, and the recursive merge

Two things happen to a JSON document that is kept as text. Writing it sorts the
keys of every object, and reading it back gives the sorted document. And a
document is changed by *merging* a patch into it: objects merge key by key,
everything else is replaced.

`canon` is the first: the document a write followed by a read returns. `merge` is
the second. The one fact the layers above need about the two together is
`canon_merge_congr`: a merge cannot see key order, so it does not matter whether
a patch is merged before or after it went through the text.

An object is an association list in which the first entry of a key counts.
-/

namespace Json

/-- A JSON value. Floats are kept apart from integers, as the text keeps them. -/
inductive Value where
  | null
  | bool (b : Bool)
  | int (n : Int)
  | float (q : Rat)
  | str (s : String)
  | arr (xs : List Value)
  | obj (fs : List (String × Value))
  deriving Inhabited

/-- The fields of an object. -/
abbrev Fields := List (String × Value)

/-! ## Looking up and writing a key -/

/-- The entry of `k`. -/
def lookup (k : String) : Fields → Option Value
  | [] => none
  | (k', v) :: rest => if k' = k then some v else lookup k rest

@[simp] theorem lookup_nil (k : String) : lookup k [] = none := rfl

theorem lookup_cons (k k' : String) (v : Value) (fs : Fields) :
    lookup k ((k', v) :: fs) = if k' = k then some v else lookup k fs := rfl

theorem lookup_append (k : String) (fs gs : Fields) :
    lookup k (fs ++ gs) = (lookup k fs).or (lookup k gs) := by
  induction fs with
  | nil => rfl
  | cons f fs ih =>
      obtain ⟨k', v⟩ := f
      simp only [List.cons_append, lookup_cons]
      split
      · rfl
      · exact ih

/-- Rewriting every value in place rewrites what a lookup returns. -/
theorem lookup_map (g : String → Value → Value) (k : String) (fs : Fields) :
    lookup k (fs.map fun f => (f.1, g f.1 f.2)) = (lookup k fs).map (g k) := by
  induction fs with
  | nil => rfl
  | cons f fs ih =>
      obtain ⟨k', v⟩ := f
      simp only [List.map_cons, lookup_cons]
      by_cases h : k' = k
      · subst h; simp
      · simp only [if_neg h]; exact ih

/-- Keeping the entries whose key satisfies `p` keeps exactly the lookups of such keys. -/
theorem lookup_filter (p : String → Bool) (k : String) (fs : Fields) :
    lookup k (fs.filter fun f => p f.1) = if p k then lookup k fs else none := by
  induction fs with
  | nil => simp
  | cons f fs ih =>
      obtain ⟨k', v⟩ := f
      by_cases hp : p k'
      · simp only [List.filter_cons, hp, if_true, lookup_cons, ih]
        by_cases h : k' = k
        · subst h; simp [hp]
        · simp [h]
      · simp only [List.filter_cons, hp, lookup_cons]
        by_cases h : k' = k
        · subst h; simp [hp, ih]
        · simp [h, ih]

/-- Write `v` under `k`, in place when the key is there. -/
def set (k : String) (v : Value) : Fields → Fields
  | [] => [(k, v)]
  | (k', v') :: rest => if k' = k then (k, v) :: rest else (k', v') :: set k v rest

theorem lookup_set (k k' : String) (v : Value) (fs : Fields) :
    lookup k (set k' v fs) = if k' = k then some v else lookup k fs := by
  induction fs with
  | nil => simp [set, lookup_cons]
  | cons f fs ih =>
      obtain ⟨k₀, v₀⟩ := f
      simp only [set]
      by_cases h : k₀ = k'
      · subst h; simp only [if_true, lookup_cons]
        split <;> rfl
      · simp only [if_neg h, lookup_cons, ih]
        by_cases h₀ : k₀ = k
        · subst h₀; simp [Ne.symm h]
        · simp [h₀]

namespace Value

/-- The value under `k` of an object; nothing for any other value. -/
def get (v : Value) (k : String) : Option Value :=
  match v with
  | .obj fs => lookup k fs
  | _ => none

/-- The fields of an object; none for any other value. -/
def fields : Value → Fields
  | .obj fs => fs
  | _ => []

@[simp] theorem get_obj (fs : Fields) (k : String) : (Value.obj fs).get k = lookup k fs := rfl

/-- Whether a value is an object. -/
def isObj : Value → Bool
  | .obj _ => true
  | _ => false

/-! ## Equality -/

mutual

/-- Whether two values are the same, key order included. -/
def same : Value → Value → Bool
  | .null, .null => true
  | .bool a, .bool b => a == b
  | .int a, .int b => a == b
  | .float a, .float b => a == b
  | .str a, .str b => a == b
  | .arr xs, .arr ys => sameList xs ys
  | .obj fs, .obj gs => sameFields fs gs
  | _, _ => false
termination_by structural v => v

def sameList : List Value → List Value → Bool
  | [], [] => true
  | x :: xs, y :: ys => same x y && sameList xs ys
  | _, _ => false
termination_by structural xs => xs

def sameFields : List (String × Value) → List (String × Value) → Bool
  | [], [] => true
  | (k, v) :: fs, (l, w) :: gs => k == l && same v w && sameFields fs gs
  | _, _ => false
termination_by structural fs => fs

end

mutual

theorem same_iff (v w : Value) : same v w = true ↔ v = w := by
  cases v with
  | arr xs => cases w <;> simp [same, sameList_iff xs]
  | obj fs => cases w <;> simp [same, sameFields_iff fs]
  | _ => cases w <;> simp [same]
termination_by structural v

theorem sameList_iff (xs ys : List Value) : sameList xs ys = true ↔ xs = ys := by
  cases xs with
  | nil => cases ys <;> simp [sameList]
  | cons x xs => cases ys <;> simp [sameList, same_iff x, sameList_iff xs]
termination_by structural xs

theorem sameFields_iff (fs gs : List (String × Value)) : sameFields fs gs = true ↔ fs = gs := by
  cases fs with
  | nil => cases gs <;> simp [sameFields]
  | cons f fs =>
      obtain ⟨k, v⟩ := f
      cases gs <;> simp [sameFields, same_iff v, sameFields_iff fs, Prod.ext_iff, and_assoc]
termination_by structural fs

end

instance : DecidableEq Value := fun v w => decidable_of_iff _ (same_iff v w)
/-! ## The merge -/

mutual

/-- Merge `patch` into `base`: two objects merge key by key, anything else is replaced. -/
def merge (base : Value) : Value → Value
  | .obj ps =>
    match base with
    | .obj bs =>
      .obj (bs.map (fun f => (f.1, mergeAt f.1 f.2 ps))
        ++ ps.filter fun f => (lookup f.1 bs).isNone)
    | _ => .obj ps
  | p => p
termination_by structural p => p

/-- What the patch fields make of the value `old` held under `k`. -/
def mergeAt (k : String) (old : Value) : List (String × Value) → Value
  | [] => old
  | (k', v) :: rest => if k' = k then merge old v else mergeAt k old rest
termination_by structural ps => ps

end

theorem mergeAt_eq (k : String) (old : Value) (ps : Fields) :
    mergeAt k old ps = match lookup k ps with
      | none => old
      | some v => merge old v := by
  induction ps with
  | nil => rfl
  | cons f ps ih =>
      obtain ⟨k', v⟩ := f
      simp only [mergeAt, lookup_cons]
      split
      · rfl
      · exact ih

/-- What a merge does to one key. -/
def mergeOpt : Option Value → Option Value → Option Value
  | old, none => old
  | none, some v => some v
  | some old, some v => some (merge old v)

theorem lookup_merge (k : String) (bs ps : Fields) :
    (merge (.obj bs) (.obj ps)).get k = mergeOpt (lookup k bs) (lookup k ps) := by
  simp only [merge, get_obj, lookup_append]
  rw [lookup_map (fun k v => mergeAt k v ps),
    lookup_filter (fun k => (lookup k bs).isNone)]
  cases hb : lookup k bs with
  | none => cases hp : lookup k ps <;> simp [mergeOpt]
  | some old => cases hp : lookup k ps <;> simp [mergeOpt, mergeAt_eq, hp]

theorem merge_obj_obj_isObj (bs ps : Fields) : ∃ fs, merge (.obj bs) (.obj ps) = .obj fs :=
  ⟨_, by simp only [merge]; rfl⟩

/-- Merging into anything but an object replaces it. -/
theorem merge_of_not_obj {b : Value} (h : b.isObj = false) (p : Value) : merge b p = p := by
  cases p <;> cases b <;> simp_all [merge, isObj]

theorem merge_not_obj (b : Value) {p : Value} (h : p.isObj = false) : merge b p = p := by
  cases p <;> simp_all [merge, isObj]

end Value

/-! ## Key order -/

/-- Put `v` under `k` into a sorted object. -/
def insert (k : String) (v : Value) : Fields → Fields
  | [] => [(k, v)]
  | (k', v') :: rest =>
    if k = k' then (k, v) :: rest
    else if k < k' then (k, v) :: (k', v') :: rest
    else (k', v') :: insert k v rest

namespace Value

mutual

/-- The value with the keys of every object in order: what its text reads back as. -/
def canon : Value → Value
  | .arr xs => .arr (canonList xs)
  | .obj fs => .obj (canonFields fs)
  | v => v
termination_by structural v => v

def canonList : List Value → List Value
  | [] => []
  | x :: xs => canon x :: canonList xs
termination_by structural xs => xs

def canonFields : List (String × Value) → List (String × Value)
  | [] => []
  | (k, v) :: rest => insert k (canon v) (canonFields rest)
termination_by structural fs => fs

end

end Value

theorem lookup_insert (k k' : String) (v : Value) (fs : Fields) :
    lookup k (insert k' v fs) = if k' = k then some v else lookup k fs := by
  induction fs with
  | nil => simp [insert, lookup_cons]
  | cons f fs ih =>
      obtain ⟨k₀, v₀⟩ := f
      simp only [insert]
      by_cases h : k' = k₀
      · subst h; simp only [if_true, lookup_cons]; split <;> rfl
      · simp only [if_neg h]
        split
        · simp only [lookup_cons]
        · simp only [lookup_cons, ih]
          by_cases h₀ : k₀ = k
          · subst h₀; simp [h]
          · simp [h₀]

/-- Keys strictly increasing. -/
def Sorted (fs : Fields) : Prop := fs.Pairwise fun a b => a.1 < b.1

theorem mem_insert {k : String} {v : Value} {fs : Fields} {f : String × Value}
    (h : f ∈ insert k v fs) : f = (k, v) ∨ f ∈ fs := by
  induction fs with
  | nil => simpa [insert] using h
  | cons g fs ih =>
      obtain ⟨k₀, v₀⟩ := g
      simp only [insert] at h
      split at h
      · rcases List.mem_cons.mp h with h | h
        · exact Or.inl h
        · exact Or.inr (List.mem_cons_of_mem _ h)
      · split at h
        · rcases List.mem_cons.mp h with h | h
          · exact Or.inl h
          · exact Or.inr h
        · rcases List.mem_cons.mp h with h | h
          · exact Or.inr (by rw [h]; exact List.mem_cons_self ..)
          · rcases ih h with h | h
            · exact Or.inl h
            · exact Or.inr (List.mem_cons_of_mem _ h)

theorem sorted_insert {k : String} {v : Value} {fs : Fields} (h : Sorted fs) :
    Sorted (insert k v fs) := by
  induction fs with
  | nil => exact List.pairwise_singleton _ _
  | cons g fs ih =>
      obtain ⟨k₀, v₀⟩ := g
      obtain ⟨hlt, hrest⟩ := List.pairwise_cons.mp h
      simp only [insert]
      split
      · rename_i he
        subst he
        exact List.pairwise_cons.mpr ⟨hlt, hrest⟩
      · rename_i hne
        split
        · rename_i hk
          refine List.pairwise_cons.mpr ⟨?_, h⟩
          intro f hf
          rcases List.mem_cons.mp hf with hf | hf
          · rw [hf]; exact hk
          · exact lt_trans hk (hlt f hf)
        · rename_i hk
          refine List.pairwise_cons.mpr ⟨?_, ih hrest⟩
          intro f hf
          rcases mem_insert hf with hf | hf
          · rw [hf]; exact lt_of_le_of_ne (not_lt.mp hk) (Ne.symm hne)
          · exact hlt f hf

/-- A key below every key of a sorted object is not in it. -/
theorem lookup_eq_none_of_lt {k : String} {fs : Fields} (h : ∀ f ∈ fs, k < f.1) :
    lookup k fs = none := by
  induction fs with
  | nil => rfl
  | cons g fs ih =>
      rw [lookup_cons, if_neg (ne_of_gt (h g (List.mem_cons_self ..)))]
      exact ih fun f hf => h f (List.mem_cons_of_mem _ hf)

/-- Sorted objects are determined by their lookups. -/
theorem sorted_ext {fs gs : Fields} (hf : Sorted fs) (hg : Sorted gs)
    (h : ∀ k, lookup k fs = lookup k gs) : fs = gs := by
  induction fs generalizing gs with
  | nil =>
      cases gs with
      | nil => rfl
      | cons g gs =>
          have := h g.1
          rw [lookup_cons, if_pos rfl] at this
          exact absurd this (by simp)
  | cons f fs ih =>
      obtain ⟨hfl, hfr⟩ := List.pairwise_cons.mp hf
      cases gs with
      | nil =>
          have := h f.1
          rw [lookup_cons, if_pos rfl] at this
          exact absurd this (by simp)
      | cons g gs =>
          obtain ⟨hgl, hgr⟩ := List.pairwise_cons.mp hg
          obtain ⟨kf, vf⟩ := f
          obtain ⟨kg, vg⟩ := g
          have hk : kf = kg := by
            rcases lt_trichotomy kf kg with hlt | heq | hgt
            · have := h kf
              rw [lookup_cons, if_pos rfl, lookup_eq_none_of_lt] at this
              · exact absurd this (by simp)
              · intro f hf
                rcases List.mem_cons.mp hf with hf | hf
                · rw [hf]; exact hlt
                · exact lt_trans hlt (hgl f hf)
            · exact heq
            · have := h kg
              rw [lookup_cons kg kg, if_pos rfl, lookup_eq_none_of_lt] at this
              · exact absurd this (by simp)
              · intro f hf
                rcases List.mem_cons.mp hf with hf | hf
                · rw [hf]; exact hgt
                · exact lt_trans hgt (hfl f hf)
          subst hk
          have hv : vf = vg := by
            have := h kf
            simpa [lookup_cons] using this
          subst hv
          have hrest : fs = gs := by
            refine ih hfr hgr ?_
            intro k
            by_cases hkk : kf = k
            · subst hkk
              rw [lookup_eq_none_of_lt hfl, lookup_eq_none_of_lt hgl]
            · have := h k
              simpa [lookup_cons, hkk] using this
          rw [hrest]

namespace Value

theorem sorted_canonFields (fs : Fields) : Sorted (canonFields fs) := by
  induction fs with
  | nil => exact List.Pairwise.nil
  | cons f fs ih => obtain ⟨k, v⟩ := f; exact sorted_insert ih

theorem lookup_canonFields (k : String) (fs : Fields) :
    lookup k (canonFields fs) = (lookup k fs).map canon := by
  induction fs with
  | nil => rfl
  | cons f fs ih =>
      obtain ⟨k', v⟩ := f
      simp only [canonFields, lookup_insert, lookup_cons, ih]
      split <;> rfl

/-- Two objects have the same text exactly when each key holds values of the same text. -/
theorem canon_obj_eq_iff (fs gs : Fields) :
    canon (.obj fs) = canon (.obj gs)
      ↔ ∀ k, (lookup k fs).map canon = (lookup k gs).map canon := by
  constructor
  · intro h k
    simp only [canon, Value.obj.injEq] at h
    rw [← lookup_canonFields, ← lookup_canonFields, h]
  · intro h
    simp only [canon, Value.obj.injEq]
    refine sorted_ext (sorted_canonFields fs) (sorted_canonFields gs) ?_
    intro k
    rw [lookup_canonFields, lookup_canonFields, h k]

@[simp] theorem isObj_canon (v : Value) : (canon v).isObj = v.isObj := by
  cases v <;> simp [canon, isObj]

theorem exists_obj_of_isObj {v : Value} (h : v.isObj = true) : ∃ fs, v = .obj fs := by
  cases v <;> simp_all [isObj]

theorem sizeOf_lookup_lt {k : String} {v : Value} {fs : Fields} (h : lookup k fs = some v) :
    sizeOf v < sizeOf fs := by
  induction fs with
  | nil => simp at h
  | cons f fs ih =>
      obtain ⟨k', v'⟩ := f
      rw [lookup_cons] at h
      split at h
      · injection h with h; subst h; simp; omega
      · have := ih h; simp; omega

/--
**A merge cannot see key order.** The text of the merged document depends only on
the texts of the two documents merged.
-/
theorem canon_merge_congr {a a' p p' : Value} (ha : canon a = canon a')
    (hp : canon p = canon p') : canon (merge a p) = canon (merge a' p') := by
  -- by the size of the patch: the values under its keys are smaller
  induction hn : sizeOf p using Nat.strongRecOn generalizing a a' p p' with
  | ind n ih =>
    have hpo : p.isObj = p'.isObj := by rw [← isObj_canon p, hp, isObj_canon]
    have hao : a.isObj = a'.isObj := by rw [← isObj_canon a, ha, isObj_canon]
    cases hpb : p.isObj with
    | false =>
        rw [merge_not_obj a hpb, merge_not_obj a' (hpo ▸ hpb)]
        exact hp
    | true =>
        cases hab : a.isObj with
        | false =>
            rw [merge_of_not_obj hab, merge_of_not_obj (hao ▸ hab)]
            exact hp
        | true =>
            obtain ⟨ps, rfl⟩ := exists_obj_of_isObj hpb
            obtain ⟨ps', rfl⟩ := exists_obj_of_isObj (hpo ▸ hpb)
            obtain ⟨bs, rfl⟩ := exists_obj_of_isObj hab
            obtain ⟨bs', rfl⟩ := exists_obj_of_isObj (hao ▸ hab)
            rw [canon_obj_eq_iff] at ha hp
            obtain ⟨ms, hms⟩ := merge_obj_obj_isObj bs ps
            obtain ⟨ms', hms'⟩ := merge_obj_obj_isObj bs' ps'
            have hl : ∀ k, lookup k ms = mergeOpt (lookup k bs) (lookup k ps) := by
              intro k; rw [← lookup_merge, hms]; rfl
            have hl' : ∀ k, lookup k ms' = mergeOpt (lookup k bs') (lookup k ps') := by
              intro k; rw [← lookup_merge, hms']; rfl
            rw [hms, hms', canon_obj_eq_iff]
            intro k
            rw [hl, hl']
            have hak := ha k
            have hpk := hp k
            cases hq : lookup k ps with
            | none =>
                have hq' : lookup k ps' = none := by rw [hq] at hpk; simpa using hpk.symm
                rw [hq']; exact hak
            | some v =>
                obtain ⟨v', hq', hv⟩ : ∃ v', lookup k ps' = some v' ∧ canon v = canon v' := by
                  rw [hq] at hpk
                  obtain ⟨v', h1, h2⟩ := Option.map_eq_some_iff.mp hpk.symm
                  exact ⟨v', h1, h2.symm⟩
                rw [hq']
                cases hb : lookup k bs with
                | none =>
                    have hb' : lookup k bs' = none := by rw [hb] at hak; simpa using hak.symm
                    rw [hb']; simp [mergeOpt, hv]
                | some b =>
                    obtain ⟨b', hb', hbv⟩ : ∃ b', lookup k bs' = some b' ∧ canon b = canon b' := by
                      rw [hb] at hak
                      obtain ⟨b', h1, h2⟩ := Option.map_eq_some_iff.mp hak.symm
                      exact ⟨b', h1, h2.symm⟩
                    rw [hb']
                    have hsz : sizeOf v < n := by
                      have := sizeOf_lookup_lt hq
                      rw [← hn]; simp; omega
                    simp only [mergeOpt, Option.map_some]
                    rw [ih _ hsz hbv hv rfl]

mutual

theorem canon_idem (v : Value) : canon (canon v) = canon v := by
  cases v with
  | arr xs => simp only [canon]; rw [canonList_idem xs]
  | obj fs =>
      show canon (.obj (canonFields fs)) = canon (.obj fs)
      rw [canon_obj_eq_iff]
      intro k
      rw [lookup_canonFields]
      exact lookup_canon_idem k fs
  | _ => rfl
termination_by structural v

theorem canonList_idem (xs : List Value) : canonList (canonList xs) = canonList xs := by
  cases xs with
  | nil => rfl
  | cons x xs => simp only [canonList]; rw [canon_idem x, canonList_idem xs]
termination_by structural xs

theorem lookup_canon_idem (k : String) (fs : List (String × Value)) :
    ((lookup k fs).map canon).map canon = (lookup k fs).map canon := by
  cases fs with
  | nil => rfl
  | cons f fs =>
      obtain ⟨k', v⟩ := f
      rw [lookup_cons]
      split
      · simp only [Option.map_some]; rw [canon_idem v]
      · exact lookup_canon_idem k fs
termination_by structural fs

end

end Value

end Json
