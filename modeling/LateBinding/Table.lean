/-!
# Tables in insertion order

A `Table` maps keys to values and remembers the order in which its keys first
arrived. Storing under a key that is present replaces the value where it stands, so
listings are stable under updates. The view of a table is `get?`; the lemmas below say
what each operation does to it.
-/

namespace LateBinding

/-- A finite map kept as a list of pairs, oldest key first. -/
structure Table (κ ν : Type) where
  entries : List (κ × ν)

namespace Table

variable {κ ν : Type}

def empty : Table κ ν := ⟨[]⟩

instance : Inhabited (Table κ ν) := ⟨empty⟩

def size (t : Table κ ν) : Nat := t.entries.length

def keys (t : Table κ ν) : List κ := t.entries.map (·.1)

def values (t : Table κ ν) : List ν := t.entries.map (·.2)

variable [DecidableEq κ]

/-- The value paired with the first occurrence of `k`. -/
def find (k : κ) : List (κ × ν) → Option ν
  | [] => none
  | (k', v) :: rest => if k' = k then some v else find k rest

/-- Pair `k` with `v`: in place if `k` occurs, at the end otherwise. -/
def put (k : κ) (v : ν) : List (κ × ν) → List (κ × ν)
  | [] => [(k, v)]
  | (k', v') :: rest => if k' = k then (k, v) :: rest else (k', v') :: put k v rest

/-- The value stored under `k`. -/
def get? (t : Table κ ν) (k : κ) : Option ν := find k t.entries

/-- Whether a value is stored under `k`. -/
def contains (t : Table κ ν) (k : κ) : Bool := (t.get? k).isSome

/-- Store `v` under `k`. -/
def insert (t : Table κ ν) (k : κ) (v : ν) : Table κ ν := ⟨put k v t.entries⟩

/-- Forget `k`. -/
def erase (t : Table κ ν) (k : κ) : Table κ ν := ⟨t.entries.filter (·.1 ≠ k)⟩

/-- Change the value stored under `k`, if there is one. -/
def modify (t : Table κ ν) (k : κ) (f : ν → ν) : Table κ ν :=
  match t.get? k with
  | some v => t.insert k (f v)
  | none => t

/-! ### What each operation does to the view -/

@[simp] theorem get?_empty (k : κ) : (empty : Table κ ν).get? k = none := rfl

theorem find_put (k k' : κ) (v : ν) (l : List (κ × ν)) :
    find k' (put k v l) = if k = k' then some v else find k' l := by
  induction l with
  | nil => simp [put, find]
  | cons p rest ih =>
    obtain ⟨k₀, v₀⟩ := p
    by_cases h : k₀ = k
    · subst h; by_cases h' : k₀ = k' <;> simp [put, find, h']
    · by_cases h' : k₀ = k'
      · subst h'; simp [put, find, h, Ne.symm h]
      · simp [put, find, h, h', ih]

@[simp] theorem get?_insert (t : Table κ ν) (k k' : κ) (v : ν) :
    (t.insert k v).get? k' = if k = k' then some v else t.get? k' :=
  find_put k k' v t.entries

theorem find_filter_ne (k k' : κ) (l : List (κ × ν)) :
    find k' (l.filter (·.1 ≠ k)) = if k = k' then none else find k' l := by
  induction l with
  | nil => simp [find]
  | cons p rest ih =>
    obtain ⟨k₀, v₀⟩ := p
    simp only [List.filter_cons]
    by_cases h : k₀ = k
    · subst h; by_cases h' : k₀ = k' <;> simp_all [find]
    · by_cases h' : k₀ = k'
      · subst h'; simp [find, h, Ne.symm h]
      · simp_all [find]

@[simp] theorem get?_erase (t : Table κ ν) (k k' : κ) :
    (t.erase k).get? k' = if k = k' then none else t.get? k' :=
  find_filter_ne k k' t.entries

@[simp] theorem get?_modify (t : Table κ ν) (k k' : κ) (f : ν → ν) :
    (t.modify k f).get? k' = if k = k' then (t.get? k').map f else t.get? k' := by
  unfold modify
  cases h : t.get? k with
  | none => by_cases hk : k = k' <;> simp_all
  | some v => by_cases hk : k = k' <;> simp_all

theorem find_eq_none_iff {k : κ} {l : List (κ × ν)} : find k l = none ↔ k ∉ l.map (·.1) := by
  induction l with
  | nil => simp [find]
  | cons p rest ih =>
    obtain ⟨k', v'⟩ := p
    by_cases hk : k' = k
    · simp [find, hk]
    · simp [find, hk, ih, Ne.symm hk]

/-- There is no value under a key exactly if the key never arrived, or was forgotten since. -/
theorem get?_eq_none_iff {t : Table κ ν} {k : κ} : t.get? k = none ↔ k ∉ t.keys :=
  find_eq_none_iff

theorem mem_keys_of_get? {t : Table κ ν} {k : κ} {v : ν} (h : t.get? k = some v) : k ∈ t.keys := by
  refine Decidable.byContradiction fun hnew => ?_
  rw [get?_eq_none_iff.mpr hnew] at h
  cases h

/-! ### Laws between operations -/

theorem put_put (k : κ) (v w : ν) (l : List (κ × ν)) : put k w (put k v l) = put k w l := by
  induction l with
  | nil => simp [put]
  | cons p rest ih =>
    obtain ⟨k₀, v₀⟩ := p
    by_cases h : k₀ = k
    · simp [put, h]
    · simp [put, h, ih]

theorem put_eq_self {k : κ} {v : ν} {l : List (κ × ν)} (h : find k l = some v) :
    put k v l = l := by
  induction l with
  | nil => cases h
  | cons p rest ih =>
    obtain ⟨k₀, v₀⟩ := p
    by_cases hk : k₀ = k
    · subst hk
      rw [find, if_pos rfl] at h
      cases h
      rw [put, if_pos rfl]
    · rw [find, if_neg hk] at h
      rw [put, if_neg hk, ih h]

/-- Two keys can be stored in either order, unless the order in which they arrive shows. -/
theorem put_comm {k k' : κ} (hne : k ≠ k') (v v' : ν) {l : List (κ × ν)}
    (hk : (find k l).isSome) : put k v (put k' v' l) = put k' v' (put k v l) := by
  induction l with
  | nil => cases hk
  | cons p rest ih =>
    obtain ⟨k₀, v₀⟩ := p
    by_cases h : k₀ = k
    · subst h
      simp [put, hne]
    · by_cases h' : k₀ = k'
      · subst h'
        simp [put, h]
      · rw [find, if_neg h] at hk
        simp [put, h, h', ih hk]

theorem filter_put_self (k : κ) (v : ν) (l : List (κ × ν)) :
    (put k v l).filter (·.1 ≠ k) = l.filter (·.1 ≠ k) := by
  induction l with
  | nil => simp [put]
  | cons p rest ih =>
    obtain ⟨k₀, v₀⟩ := p
    by_cases h : k₀ = k
    · simp [put, h]
    · simp only [put, h, if_false, List.filter_cons, ih]

theorem filter_put {k k' : κ} (hne : k ≠ k') (v : ν) (l : List (κ × ν)) :
    (put k v l).filter (·.1 ≠ k') = put k v (l.filter (·.1 ≠ k')) := by
  induction l with
  | nil => simp [put, hne]
  | cons p rest ih =>
    obtain ⟨k₀, v₀⟩ := p
    by_cases h : k₀ = k
    · subst h
      simp [put, hne]
    · by_cases h' : k₀ = k'
      · subst h'
        simpa [put, h] using ih
      · simpa [put, h, h'] using ih

theorem filter_eq_self_of_find {k : κ} {l : List (κ × ν)} (h : find k l = none) :
    l.filter (·.1 ≠ k) = l := by
  induction l with
  | nil => rfl
  | cons p rest ih =>
    obtain ⟨k₀, v₀⟩ := p
    rw [find] at h
    split at h
    · cases h
    · next hk => simpa [hk] using ih h

theorem insert_insert (t : Table κ ν) (k : κ) (v w : ν) :
    (t.insert k v).insert k w = t.insert k w :=
  congrArg mk (put_put k v w t.entries)

theorem insert_eq_self {t : Table κ ν} {k : κ} {v : ν} (h : t.get? k = some v) :
    t.insert k v = t :=
  congrArg mk (put_eq_self h)

theorem insert_comm {t : Table κ ν} {k k' : κ} (hne : k ≠ k') (v v' : ν)
    (hk : (t.get? k).isSome) : (t.insert k' v').insert k v = (t.insert k v).insert k' v' :=
  congrArg mk (put_comm hne v v' hk)

theorem erase_insert_self (t : Table κ ν) (k : κ) (v : ν) :
    (t.insert k v).erase k = t.erase k :=
  congrArg mk (filter_put_self k v t.entries)

theorem erase_insert {k k' : κ} (hne : k ≠ k') (t : Table κ ν) (v : ν) :
    (t.insert k v).erase k' = (t.erase k').insert k v :=
  congrArg mk (filter_put hne v t.entries)

theorem erase_eq_self {t : Table κ ν} {k : κ} (h : t.get? k = none) : t.erase k = t :=
  congrArg mk (filter_eq_self_of_find h)

end Table

end LateBinding
