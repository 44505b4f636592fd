import LateBinding.MemberTable
import Mathlib.Data.List.Pairwise

/-!
# Well-kept member tables

A table is well-kept if every method is in the bucket of its signature and no two methods of a
bucket have both the same signature and the same provenance (from a category or not). Every
change keeps tables so, and the table of a class starts out so.
-/

namespace LateBinding.MemberTable

variable {β : Type} {t : MemberTable β} {m x : Method β} {ms : List (Method β)} {k : BucketKey}

/-! ## Replacing methods -/

theorem replaces_iff : replaces m x = true ↔
    x.signature = m.signature ∧ x.origin.isNative = m.origin.isNative := by
  simp [replaces]

theorem replaces_comm : replaces m x = replaces x m := by
  rw [Bool.eq_iff_iff, replaces_iff, replaces_iff, eq_comm, eq_comm (a := x.origin.isNative)]

/-- No method of a list is one that another would have replaced. -/
def Distinct (ms : List (Method β)) : Prop := ms.Pairwise fun a b => replaces a b = false

theorem Distinct.eq_of_replaces (hms : Distinct ms) (hm : m ∈ ms) (hx : x ∈ ms)
    (hr : replaces m x = true) : m = x := by
  by_contra hne
  have : Std.Symm fun a b : Method β => replaces a b = false :=
    ⟨fun _ _ hab => replaces_comm.trans hab⟩
  exact absurd hr (by simp [hms.forall hm hx hne])

theorem Distinct.filter (hms : Distinct ms) (p : Method β → Bool) : Distinct (ms.filter p) :=
  List.Pairwise.filter p hms

theorem mem_of_mem_install (hx : x ∈ install m ms) : x = m ∨ x ∈ ms := by
  induction ms with
  | nil => exact .inl (List.mem_singleton.mp hx)
  | cons old rest ih =>
    unfold install at hx
    split at hx
    · exact (List.mem_cons.mp hx).imp_right (List.mem_cons_of_mem _)
    · rcases List.mem_cons.mp hx with rfl | hx
      · exact .inr List.mem_cons_self
      · exact (ih hx).imp_right (List.mem_cons_of_mem _)

theorem Distinct.install (hms : Distinct ms) (m : Method β) : Distinct (install m ms) := by
  induction ms with
  | nil => exact List.pairwise_singleton _ _
  | cons old rest ih =>
    obtain ⟨hold, hrest⟩ := List.pairwise_cons.mp hms
    unfold MemberTable.install
    split
    · next hr =>
      -- what `old` does not replace, `m` does not replace either
      refine List.pairwise_cons.mpr ⟨fun y hy => ?_, hrest⟩
      obtain ⟨hsig, hnat⟩ := replaces_iff.mp hr
      have := hold y hy
      simpa [replaces, hsig, hnat] using this
    · next hr =>
      -- `m` goes further down, past a method that it does not replace
      refine List.pairwise_cons.mpr ⟨fun y hy => ?_, ih hrest⟩
      rcases mem_of_mem_install hy with rfl | hy
      · rw [replaces_comm]
        exact Bool.eq_false_iff.mpr hr
      · exact hold y hy

/-! ## Well-kept tables -/

/-- The methods are in the buckets of their signatures, and none has a double. -/
structure WellKept (t : MemberTable β) : Prop where
  keyed : ∀ {k m}, m ∈ t.bucket k → m.signature.bucket = k
  distinct : ∀ k, Distinct (t.bucket k)

namespace WellKept

theorem empty (o : Owner) : (empty o : MemberTable β).WellKept where
  keyed hm := by simp at hm
  distinct k := by simp [Distinct]

theorem addMethod (ht : t.WellKept) (m : Method β) : (t.addMethod m).WellKept where
  keyed {k x} hx := by
    rw [bucket_addMethod] at hx
    split at hx
    · next hk => exact (mem_of_mem_install hx).elim (fun hxm => hxm ▸ hk) ht.keyed
    · exact ht.keyed hx
  distinct k := by
    rw [bucket_addMethod]
    split
    · exact (ht.distinct k).install m
    · exact ht.distinct k

theorem prune (ht : t.WellKept) (k : BucketKey) (params : List ParamKind) :
    (t.prune k params).WellKept where
  keyed {k' x} hx := by
    rw [bucket_prune] at hx
    split at hx
    · exact ht.keyed (List.mem_filter.mp hx).1
    · exact ht.keyed hx
  distinct k' := by
    rw [bucket_prune]
    split
    · exact (ht.distinct k').filter _
    · exact ht.distinct k'

/-- What is well-kept depends on the methods only. -/
theorem of_overloads {t' : MemberTable β} (ht : t.WellKept) (h : t'.overloads = t.overloads) :
    t'.WellKept where
  keyed {k m} hm := ht.keyed (by simpa [bucket, h] using hm)
  distinct k := by simpa [bucket, h] using ht.distinct k

theorem apply (ht : t.WellKept) (change : Change β) (serial : Nat) :
    (t.apply change serial).WellKept := by
  cases change with
  | addMethod d => exact ht.addMethod _
  | addCategoryMethod d => exact ht.addMethod _
  | removeMethod name params => exact (ht.prune _ _).prune _ _
  | setProperty => exact ht.of_overloads rfl
  | removeProperty => exact ht.of_overloads rfl
  | setMethodMissing => exact ht.of_overloads rfl
  | setPropertyMissing => exact ht.of_overloads rfl

theorem ofDeclared (c : ClassRef) (declared : List (Method β)) :
    (ofDeclared c declared).WellKept := by
  suffices hfold : ∀ t : MemberTable β, t.WellKept →
      (declared.foldl MemberTable.addMethod t).WellKept from hfold _ (empty _)
  induction declared with
  | nil => exact fun t ht => ht
  | cons m rest ih => exact fun t ht => ih _ (ht.addMethod m)

end WellKept

/-! ## The methods of a table -/

/-- The table holds the method in one of its buckets. -/
def Holds (t : MemberTable β) (m : Method β) : Prop := ∃ k, m ∈ t.bucket k

theorem WellKept.mem_bucket_iff (ht : t.WellKept) :
    m ∈ t.bucket k ↔ t.Holds m ∧ m.signature.bucket = k :=
  ⟨fun hm => ⟨⟨k, hm⟩, ht.keyed hm⟩, fun ⟨⟨_, hm⟩, hk⟩ => hk ▸ (ht.keyed hm).symm ▸ hm⟩

/-- The candidates of a name and arity are the fixed methods with this name and as many
parameters. -/
theorem WellKept.mem_candidates_iff (ht : t.WellKept) {name : String} {arity : Nat} :
    m ∈ t.candidates name arity ↔ t.Holds m ∧ m.signature.name = name ∧
      m.signature.variadic = false ∧ m.signature.params.length = arity := by
  rw [candidates, ht.mem_bucket_iff, Signature.bucket, BucketKey.mk.injEq]
  cases m.signature.variadic <;> simp

theorem WellKept.mem_variadicCandidates_iff (ht : t.WellKept) {name : String} :
    m ∈ t.variadicCandidates name ↔
      t.Holds m ∧ m.signature.name = name ∧ m.signature.variadic = true := by
  rw [variadicCandidates, ht.mem_bucket_iff, Signature.bucket, BucketKey.mk.injEq]
  cases m.signature.variadic <;> simp

end LateBinding.MemberTable
