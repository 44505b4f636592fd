import LateBinding.Lookup
import LateBinding.Proofs.Removal

/-!
# What the buckets of a table hold

Each bucket of a member table holds methods, at least one, and only those of its name and arity or
only variadic ones of its name. No two of them agree in their signature and also in whether they
come from a category, so there are two methods of a signature at most. All changes keep this.

It follows that methods of one signature that are left over by the choice of the most specific one
always have a native one among them: the newest of them is never asked for
(`Distinct.not_lacksNative`). And an added method is alone with its signature and provenance, while
all other methods stay in their order (`filter_replaces_install`, `filter_not_install`).

`MemberTable.Evolved.buckets` puts this together for all tables that come into being.
-/

namespace LateBinding

variable {β : Type}

/-- The choice among methods comes down to several ones of the same signature, none of which is
native. Then the newest counts. -/
def Lookup.LacksNative (h : Hierarchy) (applicable : List (Method β)) : Prop :=
  ∃ first second rest, maximal h applicable = first :: second :: rest ∧
    (∀ m ∈ second :: rest, m.signature = first.signature) ∧
    (first :: second :: rest).find? (·.origin.isNative) = none

/-- A change that puts a method into the table, and the method that it puts there: as one of the
owner, or as one of a category. -/
inductive Change.Puts (serial : Nat) : Change β → Method β → Prop
  | method (d : MethodDecl β) : Puts serial (.addMethod d) (d.install .injected serial)
  | categoryMethod (d : MethodDecl β) :
    Puts serial (.addCategoryMethod d) (d.install .category serial)

namespace MemberTable

variable {t : MemberTable β} {m x : Method β} {ms : List (Method β)} {k : BucketKey}
variable {name : String}

/-! ## Where there are methods -/

theorem Pruned.mem_keys_iff (h : t.Pruned) : k ∈ t.overloads.keys ↔ t.bucket k ≠ [] := by
  rw [← not_iff_not, not_not, ← Table.get?_eq_none_iff, bucket]
  cases hk : t.overloads.get? k with
  | none => simp
  | some ms =>
    have hne : ms ≠ [] := fun hnil => h k (hk.trans (congrArg some hnil))
    simp [hne]

/-- A name has a bucket exactly if it has candidates. -/
theorem Pruned.hasMethod_iff (h : t.Pruned) : t.hasMethod name = true ↔
    (∃ arity, t.candidates name arity ≠ []) ∨ t.variadicCandidates name ≠ [] := by
  have hkeys : t.hasMethod name = true ↔ ∃ arity, t.bucket ⟨name, arity⟩ ≠ [] := by
    simp only [hasMethod, List.any_eq_true, decide_eq_true_eq]
    constructor
    · rintro ⟨⟨_, arity⟩, hk, rfl⟩
      exact ⟨arity, h.mem_keys_iff.mp hk⟩
    · rintro ⟨arity, hk⟩
      exact ⟨⟨name, arity⟩, h.mem_keys_iff.mpr hk, rfl⟩
  rw [hkeys, Option.exists, or_comm]
  rfl

/-! ## No doubles -/

theorem Distinct.pairwise (hms : Distinct ms) :
    ms.Pairwise fun a b => ¬ (a.signature = b.signature ∧ a.origin.isNative = b.origin.isNative) :=
  hms.imp fun hab heq => by
    rw [replaces_comm] at hab
    exact Bool.false_ne_true (hab.symm.trans (replaces_iff.mpr heq))

/-- At most one method of a signature comes from a category, and at most one does not. -/
theorem Distinct.length_filter_le_one (hms : Distinct ms) (s : Signature) (native : Bool) :
    (ms.filter fun m => m.signature = s ∧ m.origin.isNative = native).length ≤ 1 := by
  have hdistinct := hms.filter fun m => m.signature = s ∧ m.origin.isNative = native
  have hlike : ∀ m ∈ ms.filter fun m => m.signature = s ∧ m.origin.isNative = native,
      m.signature = s ∧ m.origin.isNative = native :=
    fun m hm => of_decide_eq_true (List.mem_filter.mp hm).2
  -- two methods left would agree in signature and provenance, and be different ones at once
  cases hfilter : ms.filter fun m => m.signature = s ∧ m.origin.isNative = native with
  | nil => exact Nat.zero_le 1
  | cons m rest =>
    cases rest with
    | nil => exact Nat.le_refl 1
    | cons x rest =>
      rw [hfilter] at hdistinct hlike
      have hm := hlike m List.mem_cons_self
      have hx := hlike x (List.mem_cons_of_mem _ List.mem_cons_self)
      have hdiffer := List.rel_of_pairwise_cons hdistinct.pairwise List.mem_cons_self
      exact absurd ⟨hm.1.trans hx.1.symm, hm.2.trans hx.2.symm⟩ hdiffer

/-- Two methods of one signature that are not doubles cannot both come from a category. -/
theorem Distinct.not_lacksNative (hms : Distinct ms) (h : Hierarchy) (p : Method β → Bool) :
    ¬ Lookup.LacksNative h (ms.filter p) := by
  rintro ⟨first, second, rest, hmaximal, hsame, hnone⟩
  have hdistinct : Distinct (first :: second :: rest) := by
    rw [← hmaximal]
    exact (hms.filter p).filter _
  have hforeign : ∀ m ∈ first :: second :: rest, m.origin.isNative = false :=
    fun m hm => Bool.eq_false_iff.mpr (List.find?_eq_none.mp hnone m hm)
  have hdiffer := List.rel_of_pairwise_cons hdistinct.pairwise List.mem_cons_self
  refine hdiffer ⟨(hsame second List.mem_cons_self).symm, ?_⟩
  rw [hforeign first List.mem_cons_self,
    hforeign second (List.mem_cons_of_mem _ List.mem_cons_self)]

/-! ## What an added method does to the others -/

/-- All methods but those that are replaced stay, in their order. -/
theorem filter_not_install (m : Method β) (ms : List (Method β)) :
    (install m ms).filter (fun x => !replaces m x) = ms.filter fun x => !replaces m x := by
  have hself : replaces m m = true := replaces_iff.mpr ⟨rfl, rfl⟩
  induction ms with
  | nil => simp [install, hself]
  | cons old rest ih =>
    rw [install]
    split
    · next hr => simp [hself, hr]
    · next hr => simp [hr, ih]

/-- What was installed is alone with its signature and provenance. -/
theorem filter_replaces_install (hms : Distinct ms) (m : Method β) :
    (install m ms).filter (replaces m) = [m] := by
  -- along the list as `install` goes: the method takes the first place of its like, or the end
  have hself : replaces m m = true := replaces_iff.mpr ⟨rfl, rfl⟩
  induction ms with
  | nil => simp [install, hself]
  | cons old rest ih =>
    obtain ⟨hold, hrest⟩ := List.pairwise_cons.mp hms
    rw [install]
    split
    · next hr =>
      -- the rest holds nothing like `old`, hence nothing like `m`
      have hnone : rest.filter (replaces m) = [] := List.filter_eq_nil_iff.mpr fun x hx hmx => by
        obtain ⟨hsig, hnat⟩ := replaces_iff.mp hr
        obtain ⟨hsig', hnat'⟩ := replaces_iff.mp hmx
        have hlike : replaces old x = true :=
          replaces_iff.mpr ⟨hsig'.trans hsig.symm, hnat'.trans hnat.symm⟩
        exact Bool.false_ne_true ((hold x hx).symm.trans hlike)
      rw [List.filter_cons_of_pos hself, hnone]
    · next hr => rw [List.filter_cons_of_neg hr, ih hrest]

/-- An added method is in its bucket, and nothing else in the table is like it. -/
theorem WellKept.filter_replaces_addMethod (h : t.WellKept) (m : Method β) (k : BucketKey) :
    ((t.addMethod m).bucket k).filter (replaces m) =
      if m.signature.bucket = k then [m] else [] := by
  rw [bucket_addMethod]
  split
  · exact filter_replaces_install (h.distinct k) m
  · next hk =>
    refine List.filter_eq_nil_iff.mpr fun x hx hmx => hk ?_
    rw [← (replaces_iff.mp hmx).1]
    exact h.keyed hx

theorem filter_not_addMethod (t : MemberTable β) (m : Method β) (k : BucketKey) :
    ((t.addMethod m).bucket k).filter (fun x => !replaces m x) =
      (t.bucket k).filter fun x => !replaces m x := by
  rw [bucket_addMethod]
  split
  · exact filter_not_install m _
  · rfl

/-! ## All tables -/

/-- What is in the buckets of every table. No bucket is empty. The candidates of a name and arity
have the name and as many parameters and are fixed, the variadic candidates of a name have the name
and are variadic. In no bucket do two methods agree in signature and provenance, so there are a
native one and one of a category at most for each signature, and whatever the lookup looks for among
them, it never has to take the newest. There are methods of a name exactly if one of its lists of
candidates is not empty. And a method that is put into the table is then the only one of its
signature and provenance, while the others of each bucket stay in their order. -/
theorem Evolved.buckets (h : t.Evolved) :
    (∀ k, t.overloads.get? k ≠ some []) ∧
    (∀ name arity, ∀ m ∈ t.candidates name arity, m.signature.name = name ∧
      m.signature.params.length = arity ∧ m.signature.variadic = false) ∧
    (∀ name, ∀ m ∈ t.variadicCandidates name,
      m.signature.name = name ∧ m.signature.variadic = true) ∧
    (∀ k, (t.bucket k).Pairwise fun a b =>
      ¬ (a.signature = b.signature ∧ a.origin.isNative = b.origin.isNative)) ∧
    (∀ k s native, ((t.bucket k).filter fun m =>
      m.signature = s ∧ m.origin.isNative = native).length ≤ 1) ∧
    (∀ k hierarchy p, ¬ Lookup.LacksNative hierarchy ((t.bucket k).filter p)) ∧
    (∀ name, t.hasMethod name = true ↔
      (∃ arity, t.candidates name arity ≠ []) ∨ t.variadicCandidates name ≠ []) ∧
    ∀ serial change m, Change.Puts serial change m → ∀ k,
      ((t.apply change serial).bucket k).filter (replaces m) =
        (if m.signature.bucket = k then [m] else []) ∧
      ((t.apply change serial).bucket k).filter (fun x => !replaces m x) =
        (t.bucket k).filter fun x => !replaces m x := by
  have hkept := h.wellKept
  refine ⟨h.pruned, fun name arity m hm => ?_, fun name m hm => ?_,
    fun k => (hkept.distinct k).pairwise, fun k => (hkept.distinct k).length_filter_le_one,
    fun k => (hkept.distinct k).not_lacksNative, fun name => h.pruned.hasMethod_iff, ?_⟩
  -- a bucket's key is the name and arity of all that is in it
  · obtain ⟨-, hname, hfixed, harity⟩ := hkept.mem_candidates_iff.mp hm
    exact ⟨hname, harity, hfixed⟩
  · exact (hkept.mem_variadicCandidates_iff.mp hm).2
  · rintro serial change m hputs k
    -- both kinds of addition put the method into the table in the same way
    have happly : t.apply change serial = t.addMethod m := by
      cases hputs <;> rfl
    rw [happly]
    exact ⟨hkept.filter_replaces_addMethod m k, filter_not_addMethod t m k⟩

/-- A method like the one that the sample table declares. -/
def sampleDouble : MethodDecl Unit := ⟨⟨"m", [.ofClass .int], false⟩, .body ()⟩

/-- As a method of a category it stands beside the declared one, and not in its place. -/
theorem buckets_sampleTable : sampleTable.Evolved ∧
    Change.Puts 2 (.addCategoryMethod sampleDouble) (sampleDouble.install .category 2) ∧
    ((sampleTable.apply (.addCategoryMethod sampleDouble) 2).bucket ⟨"m", some 1⟩).map (·.serial) =
      [1, 2] ∧
    ((sampleTable.apply (.addCategoryMethod sampleDouble) 2).bucket ⟨"m", some 1⟩).filter
      (replaces (sampleDouble.install .category 2)) = [sampleDouble.install .category 2] := by
  have hevolved : sampleTable.Evolved := .declared _ _
  have hputs : Change.Puts 2 (.addCategoryMethod sampleDouble) (sampleDouble.install .category 2) :=
    .categoryMethod sampleDouble
  obtain ⟨-, -, -, -, -, -, -, halone⟩ := hevolved.buckets
  exact ⟨hevolved, hputs, rfl, (halone 2 _ _ hputs ⟨"m", some 1⟩).1⟩

end MemberTable

end LateBinding
