import LateBinding.Proofs.Members

/-!
# Adding and removing methods

To remove methods after one was added comes to removing them without adding it
(`MemberTable.removeMethod_addMethod`), because what is added replaces nothing but methods that are
removed, and leaves all else where it is. If there was nothing to remove before, the table is what
it was (`Evolved.removal_undoes_addition`): nothing of a bucket stays behind that came into being
for the method, and no other bucket goes.

For this, tables must have no empty buckets. All those have none that come of the declaration of a
class, or of an object without members of its own, by changes (`MemberTable.Evolved`).
-/

namespace LateBinding

namespace MemberTable

variable {β : Type} {t : MemberTable β} {m : Method β} {k : BucketKey} {name : String}
variable {params : List ParamKind}

/-! ## Tables and where they come from -/

/-- The tables that come into being by declarations and changes. -/
inductive Evolved : MemberTable β → Prop
  | declared (c : ClassRef) (methods : List (Method β)) : Evolved (ofDeclared c methods)
  | ofObject (o : ObjectRef) : Evolved (empty (.ofObject o))
  | change {t : MemberTable β} (h : Evolved t) (change : Change β) (serial : Nat) :
    Evolved (t.apply change serial)

/-- What every change keeps of tables, and every table starts with, all tables have. -/
theorem Evolved.invariant {P : MemberTable β → Prop} (h : t.Evolved) (hempty : ∀ o, P (empty o))
    (hadd : ∀ {t}, P t → ∀ m, P (t.addMethod m))
    (hprune : ∀ {t}, P t → ∀ k params, P (t.prune k params))
    (hother : ∀ {t t'}, P t → t'.overloads = t.overloads → P t') : P t := by
  -- a table is declared, empty, or changed, and a change adds, prunes twice, or leaves the
  -- overloads
  induction h with
  | declared c methods =>
    -- methods are declared one after another, from the empty table on
    suffices hfold : ∀ t, P t → P (methods.foldl addMethod t) from hfold _ (hempty _)
    induction methods with
    | nil => exact fun _ ht => ht
    | cons m rest ih => exact fun _ ht => ih _ (hadd ht m)
  | ofObject o => exact hempty _
  | @change t _ change serial ih =>
    cases change with
    | addMethod d => exact hadd ih _
    | addCategoryMethod d => exact hadd ih _
    | removeMethod name params => exact hprune (hprune ih _ _) _ _
    | setProperty => exact hother ih rfl
    | removeProperty => exact hother ih rfl
    | setMethodMissing => exact hother ih rfl
    | setPropertyMissing => exact hother ih rfl

theorem Evolved.wellKept (h : t.Evolved) : t.WellKept :=
  h.invariant .empty (fun ht m => ht.addMethod m) (fun ht k params => ht.prune k params)
    fun ht => ht.of_overloads

/-- There is a bucket only where there are methods. -/
def Pruned (t : MemberTable β) : Prop := ∀ k, t.overloads.get? k ≠ some []

theorem install_ne_nil (m : Method β) (ms : List (Method β)) : install m ms ≠ [] := by
  cases ms with
  | nil => exact List.cons_ne_nil _ _
  | cons old rest =>
    rw [install]
    split <;> exact List.cons_ne_nil _ _

theorem Pruned.addMethod (h : t.Pruned) (m : Method β) : (t.addMethod m).Pruned := by
  intro k
  rw [MemberTable.addMethod, Table.get?_insert]
  split
  · exact fun heq => install_ne_nil _ _ (Option.some.inj heq)
  · exact h k

theorem Pruned.prune (h : t.Pruned) (k : BucketKey) (params : List ParamKind) :
    (t.prune k params).Pruned := by
  intro k'
  unfold MemberTable.prune
  cases t.overloads.get? k with
  | none => exact h k'
  | some ms =>
    dsimp only
    -- the bucket is dropped if nothing of it is kept, and stored without the removed ones otherwise
    cases ms.filter fun m => m.signature.params ≠ params with
    | nil =>
      rw [Table.get?_erase]
      split
      · exact (Option.some_ne_none _).symm
      · exact h k'
    | cons m kept =>
      rw [Table.get?_insert]
      split
      · exact fun heq => List.cons_ne_nil _ _ (Option.some.inj heq)
      · exact h k'

theorem Evolved.pruned (h : t.Evolved) : t.Pruned :=
  h.invariant (fun _ _ => nofun) (fun ht m => ht.addMethod m) (fun ht k params => ht.prune k params)
    fun ht heq k => heq ▸ ht k

/-! ## Removing from one bucket -/

/-- Without anything to remove, nothing changes. -/
theorem Pruned.prune_eq_self (h : t.Pruned)
    (hnone : ∀ m ∈ t.bucket k, m.signature.params ≠ params) : t.prune k params = t := by
  unfold MemberTable.prune
  unfold bucket at hnone
  cases hk : t.overloads.get? k with
  | none => rfl
  | some ms =>
    rw [hk] at hnone
    have hall : ms.filter (fun m => m.signature.params ≠ params) = ms :=
      List.filter_eq_self.mpr fun m hm => decide_eq_true (hnone m hm)
    dsimp only
    rw [hall]
    split
    -- a bucket that is stored is not empty, so it is stored again as it was
    · exact absurd hk (h k)
    · rw [Table.insert_eq_self hk]

/-- What a method replaces has its parameters. -/
theorem filter_install (m : Method β) (ms : List (Method β)) :
    (install m ms).filter (fun x => x.signature.params ≠ m.signature.params) =
      ms.filter fun x => x.signature.params ≠ m.signature.params := by
  induction ms with
  | nil => simp [install]
  | cons old rest ih =>
    rw [install]
    split
    · next hr =>
      have hsame := (replaces_iff.mp hr).1
      simp [hsame]
    · rw [List.filter_cons, List.filter_cons, ih]

/-- A method that was added goes with all others of its parameters. -/
theorem prune_addMethod_self (t : MemberTable β) (m : Method β) :
    (t.addMethod m).prune m.signature.bucket m.signature.params =
      t.prune m.signature.bucket m.signature.params := by
  unfold prune addMethod
  simp only [Table.get?_insert, if_true, filter_install, bucket, Table.erase_insert_self,
    Table.insert_insert]
  cases hk : t.overloads.get? m.signature.bucket with
  | none => simp only [Option.getD_none, List.filter_nil, Table.erase_eq_self hk]
  | some ms => rfl

/-- What is removed from one bucket does not matter to what is added to another. -/
theorem prune_addMethod (t : MemberTable β) (hne : m.signature.bucket ≠ k) :
    (t.addMethod m).prune k params = (t.prune k params).addMethod m := by
  unfold prune addMethod
  simp only [bucket, Table.get?_insert, if_neg hne]
  cases hk : t.overloads.get? k with
  | none => rfl
  | some ms =>
    dsimp only
    split
    · simp only [Table.get?_erase, if_neg hne.symm, Table.erase_insert hne]
    · simp only [Table.get?_insert, if_neg hne.symm,
        Table.insert_comm hne.symm _ _ (Option.isSome_of_eq_some hk)]

/-! ## Removing from a table -/

/-- No method of the table has the name and these parameters. -/
def Lacks (t : MemberTable β) (name : String) (params : List ParamKind) : Prop :=
  ∀ m, t.Holds m → m.signature.name = name → m.signature.params ≠ params

/-- Methods of a name and with given parameters are in one of two buckets. -/
theorem WellKept.lacks_iff (h : t.WellKept) : t.Lacks name params ↔
    ∀ arity ∈ [some params.length, none], ∀ m ∈ t.bucket ⟨name, arity⟩,
      m.signature.params ≠ params := by
  constructor
  · intro hlacks arity _ m hm
    exact hlacks m ⟨_, hm⟩ (congrArg BucketKey.name (h.keyed hm))
  · rintro hnone m ⟨k, hm⟩ rfl rfl
    have hk := h.keyed hm
    refine hnone k.arity ?_ m (by rwa [← hk] at hm ⊢) rfl
    rw [← hk, Signature.bucket]
    cases m.signature.variadic <;> simp

theorem removeMethod_eq_self (h : t.Pruned) (ht : t.WellKept) (hlacks : t.Lacks name params) :
    t.removeMethod name params = t := by
  have hnone := ht.lacks_iff.mp hlacks
  rw [removeMethod, h.prune_eq_self (hnone _ (by simp)), h.prune_eq_self (hnone _ (by simp))]

theorem lacks_removeMethod (ht : t.WellKept) (name : String) (params : List ParamKind) :
    (t.removeMethod name params).Lacks name params := by
  have hkept : (t.removeMethod name params).WellKept := (ht.prune _ _).prune _ _
  refine hkept.lacks_iff.mpr fun arity harity m hm => ?_
  rw [removeMethod, bucket_prune, bucket_prune] at hm
  rw [List.mem_cons, List.mem_singleton] at harity
  rcases harity with rfl | rfl
  · rw [if_neg (by simp), if_pos rfl] at hm
    exact of_decide_eq_true (List.mem_filter.mp hm).2
  · rw [if_pos rfl] at hm
    exact of_decide_eq_true (List.mem_filter.mp hm).2

/-- To add a method makes no difference if it is then removed with all like it. -/
theorem removeMethod_addMethod (t : MemberTable β) (m : Method β) :
    (t.addMethod m).removeMethod m.signature.name m.signature.params =
      t.removeMethod m.signature.name m.signature.params := by
  unfold removeMethod
  -- a removal prunes the fixed and the variadic bucket, and the method is in one of the two
  cases hvariadic : m.signature.variadic with
  | false =>
    have hbucket : m.signature.bucket = ⟨m.signature.name, some m.signature.params.length⟩ := by
      simp [Signature.bucket, hvariadic]
    rw [← hbucket, prune_addMethod_self]
  | true =>
    have hbucket : m.signature.bucket = ⟨m.signature.name, none⟩ := by
      simp [Signature.bucket, hvariadic]
    -- pruning the fixed bucket does not touch the variadic one, where the method was put
    rw [prune_addMethod t (by simp [hbucket]), ← hbucket, prune_addMethod_self]

end MemberTable

/-! ## Undoing an addition -/

variable {β : Type} {t : MemberTable β} {d : MethodDecl β}

/-- The changes that add a declared method: as one of the class, or as one of a category. -/
inductive Change.Adds (d : MethodDecl β) : Change β → Prop
  | method : Adds d (.addMethod d)
  | categoryMethod : Adds d (.addCategoryMethod d)

/-- The change that removes all methods with the name and the parameters of a declared one. -/
def MethodDecl.removal (d : MethodDecl β) : Change β :=
  .removeMethod d.signature.name d.signature.params

theorem Change.Adds.apply {addition : Change β} (h : addition.Adds d) (t : MemberTable β)
    (serial : Nat) : ∃ m : Method β, m.signature = d.signature ∧
      t.apply addition serial = t.addMethod m := by
  cases h with
  | method => exact ⟨d.install .injected serial, rfl, rfl⟩
  | categoryMethod => exact ⟨d.install .category serial, rfl, rfl⟩

namespace MemberTable

/-- Removing undoes adding. If no method of the name has the parameters of the added one, the table
is the one before the addition: with the same candidates of every name and arity in the same order,
the same variadic ones, the same count and names of methods, the same properties and hooks. In any
case the removal leaves no method of the name with these parameters; it comes to the same as without
the addition; and once it was done, doing it again changes nothing. -/
theorem Evolved.removal_undoes_addition (h : t.Evolved) {addition : Change β}
    (hadds : addition.Adds d) (serial later again : Nat) :
    (t.Lacks d.signature.name d.signature.params →
      (t.apply addition serial).apply d.removal later = t) ∧
    ((t.apply addition serial).apply d.removal later).Lacks d.signature.name d.signature.params ∧
    (t.apply addition serial).apply d.removal later = t.apply d.removal later ∧
    (t.apply d.removal later).apply d.removal again = t.apply d.removal later := by
  obtain ⟨m, hsignature, happly⟩ := hadds.apply t serial
  have hremoved : (t.apply addition serial).apply d.removal later = t.apply d.removal later := by
    have hsame := removeMethod_addMethod t m
    rw [hsignature] at hsame
    rw [happly]
    exact hsame
  have hlacks : (t.apply d.removal later).Lacks d.signature.name d.signature.params :=
    lacks_removeMethod h.wellKept _ _
  -- the addition is undone, so both other parts are about the table of before
  refine ⟨fun hbefore => ?_, hremoved ▸ hlacks, hremoved, ?_⟩
  · rw [hremoved]
    exact removeMethod_eq_self h.pruned h.wellKept hbefore
  -- after a removal there is nothing to remove
  · have hevolved : (t.apply d.removal later).Evolved := .change h d.removal later
    exact removeMethod_eq_self hevolved.pruned hevolved.wellKept hlacks

/-- A variadic method is put beside a fixed one with other parameters, as a category would. -/
def sampleTable : MemberTable Unit :=
  .ofDeclared ⟨8⟩ [⟨⟨"m", [.ofClass .int], false⟩, .body (), .declared, 1⟩]

def sampleDecl : MethodDecl Unit := ⟨⟨"m", [.any, .ofClass .float], true⟩, .body ()⟩

theorem removal_undoes_addition_sampleTable :
    sampleTable.Lacks "m" [.any, .ofClass .float] ∧
    (sampleTable.apply (.addCategoryMethod sampleDecl) 2).variadicCandidates "m" =
      [sampleDecl.install .category 2] ∧
    (sampleTable.apply (.addCategoryMethod sampleDecl) 2).apply sampleDecl.removal 3 =
      sampleTable := by
  have hevolved : sampleTable.Evolved := .declared _ _
  have hlacks : sampleTable.Lacks "m" [.any, .ofClass .float] :=
    hevolved.wellKept.lacks_iff.mpr (by decide)
  obtain ⟨hrestored, -⟩ := hevolved.removal_undoes_addition (d := sampleDecl) .categoryMethod 2 3 4
  exact ⟨hlacks, rfl, hrestored hlacks⟩

end MemberTable

end LateBinding
