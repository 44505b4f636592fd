import LateBinding.Proofs.Specificity

/-!
# The most specific method

Among the methods to which arguments can be passed, one method beats another if it is at least
as specific and the converse fails. `mostSpecific` looks for the unbeaten methods. There always
are some (`maximal_ne_nil`); if they all have the same signature, it takes the native one, and
otherwise it refuses (`mostSpecific_eq_some_iff`, `mostSpecific_eq_error`).

For fixed methods that take the given arguments, having only one unbeaten signature is the same
as having a least method (`isPick_iff_isLeast`).
-/

namespace LateBinding.Lookup

variable {β : Type} {h : Hierarchy} {m x y : Method β} {l : List (Method β)}

/-! ## Unbeaten methods -/

/-- `m` is at least as specific as `x`, but not the other way round. -/
def Beats (h : Hierarchy) (m x : Method β) : Prop :=
  m.signature.atLeastAsSpecific h x.signature ∧ ¬ x.signature.atLeastAsSpecific h m.signature

theorem mem_maximal : m ∈ maximal h l ↔ m ∈ l ∧ ∀ x ∈ l, ¬ Beats h x m := by
  simp [maximal, Beats]

/-- Whether a method is beaten depends on its parameters only. -/
theorem mem_maximal_of_signature (hm : m ∈ maximal h l) (hx : x ∈ l)
    (hsig : x.signature = m.signature) : x ∈ maximal h l := by
  rw [mem_maximal] at hm ⊢
  exact ⟨hx, fun y hy hyx => hm.2 y hy (by rwa [Beats, hsig] at hyx)⟩

/-- The parameters of `m` lie below those of `x`, and are not the same. -/
def Under (h : Hierarchy) (m x : Method β) : Prop :=
  List.Forall₂ (ParamKind.Below h) m.signature.params x.signature.params ∧
    m.signature.params ≠ x.signature.params

theorem under_of_beats (hmx : Beats h m x) : Under h m x :=
  ⟨Signature.belowAll_of_atLeastAsSpecific hmx.1,
    fun heq => hmx.2 (Signature.atLeastAsSpecific_of_params heq.symm)⟩

section WellFormed

variable (hh : h.WellFormed)
include hh

theorem Under.trans (hmx : Under h m x) (hxy : Under h x y) : Under h m y := by
  refine ⟨ParamKind.belowAll_trans hh hmx.1 hxy.1, fun heq => hmx.2 ?_⟩
  have hxm : List.Forall₂ (ParamKind.Below h) x.signature.params m.signature.params := by
    rw [heq]
    exact hxy.1
  exact ParamKind.belowAll_antisymm hh hmx.1 hxm

/-- A method that beats another is strictly below it in an order, so among finitely many there
is no endless chain of methods each beaten by the next. -/
theorem beats_induction {P : Method β → Prop}
    (step : ∀ m ∈ l, (∀ x ∈ l, Beats h x m → P x) → P m) : ∀ m ∈ l, P m := by
  have : IsStrictOrder (Method β) (Under h) :=
    { irrefl _ hm := hm.2 rfl, trans _ _ _ := Under.trans hh }
  intro m hm
  exact (List.finite_toSet l).wellFoundedOn.induction hm fun x hx ih =>
    step x hx fun y hy hyx => ih y hy (under_of_beats hyx)

theorem maximal_ne_nil (hl : l ≠ []) : maximal h l ≠ [] := by
  have hex : ∀ m ∈ l, ∃ x, x ∈ maximal h l := beats_induction hh fun m hm ih => by
    -- a method that is beaten has one below it, and so on down
    by_cases hmax : m ∈ maximal h l
    · exact ⟨m, hmax⟩
    · simp only [mem_maximal, not_and, not_forall, not_not] at hmax
      obtain ⟨x, hx, hxm⟩ := hmax hm
      exact ih x hx hxm
  obtain ⟨m, hm⟩ := List.exists_mem_of_ne_nil l hl
  exact List.ne_nil_of_mem (hex m hm).choose_spec

end WellFormed

/-! ## Picks -/

/-- The unbeaten methods all have the signature of `m`, which is unbeaten itself, and `m` is
native if any method with its signature is. -/
structure IsPick (h : Hierarchy) (l : List (Method β)) (m : Method β) : Prop where
  unbeaten : m ∈ maximal h l
  signature : ∀ x ∈ maximal h l, x.signature = m.signature
  native : ∀ x ∈ l, x.signature = m.signature → x.origin.isNative = true →
    m.origin.isNative = true

/-- Of distinct methods with one signature, at most one is native and at most one is not; the
native one is preferred. -/
theorem preferNative_eq_iff {first : Method β} (hl : MemberTable.Distinct l)
    (hsig : ∀ x ∈ l, ∀ y ∈ l, x.signature = y.signature) (hne : l ≠ []) :
    preferNative first l = m ↔
      m ∈ l ∧ ∀ x ∈ l, x.origin.isNative = true → m.origin.isNative = true := by
  -- native or not is all that distinct methods of one signature can differ in
  have hunique : ∀ x ∈ l, ∀ y ∈ l, x.origin.isNative = y.origin.isNative → x = y :=
    fun x hx y hy hnat => hl.eq_of_replaces hx hy
      (MemberTable.replaces_iff.mpr ⟨hsig y hy x hx, hnat.symm⟩)
  unfold preferNative
  split
  · next n hn =>
    have hnat : n.origin.isNative = true := by simpa using List.find?_some hn
    have hmem := List.mem_of_find?_eq_some hn
    refine ⟨fun hnm => hnm ▸ ⟨hmem, fun _ _ _ => hnat⟩, fun ⟨hm, hpref⟩ => ?_⟩
    exact hunique n hmem m hm (hnat.trans (hpref n hmem hnat).symm)
  -- with no native one, all of them are alike and there is just one
  · next hn =>
    have hnone : ∀ x ∈ l, x.origin.isNative = false := by simpa using hn
    obtain ⟨n, hlast⟩ := Option.isSome_iff_exists.mp (List.getLast?_isSome.mpr hne)
    have hmem := List.mem_of_getLast? hlast
    simp only [hlast, Option.getD_some]
    refine ⟨fun hnm => hnm ▸ ⟨hmem, fun x hx hx' => absurd hx' (by simp [hnone x hx])⟩,
      fun ⟨hm, _⟩ => ?_⟩
    exact hunique n hmem m hm ((hnone n hmem).trans (hnone m hm).symm)

section MostSpecific

variable {cls : ClassRef} {name : String} {args : List ClassRef}

variable (h cls name args l) in
theorem mostSpecific_cases : mostSpecific h cls name args l = .ok none ∨
    (∃ m, mostSpecific h cls name args l = .ok (some m)) ∨
      mostSpecific h cls name args l = .error (.ambiguousOverload (h.nameOf cls) name
        (classTexts h args) ((maximal h l).map (·.signature.describe h))) := by
  unfold mostSpecific
  split
  · exact .inl rfl
  · next m _ => exact .inr (.inl ⟨m, rfl⟩)
  · next first rest _ hmax =>
    split
    · exact .inr (.inl ⟨_, rfl⟩)
    · exact .inr (.inr (by rw [hmax]))

variable (hl : MemberTable.Distinct l)
include hl

theorem mostSpecific_eq_some_iff :
    mostSpecific h cls name args l = .ok (some m) ↔ IsPick h l m := by
  have hdistinct : MemberTable.Distinct (maximal h l) := hl.filter _
  unfold mostSpecific
  -- nothing is unbeaten, one method is, or several are
  split
  · next hmax =>
    refine iff_of_false (by simp) fun hp => ?_
    simpa [hmax] using hp.unbeaten
  · next x hmax =>
    have hxm : x ∈ maximal h l := by simp [hmax]
    simp only [Except.ok.injEq, Option.some.injEq]
    constructor
    · rintro rfl
      -- a native one of the signature would be unbeaten as well
      refine ⟨hxm, by simp [hmax], fun y hy hsig hnat => ?_⟩
      have hyx := mem_maximal_of_signature hxm hy hsig
      rw [hmax, List.mem_singleton] at hyx
      exact hyx ▸ hnat
    · intro hp
      have hm := hp.unbeaten
      rw [hmax, List.mem_singleton] at hm
      exact hm.symm
  · next first rest _ hmax =>
    have hmem : ∀ {x}, x ∈ first :: rest ↔ x ∈ maximal h l := by simp [hmax]
    -- several are accepted only if they share one signature
    split
    · next hall =>
      have hfirst : ∀ x ∈ first :: rest, x.signature = first.signature := by
        simpa using hall
      have hsame : ∀ x ∈ first :: rest, ∀ y ∈ first :: rest, x.signature = y.signature :=
        fun x hx y hy => (hfirst x hx).trans (hfirst y hy).symm
      rw [Except.ok.injEq, Option.some.injEq,
        preferNative_eq_iff (hmax ▸ hdistinct) hsame (by simp)]
      constructor
      · rintro ⟨hm, hnat⟩
        exact ⟨hmem.mp hm, fun x hx => hsame x (hmem.mpr hx) m hm, fun x hx hsig =>
          hnat x (hmem.mpr (mem_maximal_of_signature (hmem.mp hm) hx hsig))⟩
      · intro hp
        exact ⟨hmem.mpr hp.unbeaten, fun x hx => hp.native x (mem_maximal.mp (hmem.mp hx)).1
          (hp.signature x (hmem.mp hx))⟩
    · next hdiffer =>
      refine iff_of_false (by simp) fun hp => hdiffer ?_
      have hfirst := hp.signature first (hmem.mp List.mem_cons_self)
      simpa using fun x hx =>
        (hp.signature x (hmem.mp (List.mem_cons_of_mem _ hx))).trans hfirst.symm

variable (hh : h.WellFormed)
include hh

omit hl in
theorem mostSpecific_eq_none_iff : mostSpecific h cls name args l = .ok none ↔ l = [] := by
  constructor
  · intro hnone
    by_contra hne
    have hmax := maximal_ne_nil hh hne
    unfold mostSpecific at hnone
    split at hnone
    · contradiction
    · cases hnone
    · split at hnone <;> cases hnone
  · rintro rfl
    rfl

/-- Methods that cannot be told apart by specificity are refused, and all unbeaten ones are
named. -/
theorem mostSpecific_eq_error (hne : l ≠ []) (hno : ∀ m, ¬ IsPick h l m) :
    mostSpecific h cls name args l = .error (.ambiguousOverload (h.nameOf cls) name
      (classTexts h args) ((maximal h l).map (·.signature.describe h))) := by
  rcases mostSpecific_cases h l cls name args with hnone | ⟨m, hm⟩ | herr
  · exact absurd ((mostSpecific_eq_none_iff hh).mp hnone) hne
  · exact absurd ((mostSpecific_eq_some_iff hl).mp hm) (hno m)
  · exact herr

omit hl in
variable (cls name args) in
/-- Methods of one signature are never refused. -/
theorem mostSpecific_of_signature (hne : l ≠ [])
    (hsig : ∀ x ∈ l, ∀ y ∈ l, x.signature = y.signature) :
    ∃ m, mostSpecific h cls name args l = .ok (some m) := by
  have hmem : ∀ x ∈ maximal h l, x ∈ l := fun x hx => (mem_maximal.mp hx).1
  have hmax := maximal_ne_nil hh hne
  -- as they beat each other nowhere, whatever is unbeaten shares the signature
  unfold mostSpecific
  split
  · contradiction
  · next m _ => exact ⟨m, rfl⟩
  · next first rest _ heq =>
    rw [heq] at hmem
    rw [if_pos]
    · exact ⟨_, rfl⟩
    · simpa using fun x hx => hsig x (hmem x (List.mem_cons_of_mem _ hx)) first
        (hmem first List.mem_cons_self)

end MostSpecific

/-! ## Least methods -/

/-- Of methods that all take the same arguments, and that differ in their parameters or not at
all, the picks are the least ones, native if possible. -/
theorem isPick_iff_isLeast (hh : h.WellFormed) (args : List ClassRef)
    (hfit : ∀ x ∈ l, Signature.fits h x.signature.params args)
    (hparams : ∀ x ∈ l, ∀ y ∈ l, x.signature.params = y.signature.params →
      x.signature = y.signature) :
    IsPick h l m ↔ (m ∈ l ∧ ∀ x ∈ l, m.signature.atLeastAsSpecific h x.signature) ∧
      ∀ x ∈ l, x.signature = m.signature → x.origin.isNative = true →
        m.origin.isNative = true := by
  constructor
  · intro hp
    have hm := (mem_maximal.mp hp.unbeaten).1
    refine ⟨⟨hm, beats_induction hh fun x hx ih => ?_⟩, hp.native⟩
    by_cases hmax : x ∈ maximal h l
    · exact Signature.atLeastAsSpecific_of_params (by rw [hp.signature x hmax])
    · -- a beaten method is reached through one that beats it
      simp only [mem_maximal, not_and, not_forall, not_not] at hmax
      obtain ⟨y, hy, hyx⟩ := hmax hx
      exact Signature.atLeastAsSpecific_trans hh (hfit m hm) (hfit y hy) (hfit x hx)
        (ih y hy hyx) hyx.1
  · rintro ⟨⟨hm, hleast⟩, hnat⟩
    refine ⟨mem_maximal.mpr ⟨hm, fun y hy hym => hym.2 (hleast y hy)⟩, fun x hx => ?_, hnat⟩
    obtain ⟨hxl, hunbeaten⟩ := mem_maximal.mp hx
    have hxm : x.signature.atLeastAsSpecific h m.signature := by
      by_contra hno
      exact hunbeaten m hm ⟨hleast x hxl, hno⟩
    exact hparams x hxl m hm (Signature.params_eq_of_atLeastAsSpecific hh hxm (hleast x hxl))

/-! ## Growing hierarchies -/

/-- A pick stays the pick when more parameters become comparable, as they do when a class is
declared. -/
theorem isPick_of_grow {h' : Hierarchy} (hp : IsPick h l m) (hh : h'.WellFormed)
    (hgrow : ∀ s t : Signature, s.atLeastAsSpecific h t → s.atLeastAsSpecific h' t) :
    IsPick h' l m := by
  -- what gets beaten stays beaten, since a comparison both ways would make the parameters equal
  have hsub : ∀ x ∈ maximal h' l, x ∈ maximal h l := by
    intro x hx
    obtain ⟨hxl, hunbeaten⟩ := mem_maximal.mp hx
    refine mem_maximal.mpr ⟨hxl, fun y hy ⟨hyx, hxy⟩ => hunbeaten y hy ⟨hgrow _ _ hyx, ?_⟩⟩
    intro hxy'
    exact hxy (Signature.atLeastAsSpecific_of_params
      (Signature.params_eq_of_atLeastAsSpecific hh hxy' (hgrow _ _ hyx)))
  have hm := (mem_maximal.mp hp.unbeaten).1
  obtain ⟨z, hz⟩ := List.exists_mem_of_ne_nil _ (maximal_ne_nil hh (List.ne_nil_of_mem hm))
  exact ⟨mem_maximal_of_signature hz hm (hp.signature z (hsub z hz)).symm,
    fun x hx => hp.signature x (hsub x hx), hp.native⟩

end LateBinding.Lookup
