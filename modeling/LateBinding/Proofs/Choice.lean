import LateBinding.Proofs.MostSpecific

/-!
# What one table offers

For the arguments of a call, a member table offers at most one fixed and at most one variadic
method. `FixedChoice` and `VariadicChoice` say which, without reference to how it is found:

* the fixed choice has exactly the argument classes as its parameters, or, if the table has no
  such method that fits, is at least as specific in every parameter as all that fit;
* the variadic choice is not beaten by any other, nor is a method with another signature.

Of two methods with one signature both take the native one. `fixedIn` and `variadicIn` find the
choice if there is one, and refuse the call if methods fit but none is the choice.
-/

namespace LateBinding.Lookup

variable {β : Type} {h : Hierarchy} {t : MemberTable β} {m x : Method β}
variable {cls : ClassRef} {name : String} {args : List ClassRef}

/-! ## Choices -/

/-- A fixed method of the table to which the arguments can be passed. -/
def Fits (h : Hierarchy) (t : MemberTable β) (name : String) (args : List ClassRef)
    (m : Method β) : Prop :=
  t.Holds m ∧ m.signature.name = name ∧ m.signature.accepts h args

/-- A variadic method of the table to which the arguments can be passed. -/
def FitsMany (h : Hierarchy) (t : MemberTable β) (name : String) (args : List ClassRef)
    (m : Method β) : Prop :=
  t.Holds m ∧ m.signature.name = name ∧ m.signature.acceptsMany h args

/-- The fixed method that the table offers. -/
structure FixedChoice (h : Hierarchy) (t : MemberTable β) (name : String) (args : List ClassRef)
    (m : Method β) : Prop where
  fits : Fits h t name args m
  best : m.signature.params = args.map .ofClass ∨
    (∀ x, Fits h t name args x → x.signature.params ≠ args.map .ofClass) ∧
      ∀ x, Fits h t name args x → m.signature.atLeastAsSpecific h x.signature
  native : ∀ x, Fits h t name args x → x.signature = m.signature →
    x.origin.isNative = true → m.origin.isNative = true

/-- The variadic method that the table offers. -/
structure VariadicChoice (h : Hierarchy) (t : MemberTable β) (name : String)
    (args : List ClassRef) (m : Method β) : Prop where
  fits : FitsMany h t name args m
  unbeaten : ∀ x, FitsMany h t name args x → ¬ Beats h x m
  signature : ∀ x, FitsMany h t name args x →
    (∀ y, FitsMany h t name args y → ¬ Beats h y x) → x.signature = m.signature
  native : ∀ x, FitsMany h t name args x → x.signature = m.signature →
    x.origin.isNative = true → m.origin.isNative = true

/-! ## Fixed methods -/

/-- The methods of a table that take the arguments exactly. -/
def exactIn (t : MemberTable β) (name : String) (args : List ClassRef) : List (Method β) :=
  (t.candidates name args.length).filter (·.signature.acceptsExactly args)

/-- The methods of a table that take the arguments. -/
def fittingIn (h : Hierarchy) (t : MemberTable β) (name : String) (args : List ClassRef) :
    List (Method β) :=
  (t.candidates name args.length).filter (·.signature.accepts h args)

section Fixed

variable (ht : t.WellKept)
include ht

theorem mem_fittingIn : m ∈ fittingIn h t name args ↔ Fits h t name args m := by
  rw [fittingIn, List.mem_filter, ht.mem_candidates_iff, Fits]
  constructor
  · rintro ⟨⟨hm, hname, -, -⟩, hacc⟩
    exact ⟨hm, hname, hacc⟩
  · rintro ⟨hm, hname, hacc⟩
    obtain ⟨hvar, hfit⟩ := Signature.accepts_iff.mp hacc
    exact ⟨⟨hm, hname, hvar, Signature.length_eq_of_fits hfit⟩, hacc⟩

theorem mem_exactIn : m ∈ exactIn t name args ↔
    Fits h t name args m ∧ m.signature.params = args.map .ofClass := by
  rw [← mem_fittingIn ht, exactIn, fittingIn, List.mem_filter, List.mem_filter, and_assoc,
    Signature.acceptsExactly_iff, Signature.accepts_iff]
  refine and_congr_right fun _ => ⟨fun ⟨hvar, hparams⟩ => ⟨⟨hvar, ?_⟩, hparams⟩,
    fun ⟨⟨hvar, _⟩, hparams⟩ => ⟨hvar, hparams⟩⟩
  rw [hparams]
  exact Signature.fits_exactly

omit ht in
/-- Fixed methods of one name that have the same parameters have the same signature. -/
theorem signature_eq_of_fits (hm : Fits h t name args m) (hx : Fits h t name args x)
    (hparams : m.signature.params = x.signature.params) : m.signature = x.signature := by
  have hname := hm.2.1.trans hx.2.1.symm
  have hvar := (Signature.accepts_iff.mp hm.2.2).1.trans (Signature.accepts_iff.mp hx.2.2).1.symm
  generalize m.signature = s, x.signature = s' at hname hparams hvar
  cases s
  cases s'
  simp_all

variable (hh : h.WellFormed)
include hh

/-- If a method takes the arguments exactly, the choice is among those that do. -/
theorem fixedChoice_iff_of_exact (he : exactIn t name args ≠ []) :
    FixedChoice h t name args m ↔ IsPick h (exactIn t name args) m := by
  have hexact : ∀ x, x ∈ exactIn t name args ↔
      Fits h t name args x ∧ x.signature.params = args.map .ofClass := fun _ => mem_exactIn ht
  rw [isPick_iff_isLeast hh args]
  · constructor
    · intro hc
      -- the best of the fitting methods is exact, for there is one that is
      have hm : m ∈ exactIn t name args := by
        refine (hexact m).mpr ⟨hc.fits, hc.best.resolve_right fun ⟨hnone, _⟩ => he ?_⟩
        exact List.eq_nil_iff_forall_not_mem.mpr fun x hx =>
          hnone x ((hexact x).mp hx).1 ((hexact x).mp hx).2
      -- all exact methods have the same parameters, so each of them is as specific as any
      refine ⟨⟨hm, fun x hx => Signature.atLeastAsSpecific_of_params ?_⟩,
        fun x hx => hc.native x ((hexact x).mp hx).1⟩
      rw [((hexact m).mp hm).2, ((hexact x).mp hx).2]
    · rintro ⟨⟨hm, -⟩, hnat⟩
      obtain ⟨hfits, hparams⟩ := (hexact m).mp hm
      exact ⟨hfits, .inl hparams, fun x hx hsig =>
        hnat x ((hexact x).mpr ⟨hx, hsig ▸ hparams⟩) hsig⟩
  -- what picks presuppose: the candidates take the arguments, and one list of parameters is one
  -- signature
  · exact fun x hx => (Signature.accepts_iff.mp ((hexact x).mp hx).1.2.2).2
  · exact fun x hx y hy => signature_eq_of_fits ((hexact x).mp hx).1 ((hexact y).mp hy).1

/-- If none does, the choice is the least method that fits. -/
theorem fixedChoice_iff_of_not_exact (he : exactIn t name args = []) :
    FixedChoice h t name args m ↔ IsPick h (fittingIn h t name args) m := by
  have hfit : ∀ x, x ∈ fittingIn h t name args ↔ Fits h t name args x := fun _ => mem_fittingIn ht
  have hnone : ∀ x, Fits h t name args x → x.signature.params ≠ args.map .ofClass := by
    -- no fitting method has the very parameters, so the rule for exact ones is out of play
    intro x hx hparams
    have hmem := (mem_exactIn ht).mpr ⟨hx, hparams⟩
    simp [he] at hmem
  rw [isPick_iff_isLeast hh args]
  · simp only [hfit]
    constructor
    · intro hc
      exact ⟨⟨hc.fits, (hc.best.resolve_left (hnone m hc.fits)).2⟩, hc.native⟩
    · rintro ⟨⟨hm, hleast⟩, hnat⟩
      exact ⟨hm, .inr ⟨hnone, hleast⟩, hnat⟩
  · exact fun x hx => (Signature.accepts_iff.mp ((hfit x).mp hx).2.2).2
  · exact fun x hx y hy => signature_eq_of_fits ((hfit x).mp hx) ((hfit y).mp hy)

variable (cls) in
theorem fixedIn_of_exact (he : exactIn t name args ≠ []) :
    fixedIn h cls name args t = mostSpecific h cls name args (exactIn t name args) ∧
      ∃ m, mostSpecific h cls name args (exactIn t name args) = .ok (some m) := by
  -- exact methods share their signature, so one of them is chosen
  obtain ⟨m, hm⟩ := mostSpecific_of_signature cls name args hh he
    fun x hx y hy => by
      obtain ⟨hx, hxp⟩ := (mem_exactIn (h := h) ht).mp hx
      obtain ⟨hy, hyp⟩ := (mem_exactIn (h := h) ht).mp hy
      exact signature_eq_of_fits hx hy (hxp.trans hyp.symm)
  refine ⟨?_, m, hm⟩
  rw [hm]
  unfold exactIn at hm
  simp only [fixedIn, hm]

omit ht hh in
theorem fixedIn_of_not_exact (he : exactIn t name args = []) :
    fixedIn h cls name args t = mostSpecific h cls name args (fittingIn h t name args) := by
  unfold exactIn at he
  simp only [fixedIn, he]
  rfl

/-- `fixedIn` finds the choice. -/
theorem fixedIn_eq_some_iff :
    fixedIn h cls name args t = .ok (some m) ↔ FixedChoice h t name args m := by
  have hdistinct := ht.distinct ⟨name, some args.length⟩
  by_cases he : exactIn t name args = []
  · rw [fixedIn_of_not_exact he, fixedChoice_iff_of_not_exact ht hh he]
    exact mostSpecific_eq_some_iff (hdistinct.filter _)
  · rw [(fixedIn_of_exact cls ht hh he).1, fixedChoice_iff_of_exact ht hh he]
    exact mostSpecific_eq_some_iff (hdistinct.filter _)

theorem fixedIn_eq_none_iff :
    fixedIn h cls name args t = .ok none ↔ ∀ m, ¬ Fits h t name args m := by
  by_cases he : exactIn t name args = []
  · rw [fixedIn_of_not_exact he, mostSpecific_eq_none_iff hh, List.eq_nil_iff_forall_not_mem]
    exact forall_congr' fun m => not_congr (mem_fittingIn ht)
  · obtain ⟨heq, m, hm⟩ := fixedIn_of_exact cls ht hh he
    rw [heq, hm]
    refine iff_of_false (by simp) fun hnone => ?_
    obtain ⟨x, hx⟩ := List.exists_mem_of_ne_nil _ he
    exact hnone x ((mem_exactIn ht).mp hx).1

/-- A call that methods of the table fit, but none as its choice, is refused, and the unbeaten
methods are named. -/
theorem fixedIn_eq_error (hm : Fits h t name args m)
    (hno : ∀ x, ¬ FixedChoice h t name args x) :
    fixedIn h cls name args t = .error (.ambiguousOverload (h.nameOf cls) name
      (classTexts h args)
      ((maximal h (fittingIn h t name args)).map (·.signature.describe h))) := by
  by_cases he : exactIn t name args = []
  · rw [fixedIn_of_not_exact he]
    refine mostSpecific_eq_error ((ht.distinct _).filter _) hh
      (List.ne_nil_of_mem ((mem_fittingIn ht).mpr hm)) fun x hx => hno x ?_
    exact (fixedChoice_iff_of_not_exact ht hh he).mpr hx
  · -- methods that take the arguments exactly are never ambiguous
    obtain ⟨heq, x, hx⟩ := fixedIn_of_exact cls ht hh he
    exact absurd ((fixedIn_eq_some_iff ht hh).mp (heq.trans hx)) (hno x)

end Fixed

/-! ## Variadic methods -/

/-- The variadic methods of a table that take the arguments. -/
def variadicFittingIn (h : Hierarchy) (t : MemberTable β) (name : String)
    (args : List ClassRef) : List (Method β) :=
  (t.variadicCandidates name).filter (·.signature.acceptsMany h args)

section Variadic

variable (ht : t.WellKept)
include ht

theorem mem_variadicFittingIn :
    m ∈ variadicFittingIn h t name args ↔ FitsMany h t name args m := by
  rw [variadicFittingIn, List.mem_filter, ht.mem_variadicCandidates_iff, FitsMany]
  constructor
  · rintro ⟨⟨hm, hname, -⟩, hacc⟩
    exact ⟨hm, hname, hacc⟩
  -- accepting many arguments already says that the signature is variadic
  · rintro ⟨hm, hname, hacc⟩
    refine ⟨⟨hm, hname, ?_⟩, hacc⟩
    unfold Signature.acceptsMany at hacc
    split at hacc
    · cases hacc
    · simp only [Bool.and_eq_true] at hacc
      exact hacc.1.1.1

theorem variadicChoice_iff :
    VariadicChoice h t name args m ↔ IsPick h (variadicFittingIn h t name args) m := by
  -- picks are made among unbeaten candidates only, so both sides are put in terms of these
  have hmax : ∀ x, x ∈ maximal h (variadicFittingIn h t name args) ↔
      FitsMany h t name args x ∧ ∀ y, FitsMany h t name args y → ¬ Beats h y x := by
    intro x
    simp only [mem_maximal, mem_variadicFittingIn ht]
  constructor
  · intro hc
    exact ⟨(hmax m).mpr ⟨hc.fits, hc.unbeaten⟩,
      fun x hx => hc.signature x ((hmax x).mp hx).1 ((hmax x).mp hx).2,
      fun x hx => hc.native x ((mem_variadicFittingIn ht).mp hx)⟩
  · intro hp
    exact ⟨((hmax m).mp hp.unbeaten).1, ((hmax m).mp hp.unbeaten).2,
      fun x hx hunbeaten => hp.signature x ((hmax x).mpr ⟨hx, hunbeaten⟩),
      fun x hx => hp.native x ((mem_variadicFittingIn ht).mpr hx)⟩

theorem variadicIn_eq_some_iff :
    variadicIn h cls name args t = .ok (some m) ↔ VariadicChoice h t name args m := by
  rw [variadicChoice_iff ht]
  exact mostSpecific_eq_some_iff ((ht.distinct _).filter _)

variable (hh : h.WellFormed)
include hh

theorem variadicIn_eq_none_iff :
    variadicIn h cls name args t = .ok none ↔ ∀ m, ¬ FitsMany h t name args m := by
  show mostSpecific h cls name args (variadicFittingIn h t name args) = .ok none ↔ _
  rw [mostSpecific_eq_none_iff hh, List.eq_nil_iff_forall_not_mem]
  exact forall_congr' fun m => not_congr (mem_variadicFittingIn ht)

theorem variadicIn_eq_error (hm : FitsMany h t name args m)
    (hno : ∀ x, ¬ VariadicChoice h t name args x) :
    variadicIn h cls name args t = .error (.ambiguousOverload (h.nameOf cls) name
      (classTexts h args)
      ((maximal h (variadicFittingIn h t name args)).map (·.signature.describe h))) :=
  mostSpecific_eq_error ((ht.distinct _).filter _) hh
    (List.ne_nil_of_mem ((mem_variadicFittingIn ht).mpr hm))
    fun x hx => hno x ((variadicChoice_iff ht).mpr hx)

end Variadic

end LateBinding.Lookup
